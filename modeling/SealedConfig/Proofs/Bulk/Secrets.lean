import SealedConfig.Proofs.Bulk.Steps
import SealedConfig.Proofs.Cipher.Envelope
import SealedConfig.Proofs.Document.Scan

/-!
# Rewriting the secrets of a document

The edits of an update are at distinct paths of texts, so they succeed, and each of them gives another text than the one before. The
document that they make is therefore another one.
-/

namespace SealedConfig

open Json

namespace Bulk

variable {p : Protector} {operation : Operation} {tree : Json} {doc : Document} {field : SecretField} {edits : List Edit}

/-- The secrets that an operation is for stand in the tree, not empty, marked for decrypting and not marked for encrypting. -/
theorem of_mem_targets (hd : tree.HasDistinctKeys) (operation : Operation) (hf : field ∈ operation.targets (Scan.ofTree tree)) :
    tree.textAt? field.path = some field.value ∧ field.value ≠ "" ∧
      Envelope.isMarked field.value = (operation == .decrypt) := by
  cases operation with
  | encrypt =>
    obtain ⟨-, ht, hs, hm, -⟩ := (Scan.mem_plain_iff hd).mp hf
    exact ⟨ht, hs.1, hm⟩
  | decrypt =>
    obtain ⟨-, ht, hm, -⟩ := (Scan.mem_encrypted_iff hd).mp hf
    exact ⟨ht, Envelope.ne_empty_of_isMarked hm, hm⟩

/-- No path occurs twice among the secrets that an operation is for. -/
theorem nodup_targets (hd : tree.HasDistinctKeys) (operation : Operation) :
    ((operation.targets (Scan.ofTree tree)).map SecretField.path).Nodup := by
  cases operation <;> exact Scan.nodup_paths_filter hd _

/-- The edits of secrets are at distinct paths. -/
theorem Rewrites.nodup (hd : tree.HasDistinctKeys) (h : Rewrites p operation (operation.targets (Scan.ofTree tree)) edits) :
    (edits.map Prod.fst).Nodup := by
  rw [h.paths]
  exact nodup_targets hd operation

/-- The edits of secrets are at paths of texts. -/
theorem Rewrites.isSome (hd : tree.HasDistinctKeys) (h : Rewrites p operation (operation.targets (Scan.ofTree tree)) edits) :
    ∀ edit ∈ edits, (tree.textAt? edit.1).isSome := by
  intro edit he
  obtain ⟨field, hf, hpath, -⟩ := h.exists_field he
  rw [← hpath, (of_mem_targets hd operation hf).1]
  rfl

/-- The text that is found for a path is what the operation makes of the secret there. -/
theorem Rewrites.lookup_eq_some_iff (hd : tree.HasDistinctKeys)
    (h : Rewrites p operation (operation.targets (Scan.ofTree tree)) edits) {path : KeyPath} {value : String} :
    edits.lookup path = some value ↔ (path, value) ∈ edits := Json.lookup_eq_some_iff_mem (h.nodup hd)

/-- Another text comes of every secret. -/
theorem Becomes.ne (hd : tree.HasDistinctKeys) (hf : field ∈ operation.targets (Scan.ofTree tree)) {value : String}
    (h : Becomes p operation field.value value) : value ≠ field.value := by
  obtain ⟨-, hne, hm⟩ := of_mem_targets hd operation hf
  rintro rfl
  cases operation with
  | encrypt =>
    obtain ⟨nonce, henclosed⟩ := h
    rw [henclosed, Envelope.isMarked_enclose p nonce hne] at hm
    cases hm
  | decrypt =>
    exact absurd (Envelope.length_of_disclose hm h) (Nat.lt_irrefl _)

/-- The edits of secrets make another text of a document that has secrets. -/
theorem Rewrites.raw_ne (h : Rewrites p operation (operation.targets (Scan.ofDocument doc)) edits)
    (hne : operation.targets (Scan.ofDocument doc) ≠ []) {edited : Document} (he : doc.replaceStrings edits = .ok edited) :
    edited.raw ≠ doc.raw := by
  obtain ⟨sp, hr, ht⟩ := doc.exists_spelling
  obtain ⟨edited', hok, -, -, htree⟩ :=
    Document.replaceStrings_eq_ok hr ht (h.nodup doc.hasDistinctKeys) (h.isSome doc.hasDistinctKeys)
  obtain rfl : edited = edited' := Except.ok.inj (he.symm.trans hok)
  obtain ⟨field, hf⟩ := List.exists_mem_of_ne_nil _ hne
  obtain ⟨value, hv, hbecomes⟩ := h.exists_edit hf
  intro hraw
  have hsame : edited.tree = doc.tree := Except.ok.inj (edited.readTree_raw.symm.trans (hraw ▸ doc.readTree_raw))
  have hold := (of_mem_targets doc.hasDistinctKeys operation hf).1
  have hnew : edited.tree.textAt? field.path = some value := by
    rw [htree, textAt?_withTexts, hold, (h.lookup_eq_some_iff doc.hasDistinctKeys).mpr hv]
    rfl
  rw [hsame, hold] at hnew
  exact hbecomes.ne doc.hasDistinctKeys hf (Option.some.inj hnew).symm

end Bulk

end SealedConfig
