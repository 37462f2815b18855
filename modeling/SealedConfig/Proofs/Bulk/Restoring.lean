import SealedConfig.Proofs.Bulk.Encrypting

/-!
# Decrypting what was encrypted

Decrypting a document that was encrypted gives every secret its text back, so its tree is the first one again, and its text is the
first one but for the spelling of the secrets.
-/

namespace SealedConfig

open Json

/-- The texts of secrets, each at its path. -/
def Scan.texts (scan : Scan) (path : KeyPath) : Option String := (scan.map fun field => (field.path, field.value)).lookup path

namespace Bulk

open Run

/-- No text that is reached through objects is marked. -/
def HasNoMarks (doc : Document) : Prop := ∀ path text, doc.tree.textAt? path = some text → Envelope.isMarked text = false

variable {p : Protector} {doc edited : Document} {edits : List Edit} {sealed : KeyPath → Option String}

/-- The text of a plain secret is found at its path. -/
theorem texts_plain {field : SecretField} (hf : field ∈ (Scan.ofDocument doc).plain) :
    (Scan.ofDocument doc).plain.texts field.path = some field.value := by
  refine lookup_of_mem ?_ (List.mem_map_of_mem hf)
  rw [List.map_map]
  exact nodup_targets doc.hasDistinctKeys .encrypt

/-- Where there is no plain secret none is found. -/
theorem texts_plain_eq_none {path : KeyPath} (hp : path ∉ (Scan.ofDocument doc).plain.map SecretField.path) :
    (Scan.ofDocument doc).plain.texts path = none := by
  refine lookup_eq_none ?_
  rw [List.map_map]
  exact hp

/-- The marked texts of a document that was encrypted are the envelopes of its plain secrets. -/
theorem Seals.mem_encrypted_iff (h : Seals p doc sealed) (hmarks : HasNoMarks doc)
    (htree : edited.tree = doc.tree.withTexts sealed) {path : KeyPath} :
    path ∈ (Scan.ofDocument edited).encrypted.map SecretField.path ↔
      path ∈ (Scan.ofDocument doc).plain.map SecretField.path := by
  constructor
  · intro hmem
    obtain ⟨field, hf, rfl⟩ := List.mem_map.mp hmem
    obtain ⟨hold, -, hm⟩ := of_mem_targets edited.hasDistinctKeys .decrypt hf
    by_cases hp : field.path ∈ (Scan.ofDocument doc).plain.map SecretField.path
    · exact hp
    · rw [h.textAt?_of_not_mem htree hp] at hold
      rw [hmarks _ _ hold] at hm
      cases hm
  · intro hmem
    obtain ⟨field, hf, rfl⟩ := List.mem_map.mp hmem
    obtain ⟨value, hv, hm, -⟩ := h.opens field hf
    have hne : field.path ≠ [] := ((Scan.mem_plain_iff doc.hasDistinctKeys).mp hf).1
    have ht : edited.tree.textAt? field.path = some value := by
      rw [h.textAt?_of_mem htree hf, hv]
    exact List.mem_map.mpr ⟨⟨field.path, value, true⟩,
      (Scan.mem_encrypted_iff edited.hasDistinctKeys).mpr ⟨hne, ht, hm, rfl⟩, rfl⟩

/-- A marked text of a document that was encrypted opens to the plain secret that was there. -/
theorem Seals.disclose_eq (h : Seals p doc sealed) (hmarks : HasNoMarks doc) (htree : edited.tree = doc.tree.withTexts sealed)
    {field : SecretField} (hf : field ∈ (Scan.ofDocument edited).encrypted) :
    ∃ text, (Scan.ofDocument doc).plain.texts field.path = some text ∧ Envelope.disclose p field.value = .ok text := by
  obtain ⟨secret, hsecret, hpath⟩ := List.mem_map.mp ((h.mem_encrypted_iff hmarks htree).mp (List.mem_map_of_mem hf))
  obtain ⟨value, hv, -, hopen⟩ := h.opens secret hsecret
  have ht := (of_mem_targets edited.hasDistinctKeys .decrypt hf).1
  rw [← hpath, h.textAt?_of_mem htree hsecret, hv] at ht
  rw [← hpath, ← Option.some.inj ht]
  exact ⟨secret.value, texts_plain hsecret, hopen⟩

/-- As many texts are marked in a document that was encrypted as there were plain secrets. -/
theorem Seals.length_encrypted (h : Seals p doc sealed) (hmarks : HasNoMarks doc)
    (htree : edited.tree = doc.tree.withTexts sealed) :
    (Scan.ofDocument edited).encrypted.length = (Scan.ofDocument doc).plain.length := by
  have hle := (nodup_targets edited.hasDistinctKeys .decrypt).length_le_of_subset fun _ => (h.mem_encrypted_iff hmarks htree).mp
  have hge := (nodup_targets doc.hasDistinctKeys .encrypt).length_le_of_subset fun _ => (h.mem_encrypted_iff hmarks htree).mpr
  rw [List.length_map, List.length_map] at hle hge
  exact Nat.le_antisymm hle hge

/-- Opening the envelopes of a document that was encrypted puts its plain secrets in their place. -/
theorem Seals.lookup_or (h : Seals p doc sealed) (hmarks : HasNoMarks doc) (htree : edited.tree = doc.tree.withTexts sealed)
    (hopened : Rewrites p .decrypt (Scan.ofDocument edited).encrypted edits) (path : KeyPath) :
    (edits.lookup path).or (sealed path) = (Scan.ofDocument doc).plain.texts path := by
  by_cases hp : path ∈ (Scan.ofDocument doc).plain.map SecretField.path
  · obtain ⟨field, hf, rfl⟩ := List.mem_map.mp ((h.mem_encrypted_iff hmarks htree).mpr hp)
    obtain ⟨value, hv, hbecomes⟩ := hopened.exists_edit hf
    obtain ⟨text, htext, hopen⟩ := h.disclose_eq hmarks htree hf
    rw [hopened.lookup_eq_some_iff edited.hasDistinctKeys |>.mpr hv, htext]
    exact congrArg some (Except.ok.inj (hbecomes.symm.trans hopen))
  · have hnone : edits.lookup path = none := by
      refine lookup_eq_none ?_
      rw [hopened.paths, h.mem_encrypted_iff hmarks htree]
      exact hp
    rw [hnone, h.eq_none hp, texts_plain_eq_none hp]
    rfl

/-- A document with the texts of its plain secrets in their place has its tree. -/
theorem tree_of_texts_plain (htree : edited.tree = doc.tree.withTexts (Scan.ofDocument doc).plain.texts) :
    edited.tree = doc.tree := by
  rw [htree]
  refine withTexts_eq_self doc.tree doc.hasDistinctKeys _ fun path text ht => ?_
  by_cases hp : path ∈ (Scan.ofDocument doc).plain.map SecretField.path
  · obtain ⟨field, hf, rfl⟩ := List.mem_map.mp hp
    rw [(of_mem_targets doc.hasDistinctKeys .encrypt hf).1] at ht
    rw [texts_plain hf, Option.getD_some]
    exact Option.some.inj ht
  · rw [texts_plain_eq_none hp, Option.getD_none]

/-- Every plain secret of a document is spelled in its text as texts are written. -/
def WritesSecrets (doc : Document) (template : Template) : Prop :=
  ∀ field ∈ (Scan.ofDocument doc).plain, ∀ spelled, Piece.slot field.path spelled ∈ template → spelled.text = literal field.value

/-- A document whose plain secrets are spelled as texts are written has the text with these texts in their place. -/
theorem raw_of_writesSecrets {found : Span.Found} {template : Template}
    (h : doc.Reworded (Scan.ofDocument doc).plain.texts found template edited) (hw : WritesSecrets doc template) :
    edited.raw = doc.raw := by
  rw [← String.toList_inj, h.raw, ← h.laidOut.text]
  refine Template.text_fill_eq fun path spelled hslot value hvalue => ?_
  by_cases hp : path ∈ (Scan.ofDocument doc).plain.map SecretField.path
  · obtain ⟨field, hf, rfl⟩ := List.mem_map.mp hp
    rw [texts_plain hf] at hvalue
    rw [← Option.some.inj hvalue]
    exact hw field hf spelled hslot
  · rw [texts_plain_eq_none hp] at hvalue
    cases hvalue

/-- Decrypting undoes encrypting. When nothing hinders either of them, a document without marked texts that was encrypted is
decrypted with the tree that it had, and with its text but for the literals of its plain secrets, which are spelled as texts are
written. If they were before, the file is the one it was. The lock that encrypting took serves again. -/
theorem update_restores (p : Protector) (confirmed : Bool) {cancelAfter : Option Nat} {path : String} {w : World} {mode : Nat}
    (hdoc : doc.StandsAt w.files w.here path mode) (hmarks : HasNoMarks doc)
    (h : Unhindered cancelAfter path (Scan.ofDocument doc).plain.length w) :
    ∃ report between, outcome (update p .encrypt confirmed cancelAfter path) w = (.ok report, between) ∧
      ∀ (limit : Option Nat) (again : World), again.files = between.files → again.here = between.here →
        HasFreeName path again → isCancelled limit (Scan.ofDocument doc).plain.length = false →
        ∃ report' after restored found template, outcome (update p .decrypt true limit path) again = (.ok report', after) ∧
          restored.StandsAt after.files after.here path mode ∧ restored.tree = doc.tree ∧
          doc.Reworded (Scan.ofDocument doc).plain.texts found template restored ∧
          (WritesSecrets doc template → after.files.stat after.here path = w.files.stat w.here path) := by
  obtain ⟨report, between, edits, edited, hrun, hedited⟩ := update_edits p .encrypt confirmed h hdoc nofun nofun
  have hrewrites : Rewrites p .encrypt (Scan.ofDocument doc).plain edits := hedited.rewrites
  have hseals := seals_of_rewrites hrewrites
  have hnodup := hedited.rewrites.nodup doc.hasDistinctKeys
  have hsome := hedited.rewrites.isSome doc.hasDistinctKeys
  obtain ⟨_, _, hsealed⟩ := Document.reworded_of_replaceStrings hnodup hsome hedited.replaced
  refine ⟨report, between, hrun, fun limit again hfiles hhere hname hcancel => ?_⟩
  -- the second run finds as many secrets as the first, and its lock is already there
  have hstands : edited.StandsAt again.files again.here path mode := by
    rw [hfiles, hhere, hedited.here]
    exact hedited.stands
  have hagain : Unhindered limit path (Scan.ofDocument edited).encrypted.length again := by
    refine ⟨⟨between.files, ?_⟩, hname, ?_⟩
    · rw [hfiles, hhere, hedited.here, hedited.lock]
    · rw [hseals.length_encrypted hmarks hsealed.tree, hcancel]
  obtain ⟨report', after, others, restored, hrun', hrestored⟩ :=
    update_edits p .decrypt true hagain hstands (fun _ => rfl) fun _ field hf => by
      obtain ⟨text, -, hopen⟩ := hseals.disclose_eq hmarks hsealed.tree hf
      exact ⟨text, hopen⟩
  obtain ⟨found, template, hreworded⟩ := Document.reworded_of_replaceStrings_twice hnodup hsome hedited.replaced
    (hrestored.rewrites.nodup edited.hasDistinctKeys) (hrestored.rewrites.isSome edited.hasDistinctKeys) hrestored.replaced
  rw [funext (hseals.lookup_or hmarks hsealed.tree hrestored.rewrites)] at hreworded
  have hfinal : restored.StandsAt after.files after.here path mode := by
    rw [hrestored.here]
    exact hrestored.stands
  refine ⟨report', after, restored, found, template, hrun', hfinal, tree_of_texts_plain hreworded.tree, hreworded, fun hw => ?_⟩
  rw [hfinal.file, hdoc.file, raw_of_writesSecrets hreworded hw]

/-- No text of the sample is marked. -/
theorem sample_hasNoMarks : HasNoMarks sample := by
  intro path text h
  have hmem : text = "é" ∨ text = "c" := by
    match path with
    | [] => cases h
    | key :: rest =>
      simp only [sample, textAt?, List.lookup] at h
      split at h
      · cases rest with
        | nil => cases h
        | cons key rest =>
          simp only [Option.bind_some, textAt?, List.lookup] at h
          split at h
          · cases rest with
            | nil => exact Or.inl (Option.some.inj h).symm
            | cons _ _ => cases h
          · cases h
      · split at h
        · cases rest <;> cases h
        · split at h
          · cases rest with
            | nil => exact Or.inr (Option.some.inj h).symm
            | cons _ _ => cases h
          · cases h
  rcases hmem with rfl | rfl <;> decide

/-- The sample is restored when it is decrypted a second after it was encrypted. -/
theorem update_restores_sample :
    ∃ report between report' after,
      outcome (update sampleProtector .encrypt true none "app.json") sampleWorld = (.ok report, between) ∧
      outcome (update sampleProtector .decrypt true none "app.json") { between with now := some ⟨1, 0, 0⟩ } =
        (.ok report', after) ∧
      ∃ restored : Document, restored.StandsAt after.files after.here "app.json" 0o600 ∧ restored.tree = sample.tree := by
  obtain ⟨report, between, hrun, hagain⟩ :=
    update_restores sampleProtector true sample_standsAt sample_hasNoMarks sample_unhindered
  have hstamp : (⟨1, 0, 0⟩ : Moment).stamp = "19700101000001" := by cbv
  have hearlier : ∀ earlier, sampleWorld.now = some earlier → earlier.stamp ≠ (⟨1, 0, 0⟩ : Moment).stamp := by
    rintro _ ⟨⟩
    rw [hstamp, show (⟨0, 0, 0⟩ : Moment).stamp = "19700101000000" by cbv]
    decide
  have hname : HasFreeName "app.json" { between with now := some ⟨1, 0, 0⟩ } :=
    hasFreeName_again hrun (by decide) (sample_isFree _ (Or.inr hstamp)) hearlier rfl rfl rfl
  obtain ⟨report', after, restored, _, _, hrun', hstands, htree, -⟩ :=
    hagain none { between with now := some ⟨1, 0, 0⟩ } rfl rfl hname rfl
  exact ⟨report, between, report', after, hrun, hrun', restored, hstands, htree⟩

end Bulk

end SealedConfig
