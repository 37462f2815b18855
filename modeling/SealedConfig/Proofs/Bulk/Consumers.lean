import SealedConfig.Proofs.Bulk.Encrypting
import SealedConfig.Proofs.Section.Veiled
import SealedConfig.Service.Basic

/-!
# What reads an encrypted document

Sections, API keys and named secrets are opened as they are read, so that whoever reads them from a document that was encrypted reads
what was there before.
-/

namespace SealedConfig

open Run

/-! ## Reading from a file -/

/-- A secret of a document under its key, opened if it is marked. -/
def Document.namedSecret (p : Protector) (doc : Document) (key : String) : Except Failure Service.NamedSecret :=
  match (doc.getText? (KeyPath.parse key)).filter (· ≠ "") with
  | none => .error (.document (.noText (KeyPath.parse key)))
  | some stored =>
    if Envelope.isMarked stored then
      ((Envelope.disclose p stored).mapError .envelope).map fun plain => ⟨(KeyPath.parse key).display, plain, true⟩
    else .ok ⟨(KeyPath.parse key).display, stored, false⟩

variable {p : Protector} {path : String} {w middle : World} {doc edited : Document}

/-- Reading a named secret from a file is having it from the document that is loaded. -/
theorem outcome_readSecret (hload : outcome (Document.load path) w = (.ok doc, middle)) (key : String) :
    (outcome (Document.readSecret p path key) w).1 = doc.namedSecret p key := by
  rw [Document.readSecret, outcome_bind_ok hload, Document.namedSecret]
  dsimp only
  cases (doc.getText? (KeyPath.parse key)).filter (· ≠ "") with
  | none => rfl
  | some stored =>
    dsimp only
    split
    · rw [outcome_bind, Run.disclose, outcome_settle]
      cases Envelope.disclose p stored with
      | error fault => rfl
      | ok plain => rfl
    · rfl

/-- Loading the keys of a file is opening those of the document that is loaded. -/
theorem outcome_loadKeys (hload : outcome (Document.load path) w = (.ok doc, middle)) :
    (outcome (ApiKey.load p path) w).1 =
      ((ApiKey.ofDocument doc).mapError Failure.binding).map (ApiKey.discloseAll p) := by
  rw [ApiKey.load, outcome_bind_ok hload, outcome_bind, outcome_settle]
  cases ApiKey.ofDocument doc with
  | error fault => rfl
  | ok stored => rfl

/-- A named secret of a veiled document has the value that it has in the document, or there is the same fault. -/
theorem Document.Veils.namedSecret_eq (h : Document.Veils p edited doc) (key : String) :
    (edited.namedSecret p key).map (fun secret => (secret.key, secret.value)) =
      (doc.namedSecret p key).map fun secret => (secret.key, secret.value) := by
  have hstored := (h.getText? doc.hasDistinctKeys (KeyPath.parse key)).filter
  unfold Document.namedSecret
  rcases hstored with hsame | ⟨value, plain, hvalue, hplain, hhides⟩
  · rw [hsame]
  · rw [hvalue, hplain]
    dsimp only
    rw [if_pos hhides.marked, hhides.opens, hhides.plain]
    rfl

namespace Bulk

/-! ## Consumers of an encrypted document -/

/-- A document that was encrypted is the one before, veiled. -/
theorem Encrypted.veils {mode : Nat} {after : World} {sealed : KeyPath → Option String}
    (h : Encrypted p doc path mode after sealed edited) : Document.Veils p edited doc := by
  refine ⟨sealed, h.tree, ?_⟩
  intro leaf value hvalue
  have hplain : leaf ∈ (Scan.ofDocument doc).plain.map SecretField.path := by
    rw [← h.seals.paths, hvalue]
    rfl
  obtain ⟨field, hf, rfl⟩ := List.mem_map.mp hplain
  obtain ⟨value', hvalue', hmarked, hopens⟩ := h.seals.opens field hf
  obtain rfl : value = value' := Option.some.inj (hvalue.symm.trans hvalue')
  obtain ⟨hold, hne, hm⟩ := of_mem_targets doc.hasDistinctKeys .encrypt hf
  exact ⟨field.value, hold, hne, hm, hmarked, hopens⟩

/-- Encrypting a document is transparent to what opens its values with the same protector: every section binds to the same value or
the same fault, the same API keys are loaded, and every named secret is read with the same value, whether it was stored in an
envelope or not, or is missing for the same reason. -/
theorem update_transparent {confirmed : Bool} {cancelAfter : Option Nat} {report : Report} {after : World}
    (h : outcome (update p .encrypt confirmed cancelAfter path) w = (.ok report, after)) :
    ∃ (doc edited : Document) (mode : Nat), doc.StandsAt w.files w.here path mode ∧
      edited.StandsAt after.files after.here path mode ∧
      (∀ (α : Type) [Options α] (name : String), Section.bind α edited name p = Section.bind α doc name p) ∧
      (outcome (ApiKey.load p path) after).1 = (outcome (ApiKey.load p path) w).1 ∧
      ∀ key, (outcome (Document.readSecret p path key) after).1.map (fun secret => (secret.key, secret.value)) =
        (outcome (Document.readSecret p path key) w).1.map fun secret => (secret.key, secret.value) := by
  obtain ⟨doc, mode, edits, edited, hdoc, hedited⟩ := edited_of_update h
  have hencrypted := hedited.encrypted
  have hveils := hencrypted.veils
  obtain ⟨middle, hload⟩ : ∃ middle, outcome (Document.load path) w = (.ok doc, middle) :=
    ⟨_, Prod.ext (load_eq_ok_iff.mpr ⟨mode, hdoc⟩) rfl⟩
  obtain ⟨middle', hload'⟩ : ∃ middle, outcome (Document.load path) after = (.ok edited, middle) :=
    ⟨_, Prod.ext (load_eq_ok_iff.mpr ⟨mode, hencrypted.stands⟩) rfl⟩
  refine ⟨doc, edited, mode, hdoc, hencrypted.stands, ?_, ?_, ?_⟩
  · intro α _ name
    exact hveils.bind_eq doc.hasDistinctKeys α name
  · rw [outcome_loadKeys hload', outcome_loadKeys hload, hveils.apiKeys_eq doc.hasDistinctKeys]
  · intro key
    rw [outcome_readSecret hload', outcome_readSecret hload, hveils.namedSecret_eq]

/-- A document with a section, a list of keys and a secret among its members. -/
def consumed : Document where
  path := some "app.json"
  raw := "\x7b\"Core\": \x7b\"Password\": \"x\"\x7d, \"ApiKeys\": [\x7b\"Secret\": \"y\"\x7d]\x7d"
  tree := .object [("Core", .object [("Password", .string "x")]), ("ApiKeys", .array [.object [("Secret", .string "y")]])]
  readTree_raw := by cbv

/-- The section and the secret of that document are read from it when it was encrypted. -/
theorem update_transparent_consumed :
    ∃ report after, outcome (update sampleProtector .encrypt true none "app.json") (worldOf consumed) = (.ok report, after) ∧
      (∃ edited : Document, edited.StandsAt after.files after.here "app.json" 0o600 ∧
        Section.bind CoreOptions edited "core" sampleProtector = .ok ⟨"", "", "", "x"⟩) ∧
      (outcome (Document.readSecret sampleProtector "app.json" "Core/Password") after).1.map
        (fun secret => (secret.key, secret.value)) = .ok ("Core:Password", "x") := by
  have hdoc : consumed.StandsAt (worldOf consumed).files (worldOf consumed).here "app.json" 0o600 := worldOf_standsAt rfl
  obtain ⟨report, after, _, _, hrun, -⟩ :=
    update_edits sampleProtector .encrypt true (worldOf_unhindered consumed _) hdoc nofun nofun
  obtain ⟨doc, edited, mode, hdoc', hedited, hbind, -, hsecret⟩ := update_transparent hrun
  obtain rfl : consumed = doc := hdoc.unique hdoc'
  obtain rfl : 0o600 = mode := hdoc.unique_mode hdoc'
  refine ⟨report, after, hrun, ⟨edited, hedited, ?_⟩, ?_⟩
  · rw [hbind CoreOptions]
    rfl
  · have hload : (outcome (Document.load "app.json") (worldOf consumed)).1 = .ok consumed := load_eq_ok_iff.mpr ⟨_, hdoc⟩
    rw [hsecret, outcome_readSecret (Prod.ext hload rfl)]
    rfl

end Bulk

end SealedConfig
