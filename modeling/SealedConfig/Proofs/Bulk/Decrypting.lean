import SealedConfig.Proofs.Bulk.Encrypting

/-!
# Decrypting a document

Decrypting puts in the place of every marked text what its envelope holds, and leaves all else of the tree as it is. Nothing keeps a
marked text from being enclosed once more, and what an envelope holds is not opened in its turn: a document has marked texts left
exactly when one of its envelopes held a marked text.
-/

namespace SealedConfig

open Json

/-- A marked text stands at a path behind keys. -/
structure Document.IsMarkedAt (doc : Document) (path : KeyPath) (value : String) : Prop where
  behindKey : path ≠ []
  stands : doc.tree.textAt? path = some value
  marked : Envelope.isMarked value = true

/-- Some text behind keys is marked. -/
def Document.HasMark (doc : Document) : Prop := ∃ path value, doc.IsMarkedAt path value

/-- Some envelope behind keys holds a marked text. -/
def Document.NestsMark (p : Protector) (doc : Document) : Prop :=
  ∃ path value text, doc.IsMarkedAt path value ∧ Envelope.disclose p value = .ok text ∧ Envelope.isMarked text = true

namespace Bulk

open FileTree Run

/-- Other texts for exactly the marked texts of a document: those that their envelopes hold. -/
structure Opens (p : Protector) (doc : Document) (opened : KeyPath → Option String) : Prop where
  opens : ∀ path value, doc.IsMarkedAt path value → ∃ text, opened path = some text ∧ Envelope.disclose p value = .ok text
  spares : ∀ path, (∀ value, ¬doc.IsMarkedAt path value) → opened path = none

variable {p : Protector} {doc edited : Document} {edits : List Edit} {opened : KeyPath → Option String} {path : String}
  {w : World} {mode : Nat}

/-- The marked texts are those that decrypting is for. -/
theorem mem_encrypted_iff_isMarkedAt {leaf : KeyPath} {value : String} :
    (⟨leaf, value, true⟩ : SecretField) ∈ (Scan.ofDocument doc).encrypted ↔ doc.IsMarkedAt leaf value := by
  constructor
  · intro h
    obtain ⟨hne, ht, hm, -⟩ := (Scan.mem_encrypted_iff doc.hasDistinctKeys).mp h
    exact ⟨hne, ht, hm⟩
  · intro h
    exact (Scan.mem_encrypted_iff doc.hasDistinctKeys).mpr ⟨h.behindKey, h.stands, h.marked, rfl⟩

/-- A document with nothing to decrypt has no marked text. -/
theorem encrypted_eq_nil_iff : (Scan.ofDocument doc).encrypted = [] ↔ ¬doc.HasMark := by
  constructor
  · rintro hnil ⟨leaf, value, h⟩
    have hmem := mem_encrypted_iff_isMarkedAt.mpr h
    rw [hnil] at hmem
    cases hmem
  · intro hnone
    refine List.eq_nil_iff_forall_not_mem.mpr fun field hf => hnone ?_
    obtain ⟨hne, ht, hm, -⟩ := (Scan.mem_encrypted_iff doc.hasDistinctKeys).mp hf
    exact ⟨field.path, field.value, hne, ht, hm⟩

/-- The edits of the marked texts of a document open them. -/
theorem opens_of_rewrites (h : Rewrites p .decrypt (Scan.ofDocument doc).encrypted edits) : Opens p doc (edits.lookup ·) where
  opens leaf value hmarked := by
    obtain ⟨text, hedit, hopen⟩ := h.exists_edit (mem_encrypted_iff_isMarkedAt.mpr hmarked)
    exact ⟨text, (h.lookup_eq_some_iff doc.hasDistinctKeys).mpr hedit, hopen⟩
  spares leaf hnone := by
    refine lookup_eq_none ?_
    rw [h.paths]
    intro hmem
    obtain ⟨field, hf, rfl⟩ := List.mem_map.mp hmem
    obtain ⟨hne, ht, hm, -⟩ := (Scan.mem_encrypted_iff doc.hasDistinctKeys).mp hf
    exact hnone field.value ⟨hne, ht, hm⟩

/-! ## What is marked afterwards -/

/-- Where a marked text stood the document has what its envelope held. -/
theorem Opens.textAt?_of_isMarkedAt (h : Opens p doc opened) (htree : edited.tree = doc.tree.withTexts opened) {leaf : KeyPath}
    {value text : String} (hmarked : doc.IsMarkedAt leaf value) (hopen : Envelope.disclose p value = .ok text) :
    edited.tree.textAt? leaf = some text := by
  obtain ⟨text', hopened, hopen'⟩ := h.opens leaf value hmarked
  obtain rfl : text = text' := Except.ok.inj (hopen.symm.trans hopen')
  rw [htree, textAt?_withTexts, hmarked.stands, hopened]
  rfl

/-- Elsewhere the document has the text it had. -/
theorem Opens.textAt?_of_not_isMarkedAt (h : Opens p doc opened) (htree : edited.tree = doc.tree.withTexts opened)
    {leaf : KeyPath} (hnone : ∀ value, ¬doc.IsMarkedAt leaf value) : edited.tree.textAt? leaf = doc.tree.textAt? leaf := by
  rw [htree, textAt?_withTexts, h.spares leaf hnone]
  cases doc.tree.textAt? leaf <;> rfl

/-- A text of a document that was decrypted is marked just when it was in an envelope. -/
theorem Opens.isMarkedAt_iff (h : Opens p doc opened) (htree : edited.tree = doc.tree.withTexts opened) {leaf : KeyPath}
    {text : String} :
    edited.IsMarkedAt leaf text ↔
      ∃ value, doc.IsMarkedAt leaf value ∧ Envelope.disclose p value = .ok text ∧ Envelope.isMarked text = true := by
  constructor
  · intro hleft
    by_cases hbefore : ∃ value, doc.IsMarkedAt leaf value
    · obtain ⟨value, hmarked⟩ := hbefore
      obtain ⟨text', -, hopen⟩ := h.opens leaf value hmarked
      have hstands := h.textAt?_of_isMarkedAt htree hmarked hopen
      obtain rfl : text = text' := Option.some.inj (hleft.stands.symm.trans hstands)
      exact ⟨value, hmarked, hopen, hleft.marked⟩
    · -- an unmarked text is not touched, so it is not marked afterwards either
      have hnone := not_exists.mp hbefore
      have hstands := h.textAt?_of_not_isMarkedAt htree hnone
      rw [hleft.stands] at hstands
      exact absurd ⟨hleft.behindKey, hstands.symm, hleft.marked⟩ (hnone text)
  · rintro ⟨value, hmarked, hopen, hm⟩
    exact ⟨hmarked.behindKey, h.textAt?_of_isMarkedAt htree hmarked hopen, hm⟩

/-- A document that was decrypted has a marked text just when one of its envelopes held one. -/
theorem Opens.hasMark_iff (h : Opens p doc opened) (htree : edited.tree = doc.tree.withTexts opened) :
    edited.HasMark ↔ doc.NestsMark p := by
  constructor
  · rintro ⟨leaf, text, hleft⟩
    obtain ⟨value, hrest⟩ := (h.isMarkedAt_iff htree).mp hleft
    exact ⟨leaf, value, text, hrest⟩
  · rintro ⟨leaf, value, text, hrest⟩
    exact ⟨leaf, text, (h.isMarkedAt_iff htree).mpr ⟨value, hrest⟩⟩

/-! ## The run -/

/-- A document that was decrypted: the texts that were opened in its tree, and its place in the file. -/
structure Decrypted (p : Protector) (doc : Document) (path : String) (mode : Nat) (after : World)
    (opened : KeyPath → Option String) (edited : Document) : Prop where
  opens : Opens p doc opened
  tree : edited.tree = doc.tree.withTexts opened
  stands : edited.StandsAt after.files after.here path mode
  lock : after.files.touch after.here (lockPath path) = .ok after.files

/-- An update that edits a document with its marked texts has decrypted it. -/
theorem Edited.decrypted {report : Report} {after : World} (h : Edited p .decrypt doc path mode w report after edits edited) :
    Decrypted p doc path mode after (edits.lookup ·) edited := by
  obtain ⟨_, _, hreworded⟩ := Document.reworded_of_replaceStrings (h.rewrites.nodup doc.hasDistinctKeys)
    (h.rewrites.isSome doc.hasDistinctKeys) h.replaced
  refine ⟨opens_of_rewrites h.rewrites, hreworded.tree, ?_, ?_⟩
  · rw [h.here]
    exact h.stands
  · rw [h.here]
    exact h.lock

/-- A document that was decrypted is decrypted idly just when none of its envelopes held a marked text. -/
theorem Decrypted.updatesIdly_iff {after : World} (h : Decrypted p doc path mode after opened edited) :
    UpdatesIdly .decrypt path after ↔ ¬doc.NestsMark p := by
  have hidle : UpdatesIdly .decrypt path after ↔ (Scan.ofDocument edited).encrypted = [] :=
    Bulk.updatesIdly_iff h.lock h.stands
  rw [hidle, encrypted_eq_nil_iff, h.opens.hasMark_iff h.tree]

/-- An update that decrypts a document puts in the place of each marked text what its envelope held, and nothing else in the tree
changes. A marked text is left, and so the next update is not idle, exactly when an envelope held a marked text. -/
theorem update_decrypts {confirmed : Bool} {cancelAfter : Option Nat} {report : Report} {after : World}
    (h : outcome (update p .decrypt confirmed cancelAfter path) w = (.ok report, after)) :
    ∃ (doc edited : Document) (mode : Nat) (opened : KeyPath → Option String), doc.StandsAt w.files w.here path mode ∧
      edited.StandsAt after.files after.here path mode ∧ Opens p doc opened ∧ edited.tree = doc.tree.withTexts opened ∧
      (edited.HasMark ↔ doc.NestsMark p) ∧ (UpdatesIdly .decrypt path after ↔ ¬doc.NestsMark p) := by
  obtain ⟨doc, mode, edits, edited, hdoc, hedited⟩ := edited_of_update h
  have hdecrypted := hedited.decrypted
  exact ⟨doc, edited, mode, _, hdoc, hdecrypted.stands, hdecrypted.opens, hdecrypted.tree,
    hdecrypted.opens.hasMark_iff hdecrypted.tree, hdecrypted.updatesIdly_iff⟩

/-! ## Samples -/

/-- The envelope of a text under the protector of the samples. -/
def sampleEnvelope (text : String) : String := Envelope.enclose sampleProtector (Vector.replicate 12 0) text

/-- The spelling of an object whose one key holds a text. -/
def tokenSpelling (text : String) : Spelling where
  mark := []
  isMark := Or.inl rfl
  before := ⟨[], nofun⟩
  src := .object (.last ⟨⟨[], nofun⟩, .written "Token", ⟨[], nofun⟩, ⟨[], nofun⟩⟩ (.string (.written text)) ⟨[], nofun⟩)
  after := ⟨[], nofun⟩
  depth_le := Nat.le_of_ble_eq_true rfl

/-- A document whose one key holds the envelope of a text. -/
def tokenDocument (text : String) : Document where
  path := some "app.json"
  raw := (tokenSpelling (sampleEnvelope text)).raw
  tree := .object [("Token", .string (sampleEnvelope text))]
  readTree_raw := (tokenSpelling (sampleEnvelope text)).readTree_raw

/-- The marked text of the document is the envelope. -/
theorem isMarkedAt_tokenDocument {text : String} (hne : text ≠ "") {leaf : KeyPath} {value : String} :
    (tokenDocument text).IsMarkedAt leaf value ↔ leaf = ["Token"] ∧ value = sampleEnvelope text := by
  constructor
  · rintro ⟨hbehind, hstands, -⟩
    match leaf with
    | [] => exact absurd rfl hbehind
    | key :: rest =>
      simp only [tokenDocument, textAt?, List.lookup] at hstands
      split at hstands
      · rename_i hkey
        obtain rfl := eq_of_beq hkey
        cases rest with
        | nil => exact ⟨rfl, (Option.some.inj hstands).symm⟩
        | cons _ _ => cases hstands
      · cases hstands
  · rintro ⟨rfl, rfl⟩
    exact ⟨List.cons_ne_nil _ _, rfl, Envelope.isMarked_enclose sampleProtector _ hne⟩

/-- The document is decrypted where it is the only file. -/
theorem exists_edited_tokenDocument {text : String} (hne : text ≠ "") :
    ∃ report after edits edited,
      outcome (update sampleProtector .decrypt true none "app.json") (worldOf (tokenDocument text)) = (.ok report, after) ∧
      Edited sampleProtector .decrypt (tokenDocument text) "app.json" 0o600 (worldOf (tokenDocument text)) report after edits
        edited := by
  refine update_edits sampleProtector .decrypt true (worldOf_unhindered _ _) (worldOf_standsAt rfl) (fun _ => rfl) ?_
  intro _ field hf
  obtain ⟨hbehind, hstands, hm, -⟩ := (Scan.mem_encrypted_iff (tokenDocument text).hasDistinctKeys).mp hf
  obtain ⟨-, hvalue⟩ := (isMarkedAt_tokenDocument hne).mp ⟨hbehind, hstands, hm⟩
  rw [hvalue]
  exact ⟨text, Envelope.disclose_enclose sampleProtector _ text⟩

/-- The envelope of a document holds a marked text just when a marked text was enclosed. -/
theorem nestsMark_tokenDocument {text : String} (hne : text ≠ "") :
    (tokenDocument text).NestsMark sampleProtector ↔ Envelope.isMarked text = true := by
  have hopen : Envelope.disclose sampleProtector (sampleEnvelope text) = .ok text :=
    Envelope.disclose_enclose sampleProtector _ text
  constructor
  · rintro ⟨leaf, value, text', hmarked, hopen', hm⟩
    obtain ⟨-, rfl⟩ := (isMarkedAt_tokenDocument hne).mp hmarked
    rw [Except.ok.inj (hopen.symm.trans hopen')]
    exact hm
  · intro hm
    exact ⟨_, _, text, (isMarkedAt_tokenDocument hne).mpr ⟨rfl, rfl⟩, hopen, hm⟩

/-- After the envelope of a plain text is decrypted nothing is left to decrypt. -/
theorem update_decrypts_plain :
    ∃ report after, outcome (update sampleProtector .decrypt true none "app.json") (worldOf (tokenDocument "x")) = (.ok report, after) ∧
      UpdatesIdly .decrypt "app.json" after := by
  have hne : "x" ≠ "" := by decide
  obtain ⟨report, after, _, _, hrun, -⟩ := exists_edited_tokenDocument hne
  obtain ⟨doc, _, mode, _, hdoc, -, -, -, -, hidle⟩ := update_decrypts hrun
  obtain rfl : tokenDocument "x" = doc := (worldOf_standsAt rfl : (tokenDocument "x").StandsAt _ _ _ _).unique hdoc
  refine ⟨report, after, hrun, hidle.mpr ?_⟩
  rw [nestsMark_tokenDocument hne]
  decide

/-- After the envelope of a marked text is decrypted that marked text is left, and the next update is not idle. -/
theorem update_leaves_mark :
    ∃ (report : Report) (after : World) (edited : Document),
      outcome (update sampleProtector .decrypt true none "app.json") (worldOf (tokenDocument "ENCRYPTED:x")) = (.ok report, after) ∧
      edited.StandsAt after.files after.here "app.json" 0o600 ∧ edited.tree.textAt? ["Token"] = some "ENCRYPTED:x" ∧
      ¬UpdatesIdly .decrypt "app.json" after := by
  have hne : "ENCRYPTED:x" ≠ "" := by decide
  obtain ⟨report, after, _, edited, hrun, hedited⟩ := exists_edited_tokenDocument hne
  have hdecrypted := hedited.decrypted
  refine ⟨report, after, edited, hrun, hdecrypted.stands, ?_, ?_⟩
  · exact hdecrypted.opens.textAt?_of_isMarkedAt hdecrypted.tree ((isMarkedAt_tokenDocument hne).mpr ⟨rfl, rfl⟩)
      (Envelope.disclose_enclose sampleProtector _ _)
  · rw [hdecrypted.updatesIdly_iff, nestsMark_tokenDocument hne]
    decide

end Bulk

end SealedConfig
