import SealedConfig.Proofs.Bulk.Success

/-!
# Encrypting a document

Encrypting puts an envelope in the place of every plain secret and leaves all else of the document as it is, so nothing is left to
encrypt.
-/

namespace SealedConfig.Bulk

open FileTree Json Run

/-- Other texts for exactly the plain secrets of a document: marked ones that open to the secrets. -/
structure Seals (p : Protector) (doc : Document) (sealed : KeyPath → Option String) : Prop where
  paths : ∀ path, (sealed path).isSome ↔ path ∈ (Scan.ofDocument doc).plain.map SecretField.path
  opens : ∀ field ∈ (Scan.ofDocument doc).plain, ∃ value, sealed field.path = some value ∧
    Envelope.isMarked value = true ∧ Envelope.disclose p value = .ok field.value

variable {p : Protector} {doc edited : Document} {edits : List Edit} {sealed : KeyPath → Option String}

/-- The edits of the plain secrets of a document seal them. -/
theorem seals_of_rewrites (h : Rewrites p .encrypt (Scan.ofDocument doc).plain edits) : Seals p doc (edits.lookup ·) where
  paths path := by
    rw [← h.paths, isSome_lookup_iff]
  opens field hf := by
    obtain ⟨value, hv, nonce, rfl⟩ := h.exists_edit hf
    obtain ⟨-, hne, -⟩ := of_mem_targets doc.hasDistinctKeys .encrypt hf
    exact ⟨_, h.lookup_eq_some_iff doc.hasDistinctKeys |>.mpr hv, Envelope.isMarked_enclose p nonce hne,
      Envelope.disclose_enclose p nonce field.value⟩

/-- What is no plain secret is not sealed. -/
theorem Seals.eq_none (h : Seals p doc sealed) {path : KeyPath} (hp : path ∉ (Scan.ofDocument doc).plain.map SecretField.path) :
    sealed path = none := by
  rw [← Option.not_isSome_iff_eq_none, h.paths]
  exact hp

/-- At the path of a plain secret its envelope stands in a document that was encrypted. -/
theorem Seals.textAt?_of_mem (h : Seals p doc sealed) (htree : edited.tree = doc.tree.withTexts sealed) {field : SecretField}
    (hf : field ∈ (Scan.ofDocument doc).plain) : edited.tree.textAt? field.path = sealed field.path := by
  obtain ⟨value, hv, -⟩ := h.opens field hf
  rw [htree, textAt?_withTexts, (of_mem_targets doc.hasDistinctKeys .encrypt hf).1, hv]
  rfl

/-- Elsewhere the document has the text it had. -/
theorem Seals.textAt?_of_not_mem (h : Seals p doc sealed) (htree : edited.tree = doc.tree.withTexts sealed) {path : KeyPath}
    (hp : path ∉ (Scan.ofDocument doc).plain.map SecretField.path) : edited.tree.textAt? path = doc.tree.textAt? path := by
  rw [htree, textAt?_withTexts, h.eq_none hp]
  cases doc.tree.textAt? path <;> rfl

/-- A document that was encrypted differs from the one before exactly at the paths of the plain secrets. -/
theorem Seals.textAt?_ne_iff (h : Seals p doc sealed) (htree : edited.tree = doc.tree.withTexts sealed) (path : KeyPath) :
    edited.tree.textAt? path ≠ doc.tree.textAt? path ↔ path ∈ (Scan.ofDocument doc).plain.map SecretField.path := by
  constructor
  · intro hne
    by_cases hp : path ∈ (Scan.ofDocument doc).plain.map SecretField.path
    · exact hp
    · exact absurd (h.textAt?_of_not_mem htree hp) hne
  · intro hp
    obtain ⟨field, hf, rfl⟩ := List.mem_map.mp hp
    obtain ⟨value, hv, hm, -⟩ := h.opens field hf
    obtain ⟨hold, -, hplain⟩ := of_mem_targets doc.hasDistinctKeys .encrypt hf
    rw [h.textAt?_of_mem htree hf, hv, hold]
    intro heq
    rw [Option.some.inj heq, hplain] at hm
    cases hm

/-- A document that was encrypted has no plain secrets. -/
theorem Seals.plain_eq_nil (h : Seals p doc sealed) (htree : edited.tree = doc.tree.withTexts sealed) :
    (Scan.ofDocument edited).plain = [] := by
  refine List.eq_nil_iff_forall_not_mem.mpr fun field hf => ?_
  obtain ⟨hne, ht, hs, hm, he⟩ := (Scan.mem_plain_iff edited.hasDistinctKeys).mp hf
  by_cases hp : field.path ∈ (Scan.ofDocument doc).plain.map SecretField.path
  · obtain ⟨sealedField, hsealed, hpath⟩ := List.mem_map.mp hp
    obtain ⟨value, hv, hmarked, -⟩ := h.opens sealedField hsealed
    rw [← hpath, h.textAt?_of_mem htree hsealed, hv] at ht
    rw [← Option.some.inj ht, hmarked] at hm
    cases hm
  · rw [h.textAt?_of_not_mem htree hp] at ht
    exact hp (List.mem_map_of_mem ((Scan.mem_plain_iff doc.hasDistinctKeys).mpr ⟨hne, ht, hs, hm, he⟩))

/-- A document that was encrypted: the envelopes in its tree, and its place in the file. -/
structure Encrypted (p : Protector) (doc : Document) (path : String) (mode : Nat) (after : World)
    (sealed : KeyPath → Option String) (edited : Document) : Prop where
  seals : Seals p doc sealed
  tree : edited.tree = doc.tree.withTexts sealed
  stands : edited.StandsAt after.files after.here path mode

/-- An update that edits a document with its plain secrets has encrypted it. -/
theorem Edited.encrypted {path : String} {mode : Nat} {w after : World} {report : Report}
    (h : Edited p .encrypt doc path mode w report after edits edited) :
    Encrypted p doc path mode after (edits.lookup ·) edited := by
  obtain ⟨_, _, hreworded⟩ := Document.reworded_of_replaceStrings (h.rewrites.nodup doc.hasDistinctKeys)
    (h.rewrites.isSome doc.hasDistinctKeys) h.replaced
  refine ⟨seals_of_rewrites h.rewrites, hreworded.tree, ?_⟩
  rw [h.here]
  exact h.stands

/-- Whoever encrypts the document in a file again finds nothing to do, makes no copy and changes no file. -/
def EncryptsIdly (path : String) (w : World) : Prop :=
  ∀ (p : Protector) (confirmed : Bool) (cancelAfter : Option Nat) (again : World), again.files = w.files → again.here = w.here →
    ∃ last, outcome (update p .encrypt confirmed cancelAfter path) again = (.ok (Report.idle .encrypt), last) ∧
      last.files = w.files

/-- A document without plain secrets whose lock is there encrypts idly. -/
theorem encryptsIdly_of_plain_eq_nil {path : String} {w : World} {mode : Nat} (hdoc : doc.StandsAt w.files w.here path mode)
    (hlock : w.files.touch w.here (lockPath path) = .ok w.files) (hplain : (Scan.ofDocument doc).plain = []) :
    EncryptsIdly path w := (updatesIdly_iff hlock hdoc).mpr hplain

/-- An update that nothing hinders encrypts every plain secret of a document. In the text that stands in the file then exactly their
literals are replaced, in its tree exactly their texts, each by a marked one that opens to it; they are reported in the order of the
document. Nothing is left to encrypt. -/
theorem update_encrypts (p : Protector) (confirmed : Bool) {cancelAfter : Option Nat} {path : String} {w : World} {mode : Nat}
    (hdoc : doc.StandsAt w.files w.here path mode) (h : Unhindered cancelAfter path (Scan.ofDocument doc).plain.length w) :
    ∃ report after edited sealed found template,
      outcome (update p .encrypt confirmed cancelAfter path) w = (.ok report, after) ∧
      report.fields = (Scan.ofDocument doc).plain.map (fun field => field.path.display) ∧
      edited.StandsAt after.files after.here path mode ∧ Seals p doc sealed ∧ doc.Reworded sealed found template edited ∧
      (∀ field ∈ (Scan.ofDocument doc).plain, edited.tree.textAt? field.path = sealed field.path) ∧
      (∀ leaf, edited.tree.textAt? leaf ≠ doc.tree.textAt? leaf ↔ leaf ∈ (Scan.ofDocument doc).plain.map SecretField.path) ∧
      (Scan.ofDocument edited).plain = [] ∧ EncryptsIdly path after := by
  obtain ⟨report, after, edits, edited, hrun, hedited⟩ := update_edits p .encrypt confirmed h hdoc nofun nofun
  have hrewrites : Rewrites p .encrypt (Scan.ofDocument doc).plain edits := hedited.rewrites
  have hseals := seals_of_rewrites hrewrites
  obtain ⟨found, template, hreworded⟩ := Document.reworded_of_replaceStrings
    (hedited.rewrites.nodup doc.hasDistinctKeys) (hedited.rewrites.isSome doc.hasDistinctKeys) hedited.replaced
  have hplain := hseals.plain_eq_nil hreworded.tree
  have hstands : edited.StandsAt after.files after.here path mode := by
    rw [hedited.here]
    exact hedited.stands
  have hlock : after.files.touch after.here (lockPath path) = .ok after.files := by
    rw [hedited.here]
    exact hedited.lock
  refine ⟨report, after, edited, _, found, template, hrun, ?_, hstands, hseals, hreworded,
    fun _ => hseals.textAt?_of_mem hreworded.tree, hseals.textAt?_ne_iff hreworded.tree,
    hplain, encryptsIdly_of_plain_eq_nil hstands hlock hplain⟩
  rw [hedited.fields]
  have hpaths := congrArg (List.map KeyPath.display) hrewrites.paths
  rw [List.map_map, List.map_map] at hpaths
  exact hpaths

/-! ## A sample -/

/-- A document with a byte order mark, a separator in a key, an escape, a secret inside a list and a key that occurs again. -/
def sample : Document where
  path := some "app.json"
  raw := "\ufeff\x7b\"db:a\": \x7b\"Password\": \"\\u00e9\"\x7d, \"all\": [\x7b\"Password\": \"x\"\x7d], \"Token\": \"b\", \"Token\": \"c\"\x7d"
  tree := .object
    [("db:a", .object [("Password", .string "é")]), ("all", .array [.object [("Password", .string "x")]]), ("Token", .string "c")]
  readTree_raw := by cbv

/-- A world where that document is the only file. -/
def sampleWorld : World where
  files := ⟨[(["work"], .directory 0o755), (["work", "app.json"], .file (Bytes.ofText sample.raw) 0o600)]⟩
  here := ["work"]
  environment := []
  fallbackHome := none
  now := some ⟨0, 0, 0⟩
  ticks := 0
  randomness _ := 0
  drawn := 0
  input := []
  output := ""
  complaints := ""
  filter := .silent

/-- A protector with a key of zeros. -/
def sampleProtector : Protector := ⟨Protector.configSecrets, List.replicate 32 0⟩

/-- The sample stands in its file. -/
theorem sample_standsAt : sample.StandsAt sampleWorld.files sampleWorld.here "app.json" 0o600 := ⟨rfl, rfl⟩

/-- In the first two seconds names for copies of the sample are free. -/
theorem sample_isFree (moment : Moment) (h : moment.stamp = "19700101000000" ∨ moment.stamp = "19700101000001") :
    sampleWorld.files.IsFree sampleWorld.here (backupPath "app.json" moment.stamp 0) := by
  rcases h with h | h
  · rw [h]
    exact ⟨⟨["work", "app.json.backup.19700101000000"], false⟩, rfl, rfl⟩
  · rw [h]
    exact ⟨⟨["work", "app.json.backup.19700101000001"], false⟩, rfl, rfl⟩

/-- At the beginning of the clock nothing hinders an update whose lock can be had and whose first name for a copy is free. -/
theorem unhindered_of_free {w : World} (hnow : w.now = some ⟨0, 0, 0⟩)
    (hlock : ∃ locked, w.files.touch w.here (lockPath "app.json") = .ok locked)
    (hfree : w.files.IsFree w.here "app.json.backup.19700101000000") (count : Nat) : Unhindered none "app.json" count w where
  lock := hlock
  name := by
    have hpath : backupPath "app.json" (⟨0, 0, 0⟩ : Moment).stamp 0 = "app.json.backup.19700101000000" := by cbv
    refine ⟨⟨0, 0, 0⟩, 0, hnow, by decide, ?_⟩
    rw [hpath]
    exact hfree
  notCancelled := rfl

/-- The world of the sample with another document as the only file. -/
def worldOf (doc : Document) : World :=
  { sampleWorld with
    files := ⟨[(["work"], .directory 0o755), (["work", "app.json"], .file (Bytes.ofText doc.raw) 0o600)]⟩ }

/-- The document stands in its file there. -/
theorem worldOf_standsAt (hpath : doc.path = some "app.json") :
    doc.StandsAt (worldOf doc).files (worldOf doc).here "app.json" 0o600 := ⟨rfl, hpath⟩

/-- Nothing hinders an update there. -/
theorem worldOf_unhindered (doc : Document) (count : Nat) : Unhindered none "app.json" count (worldOf doc) :=
  unhindered_of_free rfl ⟨_, rfl⟩ ⟨⟨["work", "app.json.backup.19700101000000"], false⟩, rfl, rfl⟩ count

/-- Nothing hinders an update of the sample. -/
theorem sample_unhindered : Unhindered none "app.json" (Scan.ofDocument sample).plain.length sampleWorld :=
  worldOf_unhindered sample _

/-- The sample's secrets are encrypted, but not the one inside a list nor a value whose key occurs again. -/
theorem update_encrypts_sample :
    ∃ report after, outcome (update sampleProtector .encrypt true none "app.json") sampleWorld = (.ok report, after) ∧
      report.fields = ["db:a:Password", "Token"] ∧ EncryptsIdly "app.json" after := by
  obtain ⟨report, after, _, _, _, _, hrun, hfields, -, -, -, -, -, -, hidle⟩ :=
    update_encrypts sampleProtector true sample_standsAt sample_unhindered
  exact ⟨report, after, hrun, hfields.trans (by cbv), hidle⟩

end SealedConfig.Bulk
