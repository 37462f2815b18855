import SealedConfig.Proofs.Bulk.Consumers
import SealedConfig.Proofs.Bulk.Decrypting
import SealedConfig.Proofs.Credential.Opening
import SealedConfig.Proofs.Section.Binding

/-!
# What is taken for a text

Whoever reads a marked value takes it only for a text that it authenticates. The bare marker is the one exception: it is taken for the
empty text by every reader, though it authenticates nothing.
-/

namespace SealedConfig

open Run

/-- A stored value is read as a text: marked it is taken for the text, and unmarked it is the text. -/
def Envelope.Reads (p : Protector) (stored text : String) : Prop :=
  if Envelope.isMarked stored then Envelope.Accepts p stored text else text = stored

/-- What a field holds is read from what is stored for it: nothing from nothing, and a text from a value. -/
inductive Section.ReadsField (p : Protector) : Option String → Option String → Prop
  | none : ReadsField p none none
  | some {stored text : String} : Envelope.Reads p stored text → ReadsField p (some stored) (some text)

variable {p : Protector}

/-! ## Sections -/

/-- What a field holds opened is read from what was stored. -/
theorem Section.Opened.readsField {stored held : Option String} (h : Section.Opened p stored held) :
    Section.ReadsField p stored held := by
  cases h with
  | absent => exact .none
  | plain hm =>
    refine .some ?_
    unfold Envelope.Reads
    rw [if_neg (Bool.eq_false_iff.mp hm)]
  | sealed hm hopen =>
    refine .some ?_
    unfold Envelope.Reads
    rw [if_pos hm]
    exact (Envelope.disclose_eq_ok_iff hm).mp hopen

/-- The fields of a value are read field by field from what is stored in the section. -/
def Section.BindsTo (p : Protector) {α : Type} [Options α] (doc : Document) (name : String) (options : α) : Prop :=
  ∃ stored held : List (Option String),
    Json.recordValues? (Options.fields α) ((doc.get? (KeyPath.parse name)).getD (.object [])) = some stored ∧
      options = Options.ofValues held ∧ held.length = stored.length ∧ ∀ pair ∈ stored.zip held, ReadsField p pair.1 pair.2

/-- A section that binds is read field by field. -/
theorem Section.bindsTo_of_bind {α : Type} [Options α] {doc : Document} {name : String} {options : α}
    (h : Section.bind α doc name p = .ok options) : Section.BindsTo p doc name options := by
  unfold Section.bind at h
  dsimp only at h
  split at h
  · cases h
  · rename_i stored hstored
    obtain ⟨held, hheld, rfl⟩ := Outcome.exists_of_map h
    have hlength := (Json.recordValues?_eq_some_iff.mp hstored).fills.length
    have hopened := (Section.discloseValues_eq_ok_iff hlength).mp hheld
    exact ⟨stored, held, hstored, rfl, hopened.length_eq.symm, fun _ hpair => (List.forall₂_zip hopened hpair).readsField⟩

/-! ## Named secrets -/

/-- A named secret is read from the text that a document has under its key. -/
theorem Document.reads_of_namedSecret {doc : Document} {key : String} {secret : Service.NamedSecret}
    (h : doc.namedSecret p key = .ok secret) :
    ∃ stored, doc.getText? (KeyPath.parse key) = some stored ∧ secret.wasEncrypted = Envelope.isMarked stored ∧
      Envelope.Reads p stored secret.value := by
  unfold Document.namedSecret at h
  split at h
  · cases h
  · rename_i stored hstored
    have htext : doc.getText? (KeyPath.parse key) = some stored := Option.eq_some_of_filter_eq_some hstored
    unfold Envelope.Reads
    split at h
    · rename_i hm
      obtain ⟨text, hopen, rfl⟩ := Outcome.exists_of_map h
      refine ⟨stored, htext, hm.symm, ?_⟩
      rw [if_pos hm]
      exact (Envelope.disclose_eq_ok_iff hm).mp (Outcome.mapError_eq_ok_iff.mp hopen)
    · rename_i hm
      obtain rfl := Except.ok.inj h
      refine ⟨stored, htext, (Bool.eq_false_iff.mpr hm).symm, ?_⟩
      rw [if_neg hm]

/-- A named secret that is read from a file is one of the document that stands there. -/
theorem Document.namedSecret_of_readSecret {path key : String} {w : World} {secret : Service.NamedSecret}
    (h : (outcome (Document.readSecret p path key) w).1 = .ok secret) :
    ∃ (doc : Document) (mode : Nat), doc.StandsAt w.files w.here path mode ∧ doc.namedSecret p key = .ok secret := by
  rcases hload : outcome (Document.load path) w with ⟨failure | doc, middle⟩
  · rw [Document.readSecret, outcome_bind, hload] at h
    cases h
  · obtain ⟨mode, hdoc⟩ := load_eq_ok_iff.mp (by rw [hload])
    exact ⟨doc, mode, hdoc, (outcome_readSecret hload key).symm.trans h⟩

namespace Bulk

/-! ## Decrypting -/

/-- A document is decrypted: in the place of each marked text stands one that it was taken for, and every other text is as it was. -/
structure Accepting (p : Protector) (doc edited : Document) : Prop where
  accepts : ∀ leaf value, doc.IsMarkedAt leaf value → ∃ text, edited.tree.textAt? leaf = some text ∧ Envelope.Accepts p value text
  spares : ∀ leaf, (∀ value, ¬doc.IsMarkedAt leaf value) → edited.tree.textAt? leaf = doc.tree.textAt? leaf

/-- An update that decrypts takes each marked text for a text, or leaves the file as it was. -/
theorem accepting_of_update {confirmed : Bool} {cancelAfter : Option Nat} {path : String} {w after : World}
    {result : Except Failure Report} (h : outcome (update p .decrypt confirmed cancelAfter path) w = (result, after)) :
    (∃ (doc edited : Document) (mode : Nat), doc.StandsAt w.files w.here path mode ∧
      edited.StandsAt after.files after.here path mode ∧ Accepting p doc edited) ∨
    (∃ failure, result = .error failure) ∧ after.files.stat w.here path = w.files.stat w.here path := by
  cases result with
  | error failure =>
    refine Or.inr ⟨⟨failure, rfl⟩, ?_⟩
    rcases (update_cases h).2 with ⟨-, halone⟩ | ⟨report, copy, hok, -⟩
    · exact halone.target
    · cases hok
  | ok report =>
    obtain ⟨doc, mode, edits, edited, hdoc, hedited⟩ := edited_of_update h
    have hdecrypted := hedited.decrypted
    refine Or.inl ⟨doc, edited, mode, hdoc, hdecrypted.stands, ?_, ?_⟩
    · intro leaf value hmarked
      obtain ⟨text, -, hopen⟩ := hdecrypted.opens.opens leaf value hmarked
      have hstands := hdecrypted.opens.textAt?_of_isMarkedAt hdecrypted.tree hmarked hopen
      exact ⟨text, hstands, (Envelope.disclose_eq_ok_iff hmarked.marked).mp hopen⟩
    · intro leaf hnone
      exact hdecrypted.opens.textAt?_of_not_isMarkedAt hdecrypted.tree hnone

end Bulk

/-! ## All readers -/

/-- A marked value opens exactly to the texts that it authenticates, and the bare marker besides to the empty text. So a decrypting
update puts such a text in the place of every marked one, or leaves the file as it was; a section binds, a named secret is read and a
credential is found, through a cache or not, only from marked values that are taken for the text, from unmarked ones as they stand,
and from what a variable or a plain key file holds. -/
theorem marked_accepted (p : Protector) :
    (∀ value text, Envelope.isMarked value = true →
      (Envelope.disclose p value = .ok text ↔ Envelope.Authenticates p value text ∨ value = Envelope.marker ∧ text = "")) ∧
    (∀ confirmed cancelAfter path w result after,
      outcome (Bulk.update p .decrypt confirmed cancelAfter path) w = (result, after) →
      (∃ (doc edited : Document) (mode : Nat), doc.StandsAt w.files w.here path mode ∧
        edited.StandsAt after.files after.here path mode ∧ Bulk.Accepting p doc edited) ∨
      (∃ failure, result = .error failure) ∧ after.files.stat w.here path = w.files.stat w.here path) ∧
    (∀ (α : Type) [Options α] (doc : Document) (name : String) (options : α),
      Section.bind α doc name p = .ok options → Section.BindsTo p doc name options) ∧
    (∀ path key w secret, (outcome (Document.readSecret p path key) w).1 = .ok secret →
      ∃ (doc : Document) (mode : Nat) (stored : String), doc.StandsAt w.files w.here path mode ∧
        doc.getText? (KeyPath.parse key) = some stored ∧ secret.wasEncrypted = Envelope.isMarked stored ∧
        Envelope.Reads p stored secret.value) ∧
    (∀ (resolver : Resolver) kind w credential, (outcome (resolver.find kind) w).1 = .ok credential → resolver.Grants w credential) ∧
    ∀ (resolver : Resolver) (cache kept : CredentialCache) kind result w after,
      (resolver.findCached cache kind : StateM World (Except Failure Credential × CredentialCache)) w = ((result, kept), after) →
      (∀ credential, result = .ok credential →
        (∃ stored, (kind, ⟨credential, stored⟩) ∈ cache.entries) ∨ resolver.Grants w credential) ∧
      ∀ entry ∈ kept.entries, entry ∈ cache.entries ∨ resolver.Grants w entry.2.credential := by
  refine ⟨?_, ?_, ?_, ?_, ?_, ?_⟩
  · intro value text hm
    exact Envelope.disclose_eq_ok_iff hm
  · intro confirmed cancelAfter path w result after h
    exact Bulk.accepting_of_update h
  · intro α _ doc name options h
    exact Section.bindsTo_of_bind h
  · intro path key w secret h
    obtain ⟨doc, mode, hdoc, hsecret⟩ := Document.namedSecret_of_readSecret h
    obtain ⟨stored, hstored, hmarked, hreads⟩ := Document.reads_of_namedSecret hsecret
    exact ⟨doc, mode, stored, hdoc, hstored, hmarked, hreads⟩
  · intro resolver kind w credential h
    exact (Resolver.grants_find resolver kind w).of_outcome h
  · intro resolver cache kept kind result w after h
    exact Resolver.findCached_cases h

/-- The bare marker is marked and opens to the empty text, though it authenticates no text. -/
theorem marked_accepted_marker :
    Envelope.isMarked Envelope.marker = true ∧ Envelope.disclose Bulk.sampleProtector Envelope.marker = .ok "" ∧
      ∀ text, ¬Envelope.Authenticates Bulk.sampleProtector Envelope.marker text :=
  ⟨rfl, rfl, fun _ => Envelope.not_authenticates_marker⟩

end SealedConfig
