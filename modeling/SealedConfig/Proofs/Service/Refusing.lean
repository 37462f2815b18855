import SealedConfig.Proofs.Bulk.Consumers
import SealedConfig.Proofs.Bulk.SideBySide

/-!
# What a refusal tells

A refusal has a status and a reason. Neither depends on what secrets are, only on where they stand, whether they are empty or marked,
and why they do not open.
-/

namespace SealedConfig

open Outcome (FailAlike Parallel)
open Run

variable {p : Protector} {doc twin : Document} {path : String} {w other : World}

/-! ## Answers -/

namespace Service

variable {α β α' β' : Type}

/-- What is answered in a world. -/
def answer (x : ExceptT Refusal (StateM World) α) (w : World) : Except Refusal α := (x.run w).1

/-- A run whose failure becomes a refusal answers what it comes to. -/
theorem answer_granted (operation : String) (body : Run (StateM World) α) (w : World) :
    answer (granted operation body) w = (outcome body w).1.mapError Refusal.ofFailure := by
  rcases hbody : outcome body w with ⟨failure | value, after⟩
  · exact congrArg Prod.fst (operation_bind hbody)
  · exact congrArg Prod.fst (operation_bind hbody)

/-- Telling what is answered does not change it. -/
theorem answer_told (x : ExceptT Refusal (StateM World) α) (event : α → Log.Event) (f : α → β) (w : World) :
    answer (x >>= fun a => (liftM (Host.log (event a) : StateM World Unit)) >>= fun _ => pure (f a)) w = (answer x w).map f := by
  have hbind (next : α → ExceptT Refusal (StateM World) β) :
      answer (x >>= next) w = ((ExceptT.bindCont next (x.run w).1 : StateM World (Except Refusal β)) (x.run w).2).1 := rfl
  rw [hbind, answer]
  rcases x.run w with ⟨refusal | a, after⟩
  · rfl
  · rfl

/-- Where runs fail alike, they are refused alike. -/
theorem failAlike_granted {R : α → β → Prop} {x : Run (StateM World) α} {y : Run (StateM World) β} (operation : String)
    (h : SideBySideIn w other R x y) : FailAlike (answer (granted operation x) w) (answer (granted operation y) other) := by
  rw [answer_granted, answer_granted]
  exact h.results.failAlike.mapError _

theorem failAlike_told {x : ExceptT Refusal (StateM World) α} {y : ExceptT Refusal (StateM World) β}
    (h : FailAlike (answer x w) (answer y other)) (event : α → Log.Event) (twin : β → Log.Event) (f : α → α') (g : β → β') :
    FailAlike (answer (x >>= fun a => (liftM (Host.log (event a) : StateM World Unit)) >>= fun _ => pure (f a)) w)
      (answer (y >>= fun b => (liftM (Host.log (twin b) : StateM World Unit)) >>= fun _ => pure (g b)) other) := by
  rw [answer_told, answer_told]
  exact h.map f g

/-- Sealing values is refused alike. -/
theorem failAlike_encrypt (h : w.SameOutline other) (request again : SecretRequest) :
    FailAlike (answer (encrypt p request) w) (answer (encrypt p again) other) :=
  failAlike_told (failAlike_granted _ (Bulk.sideBySide_enclose p request.value again.value w other h)) _ _ _ _

/-- Opening alike values is refused alike. -/
theorem failAlike_decrypt (h : w.SameOutline other) {request again : SecretRequest}
    (hvalue : Envelope.Alike p request.value again.value) :
    FailAlike (answer (decrypt p request) w) (answer (decrypt p again) other) :=
  failAlike_told (failAlike_granted _ (sideBySide_settle _ hvalue.opens.parallel w other h)) _ _ _ _

/-- Sealing or opening all secrets of documents with alike trees is refused alike. -/
theorem failAlike_encryptAll {mode bits : Nat} (h : w.SameOutline other) (hdoc : doc.StandsAt w.files w.here path mode)
    (htwin : twin.StandsAt other.files other.here path bits) (halike : doc.tree.Alike p twin.tree) (cancelAfter : Option Nat) :
    FailAlike (answer (encryptAll p cancelAfter path) w) (answer (encryptAll p cancelAfter path) other) :=
  failAlike_told (failAlike_granted _ (Bulk.sideBySideIn_update h hdoc htwin halike true)) _ _ _ _

theorem failAlike_decryptAll {mode bits : Nat} (h : w.SameOutline other) (hdoc : doc.StandsAt w.files w.here path mode)
    (htwin : twin.StandsAt other.files other.here path bits) (halike : doc.tree.Alike p twin.tree) (confirmed : Bool)
    (cancelAfter : Option Nat) :
    FailAlike (answer (decryptAll p confirmed cancelAfter path) w) (answer (decryptAll p confirmed cancelAfter path) other) :=
  failAlike_told (failAlike_granted _ (Bulk.sideBySideIn_update h hdoc htwin halike confirmed)) _ _ _ _

end Service

/-! ## Reading from documents -/

/-- The texts under a key are alike, or there is none in both. -/
theorem Document.alike_getText? (h : doc.tree.Alike p twin.tree) (key : KeyPath) :
    Option.Rel (Envelope.Alike p) (doc.getText? key) (twin.getText? key) := by
  rw [Document.getText?, Document.getText?, Document.get?, Document.get?]
  exact Outcome.rel_bind (h.get? key) fun _ _ halike => halike.text?

/-- A named secret of documents with alike trees is had from both or from neither, for the same reason. -/
theorem Document.failAlike_namedSecret (h : doc.tree.Alike p twin.tree) (key : String) :
    FailAlike (doc.namedSecret p key) (twin.namedSecret p key) := by
  unfold Document.namedSecret
  rcases Outcome.cases_of_rel (Document.alike_getText? h (KeyPath.parse key)) with ⟨hnone, hnone'⟩ | ⟨text, other, htext, hother, halike⟩
  · rw [hnone, hnone']
    exact fun _ => .rfl
  · rw [htext, hother]
    by_cases hempty : text = ""
    · rw [hempty, halike.empty.mp hempty]
      exact fun _ => .rfl
    · have hother : other ≠ "" := fun h => hempty (halike.empty.mpr h)
      have hkept {value : String} (hne : value ≠ "") : (some value).filter (fun stored => decide (stored ≠ "")) = some value := by
        simp [hne]
      rw [hkept hempty, hkept hother]
      dsimp only
      rw [halike.marked]
      split
      · exact (halike.opens.mapError _).map _ _
      · exact fun _ => ⟨nofun, nofun⟩

/-- Loading the keys of documents with alike trees fails alike. -/
theorem ApiKey.failAlike_load {mode bits : Nat} (hdoc : doc.StandsAt w.files w.here path mode)
    (htwin : twin.StandsAt other.files other.here path bits) (halike : doc.tree.Alike p twin.tree) :
    FailAlike (outcome (ApiKey.load p path) w).1 (outcome (ApiKey.load p path) other).1 := by
  have hload := load_eq_ok_iff.mpr ⟨mode, hdoc⟩
  have hload' := load_eq_ok_iff.mpr ⟨bits, htwin⟩
  rw [outcome_loadKeys (Prod.ext hload rfl), outcome_loadKeys (Prod.ext hload' rfl)]
  exact ((ApiKey.failAlike_ofDocument halike).mapError _).map _ _

namespace Service

/-- Fetching a named secret of documents with alike trees is refused alike. -/
theorem failAlike_getSecret {mode bits : Nat} (hdoc : doc.StandsAt w.files w.here path mode)
    (htwin : twin.StandsAt other.files other.here path bits) (halike : doc.tree.Alike p twin.tree) (key : String) :
    FailAlike (answer (getSecret p path key) w) (answer (getSecret p path key) other) := by
  have hload := load_eq_ok_iff.mpr ⟨mode, hdoc⟩
  have hload' := load_eq_ok_iff.mpr ⟨bits, htwin⟩
  rw [getSecret, answer_granted, answer_granted, outcome_readSecret (Prod.ext hload rfl), outcome_readSecret (Prod.ext hload' rfl)]
  exact (Document.failAlike_namedSecret halike key).mapError _

/-- No failure tells what a secret is. Let the documents in two worlds have trees that are alike: of one shape, with texts that differ at
most where both are empty or not, marked or not, and open or fail to for the same reason; and let all else in the worlds be there in
both, whatever it holds. Then every operation of the service is refused for one exactly when it is for the other, with the same status
and reason; every section binds, and the keys are listed, in both or fail to with the same failure. -/
theorem answers_failAlike {mode bits : Nat} (h : w.SameOutline other) (hdoc : doc.StandsAt w.files w.here path mode)
    (htwin : twin.StandsAt other.files other.here path bits) (halike : doc.tree.Alike p twin.tree)
    {request again : SecretRequest} (hrequest : Envelope.Alike p request.value again.value) :
    FailAlike (answer (encrypt p request) w) (answer (encrypt p again) other) ∧
      FailAlike (answer (decrypt p request) w) (answer (decrypt p again) other) ∧
      (∀ cancelAfter, FailAlike (answer (encryptAll p cancelAfter path) w) (answer (encryptAll p cancelAfter path) other)) ∧
      (∀ confirmed cancelAfter,
        FailAlike (answer (decryptAll p confirmed cancelAfter path) w) (answer (decryptAll p confirmed cancelAfter path) other)) ∧
      (∀ key, FailAlike (answer (getSecret p path key) w) (answer (getSecret p path key) other)) ∧
      (∀ (α : Type) [Options α] (name : String), FailAlike (Section.bind α doc name p) (Section.bind α twin name p)) ∧
      FailAlike (outcome (ApiKey.load p path) w).1 (outcome (ApiKey.load p path) other).1 :=
  ⟨failAlike_encrypt h request again, failAlike_decrypt h hrequest, failAlike_encryptAll h hdoc htwin halike,
    failAlike_decryptAll h hdoc htwin halike, failAlike_getSecret hdoc htwin halike,
    fun α _ name => Section.failAlike_bind halike α name, ApiKey.failAlike_load hdoc htwin halike⟩

/-- A document with a plain secret and a sealed one that does not open. -/
def guarded : Document where
  path := some "app.json"
  raw := "\x7b\"Token\": \"a\", \"Core\": \x7b\"Password\": \"ENCRYPTED:AAAA\"\x7d\x7d"
  tree := .object [("Token", .string "a"), ("Core", .object [("Password", .string "ENCRYPTED:AAAA")])]
  readTree_raw := by cbv

/-- That document with other secrets. -/
def reguarded : Document where
  path := some "app.json"
  raw := "\x7b\"Token\": \"bc\", \"Core\": \x7b\"Password\": \"ENCRYPTED:BBBBBBBB\"\x7d\x7d"
  tree := .object [("Token", .string "bc"), ("Core", .object [("Password", .string "ENCRYPTED:BBBBBBBB")])]
  readTree_raw := by cbv

/-- Why neither envelope opens. -/
def truncated : Envelope.Fault := .undecipherable ⟨Protector.configSecrets, .truncated⟩

/-- Both envelopes are too short. -/
theorem alike_truncated : Envelope.Alike Bulk.sampleProtector "ENCRYPTED:AAAA" "ENCRYPTED:BBBBBBBB" := by
  have hfails : Envelope.disclose Bulk.sampleProtector "ENCRYPTED:AAAA" = .error truncated := by rfl
  have hfails' : Envelope.disclose Bulk.sampleProtector "ENCRYPTED:BBBBBBBB" = .error truncated := by rfl
  refine ⟨by decide, by decide, ?_⟩
  rw [hfails, hfails']
  exact fun _ => .rfl

/-- The trees are alike: the plain secrets are in no envelope, and the envelopes are too short. -/
theorem guarded_alike : guarded.tree.Alike Bulk.sampleProtector reguarded.tree := by
  have hplain : Envelope.Alike Bulk.sampleProtector "a" "bc" := ⟨by decide, by decide, fun _ => .rfl⟩
  exact .object (.cons _ (.string hplain) (.cons _ (.object (.cons _ (.string alike_truncated) .nil)) .nil))

/-- Fetching the sealed secret is refused for both with one status and one reason, and so is opening all secrets. -/
theorem answers_failAlike_guarded :
    answer (getSecret Bulk.sampleProtector "app.json" "Core/Password") (Bulk.worldOf guarded) =
        .error ⟨400, truncated.message⟩ ∧
      answer (getSecret Bulk.sampleProtector "app.json" "Core/Password") (Bulk.worldOf reguarded) =
        .error ⟨400, truncated.message⟩ ∧
      FailAlike (answer (decryptAll Bulk.sampleProtector true none "app.json") (Bulk.worldOf guarded))
        (answer (decryptAll Bulk.sampleProtector true none "app.json") (Bulk.worldOf reguarded)) := by
  have hworlds : (Bulk.worldOf guarded).SameOutline (Bulk.worldOf reguarded) := ⟨FileTree.sameOutline_of_entries rfl, rfl, rfl⟩
  have hdoc : guarded.StandsAt _ _ _ _ := Bulk.worldOf_standsAt rfl
  have htwin : reguarded.StandsAt _ _ _ _ := Bulk.worldOf_standsAt rfl
  have hrequest : Envelope.Alike Bulk.sampleProtector (SecretRequest.mk "a" "ENCRYPTED:AAAA").value
      (SecretRequest.mk "a" "ENCRYPTED:BBBBBBBB").value := alike_truncated
  obtain ⟨-, -, -, hdecryptAll, hgetSecret, -⟩ := answers_failAlike hworlds hdoc htwin guarded_alike hrequest
  have hrefused : answer (getSecret Bulk.sampleProtector "app.json" "Core/Password") (Bulk.worldOf guarded) =
      .error ⟨400, truncated.message⟩ := by
    rw [getSecret, answer_granted, outcome_readSecret (Prod.ext (load_eq_ok_iff.mpr ⟨_, hdoc⟩) rfl)]
    rfl
  exact ⟨hrefused, (hgetSecret "Core/Password" _).mp hrefused, hdecryptAll true none⟩

end Service

end SealedConfig
