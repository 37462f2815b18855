import SealedConfig.Proofs.Credential.Resolving
import SealedConfig.Proofs.Sparing

/-!
# Looking for credentials

A resolver only reads and tells what it does: whatever it comes to, it changes nothing in a world but what stands on standard error.
-/

namespace SealedConfig

open Run

namespace Resolver

variable (resolver : Resolver) (kind : CredentialKind)

/-! ## Looking up names -/

theorem onlyTells_config? (lookup : Lookup) (key : String) : OnlyTells (outcome (step (lookup.config? key))) := by
  refine onlyTells_of_unchanged ?_
  intro w
  rw [outcome_step, config?_run]

/-! ## Loading -/

theorem onlyTells_readFile (path : String) : OnlyTells (outcome (readFile kind path)) := by
  refine onlyTells_of_unchanged ?_
  intro w
  rw [readFile, outcome_attempt, readText_eq]

/-- What is opened is put into a credential. -/
theorem onlyTells_opened (place : String) (result : Except Credential.OpenFault String) (finish : String → Credential) :
    OnlyTells (outcome (do return finish (← opened kind place result) : Run (StateM World) Credential)) := by
  have hopened : OnlyTells (outcome (opened kind place result : Run (StateM World) String)) :=
    onlyTells_of_unchanged fun w => rfl
  exact hopened.bind fun value => onlyTells_pure _

theorem onlyTells_loadSecretFile (path : String) : OnlyTells (outcome (resolver.loadSecretFile kind path)) := by
  unfold loadSecretFile
  refine (tells_inform _ _).onlyTells.bind fun _ => (onlyTells_readFile kind path).bind ?_
  intro content
  dsimp only
  split
  · exact onlyTells_opened kind path _ fun value => ⟨kind, .secretFile path, trimmed kind value⟩
  · exact onlyTells_pure _

theorem onlyTells_loadKeyFile (path : String) : OnlyTells (outcome (resolver.loadKeyFile kind path)) := by
  unfold loadKeyFile
  refine (onlyTells_readFile kind path).bind ?_
  intro content
  dsimp only
  split
  · exact (tells_inform _ _).onlyTells.bind fun _ => onlyTells_opened kind path _ fun value => ⟨kind, .encryptedFile path, value⟩
  · exact (tells_warn _ _).onlyTells.bind fun _ => onlyTells_pure _

theorem onlyTells_loadInline (key value : String) : OnlyTells (outcome (resolver.loadInline kind key value)) := by
  unfold loadInline
  split
  · exact onlyTells_opened kind key _ fun value => ⟨kind, .inline key, value⟩
  · exact (tells_warn _ _).onlyTells.bind fun _ => onlyTells_pure _

/-! ## Probing -/

theorem onlyTells_probeEnv (name : Option String) : OnlyTells (outcome (resolver.probeEnv kind name)) := by
  cases name with
  | none => exact onlyTells_pure _
  | some name =>
    unfold probeEnv
    have hlook : OnlyTells (outcome (step (resolver.lookup.env? name))) := by
      refine onlyTells_of_unchanged ?_
      intro w
      rw [outcome_step, env?_run]
    refine hlook.bind ?_
    intro found
    cases found with
    | some value => exact (tells_inform _ _).onlyTells.bind fun _ => onlyTells_pure _
    | none => exact onlyTells_pure _

/-- A probe of a file only tells events when loading from it does. -/
theorem onlyTells_probeFile {load : String → Run (StateM World) Credential} (hload : ∀ path, OnlyTells (outcome (load path)))
    (missing : String) (tried : Option String → String) (key : String) :
    OnlyTells (outcome (resolver.probeFile kind load missing tried key)) := by
  unfold probeFile
  refine (onlyTells_config? resolver.lookup key).bind ?_
  intro found
  cases found with
  | none => exact onlyTells_pure _
  | some path =>
    have hfile : OnlyTells (outcome (Run.isFile path)) := onlyTells_of_unchanged fun w => rfl
    refine hfile.bind ?_
    intro isFile
    split
    · exact (hload path).bind fun credential => onlyTells_pure _
    · exact (tells_debug _ _).onlyTells.bind fun _ => onlyTells_pure _

theorem onlyTells_probeSecretFile (key : Option String) : OnlyTells (outcome (resolver.probeSecretFile kind key)) := by
  cases key with
  | none => exact onlyTells_pure _
  | some key =>
    rw [probeSecretFile_some]
    exact resolver.onlyTells_probeFile kind (resolver.onlyTells_loadSecretFile kind) _ _ key

theorem onlyTells_probeKeyFile (key : Option String) : OnlyTells (outcome (resolver.probeKeyFile kind key)) := by
  cases key with
  | none => exact onlyTells_pure _
  | some key =>
    rw [probeKeyFile_some]
    exact resolver.onlyTells_probeFile kind (resolver.onlyTells_loadKeyFile kind) _ _ key

theorem onlyTells_probeInline (key : Option String) : OnlyTells (outcome (resolver.probeInline kind key)) := by
  cases key with
  | none => exact onlyTells_pure _
  | some key =>
    unfold probeInline
    refine (onlyTells_config? resolver.lookup key).bind ?_
    intro found
    cases found with
    | some value => exact (resolver.onlyTells_loadInline kind key value).bind fun credential => onlyTells_pure _
    | none => exact onlyTells_pure _

theorem onlyTells_firstHit (tried : List String) {probes : List (Run (StateM World) Probed)}
    (h : ∀ probe ∈ probes, OnlyTells (outcome probe)) : OnlyTells (outcome (firstHit tried probes)) := by
  induction probes generalizing tried with
  | nil => exact onlyTells_pure _
  | cons probe rest ih =>
    unfold firstHit
    refine (h probe List.mem_cons_self).bind ?_
    intro probed
    cases probed with
    | inl credential => exact onlyTells_pure _
    | inr more => exact ih _ fun probe hprobe => h probe (List.mem_cons_of_mem _ hprobe)

/-- Looking for a credential changes nothing in a world. -/
theorem onlyTells_find : OnlyTells (outcome (resolver.find kind)) := by
  unfold find
  refine OnlyTells.bind (onlyTells_firstHit _ ?_) ?_
  · simp only [List.forall_mem_cons, List.not_mem_nil, false_implies, implies_true, and_true]
    exact ⟨resolver.onlyTells_probeEnv kind _, resolver.onlyTells_probeSecretFile kind _, resolver.onlyTells_probeKeyFile kind _,
      resolver.onlyTells_probeInline kind _⟩
  · intro probed
    cases probed with
    | inl credential => exact onlyTells_pure _
    | inr tried => exact onlyTells_of_unchanged fun w => rfl

end Resolver

end SealedConfig
