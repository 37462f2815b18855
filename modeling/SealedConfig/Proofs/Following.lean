import SealedConfig.Host.FaultyWorld
import SealedConfig.Proofs.Run

/-!
# Runs on faulty devices

A run on a device that may refuse its steps follows the same run in the world: it comes to the same, or a mishap strikes a step of it
and it fails. What a mishap can leave is put together from the steps: nothing that comes behind a step undoes what the step has left.
-/

namespace SealedConfig

/-- A fault that tells what stands where is none that strikes. -/
theorem Mishap.fault_ne (mishap : Mishap) {fault : FileFault} (h : fault.isMishap = false) : mishap.fault ≠ fault := by
  rintro rfl
  rw [mishap.isMishap] at h
  cases h

namespace FaultyWorld

/-- The last step that was taken was struck. -/
def JustMet (faulty : FaultyWorld) (mishap : Mishap) : Prop := ∃ k, faulty.taken = k + 1 ∧ faulty.mishaps k = some mishap

/-- A world on a device that refuses nothing. -/
def sound (w : World) : FaultyWorld := ⟨w, fun _ => none, 0⟩

/-- A world on a device that has no space left at one step, once some bytes are written. -/
def full (w : World) (struck written : Nat) : FaultyWorld :=
  ⟨w, fun step => if step = struck then some ⟨.noSpace, written, rfl⟩ else none, 0⟩

end FaultyWorld

/-- A run on a faulty device comes to what another comes to in the world, or it is struck and fails: from what world, with what
failure and to what device, a relation says. -/
def Follows {ε α : Type} (struck : World → ε → FaultyWorld → Prop) (x : ExceptT ε (StateM FaultyWorld) α)
    (y : ExceptT ε (StateM World) α) : Prop :=
  ∀ faulty : FaultyWorld,
    (∃ taken, ending x faulty = ((ending y faulty.world).1, ⟨(ending y faulty.world).2, faulty.mishaps, taken⟩)) ∨
      ∃ failure left, ending x faulty = (.error failure, left) ∧ left.mishaps = faulty.mishaps ∧ struck faulty.world failure left

/-- A run that is never struck. -/
abbrev FollowsAlways {ε α : Type} (x : ExceptT ε (StateM FaultyWorld) α) (y : ExceptT ε (StateM World) α) : Prop :=
  Follows (fun _ _ _ => False) x y

variable {ε ε' α β : Type} {R S : World → ε → FaultyWorld → Prop} {x : ExceptT ε (StateM FaultyWorld) α}
  {y : ExceptT ε (StateM World) α} {f : α → ExceptT ε (StateM FaultyWorld) β} {g : α → ExceptT ε (StateM World) β}

/-! ## Runs in sequence -/

theorem Follows.mono (h : Follows R x y) (hRS : ∀ w failure left, R w failure left → S w failure left) : Follows S x y := by
  intro faulty
  refine (h faulty).imp_right ?_
  rintro ⟨failure, left, hending, hmishaps, hstruck⟩
  exact ⟨failure, left, hending, hmishaps, hRS _ _ _ hstruck⟩

theorem FollowsAlways.mono (h : FollowsAlways x y) : Follows R x y := Follows.mono h fun _ _ _ => False.elim

/-- A run that does not fail has not been struck. -/
theorem Follows.ok {faulty left : FaultyWorld} {a : α} (h : Follows R x y) (hx : ending x faulty = (.ok a, left)) :
    left.mishaps = faulty.mishaps ∧ ending y faulty.world = (.ok a, left.world) := by
  rcases h faulty with ⟨taken, hcalm⟩ | ⟨failure, struck, hfails, -⟩
  · obtain ⟨hok, rfl⟩ := Prod.mk.inj (hx.symm.trans hcalm)
    exact ⟨rfl, Prod.ext hok.symm rfl⟩
  · cases (Prod.mk.inj (hx.symm.trans hfails)).1

/-- A run that fails does so in the world too, or it has been struck. -/
theorem Follows.error {faulty left : FaultyWorld} {failure : ε} (h : Follows R x y) (hx : ending x faulty = (.error failure, left)) :
    left.mishaps = faulty.mishaps ∧ (ending y faulty.world = (.error failure, left.world) ∨ R faulty.world failure left) := by
  rcases h faulty with ⟨taken, hcalm⟩ | ⟨cause, struck, hfails, hmishaps, hstruck⟩
  · obtain ⟨herror, rfl⟩ := Prod.mk.inj (hx.symm.trans hcalm)
    exact ⟨rfl, Or.inl (Prod.ext herror.symm rfl)⟩
  · obtain ⟨hcause, rfl⟩ := Prod.mk.inj (hx.symm.trans hfails)
    obtain rfl := Except.error.inj hcause
    exact ⟨hmishaps, Or.inr hstruck⟩

theorem follows_pure (a : α) : FollowsAlways (pure a : ExceptT ε (StateM FaultyWorld) α) (pure a) :=
  fun faulty => Or.inl ⟨faulty.taken, rfl⟩

theorem follows_throw (failure : ε) : FollowsAlways (throw failure : ExceptT ε (StateM FaultyWorld) α) (throw failure) :=
  fun faulty => Or.inl ⟨faulty.taken, rfl⟩

/-- Two runs in sequence are struck where the first is, or where the second is behind what the first comes to. -/
theorem Follows.bind {T : α → World → ε → FaultyWorld → Prop} (h : Follows R x y) (hf : ∀ a, Follows (T a) (f a) (g a)) :
    Follows (fun w failure left => R w failure left ∨ ∃ a middle, ending y w = (.ok a, middle) ∧ T a middle failure left)
      (x >>= f) (y >>= g) := by
  intro faulty
  rcases h faulty with ⟨taken, hx⟩ | ⟨failure, left, hx, hmishaps, hstruck⟩
  · rcases hy : ending y faulty.world with ⟨failure | a, middle⟩
    · rw [hy] at hx
      refine Or.inl ⟨taken, ?_⟩
      rw [ending_bind_error hx, ending_bind_error hy]
    · rw [hy] at hx
      rw [ending_bind_ok hx, ending_bind_ok hy]
      refine (hf a ⟨middle, faulty.mishaps, taken⟩).imp_right ?_
      rintro ⟨failure, left, hending, hmishaps, hstruck⟩
      exact ⟨failure, left, hending, hmishaps, Or.inr ⟨a, middle, hy, hstruck⟩⟩
  · exact Or.inr ⟨failure, left, ending_bind_error hx, hmishaps, Or.inl hstruck⟩

/-- Behind a run that is never struck only the second one is. -/
theorem FollowsAlways.bind {T : α → World → ε → FaultyWorld → Prop} (h : FollowsAlways x y) (hf : ∀ a, Follows (T a) (f a) (g a)) :
    Follows (fun w failure left => ∃ a middle, ending y w = (.ok a, middle) ∧ T a middle failure left) (x >>= f) (y >>= g) :=
  (Follows.bind h hf).mono fun _ _ _ hstruck => hstruck.resolve_left id

/-- Before a run that is never struck only the first one is. -/
theorem Follows.bindAlways (h : Follows R x y) (hf : ∀ a, FollowsAlways (f a) (g a)) : Follows R (x >>= f) (y >>= g) :=
  (h.bind hf).mono fun _ _ _ hstruck => hstruck.resolve_right fun ⟨_, _, _, hnone⟩ => hnone

/-! ## Steps -/

/-- What cannot be refused is not struck. -/
theorem follows_calmly (operation : StateM World α) :
    FollowsAlways (ExceptT.lift (FaultyWorld.calmly operation) : ExceptT ε (StateM FaultyWorld) α) (ExceptT.lift operation) :=
  fun faulty => Or.inl ⟨faulty.taken, rfl⟩

/-- A step is struck by a mishap, whose fault it tells, and only begun. -/
theorem follows_riskily (begun : Mishap → World → World) (operation : StateM World (Except FileFault α)) :
    Follows (fun w fault left => ∃ mishap, left.JustMet mishap ∧ fault = mishap.fault ∧ left.world = begun mishap w)
      (ExceptT.mk (FaultyWorld.riskily begun operation)) (ExceptT.mk operation) := by
  intro faulty
  cases hmishap : faulty.mishaps faulty.taken with
  | none =>
    refine Or.inl ⟨faulty.taken + 1, ?_⟩
    change FaultyWorld.riskily begun operation faulty = _
    rw [FaultyWorld.riskily, hmishap]
    rfl
  | some mishap =>
    refine Or.inr ⟨mishap.fault, ⟨begun mishap faulty.world, faulty.mishaps, faulty.taken + 1⟩, ?_, rfl, ?_⟩
    · change FaultyWorld.riskily begun operation faulty = _
      rw [FaultyWorld.riskily, hmishap]
    · exact ⟨mishap, ⟨faulty.taken, rfl, hmishap⟩, rfl, rfl⟩

/-- What a mishap leaves that strikes a step before it has changed anything. -/
def StruckAtOnce (w : World) (fault : FileFault) (left : FaultyWorld) : Prop :=
  ∃ mishap, left.JustMet mishap ∧ fault = mishap.fault ∧ left.world = w

theorem follows_wholly (operation : StateM World (Except FileFault α)) :
    Follows StruckAtOnce (ExceptT.mk (FaultyWorld.wholly operation)) (ExceptT.mk operation) :=
  follows_riskily (fun _ w => w) operation

theorem ending_wholly_struck {operation : StateM World (Except FileFault α)} {faulty : FaultyWorld} {mishap : Mishap}
    (h : faulty.mishaps faulty.taken = some mishap) :
    ending (ExceptT.mk (FaultyWorld.wholly operation)) faulty = (.error mishap.fault, { faulty with taken := faulty.taken + 1 }) := by
  change FaultyWorld.riskily (fun _ w => w) operation faulty = _
  rw [FaultyWorld.riskily, h]

theorem ending_wholly_calm {operation : StateM World (Except FileFault α)} {faulty : FaultyWorld}
    (h : faulty.mishaps faulty.taken = none) :
    ending (ExceptT.mk (FaultyWorld.wholly operation)) faulty =
      ((operation faulty.world).1, ⟨(operation faulty.world).2, faulty.mishaps, faulty.taken + 1⟩) := by
  change FaultyWorld.riskily (fun _ w => w) operation faulty = _
  rw [FaultyWorld.riskily, h]
  rfl

/-! ## Failures of another kind -/

namespace Run

theorem follows_step (operation : StateM World α) : FollowsAlways (step (FaultyWorld.calmly operation)) (step operation) :=
  follows_calmly operation

theorem follows_fail (failure : Failure) : FollowsAlways (fail failure : Run (StateM FaultyWorld) α) (fail failure) :=
  follows_throw failure

theorem follows_settle (failure : ε → Failure) (result : Except ε α) :
    FollowsAlways (settle failure result : Run (StateM FaultyWorld) α) (settle failure result) :=
  fun faulty => Or.inl ⟨faulty.taken, rfl⟩

/-- A run whose faults are turned into failures is struck where the run is. -/
theorem follows_attempt (failure : ε → Failure) (h : Follows R x y) :
    Follows (fun w cause left => ∃ fault, cause = failure fault ∧ R w fault left) (attempt failure x.run) (attempt failure y.run) := by
  intro faulty
  rcases h faulty with ⟨taken, hx⟩ | ⟨fault, left, hx, hmishaps, hstruck⟩
  · refine Or.inl ⟨taken, ?_⟩
    exact congrArg (fun seen : Except ε α × FaultyWorld => (seen.1.mapError failure, seen.2)) hx
  · refine Or.inr ⟨failure fault, left, ?_, hmishaps, fault, rfl, hstruck⟩
    exact congrArg (fun seen : Except ε α × FaultyWorld => (seen.1.mapError failure, seen.2)) hx

/-- A run that takes up what an operation comes to follows one that does so too, if it fails at once when the operation is struck. -/
theorem follows_taking {T : Except ε α → World → Failure → FaultyWorld → Prop} {operation : StateM FaultyWorld (Except ε α)}
    {calm : StateM World (Except ε α)} {f : Except ε α → Run (StateM FaultyWorld) β} {g : Except ε α → Run (StateM World) β}
    (h : Follows R (ExceptT.mk operation) (ExceptT.mk calm)) (hf : ∀ result, Follows (T result) (f result) (g result))
    (failure : ε → Failure) (hfail : ∀ w fault left, R w fault left → f (.error fault) = fail (failure fault)) :
    Follows (fun w cause left => (∃ fault, cause = failure fault ∧ R w fault left) ∨ T (calm w).1 (calm w).2 cause left)
      (step operation >>= f) (step calm >>= g) := by
  intro faulty
  rcases h faulty with ⟨taken, hoperation⟩ | ⟨fault, left, hoperation, hmishaps, hstruck⟩
  · have htaken : ending (step operation) faulty = (.ok (calm faulty.world).1, ⟨(calm faulty.world).2, faulty.mishaps, taken⟩) :=
      congrArg (fun seen : Except ε α × FaultyWorld => (Except.ok seen.1, seen.2)) hoperation
    have hcalm : ending (step calm) faulty.world = (.ok (calm faulty.world).1, (calm faulty.world).2) := rfl
    rw [ending_bind_ok htaken, ending_bind_ok hcalm]
    refine (hf _ ⟨_, faulty.mishaps, taken⟩).imp_right ?_
    rintro ⟨cause, left, hending, hmishaps, hstruck⟩
    exact ⟨cause, left, hending, hmishaps, Or.inr hstruck⟩
  · have htaken : ending (step operation) faulty = (.ok (.error fault), left) :=
      congrArg (fun seen : Except ε α × FaultyWorld => (Except.ok seen.1, seen.2)) hoperation
    refine Or.inr ⟨failure fault, left, ?_, hmishaps, Or.inl ⟨fault, rfl, hstruck⟩⟩
    rw [ending_bind_ok htaken, hfail _ _ _ hstruck]
    rfl

/-! ## What is told and asked -/

theorem follows_debug (message : String) (fields : List Log.Field) :
    FollowsAlways (debug message fields : Run (StateM FaultyWorld) Unit) (debug message fields) := follows_step _

theorem follows_inform (message : String) (fields : List Log.Field) :
    FollowsAlways (inform message fields : Run (StateM FaultyWorld) Unit) (inform message fields) := follows_step _

theorem follows_warn (message : String) (fields : List Log.Field) :
    FollowsAlways (warn message fields : Run (StateM FaultyWorld) Unit) (warn message fields) := follows_step _

theorem follows_pathExists (path : String) :
    FollowsAlways (pathExists path : Run (StateM FaultyWorld) Bool) (pathExists path) := fun faulty => Or.inl ⟨faulty.taken, rfl⟩

theorem follows_random (n : Nat) : FollowsAlways (random n : Run (StateM FaultyWorld) (Vector UInt8 n)) (random n) := follows_step _

theorem follows_now : FollowsAlways (now : Run (StateM FaultyWorld) Moment) now := by
  refine (follows_step _).bindAlways fun shown => ?_
  cases shown with
  | none => exact follows_fail _
  | some moment => exact follows_pure moment

end Run

end SealedConfig
