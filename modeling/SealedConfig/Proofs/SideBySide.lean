import SealedConfig.Proofs.Host.Outline

/-!
# Runs side by side

Two runs are followed side by side, each in a world of its own, the two worlds having the same outline. They fail alike, or both give
results, and leave worlds with the same outline again; so what is told of a failure tells nothing of what the files hold.
-/

namespace SealedConfig.Run

open Outcome (Parallel)

/-- In two worlds, two runs fail alike or give related results, and leave worlds with the same outline. -/
structure SideBySideIn {α β : Type} (w other : World) (R : α → β → Prop) (x : Run (StateM World) α) (y : Run (StateM World) β) :
    Prop where
  results : Parallel R (outcome x w).1 (outcome y other).1
  worlds : (outcome x w).2.SameOutline (outcome y other).2

/-- Two runs go side by side in all worlds with the same outline. -/
def SideBySide {α β : Type} (R : α → β → Prop) (x : Run (StateM World) α) (y : Run (StateM World) β) : Prop :=
  ∀ w other : World, w.SameOutline other → SideBySideIn w other R x y

variable {ε α β α' β' : Type} {R : α → β → Prop} {S : α' → β' → Prop} {x : Run (StateM World) α} {y : Run (StateM World) β}
  {f : α → Run (StateM World) α'} {g : β → Run (StateM World) β'} {w other : World}

theorem SideBySideIn.of_outcomes {result : Except Failure α} {twin : Except Failure β} {after last : World}
    (hx : outcome x w = (result, after)) (hy : outcome y other = (twin, last)) (hresults : Parallel R result twin)
    (hworlds : after.SameOutline last) : SideBySideIn w other R x y := by
  constructor
  · rw [hx, hy]
    exact hresults
  · rw [hx, hy]
    exact hworlds

/-! ## Steps -/

theorem sideBySide_pure {a : α} {b : β} (h : R a b) : SideBySide R (pure a) (pure b) := fun _ _ hworlds => ⟨.ok h, hworlds⟩

theorem sideBySide_fail (failure : Failure) : SideBySide R (fail failure) (fail failure) :=
  fun _ _ hworlds => ⟨.error failure, hworlds⟩

theorem sideBySide_settle (failure : ε → Failure) {result : Except ε α} {twin : Except ε β} (h : Parallel R result twin) :
    SideBySide R (settle failure result) (settle failure twin) := fun _ _ hworlds => ⟨h.mapError failure, hworlds⟩

/-- Operations on files that go alike in worlds with the same outline go side by side. -/
theorem sideBySide_attempt (failure : ε → Failure) {operation : StateM World (Except ε α)} {twin : StateM World (Except ε β)}
    (h : ∀ w other : World, w.SameOutline other →
      Parallel R (operation w).1 (twin other).1 ∧ (operation w).2.SameOutline (twin other).2) :
    SideBySide R (attempt failure operation) (attempt failure twin) := by
  intro w other hworlds
  obtain ⟨hresults, hafter⟩ := h w other hworlds
  exact ⟨hresults.mapError failure, hafter⟩

/-- Telling events, which may differ, goes side by side. -/
theorem sideBySide_tells {x y : Run (StateM World) Unit} (hx : Tells x) (hy : Tells y) : SideBySide Eq x y := by
  obtain ⟨event, hx⟩ := hx
  obtain ⟨twin, hy⟩ := hy
  intro w other hworlds
  exact .of_outcomes (hx w) (hy other) (.ok rfl) (hworlds.agrees (w.agrees_tell event) (other.agrees_tell twin))

/-- The time of day is the same in worlds with the same outline. -/
theorem sideBySide_now : SideBySide Eq Run.now Run.now := by
  intro w other hworlds
  refine .of_outcomes (outcome_now w) (outcome_now other) ?_ hworlds
  rw [hworlds.now]
  cases w.now with
  | none => exact .error _
  | some moment => exact .ok rfl

/-! ## Runs in sequence -/

theorem SideBySide.mono {T : α → β → Prop} (h : SideBySide R x y) (hR : ∀ a b, R a b → T a b) : SideBySide T x y :=
  fun w other hworlds => ⟨(h w other hworlds).results.mono hR, (h w other hworlds).worlds⟩

/-- Behind runs that go side by side, the ones that go on with related results go side by side. -/
theorem SideBySideIn.bind (h : SideBySideIn w other R x y) (hf : ∀ a b, R a b → SideBySide S (f a) (g b)) :
    SideBySideIn w other S (x >>= f) (y >>= g) := by
  obtain ⟨hresults, hworlds⟩ := h
  rcases hx : outcome x w with ⟨result, after⟩
  rcases hy : outcome y other with ⟨twin, twinAfter⟩
  rw [hx, hy] at hresults hworlds
  cases hresults with
  | error failure => exact .of_outcomes (by rw [outcome_bind, hx]) (by rw [outcome_bind, hy]) (.error failure) hworlds
  | ok hR =>
    have hnext := hf _ _ hR _ _ hworlds
    exact .of_outcomes (outcome_bind_ok hx) (outcome_bind_ok hy) hnext.results hnext.worlds

theorem SideBySide.bind (h : SideBySide R x y) (hf : ∀ a b, R a b → SideBySide S (f a) (g b)) :
    SideBySide S (x >>= f) (y >>= g) := fun w other hworlds => (h w other hworlds).bind hf

/-- Behind events that are told, which may differ, runs go side by side. -/
theorem SideBySide.of_tells {x y : Run (StateM World) Unit} {f : Unit → Run (StateM World) α'} {g : Unit → Run (StateM World) β'}
    (hx : Tells x) (hy : Tells y) (h : SideBySide S (f ()) (g ())) : SideBySide S (x >>= f) (y >>= g) :=
  (sideBySide_tells hx hy).bind fun _ _ _ => h

end SealedConfig.Run
