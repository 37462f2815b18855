import SealedConfig.Host.World
import SealedConfig.Proofs.Ending
import SealedConfig.Run

/-!
# Runs in worlds

What a run comes to in a world is put together from what its steps come to. Most steps leave the files alone.
-/

namespace SealedConfig

/-- A world with other files, seen from the same place at the same time. -/
structure World.Changes (w : World) (files : FileTree) (after : World) : Prop where
  files : after.files = files
  here : after.here = w.here
  now : after.now = w.now

/-- A world with the same files, seen from the same place at the same time. -/
abbrev World.Agrees (w after : World) : Prop := w.Changes w.files after

theorem World.Agrees.refl (w : World) : w.Agrees w := ⟨rfl, rfl, rfl⟩

theorem World.Changes.set (w : World) (files : FileTree) : w.Changes files { w with files := files } := ⟨rfl, rfl, rfl⟩

theorem World.Changes.trans {w middle after : World} {files : FileTree} (h : w.Changes files middle) (h' : middle.Agrees after) :
    w.Changes files after := ⟨h'.files.trans h.files, h'.here.trans h.here, h'.now.trans h.now⟩

/-- The later one of two changes counts. -/
theorem World.Changes.change {w middle after : World} {files others : FileTree} (h : w.Changes files middle)
    (h' : middle.Changes others after) : w.Changes others after := ⟨h'.files, h'.here.trans h.here, h'.now.trans h.now⟩

/-- Telling an event leaves the files alone. -/
theorem World.agrees_tell (w : World) (event : Log.Event) : w.Agrees (w.tell event) := by
  rw [World.tell]
  split <;> exact ⟨rfl, rfl, rfl⟩

/-- A world with the same files, seen from the same place, and the same environment and home. -/
structure World.LooksLike (w other : World) : Prop where
  files : other.files = w.files
  here : other.here = w.here
  environment : other.environment = w.environment
  fallbackHome : other.fallbackHome = w.fallbackHome

theorem World.LooksLike.refl (w : World) : w.LooksLike w := ⟨rfl, rfl, rfl, rfl⟩

theorem World.LooksLike.symm {w other : World} (h : w.LooksLike other) : other.LooksLike w :=
  ⟨h.files.symm, h.here.symm, h.environment.symm, h.fallbackHome.symm⟩

theorem World.LooksLike.trans {w other third : World} (h : w.LooksLike other) (h' : other.LooksLike third) : w.LooksLike third :=
  ⟨h'.files.trans h.files, h'.here.trans h.here, h'.environment.trans h.environment, h'.fallbackHome.trans h.fallbackHome⟩

/-- Telling an event does not change how a world looks. -/
theorem World.LooksLike.tell {w other : World} (h : w.LooksLike other) (event : Log.Event) : w.LooksLike (other.tell event) := by
  rw [World.tell]
  split
  · exact ⟨h.files, h.here, h.environment, h.fallbackHome⟩
  · exact h

namespace Run

variable {α β ε : Type} {x : Run (StateM World) α} {f : α → Run (StateM World) β} {w after : World}

/-- What a run comes to in a world: its result, and the world that it leaves. -/
def outcome (x : Run (StateM World) α) (w : World) : Except Failure α × World := x.run w

theorem ending_eq_outcome (x : Run (StateM World) α) (w : World) : ending x w = outcome x w := rfl

/-- A run that leaves the files alone in every world. -/
def Quiet (x : Run (StateM World) α) : Prop := ∀ w : World, w.Agrees (outcome x w).2

/-! ## Steps -/

@[simp] theorem outcome_pure (a : α) (w : World) : outcome (pure a) w = (.ok a, w) := rfl

@[simp] theorem outcome_step (operation : StateM World α) (w : World) :
    outcome (step operation) w = (.ok (operation w).1, (operation w).2) := rfl

@[simp] theorem outcome_attempt (failure : ε → Failure) (operation : StateM World (Except ε α)) (w : World) :
    outcome (attempt failure operation) w = ((operation w).1.mapError failure, (operation w).2) := rfl

@[simp] theorem outcome_settle (failure : ε → Failure) (result : Except ε α) (w : World) :
    outcome (settle failure result) w = (result.mapError failure, w) := rfl

/-! ## Runs in sequence -/

theorem outcome_bind (x : Run (StateM World) α) (f : α → Run (StateM World) β) (w : World) :
    outcome (x >>= f) w =
      match outcome x w with
      | (.ok a, middle) => outcome (f a) middle
      | (.error failure, middle) => (.error failure, middle) := by
  have h : outcome (x >>= f) w = _ := ending_bind x f w
  rw [h, show ending x w = outcome x w from rfl]
  rcases outcome x w with ⟨_ | _, middle⟩ <;> rfl

/-- Behind a run with a result the next one goes on. -/
theorem outcome_bind_ok {a : α} (h : outcome x w = (.ok a, after)) : outcome (x >>= f) w = outcome (f a) after := by
  rw [outcome_bind, h]

/-- The time of day is what the clock shows. -/
theorem outcome_now (w : World) : outcome Run.now w = (w.now.elim (.error .noTime) .ok, w) := by
  have hstep : outcome (step Host.now) w = (.ok w.now, w) := rfl
  rw [Run.now, outcome_bind_ok hstep]
  cases w.now <;> rfl

/-- A run whose result is dropped leaves what the run leaves. -/
theorem outcome_discard (x : Run (StateM World) α) (w : World) :
    outcome (discard x) w = ((outcome x w).1.map fun _ => (), (outcome x w).2) := by
  have hbind : outcome (discard x) w = outcome (x >>= fun _ => pure ()) w := rfl
  rw [hbind, outcome_bind]
  rcases outcome x w with ⟨failure | a, after⟩ <;> rfl

/-- Two runs in sequence either fail at the first or go on with its result. -/
theorem cases_of_bind {result : Except Failure β} (h : outcome (x >>= f) w = (result, after)) :
    (∃ failure, outcome x w = (.error failure, after) ∧ result = .error failure) ∨
      ∃ a middle, outcome x w = (.ok a, middle) ∧ outcome (f a) middle = (result, after) := ending_bind_cases h

/-! ## Quiet runs -/

theorem quiet_fail (failure : Failure) : Quiet (fail failure : Run (StateM World) α) := World.Agrees.refl

theorem quiet_settle (failure : ε → Failure) (result : Except ε α) : Quiet (settle failure result) := World.Agrees.refl

theorem Quiet.bind (hx : Quiet x) (hf : ∀ a, Quiet (f a)) : Quiet (x >>= f) := by
  intro w
  have h := hx w
  rw [outcome_bind]
  rcases hxw : outcome x w with ⟨_ | a, middle⟩
  · rw [hxw] at h
    exact h
  · rw [hxw] at h
    exact h.trans (hf a middle)

/-- A step that only tells an event. -/
def Tells (x : Run (StateM World) Unit) : Prop := ∃ event : Log.Event, ∀ w : World, outcome x w = (.ok (), w.tell event)

theorem tells_debug (message : String) (fields : List Log.Field) : Tells (debug message fields) := ⟨_, fun _ => rfl⟩

theorem tells_inform (message : String) (fields : List Log.Field) : Tells (inform message fields) := ⟨_, fun _ => rfl⟩

theorem tells_warn (message : String) (fields : List Log.Field) : Tells (warn message fields) := ⟨_, fun _ => rfl⟩

theorem Tells.quiet {x : Run (StateM World) Unit} (h : Tells x) : Quiet x := by
  obtain ⟨event, h⟩ := h
  intro w
  rw [h w]
  exact w.agrees_tell event

/-- A run goes on behind an event that is told. -/
theorem Tells.of_bind {x : Run (StateM World) Unit} (ht : Tells x) {g : Unit → Run (StateM World) β} {result : Except Failure β}
    (h : outcome (x >>= g) w = (result, after)) : ∃ middle, w.Agrees middle ∧ outcome (g ()) middle = (result, after) := by
  obtain ⟨event, ht⟩ := ht
  rw [outcome_bind_ok (ht w)] at h
  exact ⟨_, w.agrees_tell event, h⟩

/-! ## Runs that fail otherwise -/

/-- A run that does not fail with a failure of some kind, in whatever world. -/
def Avoids (bad : Failure → Prop) (x : Run (StateM World) α) : Prop :=
  ∀ (w : World) (failure : Failure), (outcome x w).1 = .error failure → ¬bad failure

section

variable {bad : Failure → Prop}

theorem avoids_pure (a : α) : Avoids bad (pure a : Run (StateM World) α) := by
  intro w failure h
  cases h

theorem avoids_step (operation : StateM World α) : Avoids bad (step operation) := by
  intro w failure h
  cases h

theorem avoids_fail {failure : Failure} (h : ¬bad failure) : Avoids bad (fail failure : Run (StateM World) α) := by
  intro w other hother
  obtain rfl : failure = other := Except.error.inj hother
  exact h

/-- A result whose faults are no failures of that kind. -/
theorem avoids_attempt {failure : ε → Failure} (h : ∀ fault, ¬bad (failure fault)) (operation : StateM World (Except ε α)) :
    Avoids bad (attempt failure operation) := by
  intro w other hother
  rw [outcome_attempt] at hother
  cases hresult : (operation w).1 with
  | error fault =>
    rw [hresult] at hother
    obtain rfl : failure fault = other := Except.error.inj hother
    exact h fault
  | ok a =>
    rw [hresult] at hother
    cases hother

theorem avoids_settle {failure : ε → Failure} (h : ∀ fault, ¬bad (failure fault)) (result : Except ε α) :
    Avoids bad (settle failure result : Run (StateM World) α) := avoids_attempt h (pure result)

theorem Tells.avoids {x : Run (StateM World) Unit} (h : Tells x) : Avoids bad x := by
  obtain ⟨event, h⟩ := h
  intro w failure hfailure
  rw [h w] at hfailure
  cases hfailure

theorem Avoids.bind (hx : Avoids bad x) (hf : ∀ a, Avoids bad (f a)) : Avoids bad (x >>= f) := by
  intro w failure hfailure
  rcases hrun : outcome (x >>= f) w with ⟨result, after⟩
  rw [hrun] at hfailure
  rcases cases_of_bind hrun with ⟨failure', hfail, hresult⟩ | ⟨a, middle, -, hrest⟩
  · obtain rfl : failure' = failure := Except.error.inj (hresult.symm.trans hfailure)
    exact hx w failure' (by rw [hfail])
  · exact hf a middle failure (by rw [hrest]; exact hfailure)

end

/-! ## Runs that match -/

/-- A run that comes to one result in all worlds that look like a world, and leaves worlds that look like it. -/
def Yields (u : World) (x : Run (StateM World) α) (result : Except Failure α) : Prop :=
  ∀ w, u.LooksLike w → (outcome x w).1 = result ∧ u.LooksLike (outcome x w).2

/-- Two runs that come to the same result, which satisfies a condition if it is no failure, in all worlds that look like a world, and
leave worlds that look like it. -/
def Matches (u : World) (P : α → Prop) (x y : Run (StateM World) α) : Prop :=
  ∃ result, Yields u x result ∧ Yields u y result ∧ ∀ a, result = .ok a → P a

section

variable {u : World} {y : Run (StateM World) α} {g : α → Run (StateM World) β} {P : α → Prop} {Q : β → Prop}

theorem yields_pure (u : World) (a : α) : Yields u (pure a : Run (StateM World) α) (.ok a) := fun _ hw => ⟨rfl, hw⟩

theorem yields_fail (u : World) (failure : Failure) : Yields u (fail failure : Run (StateM World) α) (.error failure) :=
  fun _ hw => ⟨rfl, hw⟩

theorem yields_settle (u : World) (failure : ε → Failure) (result : Except ε α) :
    Yields u (settle failure result) (result.mapError failure) := fun _ hw => ⟨rfl, hw⟩

/-- A run that reads a result of a world and changes nothing. -/
theorem yields_of_reads {result : Except Failure α} (h : ∀ w, u.LooksLike w → outcome x w = (result, w)) : Yields u x result := by
  intro w hw
  rw [h w hw]
  exact ⟨rfl, hw⟩

theorem Tells.yields {x : Run (StateM World) Unit} (h : Tells x) (u : World) : Yields u x (.ok ()) := by
  obtain ⟨event, h⟩ := h
  intro w hw
  rw [h w]
  exact ⟨rfl, hw.tell event⟩

theorem Yields.bind_ok {a : α} {result : Except Failure β} (hx : Yields u x (.ok a)) (hf : Yields u (f a) result) :
    Yields u (x >>= f) result := by
  intro w hw
  obtain ⟨hok, hmiddle⟩ := hx w hw
  rw [outcome_bind_ok (Prod.ext hok rfl : outcome x w = (.ok a, (outcome x w).2))]
  exact hf _ hmiddle

theorem Yields.bind_error {failure : Failure} (hx : Yields u x (.error failure)) : Yields u (x >>= f) (.error failure) := by
  intro w hw
  obtain ⟨herror, hmiddle⟩ := hx w hw
  rw [outcome_bind, (Prod.ext herror rfl : outcome x w = (.error failure, (outcome x w).2))]
  exact ⟨rfl, hmiddle⟩

/-- Going through items is done when each of them can be gone through. -/
theorem yields_forM {γ : Type} {items : List γ} {each : γ → Run (StateM World) PUnit} (h : ∀ item, Yields u (each item) (.ok ())) :
    Yields u (items.forM each) (.ok ()) := by
  induction items with
  | nil => exact yields_pure u ()
  | cons item items ih => exact (h item).bind_ok ih

/-- Runs that come to the same result match. -/
theorem Yields.matches {result : Except Failure α} (hx : Yields u x result) (hy : Yields u y result)
    (h : ∀ a, result = .ok a → P a) : Matches u P x y := ⟨result, hx, hy, h⟩

/-- A run that comes to one result matches itself. -/
theorem Yields.steady {result : Except Failure α} (h : Yields u x result) : Matches u (fun _ => True) x x :=
  h.matches h fun _ _ => trivial

/-- Runs with a result that satisfies the condition match. -/
theorem matches_pure {a : α} (h : P a) : Matches u P (pure a) (pure a) :=
  (yields_pure u a).matches (yields_pure u a) fun _ hok => Except.ok.inj hok ▸ h

/-- Two runs match when they begin with runs that match and go on with runs that match. -/
theorem Matches.bind (h : Matches u P x y) (hf : ∀ a, P a → Matches u Q (f a) (g a)) : Matches u Q (x >>= f) (y >>= g) := by
  obtain ⟨result, hx, hy, hP⟩ := h
  cases result with
  | error failure => exact ⟨.error failure, hx.bind_error, hy.bind_error, nofun⟩
  | ok a =>
    obtain ⟨result', hfa, hga, hQ⟩ := hf a (hP a rfl)
    exact ⟨result', hx.bind_ok hfa, hy.bind_ok hga, hQ⟩

/-- Two runs match when they begin with results, each with its own, and go on with runs that match. -/
theorem Matches.of_yields {a b : α} (hx : Yields u x (.ok a)) (hy : Yields u y (.ok b)) (h : Matches u Q (f a) (g b)) :
    Matches u Q (x >>= f) (y >>= g) := by
  obtain ⟨result, hfa, hgb, hQ⟩ := h
  exact ⟨result, hx.bind_ok hfa, hy.bind_ok hgb, hQ⟩

/-- Two runs match when they begin by telling the same thing and go on with runs that match. -/
theorem Matches.of_tells {x : Run (StateM World) Unit} {f g : Unit → Run (StateM World) β} (hx : Tells x)
    (h : Matches u Q (f ()) (g ())) : Matches u Q (x >>= f) (x >>= g) :=
  Matches.of_yields (hx.yields u) (hx.yields u) h

/-- The condition on the result of runs that match can be weakened. -/
theorem Matches.mono {P' : α → Prop} (h : Matches u P x y) (hP : ∀ a, P a → P' a) : Matches u P' x y := by
  obtain ⟨result, hx, hy, hresult⟩ := h
  exact ⟨result, hx, hy, fun a hok => hP a (hresult a hok)⟩

/-- Runs that match come to the same result in the world. -/
theorem Matches.outcome_eq (h : Matches u P x y) : (outcome x u).1 = (outcome y u).1 := by
  obtain ⟨result, hx, hy, -⟩ := h
  rw [(hx u (.refl u)).1, (hy u (.refl u)).1]

/-- The result of runs that match satisfies the condition. -/
theorem Matches.of_outcome (h : Matches u P x y) {a : α} (hok : (outcome x u).1 = .ok a) : P a := by
  obtain ⟨result, hx, -, hP⟩ := h
  exact hP a ((hx u (.refl u)).1.symm.trans hok)

end

end Run

end SealedConfig
