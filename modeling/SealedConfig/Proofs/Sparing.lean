import SealedConfig.Proofs.Run

/-!
# Runs that leave files alone

A run that only reads comes to the same wherever the world looks the same, so what it found out stays true as long as nothing is
written. Beyond reading, a computation may print, take the input or draw random bytes and still spare the files.
-/

namespace SealedConfig

/-- A world that looks as it did, at the same time, with its input still to be read and nothing more put out. -/
structure World.Undisturbed (w after : World) : Prop extends w.LooksLike after where
  input : after.input = w.input
  output : after.output = w.output
  now : after.now = w.now

theorem World.Undisturbed.refl (w : World) : w.Undisturbed w := ⟨.refl w, rfl, rfl, rfl⟩

theorem World.Undisturbed.trans {w middle after : World} (h : w.Undisturbed middle) (h' : middle.Undisturbed after) :
    w.Undisturbed after :=
  ⟨h.toLooksLike.trans h'.toLooksLike, h'.input.trans h.input, h'.output.trans h.output, h'.now.trans h.now⟩

/-- Telling an event disturbs nothing. -/
theorem World.undisturbed_tell (w : World) (event : Log.Event) : w.Undisturbed (w.tell event) := by
  refine ⟨(World.LooksLike.refl w).tell event, ?_, ?_, ?_⟩
  all_goals
    rw [World.tell]
    split <;> rfl

namespace Run

variable {α β ε : Type} {x : Run (StateM World) α} {f : α → Run (StateM World) β} {w : World}

/-! ## Runs that only read -/

/-- A run that comes to the same in worlds that look alike, and disturbs none of them. -/
def Reads (x : Run (StateM World) α) : Prop :=
  ∀ u w : World, u.LooksLike w → (outcome x w).1 = (outcome x u).1 ∧ w.Undisturbed (outcome x w).2

theorem Reads.undisturbed (h : Reads x) (w : World) : w.Undisturbed (outcome x w).2 := (h w w (.refl w)).2

theorem Reads.outcome_eq {u : World} (h : Reads x) (hw : u.LooksLike w) : (outcome x w).1 = (outcome x u).1 := (h u w hw).1

theorem reads_pure (a : α) : Reads (pure a : Run (StateM World) α) := fun _ w _ => ⟨rfl, .refl w⟩

theorem reads_fail (failure : Failure) : Reads (fail failure : Run (StateM World) α) := fun _ w _ => ⟨rfl, .refl w⟩

theorem reads_settle (failure : ε → Failure) (result : Except ε α) : Reads (settle failure result) :=
  fun _ w _ => ⟨rfl, .refl w⟩

/-- A step that reads off a world what it looks like. -/
theorem reads_step {operation : StateM World α} (h : ∀ u w : World, u.LooksLike w → operation w = ((operation u).1, w)) :
    Reads (step operation) := by
  intro u w hw
  rw [outcome_step, outcome_step, h u w hw]
  exact ⟨rfl, .refl w⟩

theorem reads_attempt {operation : StateM World (Except ε α)} (failure : ε → Failure)
    (h : ∀ u w : World, u.LooksLike w → operation w = ((operation u).1, w)) : Reads (attempt failure operation) := by
  intro u w hw
  rw [outcome_attempt, outcome_attempt, h u w hw]
  exact ⟨rfl, .refl w⟩

theorem Tells.reads {x : Run (StateM World) Unit} (h : Tells x) : Reads x := by
  obtain ⟨event, h⟩ := h
  intro u w _
  rw [h w, h u]
  exact ⟨rfl, w.undisturbed_tell event⟩

theorem Reads.bind (hx : Reads x) (hf : ∀ a, Reads (f a)) : Reads (x >>= f) := by
  intro u w hw
  obtain ⟨hresult, hafter⟩ := hx u w hw
  have hbefore := hx.undisturbed u
  rw [outcome_bind, outcome_bind]
  rcases hxw : outcome x w with ⟨result, after⟩
  rcases hxu : outcome x u with ⟨result', before⟩
  rw [hxw] at hresult hafter
  rw [hxu] at hresult hbefore
  obtain rfl : result = result' := hresult
  cases result with
  | error failure => exact ⟨rfl, hafter⟩
  | ok a =>
    have hlook : before.LooksLike after := (hbefore.symm.trans hw).trans hafter.toLooksLike
    obtain ⟨hrest, hend⟩ := hf a before after hlook
    exact ⟨hrest, hafter.trans hend⟩

/-- A run that reads has its result in every undisturbed world, and leaves one. -/
theorem Reads.exists_outcome {u : World} {a : α} (hx : Reads x) (hw : u.Undisturbed w) (ha : (outcome x u).1 = .ok a) :
    ∃ after, u.Undisturbed after ∧ outcome x w = (.ok a, after) :=
  ⟨(outcome x w).2, hw.trans (hx.undisturbed w), Prod.ext ((hx.outcome_eq hw.toLooksLike).trans ha) rfl⟩

/-- A run that reads comes to one result in all worlds that look like a world. -/
theorem Reads.yields (h : Reads x) (u : World) : Yields u x (outcome x u).1 :=
  fun w hw => ⟨h.outcome_eq hw, hw.trans (h.undisturbed w).toLooksLike⟩

/-- What a run with a result came to before what it goes on with. -/
theorem exists_of_bind_ok {b : β} (h : (outcome (x >>= f) w).1 = .ok b) :
    ∃ a, (outcome x w).1 = .ok a ∧ (outcome (f a) (outcome x w).2).1 = .ok b := by
  rw [outcome_bind] at h
  rcases hx : outcome x w with ⟨failure | a, middle⟩
  · rw [hx] at h
    cases h
  · rw [hx] at h
    exact ⟨a, rfl, h⟩

/-- A run that reads and has a result, and goes on with it where the world looks as before. -/
theorem Reads.exists_of_bind_ok {b : β} (hx : Reads x) (hf : ∀ a, Reads (f a)) (h : (outcome (x >>= f) w).1 = .ok b) :
    ∃ a, (outcome x w).1 = .ok a ∧ (outcome (f a) w).1 = .ok b := by
  obtain ⟨a, ha, hb⟩ := Run.exists_of_bind_ok h
  exact ⟨a, ha, ((hf a).outcome_eq (hx.undisturbed w).toLooksLike).symm.trans hb⟩

theorem Reads.bind_ok {a : α} {b : β} (hx : Reads x) (hf : ∀ a, Reads (f a)) (ha : (outcome x w).1 = .ok a)
    (hb : (outcome (f a) w).1 = .ok b) : (outcome (x >>= f) w).1 = .ok b := by
  rw [outcome_bind_ok (Prod.ext ha rfl : outcome x w = (.ok a, (outcome x w).2))]
  exact ((hf a).outcome_eq (hx.undisturbed w).toLooksLike).trans hb

/-! ## Computations that spare the files -/

/-- A computation that leaves the files as they are in every world. -/
def Spares {γ : Type} (x : StateM World γ) : Prop := ∀ w : World, (x w).2.files = w.files

theorem spares_fail (failure : Failure) : Spares (outcome (fail failure : Run (StateM World) α)) := fun _ => rfl

theorem spares_settle (failure : ε → Failure) (result : Except ε α) : Spares (outcome (settle failure result)) := fun _ => rfl

theorem spares_step {operation : StateM World α} (h : Spares operation) : Spares (outcome (step operation)) := h

theorem Reads.spares (h : Reads x) : Spares (outcome x) := fun w => (h.undisturbed w).files

theorem Spares.bind (hx : Spares (outcome x)) (hf : ∀ a, Spares (outcome (f a))) : Spares (outcome (x >>= f)) := by
  intro w
  have h := hx w
  rw [outcome_bind]
  rcases hxw : outcome x w with ⟨failure | a, middle⟩
  · rw [hxw] at h
    exact h
  · rw [hxw] at h
    exact (hf a middle).trans h

/-- Items that are gone through one by one spare the files when each of them does. -/
theorem spares_forM {γ : Type} {items : List γ} {each : γ → Run (StateM World) PUnit} (h : ∀ item, Spares (outcome (each item))) :
    Spares (outcome (items.forM each)) := by
  induction items with
  | nil => exact fun _ => rfl
  | cons item items ih =>
    exact (h item).bind fun _ => ih

theorem spares_mapM {γ : Type} {items : List γ} {each : γ → Run (StateM World) α} (h : ∀ item, Spares (outcome (each item))) :
    Spares (outcome (items.mapM each)) := by
  induction items with
  | nil => exact fun _ => rfl
  | cons item items ih =>
    rw [List.mapM_cons]
    exact (h item).bind fun a => ih.bind fun rest => fun _ => rfl

/-! ## Computations that only tell events -/

/-- A computation that changes nothing but what stands on standard error, in every world. -/
def OnlyTells {γ : Type} (x : StateM World γ) : Prop :=
  ∀ w : World, ∃ complaints : String, (x w).2 = { w with complaints := complaints }

section

variable {γ δ : Type}

/-- A computation that leaves every world as it was. -/
theorem onlyTells_of_unchanged {y : StateM World γ} (h : ∀ w, (y w).2 = w) : OnlyTells y :=
  fun w => ⟨w.complaints, h w⟩

theorem OnlyTells.then {y : StateM World γ} {g : γ → StateM World δ} (hy : OnlyTells y) (hg : ∀ c, OnlyTells (g c)) :
    OnlyTells (y >>= g) := by
  intro w
  obtain ⟨told, hmiddle⟩ := hy w
  obtain ⟨complaints, hafter⟩ := hg (y w).1 (y w).2
  refine ⟨complaints, ?_⟩
  change (g (y w).1 (y w).2).2 = _
  rw [hafter, hmiddle]

theorem onlyTells_pure (c : γ) : OnlyTells (pure c : StateM World γ) := onlyTells_of_unchanged fun _ => rfl

theorem Tells.onlyTells {x : Run (StateM World) Unit} (h : Tells x) : OnlyTells (outcome x) := by
  obtain ⟨event, h⟩ := h
  intro w
  rw [h w, World.tell]
  split
  · exact ⟨_, rfl⟩
  · exact ⟨w.complaints, rfl⟩

theorem OnlyTells.bind (hx : OnlyTells (outcome x)) (hf : ∀ a, OnlyTells (outcome (f a))) : OnlyTells (outcome (x >>= f)) := by
  intro w
  obtain ⟨told, hmiddle⟩ := hx w
  rw [outcome_bind]
  rcases hxw : outcome x w with ⟨failure | a, middle⟩
  · rw [hxw] at hmiddle
    exact ⟨told, hmiddle⟩
  · rw [hxw] at hmiddle
    obtain rfl : middle = { w with complaints := told } := hmiddle
    exact hf a { w with complaints := told }

/-- Telling events spares the files. -/
theorem OnlyTells.spares {y : StateM World γ} (h : OnlyTells y) : Spares y := by
  intro w
  obtain ⟨complaints, hafter⟩ := h w
  rw [hafter]

/-- Telling events takes no time. -/
theorem OnlyTells.ticks {y : StateM World γ} (h : OnlyTells y) (w : World) : (y w).2.ticks = w.ticks := by
  obtain ⟨complaints, hafter⟩ := h w
  rw [hafter]

end

end Run

end SealedConfig
