/-!
# Outcomes of computations that may fail

A computation in steps gives a result only if each of its steps does, and then the results of the steps make up its own. Two
computations may be followed side by side: they fail alike, or their results are related.
-/

namespace SealedConfig.Outcome

variable {ε α β : Type}

/-- Two computations fail with the same failures: with one of them exactly when the other does. -/
def FailAlike (x : Except ε α) (y : Except ε β) : Prop := ∀ failure, x = .error failure ↔ y = .error failure

/-- Two computations fail alike, or both give results, and these are related. -/
inductive Parallel (R : α → β → Prop) : Except ε α → Except ε β → Prop where
  | error (failure : ε) : Parallel R (.error failure) (.error failure)
  | ok {a : α} {b : β} (h : R a b) : Parallel R (.ok a) (.ok b)

@[simp] theorem ok_bind (a : α) (f : α → Except ε β) : (Except.ok a >>= f) = f a := rfl

@[simp] theorem ok_map (a : α) (f : α → β) : (Except.ok a : Except ε α).map f = .ok (f a) := rfl

/-- A computation of two steps that gives a result gave one at its first step. -/
theorem exists_of_bind {x : Except ε α} {f : α → Except ε β} {b : β} (h : x >>= f = .ok b) :
    ∃ a, x = .ok a ∧ f a = .ok b := by
  cases x with
  | error e => cases h
  | ok a => exact ⟨a, rfl, h⟩

/-- A computation went well exactly when there is a result. -/
theorem isOk_iff {x : Except ε α} : x.isOk = true ↔ ∃ a, x = .ok a := by
  cases x with
  | error e => exact ⟨nofun, nofun⟩
  | ok a => exact ⟨fun _ => ⟨a, rfl⟩, fun _ => rfl⟩

theorem isOk_eq_false_iff {x : Except ε α} : x.isOk = false ↔ ∃ e, x = .error e := by
  cases x with
  | error e => exact ⟨fun _ => ⟨e, rfl⟩, fun _ => rfl⟩
  | ok a => exact ⟨nofun, nofun⟩

/-- A result passed through a function came from a result. -/
theorem exists_of_map {x : Except ε α} {f : α → β} {b : β} (h : x.map f = .ok b) : ∃ a, x = .ok a ∧ f a = b := by
  cases x with
  | error e => cases h
  | ok a => exact ⟨a, rfl, Except.ok.inj h⟩

/-- A result stays itself when faults are passed through a function. -/
theorem mapError_eq_ok_iff {ε' : Type} {x : Except ε α} {f : ε → ε'} {a : α} : x.mapError f = .ok a ↔ x = .ok a := by
  cases x with
  | error fault =>
    constructor
    · intro h
      cases h
    · intro h
      cases h
  | ok value =>
    constructor
    · intro h
      cases h
      rfl
    · intro h
      cases h
      rfl

/-- A computation that gives a result passed the checks that it made. -/
theorem of_ite_throw {c : Prop} [Decidable c] {e : ε} {f : α → Except ε β} {x : Except ε β} {b : β}
    (h : (if c then (throw e >>= f) else x) = .ok b) : ¬c ∧ x = .ok b := by
  split at h
  · cases h
  · exact ⟨‹_›, h⟩

/-- Two options that are related are both empty or hold related values. -/
theorem cases_of_rel {R : α → β → Prop} {x : Option α} {y : Option β} (h : Option.Rel R x y) :
    x = none ∧ y = none ∨ ∃ a b, x = some a ∧ y = some b ∧ R a b := by
  cases h with
  | some h => exact Or.inr ⟨_, _, rfl, rfl, h⟩
  | none => exact Or.inl ⟨rfl, rfl⟩

/-- Options that are computed alike from options that are related are related. -/
theorem rel_bind {α' β' : Type} {R : α → β → Prop} {S : α' → β' → Prop} {x : Option α} {y : Option β} {f : α → Option α'}
    {g : β → Option β'} (h : Option.Rel R x y) (hf : ∀ a b, R a b → Option.Rel S (f a) (g b)) :
    Option.Rel S (x.bind f) (y.bind g) := by
  cases h with
  | some h => exact hf _ _ h
  | none => exact .none

/-- Functions of options that are related give related options. -/
theorem rel_map {α' β' : Type} {R : α → β → Prop} {S : α' → β' → Prop} {x : Option α} {y : Option β} {f : α → α'} {g : β → β'}
    (h : Option.Rel R x y) (hf : ∀ a b, R a b → S (f a) (g b)) : Option.Rel S (x.map f) (y.map g) := by
  cases h with
  | some h => exact .some (hf _ _ h)
  | none => exact .none

/-! ## Computations side by side -/

variable {R : α → β → Prop} {x : Except ε α} {y : Except ε β}

theorem Parallel.cases (h : Parallel R x y) :
    (∃ failure, x = .error failure ∧ y = .error failure) ∨ ∃ a b, x = .ok a ∧ y = .ok b ∧ R a b := by
  cases h with
  | error failure => exact Or.inl ⟨failure, rfl, rfl⟩
  | ok h => exact Or.inr ⟨_, _, rfl, rfl, h⟩

theorem Parallel.mono {S : α → β → Prop} (h : Parallel R x y) (hR : ∀ a b, R a b → S a b) : Parallel S x y := by
  cases h with
  | error failure => exact .error failure
  | ok h => exact .ok (hR _ _ h)

theorem Parallel.mapError {ε' : Type} (h : Parallel R x y) (f : ε → ε') : Parallel R (x.mapError f) (y.mapError f) := by
  cases h with
  | error failure => exact .error (f failure)
  | ok h => exact .ok h

theorem Parallel.map {α' β' : Type} {S : α' → β' → Prop} {f : α → α'} {g : β → β'} (h : Parallel R x y)
    (hS : ∀ a b, R a b → S (f a) (g b)) : Parallel S (x.map f) (y.map g) := by
  cases h with
  | error failure => exact .error failure
  | ok h => exact .ok (hS _ _ h)

/-- Computations that go side by side fail alike. -/
theorem Parallel.failAlike (h : Parallel R x y) : FailAlike x y := by
  intro failure
  cases h with
  | error cause => exact ⟨fun h => congrArg _ (Except.error.inj h), fun h => congrArg _ (Except.error.inj h)⟩
  | ok h => exact ⟨nofun, nofun⟩

/-- Computations that fail alike both fail with one failure, or both give results. -/
theorem FailAlike.cases {x : Except ε α} {y : Except ε β} (h : FailAlike x y) :
    (∃ failure, x = .error failure ∧ y = .error failure) ∨ ∃ a b, x = .ok a ∧ y = .ok b := by
  cases x with
  | error failure => exact Or.inl ⟨failure, rfl, (h failure).mp rfl⟩
  | ok a =>
    cases y with
    | error failure => cases (h failure).mpr rfl
    | ok b => exact Or.inr ⟨a, b, rfl, rfl⟩

/-- Computations that fail alike go side by side, whatever their results. -/
theorem FailAlike.parallel {x : Except ε α} {y : Except ε β} (h : FailAlike x y) : Parallel (fun _ _ => True) x y := by
  rcases h.cases with ⟨failure, rfl, rfl⟩ | ⟨a, b, rfl, rfl⟩
  · exact .error failure
  · exact .ok trivial

theorem FailAlike.map {x : Except ε α} {y : Except ε β} {α' β' : Type} (h : FailAlike x y) (f : α → α') (g : β → β') :
    FailAlike (x.map f) (y.map g) := by
  have hmap : Parallel (fun _ _ => True) (x.map f) (y.map g) := h.parallel.map fun _ _ _ => trivial
  exact hmap.failAlike

theorem FailAlike.mapError {x : Except ε α} {y : Except ε β} {ε' : Type} (h : FailAlike x y) (f : ε → ε') :
    FailAlike (x.mapError f) (y.mapError f) := (h.parallel.mapError f).failAlike

end SealedConfig.Outcome
