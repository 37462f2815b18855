/-!
# Computations over a state that may fail

What a computation over a state comes to is put together from what its parts come to: behind a part that fails nothing more is done,
unless the failure is taken up.
-/

namespace SealedConfig

variable {σ α β ε : Type}

/-- What a computation comes to in a state: its result, and the state that it leaves. -/
def ending (x : ExceptT ε (StateM σ) α) (s : σ) : Except ε α × σ := x.run s

variable {x : ExceptT ε (StateM σ) α} {f : α → ExceptT ε (StateM σ) β} {s after : σ}

/-- Behind an operation on the state the next one goes on with its result. -/
theorem operation_bind {operation : StateM σ α} {next : α → StateM σ β} {a : α} (h : operation s = (a, after)) :
    (operation >>= next) s = next a after := by
  change next (operation s).1 (operation s).2 = next a after
  rw [h]

theorem ending_bind (x : ExceptT ε (StateM σ) α) (f : α → ExceptT ε (StateM σ) β) (s : σ) :
    ending (x >>= f) s =
      match ending x s with
      | (.ok a, middle) => ending (f a) middle
      | (.error failure, middle) => (.error failure, middle) := by
  have h : ending (x >>= f) s = (ExceptT.bindCont f (ending x s).1 : StateM σ (Except ε β)) (ending x s).2 := rfl
  rw [h]
  rcases ending x s with ⟨_ | _, middle⟩ <;> rfl

/-- Behind what has a result the next goes on. -/
theorem ending_bind_ok {a : α} (h : ending x s = (.ok a, after)) : ending (x >>= f) s = ending (f a) after := by
  rw [ending_bind, h]

/-- Behind what fails nothing is done. -/
theorem ending_bind_error {failure : ε} (h : ending x s = (.error failure, after)) :
    ending (x >>= f) s = (.error failure, after) := by
  rw [ending_bind, h]

/-- Two computations in sequence either fail at the first or go on with its result. -/
theorem ending_bind_cases {result : Except ε β} (h : ending (x >>= f) s = (result, after)) :
    (∃ failure, ending x s = (.error failure, after) ∧ result = .error failure) ∨
      ∃ a middle, ending x s = (.ok a, middle) ∧ ending (f a) middle = (result, after) := by
  rw [ending_bind] at h
  rcases hx : ending x s with ⟨failure | a, middle⟩
  · rw [hx] at h
    obtain ⟨rfl, rfl⟩ := Prod.mk.inj h
    exact Or.inl ⟨failure, rfl, rfl⟩
  · rw [hx] at h
    exact Or.inr ⟨a, middle, rfl, h⟩

/-- What does not fail is not taken up. -/
theorem ending_tryCatch (x : ExceptT ε (StateM σ) α) (handle : ε → ExceptT ε (StateM σ) α) (s : σ) :
    ending (tryCatch x handle) s =
      match ending x s with
      | (.ok a, middle) => (.ok a, middle)
      | (.error failure, middle) => ending (handle failure) middle := by
  rcases hx : ending x s with ⟨result, middle⟩
  have hrun : ending (tryCatch x handle) s = (ExceptT.tryCatch x handle : ExceptT ε (StateM σ) α) s := rfl
  rw [hrun, ExceptT.tryCatch]
  refine (operation_bind hx).trans ?_
  cases result <;> rfl

end SealedConfig
