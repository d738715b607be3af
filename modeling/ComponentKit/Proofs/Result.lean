import Mathlib

/-!
# Results

When a result that is made of others is there: results in sequence (`bind_eq_ok`), mapped ones (`map_eq_ok`,
`mapError_eq_ok`), and one for each item of a list. A function that reads and checks one thing after another is
taken apart with these, and not by unfolding how its parts are put together.
-/

namespace ComponentKit

variable {ε ε' α β : Type} {result : Except ε α} {f : α → Except ε β} {value : β} {failure : ε}

theorem pure_eq_ok {given other : α} : (pure given : Except ε α) = .ok other ↔ given = other := by
  simp [pure, Except.pure]

theorem throw_ne_ok : (throw failure : Except ε β) ≠ .ok value := by
  simp [throw, throwThe, MonadExceptOf.throw]

/-! ## Results in sequence -/

theorem bind_eq_ok : (result >>= f) = .ok value ↔ ∃ x, result = .ok x ∧ f x = .ok value := by
  cases result <;> simp [bind, Except.bind]

theorem bind_eq_error :
    (result >>= f) = .error failure ↔ result = .error failure ∨ ∃ x, result = .ok x ∧ f x = .error failure := by
  cases result <;> simp [bind, Except.bind]

/-! ## Mapped results -/

theorem map_eq_ok {g : α → β} : g <$> result = .ok value ↔ ∃ x, result = .ok x ∧ g x = value := by
  cases result <;> simp [Functor.map, Except.map]

theorem mapError_eq_ok {g : ε → ε'} {given : α} : result.mapError g = .ok given ↔ result = .ok given := by
  cases result <;> simp [Except.mapError]

theorem mapError_eq_error {g : ε → ε'} {mapped : ε'} :
    result.mapError g = .error mapped ↔ ∃ cause, result = .error cause ∧ mapped = g cause := by
  cases result <;> simp [Except.mapError, eq_comm]

/-! ## A result for each item -/

theorem exists_mapM_eq_error {items : List α} :
    (∃ failure, items.mapM f = .error failure) ↔ ∃ item ∈ items, ∃ failure, f item = .error failure := by
  induction items with
  | nil => simp [pure, Except.pure]
  | cons item items ih =>
    rw [List.mapM_cons, List.exists_mem_cons_iff, ← ih]
    cases f item <;> cases items.mapM f <;> simp [bind, Except.bind, pure, Except.pure]

end ComponentKit
