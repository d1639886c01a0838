import Mathlib.Tactic.Common

/-!
# Computations that can fail

A run of steps has a result when each step has one that the next goes on with.
-/

namespace PlayerInterface.Core

variable {ε α β : Type}

theorem bind_eq_ok {x : Except ε α} {f : α → Except ε β} {b : β} :
    (x >>= f) = .ok b ↔ ∃ a, x = .ok a ∧ f a = .ok b := by
  cases x with
  | error e =>
      constructor
      · intro h
        cases h
      · intro ⟨a, h, _⟩
        cases h
  | ok a =>
      constructor
      · intro h
        exact ⟨a, rfl, h⟩
      · intro ⟨a', ha, h⟩
        cases ha
        exact h

/-- A guarded step. -/
theorem guard_eq_ok {c : Prop} [Decidable c] {e : ε} {a b : α} :
    (if c then .ok a else .error e : Except ε α) = .ok b ↔ c ∧ a = b := by
  split
  case isTrue hc => simp only [Except.ok.injEq, hc, true_and]
  case isFalse hc => simp only [reduceCtorEq, hc, false_and]

end PlayerInterface.Core
