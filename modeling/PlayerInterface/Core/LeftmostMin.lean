import Mathlib.Order.Lattice
import Mathlib.Tactic.Common

/-!
# The leftmost minimum of a window

A loop that keeps the index of the smallest value so far, and replaces it by a
strictly smaller one only, ends at the leftmost index of the minimum.
-/

namespace PlayerInterface.Core

variable {α : Type} [LinearOrder α] {f : Nat → α} {lo hi i j : Nat}

structure LeftmostMin (f : Nat → α) (lo hi i : Nat) : Prop where
  ge : lo ≤ i
  lt : i < hi
  least : ∀ j, lo ≤ j → j < hi → f i ≤ f j
  first : ∀ j, lo ≤ j → j < i → f i < f j

namespace LeftmostMin

theorem single (f : Nat → α) (i : Nat) : LeftmostMin f i (i + 1) i where
  ge := Nat.le_refl i
  lt := Nat.lt_succ_self i
  least := fun j hge hlt => by
    obtain rfl : j = i := by omega
    exact le_refl _
  first := fun j hge hlt => absurd hge (by omega)

theorem extend (h : LeftmostMin f lo hi i) :
    LeftmostMin f lo (hi + 1) (if f hi < f i then hi else i) := by
  have hge := h.ge
  have hlt := h.lt
  by_cases hsmaller : f hi < f i
  · rw [if_pos hsmaller]
    have hbelow : ∀ j, lo ≤ j → j < hi → f hi < f j := fun j hj hjlt =>
      lt_of_lt_of_le hsmaller (h.least j hj hjlt)
    refine ⟨by omega, Nat.lt_succ_self hi, fun j hj hjlt => ?_, hbelow⟩
    rcases Nat.lt_succ_iff_lt_or_eq.mp hjlt with hjlt | rfl
    · exact le_of_lt (hbelow j hj hjlt)
    · exact le_refl _
  · rw [if_neg hsmaller]
    refine ⟨hge, by omega, fun j hj hjlt => ?_, h.first⟩
    rcases Nat.lt_succ_iff_lt_or_eq.mp hjlt with hjlt | rfl
    · exact h.least j hj hjlt
    · exact not_lt.mp hsmaller

/-- The loop over the `n` indices behind the window. -/
theorem foldl (h : LeftmostMin f lo hi i) (n : Nat) :
    LeftmostMin f lo (hi + n)
      ((List.range' hi n).foldl (fun best j => if f j < f best then j else best) i) := by
  induction n generalizing hi i with
  | zero => exact h
  | succ n ih =>
      rw [List.range'_succ, List.foldl_cons, Nat.add_comm n 1, ← Nat.add_assoc]
      exact ih h.extend

/-- No other index comes first by its value, and by its place among equal values. -/
theorem not_before (h : LeftmostMin f lo hi i) (hj : lo ≤ j) (hjlt : j < hi) :
    ¬ (f j < f i ∨ f j = f i ∧ j < i) := by
  rintro (hless | ⟨heq, hless⟩)
  · exact not_lt.mpr (h.least j hj hjlt) hless
  · exact absurd (h.first j hj hless) (by rw [heq]; exact lt_irrefl _)

theorem before (h : LeftmostMin f lo hi i) (hj : lo ≤ j) (hjlt : j < hi) (hne : j ≠ i) :
    f i < f j ∨ f i = f j ∧ i < j := by
  rcases Nat.lt_or_gt_of_ne hne with hless | hgreater
  · exact Or.inl (h.first j hj hless)
  · rcases lt_or_eq_of_le (h.least j hj hjlt) with hless | heq
    · exact Or.inl hless
    · exact Or.inr ⟨heq, hgreater⟩

end LeftmostMin
end PlayerInterface.Core
