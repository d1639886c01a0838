import Mathlib.Data.List.Nodup
import Mathlib.Data.Nat.ModEq
import Mathlib.Tactic.Common

/-!
# Counters that wrap around

Tickets are numbered without end and bear the values of a counter that starts over behind
`range` of them. Two tickets bear the same value exactly when a multiple of the range lies
between them.
-/

namespace PlayerInterface.Core

/-- The value ticket `k` bears. -/
def wrapping (first range k : Nat) : Nat := first + k % range

variable {first range : Nat}

theorem wrapping_of_lt {k : Nat} (h : k < range) : wrapping first range k = first + k := by
  rw [wrapping, Nat.mod_eq_of_lt h]

/-- The counter starts over where the next value would be out of range. -/
theorem wrapping_succ (h : 0 < range) (k : Nat) :
    wrapping first range (k + 1) =
      if first + range ≤ wrapping first range k + 1 then first else wrapping first range k + 1 := by
  have hlt := Nat.mod_lt k h
  have hdiv := Nat.div_add_mod k range
  unfold wrapping
  split
  case isTrue hend =>
    have hk : k + 1 = range * (k / range) + range := by omega
    rw [hk, Nat.add_mod_right, Nat.mul_mod_right, Nat.add_zero]
  case isFalse hmore =>
    have hk : k + 1 = range * (k / range) + (k % range + 1) := by omega
    rw [hk, Nat.mul_add_mod, Nat.mod_eq_of_lt (by omega), Nat.add_assoc]

theorem wrapping_eq_iff {k k' : Nat} (h : k' ≤ k) :
    wrapping first range k = wrapping first range k' ↔ range ∣ k - k' := by
  rw [wrapping, wrapping, Nat.add_left_cancel_iff, ← Nat.modEq_iff_dvd' h]
  exact ⟨Eq.symm, Eq.symm⟩

/-- Among as many tickets in a row as there are values no two bear the same one. -/
theorem wrapping_ne {k k' n : Nat} (hlt : k' < k) (hk : k < n) (hwindow : n ≤ k' + range) :
    wrapping first range k ≠ wrapping first range k' := by
  intro heq
  have hdvd := (wrapping_eq_iff (Nat.le_of_lt hlt)).mp heq
  have hle := Nat.le_of_dvd (Nat.sub_pos_of_lt hlt) hdvd
  omega

theorem wrapping_nodup {tickets : List Nat} {n : Nat} (hasc : tickets.Pairwise (· < ·))
    (hbelow : ∀ k ∈ tickets, k < n) (hwindow : ∀ k ∈ tickets, n ≤ k + range) :
    (tickets.map (wrapping first range)).Nodup := by
  rw [List.Nodup, List.pairwise_map]
  apply hasc.imp_of_mem
  intro k' k hk' hk hlt
  exact (wrapping_ne hlt (hbelow k hk) (hwindow k' hk')).symm

end PlayerInterface.Core
