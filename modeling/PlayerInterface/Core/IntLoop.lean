import Mathlib.Algebra.Group.Int.Defs
import Mathlib.Algebra.Group.Nat.Defs
import Mathlib.Tactic.Common

/-!
# Loops over a buffer with an `int` index

An index that passes the largest `int` overflows, so such a loop has a result
only for the buffers it can count.
-/

namespace PlayerInterface.Core

variable {σ α : Type}

def INT_MAX : Nat := 2 ^ 31 - 1

/-- `for (int i = 0; i < n; ++i)` over the elements of a buffer, from index `i` on.
Incrementing the largest `int` has no defined result. -/
def intLoop (body : σ → α → σ) (xs : List α) (i : Nat) (s : σ) : Option σ :=
  if h : i < xs.length then
    if i = INT_MAX then none else intLoop body xs (i + 1) (body s xs[i])
  else some s
  termination_by xs.length - i

theorem intLoop_of_le {xs : List α} (h : xs.length ≤ INT_MAX) (body : σ → α → σ) (i : Nat)
    (s : σ) : intLoop body xs i s = some ((xs.drop i).foldl body s) := by
  fun_induction intLoop body xs i s with
  | case1 s hi => omega
  | case2 i s hi hmax ih => rw [ih, List.drop_eq_getElem_cons hi, List.foldl_cons]
  | case3 i s hi => rw [List.drop_eq_nil_of_le (Nat.le_of_not_lt hi), List.foldl_nil]

theorem intLoop_overflow {xs : List α} (h : INT_MAX < xs.length) (body : σ → α → σ) {i : Nat}
    (hi : i ≤ INT_MAX) (s : σ) : intLoop body xs i s = none := by
  fun_induction intLoop body xs i s with
  | case1 s hlt => rfl
  | case2 i s hlt hmax ih => exact ih (by omega)
  | case3 i s hlt => omega

end PlayerInterface.Core
