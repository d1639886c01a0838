import Mathlib.Algebra.Order.Ring.Nat
import Mathlib.Tactic.Common

/-!
# Histories

What a system did, oldest first. A property of a history may say of each entry how it stands to
those before it.
-/

namespace PlayerInterface.Core

/-- Each entry stands rightly to the entries before it. -/
def EachAfter {α : Type} (P : List α → α → Prop) (xs : List α) : Prop :=
  ∀ before x after, xs = before ++ x :: after → P before x

section

variable {α : Type} {P : List α → α → Prop} {xs ys : List α}

theorem eachAfter_nil : EachAfter P [] := by
  intro before x after h
  cases before <;> cases h

theorem EachAfter.append (hxs : EachAfter P xs)
    (hys : ∀ before y after, ys = before ++ y :: after → P (xs ++ before) y) :
    EachAfter P (xs ++ ys) := by
  intro before x after h
  rcases List.append_eq_append_iff.mp h with ⟨more, hbefore, hrest⟩ | ⟨more, hsplit, hrest⟩
  · rw [hbefore]
    exact hys more x after hrest
  · cases more with
    | nil =>
        have hhere := hys [] x after hrest.symm
        rw [hsplit, List.append_nil, List.append_nil] at hhere
        exact hhere
    | cons first more =>
        cases hrest
        exact hxs before _ more hsplit

theorem EachAfter.concat (hxs : EachAfter P xs) {y : α} (hy : P xs y) :
    EachAfter P (xs ++ [y]) := by
  apply hxs.append
  intro before x after h
  cases before with
  | nil =>
      cases h
      rw [List.append_nil]
      exact hy
  | cons first before =>
      cases before <;> cases h

end

/-! ## Failures in a row

A counter goes up with every failure and is cleared by a success. It raises an alarm when it
passes its limit, and is cleared then too: at every `limit + 1`st failure of a row. -/

/-- The failures at the end of a sequence of outcomes. -/
def streak (failed : List Bool) : Nat := (failed.reverse.takeWhile id).length

@[simp] theorem streak_nil : streak [] = 0 := rfl

@[simp] theorem streak_concat_false (failed : List Bool) : streak (failed ++ [false]) = 0 := by
  simp [streak]

@[simp] theorem streak_concat_true (failed : List Bool) :
    streak (failed ++ [true]) = streak failed + 1 := by
  simp [streak]

/-- The counter behind an outcome, and whether the alarm is raised. -/
def countFailure (limit counter : Nat) (failed : Bool) : Nat × Bool :=
  let counter := if failed then counter + 1 else 0
  if limit < counter then (0, true) else (counter, false)

/-- The counter is the streak up to the alarms raised in it. -/
theorem countFailure_streak (limit : Nat) (past : List Bool) (failed : Bool) :
    countFailure limit (streak past % (limit + 1)) failed =
      (streak (past ++ [failed]) % (limit + 1),
        decide (failed = true ∧ limit + 1 ∣ streak (past ++ [failed]))) := by
  cases failed with
  | false => simp [countFailure]
  | true =>
      have hlt : streak past % (limit + 1) < limit + 1 := Nat.mod_lt _ (Nat.succ_pos limit)
      have hdiv := Nat.div_add_mod (streak past) (limit + 1)
      simp only [countFailure, if_true, streak_concat_true, true_and]
      split
      case isTrue hover =>
        have hend : streak past + 1 = (limit + 1) * (streak past / (limit + 1) + 1) := by
          rw [Nat.mul_add_one]
          omega
        rw [hend, Nat.mul_mod_right]
        simp
      case isFalse hunder =>
        have hmore : (streak past + 1) % (limit + 1) = streak past % (limit + 1) + 1 := by
          conv_lhs => rw [← hdiv, Nat.add_assoc]
          rw [Nat.mul_add_mod, Nat.mod_eq_of_lt (by omega)]
        simp [Nat.dvd_iff_mod_eq_zero, hmore]

end PlayerInterface.Core
