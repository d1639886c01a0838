import Mathlib.Tactic.Common
import Mathlib.Data.List.Infix

/-!
# Substring search

The first occurrence of a pattern, and the text between an opening and a closing
delimiter. The condition for a search to find the place that is meant is that the
delimiter does not occur at any place before it.
-/

namespace PlayerInterface.Core

variable {α : Type} [DecidableEq α]

/-- The index of the first occurrence. -/
def find (pat : List α) : List α → Option Nat
  | [] => if pat = [] then some 0 else none
  | x :: xs => if pat <+: x :: xs then some 0 else (find pat xs).map (· + 1)

/-- In `pre ++ pat ++ post`, no occurrence of `pat` starts inside `pre`. -/
def FirstAt (pat pre post : List α) : Prop :=
  ∀ i < pre.length, ¬ pat <+: (pre ++ pat ++ post).drop i

instance (pat pre post : List α) : Decidable (FirstAt pat pre post) :=
  inferInstanceAs (Decidable (∀ i < pre.length, ¬ pat <+: (pre ++ pat ++ post).drop i))

omit [DecidableEq α] in
theorem FirstAt.tail {pat pre post : List α} {x : α} (h : FirstAt pat (x :: pre) post) :
    FirstAt pat pre post :=
  fun i hi => h (i + 1) (Nat.succ_lt_succ hi)

theorem find_of_firstAt {pat pre post : List α} (h : FirstAt pat pre post) :
    find pat (pre ++ pat ++ post) = some pre.length := by
  induction pre with
  | nil =>
      have hpat : pat <+: pat ++ post := List.prefix_append pat post
      rw [List.nil_append, List.length_nil]
      cases hcat : pat ++ post with
      | nil => rw [find, if_pos (List.append_eq_nil_iff.mp hcat).1]
      | cons x xs => rw [find, if_pos (hcat ▸ hpat)]
  | cons x pre ih =>
      have hhead : ¬ pat <+: x :: (pre ++ pat ++ post) := h 0 (Nat.succ_pos _)
      rw [List.cons_append, List.cons_append, find, if_neg hhead, ih h.tail, Option.map_some,
        List.length_cons]

/-- What is found stands no later than any occurrence. -/
theorem find_le_of_prefix {pat s : List α} {i : Nat} (h : pat <+: s.drop i) :
    ∃ p ≤ i, find pat s = some p := by
  induction s generalizing i with
  | nil =>
      rw [List.drop_nil] at h
      exact ⟨0, Nat.zero_le i, by rw [find, if_pos (List.prefix_nil.mp h)]⟩
  | cons x s ih =>
      by_cases hhere : pat <+: x :: s
      · exact ⟨0, Nat.zero_le i, by rw [find, if_pos hhere]⟩
      · cases i with
        | zero => exact absurd h hhere
        | succ i =>
            obtain ⟨p, hp, hfind⟩ := ih h
            exact ⟨p + 1, Nat.succ_le_succ hp, by rw [find, if_neg hhere, hfind, Option.map_some]⟩

omit [DecidableEq α] in
/-- A delimiter cannot start in a text without its first letter. -/
theorem firstAt_of_notMem {x : α} {pat pre : List α} (h : x ∉ pre) (post : List α) :
    FirstAt (x :: pat) pre post := by
  intro i hi hstart
  have hdrop : (pre ++ (x :: pat) ++ post).drop i =
      pre[i] :: ((pre ++ (x :: pat) ++ post).drop (i + 1)) := by
    rw [List.drop_eq_getElem_cons (by simp; omega), List.getElem_append_left (by simp; omega),
      List.getElem_append_left hi]
  rw [hdrop, List.cons_prefix_cons] at hstart
  rw [hstart.1] at h
  exact h (List.getElem_mem hi)

/-- The text between the first opening delimiter and the first closing one after it,
nothing when one of them is missing. -/
def findSubstr (data start stop : List α) : List α :=
  match find start data with
  | none => []
  | some first =>
      let subStr := data.drop (first + start.length)
      match find stop subStr with
      | none => []
      | some last => subStr.take last

theorem findSubstr_of_firstAt {pre start body stop post : List α}
    (hstart : FirstAt start pre (body ++ stop ++ post)) (hstop : FirstAt stop body post) :
    findSubstr (pre ++ start ++ (body ++ stop ++ post)) start stop = body := by
  have hdrop : (pre ++ start ++ (body ++ stop ++ post)).drop (pre.length + start.length) =
      body ++ stop ++ post := by
    rw [← List.length_append, List.drop_left]
  simp only [findSubstr, find_of_firstAt hstart, hdrop, find_of_firstAt hstop]
  rw [List.append_assoc, List.take_left]

end PlayerInterface.Core
