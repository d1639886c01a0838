import Mathlib.Logic.Relation

/-!
# Texts joined without separators

A list of fields written one after the other can be read back in more than one way:
it is known up to characters that cross the boundary between neighbouring fields.
-/

namespace PlayerInterface.Core

variable {α : Type}

/-- One character goes over the boundary between two neighbouring fields. -/
inductive Crosses : List (List α) → List (List α) → Prop
  | toNext (u v : List α) (c : α) (rest : List (List α)) :
      Crosses ((u ++ [c]) :: v :: rest) (u :: (c :: v) :: rest)
  | toPrevious (u v : List α) (c : α) (rest : List (List α)) :
      Crosses (u :: (c :: v) :: rest) ((u ++ [c]) :: v :: rest)
  | later (u : List α) {xs ys : List (List α)} : Crosses xs ys → Crosses (u :: xs) (u :: ys)

/-- The second list of fields comes from the first by characters crossing boundaries. -/
abbrev Regroups : List (List α) → List (List α) → Prop := Relation.ReflTransGen Crosses

theorem Crosses.symm {xs ys : List (List α)} (h : Crosses xs ys) : Crosses ys xs := by
  induction h with
  | toNext u v c rest => exact .toPrevious u v c rest
  | toPrevious u v c rest => exact .toNext u v c rest
  | later u _ ih => exact .later u ih

theorem Crosses.flatten {xs ys : List (List α)} (h : Crosses xs ys) : xs.flatten = ys.flatten := by
  induction h with
  | toNext u v c rest => simp
  | toPrevious u v c rest => simp
  | later u _ ih => rw [List.flatten_cons, List.flatten_cons, ih]

theorem Regroups.symm {xs ys : List (List α)} (h : Regroups xs ys) : Regroups ys xs := by
  induction h with
  | refl => exact .refl
  | tail _ hstep ih => exact ih.head hstep.symm

theorem Regroups.flatten {xs ys : List (List α)} (h : Regroups xs ys) :
    xs.flatten = ys.flatten := by
  induction h with
  | refl => rfl
  | tail _ hstep ih => exact ih.trans hstep.flatten

theorem Regroups.later (u : List α) {xs ys : List (List α)} (h : Regroups xs ys) :
    Regroups (u :: xs) (u :: ys) := by
  induction h with
  | refl => exact .refl
  | tail _ hstep ih => exact ih.tail (.later u hstep)

/-- A field can be emptied into the one before it. -/
theorem regroups_emptied (u v : List α) (rest : List (List α)) :
    Regroups (u :: v :: rest) ((u ++ v) :: [] :: rest) := by
  induction v generalizing u with
  | nil => rw [List.append_nil]
  | cons c v ih =>
      have hfirst : Regroups (u :: (c :: v) :: rest) ((u ++ [c]) :: v :: rest) :=
        .single (.toPrevious u v c rest)
      have hothers := ih (u ++ [c])
      rw [List.append_assoc, List.singleton_append] at hothers
      exact hfirst.trans hothers

/-- All characters can be brought into the first field. -/
theorem regroups_gathered (u : List α) (xs : List (List α)) :
    Regroups (u :: xs) ((u ++ xs.flatten) :: List.replicate xs.length []) := by
  induction xs generalizing u with
  | nil =>
      rw [List.flatten_nil, List.append_nil]
      exact .refl
  | cons v xs ih =>
      have hbehind : Regroups (u :: v :: xs)
          (u :: (v ++ xs.flatten) :: List.replicate xs.length []) := (ih v).later u
      have hfront := regroups_emptied u (v ++ xs.flatten) (List.replicate xs.length [])
      rw [List.flatten_cons, List.length_cons, List.replicate_succ]
      exact hbehind.trans hfront

/-- The joined text determines as many fields exactly up to regrouping. -/
theorem regroups_iff_flatten {xs ys : List (List α)} (hlen : xs.length = ys.length) :
    Regroups xs ys ↔ xs.flatten = ys.flatten := by
  refine ⟨Regroups.flatten, fun hflat => ?_⟩
  cases xs with
  | nil =>
      cases ys with
      | nil => exact .refl
      | cons v ys => cases hlen
  | cons u xs =>
      cases ys with
      | nil => cases hlen
      | cons v ys =>
          have hx := regroups_gathered u xs
          have hy := regroups_gathered v ys
          rw [← List.flatten_cons, ← hflat, List.flatten_cons,
            ← Nat.succ.inj hlen] at hy
          exact hx.trans hy.symm

end PlayerInterface.Core
