import Mathlib.Data.List.Nodup
import Mathlib.Tactic.Common

/-!
# Lists with distinct keys

Taking a segment out of such a list is filtering by the keys of the segment.
-/

namespace PlayerInterface.Core

variable {α κ : Type} [DecidableEq κ] {key : α → κ}

/-- The elements whose key is not among the given ones. -/
def without (key : α → κ) (gone : List κ) (xs : List α) : List α :=
  xs.filter fun x => !gone.contains (key x)

theorem mem_without {gone : List κ} {xs : List α} {x : α} :
    x ∈ without key gone xs ↔ x ∈ xs ∧ key x ∉ gone := by
  simp [without]

theorem without_append_gone (gone more : List κ) (xs : List α) :
    without key (gone ++ more) xs = without key more (without key gone xs) := by
  unfold without
  rw [List.filter_filter]
  apply List.filter_congr
  intro x _
  simp [Bool.and_comm]

theorem without_append (gone : List κ) (xs ys : List α) :
    without key gone (xs ++ ys) = without key gone xs ++ without key gone ys :=
  List.filter_append xs ys

/-- Elements none of whose keys is gone all stay. -/
theorem without_eq_self {gone : List κ} {xs : List α} (h : ∀ x ∈ xs, key x ∉ gone) :
    without key gone xs = xs := by
  apply List.filter_eq_self.mpr
  intro x hx
  simpa using h x hx

theorem without_self (xs : List α) : without key (xs.map key) xs = [] := by
  apply List.filter_eq_nil_iff.mpr
  intro x hx
  simpa using ⟨x, hx, rfl⟩

/-- A segment is taken out by its keys. -/
theorem without_segment {before segment after : List α}
    (h : ((before ++ (segment ++ after)).map key).Nodup) :
    without key (segment.map key) (before ++ (segment ++ after)) = before ++ after := by
  rw [List.map_append, List.map_append] at h
  have hbefore := List.nodup_append.mp h
  have hafter := List.nodup_append.mp hbefore.2.1
  have hb : ∀ x ∈ before, key x ∉ segment.map key := by
    intro x hx hmem
    exact hbefore.2.2 (key x) (List.mem_map_of_mem hx) (key x) (List.mem_append_left _ hmem) rfl
  have ha : ∀ x ∈ after, key x ∉ segment.map key := by
    intro x hx hmem
    exact hafter.2.2 (key x) hmem (key x) (List.mem_map_of_mem hx) rfl
  rw [without_append, without_append, without_self, without_eq_self hb, without_eq_self ha,
    List.nil_append]

/-- A list around one of its positions. -/
theorem split_at_getElem {l : List α} {i : Nat} {a : α} (h : l[i]? = some a) :
    ∃ pre post, l = pre ++ a :: post ∧ l.eraseIdx i = pre ++ post ∧
      ∀ b, l.set i b = pre ++ b :: post := by
  induction l generalizing i with
  | nil => cases h
  | cons x l ih =>
      cases i with
      | zero =>
          cases h
          exact ⟨[], l, rfl, rfl, fun _ => rfl⟩
      | succ i =>
          rcases ih (by simpa using h) with ⟨pre, post, hl, herase, hset⟩
          exact ⟨x :: pre, post, congrArg (x :: ·) hl, congrArg (x :: ·) herase,
            fun b => congrArg (x :: ·) (hset b)⟩

end PlayerInterface.Core
