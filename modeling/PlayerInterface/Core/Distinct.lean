import Mathlib.Data.List.Induction

/-!
# First occurrences

Entries are kept in order unless one that is like them has been kept already. Likeness may be any
relation.
-/

namespace PlayerInterface.Core

variable {α β γ : Type}

def appendNew (like : α → α → Bool) (kept : List α) (a : α) : List α :=
  if kept.any (like · a) then kept else kept ++ [a]

def firstOnes (like : α → α → Bool) (l : List α) : List α := l.foldl (appendNew like) []

variable {like like' : α → α → Bool} {l : List α} {a : α}

theorem firstOnes_concat (like : α → α → Bool) (l : List α) (a : α) :
    firstOnes like (l ++ [a]) = appendNew like (firstOnes like l) a := by
  rw [firstOnes, List.foldl_append, List.foldl_cons, List.foldl_nil, firstOnes]

theorem mem_of_mem_firstOnes (h : a ∈ firstOnes like l) : a ∈ l := by
  induction l using List.reverseRecOn with
  | nil => exact h
  | append_singleton l b ih =>
      rw [firstOnes_concat, appendNew] at h
      rw [List.mem_append]
      split at h
      · exact .inl (ih h)
      · exact (List.mem_append.mp h).imp_left ih

theorem firstOnes_pairwise (like : α → α → Bool) (l : List α) :
    (firstOnes like l).Pairwise fun a b => like a b = false := by
  induction l using List.reverseRecOn with
  | nil => exact .nil
  | append_singleton l c ih =>
      rw [firstOnes_concat, appendNew]
      split
      · exact ih
      · rename_i hany
        have hnone := List.any_eq_false.mp (Bool.eq_false_iff.mpr hany)
        rw [List.pairwise_append]
        refine ⟨ih, List.pairwise_singleton _ _, fun b hb d hd => ?_⟩
        rw [List.mem_singleton.mp hd]
        exact Bool.eq_false_iff.mpr (hnone b hb)

/-- Nothing is dropped of a list without repetitions. -/
theorem firstOnes_of_pairwise (h : l.Pairwise fun a b => like a b = false) :
    firstOnes like l = l := by
  induction l using List.reverseRecOn with
  | nil => rfl
  | append_singleton l c ih =>
      obtain ⟨hl, -, hlast⟩ := List.pairwise_append.mp h
      have hany : (l.any (like · c)) = false :=
        List.any_eq_false.mpr fun b hb => by rw [hlast b hb c List.mem_cons_self]; decide
      rw [firstOnes_concat, ih hl, appendNew, hany, if_neg Bool.false_ne_true]

theorem firstOnes_congr (h : ∀ a ∈ l, ∀ b ∈ l, like a b = like' a b) :
    firstOnes like l = firstOnes like' l := by
  induction l using List.reverseRecOn with
  | nil => rfl
  | append_singleton l c ih =>
      have hfront : firstOnes like l = firstOnes like' l :=
        ih fun a ha b hb => h a (List.mem_append_left _ ha) b (List.mem_append_left _ hb)
      have hany : (firstOnes like' l).any (like · c) = (firstOnes like' l).any (like' · c) := by
        have hlast : ∀ a ∈ firstOnes like' l, like a c = like' a c := fun a ha =>
          h a (List.mem_append_left _ (mem_of_mem_firstOnes ha)) c
            (List.mem_append_right _ List.mem_cons_self)
        rw [Bool.eq_iff_iff, List.any_eq_true, List.any_eq_true]
        exact exists_congr fun a => and_congr_right fun ha => by rw [hlast a ha]
      rw [firstOnes_concat, firstOnes_concat, hfront, appendNew, appendNew, hany]

theorem firstOnes_map (like : β → β → Bool) (f : α → β) (l : List α) :
    firstOnes like (l.map f) = (firstOnes (fun a b => like (f a) (f b)) l).map f := by
  induction l using List.reverseRecOn with
  | nil => rfl
  | append_singleton l c ih =>
      rw [List.map_append, List.map_singleton, firstOnes_concat, firstOnes_concat, ih, appendNew,
        appendNew, List.any_map, Function.comp_def]
      by_cases hany : (firstOnes (fun a b => like (f a) (f b)) l).any fun a => like (f a) (f c)
      · rw [if_pos hany, if_pos hany]
      · rw [if_neg hany, if_neg hany, List.map_append, List.map_singleton]

/-- Behind a map that tells the same entries apart as the map before it, nothing more is
dropped, and what was dropped before would have been dropped now. -/
theorem firstOnes_map_firstOnes {first : β → β → Bool} {second : γ → γ → Bool} {g : α → β}
    {f : β → γ} (h : ∀ a ∈ l, ∀ b ∈ l, first (g a) (g b) = second (f (g a)) (f (g b))) :
    firstOnes second ((firstOnes first (l.map g)).map f) =
      firstOnes second (l.map fun a => f (g a)) := by
  have hsame := firstOnes_congr h
  have hkept : firstOnes (fun a b => second (f (g a)) (f (g b)))
      (firstOnes (fun a b => second (f (g a)) (f (g b))) l) =
        firstOnes (fun a b => second (f (g a)) (f (g b))) l :=
    firstOnes_of_pairwise (firstOnes_pairwise _ l)
  calc firstOnes second ((firstOnes first (l.map g)).map f)
      _ = firstOnes second ((firstOnes (fun a b => second (f (g a)) (f (g b))) l).map
            fun a => f (g a)) := by rw [firstOnes_map first g l, hsame, List.map_map]; rfl
      _ = firstOnes second (l.map fun a => f (g a)) := by rw [firstOnes_map, hkept, firstOnes_map]

end PlayerInterface.Core
