import Mathlib.Data.List.Induction
import Mathlib.Tactic.Common

/-!
# Registries in order of weight

Entries come in one at a time and the registry is sorted by weight each time. A search takes the
first match. How the sort places entries of one weight is left open, and so is the order they
come in: neither matters exactly when the lightest match is the only one of its weight.
-/

namespace PlayerInterface.Core

section

variable {α : Type} (weight : α → Nat)

def Weighed (xs : List α) : Prop := xs.Pairwise fun a b => weight a ≤ weight b

/-- The registry behind the entries in the order they came in. -/
inductive Registered : List α → List α → Prop where
  | nil : Registered [] []
  | register {order xs ys : List α} {x : α} : Registered order xs → ys.Perm (xs ++ [x]) →
      Weighed weight ys → Registered (order ++ [x]) ys

variable {weight}

theorem Registered.perm {order xs : List α} (h : Registered weight order xs) : xs.Perm order := by
  induction h with
  | nil => exact .nil
  | register _ hperm _ ih => exact hperm.trans (ih.append_right _)

theorem Registered.weighed {order xs : List α} (h : Registered weight order xs) :
    Weighed weight xs := by
  cases h with
  | nil => exact .nil
  | register _ _ hweighed => exact hweighed

theorem exists_weighed (weight : α → Nat) (xs : List α) :
    ∃ ys : List α, ys.Perm xs ∧ Weighed weight ys := by
  let le : α → α → Bool := fun a b => decide (weight a ≤ weight b)
  refine ⟨xs.mergeSort le, List.mergeSort_perm xs le, ?_⟩
  have hsorted : (xs.mergeSort le).Pairwise fun a b => le a b = true := by
    apply List.pairwise_mergeSort
    · intro a b c hab hbc
      simp only [le, decide_eq_true_eq] at hab hbc ⊢
      exact Nat.le_trans hab hbc
    · intro a b
      simp only [le, Bool.or_eq_true, decide_eq_true_eq]
      exact Nat.le_total _ _
  exact hsorted.imp fun h => of_decide_eq_true h

/-- Every sorted arrangement of the entries is a registry for any order they come in. -/
theorem registered_of_weighed {order xs : List α} (hperm : xs.Perm order)
    (h : Weighed weight xs) : Registered weight order xs := by
  induction order using List.reverseRecOn generalizing xs with
  | nil =>
      rw [hperm.eq_nil]
      exact .nil
  | append_singleton before x ih =>
      obtain ⟨ys, hys, hsorted⟩ := exists_weighed weight before
      exact .register (ih hys hsorted) (hperm.trans (hys.symm.append_right _)) h

/-! ## The first match -/

/-- Two matches of the least weight among the matches. -/
def Tied (weight : α → Nat) (p : α → Bool) (xs : List α) : Prop :=
  ∃ x ∈ xs, ∃ y ∈ xs, x ≠ y ∧ p x = true ∧ p y = true ∧ weight x = weight y ∧
    ∀ z ∈ xs, p z = true → weight x ≤ weight z

theorem find?_lightest {p : α → Bool} {xs : List α} {x : α} (h : Weighed weight xs)
    (hx : xs.find? p = some x) : ∀ z ∈ xs, p z = true → weight x ≤ weight z := by
  intro z hz hp
  obtain ⟨-, before, after, hsplit, hskipped⟩ := List.find?_eq_some_iff_append.mp hx
  rw [hsplit] at hz h
  rcases List.mem_append.mp hz with hbefore | hhere
  · have hskip := hskipped z hbefore
    rw [hp] at hskip
    cases hskip
  · rcases List.mem_cons.mp hhere with hself | hafter
    · exact Nat.le_of_eq (congrArg weight hself.symm)
    · have hrest := (List.pairwise_append.mp h).2.1
      exact (List.pairwise_cons.mp hrest).1 z hafter

theorem find?_eq_of_not_tied {p : α → Bool} {xs ys zs : List α} (h : ¬ Tied weight p xs)
    (hys : ys.Perm xs) (hzs : zs.Perm xs) (hysorted : Weighed weight ys)
    (hzsorted : Weighed weight zs) : ys.find? p = zs.find? p := by
  cases hy : ys.find? p with
  | none =>
      symm
      apply List.find?_eq_none.mpr
      intro z hz
      exact List.find?_eq_none.mp hy z (hys.mem_iff.mpr (hzs.mem_iff.mp hz))
  | some y =>
      have hymem := hys.mem_iff.mp (List.mem_of_find?_eq_some hy)
      have hpy := List.find?_some hy
      cases hz : zs.find? p with
      | none =>
          have hnone := List.find?_eq_none.mp hz y (hzs.mem_iff.mpr hymem)
          exact absurd hpy hnone
      | some z =>
          have hzmem := hzs.mem_iff.mp (List.mem_of_find?_eq_some hz)
          have hpz := List.find?_some hz
          have hle := find?_lightest hysorted hy z (hys.mem_iff.mpr hzmem) hpz
          have hge := find?_lightest hzsorted hz y (hzs.mem_iff.mpr hymem) hpy
          by_contra hne
          refine h ⟨y, hymem, z, hzmem, fun heq => hne (congrArg some heq), hpy, hpz,
            Nat.le_antisymm hle hge, fun w hw hpw => ?_⟩
          exact find?_lightest hysorted hy w (hys.mem_iff.mpr hw) hpw

/-- A lightest match comes first in some arrangement. -/
theorem exists_find?_eq {p : α → Bool} {xs : List α} {x : α} (hx : x ∈ xs) (hp : p x = true)
    (hleast : ∀ z ∈ xs, p z = true → weight x ≤ weight z) :
    ∃ ys : List α, ys.Perm xs ∧ Weighed weight ys ∧ ys.find? p = some x := by
  classical
  -- sorted by a finer weight, which puts `x` before the others of its weight
  let finer : α → Nat := fun a => 2 * weight a + if a = x then 0 else 1
  obtain ⟨ys, hys, hsorted⟩ := exists_weighed finer xs
  have hfiner : ∀ a b, finer a ≤ finer b → weight a ≤ weight b := by
    intro a b hab
    simp only [finer] at hab
    split at hab <;> split at hab <;> omega
  refine ⟨ys, hys, List.Pairwise.imp (fun hab => hfiner _ _ hab) hsorted, ?_⟩
  cases hfind : ys.find? p with
  | none => exact absurd hp (List.find?_eq_none.mp hfind x (hys.mem_iff.mpr hx))
  | some y =>
      have hymem := hys.mem_iff.mp (List.mem_of_find?_eq_some hfind)
      have hle := find?_lightest hsorted hfind x (hys.mem_iff.mpr hx) hp
      have hge := hleast y hymem (List.find?_some hfind)
      by_contra hne
      have hother : y ≠ x := fun heq => hne (congrArg some heq)
      simp only [finer, if_neg hother, if_true] at hle
      omega

/-- The search does not depend on the order of registration and on the sort exactly when no other
match is as light as the lightest. -/
theorem find?_registered_iff {p : α → Bool} {entries : List α} :
    (∀ order order' xs ys, order.Perm entries → order'.Perm entries →
        Registered weight order xs → Registered weight order' ys → xs.find? p = ys.find? p) ↔
      ¬ Tied weight p entries := by
  constructor
  · rintro h ⟨x, hx, y, hy, hne, hpx, hpy, hweight, hleast⟩
    obtain ⟨xs, hxs, hxsorted, hxfirst⟩ := exists_find?_eq hx hpx hleast
    obtain ⟨ys, hys, hysorted, hyfirst⟩ := exists_find?_eq hy hpy fun z hz hpz =>
      hweight ▸ hleast z hz hpz
    have hsame := h entries entries xs ys (.refl _) (.refl _)
      (registered_of_weighed hxs hxsorted) (registered_of_weighed hys hysorted)
    rw [hxfirst, hyfirst] at hsame
    exact hne (Option.some.inj hsame)
  · intro h order order' xs ys horder horder' hxs hys
    exact find?_eq_of_not_tied h (hxs.perm.trans horder) (hys.perm.trans horder') hxs.weighed
      hys.weighed

end

end PlayerInterface.Core
