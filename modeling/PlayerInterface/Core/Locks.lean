import Mathlib.Logic.Relation
import Mathlib.Tactic.Common

/-!
# Locks, their holders and the threads that wait for them

A thread waits for another one when it wants a lock that the other one holds; a
deadlock is a cycle of such threads.
-/

namespace PlayerInterface.Core

/-- Who holds each lock, and which lock each thread is about to take. -/
structure Locks (ρ ℓ : Type) where
  holder : ℓ → Option ρ
  wants : ρ → Option ℓ

namespace Locks

variable {ρ ℓ : Type} {k : Locks ρ ℓ}

def Waits (k : Locks ρ ℓ) (p q : ρ) : Prop :=
  ∃ l, k.wants p = some l ∧ k.holder l = some q

def Deadlock (k : Locks ρ ℓ) : Prop := ∃ p, Relation.TransGen k.Waits p p

/-- The next thread on a cycle is on the cycle too. -/
theorem cycle_next {p : ρ} (h : Relation.TransGen k.Waits p p) :
    ∃ q, k.Waits p q ∧ Relation.TransGen k.Waits q q := by
  rcases Relation.TransGen.head'_iff.mp h with ⟨q, hpq, hqp⟩
  exact ⟨q, hpq, .tail' hqp hpq⟩

/-- A thread on a cycle holds a lock while it wants another one. -/
theorem cycle_blocked {p : ρ} (h : Relation.TransGen k.Waits p p) :
    ∃ l m, k.holder l = some p ∧ k.wants p = some m := by
  rcases cycle_next h with ⟨_, ⟨m, hm, _⟩, _⟩
  rcases Relation.TransGen.tail'_iff.mp h with ⟨_, _, l, _, hl⟩
  exact ⟨l, m, hl, hm⟩

theorem deadlock_of_pair {p q : ρ} (hpq : k.Waits p q) (hqp : k.Waits q p) : k.Deadlock :=
  ⟨p, .tail (.single hpq) hqp⟩

/-- When every thread that holds one lock and wants another has `l₀` for exactly
one of the two, all deadlocks are two threads that cross at `l₀`. -/
theorem deadlock_iff_crossing (l₀ : ℓ)
    (hcross : ∀ p l m, k.holder l = some p → k.wants p = some m → (l = l₀ ↔ m ≠ l₀)) :
    k.Deadlock ↔ ∃ p q l, k.wants p = some l₀ ∧ k.holder l₀ = some q ∧
      k.wants q = some l ∧ k.holder l = some p := by
  constructor
  · rintro ⟨p, hp⟩
    -- some thread of the cycle wants `l₀`: this one or the next
    have hstart : ∃ p, Relation.TransGen k.Waits p p ∧ k.wants p = some l₀ := by
      rcases cycle_next hp with ⟨q, ⟨m, hm, hmq⟩, hq⟩
      by_cases hml : m = l₀
      · exact ⟨p, hp, hml ▸ hm⟩
      · rcases cycle_blocked hq with ⟨_, n, _, hn⟩
        have hnl : n = l₀ := by
          by_contra hne
          exact hml ((hcross q m n hmq hn).mpr hne)
        exact ⟨q, hq, hnl ▸ hn⟩
    rcases hstart with ⟨p, hp, hwant⟩
    rcases cycle_next hp with ⟨q, ⟨m, hm, hmq⟩, hq⟩
    have hml : m = l₀ := Option.some.inj (hm.symm.trans hwant)
    subst hml
    rcases cycle_next hq with ⟨r, ⟨n, hn, hnr⟩, hr⟩
    have hnm : n ≠ m := (hcross q m n hmq hn).mp rfl
    rcases cycle_blocked hr with ⟨_, o, _, ho⟩
    have hom : o = m := by
      by_contra hne
      exact hnm ((hcross r n o hnr ho).mpr hne)
    exact ⟨r, q, n, hom ▸ ho, hmq, hn, hnr⟩
  · rintro ⟨p, q, l, hp, hq, hwant, hheld⟩
    exact deadlock_of_pair ⟨l₀, hp, hq⟩ ⟨l, hwant, hheld⟩

/-- When only two threads ever hold one lock and want another, all deadlocks are these
two, each waiting for the other one. -/
theorem deadlock_iff_pair {p q : ρ} (hself : ∀ r, ¬ k.Waits r r)
    (hblocked : ∀ r l m, k.holder l = some r → k.wants r = some m → r = p ∨ r = q) :
    k.Deadlock ↔ k.Waits p q ∧ k.Waits q p := by
  constructor
  · rintro ⟨r, hr⟩
    have honly : ∀ {r}, Relation.TransGen k.Waits r r → r = p ∨ r = q := fun hr => by
      rcases cycle_blocked hr with ⟨l, m, hl, hm⟩
      exact hblocked _ l m hl hm
    have hnext : ∀ {r}, Relation.TransGen k.Waits r r → ∃ r', k.Waits r r' ∧
        Relation.TransGen k.Waits r' r' ∧ (r = p ∧ r' = q ∨ r = q ∧ r' = p) := by
      intro r hr
      rcases cycle_next hr with ⟨r', hwaits, hr'⟩
      refine ⟨r', hwaits, hr', ?_⟩
      rcases honly hr with rfl | rfl <;> rcases honly hr' with rfl | rfl
      · exact absurd hwaits (hself _)
      · exact Or.inl ⟨rfl, rfl⟩
      · exact Or.inr ⟨rfl, rfl⟩
      · exact absurd hwaits (hself _)
    rcases hnext hr with ⟨r', hfirst, hr', ⟨rfl, rfl⟩ | ⟨rfl, rfl⟩⟩
    · rcases hnext hr' with ⟨r'', hsecond, -, ⟨rfl, rfl⟩ | ⟨-, rfl⟩⟩
      · exact ⟨hfirst, hfirst⟩
      · exact ⟨hfirst, hsecond⟩
    · rcases hnext hr' with ⟨r'', hsecond, -, ⟨-, rfl⟩ | ⟨rfl, rfl⟩⟩
      · exact ⟨hsecond, hfirst⟩
      · exact ⟨hfirst, hfirst⟩
  · exact fun ⟨hpq, hqp⟩ => deadlock_of_pair hpq hqp

end Locks

/-- The recorded holders are the threads that stand behind the lock. -/
def HoldersAgree {ρ ℓ : Type} (holder : ℓ → Option ρ) (holds : ρ → ℓ → Prop) : Prop :=
  ∀ p l, holder l = some p ↔ holds p l

variable {ρ ℓ : Type} {holder holder' : ℓ → Option ρ} {holds holds' : ρ → ℓ → Prop}

namespace HoldersAgree

theorem keep (h : HoldersAgree holder holds) (hholder : holder' = holder)
    (hholds : ∀ p l, holds' p l ↔ holds p l) : HoldersAgree holder' holds' := by
  intro p l
  rw [hholder, hholds]
  exact h p l

/-- A thread takes a free lock. -/
theorem acquire [DecidableEq ℓ] (h : HoldersAgree holder holds) {p : ρ} {l : ℓ}
    (hfree : holder l = none) (hholder : holder' = Function.update holder l (some p))
    (hholds : ∀ q m, holds' q m ↔ holds q m ∨ q = p ∧ m = l) : HoldersAgree holder' holds' := by
  intro q m
  rw [hholder, hholds]
  by_cases hm : m = l
  · subst hm
    have hno : ¬ holds q m := fun hq => by
      rw [(h q m).mpr hq] at hfree
      cases hfree
    simp [hno, eq_comm]
  · rw [Function.update_of_ne hm]
    simp [hm, h q m]

/-- The thread that holds a lock gives it up. -/
theorem release [DecidableEq ℓ] (h : HoldersAgree holder holds) {p : ρ} {l : ℓ}
    (hheld : holds p l) (hholder : holder' = Function.update holder l none)
    (hholds : ∀ q m, holds' q m ↔ holds q m ∧ ¬ (q = p ∧ m = l)) :
    HoldersAgree holder' holds' := by
  intro q m
  rw [hholder, hholds]
  by_cases hm : m = l
  · subst hm
    have honly : holds q m → q = p := fun hq =>
      Option.some.inj (((h q m).mpr hq).symm.trans ((h p m).mpr hheld))
    simp only [Function.update_self, reduceCtorEq, and_true, false_iff, not_and, not_not]
    exact honly
  · rw [Function.update_of_ne hm]
    simp [hm, h q m]

end HoldersAgree

/-- Whoever is inside holds the mutex. -/
def Exclusive {ρ : Type} (holder : Option ρ) (inside : ρ → Prop) : Prop :=
  ∀ p, inside p → holder = some p

namespace Exclusive

variable {ρ : Type} {holder holder' : Option ρ} {inside inside' : ρ → Prop} {p : ρ}

theorem free (h : Exclusive holder inside) (hfree : holder = none) (p : ρ) : ¬ inside p := by
  intro hp
  have hheld := h p hp
  rw [hfree] at hheld
  cases hheld

theorem others (h : Exclusive holder inside) (hp : inside p) {q : ρ} (hq : q ≠ p) :
    ¬ inside q := by
  intro hin
  have hheld := h q hin
  rw [h p hp] at hheld
  exact hq (Option.some.inj hheld).symm

/-- A thread that finds the mutex free, or is inside, is alone. -/
theorem alone (h : Exclusive holder inside) (hp : holder = none ∨ inside p) {q : ρ} (hq : q ≠ p) :
    ¬ inside q := by
  cases hp with
  | inl hfree => exact h.free hfree q
  | inr hin => exact h.others hin hq

/-- The mutex while at most one thread is inside. -/
theorem of_alone (halone : ∀ q, q ≠ p → ¬ inside' q) (hp : inside' p → holder' = some p) :
    Exclusive holder' inside' := by
  intro q hq
  by_cases hqp : q = p
  · subst hqp
    exact hp hq
  · exact absurd hq (halone q hqp)

end Exclusive

/-- Thread `p` moves to a place where it holds `held`, the others stay. -/
def Moves [DecidableEq ρ] (before after : ρ → ℓ → Bool) (p : ρ) (held : ℓ → Bool) : Prop :=
  ∀ q l, after q l = if q = p then held l else before q l

namespace HoldersAgree

variable [DecidableEq ρ] {before after : ρ → ℓ → Bool} {p : ρ} {held : ℓ → Bool}

theorem moveKeep (h : HoldersAgree holder fun p l => before p l = true)
    (hmove : Moves before after p held) (hholder : holder' = holder)
    (hheld : ∀ l, held l = before p l) : HoldersAgree holder' fun p l => after p l = true := by
  apply keep h hholder
  intro q l
  rw [hmove q l]
  by_cases hq : q = p
  · rw [if_pos hq, hheld l, hq]
  · rw [if_neg hq]

theorem moveLock [DecidableEq ℓ] (h : HoldersAgree holder fun p l => before p l = true) {l : ℓ}
    (hfree : holder l = none) (hmove : Moves before after p held)
    (hholder : holder' = Function.update holder l (some p))
    (hheld : ∀ m, held m = (before p m || decide (m = l))) :
    HoldersAgree holder' fun p l => after p l = true := by
  apply acquire h hfree hholder
  intro q m
  rw [hmove q m]
  by_cases hq : q = p
  · simp [hq, hheld m]
  · rw [if_neg hq]
    simp only [hq, false_and, or_false]

theorem moveUnlock [DecidableEq ℓ] (h : HoldersAgree holder fun p l => before p l = true) {l : ℓ}
    (hl : before p l = true) (hmove : Moves before after p held)
    (hholder : holder' = Function.update holder l none)
    (hheld : ∀ m, held m = (before p m && !decide (m = l))) :
    HoldersAgree holder' fun p l => after p l = true := by
  apply release h hl hholder
  intro q m
  rw [hmove q m]
  by_cases hq : q = p
  · simp [hq, hheld m]
  · rw [if_neg hq]
    simp only [hq, false_and, not_false_eq_true, and_true]

end HoldersAgree

/-- A thread gives up every lock it does not keep. -/
def giveUp [DecidableEq ρ] [DecidableEq ℓ] (holder : ℓ → Option ρ) (p : ρ) (kept : List ℓ) :
    ℓ → Option ρ := fun l => if holder l = some p ∧ l ∉ kept then none else holder l

theorem HoldersAgree.giveUp [DecidableEq ρ] [DecidableEq ℓ] (h : HoldersAgree holder holds)
    {p : ρ} {kept : List ℓ} (hsub : ∀ l ∈ kept, holds p l) (hkept : ∀ l, holds' p l ↔ l ∈ kept)
    (hothers : ∀ q, q ≠ p → ∀ l, holds' q l ↔ holds q l) :
    HoldersAgree (giveUp holder p kept) holds' := by
  intro q l
  rw [Core.giveUp]
  by_cases hq : q = p
  · rw [hq, hkept]
    by_cases hl : l ∈ kept
    · rw [if_neg fun hnot => hnot.2 hl]
      exact iff_of_true ((h p l).mpr (hsub l hl)) hl
    · refine iff_of_false (fun hholder => ?_) hl
      split at hholder
      · cases hholder
      · rename_i hnot
        exact hnot ⟨hholder, hl⟩
  · rw [hothers q hq, ← h q l]
    split
    · rename_i hgiven
      rw [hgiven.1]
      exact iff_of_false (fun hnone => by cases hnone) fun heq =>
        hq (Option.some.inj heq).symm
    · rfl

end PlayerInterface.Core
