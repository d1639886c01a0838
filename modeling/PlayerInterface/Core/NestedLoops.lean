import Mathlib.Tactic.Common

/-!
# Nested loops over a cursor

A loop visits what it finds at its cursor until the cursor comes to a limit. A
visit may end the whole run or the loop, or it goes on at another cursor, behind
a loop of its own where there is one. The loops of a run end exactly when none
of them comes to a visit that leads back to itself.
-/

namespace PlayerInterface.Core

/-- A loop that a visit runs first; an exact one has to end at its limit. -/
structure InnerLoop (κ : Type) where
  kind : κ
  cur : Nat
  limit : Nat
  exact : Bool
deriving DecidableEq

/-- What a loop does at its cursor, in the state it is in. -/
inductive Visit (κ σ : Type) where
  | stop
  | leave (s : σ)
  | pass (s : σ) (inner : Option (InnerLoop κ)) (next : Nat)
deriving DecidableEq

abbrev Visitor (κ σ : Type) := κ → σ → Nat → Visit κ σ

inductive LoopEnd (σ : Type) where
  | stopped
  | left (s : σ) (cur : Nat)
deriving DecidableEq

namespace Visitor

variable {κ σ : Type}

/-- The loop of kind `k` from `cur` to `limit`, as far as its fuel lasts. -/
def loop (v : Visitor κ σ) : Nat → κ → σ → Nat → Nat → Option (LoopEnd σ)
  | 0, _, _, _, _ => none
  | fuel + 1, k, s, cur, limit =>
      if cur < limit then
        match v k s cur with
        | .stop => some .stopped
        | .leave s => some (.left s cur)
        | .pass s none next => loop v fuel k s next limit
        | .pass s (some i) next =>
            match loop v fuel i.kind s i.cur i.limit with
            | none => none
            | some .stopped => some .stopped
            | some (.left s end') =>
                if i.exact ∧ end' ≠ i.limit then some .stopped else loop v fuel k s next limit
      else some (.left s cur)

def Ends (v : Visitor κ σ) (k : κ) (s : σ) (cur limit : Nat) (e : LoopEnd σ) : Prop :=
  ∃ fuel, v.loop fuel k s cur limit = some e

/-- The loop from `cur` to `limit`, or a loop inside it, comes to `p` in state `s'`. -/
inductive Comes (v : Visitor κ σ) : κ → σ → Nat → Nat → κ → σ → Nat → Prop where
  | here {k s cur limit} : cur < limit → Comes v k s cur limit k s cur
  | inside {k s cur limit s₁ i next k' s' p} : cur < limit →
      v k s cur = .pass s₁ (some i) next → Comes v i.kind s₁ i.cur i.limit k' s' p →
      Comes v k s cur limit k' s' p
  | behind {k s cur limit s₁ next k' s' p} : cur < limit →
      v k s cur = .pass s₁ none next → Comes v k s₁ next limit k' s' p →
      Comes v k s cur limit k' s' p
  | after {k s cur limit s₁ i next s₂ end' k' s' p} : cur < limit →
      v k s cur = .pass s₁ (some i) next → Ends v i.kind s₁ i.cur i.limit (.left s₂ end') →
      ¬ (i.exact ∧ end' ≠ i.limit) → Comes v k s₂ next limit k' s' p →
      Comes v k s cur limit k' s' p

/-- The visit leads back to itself: no loop of its own has anything to visit. -/
def Stalls (v : Visitor κ σ) (k : κ) (s : σ) (cur : Nat) : Prop :=
  ∃ inner, v k s cur = .pass s inner cur ∧
    ∀ i ∈ inner, i.limit ≤ i.cur ∧ ¬ (i.exact ∧ i.cur ≠ i.limit)

variable {v : Visitor κ σ} {k k' : κ} {s s' : σ} {cur limit p : Nat}

/-! ## Fuel -/

theorem loop_done {fuel : Nat} (h : ¬ cur < limit) :
    v.loop (fuel + 1) k s cur limit = some (.left s cur) := by
  rw [loop, if_neg h]

theorem loop_succ {fuel : Nat} {e : LoopEnd σ} (h : v.loop fuel k s cur limit = some e) :
    v.loop (fuel + 1) k s cur limit = some e := by
  induction fuel generalizing k s cur limit e with
  | zero => cases h
  | succ fuel ih =>
      by_cases hcur : cur < limit
      · rw [loop, if_pos hcur] at h ⊢
        cases hv : v k s cur with
        | stop =>
            rw [hv] at h
            exact h
        | leave s₁ =>
            rw [hv] at h
            exact h
        | pass s₁ inner next =>
            rw [hv] at h
            cases inner with
            | none => exact ih h
            | some i =>
                dsimp only at h ⊢
                cases hi : v.loop fuel i.kind s₁ i.cur i.limit with
                | none =>
                    rw [hi] at h
                    cases h
                | some e₁ =>
                    rw [hi] at h
                    rw [ih hi]
                    cases e₁ with
                    | stopped => exact h
                    | left s₂ end' =>
                        dsimp only at h ⊢
                        split at h
                        · rename_i hexact
                          rw [if_pos hexact]
                          exact h
                        · rename_i hexact
                          rw [if_neg hexact]
                          exact ih h
      · rw [loop_done hcur] at h ⊢
        exact h

theorem loop_mono {fuel fuel' : Nat} (hle : fuel ≤ fuel') {e : LoopEnd σ}
    (h : v.loop fuel k s cur limit = some e) : v.loop fuel' k s cur limit = some e := by
  induction hle with
  | refl => exact h
  | step _ ih => exact loop_succ ih

/-- Whatever the fuel is, a loop that ends does not end otherwise. -/
theorem Ends.loop_eq {e e' : LoopEnd σ} (h : v.Ends k s cur limit e) {fuel : Nat}
    (h' : v.loop fuel k s cur limit = some e') : e' = e := by
  obtain ⟨fuel₁, h₁⟩ := h
  have hmax := loop_mono (Nat.le_max_left fuel₁ fuel) h₁
  have hmax' := loop_mono (Nat.le_max_right fuel₁ fuel) h'
  exact Option.some.inj (hmax'.symm.trans hmax)

theorem ends_done (h : ¬ cur < limit) : v.Ends k s cur limit (.left s cur) := ⟨1, loop_done h⟩

theorem ends_leave {s₁ : σ} (hcur : cur < limit) (hv : v k s cur = .leave s₁) :
    v.Ends k s cur limit (.left s₁ cur) := ⟨1, by rw [loop, if_pos hcur, hv]⟩

/-- A visit without a loop of its own only moves the cursor. -/
theorem ends_pass_iff {s₁ : σ} {next : Nat} (hcur : cur < limit)
    (hv : v k s cur = .pass s₁ none next) {e : LoopEnd σ} :
    v.Ends k s cur limit e ↔ v.Ends k s₁ next limit e := by
  constructor
  · intro ⟨fuel, h⟩
    cases fuel with
    | zero => cases h
    | succ fuel =>
        rw [loop, if_pos hcur, hv] at h
        exact ⟨fuel, h⟩
  · intro ⟨fuel, h⟩
    refine ⟨fuel + 1, ?_⟩
    rw [loop, if_pos hcur, hv]
    exact h

/-! ## Stalling -/

theorem loop_of_stalls (h : v.Stalls k s cur) (hcur : cur < limit) (fuel : Nat) :
    v.loop fuel k s cur limit = none := by
  induction fuel with
  | zero => rfl
  | succ fuel ih =>
      obtain ⟨inner, hv, hinner⟩ := h
      rw [loop, if_pos hcur, hv]
      cases inner with
      | none => exact ih
      | some i =>
          obtain ⟨hempty, hexact⟩ := hinner i rfl
          dsimp only
          cases fuel with
          | zero => rfl
          | succ fuel =>
              rw [loop_done (Nat.not_lt.mpr hempty)]
              dsimp only
              rw [if_neg hexact]
              exact ih

/-- A run that comes to a stalling visit never ends. -/
theorem Comes.loop_eq_none (h : v.Comes k s cur limit k' s' p) (hstall : v.Stalls k' s' p)
    (fuel : Nat) : v.loop fuel k s cur limit = none := by
  induction h generalizing fuel with
  | here hcur => exact loop_of_stalls hstall hcur fuel
  | inside hcur hv _ ih =>
      cases fuel with
      | zero => rfl
      | succ fuel =>
          rw [loop, if_pos hcur, hv]
          dsimp only
          rw [ih hstall]
  | behind hcur hv _ ih =>
      cases fuel with
      | zero => rfl
      | succ fuel =>
          rw [loop, if_pos hcur, hv]
          exact ih hstall fuel
  | @after k s cur limit s₁ i next s₂ end' k' s' p hcur hv hends hexact _ ih =>
      cases fuel with
      | zero => rfl
      | succ fuel =>
          rw [loop, if_pos hcur, hv]
          dsimp only
          cases hi : v.loop fuel i.kind s₁ i.cur i.limit with
          | none => rfl
          | some e =>
              obtain rfl := hends.loop_eq hi
              dsimp only
              rw [if_neg hexact]
              exact ih hstall fuel

/-! ## Ending -/

/-- Visits that do not stall move forward, and none of them goes on from `top`. -/
structure Advances (v : Visitor κ σ) (Inv : σ → Prop) (top : Nat) : Prop where
  pass_inv : ∀ {k s cur s₁ inner next}, Inv s → v k s cur = .pass s₁ inner next → Inv s₁
  leave_inv : ∀ {k s cur s₁}, Inv s → v k s cur = .leave s₁ → Inv s₁
  next_lt : ∀ {k s cur s₁ inner next}, v k s cur = .pass s₁ inner next →
    ¬ v.Stalls k s cur → cur < next
  inner_lt : ∀ {k s cur s₁ i next}, v k s cur = .pass s₁ (some i) next → cur < i.cur
  top : ∀ {k s cur s₁ inner next}, Inv s → v k s cur = .pass s₁ inner next →
    ¬ v.Stalls k s cur → cur < top

/-- Where no loop comes to a stalling visit, the run ends, in a state that keeps the invariant. -/
theorem Advances.ends {Inv : σ → Prop} {top : Nat} (hv : v.Advances Inv top) (hs : Inv s)
    (h : ∀ k' s' p, v.Comes k s cur limit k' s' p → ¬ v.Stalls k' s' p) :
    ∃ e, v.Ends k s cur limit e ∧ ∀ s' end', e = .left s' end' → Inv s' := by
  induction hn : top - cur using Nat.strongRecOn generalizing k s cur limit with
  | ind n ih =>
      by_cases hcur : cur < limit
      · have hstall := h k s cur (.here hcur)
        cases hvisit : v k s cur with
        | stop => exact ⟨.stopped, ⟨1, by rw [loop, if_pos hcur, hvisit]⟩, fun _ _ he => by cases he⟩
        | leave s₁ =>
            refine ⟨.left s₁ cur, ⟨1, by rw [loop, if_pos hcur, hvisit]⟩, fun _ _ he => ?_⟩
            cases he
            exact hv.leave_inv hs hvisit
        | pass s₁ inner next =>
            have hs₁ := hv.pass_inv hs hvisit
            have hnext := hv.next_lt hvisit hstall
            have htop := hv.top hs hvisit hstall
            cases inner with
            | none =>
                obtain ⟨e, ⟨fuel, he⟩, hinv⟩ := ih (top - next) (by omega) hs₁
                  (fun k' s' p hc => h k' s' p (.behind hcur hvisit hc)) rfl
                exact ⟨e, ⟨fuel + 1, by rw [loop, if_pos hcur, hvisit]; exact he⟩, hinv⟩
            | some i =>
                have hinner := hv.inner_lt hvisit
                obtain ⟨e, ⟨fuel, he⟩, hinv⟩ := ih (top - i.cur) (by omega) hs₁
                  (fun k' s' p hc => h k' s' p (.inside hcur hvisit hc)) rfl
                cases e with
                | stopped =>
                    refine ⟨.stopped, ⟨fuel + 1, ?_⟩, fun _ _ he => by cases he⟩
                    rw [loop, if_pos hcur, hvisit]
                    dsimp only
                    rw [he]
                | left s₂ end' =>
                    by_cases hexact : i.exact ∧ end' ≠ i.limit
                    · refine ⟨.stopped, ⟨fuel + 1, ?_⟩, fun _ _ he => by cases he⟩
                      rw [loop, if_pos hcur, hvisit]
                      dsimp only
                      rw [he]
                      exact if_pos hexact
                    · obtain ⟨e, ⟨fuel', he'⟩, hinv'⟩ := ih (top - next) (by omega)
                        (hinv s₂ end' rfl)
                        (fun k' s' p hc => h k' s' p (.after hcur hvisit ⟨fuel, he⟩ hexact hc)) rfl
                      refine ⟨e, ⟨max fuel fuel' + 1, ?_⟩, hinv'⟩
                      rw [loop, if_pos hcur, hvisit]
                      dsimp only
                      rw [loop_mono (Nat.le_max_left fuel fuel') he]
                      dsimp only
                      rw [if_neg hexact]
                      exact loop_mono (Nat.le_max_right fuel fuel') he'
      · exact ⟨.left s cur, ⟨1, loop_done hcur⟩, fun _ _ he => by cases he; exact hs⟩

/-- A run ends exactly when no loop comes to a stalling visit. -/
theorem Advances.ends_iff {Inv : σ → Prop} {top : Nat} (hv : v.Advances Inv top) (hs : Inv s) :
    (∃ e, v.Ends k s cur limit e) ↔
      ∀ k' s' p, v.Comes k s cur limit k' s' p → ¬ v.Stalls k' s' p := by
  constructor
  · rintro ⟨e, fuel, he⟩ k' s' p hcomes hstall
    rw [hcomes.loop_eq_none hstall fuel] at he
    cases he
  · intro h
    obtain ⟨e, hends, -⟩ := hv.ends hs h
    exact ⟨e, hends⟩

/-- Whatever a run visits and goes on from, it goes on behind it. -/
def StepsForward (v : Visitor κ σ) (k : κ) (s : σ) (cur limit : Nat) : Prop :=
  ∀ k' s' p, v.Comes k s cur limit k' s' p →
    ∀ s₁ inner next, v k' s' p = .pass s₁ inner next → p < next

/-- A run ends, in steps forward, exactly when no loop comes to a stalling visit. -/
theorem Advances.ends_forward_iff {Inv : σ → Prop} {top : Nat} (hv : v.Advances Inv top)
    (hs : Inv s) :
    ((∃ e, v.Ends k s cur limit e) ∧ v.StepsForward k s cur limit) ↔
      ∀ k' s' p, v.Comes k s cur limit k' s' p → ¬ v.Stalls k' s' p := by
  rw [hv.ends_iff hs]
  refine and_iff_left_of_imp fun h k' s' p hcomes s₁ inner next hvisit => ?_
  exact hv.next_lt hvisit (h k' s' p hcomes)

end Visitor
end PlayerInterface.Core
