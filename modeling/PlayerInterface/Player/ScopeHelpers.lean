import Mathlib.Data.Finset.Card
import PlayerInterface.Player.HandlerControl

/-!
# Scope helpers that are moved

A helper that is bound to the control counts for one handler; moving it hands the
binding on. A move, like every other operation of a helper, is one step: its
pointers belong to the thread of the handler, and the control is locked once in it.
-/

namespace PlayerInterface.Player

open PlayerInterface.Core

inductive HandlerPc where
  /-- has its helper, has not asked `returnStraightAway` yet -/
  | entered
  | body
  | leaving
deriving DecidableEq, Repr

/-- Helpers are known by their thread `τ` and a name `ι`, callers of `waitForDone` by `κ`. -/
structure ScopeState (τ ι κ : Type) where
  control : GstHandlerControl := {}
  live : Finset (τ × ι) := ∅
  /-- the helpers whose `mpController` is set -/
  bound : Finset (τ × ι) := ∅
  /-- the handlers on each thread, the innermost first -/
  stack : τ → List HandlerPc := fun _ => []
  /-- the calls of `waitForDone` behind their `disable`, and whether no `enable` came since -/
  waiting : κ → Option Bool := fun _ => none
  /-- a `waitForDone` has returned true and no `enable` came since it returned -/
  done : Bool := false
  /-- the same, with no `enable` since its `disable` -/
  settled : Bool := false

inductive ScopeAct (τ ι κ : Type) where
  /-- a handler starts -/
  | getScopeHelper (t : τ) (x : ι)
  | returnStraightAway (t : τ) (x : ι)
  | leaveBody (t : τ)
  | leave (t : τ)
  | construct (t : τ) (x : ι)
  | moveConstruct (t : τ) (x other : ι)
  | moveAssign (t : τ) (x other : ι)
  | destroy (t : τ) (x : ι)
  | enable
  | disable
  /-- `waitForDone` up to its `disable` -/
  | waitForDone (k : κ)
  /-- the last look of `waitForDone` at the count, with what it returns -/
  | waited (k : κ) (result : Bool)
deriving DecidableEq, Repr

variable {τ ι κ : Type} [DecidableEq τ] [DecidableEq ι] [DecidableEq κ]

namespace ScopeState

/-- `handlerEnd`, when the pointer is set. -/
def handlerEnd (s : ScopeState τ ι κ) (x : τ × ι) : ScopeState τ ι κ :=
  if x ∈ s.bound then { s with control := s.control.handlerEnd, bound := s.bound.erase x } else s

/-- The pointer of `other` goes to `x`, if it is set. -/
def takeOver (s : ScopeState τ ι κ) (x other : τ × ι) : ScopeState τ ι κ :=
  if other ∈ s.bound then { s with bound := insert x (s.bound.erase other) } else s

def setStack (s : ScopeState τ ι κ) (t : τ) (pcs : List HandlerPc) : ScopeState τ ι κ :=
  { s with stack := Function.update s.stack t pcs }

def enable (s : ScopeState τ ι κ) : ScopeState τ ι κ :=
  { s with
    control := s.control.enable
    waiting := fun k => (s.waiting k).map fun _ => false
    done := false
    settled := false }

end ScopeState

def scopeStep (s : ScopeState τ ι κ) : ScopeAct τ ι κ → Option (ScopeState τ ι κ)
  | .getScopeHelper t x =>
      if (t, x) ∉ s.live then
        some { s.setStack t (.entered :: s.stack t) with
          control := s.control.getScopeHelper
          live := insert (t, x) s.live
          bound := insert (t, x) s.bound }
      else none
  | .returnStraightAway t x =>
      match s.stack t with
      | .entered :: outer =>
          if (t, x) ∈ s.live then
            let returns := !((t, x) ∈ s.bound ∧ s.control.mEnabled)
            some (s.setStack t ((if returns then .leaving else .body) :: outer))
          else none
      | _ => none
  | .leaveBody t =>
      match s.stack t with
      | .body :: outer => some (s.setStack t (.leaving :: outer))
      | _ => none
  | .leave t =>
      match s.stack t with
      | .leaving :: outer => some (s.setStack t outer)
      | _ => none
  | .construct t x =>
      if (t, x) ∉ s.live then some { s with live := insert (t, x) s.live } else none
  | .moveConstruct t x other =>
      if (t, x) ∉ s.live ∧ (t, other) ∈ s.live then
        some { s.takeOver (t, x) (t, other) with live := insert (t, x) s.live }
      else none
  | .moveAssign t x other =>
      -- moved to itself a bound helper ends its handler and then clears its own pointer
      if (t, x) ∈ s.live ∧ (t, other) ∈ s.live then
        some ((s.handlerEnd (t, x)).takeOver (t, x) (t, other))
      else none
  | .destroy t x =>
      if (t, x) ∈ s.live then
        some { s.handlerEnd (t, x) with live := s.live.erase (t, x) }
      else none
  | .enable => some s.enable
  | .disable => some { s with control := s.control.disable }
  | .waitForDone k =>
      if s.waiting k = none then
        some { s with
          control := s.control.disable
          waiting := Function.update s.waiting k (some true) }
      else none
  | .waited k result =>
      match s.waiting k with
      | some undisturbed =>
          if result then
            if s.control.mInstanceCount = 0 then
              some { s with
                waiting := Function.update s.waiting k none
                done := true
                settled := s.settled || undisturbed }
            else none
          else if s.control.mInstanceCount ≠ 0 then
            some { s with waiting := Function.update s.waiting k none }
          else none
      | none => none

def scopeSystem (τ ι κ : Type) [DecidableEq τ] [DecidableEq ι] [DecidableEq κ] :
    System (ScopeState τ ι κ) (ScopeAct τ ι κ) where
  init s := s = {}
  step := scopeStep

/-! ## The count -/

/-- The count is the number of bound helpers, so `handlerEnd` never finds it at zero. -/
structure ScopeState.Counted (s : ScopeState τ ι κ) : Prop where
  count : s.control.mInstanceCount = s.bound.card
  noClamp : ∀ x ∈ s.bound, 0 < s.control.mInstanceCount
  live : s.bound ⊆ s.live

omit [DecidableEq τ] [DecidableEq ι] [DecidableEq κ] in
theorem ScopeState.counted_of {s : ScopeState τ ι κ}
    (hcount : s.control.mInstanceCount = s.bound.card) (hlive : s.bound ⊆ s.live) : s.Counted where
  count := hcount
  noClamp x hx := hcount ▸ Finset.card_pos.mpr ⟨x, hx⟩
  live := hlive

omit [DecidableEq κ] in
theorem ScopeState.Counted.handlerEnd {s : ScopeState τ ι κ} (h : s.Counted) (x : τ × ι) :
    (s.handlerEnd x).Counted := by
  rw [ScopeState.handlerEnd]
  split
  · rename_i hx
    refine counted_of ?_ ((Finset.erase_subset x s.bound).trans h.live)
    rw [Finset.card_erase_of_mem hx, ← h.count]
    rfl
  · exact h

omit [DecidableEq κ] in
theorem ScopeState.notMem_handlerEnd (s : ScopeState τ ι κ) (x : τ × ι) :
    x ∉ (s.handlerEnd x).bound := by
  rw [ScopeState.handlerEnd]
  split
  · exact Finset.notMem_erase x s.bound
  · assumption

omit [DecidableEq κ] in
/-- A pointer that goes to a helper without one leaves the number of bound helpers as it is. -/
theorem ScopeState.takeOver_card {s : ScopeState τ ι κ} {x : τ × ι} (hx : x ∉ s.bound)
    (other : τ × ι) : (s.takeOver x other).bound.card = s.bound.card := by
  rw [ScopeState.takeOver]
  split
  · rename_i hother
    have hfree : x ∉ s.bound.erase other := fun hmem => hx (Finset.mem_of_mem_erase hmem)
    have hpos := Finset.card_pos.mpr ⟨other, hother⟩
    rw [Finset.card_insert_of_notMem hfree, Finset.card_erase_of_mem hother]
    omega
  · rfl

omit [DecidableEq κ] in
theorem ScopeState.handlerEnd_live (s : ScopeState τ ι κ) (x : τ × ι) :
    (s.handlerEnd x).live = s.live := by
  rw [ScopeState.handlerEnd]
  split <;> rfl

omit [DecidableEq κ] in
theorem ScopeState.takeOver_rest (s : ScopeState τ ι κ) (x other : τ × ι) :
    (s.takeOver x other).control = s.control ∧ (s.takeOver x other).live = s.live ∧
    (s.takeOver x other).bound ⊆ insert x s.bound := by
  rw [ScopeState.takeOver]
  split
  · exact ⟨rfl, rfl, Finset.insert_subset_insert x (Finset.erase_subset other s.bound)⟩
  · exact ⟨rfl, rfl, Finset.subset_insert x s.bound⟩

omit [DecidableEq κ] in
/-- A pointer moves to a live helper without one. -/
theorem ScopeState.Counted.takeOver {s : ScopeState τ ι κ} (h : s.Counted) {x : τ × ι}
    (hx : x ∉ s.bound) (other : τ × ι) (live : Finset (τ × ι)) (hlive : s.live ⊆ live)
    (hmem : x ∈ live) : ScopeState.Counted { s.takeOver x other with live := live } := by
  rcases s.takeOver_rest x other with ⟨hcontrol, -, hbound⟩
  refine counted_of ?_ (hbound.trans (Finset.insert_subset hmem (h.live.trans hlive)))
  rw [ScopeState.takeOver_card hx, ← h.count]
  exact congrArg _ hcontrol

theorem counted_step {s t : ScopeState τ ι κ} {a : ScopeAct τ ι κ} (h : s.Counted)
    (hstep : scopeStep s a = some t) : t.Counted := by
  cases a with
  | getScopeHelper k x =>
      rcases Option.ite_none_right_eq_some.mp hstep with ⟨hnew, ht⟩
      cases ht
      have hfree : (k, x) ∉ s.bound := fun hmem => hnew (h.live hmem)
      refine ScopeState.counted_of ?_ (Finset.insert_subset_insert (k, x) h.live)
      rw [Finset.card_insert_of_notMem hfree, ← h.count]
      rfl
  | returnStraightAway k x =>
      simp only [scopeStep] at hstep
      split at hstep
      · rcases Option.ite_none_right_eq_some.mp hstep with ⟨-, ht⟩
        cases ht
        exact ⟨h.count, h.noClamp, h.live⟩
      · cases hstep
  | leaveBody k =>
      simp only [scopeStep] at hstep
      split at hstep <;> cases hstep
      exact ⟨h.count, h.noClamp, h.live⟩
  | leave k =>
      simp only [scopeStep] at hstep
      split at hstep <;> cases hstep
      exact ⟨h.count, h.noClamp, h.live⟩
  | construct k x =>
      rcases Option.ite_none_right_eq_some.mp hstep with ⟨-, ht⟩
      cases ht
      exact ⟨h.count, h.noClamp, h.live.trans (Finset.subset_insert (k, x) s.live)⟩
  | moveConstruct k x other =>
      rcases Option.ite_none_right_eq_some.mp hstep with ⟨⟨hnew, -⟩, ht⟩
      cases ht
      exact h.takeOver (fun hmem => hnew (h.live hmem)) (k, other) _
        (Finset.subset_insert (k, x) s.live) (Finset.mem_insert_self (k, x) s.live)
  | moveAssign k x other =>
      rcases Option.ite_none_right_eq_some.mp hstep with ⟨⟨hx, -⟩, ht⟩
      cases ht
      have hended := h.handlerEnd (k, x)
      have hlive := s.handlerEnd_live (k, x)
      have hsame := ((s.handlerEnd (k, x)).takeOver_rest (k, x) (k, other)).2.1
      have hmoved := hended.takeOver (s.notMem_handlerEnd (k, x)) (k, other) s.live
        (hlive ▸ Finset.Subset.refl _) hx
      rw [← hlive, ← hsame] at hmoved
      exact hmoved
  | destroy k x =>
      rcases Option.ite_none_right_eq_some.mp hstep with ⟨-, ht⟩
      cases ht
      have hended := h.handlerEnd (k, x)
      refine ⟨hended.count, hended.noClamp, fun y hy => Finset.mem_erase.mpr ⟨?_, ?_⟩⟩
      · rintro rfl
        exact s.notMem_handlerEnd (k, x) hy
      · exact s.handlerEnd_live (k, x) ▸ hended.live hy
  | enable =>
      cases hstep
      exact ⟨h.count, h.noClamp, h.live⟩
  | disable =>
      cases hstep
      exact ⟨h.count, h.noClamp, h.live⟩
  | waitForDone k =>
      rcases Option.ite_none_right_eq_some.mp hstep with ⟨-, ht⟩
      cases ht
      exact ⟨h.count, h.noClamp, h.live⟩
  | waited k result =>
      simp only [scopeStep] at hstep
      split at hstep
      · split at hstep
        · rcases Option.ite_none_right_eq_some.mp hstep with ⟨-, ht⟩
          cases ht
          exact ⟨h.count, h.noClamp, h.live⟩
        · rcases Option.ite_none_right_eq_some.mp hstep with ⟨-, ht⟩
          cases ht
          exact ⟨h.count, h.noClamp, h.live⟩
      · cases hstep

/-! ## Bodies that are over -/

/-- The thread has another bound helper. -/
def ScopeState.Spare (s : ScopeState τ ι κ) (t : τ) (x : ι) : Prop :=
  ∃ y, y ≠ x ∧ (t, y) ∈ s.bound

/-- While a body runs on its thread, the last bound helper is not given up. -/
def KeepsHelper (s : ScopeState τ ι κ) : ScopeAct τ ι κ → Prop
  | .moveAssign t x other =>
      .body ∈ s.stack t → (t, x) ∈ s.bound → (other ≠ x ∧ (t, other) ∈ s.bound) ∨ s.Spare t x
  | .destroy t x => .body ∈ s.stack t → (t, x) ∈ s.bound → s.Spare t x
  | _ => True

structure ScopeState.Held (s : ScopeState τ ι κ) : Prop where
  held : ∀ t, .body ∈ s.stack t → ∃ x, (t, x) ∈ s.bound
  waiting : ∀ k, s.waiting k = some true → s.control.mEnabled = false
  settled : s.settled = true → s.control.mEnabled = false ∧ ∀ t, .body ∉ s.stack t

omit [DecidableEq τ] [DecidableEq ι] [DecidableEq κ] in
/-- Helpers may change as long as the threads with a body keep a bound one. -/
theorem ScopeState.Held.rebind {s t : ScopeState τ ι κ} (h : s.Held) (hstack : t.stack = s.stack)
    (hwaiting : t.waiting = s.waiting) (hsettled : t.settled = s.settled)
    (henabled : t.control.mEnabled = s.control.mEnabled)
    (hbound : ∀ k x, .body ∈ s.stack k → (k, x) ∈ s.bound → ∃ y, (k, y) ∈ t.bound) : t.Held where
  held k hk := by
    rw [hstack] at hk
    rcases h.held k hk with ⟨x, hx⟩
    exact hbound k x hk hx
  waiting k hk := by
    rw [henabled]
    exact h.waiting k (hwaiting ▸ hk)
  settled hs := by
    rw [henabled, hstack]
    exact h.settled (hsettled ▸ hs)

omit [DecidableEq ι] [DecidableEq κ] in
/-- A handler goes on without entering a body. -/
theorem ScopeState.Held.setStack {s : ScopeState τ ι κ} (h : s.Held) {t : τ}
    {pcs : List HandlerPc} (hbody : .body ∈ pcs → .body ∈ s.stack t) : (s.setStack t pcs).Held := by
  have hback : ∀ k, .body ∈ (s.setStack t pcs).stack k → .body ∈ s.stack k := by
    intro k hk
    by_cases heq : k = t
    · subst heq
      exact hbody (by simpa [ScopeState.setStack] using hk)
    · simpa [ScopeState.setStack, heq] using hk
  exact
    { held := fun k hk => h.held k (hback k hk)
      waiting := h.waiting
      settled := fun hs => ⟨(h.settled hs).1, fun k hk => (h.settled hs).2 k (hback k hk)⟩ }

omit [DecidableEq κ] in
theorem ScopeState.mem_handlerEnd {s : ScopeState τ ι κ} {x y : τ × ι} :
    y ∈ (s.handlerEnd x).bound ↔ y ≠ x ∧ y ∈ s.bound := by
  rw [ScopeState.handlerEnd]
  split
  · exact Finset.mem_erase
  · rename_i hx
    exact ⟨fun hy => ⟨fun heq => hx (heq ▸ hy), hy⟩, fun hy => hy.2⟩

omit [DecidableEq κ] in
theorem ScopeState.handlerEnd_rest (s : ScopeState τ ι κ) (x : τ × ι) :
    (s.handlerEnd x).stack = s.stack ∧ (s.handlerEnd x).waiting = s.waiting ∧
    (s.handlerEnd x).settled = s.settled ∧
    (s.handlerEnd x).control.mEnabled = s.control.mEnabled := by
  rw [ScopeState.handlerEnd]
  split <;> exact ⟨rfl, rfl, rfl, rfl⟩

omit [DecidableEq κ] in
theorem ScopeState.takeOver_others (s : ScopeState τ ι κ) (x other : τ × ι) :
    (s.takeOver x other).stack = s.stack ∧ (s.takeOver x other).waiting = s.waiting ∧
    (s.takeOver x other).settled = s.settled ∧
    (s.takeOver x other).control.mEnabled = s.control.mEnabled := by
  rw [ScopeState.takeOver]
  split <;> exact ⟨rfl, rfl, rfl, rfl⟩

omit [DecidableEq κ] in
/-- Whichever helper was bound on a thread, one is bound there when a pointer has moved. -/
theorem ScopeState.takeOver_keeps {s : ScopeState τ ι κ} {t k : τ} {x other y : ι}
    (hy : (k, y) ∈ s.bound) : ∃ z, (k, z) ∈ (s.takeOver (t, x) (t, other)).bound := by
  rw [ScopeState.takeOver]
  split
  · by_cases heq : (k, y) = (t, other)
    · cases heq
      exact ⟨x, Finset.mem_insert_self (t, x) _⟩
    · exact ⟨y, Finset.mem_insert_of_mem (Finset.mem_erase.mpr ⟨heq, hy⟩)⟩
  · exact ⟨y, hy⟩

omit [DecidableEq κ] in
/-- A helper that ends its handler leaves another one bound. -/
theorem ScopeState.handlerEnd_keeps {s : ScopeState τ ι κ} {t k : τ} {x y : ι}
    (hy : (k, y) ∈ s.bound) (hspare : k = t → (t, x) ∈ s.bound → s.Spare t x) :
    ∃ z, (k, z) ∈ (s.handlerEnd (t, x)).bound := by
  by_cases heq : (k, y) = (t, x)
  · cases heq
    rcases hspare rfl hy with ⟨z, hne, hz⟩
    exact ⟨z, ScopeState.mem_handlerEnd.mpr ⟨fun h => hne (Prod.mk.inj h).2, hz⟩⟩
  · exact ⟨y, ScopeState.mem_handlerEnd.mpr ⟨heq, hy⟩⟩

theorem held_step {s t : ScopeState τ ι κ} {a : ScopeAct τ ι κ} (hcount : s.Counted) (h : s.Held)
    (hok : KeepsHelper s a) (hstep : scopeStep s a = some t) : t.Held := by
  cases a with
  | getScopeHelper k x =>
      rcases Option.ite_none_right_eq_some.mp hstep with ⟨-, ht⟩
      cases ht
      have hentered : (s.setStack k (.entered :: s.stack k)).Held :=
        h.setStack fun hbody => (List.mem_cons.mp hbody).resolve_left nofun
      exact hentered.rebind rfl rfl rfl rfl fun l y _ hy => ⟨y, Finset.mem_insert_of_mem hy⟩
  | returnStraightAway k x =>
      simp only [scopeStep] at hstep
      split at hstep
      · rename_i outer hstack
        rcases Option.ite_none_right_eq_some.mp hstep with ⟨-, ht⟩
        cases ht
        by_cases hpass : (k, x) ∈ s.bound ∧ s.control.mEnabled
        · refine ⟨fun l hl => ?_, h.waiting, fun hs => ?_⟩
          · by_cases heq : l = k
            · subst heq
              exact ⟨x, hpass.1⟩
            · exact h.held l (by simpa [ScopeState.setStack, heq] using hl)
          · exact absurd (h.settled hs).1 (by simp [hpass.2])
        · refine h.setStack fun hbody => ?_
          rw [hstack]
          simpa [hpass] using hbody
      · cases hstep
  | leaveBody k =>
      simp only [scopeStep] at hstep
      split at hstep <;> cases hstep
      rename_i outer hstack
      exact h.setStack fun _ => by
        rw [hstack]
        exact List.mem_cons_self
  | leave k =>
      simp only [scopeStep] at hstep
      split at hstep <;> cases hstep
      rename_i outer hstack
      exact h.setStack fun hbody => by
        rw [hstack]
        exact List.mem_cons_of_mem _ hbody
  | construct k x =>
      rcases Option.ite_none_right_eq_some.mp hstep with ⟨-, ht⟩
      cases ht
      exact h.rebind rfl rfl rfl rfl fun l y _ hy => ⟨y, hy⟩
  | moveConstruct k x other =>
      rcases Option.ite_none_right_eq_some.mp hstep with ⟨-, ht⟩
      cases ht
      rcases s.takeOver_others (k, x) (k, other) with ⟨hstack, hwaiting, hsettled, henabled⟩
      exact h.rebind hstack hwaiting hsettled henabled
        fun l y _ hy => ScopeState.takeOver_keeps hy
  | moveAssign k x other =>
      rcases Option.ite_none_right_eq_some.mp hstep with ⟨-, ht⟩
      cases ht
      rcases s.handlerEnd_rest (k, x) with ⟨hstack, hwaiting, hsettled, henabled⟩
      rcases (s.handlerEnd (k, x)).takeOver_others (k, x) (k, other) with
        ⟨hstack', hwaiting', hsettled', henabled'⟩
      refine h.rebind (hstack'.trans hstack) (hwaiting'.trans hwaiting) (hsettled'.trans hsettled)
        (henabled'.trans henabled) fun l y hbody hy => ?_
      have hspare : l = k → (k, x) ∈ s.bound → s.Spare k x := by
        rintro rfl hx
        rcases hok hbody hx with ⟨hne, hother⟩ | hspare
        · exact ⟨other, hne, hother⟩
        · exact hspare
      rcases ScopeState.handlerEnd_keeps hy hspare with ⟨z, hz⟩
      exact ScopeState.takeOver_keeps hz
  | destroy k x =>
      rcases Option.ite_none_right_eq_some.mp hstep with ⟨-, ht⟩
      cases ht
      rcases s.handlerEnd_rest (k, x) with ⟨hstack, hwaiting, hsettled, henabled⟩
      refine h.rebind hstack hwaiting hsettled henabled fun l y hbody hy => ?_
      exact ScopeState.handlerEnd_keeps hy fun heq hx => hok (heq ▸ hbody) hx
  | enable =>
      cases hstep
      refine ⟨h.held, fun k hk => ?_, nofun⟩
      rcases Option.map_eq_some_iff.mp hk with ⟨_, _, hfalse⟩
      cases hfalse
  | disable =>
      cases hstep
      exact ⟨h.held, fun _ _ => rfl, fun hs => ⟨rfl, (h.settled hs).2⟩⟩
  | waitForDone k =>
      rcases Option.ite_none_right_eq_some.mp hstep with ⟨-, ht⟩
      cases ht
      exact ⟨h.held, fun _ _ => rfl, fun hs => ⟨rfl, (h.settled hs).2⟩⟩
  | waited k result =>
      have hothers : ∀ l, Function.update s.waiting k none l = some true →
          s.control.mEnabled = false := by
        intro l hl
        by_cases heq : l = k
        · subst heq
          simp at hl
        · exact h.waiting l (by simpa [heq] using hl)
      simp only [scopeStep] at hstep
      split at hstep
      · rename_i undisturbed hwait
        split at hstep
        · rcases Option.ite_none_right_eq_some.mp hstep with ⟨hzero, ht⟩
          cases ht
          refine ⟨h.held, hothers, fun hs => ?_⟩
          rcases Bool.or_eq_true_iff.mp hs with hs | hs
          · exact h.settled hs
          · -- no helper is bound, so no thread is in a body
            refine ⟨h.waiting k (hs ▸ hwait), fun l hl => ?_⟩
            rcases h.held l hl with ⟨x, hx⟩
            have hpos := hcount.noClamp (l, x) hx
            omega
        · rcases Option.ite_none_right_eq_some.mp hstep with ⟨-, ht⟩
          cases ht
          exact ⟨h.held, hothers, h.settled⟩
      · cases hstep

/-- The count is right in every run. Once `waitForDone` has returned true no body runs until an
`enable`, which also ends this when it comes during the wait, as long as the threads with a
body do not give up their last bound helper. -/
theorem scopeHelpers_counted_and_settled (τ ι κ : Type) [DecidableEq τ] [DecidableEq ι]
    [DecidableEq κ] :
    (∀ s, (scopeSystem τ ι κ).Reachable s → s.Counted) ∧
    ∀ s, (scopeSystem τ ι κ).Reaches KeepsHelper s → s.settled = true →
      ∀ t, .body ∉ s.stack t := by
  have hempty : ∀ s, (scopeSystem τ ι κ).init s → s.Counted := by
    rintro s rfl
    exact ScopeState.counted_of rfl (Finset.Subset.refl _)
  have hinit : ∀ s, (scopeSystem τ ι κ).init s → s.Counted ∧ s.Held := by
    intro s hs
    refine ⟨hempty s hs, ?_⟩
    cases hs
    exact ⟨nofun, nofun, nofun⟩
  have hstep : ∀ s a t, s.Counted ∧ s.Held → KeepsHelper s a →
      (scopeSystem τ ι κ).step s a = some t → t.Counted ∧ t.Held :=
    fun _ _ _ h hok hstep => ⟨counted_step h.1 hstep, held_step h.1 h.2 hok hstep⟩
  refine ⟨fun s hs => ?_, fun s hs hsettled => ?_⟩
  · exact hs.invariant hempty fun _ _ _ h _ hstep => counted_step h hstep
  · exact ((hs.invariant hinit hstep).2.settled hsettled).2

/-- The moves of this handler leave its one binding where it is until the body is over. -/
def carefulHandler : List (ScopeAct Unit Bool Unit) :=
  [.getScopeHelper () true, .returnStraightAway () true, .moveConstruct () false true,
    .leaveBody (), .destroy () false, .destroy () true, .leave (), .waitForDone (),
    .waited () true]

def carefulTest (s : ScopeState Unit Bool Unit) : ScopeAct Unit Bool Unit → Bool
  | .moveAssign _ _ _ => false
  | .destroy t _ => .body ∉ s.stack t
  | _ => true

theorem carefulTest_keeps (s : ScopeState Unit Bool Unit) (a : ScopeAct Unit Bool Unit)
    (h : carefulTest s a = true) : KeepsHelper s a := by
  cases a with
  | moveAssign t x other => cases h
  | destroy t x => exact fun hbody => absurd hbody (of_decide_eq_true h)
  | getScopeHelper t x => trivial
  | returnStraightAway t x => trivial
  | leaveBody t => trivial
  | leave t => trivial
  | construct t x => trivial
  | moveConstruct t x other => trivial
  | enable => trivial
  | disable => trivial
  | waitForDone k => trivial
  | waited k result => trivial

theorem carefulHandler_settled :
    ∃ s : ScopeState Unit Bool Unit, s.settled = true ∧ s.Counted ∧ ∀ t, .body ∉ s.stack t := by
  have hend : ∃ s, (scopeSystem Unit Bool Unit).run {} carefulHandler = some s ∧
      s.settled = true := ⟨_, rfl, rfl⟩
  rcases hend with ⟨s, hrun, hsettled⟩
  have hok : (scopeSystem Unit Bool Unit).RunOk KeepsHelper {} carefulHandler :=
    System.runOk_of_checkRun carefulTest_keeps (by decide)
  have hreached : (scopeSystem Unit Bool Unit).Reaches KeepsHelper s :=
    System.Reaches.run (.init rfl) hok hrun
  exact ⟨s, hsettled, (scopeHelpers_counted_and_settled Unit Bool Unit).1 s hreached.reachable,
    (scopeHelpers_counted_and_settled Unit Bool Unit).2 s hreached hsettled⟩

/-- A helper that is overwritten with a default one in the body ends its handler early. -/
def overwritingHandler : List (ScopeAct Unit Bool Unit) :=
  [.getScopeHelper () true, .returnStraightAway () true, .construct () false,
    .moveAssign () true false, .waitForDone (), .waited () true]

/-- A wait that another thread enables the handlers again in. -/
def enabledInWait : List (ScopeAct Unit Bool Unit) :=
  [.waitForDone (), .enable, .waited () true, .getScopeHelper () true,
    .returnStraightAway () true]

/-- Neither of the two conditions can be left out. -/
theorem overwritten_or_enabled_runs_on :
    (¬ ∀ s : ScopeState Unit Bool Unit, (scopeSystem Unit Bool Unit).Reachable s →
      s.Counted ∧ (s.done = true → ∀ t, .body ∉ s.stack t)) ∧
    ¬ ∀ s : ScopeState Unit Bool Unit, (scopeSystem Unit Bool Unit).Reaches KeepsHelper s →
      s.done = true → ∀ t, .body ∉ s.stack t := by
  constructor
  · intro hclaim
    have hend : ∃ s, (scopeSystem Unit Bool Unit).run {} overwritingHandler = some s ∧
        s.done = true ∧ s.stack () = [.body] := ⟨_, rfl, rfl, rfl⟩
    rcases hend with ⟨s, hrun, hdone, hstack⟩
    have hnone := (hclaim s (System.reachable_of_run rfl hrun)).2 hdone ()
    rw [hstack] at hnone
    exact hnone (List.mem_singleton_self _)
  · intro hclaim
    have hend : ∃ s, (scopeSystem Unit Bool Unit).run {} enabledInWait = some s ∧
        s.done = true ∧ s.stack () = [.body] := ⟨_, rfl, rfl, rfl⟩
    rcases hend with ⟨s, hrun, hdone, hstack⟩
    have hok : (scopeSystem Unit Bool Unit).RunOk KeepsHelper {} enabledInWait :=
      System.runOk_of_checkRun carefulTest_keeps (by decide)
    have hnone := hclaim s (System.Reaches.run (.init rfl) hok hrun) hdone ()
    rw [hstack] at hnone
    exact hnone (List.mem_singleton_self _)

end PlayerInterface.Player
