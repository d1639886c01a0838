import Mathlib.Data.Finset.Basic
import PlayerInterface.Core.Transition

/-!
# Signal handlers

The player records the handlers it connects and disconnects those whose instances it finds in the
pipeline. The search counts how deep it is in a variable that all its calls share, and gives up
below a limit.
-/

namespace PlayerInterface.Player

open PlayerInterface.Core

variable {ι : Type}

/-! ## Elements of a pipeline -/

/-- A pointer to an element, to a bin with its children or to something else. -/
inductive Pointer (ι : Type) where
  | null
  | other
  | element (p : ι)
  | bin (p : ι) (children : List (Pointer ι))

def Pointer.isNull : Pointer ι → Bool
  | .null => true
  | _ => false

/-- An element, so many bins below the pointer. -/
inductive Pointer.At : Nat → ι → Pointer ι → Prop where
  | element {p : ι} : At 0 p (.element p)
  | bin {p : ι} {children : List (Pointer ι)} : At 0 p (.bin p children)
  | child {p q : ι} {depth : Nat} {child : Pointer ι} {children : List (Pointer ι)} :
      child ∈ children → At depth p child → At (depth + 1) p (.bin q children)

def RECURSION_LIMIT : Nat := 10

/-- Found from a call that is entered at `recursionCount`. -/
def Pointer.Found (recursionCount : Nat) (p : ι) (pElementOrBin : Pointer ι) : Prop :=
  ∃ depth, recursionCount + depth < RECURSION_LIMIT ∧ pElementOrBin.At depth p

/-- Nothing is found in a null pointer. -/
theorem not_found_of_null {pElementOrBin : Pointer ι} (h : pElementOrBin.isNull = true)
    (recursionCount : Nat) (p : ι) : ¬ pElementOrBin.Found recursionCount p := by
  intro ⟨depth, _, hat⟩
  cases hat <;> cases h

theorem found_bin_iff {recursionCount : Nat} {p q : ι} {children : List (Pointer ι)}
    (h : recursionCount < RECURSION_LIMIT) :
    Pointer.Found recursionCount p (.bin q children) ↔
      p = q ∨ ∃ child ∈ children, child.Found (recursionCount + 1) p := by
  constructor
  · intro ⟨depth, hdepth, hat⟩
    cases hat with
    | bin => exact .inl rfl
    | child hchild hat => exact .inr ⟨_, hchild, _, by omega, hat⟩
  · intro hor
    cases hor with
    | inl heq => exact ⟨0, h, heq ▸ .bin⟩
    | inr hchild =>
        obtain ⟨child, hmem, depth, hdepth, hat⟩ := hchild
        exact ⟨depth + 1, by omega, .child hmem hat⟩

theorem not_found_below {recursionCount : Nat} (h : RECURSION_LIMIT ≤ recursionCount) (p : ι)
    (pElementOrBin : Pointer ι) : ¬ pElementOrBin.Found recursionCount p := by
  intro ⟨depth, hdepth, _⟩
  omega

section

variable [DecidableEq ι]

mutual

/-- The elements and `recursionCount` behind the call. -/
def GetElementPointers (pElementOrBin : Pointer ι) (elements : Finset ι) (recursionCount : Nat) :
    Finset ι × Nat :=
  let recursionCount := recursionCount + 1
  let (elements, recursionCount) :=
    if RECURSION_LIMIT < recursionCount then (elements, recursionCount)
    else
      match pElementOrBin with
      | .null | .other => (elements, recursionCount)
      | .element p => (insert p elements, recursionCount)
      | .bin p children => childElements children (insert p elements) recursionCount
  (elements, recursionCount - 1)

/-- The loop over the children of a bin. -/
def childElements (children : List (Pointer ι)) (elements : Finset ι) (recursionCount : Nat) :
    Finset ι × Nat :=
  match children with
  | [] => (elements, recursionCount)
  | child :: children =>
      if child.isNull then childElements children elements recursionCount
      else
        let (elements, recursionCount) := GetElementPointers child elements recursionCount
        childElements children elements recursionCount

end

mutual

/-- The count is restored and everything above the limit is found. -/
theorem GetElementPointers_spec (pElementOrBin : Pointer ι) (elements : Finset ι)
    (recursionCount : Nat) :
    (GetElementPointers pElementOrBin elements recursionCount).2 = recursionCount ∧
      ∀ p, p ∈ (GetElementPointers pElementOrBin elements recursionCount).1 ↔
        p ∈ elements ∨ pElementOrBin.Found recursionCount p := by
  by_cases hlimit : RECURSION_LIMIT < recursionCount + 1
  · have hnone : ∀ p, ¬ pElementOrBin.Found recursionCount p :=
      fun p => not_found_below (Nat.le_of_lt_succ hlimit) p pElementOrBin
    rw [GetElementPointers.eq_def]
    simp only [if_pos hlimit]
    exact ⟨rfl, fun p => (or_iff_left (hnone p)).symm⟩
  · have hroom : recursionCount < RECURSION_LIMIT := by omega
    cases pElementOrBin with
    | null =>
        rw [GetElementPointers]
        simp only [if_neg hlimit]
        exact ⟨rfl, fun p => (or_iff_left (not_found_of_null rfl recursionCount p)).symm⟩
    | other =>
        rw [GetElementPointers]
        simp only [if_neg hlimit]
        refine ⟨rfl, fun p => (or_iff_left ?_).symm⟩
        intro ⟨depth, _, hat⟩
        cases hat
    | element q =>
        rw [GetElementPointers]
        simp only [if_neg hlimit]
        refine ⟨rfl, fun p => ?_⟩
        rw [Finset.mem_insert, or_comm]
        refine or_congr_right ⟨fun heq => ⟨0, hroom, heq ▸ .element⟩, fun ⟨depth, _, hat⟩ => ?_⟩
        cases hat
        rfl
    | bin q children =>
        obtain ⟨hcount, helements⟩ :=
          childElements_spec children (insert q elements) (recursionCount + 1)
        rw [GetElementPointers]
        simp only [if_neg hlimit, hcount]
        refine ⟨rfl, fun p => ?_⟩
        rw [helements, found_bin_iff hroom, Finset.mem_insert]
        tauto

theorem childElements_spec (children : List (Pointer ι)) (elements : Finset ι)
    (recursionCount : Nat) :
    (childElements children elements recursionCount).2 = recursionCount ∧
      ∀ p, p ∈ (childElements children elements recursionCount).1 ↔
        p ∈ elements ∨ ∃ child ∈ children, child.Found recursionCount p := by
  cases children with
  | nil =>
      refine ⟨rfl, fun p => (or_iff_left ?_).symm⟩
      intro ⟨child, hchild, _⟩
      cases hchild
  | cons child children =>
      rw [childElements]
      by_cases hnull : child.isNull = true
      · rw [if_pos hnull]
        obtain ⟨hcount, helements⟩ := childElements_spec children elements recursionCount
        refine ⟨hcount, fun p => ?_⟩
        have hnone := not_found_of_null hnull recursionCount p
        simp only [helements, List.mem_cons, exists_eq_or_imp, hnone, false_or]
      · rw [if_neg hnull]
        obtain ⟨hchild, hfound⟩ := GetElementPointers_spec child elements recursionCount
        obtain ⟨hcount, helements⟩ := childElements_spec children
          (GetElementPointers child elements recursionCount).1 recursionCount
        simp only [hchild]
        refine ⟨hcount, fun p => ?_⟩
        simp only [helements, hfound, List.mem_cons, exists_eq_or_imp, or_assoc]

end

/-! ## Handlers -/

structure CallbackData (ι : Type) where
  inst : Option ι
  id : Nat

structure SignalState (ι : Type) where
  pipeline : Pointer ι := .null
  mCallBackIdentifiers : List (CallbackData ι) := []
  /-- the handlers of the player that are connected, by instance and id -/
  connected : Finset (ι × Nat) := ∅
  /-- the id of the next handler; no id is zero -/
  nextId : Nat := 1

inductive SignalAct (ι : Type) where
  | SignalConnect (inst : ι) (succeeds : Bool)
  | DisconnectSignals
  /-- elements come and go, and the pipeline with them -/
  | pipeline (pipeline : Pointer ι)
  /-- an element is destroyed, and its handlers with it -/
  | finalize (inst : ι)

namespace SignalState

def SignalConnect (s : SignalState ι) (inst : ι) (succeeds : Bool) : SignalState ι :=
  let id := if succeeds then s.nextId else 0
  if 0 < id then
    { s with
      connected := insert (inst, id) s.connected
      nextId := id + 1
      mCallBackIdentifiers := s.mCallBackIdentifiers ++ [⟨some inst, id⟩] }
  else s

/-- A turn of the loop in `DisconnectSignals`. -/
def disconnect (elements : Finset ι) (connected : Finset (ι × Nat)) (data : CallbackData ι) :
    Finset (ι × Nat) :=
  match data.inst with
  | none => connected
  | some inst =>
      if data.id = 0 then connected
      else if inst ∉ elements then connected
      else if (inst, data.id) ∉ connected then connected
      else connected.erase (inst, data.id)

def DisconnectSignals (enableDisconnectSignals : Bool) (s : SignalState ι) : SignalState ι :=
  let connected :=
    if enableDisconnectSignals then
      let elements := (GetElementPointers s.pipeline ∅ 0).1
      s.mCallBackIdentifiers.foldl (disconnect elements) s.connected
    else s.connected
  { s with connected, mCallBackIdentifiers := [] }

end SignalState

def signalStep (enableDisconnectSignals : Bool) (s : SignalState ι) :
    SignalAct ι → Option (SignalState ι)
  | .SignalConnect inst succeeds => some (s.SignalConnect inst succeeds)
  | .DisconnectSignals => some (s.DisconnectSignals enableDisconnectSignals)
  | .pipeline pipeline => some { s with pipeline }
  | .finalize inst => some { s with connected := s.connected.filter (·.1 ≠ inst) }

def signalSystem (ι : Type) [DecidableEq ι] (enableDisconnectSignals : Bool) :
    System (SignalState ι) (SignalAct ι) where
  init s := s = {}
  step := signalStep enableDisconnectSignals

/-- A handler is connected and recorded, or nothing happens. -/
theorem SignalConnect_cases (s : SignalState ι) (inst : ι) (succeeds : Bool) :
    s.SignalConnect inst succeeds = s ∨ ∃ id, 0 < id ∧ s.SignalConnect inst succeeds =
      { s with
        connected := insert (inst, id) s.connected
        nextId := id + 1
        mCallBackIdentifiers := s.mCallBackIdentifiers ++ [⟨some inst, id⟩] } := by
  rw [SignalState.SignalConnect]
  by_cases hid : 0 < if succeeds then s.nextId else 0
  · exact .inr ⟨_, hid, if_pos hid⟩
  · exact .inl (if_neg hid)

/-- Every connected handler is recorded. -/
def SignalState.Recorded (s : SignalState ι) : Prop :=
  ∀ h ∈ s.connected, ⟨some h.1, h.2⟩ ∈ s.mCallBackIdentifiers

/-- Whenever signals are disconnected the instances of all handlers are found. -/
def FindsAll (enableDisconnectSignals : Bool) (s : SignalState ι) : SignalAct ι → Prop
  | .DisconnectSignals => ∀ h ∈ s.connected, enableDisconnectSignals = true ∧
      s.pipeline.Found 0 h.1
  | _ => True

/-- No handler has the id zero. -/
def SignalState.Numbered (s : SignalState ι) : Prop := ∀ h ∈ s.connected, h.2 ≠ 0

theorem disconnect_mem (elements : Finset ι) (connected : Finset (ι × Nat))
    (data : CallbackData ι) (h : ι × Nat) :
    h ∈ SignalState.disconnect elements connected data ↔ h ∈ connected ∧
      ¬ (⟨some h.1, h.2⟩ = data ∧ h.2 ≠ 0 ∧ h.1 ∈ elements) := by
  obtain ⟨inst, id⟩ := data
  obtain ⟨p, n⟩ := h
  rw [SignalState.disconnect, CallbackData.mk.injEq]
  cases inst with
  | none => simp
  | some inst =>
      dsimp only
      rw [Option.some.injEq]
      split
      · rename_i hzero
        refine (and_iff_left ?_).symm
        intro ⟨⟨_, hid⟩, hne, _⟩
        exact hne (hid.trans hzero)
      · split
        · rename_i hmissing
          refine (and_iff_left ?_).symm
          intro ⟨⟨hinst, _⟩, _, hmem⟩
          exact hmissing (hinst ▸ hmem)
        · split
          · rename_i hgone
            refine (and_iff_left_of_imp fun hconnected hsame => hgone ?_).symm
            rw [← hsame.1.1, ← hsame.1.2]
            exact hconnected
          · rename_i hid hin _
            rw [Finset.mem_erase, and_comm, ne_eq, Prod.mk.injEq]
            refine and_congr_right fun _ => not_congr ⟨fun heq => ⟨heq, ?_, ?_⟩, fun h => h.1⟩
            · rw [heq.2]
              exact hid
            · rw [heq.1]
              exact not_not.mp hin

/-- What the loop leaves connected. -/
theorem disconnectAll_mem (elements : Finset ι) (identifiers : List (CallbackData ι))
    (connected : Finset (ι × Nat)) (h : ι × Nat) :
    h ∈ identifiers.foldl (SignalState.disconnect elements) connected ↔ h ∈ connected ∧
      ¬ (⟨some h.1, h.2⟩ ∈ identifiers ∧ h.2 ≠ 0 ∧ h.1 ∈ elements) := by
  induction identifiers generalizing connected with
  | nil => simp
  | cons data identifiers ih =>
      rw [List.foldl_cons, ih, disconnect_mem, List.mem_cons, and_assoc, ← not_or, or_and_right]

theorem DisconnectSignals_subset (s : SignalState ι) (enableDisconnectSignals : Bool) :
    (s.DisconnectSignals enableDisconnectSignals).connected ⊆ s.connected := by
  intro h hmem
  rw [SignalState.DisconnectSignals] at hmem
  cases enableDisconnectSignals with
  | false => exact hmem
  | true => exact ((disconnectAll_mem _ _ _ h).mp hmem).1

/-- The handlers that are connected behind `DisconnectSignals` are those it found no instance of. -/
theorem DisconnectSignals_connected {s : SignalState ι} (hs : s.Recorded) (hid : s.Numbered)
    (enableDisconnectSignals : Bool) (h : ι × Nat) :
    h ∈ (s.DisconnectSignals enableDisconnectSignals).connected ↔
      h ∈ s.connected ∧ ¬ (enableDisconnectSignals = true ∧ s.pipeline.Found 0 h.1) := by
  cases enableDisconnectSignals with
  | false => simp [SignalState.DisconnectSignals]
  | true =>
      obtain ⟨-, hfound⟩ := GetElementPointers_spec s.pipeline ∅ 0
      have hmem := disconnectAll_mem (GetElementPointers s.pipeline ∅ 0).1 s.mCallBackIdentifiers
        s.connected h
      rw [SignalState.DisconnectSignals, if_pos rfl]
      refine hmem.trans (and_congr_right fun hconnected => not_congr ?_)
      rw [and_iff_right (hs h hconnected), and_iff_right (hid h hconnected), and_iff_right rfl,
        hfound, or_iff_right (Finset.notMem_empty h.1)]

theorem numbered_step {enableDisconnectSignals : Bool} {s t : SignalState ι} {a : SignalAct ι}
    (hs : s.Numbered) (hstep : signalStep enableDisconnectSignals s a = some t) : t.Numbered := by
  cases a with
  | SignalConnect inst succeeds =>
      cases hstep
      obtain heq | ⟨id, hpos, heq⟩ := SignalConnect_cases s inst succeeds
      · rw [heq]
        exact hs
      · rw [heq]
        intro h hmem
        cases Finset.mem_insert.mp hmem with
        | inl hnew => exact hnew ▸ Nat.ne_of_gt hpos
        | inr hold => exact hs h hold
  | DisconnectSignals =>
      cases hstep
      exact fun h hmem => hs h (DisconnectSignals_subset s enableDisconnectSignals hmem)
  | pipeline pipeline =>
      cases hstep
      exact hs
  | finalize inst =>
      cases hstep
      exact fun h hmem => hs h (Finset.mem_of_mem_filter h hmem)

theorem recorded_step_iff {enableDisconnectSignals : Bool} {s t : SignalState ι} {a : SignalAct ι}
    (hid : s.Numbered) (hs : s.Recorded)
    (hstep : signalStep enableDisconnectSignals s a = some t) :
    t.Recorded ↔ FindsAll enableDisconnectSignals s a := by
  cases a with
  | SignalConnect inst succeeds =>
      refine iff_of_true ?_ trivial
      cases hstep
      obtain heq | ⟨id, -, heq⟩ := SignalConnect_cases s inst succeeds
      · rw [heq]
        exact hs
      · rw [heq]
        intro h hmem
        cases Finset.mem_insert.mp hmem with
        | inl hnew => exact List.mem_append_right _ (List.mem_singleton.mpr (hnew ▸ rfl))
        | inr hold => exact List.mem_append_left _ (hs h hold)
  | DisconnectSignals =>
      cases hstep
      have hconnected := DisconnectSignals_connected hs hid enableDisconnectSignals
      constructor
      · intro h handler hmem
        by_contra hmissed
        exact List.not_mem_nil (h handler ((hconnected handler).mpr ⟨hmem, hmissed⟩))
      · intro h handler hmem
        obtain ⟨hbefore, hmissed⟩ := (hconnected handler).mp hmem
        exact absurd (h handler hbefore) hmissed
  | pipeline pipeline =>
      cases hstep
      exact iff_of_true hs trivial
  | finalize inst =>
      cases hstep
      exact iff_of_true (fun h hmem => hs h (Finset.mem_of_mem_filter h hmem)) trivial

/-- The record holds every connected handler in every state of a run, so that none is connected
once it is emptied, exactly when every `DisconnectSignals` of the run finds all their instances. -/
theorem signals_recorded_iff (enableDisconnectSignals : Bool) (acts : List (SignalAct ι)) :
    (signalSystem ι enableDisconnectSignals).RunAll SignalState.Recorded {} acts ↔
      (signalSystem ι enableDisconnectSignals).RunOk (FindsAll enableDisconnectSignals) {} acts :=
  System.runAll_iff_runOk_of_invariant (fun _ _ _ => numbered_step)
    (fun _ _ _ => recorded_step_iff) (fun _ h => absurd h (Finset.notMem_empty _))
    (fun _ h => absurd h (Finset.notMem_empty _)) acts

end

end PlayerInterface.Player
