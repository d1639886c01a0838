import Mathlib.Data.Int.Order.Basic
import PlayerInterface.Core.LeftmostMin
import PlayerInterface.Drm.LicenseOutcome

/-!
# Primary slots

`getDrmSession` starts its choice at the first slot that is not primary and then
moves to an older one behind it, primary or not. A primary slot survives the
choice as long as one that is not primary comes before it.
-/

namespace PlayerInterface.Drm

open PlayerInterface.Core

/-! ## Calls -/

/-- What `getDrmSession` returns; no `selectedSlot` is `INVALID_SESSION_SLOT`. -/
structure GetResult where
  code : KeyState
  selectedSlot : Option Nat
  manager : DrmSessionManager

def DrmSessionManager.getDrmSession (build : BuildConfig) (m : DrmSessionManager)
    (helper : DrmHelper) (now : Int) (isPrimarySession : Bool) (fresh : KeyState)
    (wait : DrmSessionManager.WaitResult) : GetResult :=
  match m.selectSlot helper now isPrimarySession with
  | (none, m) => ⟨.KEY_ERROR, none, m⟩
  | (some slot, m) =>
      let r := m.openSession build helper slot fresh wait
      ⟨r.1, some slot, r.2⟩

/-- A call, with the time it reads and the answers of the session it works on. -/
structure Call where
  helper : DrmHelper
  now : Int
  isPrimarySession : Bool
  fresh : KeyState
  wait : DrmSessionManager.WaitResult

def Call.result (build : BuildConfig) (m : DrmSessionManager) (c : Call) : GetResult :=
  m.getDrmSession build c.helper c.now c.isPrimarySession c.fresh c.wait

/-- Runs of calls of a manager that starts fresh with any number of slots. -/
def callSystem (build : BuildConfig) : System DrmSessionManager Call where
  init m := ∃ maxSessions, m = { mMaxDRMSessions := maxSessions }
  step m c := some (c.result build m).manager

/-! ## Slots a call may take -/

namespace DrmSessionManager

def IsPrimary (m : DrmSessionManager) (slot : Nat) : Prop :=
  (m.cachedKeyIDs slot).isPrimaryKeyId = true

def creationTime (m : DrmSessionManager) (slot : Nat) : Int := (m.cachedKeyIDs slot).creationTime

/-- The helper has a key id, and no slot has it. -/
def Uncached (m : DrmSessionManager) (helper : DrmHelper) : Prop :=
  helper.getKey ≠ [] ∧ ∀ i < m.mMaxDRMSessions, helper.getKey ∉ (m.cachedKeyIDs i).data

/-- The choice starts at the first slot that is not primary, and ends at the leftmost of
the oldest slots from there on. -/
theorem oldestSlot_leftmost {m : DrmSessionManager} {slot : Nat} (h : m.oldestSlot = some slot) :
    ∃ first, ¬ m.IsPrimary first ∧ (∀ i < first, m.IsPrimary i) ∧
      LeftmostMin m.creationTime first m.mMaxDRMSessions slot := by
  obtain ⟨first, hfirst, hfold⟩ := Option.map_eq_some_iff.mp h
  obtain ⟨hsecondary, hmem, hbefore⟩ := List.find?_range_eq_some.mp hfirst
  have hlt := List.mem_range.mp hmem
  have hwindow : first + 1 + (m.mMaxDRMSessions - (first + 1)) = m.mMaxDRMSessions := by omega
  have hleft := (LeftmostMin.single m.creationTime first).foldl (m.mMaxDRMSessions - (first + 1))
  rw [hwindow] at hleft
  refine ⟨first, ?_, fun i hi => ?_, hfold ▸ hleft⟩
  · simpa [IsPrimary] using hsecondary
  · simpa [IsPrimary] using hbefore i hi

theorem oldestSlot_none {m : DrmSessionManager} :
    m.oldestSlot = none ↔ ∀ i < m.mMaxDRMSessions, m.IsPrimary i := by
  simp [oldestSlot, IsPrimary]

end DrmSessionManager

/-- What a call does to the slots when its key is cached nowhere. -/
structure SparesPrimary (build : BuildConfig) (m : DrmSessionManager) (c : Call) : Prop where
  kept : ∀ i < m.mMaxDRMSessions, m.IsPrimary i →
    (c.result build m).manager.cachedKeyIDs i = m.cachedKeyIDs i ∧
      (c.result build m).manager.drmSessionContexts i = m.drmSessionContexts i
  refused : (∀ i < m.mMaxDRMSessions, m.IsPrimary i) →
    c.result build m = ⟨.KEY_ERROR, none, m⟩
  selected : (∃ i < m.mMaxDRMSessions, ¬ m.IsPrimary i) →
    ∃ slot < m.mMaxDRMSessions, (c.result build m).selectedSlot = some slot ∧
      ¬ m.IsPrimary slot ∧
      ∀ i < m.mMaxDRMSessions, ¬ m.IsPrimary i → m.creationTime slot ≤ m.creationTime i

/-- Before every primary slot behind one that is not primary there is one that is not
primary: an older one, or one as old with a lower index. -/
def Guarded (m : DrmSessionManager) : Prop :=
  ∀ i < m.mMaxDRMSessions, m.IsPrimary i → (∃ j < i, ¬ m.IsPrimary j) →
    ∃ j < m.mMaxDRMSessions, ¬ m.IsPrimary j ∧
      (m.creationTime j < m.creationTime i ∨ m.creationTime j = m.creationTime i ∧ j < i)

section
variable {build : BuildConfig} {m : DrmSessionManager} {c : Call}

theorem result_none (h : m.Uncached c.helper) (hslot : m.oldestSlot = none) :
    c.result build m = ⟨.KEY_ERROR, none, m⟩ := by
  have hcached : m.cachedSlot c.helper.getKey = none := DrmSessionManager.cachedSlot_none.mpr h.2
  simp only [Call.result, DrmSessionManager.getDrmSession, DrmSessionManager.selectSlot,
    if_neg h.1, hcached, hslot]

/-- A call for an uncached key takes the slot of the choice and leaves the others alone. -/
theorem result_some (h : m.Uncached c.helper) {slot : Nat} (hslot : m.oldestSlot = some slot) :
    (c.result build m).selectedSlot = some slot ∧
      ∀ i, i ≠ slot → (c.result build m).manager.cachedKeyIDs i = m.cachedKeyIDs i ∧
        (c.result build m).manager.drmSessionContexts i = m.drmSessionContexts i := by
  have hcached : m.cachedSlot c.helper.getKey = none := DrmSessionManager.cachedSlot_none.mpr h.2
  simp only [Call.result, DrmSessionManager.getDrmSession, DrmSessionManager.selectSlot,
    if_neg h.1, hcached, hslot, true_and]
  intro i hi
  obtain ⟨hkeys, hcontexts⟩ := openSession_other build
    ((m.fill slot c.helper.keyIdArrays).touch slot c.now c.isPrimarySession) c.helper c.fresh
    c.wait hi
  rw [hkeys, hcontexts]
  simp [DrmSessionManager.touch, DrmSessionManager.fill, hi]

/-- The slot of the choice is not primary exactly when the primary ones are guarded. -/
theorem oldestSlot_secondary_iff {slot : Nat} (hslot : m.oldestSlot = some slot) :
    ¬ m.IsPrimary slot ↔ Guarded m := by
  obtain ⟨first, hfirst, hbefore, hleft⟩ := DrmSessionManager.oldestSlot_leftmost hslot
  have hbehind : ∀ {i}, ¬ m.IsPrimary i → first ≤ i := fun hi =>
    Nat.le_of_not_lt fun hlt => hi (hbefore _ hlt)
  constructor
  · rintro hsecondary i hi hprimary ⟨j, hji, hj⟩
    have hle : first ≤ i := Nat.le_trans (hbehind hj) (Nat.le_of_lt hji)
    have hne : i ≠ slot := fun heq => hsecondary (heq ▸ hprimary)
    exact ⟨slot, hleft.lt, hsecondary, hleft.before hle hi hne⟩
  · intro hguarded hprimary
    have hlt : first < slot :=
      Nat.lt_of_le_of_ne hleft.ge fun heq => hfirst (heq ▸ hprimary)
    obtain ⟨j, hj, hsecondary, hearlier⟩ := hguarded slot hleft.lt hprimary ⟨first, hlt, hfirst⟩
    exact hleft.not_before (hbehind hsecondary) hj hearlier

theorem sparesPrimary_iff (h : m.Uncached c.helper) : SparesPrimary build m c ↔ Guarded m := by
  cases hslot : m.oldestSlot with
  | none =>
      have hall := DrmSessionManager.oldestSlot_none.mp hslot
      have hresult := @result_none build m c h hslot
      refine iff_of_true ⟨fun _ _ _ => by rw [hresult]; exact ⟨rfl, rfl⟩, fun _ => hresult, ?_⟩ ?_
      · rintro ⟨i, hi, hsecondary⟩
        exact absurd (hall i hi) hsecondary
      · rintro i hi - ⟨j, hji, hj⟩
        exact absurd (hall j (Nat.lt_trans hji hi)) hj
  | some slot =>
      obtain ⟨first, hfirst, hbefore, hleft⟩ := DrmSessionManager.oldestSlot_leftmost hslot
      obtain ⟨hselected, hothers⟩ := @result_some build m c h slot hslot
      have hfirstlt : first < m.mMaxDRMSessions := Nat.lt_of_le_of_lt hleft.ge hleft.lt
      rw [← oldestSlot_secondary_iff hslot]
      constructor
      · intro hspares
        obtain ⟨slot', -, hslot', hsecondary, -⟩ := hspares.selected ⟨first, hfirstlt, hfirst⟩
        obtain rfl := Option.some.inj (hselected.symm.trans hslot')
        exact hsecondary
      · intro hsecondary
        refine ⟨fun i _ hi => hothers i fun heq => hsecondary (heq ▸ hi), fun hall => ?_, fun _ => ?_⟩
        · exact absurd (hall first hfirstlt) hfirst
        · refine ⟨slot, hleft.lt, hselected, hsecondary, fun i hi hsec => hleft.least i ?_ hi⟩
          exact Nat.le_of_not_lt fun hlt => hsec (hbefore i hlt)

end

/-! ## Runs -/

/-- In a run of a fresh manager every call for an uncached key spares the primary slots
exactly when they are guarded whenever such a call comes. -/
theorem sparesPrimary_run_iff (build : BuildConfig) (maxSessions : Nat) (calls : List Call) :
    (callSystem build).RunOk (fun m c => m.Uncached c.helper → SparesPrimary build m c)
        { mMaxDRMSessions := maxSessions } calls ↔
      (callSystem build).RunOk (fun m c => m.Uncached c.helper → Guarded m)
        { mMaxDRMSessions := maxSessions } calls :=
  System.runOk_iff_of_invariant
    (fun (m : DrmSessionManager) (c : Call) (_ : True) =>
      forall_congr' fun h : m.Uncached c.helper => sparesPrimary_iff h)
    (fun _ _ _ _ _ _ => trivial) trivial calls

namespace PrimaryEvicted

def call (key : UInt8) (now : Int) (isPrimarySession : Bool) : Call where
  helper :=
    { ocdmSystemId := "com.widevine.alpha", getKey := [key], getKeys := [[key]]
      key_mem := Or.inr List.mem_cons_self }
  now := now
  isPrimarySession := isPrimarySession
  fresh := .KEY_READY
  wait := .reached

/-- The slot of key 1 is used again, so the primary slot behind it is the older one. -/
def calls : List Call := [call 1 10 false, call 2 20 true, call 1 30 false, call 3 40 false]

end PrimaryEvicted

theorem primary_slot_evicted :
    ¬ ∀ (build : BuildConfig) (maxSessions : Nat) (calls : List Call),
      calls.Pairwise (fun c c' => c.now ≤ c'.now) →
      (callSystem build).RunOk (fun m c => m.Uncached c.helper → SparesPrimary build m c)
        { mMaxDRMSessions := maxSessions } calls := by
  intro h
  have hrun := h ⟨true, true⟩ 2 PrimaryEvicted.calls (by decide)
  obtain ⟨hspares, -⟩ := ((hrun _ rfl).2 _ rfl).2 _ rfl |>.2 _ rfl
  obtain ⟨hkept, -⟩ := (hspares ⟨by decide, by decide⟩).kept 1 (by decide) rfl
  exact absurd (congrArg KeyID.data hkept) (by decide)

end PlayerInterface.Drm
