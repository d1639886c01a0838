import PlayerInterface.Drm.Calls

/-!
# Key ids and slots

A lookup takes the first slot that has the requested key, and a slot is filled
with all keys of a helper. Nothing removes those keys from other slots, so two
slots share a key id exactly when some helper brought one that was cached
elsewhere.
-/

namespace PlayerInterface.Drm

open PlayerInterface.Core

/-- No key id is cached in two slots. -/
def Unique (m : DrmSessionManager) : Prop :=
  ∀ i < m.mMaxDRMSessions, ∀ j < m.mMaxDRMSessions, i ≠ j →
    ∀ k ∈ (m.cachedKeyIDs i).data, k ∉ (m.cachedKeyIDs j).data

/-- A call that fills a slot brings only key ids that no other slot has. -/
def BringsNew (s : State) (a : Act) : Prop :=
  ∀ helper slot, Fills s a helper slot →
    ∀ j < s.manager.mMaxDRMSessions, j ≠ slot →
      ∀ k ∈ helper.keyIdArrays, k ∉ (s.manager.cachedKeyIDs j).data

theorem Unique.shrink {m m' : DrmSessionManager} (hu : Unique m) (hs : Shrinks m m') :
    Unique m' := by
  intro i hi j hj hij k hki hkj
  have h₁ := hs i hi k hki
  have h₂ := hs j hj k hkj
  exact hu i h₁.1 j h₂.1 hij k h₁.2 h₂.2

/-- A slot taken over keeps uniqueness exactly when its new ids are nowhere else. -/
theorem unique_fill_iff {m m' : DrmSessionManager} (hu : Unique m) {slot : Nat}
    {ids : List KeyIdBytes} (hslot : slot < m.mMaxDRMSessions)
    (hmax : m'.mMaxDRMSessions = m.mMaxDRMSessions)
    (hdata : ∀ i, (m'.cachedKeyIDs i).data = if i = slot then ids else (m.cachedKeyIDs i).data) :
    Unique m' ↔
      ∀ j < m.mMaxDRMSessions, j ≠ slot → ∀ k ∈ ids, k ∉ (m.cachedKeyIDs j).data := by
  constructor
  · intro hu' j hj hne k hk hkj
    have hks : k ∈ (m'.cachedKeyIDs slot).data := by
      rw [hdata, if_pos rfl]
      exact hk
    apply hu' slot (hmax ▸ hslot) j (hmax ▸ hj) (Ne.symm hne) k hks
    rw [hdata, if_neg hne]
    exact hkj
  · intro hnew i hi j hj hij k hki hkj
    rw [hmax] at hi hj
    rw [hdata] at hki hkj
    by_cases hi' : i = slot
    · rw [if_pos hi'] at hki
      rw [if_neg fun hj' => hij (hi'.trans hj'.symm)] at hkj
      exact hnew j hj (fun hj' => hij (hi'.trans hj'.symm)) k hki hkj
    · rw [if_neg hi'] at hki
      by_cases hj' : j = slot
      · rw [if_pos hj'] at hkj
        exact hnew i hi hi' k hkj hki
      · rw [if_neg hj'] at hkj
        exact hu i hi j hj hij k hki hkj

theorem cleared_call {m m' : DrmSessionManager} {a : Act} (h : m.cleared a = some m') :
    a.call = none := by
  cases a <;> first | rfl | cases h

/-- A call that takes a slot for an uncached key replaces the ids of that slot. -/
theorem Fills.data {build : BuildConfig} {s t : State} {a : Act} {helper : DrmHelper} {slot : Nat}
    (hf : Fills s a helper slot) (h : sessionStep build s a = some t) :
    t.manager.mMaxDRMSessions = s.manager.mMaxDRMSessions ∧
      ∀ i, (t.manager.cachedKeyIDs i).data =
        if i = slot then helper.keyIdArrays else (s.manager.cachedKeyIDs i).data := by
  rcases hf with ⟨⟨create, hcall, hactive⟩, hkey, huncached, holdest⟩
  cases sessionStep_cases h with
  | refused hs =>
      cases hcall
      rw [hactive rfl] at hs
      cases hs
  | @started _ helper' now p create' r hp hcall' hactive' =>
      cases hcall'.symm.trans hcall
      rcases select_data s helper now p create with ⟨hmax, hkeep | ⟨slot', _, _, ho, hfill⟩⟩
      · have hsel : s.manager.selectSlot helper now p =
            (some slot, (s.manager.fill slot helper.keyIdArrays).touch slot now p) := by
          simp only [DrmSessionManager.selectSlot, if_neg hkey, huncached, holdest]
        refine ⟨hmax, fun i => ?_⟩
        simp [State.select, hsel]
      · cases ho.symm.trans holdest
        exact ⟨hmax, hfill⟩
  | cleared hm _ =>
      rw [cleared_call hm] at hcall
      cases hcall
  | _ => cases hcall

/-- A step keeps uniqueness exactly when the helper of a filled slot brings new ids. -/
theorem unique_step_iff {build : BuildConfig} {s t : State} {a : Act} (hu : Unique s.manager)
    (h : sessionStep build s a = some t) : Unique t.manager ↔ BringsNew s a := by
  constructor
  · intro hu' helper slot hf
    have hdata := hf.data h
    exact (unique_fill_iff hu (DrmSessionManager.oldestSlot_lt hf.oldest) hdata.1 hdata.2).mp hu'
  · intro hnew
    rcases sessionStep_data h with hshrink | ⟨helper, slot, hf, hmax, hdata⟩
    · exact hu.shrink hshrink
    · have hslot := DrmSessionManager.oldestSlot_lt hf.oldest
      exact (unique_fill_iff hu hslot hmax hdata).mpr (hnew helper slot hf)

/-- In a run of a fresh manager no key id is ever in two slots exactly when
every helper that fills a slot brings only ids that no other slot has. -/
theorem unique_run_iff (build : BuildConfig) (maxSessions : Nat) (as : List Act) :
    (sessionSystem build).RunAll (fun s => Unique s.manager)
        { manager := { mMaxDRMSessions := maxSessions } } as ↔
      (sessionSystem build).RunOk BringsNew { manager := { mMaxDRMSessions := maxSessions } } as :=
  System.runAll_iff_runOk (fun _ _ _ hu h => unique_step_iff hu h)
    (fun _ _ _ _ _ _ hk => absurd hk List.not_mem_nil) as

/-- Two helpers with a common key, one after the other. -/
def sharedKeyRun : List Act :=
  let helper (key : UInt8) : DrmHelper :=
    { ocdmSystemId := "com.widevine.alpha", getKey := [key], getKeys := [[key], [3]],
      key_mem := by simp }
  [.getDrmSession (helper 1) 10 false, .openSession .KEY_INIT .reached,
    .getDrmSession (helper 2) 20 false, .openSession .KEY_INIT .reached]

theorem sharedKey_in_two_slots : ¬ ∀ (build : BuildConfig) (s : State),
    (sessionSystem build).Reachable s → Unique s.manager := by
  intro hall
  have hrun : ((sessionSystem ⟨true, true⟩).run { manager := { mMaxDRMSessions := 2 } }
      sharedKeyRun).map (fun s => (s.manager.mMaxDRMSessions, (s.manager.cachedKeyIDs 0).data,
        (s.manager.cachedKeyIDs 1).data)) = some (2, [[1], [3]], [[2], [3]]) := by decide
  rcases Option.map_eq_some_iff.mp hrun with ⟨s, hs, hdata⟩
  simp only [Prod.mk.injEq] at hdata
  have hinit : (sessionSystem ⟨true, true⟩).init { manager := { mMaxDRMSessions := 2 } } := ⟨2, rfl⟩
  have hreach := System.reachable_of_run hinit hs
  refine hall ⟨true, true⟩ s hreach 0 (by omega) 1 (by omega) (by decide) [3] ?_ ?_
  · rw [hdata.2.1]
    decide
  · rw [hdata.2.2]
    decide

end PlayerInterface.Drm
