import PlayerInterface.Drm.SessionReuse

/-!
# What a processed key id promises

`IsKeyIdProcessed` answers from the cached ids and the failure mark alone. The
answer is right when every exit that leaves a slot without a usable session has
marked the slot, and when nothing takes the session of an unmarked slot away.
-/

namespace PlayerInterface.Drm

open PlayerInterface.Core

/-- A key id reported as processed with success has a live session in the first
slot that caches it. -/
def Faithful (m : DrmSessionManager) : Prop :=
  ∀ key, m.IsKeyIdProcessed key = some true →
    ∃ slot session, m.cachedSlot key = some slot ∧
      (m.drmSessionContexts slot).drmSession = some session ∧ session.state.isError = false

/-- No null session was used and, between calls, processed keys are reported
faithfully; a call that has just returned null left its key failed or unknown. -/
structure ReportsFaithfully (s : State) : Prop where
  notCrashed : s.point ≠ .crashed
  faithful : ∀ r, s.point = .idle r → Faithful s.manager
  nullReturned : ∀ key, s.point = .idle (some ⟨key, true⟩) →
    s.manager.IsKeyIdProcessed key ≠ some true

/-- A session that `createDrmSession` has opened and still works on. -/
def State.Holds (s : State) (slot : Nat) : Prop :=
  ∃ helper, s.point = .opened helper slot ∨ s.point = .initialised helper slot

/-- The factory makes sessions a call can go on with, and no session is deleted
that a call works on or that an unmarked slot with cached ids holds. -/
structure OutcomeKept (build : BuildConfig) (s : State) (a : Act) : Prop where
  made : ∀ helper slot create fresh wait, s.point = .selected helper slot create →
    a = .openSession fresh wait → s.manager.Builds helper slot →
    DrmSessionFactory.GetDrmSession build helper fresh ≠ none ∧ fresh.isError = false ∧
      (create = true → fresh ≠ .KEY_PENDING)
  forced : a = .clearDrmSession true → (∀ slot, ¬ s.Holds slot) ∧
    ∀ i < s.manager.mMaxDRMSessions, (s.manager.drmSessionContexts i).drmSession ≠ none →
      (s.manager.cachedKeyIDs i).isFailedKeyId = true ∨ (s.manager.cachedKeyIDs i).data = [] ∨
        ∃ helper create, s.point = .selected helper i create
  emptied : a = .clearSessionData → ∀ slot, ¬ s.Holds slot

/-! ## Looking a key up -/

theorem cachedSlot_eq_some {m : DrmSessionManager} {key : KeyIdBytes} {slot : Nat} :
    m.cachedSlot key = some slot ↔ slot < m.mMaxDRMSessions ∧
      key ∈ (m.cachedKeyIDs slot).data ∧ ∀ j < slot, key ∉ (m.cachedKeyIDs j).data := by
  unfold DrmSessionManager.cachedSlot
  rw [List.find?_range_eq_some]
  simp only [List.mem_range, Bool.not_eq_true', List.contains_eq_mem, decide_eq_true_eq,
    decide_eq_false_iff_not]
  exact and_left_comm

/-- The lookup only depends on the cached ids. -/
theorem cachedSlot_congr {m m' : DrmSessionManager} (hmax : m'.mMaxDRMSessions = m.mMaxDRMSessions)
    (hdata : ∀ i, (m'.cachedKeyIDs i).data = (m.cachedKeyIDs i).data) (key : KeyIdBytes) :
    m'.cachedSlot key = m.cachedSlot key := by
  unfold DrmSessionManager.cachedSlot
  rw [hmax]
  simp only [hdata]

/-- A key looked up to a slot that keeps its ids is looked up to it again when
other slots lose theirs. -/
theorem cachedSlot_shrink {m m' : DrmSessionManager}
    (hmax : m'.mMaxDRMSessions = m.mMaxDRMSessions)
    (hdata : ∀ i, (m'.cachedKeyIDs i).data = (m.cachedKeyIDs i).data ∨
      (m'.cachedKeyIDs i).data = []) {key : KeyIdBytes} {slot : Nat}
    (h : m.cachedSlot key = some slot)
    (hslot : (m'.cachedKeyIDs slot).data = (m.cachedKeyIDs slot).data) :
    m'.cachedSlot key = some slot := by
  rcases cachedSlot_eq_some.mp h with ⟨hlt, hmem, hbefore⟩
  refine cachedSlot_eq_some.mpr ⟨hmax ▸ hlt, hslot ▸ hmem, fun j hj => ?_⟩
  rcases hdata j with hkeep | hnil
  · rw [hkeep]
    exact hbefore j hj
  · rw [hnil]
    exact List.not_mem_nil

theorem cachedSlot_shrink_none {m m' : DrmSessionManager} (h : Shrinks m m') {key : KeyIdBytes}
    (hnone : m.cachedSlot key = none) : m'.cachedSlot key = none := by
  apply DrmSessionManager.cachedSlot_none.mpr
  intro i hi hmem
  have hbefore := h i hi key hmem
  exact DrmSessionManager.cachedSlot_none.mp hnone i hbefore.1 hbefore.2

/-- The key is cached in no slot before this one. -/
def FirstSlot (m : DrmSessionManager) (key : KeyIdBytes) (slot : Nat) : Prop :=
  m.cachedSlot key = some slot ∨ m.cachedSlot key = none

theorem FirstSlot.congr {m m' : DrmSessionManager} {key : KeyIdBytes} {slot : Nat}
    (h : FirstSlot m key slot) (hmax : m'.mMaxDRMSessions = m.mMaxDRMSessions)
    (hdata : ∀ i, (m'.cachedKeyIDs i).data = (m.cachedKeyIDs i).data) :
    FirstSlot m' key slot := by
  unfold FirstSlot
  rw [cachedSlot_congr hmax hdata]
  exact h

/-- A key whose slot is marked is not reported as processed with success. -/
theorem FirstSlot.marked {m : DrmSessionManager} {key : KeyIdBytes} {slot : Nat}
    (h : FirstSlot m key slot) (hfailed : (m.cachedKeyIDs slot).isFailedKeyId = true) :
    m.IsKeyIdProcessed key ≠ some true := by
  unfold DrmSessionManager.IsKeyIdProcessed
  rcases h with hslot | hnone
  · rw [hslot]
    simp [hfailed]
  · rw [hnone]
    simp

/-! ## The invariant -/

/-- The slot and the key of the call under way. -/
def State.InFlight (s : State) (helper : DrmHelper) (slot : Nat) : Prop :=
  (∃ create, s.point = .selected helper slot create) ∨ s.point = .opened helper slot ∨
    s.point = .initialised helper slot

theorem State.InFlight.slot_eq {s : State} {helper helper' : DrmHelper} {slot slot' : Nat}
    (h : s.InFlight helper slot) (h' : s.InFlight helper' slot') :
    helper' = helper ∧ slot' = slot := by
  rcases h with ⟨create, hp⟩ | hp | hp <;> rcases h' with ⟨create', hp'⟩ | hp' | hp' <;>
    rw [hp] at hp' <;> cases hp' <;> exact ⟨rfl, rfl⟩

theorem State.not_inFlight {s : State} {r : Option Returned} (hp : s.point = .idle r)
    (helper : DrmHelper) (slot : Nat) : ¬ s.InFlight helper slot := by
  intro h
  rcases h with ⟨create, hp'⟩ | hp' | hp' <;> rw [hp] at hp' <;> cases hp'

theorem State.Holds.inFlight {s : State} {slot : Nat} (h : s.Holds slot) :
    ∃ helper, s.InFlight helper slot := by
  rcases h with ⟨helper, hp | hp⟩
  · exact ⟨helper, Or.inr (Or.inl hp)⟩
  · exact ⟨helper, Or.inr (Or.inr hp)⟩

/-- An unmarked slot with cached ids has a live session. -/
def DrmSessionManager.LiveSlot (m : DrmSessionManager) (i : Nat) : Prop :=
  i < m.mMaxDRMSessions → (m.cachedKeyIDs i).data ≠ [] →
    (m.cachedKeyIDs i).isFailedKeyId = false →
    ∃ session, (m.drmSessionContexts i).drmSession = some session ∧ session.state.isError = false

/-- Every slot but that of the call under way is live; the call's slot is
unmarked, is the one its key is looked up to, and has a session once opened. -/
structure OutcomeInv (s : State) : Prop where
  notCrashed : s.point ≠ .crashed
  live : ∀ i, s.manager.LiveSlot i ∨ ∃ helper, s.InFlight helper i
  held : ∀ slot, s.Holds slot → (s.manager.drmSessionContexts slot).drmSession ≠ none
  unmarked : ∀ helper slot, s.InFlight helper slot →
    (s.manager.cachedKeyIDs slot).isFailedKeyId = false
  first : ∀ helper slot, s.InFlight helper slot → FirstSlot s.manager helper.getKey slot
  nullReturned : ∀ key, s.point = .idle (some ⟨key, true⟩) →
    s.manager.IsKeyIdProcessed key ≠ some true

theorem OutcomeInv.reportsFaithfully {s : State} (h : OutcomeInv s) : ReportsFaithfully s where
  notCrashed := h.notCrashed
  nullReturned := h.nullReturned
  faithful r hp key hproc := by
    unfold DrmSessionManager.IsKeyIdProcessed at hproc
    rcases Option.map_eq_some_iff.mp hproc with ⟨slot, hslot, hfailed⟩
    rcases DrmSessionManager.cachedSlot_some hslot with ⟨hlt, hmem⟩
    rcases h.live slot with hlive | ⟨helper, hflight⟩
    · rcases hlive hlt (List.ne_nil_of_mem hmem) (by simpa using hfailed) with
        ⟨session, hsession, hstate⟩
      exact ⟨slot, session, hslot, hsession, hstate⟩
    · exact absurd hflight (State.not_inFlight hp helper slot)

theorem OutcomeInv.idle {m : DrmSessionManager} {r : Option Returned}
    (hlive : ∀ i, m.LiveSlot i)
    (hnull : ∀ key, r = some ⟨key, true⟩ → m.IsKeyIdProcessed key ≠ some true) :
    OutcomeInv { manager := m, point := .idle r } where
  notCrashed := Point.noConfusion
  live i := Or.inl (hlive i)
  held slot hheld := by
    rcases hheld.inFlight with ⟨helper, hflight⟩
    exact absurd hflight (State.not_inFlight rfl helper slot)
  unmarked helper slot hflight := absurd hflight (State.not_inFlight rfl helper slot)
  first helper slot hflight := absurd hflight (State.not_inFlight rfl helper slot)
  nullReturned key hp := by
    cases hp
    exact hnull key rfl

theorem OutcomeInv.inFlight {s : State} {helper : DrmHelper} {slot : Nat}
    (hflight : s.InFlight helper slot)
    (hlive : ∀ i, i ≠ slot → s.manager.LiveSlot i)
    (hheld : s.Holds slot → (s.manager.drmSessionContexts slot).drmSession ≠ none)
    (hunmarked : (s.manager.cachedKeyIDs slot).isFailedKeyId = false)
    (hfirst : FirstSlot s.manager helper.getKey slot) : OutcomeInv s where
  notCrashed hp := by
    rcases hflight with ⟨create, hp'⟩ | hp' | hp' <;> rw [hp] at hp' <;> cases hp'
  live i := by
    by_cases hi : i = slot
    · exact Or.inr ⟨helper, hi ▸ hflight⟩
    · exact Or.inl (hlive i hi)
  held slot' hholds := by
    rcases hholds.inFlight with ⟨helper', hflight'⟩
    rcases hflight.slot_eq hflight' with ⟨-, rfl⟩
    exact hheld hholds
  unmarked helper' slot' hflight' := by
    rcases hflight.slot_eq hflight' with ⟨-, rfl⟩
    exact hunmarked
  first helper' slot' hflight' := by
    rcases hflight.slot_eq hflight' with ⟨rfl, rfl⟩
    exact hfirst
  nullReturned key hp := absurd hflight (State.not_inFlight hp helper slot)

theorem OutcomeInv.live_of_idle {s : State} (h : OutcomeInv s) {r : Option Returned}
    (hp : s.point = .idle r) (i : Nat) : s.manager.LiveSlot i := by
  rcases h.live i with hlive | ⟨helper, hflight⟩
  · exact hlive
  · exact absurd hflight (State.not_inFlight hp helper i)

theorem OutcomeInv.live_other {s : State} (h : OutcomeInv s) {helper : DrmHelper} {slot : Nat}
    (hflight : s.InFlight helper slot) {i : Nat} (hi : i ≠ slot) : s.manager.LiveSlot i := by
  rcases h.live i with hlive | ⟨helper', hflight'⟩
  · exact hlive
  · exact absurd (hflight.slot_eq hflight').2 hi

/-- A slot is live as long as neither of its cells changes. -/
theorem DrmSessionManager.LiveSlot.congr {m m' : DrmSessionManager} {i : Nat} (h : m.LiveSlot i)
    (hmax : m'.mMaxDRMSessions = m.mMaxDRMSessions)
    (hdata : (m'.cachedKeyIDs i).data = (m.cachedKeyIDs i).data)
    (hfailed : (m'.cachedKeyIDs i).isFailedKeyId = (m.cachedKeyIDs i).isFailedKeyId)
    (hsession : (m'.drmSessionContexts i).drmSession = (m.drmSessionContexts i).drmSession) :
    m'.LiveSlot i := by
  unfold DrmSessionManager.LiveSlot
  rw [hmax, hdata, hfailed, hsession]
  exact h

/-! ## The sections of a call -/

/-- The outcome of the session section when the factory delivers: a session that
is no error and the code of its state, or `KEY_ERROR` and a marked slot. -/
theorem openSession_outcome (build : BuildConfig) (m : DrmSessionManager) (helper : DrmHelper)
    (slot : Nat) (fresh : KeyState) (wait : DrmSessionManager.WaitResult)
    (hmade : m.Builds helper slot → DrmSessionFactory.GetDrmSession build helper fresh ≠ none ∧
      fresh.isError = false) :
    let r := m.openSession build helper slot fresh wait
    (∃ session, (r.2.drmSessionContexts slot).drmSession = some session ∧
      session.state.isError = false ∧ r.2.cachedKeyIDs = m.cachedKeyIDs ∧
      (r.1 = .KEY_READY ∨ r.1 = .KEY_INIT ∨ (m.Builds helper slot ∧ r.1 = fresh))) ∨
    (r.1 = .KEY_ERROR ∧ (r.2.cachedKeyIDs slot).isFailedKeyId = true) := by
  intro r
  have hopens : DrmSessionManager.Opens build m helper slot fresh r :=
    m.openSession_opens build helper slot fresh wait
  clear_value r
  cases hopens with
  | builds hbuilds =>
      rcases hmade hbuilds with ⟨hsome, herror⟩
      rcases Option.ne_none_iff_exists'.mp hsome with ⟨made, hg⟩
      have hstate : made.state = fresh := by
        unfold DrmSessionFactory.GetDrmSession at hg
        dsimp only at hg
        split_ifs at hg <;> cases hg <;> rfl
      have hcreate : m.createSession build helper slot fresh =
          (made.state, m.setContext slot { data := helper.getKey, drmSession := made }) := by
        unfold DrmSessionManager.createSession
        rw [hg]
      rw [hcreate]
      exact Or.inl ⟨made, by simp, hstate ▸ herror, rfl, Or.inr (Or.inr ⟨hbuilds, hstate⟩)⟩
  | keeps session r hsession _ _ hkeeps =>
      cases hkeeps with
      | ready hstate =>
          exact Or.inl ⟨session, hsession, by rw [hstate]; rfl, rfl, Or.inl rfl⟩
      | init hstate =>
          exact Or.inl ⟨session, hsession, by rw [hstate]; rfl, rfl, Or.inr (Or.inl rfl)⟩
      | reached =>
          refine Or.inl ⟨{ session with state := .KEY_READY }, ?_, rfl, rfl, Or.inl rfl⟩
          rw [m.setState_drmSession, if_pos rfl, hsession]
          rfl
      | assumed hstate =>
          exact Or.inl ⟨session, hsession, by rw [hstate]; rfl, rfl, Or.inl rfl⟩
      | missed st => exact Or.inr ⟨rfl, by simp⟩
      | failed => exact Or.inr ⟨rfl, by simp⟩

/-- The session section works on its slot alone. -/
theorem openSession_other (build : BuildConfig) (m : DrmSessionManager) (helper : DrmHelper)
    {slot i : Nat} (fresh : KeyState) (wait : DrmSessionManager.WaitResult) (hi : i ≠ slot) :
    (m.openSession build helper slot fresh wait).2.cachedKeyIDs i = m.cachedKeyIDs i ∧
      (m.openSession build helper slot fresh wait).2.drmSessionContexts i =
        m.drmSessionContexts i := by
  have hopens := m.openSession_opens build helper slot fresh wait
  generalize m.openSession build helper slot fresh wait = r at hopens
  cases hopens with
  | builds _ =>
      exact ⟨by rw [(m.createSession_cachedKeyIDs build helper slot fresh).1],
        createSession_other build m helper fresh hi⟩
  | keeps session r _ _ _ hkeeps =>
      cases hkeeps <;> simp [DrmSessionManager.setState, DrmSessionManager.markFailed, hi]

theorem OutcomeInv.select {s : State} (h : OutcomeInv s) {r : Option Returned}
    (hp : s.point = .idle r) (helper : DrmHelper) (now : Int) (p create : Bool) :
    OutcomeInv (s.select helper now p create) := by
  have hlive := h.live_of_idle hp
  unfold State.select
  rcases s.manager.selectSlot_cases helper now p with hnone | ⟨slot, hc, hunmarked, hsel⟩ |
    ⟨slot, hkey, hc, ho, hsel⟩
  · rw [hnone]
    exact .idle hlive fun _ hr => by cases hr
  · rw [hsel]
    apply OutcomeInv.inFlight (Or.inl ⟨create, rfl⟩)
    · exact fun i _ => (hlive i).congr rfl (by simp) (by simp) rfl
    · rintro ⟨helper', hp' | hp'⟩ <;> cases hp'
    · simpa using hunmarked
    · exact FirstSlot.congr (Or.inl hc) rfl fun i => s.manager.touch_data slot now p i
  · have hlt := DrmSessionManager.oldestSlot_lt ho
    rw [hsel]
    apply OutcomeInv.inFlight (Or.inl ⟨create, rfl⟩)
    · exact fun i hi => (hlive i).congr rfl (by simp [hi]) (by simp [hi]) rfl
    · rintro ⟨helper', hp' | hp'⟩ <;> cases hp'
    · simp
    · refine Or.inl (cachedSlot_eq_some.mpr ⟨hlt, ?_, fun j hj => ?_⟩)
      · simpa using helper.getKey_mem
      · have hj' : j ≠ slot := Nat.ne_of_lt hj
        simpa [hj'] using DrmSessionManager.cachedSlot_none.mp hc j (Nat.lt_trans hj hlt)

/-- The exits that mark the slot of the call keep the invariant. -/
theorem OutcomeInv.fail {s : State} (h : OutcomeInv s) {helper : DrmHelper} {slot : Nat}
    (hflight : s.InFlight helper slot) (st : KeyState) :
    OutcomeInv (State.fail (s.manager.setState slot st) helper slot) := by
  unfold State.fail
  apply OutcomeInv.idle
  · intro i
    by_cases hi : i = slot
    · intro _ _ hunmarked
      simp [hi] at hunmarked
    · refine (h.live_other hflight hi).congr rfl (by simp) (by simp [hi]) ?_
      simp [DrmSessionManager.setState_drmSession, hi]
  · intro key hr
    cases hr
    have hfirst : FirstSlot ((s.manager.setState slot st).markFailed slot) helper.getKey slot :=
      (h.first helper slot hflight).congr rfl fun i => by simp
    exact hfirst.marked (by simp)

theorem OutcomeInv.opened {build : BuildConfig} {s : State} (h : OutcomeInv s) {helper : DrmHelper}
    {slot : Nat} {create : Bool} (hp : s.point = .selected helper slot create)
    {fresh : KeyState} {wait : DrmSessionManager.WaitResult}
    (hk : OutcomeKept build s (.openSession fresh wait)) :
    OutcomeInv { manager := (s.manager.openSession build helper slot fresh wait).2
                 point := .behind helper slot create
                   (s.manager.openSession build helper slot fresh wait).1 } := by
  have hflight : s.InFlight helper slot := Or.inl ⟨create, hp⟩
  have hmade := hk.made helper slot create fresh wait hp rfl
  have hdata := s.manager.openSession_data build helper slot fresh wait
  have hfirst := (h.first helper slot hflight).congr hdata.2 hdata.1
  have hother : ∀ i, i ≠ slot →
      (s.manager.openSession build helper slot fresh wait).2.LiveSlot i := by
    intro i hi
    have hsame := openSession_other build s.manager helper fresh wait hi
    exact (h.live_other hflight hi).congr hdata.2 (by rw [hsame.1]) (by rw [hsame.1])
      (by rw [hsame.2])
  rcases openSession_outcome build s.manager helper slot fresh wait
      (fun hb => ⟨(hmade hb).1, (hmade hb).2.1⟩) with
    ⟨session, hsession, hstate, hkeep, hcode⟩ | ⟨hcode, hfailed⟩
  · have hlive : ∀ i, (s.manager.openSession build helper slot fresh wait).2.LiveSlot i := by
      intro i
      by_cases hi : i = slot
      · exact fun _ _ _ => ⟨session, hi ▸ hsession, hstate⟩
      · exact hother i hi
    cases create with
    | false => exact .idle hlive fun _ hr => by cases hr
    | true =>
        have hcode' : (s.manager.openSession build helper slot fresh wait).1 = .KEY_READY ∨
            (s.manager.openSession build helper slot fresh wait).1 = .KEY_INIT := by
          rcases hcode with hready | hinit | ⟨hb, hfresh⟩
          · exact Or.inl hready
          · exact Or.inr hinit
          · rcases hmade hb with ⟨-, herror, hpending⟩
            rw [hfresh]
            cases fresh with
            | KEY_READY => exact Or.inl rfl
            | KEY_INIT => exact Or.inr rfl
            | KEY_PENDING => exact absurd rfl (hpending rfl)
            | _ => cases herror
        rcases hcode' with hready | hinit
        · rw [hready]
          exact .idle hlive fun _ hr => by cases hr
        · rw [hinit]
          apply OutcomeInv.inFlight (Or.inr (Or.inl rfl)) fun i _ => hlive i
          · intro _
            rw [hsession]
            exact Option.some_ne_none session
          · rw [hkeep]
            exact h.unmarked helper slot hflight
          · exact hfirst
  · have hlive : ∀ i, (s.manager.openSession build helper slot fresh wait).2.LiveSlot i := by
      intro i
      by_cases hi : i = slot
      · intro _ _ hunmarked
        rw [hi, hfailed] at hunmarked
        cases hunmarked
      · exact hother i hi
    rw [hcode]
    cases create with
    | false => exact .idle hlive fun _ hr => by cases hr
    | true =>
        apply OutcomeInv.idle hlive
        intro key hr
        cases hr
        exact hfirst.marked hfailed

/-! ## The clearing functions -/

theorem State.inFlight_clear {s : State} {m : DrmSessionManager} {helper : DrmHelper} {slot : Nat} :
    (s.clear m).InFlight helper slot ↔ s.InFlight helper slot := by
  unfold State.InFlight State.clear
  cases s.point <;> simp

theorem State.holds_clear {s : State} {m : DrmSessionManager} {slot : Nat} :
    (s.clear m).Holds slot ↔ s.Holds slot := by
  unfold State.Holds State.clear
  cases s.point <;> simp

/-- What a clearing function leaves alone for the invariant to stay. -/
theorem OutcomeInv.clear {s : State} (h : OutcomeInv s) {m : DrmSessionManager}
    (hlive : ∀ i, s.manager.LiveSlot i → m.LiveSlot i ∨ ∃ helper, s.InFlight helper i)
    (hheld : ∀ helper slot, s.InFlight helper slot → s.Holds slot →
      (s.manager.drmSessionContexts slot).drmSession ≠ none →
      (m.drmSessionContexts slot).drmSession ≠ none)
    (hslot : ∀ helper slot, s.InFlight helper slot →
      (s.manager.cachedKeyIDs slot).isFailedKeyId = false →
      FirstSlot s.manager helper.getKey slot →
      (m.cachedKeyIDs slot).isFailedKeyId = false ∧ FirstSlot m helper.getKey slot) :
    OutcomeInv (s.clear m) where
  notCrashed hp := by
    unfold State.clear at hp
    cases hs : s.point with
    | crashed => exact h.notCrashed hs
    | _ => simp [hs] at hp
  live i := by
    have hkept : m.LiveSlot i ∨ ∃ helper, s.InFlight helper i := by
      rcases h.live i with hi | hflight
      · exact hlive i hi
      · exact Or.inr hflight
    rcases hkept with hi | ⟨helper, hflight⟩
    · exact Or.inl hi
    · exact Or.inr ⟨helper, State.inFlight_clear.mpr hflight⟩
  held slot hholds := by
    have hbefore := State.holds_clear.mp hholds
    rcases hbefore.inFlight with ⟨helper, hflight⟩
    exact hheld helper slot hflight hbefore (h.held slot hbefore)
  unmarked helper slot hflight := by
    have hbefore := State.inFlight_clear.mp hflight
    exact (hslot helper slot hbefore (h.unmarked helper slot hbefore)
      (h.first helper slot hbefore)).1
  first helper slot hflight := by
    have hbefore := State.inFlight_clear.mp hflight
    exact (hslot helper slot hbefore (h.unmarked helper slot hbefore)
      (h.first helper slot hbefore)).2
  nullReturned key hp := by
    unfold State.clear at hp
    cases hs : s.point <;> simp [hs] at hp

theorem OutcomeInv.clearFailedKeyIds {s : State} (h : OutcomeInv s) :
    OutcomeInv (s.clear s.manager.clearFailedKeyIds) := by
  have hcell : ∀ i, (s.manager.cachedKeyIDs i).isFailedKeyId = false →
      (s.manager.clearFailedKeyIds.cachedKeyIDs i).data = (s.manager.cachedKeyIDs i).data ∧
        (s.manager.clearFailedKeyIds.cachedKeyIDs i).isFailedKeyId = false := by
    intro i hi
    unfold DrmSessionManager.clearFailedKeyIds
    by_cases hlt : i < s.manager.mMaxDRMSessions <;> simp [hlt, hi]
  have hmax : s.manager.clearFailedKeyIds.mMaxDRMSessions = s.manager.mMaxDRMSessions := rfl
  have hcleared : s.manager.cleared .clearFailedKeyIds = some s.manager.clearFailedKeyIds := rfl
  have hdata := fun i => (cleared_keep hcleared i).2
  apply h.clear
  · intro i hi
    refine Or.inl fun hlt hne hunmarked => ?_
    have hbefore : (s.manager.cachedKeyIDs i).isFailedKeyId = false := by
      cases hf : (s.manager.cachedKeyIDs i).isFailedKeyId with
      | false => rfl
      | true =>
          have hlt' : i < s.manager.mMaxDRMSessions := hlt
          simp [DrmSessionManager.clearFailedKeyIds, hlt', hf] at hne
    exact hi hlt ((hcell i hbefore).1 ▸ hne) hbefore
  · exact fun _ _ _ _ hsession => hsession
  · intro helper slot _ hunmarked hfirst
    refine ⟨(hcell slot hunmarked).2, ?_⟩
    rcases hfirst with hsome | hnone
    · exact Or.inl (cachedSlot_shrink hmax hdata hsome (hcell slot hunmarked).1)
    · exact Or.inr (cachedSlot_shrink_none (clearFailedKeyIds_shrinks s.manager) hnone)

theorem OutcomeInv.clearSessionData {build : BuildConfig} {s : State} (h : OutcomeInv s)
    (hk : OutcomeKept build s .clearSessionData) :
    OutcomeInv (s.clear s.manager.clearSessionData) := by
  have hempty : ∀ i < s.manager.mMaxDRMSessions,
      s.manager.clearSessionData.cachedKeyIDs i = {} := by
    intro i hi
    simp [DrmSessionManager.clearSessionData, hi]
  apply h.clear
  · intro i _
    refine Or.inl fun hlt hne => ?_
    rw [hempty i hlt] at hne
    exact absurd rfl hne
  · exact fun _ slot _ hholds => absurd hholds (hk.emptied rfl slot)
  · intro helper slot _ hunmarked _
    constructor
    · by_cases hlt : slot < s.manager.mMaxDRMSessions
      · rw [hempty slot hlt]
      · simpa [DrmSessionManager.clearSessionData, hlt] using hunmarked
    · apply Or.inr
      apply DrmSessionManager.cachedSlot_none.mpr
      intro i hi
      rw [hempty i hi]
      exact List.not_mem_nil

theorem OutcomeInv.clearDrmSession {build : BuildConfig} {s : State} (h : OutcomeInv s)
    {force : Bool} (hk : OutcomeKept build s (.clearDrmSession force)) :
    OutcomeInv (s.clear (s.manager.clearDrmSession force)) := by
  apply h.clear
  · intro i hi
    by_cases hexempt : ∃ helper, s.InFlight helper i
    · exact Or.inr hexempt
    · refine Or.inl fun hlt hne hunmarked => ?_
      rcases hi hlt hne hunmarked with ⟨session, hsession, hstate⟩
      have hunmarked' : (s.manager.cachedKeyIDs i).isFailedKeyId = false := hunmarked
      cases force with
      | false =>
          exact ⟨session, by simp [DrmSessionManager.clearDrmSession, hunmarked', hsession], hstate⟩
      | true =>
          rcases (hk.forced rfl).2 i hlt (by rw [hsession]; exact Option.some_ne_none session) with
            hmarked | hnil | ⟨helper, create, hp⟩
          · rw [hunmarked'] at hmarked
            cases hmarked
          · exact absurd hnil hne
          · exact absurd ⟨helper, Or.inl ⟨create, hp⟩⟩ hexempt
  · intro helper slot hflight hholds hsession
    cases force with
    | false =>
        have hunmarked := h.unmarked helper slot hflight
        simpa [DrmSessionManager.clearDrmSession, hunmarked] using hsession
    | true => exact absurd hholds ((hk.forced rfl).1 slot)
  · exact fun _ _ _ hunmarked hfirst => ⟨hunmarked, hfirst⟩

theorem OutcomeInv.cleared {build : BuildConfig} {s : State} (h : OutcomeInv s) {a : Act}
    {m : DrmSessionManager} (hm : s.manager.cleared a = some m)
    (hidle : ∀ n, a = .UpdateMaxDRMSessions n → ∃ r, s.point = .idle r)
    (hk : OutcomeKept build s a) : OutcomeInv (s.clear m) := by
  cases a with
  | setSessionMgrState state =>
      cases hm
      exact h.clear (fun i hi => Or.inl (hi.congr rfl rfl rfl rfl)) (fun _ _ _ _ hsome => hsome)
        fun _ _ _ hunmarked hfirst => ⟨hunmarked, hfirst.congr rfl fun _ => rfl⟩
  | clearFailedKeyIds =>
      cases hm
      exact h.clearFailedKeyIds
  | clearSessionData =>
      cases hm
      exact h.clearSessionData hk
  | clearDrmSession force =>
      cases hm
      exact h.clearDrmSession hk
  | UpdateMaxDRMSessions n =>
      cases hm
      rcases hidle n rfl with ⟨r, hp⟩
      apply h.clear
      · intro i hi
        by_cases hn : s.manager.mMaxDRMSessions ≠ n
        · exact Or.inl fun _ hne => by simp [DrmSessionManager.UpdateMaxDRMSessions, hn] at hne
        · exact Or.inl (by simpa only [DrmSessionManager.UpdateMaxDRMSessions, if_neg hn] using hi)
      · exact fun helper slot hflight => absurd hflight (State.not_inFlight hp helper slot)
      · exact fun helper slot hflight => absurd hflight (State.not_inFlight hp helper slot)
  | _ => cases hm

/-! ## Runs -/

theorem outcomeInv_step {build : BuildConfig} {s t : State} {a : Act} (h : OutcomeInv s)
    (hk : OutcomeKept build s a) (hstep : sessionStep build s a = some t) : OutcomeInv t := by
  cases sessionStep_cases hstep with
  | refused _ =>
      exact h.clear (fun i hi => Or.inl hi) (fun _ _ _ _ hsome => hsome)
        fun _ _ _ hunmarked hfirst => ⟨hunmarked, hfirst⟩
  | @started _ helper now p create r hp _ _ => exact h.select hp helper now p create
  | opened hp => exact h.opened hp hk
  | @nullInit state fake helper slot hp hnone =>
      exact absurd hnone (h.held slot ⟨helper, Or.inl hp⟩)
  | @initFailed state fake helper slot hp => exact h.fail (Or.inr (Or.inl hp)) state
  | @initialised fake helper slot hp hsome =>
      have hflight : s.InFlight helper slot := Or.inr (Or.inl hp)
      apply OutcomeInv.inFlight (Or.inr (Or.inr rfl))
      · intro i hi
        refine (h.live_other hflight hi).congr rfl rfl rfl ?_
        simp [DrmSessionManager.setState_drmSession, hi]
      · exact fun _ hnone => hsome ((setState_eq_none s.manager slot .KEY_INIT).mp hnone)
      · exact h.unmarked helper slot hflight
      · exact h.first helper slot hflight
  | @licenseFailed code valid helper slot hp => exact h.fail (Or.inr (Or.inr hp)) code
  | @nullLicense helper slot hp hnone => exact absurd hnone (h.held slot ⟨helper, Or.inr hp⟩)
  | @licensedNull helper slot hp hnone => exact absurd hnone (h.held slot ⟨helper, Or.inr hp⟩)
  | @licensed valid helper slot hp hsome =>
      have hflight : s.InFlight helper slot := Or.inr (Or.inr hp)
      refine .idle (fun i => ?_) fun _ hr => by cases hr
      by_cases hi : i = slot
      · rcases Option.ne_none_iff_exists'.mp hsome with ⟨session, hsession⟩
        intro _ _ _
        refine ⟨{ session with state := .KEY_READY }, ?_, rfl⟩
        rw [s.manager.setState_drmSession, if_pos hi, hsession]
        rfl
      · refine (h.live_other hflight hi).congr rfl rfl rfl ?_
        simp [DrmSessionManager.setState_drmSession, hi]
  | cleared hm hidle => exact h.cleared hm hidle hk

/-- A key whose session the factory did not make. -/
def unmadeRun : List Act :=
  let helper : DrmHelper :=
    { singleKeyHelper with ocdmSystemId := "com.widevine.alpha" }
  [.createDrmSession helper 10, .openSession .KEY_INIT .reached]

/-- What a call that returned null left its key reported as. -/
def nullAnswer (s : State) : Option (KeyIdBytes × Option Bool) :=
  match s.point with
  | .idle (some ⟨key, true⟩) => some (key, s.manager.IsKeyIdProcessed key)
  | _ => none

theorem ReportsFaithfully.answer {s : State} (h : ReportsFaithfully s) {key : KeyIdBytes}
    {status : Option Bool} (ha : nullAnswer s = some (key, status)) : status ≠ some true := by
  unfold nullAnswer at ha
  split at ha
  · rename_i hp
    cases ha
    exact h.nullReturned _ hp
  · cases ha

end PlayerInterface.Drm
