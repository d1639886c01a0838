import PlayerInterface.Drm.SessionManager

/-!
# Calls of the session manager

`createDrmSession` holds `mDrmSessionLock`, so one call is under way at a time;
the clearing functions do not take that lock and may run between any two of its
sections. A label names a section or a clearing function together with what the
environment answers.
-/

namespace PlayerInterface.Drm

open PlayerInterface.Core

/-- What `createDrmSession` returned for a key it had selected a slot for. -/
structure Returned where
  key : KeyIdBytes
  isNull : Bool
deriving DecidableEq, Repr

/-- Where the call under way stands. -/
inductive Point where
  | idle (returned : Option Returned)
  /-- behind the key section of `getDrmSession`; `create` when `createDrmSession` called it -/
  | selected (helper : DrmHelper) (slot : Nat) (create : Bool)
  /-- behind a `getDrmSession` that returned `KEY_INIT` to `createDrmSession` -/
  | opened (helper : DrmHelper) (slot : Nat)
  /-- behind `initializeDrmSession`, before the license callback -/
  | initialised (helper : DrmHelper) (slot : Nat)
  /-- a null session was dereferenced -/
  | crashed

structure State where
  manager : DrmSessionManager
  point : Point := .idle none

inductive Act where
  | createDrmSession (helper : DrmHelper) (now : Int)
  | getDrmSession (helper : DrmHelper) (now : Int) (isPrimarySession : Bool)
  | openSession (fresh : KeyState) (wait : DrmSessionManager.WaitResult)
  | initializeDrmSession (state : KeyState) (mIsFakeTune : Bool)
  | AcquireLicenseCb (code : KeyState) (isSessionValid : Bool)
  | setSessionMgrState (state : SessionMgrState)
  | clearFailedKeyIds
  | clearSessionData
  | clearDrmSession (forceClearSession : Bool)
  | UpdateMaxDRMSessions (maxSessions : Nat)

/-- The start of a call, up to the end of the key section. -/
def State.select (s : State) (helper : DrmHelper) (now : Int) (isPrimarySession create : Bool) :
    State :=
  match s.manager.selectSlot helper now isPrimarySession with
  | (none, m) => { manager := m, point := .idle none }
  | (some slot, m) => { manager := m, point := .selected helper slot create }

/-- The exits of `createDrmSession` that mark the slot as failed. -/
def State.fail (m : DrmSessionManager) (helper : DrmHelper) (slot : Nat) : State :=
  { manager := m.markFailed slot, point := .idle (some ⟨helper.getKey, true⟩) }

/-- A clearing function leaves the call under way where it is. -/
def State.clear (s : State) (m : DrmSessionManager) : State :=
  { manager := m
    point := match s.point with
      | .idle _ => .idle none
      | point => point }

/-- Where a call goes on with the key state `getDrmSession` returned. -/
def Point.behind (helper : DrmHelper) (slot : Nat) (create : Bool) (code : KeyState) : Point :=
  if create then
    match code with
    | .KEY_READY => .idle (some ⟨helper.getKey, false⟩)
    | .KEY_INIT => .opened helper slot
    | _ => .idle (some ⟨helper.getKey, true⟩)
  else .idle none

def sessionStep (build : BuildConfig) (s : State) : Act → Option State
  | .createDrmSession helper now =>
      match s.point with
      | .idle _ =>
          if s.manager.sessionMgrState = .eSESSIONMGR_INACTIVE then some (s.clear s.manager)
          else some (s.select helper now false true)
      | _ => none
  | .getDrmSession helper now isPrimarySession =>
      match s.point with
      | .idle _ => some (s.select helper now isPrimarySession false)
      | _ => none
  | .openSession fresh wait =>
      match s.point with
      | .selected helper slot create =>
          let r := s.manager.openSession build helper slot fresh wait
          some { manager := r.2, point := .behind helper slot create r.1 }
      | _ => none
  | .initializeDrmSession state mIsFakeTune =>
      match s.point with
      | .opened helper slot =>
          match (s.manager.drmSessionContexts slot).drmSession with
          | none => some { s with point := .crashed }
          | some _ =>
              let m := s.manager.setState slot state
              if state ≠ .KEY_INIT ∨ mIsFakeTune then some (State.fail m helper slot)
              else some { manager := m, point := .initialised helper slot }
      | _ => none
  | .AcquireLicenseCb code isSessionValid =>
      match s.point with
      | .initialised helper slot =>
          let m := s.manager.setState slot code
          if code ≠ .KEY_READY then some (State.fail m helper slot)
          else
            match (m.drmSessionContexts slot).drmSession with
            | none =>
                -- setSecManagerSession is called for a valid session only
                if isSessionValid then some { manager := m, point := .crashed }
                else some { manager := m, point := .idle (some ⟨helper.getKey, true⟩) }
            | some _ => some { manager := m, point := .idle (some ⟨helper.getKey, false⟩) }
      | _ => none
  | .setSessionMgrState state => some (s.clear { s.manager with sessionMgrState := state })
  | .clearFailedKeyIds => some (s.clear s.manager.clearFailedKeyIds)
  | .clearSessionData => some (s.clear s.manager.clearSessionData)
  | .clearDrmSession forceClearSession =>
      some (s.clear (s.manager.clearDrmSession forceClearSession))
  | .UpdateMaxDRMSessions maxSessions =>
      -- it frees the arrays, so no call is under way
      match s.point with
      | .idle _ => some (s.clear (s.manager.UpdateMaxDRMSessions maxSessions))
      | _ => none

/-- Runs of a manager that starts fresh with any number of slots. -/
def sessionSystem (build : BuildConfig) : System State Act where
  init s := ∃ maxSessions, s = { manager := { mMaxDRMSessions := maxSessions } }
  step := sessionStep build

/-! ## One step -/

/-- The call a label starts: its helper, and whether it is `createDrmSession`. -/
def Act.call : Act → Option (DrmHelper × Bool)
  | createDrmSession helper _ => some (helper, true)
  | getDrmSession helper _ _ => some (helper, false)
  | _ => none

/-- The manager behind a function that works while a call may be under way. -/
def DrmSessionManager.cleared (m : DrmSessionManager) : Act → Option DrmSessionManager
  | .setSessionMgrState state => some { m with sessionMgrState := state }
  | .clearFailedKeyIds => some m.clearFailedKeyIds
  | .clearSessionData => some m.clearSessionData
  | .clearDrmSession forceClearSession => some (m.clearDrmSession forceClearSession)
  | .UpdateMaxDRMSessions maxSessions => some (m.UpdateMaxDRMSessions maxSessions)
  | _ => none

/-- Everything a step can do. -/
inductive StepTo (build : BuildConfig) (s : State) : Act → State → Prop where
  | refused {helper now} : s.manager.sessionMgrState = .eSESSIONMGR_INACTIVE →
      StepTo build s (.createDrmSession helper now) (s.clear s.manager)
  | started {a helper now isPrimarySession create r} : s.point = .idle r →
      a.call = some (helper, create) →
      (create = true → s.manager.sessionMgrState = .eSESSIONMGR_ACTIVE) →
      StepTo build s a (s.select helper now isPrimarySession create)
  | opened {fresh wait helper slot create} : s.point = .selected helper slot create →
      StepTo build s (.openSession fresh wait)
        { manager := (s.manager.openSession build helper slot fresh wait).2
          point := .behind helper slot create
            (s.manager.openSession build helper slot fresh wait).1 }
  | nullInit {state fake helper slot} : s.point = .opened helper slot →
      (s.manager.drmSessionContexts slot).drmSession = none →
      StepTo build s (.initializeDrmSession state fake) { s with point := .crashed }
  | initFailed {state fake helper slot} : s.point = .opened helper slot →
      StepTo build s (.initializeDrmSession state fake)
        (State.fail (s.manager.setState slot state) helper slot)
  | initialised {fake helper slot} : s.point = .opened helper slot →
      (s.manager.drmSessionContexts slot).drmSession ≠ none →
      StepTo build s (.initializeDrmSession .KEY_INIT fake)
        { manager := s.manager.setState slot .KEY_INIT, point := .initialised helper slot }
  | licenseFailed {code valid helper slot} : s.point = .initialised helper slot →
      StepTo build s (.AcquireLicenseCb code valid)
        (State.fail (s.manager.setState slot code) helper slot)
  | nullLicense {helper slot} : s.point = .initialised helper slot →
      (s.manager.drmSessionContexts slot).drmSession = none →
      StepTo build s (.AcquireLicenseCb .KEY_READY true)
        { manager := s.manager.setState slot .KEY_READY, point := .crashed }
  | licensedNull {helper slot} : s.point = .initialised helper slot →
      (s.manager.drmSessionContexts slot).drmSession = none →
      StepTo build s (.AcquireLicenseCb .KEY_READY false)
        { manager := s.manager.setState slot .KEY_READY
          point := .idle (some ⟨helper.getKey, true⟩) }
  | licensed {valid helper slot} : s.point = .initialised helper slot →
      (s.manager.drmSessionContexts slot).drmSession ≠ none →
      StepTo build s (.AcquireLicenseCb .KEY_READY valid)
        { manager := s.manager.setState slot .KEY_READY
          point := .idle (some ⟨helper.getKey, false⟩) }
  | cleared {a m} : s.manager.cleared a = some m →
      (∀ n, a = .UpdateMaxDRMSessions n → ∃ r, s.point = .idle r) → StepTo build s a (s.clear m)

/-! ## What a section does to the two arrays -/

namespace DrmSessionManager

/-- The key section changes no session, and no cached id unless it fills a slot. -/
theorem selectSlot_cases (m : DrmSessionManager) (helper : DrmHelper) (now : Int)
    (isPrimarySession : Bool) :
    m.selectSlot helper now isPrimarySession = (none, m) ∨
    (∃ slot, m.cachedSlot helper.getKey = some slot ∧ (m.cachedKeyIDs slot).isFailedKeyId = false ∧
      m.selectSlot helper now isPrimarySession =
        (some slot, m.touch slot now isPrimarySession)) ∨
    (∃ slot, helper.getKey ≠ [] ∧ m.cachedSlot helper.getKey = none ∧ m.oldestSlot = some slot ∧
      m.selectSlot helper now isPrimarySession =
        (some slot, (m.fill slot helper.keyIdArrays).touch slot now isPrimarySession)) := by
  unfold selectSlot
  by_cases hk : helper.getKey = []
  · simp only [if_pos hk]
    exact Or.inl trivial
  · simp only [if_neg hk]
    cases hc : m.cachedSlot helper.getKey with
    | some slot =>
        by_cases hf : (m.cachedKeyIDs slot).isFailedKeyId = true
        · simp only [if_pos hf]
          exact Or.inl trivial
        · simp only [if_neg hf]
          exact Or.inr (Or.inl ⟨slot, rfl, by simpa using hf, rfl⟩)
    | none =>
        cases ho : m.oldestSlot with
        | none => exact Or.inl rfl
        | some slot => exact Or.inr (Or.inr ⟨slot, hk, rfl, rfl, rfl⟩)

@[simp] theorem touch_data (m : DrmSessionManager) (slot : Nat) (now : Int) (p : Bool) (i : Nat) :
    ((m.touch slot now p).cachedKeyIDs i).data = (m.cachedKeyIDs i).data := by
  unfold touch
  by_cases hi : i = slot <;> simp [hi]

@[simp] theorem touch_isFailedKeyId (m : DrmSessionManager) (slot : Nat) (now : Int) (p : Bool)
    (i : Nat) :
    ((m.touch slot now p).cachedKeyIDs i).isFailedKeyId = (m.cachedKeyIDs i).isFailedKeyId := by
  unfold touch
  by_cases hi : i = slot <;> simp [hi]

@[simp] theorem touch_max (m : DrmSessionManager) (slot : Nat) (now : Int) (p : Bool) :
    (m.touch slot now p).mMaxDRMSessions = m.mMaxDRMSessions := rfl

@[simp] theorem touch_drmSessionContexts (m : DrmSessionManager) (slot : Nat) (now : Int)
    (p : Bool) : (m.touch slot now p).drmSessionContexts = m.drmSessionContexts := rfl

@[simp] theorem fill_data (m : DrmSessionManager) (slot : Nat) (ids : List KeyIdBytes) (i : Nat) :
    ((m.fill slot ids).cachedKeyIDs i).data =
      if i = slot then ids else (m.cachedKeyIDs i).data := by
  unfold fill
  by_cases hi : i = slot <;> simp [hi]

@[simp] theorem fill_isFailedKeyId (m : DrmSessionManager) (slot : Nat) (ids : List KeyIdBytes)
    (i : Nat) :
    ((m.fill slot ids).cachedKeyIDs i).isFailedKeyId =
      if i = slot then false else (m.cachedKeyIDs i).isFailedKeyId := by
  unfold fill
  by_cases hi : i = slot <;> simp [hi]

@[simp] theorem fill_max (m : DrmSessionManager) (slot : Nat) (ids : List KeyIdBytes) :
    (m.fill slot ids).mMaxDRMSessions = m.mMaxDRMSessions := rfl

@[simp] theorem fill_drmSessionContexts (m : DrmSessionManager) (slot : Nat)
    (ids : List KeyIdBytes) : (m.fill slot ids).drmSessionContexts = m.drmSessionContexts := rfl

@[simp] theorem markFailed_data (m : DrmSessionManager) (slot i : Nat) :
    ((m.markFailed slot).cachedKeyIDs i).data = (m.cachedKeyIDs i).data := by
  unfold markFailed
  by_cases hi : i = slot <;> simp [hi]

@[simp] theorem markFailed_isFailedKeyId (m : DrmSessionManager) (slot i : Nat) :
    ((m.markFailed slot).cachedKeyIDs i).isFailedKeyId =
      (decide (i = slot) || (m.cachedKeyIDs i).isFailedKeyId) := by
  unfold markFailed
  by_cases hi : i = slot <;> simp [hi]

@[simp] theorem markFailed_max (m : DrmSessionManager) (slot : Nat) :
    (m.markFailed slot).mMaxDRMSessions = m.mMaxDRMSessions := rfl

@[simp] theorem markFailed_drmSessionContexts (m : DrmSessionManager) (slot : Nat) :
    (m.markFailed slot).drmSessionContexts = m.drmSessionContexts := rfl

@[simp] theorem setState_cachedKeyIDs (m : DrmSessionManager) (slot : Nat) (st : KeyState) :
    (m.setState slot st).cachedKeyIDs = m.cachedKeyIDs := rfl

@[simp] theorem setState_max (m : DrmSessionManager) (slot : Nat) (st : KeyState) :
    (m.setState slot st).mMaxDRMSessions = m.mMaxDRMSessions := rfl

theorem setState_drmSession (m : DrmSessionManager) (slot : Nat) (st : KeyState) (i : Nat) :
    ((m.setState slot st).drmSessionContexts i).drmSession =
      if i = slot then (m.drmSessionContexts slot).drmSession.map fun s => { s with state := st }
      else (m.drmSessionContexts i).drmSession := by
  unfold setState
  by_cases hi : i = slot <;> simp [hi]

theorem createSession_cachedKeyIDs (build : BuildConfig) (m : DrmSessionManager)
    (helper : DrmHelper) (slot : Nat) (fresh : KeyState) :
    (m.createSession build helper slot fresh).2.cachedKeyIDs = m.cachedKeyIDs ∧
      (m.createSession build helper slot fresh).2.mMaxDRMSessions = m.mMaxDRMSessions := by
  unfold createSession
  cases DrmSessionFactory.GetDrmSession build helper fresh <;> exact ⟨rfl, rfl⟩

/-- `getDrmSession` makes a new session object for the slot. -/
def Builds (m : DrmSessionManager) (helper : DrmHelper) (slot : Nat) : Prop :=
  ∀ session, (m.drmSessionContexts slot).drmSession = some session →
    helper.ocdmSystemId = session.keySystem →
      (m.drmSessionContexts slot).data ∉ (m.cachedKeyIDs slot).data

/-- What becomes of a session that stays, by its state and by how the wait for it ends. -/
inductive Keeps (m : DrmSessionManager) (slot : Nat) (session : DrmSession) :
    KeyState × DrmSessionManager → Prop where
  | ready : session.state = .KEY_READY → Keeps m slot session (.KEY_READY, m)
  | init : session.state = .KEY_INIT → Keeps m slot session (.KEY_INIT, m)
  | reached : Keeps m slot session (.KEY_READY, m.setState slot .KEY_READY)
  | assumed : session.state = .KEY_PENDING → Keeps m slot session (.KEY_READY, m)
  | missed (state : KeyState) :
      Keeps m slot session (.KEY_ERROR, (m.setState slot state).markFailed slot)
  | failed : Keeps m slot session (.KEY_ERROR, m.markFailed slot)

/-- What the session section does. -/
inductive Opens (build : BuildConfig) (m : DrmSessionManager) (helper : DrmHelper) (slot : Nat)
    (fresh : KeyState) : KeyState × DrmSessionManager → Prop where
  | builds : m.Builds helper slot →
      Opens build m helper slot fresh (m.createSession build helper slot fresh)
  | keeps (session : DrmSession) (r : KeyState × DrmSessionManager) :
      (m.drmSessionContexts slot).drmSession = some session →
      helper.ocdmSystemId = session.keySystem →
      (m.drmSessionContexts slot).data ∈ (m.cachedKeyIDs slot).data →
      Keeps m slot session r → Opens build m helper slot fresh r

theorem openSession_opens (build : BuildConfig) (m : DrmSessionManager) (helper : DrmHelper)
    (slot : Nat) (fresh : KeyState) (wait : WaitResult) :
    Opens build m helper slot fresh (m.openSession build helper slot fresh wait) := by
  unfold openSession
  cases hd : (m.drmSessionContexts slot).drmSession with
  | none => exact .builds fun session h => by cases hd.symm.trans h
  | some session =>
      dsimp only
      by_cases hsys : helper.ocdmSystemId ≠ session.keySystem
      · rw [if_pos hsys]
        refine .builds fun session' h heq => ?_
        cases hd.symm.trans h
        exact absurd heq hsys
      · rw [if_neg hsys]
        by_cases hkey : (m.drmSessionContexts slot).data ∈ (m.cachedKeyIDs slot).data
        · rw [if_pos hkey]
          apply Opens.keeps session _ hd (Decidable.not_not.mp hsys) hkey
          cases hstate : session.state with
          | KEY_READY => exact .ready hstate
          | KEY_INIT => exact .init hstate
          | KEY_PENDING =>
              cases wait with
              | reached => exact .reached
              | assumed => exact .assumed hstate
              | missed state => exact .missed state
          | _ => exact .failed
        · rw [if_neg hkey]
          exact .builds fun _ _ _ => hkey

/-- The session section keeps the cached ids of every slot. -/
theorem openSession_data (build : BuildConfig) (m : DrmSessionManager) (helper : DrmHelper)
    (slot : Nat) (fresh : KeyState) (wait : WaitResult) :
    (∀ i, ((m.openSession build helper slot fresh wait).2.cachedKeyIDs i).data =
        (m.cachedKeyIDs i).data) ∧
      (m.openSession build helper slot fresh wait).2.mMaxDRMSessions = m.mMaxDRMSessions := by
  have hcreate := m.createSession_cachedKeyIDs build helper slot fresh
  have hopens := m.openSession_opens build helper slot fresh wait
  generalize m.openSession build helper slot fresh wait = r at hopens
  cases hopens with
  | builds _ => exact ⟨fun i => by rw [hcreate.1], hcreate.2⟩
  | keeps session r _ _ _ hkeeps => cases hkeeps <;> simp

end DrmSessionManager

/-! ## Filling a slot -/

/-- The label starts a call whose key is cached nowhere, and the call takes this slot. -/
structure Fills (s : State) (a : Act) (helper : DrmHelper) (slot : Nat) : Prop where
  call : ∃ create, a.call = some (helper, create) ∧
    (create = true → s.manager.sessionMgrState = .eSESSIONMGR_ACTIVE)
  getKey : helper.getKey ≠ []
  uncached : s.manager.cachedSlot helper.getKey = none
  oldest : s.manager.oldestSlot = some slot

/-- No slot has an id it did not have before. -/
def Shrinks (m m' : DrmSessionManager) : Prop :=
  ∀ i < m'.mMaxDRMSessions, ∀ k ∈ (m'.cachedKeyIDs i).data,
    i < m.mMaxDRMSessions ∧ k ∈ (m.cachedKeyIDs i).data

theorem Shrinks.of_data {m m' : DrmSessionManager} (hmax : m'.mMaxDRMSessions = m.mMaxDRMSessions)
    (hdata : ∀ i, (m'.cachedKeyIDs i).data = (m.cachedKeyIDs i).data) : Shrinks m m' :=
  fun i hi _ hk => ⟨hmax ▸ hi, hdata i ▸ hk⟩

theorem clearSessionData_shrinks (m : DrmSessionManager) : Shrinks m m.clearSessionData := by
  intro i hi k hk
  have hi' : i < m.mMaxDRMSessions := hi
  simp [DrmSessionManager.clearSessionData, hi'] at hk

theorem clearFailedKeyIds_shrinks (m : DrmSessionManager) : Shrinks m m.clearFailedKeyIds := by
  intro i hi k hk
  have hi' : i < m.mMaxDRMSessions := hi
  refine ⟨hi', ?_⟩
  by_cases hf : (m.cachedKeyIDs i).isFailedKeyId
  · simp [DrmSessionManager.clearFailedKeyIds, hi', hf] at hk
  · simpa [DrmSessionManager.clearFailedKeyIds, hi', hf] using hk

theorem UpdateMaxDRMSessions_shrinks (m : DrmSessionManager) (n : Nat) :
    Shrinks m (m.UpdateMaxDRMSessions n) := by
  intro i hi k hk
  by_cases hn : m.mMaxDRMSessions ≠ n
  · simp [DrmSessionManager.UpdateMaxDRMSessions, hn] at hk
  · simp only [DrmSessionManager.UpdateMaxDRMSessions, if_neg hn] at hi hk
    exact ⟨hi, hk⟩

/-- The start of a call fills the slot it takes, or leaves the cached ids. -/
theorem select_data (s : State) (helper : DrmHelper) (now : Int) (p create : Bool) :
    (s.select helper now p create).manager.mMaxDRMSessions = s.manager.mMaxDRMSessions ∧
      ((∀ i, ((s.select helper now p create).manager.cachedKeyIDs i).data =
          (s.manager.cachedKeyIDs i).data) ∨
        ∃ slot, helper.getKey ≠ [] ∧ s.manager.cachedSlot helper.getKey = none ∧
          s.manager.oldestSlot = some slot ∧
          ∀ i, ((s.select helper now p create).manager.cachedKeyIDs i).data =
            if i = slot then helper.keyIdArrays else (s.manager.cachedKeyIDs i).data) := by
  unfold State.select
  rcases s.manager.selectSlot_cases helper now p with hnone | ⟨slot, _, _, hsel⟩ |
    ⟨slot, hk, hc, ho, hsel⟩
  · rw [hnone]
    exact ⟨rfl, Or.inl fun i => rfl⟩
  · rw [hsel]
    exact ⟨rfl, Or.inl fun i => s.manager.touch_data slot now p i⟩
  · rw [hsel]
    exact ⟨rfl, Or.inr ⟨slot, hk, hc, ho, fun i => by simp⟩⟩

theorem setState_eq_none (m : DrmSessionManager) (slot : Nat) (st : KeyState) :
    ((m.setState slot st).drmSessionContexts slot).drmSession = none ↔
      (m.drmSessionContexts slot).drmSession = none := by
  rw [m.setState_drmSession, if_pos rfl]
  exact Option.map_eq_none_iff

theorem sessionStep_cases {build : BuildConfig} {s t : State} {a : Act}
    (h : sessionStep build s a = some t) : StepTo build s a t := by
  have hactive : ∀ st : SessionMgrState, st ≠ .eSESSIONMGR_INACTIVE → st = .eSESSIONMGR_ACTIVE := by
    intro st hst
    cases st
    · exact absurd rfl hst
    · rfl
  cases a with
  | createDrmSession helper now =>
      simp only [sessionStep] at h
      split at h
      · rename_i r hp
        by_cases hs : s.manager.sessionMgrState = .eSESSIONMGR_INACTIVE
        · rw [if_pos hs] at h
          cases h
          exact .refused hs
        · rw [if_neg hs] at h
          cases h
          exact .started hp rfl fun _ => hactive _ hs
      · cases h
  | getDrmSession helper now p =>
      simp only [sessionStep] at h
      split at h
      · rename_i r hp
        cases h
        exact .started hp rfl fun hf => absurd hf Bool.false_ne_true
      · cases h
  | openSession fresh wait =>
      simp only [sessionStep] at h
      split at h
      · rename_i helper slot create hp
        cases h
        exact .opened hp
      · cases h
  | initializeDrmSession state fake =>
      simp only [sessionStep] at h
      split at h
      · rename_i helper slot hp
        cases hd : (s.manager.drmSessionContexts slot).drmSession with
        | none =>
            simp only [hd] at h
            cases h
            exact .nullInit hp hd
        | some session =>
            simp only [hd] at h
            by_cases hf : state ≠ .KEY_INIT ∨ fake = true
            · rw [if_pos hf] at h
              cases h
              exact .initFailed hp
            · rw [if_neg hf] at h
              cases h
              have hst : state = .KEY_INIT := Decidable.byContradiction fun hne => hf (Or.inl hne)
              subst hst
              exact .initialised hp (by rw [hd]; exact Option.some_ne_none session)
      · cases h
  | AcquireLicenseCb code valid =>
      simp only [sessionStep] at h
      split at h
      · rename_i helper slot hp
        by_cases hc : code ≠ .KEY_READY
        · rw [if_pos hc] at h
          cases h
          exact .licenseFailed hp
        · have hready : code = .KEY_READY := Decidable.byContradiction hc
          subst hready
          rw [if_neg hc] at h
          cases hd : ((s.manager.setState slot .KEY_READY).drmSessionContexts slot).drmSession with
          | none =>
              have hnull := (setState_eq_none s.manager slot .KEY_READY).mp hd
              simp only [hd] at h
              cases valid with
              | true =>
                  cases h
                  exact .nullLicense hp hnull
              | false =>
                  cases h
                  exact .licensedNull hp hnull
          | some session =>
              have hsome : (s.manager.drmSessionContexts slot).drmSession ≠ none := by
                intro hnull
                rw [(setState_eq_none s.manager slot .KEY_READY).mpr hnull] at hd
                cases hd
              simp only [hd] at h
              cases h
              exact .licensed hp hsome
      · cases h
  | setSessionMgrState state =>
      cases h
      exact .cleared rfl fun _ => Act.noConfusion
  | clearFailedKeyIds =>
      cases h
      exact .cleared rfl fun _ => Act.noConfusion
  | clearSessionData =>
      cases h
      exact .cleared rfl fun _ => Act.noConfusion
  | clearDrmSession force =>
      cases h
      exact .cleared rfl fun _ => Act.noConfusion
  | UpdateMaxDRMSessions n =>
      simp only [sessionStep] at h
      split at h
      · rename_i r hp
        cases h
        exact .cleared rfl fun _ _ => ⟨r, hp⟩
      · cases h

theorem cleared_shrinks {m m' : DrmSessionManager} {a : Act} (h : m.cleared a = some m') :
    Shrinks m m' := by
  cases a with
  | setSessionMgrState state =>
      cases h
      exact Shrinks.of_data rfl fun i => rfl
  | clearFailedKeyIds =>
      cases h
      exact clearFailedKeyIds_shrinks m
  | clearSessionData =>
      cases h
      exact clearSessionData_shrinks m
  | clearDrmSession force =>
      cases h
      exact Shrinks.of_data rfl fun i => rfl
  | UpdateMaxDRMSessions n =>
      cases h
      exact UpdateMaxDRMSessions_shrinks m n
  | _ => cases h

/-- Only the start of a call that takes a slot for an uncached key adds cached ids. -/
theorem sessionStep_data {build : BuildConfig} {s t : State} {a : Act}
    (h : sessionStep build s a = some t) :
    Shrinks s.manager t.manager ∨
      ∃ helper slot, Fills s a helper slot ∧
        t.manager.mMaxDRMSessions = s.manager.mMaxDRMSessions ∧
        ∀ i, (t.manager.cachedKeyIDs i).data =
          if i = slot then helper.keyIdArrays else (s.manager.cachedKeyIDs i).data := by
  cases sessionStep_cases h with
  | @started _ helper now p create r hp hcall hactive =>
      rcases select_data s helper now p create with ⟨hmax, hkeep | ⟨slot, hk, hc, ho, hfill⟩⟩
      · exact Or.inl (Shrinks.of_data hmax hkeep)
      · exact Or.inr ⟨helper, slot, ⟨⟨create, hcall, hactive⟩, hk, hc, ho⟩, hmax, hfill⟩
  | @opened fresh wait helper slot create hp =>
      have hopen := s.manager.openSession_data build helper slot fresh wait
      exact Or.inl (Shrinks.of_data hopen.2 hopen.1)
  | cleared hm _ => exact Or.inl (cleared_shrinks hm)
  | initFailed hp => exact Or.inl (Shrinks.of_data rfl fun i => by simp [State.fail])
  | licenseFailed hp => exact Or.inl (Shrinks.of_data rfl fun i => by simp [State.fail])
  | _ => exact Or.inl (Shrinks.of_data rfl fun i => rfl)

end PlayerInterface.Drm
