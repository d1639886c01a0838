import PlayerInterface.Core.Transition

/-!
# The DRM session manager

`DrmSessionManager` keeps two arrays over the same slots: the cached key ids and
the session contexts. `getDrmSession` fills the first under `cachedKeyMutex` and
then works on the second under the mutex of the slot; the functions below are
these sections.
-/

namespace PlayerInterface.Drm

/-! ## Data -/

/-- `std::vector<uint8_t>`. -/
abbrev KeyIdBytes := List UInt8

inductive KeyState where
  | KEY_INIT
  | KEY_PENDING
  | KEY_READY
  | KEY_ERROR
  | KEY_CLOSED
  | KEY_ERROR_EMPTY_SESSION_ID
deriving DecidableEq, Repr

namespace KeyState

/-- Not `state <= KEY_READY`. -/
def isError : KeyState → Bool
  | KEY_INIT | KEY_PENDING | KEY_READY => false
  | KEY_ERROR | KEY_CLOSED | KEY_ERROR_EMPTY_SESSION_ID => true

end KeyState

inductive SessionMgrState where
  | eSESSIONMGR_INACTIVE
  | eSESSIONMGR_ACTIVE
deriving DecidableEq, Repr

def CLEAR_KEY_SYSTEM_STRING : String := "org.w3.clearkey"

/-- What the manager asks a helper for; the requested key is one of its keys. -/
structure DrmHelper where
  ocdmSystemId : String
  getKey : KeyIdBytes
  getKeys : List KeyIdBytes
  key_mem : getKeys = [] ∨ getKey ∈ getKeys

/-- `keyIdArrays`, with the requested key inserted into an empty map. -/
def DrmHelper.keyIdArrays (helper : DrmHelper) : List KeyIdBytes :=
  if helper.getKeys = [] then [helper.getKey] else helper.getKeys

theorem DrmHelper.getKey_mem (helper : DrmHelper) : helper.getKey ∈ helper.keyIdArrays := by
  unfold keyIdArrays
  rcases helper.key_mem with hnil | hmem
  · simp [hnil]
  · rw [if_neg (List.ne_nil_of_mem hmem)]
    exact hmem

structure KeyID where
  data : List KeyIdBytes := []
  creationTime : Int := 0
  isFailedKeyId : Bool := false
  isPrimaryKeyId : Bool := false
deriving DecidableEq, Repr

/-- A session object. `keys` is no member: it remembers the key ids of the
helper the object was constructed for. -/
structure DrmSession where
  keySystem : String
  state : KeyState
  keys : List KeyIdBytes
deriving DecidableEq, Repr

structure DrmSessionContext where
  data : KeyIdBytes := []
  drmSession : Option DrmSession := none
deriving DecidableEq, Repr

/-- The arrays have `mMaxDRMSessions` cells; no function looks at the others. -/
structure DrmSessionManager where
  mMaxDRMSessions : Nat
  cachedKeyIDs : Nat → KeyID := fun _ => {}
  drmSessionContexts : Nat → DrmSessionContext := fun _ => {}
  sessionMgrState : SessionMgrState := .eSESSIONMGR_ACTIVE

/-- The build switches the session factory depends on. -/
structure BuildConfig where
  USE_OPENCDM_ADAPTER : Bool
  USE_CLEARKEY : Bool
deriving DecidableEq, Repr

/-- `DrmSessionFactory::GetDrmSession`; `state` is the state the new object has. -/
def DrmSessionFactory.GetDrmSession (build : BuildConfig) (helper : DrmHelper) (state : KeyState) :
    Option DrmSession :=
  let session : DrmSession :=
    { keySystem := helper.ocdmSystemId, state, keys := helper.keyIdArrays }
  if build.USE_OPENCDM_ADAPTER then some session
  else if helper.ocdmSystemId = CLEAR_KEY_SYSTEM_STRING ∧ build.USE_CLEARKEY then some session
  else none

namespace DrmSessionManager

/-! ## Writing one cell -/

def setKeyID (m : DrmSessionManager) (slot : Nat) (k : KeyID) : DrmSessionManager :=
  { m with cachedKeyIDs := fun i => if i = slot then k else m.cachedKeyIDs i }

def setContext (m : DrmSessionManager) (slot : Nat) (c : DrmSessionContext) : DrmSessionManager :=
  { m with drmSessionContexts := fun i => if i = slot then c else m.drmSessionContexts i }

@[simp] theorem setKeyID_cachedKeyIDs (m : DrmSessionManager) (slot : Nat) (k : KeyID) (i : Nat) :
    (m.setKeyID slot k).cachedKeyIDs i = if i = slot then k else m.cachedKeyIDs i := rfl

@[simp] theorem setKeyID_drmSessionContexts (m : DrmSessionManager) (slot : Nat) (k : KeyID) :
    (m.setKeyID slot k).drmSessionContexts = m.drmSessionContexts := rfl

@[simp] theorem setKeyID_max (m : DrmSessionManager) (slot : Nat) (k : KeyID) :
    (m.setKeyID slot k).mMaxDRMSessions = m.mMaxDRMSessions := rfl

@[simp] theorem setContext_drmSessionContexts (m : DrmSessionManager) (slot : Nat)
    (c : DrmSessionContext) (i : Nat) :
    (m.setContext slot c).drmSessionContexts i =
      if i = slot then c else m.drmSessionContexts i := rfl

@[simp] theorem setContext_cachedKeyIDs (m : DrmSessionManager) (slot : Nat)
    (c : DrmSessionContext) : (m.setContext slot c).cachedKeyIDs = m.cachedKeyIDs := rfl

@[simp] theorem setContext_max (m : DrmSessionManager) (slot : Nat) (c : DrmSessionContext) :
    (m.setContext slot c).mMaxDRMSessions = m.mMaxDRMSessions := rfl

/-! ## Slot selection -/

/-- The first slot whose cached ids contain the key. -/
def cachedSlot (m : DrmSessionManager) (key : KeyIdBytes) : Option Nat :=
  (List.range m.mMaxDRMSessions).find? fun i => (m.cachedKeyIDs i).data.contains key

/-- The first slot that is not primary, or a later one that is older: the
second loop does not look at the primary mark again. -/
def oldestSlot (m : DrmSessionManager) : Option Nat :=
  ((List.range m.mMaxDRMSessions).find? fun i => !(m.cachedKeyIDs i).isPrimaryKeyId).map
    fun first =>
      (List.range' (first + 1) (m.mMaxDRMSessions - (first + 1))).foldl
        (fun slot i =>
          if (m.cachedKeyIDs i).creationTime < (m.cachedKeyIDs slot).creationTime then i else slot)
        first

theorem cachedSlot_some {m : DrmSessionManager} {key : KeyIdBytes} {slot : Nat}
    (h : m.cachedSlot key = some slot) :
    slot < m.mMaxDRMSessions ∧ key ∈ (m.cachedKeyIDs slot).data := by
  have hmem := List.mem_of_find?_eq_some h
  have hp := List.find?_some h
  exact ⟨List.mem_range.mp hmem, by simpa using hp⟩

theorem cachedSlot_none {m : DrmSessionManager} {key : KeyIdBytes} :
    m.cachedSlot key = none ↔
      ∀ i < m.mMaxDRMSessions, key ∉ (m.cachedKeyIDs i).data := by
  simp [cachedSlot]

theorem oldestSlot_lt {m : DrmSessionManager} {slot : Nat} (h : m.oldestSlot = some slot) :
    slot < m.mMaxDRMSessions := by
  unfold oldestSlot at h
  rcases Option.map_eq_some_iff.mp h with ⟨first, hfirst, rfl⟩
  have hlt := List.mem_range.mp (List.mem_of_find?_eq_some hfirst)
  have hfold : ∀ (is : List Nat) (s : Nat), (∀ i ∈ is, i < m.mMaxDRMSessions) →
      s < m.mMaxDRMSessions →
      is.foldl (fun slot i =>
        if (m.cachedKeyIDs i).creationTime < (m.cachedKeyIDs slot).creationTime then i else slot)
        s < m.mMaxDRMSessions := by
    intro is
    induction is with
    | nil => exact fun s _ hs => hs
    | cons i is ih =>
        intro s his hs
        apply ih
        · exact fun j hj => his j (List.mem_cons_of_mem i hj)
        · dsimp only
          split
          · exact his i List.mem_cons_self
          · exact hs
  refine hfold _ _ (fun i hi => ?_) hlt
  have := (List.mem_range'_1.mp hi).2
  omega

/-- The ids of a helper replace those of the slot. -/
def fill (m : DrmSessionManager) (slot : Nat) (ids : List KeyIdBytes) : DrmSessionManager :=
  m.setKeyID slot { m.cachedKeyIDs slot with data := ids, isFailedKeyId := false }

def touch (m : DrmSessionManager) (slot : Nat) (now : Int) (isPrimarySession : Bool) :
    DrmSessionManager :=
  m.setKeyID slot
    { m.cachedKeyIDs slot with creationTime := now, isPrimaryKeyId := isPrimarySession }

/-- The section of `getDrmSession` under `cachedKeyMutex`: `none` for a
`KEY_ERROR` return, else the slot it goes on with. -/
def selectSlot (m : DrmSessionManager) (helper : DrmHelper) (now : Int)
    (isPrimarySession : Bool) : Option Nat × DrmSessionManager :=
  if helper.getKey = [] then (none, m)
  else
    match m.cachedSlot helper.getKey with
    | some slot =>
        if (m.cachedKeyIDs slot).isFailedKeyId then (none, m)
        else (some slot, m.touch slot now isPrimarySession)
    | none =>
        match m.oldestSlot with
        | none => (none, m)
        | some slot =>
            (some slot, (m.fill slot helper.keyIdArrays).touch slot now isPrimarySession)

/-! ## Sessions -/

def markFailed (m : DrmSessionManager) (slot : Nat) : DrmSessionManager :=
  m.setKeyID slot { m.cachedKeyIDs slot with isFailedKeyId := true }

/-- What the session object of a slot reports from now on. -/
def setState (m : DrmSessionManager) (slot : Nat) (state : KeyState) : DrmSessionManager :=
  m.setContext slot
    { m.drmSessionContexts slot with
      drmSession := (m.drmSessionContexts slot).drmSession.map fun s => { s with state } }

/-- A new session object for the slot; the context keeps its key when there is none. -/
def createSession (build : BuildConfig) (m : DrmSessionManager) (helper : DrmHelper) (slot : Nat)
    (fresh : KeyState) : KeyState × DrmSessionManager :=
  match DrmSessionFactory.GetDrmSession build helper fresh with
  | some session =>
      (session.state, m.setContext slot { data := helper.getKey, drmSession := some session })
  | none =>
      (.KEY_ERROR, m.setContext slot { m.drmSessionContexts slot with drmSession := none })

/-- How `waitForState(KEY_READY, ..)` ends: the adapter sees the key ready, the
base class says yes without looking, or the wait fails in some state. -/
inductive WaitResult where
  | reached
  | assumed
  | missed (state : KeyState)
deriving DecidableEq, Repr

/-- The section of `getDrmSession` under the mutex of the slot. -/
def openSession (build : BuildConfig) (m : DrmSessionManager) (helper : DrmHelper) (slot : Nat)
    (fresh : KeyState) (wait : WaitResult) : KeyState × DrmSessionManager :=
  match (m.drmSessionContexts slot).drmSession with
  | none => m.createSession build helper slot fresh
  | some session =>
      if helper.ocdmSystemId ≠ session.keySystem then m.createSession build helper slot fresh
      else if (m.drmSessionContexts slot).data ∈ (m.cachedKeyIDs slot).data then
        match session.state with
        | .KEY_READY => (.KEY_READY, m)
        | .KEY_INIT => (.KEY_INIT, m)
        | .KEY_PENDING =>
            match wait with
            | .reached => (.KEY_READY, m.setState slot .KEY_READY)
            | .assumed => (.KEY_READY, m)
            | .missed state => (.KEY_ERROR, (m.setState slot state).markFailed slot)
        | _ => (.KEY_ERROR, m.markFailed slot)
      else m.createSession build helper slot fresh

/-! ## Clearing -/

def clearSessionData (m : DrmSessionManager) : DrmSessionManager :=
  { m with
    cachedKeyIDs := fun i => if i < m.mMaxDRMSessions then {} else m.cachedKeyIDs i
    drmSessionContexts := fun i =>
      if i < m.mMaxDRMSessions ∧ (m.drmSessionContexts i).drmSession ≠ none then {}
      else m.drmSessionContexts i }

def clearFailedKeyIds (m : DrmSessionManager) : DrmSessionManager :=
  { m with
    cachedKeyIDs := fun i =>
      if i < m.mMaxDRMSessions then
        if (m.cachedKeyIDs i).isFailedKeyId then {}
        else { m.cachedKeyIDs i with isPrimaryKeyId := false }
      else m.cachedKeyIDs i }

def clearDrmSession (m : DrmSessionManager) (forceClearSession : Bool) : DrmSessionManager :=
  { m with
    drmSessionContexts := fun i =>
      if i < m.mMaxDRMSessions ∧ ((m.cachedKeyIDs i).isFailedKeyId ∨ forceClearSession) then
        { m.drmSessionContexts i with drmSession := none }
      else m.drmSessionContexts i }

def UpdateMaxDRMSessions (m : DrmSessionManager) (maxSessions : Nat) : DrmSessionManager :=
  if m.mMaxDRMSessions ≠ maxSessions then
    { mMaxDRMSessions := maxSessions, sessionMgrState := m.sessionMgrState }
  else m

/-- The status of a key id, when some slot has it. -/
def IsKeyIdProcessed (m : DrmSessionManager) (key : KeyIdBytes) : Option Bool :=
  (m.cachedSlot key).map fun slot => !(m.cachedKeyIDs slot).isFailedKeyId

end DrmSessionManager

end PlayerInterface.Drm
