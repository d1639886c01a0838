import PlayerInterface.Cdmi.Decryptor
import PlayerInterface.Core.Search
import PlayerInterface.Drm.SessionManager

/-!
# An OCDM session adapter

One thread binds sessions to the adapter, asks for a challenge, hands the license
over and clears. The callbacks of the CDM come at any moment, also between the
steps of such a call, and another thread may wait for a state.
-/

namespace PlayerInterface.Ocdm

open PlayerInterface.Core PlayerInterface.Drm

/-! ## Data -/

inductive KeyStatus where
  | Usable
  | Expired
  | Released
  | OutputRestricted
  | OutputRestrictedHDCP22
  | OutputDownscaled
  | StatusPending
  | InternalError
  | HWError
deriving DecidableEq, Repr

/-- The value of the enumerator. -/
def KeyStatus.value : KeyStatus → Int
  | Usable => 0
  | Expired => 1
  | Released => 2
  | OutputRestricted => 3
  | OutputRestrictedHDCP22 => 4
  | OutputDownscaled => 5
  | StatusPending => 6
  | InternalError => 7
  | HWError => 8

structure Event where
  signalled : Bool := false
deriving DecidableEq, Repr

def Event.signal (_ : Event) : Event := { signalled := true }

/-- What `wait` leaves behind, whatever has ended it. -/
def Event.reset (_ : Event) : Event := { signalled := false }

/-- The calls of the player's `DrmCallbacks`. -/
inductive DrmCallback where
  | Individualization (payload : List Char)
  | LicenseRenewal
deriving DecidableEq, Repr

/-- Sessions are told apart by the number of the `generateDRMSession` that
constructed them. -/
structure OCDMSessionAdapter where
  m_eKeyState : KeyState := .KEY_INIT
  m_pOpenCDMSystem : Bool
  m_pOpenCDMSession : Option Nat := none
  m_challenge : List Char := []
  m_destUrl : List Char := []
  m_keyStatus : KeyStatus := .InternalError
  m_keyStateIndeterminate : Bool := false
  m_keyStored : List UInt8 := []
  m_challengeReady : Event := {}
  m_keyStatusReady : Event := {}
  m_keyStatusWait : Event := {}
  m_drmCallbacks : Bool
deriving DecidableEq, Repr

/-- The data and the URL of a key request. -/
structure DrmData where
  data : List Char
  destinationURL : List Char
deriving DecidableEq, Repr

def typeDelimiter : List Char := ":Type:".toList

def individualisationTypes : List (List Char) := ["individualization-request".toList, "3".toList]

def LICENSE_RENEWAL_MESSAGE_TYPE : List Char := "1".toList

namespace OCDMSessionAdapter

/-! ## The callbacks -/

/-- The adapter, and the calls of the player's callbacks. -/
def processOCDMChallenge (a : OCDMSessionAdapter) (destUrl challengeData : List Char) :
    OCDMSessionAdapter × List DrmCallback :=
  let delimiterPos := find typeDelimiter challengeData
  let messageType := challengeData.take (delimiterPos.getD challengeData.length)
  let individual := delimiterPos.isSome ∧ messageType ∈ individualisationTypes
  let payload := challengeData.drop
    (delimiterPos.getD challengeData.length + typeDelimiter.length)
  let callbacks :=
    (if individual then [DrmCallback.Individualization payload] else []) ++
      (if messageType = LICENSE_RENEWAL_MESSAGE_TYPE then [DrmCallback.LicenseRenewal] else [])
  (if individual then a
    else
      { a with
        m_challenge := challengeData
        m_destUrl := destUrl
        m_challengeReady := a.m_challengeReady.signal },
    if a.m_drmCallbacks then callbacks else [])

/-- A key that comes before the session pointer is stored. -/
def storeKey (a : OCDMSessionAdapter) (key : List UInt8) : OCDMSessionAdapter :=
  { a with m_keyStored := key, m_keyStateIndeterminate := true }

def keysUpdatedOCDM (a : OCDMSessionAdapter) : OCDMSessionAdapter :=
  { a with m_keyStatusReady := a.m_keyStatusReady.signal }

/-! ## The sections of `generateKeyRequest` and `processDRMKey` -/

/-- `generateKeyRequest` behind its wait. -/
def takeChallenge (a : OCDMSessionAdapter) (ready : Bool) : OCDMSessionAdapter × Option DrmData :=
  if ready then
    if a.m_challenge ≠ [] then
      let delimiterPos := find typeDelimiter a.m_challenge
      let requestType := a.m_challenge.take (delimiterPos.getD a.m_challenge.length)
      let challenge :=
        if requestType.length ≠ 0 ∧ requestType.length ≠ a.m_challenge.length then
          a.m_challenge.drop
            (delimiterPos.getD a.m_challenge.length + typeDelimiter.length)
        else a.m_challenge
      ({ a with m_challenge := challenge, m_eKeyState := .KEY_PENDING },
        some { data := challenge, destinationURL := a.m_destUrl })
    else (a, none)
  else (a, none)

end OCDMSessionAdapter

/-! ## Runs -/

/-- The two waits of the thread. -/
inductive Waited where
  /-- `m_challengeReady` in `generateKeyRequest` -/
  | challenge
  /-- `m_keyStatusReady` in `processDRMKey` -/
  | status
deriving DecidableEq, Repr

/-- The comparisons of `m_keyStatus` in `processDRMKey`, each of which reads it again. -/
inductive Comparison where
  | usable
  | hwError
  | outputRestricted
  | outputRestrictedHDCP22
deriving DecidableEq, Repr

def Comparison.status : Comparison → KeyStatus
  | usable => .Usable
  | hwError => .HWError
  | outputRestricted => .OutputRestricted
  | outputRestrictedHDCP22 => .OutputRestrictedHDCP22

/-- Where the thread stands that drives the adapter. -/
inductive Pc where
  | idle
  /-- in `opencdm_construct_session`, before the pointer is stored -/
  | constructing
  /-- in `opencdm_session_update` -/
  | updating (timeout : UInt32)
  /-- about to wait -/
  | entering (event : Waited) (timeout : UInt32)
  | blocked (event : Waited) (timeout : UInt32)
  /-- at the test of `m_keyStateIndeterminate` -/
  | checking
  | comparing (c : Comparison)
  /-- at the last reading, of the value that is returned -/
  | returning
  /-- the process has killed itself -/
  | killed
deriving DecidableEq, Repr

/-- Where `processDRMKey` goes on when the comparison fails. -/
def Comparison.next : Comparison → Pc
  | usable => .comparing .hwError
  | hwError => .comparing .outputRestricted
  | outputRestricted => .comparing .outputRestrictedHDCP22
  | outputRestrictedHDCP22 => .returning

/-- How `opencdm_construct_session` ends: a failure leaves the pointer or clears it. -/
inductive Construction where
  | session
  | failure (keepsPointer : Bool)
deriving DecidableEq, Repr

/-- A return of `processDRMKey`, with the state it leaves and whether the CDM has
reported `Usable` for the session of the latest `generateDRMSession` by then. -/
structure Return where
  retValue : Int
  m_eKeyState : KeyState
  usable : Bool
deriving DecidableEq, Repr

structure State where
  adapter : OCDMSessionAdapter
  pc : Pc := .idle
  /-- `generateDRMSession` has succeeded, and nothing has been cleared since. -/
  bound : Bool := false
  waiter : Option (KeyState × UInt32) := none
  /-- What `waitForState` has returned. -/
  waited : List Bool := []
  returns : List Return := []
  keyRequests : List (Option DrmData) := []
  callbacks : List DrmCallback := []
  /-- The number of the latest `generateDRMSession`. -/
  latest : Nat := 0
  /-- The CDM has reported a status for its session. -/
  answered : Bool := false
  /-- It has reported `Usable`. -/
  usable : Bool := false
deriving DecidableEq, Repr

inductive Act where
  | generateDRMSession
  | constructed (result : Construction)
  | generateKeyRequest (timeout : UInt32)
  | processDRMKey (key : Option (List Char)) (timeout : UInt32)
  | updated (error : Bool)
  | enterWait
  | wake (timedOut : Bool)
  /-- the test of the early key, and the CDM's answer should it be asked -/
  | checkEarlyKey (answer : KeyStatus)
  | compareStatus
  | returnStatus
  | clearDecryptContext
  | processOCDMChallenge (destUrl challengeData : List Char)
  | keyUpdateOCDM (key : List UInt8) (answer : KeyStatus)
  | keysUpdatedOCDM
  | waitForState (state : KeyState) (timeout : UInt32)
  | waiterWakes (timedOut : Bool)
deriving DecidableEq, Repr

namespace State

def start (m_pOpenCDMSystem m_drmCallbacks : Bool) : State where
  adapter := { m_pOpenCDMSystem, m_drmCallbacks }

/-- `m_keyStatus = opencdm_session_status(m_pOpenCDMSession, ..)`. -/
def status (s : State) (answer : KeyStatus) : State :=
  let current := s.adapter.m_pOpenCDMSession = some s.latest
  { s with
    adapter.m_keyStatus := answer
    adapter.m_keyStateIndeterminate := false
    answered := s.answered || decide current
    usable := s.usable || (decide current && decide (answer = .Usable)) }

def keyUpdateOCDM (s : State) (key : List UInt8) (answer : KeyStatus) : State :=
  match s.adapter.m_pOpenCDMSession with
  | some _ => s.status answer
  | none => { s with adapter := s.adapter.storeKey key }

/-- The end of `processDRMKey`. -/
def finish (s : State) (retValue : Int) (m_eKeyState : KeyState) : State :=
  { s with
    pc := .idle
    adapter.m_eKeyState := m_eKeyState
    adapter.m_keyStatusWait := s.adapter.m_keyStatusWait.signal
    returns := { retValue, m_eKeyState, usable := s.usable } :: s.returns }

def generateDRMSession (s : State) : State :=
  let s := { s with bound := false, latest := s.latest + 1, answered := false, usable := false }
  if s.adapter.m_pOpenCDMSystem then { s with pc := .constructing }
  else { s with adapter.m_eKeyState := .KEY_ERROR }

def constructed (s : State) : Construction → State
  | .session => { s with pc := .idle, bound := true, adapter.m_pOpenCDMSession := some s.latest }
  | .failure true => { s with pc := .idle, adapter.m_eKeyState := .KEY_ERROR }
  | .failure false =>
      { s with
        pc := .idle
        bound := false
        adapter.m_eKeyState := .KEY_ERROR
        adapter.m_pOpenCDMSession := none }

def clearDecryptContext (s : State) : State :=
  { s with
    bound := false
    adapter.m_pOpenCDMSession := none
    adapter.m_eKeyState := .KEY_INIT }

def event (s : State) : Waited → Event
  | .challenge => s.adapter.m_challengeReady
  | .status => s.adapter.m_keyStatusReady

/-- The thread comes out of a wait, with the event reset. -/
def leaveWait (s : State) (ready : Bool) : Waited → State
  | .challenge =>
      let (a, request) := { s.adapter with
        m_challengeReady := s.adapter.m_challengeReady.reset }.takeChallenge ready
      { s with adapter := a, pc := .idle, keyRequests := request :: s.keyRequests }
  | .status =>
      { s with
        adapter.m_keyStatusReady := s.adapter.m_keyStatusReady.reset
        pc := .checking }

/-- A wait that ends without blocking, for an event signalled before. -/
def enterWait (s : State) (w : Waited) (timeout : UInt32) : State :=
  if (s.event w).signalled then s.leaveWait true w else { s with pc := .blocked w timeout }

def matched (s : State) : Comparison → State
  | .usable => s.finish 0 .KEY_READY
  | .hwError => { s with pc := .killed }
  | .outputRestricted => s.finish Cdmi.HDCP_OUTPUT_PROTECTION_FAILURE .KEY_ERROR
  | .outputRestrictedHDCP22 => s.finish Cdmi.HDCP_COMPLIANCE_CHECK_FAILURE .KEY_ERROR

def compareStatus (s : State) (c : Comparison) : State :=
  if s.adapter.m_keyStatus = c.status then s.matched c else { s with pc := c.next }

/-- `waitForState` behind its wait. -/
def leaveWaitForState (s : State) (state : KeyState) (ready : Bool) : State :=
  { s with
    adapter.m_keyStatusWait := s.adapter.m_keyStatusWait.reset
    waiter := none
    waited := (ready && decide (s.adapter.m_eKeyState = state)) :: s.waited }

def waitForState (s : State) (state : KeyState) (timeout : UInt32) : State :=
  if s.adapter.m_eKeyState = state then { s with waited := true :: s.waited }
  else if s.adapter.m_keyStatusWait.signalled then s.leaveWaitForState state true
  else { s with waiter := some (state, timeout) }

/-- The manager binds a session in the state `KEY_INIT` only, and goes on with the
session when that is the state behind `generateDRMSession` too. -/
def step (s : State) : Act → Option State
  | .generateDRMSession =>
      if s.pc = .idle ∧ s.adapter.m_eKeyState = .KEY_INIT then some s.generateDRMSession
      else none
  | .constructed result => if s.pc = .constructing then some (s.constructed result) else none
  | .generateKeyRequest timeout =>
      if s.pc = .idle ∧ s.bound then
        some { s with adapter.m_eKeyState := .KEY_ERROR, pc := .entering .challenge timeout }
      else none
  | .processDRMKey key timeout =>
      if s.pc = .idle ∧ s.bound then
        some { s with pc := if key.isSome then .updating timeout else .entering .status timeout }
      else none
  | .updated error =>
      match s.pc with
      | .updating timeout =>
          some (if error then s.finish (-1) s.adapter.m_eKeyState
            else { s with pc := .entering .status timeout })
      | _ => none
  | .enterWait =>
      match s.pc with
      | .entering w timeout => some (s.enterWait w timeout)
      | _ => none
  | .wake timedOut =>
      match s.pc with
      | .blocked w timeout =>
          if timedOut ∧ timeout = 0 then none else some (s.leaveWait (!timedOut) w)
      | _ => none
  | .checkEarlyKey answer =>
      if s.pc = .checking then
        some { (if s.adapter.m_keyStateIndeterminate then s.status answer else s) with
          pc := .comparing .usable }
      else none
  | .compareStatus =>
      match s.pc with
      | .comparing c => some (s.compareStatus c)
      | _ => none
  | .returnStatus =>
      if s.pc = .returning then some (s.finish s.adapter.m_keyStatus.value .KEY_ERROR) else none
  | .clearDecryptContext => if s.pc = .idle then some s.clearDecryptContext else none
  | .processOCDMChallenge destUrl challengeData =>
      if s.pc = .killed then none
      else
        let (a, calls) := s.adapter.processOCDMChallenge destUrl challengeData
        some { s with adapter := a, callbacks := calls ++ s.callbacks }
  | .keyUpdateOCDM key answer =>
      if s.pc = .killed then none else some (s.keyUpdateOCDM key answer)
  | .keysUpdatedOCDM =>
      if s.pc = .killed then none else some { s with adapter := s.adapter.keysUpdatedOCDM }
  | .waitForState state timeout =>
      if s.pc = .killed ∨ s.waiter.isSome then none else some (s.waitForState state timeout)
  | .waiterWakes timedOut =>
      match s.waiter with
      | some (state, timeout) =>
          if s.pc = .killed ∨ timedOut ∧ timeout = 0 then none
          else some (s.leaveWaitForState state (!timedOut))
      | none => none

end State

/-- The adapter as `DrmSessionManager` uses it, from its construction. -/
def adapterSystem : System State Act where
  init s := ∃ m_pOpenCDMSystem m_drmCallbacks, s = .start m_pOpenCDMSystem m_drmCallbacks
  step := State.step

end PlayerInterface.Ocdm
