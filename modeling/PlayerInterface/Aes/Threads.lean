import PlayerInterface.Aes.Decryptor

/-!
# Callers and the key thread

A caller gives `mMutex` up while it waits on `mCond` and keeps it while it joins
the key thread; every other section is one step. A wait may end at any time: by
a notification, a timeout or a spurious wake-up.
-/

namespace PlayerInterface.Aes

open PlayerInterface.Core

/-- The key thread; its last section, the signal, needs `mMutex`. -/
inductive KeyThread where
  | none
  | started
  | resolved (keyURI : List Char)
  | fetched (keyAcquisitionStatus : Bool)
  | done
deriving DecidableEq, Repr

/-- The thread runs and has not taken `mMutex` yet. -/
def KeyThread.beforeLock : KeyThread → Bool
  | started | resolved _ | fetched _ => true
  | none | done => false

inductive Caller where
  | idle (returned : Option DrmReturn)
  | setWait (drmInfo : DrmInfo)
  | decryptWait
  | releaseWait
deriving DecidableEq, Repr

/-- The function that joins, with what it returns when no thread can be created. -/
inductive Join where
  | SetDecryptInfo (err : DrmReturn)
  | Release
deriving DecidableEq, Repr

/-- `joining` is the caller that holds `mMutex` in `join()`. -/
structure State (ι : Type) where
  dec : AesDec := {}
  thread : KeyThread := .none
  caller : ι → Caller := fun _ => .idle none
  joining : Option (ι × Join) := none

inductive Act (ι : Type) where
  | SetDecryptInfo (i : ι) (drmInfo : DrmInfo) (created : Bool)
  | Decrypt (i : ι) (evpOk : Bool)
  | Release (i : ι)
  | CancelKeyWait (i : ι)
  | RestoreKeyState (i : ι)
  /-- the wait of a caller ends; the flags are those of the function that waits -/
  | wake (i : ι) (timedOut created evpOk : Bool)
  | joined (created : Bool)
  | resolve
  | fetch (keyAcquisitionStatus : Bool)
  | signal

variable {ι : Type} [DecidableEq ι]

namespace State

def setCaller (s : State ι) (i : ι) (c : Caller) : State ι :=
  { s with caller := fun j => if j = i then c else s.caller j }

@[simp] theorem setCaller_dec (s : State ι) (i : ι) (c : Caller) :
    (s.setCaller i c).dec = s.dec := rfl

@[simp] theorem setCaller_thread (s : State ι) (i : ι) (c : Caller) :
    (s.setCaller i c).thread = s.thread := rfl

@[simp] theorem setCaller_joining (s : State ι) (i : ι) (c : Caller) :
    (s.setCaller i c).joining = s.joining := rfl

def createThread (s : State ι) (i : ι) (err : DrmReturn) (created : Bool) : State ι :=
  ({ s with
    dec := s.dec.threadCreated created
    thread := if created then .started else s.thread }).setCaller i
      (.idle (some (if created then .eDRM_SUCCESS else err)))

/-- `SetDecryptInfo` behind its wait. -/
def setInfo (s : State ι) (i : ι) (drmInfo : DrmInfo) (err : DrmReturn) (created : Bool) :
    State ι :=
  if (s.dec.storeInfo drmInfo).sameUrl drmInfo then
    ({ s with dec := s.dec.storeInfo drmInfo }).setCaller i (.idle (some .eDRM_SUCCESS))
  else if s.dec.licenseAcquisitionThreadStarted then
    { s with dec := s.dec.beginAcquire drmInfo, joining := some (i, .SetDecryptInfo err) }
  else ({ s with dec := s.dec.beginAcquire drmInfo }).createThread i err created

/-- `Release` behind its wait. -/
def release (s : State ι) (i : ι) : State ι :=
  if s.dec.licenseAcquisitionThreadStarted then { s with joining := some (i, .Release) }
  else s.setCaller i (.idle none)

def decrypt (s : State ι) (i : ι) (err : DrmReturn) (evpOk : Bool) : State ι :=
  s.setCaller i (.idle (some (s.dec.Decrypt err evpOk)))

end State

def waitResult (timedOut : Bool) : DrmReturn :=
  if timedOut then .eDRM_KEY_ACQUISITION_TIMEOUT else .eDRM_ERROR

/-- The sections that take `mMutex`. -/
def lockedStep (s : State ι) : Act ι → Option (State ι)
  | .SetDecryptInfo i drmInfo created =>
      match s.caller i with
      | .idle _ =>
          if s.dec.mDrmState = .eDRM_ACQUIRING_KEY then some (s.setCaller i (.setWait drmInfo))
          else some (s.setInfo i drmInfo .eDRM_ERROR created)
      | _ => none
  | .Decrypt i evpOk =>
      match s.caller i with
      | .idle _ =>
          if s.dec.mDrmState = .eDRM_ACQUIRING_KEY then some (s.setCaller i .decryptWait)
          else some (s.decrypt i .eDRM_ERROR evpOk)
      | _ => none
  | .Release i =>
      match s.caller i with
      | .idle _ => if s.dec.releaseWaits then some (s.setCaller i .releaseWait) else some (s.release i)
      | _ => none
  | .CancelKeyWait i =>
      match s.caller i with
      | .idle _ => some ({ s with dec := s.dec.CancelKeyWait }.setCaller i (.idle none))
      | _ => none
  | .RestoreKeyState i =>
      match s.caller i with
      | .idle _ => some ({ s with dec := s.dec.RestoreKeyState }.setCaller i (.idle none))
      | _ => none
  | .wake i timedOut created evpOk =>
      match s.caller i with
      | .idle _ => none
      | .setWait drmInfo => some (s.setInfo i drmInfo (waitResult timedOut) created)
      | .decryptWait => some (s.decrypt i (waitResult timedOut) evpOk)
      | .releaseWait => some (s.release i)
  | .signal =>
      match s.thread with
      | .fetched status => some { s with dec := s.dec.signal status, thread := .done }
      | _ => none
  | .joined _ | .resolve | .fetch _ => none

def aesStep (s : State ι) : Act ι → Option (State ι)
  | .resolve =>
      -- reads mDrmInfo without the mutex; a base without protocol ends the process
      match s.thread with
      | .started => s.dec.mDrmInfo.keyUrl.map fun keyURI => { s with thread := .resolved keyURI }
      | _ => none
  | .fetch status =>
      match s.thread with
      | .resolved keyURI =>
          some { s with dec := { s.dec with m_ptr := some keyURI }, thread := .fetched status }
      | _ => none
  | .joined created =>
      match s.joining with
      | none => none
      | some (i, join) =>
          if s.thread.beforeLock then none
          else
            let s := { s with dec := s.dec.threadJoined, joining := none }
            match join with
            | .SetDecryptInfo err => some (s.createThread i err created)
            | .Release => some (s.setCaller i (.idle none))
  | a => if s.joining.isNone then lockedStep s a else none

/-- Runs from a new `AesDec`. -/
def aesSystem (ι : Type) [DecidableEq ι] : System (State ι) (Act ι) where
  init s := s = {}
  step := aesStep

/-! ## One step -/

/-- Everything a step can do. -/
inductive StepTo (s : State ι) : Act ι → State ι → Prop where
  /-- a caller goes to its wait, or returns from a `Decrypt` -/
  | calls {a} (i : ι) (c : Caller) : s.joining = none → StepTo s a (s.setCaller i c)
  | setInfo {a} (i : ι) (drmInfo : DrmInfo) (err : DrmReturn) (created : Bool) :
      s.joining = none →
      ((∃ r, s.caller i = .idle r) ∧ a = .SetDecryptInfo i drmInfo created ∧
          s.dec.mDrmState ≠ .eDRM_ACQUIRING_KEY ∨
        s.caller i = .setWait drmInfo ∧ ∃ timedOut evpOk, a = .wake i timedOut created evpOk) →
      StepTo s a (s.setInfo i drmInfo err created)
  | release {a} (i : ι) : s.joining = none →
      (a = .Release i ∧ s.dec.releaseWaits = false ∨
        s.caller i = .releaseWait ∧ ∃ timedOut created evpOk, a = .wake i timedOut created evpOk) →
      StepTo s a (s.release i)
  | CancelKeyWait (i : ι) : s.joining = none →
      StepTo s (.CancelKeyWait i) ({ s with dec := s.dec.CancelKeyWait }.setCaller i (.idle none))
  | RestoreKeyState (i : ι) : s.joining = none →
      StepTo s (.RestoreKeyState i)
        ({ s with dec := s.dec.RestoreKeyState }.setCaller i (.idle none))
  | signal {status} : s.joining = none → s.thread = .fetched status →
      StepTo s .signal { s with dec := s.dec.signal status, thread := .done }
  | resolve {keyURI} : s.thread = .started → s.dec.mDrmInfo.keyUrl = some keyURI →
      StepTo s .resolve { s with thread := .resolved keyURI }
  | fetch {keyURI status} : s.thread = .resolved keyURI →
      StepTo s (.fetch status)
        { s with dec := { s.dec with m_ptr := some keyURI }, thread := .fetched status }
  | recreated {i err created} : s.joining = some (i, .SetDecryptInfo err) →
      s.thread.beforeLock = false →
      StepTo s (.joined created)
        ({ s with dec := s.dec.threadJoined, joining := none }.createThread i err created)
  | released {i created} : s.joining = some (i, .Release) → s.thread.beforeLock = false →
      StepTo s (.joined created)
        ({ s with dec := s.dec.threadJoined, joining := none }.setCaller i (.idle none))

theorem lockedStep_cases {s t : State ι} {a : Act ι} (hfree : s.joining = none)
    (h : lockedStep s a = some t) : StepTo s a t := by
  cases a with
  | SetDecryptInfo i drmInfo created =>
      simp only [lockedStep] at h
      split at h
      · rename_i r hr
        by_cases hacq : s.dec.mDrmState = .eDRM_ACQUIRING_KEY
        · rw [if_pos hacq] at h
          cases h
          exact .calls i _ hfree
        · rw [if_neg hacq] at h
          cases h
          exact .setInfo i drmInfo _ created hfree (Or.inl ⟨⟨r, hr⟩, rfl, hacq⟩)
      · cases h
  | Decrypt i evpOk =>
      simp only [lockedStep] at h
      split at h
      · by_cases hacq : s.dec.mDrmState = .eDRM_ACQUIRING_KEY
        · rw [if_pos hacq] at h
          cases h
          exact .calls i _ hfree
        · rw [if_neg hacq] at h
          cases h
          exact .calls i _ hfree
      · cases h
  | Release i =>
      simp only [lockedStep] at h
      split at h
      · cases hw : s.dec.releaseWaits with
        | true =>
            simp only [hw, if_true] at h
            cases h
            exact .calls i _ hfree
        | false =>
            rw [hw, if_neg Bool.false_ne_true] at h
            cases h
            exact .release i hfree (Or.inl ⟨rfl, hw⟩)
      · cases h
  | CancelKeyWait i =>
      simp only [lockedStep] at h
      split at h
      · cases h
        exact .CancelKeyWait i hfree
      · cases h
  | RestoreKeyState i =>
      simp only [lockedStep] at h
      split at h
      · cases h
        exact .RestoreKeyState i hfree
      · cases h
  | wake i timedOut created evpOk =>
      simp only [lockedStep] at h
      split at h
      · cases h
      · rename_i drmInfo hc
        cases h
        exact .setInfo i drmInfo _ created hfree (Or.inr ⟨hc, timedOut, evpOk, rfl⟩)
      · cases h
        exact .calls i _ hfree
      · rename_i hc
        cases h
        exact .release i hfree (Or.inr ⟨hc, timedOut, created, evpOk, rfl⟩)
  | signal =>
      simp only [lockedStep] at h
      split at h
      · rename_i status ht
        cases h
        exact .signal hfree ht
      · cases h
  | _ => cases h

theorem aesStep_cases {s t : State ι} {a : Act ι} (h : aesStep s a = some t) : StepTo s a t := by
  have hlocked : (if s.joining.isNone then lockedStep s a else none) = some t → StepTo s a t := by
    intro h
    by_cases hfree : s.joining.isNone = true
    · rw [if_pos hfree] at h
      exact lockedStep_cases (Option.isNone_iff_eq_none.mp hfree) h
    · rw [if_neg hfree] at h
      cases h
  cases a with
  | resolve =>
      simp only [aesStep] at h
      split at h
      · rename_i ht
        rcases Option.map_eq_some_iff.mp h with ⟨keyURI, hk, rfl⟩
        exact .resolve ht hk
      · cases h
  | fetch status =>
      simp only [aesStep] at h
      split at h
      · rename_i keyURI ht
        cases h
        exact .fetch ht
      · cases h
  | joined created =>
      simp only [aesStep] at h
      split at h
      · cases h
      · rename_i i join hj
        cases hb : s.thread.beforeLock with
        | true =>
            rw [hb, if_pos rfl] at h
            cases h
        | false =>
            rw [hb, if_neg Bool.false_ne_true] at h
            cases join with
            | SetDecryptInfo err =>
                cases h
                exact .recreated hj hb
            | Release =>
                cases h
                exact .released hj hb
  | _ => exact hlocked h

end PlayerInterface.Aes
