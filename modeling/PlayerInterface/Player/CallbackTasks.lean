import PlayerInterface.Core.Transition
import PlayerInterface.Scheduler.Queue

/-!
# The end-of-stream and first-frame callbacks

Each callback has an id and a pending flag, two fields of their own that no mutex
guards: every read and every write of one is a step, and so is every section of the
scheduler. Any number of threads call `NotifyEOS`, the scheduling part of
`NotifyFirstFrame`, `Flush` and `Stop`; the worker may take a task before the id that
`ScheduleTask` returned is stored.
-/

namespace PlayerInterface.Player

open PlayerInterface.Core PlayerInterface.Scheduler

inductive CallbackTask where
  | eosCallback
  | firstFrameCallback
deriving DecidableEq, Repr

/-- `eosCallbackIdleTaskId` and `eosCallbackIdleTaskPending`, or those of the first frame. -/
structure CallbackTaskData where
  IdleTaskId : Nat := PLAYER_TASK_ID_INVALID
  IdleTaskPending : Bool := false
deriving DecidableEq, Repr

inductive CallbackFunction where
  | IdleCallbackOnEOS
  | IdleCallbackOnFirstFrame
  | other
deriving DecidableEq, Repr

def CallbackFunction.task : CallbackFunction → Option CallbackTask
  | IdleCallbackOnEOS => some .eosCallback
  | IdleCallbackOnFirstFrame => some .firstFrameCallback
  | other => none

def CallbackTask.function : CallbackTask → CallbackFunction
  | eosCallback => .IdleCallbackOnEOS
  | firstFrameCallback => .IdleCallbackOnFirstFrame

/-- `Flush` clears the id before the flag, `Stop` the flag before the id. -/
inductive Remover where
  | Flush
  | Stop
deriving DecidableEq, Repr

/-- What a thread does next. -/
inductive CallPoint where
  | idle
  | testEosSignalled
  | testEosPending
  | setEosPending
  | setEosSignalled
  | testNotified
  | setNotified
  | clearFramePending
  | scheduleTask (c : CallbackTask)
  /-- `ScheduleTask` has returned the id -/
  | storeId (c : CallbackTask) (id : Nat)
  /-- the stored id is read again -/
  | testStored (c : CallbackTask)
  | testEosRefused
  | clearEosPending
  | setFramePending
  | testRemove (r : Remover) (c : CallbackTask)
  | readId (r : Remover) (c : CallbackTask)
  | removeTask (r : Remover) (c : CallbackTask) (id : Nat)
  | clearFirst (r : Remover) (c : CallbackTask)
  | clearSecond (r : Remover) (c : CallbackTask)
deriving DecidableEq, Repr

/-- A callback has called `TriggerEvent` or not; then it clears the id, then the flag. -/
inductive CallbackPoint where
  | triggerEvent
  | clearId
  | clearPending
  | returned
deriving DecidableEq, Repr

inductive CallbackWorker where
  | idle
  | running (obj : PlayerAsyncTaskObj CallbackFunction) (point : CallbackPoint)
deriving DecidableEq, Repr

structure CallbackState (ρ : Type) where
  sched : PlayerScheduler CallbackFunction := {}
  data : CallbackTask → CallbackTaskData := fun _ => {}
  eosSignalled : Bool := false
  decoderHandleNotified : Bool := false
  /-- `mMutex` is held by a `Stop` -/
  stopping : Bool := false
  calls : ρ → CallPoint := fun _ => .idle
  worker : CallbackWorker := .idle

inductive CallbackAct (ρ : Type) where
  | setRunning (running : Bool)
  | setLockOut (lockOut : Bool)
  /-- some other function is scheduled -/
  | scheduleOther
  /-- `Configure`, `Flush` and `ResetEOSSignalledFlag` -/
  | resetEosSignalled
  /-- `DestroyPipeline`, `TearDownStream` and `DisableDecoderHandleNotified` -/
  | resetNotified
  | NotifyEOS (p : ρ)
  | NotifyFirstFrame (p : ρ)
  | Flush (p : ρ)
  | Stop (p : ρ)
  | advance (p : ρ)
  | take
  | callback
deriving DecidableEq, Repr

namespace CallbackState

variable {ρ : Type} [DecidableEq ρ]

def goto (s : CallbackState ρ) (p : ρ) (point : CallPoint) : CallbackState ρ :=
  { s with calls := Function.update s.calls p point }

def setId (s : CallbackState ρ) (c : CallbackTask) (id : Nat) : CallbackState ρ :=
  { s with data := Function.update s.data c { s.data c with IdleTaskId := id } }

def setPending (s : CallbackState ρ) (c : CallbackTask) (pending : Bool) : CallbackState ρ :=
  { s with data := Function.update s.data c { s.data c with IdleTaskPending := pending } }

/-- `ScheduleTask` with its test of the running flag. -/
def ScheduleTask (s : CallbackState ρ) (f : CallbackFunction) :
    Nat × PlayerScheduler CallbackFunction :=
  if s.sched.mSchedulerRunning then s.sched.ScheduleTask f
  else (PLAYER_TASK_ID_INVALID, s.sched)

/-- What follows the store: `NotifyEOS` takes its flag back for an invalid id,
`NotifyFirstFrame` sets its flag for a valid one. -/
def afterStore (id : Nat) : CallbackTask → CallPoint
  | .eosCallback => if id = PLAYER_TASK_ID_INVALID then .testEosRefused else .idle
  | .firstFrameCallback => if id ≠ PLAYER_TASK_ID_INVALID then .setFramePending else .idle

/-- `Stop` looks at the first-frame task after the end-of-stream task. -/
def removed (s : CallbackState ρ) (p : ρ) : Remover → CallbackTask → CallbackState ρ
  | .Stop, .eosCallback => s.goto p (.testRemove .Stop .firstFrameCallback)
  | .Stop, .firstFrameCallback => { s.goto p .idle with stopping := false }
  | .Flush, _ => s.goto p .idle

/-- The next step of a thread. -/
def callStep (s : CallbackState ρ) (p : ρ) : Option (CallbackState ρ) :=
  match s.calls p with
  | .idle => none
  | .testEosSignalled => some (s.goto p (if s.eosSignalled then .idle else .testEosPending))
  | .testEosPending =>
      some (s.goto p (if (s.data .eosCallback).IdleTaskPending then .idle else .setEosPending))
  | .setEosPending => some ((s.setPending .eosCallback true).goto p .setEosSignalled)
  | .setEosSignalled =>
      some { s.goto p (.scheduleTask .eosCallback) with eosSignalled := true }
  | .testNotified => some (s.goto p (if s.decoderHandleNotified then .idle else .setNotified))
  | .setNotified => some { s.goto p .clearFramePending with decoderHandleNotified := true }
  | .clearFramePending =>
      some ((s.setPending .firstFrameCallback false).goto p (.scheduleTask .firstFrameCallback))
  | .scheduleTask c =>
      let r := s.ScheduleTask c.function
      some { s.goto p (.storeId c r.1) with sched := r.2 }
  | .storeId c id => some ((s.setId c id).goto p (.testStored c))
  | .testStored c => some (s.goto p (afterStore (s.data c).IdleTaskId c))
  | .testEosRefused =>
      some (s.goto p (if (s.data .eosCallback).IdleTaskPending then .clearEosPending else .idle))
  | .clearEosPending => some ((s.setPending .eosCallback false).goto p .idle)
  | .setFramePending => some ((s.setPending .firstFrameCallback true).goto p .idle)
  | .testRemove r c =>
      some (if (s.data c).IdleTaskPending then s.goto p (.readId r c) else s.removed p r c)
  | .readId r c => some (s.goto p (.removeTask r c (s.data c).IdleTaskId))
  | .removeTask r c id =>
      some { s.goto p (.clearFirst r c) with sched := (s.sched.RemoveTask id).2 }
  | .clearFirst .Flush c => some ((s.setId c 0).goto p (.clearSecond .Flush c))
  | .clearFirst .Stop c => some ((s.setPending c false).goto p (.clearSecond .Stop c))
  | .clearSecond .Flush c => some ((s.setPending c false).removed p .Flush c)
  | .clearSecond .Stop c => some ((s.setId c 0).removed p .Stop c)

/-- A thread that does nothing starts a call. -/
def start (s : CallbackState ρ) (p : ρ) (point : CallPoint) : Option (CallbackState ρ) :=
  if s.calls p = .idle then some (s.goto p point) else none

def take (s : CallbackState ρ) : Option (CallbackState ρ) :=
  match s.worker, s.sched.takeTask with
  | .idle, (some obj, sched) =>
      some { s with sched := sched, worker := .running obj .triggerEvent }
  | .idle, (none, sched) => some { s with sched := sched }
  | _, _ => none

/-- The next step of the running task. -/
def callbackStep (s : CallbackState ρ) : Option (CallbackState ρ) :=
  match s.worker with
  | .idle => none
  | .running obj point =>
      match obj.mTask.task, point with
      | none, _ => some { s with worker := .idle }
      | some _, .triggerEvent => some { s with worker := .running obj .clearId }
      | some c, .clearId => some { s.setId c 0 with worker := .running obj .clearPending }
      | some c, .clearPending => some { s.setPending c false with worker := .running obj .returned }
      | some _, .returned => some { s with worker := .idle }

def step (s : CallbackState ρ) : CallbackAct ρ → Option (CallbackState ρ)
  | .setRunning running => some { s with sched := s.sched.setRunning running }
  | .setLockOut lockOut => some { s with sched := s.sched.setLockOut lockOut }
  | .scheduleOther => some { s with sched := (s.ScheduleTask .other).2 }
  | .resetEosSignalled => some { s with eosSignalled := false }
  | .resetNotified => some { s with decoderHandleNotified := false }
  | .NotifyEOS p => s.start p .testEosSignalled
  | .NotifyFirstFrame p => s.start p .testNotified
  | .Flush p => s.start p (.testRemove .Flush .eosCallback)
  | .Stop p =>
      if s.stopping then none
      else (s.start p (.testRemove .Stop .eosCallback)).map fun t => { t with stopping := true }
  | .advance p => s.callStep p
  | .take => s.take
  | .callback => s.callbackStep

end CallbackState

def callbackSystem (ρ : Type) [DecidableEq ρ] : System (CallbackState ρ) (CallbackAct ρ) where
  init s := s = {}
  step := CallbackState.step

end PlayerInterface.Player
