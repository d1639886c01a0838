import PlayerInterface.Core.Transition
import PlayerInterface.Scheduler.Queue

/-!
# Idle tasks and their control data

`TaskControlMutex` is held over a whole `IdleTaskAdd`, `IdleTaskRemove` or
`IdleTaskClearFlags`; the sections of the scheduler they call are steps of their
own, so the worker may take a task while its id is not recorded yet.
-/

namespace PlayerInterface.Player

open PlayerInterface.Core PlayerInterface.Scheduler

/-- The two `GstTaskControlData` of the player. -/
inductive TaskControl where
  | firstProgressCallbackIdleTask
  | firstVideoFrameDisplayedCallbackTask
deriving DecidableEq, Repr

structure GstTaskControlData where
  taskID : Nat := 0
  taskIsPending : Bool := false
deriving DecidableEq, Repr

/-- The functions scheduled; the other ones have no control data. -/
inductive IdleTask where
  | IdleCallback
  | IdleCallbackFirstVideoFrameDisplayed
  | other
deriving DecidableEq, Repr

def IdleTask.control : IdleTask → Option TaskControl
  | IdleCallback => some .firstProgressCallbackIdleTask
  | IdleCallbackFirstVideoFrameDisplayed => some .firstVideoFrameDisplayedCallbackTask
  | other => none

/-- The task that `IdleTaskAdd` is called with. -/
def TaskControl.task : TaskControl → IdleTask
  | firstProgressCallbackIdleTask => .IdleCallback
  | firstVideoFrameDisplayedCallbackTask => .IdleCallbackFirstVideoFrameDisplayed

/-- What the holder of `TaskControlMutex` is about to do; `own` when the running
task holds it, not a client. -/
inductive TaskSection where
  | free
  | adding (c : TaskControl)
  /-- `ScheduleTask` has returned the id -/
  | scheduled (c : TaskControl) (id : Nat)
  | removing (c : TaskControl) (own : Bool)
  /-- `RemoveTask` has returned -/
  | removed (c : TaskControl) (own : Bool)
  | clearing (c : TaskControl)
deriving DecidableEq, Repr

/-- The running task has cleared its control data, or not yet. -/
inductive IdleWorker where
  | idle
  | running (obj : PlayerAsyncTaskObj IdleTask) (cleared : Bool)
deriving DecidableEq, Repr

def IdleWorker.clear : IdleWorker → IdleWorker
  | running obj _ => running obj true
  | idle => idle

/-- `withdrawn` is no member: for each task that `IdleTaskRemove` took out of the
queue, whether the running task did it. -/
structure IdleState where
  sched : PlayerScheduler IdleTask := {}
  details : TaskControl → GstTaskControlData := fun _ => {}
  mutex : TaskSection := .free
  worker : IdleWorker := .idle
  withdrawn : List Bool := []

namespace IdleState

def setDetails (s : IdleState) (c : TaskControl) (d : GstTaskControlData) : IdleState :=
  { s with details := Function.update s.details c d }

/-- `ScheduleTask` with its test of the running flag. -/
def ScheduleTask (s : IdleState) (task : IdleTask) : Nat × PlayerScheduler IdleTask :=
  if s.sched.mSchedulerRunning then s.sched.ScheduleTask task
  else (PLAYER_TASK_ID_INVALID, s.sched)

/-- The end of `IdleTaskRemove` and of `IdleTaskClearFlags`. -/
def clearDetails (s : IdleState) (c : TaskControl) (own : Bool) : IdleState :=
  { s.setDetails c {} with mutex := .free, worker := if own then s.worker.clear else s.worker }

/-- The next step of the holder of `TaskControlMutex`. -/
def sectionStep (s : IdleState) : Option IdleState :=
  match s.mutex with
  | .free => none
  | .adding c =>
      if (s.details c).taskID = 0 then
        let r := s.ScheduleTask c.task
        some { s.setDetails c { s.details c with taskIsPending := false } with
          sched := r.2, mutex := .scheduled c r.1 }
      else some { s with mutex := .free }
  | .scheduled c id =>
      some { s.setDetails c { taskID := id, taskIsPending := decide (id ≠ 0) } with mutex := .free }
  | .removing c own =>
      if (s.details c).taskID ≠ 0 then
        let r := s.sched.RemoveTask (s.details c).taskID
        some { s with
          sched := r.2
          mutex := .removed c own
          withdrawn := if r.1 then s.withdrawn ++ [own] else s.withdrawn }
      else some (s.clearDetails c own)
  | .removed c own => some (s.clearDetails c own)
  | .clearing c => some (s.clearDetails c true)

/-- `IdleCallback` calls `IdleTaskClearFlags`, `IdleCallbackFirstVideoFrameDisplayed`
calls `IdleTaskRemove`. -/
def callbackSection : TaskControl → TaskSection
  | .firstProgressCallbackIdleTask => .clearing .firstProgressCallbackIdleTask
  | .firstVideoFrameDisplayedCallbackTask => .removing .firstVideoFrameDisplayedCallbackTask true

/-- The running task locks `TaskControlMutex`. -/
def lockByTask (s : IdleState) : Option IdleState :=
  match s.mutex, s.worker with
  | .free, .running obj false => obj.mTask.control.map fun c => { s with mutex := callbackSection c }
  | _, _ => none

def take (s : IdleState) : Option IdleState :=
  match s.worker, s.sched.takeTask with
  | .idle, (some obj, sched) => some { s with sched := sched, worker := .running obj false }
  | .idle, (none, sched) => some { s with sched := sched }
  | _, _ => none

/-- The running task returns. -/
def finish (s : IdleState) : Option IdleState :=
  match s.worker with
  | .running obj cleared =>
      if cleared || obj.mTask.control.isNone then some { s with worker := .idle } else none
  | .idle => none

end IdleState

inductive IdleAct where
  | setRunning (running : Bool)
  | setLockOut (lockOut : Bool)
  /-- a task without control data is scheduled -/
  | scheduleOther
  | take
  | lockByTask
  | finish
  /-- some thread calls `IdleTaskAdd` or `IdleTaskRemove` and gets the mutex -/
  | IdleTaskAdd (c : TaskControl)
  | IdleTaskRemove (c : TaskControl)
  | holder
deriving DecidableEq, Repr

def idleStep (s : IdleState) : IdleAct → Option IdleState
  | .setRunning running => some { s with sched := s.sched.setRunning running }
  | .setLockOut lockOut => some { s with sched := s.sched.setLockOut lockOut }
  | .scheduleOther => some { s with sched := (s.ScheduleTask .other).2 }
  | .take => s.take
  | .lockByTask => s.lockByTask
  | .finish => s.finish
  | .IdleTaskAdd c => if s.mutex = .free then some { s with mutex := .adding c } else none
  | .IdleTaskRemove c => if s.mutex = .free then some { s with mutex := .removing c false } else none
  | .holder => s.sectionStep

def idleSystem : System IdleState IdleAct where
  init s := s = {}
  step := idleStep

end PlayerInterface.Player
