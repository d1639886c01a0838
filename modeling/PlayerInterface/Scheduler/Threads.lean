import PlayerInterface.Core.Transition
import PlayerInterface.Scheduler.Queue

/-!
# Clients and the worker of the scheduler

A step is what a thread does between two points at which it takes or gives up a
lock. `mQMutex` is held within a step only; `mExMutex` is held by the worker from
before it takes a task until the task has run, or by a client through `mExLock`.
Tasks may call the scheduler too: their calls are client calls.
-/

namespace PlayerInterface.Scheduler

open PlayerInterface.Core

/-- Where `ExecuteAsyncTask` stands. -/
inductive Worker (τ : Type) where
  | notStarted
  /-- about to lock `mQMutex` and to test the loop condition -/
  | ready
  | waiting
  | wantsEx
  /-- has `mExMutex`, about to lock `mQMutex` -/
  | hasEx
  | executing (obj : PlayerAsyncTaskObj τ)
  | exited
deriving DecidableEq, Repr

def Worker.holdsEx {τ : Type} : Worker τ → Bool
  | hasEx | executing _ => true
  | _ => false

inductive Returned where
  | none
  | taskId (id : Nat)
  | removed (ret : Bool)
  /-- `mExLock` threw: locked while owned, or unlocked while not -/
  | threw
deriving DecidableEq, Repr

/-- Where a client stands in its call; `stopping` when `StopScheduler` makes it. -/
inductive Client (τ : Type) where
  | idle (returned : Returned)
  | scheduling (task : τ)
  | suspending (stopping : Bool)
  | lockingOut (stopping : Bool)
  | resuming (stopping : Bool)
  | stopping
  /-- `StopScheduler` has found `mLockOut` false -/
  | callingSuspend
  | clearing
  | unlocking
  | notifying
  | joining
deriving DecidableEq, Repr

/-- `mExLock` is the flag of the lock: a client holds `mExMutex`. -/
structure State (ι τ : Type) where
  sched : PlayerScheduler τ := {}
  worker : Worker τ := .notStarted
  mExLock : Bool := false
  client : ι → Client τ := fun _ => .idle .none

inductive Act (ι τ : Type) where
  | StartScheduler
  | ScheduleTask (i : ι) (task : τ)
  | RemoveTask (i : ι) (id : Nat)
  | RemoveAllTasks (i : ι)
  | SuspendScheduler (i : ι)
  | ResumeScheduler (i : ι)
  | EnableScheduleTask (i : ι)
  | StopScheduler (i : ι)
  /-- the next section of the call under way -/
  | advance (i : ι)
  /-- a spurious wake-up of the worker -/
  | wake
  | testLoop
  | lockEx
  | takeTask
  | finishTask

variable {ι τ : Type} [DecidableEq ι]

namespace State

def setClient (s : State ι τ) (i : ι) (c : Client τ) : State ι τ :=
  { s with client := fun j => if j = i then c else s.client j }

theorem setClient_self (s : State ι τ) (i : ι) (c : Client τ) : (s.setClient i c).client i = c :=
  if_pos rfl

def withSched (s : State ι τ) (p : PlayerScheduler τ) : State ι τ :=
  { s with sched := p }

/-- `mQCond.notify_one()`. -/
def notify (s : State ι τ) : State ι τ :=
  { s with worker := match s.worker with
      | .waiting => .ready
      | worker => worker }

/-- From the loop condition to the next point at which the worker gives up
`mQMutex`; it has given up `mExMutex` before. -/
def testLoop (s : State ι τ) : State ι τ :=
  { s with worker :=
      if s.sched.mSchedulerRunning then
        if s.sched.mTaskQueue.isEmpty then .waiting else .wantsEx
      else .exited }

end State

/-- A call of an idle client, up to its first lock. -/
def callStep (s : State ι τ) : Act ι τ → Option (State ι τ)
  | .ScheduleTask i task =>
      if s.sched.mSchedulerRunning then some (s.setClient i (.scheduling task))
      else some (s.setClient i (.idle (.taskId PLAYER_TASK_ID_INVALID)))
  | .RemoveTask i id =>
      let r := s.sched.RemoveTask id
      some ((s.withSched r.2).setClient i (.idle (.removed r.1)))
  | .RemoveAllTasks i => some ((s.withSched s.sched.RemoveAllTasks).setClient i (.idle .none))
  | .SuspendScheduler i =>
      if s.mExLock then some (s.setClient i (.idle .threw))
      else some (s.setClient i (.suspending false))
  | .ResumeScheduler i =>
      if s.mExLock then some ({ s with mExLock := false }.setClient i (.resuming false))
      else some (s.setClient i (.idle .threw))
  | .EnableScheduleTask i => some ((s.withSched (s.sched.setLockOut false)).setClient i (.idle .none))
  | .StopScheduler i => some ((s.withSched (s.sched.setRunning false)).setClient i .stopping)
  | _ => none

/-- The next section of a call. -/
def advanceStep (s : State ι τ) (i : ι) : Option (State ι τ) :=
  match s.client i with
  | .idle _ => none
  | .scheduling task =>
      let r := s.sched.ScheduleTask task
      let s := (s.withSched r.2).setClient i (.idle (.taskId r.1))
      some (if r.1 ≠ PLAYER_TASK_ID_INVALID then s.notify else s)
  | .suspending stopping =>
      if s.mExLock || s.worker.holdsEx then none
      else some ({ s with mExLock := true }.setClient i (.lockingOut stopping))
  | .lockingOut stopping =>
      some ((s.withSched (s.sched.setLockOut true)).setClient i
        (if stopping then .clearing else .idle .none))
  | .resuming stopping =>
      some ((s.withSched (s.sched.setLockOut false)).setClient i
        (if stopping then .notifying else .idle .none))
  | .stopping => some (s.setClient i (if s.sched.mLockOut then .clearing else .callingSuspend))
  | .callingSuspend =>
      if s.mExLock then some (s.setClient i (.idle .threw))
      else some (s.setClient i (.suspending true))
  | .clearing => some ((s.withSched s.sched.RemoveAllTasks).setClient i .unlocking)
  | .unlocking =>
      if s.mExLock then some ({ s with mExLock := false }.setClient i (.resuming true))
      else some (s.setClient i (.idle .threw))
  | .notifying => some (s.notify.setClient i .joining)
  | .joining =>
      match s.worker with
      | .exited | .notStarted => some (s.setClient i (.idle .none))
      | _ => none

def workerStep (s : State ι τ) : Act ι τ → Option (State ι τ)
  | .wake =>
      match s.worker with
      | .waiting => some { s with worker := .ready }
      | _ => none
  | .testLoop =>
      match s.worker with
      | .ready => some s.testLoop
      | _ => none
  | .lockEx =>
      match s.worker with
      | .wantsEx => if s.mExLock then none else some { s with worker := .hasEx }
      | _ => none
  | .takeTask =>
      match s.worker with
      | .hasEx =>
          match s.sched.takeTask with
          | (some obj, p) => some { s.withSched p with worker := .executing obj }
          | (none, p) => some (s.withSched p).testLoop
      | _ => none
  | .finishTask =>
      match s.worker with
      | .executing _ => some s.testLoop
      | _ => none
  | _ => none

/-- The client a call is made by. -/
def Act.caller : Act ι τ → Option ι
  | ScheduleTask i _ | RemoveTask i _ | RemoveAllTasks i | SuspendScheduler i | ResumeScheduler i
  | EnableScheduleTask i | StopScheduler i => some i
  | _ => none

def schedulerStep (s : State ι τ) (a : Act ι τ) : Option (State ι τ) :=
  match a with
  | .StartScheduler =>
      match s.worker with
      | .notStarted => some { s.withSched (s.sched.setRunning true) with worker := .ready }
      | _ => none
  | .advance i => advanceStep s i
  | a =>
      match a.caller with
      | some i =>
          match s.client i with
          | .idle _ => callStep s a
          | _ => none
      | none => workerStep s a

def schedulerSystem (ι τ : Type) [DecidableEq ι] : System (State ι τ) (Act ι τ) where
  init s := s = {}
  step := schedulerStep

/-! ## One step -/

/-- What the section of a client does to the queue. -/
inductive ClientSection (p : PlayerScheduler τ) : PlayerScheduler τ → Prop where
  | nothing : ClientSection p p
  | ScheduleTask (task : τ) : ClientSection p (p.ScheduleTask task).2
  | RemoveTask (id : Nat) : ClientSection p (p.RemoveTask id).2
  | RemoveAllTasks : ClientSection p p.RemoveAllTasks
  | setLockOut (lockOut : Bool) : ClientSection p (p.setLockOut lockOut)
  | setRunning (running : Bool) : ClientSection p (p.setRunning running)

/-- Everything a step can do to the queue, the worker and `mExMutex`. -/
inductive StepTo (s t : State ι τ) : Prop where
  /-- a section of a client, which may wake or start the worker -/
  | client : ClientSection s.sched t.sched →
      (t.worker = s.worker ∨ s.worker.holdsEx = false ∧ t.worker = .ready) →
      t.mExLock = s.mExLock → StepTo s t
  | suspended : s.mExLock = false → s.worker.holdsEx = false → t.mExLock = true →
      t.sched = s.sched → t.worker = s.worker → StepTo s t
  | released : s.mExLock = true → t.mExLock = false → t.sched = s.sched → t.worker = s.worker →
      StepTo s t
  /-- the worker goes on without `mExMutex` -/
  | loops : t.sched = s.sched → t.worker.holdsEx = false → t.mExLock = s.mExLock → StepTo s t
  | locksEx : s.mExLock = false → t.mExLock = false → t.sched = s.sched → t.worker = .hasEx →
      StepTo s t
  | takes : s.worker = .hasEx → t.sched = s.sched.takeTask.2 → t.mExLock = s.mExLock → StepTo s t

omit [DecidableEq ι] in
theorem notify_worker (s : State ι τ) :
    s.notify.worker = s.worker ∨ s.worker.holdsEx = false ∧ s.notify.worker = .ready := by
  unfold State.notify
  cases s.worker with
  | waiting => exact Or.inr ⟨rfl, rfl⟩
  | _ => exact Or.inl rfl

omit [DecidableEq ι] in
theorem testLoop_holdsEx (s : State ι τ) : s.testLoop.worker.holdsEx = false := by
  unfold State.testLoop
  dsimp only
  split
  · split <;> rfl
  · rfl

theorem callStep_stepTo {s t : State ι τ} {a : Act ι τ} (h : callStep s a = some t) :
    StepTo s t := by
  cases a with
  | ScheduleTask i task =>
      simp only [callStep] at h
      split at h <;> cases h <;> exact .client .nothing (Or.inl rfl) rfl
  | RemoveTask i id =>
      cases h
      exact .client (.RemoveTask id) (Or.inl rfl) rfl
  | RemoveAllTasks i =>
      cases h
      exact .client .RemoveAllTasks (Or.inl rfl) rfl
  | SuspendScheduler i =>
      simp only [callStep] at h
      split at h <;> cases h <;> exact .client .nothing (Or.inl rfl) rfl
  | ResumeScheduler i =>
      simp only [callStep] at h
      split at h
      · rename_i hl
        cases h
        exact .released hl rfl rfl rfl
      · cases h
        exact .client .nothing (Or.inl rfl) rfl
  | EnableScheduleTask i =>
      cases h
      exact .client (.setLockOut false) (Or.inl rfl) rfl
  | StopScheduler i =>
      cases h
      exact .client (.setRunning false) (Or.inl rfl) rfl
  | _ => cases h

theorem advanceStep_stepTo {s t : State ι τ} {i : ι} (h : advanceStep s i = some t) :
    StepTo s t := by
  unfold advanceStep at h
  split at h
  · cases h
  · rename_i task _
    have hq : ClientSection s.sched (s.sched.ScheduleTask task).2 := .ScheduleTask task
    dsimp only at h
    split at h
    · cases h
      have hn := notify_worker ((s.withSched (s.sched.ScheduleTask task).2).setClient i
        (.idle (.taskId (s.sched.ScheduleTask task).1)))
      exact .client hq hn rfl
    · cases h
      exact .client hq (Or.inl rfl) rfl
  · split at h
    · cases h
    · rename_i hfree
      rw [Bool.not_eq_true, Bool.or_eq_false_iff] at hfree
      cases h
      exact .suspended hfree.1 hfree.2 rfl rfl rfl
  · cases h
    exact .client (.setLockOut true) (Or.inl rfl) rfl
  · cases h
    exact .client (.setLockOut false) (Or.inl rfl) rfl
  · cases h
    exact .client .nothing (Or.inl rfl) rfl
  · split at h <;> cases h <;> exact .client .nothing (Or.inl rfl) rfl
  · cases h
    exact .client .RemoveAllTasks (Or.inl rfl) rfl
  · split at h
    · rename_i hl
      cases h
      exact .released hl rfl rfl rfl
    · cases h
      exact .client .nothing (Or.inl rfl) rfl
  · cases h
    exact .client .nothing (notify_worker s) rfl
  · split at h
    · cases h
      exact .client .nothing (Or.inl rfl) rfl
    · cases h
      exact .client .nothing (Or.inl rfl) rfl
    · cases h

omit [DecidableEq ι] in
theorem workerStep_stepTo {s t : State ι τ} {a : Act ι τ} (h : workerStep s a = some t) :
    StepTo s t := by
  cases a with
  | wake =>
      simp only [workerStep] at h
      split at h
      · cases h
        exact .loops rfl rfl rfl
      · cases h
  | testLoop =>
      simp only [workerStep] at h
      split at h
      · cases h
        exact .loops rfl (testLoop_holdsEx s) rfl
      · cases h
  | lockEx =>
      simp only [workerStep] at h
      split at h
      · split at h
        · cases h
        · rename_i hl
          cases h
          exact .locksEx (Bool.not_eq_true _ ▸ hl) (Bool.not_eq_true _ ▸ hl) rfl rfl
      · cases h
  | takeTask =>
      simp only [workerStep] at h
      split at h
      · rename_i hw
        split at h
        · rename_i obj p htake
          cases h
          exact .takes hw (by rw [htake]; rfl) rfl
        · rename_i p htake
          cases h
          exact .takes hw (by rw [htake]; rfl) rfl
      · cases h
  | finishTask =>
      simp only [workerStep] at h
      split at h
      · cases h
        exact .loops rfl (testLoop_holdsEx s) rfl
      · cases h
  | _ => cases h

/-- A step starts the scheduler, takes a client on, or is made by an idle client or the worker. -/
theorem schedulerStep_cases {s t : State ι τ} {a : Act ι τ} (h : schedulerStep s a = some t) :
    (a = .StartScheduler ∧ s.worker = .notStarted ∧
      t = { s.withSched (s.sched.setRunning true) with worker := .ready }) ∨
    (∃ i, a = .advance i ∧ advanceStep s i = some t) ∨
    callStep s a = some t ∨ workerStep s a = some t := by
  have hother : (match a.caller with
      | some i =>
          match s.client i with
          | .idle _ => callStep s a
          | _ => none
      | none => workerStep s a) = some t → callStep s a = some t ∨ workerStep s a = some t := by
    intro h
    split at h
    · split at h
      · exact .inl h
      · cases h
    · exact .inr h
  unfold schedulerStep at h
  split at h
  · split at h
    · rename_i hw
      cases h
      exact .inl ⟨rfl, hw, rfl⟩
    · cases h
  · exact .inr (.inl ⟨_, rfl, h⟩)
  · exact .inr (.inr (hother h))

theorem schedulerStep_stepTo {s t : State ι τ} {a : Act ι τ} (h : schedulerStep s a = some t) :
    StepTo s t := by
  obtain ⟨-, hw, rfl⟩ | ⟨i, -, hadvance⟩ | hcall | hworker := schedulerStep_cases h
  · exact .client (.setRunning true) (Or.inr ⟨by rw [hw]; rfl, rfl⟩) rfl
  · exact advanceStep_stepTo hadvance
  · exact callStep_stepTo hcall
  · exact workerStep_stepTo hworker

end PlayerInterface.Scheduler
