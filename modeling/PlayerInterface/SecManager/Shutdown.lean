import PlayerInterface.Core.Locks
import PlayerInterface.Core.Transition

/-!
# Shutdown of the security manager

`DestroyInstance` deletes the manager under `InstanceMutex`, and the destructor
stops the scheduler of the watermark tasks under `mSecMutex`. The worker of the
scheduler and the event handlers that queue tasks for it go on meanwhile. A step
takes one lock, or is a section between two points at which locks are taken or
given up.
-/

namespace PlayerInterface.SecManager.Shutdown

open PlayerInterface.Core

/-! ## Threads -/

/-- The locks, and the worker's thread, which is free to be joined when it has ended. -/
inductive Lock where
  | InstanceMutex
  | mSecMutex
  | mWatMutex
  | mExMutex
  | mQMutex
  | mSchedulerThread
deriving DecidableEq, Repr

inductive Task where
  | CreateWatermark
  | UpdateWatermark
  | DeleteWatermark
  | ShowWatermark
  | ModifyWatermarkPalette
  | GetWaterMarkPalette
deriving DecidableEq, Repr

/-- Where `DestroyInstance` stands. -/
inductive Destroyer where
  | notCalled
  | lockInstance
  | hasInstance
  | lockSec
  | lockWat
  | showing
  /-- about to enter `StopScheduler` -/
  | stopping
  /-- in `SuspendScheduler` -/
  | lockEx
  | lockingOut
  | lockedOut
  /-- in `RemoveAllTasks` -/
  | clearing
  | cleared
  /-- in `ResumeScheduler` -/
  | unlockingEx
  | lettingIn
  | letIn
  | notifying
  | joining
  | joined
  | stopped
  | deleting
  | done
deriving DecidableEq, Repr

/-- Where `ExecuteAsyncTask` stands. -/
inductive Worker where
  | lockQueue
  /-- at the loop condition -/
  | testing
  | waiting
  | lockEx
  | relockQueue
  | taking
  | lockWat (task : Task)
  /-- in the call of the watermark plugin -/
  | invoking (task : Task)
  /-- in `loadClutWatermark` -/
  | lockSec
  | loading
  | finished
  | relocked
  | exited
deriving DecidableEq, Repr

/-- Where an event handler stands, with the task it schedules and those it will. -/
inductive Handler where
  | idle
  | lockInstance (task : Task) (rest : List Task)
  | getting (task : Task) (rest : List Task)
  | scheduling (task : Task) (rest : List Task)
  | lockQueue (task : Task) (rest : List Task)
  | queueing (task : Task) (rest : List Task)
deriving DecidableEq, Repr

namespace Destroyer

/-- The lock that is taken next. -/
def wants : Destroyer → Option Lock
  | lockInstance => some .InstanceMutex
  | lockSec => some .mSecMutex
  | lockWat => some .mWatMutex
  | lockEx => some .mExMutex
  | lockingOut | clearing | lettingIn => some .mQMutex
  | joining => some .mSchedulerThread
  | _ => none

def locked : Destroyer → Destroyer
  | lockInstance => hasInstance
  | lockSec => lockWat
  | lockWat => showing
  | lockEx => lockingOut
  | lockingOut => lockedOut
  | clearing => cleared
  | lettingIn => letIn
  | joining => joined
  | pc => pc

def held : Destroyer → List Lock
  | notCalled | lockInstance | done => []
  | hasInstance | lockSec | deleting => [.InstanceMutex]
  | lockWat | stopping | lockEx | lettingIn | notifying | joining | stopped =>
      [.mSecMutex, .InstanceMutex]
  | showing => [.mWatMutex, .mSecMutex, .InstanceMutex]
  | lockingOut | clearing | unlockingEx => [.mExMutex, .mSecMutex, .InstanceMutex]
  | lockedOut | cleared => [.mQMutex, .mExMutex, .mSecMutex, .InstanceMutex]
  | letIn => [.mQMutex, .mSecMutex, .InstanceMutex]
  | joined => [.mSchedulerThread, .mSecMutex, .InstanceMutex]

end Destroyer

namespace Worker

def wants : Worker → Option Lock
  | lockQueue | relockQueue | finished => some .mQMutex
  | lockEx => some .mExMutex
  | lockWat _ => some .mWatMutex
  | lockSec => some .mSecMutex
  | _ => none

def locked : Worker → Worker
  | lockQueue => testing
  | lockEx => relockQueue
  | relockQueue => taking
  | lockWat task => invoking task
  | lockSec => loading
  | finished => relocked
  | pc => pc

def held : Worker → List Lock
  | lockQueue | waiting | lockEx => [.mSchedulerThread]
  | testing => [.mQMutex, .mSchedulerThread]
  | relockQueue | lockWat _ | lockSec | finished => [.mExMutex, .mSchedulerThread]
  | taking | relocked => [.mQMutex, .mExMutex, .mSchedulerThread]
  | invoking _ => [.mWatMutex, .mExMutex, .mSchedulerThread]
  | loading => [.mSecMutex, .mExMutex, .mSchedulerThread]
  | exited => []

end Worker

namespace Handler

def schedule : List Task → Handler
  | [] => idle
  | task :: rest => lockInstance task rest

def wants : Handler → Option Lock
  | lockInstance _ _ => some .InstanceMutex
  | lockQueue _ _ => some .mQMutex
  | _ => none

def locked : Handler → Handler
  | lockInstance task rest => getting task rest
  | lockQueue task rest => queueing task rest
  | pc => pc

def held : Handler → List Lock
  | getting _ _ => [.InstanceMutex]
  | queueing _ _ => [.mQMutex]
  | _ => []

end Handler

/-! ## The system -/

inductive Party (ι : Type) where
  | destroyer
  | worker
  | handler (i : ι)
deriving DecidableEq, Repr

/-- `Instance` tells whether the pointer is the manager whose shutdown this is. -/
structure State (ι : Type) where
  destroyer : Destroyer := .notCalled
  worker : Worker := .lockQueue
  handler : ι → Handler := fun _ => .idle
  holder : Lock → Option (Party ι) := fun l =>
    if l = .mSchedulerThread then some .worker else none
  Instance : Bool := true
  mSchedulerStarted : Bool := true
  mSchedulerRunning : Bool := true
  mLockOut : Bool := false
  mTaskQueue : List Task := []

inductive Act (ι : Type) where
  | DestroyInstance
  /-- an event that schedules these tasks -/
  | event (i : ι) (tasks : List Task)
  /-- the next step of a thread; `success` is what a call of the watermark plugin brings -/
  | advance (p : Party ι) (success : Bool)
  /-- a spurious wake-up of the worker -/
  | wake

variable {ι : Type} [DecidableEq ι]

namespace State

def wants (s : State ι) : Party ι → Option Lock
  | .destroyer => s.destroyer.wants
  | .worker => s.worker.wants
  | .handler i => (s.handler i).wants

def held (s : State ι) : Party ι → List Lock
  | .destroyer => s.destroyer.held
  | .worker => s.worker.held
  | .handler i => (s.handler i).held

def locks (s : State ι) : Locks (Party ι) Lock where
  holder := s.holder
  wants := s.wants

def setHandler (s : State ι) (i : ι) (pc : Handler) : State ι :=
  { s with handler := Function.update s.handler i pc }

/-- The thread has got the lock it wants. -/
def enter (s : State ι) : Party ι → State ι
  | .destroyer => { s with destroyer := s.destroyer.locked }
  | .worker => { s with worker := s.worker.locked }
  | .handler i => s.setHandler i (s.handler i).locked

/-- `mQCond.notify_one()`. -/
def notify (s : State ι) : State ι :=
  { s with worker := if s.worker = .waiting then .lockQueue else s.worker }

def destroyerSection (s : State ι) : Option (State ι) :=
  match s.destroyer with
  | .hasInstance => some { s with destroyer := if s.Instance then .lockSec else .done }
  | .showing => some { s with destroyer := .stopping }
  | .stopping =>
      -- only this thread ever locks the scheduler out, so it calls SuspendScheduler
      if s.mSchedulerStarted then
        some { s with mSchedulerRunning := false, destroyer := .lockEx }
      else some { s with destroyer := .stopped }
  | .lockedOut => some { s with mLockOut := true, destroyer := .clearing }
  | .cleared => some { s with mTaskQueue := [], destroyer := .unlockingEx }
  | .unlockingEx => some { s with destroyer := .lettingIn }
  | .letIn => some { s with mLockOut := false, destroyer := .notifying }
  | .notifying => some { s.notify with destroyer := .joining }
  | .joined => some { s with mSchedulerStarted := false, destroyer := .stopped }
  | .stopped => some { s with destroyer := .deleting }
  | .deleting => some { s with Instance := false, destroyer := .done }
  | _ => none

def workerSection (s : State ι) (success : Bool) : Option (State ι) :=
  match s.worker with
  | .testing =>
      some
        { s with
          worker := if s.mSchedulerRunning then
            if s.mTaskQueue.isEmpty then .waiting else .lockEx
          else .exited }
  | .taking =>
      match s.mTaskQueue with
      | [] => some { s with worker := .testing }
      | task :: tasks => some { s with mTaskQueue := tasks, worker := .lockWat task }
  | .invoking task =>
      some
        { s with
          worker := if task = .GetWaterMarkPalette ∧ success then .lockSec else .finished }
  | .loading => some { s with worker := .finished }
  | .relocked => some { s with worker := .testing }
  | _ => none

/-- A handler that finds no instance makes another manager, and is done with this one. -/
def handlerSection (s : State ι) (i : ι) : Option (State ι) :=
  match s.handler i with
  | .getting task rest =>
      some (s.setHandler i (if s.Instance then .scheduling task rest else .idle))
  | .scheduling task rest =>
      some (s.setHandler i (if s.mSchedulerRunning then .lockQueue task rest else .schedule rest))
  | .queueing task rest =>
      if s.mLockOut then some (s.setHandler i (.schedule rest))
      else
        some ({ s with mTaskQueue := s.mTaskQueue ++ [task] }.notify.setHandler i (.schedule rest))
  | _ => none

def runSection (s : State ι) (success : Bool) : Party ι → Option (State ι)
  | .destroyer => s.destroyerSection
  | .worker => s.workerSection success
  | .handler i => s.handlerSection i

/-- A thread takes the lock it wants, or runs its section and gives locks up. -/
def advance (s : State ι) (p : Party ι) (success : Bool) : Option (State ι) :=
  match s.wants p with
  | some l =>
      if s.holder l = none then
        some { s.enter p with holder := Function.update s.holder l (some p) }
      else none
  | none =>
      (s.runSection success p).map fun t => { t with holder := giveUp s.holder p (t.held p) }

end State

def shutdownStep (s : State ι) : Act ι → Option (State ι)
  | .DestroyInstance =>
      if s.destroyer = .notCalled then some { s with destroyer := .lockInstance } else none
  | .event i tasks =>
      if s.handler i = .idle then
        -- getSchedulerStatus()
        some (if s.mSchedulerStarted then s.setHandler i (.schedule tasks) else s)
      else none
  | .advance p success => s.advance p success
  | .wake => if s.worker = .waiting then some { s with worker := .lockQueue } else none

/-- Runs from a manager that has been made. -/
def shutdownSystem (ι : Type) [DecidableEq ι] : System (State ι) (Act ι) where
  init s := s = {}
  step := shutdownStep

/-! ## Holders -/

theorem Destroyer.held_locked {pc : Destroyer} {l : Lock} (h : pc.wants = some l) :
    pc.locked.held = l :: pc.held := by
  cases pc <;> cases h <;> rfl

theorem Worker.held_locked {pc : Worker} {l : Lock} (h : pc.wants = some l) :
    pc.locked.held = l :: pc.held := by
  cases pc <;> cases h <;> rfl

theorem Handler.held_locked {pc : Handler} {l : Lock} (h : pc.wants = some l) :
    pc.locked.held = l :: pc.held := by
  cases pc <;> cases h <;> rfl

theorem Handler.held_schedule (tasks : List Task) : (schedule tasks).held = [] := by
  cases tasks <;> rfl

namespace State

variable {s t : State ι}

/-- The recorded holders are the threads that stand in the locked sections. -/
def Agree (s : State ι) : Prop := HoldersAgree s.holder fun p l => l ∈ s.held p

theorem setHandler_held (s : State ι) (i : ι) (pc : Handler) (q : Party ι) :
    (s.setHandler i pc).held q = if q = .handler i then pc.held else s.held q := by
  cases q with
  | handler j =>
      by_cases hj : j = i
      · subst hj
        simp [held, setHandler]
      · simp [held, setHandler, hj]
  | _ => rfl

theorem enter_held {p : Party ι} {l : Lock} (h : s.wants p = some l) (q : Party ι) :
    (s.enter p).held q = if q = p then l :: s.held q else s.held q := by
  cases p with
  | destroyer =>
      have hheld := Destroyer.held_locked h
      cases q with
      | destroyer => exact hheld
      | _ => rfl
  | worker =>
      have hheld := Worker.held_locked h
      cases q with
      | worker => exact hheld
      | _ => rfl
  | handler i =>
      have hheld := Handler.held_locked h
      rw [enter, setHandler_held]
      by_cases hq : q = .handler i
      · rw [if_pos hq, if_pos hq, hq]
        exact hheld
      · rw [if_neg hq, if_neg hq]

omit [DecidableEq ι] in
theorem notify_held (s : State ι) (q : Party ι) : s.notify.held q = s.held q := by
  cases q with
  | worker =>
      show Worker.held (if _ then _ else _) = _
      split
      · rename_i hwaiting
        exact (congrArg Worker.held hwaiting).symm
      · rfl
  | _ => rfl

/-- What a section of a thread does to the locks: it only gives some up. -/
structure GivesUp (s t : State ι) (p : Party ι) : Prop where
  others : ∀ q, q ≠ p → t.held q = s.held q
  kept : ∀ l ∈ t.held p, l ∈ s.held p

omit [DecidableEq ι] in
theorem GivesUp.destroyer {pc pc' : Destroyer} (hpc : s.destroyer = pc) (hpc' : t.destroyer = pc')
    (hworker : t.worker.held = s.worker.held) (hhandler : t.handler = s.handler)
    (hkept : ∀ l ∈ pc'.held, l ∈ pc.held) : GivesUp s t .destroyer where
  others := fun q hq => by
    cases q with
    | destroyer => exact absurd rfl hq
    | worker => exact hworker
    | handler i => exact congrArg (fun h => Handler.held (h i)) hhandler
  kept := fun l hl => by
    show l ∈ s.destroyer.held
    rw [hpc]
    exact hkept l (hpc' ▸ hl)

omit [DecidableEq ι] in
theorem GivesUp.worker {pc pc' : Worker} (hpc : s.worker = pc) (hpc' : t.worker = pc')
    (hdestroyer : t.destroyer = s.destroyer) (hhandler : t.handler = s.handler)
    (hkept : ∀ l ∈ pc'.held, l ∈ pc.held) : GivesUp s t .worker where
  others := fun q hq => by
    cases q with
    | worker => exact absurd rfl hq
    | destroyer => exact congrArg Destroyer.held hdestroyer
    | handler i => exact congrArg (fun h => Handler.held (h i)) hhandler
  kept := fun l hl => by
    show l ∈ s.worker.held
    rw [hpc]
    exact hkept l (hpc' ▸ hl)

theorem GivesUp.setHandler {u : State ι} {i : ι} {pc : Handler} (hothers : ∀ q, u.held q = s.held q)
    (hkept : pc.held = []) : GivesUp s (u.setHandler i pc) (.handler i) where
  others := fun q hq => by rw [setHandler_held, if_neg hq, hothers]
  kept := fun l hl => by
    rw [setHandler_held, if_pos rfl, hkept] at hl
    cases hl

omit [DecidableEq ι] in
theorem destroyerSection_givesUp (h : s.destroyerSection = some t) : GivesUp s t .destroyer := by
  unfold destroyerSection at h
  split at h
  case h_1 hpc =>
      cases h
      refine .destroyer hpc rfl rfl rfl ?_
      split <;> simp [Destroyer.held]
  case h_3 hpc =>
      split at h
      · cases h
        exact .destroyer hpc rfl rfl rfl (by simp [Destroyer.held])
      · cases h
        exact .destroyer hpc rfl rfl rfl (by simp [Destroyer.held])
  case h_8 hpc =>
      cases h
      exact .destroyer hpc rfl (notify_held s .worker) rfl (by simp [Destroyer.held])
  case h_12 => cases h
  all_goals
    rename_i hpc
    cases h
    exact .destroyer hpc rfl rfl rfl (by simp [Destroyer.held])

omit [DecidableEq ι] in
theorem workerSection_givesUp {success : Bool} (h : s.workerSection success = some t) :
    GivesUp s t .worker := by
  unfold workerSection at h
  split at h
  case h_1 hpc =>
      cases h
      refine .worker hpc rfl rfl rfl ?_
      split
      · split <;> simp [Worker.held]
      · simp [Worker.held]
  case h_2 hpc =>
      split at h
      · cases h
        exact .worker hpc rfl rfl rfl (by simp [Worker.held])
      · cases h
        exact .worker hpc rfl rfl rfl (by simp [Worker.held])
  case h_3 task hpc =>
      cases h
      refine .worker hpc rfl rfl rfl ?_
      split <;> simp [Worker.held]
  case h_4 hpc =>
      cases h
      exact .worker hpc rfl rfl rfl (by simp [Worker.held])
  case h_5 hpc =>
      cases h
      exact .worker hpc rfl rfl rfl (by simp [Worker.held])
  case h_6 => cases h

theorem handlerSection_givesUp {i : ι} (h : s.handlerSection i = some t) :
    GivesUp s t (.handler i) := by
  unfold handlerSection at h
  split at h
  case h_1 task rest hpc =>
      cases h
      exact .setHandler (fun _ => rfl) (by split <;> rfl)
  case h_2 task rest hpc =>
      cases h
      refine .setHandler (fun _ => rfl) ?_
      split
      · rfl
      · exact Handler.held_schedule rest
  case h_3 task rest hpc =>
      split at h <;> cases h
      · exact .setHandler (fun _ => rfl) (Handler.held_schedule rest)
      · refine .setHandler (fun q => ?_) (Handler.held_schedule rest)
        exact (notify_held _ q).trans rfl
  case h_4 => cases h

theorem runSection_givesUp {p : Party ι} {success : Bool} (h : s.runSection success p = some t) :
    GivesUp s t p := by
  cases p with
  | destroyer => exact destroyerSection_givesUp h
  | worker => exact workerSection_givesUp h
  | handler i => exact handlerSection_givesUp h

theorem Agree.advance (h : s.Agree) {p : Party ι} {success : Bool}
    (hstep : s.advance p success = some t) : t.Agree := by
  unfold State.advance at hstep
  split at hstep
  · rename_i l hwants
    obtain ⟨hfree, heq⟩ := Option.ite_none_right_eq_some.mp hstep
    cases heq
    refine HoldersAgree.acquire h hfree rfl fun q m => ?_
    show m ∈ (s.enter p).held q ↔ _
    rw [enter_held hwants]
    by_cases hq : q = p
    · simp [hq, or_comm]
    · simp [hq]
  · rename_i hwants
    obtain ⟨u, hu, heq⟩ := Option.map_eq_some_iff.mp hstep
    cases heq
    have hgives := runSection_givesUp hu
    refine HoldersAgree.giveUp h (hgives.kept) (fun l => Iff.rfl) fun q hq l => ?_
    show l ∈ u.held q ↔ _
    rw [hgives.others q hq]

theorem agree_step (h : s.Agree) {a : Act ι} (hstep : shutdownStep s a = some t) : t.Agree := by
  cases a with
  | DestroyInstance =>
      obtain ⟨hpc, heq⟩ := Option.ite_none_right_eq_some.mp hstep
      cases heq
      refine HoldersAgree.keep h rfl fun q l => ?_
      cases q with
      | destroyer =>
          show l ∈ Destroyer.held .lockInstance ↔ l ∈ s.destroyer.held
          rw [hpc]
          exact Iff.rfl
      | _ => exact Iff.rfl
  | event i tasks =>
      obtain ⟨hpc, heq⟩ := Option.ite_none_right_eq_some.mp hstep
      cases heq
      split
      · refine HoldersAgree.keep h rfl fun q l => ?_
        rw [setHandler_held]
        split
        · rename_i hq
          rw [hq, Handler.held_schedule]
          show l ∈ [] ↔ l ∈ (s.handler i).held
          rw [hpc]
          exact Iff.rfl
        · exact Iff.rfl
      · exact h
  | advance p success => exact h.advance hstep
  | wake =>
      obtain ⟨hpc, heq⟩ := Option.ite_none_right_eq_some.mp hstep
      cases heq
      refine HoldersAgree.keep h rfl fun q l => ?_
      cases q with
      | worker =>
          show l ∈ Worker.held .lockQueue ↔ l ∈ s.worker.held
          rw [hpc]
          exact Iff.rfl
      | _ => exact Iff.rfl

/-! ## Deadlocks -/

omit [DecidableEq ι] in
theorem wants_not_held {p : Party ι} {l : Lock} (h : s.wants p = some l) : l ∉ s.held p := by
  cases p with
  | destroyer =>
      simp only [wants, held] at h ⊢
      cases hpc : s.destroyer <;> rw [hpc] at h <;> cases h <;> decide
  | worker =>
      simp only [wants, held] at h ⊢
      cases hpc : s.worker <;> rw [hpc] at h <;> cases h <;> simp [Worker.held]
  | handler i =>
      simp only [wants, held] at h ⊢
      cases hpc : s.handler i <;> rw [hpc] at h <;> cases h <;> exact List.not_mem_nil

omit [DecidableEq ι] in
/-- A handler holds nothing while it waits. -/
theorem handler_not_held {i : ι} {l m : Lock} (h : s.wants (.handler i) = some m) :
    l ∉ s.held (.handler i) := by
  simp only [wants, held] at h ⊢
  cases hpc : s.handler i <;> rw [hpc] at h <;> cases h <;> exact List.not_mem_nil

/-- A waiting worker has its thread, and possibly `mExMutex`. -/
theorem held_of_wants {pc : Worker} {m : Lock} (h : pc.wants = some m) :
    pc.held ⊆ [.mExMutex, .mSchedulerThread] := by
  cases pc <;> cases h <;> simp [Worker.held]

/-- The worker's task waits for `mSecMutex` of the thread that waits for the task to end,
in `SuspendScheduler` or in the join. -/
def Crossing (s : State ι) : Prop :=
  s.worker = .lockSec ∧ (s.destroyer = .lockEx ∨ s.destroyer = .joining)

omit [DecidableEq ι] in
theorem crossing_iff :
    (∃ l m, s.wants .destroyer = some l ∧ l ∈ s.held .worker ∧ s.wants .worker = some m ∧
      m ∈ s.held .destroyer) ↔ s.Crossing := by
  simp only [wants, held, Crossing]
  constructor
  · rintro ⟨l, m, hl, hlw, hm, hmd⟩
    have hworker : l = .mExMutex ∨ l = .mSchedulerThread := by
      simpa using held_of_wants hm hlw
    have hdestroyer : s.destroyer = .lockEx ∨ s.destroyer = .joining := by
      cases hd : s.destroyer <;> rw [hd] at hl <;> cases hl <;> simp at hworker ⊢
    have hsec : m = .mSecMutex ∨ m = .InstanceMutex := by
      rcases hdestroyer with hd | hd <;> rw [hd] at hmd <;> simpa [Destroyer.held] using hmd
    refine ⟨?_, hdestroyer⟩
    cases hw : s.worker <;> rw [hw] at hm <;> cases hm <;> simp at hsec ⊢
  · rintro ⟨hw, hd | hd⟩
    · exact ⟨.mExMutex, .mSecMutex, by rw [hd]; rfl, by rw [hw]; decide, by rw [hw]; rfl,
        by rw [hd]; decide⟩
    · exact ⟨.mSchedulerThread, .mSecMutex, by rw [hd]; rfl, by rw [hw]; decide,
        by rw [hw]; rfl, by rw [hd]; decide⟩

omit [DecidableEq ι] in
/-- All deadlocks are crossings. -/
theorem Agree.deadlock_iff (h : s.Agree) : s.locks.Deadlock ↔ s.Crossing := by
  have hself : ∀ p, ¬ s.locks.Waits p p := by
    rintro p ⟨l, hl, hholder⟩
    exact wants_not_held hl ((h p l).mp hholder)
  have hblocked : ∀ p l m, s.locks.holder l = some p → s.locks.wants p = some m →
      p = .destroyer ∨ p = .worker := by
    intro p l m hl hm
    cases p with
    | destroyer => exact Or.inl rfl
    | worker => exact Or.inr rfl
    | handler i => exact absurd ((h (.handler i) l).mp hl) (handler_not_held hm)
  rw [Locks.deadlock_iff_pair hself hblocked, ← crossing_iff]
  constructor
  · rintro ⟨⟨l, hl, hlw⟩, m, hm, hmd⟩
    exact ⟨l, m, hl, (h _ l).mp hlw, hm, (h _ m).mp hmd⟩
  · rintro ⟨l, m, hl, hlw, hm, hmd⟩
    exact ⟨⟨l, hl, (h _ l).mpr hlw⟩, m, hm, (h _ m).mpr hmd⟩

/-- The worker waits for a notification of the thread that has made its last one. -/
def Forgotten (s : State ι) : Prop := s.worker = .waiting ∧ s.destroyer = .joining

end State

/-- In `StopScheduler`, behind its first statement. -/
def Destroyer.inStop : Destroyer → Bool
  | lockEx | lockingOut | lockedOut | clearing | cleared | unlockingEx | lettingIn | letIn
  | notifying | joining => true
  | _ => false

structure Inv (s : State ι) : Prop where
  agree : s.Agree
  stopped : s.destroyer.inStop = true → s.mSchedulerRunning = false
  notified : ¬ s.Forgotten

/-- The step does not bring the destroying thread to wait for a task that waits for
`mSecMutex`, nor a task to wait for it that the destroying thread waits for. -/
def Apart (s : State ι) : Act ι → Prop
  | .advance .destroyer _ => s.worker = .lockSec →
      ¬ (s.destroyer = .stopping ∧ s.mSchedulerStarted = true) ∧ s.destroyer ≠ .notifying
  | .advance .worker success => s.worker = .invoking .GetWaterMarkPalette → success = true →
      s.destroyer ≠ .lockEx ∧ s.destroyer ≠ .joining
  | _ => True

variable {s t : State ι} {a : Act ι}

/-- The worker stays where it is, unless it is woken up. -/
def WorkerStays (s t : State ι) : Prop :=
  t.worker = s.worker ∨ s.worker = .waiting ∧ t.worker = .lockQueue

omit [DecidableEq ι] in
theorem notify_workerStays (s : State ι) : WorkerStays s s.notify := by
  by_cases hwaiting : s.worker = .waiting
  · exact Or.inr ⟨hwaiting, if_pos hwaiting⟩
  · exact Or.inl (if_neg hwaiting)

omit [DecidableEq ι] in
theorem WorkerStays.lockSec_iff (h : WorkerStays s t) : t.worker = .lockSec ↔ s.worker = .lockSec := by
  rcases h with h | ⟨hs, ht⟩
  · rw [h]
  · rw [hs, ht]
    exact iff_of_false (fun h => by cases h) fun h => by cases h

omit [DecidableEq ι] in
theorem WorkerStays.waiting (h : WorkerStays s t) (ht : t.worker = .waiting) :
    s.worker = .waiting := by
  rcases h with h | ⟨hs, -⟩
  · rw [← h, ht]
  · exact hs

/-- A step of the destroying thread. -/
structure DestroyerStep (s t : State ι) : Prop where
  worker : WorkerStays s t
  lockEx : t.destroyer = .lockEx ↔ s.destroyer = .stopping ∧ s.mSchedulerStarted = true
  joining : t.destroyer = .joining ↔ s.destroyer = .notifying
  notified : s.destroyer = .notifying → t.worker ≠ .waiting
  inStop : t.destroyer.inStop = true → t.mSchedulerRunning = false ∨
    s.destroyer.inStop = true ∧ t.mSchedulerRunning = s.mSchedulerRunning

omit [DecidableEq ι] in
/-- A step from one point to another one, with `mSchedulerRunning` as it was. -/
theorem DestroyerStep.moves {pc pc' : Destroyer} (hpc : s.destroyer = pc) (hpc' : t.destroyer = pc')
    (hworker : t.worker = s.worker) (hrunning : t.mSchedulerRunning = s.mSchedulerRunning)
    (hfrom : pc ≠ .stopping ∧ pc ≠ .notifying) (hto : pc' ≠ .lockEx ∧ pc' ≠ .joining)
    (hin : pc'.inStop = true → pc.inStop = true) : DestroyerStep s t where
  worker := Or.inl hworker
  lockEx := iff_of_false (hpc' ▸ hto.1) fun h => hfrom.1 (hpc.symm.trans h.1)
  joining := iff_of_false (hpc' ▸ hto.2) fun h => hfrom.2 (hpc.symm.trans h)
  notified := fun h => absurd (hpc.symm.trans h) hfrom.2
  inStop := fun h => Or.inr ⟨hpc ▸ hin (hpc' ▸ h), hrunning⟩

theorem destroyer_enter {l : Lock} (h : s.destroyer.wants = some l) :
    DestroyerStep s (s.enter .destroyer) := by
  have hpc' : (s.enter .destroyer).destroyer = s.destroyer.locked := rfl
  cases hpc : s.destroyer <;> rw [hpc] at h hpc' <;> cases h
  all_goals exact .moves hpc hpc' rfl rfl (by decide) (by decide) (by decide)

omit [DecidableEq ι] in
theorem destroyer_section (h : s.destroyerSection = some t) : DestroyerStep s t := by
  unfold State.destroyerSection at h
  split at h
  case h_1 hpc =>
      cases h
      by_cases hinstance : s.Instance = true
      · exact .moves hpc (if_pos hinstance) rfl rfl (by decide) (by decide) (by decide)
      · exact .moves hpc (if_neg hinstance) rfl rfl (by decide) (by decide) (by decide)
  case h_3 hpc =>
      by_cases hstarted : s.mSchedulerStarted = true
      · rw [if_pos hstarted] at h
        cases h
        refine ⟨Or.inl rfl, iff_of_true rfl ⟨hpc, hstarted⟩, ?_, ?_, fun _ => Or.inl rfl⟩
        · rw [hpc]
          exact iff_of_false (fun h => by cases h) fun h => by cases h
        · rw [hpc]
          exact fun h => by cases h
      · rw [if_neg hstarted] at h
        cases h
        refine ⟨Or.inl rfl, iff_of_false (fun h => by cases h) fun h => hstarted h.2, ?_, ?_,
          (fun h => by cases h)⟩
        · rw [hpc]
          exact iff_of_false (fun h => by cases h) fun h => by cases h
        · rw [hpc]
          exact fun h => by cases h
  case h_8 hpc =>
      cases h
      refine ⟨notify_workerStays s, ?_, iff_of_true rfl hpc, fun _ => ?_, fun _ => ?_⟩
      · rw [hpc]
        exact iff_of_false (fun h => by cases h) fun h => by cases h.1
      · show (if _ then _ else _) ≠ _
        split
        · exact fun h => by cases h
        · assumption
      · rw [hpc]
        exact Or.inr ⟨rfl, rfl⟩
  case h_12 => cases h
  all_goals
    rename_i hpc
    cases h
    exact .moves hpc rfl rfl rfl (by decide) (by simp) (by simp [Destroyer.inStop])

/-- A step of the worker. -/
structure WorkerStep (s t : State ι) (success : Bool) : Prop where
  destroyer : t.destroyer = s.destroyer
  running : t.mSchedulerRunning = s.mSchedulerRunning
  lockSec : t.worker = .lockSec ↔ s.worker = .invoking .GetWaterMarkPalette ∧ success = true
  waiting : t.worker = .waiting → s.mSchedulerRunning = true

theorem worker_enter {l : Lock} (h : s.worker.wants = some l) (success : Bool) :
    WorkerStep s (s.enter .worker) success := by
  have hpc' : (s.enter .worker).worker = s.worker.locked := rfl
  cases hpc : s.worker <;> rw [hpc] at h hpc' <;> cases h
  all_goals
    refine ⟨rfl, rfl, ?_, ?_⟩
    · rw [hpc', hpc]
      exact iff_of_false (fun h => by cases h) fun h => by cases h.1
    · rw [hpc']
      exact fun h => by cases h

omit [DecidableEq ι] in
theorem worker_section {success : Bool} (h : s.workerSection success = some t) :
    WorkerStep s t success := by
  unfold State.workerSection at h
  split at h
  case h_3 task hpc =>
      cases h
      refine ⟨rfl, rfl, ?_, fun hwaiting => ?_⟩
      · rw [hpc, Worker.invoking.injEq]
        dsimp only
        split
        · exact iff_of_true rfl ‹_›
        · exact iff_of_false (fun h => by cases h) ‹_›
      · dsimp only at hwaiting
        split at hwaiting <;> cases hwaiting
  case h_1 hpc =>
      cases h
      refine ⟨rfl, rfl, iff_of_false (fun hsec => ?_) fun h => ?_, fun hwaiting => ?_⟩
      · dsimp only at hsec
        split at hsec
        · split at hsec <;> cases hsec
        · cases hsec
      · cases hpc.symm.trans h.1
      · dsimp only at hwaiting
        split at hwaiting
        · assumption
        · cases hwaiting
  case h_2 hpc =>
      have hno : ¬ (s.worker = .invoking .GetWaterMarkPalette ∧ success = true) := fun h => by
        cases hpc.symm.trans h.1
      split at h <;> cases h <;>
        exact ⟨rfl, rfl, iff_of_false (fun h => by cases h) hno, fun h => by cases h⟩
  case h_6 => cases h
  all_goals
    rename_i hpc
    cases h
    refine ⟨rfl, rfl, iff_of_false (fun h => by cases h) fun h => ?_, fun h => by cases h⟩
    cases hpc.symm.trans h.1

omit [DecidableEq ι] in
/-- A step of an event handler, or of the environment. -/
structure OtherStep (s t : State ι) : Prop where
  worker : WorkerStays s t
  destroyer : t.destroyer = s.destroyer
  running : t.mSchedulerRunning = s.mSchedulerRunning

theorem handler_section {i : ι} (h : s.handlerSection i = some t) : OtherStep s t := by
  unfold State.handlerSection at h
  split at h
  case h_1 =>
      cases h
      exact ⟨Or.inl rfl, rfl, rfl⟩
  case h_2 =>
      cases h
      exact ⟨Or.inl rfl, rfl, rfl⟩
  case h_3 =>
      split at h <;> cases h
      · exact ⟨Or.inl rfl, rfl, rfl⟩
      · exact ⟨notify_workerStays s, rfl, rfl⟩
  case h_4 => cases h

/-- Everything a step can do but for the locks. -/
inductive StepTo (s t : State ι) : Act ι → Prop where
  | called : s.destroyer = .notCalled → t = { s with destroyer := .lockInstance } →
      StepTo s t .DestroyInstance
  | destroyer {success} : DestroyerStep s t → StepTo s t (.advance .destroyer success)
  | worker {success} : WorkerStep s t success → StepTo s t (.advance .worker success)
  | other {b : Act ι} :
      (∀ success, b ≠ .advance .destroyer success ∧ b ≠ .advance .worker success) →
      OtherStep s t → StepTo s t b

theorem stepTo_of_advance {p : Party ι} {success : Bool} (h : s.advance p success = some t) :
    StepTo s t (.advance p success) := by
  unfold State.advance at h
  split at h
  · rename_i l hwants
    obtain ⟨-, heq⟩ := Option.ite_none_right_eq_some.mp h
    cases heq
    cases p with
    | destroyer =>
        have hstep := destroyer_enter hwants
        exact .destroyer ⟨hstep.worker, hstep.lockEx, hstep.joining, hstep.notified, hstep.inStop⟩
    | worker =>
        have hstep := worker_enter hwants success
        exact .worker ⟨hstep.destroyer, hstep.running, hstep.lockSec, hstep.waiting⟩
    | handler i =>
        exact .other (by simp) ⟨Or.inl rfl, rfl, rfl⟩
  · obtain ⟨u, hu, heq⟩ := Option.map_eq_some_iff.mp h
    cases heq
    cases p with
    | destroyer =>
        have hstep := destroyer_section hu
        exact .destroyer ⟨hstep.worker, hstep.lockEx, hstep.joining, hstep.notified, hstep.inStop⟩
    | worker =>
        have hstep := worker_section hu
        exact .worker ⟨hstep.destroyer, hstep.running, hstep.lockSec, hstep.waiting⟩
    | handler i =>
        have hstep := handler_section hu
        exact .other (by simp)
          ⟨hstep.worker, hstep.destroyer, hstep.running⟩

theorem stepTo_of_step (hstep : shutdownStep s a = some t) : StepTo s t a := by
  have hother : ∀ {a : Act ι}, (∀ p success, a ≠ .advance p success) → OtherStep s t →
      StepTo s t a := fun ha h => .other (fun success => ⟨ha _ success, ha _ success⟩) h
  cases a with
  | DestroyInstance =>
      obtain ⟨hpc, heq⟩ := Option.ite_none_right_eq_some.mp hstep
      exact .called hpc (Option.some.inj heq).symm
  | event i tasks =>
      obtain ⟨-, heq⟩ := Option.ite_none_right_eq_some.mp hstep
      cases heq
      refine hother (fun _ _ h => by cases h) ?_
      split <;> exact ⟨Or.inl rfl, rfl, rfl⟩
  | advance p success => exact stepTo_of_advance hstep
  | wake =>
      obtain ⟨hpc, heq⟩ := Option.ite_none_right_eq_some.mp hstep
      cases heq
      exact hother (fun _ _ h => by cases h) ⟨Or.inr ⟨hpc, rfl⟩, rfl, rfl⟩

theorem inv_step (h : Inv s) (hstep : shutdownStep s a = some t) : Inv t := by
  have hagree := State.agree_step h.agree hstep
  cases stepTo_of_step hstep with
  | called hpc ht =>
      subst ht
      exact ⟨hagree, fun hin => (by cases hin), fun hforgotten => by cases hforgotten.2⟩
  | destroyer hdestroyer =>
      refine ⟨hagree, fun hin => ?_, fun hforgotten => ?_⟩
      · rcases hdestroyer.inStop hin with hfalse | ⟨hs, hsame⟩
        · exact hfalse
        · rw [hsame, h.stopped hs]
      · exact hdestroyer.notified (hdestroyer.joining.mp hforgotten.2) hforgotten.1
  | worker hworker =>
      refine ⟨hagree, fun hin => ?_, fun hforgotten => ?_⟩
      · rw [hworker.running]
        exact h.stopped (hworker.destroyer ▸ hin)
      · have hjoining : s.destroyer = .joining := hworker.destroyer ▸ hforgotten.2
        have hrunning := hworker.waiting hforgotten.1
        rw [h.stopped (by rw [hjoining]; rfl)] at hrunning
        cases hrunning
  | other _ hother =>
      refine ⟨hagree, fun hin => ?_, fun hforgotten => h.notified ?_⟩
      · rw [hother.running]
        exact h.stopped (hother.destroyer ▸ hin)
      · exact ⟨hother.worker.waiting hforgotten.1, hother.destroyer ▸ hforgotten.2⟩

theorem crossing_step (h : ¬ s.Crossing) (hstep : shutdownStep s a = some t) :
    ¬ t.Crossing ↔ Apart s a := by
  cases stepTo_of_step hstep with
  | called hpc ht =>
      subst ht
      exact iff_of_true (fun hcrossing => by rcases hcrossing.2 with h | h <;> cases h) trivial
  | destroyer hdestroyer =>
      simp only [State.Crossing, Apart, hdestroyer.worker.lockSec_iff, hdestroyer.lockEx,
        hdestroyer.joining, not_and, not_or]
  | worker hworker =>
      simp only [State.Crossing, Apart, hworker.lockSec, hworker.destroyer, not_and, not_or,
        and_imp]
  | other ha hother =>
      have hapart : Apart s a := by
        cases a with
        | advance p success =>
            cases p with
            | destroyer => exact absurd rfl (ha success).1
            | worker => exact absurd rfl (ha success).2
            | handler i => trivial
        | _ => trivial
      refine iff_of_true (fun hcrossing => h ⟨hother.worker.lockSec_iff.mp hcrossing.1, ?_⟩) hapart
      rw [← hother.destroyer]
      exact hcrossing.2

omit [DecidableEq ι] in
theorem inv_init : Inv ({} : State ι) where
  agree := by
    intro p l
    cases p with
    | worker => cases l <;> simp [State.held, Worker.held]
    | _ => cases l <;> simp [State.held, Destroyer.held, Handler.held]
  stopped := fun h => by cases h
  notified := fun h => by cases h.1

omit [DecidableEq ι] in
theorem Inv.safe_iff (h : Inv s) : ¬ s.locks.Deadlock ∧ ¬ s.Forgotten ↔ ¬ s.Crossing := by
  rw [h.agree.deadlock_iff]
  exact and_iff_left h.notified

/-- In a run of the shutdown no threads ever wait for each other exactly when no step
brings the destroying thread and a task that calls `loadClutWatermark` to wait for each
other. -/
theorem shutdown_run_iff (acts : List (Act ι)) :
    (shutdownSystem ι).RunAll (fun s => ¬ s.locks.Deadlock ∧ ¬ s.Forgotten) {} acts ↔
      (shutdownSystem ι).RunOk Apart {} acts := by
  refine System.runAll_iff_runOk_of_invariant (fun _ _ _ => inv_step)
    (fun s a t h hsafe hstep => ?_) inv_init (inv_init.safe_iff.mpr fun h => by cases h.1) acts
  rw [(inv_step h hstep).safe_iff]
  exact crossing_step (h.safe_iff.mp hsafe) hstep

namespace Stuck

def handler (n : Nat) : List (Act Unit) := List.replicate n (.advance (.handler ()) false)

def worker (n : Nat) : List (Act Unit) := List.replicate n (.advance .worker true)

def destroyer (n : Nat) : List (Act Unit) := List.replicate n (.advance .destroyer false)

/-- A palette is fetched while the destructor comes to `SuspendScheduler`. -/
def suspending : List (Act Unit) :=
  [.event () [.GetWaterMarkPalette]] ++ handler 5 ++ worker 7 ++ [.DestroyInstance] ++ destroyer 6

/-- A handler has seen the scheduler run before the stop and queues its task behind it. -/
def joining : List (Act Unit) :=
  [.event () [.CreateWatermark, .GetWaterMarkPalette]] ++ handler 8 ++ worker 2 ++
    [.DestroyInstance] ++ destroyer 14 ++ handler 2 ++ destroyer 1 ++ worker 5

end Stuck

example : (((shutdownSystem Unit).run {} Stuck.suspending).map fun s =>
    (s.worker, s.destroyer)) = some (.lockSec, .lockEx) := by decide

theorem joining_deadlock :
    ¬ ∀ (ι : Type) [DecidableEq ι] (s : State ι), (shutdownSystem ι).Reachable s →
      ¬ s.locks.Deadlock ∧ ¬ s.Forgotten := by
  intro h
  have hrun : (((shutdownSystem Unit).run {} Stuck.joining).map fun s =>
      (s.worker, s.destroyer)) = some (.lockSec, .joining) := by decide
  obtain ⟨s, hs, hpcs⟩ := Option.map_eq_some_iff.mp hrun
  have hreach : (shutdownSystem Unit).Reachable s := System.reachable_of_run rfl hs
  have hinv : Inv s := hreach.invariant (by rintro _ rfl; exact inv_init)
    fun _ _ _ h _ hstep => inv_step h hstep
  have hcrossing : s.Crossing := ⟨(Prod.mk.inj hpcs).1, Or.inr (Prod.mk.inj hpcs).2⟩
  exact (h Unit s hreach).1 (hinv.agree.deadlock_iff.mpr hcrossing)

end PlayerInterface.SecManager.Shutdown
