import PlayerInterface.Scheduler.Exclusion

/-!
# Watermark events

The handlers of the watermark events only queue tasks; the worker of the scheduler makes the calls
of the plugin. Handlers may run on any number of threads while the worker works. The scheduler is
not stopped before the manager is destroyed, and nobody removes a task.
-/

namespace PlayerInterface.SecManager

open PlayerInterface.Core PlayerInterface.Scheduler

/-! ## Events and tasks -/

/-- A task is named after the function it calls. -/
inductive WatermarkTask where
  | CreateWatermark (graphicId zIndex : Int)
  | UpdateWatermark (graphicId smKey smSize : Int)
  | GetWaterMarkPalette (sessionId graphicId : Int)
  | ModifyWatermarkPalette (graphicId clutKey imageKey : Int)
  | DeleteWatermark (graphicId : Int)
  | ShowWatermark (visible : Bool)
deriving DecidableEq, Repr

inductive WatermarkEvent where
  | onAddWatermark (graphicId zIndex smKey smSize : Int) (adjustVisibilityRequired : Bool)
      (sessionId : Int)
  | onUpdateWatermark (graphicId clutKey imageKey : Int)
  | onRemoveWatermark (graphicId : Int)
  | onDisplayWatermark (hideWatermark : Bool)
deriving DecidableEq, Repr

/-- What the handler of an event schedules, one task after the other. -/
def WatermarkEvent.tasks : WatermarkEvent → List WatermarkTask
  | onAddWatermark graphicId zIndex smKey smSize adjustVisibilityRequired sessionId =>
      [.CreateWatermark graphicId zIndex, .UpdateWatermark graphicId smKey smSize] ++
        if adjustVisibilityRequired then [.GetWaterMarkPalette sessionId graphicId] else []
  | onUpdateWatermark graphicId clutKey imageKey =>
      [.ModifyWatermarkPalette graphicId clutKey imageKey]
  | onRemoveWatermark graphicId => [.DeleteWatermark graphicId]
  | onDisplayWatermark hideWatermark => [.ShowWatermark !hideWatermark]

/-! ## Handlers, scheduler and worker -/

/-- Tasks are marked with the thread that schedules them. -/
abbrev WatermarkScheduler (ι : Type) := Scheduler.State ι (ι × WatermarkTask)

abbrev WatermarkWork (ι : Type) := Scheduler.Act ι (ι × WatermarkTask)

structure WatermarkState (ι : Type) where
  scheduler : WatermarkScheduler ι := {}
  mSchedulerStarted : Bool := false
  /-- what the handler that runs on a thread has still to schedule -/
  handler : ι → List WatermarkTask := fun _ => []
  /-- the events a thread has handled with the scheduler started -/
  handled : ι → List WatermarkEvent := fun _ => []

inductive WatermarkAct (ι : Type) where
  | StartScheduler
  | event (i : ι) (e : WatermarkEvent)
  | ScheduleTask (i : ι)
  | advance (i : ι)
  | worker (a : WatermarkWork ι)

variable {ι : Type} [DecidableEq ι]

namespace WatermarkState

def setHandler (s : WatermarkState ι) (i : ι) (tasks : List WatermarkTask) : WatermarkState ι :=
  { s with handler := fun j => if j = i then tasks else s.handler j }

/-- An event comes to a thread; `getSchedulerStatus()` is asked at once. -/
def event (s : WatermarkState ι) (i : ι) (e : WatermarkEvent) : WatermarkState ι :=
  if s.mSchedulerStarted then
    { s.setHandler i e.tasks with
      handled := fun j => if j = i then s.handled j ++ [e] else s.handled j }
  else s

end WatermarkState

def watermarkStep (s : WatermarkState ι) : WatermarkAct ι → Option (WatermarkState ι)
  | .StartScheduler =>
      (schedulerStep s.scheduler .StartScheduler).map fun scheduler =>
        { s with scheduler, mSchedulerStarted := true }
  | .event i e =>
      match s.handler i, s.scheduler.client i with
      | [], .idle _ => some (s.event i e)
      | _, _ => none
  | .ScheduleTask i =>
      match s.handler i with
      | [] => none
      | task :: rest =>
          (schedulerStep s.scheduler (.ScheduleTask i (i, task))).map fun scheduler =>
            { s.setHandler i rest with scheduler }
  | .advance i =>
      (schedulerStep s.scheduler (.advance i)).map fun scheduler => { s with scheduler }
  | .worker a => (workerStep s.scheduler a).map fun scheduler => { s with scheduler }

def watermarkSystem (ι : Type) [DecidableEq ι] : System (WatermarkState ι) (WatermarkAct ι) where
  init s := s = {}
  step := watermarkStep

/-! ## In order -/

/-- The tasks of a thread. -/
def tasksOf (i : ι) (objs : List (PlayerAsyncTaskObj (ι × WatermarkTask))) : List WatermarkTask :=
  (objs.filter fun obj => obj.mTask.1 = i).map fun obj => obj.mTask.2

/-- The task a thread is about to hand over. -/
def inCall (i : ι) (s : WatermarkScheduler ι) : List WatermarkTask :=
  match s.client i with
  | .scheduling task => [task.2]
  | _ => []

/-- What was started and what is queued are the accepted tasks, each once; of every thread they
are, with what it has still to hand over, the tasks of its events. -/
structure WatermarkState.InOrder (s : WatermarkState ι) : Prop where
  queue : s.scheduler.sched.started ++ s.scheduler.sched.mTaskQueue = s.scheduler.sched.accepted
  once : s.scheduler.sched.accepted.map PlayerAsyncTaskObj.seq =
    List.range s.scheduler.sched.accepted.length
  threads : ∀ i, tasksOf i s.scheduler.sched.started ++ (tasksOf i s.scheduler.sched.mTaskQueue ++
    (inCall i s.scheduler ++ s.handler i)) = (s.handled i).flatMap WatermarkEvent.tasks

structure WatermarkState.Inv (s : WatermarkState ι) : Prop where
  queue : QueueInv s.scheduler.sched
  removed : s.scheduler.sched.removed = []
  lockOut : s.scheduler.sched.mLockOut = false
  running : s.mSchedulerStarted = true → s.scheduler.sched.mSchedulerRunning = true
  clients : ∀ i, (∃ r, s.scheduler.client i = .idle r) ∨
    ∃ task, s.scheduler.client i = .scheduling (i, task)
  handlers : ∀ i, s.handler i ≠ [] → s.mSchedulerStarted = true
  delivered : ∀ i, tasksOf i s.scheduler.sched.accepted ++
    (inCall i s.scheduler ++ s.handler i) = (s.handled i).flatMap WatermarkEvent.tasks

theorem tasksOf_append (i : ι) (xs ys : List (PlayerAsyncTaskObj (ι × WatermarkTask))) :
    tasksOf i (xs ++ ys) = tasksOf i xs ++ tasksOf i ys := by
  rw [tasksOf, List.filter_append, List.map_append, tasksOf, tasksOf]

theorem WatermarkState.Inv.inOrder {s : WatermarkState ι} (h : s.Inv) : s.InOrder where
  queue := by
    have hsplit := h.queue.split
    rw [h.removed, without_eq_self fun _ _ => List.not_mem_nil] at hsplit
    exact hsplit
  once := h.queue.numbered
  threads i := by
    have hsplit := h.queue.split
    rw [h.removed, without_eq_self fun _ _ => List.not_mem_nil] at hsplit
    rw [← h.delivered i, ← hsplit, tasksOf_append, List.append_assoc]

theorem watermark_init : ({} : WatermarkState ι).Inv where
  queue := queueInv_init
  removed := rfl
  lockOut := rfl
  running := nofun
  clients _ := .inl ⟨_, rfl⟩
  handlers _ h := absurd rfl h
  delivered _ := rfl

theorem takeTask_keeps {τ : Type} (p : PlayerScheduler τ) :
    p.takeTask.2.accepted = p.accepted ∧ p.takeTask.2.removed = p.removed ∧
      p.takeTask.2.mLockOut = p.mLockOut ∧
      p.takeTask.2.mSchedulerRunning = p.mSchedulerRunning := by
  rw [PlayerScheduler.takeTask]
  cases p.mTaskQueue with
  | nil => exact ⟨rfl, rfl, rfl, rfl⟩
  | cons obj rest =>
      dsimp only
      split
      · exact ⟨rfl, rfl, rfl, rfl⟩
      · exact ⟨rfl, rfl, rfl, rfl⟩

/-- A step that accepts and removes nothing and leaves the calls of the clients as they are. -/
structure Quiet (s t : WatermarkScheduler ι) : Prop where
  client : t.client = s.client
  accepted : t.sched.accepted = s.sched.accepted
  removed : t.sched.removed = s.sched.removed
  lockOut : t.sched.mLockOut = s.sched.mLockOut
  running : s.sched.mSchedulerRunning = true → t.sched.mSchedulerRunning = true

omit [DecidableEq ι] in
theorem workerStep_quiet {s t : WatermarkScheduler ι} {a : WatermarkWork ι}
    (h : workerStep s a = some t) : Quiet s t := by
  cases a with
  | takeTask =>
      obtain ⟨haccepted, hremoved, hlockOut, hrunning⟩ := takeTask_keeps s.sched
      simp only [workerStep] at h
      split at h
      · split at h
        · rename_i obj p htake
          rw [htake] at haccepted hremoved hlockOut hrunning
          cases h
          exact ⟨rfl, haccepted, hremoved, hlockOut, hrunning.trans⟩
        · rename_i p htake
          rw [htake] at haccepted hremoved hlockOut hrunning
          cases h
          exact ⟨rfl, haccepted, hremoved, hlockOut, hrunning.trans⟩
      · cases h
  | lockEx =>
      simp only [workerStep] at h
      split at h
      · split at h
        · cases h
        · cases h
          exact ⟨rfl, rfl, rfl, rfl, id⟩
      · cases h
  | wake | testLoop | finishTask =>
      simp only [workerStep] at h
      split at h
      · cases h
        exact ⟨rfl, rfl, rfl, rfl, id⟩
      · cases h
  | _ => cases h

/-- The invariant does not depend on anything else of the scheduler. -/
theorem Quiet.inv {s : WatermarkState ι} {scheduler : WatermarkScheduler ι} (h : s.Inv)
    (hquiet : Quiet s.scheduler scheduler) (hqueue : QueueInv scheduler.sched) :
    WatermarkState.Inv { s with scheduler } where
  queue := hqueue
  removed := hquiet.removed.trans h.removed
  lockOut := hquiet.lockOut.trans h.lockOut
  running hstarted := hquiet.running (h.running hstarted)
  clients i := by
    rw [hquiet.client]
    exact h.clients i
  handlers := h.handlers
  delivered i := by
    rw [inCall, hquiet.client, hquiet.accepted]
    exact h.delivered i

/-! ## One step -/

theorem inv_start {s : WatermarkState ι} (h : s.Inv) {scheduler : WatermarkScheduler ι}
    (hstep : schedulerStep s.scheduler .StartScheduler = some scheduler) :
    WatermarkState.Inv { s with scheduler, mSchedulerStarted := true } := by
  have hqueue := (schedulerStep_stepTo hstep).queueInv h.queue
  simp only [schedulerStep] at hstep
  split at hstep
  · cases hstep
    exact ⟨hqueue, h.removed, h.lockOut, fun _ => rfl, h.clients, fun _ _ => rfl, h.delivered⟩
  · cases hstep

theorem inv_event {s : WatermarkState ι} (h : s.Inv) {i : ι} (e : WatermarkEvent)
    (hhandler : s.handler i = []) {r : Returned} (hclient : s.scheduler.client i = .idle r) :
    (s.event i e).Inv := by
  rw [WatermarkState.event]
  by_cases hstarted : s.mSchedulerStarted = true
  · rw [if_pos hstarted]
    refine ⟨h.queue, h.removed, h.lockOut, h.running, h.clients, fun _ _ => hstarted, fun j => ?_⟩
    have hdelivered := h.delivered j
    by_cases hji : j = i
    · subst hji
      have hnone : inCall j s.scheduler = [] := by rw [inCall, hclient]
      rw [hhandler, hnone] at hdelivered
      simp only [WatermarkState.setHandler, if_pos, List.flatMap_append, ← hdelivered]
      simp [hnone]
    · simp only [WatermarkState.setHandler, if_neg hji]
      exact hdelivered
  · rw [if_neg hstarted]
    exact h

/-- Where `ScheduleTask` is called the client is idle, and it goes on to the queue. -/
theorem scheduleTask_calls {s t : WatermarkScheduler ι} {i : ι} {task : ι × WatermarkTask}
    (hrunning : s.sched.mSchedulerRunning = true)
    (h : schedulerStep s (.ScheduleTask i task) = some t) :
    inCall i s = [] ∧ t = s.setClient i (.scheduling task) := by
  simp only [schedulerStep, Scheduler.Act.caller] at h
  split at h
  · rename_i r hclient
    rw [callStep, if_pos hrunning] at h
    cases h
    exact ⟨by rw [inCall, hclient], rfl⟩
  · cases h

theorem inCall_setClient_self (s : WatermarkScheduler ι) (i : ι)
    (c : Client (ι × WatermarkTask)) : inCall i (s.setClient i c) =
      match c with
      | .scheduling task => [task.2]
      | _ => [] := by
  rw [inCall, Scheduler.State.setClient_self]

theorem setClient_of_ne (s : WatermarkScheduler ι) {i j : ι} (h : j ≠ i)
    (c : Client (ι × WatermarkTask)) : (s.setClient i c).client j = s.client j := if_neg h

theorem inCall_setClient_of_ne (s : WatermarkScheduler ι) {i j : ι} (h : j ≠ i)
    (c : Client (ι × WatermarkTask)) : inCall j (s.setClient i c) = inCall j s := by
  rw [inCall, inCall, setClient_of_ne s h]

theorem inv_schedule {s : WatermarkState ι} (h : s.Inv) {i : ι} {task : WatermarkTask}
    {rest : List WatermarkTask} (hhandler : s.handler i = task :: rest)
    {scheduler : WatermarkScheduler ι}
    (hstep : schedulerStep s.scheduler (.ScheduleTask i (i, task)) = some scheduler) :
    WatermarkState.Inv { s.setHandler i rest with scheduler } := by
  have hqueue := (schedulerStep_stepTo hstep).queueInv h.queue
  have hstarted := h.handlers i (by rw [hhandler]; exact List.cons_ne_nil task rest)
  obtain ⟨hnone, rfl⟩ := scheduleTask_calls (h.running hstarted) hstep
  refine ⟨hqueue, h.removed, h.lockOut, h.running, fun j => ?_, fun _ _ => hstarted, fun j => ?_⟩
  · by_cases hji : j = i
    · rw [hji]
      exact .inr ⟨task, Scheduler.State.setClient_self s.scheduler i _⟩
    · have hclients := h.clients j
      rw [← setClient_of_ne s.scheduler hji] at hclients
      exact hclients
  · have hdelivered := h.delivered j
    by_cases hji : j = i
    · rw [hji] at hdelivered ⊢
      rw [hnone, hhandler] at hdelivered
      simp only [WatermarkState.setHandler, if_pos, inCall_setClient_self]
      exact hdelivered
    · simp only [WatermarkState.setHandler, if_neg hji, inCall_setClient_of_ne _ hji]
      exact hdelivered

/-- A thread in the call hands its task over. -/
theorem advance_accepts {s t : WatermarkScheduler ι} {i : ι}
    (hclient : (∃ r, s.client i = .idle r) ∨ ∃ task, s.client i = .scheduling (i, task))
    (hlockOut : s.sched.mLockOut = false) (h : schedulerStep s (.advance i) = some t) :
    ∃ task obj r, s.client i = .scheduling (i, task) ∧ obj.mTask = (i, task) ∧
      t.sched.accepted = s.sched.accepted ++ [obj] ∧ t.sched.removed = s.sched.removed ∧
      t.sched.mLockOut = false ∧ t.sched.mSchedulerRunning = s.sched.mSchedulerRunning ∧
      t.client i = .idle r ∧ ∀ j ≠ i, t.client j = s.client j := by
  simp only [schedulerStep, advanceStep] at h
  obtain ⟨r, hidle⟩ | ⟨task, hcall⟩ := hclient
  · rw [hidle] at h
    cases h
  · rw [hcall] at h
    dsimp only at h
    have hqueued := ScheduleTask_accepted hlockOut (i, task)
    refine ⟨task, ⟨(i, task), s.sched.mNextTaskId, s.sched.accepted.length⟩,
      .taskId (s.sched.ScheduleTask (i, task)).1, hcall, rfl, ?_⟩
    rw [hqueued] at h
    split at h
    · cases h
      exact ⟨rfl, rfl, hlockOut, rfl, if_pos rfl, fun _ hj => if_neg hj⟩
    · cases h
      exact ⟨rfl, rfl, hlockOut, rfl, if_pos rfl, fun _ hj => if_neg hj⟩

theorem inv_advance {s : WatermarkState ι} (h : s.Inv) {i : ι}
    {scheduler : WatermarkScheduler ι}
    (hstep : schedulerStep s.scheduler (.advance i) = some scheduler) :
    WatermarkState.Inv { s with scheduler } := by
  have hqueue := (schedulerStep_stepTo hstep).queueInv h.queue
  obtain ⟨task, obj, r, hcall, hobj, haccepted, hremoved, hlockOut, hrunning, hidle, hothers⟩ :=
    advance_accepts (h.clients i) h.lockOut hstep
  refine ⟨hqueue, hremoved.trans h.removed, hlockOut, fun hstarted => hrunning.trans
    (h.running hstarted), fun j => ?_, h.handlers, fun j => ?_⟩
  · by_cases hji : j = i
    · exact .inl ⟨r, hji ▸ hidle⟩
    · have hclients := h.clients j
      rw [← hothers j hji] at hclients
      exact hclients
  · rw [← h.delivered j, haccepted, tasksOf_append, List.append_assoc]
    by_cases hji : j = i
    · have hbefore : inCall i s.scheduler = [task] := by rw [inCall, hcall]
      have hafter : inCall i scheduler = [] := by rw [inCall, hidle]
      rw [hji]
      simp [hbefore, hafter, tasksOf, hobj]
    · have hsame : inCall j scheduler = inCall j s.scheduler := by
        rw [inCall, inCall, hothers j hji]
      simp [hsame, tasksOf, hobj, Ne.symm hji]

theorem inv_step {s t : WatermarkState ι} {a : WatermarkAct ι} (h : s.Inv)
    (hstep : watermarkStep s a = some t) : t.Inv := by
  cases a with
  | StartScheduler =>
      obtain ⟨scheduler, hrun, rfl⟩ := Option.map_eq_some_iff.mp hstep
      exact inv_start h hrun
  | event i e =>
      simp only [watermarkStep] at hstep
      split at hstep
      · rename_i r hhandler hclient
        cases hstep
        exact inv_event h e hhandler hclient
      · cases hstep
  | ScheduleTask i =>
      simp only [watermarkStep] at hstep
      split at hstep
      · cases hstep
      · rename_i task rest hhandler
        obtain ⟨scheduler, hrun, rfl⟩ := Option.map_eq_some_iff.mp hstep
        exact inv_schedule h hhandler hrun
  | advance i =>
      obtain ⟨scheduler, hrun, rfl⟩ := Option.map_eq_some_iff.mp hstep
      exact inv_advance h hrun
  | worker a =>
      obtain ⟨scheduler, hrun, rfl⟩ := Option.map_eq_some_iff.mp hstep
      exact Quiet.inv h (workerStep_quiet hrun) ((workerStep_stepTo hrun).queueInv h.queue)

/-! ## Runs -/

/-- In every interleaving of the handlers with the worker the tasks of each thread's events are
started in the order of the events, and none is lost or started twice. -/
theorem watermark_inOrder {s : WatermarkState ι} (h : (watermarkSystem ι).Reachable s) :
    s.InOrder := by
  refine WatermarkState.Inv.inOrder (h.invariant (fun s hs => ?_) fun _ _ _ hi _ hstep =>
    inv_step hi hstep)
  rw [show s = {} from hs]
  exact watermark_init

/-- A watermark is added on one thread and shown on another. -/
def twoThreads : List (WatermarkAct Bool) :=
  [.StartScheduler, .event false (.onAddWatermark 3 1 40 900 false 7), .ScheduleTask false,
    .event true (.onDisplayWatermark false), .ScheduleTask true, .advance true, .advance false,
    .ScheduleTask false, .worker .testLoop, .worker .lockEx, .worker .takeTask, .advance false]

theorem twoThreads_inOrder : ∃ s : WatermarkState Bool,
    (watermarkSystem Bool).run {} twoThreads = some s ∧
      s.scheduler.sched.started.map PlayerAsyncTaskObj.mTask = [(true, .ShowWatermark true)] ∧
      s.InOrder := by
  have hrun : ((watermarkSystem Bool).run {} twoThreads).map
      (fun s => s.scheduler.sched.started.map PlayerAsyncTaskObj.mTask) =
      some [(true, .ShowWatermark true)] := by
    decide
  obtain ⟨s, hs, hstarted⟩ := Option.map_eq_some_iff.mp hrun
  have hinit : (watermarkSystem Bool).init {} := rfl
  exact ⟨s, hs, hstarted, watermark_inOrder (System.reachable_of_run hinit hs)⟩

end PlayerInterface.SecManager
