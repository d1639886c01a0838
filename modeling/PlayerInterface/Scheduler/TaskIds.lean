import PlayerInterface.Core.WrappingCounter
import PlayerInterface.Scheduler.Exclusion

/-!
# Task ids

Accepted tasks bear the values of a counter that wraps around, and nothing looks whether a value
is still in use. A pending task shares its id with another one, or with the task started last,
exactly when a multiple of the range of the ids lies between the two.
-/

namespace PlayerInterface.Scheduler

open PlayerInterface.Core

variable {ι τ : Type}

/-! ## The property -/

/-- The ids of the pending tasks are distinct, and each pending task can be removed by its id, with
nothing else changed. -/
structure TaskIdsWork (p : PlayerScheduler τ) : Prop where
  distinct : (p.mTaskQueue.map PlayerAsyncTaskObj.mId).Nodup
  removes : ∀ before obj after, p.mTaskQueue = before ++ obj :: after →
    p.RemoveTask obj.mId =
      (true, { p with mTaskQueue := before ++ after, removed := p.removed ++ [obj.seq] })

/-- How many ids there are. -/
def taskIdCount : Nat := PLAYER_SCHEDULER_ID_MAX_VALUE - PLAYER_SCHEDULER_ID_DEFAULT

/-- The tasks an id may still belong to: the one started last and the pending ones. -/
def inUse (p : PlayerScheduler τ) : List (PlayerAsyncTaskObj τ) :=
  p.started.getLast?.toList ++ p.mTaskQueue

/-- No task in use was accepted a multiple of the number of ids before the next one. -/
def NoneLapped (p : PlayerScheduler τ) : Prop :=
  ∀ obj ∈ inUse p, ¬ taskIdCount ∣ p.accepted.length - obj.seq

/-- The task `ScheduleTask` accepts in this step. -/
def State.accepts (s : State ι τ) : Act ι τ → Option τ
  | .advance i =>
      match s.client i with
      | .scheduling task => if s.sched.mLockOut then none else some task
      | _ => none
  | _ => none

/-- A task is accepted only when none in use is lapped. -/
def AcceptsUnlapped (s : State ι τ) (a : Act ι τ) : Prop :=
  s.accepts a ≠ none → NoneLapped s.sched

/-! ## Ids and numbers -/

/-- The id of the task accepted behind `k` others. -/
def taskId (k : Nat) : Nat := wrapping PLAYER_SCHEDULER_ID_DEFAULT taskIdCount k

theorem taskIdCount_pos : 0 < taskIdCount := by decide

theorem nextId_taskId (k : Nat) : PlayerScheduler.nextId (taskId k) = taskId (k + 1) :=
  (wrapping_succ taskIdCount_pos k).symm

theorem taskId_pos (k : Nat) : 0 < taskId k := Nat.lt_of_lt_of_le Nat.one_pos (Nat.le_add_right 1 _)

/-- The id of a task is told by its number, whatever the counter does. -/
structure IdInv (p : PlayerScheduler τ) : Prop where
  queue : QueueInv p
  next : p.mNextTaskId = taskId p.accepted.length
  ids : ∀ obj ∈ p.accepted, obj.mId = taskId obj.seq
  current : p.mCurrentTaskId = (p.started.getLast?.map PlayerAsyncTaskObj.mId).getD 0

theorem idInv_init : IdInv ({} : PlayerScheduler τ) where
  queue := queueInv_init
  next := rfl
  ids _ hobj := absurd hobj List.not_mem_nil
  current := rfl

/-- The tasks in use have been accepted one after the other. -/
theorem inUse_sublist {p : PlayerScheduler τ} (hp : QueueInv p) :
    (inUse p).Sublist p.accepted := by
  have hlast : p.started.getLast?.toList.Sublist p.started := by
    cases hstarted : p.started.getLast? with
    | none => exact List.nil_sublist _
    | some last => exact List.singleton_sublist.mpr (List.mem_of_getLast? hstarted)
  have hsub := hlast.append_right p.mTaskQueue
  rw [hp.split] at hsub
  exact hsub.trans List.filter_sublist

theorem inUse_accepted {p : PlayerScheduler τ} (hp : QueueInv p) {obj : PlayerAsyncTaskObj τ}
    (hobj : obj ∈ inUse p) : obj ∈ p.accepted :=
  (inUse_sublist hp).subset hobj

theorem inUse_ids {p : PlayerScheduler τ} (hp : IdInv p) :
    (inUse p).map PlayerAsyncTaskObj.mId = ((inUse p).map PlayerAsyncTaskObj.seq).map taskId := by
  rw [List.map_map]
  exact List.map_congr_left fun obj hobj => hp.ids obj (inUse_accepted hp.queue hobj)

/-- The next id is that of no task in use exactly when none of them is lapped. -/
theorem noneLapped_iff {p : PlayerScheduler τ} (hp : IdInv p) :
    NoneLapped p ↔ ∀ obj ∈ inUse p, obj.mId ≠ p.mNextTaskId := by
  refine forall₂_congr fun obj hobj => not_congr ?_
  have haccepted := inUse_accepted hp.queue hobj
  have hbefore := hp.queue.accepted_before haccepted
  rw [hp.next, hp.ids obj haccepted, eq_comm]
  exact (wrapping_eq_iff (Nat.le_of_lt hbefore)).symm

/-- While no more tasks were accepted since the first one in use than there are ids, the ids of
those in use are distinct. -/
theorem inUse_nodup {p : PlayerScheduler τ} (hp : IdInv p)
    (hwindow : ∀ obj ∈ inUse p, p.accepted.length ≤ obj.seq + taskIdCount) :
    ((inUse p).map PlayerAsyncTaskObj.mId).Nodup := by
  have hascends : ((inUse p).map PlayerAsyncTaskObj.seq).Pairwise (· < ·) := by
    have hsub := (inUse_sublist hp.queue).map PlayerAsyncTaskObj.seq
    rw [hp.queue.numbered] at hsub
    exact List.pairwise_lt_range.sublist hsub
  rw [inUse_ids hp]
  apply wrapping_nodup (n := p.accepted.length) hascends
  · intro k hk
    obtain ⟨obj, hobj, rfl⟩ := List.mem_map.mp hk
    exact hp.queue.accepted_before (inUse_accepted hp.queue hobj)
  · intro k hk
    obtain ⟨obj, hobj, rfl⟩ := List.mem_map.mp hk
    exact hwindow obj hobj

/-! ## Removal -/

/-- The first task of a valid id that is not the current one is taken out. -/
theorem RemoveTask_first {p : PlayerScheduler τ} {before after : List (PlayerAsyncTaskObj τ)}
    {obj : PlayerAsyncTaskObj τ} (hqueue : p.mTaskQueue = before ++ obj :: after)
    (hfirst : ∀ o ∈ before, o.mId ≠ obj.mId) (hvalid : obj.mId ≠ PLAYER_TASK_ID_INVALID)
    (hcurrent : p.mCurrentTaskId ≠ obj.mId) :
    p.RemoveTask obj.mId =
      (true, { p with mTaskQueue := before ++ after, removed := p.removed ++ [obj.seq] }) := by
  have hother : ∀ o ∈ before, ¬ (o.mId == obj.mId) = true :=
    fun o ho heq => hfirst o ho (beq_iff_eq.mp heq)
  have hself : (obj.mId == obj.mId) = true := beq_self_eq_true obj.mId
  have hfind : (p.mTaskQueue.find? fun o => o.mId == obj.mId) = some obj := by
    rw [hqueue, List.find?_append, List.find?_eq_none.mpr hother, Option.none_or,
      List.find?_cons_of_pos (p := fun o : PlayerAsyncTaskObj τ => o.mId == obj.mId) hself]
  have herase : (p.mTaskQueue.eraseP fun o => o.mId == obj.mId) = before ++ after := by
    rw [hqueue, List.eraseP_append_right _ hother,
      List.eraseP_cons_of_pos (p := fun o : PlayerAsyncTaskObj τ => o.mId == obj.mId) hself]
  rw [PlayerScheduler.RemoveTask, if_pos ⟨hvalid, hcurrent⟩, hfind, herase]

/-- Removal works where the ids are distinct and none is that of the current task. -/
theorem taskIdsWork_iff {p : PlayerScheduler τ} (hp : QueueInv p) :
    TaskIdsWork p ↔ (p.mTaskQueue.map PlayerAsyncTaskObj.mId).Nodup ∧
      ∀ obj ∈ p.mTaskQueue, p.mCurrentTaskId ≠ obj.mId := by
  constructor
  · intro h
    refine ⟨h.distinct, fun obj hobj hcurrent => ?_⟩
    obtain ⟨before, after, hqueue⟩ := List.append_of_mem hobj
    have hremoves := h.removes before obj after hqueue
    rw [PlayerScheduler.RemoveTask, if_neg fun hcan => hcan.2 hcurrent] at hremoves
    cases congrArg Prod.fst hremoves
  · intro ⟨hdistinct, hcurrent⟩
    refine ⟨hdistinct, fun before obj after hqueue => ?_⟩
    have hobj : obj ∈ p.mTaskQueue := by
      rw [hqueue]
      exact List.mem_append_right _ List.mem_cons_self
    rw [hqueue, List.map_append] at hdistinct
    have hfirst : ∀ o ∈ before, o.mId ≠ obj.mId := by
      intro o ho
      exact (List.nodup_append.mp hdistinct).2.2 o.mId (List.mem_map_of_mem ho) obj.mId
        List.mem_cons_self
    exact RemoveTask_first hqueue hfirst (hp.queued_valid hobj) (hcurrent obj hobj)

/-- Task ids work as long as the tasks in use have distinct ones. -/
theorem taskIdsWork_iff_nodup {p : PlayerScheduler τ} (hp : IdInv p) :
    TaskIdsWork p ↔ ((inUse p).map PlayerAsyncTaskObj.mId).Nodup := by
  rw [taskIdsWork_iff hp.queue, inUse, hp.current]
  cases p.started.getLast? with
  | none => exact and_iff_left fun obj hobj => (hp.queue.queued_valid hobj).symm
  | some last =>
      have hother : last.mId ∉ p.mTaskQueue.map PlayerAsyncTaskObj.mId ↔
          ∀ obj ∈ p.mTaskQueue, last.mId ≠ obj.mId := by
        rw [List.mem_map]
        exact ⟨fun h obj hobj heq => h ⟨obj, hobj, heq.symm⟩,
          fun h ⟨obj, hobj, heq⟩ => h obj hobj heq.symm⟩
      show _ ↔ (last.mId :: p.mTaskQueue.map PlayerAsyncTaskObj.mId).Nodup
      rw [List.nodup_cons, hother, and_comm]
      rfl

/-! ## The other sections -/

/-- What a section does in which no task is accepted. -/
inductive OtherSection (p : PlayerScheduler τ) : PlayerScheduler τ → Prop where
  | nothing : OtherSection p p
  | RemoveTask (id : Nat) : OtherSection p (p.RemoveTask id).2
  | RemoveAllTasks : OtherSection p p.RemoveAllTasks
  | setLockOut (lockOut : Bool) : OtherSection p (p.setLockOut lockOut)
  | setRunning (running : Bool) : OtherSection p (p.setRunning running)
  | takeTask : OtherSection p p.takeTask.2

theorem OtherSection.queueInv {p q : PlayerScheduler τ} (h : OtherSection p q) (hp : QueueInv p) :
    QueueInv q := by
  cases h with
  | nothing => exact hp
  | RemoveTask id => exact hp.removeTask id
  | RemoveAllTasks => exact hp.removeAllTasks
  | setLockOut lockOut => exact hp.setLockOut lockOut
  | setRunning running => exact hp.setRunning running
  | takeTask => exact hp.takeTask

theorem OtherSection.idInv {p q : PlayerScheduler τ} (h : OtherSection p q) (hp : IdInv p) :
    IdInv q := by
  have hq := h.queueInv hp.queue
  cases h with
  | nothing => exact hp
  | RemoveTask id =>
      obtain ⟨hnext, hcurrent, haccepted, hstarted⟩ := RemoveTask_rest p id
      constructor
      · exact hq
      · rw [hnext, haccepted, hp.next]
      · rw [haccepted]
        exact hp.ids
      · rw [hcurrent, hstarted, hp.current]
  | RemoveAllTasks => exact ⟨hq, hp.next, hp.ids, hp.current⟩
  | setLockOut lockOut => exact ⟨hq, hp.next, hp.ids, hp.current⟩
  | setRunning running => exact ⟨hq, hp.next, hp.ids, hp.current⟩
  | takeTask =>
      cases hqueue : p.mTaskQueue with
      | nil =>
          rw [takeTask_empty hqueue]
          exact hp
      | cons obj rest =>
          rw [hp.queue.takeTask_cons hqueue] at hq ⊢
          refine ⟨hq, hp.next, hp.ids, ?_⟩
          rw [List.getLast?_concat]
          rfl

/-- No other section brings a task into use. -/
theorem OtherSection.inUse_sublist {p q : PlayerScheduler τ} (h : OtherSection p q)
    (hp : QueueInv p) : (inUse q).Sublist (inUse p) := by
  cases h with
  | nothing => exact List.Sublist.refl _
  | RemoveTask id =>
      rw [inUse, (RemoveTask_rest p id).2.2.2]
      exact (RemoveTask_sublist p id).append_left _
  | RemoveAllTasks => exact (List.nil_sublist _).append_left _
  | setLockOut lockOut => exact List.Sublist.refl _
  | setRunning running => exact List.Sublist.refl _
  | takeTask =>
      cases hqueue : p.mTaskQueue with
      | nil => rw [takeTask_empty hqueue]
      | cons obj rest =>
          -- the task that starts stays in use, and the one started before goes out of use
          rw [hp.takeTask_cons hqueue, inUse, inUse, hqueue, List.getLast?_concat]
          exact List.sublist_append_right _ (obj :: rest)

theorem OtherSection.taskIdsWork {p q : PlayerScheduler τ} (h : OtherSection p q) (hp : IdInv p)
    (hwork : TaskIdsWork p) : TaskIdsWork q := by
  rw [taskIdsWork_iff_nodup hp] at hwork
  rw [taskIdsWork_iff_nodup (h.idInv hp)]
  exact hwork.sublist ((h.inUse_sublist hp.queue).map _)

/-! ## Acceptance -/

theorem IdInv.scheduleTask {p : PlayerScheduler τ} (hp : IdInv p) (h : p.mLockOut = false)
    (task : τ) : IdInv (p.ScheduleTask task).2 := by
  have hqueue := hp.queue.scheduleTask task
  rw [ScheduleTask_accepted h] at hqueue ⊢
  constructor
  · exact hqueue
  · rw [List.length_append, List.length_singleton, ← nextId_taskId, hp.next]
  · intro obj hobj
    rcases List.mem_append.mp hobj with hold | hnew
    · exact hp.ids obj hold
    · rw [List.mem_singleton.mp hnew]
      exact hp.next
  · exact hp.current

/-- An accepted task works exactly when none in use is lapped. -/
theorem taskIdsWork_scheduleTask_iff {p : PlayerScheduler τ} (hp : IdInv p)
    (hwork : TaskIdsWork p) (h : p.mLockOut = false) (task : τ) :
    TaskIdsWork (p.ScheduleTask task).2 ↔ NoneLapped p := by
  rw [taskIdsWork_iff_nodup hp] at hwork
  rw [taskIdsWork_iff_nodup (hp.scheduleTask h task), ScheduleTask_accepted h, noneLapped_iff hp]
  show ((p.started.getLast?.toList ++ (p.mTaskQueue ++ [_])).map _).Nodup ↔ _
  rw [← List.append_assoc, List.map_append, List.nodup_append]
  constructor
  · intro ⟨_, _, hfresh⟩ obj hobj
    exact hfresh obj.mId (List.mem_map_of_mem hobj) p.mNextTaskId List.mem_cons_self
  · intro hfresh
    refine ⟨hwork, List.nodup_singleton _, fun id hid next hnext => ?_⟩
    obtain ⟨obj, hobj, rfl⟩ := List.mem_map.mp hid
    rw [List.mem_singleton.mp hnext]
    exact hfresh obj hobj

/-! ## Runs -/

/-- `ScheduleTask` accepts a task, or another section is passed. -/
inductive Passes (s : State ι τ) (a : Act ι τ) (q : PlayerScheduler τ) : Prop where
  | accepts (task : τ) : s.accepts a = some task → s.sched.mLockOut = false →
      q = (s.sched.ScheduleTask task).2 → Passes s a q
  | other : s.accepts a = none → OtherSection s.sched q → Passes s a q

theorem passes_same {s : State ι τ} {a : Act ι τ} {q : PlayerScheduler τ}
    (h : s.accepts a = none) (heq : q = s.sched) : Passes s a q :=
  .other h (heq ▸ .nothing)

theorem passes_scheduling {s : State ι τ} {i : ι} {task : τ}
    (h : s.client i = .scheduling task) :
    Passes s (.advance i) (s.sched.ScheduleTask task).2 := by
  cases hout : s.sched.mLockOut with
  | true =>
      have hrefused : s.accepts (.advance i) = none := by simp [State.accepts, h, hout]
      exact passes_same hrefused (ScheduleTask_lockedOut hout task)
  | false =>
      have haccepts : s.accepts (.advance i) = some task := by simp [State.accepts, h, hout]
      exact .accepts task haccepts hout rfl

theorem Passes.idInv {s : State ι τ} {a : Act ι τ} {q : PlayerScheduler τ} (h : Passes s a q)
    (hs : IdInv s.sched) : IdInv q := by
  cases h with
  | accepts task _ hout heq =>
      rw [heq]
      exact hs.scheduleTask hout task
  | other _ hother => exact hother.idInv hs

/-- A step keeps the property exactly when it accepts no task while one in use is lapped. -/
theorem Passes.taskIdsWork_iff {s : State ι τ} {a : Act ι τ} {q : PlayerScheduler τ}
    (h : Passes s a q) (hs : IdInv s.sched) (hwork : TaskIdsWork s.sched) :
    TaskIdsWork q ↔ AcceptsUnlapped s a := by
  unfold AcceptsUnlapped
  cases h with
  | accepts task haccepts hout heq =>
      rw [heq, taskIdsWork_scheduleTask_iff hs hwork hout, haccepts]
      exact ⟨fun hfresh _ => hfresh, fun h => h (Option.some_ne_none task)⟩
  | other hnone hother =>
      exact iff_of_true (hother.taskIdsWork hs hwork) fun haccepts => absurd hnone haccepts

variable [DecidableEq ι]

theorem callStep_passes {s t : State ι τ} {a : Act ι τ} (h : callStep s a = some t) :
    Passes s a t.sched := by
  cases a with
  | ScheduleTask i task =>
      simp only [callStep] at h
      split at h <;> cases h <;> exact passes_same rfl rfl
  | RemoveTask i id =>
      cases h
      exact .other rfl (.RemoveTask id)
  | RemoveAllTasks i =>
      cases h
      exact .other rfl .RemoveAllTasks
  | SuspendScheduler i =>
      simp only [callStep] at h
      split at h <;> cases h <;> exact passes_same rfl rfl
  | ResumeScheduler i =>
      simp only [callStep] at h
      split at h <;> cases h <;> exact passes_same rfl rfl
  | EnableScheduleTask i =>
      cases h
      exact .other rfl (.setLockOut false)
  | StopScheduler i =>
      cases h
      exact .other rfl (.setRunning false)
  | _ => cases h

/-- No task is accepted where the client is at another section. -/
theorem advanceStep_other {s t : State ι τ} {i : ι} (hother : ∀ task, s.client i ≠ .scheduling task)
    (h : advanceStep s i = some t) : OtherSection s.sched t.sched := by
  cases hclient : s.client i <;> simp only [advanceStep, hclient] at h
  case idle returned => cases h
  case scheduling task => exact absurd hclient (hother task)
  case suspending stopping =>
    split at h <;> cases h
    exact .nothing
  case lockingOut stopping =>
    cases h
    exact .setLockOut true
  case resuming stopping =>
    cases h
    exact .setLockOut false
  case stopping =>
    cases h
    exact .nothing
  case callingSuspend => split at h <;> cases h <;> exact .nothing
  case clearing =>
    cases h
    exact .RemoveAllTasks
  case unlocking => split at h <;> cases h <;> exact .nothing
  case notifying =>
    cases h
    exact .nothing
  case joining => split at h <;> cases h <;> exact .nothing

theorem advanceStep_passes {s t : State ι τ} {i : ι} (h : advanceStep s i = some t) :
    Passes s (.advance i) t.sched := by
  cases hclient : s.client i with
  | scheduling task =>
      have hpasses := passes_scheduling hclient
      simp only [advanceStep, hclient] at h
      split at h <;> cases h <;> exact hpasses
  | _ =>
      have hnone : s.accepts (.advance i) = none := by simp [State.accepts, hclient]
      exact .other hnone (advanceStep_other (by simp [hclient]) h)

omit [DecidableEq ι] in
theorem workerStep_passes {s t : State ι τ} {a : Act ι τ} (h : workerStep s a = some t) :
    Passes s a t.sched := by
  cases a with
  | wake =>
      simp only [workerStep] at h
      split at h <;> cases h
      exact passes_same rfl rfl
  | testLoop =>
      simp only [workerStep] at h
      split at h <;> cases h
      exact passes_same rfl rfl
  | lockEx =>
      simp only [workerStep] at h
      split at h
      · split at h <;> cases h
        exact passes_same rfl rfl
      · cases h
  | takeTask =>
      have htake := OtherSection.takeTask (p := s.sched)
      simp only [workerStep] at h
      split at h
      · split at h <;> rename_i hq <;> rw [hq] at htake <;> cases h <;> exact .other rfl htake
      · cases h
  | finishTask =>
      simp only [workerStep] at h
      split at h <;> cases h
      exact passes_same rfl rfl
  | _ => cases h

theorem schedulerStep_passes {s t : State ι τ} {a : Act ι τ} (h : schedulerStep s a = some t) :
    Passes s a t.sched := by
  obtain ⟨rfl, -, rfl⟩ | ⟨i, rfl, hadvance⟩ | hcall | hworker := schedulerStep_cases h
  · exact .other rfl (.setRunning true)
  · exact advanceStep_passes hadvance
  · exact callStep_passes hcall
  · exact workerStep_passes hworker

theorem idInv_of_reachable {s : State ι τ} (h : (schedulerSystem ι τ).Reachable s) :
    IdInv s.sched := by
  apply h.invariant
  · intro s hs
    cases hs
    exact idInv_init
  · exact fun _ _ _ hs _ ht => (schedulerStep_passes ht).idInv hs

/-- Where no more tasks were accepted since the first one in use than there are ids, they work. -/
theorem taskIdsWork_of_window {s : State ι τ} (h : (schedulerSystem ι τ).Reachable s)
    (hwindow : ∀ obj ∈ inUse s.sched, s.sched.accepted.length ≤ obj.seq + taskIdCount) :
    TaskIdsWork s.sched := by
  have hinv := idInv_of_reachable h
  exact (taskIdsWork_iff_nodup hinv).mpr (inUse_nodup hinv hwindow)

/-- Task ids work throughout a run exactly when it accepts no task while one in use is lapped. -/
theorem taskIds_run_iff (as : List (Act ι τ)) :
    (schedulerSystem ι τ).RunAll (fun s => TaskIdsWork s.sched) {} as ↔
      (schedulerSystem ι τ).RunOk AcceptsUnlapped {} as :=
  System.runAll_iff_runOk_of_invariant
    (fun _ _ _ hs ht => (schedulerStep_passes ht).idInv hs)
    (fun _ _ _ hs hwork ht => (schedulerStep_passes ht).taskIdsWork_iff hs hwork)
    idInv_init ((taskIdsWork_iff_nodup idInv_init).mpr List.nodup_nil) as

/-! ## A run that laps -/

/-- An accepting scheduler whose client is idle, and what decides about the next id. -/
structure Accepting (queue : List (PlayerAsyncTaskObj Unit)) (current n : Nat)
    (s : State Unit Unit) : Prop where
  running : s.sched.mSchedulerRunning = true
  accepting : s.sched.mLockOut = false
  idle : ∃ returned, s.client () = .idle returned
  queue : s.sched.mTaskQueue = queue
  current : s.sched.mCurrentTaskId = current
  next : s.sched.mNextTaskId = taskId n
  accepted : s.sched.accepted.length = n

def schedulingCall : List (Act Unit Unit) := [.ScheduleTask () (), .advance ()]

/-- The task accepted behind `n` others is removed at once. -/
def scheduleAndRemove (n : Nat) : List (Act Unit Unit) :=
  schedulingCall ++ [.RemoveTask () (taskId n)]

theorem advance_scheduling {s : State ι τ} {i : ι} {task : τ} (h : s.client i = .scheduling task) :
    ∃ t, advanceStep s i = some t ∧ t.sched = (s.sched.ScheduleTask task).2 ∧
      ∃ returned, t.client i = .idle returned := by
  simp only [advanceStep, h]
  split
  · exact ⟨_, rfl, rfl, _, State.setClient_self _ i _⟩
  · exact ⟨_, rfl, rfl, _, State.setClient_self _ i _⟩

theorem run_schedulingCall {queue : List (PlayerAsyncTaskObj Unit)} {current n : Nat}
    {s : State Unit Unit} (h : Accepting queue current n s) :
    ∃ t, (schedulerSystem Unit Unit).run s schedulingCall = some t ∧
      Accepting (queue ++ [⟨(), taskId n, n⟩]) current (n + 1) t := by
  obtain ⟨returned, hidle⟩ := h.idle
  have hcall : schedulerStep s (.ScheduleTask () ()) = some (s.setClient () (.scheduling ())) := by
    simp only [schedulerStep, Act.caller, hidle, callStep, h.running, if_true]
  obtain ⟨t, hadvance, hsched, hreturned⟩ :=
    advance_scheduling (State.setClient_self s () (.scheduling ()))
  have haccepts : t.sched = (s.sched.ScheduleTask ()).2 := hsched
  rw [ScheduleTask_accepted h.accepting] at haccepts
  refine ⟨t, ?_, ?_⟩
  · exact (System.run_cons hcall _).trans (System.run_cons hadvance [])
  · constructor
    · rw [haccepts]
      exact h.running
    · rw [haccepts]
      exact h.accepting
    · exact hreturned
    · rw [haccepts, h.queue, h.next, h.accepted]
    · rw [haccepts]
      exact h.current
    · rw [haccepts, h.next, nextId_taskId]
    · rw [haccepts, List.length_append, h.accepted]
      rfl

theorem run_removed {queue : List (PlayerAsyncTaskObj Unit)} {current n : Nat}
    {obj : PlayerAsyncTaskObj Unit} {s : State Unit Unit}
    (h : Accepting (queue ++ [obj]) current n s)
    (hfirst : ∀ o ∈ queue, o.mId ≠ obj.mId) (hvalid : obj.mId ≠ PLAYER_TASK_ID_INVALID)
    (hcurrent : current ≠ obj.mId) :
    ∃ t, (schedulerSystem Unit Unit).run s [.RemoveTask () obj.mId] = some t ∧
      Accepting queue current n t := by
  obtain ⟨returned, hidle⟩ := h.idle
  rw [← h.current] at hcurrent
  have hremoves := RemoveTask_first h.queue hfirst hvalid hcurrent
  rw [List.append_nil] at hremoves
  have hcall : schedulerStep s (.RemoveTask () obj.mId) = some ((s.withSched
      (s.sched.RemoveTask obj.mId).2).setClient () (.idle (.removed true))) := by
    simp only [schedulerStep, Act.caller, hidle, callStep, hremoves]
  have hreturned := State.setClient_self (s.withSched (s.sched.RemoveTask obj.mId).2) ()
    (.idle (.removed true))
  refine ⟨_, System.run_cons hcall [], ?_⟩
  rw [hremoves] at hreturned ⊢
  exact ⟨h.running, h.accepting, ⟨_, hreturned⟩, rfl, h.current, h.next, h.accepted⟩

theorem run_scheduleAndRemove {queue : List (PlayerAsyncTaskObj Unit)} {current n : Nat}
    {s : State Unit Unit} (h : Accepting queue current n s) (hfree : ∀ o ∈ queue, o.mId ≠ taskId n)
    (hcurrent : current ≠ taskId n) :
    ∃ t, (schedulerSystem Unit Unit).run s (scheduleAndRemove n) = some t ∧
      Accepting queue current (n + 1) t := by
  obtain ⟨u, hschedules, hu⟩ := run_schedulingCall h
  obtain ⟨t, hremoved, ht⟩ :=
    run_removed hu hfree (Nat.ne_of_gt (taskId_pos n)) hcurrent
  exact ⟨t, (System.run_append hschedules _).trans hremoved, ht⟩

/-- Behind `n` accepted tasks, `k` more are scheduled and removed one by one. -/
def rounds (n k : Nat) : List (Act Unit Unit) :=
  (List.range k).flatMap fun j => scheduleAndRemove (n + j)

/-- Until the counter starts over, its values are above the ids that are in use already. -/
theorem run_rounds {queue : List (PlayerAsyncTaskObj Unit)} {current n : Nat}
    {s : State Unit Unit} (h : Accepting queue current n s) (hqueue : ∀ o ∈ queue, o.mId ≤ n)
    (hcurrent : current ≤ n) (k : Nat) (hk : n + k ≤ taskIdCount) :
    ∃ t, (schedulerSystem Unit Unit).run s (rounds n k) = some t ∧
      Accepting queue current (n + k) t := by
  induction k with
  | zero => exact ⟨s, rfl, h⟩
  | succ k ih =>
      obtain ⟨u, hbefore, hu⟩ := ih (Nat.le_of_succ_le hk)
      have hid : taskId (n + k) = 1 + (n + k) := wrapping_of_lt hk
      have hfresh : ∀ id ≤ n, id ≠ taskId (n + k) := by
        intro id hle
        rw [hid]
        omega
      obtain ⟨t, hround, ht⟩ := run_scheduleAndRemove hu (fun o ho => hfresh o.mId (hqueue o ho))
        (hfresh current hcurrent)
      refine ⟨t, ?_, ht⟩
      rw [rounds, List.range_succ, List.flatMap_append, List.flatMap_singleton]
      exact (System.run_append hbefore _).trans hround

/-- One task is being executed and one is pending. -/
def firstTwo : List (Act Unit Unit) :=
  [.StartScheduler] ++ schedulingCall ++ [.testLoop, .lockEx, .takeTask] ++ schedulingCall

theorem run_firstTwo :
    ∃ t, (schedulerSystem Unit Unit).run {} firstTwo = some t ∧ Accepting [⟨(), 2, 1⟩] 1 2 t :=
  ⟨_, rfl, rfl, rfl, ⟨_, rfl⟩, rfl, rfl, rfl, rfl⟩

/-- The ids of these two are given out again, with every other task removed in between. -/
def lappedRun : List (Act Unit Unit) :=
  firstTwo ++ rounds 2 (taskIdCount - 2) ++ schedulingCall ++ schedulingCall

theorem taskId_over : taskId taskIdCount = 1 ∧ taskId (taskIdCount + 1) = 2 := by decide

theorem run_lappedRun :
    ∃ t, (schedulerSystem Unit Unit).run {} lappedRun = some t ∧
      Accepting [⟨(), 2, 1⟩, ⟨(), 1, taskIdCount⟩, ⟨(), 2, taskIdCount + 1⟩] 1
        (taskIdCount + 2) t := by
  obtain ⟨s, hfirst, hs⟩ := run_firstTwo
  have hqueue : ∀ o ∈ [(⟨(), 2, 1⟩ : PlayerAsyncTaskObj Unit)], o.mId ≤ 2 := by
    intro o ho
    rw [List.mem_singleton.mp ho]
  have hcount : 2 + (taskIdCount - 2) ≤ taskIdCount := by decide
  obtain ⟨u, hrounds, hu⟩ := run_rounds hs hqueue (by decide) (taskIdCount - 2) hcount
  have hlapped : 2 + (taskIdCount - 2) = taskIdCount := rfl
  rw [hlapped] at hu
  obtain ⟨v, hagain, hv⟩ := run_schedulingCall hu
  obtain ⟨t, hlast, ht⟩ := run_schedulingCall hv
  rw [taskId_over.1, taskId_over.2] at ht
  refine ⟨t, ?_, ht⟩
  rw [lappedRun, List.append_assoc, List.append_assoc, System.run_append hfirst,
    System.run_append hrounds, System.run_append hagain, hlast]

/-- A task is then pending under the id of another one, and one cannot be removed. -/
theorem lappedRun_breaks :
    ∃ t, (schedulerSystem Unit Unit).run {} lappedRun = some t ∧
      t.sched.mTaskQueue.map PlayerAsyncTaskObj.mId = [2, 1, 2] ∧
      (t.sched.RemoveTask 1).1 = false ∧
      ¬ (schedulerSystem Unit Unit).RunAll (fun s => TaskIdsWork s.sched) {} lappedRun := by
  obtain ⟨t, hrun, ht⟩ := run_lappedRun
  have hids : t.sched.mTaskQueue.map PlayerAsyncTaskObj.mId = [2, 1, 2] := by
    rw [ht.queue]
    rfl
  have hrefused : t.sched.RemoveTask 1 = (false, t.sched) := by
    rw [PlayerScheduler.RemoveTask, if_neg fun hcan => hcan.2 ht.current]
  refine ⟨t, hrun, hids, congrArg Prod.fst hrefused, fun hall => ?_⟩
  have hdistinct := (hall.run hrun).distinct
  rw [hids] at hdistinct
  exact absurd hdistinct (by decide)

end PlayerInterface.Scheduler
