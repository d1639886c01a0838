import PlayerInterface.Player.IdleTasks

/-!
# When the control data agrees with the scheduler

A control that is not being changed is in one of three situations: nothing
recorded, its task queued under the recorded id, or its task started and not yet
past the section that clears the record. The section of the running task and the
removal by id keep this as long as they meet no later task of their control.
-/

namespace PlayerInterface.Player

open PlayerInterface.Core PlayerInterface.Scheduler

namespace IdleState

/-- The queued tasks of a control. -/
def queued (s : IdleState) (c : TaskControl) : List (PlayerAsyncTaskObj IdleTask) :=
  s.sched.mTaskQueue.filter fun obj => obj.mTask.control = some c

/-- The running task belongs to the control and has not cleared its data. -/
def Started (s : IdleState) (c : TaskControl) (id : Nat) : Prop :=
  ∃ obj, s.worker = .running obj false ∧ obj.mTask.control = some c ∧ obj.mId = id

structure ControlAgrees (s : IdleState) (c : TaskControl) : Prop where
  once : (s.queued c).length ≤ 1
  recorded : ∀ obj ∈ s.queued c,
    (s.details c).taskID = obj.mId ∧ (s.details c).taskIsPending = true
  alive : (s.details c).taskID ≠ 0 →
    (∃ obj ∈ s.queued c, obj.mId = (s.details c).taskID) ∨ s.Started c (s.details c).taskID

/-- No add is refused for a task that is gone, and no task is taken out of the queue
by an earlier task of its control. -/
structure TasksAgree (s : IdleState) : Prop where
  free : s.mutex = .free → ∀ c, s.ControlAgrees c
  refused : ∀ c, s.mutex = .adding c → s.ControlAgrees c
  withdrawn : ∀ own ∈ s.withdrawn, own = false

/-- What the step would clear or remove is no later task of the control: the running
task finds none queued, and `RemoveTask` takes out the queued one. -/
def TargetsItsTask (s : IdleState) : IdleAct → Prop
  | .holder =>
      match s.mutex with
      | .clearing c | .removing c true => s.queued c = []
      | .removing c false => s.queued c ≠ [] →
          s.sched.mCurrentTaskId ≠ (s.details c).taskID ∧
            ∀ obj ∈ s.sched.mTaskQueue, obj.mId = (s.details c).taskID →
              obj.mTask.control = some c
      | _ => True
  | _ => True

/-- The situations of a control whose data is not being changed. -/
inductive Slot (s : IdleState) (c : TaskControl) : Prop where
  | free : s.queued c = [] → (s.details c).taskID = 0 → Slot s c
  | queued (obj : PlayerAsyncTaskObj IdleTask) : s.queued c = [obj] →
      (s.details c).taskID = obj.mId → (s.details c).taskIsPending = true → Slot s c
  | started : s.queued c = [] → s.Started c (s.details c).taskID → Slot s c

theorem Slot.agrees {s : IdleState} {c : TaskControl} (h : s.Slot c) : s.ControlAgrees c := by
  cases h with
  | free hq hid => exact ⟨by simp [hq], by simp [hq], fun hne => absurd hid hne⟩
  | queued obj hq hid hp =>
      constructor
      · simp [hq]
      · intro o ho
        rw [hq, List.mem_singleton] at ho
        exact ⟨ho ▸ hid, hp⟩
      · intro _
        exact .inl ⟨obj, by simp [hq], hid.symm⟩
  | started hq hs => exact ⟨by simp [hq], by simp [hq], fun _ => .inr hs⟩

/-- The control that the holder of the mutex is changing, with what is known of it. -/
inductive Held (s : IdleState) : TaskSection → Prop where
  | free : (∀ c, s.Slot c) → Held s .free
  | adding (c : TaskControl) : (∀ d, s.Slot d) → Held s (.adding c)
  | refused (c : TaskControl) : (∀ d, d ≠ c → s.Slot d) → s.queued c = [] →
      Held s (.scheduled c 0)
  | scheduled (c : TaskControl) (obj : PlayerAsyncTaskObj IdleTask) :
      (∀ d, d ≠ c → s.Slot d) → s.queued c = [obj] → Held s (.scheduled c obj.mId)
  | taken (c : TaskControl) (id : Nat) : (∀ d, d ≠ c → s.Slot d) → s.queued c = [] →
      s.Started c id → Held s (.scheduled c id)
  | removing (c : TaskControl) : (∀ d, s.Slot d) → Held s (.removing c false)
  | removingOwn (c : TaskControl) (id : Nat) : (∀ d, s.Slot d) → s.Started c id →
      Held s (.removing c true)
  | removed (c : TaskControl) : (∀ d, d ≠ c → s.Slot d) → s.queued c = [] →
      Held s (.removed c false)
  | removedOwn (c : TaskControl) (id : Nat) : (∀ d, d ≠ c → s.Slot d) → s.queued c = [] →
      s.Started c id → Held s (.removed c true)
  | clearing (c : TaskControl) (id : Nat) : (∀ d, s.Slot d) → s.Started c id →
      Held s (.clearing c)

structure Inv (s : IdleState) : Prop where
  queue : QueueInv s.sched
  current : ∀ obj cleared, s.worker = .running obj cleared →
    s.sched.mCurrentTaskId = obj.mId ∧ obj.mId ≠ 0
  held : s.Held s.mutex
  withdrawn : ∀ own ∈ s.withdrawn, own = false

variable {s t : IdleState} {c d : TaskControl}

/-! ### Steps that leave the slots alone -/

theorem Slot.congr (h : s.Slot c) (hq : t.queued c = s.queued c) (hd : t.details c = s.details c)
    (hw : ∀ id, s.Started c id → t.Started c id) : t.Slot c := by
  cases h with
  | free hqueue hid => exact .free (hq.trans hqueue) (hd ▸ hid)
  | queued obj hqueue hid hp => exact .queued obj (hq.trans hqueue) (hd ▸ hid) (hd ▸ hp)
  | started hqueue hs => exact .started (hq.trans hqueue) (hd ▸ hw _ hs)

theorem Held.congr {m : TaskSection} (h : s.Held m) (hq : ∀ c, t.queued c = s.queued c)
    (hd : t.details = s.details) (hw : ∀ c id, s.Started c id → t.Started c id) : t.Held m := by
  have hslot : ∀ c, s.Slot c → t.Slot c := fun c hc =>
    hc.congr (hq c) (congrFun hd c) (hw c)
  cases h with
  | free hs => exact .free fun c => hslot c (hs c)
  | adding c hs => exact .adding c fun d => hslot d (hs d)
  | refused c hs hqueue => exact .refused c (fun d hd => hslot d (hs d hd)) ((hq c).trans hqueue)
  | scheduled c obj hs hqueue =>
      exact .scheduled c obj (fun d hd => hslot d (hs d hd)) ((hq c).trans hqueue)
  | taken c id hs hqueue hst =>
      exact .taken c id (fun d hd => hslot d (hs d hd)) ((hq c).trans hqueue) (hw c id hst)
  | removing c hs => exact .removing c fun d => hslot d (hs d)
  | removingOwn c id hs hst => exact .removingOwn c id (fun d => hslot d (hs d)) (hw c id hst)
  | removed c hs hqueue => exact .removed c (fun d hd => hslot d (hs d hd)) ((hq c).trans hqueue)
  | removedOwn c id hs hqueue hst =>
      exact .removedOwn c id (fun d hd => hslot d (hs d hd)) ((hq c).trans hqueue) (hw c id hst)
  | clearing c id hs hst => exact .clearing c id (fun d => hslot d (hs d)) (hw c id hst)

/-- One task runs at a time. -/
theorem Started.unique {id id' : Nat} (h : s.Started c id) (h' : s.Started d id') : c = d := by
  rcases h with ⟨obj, hw, hc, _⟩
  rcases h' with ⟨obj', hw', hd, _⟩
  cases hw.symm.trans hw'
  exact Option.some.inj (hc.symm.trans hd)

theorem Inv.started_ne_zero (h : s.Inv) {id : Nat} (hs : s.Started c id) :
    id ≠ 0 ∧ s.sched.mCurrentTaskId = id := by
  rcases hs with ⟨obj, hw, _, rfl⟩
  have hc := h.current obj false hw
  exact ⟨hc.2, hc.1⟩

theorem Inv.queued_ne_zero (h : s.Inv) {obj : PlayerAsyncTaskObj IdleTask}
    (hobj : obj ∈ s.queued c) : obj.mId ≠ 0 :=
  h.queue.queued_valid (List.mem_filter.mp hobj).1

/-- With nothing recorded nothing of the control is queued. -/
theorem Inv.queued_nil (h : s.Inv) (hslot : s.Slot c) (hid : (s.details c).taskID = 0) :
    s.queued c = [] := by
  cases hslot with
  | free hq _ => exact hq
  | queued obj hq hobj _ =>
      have hmem : obj ∈ s.queued c := by rw [hq]; exact List.mem_singleton_self obj
      exact absurd (hobj ▸ hid) (h.queued_ne_zero hmem)
  | started hq _ => exact hq

/-! ### Scheduling, taking and removing -/

theorem ScheduleTask_schedules (h : QueueInv s.sched) (task : IdleTask) :
    Schedules s.sched task (s.ScheduleTask task) := by
  unfold ScheduleTask
  split
  case isFalse => exact .refused
  case isTrue => exact h.scheduleTask_schedules task

theorem TaskControl.task_control (c : TaskControl) : c.task.control = some c := by
  cases c <;> rfl

/-- The queued tasks of the controls once a task is appended. -/
theorem queued_append {obj : PlayerAsyncTaskObj IdleTask}
    (hq : t.sched.mTaskQueue = s.sched.mTaskQueue ++ [obj]) (d : TaskControl) :
    t.queued d = s.queued d ++ if obj.mTask.control = some d then [obj] else [] := by
  unfold queued
  rw [hq, List.filter_append]
  by_cases hd : obj.mTask.control = some d <;> simp [hd]

/-- `RemoveTask` of the id of the running task does nothing. -/
theorem RemoveTask_current (p : PlayerScheduler IdleTask) :
    p.RemoveTask p.mCurrentTaskId = (false, p) := by
  unfold PlayerScheduler.RemoveTask
  rw [if_neg (fun h => h.2 rfl)]

/-- `RemoveTask` takes out the only queued task of a control if no other task
carries its id. -/
theorem RemoveTask_queued {p : PlayerScheduler IdleTask} {obj : PlayerAsyncTaskObj IdleTask}
    (hqueued : (p.mTaskQueue.filter fun o => o.mTask.control = some c) = [obj])
    (hid : obj.mId ≠ 0) (hcur : p.mCurrentTaskId ≠ obj.mId)
    (hother : ∀ o ∈ p.mTaskQueue, o.mId = obj.mId → o.mTask.control = some c) :
    (p.RemoveTask obj.mId).2.mCurrentTaskId = p.mCurrentTaskId ∧
      ∀ d, ((p.RemoveTask obj.mId).2.mTaskQueue.filter fun o => o.mTask.control = some d) =
        if d = c then [] else p.mTaskQueue.filter fun o => o.mTask.control = some d := by
  have hmem : obj ∈ p.mTaskQueue := by
    have hfilter : obj ∈ p.mTaskQueue.filter fun o => o.mTask.control = some c := by
      rw [hqueued]
      exact List.mem_singleton_self obj
    exact (List.mem_filter.mp hfilter).1
  have hremoves := RemoveTask_removes p obj.mId
  generalize p.RemoveTask obj.mId = r at hremoves
  cases hremoves with
  | nothing hnone => exact absurd rfl (hnone hid hcur obj hmem)
  | taken before found after hqueue hfid =>
      have hcontrol : found.mTask.control = some c := by
        apply hother _ _ hfid
        rw [hqueue]
        exact List.mem_append_right _ List.mem_cons_self
      constructor
      · rfl
      · intro d
        by_cases hd : d = c
        · subst hd
          rw [if_pos rfl, List.filter_append]
          -- the removed task was the one task of the control
          have hlen := congrArg List.length hqueued
          rw [hqueue] at hlen
          simp only [List.filter_append, List.filter_cons, hcontrol, decide_true, if_true,
            List.length_append, List.length_cons, List.length_nil] at hlen
          have hb : (before.filter fun o => o.mTask.control = some d).length = 0 := by omega
          have ha : (after.filter fun o => o.mTask.control = some d).length = 0 := by omega
          rw [List.length_eq_zero_iff.mp hb, List.length_eq_zero_iff.mp ha]
          rfl
        · rw [if_neg hd, hqueue]
          have hne : ¬ found.mTask.control = some d := by
            rw [hcontrol]
            exact fun h => hd (Option.some.inj h).symm
          simp [hne]

/-! ### The steps -/

theorem inv_init : Inv {} where
  queue := queueInv_init
  current := nofun
  held := Held.free fun _ => Slot.free rfl rfl
  withdrawn := nofun

/-- The scheduler is told something that does not touch its queue. -/
theorem Inv.setFlags (h : s.Inv) {p : PlayerScheduler IdleTask} (hinv : QueueInv p)
    (hq : p.mTaskQueue = s.sched.mTaskQueue) (hcur : p.mCurrentTaskId = s.sched.mCurrentTaskId) :
    Inv { s with sched := p } where
  queue := hinv
  current obj cleared hw := hcur ▸ h.current obj cleared hw
  held := h.held.congr (fun _ => congrArg (List.filter _) hq) rfl fun _ _ hs => hs
  withdrawn := h.withdrawn

theorem inv_scheduleOther (h : s.Inv) : Inv { s with sched := (s.ScheduleTask .other).2 } := by
  have hsched := ScheduleTask_schedules h.queue .other
  generalize s.ScheduleTask .other = r at hsched
  cases hsched with
  | refused => exact h
  | appended obj p' htask hq hcur hinv =>
      constructor
      · exact hinv
      · intro o cleared hw
        exact hcur ▸ h.current o cleared hw
      · have hqueue : ∀ c, queued { s with sched := p' } c = s.queued c := by
          intro c
          have happend : queued { s with sched := p' } c = s.queued c ++ _ := queued_append hq c
          rw [happend, htask]
          simp [IdleTask.control]
        exact h.held.congr hqueue rfl fun _ _ hs => hs
      · exact h.withdrawn

/-- A slot when the worker takes the front of the queue. -/
theorem slot_take {obj : PlayerAsyncTaskObj IdleTask} {rest : List (PlayerAsyncTaskObj IdleTask)}
    (hworker : s.worker = .idle) (hqueue : s.sched.mTaskQueue = obj :: rest)
    (htq : t.sched.mTaskQueue = rest) (htw : t.worker = .running obj false)
    (htd : t.details = s.details) (hslot : s.Slot c) : t.Slot c := by
  have hs : s.queued c = (if obj.mTask.control = some c then [obj] else []) ++ t.queued c := by
    unfold queued
    rw [hqueue, htq, List.filter_cons]
    by_cases hc : obj.mTask.control = some c <;> simp [hc]
  have hnone : ∀ id, ¬ s.Started c id := fun id ⟨_, hw, _⟩ => by
    cases hworker.symm.trans hw
  by_cases hc : obj.mTask.control = some c
  · rw [if_pos hc, List.singleton_append] at hs
    cases hslot with
    | free hq _ => cases hs.symm.trans hq
    | started hq _ => cases hs.symm.trans hq
    | queued o hq hid _ =>
        rcases List.cons.inj (hs.symm.trans hq) with ⟨rfl, hnil⟩
        apply Slot.started hnil
        rw [htd]
        exact ⟨obj, htw, hc, hid.symm⟩
  · rw [if_neg hc, List.nil_append] at hs
    exact hslot.congr hs.symm (congrFun htd c) fun id hst => absurd hst (hnone id)

/-- What is known of the held control when the worker takes the front of the queue. -/
theorem held_take {obj : PlayerAsyncTaskObj IdleTask} {rest : List (PlayerAsyncTaskObj IdleTask)}
    {m : TaskSection} (hworker : s.worker = .idle) (hqueue : s.sched.mTaskQueue = obj :: rest)
    (htq : t.sched.mTaskQueue = rest) (htw : t.worker = .running obj false)
    (htd : t.details = s.details) (h : s.Held m) : t.Held m := by
  have hslot : ∀ {c}, s.Slot c → t.Slot c := slot_take hworker hqueue htq htw htd
  have hnone : ∀ c id, ¬ s.Started c id := fun c id ⟨_, hw, _⟩ => by
    cases hworker.symm.trans hw
  have hempty : ∀ {c}, s.queued c = [] → t.queued c = [] := by
    intro c hc
    unfold queued at hc ⊢
    rw [hqueue, List.filter_eq_nil_iff] at hc
    rw [htq]
    exact List.filter_eq_nil_iff.mpr fun o ho => hc o (List.mem_cons_of_mem _ ho)
  cases h with
  | free hs => exact .free fun c => hslot (hs c)
  | adding c hs => exact .adding c fun d => hslot (hs d)
  | refused c hs hq => exact .refused c (fun d hd => hslot (hs d hd)) (hempty hq)
  | taken c id hs hq hst => exact absurd hst (hnone c id)
  | scheduled c o hs hq =>
      unfold queued at hq
      rw [hqueue, List.filter_cons, ← htq] at hq
      by_cases hc : obj.mTask.control = some c
      · simp only [hc, decide_true, if_true] at hq
        rcases List.cons.inj hq with ⟨rfl, hnil⟩
        exact .taken c obj.mId (fun d hd => hslot (hs d hd)) hnil ⟨obj, htw, hc, rfl⟩
      · simp only [hc, decide_false, Bool.false_eq_true, if_false] at hq
        exact .scheduled c o (fun d hd => hslot (hs d hd)) hq
  | removing c hs => exact .removing c fun d => hslot (hs d)
  | removingOwn c id hs hst => exact absurd hst (hnone c id)
  | removed c hs hq => exact .removed c (fun d hd => hslot (hs d hd)) (hempty hq)
  | removedOwn c id hs hq hst => exact absurd hst (hnone c id)
  | clearing c id hs hst => exact absurd hst (hnone c id)

theorem inv_take (h : s.Inv) (hstep : s.take = some t) : t.Inv := by
  unfold take at hstep
  have hinv := h.queue.takeTask
  cases hworker : s.worker with
  | running obj cleared => simp [hworker] at hstep
  | idle =>
      cases hqueue : s.sched.mTaskQueue with
      | nil =>
          have hsame : t = s := by
            simp only [hworker, PlayerScheduler.takeTask, hqueue] at hstep
            cases hstep
            rw [← hworker]
          rw [hsame]
          exact h
      | cons obj rest =>
          have hvalid : obj.mId ≠ PLAYER_TASK_ID_INVALID := by
            apply h.queue.queued_valid
            rw [hqueue]
            exact List.mem_cons_self
          simp only [PlayerScheduler.takeTask, hqueue, if_pos hvalid] at hinv
          simp only [hworker, PlayerScheduler.takeTask, hqueue, if_pos hvalid] at hstep
          cases hstep
          constructor
          · exact hinv
          · intro o cleared hw
            cases hw
            exact ⟨rfl, hvalid⟩
          · exact held_take hworker hqueue rfl rfl rfl h.held
          · exact h.withdrawn

theorem inv_lockByTask (h : s.Inv) (hstep : s.lockByTask = some t) : t.Inv := by
  unfold lockByTask at hstep
  cases hm : s.mutex <;> simp only [hm] at hstep <;> try cases hstep
  cases hw : s.worker with
  | idle => simp [hw] at hstep
  | running obj cleared =>
      cases cleared with
      | true => simp [hw] at hstep
      | false =>
          simp only [hw] at hstep
          rcases Option.map_eq_some_iff.mp hstep with ⟨c, hc, rfl⟩
          have hheld := h.held
          rw [hm] at hheld
          cases hheld with
          | free hs =>
              have hst : s.Started c obj.mId := ⟨obj, hw, hc, rfl⟩
              have hheld' : s.Held (callbackSection c) := by
                cases c with
                | firstProgressCallbackIdleTask => exact .clearing _ _ hs hst
                | firstVideoFrameDisplayedCallbackTask => exact .removingOwn _ _ hs hst
              constructor
              · exact h.queue
              · intro o cleared ho
                cases ho
                exact h.current obj false hw
              · exact hheld'.congr (fun _ => rfl) rfl fun _ _ ⟨o, ho, hrest⟩ =>
                  ⟨o, hw.symm.trans ho, hrest⟩
              · exact h.withdrawn

theorem inv_finish (h : s.Inv) (hstep : s.finish = some t) : t.Inv := by
  unfold finish at hstep
  cases hw : s.worker with
  | idle => simp [hw] at hstep
  | running obj cleared =>
      simp only [hw] at hstep
      split at hstep
      case isFalse => cases hstep
      case isTrue hdone =>
          cases hstep
          -- the task has cleared its data, or has none
          have hnone : ∀ c id, ¬ s.Started c id := by
            intro c id ⟨o, ho, hc, _⟩
            cases hw.symm.trans ho
            simp [hc] at hdone
          constructor
          · exact h.queue
          · intro o cleared ho
            cases ho
          · exact h.held.congr (fun _ => rfl) rfl fun c id hs => absurd hs (hnone c id)
          · exact h.withdrawn

/-- A client gets the free mutex. -/
theorem inv_lock (h : s.Inv) (hfree : s.mutex = .free) {m : TaskSection}
    (hm : (∀ c, s.Slot c) → s.Held m) : Inv { s with mutex := m } := by
  have hheld := h.held
  rw [hfree] at hheld
  cases hheld with
  | free hs => exact ⟨h.queue, h.current, (hm hs).congr (fun _ => rfl) rfl fun _ _ hst => hst,
      h.withdrawn⟩

/-! ### The sections of the mutex -/

theorem setDetails_of_ne (hd : d ≠ c) (x : GstTaskControlData) :
    (s.setDetails c x).details d = s.details d := Function.update_of_ne hd _ _

/-- The data of a control with no queued task is cleared, by a client or by its own
running task. -/
theorem inv_clearDetails (h : s.Inv) {own : Bool} (hs : ∀ d, d ≠ c → s.Slot d)
    (hq : s.queued c = []) (hown : own = true → ∃ id, s.Started c id) :
    (s.clearDetails c own).Inv := by
  constructor
  · exact h.queue
  · intro obj cleared hw
    cases own with
    | false => exact h.current obj cleared hw
    | true =>
        rcases hown rfl with ⟨id, o, ho, _⟩
        simp only [clearDetails, if_true, ho, IdleWorker.clear, IdleWorker.running.injEq] at hw
        exact hw.1 ▸ h.current o false ho
  · apply Held.free
    intro d
    by_cases hd : d = c
    · subst hd
      apply Slot.free
      · exact hq
      · show (Function.update s.details d _ d).taskID = 0
        rw [Function.update_self]
    · apply Slot.congr (hs d hd)
      · rfl
      · exact setDetails_of_ne hd _
      · intro id hst
        cases own with
        | false => exact hst
        | true =>
            rcases hown rfl with ⟨_, hst'⟩
            exact absurd (hst.unique hst') hd
  · exact h.withdrawn

theorem inv_adding (h : s.Inv) (hm : s.mutex = .adding c) (hs : ∀ d, s.Slot d)
    (hstep : s.sectionStep = some t) : t.Inv := by
  simp only [sectionStep, hm] at hstep
  split at hstep
  case isFalse =>
      cases hstep
      exact ⟨h.queue, h.current, (Held.free hs).congr (fun _ => rfl) rfl fun _ _ hst => hst,
        h.withdrawn⟩
  case isTrue hid =>
      cases hstep
      have hqc := h.queued_nil (hs c) hid
      have hsched := ScheduleTask_schedules h.queue c.task
      generalize s.ScheduleTask c.task = r at hsched
      cases hsched with
      | refused =>
          constructor
          · exact h.queue
          · exact h.current
          · apply Held.refused c
            · intro d hd
              exact (hs d).congr rfl (setDetails_of_ne hd _) fun _ hst => hst
            · exact hqc
          · exact h.withdrawn
      | appended obj p' htask hq hcur hinv =>
          have hqueue : ∀ d, queued { s with sched := p' } d =
              s.queued d ++ if c = d then [obj] else [] := by
            intro d
            have happend : queued { s with sched := p' } d = s.queued d ++ _ := queued_append hq d
            rw [happend, htask, TaskControl.task_control]
            simp
          constructor
          · exact hinv
          · intro o cleared hw
            exact hcur ▸ h.current o cleared hw
          · apply Held.scheduled c obj
            · intro d hd
              have hsame := hqueue d
              rw [if_neg (Ne.symm hd), List.append_nil] at hsame
              exact (hs d).congr hsame (setDetails_of_ne hd _) fun _ hst => hst
            · have hone := hqueue c
              rwa [if_pos rfl, hqc] at hone
          · exact h.withdrawn

/-- The id is recorded; the task may be queued or taken by now. -/
theorem inv_scheduled (h : s.Inv) {id : Nat} (hm : s.mutex = .scheduled c id)
    (hstep : s.sectionStep = some t) : t.Inv := by
  simp only [sectionStep, hm] at hstep
  cases hstep
  have hothers : (∀ d, d ≠ c → s.Slot d) → ∀ d, d ≠ c → ∀ x,
      Slot { s.setDetails c x with mutex := .free } d :=
    fun hs d hd x => (hs d hd).congr rfl (setDetails_of_ne hd x) fun _ hst => hst
  have hrecord : ∀ x, (s.setDetails c x).details c = x := fun x => by
    simp [setDetails]
  have hheld := h.held
  rw [hm] at hheld
  constructor
  · exact h.queue
  · exact h.current
  · apply Held.free
    intro d
    by_cases hd : d = c
    · subst hd
      cases hheld with
      | refused _ hs hq =>
          apply Slot.free
          · exact hq
          · show ((s.setDetails d _).details d).taskID = 0
            rw [hrecord]
      | scheduled _ obj hs hq =>
          have hmem : obj ∈ s.queued d := by
            rw [hq]
            exact List.mem_singleton_self obj
          apply Slot.queued obj
          · exact hq
          · show ((s.setDetails d _).details d).taskID = _
            rw [hrecord]
          · show ((s.setDetails d _).details d).taskIsPending = true
            rw [hrecord]
            exact decide_eq_true (h.queued_ne_zero hmem)
      | taken _ _ hs hq hst =>
          apply Slot.started
          · exact hq
          · show Started s d ((s.setDetails d _).details d).taskID
            rw [hrecord]
            exact hst
    · cases hheld with
      | refused _ hs _ => exact hothers hs d hd _
      | scheduled _ _ hs _ => exact hothers hs d hd _
      | taken _ _ hs _ _ => exact hothers hs d hd _
  · exact h.withdrawn

/-- `IdleTaskRemove` of a client, when `RemoveTask` finds the queued task. -/
theorem inv_removing (h : s.Inv) (hm : s.mutex = .removing c false) (hs : ∀ d, s.Slot d)
    (hok : s.TargetsItsTask .holder) (hstep : s.sectionStep = some t) : t.Inv := by
  simp only [TargetsItsTask, hm] at hok
  simp only [sectionStep, hm] at hstep
  split at hstep
  case isFalse hid =>
      cases hstep
      have hqc := h.queued_nil (hs c) (not_not.mp hid)
      exact inv_clearDetails h (fun d _ => hs d) hqc nofun
  case isTrue hid =>
      cases hstep
      have hfalse : ∀ b : Bool, ∀ own ∈ (if b then s.withdrawn ++ [false] else s.withdrawn),
          own = false := by
        intro b own hown
        cases b with
        | false => exact h.withdrawn own hown
        | true =>
            rcases List.mem_append.mp hown with hold | hnew
            · exact h.withdrawn own hold
            · exact List.mem_singleton.mp hnew
      cases hs c with
      | free _ hzero => exact absurd hzero hid
      | started hq hst =>
          -- the task is running: there is nothing to take out
          have hcur := (h.started_ne_zero hst).2
          rw [← hcur, RemoveTask_current]
          exact ⟨h.queue, h.current, .removed c
            (fun d _ => (hs d).congr rfl rfl fun _ hst => hst) hq, h.withdrawn⟩
      | queued obj hq hobj _ =>
          have hmem : obj ∈ s.queued c := by
            rw [hq]
            exact List.mem_singleton_self obj
          rcases hok (by rw [hq]; exact List.cons_ne_nil obj []) with ⟨hcur, hother⟩
          rw [hobj] at hcur hother ⊢
          rcases RemoveTask_queued hq (h.queued_ne_zero hmem) hcur hother with ⟨hcur', hqueue⟩
          constructor
          · exact h.queue.removeTask _
          · intro o cleared hw
            exact hcur'.symm ▸ h.current o cleared hw
          · apply Held.removed c
            · intro d hd
              have hsame := hqueue d
              rw [if_neg hd] at hsame
              exact (hs d).congr hsame rfl fun _ hst => hst
            · have hnil := hqueue c
              rwa [if_pos rfl] at hnil
          · exact hfalse _

/-- `IdleTaskRemove` of the running task, when no later task is queued. -/
theorem inv_removingOwn (h : s.Inv) (hm : s.mutex = .removing c true) {id : Nat}
    (hs : ∀ d, s.Slot d) (hst : s.Started c id) (hok : s.TargetsItsTask .holder)
    (hstep : s.sectionStep = some t) : t.Inv := by
  simp only [TargetsItsTask, hm] at hok
  simp only [sectionStep, hm] at hstep
  split at hstep
  case isFalse hid =>
      cases hstep
      exact inv_clearDetails h (fun d _ => hs d) hok fun _ => ⟨id, hst⟩
  case isTrue hid =>
      cases hstep
      cases hs c with
      | free _ hzero => exact absurd hzero hid
      | queued obj hq _ _ => cases hok.symm.trans hq
      | started _ hst' =>
          have hcur := (h.started_ne_zero hst').2
          rw [← hcur, RemoveTask_current]
          exact ⟨h.queue, h.current, .removedOwn c id
            (fun d _ => (hs d).congr rfl rfl fun _ hst => hst) hok hst, h.withdrawn⟩

theorem inv_sectionStep (h : s.Inv) (hok : s.TargetsItsTask .holder)
    (hstep : s.sectionStep = some t) : t.Inv := by
  have hheld := h.held
  generalize hm : s.mutex = m at hheld
  cases hheld with
  | free _ => simp [sectionStep, hm] at hstep
  | adding c hs => exact inv_adding h hm hs hstep
  | refused c _ _ => exact inv_scheduled h hm hstep
  | scheduled c obj _ _ => exact inv_scheduled h hm hstep
  | taken c id _ _ _ => exact inv_scheduled h hm hstep
  | removing c hs => exact inv_removing h hm hs hok hstep
  | removingOwn c id hs hst => exact inv_removingOwn h hm hs hst hok hstep
  | removed c hs hq =>
      simp only [sectionStep, hm] at hstep
      cases hstep
      exact inv_clearDetails h hs hq nofun
  | removedOwn c id hs hq hst =>
      simp only [sectionStep, hm] at hstep
      cases hstep
      exact inv_clearDetails h hs hq fun _ => ⟨id, hst⟩
  | clearing c id hs hst =>
      simp only [TargetsItsTask, hm] at hok
      simp only [sectionStep, hm] at hstep
      cases hstep
      exact inv_clearDetails h (fun d _ => hs d) hok fun _ => ⟨id, hst⟩

theorem inv_step (h : s.Inv) {a : IdleAct} (hok : s.TargetsItsTask a)
    (hstep : idleStep s a = some t) : t.Inv := by
  cases a with
  | setRunning running =>
      cases hstep
      exact h.setFlags (h.queue.setRunning running) rfl rfl
  | setLockOut lockOut =>
      cases hstep
      exact h.setFlags (h.queue.setLockOut lockOut) rfl rfl
  | scheduleOther =>
      cases hstep
      exact inv_scheduleOther h
  | take => exact inv_take h hstep
  | lockByTask => exact inv_lockByTask h hstep
  | finish => exact inv_finish h hstep
  | IdleTaskAdd c =>
      simp only [idleStep] at hstep
      split at hstep
      case isFalse => cases hstep
      case isTrue hfree =>
          cases hstep
          exact inv_lock h hfree fun hs => .adding c hs
  | IdleTaskRemove c =>
      simp only [idleStep] at hstep
      split at hstep
      case isFalse => cases hstep
      case isTrue hfree =>
          cases hstep
          exact inv_lock h hfree fun hs => .removing c hs
  | holder => exact inv_sectionStep h hok hstep

theorem Inv.tasksAgree (h : s.Inv) : s.TasksAgree := by
  have hheld := h.held
  constructor
  · intro hm c
    rw [hm] at hheld
    cases hheld with
    | free hs => exact (hs c).agrees
  · intro c hm
    rw [hm] at hheld
    cases hheld with
    | adding _ hs => exact (hs c).agrees
  · exact h.withdrawn

end IdleState

open IdleState

/-- In a run in which no running task clears the data of a later task of its control
and `RemoveTask` finds the task it is asked for, the control data and the scheduler
agree whenever `TaskControlMutex` is free. -/
theorem tasksAgree_of_reaches {s : IdleState} (h : idleSystem.Reaches TargetsItsTask s) :
    s.TasksAgree := by
  have hinv : s.Inv := by
    apply h.invariant
    · rintro s rfl
      exact inv_init
    · exact fun s a t hs hok hstep => inv_step hs hok hstep
  exact hinv.tasksAgree

/-- The tasks a section meets, tested on the queue as a whole. -/
def meetsNoLaterTask (s : IdleState) : IdleAct → Bool
  | .holder =>
      match s.mutex with
      | .clearing c | .removing c true => (s.queued c).isEmpty
      | .removing c false => decide (s.sched.mCurrentTaskId ≠ (s.details c).taskID) &&
          s.sched.mTaskQueue.all fun obj => obj.mTask.control = some c
      | _ => true
  | _ => true

theorem targetsItsTask_of_meetsNoLaterTask (s : IdleState) (a : IdleAct)
    (h : meetsNoLaterTask s a = true) : s.TargetsItsTask a := by
  cases a with
  | holder =>
      simp only [meetsNoLaterTask] at h
      unfold TargetsItsTask
      cases hm : s.mutex with
      | clearing c => simpa [hm] using h
      | removing c own =>
          cases own with
          | true => simpa [hm] using h
          | false =>
              simp only [hm, Bool.and_eq_true, List.all_eq_true, decide_eq_true_eq] at h
              exact fun _ => ⟨h.1, fun obj hobj _ => h.2 obj hobj⟩
      | _ => trivial
  | _ => trivial

/-- A notification is added and delivered, the next one is added and withdrawn. -/
def deliverThenWithdraw : List IdleAct :=
  [.setRunning true, .IdleTaskAdd .firstProgressCallbackIdleTask, .holder, .holder, .take,
    .lockByTask, .holder, .finish, .IdleTaskAdd .firstProgressCallbackIdleTask, .holder, .holder,
    .IdleTaskRemove .firstProgressCallbackIdleTask, .holder, .holder]

theorem deliverThenWithdraw_agrees :
    ∃ s, idleSystem.run {} deliverThenWithdraw = some s ∧ s.TasksAgree := by
  have hrun : (idleSystem.run {} deliverThenWithdraw).isSome = true := by decide
  rcases Option.isSome_iff_exists.mp hrun with ⟨s, hs⟩
  have hstart : idleSystem.Reaches TargetsItsTask {} := .init rfl
  have hok : idleSystem.RunOk TargetsItsTask {} deliverThenWithdraw := by
    apply System.runOk_of_checkRun targetsItsTask_of_meetsNoLaterTask
    decide
  exact ⟨s, hs, tasksAgree_of_reaches (hstart.run hok hs)⟩

/-- A notification is withdrawn while it is being delivered and added once more; the
delivery then clears the record of the new one, which stays queued. -/
theorem delivery_clears_later_task :
    ¬ ∀ s, idleSystem.Reachable s → s.TasksAgree := by
  intro hall
  have hrun : (idleSystem.run {} [.setRunning true,
      .IdleTaskAdd .firstProgressCallbackIdleTask, .holder, .holder, .take,
      .IdleTaskRemove .firstProgressCallbackIdleTask, .holder, .holder,
      .IdleTaskAdd .firstProgressCallbackIdleTask, .holder, .holder, .lockByTask, .holder]).map
      (fun s => (s.mutex, s.details .firstProgressCallbackIdleTask,
        s.queued .firstProgressCallbackIdleTask)) =
      some (.free, { taskID := 0 }, [{ mTask := .IdleCallback, mId := 2, seq := 1 }]) := by
    decide
  rcases Option.map_eq_some_iff.mp hrun with ⟨s, hs, hat⟩
  rcases Prod.mk.inj hat with ⟨hfree, hrest⟩
  rcases Prod.mk.inj hrest with ⟨hdetails, hqueued⟩
  have hagrees := (hall s (System.reachable_of_run rfl hs)).free hfree
    .firstProgressCallbackIdleTask
  have hid := (hagrees.recorded _ (by rw [hqueued]; exact List.mem_singleton_self _)).1
  rw [hdetails] at hid
  cases hid

end PlayerInterface.Player
