import PlayerInterface.Core.Keyed

/-!
# The task queue of the scheduler

The sections of `PlayerScheduler` under `mQMutex`, over tasks of any kind. Three
fields are no members: they remember which tasks were accepted, removed and taken
for execution.
-/

namespace PlayerInterface.Scheduler

open PlayerInterface.Core

def PLAYER_SCHEDULER_ID_MAX_VALUE : Nat := 2147483647
def PLAYER_SCHEDULER_ID_DEFAULT : Nat := 1
def PLAYER_TASK_ID_INVALID : Nat := 0

/-- `seq` is no member: the number of tasks accepted before this one. -/
structure PlayerAsyncTaskObj (τ : Type) where
  mTask : τ
  mId : Nat
  seq : Nat
deriving DecidableEq, Repr

structure PlayerScheduler (τ : Type) where
  mTaskQueue : List (PlayerAsyncTaskObj τ) := []
  mSchedulerRunning : Bool := false
  mNextTaskId : Nat := PLAYER_SCHEDULER_ID_DEFAULT
  mCurrentTaskId : Nat := PLAYER_TASK_ID_INVALID
  mLockOut : Bool := false
  accepted : List (PlayerAsyncTaskObj τ) := []
  removed : List Nat := []
  started : List (PlayerAsyncTaskObj τ) := []
deriving Repr

variable {τ : Type}

namespace PlayerScheduler

/-- The id after this one; the counter wraps before it reaches the maximum. -/
def nextId (id : Nat) : Nat :=
  if PLAYER_SCHEDULER_ID_MAX_VALUE ≤ id + 1 then PLAYER_SCHEDULER_ID_DEFAULT else id + 1

def ScheduleTask (p : PlayerScheduler τ) (task : τ) : Nat × PlayerScheduler τ :=
  if !p.mLockOut then
    let obj : PlayerAsyncTaskObj τ :=
      { mTask := task, mId := p.mNextTaskId, seq := p.accepted.length }
    (p.mNextTaskId,
      { p with
        mTaskQueue := p.mTaskQueue ++ [obj]
        mNextTaskId := nextId p.mNextTaskId
        accepted := p.accepted ++ [obj] })
  else (PLAYER_TASK_ID_INVALID, p)

def RemoveTask (p : PlayerScheduler τ) (id : Nat) : Bool × PlayerScheduler τ :=
  if id ≠ PLAYER_TASK_ID_INVALID ∧ p.mCurrentTaskId ≠ id then
    match p.mTaskQueue.find? fun obj => obj.mId == id with
    | some obj =>
        (true,
          { p with
            mTaskQueue := p.mTaskQueue.eraseP fun obj => obj.mId == id
            removed := p.removed ++ [obj.seq] })
    | none => (false, p)
  else (false, p)

def RemoveAllTasks (p : PlayerScheduler τ) : PlayerScheduler τ :=
  { p with
    mTaskQueue := []
    removed := p.removed ++ p.mTaskQueue.map PlayerAsyncTaskObj.seq }

/-- The worker takes the front of the queue; a task with an invalid id is skipped. -/
def takeTask (p : PlayerScheduler τ) : Option (PlayerAsyncTaskObj τ) × PlayerScheduler τ :=
  match p.mTaskQueue with
  | [] => (none, p)
  | obj :: rest =>
      if obj.mId ≠ PLAYER_TASK_ID_INVALID then
        (some obj,
          { p with
            mTaskQueue := rest, mCurrentTaskId := obj.mId, started := p.started ++ [obj] })
      else (none, { p with mTaskQueue := rest })

def setLockOut (p : PlayerScheduler τ) (lockOut : Bool) : PlayerScheduler τ :=
  { p with mLockOut := lockOut }

def setRunning (p : PlayerScheduler τ) (running : Bool) : PlayerScheduler τ :=
  { p with mSchedulerRunning := running }

/-- The id `ScheduleTask` returns is valid exactly when the task is accepted. -/
theorem ScheduleTask_valid (p : PlayerScheduler τ) (task : τ) (hnext : 0 < p.mNextTaskId) :
    (p.ScheduleTask task).1 ≠ PLAYER_TASK_ID_INVALID ↔
      (p.ScheduleTask task).2.accepted ≠ p.accepted := by
  unfold ScheduleTask PLAYER_TASK_ID_INVALID
  split
  · have hgrows : ∀ obj, p.accepted ++ [obj] ≠ p.accepted :=
      fun obj heq => List.cons_ne_nil obj [] (List.append_right_eq_self.mp heq)
    exact ⟨fun _ => hgrows _, fun _ => Nat.ne_of_gt hnext⟩
  · exact ⟨fun h => absurd rfl h, fun h => absurd rfl h⟩

end PlayerScheduler

theorem ScheduleTask_lockedOut {p : PlayerScheduler τ} (h : p.mLockOut = true) (task : τ) :
    (p.ScheduleTask task).2 = p := by
  rw [PlayerScheduler.ScheduleTask, h]
  rfl

theorem ScheduleTask_accepted {p : PlayerScheduler τ} (h : p.mLockOut = false) (task : τ) :
    (p.ScheduleTask task).2 =
      { p with
        mTaskQueue := p.mTaskQueue ++ [⟨task, p.mNextTaskId, p.accepted.length⟩]
        mNextTaskId := PlayerScheduler.nextId p.mNextTaskId
        accepted := p.accepted ++ [⟨task, p.mNextTaskId, p.accepted.length⟩] } := by
  rw [PlayerScheduler.ScheduleTask, h]
  rfl

theorem takeTask_empty {p : PlayerScheduler τ} (h : p.mTaskQueue = []) : p.takeTask = (none, p) := by
  rw [PlayerScheduler.takeTask, h]

/-- What `RemoveTask` does: nothing when the id is invalid, that of the current task or that
of no queued task, or it takes out the first task queued under the id. -/
inductive Removes (p : PlayerScheduler τ) (id : Nat) : Bool × PlayerScheduler τ → Prop where
  | nothing : (id ≠ PLAYER_TASK_ID_INVALID → p.mCurrentTaskId ≠ id →
      ∀ obj ∈ p.mTaskQueue, obj.mId ≠ id) → Removes p id (false, p)
  | taken (before : List (PlayerAsyncTaskObj τ)) (obj : PlayerAsyncTaskObj τ)
      (after : List (PlayerAsyncTaskObj τ)) : p.mTaskQueue = before ++ obj :: after →
      obj.mId = id → Removes p id
        (true, { p with mTaskQueue := before ++ after, removed := p.removed ++ [obj.seq] })

theorem RemoveTask_removes (p : PlayerScheduler τ) (id : Nat) :
    Removes p id (p.RemoveTask id) := by
  unfold PlayerScheduler.RemoveTask
  split
  case isFalse hrefused => exact .nothing fun hid hcur => absurd ⟨hid, hcur⟩ hrefused
  case isTrue =>
      cases hfind : p.mTaskQueue.find? fun obj => obj.mId == id with
      | none =>
          refine .nothing fun _ _ obj hobj heq => ?_
          have hno := List.find?_eq_none.mp hfind obj hobj
          exact hno (beq_iff_eq.mpr heq)
      | some obj =>
          rcases List.find?_eq_some_iff_append.mp hfind with ⟨hid, before, after, hqueue, hother⟩
          have herase : (p.mTaskQueue.eraseP fun obj => obj.mId == id) = before ++ after := by
            rw [hqueue, List.eraseP_append_right _ (fun b hb => by simpa using hother b hb),
              List.eraseP_cons_of_pos (p := fun o : PlayerAsyncTaskObj τ => o.mId == id) hid]
          dsimp only
          rw [herase]
          exact .taken before obj after hqueue (beq_iff_eq.mp hid)

theorem RemoveTask_rest (p : PlayerScheduler τ) (id : Nat) :
    (p.RemoveTask id).2.mNextTaskId = p.mNextTaskId ∧
      (p.RemoveTask id).2.mCurrentTaskId = p.mCurrentTaskId ∧
      (p.RemoveTask id).2.accepted = p.accepted ∧ (p.RemoveTask id).2.started = p.started := by
  have hremoves := RemoveTask_removes p id
  generalize p.RemoveTask id = r at hremoves
  cases hremoves with
  | nothing => exact ⟨rfl, rfl, rfl, rfl⟩
  | taken => exact ⟨rfl, rfl, rfl, rfl⟩

/-! ## Order -/

/-- Tasks are started in the order they were accepted in, each once and none of
them removed, and those still queued come next. -/
structure StartsInOrder (p : PlayerScheduler τ) : Prop where
  numbered : p.accepted.map PlayerAsyncTaskObj.seq = List.range p.accepted.length
  split : p.started ++ p.mTaskQueue = without PlayerAsyncTaskObj.seq p.removed p.accepted
  inOrder : (p.started.map PlayerAsyncTaskObj.seq).Pairwise (· < ·)
  notRemoved : ∀ obj ∈ p.started, obj.seq ∉ p.removed

structure QueueInv (p : PlayerScheduler τ) : Prop where
  numbered : p.accepted.map PlayerAsyncTaskObj.seq = List.range p.accepted.length
  split : p.started ++ p.mTaskQueue = without PlayerAsyncTaskObj.seq p.removed p.accepted
  removed : ∀ n ∈ p.removed, n < p.accepted.length
  nextId : 0 < p.mNextTaskId
  validIds : ∀ obj ∈ p.accepted, obj.mId ≠ PLAYER_TASK_ID_INVALID

namespace QueueInv

/-- The started and the queued tasks, numbered in the order of acceptance. -/
theorem ordered {p : PlayerScheduler τ} (h : QueueInv p) :
    ((p.started ++ p.mTaskQueue).map PlayerAsyncTaskObj.seq).Pairwise (· < ·) := by
  rw [h.split]
  have hsub : ((without PlayerAsyncTaskObj.seq p.removed p.accepted).map
      PlayerAsyncTaskObj.seq).Sublist (p.accepted.map PlayerAsyncTaskObj.seq) :=
    List.Sublist.map _ List.filter_sublist
  rw [h.numbered] at hsub
  exact List.Pairwise.sublist hsub List.pairwise_lt_range

theorem startsInOrder {p : PlayerScheduler τ} (h : QueueInv p) : StartsInOrder p where
  numbered := h.numbered
  split := h.split
  inOrder := by
    have hord := h.ordered
    rw [List.map_append] at hord
    exact (List.pairwise_append.mp hord).1
  notRemoved obj hobj := by
    have hmem : obj ∈ p.started ++ p.mTaskQueue := List.mem_append_left _ hobj
    rw [h.split] at hmem
    exact (mem_without.mp hmem).2

theorem queued_accepted {p : PlayerScheduler τ} (h : QueueInv p) {obj : PlayerAsyncTaskObj τ}
    (hobj : obj ∈ p.mTaskQueue) : obj ∈ p.accepted := by
  have hmem : obj ∈ p.started ++ p.mTaskQueue := List.mem_append_right _ hobj
  rw [h.split] at hmem
  exact (mem_without.mp hmem).1

theorem accepted_before {p : PlayerScheduler τ} (h : QueueInv p) {obj : PlayerAsyncTaskObj τ}
    (hobj : obj ∈ p.accepted) : obj.seq < p.accepted.length := by
  have hseq := List.mem_map_of_mem (f := PlayerAsyncTaskObj.seq) hobj
  rw [h.numbered] at hseq
  exact List.mem_range.mp hseq

theorem queued_valid {p : PlayerScheduler τ} (h : QueueInv p) {obj : PlayerAsyncTaskObj τ}
    (hobj : obj ∈ p.mTaskQueue) : obj.mId ≠ PLAYER_TASK_ID_INVALID :=
  h.validIds obj (h.queued_accepted hobj)

/-- The queue without one of its segments. -/
theorem remove {p : PlayerScheduler τ} (h : QueueInv p)
    {before segment after : List (PlayerAsyncTaskObj τ)}
    (hqueue : p.mTaskQueue = before ++ (segment ++ after)) :
    QueueInv { p with
      mTaskQueue := before ++ after
      removed := p.removed ++ segment.map PlayerAsyncTaskObj.seq } where
  numbered := h.numbered
  split := by
    have hnodup : ((p.started ++ p.mTaskQueue).map PlayerAsyncTaskObj.seq).Nodup :=
      h.ordered.imp fun hlt => Nat.ne_of_lt hlt
    show p.started ++ (before ++ after) = without _ (p.removed ++ _) p.accepted
    have hassoc : p.started ++ (before ++ (segment ++ after)) =
        (p.started ++ before) ++ (segment ++ after) := (List.append_assoc _ _ _).symm
    rw [hqueue, hassoc] at hnodup
    rw [without_append_gone, ← h.split, hqueue, hassoc, without_segment hnodup, List.append_assoc]
  removed n hn := by
    rcases List.mem_append.mp hn with hold | hnew
    · exact h.removed n hold
    · rcases List.mem_map.mp hnew with ⟨obj, hobj, rfl⟩
      have hmem : obj ∈ p.mTaskQueue := by
        rw [hqueue]
        exact List.mem_append_right _ (List.mem_append_left _ hobj)
      exact h.accepted_before (h.queued_accepted hmem)
  nextId := h.nextId
  validIds := h.validIds

theorem scheduleTask {p : PlayerScheduler τ} (h : QueueInv p) (task : τ) :
    QueueInv (p.ScheduleTask task).2 := by
  unfold PlayerScheduler.ScheduleTask
  split
  · refine ⟨?_, ?_, ?_, ?_, ?_⟩
    · show (p.accepted ++ [_]).map _ = List.range (p.accepted ++ [_]).length
      rw [List.map_append, h.numbered, List.length_append, List.length_singleton,
        List.range_succ]
      rfl
    · show p.started ++ (p.mTaskQueue ++ [_]) = without _ p.removed (p.accepted ++ [_])
      rw [without_append, ← h.split, List.append_assoc]
      have hfresh : p.accepted.length ∉ p.removed :=
        fun hmem => absurd (h.removed _ hmem) (Nat.lt_irrefl _)
      have hkeep : ∀ obj : PlayerAsyncTaskObj τ, obj.seq = p.accepted.length →
          without PlayerAsyncTaskObj.seq p.removed [obj] = [obj] := by
        intro obj hobj
        apply without_eq_self
        intro x hx
        rw [List.mem_singleton.mp hx, hobj]
        exact hfresh
      rw [hkeep _ rfl]
    · intro n hn
      have hlt := h.removed n hn
      show n < (p.accepted ++ [_]).length
      rw [List.length_append]
      exact Nat.lt_add_right 1 hlt
    · show 0 < PlayerScheduler.nextId p.mNextTaskId
      unfold PlayerScheduler.nextId PLAYER_SCHEDULER_ID_DEFAULT
      split <;> omega
    · intro obj hobj
      rcases List.mem_append.mp hobj with hold | hnew
      · exact h.validIds obj hold
      · rw [List.mem_singleton.mp hnew]
        exact Nat.ne_of_gt h.nextId
  · exact h

theorem removeTask {p : PlayerScheduler τ} (h : QueueInv p) (id : Nat) :
    QueueInv (p.RemoveTask id).2 := by
  have hremoves := RemoveTask_removes p id
  generalize p.RemoveTask id = r at hremoves
  cases hremoves with
  | nothing => exact h
  | taken before obj after hqueue =>
      have hsegment : p.mTaskQueue = before ++ ([obj] ++ after) := hqueue
      exact h.remove hsegment

theorem removeAllTasks {p : PlayerScheduler τ} (h : QueueInv p) : QueueInv p.RemoveAllTasks := by
  have hqueue : p.mTaskQueue = [] ++ (p.mTaskQueue ++ []) := by simp
  exact h.remove hqueue

/-- The worker takes the task at the front, whose id is valid. -/
theorem takeTask_cons {p : PlayerScheduler τ} (h : QueueInv p) {obj : PlayerAsyncTaskObj τ}
    {rest : List (PlayerAsyncTaskObj τ)} (hqueue : p.mTaskQueue = obj :: rest) :
    p.takeTask.2 =
      { p with mTaskQueue := rest, mCurrentTaskId := obj.mId, started := p.started ++ [obj] } := by
  have hvalid : obj.mId ≠ PLAYER_TASK_ID_INVALID := by
    apply h.queued_valid
    rw [hqueue]
    exact List.mem_cons_self
  unfold PlayerScheduler.takeTask
  rw [hqueue]
  dsimp only
  rw [if_pos hvalid]

theorem takeTask {p : PlayerScheduler τ} (h : QueueInv p) : QueueInv p.takeTask.2 := by
  cases hqueue : p.mTaskQueue with
  | nil =>
      rw [takeTask_empty hqueue]
      exact h
  | cons obj rest =>
      rw [h.takeTask_cons hqueue]
      refine ⟨h.numbered, ?_, h.removed, h.nextId, h.validIds⟩
      show (p.started ++ [obj]) ++ rest = _
      rw [List.append_assoc, List.singleton_append, ← hqueue]
      exact h.split

theorem setLockOut {p : PlayerScheduler τ} (h : QueueInv p) (lockOut : Bool) :
    QueueInv (p.setLockOut lockOut) :=
  ⟨h.numbered, h.split, h.removed, h.nextId, h.validIds⟩

theorem setRunning {p : PlayerScheduler τ} (h : QueueInv p) (running : Bool) :
    QueueInv (p.setRunning running) :=
  ⟨h.numbered, h.split, h.removed, h.nextId, h.validIds⟩

end QueueInv

theorem queueInv_init : QueueInv ({} : PlayerScheduler τ) where
  numbered := rfl
  split := rfl
  removed _ hno := by cases hno
  nextId := Nat.one_pos
  validIds _ hno := by cases hno

/-! ## What the sections do to the queue -/

/-- `ScheduleTask` either refuses or appends one task with the id it returns. -/
inductive Schedules (p : PlayerScheduler τ) (task : τ) : Nat × PlayerScheduler τ → Prop where
  | refused : Schedules p task (0, p)
  | appended (obj : PlayerAsyncTaskObj τ) (p' : PlayerScheduler τ) :
      obj.mTask = task → p'.mTaskQueue = p.mTaskQueue ++ [obj] →
      p'.mCurrentTaskId = p.mCurrentTaskId → QueueInv p' → Schedules p task (obj.mId, p')

theorem QueueInv.scheduleTask_schedules {p : PlayerScheduler τ} (h : QueueInv p) (task : τ) :
    Schedules p task (p.ScheduleTask task) := by
  have hinv := h.scheduleTask task
  unfold PlayerScheduler.ScheduleTask at hinv ⊢
  split
  case isFalse => exact .refused
  case isTrue hout =>
      rw [if_pos hout] at hinv
      exact .appended ⟨task, p.mNextTaskId, p.accepted.length⟩ _ rfl rfl rfl hinv

theorem RemoveTask_sublist (p : PlayerScheduler τ) (id : Nat) :
    (p.RemoveTask id).2.mTaskQueue.Sublist p.mTaskQueue := by
  have hremoves := RemoveTask_removes p id
  generalize p.RemoveTask id = r at hremoves
  cases hremoves with
  | nothing => exact List.Sublist.refl _
  | taken before obj after hqueue =>
      rw [hqueue]
      exact List.Sublist.append_left (List.sublist_cons_self obj after) before

/-- A part of the queue without tasks of that id is left alone. -/
theorem RemoveTask_filter (p : PlayerScheduler τ) (id : Nat) (keep : PlayerAsyncTaskObj τ → Bool)
    (h : ∀ obj ∈ p.mTaskQueue, obj.mId = id → keep obj = false) :
    (p.RemoveTask id).2.mTaskQueue.filter keep = p.mTaskQueue.filter keep := by
  have hremoves := RemoveTask_removes p id
  generalize p.RemoveTask id = r at hremoves
  cases hremoves with
  | nothing => rfl
  | taken before obj after hqueue hid =>
      have hgone : keep obj = false := by
        apply h obj _ hid
        rw [hqueue]
        exact List.mem_append_right _ List.mem_cons_self
      rw [hqueue]
      simp [hgone]

end PlayerInterface.Scheduler
