import PlayerInterface.Player.CallbackTasks

/-!
# When the ids and the flags of the callbacks are those of queued tasks

A flag that is set, or an id that is stored, belongs to a queued task or is about to
be cleared: by the running callback, by `Flush` or `Stop`, or by `NotifyEOS`, which
sets its flag before it knows whether the task is accepted. What may break this are
the stores behind `ScheduleTask`, when the task has run by then, and the clearing
writes, when a later task is recorded by then.
-/

namespace PlayerInterface.Player

open PlayerInterface.Core PlayerInterface.Scheduler

/-- The thread is past the point where it decides to clear the id. -/
def CallPoint.clearsId : CallPoint → CallbackTask → Bool
  | .readId _ c, d => decide (c = d)
  | .removeTask _ c _, d => decide (c = d)
  | .clearFirst _ c, d => decide (c = d)
  | .clearSecond .Stop c, d => decide (c = d)
  | _, _ => false

/-- The thread clears the flag, or it still looks whether its task was refused. -/
def CallPoint.clearsPending : CallPoint → CallbackTask → Bool
  | .readId _ c, d => decide (c = d)
  | .removeTask _ c _, d => decide (c = d)
  | .clearFirst _ c, d => decide (c = d)
  | .clearSecond .Flush c, d => decide (c = d)
  | .setEosSignalled, .eosCallback => true
  | .scheduleTask .eosCallback, .eosCallback => true
  | .storeId .eosCallback _, .eosCallback => true
  | .testStored .eosCallback, .eosCallback => true
  | .testEosRefused, .eosCallback => true
  | .clearEosPending, .eosCallback => true
  | .setNotified, .firstFrameCallback => true
  | .clearFramePending, .firstFrameCallback => true
  | _, _ => false

/-- A thread at this point owes the callbacks nothing. -/
inductive CallPoint.Silent : CallPoint → Prop where
  | idle : Silent .idle
  | testEosSignalled : Silent .testEosSignalled
  | testEosPending : Silent .testEosPending
  | setEosPending : Silent .setEosPending
  | testNotified : Silent .testNotified
  | testStored : Silent (.testStored .firstFrameCallback)
  | setFramePending : Silent .setFramePending
  | testRemove (r : Remover) (c : CallbackTask) : Silent (.testRemove r c)

namespace CallPoint.Silent

variable {x : CallPoint}

theorem store (h : x.Silent) (c : CallbackTask) (id : Nat) : x ≠ .storeId c id := by
  intro heq
  subst heq
  cases h

theorem id (h : x.Silent) (c : CallbackTask) : x.clearsId c = false := by
  cases h <;> rfl

theorem pending (h : x.Silent) (c : CallbackTask) : x.clearsPending c = false := by
  cases h <;> cases c <;> rfl

end CallPoint.Silent

namespace CallbackWorker

def clearsId : CallbackWorker → CallbackTask → Prop
  | running obj point, c => obj.mTask.task = some c ∧ (point = .triggerEvent ∨ point = .clearId)
  | idle, _ => False

def clearsPending : CallbackWorker → CallbackTask → Prop
  | running obj point, c => obj.mTask.task = some c ∧ point ≠ .returned
  | idle, _ => False

end CallbackWorker

theorem CallbackTask.function_task (c : CallbackTask) : c.function.task = some c := by
  cases c <;> rfl

namespace CallbackState

section Record

variable {ρ : Type}

/-- The queued tasks of a callback. -/
def queued (s : CallbackState ρ) (c : CallbackTask) :
    List (PlayerAsyncTaskObj CallbackFunction) :=
  s.sched.mTaskQueue.filter fun obj => obj.mTask.task = some c

/-- The last clause is what `NotifyEOS`, `Flush` and `Stop` rely on: the flag stands for a
queued task, the one they remove. -/
structure TaskRecorded (s : CallbackState ρ) (c : CallbackTask) : Prop where
  unqueued : s.queued c = [] →
    (s.data c).IdleTaskPending = false ∧ (s.data c).IdleTaskId = PLAYER_TASK_ID_INVALID
  queued : ∀ obj ∈ s.queued c, obj.mId = (s.data c).IdleTaskId
  theirs : (s.data c).IdleTaskPending = true →
    ∃ obj ∈ s.queued c, obj.mId = (s.data c).IdleTaskId

/-- No call and no callback is in progress. -/
structure Quiescent (s : CallbackState ρ) : Prop where
  worker : s.worker = .idle
  calls : ∀ p, s.calls p = .idle

def IdAlive (s : CallbackState ρ) (c : CallbackTask) (id : Nat) : Prop :=
  (∃ obj ∈ s.queued c, obj.mId = id) ∨ s.worker.clearsId c ∨
    ∃ p, (s.calls p).clearsId c = true

def PendingAlive (s : CallbackState ρ) (c : CallbackTask) : Prop :=
  s.queued c ≠ [] ∨ s.worker.clearsPending c ∨ ∃ p, (s.calls p).clearsPending c = true

/-- The write does not replace the id of a queued task. -/
def KeepsId (s : CallbackState ρ) (c : CallbackTask) (id : Nat) : Prop :=
  ∀ obj ∈ s.queued c, (s.data c).IdleTaskId = obj.mId → id = obj.mId

structure TaskInv (s : CallbackState ρ) (c : CallbackTask) : Prop where
  once : (s.queued c).length ≤ 1
  stored : ∀ obj ∈ s.queued c,
    (s.data c).IdleTaskId = obj.mId ∨ ∃ p, s.calls p = .storeId c obj.mId
  id : (s.data c).IdleTaskId ≠ 0 → s.IdAlive c (s.data c).IdleTaskId
  pending : (s.data c).IdleTaskPending = true → s.PendingAlive c

structure Inv (s : CallbackState ρ) : Prop where
  queue : QueueInv s.sched
  task : ∀ c, s.TaskInv c

variable {s : CallbackState ρ} {c d : CallbackTask}

theorem setId_self (id : Nat) :
    (s.setId c id).data c = { s.data c with IdleTaskId := id } :=
  Function.update_self _ _ _

theorem setId_of_ne (id : Nat) (hd : d ≠ c) : (s.setId c id).data d = s.data d :=
  Function.update_of_ne hd _ _

theorem setPending_self (b : Bool) :
    (s.setPending c b).data c = { s.data c with IdleTaskPending := b } :=
  Function.update_self _ _ _

theorem setPending_of_ne (b : Bool) (hd : d ≠ c) : (s.setPending c b).data d = s.data d :=
  Function.update_of_ne hd _ _

theorem Inv.taskRecorded (h : s.Inv) (hq : s.Quiescent) (c : CallbackTask) :
    s.TaskRecorded c := by
  have hid : (s.data c).IdleTaskId ≠ 0 → ∃ obj ∈ s.queued c, obj.mId = (s.data c).IdleTaskId := by
    intro hne
    rcases (h.task c).id hne with hobj | hworker | ⟨p, hp⟩
    · exact hobj
    · rw [hq.worker] at hworker
      exact hworker.elim
    · rw [hq.calls p] at hp
      cases hp
  have hpending : (s.data c).IdleTaskPending = true → s.queued c ≠ [] := by
    intro hset
    rcases (h.task c).pending hset with hne | hworker | ⟨p, hp⟩
    · exact hne
    · rw [hq.worker] at hworker
      exact hworker.elim
    · rw [hq.calls p] at hp
      cases hp
  have hqueued : ∀ obj ∈ s.queued c, obj.mId = (s.data c).IdleTaskId := by
    intro obj hobj
    rcases (h.task c).stored obj hobj with heq | ⟨p, hp⟩
    · exact heq.symm
    · rw [hq.calls p] at hp
      cases hp
  constructor
  · intro hnil
    constructor
    · exact Bool.eq_false_iff.mpr fun hset => hpending hset hnil
    · by_contra hne
      rcases hid hne with ⟨obj, hobj, _⟩
      rw [hnil] at hobj
      cases hobj
  · exact hqueued
  · intro hset
    rcases List.exists_mem_of_ne_nil _ (hpending hset) with ⟨obj, hobj⟩
    exact ⟨obj, hobj, hqueued obj hobj⟩

/-! ### Scheduling -/

theorem ScheduleTask_schedules (h : QueueInv s.sched) (f : CallbackFunction) :
    Schedules s.sched f (s.ScheduleTask f) := by
  unfold ScheduleTask
  split
  case isFalse => exact .refused
  case isTrue => exact h.scheduleTask_schedules f

theorem queued_append {t : CallbackState ρ} {obj : PlayerAsyncTaskObj CallbackFunction}
    (hq : t.sched.mTaskQueue = s.sched.mTaskQueue ++ [obj]) (d : CallbackTask) :
    t.queued d = s.queued d ++ if obj.mTask.task = some d then [obj] else [] := by
  unfold queued
  rw [hq, List.filter_append]
  by_cases hd : obj.mTask.task = some d <;> simp [hd]

/-- A refused task changes nothing. -/
theorem ScheduleTask_refused (s : CallbackState ρ) (f : CallbackFunction)
    (h : ¬ (s.sched.mSchedulerRunning = true ∧ s.sched.mLockOut = false)) :
    s.ScheduleTask f = (0, s.sched) := by
  unfold ScheduleTask
  split
  case isFalse => rfl
  case isTrue hrunning =>
      unfold PlayerScheduler.ScheduleTask
      rw [if_neg]
      · rfl
      · intro hout
        exact h ⟨hrunning, by simpa using hout⟩

end Record

section Steps

variable {ρ : Type} [DecidableEq ρ] {s t : CallbackState ρ} {c d : CallbackTask} {p : ρ}
  {point : CallPoint}

/-- What the writes and the calls of the scheduler must meet: the task scheduled is the
only one of its callback, a write keeps the id of a queued task, an id or a flag is set
for a task that will clear it, and `RemoveTask` finds no task of another callback. -/
def KeepsRecord (s : CallbackState ρ) : CallbackAct ρ → Prop
  | .advance p =>
      match s.calls p with
      | .scheduleTask c =>
          s.sched.mSchedulerRunning = true → s.sched.mLockOut = false → s.queued c = []
      | .storeId c id => s.KeepsId c id ∧ (id ≠ PLAYER_TASK_ID_INVALID → s.IdAlive c id)
      | .testStored .eosCallback =>
          (s.data .eosCallback).IdleTaskId ≠ PLAYER_TASK_ID_INVALID →
            (s.data .eosCallback).IdleTaskPending = true →
              (s.goto p .idle).PendingAlive .eosCallback
      | .setFramePending => s.PendingAlive .firstFrameCallback
      | .removeTask _ c id =>
          ∀ obj ∈ s.sched.mTaskQueue, obj.mId = id → obj.mTask.task = some c
      | .clearFirst .Flush c | .clearSecond .Stop c => s.KeepsId c PLAYER_TASK_ID_INVALID
      | _ => True
  | .callback =>
      match s.worker with
      | .running obj .clearId =>
          ∀ c, obj.mTask.task = some c → s.KeepsId c PLAYER_TASK_ID_INVALID
      | _ => True
  | _ => True

/-! ### Steps of the threads -/

/-- The thread moves on; the queued tasks of the callback and the worker stay. -/
structure Goes (s t : CallbackState ρ) (p : ρ) (point : CallPoint) (c : CallbackTask) :
    Prop where
  queued : t.queued c = s.queued c
  worker : t.worker = s.worker
  calls : t.calls = Function.update s.calls p point

theorem Goes.exists_point (h : Goes s t p point c) {P : CallPoint → Prop}
    (hex : ∃ q, P (s.calls q)) (hp : P (s.calls p) → P point) : ∃ q, P (t.calls q) := by
  rcases hex with ⟨q, hq⟩
  by_cases hqp : q = p
  · subst hqp
    refine ⟨q, ?_⟩
    rw [h.calls, Function.update_self]
    exact hp hq
  · refine ⟨q, ?_⟩
    rw [h.calls, Function.update_of_ne hqp]
    exact hq

theorem Goes.idAlive (h : Goes s t p point c) {id : Nat} (hid : s.IdAlive c id)
    (hp : (s.calls p).clearsId c = true → point.clearsId c = true) : t.IdAlive c id := by
  rcases hid with ⟨obj, hobj, heq⟩ | hworker | hcalls
  · exact .inl ⟨obj, h.queued ▸ hobj, heq⟩
  · exact .inr (.inl (h.worker ▸ hworker))
  · exact .inr (.inr (h.exists_point (P := fun x => x.clearsId c = true) hcalls hp))

theorem Goes.pendingAlive (h : Goes s t p point c) (hpending : s.PendingAlive c)
    (hp : (s.calls p).clearsPending c = true → point.clearsPending c = true) :
    t.PendingAlive c := by
  rcases hpending with hne | hworker | hcalls
  · exact .inl (h.queued ▸ hne)
  · exact .inr (.inl (h.worker ▸ hworker))
  · exact .inr (.inr (h.exists_point (P := fun x => x.clearsPending c = true) hcalls hp))

/-- What a thread that moves on owes the callback, for the id it leaves and the flag it
leaves. -/
theorem TaskInv.goes (h : s.TaskInv c) (hgo : Goes s t p point c)
    (hstored : ∀ obj ∈ s.queued c,
      (s.data c).IdleTaskId = obj.mId ∨ s.calls p = .storeId c obj.mId →
        (t.data c).IdleTaskId = obj.mId)
    (hid : (t.data c).IdleTaskId ≠ 0 → t.IdAlive c (t.data c).IdleTaskId)
    (hpending : (t.data c).IdleTaskPending = true → t.PendingAlive c) : t.TaskInv c := by
  constructor
  · rw [hgo.queued]
    exact h.once
  · intro obj hobj
    rw [hgo.queued] at hobj
    rcases h.stored obj hobj with heq | ⟨q, hq⟩
    · exact .inl (hstored obj hobj (.inl heq))
    · by_cases hqp : q = p
      · subst hqp
        exact .inl (hstored obj hobj (.inr hq))
      · refine .inr ⟨q, ?_⟩
        rw [hgo.calls, Function.update_of_ne hqp]
        exact hq
  · exact hid
  · exact hpending

/-- The thread leaves the data of the callback as it is. -/
theorem TaskInv.goes_same (h : s.TaskInv c) (hgo : Goes s t p point c)
    (hdata : t.data c = s.data c) (hstore : ∀ id, s.calls p ≠ .storeId c id)
    (hid : (s.calls p).clearsId c = true → point.clearsId c = true)
    (hpending : (s.data c).IdleTaskPending = true → (s.calls p).clearsPending c = true →
      point.clearsPending c = true) : t.TaskInv c := by
  apply h.goes hgo
  · intro obj _ hobj
    rw [hdata]
    exact hobj.resolve_right (hstore obj.mId)
  · rw [hdata]
    exact fun hne => hgo.idAlive (h.id hne) hid
  · rw [hdata]
    exact fun hset => hgo.pendingAlive (h.pending hset) (hpending hset)

/-- The thread clears the flag. -/
theorem TaskInv.goes_clear (h : s.TaskInv c) (hgo : Goes s t p point c)
    (hdata : t.data c = { s.data c with IdleTaskPending := false })
    (hstore : ∀ id, s.calls p ≠ .storeId c id)
    (hid : (s.calls p).clearsId c = true → point.clearsId c = true) : t.TaskInv c := by
  apply h.goes hgo
  · intro obj _ hobj
    rw [hdata]
    exact hobj.resolve_right (hstore obj.mId)
  · rw [hdata]
    exact fun hne => hgo.idAlive (h.id hne) hid
  · rw [hdata]
    exact fun hset => by cases hset

/-- The thread clears the id. -/
theorem TaskInv.goes_clearId (h : s.TaskInv c) (hgo : Goes s t p point c)
    (hdata : t.data c = { s.data c with IdleTaskId := 0 })
    (hstore : ∀ id, s.calls p ≠ .storeId c id) (hkeep : s.KeepsId c 0)
    (hpending : (s.calls p).clearsPending c = true → point.clearsPending c = true) :
    t.TaskInv c := by
  apply h.goes hgo
  · intro obj hobj heq
    rw [hdata]
    exact hkeep obj hobj (heq.resolve_right (hstore obj.mId))
  · rw [hdata]
    exact fun hne => absurd rfl hne
  · rw [hdata]
    exact fun hset => hgo.pendingAlive (h.pending hset) hpending

/-- The thread moves on; the scheduler and the worker stay. -/
structure Moves (s t : CallbackState ρ) (p : ρ) (x point : CallPoint) : Prop where
  before : s.calls p = x
  sched : t.sched = s.sched
  worker : t.worker = s.worker
  calls : t.calls = Function.update s.calls p point

theorem Moves.goes {x : CallPoint} (h : Moves s t p x point) (c : CallbackTask) :
    Goes s t p point c where
  queued := by
    unfold CallbackState.queued
    rw [h.sched]
  worker := h.worker
  calls := h.calls

theorem inv_same {x : CallPoint} (h : s.Inv) (hm : Moves s t p x point)
    (hdata : t.data = s.data) (hstore : ∀ d id, x ≠ .storeId d id)
    (hid : ∀ d, x.clearsId d = true → point.clearsId d = true)
    (hpending : ∀ d, (s.data d).IdleTaskPending = true → x.clearsPending d = true →
      point.clearsPending d = true) : t.Inv where
  queue := hm.sched ▸ h.queue
  task d := by
    have hx := hm.before
    subst hx
    exact (h.task d).goes_same (hm.goes d) (congrFun hdata d) (hstore d) (hid d) (hpending d)

theorem inv_clearPending {x : CallPoint} (h : s.Inv) (hm : Moves s t p x point)
    (hdata : t.data = (s.setPending c false).data) (hstore : ∀ d id, x ≠ .storeId d id)
    (hid : ∀ d, x.clearsId d = true → point.clearsId d = true)
    (hpending : ∀ d, d ≠ c → x.clearsPending d = true → point.clearsPending d = true) :
    t.Inv where
  queue := hm.sched ▸ h.queue
  task d := by
    have hx := hm.before
    subst hx
    by_cases hd : d = c
    · subst hd
      exact (h.task d).goes_clear (hm.goes d) (hdata ▸ setPending_self false) (hstore d) (hid d)
    · exact (h.task d).goes_same (hm.goes d) (hdata ▸ setPending_of_ne false hd) (hstore d)
        (hid d) fun _ => hpending d hd

theorem inv_clearId {x : CallPoint} (h : s.Inv) (hm : Moves s t p x point)
    (hdata : t.data = (s.setId c 0).data) (hkeep : s.KeepsId c 0)
    (hstore : ∀ d id, x ≠ .storeId d id)
    (hid : ∀ d, d ≠ c → x.clearsId d = true → point.clearsId d = true)
    (hpending : ∀ d, x.clearsPending d = true → point.clearsPending d = true) : t.Inv where
  queue := hm.sched ▸ h.queue
  task d := by
    have hx := hm.before
    subst hx
    by_cases hd : d = c
    · subst hd
      exact (h.task d).goes_clearId (hm.goes d) (hdata ▸ setId_self 0) (hstore d) hkeep
        (hpending d)
    · exact (h.task d).goes_same (hm.goes d) (hdata ▸ setId_of_ne 0 hd) (hstore d) (hid d hd)
        fun _ => hpending d

theorem inv_silent {x : CallPoint} (h : s.Inv) (hm : Moves s t p x point)
    (hdata : t.data = s.data) (hx : x.Silent) : t.Inv := by
  apply inv_same h hm hdata hx.store
  · exact fun d hclears => absurd ((hx.id d).symm.trans hclears) Bool.false_ne_true
  · exact fun d _ hclears => absurd ((hx.pending d).symm.trans hclears) Bool.false_ne_true

/-- The flag is set for a task that will clear it. -/
theorem inv_setPending {x : CallPoint} (h : s.Inv) (hm : Moves s t p x point)
    (hdata : t.data = (s.setPending c true).data) (halive : t.PendingAlive c)
    (hx : x.Silent) : t.Inv where
  queue := hm.sched ▸ h.queue
  task d := by
    have hbefore := hm.before
    subst hbefore
    by_cases hd : d = c
    · subst hd
      have hself : t.data d = { s.data d with IdleTaskPending := true } :=
        hdata ▸ setPending_self true
      apply (h.task d).goes (hm.goes d)
      · intro obj _ hobj
        rw [hself]
        exact hobj.resolve_right (hx.store d obj.mId)
      · rw [hself]
        exact fun hne => (hm.goes d).idAlive ((h.task d).id hne)
          fun hclears => absurd ((hx.id d).symm.trans hclears) Bool.false_ne_true
      · exact fun _ => halive
    · exact (h.task d).goes_same (hm.goes d) (hdata ▸ setPending_of_ne true hd) (hx.store d)
        (fun hclears => absurd ((hx.id d).symm.trans hclears) Bool.false_ne_true)
        fun _ hclears => absurd ((hx.pending d).symm.trans hclears) Bool.false_ne_true

theorem inv_storeId (h : s.Inv) {id : Nat} (hp : s.calls p = .storeId c id)
    (hok : s.KeepsRecord (.advance p)) : ((s.setId c id).goto p (.testStored c)).Inv where
  queue := h.queue
  task d := by
    simp only [KeepsRecord, hp] at hok
    have hgo : Goes s ((s.setId c id).goto p (.testStored c)) p (.testStored c) d :=
      ⟨rfl, rfl, rfl⟩
    have hclears : (CallPoint.storeId c id).clearsPending d = true →
        (CallPoint.testStored c).clearsPending d = true := by
      cases c <;> cases d <;> exact fun h => h
    by_cases hd : d = c
    · subst hd
      have hdata : ((s.setId d id).goto p (.testStored d)).data d =
          { s.data d with IdleTaskId := id } := setId_self id
      apply (h.task d).goes hgo
      · intro obj hobj heq
        rw [hdata]
        rcases heq with heq | heq
        · exact hok.1 obj hobj heq
        · rw [hp] at heq
          cases heq
          rfl
      · rw [hdata]
        intro hne
        apply hgo.idAlive (hok.2 hne)
        rw [hp]
        exact fun hno => by cases hno
      · rw [hdata]
        exact fun hset => hgo.pendingAlive ((h.task d).pending hset) (hp ▸ hclears)
    · apply (h.task d).goes_same hgo (setId_of_ne id hd)
      · intro other heq
        rw [hp] at heq
        cases heq
        exact hd rfl
      · rw [hp]
        exact fun hno => by cases hno
      · rw [hp]
        exact fun _ => hclears

end Steps

end CallbackState

end PlayerInterface.Player
