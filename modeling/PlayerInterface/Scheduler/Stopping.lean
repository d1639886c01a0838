import PlayerInterface.Scheduler.Exclusion

/-!
# Stopping the scheduler

`StopScheduler` takes the execution lock when `mLockOut` is false, clears the queue,
opens the scheduler again and joins the worker. The flag does not always tell who has
the lock, and a task may still come in once the scheduler is open again.
-/

namespace PlayerInterface.Scheduler

open PlayerInterface.Core

variable {ι τ : Type}

/-- Within `StopScheduler`. -/
def Client.inStop : Client τ → Bool
  | suspending inStop | lockingOut inStop | resuming inStop => inStop
  | stopping | callingSuspend | clearing | unlocking | notifying | joining => true
  | idle _ | scheduling _ => false

/-- Within `StopScheduler` and behind its `RemoveAllTasks`. -/
def Client.cleared : Client τ → Bool
  | resuming inStop => inStop
  | unlocking | notifying | joining => true
  | _ => false

/-- A stop between its test of `mLockOut` and its return. -/
def Client.stops : Client τ → Bool
  | callingSuspend => true
  | c => c.cleared

section

variable [DecidableEq ι]

/-- No execution lock is locked while owned, the worker does not wait behind the notification,
and a call that returns leaves nothing in the queue and no worker behind. -/
structure StopsCleanly (s : State ι τ) : Prop where
  relock : ∀ i, s.client i = .callingSuspend → s.mExLock = false
  worker : ∀ i, s.client i = .joining → s.sched.mSchedulerRunning = false → s.worker ≠ .waiting
  returns : ∀ i t, s.client i = .joining → schedulerStep s (.advance i) = some t →
    t.sched.mTaskQueue = [] ∧ t.worker ≠ .waiting

/-- One `StopScheduler` at a time. -/
def OneStop (s : State ι τ) : Act ι τ → Prop
  | .StopScheduler _ => ∀ j, (s.client j).inStop = false
  | _ => True

/-- `StopScheduler` finds `mLockOut` false only when nobody has the execution lock, nobody takes
the lock between that and its own locking, and no task is accepted between its `RemoveAllTasks`
and its end. -/
def StopOrderly (s : State ι τ) (a : Act ι τ) : Prop :=
  OneStop s a ∧
    match a with
    | .advance i =>
        match s.client i with
        | .stopping => s.sched.mLockOut = true ∨ s.mExLock = false
        | .suspending _ => ∀ j, s.client j ≠ .callingSuspend
        | .scheduling _ => s.sched.mLockOut = true ∨ ∀ j, (s.client j).cleared = false
        | _ => True
    | _ => True

end

/-! ## Sections of the queue -/

theorem RemoveTask_running (p : PlayerScheduler τ) (id : Nat) :
    (p.RemoveTask id).2.mSchedulerRunning = p.mSchedulerRunning := by
  have hremoves := RemoveTask_removes p id
  generalize p.RemoveTask id = r at hremoves
  cases hremoves with
  | nothing => rfl
  | taken => rfl

theorem RemoveTask_empty {p : PlayerScheduler τ} (h : p.mTaskQueue = []) (id : Nat) :
    (p.RemoveTask id).2.mTaskQueue = [] :=
  List.eq_nil_of_sublist_nil (h ▸ RemoveTask_sublist p id)

theorem ScheduleTask_running (p : PlayerScheduler τ) (task : τ) :
    (p.ScheduleTask task).2.mSchedulerRunning = p.mSchedulerRunning := by
  unfold PlayerScheduler.ScheduleTask
  split <;> rfl

/-! ## The invariant -/

structure Stopping (s : State ι τ) : Prop where
  relock : ∀ i, s.client i = .callingSuspend → s.mExLock = false
  joined : ∀ i, s.client i = .joining → s.sched.mSchedulerRunning = false → s.worker ≠ .waiting
  emptied : ∀ i, (s.client i).cleared = true → s.sched.mTaskQueue = []

section

variable {s t : State ι τ}

theorem Stopping.returns [DecidableEq ι] (h : Stopping s) {i : ι} (hi : s.client i = .joining)
    (ht : schedulerStep s (.advance i) = some t) :
    t.sched.mTaskQueue = [] ∧ t.worker ≠ .waiting := by
  have hempty := h.emptied i (by rw [hi]; rfl)
  simp only [schedulerStep, advanceStep, hi] at ht
  split at ht
  · rename_i hw
    cases ht
    exact ⟨hempty, fun hwaits => by rw [show s.worker = .waiting from hwaits] at hw; cases hw⟩
  · rename_i hw
    cases ht
    exact ⟨hempty, fun hwaits => by rw [show s.worker = .waiting from hwaits] at hw; cases hw⟩
  · cases ht

theorem Stopping.stopsCleanly [DecidableEq ι] (h : Stopping s) : StopsCleanly s :=
  ⟨h.relock, h.joined, fun _ _ hi ht => h.returns hi ht⟩

/-- The worker goes on, with or without a task from the queue. -/
theorem Stopping.works (h : Stopping s) (hclient : t.client = s.client)
    (hlock : t.mExLock = s.mExLock)
    (hworker : t.worker = .waiting → t.sched.mSchedulerRunning = true)
    (hqueue : s.sched.mTaskQueue = [] → t.sched.mTaskQueue = []) : Stopping t where
  relock i hi := by
    rw [hlock]
    exact h.relock i (hclient ▸ hi)
  joined i _ hrunning hw := by
    rw [hworker hw] at hrunning
    cases hrunning
  emptied i hi := hqueue (h.emptied i (hclient ▸ hi))

variable [DecidableEq ι]

/-- A client goes to another place. -/
theorem Stopping.follow (h : Stopping s) {i : ι} {c : Client τ}
    (hclient : t.client = fun j => if j = i then c else s.client j)
    (hlock : t.mExLock = true → s.mExLock = true ∨ ∀ j, s.client j ≠ .callingSuspend)
    (hrelock : c = .callingSuspend → t.mExLock = false)
    (hworker : t.worker = .waiting → s.worker = .waiting)
    (hrunning : t.sched.mSchedulerRunning = false →
      s.sched.mSchedulerRunning = false ∨ ∀ j, s.client j ≠ .joining)
    (hjoin : c = .joining → t.worker ≠ .waiting)
    (hqueue : ∀ j, (s.client j).cleared = true → s.sched.mTaskQueue = [] → t.sched.mTaskQueue = [])
    (hcleared : c.cleared = true → t.sched.mTaskQueue = []) : Stopping t := by
  refine ⟨fun j hj => ?_, fun j hj hstopped hw => ?_, fun j hj => ?_⟩ <;>
    rw [hclient] at hj <;> dsimp only at hj <;> split at hj
  · exact hrelock hj
  · by_contra hheld
    rcases hlock ((Bool.not_eq_false _).mp hheld) with hs | hnone
    · rw [h.relock j hj] at hs
      cases hs
    · exact hnone j hj
  · exact hjoin hj hw
  · rcases hrunning hstopped with hs | hnone
    · exact h.joined j hj hs (hworker hw)
    · exact hnone j hj
  · exact hcleared hj
  · exact hqueue j hj (h.emptied j hj)

/-- Only the client's place changes. -/
theorem Stopping.moves (h : Stopping s) {i : ι} {c : Client τ} (hsched : t.sched = s.sched)
    (hlock : t.mExLock = s.mExLock) (hworker : t.worker = s.worker)
    (hclient : t.client = fun j => if j = i then c else s.client j)
    (hcall : c = .callingSuspend → s.mExLock = false) (hjoin : c ≠ .joining)
    (hcleared : c.cleared = true → (s.client i).cleared = true) : Stopping t := by
  refine h.follow hclient (fun hl => .inl (hlock ▸ hl)) (fun hc => hlock ▸ hcall hc)
    (fun hw => hworker ▸ hw) (fun hr => .inl (hsched ▸ hr)) (fun hc => absurd hc hjoin) ?_ ?_
  · rw [hsched]
    exact fun _ _ hq => hq
  · rw [hsched]
    exact fun hc => h.emptied i (hcleared hc)

omit [DecidableEq ι] in
theorem not_stops {c : Client τ} (h : c.stops = false) :
    c ≠ .callingSuspend ∧ c ≠ .joining ∧ c.cleared = false := by
  refine ⟨?_, ?_, ?_⟩
  · rintro rfl
    cases h
  · rintro rfl
    cases h
  · cases c with
    | callingSuspend => rfl
    | _ => exact h

/-- A client goes to a place outside of a stop. -/
theorem Stopping.follow_outside (h : Stopping s) {i : ι} {c : Client τ} (hc : c.stops = false)
    (hclient : t.client = fun j => if j = i then c else s.client j)
    (hlock : t.mExLock = true → s.mExLock = true ∨ ∀ j, s.client j ≠ .callingSuspend)
    (hworker : t.worker = .waiting → s.worker = .waiting)
    (hrunning : t.sched.mSchedulerRunning = false →
      s.sched.mSchedulerRunning = false ∨ ∀ j, s.client j ≠ .joining)
    (hqueue : ∀ j, (s.client j).cleared = true → s.sched.mTaskQueue = [] → t.sched.mTaskQueue = []) :
    Stopping t := by
  obtain ⟨hcall, hjoin, hcleared⟩ := not_stops hc
  refine h.follow hclient hlock (fun heq => absurd heq hcall) hworker hrunning
    (fun heq => absurd heq hjoin) hqueue fun hyes => ?_
  rw [hcleared] at hyes
  cases hyes

theorem Stopping.moves_outside (h : Stopping s) {i : ι} {c : Client τ} (hc : c.stops = false)
    (hsched : t.sched = s.sched) (hlock : t.mExLock = s.mExLock) (hworker : t.worker = s.worker)
    (hclient : t.client = fun j => if j = i then c else s.client j) : Stopping t := by
  obtain ⟨hcall, hjoin, hcleared⟩ := not_stops hc
  refine h.moves hsched hlock hworker hclient (fun heq => absurd heq hcall) hjoin fun hyes => ?_
  rw [hcleared] at hyes
  cases hyes

omit [DecidableEq ι] in
theorem notify_awake (s : State ι τ) : s.notify.worker ≠ .waiting := by
  unfold State.notify
  cases s.worker <;> nofun

theorem callStep_stopping {a : Act ι τ} (h : Stopping s) (hok : StopOrderly s a)
    (ht : callStep s a = some t) : Stopping t := by
  cases a with
  | ScheduleTask i task =>
      simp only [callStep] at ht
      split at ht <;> cases ht <;> exact h.moves_outside rfl rfl rfl rfl rfl
  | RemoveTask i id =>
      cases ht
      refine h.follow_outside rfl rfl .inl (fun hw => hw) (fun hr => .inl ?_)
        fun _ _ hq => RemoveTask_empty hq id
      exact (RemoveTask_running s.sched id).symm.trans hr
  | RemoveAllTasks i =>
      cases ht
      exact h.follow_outside rfl rfl .inl id .inl fun _ _ _ => rfl
  | SuspendScheduler i =>
      simp only [callStep] at ht
      split at ht <;> cases ht <;> exact h.moves_outside rfl rfl rfl rfl rfl
  | ResumeScheduler i =>
      simp only [callStep] at ht
      split at ht <;> cases ht
      · exact h.follow_outside rfl rfl (fun hl => absurd hl Bool.false_ne_true) id .inl
          fun _ _ hq => hq
      · exact h.moves_outside rfl rfl rfl rfl rfl
  | EnableScheduleTask i =>
      cases ht
      exact h.follow_outside rfl rfl .inl id .inl fun _ _ hq => hq
  | StopScheduler i =>
      cases ht
      refine h.follow_outside rfl rfl .inl id (fun _ => .inr fun j hj => ?_) fun _ _ hq => hq
      have hnone := hok.1 j
      rw [hj] at hnone
      cases hnone
  | _ => cases ht

theorem advanceStep_stopping {i : ι} (h : Stopping s) (hok : StopOrderly s (.advance i))
    (ht : advanceStep s i = some t) : Stopping t := by
  unfold advanceStep at ht
  have hok := hok.2
  dsimp only at hok
  cases hc : s.client i with
  | idle returned =>
      rw [hc] at ht
      cases ht
  | scheduling task =>
      rw [hc] at ht hok
      have hqueue : ∀ j, (s.client j).cleared = true → s.sched.mTaskQueue = [] →
          (s.sched.ScheduleTask task).2.mTaskQueue = [] := by
        intro j hj hempty
        rcases hok with hlocked | hnone
        · rw [ScheduleTask_lockedOut hlocked]
          exact hempty
        · rw [hnone j] at hj
          cases hj
      have hrunning : (s.sched.ScheduleTask task).2.mSchedulerRunning = false →
          s.sched.mSchedulerRunning = false ∨ ∀ j, s.client j ≠ .joining :=
        fun hr => .inl ((ScheduleTask_running s.sched task).symm.trans hr)
      dsimp only at ht
      split at ht <;> cases ht
      · exact h.follow_outside rfl rfl .inl (fun hw => absurd hw (notify_awake _)) hrunning hqueue
      · exact h.follow_outside rfl rfl .inl (fun hw => hw) hrunning hqueue
  | suspending inStop =>
      rw [hc] at ht hok
      dsimp only at ht
      split at ht
      · cases ht
      · cases ht
        exact h.follow_outside rfl rfl (fun _ => .inr hok) (fun hw => hw) .inl fun _ _ hq => hq
  | lockingOut inStop =>
      rw [hc] at ht
      cases ht
      cases inStop <;>
        exact h.follow_outside rfl rfl .inl (fun hw => hw) .inl fun _ _ hq => hq
  | resuming inStop =>
      rw [hc] at ht
      cases ht
      cases inStop with
      | true =>
          exact h.follow rfl .inl nofun (fun hw => hw) .inl nofun (fun _ _ hq => hq)
            fun _ => h.emptied i (by rw [hc]; rfl)
      | false =>
          exact h.follow_outside rfl rfl .inl (fun hw => hw) .inl fun _ _ hq => hq
  | stopping =>
      rw [hc] at ht hok
      cases ht
      cases hlockOut : s.sched.mLockOut with
      | true => exact h.moves_outside rfl rfl rfl rfl rfl
      | false =>
          have hfree := hok.resolve_left (by rw [hlockOut]; nofun)
          exact h.moves rfl rfl rfl rfl (fun _ => hfree) nofun nofun
  | callingSuspend =>
      rw [hc] at ht
      dsimp only at ht
      split at ht <;> cases ht <;> exact h.moves_outside rfl rfl rfl rfl rfl
  | clearing =>
      rw [hc] at ht
      cases ht
      exact h.follow rfl .inl nofun (fun hw => hw) .inl nofun (fun _ _ _ => rfl) fun _ => rfl
  | unlocking =>
      rw [hc] at ht
      dsimp only at ht
      split at ht <;> cases ht
      · exact h.follow rfl nofun nofun (fun hw => hw) .inl nofun (fun _ _ hq => hq)
          fun _ => h.emptied i (by rw [hc]; rfl)
      · exact h.moves_outside rfl rfl rfl rfl rfl
  | notifying =>
      rw [hc] at ht
      cases ht
      exact h.follow rfl .inl nofun (fun hw => absurd hw (notify_awake s)) .inl
        (fun _ => notify_awake s) (fun _ _ hq => hq) fun _ => h.emptied i (by rw [hc]; rfl)
  | joining =>
      rw [hc] at ht
      dsimp only at ht
      split at ht <;> cases ht <;> exact h.moves_outside rfl rfl rfl rfl rfl

omit [DecidableEq ι] in
/-- The worker comes to wait only while the scheduler runs. -/
theorem testLoop_waiting (s : State ι τ) (h : s.testLoop.worker = .waiting) :
    s.sched.mSchedulerRunning = true := by
  by_contra hstopped
  rw [State.testLoop, if_neg hstopped] at h
  cases h

omit [DecidableEq ι] in
theorem workerStep_stopping {a : Act ι τ} (h : Stopping s) (ht : workerStep s a = some t) :
    Stopping t := by
  cases a with
  | wake =>
      simp only [workerStep] at ht
      split at ht <;> cases ht
      exact h.works rfl rfl (fun hw => by cases hw) fun hq => hq
  | testLoop =>
      simp only [workerStep] at ht
      split at ht <;> cases ht
      exact h.works rfl rfl (testLoop_waiting s) fun hq => hq
  | lockEx =>
      simp only [workerStep] at ht
      split at ht
      · split at ht <;> cases ht
        exact h.works rfl rfl (fun hw => by cases hw) fun hq => hq
      · cases ht
  | takeTask =>
      simp only [workerStep] at ht
      split at ht
      · have hempty : ∀ r, s.sched.takeTask = r → s.sched.mTaskQueue = [] → r.2.mTaskQueue = [] := by
          rintro r rfl hq
          rw [takeTask_empty hq]
          exact hq
        split at ht <;> cases ht
        · rename_i obj p htake
          exact h.works rfl rfl (fun hw => by cases hw) (hempty _ htake)
        · rename_i p htake
          exact h.works rfl rfl (testLoop_waiting _) (hempty _ htake)
      · cases ht
  | finishTask =>
      simp only [workerStep] at ht
      split at ht <;> cases ht
      exact h.works rfl rfl (testLoop_waiting s) fun hq => hq
  | _ => cases ht

theorem step_stopping {a : Act ι τ} (h : Stopping s) (hok : StopOrderly s a)
    (ht : schedulerStep s a = some t) : Stopping t := by
  obtain ⟨-, -, rfl⟩ | ⟨i, rfl, hadvance⟩ | hcall | hworker := schedulerStep_cases ht
  · exact h.works rfl rfl (fun _ => rfl) fun hq => hq
  · exact advanceStep_stopping h hok hadvance
  · exact callStep_stopping h hok hcall
  · exact workerStep_stopping h hworker

/-- In an orderly run the scheduler stops cleanly. -/
theorem orderly_stopsCleanly (h : (schedulerSystem ι τ).Reaches StopOrderly s) : StopsCleanly s := by
  have hinit : ∀ s : State ι τ, (schedulerSystem ι τ).init s → Stopping s := by
    rintro s rfl
    exact ⟨nofun, nofun, nofun⟩
  exact (h.invariant hinit fun _ _ _ hs hok ht => step_stopping hs hok ht).stopsCleanly

end

/-! ## Runs -/

def orderlyTest (s : State Unit Nat) : Act Unit Nat → Bool
  | .StopScheduler _ => !(s.client ()).inStop
  | .advance _ =>
      match s.client () with
      | .stopping => s.sched.mLockOut || !s.mExLock
      | _ => true
  | _ => true

/-- With one client nobody else can come between. -/
theorem orderlyTest_orderly (s : State Unit Nat) (a : Act Unit Nat) (h : orderlyTest s a = true) :
    StopOrderly s a := by
  cases a with
  | StopScheduler i => exact ⟨fun _ => by simpa [orderlyTest] using h, trivial⟩
  | advance i =>
      refine ⟨trivial, ?_⟩
      cases hc : s.client () with
      | stopping => simpa [orderlyTest, hc] using h
      | scheduling task => simp [hc, Client.cleared]
      | suspending inStop => simp [hc]
      | _ => simp [hc]
  | _ => exact ⟨trivial, trivial⟩

/-- A task is queued, the scheduler stops, and the worker ends. -/
def queuedStop : List (Act Unit Nat) :=
  [.StartScheduler, .ScheduleTask () 7, .advance (), .testLoop, .StopScheduler ()] ++
    List.replicate 8 (.advance ()) ++ [.lockEx, .takeTask]

theorem queuedStop_stopsCleanly : ∃ s : State Unit Nat, s.client () = .joining ∧
    s.worker = .exited ∧ s.sched.accepted.length = 1 ∧ StopsCleanly s := by
  have hend : ((schedulerSystem Unit Nat).run {} queuedStop).map (fun s =>
      (s.client (), s.worker, s.sched.accepted.length)) = some (.joining, .exited, 1) := by
    decide
  rcases Option.map_eq_some_iff.mp hend with ⟨s, hs, hparts⟩
  have hok : (schedulerSystem Unit Nat).RunOk StopOrderly {} queuedStop :=
    System.runOk_of_checkRun orderlyTest_orderly (by decide)
  rw [Prod.mk.injEq, Prod.mk.injEq] at hparts
  exact ⟨s, hparts.1, hparts.2.1, hparts.2.2, orderly_stopsCleanly (System.Reaches.run (.init rfl) hok hs)⟩

/-- A suspended scheduler accepts tasks again and is stopped. -/
def enabledStop : List (Act Bool Nat) :=
  [.StartScheduler, .SuspendScheduler false, .advance false, .advance false,
    .EnableScheduleTask false, .StopScheduler false, .advance false]

/-- A task finds the scheduler running and is queued when it has been stopped and opened again. -/
def lateTask : List (Act Bool Nat) :=
  [.StartScheduler, .ScheduleTask true 7, .StopScheduler false] ++
    List.replicate 8 (.advance false) ++ [.testLoop, .advance true]

def oneStopTest (s : State Bool Nat) : Act Bool Nat → Bool
  | .StopScheduler _ => !(s.client false).inStop && !(s.client true).inStop
  | _ => true

theorem oneStopTest_oneStop (s : State Bool Nat) (a : Act Bool Nat) (h : oneStopTest s a = true) :
    OneStop s a := by
  cases a with
  | StopScheduler i =>
      simp only [oneStopTest, Bool.and_eq_true, Bool.not_eq_true'] at h
      rintro (_ | _)
      · exact h.1
      · exact h.2
  | _ => trivial

theorem enabledStop_lateTask :
    (¬ ∀ s, (schedulerSystem Bool Nat).Reaches OneStop s →
      ∀ i, s.client i = .callingSuspend → s.mExLock = false) ∧
    ¬ ∀ s, (schedulerSystem Bool Nat).Reaches OneStop s →
      ∀ i t, s.client i = .joining → schedulerStep s (.advance i) = some t →
        t.sched.mTaskQueue = [] := by
  constructor
  · intro hclaim
    have hend : ((schedulerSystem Bool Nat).run {} enabledStop).map (fun s =>
        (s.client false, s.mExLock)) = some (.callingSuspend, true) := by
      decide
    rcases Option.map_eq_some_iff.mp hend with ⟨s, hs, hparts⟩
    rw [Prod.mk.injEq] at hparts
    have hok := System.runOk_of_checkRun oneStopTest_oneStop
      (show (schedulerSystem Bool Nat).checkRun oneStopTest {} enabledStop = true by decide)
    have hfree := hclaim s (System.Reaches.run (.init rfl) hok hs) false hparts.1
    rw [hparts.2] at hfree
    cases hfree
  · intro hclaim
    have hend : ((schedulerSystem Bool Nat).run {} lateTask).map (fun s =>
        (s.client false, (schedulerStep s (.advance false)).map fun t => t.sched.mTaskQueue.length)) =
          some (.joining, some 1) := by
      decide
    rcases Option.map_eq_some_iff.mp hend with ⟨s, hs, hparts⟩
    rw [Prod.mk.injEq] at hparts
    rcases Option.map_eq_some_iff.mp hparts.2 with ⟨t, ht, hlength⟩
    have hok := System.runOk_of_checkRun oneStopTest_oneStop
      (show (schedulerSystem Bool Nat).checkRun oneStopTest {} lateTask = true by decide)
    rw [hclaim s (System.Reaches.run (.init rfl) hok hs) false t hparts.1 ht] at hlength
    cases hlength

end PlayerInterface.Scheduler
