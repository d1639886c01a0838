import PlayerInterface.Scheduler.Threads

/-!
# Order and exclusion

The worker takes a task only while it has `mExMutex` and keeps it until the task
has run, so a suspended scheduler neither runs a task nor holds one.
-/

namespace PlayerInterface.Scheduler

open PlayerInterface.Core

variable {ι τ : Type}

/-! ## Order -/

theorem ClientSection.queueInv {p q : PlayerScheduler τ} (h : ClientSection p q) (hp : QueueInv p) :
    QueueInv q := by
  cases h with
  | nothing => exact hp
  | ScheduleTask task => exact hp.scheduleTask task
  | RemoveTask id => exact hp.removeTask id
  | RemoveAllTasks => exact hp.removeAllTasks
  | setLockOut lockOut => exact hp.setLockOut lockOut
  | setRunning running => exact hp.setRunning running

theorem StepTo.queueInv {s t : State ι τ} (h : StepTo s t) (hs : QueueInv s.sched) :
    QueueInv t.sched := by
  cases h with
  | client hq _ _ => exact hq.queueInv hs
  | suspended _ _ _ heq _ => exact heq ▸ hs
  | released _ _ heq _ => exact heq ▸ hs
  | loops heq _ _ => exact heq ▸ hs
  | locksEx _ _ heq _ => exact heq ▸ hs
  | takes _ heq _ =>
      rw [heq]
      exact hs.takeTask

variable [DecidableEq ι]

theorem queueInv_of_reachable {s : State ι τ} (h : (schedulerSystem ι τ).Reachable s) :
    QueueInv s.sched := by
  refine h.invariant (fun s hs => ?_) fun _ _ _ hi _ hstep => (schedulerStep_stepTo hstep).queueInv hi
  rcases hs with rfl
  exact queueInv_init

/-- In every reachable state the started tasks followed by the queued ones are
the accepted tasks without the removed ones, in the order of acceptance. -/
theorem startsInOrder_of_reachable {s : State ι τ} (h : (schedulerSystem ι τ).Reachable s) :
    StartsInOrder s.sched :=
  (queueInv_of_reachable h).startsInOrder

/-- One task is removed while another one runs. -/
def removeRun : List (Act Unit Nat) :=
  [.StartScheduler, .ScheduleTask () 7, .advance (), .testLoop, .ScheduleTask () 8, .advance (),
    .lockEx, .takeTask, .RemoveTask () 2]

theorem removeRun_startsInOrder : ∃ s : State Unit Nat,
    (schedulerSystem Unit Nat).run {} removeRun = some s ∧ s.sched.removed = [1] ∧
      StartsInOrder s.sched := by
  have hrun : ((schedulerSystem Unit Nat).run {} removeRun).map (fun s => s.sched.removed) =
      some [1] := by
    decide
  rcases Option.map_eq_some_iff.mp hrun with ⟨s, hs, hremoved⟩
  have hinit : (schedulerSystem Unit Nat).init {} := rfl
  exact ⟨s, hs, hremoved, startsInOrder_of_reachable (System.reachable_of_run hinit hs)⟩

/-! ## What later states keep -/

/-- Tasks stay accepted, started and removed. -/
structure Later (p q : PlayerScheduler τ) : Prop where
  accepted : p.accepted <+: q.accepted
  started : p.started <+: q.started
  removed : p.removed ⊆ q.removed

theorem Later.refl (p : PlayerScheduler τ) : Later p p :=
  ⟨List.prefix_refl _, List.prefix_refl _, List.Subset.refl _⟩

theorem Later.trans {p q r : PlayerScheduler τ} (h : Later p q) (h' : Later q r) : Later p r :=
  ⟨h.accepted.trans h'.accepted, h.started.trans h'.started,
    List.Subset.trans h.removed h'.removed⟩

theorem ClientSection.started {p q : PlayerScheduler τ} (h : ClientSection p q) :
    q.started = p.started := by
  cases h with
  | ScheduleTask task =>
      unfold PlayerScheduler.ScheduleTask
      split <;> rfl
  | RemoveTask id => exact (RemoveTask_rest p id).2.2.2
  | _ => rfl

theorem ClientSection.later {p q : PlayerScheduler τ} (h : ClientSection p q) : Later p q := by
  have hstarted : p.started <+: q.started := h.started ▸ List.prefix_refl _
  cases h with
  | ScheduleTask task =>
      refine ⟨?_, hstarted, ?_⟩
      · unfold PlayerScheduler.ScheduleTask
        split
        · exact List.prefix_append _ _
        · exact List.prefix_refl _
      · unfold PlayerScheduler.ScheduleTask
        split <;> exact List.Subset.refl _
  | RemoveTask id =>
      have hremoves := RemoveTask_removes p id
      generalize p.RemoveTask id = r at hremoves hstarted
      cases hremoves with
      | nothing => exact ⟨List.prefix_refl _, hstarted, List.Subset.refl _⟩
      | taken => exact ⟨List.prefix_refl _, hstarted, List.subset_append_left _ _⟩
  | RemoveAllTasks => exact ⟨List.prefix_refl _, hstarted, List.subset_append_left _ _⟩
  | _ => exact ⟨List.prefix_refl _, hstarted, List.Subset.refl _⟩

theorem takeTask_later (p : PlayerScheduler τ) : Later p p.takeTask.2 := by
  unfold PlayerScheduler.takeTask
  split
  · exact Later.refl p
  · split
    · exact ⟨List.prefix_refl _, List.prefix_append _ _, List.Subset.refl _⟩
    · exact ⟨List.prefix_refl _, List.prefix_refl _, List.Subset.refl _⟩

omit [DecidableEq ι] in
theorem StepTo.later {s t : State ι τ} (h : StepTo s t) : Later s.sched t.sched := by
  cases h with
  | client hq _ _ => exact hq.later
  | suspended _ _ _ heq _ => exact heq ▸ Later.refl _
  | released _ _ heq _ => exact heq ▸ Later.refl _
  | loops heq _ _ => exact heq ▸ Later.refl _
  | locksEx _ _ heq _ => exact heq ▸ Later.refl _
  | takes _ heq _ =>
      rw [heq]
      exact takeTask_later s.sched

theorem run_later {s t : State ι τ} {as : List (Act ι τ)}
    (h : (schedulerSystem ι τ).run s as = some t) : Later s.sched t.sched := by
  induction as generalizing s with
  | nil =>
      cases h
      exact Later.refl _
  | cons a as ih =>
      rcases Option.bind_eq_some_iff.mp h with ⟨u, hu, hrest⟩
      exact (schedulerStep_stepTo hu).later.trans (ih hrest)

/-- When the queue is empty, whatever starts later was accepted later. -/
theorem QueueInv.starts_accepted_later {p q : PlayerScheduler τ} (hp : QueueInv p) (hq : QueueInv q)
    (h : Later p q) (hempty : p.mTaskQueue = []) {obj : PlayerAsyncTaskObj τ}
    (hobj : obj ∈ q.started) : obj ∈ p.started ∨ p.accepted.length ≤ obj.seq := by
  rcases Nat.lt_or_ge obj.seq p.accepted.length with hlt | hge
  · refine Or.inl ?_
    have hsplit := hp.split
    rw [hempty, List.append_nil] at hsplit
    rw [hsplit]
    have hmem : obj ∈ without PlayerAsyncTaskObj.seq q.removed q.accepted := by
      rw [← hq.split]
      exact List.mem_append_left _ hobj
    rcases mem_without.mp hmem with ⟨hacc, hnot⟩
    apply mem_without.mpr
    refine ⟨?_, fun hremoved => hnot (h.removed hremoved)⟩
    -- the number of a task is its place among the accepted ones
    rcases List.mem_iff_getElem.mp hacc with ⟨n, hn, rfl⟩
    have hlen : n < (q.accepted.map PlayerAsyncTaskObj.seq).length := by simpa using hn
    have hseq : (q.accepted.map PlayerAsyncTaskObj.seq)[n] = n := by
      simp only [hq.numbered, List.getElem_range]
    rw [List.getElem_map] at hseq
    rw [hseq] at hlt
    rw [← h.accepted.getElem hlt]
    exact List.getElem_mem hlt
  · exact Or.inr hge

/-! ## Exclusion -/

/-- Not both a client and the worker have `mExMutex`. -/
def Exclusive (s : State ι τ) : Prop :=
  s.mExLock = true → s.worker.holdsEx = false

omit [DecidableEq ι] in
theorem StepTo.exclusive {s t : State ι τ} (h : StepTo s t) (hs : Exclusive s) : Exclusive t := by
  intro hl
  cases h with
  | client _ hw hl' =>
      rcases hw with hw | ⟨_, hw⟩
      · rw [hw]
        exact hs (hl' ▸ hl)
      · rw [hw]
        rfl
  | suspended _ hfree _ _ hw => exact hw ▸ hfree
  | released _ hl' _ _ =>
      rw [hl'] at hl
      cases hl
  | loops _ hw _ => exact hw
  | locksEx _ hl' _ _ =>
      rw [hl'] at hl
      cases hl
  | takes hw _ hl' =>
      have hs' := hs (hl' ▸ hl)
      rw [hw] at hs'
      cases hs'

theorem exclusive_of_reachable {s : State ι τ} (h : (schedulerSystem ι τ).Reachable s) :
    Exclusive s := by
  refine h.invariant (fun s hs => ?_) fun _ _ _ hi _ hstep => (schedulerStep_stepTo hstep).exclusive hi
  rcases hs with rfl
  intro hl
  cases hl

omit [DecidableEq ι] in
theorem StepTo.started {s t : State ι τ} (h : StepTo s t) (hs : Exclusive s)
    (hl : s.mExLock = true) : t.sched.started = s.sched.started := by
  cases h with
  | client hq _ _ => exact hq.started
  | suspended _ _ _ heq _ => rw [heq]
  | released _ _ heq _ => rw [heq]
  | loops heq _ _ => rw [heq]
  | locksEx _ _ heq _ => rw [heq]
  | takes hw _ _ =>
      have hfree := hs hl
      rw [hw] at hfree
      cases hfree

/-- The steps that give `mExLock` up: `ResumeScheduler`, and `StopScheduler` once
it comes to resume. -/
def State.Releases (s : State ι τ) : Act ι τ → Prop
  | .ResumeScheduler _ => True
  | .advance i => s.client i = .unlocking
  | _ => False

theorem callStep_mExLock {s t : State ι τ} {a : Act ι τ} (h : callStep s a = some t)
    (hno : ¬ s.Releases a) : t.mExLock = s.mExLock := by
  cases a with
  | ResumeScheduler i => exact absurd trivial hno
  | ScheduleTask i task =>
      simp only [callStep] at h
      split at h <;> cases h <;> rfl
  | SuspendScheduler i =>
      simp only [callStep] at h
      split at h <;> cases h <;> rfl
  | RemoveTask i id =>
      cases h
      rfl
  | RemoveAllTasks i =>
      cases h
      rfl
  | EnableScheduleTask i =>
      cases h
      rfl
  | StopScheduler i =>
      cases h
      rfl
  | _ => cases h

theorem advanceStep_mExLock {s t : State ι τ} {i : ι} (h : advanceStep s i = some t)
    (hl : s.mExLock = true) (hno : s.client i ≠ .unlocking) : t.mExLock = true := by
  unfold advanceStep at h
  split at h
  · cases h
  · dsimp only at h
    split at h <;> cases h <;> exact hl
  · split at h <;> cases h
    rfl
  · cases h
    exact hl
  · cases h
    exact hl
  · cases h
    exact hl
  · split at h <;> cases h <;> exact hl
  · cases h
    exact hl
  · rename_i hc
    exact absurd hc hno
  · cases h
    exact hl
  · split at h <;> cases h <;> exact hl

omit [DecidableEq ι] in
theorem workerStep_mExLock {s t : State ι τ} {a : Act ι τ} (h : workerStep s a = some t) :
    t.mExLock = s.mExLock := by
  cases a with
  | takeTask =>
      simp only [workerStep] at h
      split at h
      · split at h <;> cases h <;> rfl
      · cases h
  | lockEx =>
      simp only [workerStep] at h
      split at h
      · split at h <;> cases h
        rfl
      · cases h
  | wake =>
      simp only [workerStep] at h
      split at h <;> cases h
      rfl
  | testLoop =>
      simp only [workerStep] at h
      split at h <;> cases h
      rfl
  | finishTask =>
      simp only [workerStep] at h
      split at h <;> cases h
      rfl
  | _ => cases h

theorem schedulerStep_mExLock {s t : State ι τ} {a : Act ι τ} (h : schedulerStep s a = some t)
    (hl : s.mExLock = true) (hno : ¬ s.Releases a) : t.mExLock = true := by
  obtain ⟨-, -, rfl⟩ | ⟨i, rfl, hadvance⟩ | hcall | hworker := schedulerStep_cases h
  · exact hl
  · exact advanceStep_mExLock hadvance hl hno
  · rw [callStep_mExLock hcall hno]
    exact hl
  · rw [workerStep_mExLock hworker]
    exact hl

/-- A run from a suspended state in which nobody resumes the scheduler. -/
theorem run_suspended {s u : State ι τ} {as : List (Act ι τ)} (hs : Exclusive s)
    (hl : s.mExLock = true) (hrun : (schedulerSystem ι τ).run s as = some u)
    (hok : (schedulerSystem ι τ).RunOk (fun s a => ¬ s.Releases a) s as) :
    u.mExLock = true ∧ Exclusive u ∧ u.sched.started = s.sched.started := by
  induction as generalizing s with
  | nil =>
      cases hrun
      exact ⟨hl, hs, rfl⟩
  | cons a as ih =>
      rcases Option.bind_eq_some_iff.mp hrun with ⟨t, ht, hrest⟩
      have hstep := schedulerStep_stepTo ht
      rcases hok t ht with ⟨hno, hok'⟩
      rcases ih (hstep.exclusive hs) (schedulerStep_mExLock ht hl hno) hrest hok' with
        ⟨hlock, hexcl, hstarted⟩
      exact ⟨hlock, hexcl, hstarted.trans (hstep.started hs hl)⟩

/-- What holds in a state `u` while the scheduler is suspended: no task is taken
or runs, none starts next, and what starts after a `RemoveAllTasks` was accepted
after it. -/
structure SuspendedAt (u : State ι τ) : Prop where
  idle : ∀ obj, u.worker ≠ .executing obj
  starts : ∀ a v, schedulerStep u a = some v → v.sched.started = u.sched.started
  removed : ∀ i v, schedulerStep u (.RemoveAllTasks i) = some v →
    ∀ bs w, (schedulerSystem ι τ).run v bs = some w →
      ∀ obj ∈ w.sched.started, obj ∈ v.sched.started ∨ v.sched.accepted.length ≤ obj.seq

theorem RemoveAllTasks_empties {u v : State ι τ} {i : ι}
    (h : schedulerStep u (.RemoveAllTasks i) = some v) : v.sched.mTaskQueue = [] := by
  simp only [schedulerStep, Act.caller] at h
  split at h
  · cases h
    rfl
  · cases h

/-- From the step by which `SuspendScheduler` takes the execution lock until
`ResumeScheduler` or `StopScheduler` gives it up, the scheduler is suspended and
no task has started since. -/
theorem suspended_until_released {r s u : State ι τ} {i : ι} {stopping : Bool}
    {as : List (Act ι τ)} (hr : (schedulerSystem ι τ).Reachable r)
    (hcall : r.client i = .suspending stopping) (hs : schedulerStep r (.advance i) = some s)
    (hrun : (schedulerSystem ι τ).run s as = some u)
    (hok : (schedulerSystem ι τ).RunOk (fun s a => ¬ s.Releases a) s as) :
    SuspendedAt u ∧ u.sched.started = s.sched.started := by
  have hl : s.mExLock = true := by
    simp only [schedulerStep, advanceStep, hcall] at hs
    split at hs <;> cases hs
    rfl
  have hstep : (schedulerSystem ι τ).step r (.advance i) = some s := hs
  have hreach : (schedulerSystem ι τ).Reachable s := .step hr trivial hstep
  rcases run_suspended (exclusive_of_reachable hreach) hl hrun hok with ⟨hlock, hexcl, hstarted⟩
  have hreach' : (schedulerSystem ι τ).Reachable u :=
    hreach.run (System.runOk_of_forall fun _ _ _ => trivial) hrun
  refine ⟨⟨?_, ?_, ?_⟩, hstarted⟩
  · intro obj hw
    have hfree := hexcl hlock
    rw [hw] at hfree
    cases hfree
  · exact fun a v hv => (schedulerStep_stepTo hv).started hexcl hlock
  · intro i v hv bs w hw obj hobj
    have hstepV : (schedulerSystem ι τ).step u (.RemoveAllTasks i) = some v := hv
    have hreachV : (schedulerSystem ι τ).Reachable v := .step hreach' trivial hstepV
    have hreachW : (schedulerSystem ι τ).Reachable w :=
      hreachV.run (System.runOk_of_forall fun _ _ _ => trivial) hw
    exact (queueInv_of_reachable hreachV).starts_accepted_later (queueInv_of_reachable hreachW)
      (run_later hw) (RemoveAllTasks_empties hv) hobj

/-- A test for the steps that do not release the lock. -/
def keepsTest (s : State Unit Nat) : Act Unit Nat → Bool
  | .ResumeScheduler _ => false
  | .advance i => s.client i != .unlocking
  | _ => true

theorem keepsTest_keeps (s : State Unit Nat) (a : Act Unit Nat) (h : keepsTest s a = true) :
    ¬ s.Releases a := by
  intro hr
  cases a with
  | ResumeScheduler i => cases h
  | advance i =>
      have hr' : s.client i = .unlocking := hr
      simp [keepsTest, hr'] at h
  | _ => exact hr

/-- A task is accepted while the scheduler is suspended and accepts tasks again. -/
def enabledRun : List (Act Unit Nat) :=
  [.advance (), .EnableScheduleTask (), .ScheduleTask () 7, .advance (), .testLoop]

theorem enabledRun_suspended : ∃ r s u : State Unit Nat,
    schedulerStep r (.advance ()) = some s ∧ (schedulerSystem Unit Nat).run s enabledRun = some u ∧
      u.sched.mTaskQueue.length = 1 ∧ SuspendedAt u ∧ u.sched.started = s.sched.started := by
  have hfirst : ((schedulerSystem Unit Nat).run {} [.StartScheduler, .SuspendScheduler ()]).map
      (fun r => (r.client (), (schedulerStep r (.advance ())).map fun s =>
        ((schedulerSystem Unit Nat).checkRun keepsTest s enabledRun,
          ((schedulerSystem Unit Nat).run s enabledRun).map fun u => u.sched.mTaskQueue.length))) =
      some (.suspending false, some (true, some 1)) := by
    decide
  rcases Option.map_eq_some_iff.mp hfirst with ⟨r, hr, hparts⟩
  rcases Prod.mk.inj hparts with ⟨hcall, hnext⟩
  rcases Option.map_eq_some_iff.mp hnext with ⟨s, hs, hrest⟩
  rcases Prod.mk.inj hrest with ⟨hcheck, hlast⟩
  rcases Option.map_eq_some_iff.mp hlast with ⟨u, hu, hqueue⟩
  have hinit : (schedulerSystem Unit Nat).init {} := rfl
  exact ⟨r, s, u, hs, hu, hqueue, suspended_until_released (System.reachable_of_run hinit hr) hcall
    hs hu (System.runOk_of_checkRun keepsTest_keeps hcheck)⟩

end PlayerInterface.Scheduler
