import PlayerInterface.Player.CallbackTaskRecord

/-!
# Runs that keep the record of the callbacks

One lemma for each point of a thread and of a callback, and from them that nothing
stale is left when nothing is in progress.
-/

namespace PlayerInterface.Player

open PlayerInterface.Core PlayerInterface.Scheduler

namespace CallbackState

section Threads

variable {ρ : Type} [DecidableEq ρ] {s t : CallbackState ρ} {c d : CallbackTask} {p : ρ}

/-! ### The scheduler -/

/-- The task is refused, or it is the only one of its callback until its id is stored. -/
theorem inv_scheduleTask (h : s.Inv) (hp : s.calls p = .scheduleTask c)
    (hok : s.KeepsRecord (.advance p)) :
    Inv { s.goto p (.storeId c (s.ScheduleTask c.function).1) with
      sched := (s.ScheduleTask c.function).2 } := by
  simp only [KeepsRecord, hp] at hok
  have hclears : ∀ id d, (CallPoint.scheduleTask c).clearsPending d = true →
      (CallPoint.storeId c id).clearsPending d = true := by
    intro id d
    cases c <;> cases d <;> exact fun h => h
  have hrefused : (s.goto p (.storeId c 0)).Inv := by
    have hm : Moves s (s.goto p (.storeId c 0)) p (.scheduleTask c) (.storeId c 0) :=
      ⟨hp, rfl, rfl, rfl⟩
    apply inv_same h hm rfl
    · exact fun d id heq => by cases heq
    · exact fun d hno => by cases hno
    · exact fun d _ => hclears 0 d
  have hsched := ScheduleTask_schedules h.queue c.function
  by_cases haccepts : s.sched.mSchedulerRunning = true ∧ s.sched.mLockOut = false
  · have hnone := hok haccepts.1 haccepts.2
    generalize s.ScheduleTask c.function = r at hsched
    cases hsched with
    | refused => exact hrefused
    | appended obj p' htask hqueue hcur hinv =>
        constructor
        · exact hinv
        · intro d
          have hkind : obj.mTask.task = some c := by
            rw [htask]
            exact CallbackTask.function_task c
          have happend := queued_append (t := { s.goto p (.storeId c obj.mId) with sched := p' })
            hqueue d
          by_cases hd : d = c
          · subst hd
            rw [if_pos hkind, hnone, List.nil_append] at happend
            constructor
            · rw [happend]
              exact Nat.le_refl 1
            · intro o ho
              rw [happend, List.mem_singleton] at ho
              subst ho
              exact .inr ⟨p, Function.update_self _ _ _⟩
            · intro hne
              rcases (h.task d).id hne with ⟨o, ho, _⟩ | hworker | hcalls
              · rw [hnone] at ho
                cases ho
              · exact .inr (.inl hworker)
              · rcases hcalls with ⟨q, hq⟩
                refine .inr (.inr ⟨q, ?_⟩)
                have hqp : q ≠ p := by
                  intro heq
                  subst heq
                  rw [hp] at hq
                  cases hq
                show (Function.update s.calls p _ q).clearsId d = true
                rw [Function.update_of_ne hqp]
                exact hq
            · intro _
              exact .inl (by rw [happend]; exact List.cons_ne_nil _ _)
          · have hother : ¬ obj.mTask.task = some d := fun heq =>
              hd (Option.some.inj (heq.symm.trans hkind))
            rw [if_neg hother, List.append_nil] at happend
            apply (h.task d).goes_same ⟨happend, rfl, rfl⟩ rfl
            · exact fun id heq => by cases hp.symm.trans heq
            · rw [hp]
              exact fun hno => by cases hno
            · rw [hp]
              exact fun _ => hclears obj.mId d
  · rw [ScheduleTask_refused s c.function haccepts]
    exact hrefused

/-- `RemoveTask` takes out a task of the callback at most, which the thread clears next. -/
theorem inv_removeTask {r : Remover} {id : Nat} (h : s.Inv)
    (hp : s.calls p = .removeTask r c id) (hok : s.KeepsRecord (.advance p)) :
    Inv { s.goto p (.clearFirst r c) with sched := (s.sched.RemoveTask id).2 } := by
  simp only [KeepsRecord, hp] at hok
  have hself : ∀ P : CallPoint → Prop, P (.clearFirst r c) →
      ∃ q, P (Function.update s.calls p (.clearFirst r c) q) := by
    intro P hP
    refine ⟨p, ?_⟩
    rw [Function.update_self]
    exact hP
  constructor
  · exact h.queue.removeTask id
  · intro d
    have hsub : (queued { s.goto p (.clearFirst r c) with
        sched := (s.sched.RemoveTask id).2 } d).Sublist (s.queued d) :=
      (RemoveTask_sublist s.sched id).filter _
    by_cases hd : d = c
    · subst hd
      constructor
      · exact Nat.le_trans hsub.length_le (h.task d).once
      · intro obj hobj
        rcases (h.task d).stored obj (hsub.subset hobj) with heq | ⟨q, hq⟩
        · exact .inl heq
        · refine .inr ⟨q, ?_⟩
          have hqp : q ≠ p := by
            intro heq
            subst heq
            cases hp.symm.trans hq
          exact (Function.update_of_ne hqp _ _).trans hq
      · exact fun _ => .inr (.inr (hself (fun x => x.clearsId d = true) (by simp [CallPoint.clearsId])))
      · exact fun _ =>
          .inr (.inr (hself (fun x => x.clearsPending d = true) (by simp [CallPoint.clearsPending])))
    · have hkeep : queued { s.goto p (.clearFirst r c) with
          sched := (s.sched.RemoveTask id).2 } d = s.queued d := by
        apply RemoveTask_filter
        intro obj hobj hid
        rw [hok obj hobj hid]
        exact decide_eq_false fun heq => hd (Option.some.inj heq).symm
      apply (h.task d).goes_same ⟨hkeep, rfl, rfl⟩ rfl
      · exact fun id heq => by cases hp.symm.trans heq
      · rw [hp]
        exact fun hclears => absurd (of_decide_eq_true hclears).symm hd
      · rw [hp]
        exact fun _ hclears => absurd (of_decide_eq_true hclears).symm hd

/-! ### A step of a thread -/

/-- `Flush` and `Stop` are done with the task. -/
theorem removed_moves (s : CallbackState ρ) (p : ρ) (r : Remover) (c : CallbackTask) :
    ∃ point, Moves s (s.removed p r c) p (s.calls p) point ∧ (s.removed p r c).data = s.data := by
  cases r with
  | Flush => exact ⟨_, ⟨rfl, rfl, rfl, rfl⟩, rfl⟩
  | Stop =>
      cases c with
      | eosCallback => exact ⟨_, ⟨rfl, rfl, rfl, rfl⟩, rfl⟩
      | firstFrameCallback => exact ⟨_, ⟨rfl, rfl, rfl, rfl⟩, rfl⟩

/-- The first clearing write. -/
theorem inv_clearFirst {r : Remover} (h : s.Inv) (hp : s.calls p = .clearFirst r c)
    (hok : s.KeepsRecord (.advance p)) (hstep : s.callStep p = some t) : t.Inv := by
  simp only [KeepsRecord, hp] at hok
  unfold callStep at hstep
  simp only [hp] at hstep
  cases r with
  | Flush =>
      cases hstep
      refine inv_clearId h ⟨hp, rfl, rfl, rfl⟩ rfl hok ?_ ?_ fun _ hclears => hclears
      · exact fun _ _ heq => by cases heq
      · exact fun d hd hclears => absurd (of_decide_eq_true hclears).symm hd
  | Stop =>
      cases hstep
      refine inv_clearPending h ⟨hp, rfl, rfl, rfl⟩ rfl ?_ (fun _ hclears => hclears) ?_
      · exact fun _ _ heq => by cases heq
      · exact fun d hd hclears => absurd (of_decide_eq_true hclears).symm hd

/-- The second clearing write. -/
theorem inv_clearSecond {r : Remover} (h : s.Inv) (hp : s.calls p = .clearSecond r c)
    (hok : s.KeepsRecord (.advance p)) (hstep : s.callStep p = some t) : t.Inv := by
  simp only [KeepsRecord, hp] at hok
  unfold callStep at hstep
  simp only [hp] at hstep
  cases r with
  | Flush =>
      cases hstep
      rcases removed_moves (s.setPending c false) p .Flush c with ⟨point, hm, hdata⟩
      refine inv_clearPending h ⟨hp, hm.sched, hm.worker, hm.calls⟩ hdata ?_ ?_ ?_
      · exact fun _ _ heq => by cases heq
      · exact fun _ hno => by cases hno
      · exact fun d hd hclears => absurd (of_decide_eq_true hclears).symm hd
  | Stop =>
      cases hstep
      rcases removed_moves (s.setId c 0) p .Stop c with ⟨point, hm, hdata⟩
      refine inv_clearId h ⟨hp, hm.sched, hm.worker, hm.calls⟩ hdata hok ?_ ?_ ?_
      · exact fun _ _ heq => by cases heq
      · exact fun d hd hclears => absurd (of_decide_eq_true hclears).symm hd
      · exact fun _ hno => by cases hno

/-- What the thread does with the id it reads back. -/
theorem inv_testStored (h : s.Inv) (hp : s.calls p = .testStored c)
    (hok : s.KeepsRecord (.advance p)) :
    (s.goto p (afterStore (s.data c).IdleTaskId c)).Inv := by
  simp only [KeepsRecord, hp] at hok
  cases c with
  | firstFrameCallback =>
      exact inv_silent h ⟨hp, rfl, rfl, rfl⟩ rfl .testStored
  | eosCallback =>
      by_cases hid : (s.data .eosCallback).IdleTaskId = PLAYER_TASK_ID_INVALID
      · have hnext : afterStore (s.data .eosCallback).IdleTaskId .eosCallback = .testEosRefused :=
          if_pos hid
        rw [hnext]
        refine inv_same h ⟨hp, rfl, rfl, rfl⟩ rfl ?_ ?_ ?_
        · exact fun _ _ heq => by cases heq
        · exact fun _ hno => by cases hno
        · intro d _ hclears
          cases d with
          | eosCallback => rfl
          | firstFrameCallback => cases hclears
      · have hnext : afterStore (s.data .eosCallback).IdleTaskId .eosCallback = .idle :=
          if_neg hid
        rw [hnext]
        refine ⟨h.queue, fun d => ?_⟩
        have hgo : Goes s (s.goto p .idle) p .idle d := ⟨rfl, rfl, rfl⟩
        apply (h.task d).goes hgo
        · intro obj _ hobj
          exact hobj.resolve_right fun heq => by cases hp.symm.trans heq
        · refine fun hne => hgo.idAlive ((h.task d).id hne) fun hclears => ?_
          rw [hp] at hclears
          cases hclears
        · intro hset
          cases d with
          | eosCallback => exact hok hid hset
          | firstFrameCallback =>
              refine hgo.pendingAlive ((h.task _).pending hset) fun hclears => ?_
              rw [hp] at hclears
              cases hclears

theorem inv_callStep (h : s.Inv) (hok : s.KeepsRecord (.advance p))
    (hstep : s.callStep p = some t) : t.Inv := by
  cases hp : s.calls p with
  | clearFirst r c => exact inv_clearFirst h hp hok hstep
  | clearSecond r c => exact inv_clearSecond h hp hok hstep
  | idle =>
      simp only [callStep, hp] at hstep
      cases hstep
  | testEosSignalled =>
      simp only [callStep, hp] at hstep
      cases hstep
      exact inv_silent h ⟨hp, rfl, rfl, rfl⟩ rfl .testEosSignalled
  | testEosPending =>
      simp only [callStep, hp] at hstep
      cases hstep
      exact inv_silent h ⟨hp, rfl, rfl, rfl⟩ rfl .testEosPending
  | setEosPending =>
      simp only [callStep, hp] at hstep
      cases hstep
      refine inv_setPending h ⟨hp, rfl, rfl, rfl⟩ rfl (.inr (.inr ⟨p, ?_⟩)) .setEosPending
      show CallPoint.clearsPending (Function.update s.calls p .setEosSignalled p) _ = true
      rw [Function.update_self]
      rfl
  | setEosSignalled =>
      simp only [callStep, hp] at hstep
      cases hstep
      exact inv_same h ⟨hp, rfl, rfl, rfl⟩ rfl (fun _ _ heq => by cases heq)
        (fun _ hno => by cases hno) fun d _ hclears => by cases d <;> exact hclears
  | testNotified =>
      simp only [callStep, hp] at hstep
      cases hstep
      exact inv_silent h ⟨hp, rfl, rfl, rfl⟩ rfl .testNotified
  | setNotified =>
      simp only [callStep, hp] at hstep
      cases hstep
      exact inv_same h ⟨hp, rfl, rfl, rfl⟩ rfl (fun _ _ heq => by cases heq)
        (fun _ hno => by cases hno) fun d _ hclears => by cases d <;> exact hclears
  | clearFramePending =>
      simp only [callStep, hp] at hstep
      cases hstep
      refine inv_clearPending h ⟨hp, rfl, rfl, rfl⟩ rfl (fun _ _ heq => by cases heq)
        (fun _ hno => by cases hno) fun d hd hclears => ?_
      cases d with
      | eosCallback => cases hclears
      | firstFrameCallback => exact absurd rfl hd
  | scheduleTask c =>
      simp only [callStep, hp] at hstep
      cases hstep
      exact inv_scheduleTask h hp hok
  | storeId c id =>
      simp only [callStep, hp] at hstep
      cases hstep
      exact inv_storeId h hp hok
  | testStored c =>
      simp only [callStep, hp] at hstep
      cases hstep
      exact inv_testStored h hp hok
  | testEosRefused =>
      simp only [callStep, hp] at hstep
      cases hstep
      refine inv_same h ⟨hp, rfl, rfl, rfl⟩ rfl (fun _ _ heq => by cases heq)
        (fun _ hno => by cases hno) fun d hset hclears => ?_
      cases d with
      | eosCallback => rw [if_pos hset]; rfl
      | firstFrameCallback => cases hclears
  | clearEosPending =>
      simp only [callStep, hp] at hstep
      cases hstep
      refine inv_clearPending h ⟨hp, rfl, rfl, rfl⟩ rfl (fun _ _ heq => by cases heq)
        (fun _ hno => by cases hno) fun d hd hclears => ?_
      cases d with
      | eosCallback => exact absurd rfl hd
      | firstFrameCallback => cases hclears
  | setFramePending =>
      simp only [KeepsRecord, hp] at hok
      simp only [callStep, hp] at hstep
      cases hstep
      have hgo : Goes s ((s.setPending .firstFrameCallback true).goto p .idle) p .idle
          .firstFrameCallback := ⟨rfl, rfl, rfl⟩
      refine inv_setPending h ⟨hp, rfl, rfl, rfl⟩ rfl (hgo.pendingAlive hok fun hno => ?_) .setFramePending
      rw [hp] at hno
      cases hno
  | testRemove r c =>
      simp only [callStep, hp] at hstep
      cases hstep
      split
      · exact inv_silent h ⟨hp, rfl, rfl, rfl⟩ rfl (.testRemove r c)
      · rcases removed_moves s p r c with ⟨point, hm, hdata⟩
        exact inv_silent h ⟨hp, hm.sched, hm.worker, hm.calls⟩ hdata (.testRemove r c)
  | readId r c =>
      simp only [callStep, hp] at hstep
      cases hstep
      exact inv_same h ⟨hp, rfl, rfl, rfl⟩ rfl (fun _ _ heq => by cases heq)
        (fun _ hclears => hclears) fun _ _ hclears => hclears
  | removeTask r c id =>
      simp only [callStep, hp] at hstep
      cases hstep
      exact inv_removeTask h hp hok

end Threads

section Worker

variable {ρ : Type} {s t : CallbackState ρ} {c d : CallbackTask}

/-! ### Steps of the worker -/

/-- The worker takes the front of the queue. -/
theorem TaskInv.take {obj : PlayerAsyncTaskObj CallbackFunction}
    {rest : List (PlayerAsyncTaskObj CallbackFunction)} (h : s.TaskInv d)
    (hworker : s.worker = .idle) (hqueue : s.sched.mTaskQueue = obj :: rest)
    (htq : t.sched.mTaskQueue = rest) (htw : t.worker = .running obj .triggerEvent)
    (htd : t.data = s.data) (htc : t.calls = s.calls) : t.TaskInv d := by
  have hs : s.queued d = (if obj.mTask.task = some d then [obj] else []) ++ t.queued d := by
    unfold CallbackState.queued
    rw [hqueue, htq, List.filter_cons]
    by_cases hd : obj.mTask.task = some d <;> simp [hd]
  by_cases hd : obj.mTask.task = some d
  · rw [if_pos hd] at hs
    have honce := h.once
    rw [hs, List.length_append, List.length_singleton] at honce
    have hnil : t.queued d = [] := List.length_eq_zero_iff.mp (by omega)
    constructor
    · rw [hnil]
      exact Nat.zero_le 1
    · intro o ho
      rw [hnil] at ho
      cases ho
    · intro _
      refine .inr (.inl ?_)
      rw [htw]
      exact ⟨hd, .inl rfl⟩
    · intro _
      refine .inr (.inl ?_)
      rw [htw]
      exact ⟨hd, by decide⟩
  · rw [if_neg hd, List.nil_append] at hs
    constructor
    · exact hs ▸ h.once
    · rw [← hs, htd, htc]
      exact h.stored
    · rw [htd]
      intro hne
      rcases h.id hne with hobj | hno | hcalls
      · exact .inl (hs ▸ hobj)
      · rw [hworker] at hno
        exact hno.elim
      · exact .inr (.inr (htc ▸ hcalls))
    · rw [htd]
      intro hset
      rcases h.pending hset with hne | hno | hcalls
      · exact .inl (hs ▸ hne)
      · rw [hworker] at hno
        exact hno.elim
      · exact .inr (.inr (htc ▸ hcalls))

theorem inv_take (h : s.Inv) (hstep : s.take = some t) : t.Inv := by
  unfold CallbackState.take at hstep
  have hinv := h.queue.takeTask
  unfold PlayerScheduler.takeTask at hstep hinv
  cases hworker : s.worker with
  | running obj point =>
      rw [hworker] at hstep
      cases hstep
  | idle =>
      rw [hworker] at hstep
      cases hqueue : s.sched.mTaskQueue with
      | nil =>
          simp only [hqueue] at hstep
          cases hstep
          have hsame : ({ s with worker := .idle } : CallbackState ρ) = s := by rw [← hworker]
          exact hsame ▸ h
      | cons obj rest =>
          have hvalid : obj.mId ≠ PLAYER_TASK_ID_INVALID :=
            h.queue.queued_valid (hqueue ▸ List.mem_cons_self)
          simp only [hqueue, if_pos hvalid] at hstep hinv
          cases hstep
          exact ⟨hinv, fun d => (h.task d).take hworker hqueue rfl rfl rfl rfl⟩

/-- The running task moves on; it may clear the id or the flag of its callback. -/
theorem TaskInv.works (h : s.TaskInv d) (hsched : t.sched = s.sched) (hcalls : t.calls = s.calls)
    (hid : (t.data d).IdleTaskId = (s.data d).IdleTaskId ∧
        (s.worker.clearsId d → t.worker.clearsId d) ∨
      (t.data d).IdleTaskId = 0 ∧ s.KeepsId d 0)
    (hpending : (t.data d).IdleTaskPending = true → (s.data d).IdleTaskPending = true ∧
      (s.worker.clearsPending d → t.worker.clearsPending d)) : t.TaskInv d := by
  have hqueued : t.queued d = s.queued d := by
    unfold CallbackState.queued
    rw [hsched]
  constructor
  · exact hqueued ▸ h.once
  · intro obj hobj
    rw [hqueued] at hobj
    rcases h.stored obj hobj with heq | hstore
    · rcases hid with ⟨hsame, _⟩ | ⟨hzero, hkeep⟩
      · exact .inl (hsame.trans heq)
      · exact .inl (hzero.trans (hkeep obj hobj heq))
    · exact .inr (hcalls ▸ hstore)
  · intro hne
    rcases hid with ⟨hsame, hworker⟩ | ⟨hzero, _⟩
    · rw [hsame] at hne ⊢
      rcases h.id hne with hobj | hclears | hothers
      · exact .inl (hqueued ▸ hobj)
      · exact .inr (.inl (hworker hclears))
      · exact .inr (.inr (hcalls ▸ hothers))
    · exact absurd hzero hne
  · intro hset
    rcases hpending hset with ⟨hbefore, hworker⟩
    rcases h.pending hbefore with hne | hclears | hothers
    · exact .inl (hqueued ▸ hne)
    · exact .inr (.inl (hworker hclears))
    · exact .inr (.inr (hcalls ▸ hothers))

theorem inv_callback [DecidableEq ρ] (h : s.Inv) (hok : s.KeepsRecord .callback)
    (hstep : s.callbackStep = some t) : t.Inv := by
  unfold callbackStep at hstep
  cases hworker : s.worker with
  | idle =>
      rw [hworker] at hstep
      cases hstep
  | running obj point =>
      simp only [hworker] at hstep
      simp only [KeepsRecord, hworker] at hok
      cases htask : obj.mTask.task with
      | none =>
          simp only [htask] at hstep
          cases hstep
          refine ⟨h.queue, fun d => (h.task d).works rfl rfl (.inl ⟨rfl, ?_⟩) fun hset => ⟨hset, ?_⟩⟩
          · rw [hworker]
            exact fun hno => by cases htask.symm.trans hno.1
          · rw [hworker]
            exact fun hno => by cases htask.symm.trans hno.1
      | some c =>
          simp only [htask] at hstep
          -- one case for each point of the callback
          cases point with
          | triggerEvent =>
              cases hstep
              refine ⟨h.queue, fun d => (h.task d).works rfl rfl (.inl ⟨rfl, ?_⟩) fun hset =>
                ⟨hset, ?_⟩⟩
              · rw [hworker]
                exact fun hclears => ⟨hclears.1, .inr rfl⟩
              · rw [hworker]
                exact fun hclears => ⟨hclears.1, by decide⟩
          | clearId =>
              cases hstep
              refine ⟨h.queue, fun d => ?_⟩
              have hpending : ((s.setId c 0).data d).IdleTaskPending =
                  (s.data d).IdleTaskPending := by
                by_cases hd : d = c
                · subst hd
                  rw [setId_self]
                · rw [setId_of_ne 0 hd]
              refine (h.task d).works rfl rfl ?_ ?_
              · by_cases hd : d = c
                · subst hd
                  exact .inr ⟨congrArg CallbackTaskData.IdleTaskId (setId_self 0), hok d htask⟩
                · refine .inl ⟨congrArg CallbackTaskData.IdleTaskId (setId_of_ne 0 hd), ?_⟩
                  rw [hworker]
                  exact fun hno => absurd (Option.some.inj (hno.1.symm.trans htask)) hd
              · intro hset
                refine ⟨hpending.symm.trans hset, ?_⟩
                rw [hworker]
                exact fun hclears => ⟨hclears.1, by decide⟩
          | clearPending =>
              cases hstep
              refine ⟨h.queue, fun d => ?_⟩
              have hid : ((s.setPending c false).data d).IdleTaskId = (s.data d).IdleTaskId := by
                by_cases hd : d = c
                · subst hd
                  rw [setPending_self]
                · rw [setPending_of_ne false hd]
              refine (h.task d).works rfl rfl (.inl ⟨hid, ?_⟩) ?_
              · rw [hworker]
                exact fun hno => by rcases hno.2 with hpoint | hpoint <;> cases hpoint
              · intro hset
                by_cases hd : d = c
                · subst hd
                  exact absurd hset (by simp [setPending_self])
                · refine ⟨(congrArg CallbackTaskData.IdleTaskPending
                    (setPending_of_ne false hd)).symm.trans hset, ?_⟩
                  rw [hworker]
                  exact fun hno => absurd (Option.some.inj (hno.1.symm.trans htask)) hd
          | returned =>
              cases hstep
              refine ⟨h.queue, fun d => (h.task d).works rfl rfl (.inl ⟨rfl, ?_⟩) fun hset =>
                ⟨hset, ?_⟩⟩
              · rw [hworker]
                exact fun hno => by rcases hno.2 with hpoint | hpoint <;> cases hpoint
              · rw [hworker]
                exact fun hno => absurd rfl hno.2

end Worker

section Runs

variable {ρ : Type} {s t : CallbackState ρ}

theorem inv_init : Inv ({} : CallbackState ρ) where
  queue := queueInv_init
  task _ := by
    constructor
    · exact Nat.zero_le 1
    · exact fun _ hno => by cases hno
    · exact fun hne => absurd rfl hne
    · exact fun hno => by cases hno

theorem inv_start [DecidableEq ρ] {p : ρ} {point : CallPoint} (h : s.Inv) (hstep : s.start p point = some t) :
    t.Inv := by
  unfold start at hstep
  split at hstep
  case isFalse => cases hstep
  case isTrue hp =>
      cases hstep
      exact inv_silent h ⟨hp, rfl, rfl, rfl⟩ rfl .idle

/-- A step that changes no queue, no data and no thread. -/
theorem Inv.congr (h : s.Inv) (hqueue : QueueInv t.sched)
    (hq : ∀ c, t.queued c = s.queued c) (hdata : t.data = s.data) (hcalls : t.calls = s.calls)
    (hworker : t.worker = s.worker) : t.Inv where
  queue := hqueue
  task c := by
    have hc := h.task c
    constructor
    · exact (hq c) ▸ hc.once
    · rw [hq c, hdata, hcalls]
      exact hc.stored
    · rw [hdata]
      unfold IdAlive
      rw [hq c, hworker, hcalls]
      exact hc.id
    · rw [hdata]
      unfold PendingAlive
      rw [hq c, hworker, hcalls]
      exact hc.pending

theorem inv_scheduleOther (h : s.Inv) : Inv { s with sched := (s.ScheduleTask .other).2 } := by
  have hsched := ScheduleTask_schedules h.queue .other
  generalize s.ScheduleTask .other = r at hsched
  cases hsched with
  | refused => exact h
  | appended obj p' htask hqueue hcur hinv =>
      refine h.congr hinv (fun c => ?_) rfl rfl rfl
      have happend := queued_append (t := { s with sched := p' }) hqueue c
      rw [happend, htask]
      simp [CallbackFunction.task]

theorem inv_step [DecidableEq ρ] {a : CallbackAct ρ} (h : s.Inv) (hok : s.KeepsRecord a)
    (hstep : s.step a = some t) : t.Inv := by
  cases a with
  | setRunning running =>
      cases hstep
      exact h.congr (h.queue.setRunning running) (fun _ => rfl) rfl rfl rfl
  | setLockOut lockOut =>
      cases hstep
      exact h.congr (h.queue.setLockOut lockOut) (fun _ => rfl) rfl rfl rfl
  | scheduleOther =>
      cases hstep
      exact inv_scheduleOther h
  | resetEosSignalled =>
      cases hstep
      exact h.congr h.queue (fun _ => rfl) rfl rfl rfl
  | resetNotified =>
      cases hstep
      exact h.congr h.queue (fun _ => rfl) rfl rfl rfl
  | NotifyEOS p => exact inv_start h hstep
  | NotifyFirstFrame p => exact inv_start h hstep
  | Flush p => exact inv_start h hstep
  | Stop p =>
      simp only [step] at hstep
      split at hstep
      case isTrue => cases hstep
      case isFalse =>
          rcases Option.map_eq_some_iff.mp hstep with ⟨u, hu, rfl⟩
          have hinv := inv_start h hu
          exact hinv.congr hinv.queue (fun _ => rfl) rfl rfl rfl
  | advance p => exact inv_callStep h hok hstep
  | take => exact inv_take h hstep
  | callback => exact inv_callback h hok hstep

end Runs

end CallbackState

open CallbackState

/-- In a run whose writes and calls of the scheduler keep the record, the ids and the
flags of both callbacks are those of queued tasks whenever nothing is in progress. -/
theorem taskRecorded_of_reaches {ρ : Type} [DecidableEq ρ] {s : CallbackState ρ}
    (h : (callbackSystem ρ).Reaches KeepsRecord s) (hq : s.Quiescent) (c : CallbackTask) :
    s.TaskRecorded c := by
  have hinv : s.Inv := by
    apply h.invariant
    · intro s hs
      rw [hs]
      exact inv_init
    · exact fun s a t hs hok hstep => inv_step hs hok hstep
  exact hinv.taskRecorded hq c

/-- The tasks a step meets, tested on the queue as a whole. -/
def plainlyKeepsRecord {ρ : Type} [DecidableEq ρ] (s : CallbackState ρ) : CallbackAct ρ → Bool
  | .advance p =>
      match s.calls p with
      | .scheduleTask c => (s.queued c).isEmpty
      | .storeId c id =>
          (s.queued c).any (fun obj => obj.mId == id) && (s.queued c).all fun obj => obj.mId == id
      | .testStored .eosCallback => !(s.queued .eosCallback).isEmpty
      | .setFramePending => !(s.queued .firstFrameCallback).isEmpty
      | .removeTask _ c _ => s.sched.mTaskQueue.all fun obj => obj.mTask.task = some c
      | .clearFirst .Flush c | .clearSecond .Stop c => (s.queued c).isEmpty
      | _ => true
  | .callback =>
      (s.queued .eosCallback).isEmpty && (s.queued .firstFrameCallback).isEmpty
  | _ => true

theorem keepsId_of_isEmpty {ρ : Type} {s : CallbackState ρ} {c : CallbackTask}
    (h : (s.queued c).isEmpty = true) (id : Nat) : s.KeepsId c id := by
  intro obj hobj
  rw [List.isEmpty_iff.mp h] at hobj
  cases hobj

theorem keepsRecord_of_plainly {ρ : Type} [DecidableEq ρ] (s : CallbackState ρ)
    (a : CallbackAct ρ) (h : plainlyKeepsRecord s a = true) : s.KeepsRecord a := by
  cases a with
  | advance p =>
      unfold KeepsRecord
      unfold plainlyKeepsRecord at h
      cases hp : s.calls p with
      | scheduleTask c =>
          simp only [hp] at h ⊢
          exact fun _ _ => List.isEmpty_iff.mp h
      | storeId c id =>
          simp only [hp, Bool.and_eq_true, List.any_eq_true, List.all_eq_true, beq_iff_eq] at h ⊢
          exact ⟨fun obj hobj _ => (h.2 obj hobj).symm, fun _ => .inl h.1⟩
      | testStored c =>
          cases c with
          | eosCallback =>
              simp only [hp] at h ⊢
              have hsome : s.queued .eosCallback ≠ [] := by simpa using h
              exact fun _ _ => .inl hsome
          | firstFrameCallback => simp only [hp]
      | setFramePending =>
          simp only [hp] at h ⊢
          have hsome : s.queued .firstFrameCallback ≠ [] := by simpa using h
          exact .inl hsome
      | removeTask r c id =>
          simp only [hp, List.all_eq_true, decide_eq_true_eq] at h ⊢
          exact fun obj hobj _ => h obj hobj
      | clearFirst r c =>
          cases r with
          | Flush =>
              simp only [hp] at h ⊢
              exact keepsId_of_isEmpty h _
          | Stop => simp only [hp]
      | clearSecond r c =>
          cases r with
          | Flush => simp only [hp]
          | Stop =>
              simp only [hp] at h ⊢
              exact keepsId_of_isEmpty h _
      | _ => simp only [hp]
  | callback =>
      simp only [plainlyKeepsRecord, Bool.and_eq_true] at h
      have hkeeps : ∀ c id, s.KeepsId c id := fun c id => by
        cases c with
        | eosCallback => exact keepsId_of_isEmpty h.1 id
        | firstFrameCallback => exact keepsId_of_isEmpty h.2 id
      unfold KeepsRecord
      dsimp only
      split
      · exact fun c _ => hkeeps c _
      · trivial
  | _ => trivial

/-- Both notifications are scheduled, one is delivered and the other one withdrawn. -/
def deliverThenStop : List (CallbackAct Unit) :=
  [.setRunning true, .NotifyEOS (), .advance (), .advance (), .advance (), .advance (),
    .advance (), .advance (), .advance (), .take, .callback, .callback, .callback, .callback,
    .NotifyFirstFrame (), .advance (), .advance (), .advance (), .advance (), .advance (),
    .advance (), .advance (), .Stop (), .advance (), .advance (), .advance (), .advance (),
    .advance (), .advance ()]

theorem deliverThenStop_recorded :
    ∃ s : CallbackState Unit, (callbackSystem Unit).run {} deliverThenStop = some s ∧
      ∀ c, s.TaskRecorded c := by
  have hend : ∃ s, (callbackSystem Unit).run {} deliverThenStop = some s ∧
      s.worker = .idle ∧ s.calls () = .idle := ⟨_, rfl, rfl, rfl⟩
  rcases hend with ⟨s, hrun, hworker, hcalls⟩
  have hok : (callbackSystem Unit).RunOk KeepsRecord {} deliverThenStop :=
    System.runOk_of_checkRun keepsRecord_of_plainly (by decide)
  have hreached : (callbackSystem Unit).Reaches KeepsRecord s :=
    System.Reaches.run (.init rfl) hok hrun
  exact ⟨s, hrun, taskRecorded_of_reaches hreached ⟨hworker, fun _ => hcalls⟩⟩

/-- The worker runs a task before its id is stored. -/
def deliverBeforeStore : List (CallbackAct Unit) :=
  [.setRunning true, .NotifyFirstFrame (), .advance (), .advance (), .advance (), .advance (),
    .take, .callback, .callback, .callback, .callback, .advance (), .advance (), .advance ()]

/-- The first-frame flag is set after the one callback that would clear it. -/
theorem deliverBeforeStore_stale :
    ¬ ∀ s : CallbackState Unit, (callbackSystem Unit).Reachable s → s.Quiescent →
      ∀ c, s.TaskRecorded c := by
  intro hclaim
  have hend : ∃ s, (callbackSystem Unit).run {} deliverBeforeStore = some s ∧
      s.worker = .idle ∧ s.calls () = .idle ∧ s.queued .firstFrameCallback = [] ∧
        s.data .firstFrameCallback = ⟨1, true⟩ := ⟨_, rfl, rfl, rfl, rfl, rfl⟩
  rcases hend with ⟨s, hrun, hworker, hcalls, hnone, hdata⟩
  have hrecorded := hclaim s (System.reachable_of_run rfl hrun) ⟨hworker, fun _ => hcalls⟩
    .firstFrameCallback
  have hpending := (hrecorded.unqueued hnone).1
  rw [hdata] at hpending
  cases hpending

end PlayerInterface.Player
