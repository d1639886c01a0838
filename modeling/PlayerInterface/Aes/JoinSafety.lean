import PlayerInterface.Aes.Threads

/-!
# Joining under the mutex

`SetDecryptInfo` and `Release` join the key thread while they hold `mMutex`,
which the thread needs for its last section. Both wait first, and neither looks
at how its wait ended.
-/

namespace PlayerInterface.Aes

open PlayerInterface.Core

variable {ι : Type}

/-- A caller holds `mMutex` in `join()` and the thread it joins is still before
its own acquisition of `mMutex`. -/
def State.Deadlocked (s : State ι) : Prop :=
  s.joining ≠ none ∧ s.thread.beforeLock = true

/-- No wait before a join ends early, and no `SetDecryptInfo` is called while the
key wait is cancelled and the key still under way. -/
structure JoinsLate (s : State ι) (a : Act ι) : Prop where
  cancelled : ∀ i drmInfo created, a = .SetDecryptInfo i drmInfo created →
    s.dec.mDrmState = .eDRM_KEY_FLUSH → s.thread.beforeLock = false
  waited : ∀ i timedOut created evpOk, a = .wake i timedOut created evpOk →
    (∃ drmInfo, s.caller i = .setWait drmInfo) ∨ s.caller i = .releaseWait →
    s.thread.beforeLock = false

/-- While the key is under way the state says so, unless the wait is cancelled;
then the saved state says so. -/
structure JoinInv (s : State ι) : Prop where
  underWay : s.thread.beforeLock = true → s.dec.mDrmState = .eDRM_ACQUIRING_KEY ∨
    s.dec.mDrmState = .eDRM_KEY_FLUSH ∧ s.dec.mPrevDrmState = .eDRM_ACQUIRING_KEY
  joining : ∀ i err, s.joining = some (i, .SetDecryptInfo err) →
    s.dec.mDrmState = .eDRM_ACQUIRING_KEY
  notDeadlocked : ¬ s.Deadlocked

/-- A thread that is past its lock needs no state. -/
theorem JoinInv.late {s : State ι} (h : s.thread.beforeLock = false)
    (hjoin : ∀ i err, s.joining = some (i, .SetDecryptInfo err) →
      s.dec.mDrmState = .eDRM_ACQUIRING_KEY) : JoinInv s where
  underWay hb := by
    rw [h] at hb
    cases hb
  joining := hjoin
  notDeadlocked hd := by
    have hb := hd.2
    rw [h] at hb
    cases hb

/-- With the mutex free there is no deadlock. -/
theorem JoinInv.free {s : State ι} (hfree : s.joining = none)
    (h : s.thread.beforeLock = true → s.dec.mDrmState = .eDRM_ACQUIRING_KEY ∨
      s.dec.mDrmState = .eDRM_KEY_FLUSH ∧ s.dec.mPrevDrmState = .eDRM_ACQUIRING_KEY) :
    JoinInv s where
  underWay := h
  joining i err hj := by
    rw [hfree] at hj
    cases hj
  notDeadlocked hd := hd.1 hfree

/-- `Release` does not skip its wait while the key is under way. -/
theorem JoinInv.release_late {s : State ι} (h : JoinInv s) (hw : s.dec.releaseWaits = false) :
    s.thread.beforeLock = false := by
  cases hb : s.thread.beforeLock with
  | false => rfl
  | true =>
      rcases h.underWay hb with hs | ⟨hs, hp⟩
      · simp [AesDec.releaseWaits, hs] at hw
      · simp [AesDec.releaseWaits, hs, hp] at hw

variable [DecidableEq ι]

theorem createThread_joinInv {s : State ι} (hfree : s.joining = none)
    (hlate : s.thread.beforeLock = false) (hacq : s.dec.mDrmState = .eDRM_ACQUIRING_KEY) (i : ι)
    (err : DrmReturn) (created : Bool) : JoinInv (s.createThread i err created) := by
  apply JoinInv.free
  · exact hfree
  · intro hb
    cases created with
    | true => exact Or.inl hacq
    | false =>
        have hb' : s.thread.beforeLock = true := hb
        rw [hlate] at hb'
        cases hb'

theorem setInfo_joinInv {s : State ι} (hfree : s.joining = none)
    (hlate : s.thread.beforeLock = false) (i : ι) (drmInfo : DrmInfo) (err : DrmReturn)
    (created : Bool) : JoinInv (s.setInfo i drmInfo err created) := by
  unfold State.setInfo
  split
  · apply JoinInv.late
    · exact hlate
    · intro j err' hj
      rw [State.setCaller_joining, hfree] at hj
      cases hj
  · split
    · exact .late hlate fun _ _ _ => rfl
    · apply createThread_joinInv
      · exact hfree
      · exact hlate
      · rfl

theorem release_joinInv {s : State ι} (hfree : s.joining = none)
    (hlate : s.thread.beforeLock = false) (i : ι) : JoinInv (s.release i) := by
  unfold State.release
  split
  · apply JoinInv.late
    · exact hlate
    · intro j err hj
      cases hj
  · apply JoinInv.late
    · exact hlate
    · intro j err hj
      rw [State.setCaller_joining, hfree] at hj
      cases hj

theorem joinInv_step {s t : State ι} {a : Act ι} (h : JoinInv s) (hk : JoinsLate s a)
    (hstep : aesStep s a = some t) : JoinInv t := by
  cases aesStep_cases hstep with
  | calls i c hfree => exact .free hfree h.underWay
  | setInfo i drmInfo err created hfree hcall =>
      have hlate : s.thread.beforeLock = false := by
        rcases hcall with ⟨-, ha, hstate⟩ | ⟨hc, timedOut, evpOk, ha⟩
        · cases hb : s.thread.beforeLock with
          | false => rfl
          | true =>
              rcases h.underWay hb with hacq | ⟨hflush, -⟩
              · exact absurd hacq hstate
              · exact hb.symm.trans (hk.cancelled i drmInfo created ha hflush)
        · exact hk.waited i timedOut created evpOk ha (Or.inl ⟨drmInfo, hc⟩)
      exact setInfo_joinInv hfree hlate i drmInfo err created
  | release i hfree hcall =>
      have hlate : s.thread.beforeLock = false := by
        rcases hcall with ⟨-, hw⟩ | ⟨hc, timedOut, created, evpOk, ha⟩
        · exact h.release_late hw
        · exact hk.waited i timedOut created evpOk ha (Or.inr hc)
      exact release_joinInv hfree hlate i
  | CancelKeyWait i hfree =>
      apply JoinInv.free
      · exact hfree
      intro hb
      rcases h.underWay hb with hacq | ⟨hflush, hprev⟩
      · exact Or.inr ⟨rfl, by simp [AesDec.CancelKeyWait, hacq]⟩
      · exact Or.inr ⟨rfl, by simp [AesDec.CancelKeyWait, hflush, hprev]⟩
  | RestoreKeyState i hfree =>
      apply JoinInv.free
      · exact hfree
      intro hb
      rcases h.underWay hb with hacq | ⟨hflush, hprev⟩
      · exact Or.inl (by simp [AesDec.RestoreKeyState, hacq])
      · exact Or.inl (by simp [AesDec.RestoreKeyState, hflush, hprev])
  | signal hfree _ =>
      apply JoinInv.late rfl
      intro i err hj
      rw [hfree] at hj
      cases hj
  | resolve ht _ =>
      have hb : s.thread.beforeLock = true := by
        rw [ht]
        rfl
      exact ⟨fun _ => h.underWay hb, h.joining, fun hd => h.notDeadlocked ⟨hd.1, hb⟩⟩
  | fetch ht =>
      have hb : s.thread.beforeLock = true := by
        rw [ht]
        rfl
      exact ⟨fun _ => h.underWay hb, h.joining, fun hd => h.notDeadlocked ⟨hd.1, hb⟩⟩
  | @recreated i err created hj hb =>
      apply createThread_joinInv
      · rfl
      · exact hb
      · exact h.joining i err hj
  | released hj hb =>
      apply JoinInv.late
      · exact hb
      · intro i err hj'
        cases hj'

/-- In every run whose waits before a join last until the key thread has signalled,
no caller deadlocks with the key thread. -/
theorem notDeadlocked_of_joinsLate {s : State ι} (h : (aesSystem ι).Reaches JoinsLate s) :
    ¬ s.Deadlocked := by
  have hinv : JoinInv s := by
    refine h.invariant (fun s hs => ?_) (fun _ _ _ hi hk hstep => joinInv_step hi hk hstep)
    rcases hs with rfl
    apply JoinInv.late rfl
    intro i err hj
    cases hj
  exact hinv.notDeadlocked

/-- The second key is asked for once the first has been signalled. -/
def joinRun : List (Act Unit) :=
  [.SetDecryptInfo () {} true, .resolve, .fetch true, .signal, .SetDecryptInfo () {} true]

/-- A test that implies `JoinsLate`. -/
def joinsLateTest (s : State Unit) : Act Unit → Bool
  | .SetDecryptInfo _ _ _ => s.dec.mDrmState != .eDRM_KEY_FLUSH
  | .wake _ _ _ _ => !s.thread.beforeLock
  | _ => true

theorem joinsLate_of_test (s : State Unit) (a : Act Unit) (h : joinsLateTest s a = true) :
    JoinsLate s a where
  cancelled i drmInfo created ha hflush := by
    rw [ha] at h
    simp [joinsLateTest, hflush] at h
  waited i timedOut created evpOk ha _ := by
    rw [ha] at h
    simpa [joinsLateTest] using h

theorem joinRun_notDeadlocked : ∃ s : State Unit, (aesSystem Unit).run {} joinRun = some s ∧
    s.joining ≠ none ∧ ¬ s.Deadlocked := by
  have hinit : (aesSystem Unit).init {} := rfl
  have hok : (aesSystem Unit).RunOk JoinsLate {} joinRun :=
    System.runOk_of_checkRun joinsLate_of_test (by decide)
  refine ⟨_, rfl, ?_, notDeadlocked_of_joinsLate (System.Reaches.run (.init hinit) hok rfl)⟩
  exact Option.some_ne_none _

/-- The caller waits for the key under way and the wait times out. -/
def timedOutRun : List (Act Unit) :=
  [.SetDecryptInfo () {} true, .SetDecryptInfo () {} true, .wake () true true true]

theorem timedOut_deadlocked : ¬ ∀ s : State Unit, (aesSystem Unit).Reachable s → ¬ s.Deadlocked := by
  intro hall
  have hrun : ((aesSystem Unit).run {} timedOutRun).map
      (fun s => (s.joining.isSome, s.thread.beforeLock)) = some (true, true) := by
    decide
  rcases Option.map_eq_some_iff.mp hrun with ⟨s, hs, hpair⟩
  rcases Prod.mk.inj hpair with ⟨hjoin, hbefore⟩
  have hinit : (aesSystem Unit).init {} := rfl
  apply hall s (System.reachable_of_run hinit hs)
  exact ⟨Option.isSome_iff_ne_none.mp hjoin, hbefore⟩

end PlayerInterface.Aes
