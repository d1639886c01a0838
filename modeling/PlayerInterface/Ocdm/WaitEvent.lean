import PlayerInterface.Core.Locks
import PlayerInterface.Ocdm.SessionAdapter

/-!
# Signals and waits of an event

`wait` tests the flag once and takes whatever ends its sleep for a signal, unless the status says
that the time is over. It clears the flag on its way out, so the flag always tells whether a signal
has come since the last return; the status need not agree with it.
-/

namespace PlayerInterface.Ocdm

open PlayerInterface.Core

inductive CvStatus where
  | no_timeout
  | timeout
deriving DecidableEq, Repr

/-- What ends the sleep on a condition variable. -/
inductive WakeUp where
  | notified
  | spurious
  | expired
deriving DecidableEq, Repr

/-- The waiting thread holds the mutex while it tests and from the end of its sleep to its return.
No sleep is behind it when it has found the flag set. -/
inductive WaitPc where
  | outside
  | testing (waitTime : UInt32)
  | blocked (waitTime : UInt32)
  | woken (waitTime : UInt32) (cause : WakeUp)
  | returning (slept : Option (WakeUp × CvStatus))
deriving DecidableEq, Repr

/-- A thread in `signal` holds the mutex. -/
inductive SignalPc where
  | outside
  | setting
  | notifying
  | unlocking
deriving DecidableEq, Repr

inductive EventRecord where
  | signal
  | returned (ret : Bool)
deriving DecidableEq, Repr

/-- The mutex is held by the waiting thread for `some none`. The history is newest first. -/
structure EventState (ι : Type) where
  event : Event := {}
  lock : Option (Option ι) := none
  waiter : WaitPc := .outside
  signallers : ι → SignalPc := fun _ => .outside
  history : List EventRecord := []

/-- Calls and moves of the waiting thread, and the next step of a signalling one. How a sleep ends
and with which status is decided outside. -/
inductive EventAct (ι : Type) where
  | wait (waitTime : UInt32)
  | test
  | wake (cause : WakeUp)
  | relock (status : CvStatus)
  | ret
  | signaller (i : ι)

/-- Statuses a sleep may end with: the time may be over before the mutex is taken again. -/
def WakeUp.statusAllowed (cause : WakeUp) (waitTime : UInt32) : CvStatus → Bool
  | .timeout => waitTime ≠ 0
  | .no_timeout => cause ≠ .expired

/-- The value of `ret`. -/
def retOf : Option (WakeUp × CvStatus) → Bool
  | some (_, .timeout) => false
  | _ => true

namespace EventState

variable {ι : Type}

/-- `notify_all` with the one thread that may sleep. -/
def notify_all (s : EventState ι) : WaitPc :=
  match s.waiter with
  | .blocked waitTime => .woken waitTime .notified
  | pc => pc

/-- `Event::wait`. -/
def waitStep (s : EventState ι) : EventAct ι → Option (EventState ι)
  | .wait waitTime =>
      if s.waiter = .outside ∧ s.lock = none then
        some { s with lock := some none, waiter := .testing waitTime }
      else none
  | .test =>
      match s.waiter with
      | .testing waitTime =>
          if s.event.signalled then some { s with waiter := .returning none }
          else some { s with lock := none, waiter := .blocked waitTime }
      | _ => none
  | .wake cause =>
      match s.waiter with
      | .blocked waitTime =>
          if cause = .spurious ∨ cause = .expired ∧ waitTime ≠ 0 then
            some { s with waiter := .woken waitTime cause }
          else none
      | _ => none
  | .relock status =>
      match s.waiter with
      | .woken waitTime cause =>
          if s.lock = none ∧ cause.statusAllowed waitTime status = true then
            some { s with lock := some none, waiter := .returning (some (cause, status)) }
          else none
      | _ => none
  | .ret =>
      match s.waiter with
      | .returning slept => some
          { s with
            event := s.event.reset
            lock := none
            waiter := .outside
            history := .returned (retOf slept) :: s.history }
      | _ => none
  | .signaller _ => none

variable [DecidableEq ι]

def atSignaller (s : EventState ι) (i : ι) (pc : SignalPc) : EventState ι :=
  { s with signallers := Function.update s.signallers i pc }

/-- `Event::signal`. -/
def signalStep (s : EventState ι) (i : ι) : Option (EventState ι) :=
  match s.signallers i with
  | .outside =>
      if s.lock = none then some ({ s with lock := some (some i) }.atSignaller i .setting) else none
  | .setting => some
      ({ s with event := s.event.signal, history := .signal :: s.history }.atSignaller i .notifying)
  | .notifying => some ({ s with waiter := s.notify_all }.atSignaller i .unlocking)
  | .unlocking => some ({ s with lock := none }.atSignaller i .outside)

def step (s : EventState ι) : EventAct ι → Option (EventState ι)
  | .signaller i => s.signalStep i
  | a => s.waitStep a

end EventState

def eventSystem (ι : Type) [DecidableEq ι] : System (EventState ι) (EventAct ι) where
  init s := s = {}
  step := EventState.step

/-! ## An auto-reset event -/

/-- The signals at the head of a history, behind the last return. -/
def sinceReturn (history : List EventRecord) : List EventRecord :=
  history.takeWhile (· = .signal)

/-- Every wait has returned whether a signal came between the previous return and its own. -/
def AutoReset (history : List EventRecord) : Prop :=
  ∀ later ret earlier, history = later ++ .returned ret :: earlier →
    (ret = true ↔ sinceReturn earlier ≠ [])

/-- A step at which the end of a sleep agrees with the flag: a spurious wake-up has been overtaken by
a signal, and no signal has come where the time is found to be over. -/
def EventState.Careful {ι : Type} (s : EventState ι) : EventAct ι → Prop
  | .ret =>
      match s.waiter with
      | .returning none | .returning (some (.notified, .no_timeout)) => True
      | .returning (some (_, .no_timeout)) => s.event.signalled = true
      | .returning (some (_, .timeout)) => s.event.signalled = false
      | _ => True
  | _ => True

theorem autoReset_cons {record : EventRecord} {history : List EventRecord} :
    AutoReset (record :: history) ↔ AutoReset history ∧
      ∀ ret, record = .returned ret → (ret = true ↔ sinceReturn history ≠ []) := by
  constructor
  · intro h
    constructor
    · intro later ret earlier heq
      exact h (record :: later) ret earlier (by rw [heq, List.cons_append])
    · intro ret heq
      exact h [] ret history (by rw [heq, List.nil_append])
  · intro ⟨hrest, hfirst⟩ later ret earlier heq
    cases later with
    | nil =>
        obtain ⟨hrecord, rfl⟩ := List.cons.inj heq
        exact hfirst ret hrecord
    | cons _ later =>
        obtain ⟨_, htail⟩ := List.cons.inj heq
        exact hrest later ret earlier htail

theorem autoReset_signal {history : List EventRecord} :
    AutoReset (.signal :: history) ↔ AutoReset history := by
  rw [autoReset_cons, and_iff_left]
  intro ret heq
  cases heq

/-! ## What the flag says -/

def WaitPc.inside : WaitPc → Bool
  | testing _ | returning _ => true
  | _ => false

/-- The thread has been woken by `notify_all`, or has found the flag set. -/
def WaitPc.Told : WaitPc → Prop
  | woken _ .notified | returning none | returning (some (.notified, _)) => True
  | _ => False

namespace EventState

variable {ι : Type} {s t : EventState ι} {a : EventAct ι}

/-- The flag tells whether a signal came since the last return, a thread that is told of a signal
finds it set, and one that sleeps while it is set is about to be notified. -/
structure Tracks (s : EventState ι) : Prop where
  flag : s.event.signalled = true ↔ sinceReturn s.history ≠ []
  told : s.waiter.Told → s.event.signalled = true
  noLostSignal : ∀ waitTime, s.waiter = .blocked waitTime → s.event.signalled = true →
    ∃ i, s.signallers i = .notifying
  notifying : ∀ i, s.signallers i = .notifying → s.event.signalled = true
  waiterLock : s.waiter.inside = true → s.lock = some none
  signalLock : ∀ i, s.signallers i ≠ .outside → s.lock = some (some i)

theorem tracks_start : ({} : EventState ι).Tracks where
  flag := by simp [sinceReturn]
  told := fun h => h.elim
  noLostSignal := by
    intro waitTime h
    cases h
  notifying := by
    intro i h
    cases h
  waiterLock := by
    intro h
    cases h
  signalLock := fun i h => absurd rfl h

/-- No thread signals while the mutex is free or with the waiting thread. -/
theorem Tracks.outside (h : s.Tracks) (hlock : s.lock = none ∨ s.lock = some none) (i : ι) :
    s.signallers i = .outside := by
  by_contra hne
  have heq := h.signalLock i hne
  rw [heq] at hlock
  cases hlock with
  | inl hnone => cases hnone
  | inr hwaiter => cases hwaiter

/-! ## The waiting thread -/

/-- A step of the waiting thread that is no return moves it, and the mutex with it. -/
structure WaitMove (s t : EventState ι) (lock : Option (Option ι)) (pc : WaitPc) : Prop where
  next : t = { s with lock := lock, waiter := pc }
  told : pc.Told → s.waiter.Told ∨ s.event.signalled = true
  sleeps : ∀ waitTime, pc = .blocked waitTime → s.event.signalled = false
  keeps : lock = s.lock ∨ s.lock = none ∨ s.waiter.inside = true
  inside : pc.inside = true → lock = some none ∨ lock = s.lock ∧ s.waiter.inside = true

/-- Only a return of the waiting thread touches the flag and the history. -/
theorem waitStep_cases (hstep : s.waitStep a = some t) :
    (∃ slept, a = .ret ∧ s.waiter = .returning slept ∧
      t = { s with
        event := s.event.reset
        lock := none
        waiter := .outside
        history := .returned (retOf slept) :: s.history }) ∨
    a ≠ .ret ∧ ∃ lock pc, WaitMove s t lock pc := by
  cases a with
  | signaller i => cases hstep
  | wait waitTime =>
      right
      simp only [waitStep] at hstep
      split at hstep <;> cases hstep
      rename_i hfree
      exact ⟨by simp, _, _, rfl, fun h => h.elim, by simp, Or.inr (Or.inl hfree.2),
        fun _ => Or.inl rfl⟩
  | test =>
      right
      simp only [waitStep] at hstep
      split at hstep
      · rename_i waitTime hpc
        have hinside : s.waiter.inside = true := by rw [hpc]; rfl
        split at hstep <;> cases hstep
        · rename_i hset
          exact ⟨by simp, _, _, rfl, fun _ => Or.inr hset, by simp, Or.inl rfl,
            fun _ => Or.inr ⟨rfl, hinside⟩⟩
        · rename_i hclear
          exact ⟨by simp, _, _, rfl, fun h => h.elim, fun _ _ => Bool.eq_false_iff.mpr hclear,
            Or.inr (Or.inr hinside), fun h => by cases h⟩
      · cases hstep
  | wake cause =>
      right
      simp only [waitStep] at hstep
      split at hstep
      · split at hstep <;> cases hstep
        rename_i hcause
        refine ⟨by simp, _, _, rfl, fun h => ?_, by simp, Or.inl rfl, fun h => by cases h⟩
        obtain rfl | ⟨rfl, _⟩ := hcause
        · exact h.elim
        · exact h.elim
      · cases hstep
  | relock status =>
      right
      simp only [waitStep] at hstep
      split at hstep
      · split at hstep <;> cases hstep
        rename_i waitTime cause hpc hfree
        refine ⟨by simp, _, _, rfl, fun h => Or.inl ?_, by simp, Or.inr (Or.inl hfree.1),
          fun _ => Or.inl rfl⟩
        rw [hpc]
        cases cause with
        | notified => trivial
        | spurious => exact h.elim
        | expired => exact h.elim
      · cases hstep
  | ret =>
      left
      simp only [waitStep] at hstep
      split at hstep <;> cases hstep
      exact ⟨_, rfl, ‹_›, rfl⟩

theorem WaitMove.tracks {lock : Option (Option ι)} {pc : WaitPc} (hmove : WaitMove s t lock pc)
    (h : s.Tracks) : t.Tracks := by
  obtain rfl := hmove.next
  constructor
  · exact h.flag
  · exact fun hpc => (hmove.told hpc).elim h.told id
  · intro waitTime hpc hset
    rw [hmove.sleeps waitTime hpc] at hset
    cases hset
  · exact h.notifying
  · intro hpc
    obtain hlock | ⟨hlock, hinside⟩ := hmove.inside hpc
    · exact hlock
    · exact hlock.trans (h.waiterLock hinside)
  · intro i hne
    obtain hlock | hfree | hinside := hmove.keeps
    · exact hlock.trans (h.signalLock i hne)
    · exact absurd (h.outside (Or.inl hfree) i) hne
    · exact absurd (h.outside (Or.inr (h.waiterLock hinside)) i) hne

theorem waitStep_tracks (h : s.Tracks) (hstep : s.waitStep a = some t) : t.Tracks := by
  obtain ⟨slept, _, hpc, rfl⟩ | ⟨_, lock, pc, hmove⟩ := waitStep_cases hstep
  · have houtside := h.outside (Or.inr (h.waiterLock (by rw [hpc]; rfl)))
    constructor
    · simp [Event.reset, sinceReturn]
    · exact fun htold => htold.elim
    · intro waitTime hwaiter
      cases hwaiter
    · intro i hi
      have hnone := houtside i
      rw [hi] at hnone
      cases hnone
    · intro hinside
      cases hinside
    · exact fun i hne => absurd (houtside i) hne
  · exact hmove.tracks h

/-! ## The signalling threads -/

/-- The threads under the mutex. -/
def UnderMutex (s : EventState ι) : Option ι → Prop
  | none => s.waiter.inside = true
  | some i => s.signallers i ≠ .outside

theorem Tracks.exclusive (h : s.Tracks) : Exclusive s.lock s.UnderMutex
  | none, hinside => h.waiterLock hinside
  | some i, hinside => h.signalLock i hinside

/-- A thread that signals, or is the first to, is alone under the mutex. -/
theorem Tracks.alone (h : s.Tracks) {i : ι} (hi : s.lock = none ∨ s.signallers i ≠ .outside) :
    (∀ j, j ≠ i → s.signallers j = .outside) ∧ s.waiter.inside = false := by
  have hothers : ∀ p, p ≠ some i → ¬ s.UnderMutex p :=
    fun p => h.exclusive.alone (p := some i) hi
  constructor
  · exact fun j hj => not_not.mp (hothers (some j) fun heq => hj (Option.some.inj heq))
  · exact Bool.eq_false_iff.mpr (hothers none (Option.some_ne_none i).symm)

/-- Nobody is about to notify: the thread that sleeps does not miss a signal. -/
theorem Tracks.asleep (h : s.Tracks) (hnone : ∀ i, s.signallers i ≠ .notifying)
    (waitTime : UInt32) (hpc : s.waiter = .blocked waitTime) : s.event.signalled ≠ true := by
  intro hset
  obtain ⟨i, hi⟩ := h.noLostSignal waitTime hpc hset
  exact hnone i hi

theorem notify_all_inside (s : EventState ι) : s.notify_all.inside = s.waiter.inside := by
  unfold notify_all
  split
  · rename_i hpc
    rw [hpc]
    rfl
  · rfl

theorem notify_all_ne_blocked (s : EventState ι) (waitTime : UInt32) :
    s.notify_all ≠ .blocked waitTime := by
  unfold notify_all
  split
  · simp
  · rename_i hpc
    exact hpc waitTime

variable [DecidableEq ι]

/-- What a step of a signalling thread has to keep when it is alone under the mutex. -/
theorem tracks_atSignaller {i : ι} {pc : SignalPc}
    (halone : (∀ j, j ≠ i → s.signallers j = .outside) ∧ s.waiter.inside = false)
    (hflag : s.event.signalled = true ↔ sinceReturn s.history ≠ [])
    (htold : s.waiter.Told → s.event.signalled = true)
    (hsleep : ∀ waitTime, s.waiter = .blocked waitTime → s.event.signalled = true →
      pc = .notifying)
    (hnotifying : pc = .notifying → s.event.signalled = true)
    (hlock : pc ≠ .outside → s.lock = some (some i)) : (s.atSignaller i pc).Tracks where
  flag := hflag
  told := htold
  noLostSignal := fun waitTime hwaiter hset =>
    ⟨i, (Function.update_self _ _ _).trans (hsleep waitTime hwaiter hset)⟩
  notifying := by
    intro j hj
    by_cases hji : j = i
    · subst hji
      exact hnotifying ((Function.update_self _ _ _).symm.trans hj)
    · have hout := (Function.update_of_ne hji _ _).symm.trans hj
      rw [halone.1 j hji] at hout
      cases hout
  waiterLock := by
    intro hinside
    rw [show s.waiter.inside = true from hinside] at halone
    cases halone.2
  signalLock := by
    intro j hne
    by_cases hji : j = i
    · subst hji
      exact hlock fun heq => hne ((Function.update_self _ _ _).trans heq)
    · exact absurd ((Function.update_of_ne hji _ _).trans (halone.1 j hji)) hne

theorem signalStep_tracks {i : ι} (h : s.Tracks) (hstep : s.signalStep i = some t) :
    t.Tracks := by
  unfold signalStep at hstep
  split at hstep
  case h_1 hpc =>
      split at hstep <;> cases hstep
      rename_i hfree
      have hnone : ∀ j, s.signallers j ≠ .notifying := fun j hj => by
        rw [h.outside (Or.inl hfree) j] at hj
        cases hj
      exact tracks_atSignaller (h.alone (Or.inl hfree)) h.flag h.told
        (fun waitTime hwaiter hset => absurd hset (h.asleep hnone waitTime hwaiter)) (by simp)
        fun _ => rfl
  case h_2 hpc =>
      cases hstep
      have hne : s.signallers i ≠ .outside := by simp [hpc]
      exact tracks_atSignaller (h.alone (Or.inr hne)) (by simp [Event.signal, sinceReturn])
        (fun _ => rfl) (fun _ _ _ => rfl) (fun _ => rfl) fun _ => h.signalLock i hne
  case h_3 hpc =>
      cases hstep
      have hne : s.signallers i ≠ .outside := by simp [hpc]
      have halone := h.alone (Or.inr hne)
      exact tracks_atSignaller ⟨halone.1, (notify_all_inside s).trans halone.2⟩ h.flag
        (fun _ => h.notifying i hpc)
        (fun waitTime hwaiter => absurd hwaiter (notify_all_ne_blocked s waitTime)) (by simp)
        fun _ => h.signalLock i hne
  case h_4 hpc =>
      cases hstep
      have hne : s.signallers i ≠ .outside := by simp [hpc]
      have halone := h.alone (Or.inr hne)
      have hnone : ∀ j, s.signallers j ≠ .notifying := fun j hj => by
        by_cases hji : j = i
        · rw [hji, hpc] at hj
          cases hj
        · rw [halone.1 j hji] at hj
          cases hj
      exact tracks_atSignaller halone h.flag h.told
        (fun waitTime hwaiter hset => absurd hset (h.asleep hnone waitTime hwaiter)) (by simp)
        (by simp)

theorem step_cases (hstep : s.step a = some t) :
    (∃ i, a = .signaller i ∧ s.signalStep i = some t) ∨ s.waitStep a = some t := by
  cases a with
  | signaller i => exact Or.inl ⟨i, rfl, hstep⟩
  | wait _ | test | wake _ | relock _ | ret => exact Or.inr hstep

theorem step_tracks (h : s.Tracks) (hstep : s.step a = some t) : t.Tracks := by
  obtain ⟨i, _, hsignal⟩ | hwait := step_cases hstep
  · exact signalStep_tracks h hsignal
  · exact waitStep_tracks h hwait

/-! ## Runs -/

omit [DecidableEq ι] in
/-- What `wait` returns agrees with the flag exactly when the end of the sleep does. -/
theorem Tracks.retOf_iff (h : s.Tracks) {slept : Option (WakeUp × CvStatus)}
    (hpc : s.waiter = .returning slept) :
    (retOf slept = true ↔ s.event.signalled = true) ↔ s.Careful .ret := by
  have htold := h.told
  rw [hpc] at htold
  simp only [Careful, hpc]
  cases slept with
  | none => simp [retOf, htold trivial]
  | some ended =>
      obtain ⟨cause, status⟩ := ended
      cases status with
      | timeout => cases cause <;> simp [retOf]
      | no_timeout =>
          cases cause with
          | notified => simp [retOf, htold trivial]
          | spurious => simp [retOf]
          | expired => simp [retOf]

theorem signalStep_autoReset {i : ι} (h : AutoReset s.history) (hstep : s.signalStep i = some t) :
    AutoReset t.history := by
  unfold signalStep at hstep
  split at hstep
  case h_1 =>
      split at hstep <;> cases hstep
      exact h
  case h_2 =>
      cases hstep
      exact autoReset_signal.mpr h
  case h_3 =>
      cases hstep
      exact h
  case h_4 =>
      cases hstep
      exact h

/-- A step keeps the waits right exactly when it is careful. -/
theorem step_autoReset_iff (h : s.Tracks) (hgood : AutoReset s.history)
    (hstep : s.step a = some t) : AutoReset t.history ↔ s.Careful a := by
  obtain ⟨i, rfl, hsignal⟩ | hwait := step_cases hstep
  · exact iff_of_true (signalStep_autoReset hgood hsignal) trivial
  · obtain ⟨slept, rfl, hpc, rfl⟩ | ⟨hne, lock, pc, hmove⟩ := waitStep_cases hwait
    · rw [← h.retOf_iff hpc, autoReset_cons, and_iff_right hgood, h.flag]
      constructor
      · intro hret
        exact hret _ rfl
      · intro hret ret heq
        cases heq
        exact hret
    · obtain rfl := hmove.next
      refine iff_of_true hgood ?_
      cases a with
      | ret => exact absurd rfl hne
      | wait _ | test | wake _ | relock _ | signaller _ => trivial

end EventState

/-- The waits of a run are those of an auto-reset event exactly when its steps are careful. -/
theorem autoReset_run_iff (ι : Type) [DecidableEq ι] (acts : List (EventAct ι)) :
    (eventSystem ι).RunAll (fun s => AutoReset s.history) {} acts ↔
      (eventSystem ι).RunOk EventState.Careful {} acts := by
  have hstart : AutoReset ({} : EventState ι).history := by
    intro later ret earlier heq
    cases later <;> cases heq
  exact System.runAll_iff_runOk_of_invariant (fun _ _ _ => EventState.step_tracks)
    (fun _ _ _ => EventState.step_autoReset_iff) EventState.tracks_start hstart acts

/-- A wait without a time limit that wakes up for no reason. -/
def spuriousWait : List (EventAct Unit) :=
  [.wait 0, .test, .wake .spurious, .relock .no_timeout, .ret]

/-- It reports a signal that was not sent. -/
theorem spuriousWait_not_autoReset :
    ¬ (eventSystem Unit).RunAll (fun s => AutoReset s.history) {} spuriousWait := by
  intro hall
  have hlast : ∃ s, (eventSystem Unit).run {} spuriousWait = some s ∧
      s.history = [.returned true] := ⟨_, rfl, rfl⟩
  obtain ⟨s, hrun, hhistory⟩ := hlast
  have hret := hall.run hrun [] true [] hhistory
  simp [sinceReturn] at hret

end PlayerInterface.Ocdm
