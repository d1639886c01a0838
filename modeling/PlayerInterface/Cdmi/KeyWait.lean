import PlayerInterface.Core.Locks
import PlayerInterface.Core.Transition

/-!
# The wait for a key

`transform_ip` sleeps once on the condition, without a loop, and takes a stream that has still not
been received for a change of state. Nobody changes what it waits for without a signal; but it may
wake up without one, and a change to PAUSED may come before it has its mutex again.
-/

namespace PlayerInterface.Cdmi

open PlayerInterface.Core

/-- Where the streaming thread is in `transform_ip`. `blocked` and `woken` are inside
`g_cond_wait`. -/
inductive TransformPc where
  | outside
  | entered (protectionMeta : Bool)
  | blocked
  | woken
  | awake
  | leaving
deriving DecidableEq, Repr

def TransformPc.inside : TransformPc → Bool
  | entered _ | awake | leaving => true
  | _ => false

/-- What another thread takes the mutex for. -/
inductive KeyTask where
  | protection
  | READY_TO_PAUSED
  | PAUSED_TO_READY
deriving DecidableEq, Repr

inductive TaskPc where
  | outside
  | locked (task : KeyTask)
  | signalling
  | unlocking
deriving DecidableEq, Repr

/-- Behind which test `transform_ip` has given up. -/
inductive Lack where
  | key
  | session
deriving DecidableEq, Repr

/-- A buffer that was given up, with `canWait` at that moment. -/
structure GivenUp where
  lack : Lack
  canWait : Bool
deriving DecidableEq, Repr

/-- The members behind the mutex; the holder is `some none` for the streaming thread. -/
structure KeyWait (ι : Type) where
  canWait : Bool := false
  streamReceived : Bool := false
  drmSession : Bool := false
  mutex : Option (Option ι) := none
  stream : TransformPc := .outside
  tasks : ι → TaskPc := fun _ => .outside
  givenUp : List GivenUp := []

/-- A buffer, the next step of the streaming thread, a wake-up for no reason, a task of another
thread, and its next step with what `createDrmSession` gives. -/
inductive KeyAct (ι : Type) where
  | buffer (protectionMeta : Bool)
  | transform
  | spurious
  | start (i : ι) (task : KeyTask)
  | task (i : ι) (created : Bool)

namespace KeyWait

variable {ι : Type}

def giveUp (s : KeyWait ι) (lack : Lack) : KeyWait ι :=
  { s with stream := .leaving, givenUp := ⟨lack, s.canWait⟩ :: s.givenUp }

/-- `gst_cdmidecryptor_transform_ip` behind `g_mutex_lock`. -/
def transform_ip (s : KeyWait ι) : Option (KeyWait ι) :=
  match s.stream with
  | .outside | .blocked => none
  | .entered false => some { s with stream := .leaving }
  | .entered true =>
      if !s.canWait && !s.streamReceived then some (s.giveUp .key)
      else if !s.streamReceived then some { s with mutex := none, stream := .blocked }
      else some { s with stream := .awake }
  | .woken => if s.mutex = none then some { s with mutex := some none, stream := .awake } else none
  | .awake =>
      if !s.streamReceived then some (s.giveUp .key)
      else if !s.drmSession then some (s.giveUp .session)
      else some { s with stream := .leaving }
  | .leaving => some { s with mutex := none, stream := .outside }

/-- `g_cond_signal` with the one thread that may sleep. -/
def g_cond_signal (s : KeyWait ι) : KeyWait ι :=
  { s with stream := if s.stream = .blocked then .woken else s.stream }

variable [DecidableEq ι]

def atTask (s : KeyWait ι) (i : ι) (pc : TaskPc) : KeyWait ι :=
  { s with tasks := Function.update s.tasks i pc }

/-- `gst_cdmidecryptor_sink_event` and `gst_cdmidecryptor_changestate` behind `g_mutex_lock`. -/
def taskStep (s : KeyWait ι) (i : ι) (created : Bool) : Option (KeyWait ι) :=
  match s.tasks i with
  | .outside => none
  | .locked .protection =>
      if created then some ({ s with drmSession := true, streamReceived := true }.atTask i .signalling)
      else some ({ s with drmSession := false, canWait := false }.atTask i .signalling)
  | .locked .READY_TO_PAUSED => some ({ s with canWait := true }.atTask i .unlocking)
  | .locked .PAUSED_TO_READY => some ({ s with canWait := false }.atTask i .signalling)
  | .signalling => some (s.g_cond_signal.atTask i .unlocking)
  | .unlocking => some ({ s with mutex := none }.atTask i .outside)

def step (s : KeyWait ι) : KeyAct ι → Option (KeyWait ι)
  | .buffer protectionMeta =>
      if s.stream = .outside ∧ s.mutex = none then
        some { s with mutex := some none, stream := .entered protectionMeta }
      else none
  | .transform => s.transform_ip
  | .spurious => if s.stream = .blocked then some { s with stream := .woken } else none
  | .start i task =>
      if s.tasks i = .outside ∧ s.mutex = none then
        some ({ s with mutex := some (some i) }.atTask i (.locked task))
      else none
  | .task i created => s.taskStep i created

end KeyWait

def keySystem (ι : Type) [DecidableEq ι] : System (KeyWait ι) (KeyAct ι) where
  init s := s = {}
  step := KeyWait.step

namespace KeyWait

variable {ι : Type}

/-! ## What is said of a run -/

/-- There is nothing left to wait for. -/
def Settled (s : KeyWait ι) : Prop := s.streamReceived = true ∨ s.canWait = false

/-- The streaming thread sleeps although there is nothing to wait for, and nobody is to signal it. -/
def LostWakeUp (s : KeyWait ι) : Prop :=
  s.stream = .blocked ∧ s.Settled ∧ ∀ i, s.tasks i ≠ .signalling

/-- Buffers are given up for this lack only where no waiting is allowed. -/
def Honest (lack : Lack) (s : KeyWait ι) : Prop :=
  ∀ g ∈ s.givenUp, g.lack = lack → g.canWait = false

/-- What a run has to do without, by the lack. For the key, spurious wake-ups and a change to PAUSED
that overtakes a thread on its way out of `g_cond_wait` without a stream; for the session, a change to
PAUSED behind a session that failed after another had been created. -/
def Careful (lack : Lack) (s : KeyWait ι) : KeyAct ι → Prop
  | .spurious => lack ≠ .key
  | .task i _ =>
      s.tasks i = .locked .READY_TO_PAUSED →
        match lack with
        | .key => s.stream = .woken → s.streamReceived = true
        | .session => s.streamReceived = true → s.drmSession = true
  | _ => True

/-! ## Who is inside -/

/-- The threads that hold the mutex by where they stand. -/
def Inside (s : KeyWait ι) : Option ι → Prop
  | none => s.stream.inside = true
  | some i => s.tasks i ≠ .outside

/-- A task signals only when there is nothing left to wait for, and the thread that sleeps then is
about to be signalled. -/
structure Consistent (s : KeyWait ι) : Prop where
  exclusive : Exclusive s.mutex s.Inside
  pending : ∀ i, s.tasks i = .signalling → s.Settled
  asleep : s.stream = .blocked → s.Settled → ∃ i, s.tasks i = .signalling

variable {s t : KeyWait ι} {a : KeyAct ι}

theorem Consistent.not_lostWakeUp (h : s.Consistent) : ¬ s.LostWakeUp := by
  intro ⟨hblocked, hsettled, hnone⟩
  obtain ⟨i, hi⟩ := h.asleep hblocked hsettled
  exact hnone i hi

theorem consistent_start : ({} : KeyWait ι).Consistent where
  exclusive := by
    intro p hp
    cases p with
    | none => cases hp
    | some i => exact absurd rfl hp
  pending := by
    intro i hi
    cases hi
  asleep := by
    intro hblocked
    cases hblocked

/-- No task runs while the mutex is free or with the streaming thread. -/
theorem Consistent.outside (h : s.Consistent) (hp : s.mutex = none ∨ s.stream.inside = true)
    (i : ι) : s.tasks i = .outside := by
  by_contra hne
  exact h.exclusive.alone (p := none) hp (Option.some_ne_none i) hne

/-! ## The streaming thread -/

/-- What `transform_ip` has found where it gives up. -/
def Grounds (s : KeyWait ι) : Lack → Prop
  | .key => s.streamReceived = false ∧ (s.canWait = false ∨ s.stream = .awake)
  | .session => s.streamReceived = true ∧ s.drmSession = false

/-- What a step of the streaming thread changes and when. -/
structure StreamMove (s t : KeyWait ι) (mutex : Option (Option ι)) (pc : TransformPc)
    (givenUp : List GivenUp) : Prop where
  next : t = { s with mutex := mutex, stream := pc, givenUp := givenUp }
  blocks : pc = .blocked → ¬ s.Settled
  sleeps : pc = .woken → s.stream = .blocked
  wakes : pc = .awake → s.Settled ∨ s.stream = .woken
  keeps : mutex = s.mutex ∨ s.mutex = none ∨ s.stream.inside = true
  inside : pc.inside = true → mutex = some none ∨ mutex = s.mutex ∧ s.stream.inside = true
  records : ∀ g ∈ givenUp, g ∈ s.givenUp ∨ g.canWait = s.canWait ∧ s.Grounds g.lack

theorem giveUp_records {lack : Lack} (hlack : s.Grounds lack) :
    ∀ g ∈ (s.giveUp lack).givenUp,
      g ∈ s.givenUp ∨ g.canWait = s.canWait ∧ s.Grounds g.lack := by
  intro g hg
  obtain rfl | hold := List.mem_cons.mp hg
  · exact Or.inr ⟨rfl, hlack⟩
  · exact Or.inl hold

theorem transform_ip_move (hstep : s.transform_ip = some t) :
    ∃ mutex pc givenUp, StreamMove s t mutex pc givenUp := by
  unfold transform_ip at hstep
  split at hstep
  case h_1 | h_2 => cases hstep
  case h_3 hpc =>
      cases hstep
      have hinside : s.stream.inside = true := by rw [hpc]; rfl
      exact ⟨_, _, _, rfl, by simp, by simp, by simp, Or.inl rfl, fun _ => Or.inr ⟨rfl, hinside⟩,
        fun g hg => Or.inl hg⟩
  case h_4 hpc =>
      have hinside : s.stream.inside = true := by rw [hpc]; rfl
      split at hstep
      · cases hstep
        rename_i hrefused
        simp only [Bool.and_eq_true, Bool.not_eq_true'] at hrefused
        exact ⟨_, _, _, rfl, by simp, by simp, by simp, Or.inl rfl, fun _ => Or.inr ⟨rfl, hinside⟩,
          giveUp_records ⟨hrefused.2, Or.inl hrefused.1⟩⟩
      · split at hstep
        · cases hstep
          rename_i hallowed hwait
          refine ⟨_, _, _, rfl, fun _ => ?_, by simp, by simp, Or.inr (Or.inr hinside),
            (fun h => by cases h), fun g hg => Or.inl hg⟩
          simp only [Bool.not_eq_true'] at hwait
          simpa [Settled, hwait] using hallowed
        · cases hstep
          rename_i hreceived
          simp only [Bool.not_eq_true', Bool.not_eq_false] at hreceived
          exact ⟨_, _, _, rfl, by simp, by simp, fun _ => Or.inl (Or.inl hreceived), Or.inl rfl,
            fun _ => Or.inr ⟨rfl, hinside⟩, fun g hg => Or.inl hg⟩
  case h_5 hpc =>
      split at hstep <;> cases hstep
      rename_i hfree
      exact ⟨_, _, _, rfl, by simp, by simp, fun _ => Or.inr hpc, Or.inr (Or.inl hfree),
        fun _ => Or.inl rfl, fun g hg => Or.inl hg⟩
  case h_6 hpc =>
      have hinside : s.stream.inside = true := by rw [hpc]; rfl
      split at hstep
      · cases hstep
        rename_i hreceived
        simp only [Bool.not_eq_true'] at hreceived
        exact ⟨_, _, _, rfl, by simp, by simp, by simp, Or.inl rfl, fun _ => Or.inr ⟨rfl, hinside⟩,
          giveUp_records ⟨hreceived, Or.inr hpc⟩⟩
      · split at hstep
        · cases hstep
          rename_i hreceived hsession
          simp only [Bool.not_eq_true', Bool.not_eq_false] at hreceived hsession
          exact ⟨_, _, _, rfl, by simp, by simp, by simp, Or.inl rfl, fun _ => Or.inr ⟨rfl, hinside⟩,
            giveUp_records ⟨hreceived, hsession⟩⟩
        · cases hstep
          exact ⟨_, _, _, rfl, by simp, by simp, by simp, Or.inl rfl, fun _ => Or.inr ⟨rfl, hinside⟩,
            fun g hg => Or.inl hg⟩
  case h_7 hpc =>
      have hinside : s.stream.inside = true := by rw [hpc]; rfl
      cases hstep
      exact ⟨_, _, _, rfl, by simp, by simp, by simp, Or.inr (Or.inr hinside), (fun h => by cases h),
        fun g hg => Or.inl hg⟩

theorem StreamMove.consistent {mutex : Option (Option ι)} {pc : TransformPc}
    {givenUp : List GivenUp} (hmove : StreamMove s t mutex pc givenUp) (h : s.Consistent) :
    t.Consistent := by
  obtain rfl := hmove.next
  constructor
  · intro p hp
    cases p with
    | none =>
        obtain hmutex | ⟨hmutex, hinside⟩ := hmove.inside hp
        · exact hmutex
        · exact hmutex.trans (h.exclusive none hinside)
    | some i =>
        obtain hmutex | halone := hmove.keeps
        · exact hmutex.trans (h.exclusive (some i) hp)
        · exact absurd (h.outside halone i) hp
  · exact h.pending
  · intro hblocked hsettled
    exact absurd hsettled (hmove.blocks hblocked)

/-! ## What is given up -/

/-- What a thread finds that is on its way to giving up for this lack. -/
def Prepared (s : KeyWait ι) : Lack → Prop
  | .key => s.stream = .woken ∨ s.stream = .awake → s.Settled
  | .session => s.streamReceived = true → s.drmSession = true ∨ s.canWait = false

theorem prepared_of_refused (h : t.canWait = false) (lack : Lack) : t.Prepared lack := by
  cases lack with
  | key => exact fun _ => Or.inr h
  | session => exact fun _ => Or.inr h

theorem prepared_of_created (hreceived : t.streamReceived = true) (hsession : t.drmSession = true)
    (lack : Lack) : t.Prepared lack := by
  cases lack with
  | key => exact fun _ => Or.inl hreceived
  | session => exact fun _ => Or.inl hsession

theorem StreamMove.prepared {mutex : Option (Option ι)} {pc : TransformPc}
    {givenUp : List GivenUp} {lack : Lack} (hmove : StreamMove s t mutex pc givenUp)
    (hspurious : lack = .key → pc ≠ .woken) (h : s.Prepared lack) : t.Prepared lack := by
  obtain rfl := hmove.next
  cases lack with
  | session => exact h
  | key =>
      intro hpc
      obtain hwoken | hawake := hpc
      · exact absurd hwoken (hspurious rfl)
      · exact (hmove.wakes hawake).elim id fun hwoken => h (Or.inl hwoken)

theorem StreamMove.honest {mutex : Option (Option ι)} {pc : TransformPc}
    {givenUp : List GivenUp} {lack : Lack} (hmove : StreamMove s t mutex pc givenUp)
    (hprepared : s.Prepared lack) (h : s.Honest lack) : t.Honest lack := by
  obtain rfl := hmove.next
  intro g hg hlack
  obtain hold | ⟨hcanWait, hgrounds⟩ := hmove.records g hg
  · exact h g hold hlack
  · rw [hcanWait]
    rw [hlack] at hgrounds
    cases lack with
    | key =>
        obtain ⟨hreceived, hrefused | hawake⟩ := hgrounds
        · exact hrefused
        · have hsettled := hprepared (Or.inr hawake)
          exact hsettled.resolve_left (by simp [hreceived])
    | session =>
        obtain ⟨hreceived, hsession⟩ := hgrounds
        exact (hprepared hreceived).resolve_left (by simp [hsession])

/-! ## The tasks -/

/-- No thread is to signal: the one that sleeps has something to wait for. -/
theorem Consistent.not_settled (h : s.Consistent) (hnone : ∀ i, s.tasks i ≠ .signalling)
    (hblocked : s.stream = .blocked) : ¬ s.Settled := by
  intro hsettled
  obtain ⟨i, hi⟩ := h.asleep hblocked hsettled
  exact hnone i hi

theorem not_signalling_of_alone {i : ι} (halone : ∀ p, p ≠ some i → ¬ s.Inside p)
    (hi : s.tasks i ≠ .signalling) (j : ι) : s.tasks j ≠ .signalling := by
  intro hj
  by_cases hji : j = i
  · exact hi (hji ▸ hj)
  · exact halone (some j) (fun heq => hji (Option.some.inj heq)) (by simp [Inside, hj])

variable [DecidableEq ι]

/-- What a step of a task has to see to when it is alone under the mutex. -/
theorem atTask_consistent {i : ι} {pc : TaskPc} (halone : ∀ p, p ≠ some i → ¬ s.Inside p)
    (hmutex : pc ≠ .outside → s.mutex = some (some i)) (hpending : pc = .signalling → s.Settled)
    (hasleep : s.stream = .blocked → s.Settled → pc = .signalling) :
    (s.atTask i pc).Consistent := by
  have hothers : ∀ j, j ≠ i → (s.atTask i pc).tasks j = .outside := by
    intro j hj
    have hout := halone (some j) fun heq => hj (Option.some.inj heq)
    exact (Function.update_of_ne hj _ _).trans (not_not.mp hout)
  have hself : (s.atTask i pc).tasks i = pc := Function.update_self _ _ _
  constructor
  · apply Exclusive.of_alone (p := some i)
    · intro p hp
      cases p with
      | none => exact halone none hp
      | some j => exact not_not.mpr (hothers j fun heq => hp (congrArg some heq))
    · intro hin
      exact hmutex fun heq => hin (hself.trans heq)
  · intro j hj
    by_cases hji : j = i
    · subst hji
      exact hpending (hself.symm.trans hj)
    · rw [hothers j hji] at hj
      cases hj
  · intro hblocked hsettled
    exact ⟨i, hself.trans (hasleep hblocked hsettled)⟩

theorem taskStep_consistent {i : ι} {created : Bool} (h : s.Consistent)
    (hstep : s.taskStep i created = some t) : t.Consistent := by
  have hne : s.tasks i ≠ .outside := by
    intro hout
    rw [taskStep, hout] at hstep
    cases hstep
  have halone : ∀ p, p ≠ some i → ¬ s.Inside p := fun p => h.exclusive.others (p := some i) hne
  have hmutex : s.mutex = some (some i) := h.exclusive (some i) hne
  unfold taskStep at hstep
  split at hstep
  case h_1 => cases hstep
  case h_2 hpc =>
      split at hstep <;> cases hstep
      · exact atTask_consistent halone (fun _ => hmutex) (fun _ => Or.inl rfl) fun _ _ => rfl
      · exact atTask_consistent halone (fun _ => hmutex) (fun _ => Or.inr rfl) fun _ _ => rfl
  case h_3 hpc =>
      cases hstep
      have hnone := not_signalling_of_alone halone (by simp [hpc])
      refine atTask_consistent halone (fun _ => hmutex) (by simp) fun hblocked hsettled => ?_
      obtain hreceived | hcanWait := hsettled
      · exact absurd (Or.inl hreceived) (h.not_settled hnone hblocked)
      · cases hcanWait
  case h_4 hpc =>
      cases hstep
      exact atTask_consistent halone (fun _ => hmutex) (fun _ => Or.inr rfl) fun _ _ => rfl
  case h_5 hpc =>
      cases hstep
      refine atTask_consistent (fun p hp hin => ?_) (fun _ => hmutex) (by simp) fun hblocked => ?_
      · cases p with
        | none =>
            refine halone none hp ?_
            show s.stream.inside = true
            have hin : (if s.stream = .blocked then .woken else s.stream).inside = true := hin
            split at hin
            · cases hin
            · exact hin
        | some j => exact halone (some j) hp hin
      · have hblocked : (if s.stream = .blocked then .woken else s.stream) = .blocked := hblocked
        split at hblocked
        · cases hblocked
        · rename_i hno
          exact absurd hblocked hno
  case h_6 hpc =>
      cases hstep
      have hnone := not_signalling_of_alone halone (by simp [hpc])
      exact atTask_consistent halone (by simp) (by simp) fun hblocked hsettled =>
        absurd hsettled (h.not_settled hnone hblocked)

theorem start_consistent {i : ι} {task : KeyTask} (h : s.Consistent) (hfree : s.mutex = none) :
    ({ s with mutex := some (some i) }.atTask i (.locked task)).Consistent := by
  have hnone : ∀ j, s.tasks j ≠ .signalling := fun j hj => by
    rw [h.outside (Or.inl hfree) j] at hj
    cases hj
  exact atTask_consistent (fun p _ => h.exclusive.free hfree p) (fun _ => rfl) (by simp)
    fun hblocked hsettled => absurd hsettled (h.not_settled hnone hblocked)

/-! ## One step -/

/-- The streaming thread moves, a task starts, or it goes on. -/
theorem step_cases (hstep : s.step a = some t) :
    (∃ mutex pc givenUp, StreamMove s t mutex pc givenUp ∧ (pc = .woken → a = .spurious)) ∨
    (∃ i task, s.mutex = none ∧ t = { s with mutex := some (some i) }.atTask i (.locked task)) ∨
    ∃ i created, a = .task i created ∧ s.taskStep i created = some t := by
  cases a with
  | buffer protectionMeta =>
      left
      simp only [step] at hstep
      split at hstep <;> cases hstep
      rename_i hfree
      exact ⟨_, _, _, ⟨rfl, by simp, by simp, by simp, Or.inr (Or.inl hfree.2),
        fun _ => Or.inl rfl, fun g hg => Or.inl hg⟩, by simp⟩
  | transform =>
      left
      obtain ⟨mutex, pc, givenUp, hmove⟩ := transform_ip_move hstep
      refine ⟨mutex, pc, givenUp, hmove, fun hpc => ?_⟩
      rw [step, transform_ip, hmove.sleeps hpc] at hstep
      cases hstep
  | spurious =>
      left
      simp only [step] at hstep
      split at hstep <;> cases hstep
      rename_i hblocked
      exact ⟨_, _, _, ⟨rfl, by simp, fun _ => hblocked, by simp, Or.inl rfl, (fun h => by cases h),
        fun g hg => Or.inl hg⟩, fun _ => rfl⟩
  | start i task =>
      right
      left
      simp only [step] at hstep
      split at hstep <;> cases hstep
      rename_i hfree
      exact ⟨i, task, hfree.2, rfl⟩
  | task i created => exact Or.inr (Or.inr ⟨i, created, rfl, hstep⟩)

theorem step_consistent (h : s.Consistent) (hstep : s.step a = some t) : t.Consistent := by
  obtain ⟨mutex, pc, givenUp, hmove, _⟩ | ⟨i, task, hfree, rfl⟩ | ⟨i, created, _, htask⟩ :=
    step_cases hstep
  · exact hmove.consistent h
  · exact start_consistent h hfree
  · exact taskStep_consistent h htask

/-! ## Tasks and what is given up -/

/-- A task creates a session or forbids the waiting, allows it, or leaves the members alone. -/
theorem taskStep_cases {i : ι} {created : Bool} (hstep : s.taskStep i created = some t) :
    t.givenUp = s.givenUp ∧ (t.canWait = false ∨ t.streamReceived = true ∧ t.drmSession = true ∨
      s.tasks i = .locked .READY_TO_PAUSED ∧
        t = { s with canWait := true }.atTask i .unlocking ∨
      (t.canWait = s.canWait ∧ t.streamReceived = s.streamReceived ∧
        t.drmSession = s.drmSession) ∧
        (t.stream = s.stream ∨ s.tasks i = .signalling)) := by
  unfold taskStep at hstep
  split at hstep
  case h_1 => cases hstep
  case h_2 =>
      split at hstep <;> cases hstep
      · exact ⟨rfl, Or.inr (Or.inl ⟨rfl, rfl⟩)⟩
      · exact ⟨rfl, Or.inl rfl⟩
  case h_3 hpc =>
      cases hstep
      exact ⟨rfl, Or.inr (Or.inr (Or.inl ⟨hpc, rfl⟩))⟩
  case h_4 =>
      cases hstep
      exact ⟨rfl, Or.inl rfl⟩
  case h_5 hpc =>
      cases hstep
      exact ⟨rfl, Or.inr (Or.inr (Or.inr ⟨⟨rfl, rfl, rfl⟩, Or.inr hpc⟩))⟩
  case h_6 =>
      cases hstep
      exact ⟨rfl, Or.inr (Or.inr (Or.inr ⟨⟨rfl, rfl, rfl⟩, Or.inl rfl⟩))⟩

theorem taskStep_prepared {i : ι} {created : Bool} {lack : Lack} (h : s.Consistent)
    (hprepared : s.Prepared lack) (hok : s.Careful lack (.task i created))
    (hstep : s.taskStep i created = some t) : t.Prepared lack := by
  obtain hrefused | ⟨hreceived, hsession⟩ | ⟨hpc, rfl⟩ | ⟨⟨hcanWait, hreceived, hsession⟩, hstream⟩ :=
    (taskStep_cases hstep).2
  · exact prepared_of_refused hrefused lack
  · exact prepared_of_created hreceived hsession lack
  · have hready := hok hpc
    cases lack with
    | session => exact fun hreceived => Or.inl (hready hreceived)
    | key =>
        intro hwakes
        obtain hwoken | hawake := hwakes
        · exact Or.inl (hready hwoken)
        · have hinside : s.stream.inside = true := by
            rw [show s.stream = .awake from hawake]
            rfl
          rw [h.outside (Or.inr hinside) i] at hpc
          cases hpc
  · cases lack with
    | session =>
        intro hnow
        rw [hsession, hcanWait]
        exact hprepared (hreceived ▸ hnow)
    | key =>
        intro hwakes
        have hsettled : s.Settled := by
          obtain hsame | hpc := hstream
          · exact hprepared (hsame ▸ hwakes)
          · exact h.pending i hpc
        rw [Settled, hreceived, hcanWait]
        exact hsettled

end KeyWait

/-! ## Runs -/

open KeyWait

/-- The streaming thread never misses a signal, and gives no buffer up too early in a run that does
without what leads to it. -/
theorem keyWait_run (ι : Type) [DecidableEq ι] :
    (∀ s, (keySystem ι).Reachable s → ¬ s.LostWakeUp) ∧
    ∀ lack s, (keySystem ι).Reaches (Careful lack) s → s.Honest lack := by
  constructor
  · intro s hs
    have hconsistent : s.Consistent := by
      apply hs.invariant
      · intro s hinit
        rw [show s = {} from hinit]
        exact consistent_start
      · exact fun s a t h _ hstep => step_consistent h hstep
    exact hconsistent.not_lostWakeUp
  · intro lack s hs
    have hinv : s.Consistent ∧ s.Prepared lack ∧ s.Honest lack := by
      apply hs.invariant
      · intro s hinit
        rw [show s = {} from hinit]
        refine ⟨consistent_start, prepared_of_refused rfl lack, fun g hg => ?_⟩
        cases hg
      · intro s a t ⟨hconsistent, hprepared, hhonest⟩ hok hstep
        refine ⟨step_consistent hconsistent hstep, ?_⟩
        obtain ⟨mutex, pc, givenUp, hmove, hspurious⟩ | ⟨i, task, _, rfl⟩ | ⟨i, created, rfl, htask⟩ :=
          step_cases hstep
        · refine ⟨hmove.prepared (fun hkey hpc => ?_) hprepared, hmove.honest hprepared hhonest⟩
          rw [hspurious hpc] at hok
          exact hok hkey
        · cases lack with
          | key => exact ⟨hprepared, hhonest⟩
          | session => exact ⟨hprepared, hhonest⟩
        · refine ⟨taskStep_prepared hconsistent hprepared hok htask, ?_⟩
          rw [Honest, (taskStep_cases htask).1]
          exact hhonest
    exact hinv.2.2

/-- The element goes to PAUSED, a buffer waits for its key, and the element goes back to READY. -/
def stopWhileWaiting : List (KeyAct Unit) :=
  [.start () .READY_TO_PAUSED, .task () false, .task () false, .buffer true, .transform,
    .start () .PAUSED_TO_READY, .task () false, .task () false, .task () false, .transform, .transform]

/-- A test of the steps of a run for the key. -/
def keyTest (s : KeyWait Unit) : KeyAct Unit → Bool
  | .spurious => false
  | .task i _ => s.tasks i ≠ .locked .READY_TO_PAUSED ∨ s.stream ≠ .woken
  | _ => true

theorem careful_of_keyTest (s : KeyWait Unit) (a : KeyAct Unit) (h : keyTest s a = true) :
    s.Careful .key a := by
  cases a with
  | spurious => cases h
  | task i created =>
      intro hpc hwoken
      simp [keyTest, hpc, hwoken] at h
  | buffer _ | transform | start _ _ => trivial

/-- The buffer is given up, and rightly so. -/
theorem stopWhileWaiting_run : ∃ s, (keySystem Unit).run {} stopWhileWaiting = some s ∧
    s.givenUp = [⟨.key, false⟩] ∧ ¬ s.LostWakeUp ∧ s.Honest .key := by
  have hok : (keySystem Unit).RunOk (Careful .key) {} stopWhileWaiting := by
    apply System.runOk_of_checkRun careful_of_keyTest
    decide
  obtain ⟨s, hrun, hgiven⟩ : ∃ s, (keySystem Unit).run {} stopWhileWaiting = some s ∧
      s.givenUp = [⟨.key, false⟩] := ⟨_, rfl, rfl⟩
  have hreaches := System.Reaches.run (.init rfl) hok hrun
  exact ⟨s, hrun, hgiven, (keyWait_run Unit).1 s hreaches.reachable,
    (keyWait_run Unit).2 .key s hreaches⟩

/-- The same buffer wakes up for no reason. -/
def spuriousKey : List (KeyAct Unit) :=
  [.start () .READY_TO_PAUSED, .task () false, .task () false, .buffer true, .transform, .spurious,
    .transform, .transform]

/-- It is given up although waiting is allowed. -/
theorem spuriousKey_not_honest :
    ¬ ∀ s, (keySystem Unit).Reachable s → ¬ s.LostWakeUp ∧ s.Honest .key := by
  intro hall
  obtain ⟨s, hrun, hgiven⟩ : ∃ s, (keySystem Unit).run {} spuriousKey = some s ∧
      s.givenUp = [⟨.key, true⟩] := ⟨_, rfl, rfl⟩
  have hhonest := (hall s (System.reachable_of_run rfl hrun)).2
  have hrefused := hhonest ⟨.key, true⟩ (by simp [hgiven]) rfl
  cases hrefused

end PlayerInterface.Cdmi
