import PlayerInterface.Player.Feeding

/-!
# Only sources that are set up are fed

A call of `SendHelper` tests its stream under the lock of the stream, so what the test finds lasts
until the push. The auxiliary stream is not locked, and a wait for it that failed counts only if
injection was paused when the call began to forward.
-/

namespace PlayerInterface.Player

open PlayerInterface.Core

/-- Every push was to a source that was set up, and a call that pushed nothing returned `false`. -/
structure FedOnly {ι κ : Type} (s : FeedState ι κ) : Prop where
  pushes : ∀ p ∈ s.pushes, p.stream.sourceConfigured = true ∧ p.stream.source = true
  returns : ∀ r ∈ s.results, r.pushed = false → r.returned = false

/-! ## The condition -/

/-- The call has passed the test of a target, by a wait that succeeded or without one, and is to push
to it unless injection is paused or no buffer is allocated. -/
def SendCall.passed (call : SendCall) : Target → Bool
  | .own =>
      match call.pc with
      | .idle | .lockSource | .unlockSource | .checkConfigured .own | .checkFormat .own
      | .lockSetup .own => false
      | .testTime .own | .waiting .own | .relockSetup .own | .testSetup .own | .unlockSetup .own
      | .afterWait .own => call.status
      | _ => true
  | .aux =>
      match call.pc with
      | .testTime .aux | .waiting .aux | .relockSetup .aux | .testSetup .aux | .unlockSetup .aux
      | .afterWait .aux => call.status
      | .pushCopy => true
      | _ => false

namespace FeedState

variable {ι κ : Type}

/-- The stream of a target. -/
def target (s : FeedState ι κ) (j : ι) (target : Target) : FedStream :=
  s.stream ((s.calls j).targetType target)

/-- A step that does not go wrong. No test finds the flag of a source that is not there yet, or a
stream without a format that is not set up; a wait for the auxiliary source succeeds, or injection
was paused before; and the auxiliary source is not torn down when a call is about to push to it. -/
def Careful (s : FeedState ι κ) : FeedAct ι κ → Prop
  | .injector j _ =>
      match (s.calls j).pc with
      | .checkConfigured g | .testSetup g =>
          (s.target j g).sourceConfigured = true → (s.target j g).source = true
      | .checkFormat g => (s.target j g).format = .invalid → (s.target j g).ready = true
      | .afterWait .aux => (s.calls j).status = true ∨ (s.calls j).pauseInjecter = true
      | _ => True
  | .worker c =>
      match s.workers c with
      | .clearSource .auxAudio | .clearConfigured .auxAudio =>
          ∀ j, (s.calls j).passed .aux = false
      | _ => True
  | _ => True

end FeedState

/-! ## What one step does -/

namespace FeedState

variable {ι κ : Type} {s t u : FeedState ι κ}

/-- The next step of the call may take it past the test of a target it has not passed before. -/
def Enters (s : FeedState ι κ) (j : ι) (g : Target) : Prop :=
  match (s.calls j).pc with
  | .checkConfigured g' | .testSetup g' => g' = g ∧ (s.target j g).sourceConfigured = true
  | .checkFormat g' => g' = g ∧ (s.target j g).format = .invalid
  | .afterWait .aux => g = .aux ∧ ((s.calls j).pauseInjecter && !(s.calls j).status) = false
  | _ => False

theorem Careful.ready_of_enters {j : ι} {allocated : Bool} {g : Target}
    (h : s.Careful (.injector j allocated)) (he : s.Enters j g) :
    (s.target j g).ready = true ∨ (s.calls j).passed g = true := by
  unfold Enters at he
  unfold Careful at h
  cases hpc : (s.calls j).pc <;> simp only [hpc] at h he
  case checkConfigured g' | testSetup g' =>
      obtain ⟨rfl, hconf⟩ := he
      exact Or.inl (by simp [FedStream.ready, hconf, h hconf])
  case checkFormat g' =>
      obtain ⟨rfl, hformat⟩ := he
      exact Or.inl (h hformat)
  case afterWait g' =>
      cases g' with
      | own => exact he.elim
      | aux =>
          obtain ⟨rfl, hpass⟩ := he
          right
          rw [SendCall.passed, hpc]
          cases hstatus : (s.calls j).status with
          | true => rfl
          | false => simp [hstatus] at h hpass; simp [h] at hpass

/-- What a step of a call leaves as it is, and what it makes of the call. -/
structure InjectorEffect [DecidableEq ι] (s t : FeedState ι κ) (j : ι) (call : SendCall) : Prop where
  stream : t.stream = s.stream
  workers : t.workers = s.workers
  calls : t.calls = Function.update s.calls j call
  passed : ∀ g, call.passed g = true → call.targetType g = (s.calls j).targetType g ∧
    ((s.calls j).passed g = true ∨ s.Enters j g)
  returns : call.pc = .unlockSource → call.pushed = false → call.bPushBuffer = false
  pushes : ∀ p ∈ t.pushes, p ∈ s.pushes ∨
    ∃ g, (s.calls j).passed g = true ∧ p.stream = s.target j g
  results : ∀ r ∈ t.results, r ∈ s.results ∨
    (s.calls j).pc = .unlockSource ∧ r = ⟨(s.calls j).pushed, (s.calls j).bPushBuffer⟩

theorem lockSource_eq_some {type : GstMediaType} {p : Feeder ι κ}
    (h : s.lockSource type p = some u) : s.sourceLock type = none ∧
      u = { s with sourceLock := Function.update s.sourceLock type (some p) } := by
  unfold lockSource at h
  split at h
  case isTrue hfree => exact ⟨hfree, (Option.some.inj h).symm⟩
  case isFalse => cases h

theorem lockSetup_eq_some {p : Feeder ι κ} (h : s.lockSetup p = some u) :
    u = { s with mSourceSetupMutex := some p } := by
  unfold lockSetup at h
  split at h
  case isTrue => exact (Option.some.inj h).symm
  case isFalse => cases h

variable [DecidableEq ι] [DecidableEq κ]

omit [DecidableEq κ] in
/-- A step that only moves the call, and not to its end; of the rest at most the locks change. -/
theorem InjectorEffect.move {j : ι} {call : SendCall}
    (hpassed : ∀ g, call.passed g = true → call.targetType g = (s.calls j).targetType g ∧
      ((s.calls j).passed g = true ∨ s.Enters j g))
    (hreturns : call.pc = .unlockSource → call.pushed = false → call.bPushBuffer = false)
    (hsame : ∃ lock mutex, u = { s with sourceLock := lock, mSourceSetupMutex := mutex }) :
    InjectorEffect s (u.setCall j call) j call := by
  obtain ⟨_, _, rfl⟩ := hsame
  exact ⟨rfl, rfl, rfl, hpassed, hreturns, fun p hp => Or.inl hp, fun r hr => Or.inl hr⟩

omit [DecidableEq κ] in
/-- A step that takes the call past no test. -/
theorem InjectorEffect.stay {j : ι} {call : SendCall} (htype : call.type = (s.calls j).type)
    (hpassed : ∀ g, call.passed g = true → (s.calls j).passed g = true)
    (hreturns : call.pc = .unlockSource → call.pushed = false → call.bPushBuffer = false)
    (hsame : ∃ lock mutex, u = { s with sourceLock := lock, mSourceSetupMutex := mutex }) :
    InjectorEffect s (u.setCall j call) j call := by
  apply InjectorEffect.move _ hreturns hsame
  intro g hg
  have htarget : call.targetType g = (s.calls j).targetType g := by
    cases g with
    | own => exact htype
    | aux => rfl
  exact ⟨htarget, Or.inl (hpassed g hg)⟩

omit [DecidableEq ι] [DecidableEq κ] in
/-- What is pushed to a target the call has passed. -/
theorem pushTo_pushes {j : ι} {g : Target} (hpassed : (s.calls j).passed g = true) {p : Push}
    (hp : p ∈ (s.pushTo ((s.calls j).targetType g)).pushes) : p ∈ s.pushes ∨
      ∃ g, (s.calls j).passed g = true ∧ p.stream = s.target j g := by
  rcases List.mem_append.mp hp with hp | hp
  · exact Or.inl hp
  · rw [List.mem_singleton.mp hp]
    exact Or.inr ⟨g, hpassed, rfl⟩

omit [DecidableEq κ] in
theorem injectorStep_effect {j : ι} {allocated : Bool}
    (hstep : s.injectorStep j allocated = some t) : ∃ call, InjectorEffect s t j call := by
  cases hpc : (s.calls j).pc <;> simp only [injectorStep, hpc] at hstep
  case idle => cases hstep
  case waiting => cases hstep
  case lockSource =>
      rcases Option.map_eq_some_iff.mp hstep with ⟨u, hlock, rfl⟩
      rcases lockSource_eq_some hlock with ⟨_, rfl⟩
      refine ⟨_, .stay rfl (fun g hg => ?_) (by simp) ⟨_, _, rfl⟩⟩
      cases g <;> simp [SendCall.passed] at hg
  case lockSetup g' =>
      rcases Option.map_eq_some_iff.mp hstep with ⟨u, hlock, rfl⟩
      cases lockSetup_eq_some hlock
      refine ⟨_, .stay rfl (fun g hg => ?_) (by simp) ⟨_, _, rfl⟩⟩
      cases g <;> cases g' <;> simp [SendCall.passed, hpc] at hg ⊢
  case relockSetup g' =>
      rcases Option.map_eq_some_iff.mp hstep with ⟨u, hlock, rfl⟩
      cases lockSetup_eq_some hlock
      refine ⟨_, .stay rfl (fun g hg => ?_) (by simp) ⟨_, _, rfl⟩⟩
      cases g <;> cases g' <;> simp [SendCall.passed, hpc] at hg ⊢
      all_goals exact hg
  case checkConfigured g' =>
      split at hstep <;> cases hstep
      · rename_i hconf
        refine ⟨_, .move (fun g hg => ?_) (by cases g' <;> simp [Target.entered]) ⟨_, _, rfl⟩⟩
        cases g <;> cases g' <;>
          simp [SendCall.passed, hpc, SendCall.targetType, Target.entered, Enters, target] at hg ⊢ hconf
        all_goals exact hconf
      · refine ⟨_, .stay rfl (fun g hg => ?_) (by simp) ⟨_, _, rfl⟩⟩
        cases g <;> cases g' <;> simp [SendCall.passed, hpc] at hg ⊢
  case checkFormat g' =>
      split at hstep <;> cases hstep
      · refine ⟨_, .stay rfl (fun g hg => ?_) (by simp) ⟨_, _, rfl⟩⟩
        cases g <;> cases g' <;> simp [SendCall.passed, hpc] at hg ⊢
      · rename_i hformat
        refine ⟨_, .move (fun g hg => ?_) (by cases g' <;> simp [Target.entered]) ⟨_, _, rfl⟩⟩
        cases g <;> cases g' <;>
          simp [SendCall.passed, hpc, SendCall.targetType, Target.entered, Enters, target] at hg ⊢ hformat
        all_goals exact hformat
  case testTime g' =>
      split at hstep <;> cases hstep <;>
        refine ⟨_, .stay rfl (fun g hg => ?_) (by simp) ⟨_, _, rfl⟩⟩ <;>
        cases g <;> cases g' <;> simp [SendCall.passed, hpc] at hg ⊢
      all_goals exact hg
  case testSetup g' =>
      split at hstep
      · cases hstep
        refine ⟨_, .stay rfl (fun g hg => ?_) (by simp) ⟨_, _, rfl⟩⟩
        cases g <;> cases g' <;> simp [SendCall.passed, hpc] at hg ⊢
        all_goals exact hg
      · split at hstep <;> cases hstep
        · rename_i hconf
          refine ⟨_, .move (fun g hg => ?_) (by simp) ⟨_, _, rfl⟩⟩
          cases g <;> cases g' <;>
            simp [SendCall.passed, hpc, SendCall.targetType, Enters, target] at hg ⊢ hconf
          all_goals exact Or.inr hconf
        · refine ⟨_, .stay rfl (fun g hg => ?_) (by simp) ⟨_, _, rfl⟩⟩
          cases g <;> cases g' <;> simp [SendCall.passed, hpc] at hg ⊢
          all_goals exact hg
  case unlockSetup g' =>
      cases hstep
      refine ⟨_, .stay rfl (fun g hg => ?_) (by simp) ⟨_, _, rfl⟩⟩
      cases g <;> cases g' <;> simp [SendCall.passed, hpc] at hg ⊢
      all_goals exact hg
  case afterWait g' =>
      cases g' <;> simp only at hstep <;> split at hstep <;> cases hstep <;>
        refine ⟨_, .move (fun g hg => ?_) (by simp) ⟨_, _, rfl⟩⟩ <;> cases g <;>
        simp_all [SendCall.passed, SendCall.targetType, Enters]
  case readPause | allocate | testForward =>
      split at hstep <;> cases hstep <;>
        refine ⟨_, .stay rfl (fun g hg => ?_) (by simp) ⟨_, _, rfl⟩⟩ <;>
        cases g <;> simp [SendCall.passed, hpc] at hg ⊢
  case passPause =>
      cases hstep
      refine ⟨_, .stay rfl (fun g hg => ?_) (by simp) ⟨_, _, rfl⟩⟩
      cases g <;> simp [SendCall.passed, hpc] at hg ⊢
  case pushCopy =>
      split at hstep <;> cases hstep
      · have haux : (s.calls j).passed .aux = true := by simp [SendCall.passed, hpc]
        refine ⟨_, rfl, rfl, rfl, fun g hg => ?_, by simp, fun p hp => pushTo_pushes haux hp,
          fun r hr => Or.inl hr⟩
        cases g <;> simp [SendCall.passed, hpc, SendCall.targetType] at hg ⊢
      · refine ⟨_, .stay rfl (fun g hg => ?_) (by simp) ⟨_, _, rfl⟩⟩
        cases g <;> simp [SendCall.passed, hpc] at hg ⊢
  case push =>
      cases hstep
      have hown : (s.calls j).passed .own = true := by simp [SendCall.passed, hpc]
      refine ⟨_, rfl, rfl, rfl, fun g hg => ?_, by simp, fun p hp => pushTo_pushes hown hp,
        fun r hr => Or.inl hr⟩
      cases g <;> simp [SendCall.passed] at hg
  case unlockSource =>
      cases hstep
      refine ⟨{}, rfl, rfl, rfl, ?_, by simp, fun p hp => Or.inl hp, ?_⟩
      · intro g hg
        cases g <;> simp [SendCall.passed] at hg
      · intro r hr
        rcases List.mem_append.mp hr with hr | hr
        · exact Or.inl hr
        · exact Or.inr ⟨hpc, List.mem_singleton.mp hr⟩

end FeedState

/-! ## Who holds the lock of a stream -/

/-- Between `pthread_mutex_lock` and `pthread_mutex_unlock` of the stream's `sourceLock`. -/
def SendCall.holds (call : SendCall) (type : GstMediaType) : Bool :=
  match call.pc with
  | .idle | .lockSource => false
  | _ => decide (call.type = type)

def WorkerPc.holds : WorkerPc → GstMediaType → Bool
  | clearFormat t, type | clearSource t, type | clearConfigured t, type | unlockSource t, type =>
      decide (t = type)
  | _, _ => false

theorem SendCall.holds_of_passed {call : SendCall} (h : call.passed .own = true) :
    call.holds call.type = true := by
  unfold SendCall.passed at h
  unfold SendCall.holds
  cases hpc : call.pc <;> simp [hpc] at h ⊢

namespace FeedState

variable {ι κ : Type} {s t u : FeedState ι κ}

def holds (s : FeedState ι κ) : Feeder ι κ → GstMediaType → Bool
  | .injector j, type => (s.calls j).holds type
  | .worker c, type => (s.workers c).holds type

/-- The recorded holders are the threads that stand behind the lock. -/
def Agree (s : FeedState ι κ) : Prop :=
  HoldersAgree s.sourceLock fun p type => s.holds p type = true

variable [DecidableEq ι] [DecidableEq κ]

theorem setCall_moves (s : FeedState ι κ) (j : ι) (call : SendCall) :
    Moves s.holds (s.setCall j call).holds (.injector j) call.holds := by
  intro q type
  cases q with
  | injector k =>
      by_cases hk : k = j
      · subst hk
        simp [holds, setCall]
      · simp [holds, setCall, hk]
  | worker c => simp [holds, setCall]

theorem setWorker_moves (s : FeedState ι κ) (c : κ) (pc : WorkerPc) :
    Moves s.holds (s.setWorker c pc).holds (.worker c) pc.holds := by
  intro q type
  cases q with
  | worker d =>
      by_cases hd : d = c
      · subst hd
        simp [holds, setWorker]
      · simp [holds, setWorker, hd]
  | injector j => simp [holds, setWorker]

/-- A step of a call that leaves the locks of the streams. -/
theorem Agree.keepCall (h : s.Agree) {j : ι} {call : SendCall}
    (hheld : ∀ type, call.holds type = (s.calls j).holds type)
    (hlock : u.sourceLock = s.sourceLock) (hholds : u.holds = s.holds) :
    (u.setCall j call).Agree := by
  have hmove := setCall_moves u j call
  rw [hholds] at hmove
  exact HoldersAgree.moveKeep h hmove hlock hheld

theorem Agree.keepWorker (h : s.Agree) {c : κ} {pc : WorkerPc}
    (hheld : ∀ type, pc.holds type = (s.workers c).holds type)
    (hlock : u.sourceLock = s.sourceLock) (hholds : u.holds = s.holds) :
    (u.setWorker c pc).Agree := by
  have hmove := setWorker_moves u c pc
  rw [hholds] at hmove
  exact HoldersAgree.moveKeep h hmove hlock hheld

theorem injectorStep_agree (h : s.Agree) {j : ι} {allocated : Bool}
    (hstep : s.injectorStep j allocated = some t) : t.Agree := by
  cases hpc : (s.calls j).pc <;> simp only [injectorStep, hpc] at hstep
  case idle => cases hstep
  case waiting => cases hstep
  case lockSource =>
      rcases Option.map_eq_some_iff.mp hstep with ⟨u, hlock, rfl⟩
      rcases lockSource_eq_some hlock with ⟨hfree, rfl⟩
      apply HoldersAgree.moveLock h hfree (setCall_moves _ j _) rfl
      intro type
      simp [holds, SendCall.holds, hpc, eq_comm]
  case unlockSource =>
      cases hstep
      have hheld : s.holds (.injector j) (s.calls j).type = true := by
        simp [holds, SendCall.holds, hpc]
      apply HoldersAgree.moveUnlock h hheld (setCall_moves (s.finish (s.calls j)) j {}) rfl
      intro type
      simp [holds, SendCall.holds, hpc, eq_comm]
  case lockSetup | relockSetup =>
      rcases Option.map_eq_some_iff.mp hstep with ⟨u, hlock, rfl⟩
      cases lockSetup_eq_some hlock
      exact h.keepCall (fun type => by simp [SendCall.holds, hpc]) rfl rfl
  case testSetup =>
      split at hstep
      · cases hstep
        exact h.keepCall (fun type => by simp [SendCall.holds, hpc]) rfl rfl
      · split at hstep <;> cases hstep <;>
          exact h.keepCall (fun type => by simp [SendCall.holds, hpc]) rfl rfl
  case checkConfigured target | checkFormat target =>
      split at hstep <;> cases hstep <;> cases target <;>
        exact h.keepCall (fun type => by simp [SendCall.holds, Target.entered, hpc]) rfl rfl
  case afterWait target =>
      cases target <;> simp only at hstep <;> split at hstep <;> cases hstep <;>
        exact h.keepCall (fun type => by simp [SendCall.holds, hpc]) rfl rfl
  case unlockSetup | passPause | push =>
      cases hstep
      exact h.keepCall (fun type => by simp [SendCall.holds, hpc]) rfl rfl
  case testTime | readPause | allocate | testForward | pushCopy =>
      split at hstep <;> cases hstep <;>
        exact h.keepCall (fun type => by simp [SendCall.holds, hpc]) rfl rfl

theorem woken_holds (call : SendCall) (type : GstMediaType) :
    call.woken.holds type = call.holds type := by
  cases hpc : call.pc <;> simp [SendCall.woken, SendCall.holds, hpc]

omit [DecidableEq ι] [DecidableEq κ] in
theorem notifyAll_holds (s : FeedState ι κ) : s.notifyAll.holds = s.holds := by
  funext p type
  cases p with
  | injector j => exact woken_holds (s.calls j) type
  | worker c => rfl

theorem workerStep_agree (h : s.Agree) {c : κ} (hstep : s.workerStep c = some t) : t.Agree := by
  cases hpc : s.workers c <;> simp only [workerStep, hpc] at hstep
  case idle => cases hstep
  case testFormat type =>
      split at hstep <;> cases hstep <;>
        exact h.keepWorker (fun other => by rw [hpc]; rfl) rfl rfl
  case lockSource type =>
      rcases Option.map_eq_some_iff.mp hstep with ⟨u, hlock, rfl⟩
      rcases lockSource_eq_some hlock with ⟨hfree, rfl⟩
      apply HoldersAgree.moveLock h hfree (setWorker_moves _ c _) rfl
      intro other
      simp [holds, WorkerPc.holds, hpc, eq_comm]
  case unlockSource type =>
      cases hstep
      have hheld : s.holds (.worker c) type = true := by simp [holds, WorkerPc.holds, hpc]
      apply HoldersAgree.moveUnlock h hheld (setWorker_moves (s.unlockSource type) c .idle) rfl
      intro other
      simp [holds, WorkerPc.holds, hpc, eq_comm]
  case lockSetup pause =>
      rcases Option.map_eq_some_iff.mp hstep with ⟨u, hlock, rfl⟩
      cases lockSetup_eq_some hlock
      exact h.keepWorker (fun other => by rw [hpc]; rfl) rfl rfl
  case assignPause pause =>
      cases hstep
      cases pause with
      | true => exact h.keepWorker (fun other => by rw [hpc]; rfl) rfl rfl
      | false => exact h.keepWorker (fun other => by rw [hpc]; rfl) rfl (notifyAll_holds _)
  all_goals
    cases hstep
    exact h.keepWorker (fun other => by rw [hpc]; rfl) rfl rfl

/-! ## What the others do -/

theorem woken_passed (call : SendCall) (g : Target) : call.woken.passed g = call.passed g := by
  cases hpc : call.pc <;> cases g <;> simp [SendCall.woken, SendCall.passed, hpc]
  all_goals
    rename_i g'
    cases g' <;> rfl

theorem woken_targetType (call : SendCall) (g : Target) :
    call.woken.targetType g = call.targetType g := by
  cases hpc : call.pc <;> cases g <;> simp [SendCall.woken, SendCall.targetType, hpc]

theorem woken_unlockSource {call : SendCall} (h : call.woken.pc = .unlockSource) :
    call.woken = call := by
  cases hpc : call.pc <;> simp [SendCall.woken, hpc] at h ⊢

/-- What a step of another thread leaves as it is: at most the calls are woken, and a source stays
ready unless it is being torn down. -/
structure WorkerEffect (s t : FeedState ι κ) (c : κ) : Prop where
  calls : t.calls = s.calls ∨ t.calls = fun j => (s.calls j).woken
  pushes : t.pushes = s.pushes
  results : t.results = s.results
  ready : ∀ type, (s.stream type).ready = true → (t.stream type).ready = true ∨
    s.workers c = .clearSource type ∨ s.workers c = .clearConfigured type

omit [DecidableEq ι] [DecidableEq κ] in
/-- A stream is replaced by one that is ready if it was. -/
theorem ready_setStream {type other : GstMediaType} {stream : FedStream}
    (h : (s.stream type).ready = true → stream.ready = true)
    (hready : (s.stream other).ready = true) : ((s.setStream type stream).stream other).ready = true := by
  by_cases ho : other = type
  · subst ho
    simpa [setStream] using h hready
  · simpa [setStream, ho] using hready

omit [DecidableEq ι] in
theorem workerStep_effect {c : κ} (hstep : s.workerStep c = some t) : WorkerEffect s t c := by
  cases hpc : s.workers c <;> simp only [workerStep, hpc] at hstep
  case idle => cases hstep
  case testFormat type =>
      split at hstep <;> cases hstep <;> exact ⟨Or.inl rfl, rfl, rfl, fun _ h => Or.inl h⟩
  case lockSource type =>
      rcases Option.map_eq_some_iff.mp hstep with ⟨u, hlock, rfl⟩
      rcases lockSource_eq_some hlock with ⟨_, rfl⟩
      exact ⟨Or.inl rfl, rfl, rfl, fun _ h => Or.inl h⟩
  case lockSetup pause =>
      rcases Option.map_eq_some_iff.mp hstep with ⟨u, hlock, rfl⟩
      cases lockSetup_eq_some hlock
      exact ⟨Or.inl rfl, rfl, rfl, fun _ h => Or.inl h⟩
  case assignPause pause =>
      cases hstep
      cases pause with
      | true => exact ⟨Or.inl rfl, rfl, rfl, fun _ h => Or.inl h⟩
      | false => exact ⟨Or.inr rfl, rfl, rfl, fun _ h => Or.inl h⟩
  case clearFormat type =>
      cases hstep
      exact ⟨Or.inl rfl, rfl, rfl, fun _ h => Or.inl (ready_setStream (fun hr => hr) h)⟩
  case takeSource type =>
      cases hstep
      refine ⟨Or.inl rfl, rfl, rfl, fun _ h => Or.inl (ready_setStream (fun hr => ?_) h)⟩
      simpa [FedStream.ready] using (Bool.and_eq_true_iff.mp hr).1
  case initializeSource type =>
      cases hstep
      refine ⟨Or.inl rfl, rfl, rfl, fun _ h => Or.inl (ready_setStream (fun hr => ?_) h)⟩
      simpa [FedStream.ready] using (Bool.and_eq_true_iff.mp hr).2
  case createAppSrc =>
      cases hstep
      refine ⟨Or.inl rfl, rfl, rfl, fun _ h => Or.inl (ready_setStream (fun hr => ?_) h)⟩
      simpa [FedStream.ready] using (Bool.and_eq_true_iff.mp hr).2
  case keepAppSrc =>
      cases hstep
      refine ⟨Or.inl rfl, rfl, rfl, fun _ h => Or.inl (ready_setStream (fun hr => ?_) h)⟩
      simpa [FedStream.ready] using (Bool.and_eq_true_iff.mp hr).1
  case clearSource type | clearConfigured type =>
      cases hstep
      refine ⟨Or.inl rfl, rfl, rfl, fun other h => ?_⟩
      by_cases ho : other = type
      · exact Or.inr (by simp [hpc, ho])
      · exact Or.inl (by simpa [setStream, setWorker, ho] using h)
  case unlockSource type =>
      cases hstep
      exact ⟨Or.inl rfl, rfl, rfl, fun _ h => Or.inl h⟩
  case unlockSetup =>
      cases hstep
      exact ⟨Or.inl rfl, rfl, rfl, fun _ h => Or.inl h⟩

/-! ## The invariants -/

/-- A call that ends without a push returns `false`. -/
structure Accounted (s : FeedState ι κ) : Prop where
  calls : ∀ j, (s.calls j).pc = .unlockSource → (s.calls j).pushed = false →
    (s.calls j).bPushBuffer = false
  results : ∀ r ∈ s.results, r.pushed = false → r.returned = false

/-- A call that has passed a test finds the source ready until it pushes. -/
structure Sound (s : FeedState ι κ) : Prop where
  agree : s.Agree
  ready : ∀ j g, (s.calls j).passed g = true → (s.target j g).ready = true
  pushes : ∀ p ∈ s.pushes, p.stream.ready = true

omit [DecidableEq ι] [DecidableEq κ] in
theorem accounted_init (h : s.Initial) : s.Accounted where
  calls j hpc := by
    rw [h.calls j] at hpc
    cases hpc
  results := by simp [h.results]

omit [DecidableEq ι] [DecidableEq κ] in
theorem sound_init (h : s.Initial) : s.Sound where
  agree := by
    intro p type
    rw [h.sourceLock type]
    have hno : s.holds p type = false := by
      cases p with
      | injector j =>
          show (s.calls j).holds type = false
          rw [h.calls j]
          rfl
      | worker c =>
          show (s.workers c).holds type = false
          rw [h.workers c]
          rfl
    simp [hno]
  ready j g hp := by
    rw [h.calls j] at hp
    cases g <;> cases hp
  pushes := by simp [h.pushes]

/-! ### Steps of a call -/

omit [DecidableEq κ] in
theorem Accounted.injector (h : s.Accounted) {j : ι} {call : SendCall}
    (he : InjectorEffect s t j call) : t.Accounted where
  calls k hpc := by
    rw [he.calls] at hpc ⊢
    by_cases hk : k = j
    · subst hk
      rw [Function.update_self] at hpc ⊢
      exact he.returns hpc
    · rw [Function.update_of_ne hk] at hpc ⊢
      exact h.calls k hpc
  results r hr := by
    rcases he.results r hr with hr | ⟨hpc, hr⟩
    · exact h.results r hr
    · rw [hr]
      exact h.calls j hpc

theorem Sound.injector (h : s.Sound) {j : ι} {allocated : Bool}
    (hcareful : s.Careful (.injector j allocated)) (hstep : s.injectorStep j allocated = some t) :
    t.Sound := by
  obtain ⟨call, he⟩ := injectorStep_effect hstep
  refine ⟨injectorStep_agree h.agree hstep, ?_, ?_⟩
  · intro k g hp
    unfold target
    rw [he.calls] at hp ⊢
    rw [he.stream]
    by_cases hk : k = j
    · subst hk
      rw [Function.update_self] at hp ⊢
      obtain ⟨htype, hbefore⟩ := he.passed g hp
      rw [htype]
      rcases hbefore with hbefore | henters
      · exact h.ready k g hbefore
      · rcases hcareful.ready_of_enters henters with hready | hpassed
        · exact hready
        · exact h.ready k g hpassed
    · rw [Function.update_of_ne hk] at hp ⊢
      exact h.ready k g hp
  · intro p hp
    rcases he.pushes p hp with hp | ⟨g, hpassed, hstream⟩
    · exact h.pushes p hp
    · rw [hstream]
      exact h.ready j g hpassed

/-! ### Steps of the others -/

omit [DecidableEq ι] [DecidableEq κ] in
theorem Accounted.worker (h : s.Accounted) {c : κ} (he : WorkerEffect s t c) : t.Accounted where
  calls j hpc := by
    rcases he.calls with hcalls | hcalls
    · rw [hcalls] at hpc ⊢
      exact h.calls j hpc
    · rw [hcalls] at hpc ⊢
      have hwoken := woken_unlockSource hpc
      simp only [hwoken] at hpc ⊢
      exact h.calls j hpc
  results := by
    rw [he.results]
    exact h.results

omit [DecidableEq ι] [DecidableEq κ] in
/-- A source is torn down under the lock of its stream, which a call past the test of its own stream
holds; of the auxiliary stream the condition speaks. -/
theorem Sound.ready_worker (h : s.Sound) {c : κ} (hcareful : s.Careful (.worker c))
    (he : WorkerEffect s t c) {j : ι} {g : Target} (hp : (s.calls j).passed g = true) :
    (t.stream ((s.calls j).targetType g)).ready = true := by
  rcases he.ready _ (h.ready j g hp) with hready | hclear
  · exact hready
  · exfalso
    cases g with
    | own =>
        have hworker : s.holds (.worker c) (s.calls j).type = true := by
          show (s.workers c).holds (s.calls j).type = true
          rcases hclear with hclear | hclear <;> rw [hclear] <;>
            simp [WorkerPc.holds, SendCall.targetType]
        have hcall : s.holds (.injector j) (s.calls j).type = true := SendCall.holds_of_passed hp
        have hboth := ((h.agree _ _).mpr hworker).symm.trans ((h.agree _ _).mpr hcall)
        cases hboth
    | aux =>
        have hnone : ∀ k, (s.calls k).passed .aux = false := by
          unfold Careful at hcareful
          rcases hclear with hclear | hclear <;>
            simpa only [hclear, SendCall.targetType] using hcareful
        rw [hnone j] at hp
        cases hp

theorem Sound.worker (h : s.Sound) {c : κ} (hcareful : s.Careful (.worker c))
    (hstep : s.workerStep c = some t) : t.Sound := by
  have he := workerStep_effect hstep
  refine ⟨workerStep_agree h.agree hstep, ?_, ?_⟩
  · intro j g hp
    unfold target
    rcases he.calls with hcalls | hcalls
    · rw [hcalls] at hp ⊢
      exact h.ready_worker hcareful he hp
    · rw [hcalls] at hp ⊢
      simp only [woken_passed, woken_targetType] at hp ⊢
      exact h.ready_worker hcareful he hp
  · rw [he.pushes]
    exact h.pushes

/-! ### Calls and the environment -/

omit [DecidableEq κ] in
theorem Accounted.setCall (h : s.Accounted) {j : ι} {call : SendCall}
    (hreturns : call.pc = .unlockSource → call.pushed = false → call.bPushBuffer = false) :
    (s.setCall j call).Accounted where
  calls k hpc := by
    by_cases hk : k = j
    · subst hk
      simp only [FeedState.setCall, Function.update_self] at hpc ⊢
      exact hreturns hpc
    · simp only [FeedState.setCall, Function.update_of_ne hk] at hpc ⊢
      exact h.calls k hpc
  results := h.results

/-- One call is replaced by one that passes what it passed. -/
theorem Sound.setCall (h : s.Sound) {j : ι} {call : SendCall}
    (hheld : ∀ type, call.holds type = (s.calls j).holds type)
    (hpassed : ∀ g, call.passed g = true →
      call.targetType g = (s.calls j).targetType g ∧ (s.calls j).passed g = true) :
    (s.setCall j call).Sound := by
  refine ⟨h.agree.keepCall hheld rfl rfl, ?_, h.pushes⟩
  intro k g hp
  unfold target
  by_cases hk : k = j
  · subst hk
    simp only [FeedState.setCall, Function.update_self] at hp ⊢
    obtain ⟨htype, hbefore⟩ := hpassed g hp
    rw [htype]
    exact h.ready k g hbefore
  · simp only [FeedState.setCall, Function.update_of_ne hk] at hp ⊢
    exact h.ready k g hp

theorem accounted_step (h : s.Accounted) {a : FeedAct ι κ} (hstep : feedStep s a = some t) :
    t.Accounted := by
  cases a with
  | injector j allocated =>
      obtain ⟨call, he⟩ := injectorStep_effect hstep
      exact h.injector he
  | worker c => exact h.worker (workerStep_effect hstep)
  | send j type =>
      simp only [feedStep] at hstep
      split at hstep <;> cases hstep
      exact h.setCall (by simp)
  | wake j =>
      cases hstep
      apply h.setCall
      intro hpc
      have hwoken := woken_unlockSource hpc
      rw [hwoken] at hpc ⊢
      exact h.calls j hpc
  | call c task =>
      simp only [feedStep] at hstep
      split at hstep <;> cases hstep
      exact ⟨h.calls, h.results⟩
  | configure type format =>
      cases hstep
      exact ⟨h.calls, h.results⟩
  | setForwardAudioBuffers on =>
      cases hstep
      exact ⟨h.calls, h.results⟩

theorem sound_step (h : s.Sound) {a : FeedAct ι κ} (hcareful : s.Careful a)
    (hstep : feedStep s a = some t) : t.Sound := by
  cases a with
  | injector j allocated => exact h.injector hcareful hstep
  | worker c => exact h.worker hcareful hstep
  | send j type =>
      simp only [feedStep] at hstep
      split at hstep
      case isFalse => cases hstep
      case isTrue hpc =>
          cases hstep
          apply h.setCall
          · intro other
            simp [SendCall.holds, hpc]
          · intro g hg
            cases g <;> cases hg
  | wake j =>
      cases hstep
      apply h.setCall (woken_holds (s.calls j))
      intro g hg
      rw [woken_passed] at hg
      exact ⟨woken_targetType (s.calls j) g, hg⟩
  | call c task =>
      simp only [feedStep] at hstep
      split at hstep
      case isFalse => cases hstep
      case isTrue hpc =>
          cases hstep
          refine ⟨h.agree.keepWorker (fun other => ?_) rfl rfl, h.ready, h.pushes⟩
          rw [hpc]
          cases task <;> rfl
  | configure type format =>
      cases hstep
      exact ⟨h.agree, fun j g hp => ready_setStream (fun hr => hr) (h.ready j g hp), h.pushes⟩
  | setForwardAudioBuffers on =>
      cases hstep
      exact ⟨h.agree, h.ready, h.pushes⟩

end FeedState

variable {ι κ : Type} [DecidableEq ι] [DecidableEq κ]

open FeedState

theorem accounted_of_reachable {s : FeedState ι κ} (h : (feedSystem ι κ).Reachable s) :
    s.Accounted :=
  h.invariant (fun _ hs => accounted_init hs) fun _ _ _ hs _ hstep => accounted_step hs hstep

/-- In every run of careful steps only sources that are set up are fed. -/
theorem fedOnly_of_careful {s : FeedState ι κ}
    (h : (feedSystem ι κ).Reaches (fun s a => s.Careful a) s) : FedOnly s := by
  have hsound : s.Sound :=
    h.invariant (fun _ hs => sound_init hs) fun _ _ _ hs hc hstep => sound_step hs hc hstep
  exact ⟨fun p hp => Bool.and_eq_true_iff.mp (hsound.pushes p hp),
    (accounted_of_reachable h.reachable).results⟩

/-- A test of careful steps, which excludes every tear-down of the auxiliary source. -/
def guardTest (s : FeedState ι κ) : FeedAct ι κ → Bool
  | .injector j _ =>
      match (s.calls j).pc with
      | .checkConfigured g | .testSetup g =>
          !(s.target j g).sourceConfigured || (s.target j g).source
      | .checkFormat g => decide ((s.target j g).format ≠ .invalid) || (s.target j g).ready
      | .afterWait .aux => (s.calls j).status || (s.calls j).pauseInjecter
      | _ => true
  | .worker c =>
      match s.workers c with
      | .clearSource .auxAudio | .clearConfigured .auxAudio => false
      | _ => true
  | _ => true

omit [DecidableEq ι] [DecidableEq κ] in
theorem careful_of_guardTest (s : FeedState ι κ) (a : FeedAct ι κ) (h : guardTest s a = true) :
    s.Careful a := by
  cases a with
  | injector j allocated =>
      unfold guardTest at h
      unfold Careful
      cases hpc : (s.calls j).pc <;> simp only [hpc] at h ⊢
      case checkConfigured g | testSetup g =>
          intro hconf
          simpa [hconf] using h
      case checkFormat g =>
          intro hformat
          simpa [hformat] using h
      case afterWait g =>
          cases g with
          | own => trivial
          | aux => simpa using h
  | worker c =>
      unfold guardTest at h
      unfold Careful
      cases hpc : s.workers c <;> simp only [hpc] at h ⊢
      case clearSource type | clearConfigured type =>
          cases type
          case auxAudio => cases h
          all_goals trivial
  | _ => trivial

/-- Audio is set up and forwarded; the auxiliary stream has its format, and its source is still to
come. -/
def forwardingState : FeedState Unit Unit where
  stream
    | .audio => { format := .isoBmff, sourceConfigured := true, source := true }
    | .auxAudio => { format := .isoBmff }
    | _ => {}
  forwardAudioBuffers := true

theorem forwardingState_initial : (feedSystem Unit Unit).init forwardingState :=
  ⟨fun _ => rfl, fun _ => rfl, fun _ => rfl, rfl, rfl⟩

/-- A call that comes to wait for the auxiliary source. -/
def sendAudio : List (FeedAct Unit Unit) := .send () .audio :: List.replicate 10 (.injector () true)

/-- The source is found while the call waits, and the call goes on to its end. -/
def foundInTime : List (FeedAct Unit Unit) :=
  sendAudio ++ [.call () (.foundSource .auxAudio), .worker (), .worker (), .wake ()] ++
    List.replicate 7 (.injector () true)

theorem foundInTime_fed : ∃ s, (feedSystem Unit Unit).run forwardingState foundInTime = some s ∧
    s.pushes.length = 2 ∧ s.results = [⟨true, true⟩] ∧ FedOnly s := by
  have hrun : ((feedSystem Unit Unit).run forwardingState foundInTime).map
      (fun s => (s.pushes.length, s.results)) = some (2, [⟨true, true⟩]) := by
    decide
  rcases Option.map_eq_some_iff.mp hrun with ⟨s, hs, hat⟩
  rcases Prod.mk.inj hat with ⟨hpushes, hresults⟩
  have hcareful : (feedSystem Unit Unit).RunOk (fun s a => s.Careful a) forwardingState
      foundInTime := by
    apply System.runOk_of_checkRun careful_of_guardTest
    decide
  exact ⟨s, hs, hpushes, hresults,
    fedOnly_of_careful (System.Reaches.run (.init forwardingState_initial) hcareful hs)⟩

/-- Injection is paused while the call waits: the wait fails, and the buffer is pushed to a source
that is not there. -/
theorem pausedWait_feeds :
    ¬ ∀ s, (feedSystem Unit Unit).Reachable s → FedOnly s := by
  intro hall
  have hrun : ((feedSystem Unit Unit).run forwardingState
      (sendAudio ++ [.call () (.setInjector true), .worker (), .worker (), .worker (), .wake ()] ++
        List.replicate 5 (.injector () true))).map FeedState.pushes =
      some [⟨.auxAudio, { format := .isoBmff }⟩] := by
    decide
  rcases Option.map_eq_some_iff.mp hrun with ⟨s, hs, hpushes⟩
  have hfed := (hall s (System.reachable_of_run forwardingState_initial hs)).pushes
  rw [hpushes] at hfed
  exact absurd (hfed _ (List.mem_singleton.mpr rfl)).1 (by decide)

end PlayerInterface.Player
