import PlayerInterface.Player.SourceSetup

/-!
# Deadlocks between `Stop` and injection

`SendHelper` keeps its `sourceLock` while it waits for `mSourceSetupMutex`, `Stop`
keeps `mSourceSetupMutex` while it takes every `sourceLock`. All deadlocks of the
system are these two orders meeting on one stream.
-/

namespace PlayerInterface.Player

open PlayerInterface.Core

namespace SetupState

variable {ι κ : Type} {s t u : SetupState ι κ}

/-- The recorded holders are the threads that stand in the locked sections. -/
def Agree (s : SetupState ι κ) : Prop :=
  HoldersAgree s.holder fun p l => s.holds p l = true

theorem lock_eq_some {l : Lock} {p : Party ι κ} (h : s.lock l p = some u) :
    s.holder l = none ∧ u = { s with holder := Function.update s.holder l (some p) } := by
  unfold lock at h
  split at h
  case isTrue hfree => exact ⟨hfree, (Option.some.inj h).symm⟩
  case isFalse => cases h

/-- `Stop` is blocked on the `sourceLock` of an injector that waits for
`mSourceSetupMutex`. -/
def Crossing (s : SetupState ι κ) : Prop :=
  ∃ j rest, (s.injectors j).pc.wantsSetup = true ∧
    s.stop = .lockSource (s.injectors j).type rest

/-- A thread that holds a lock and wants another is an injector with its
`sourceLock` or the stopping thread with `mSourceSetupMutex`. -/
inductive Between (s : SetupState ι κ) : Party ι κ → Lock → Lock → Prop where
  | injector (j : ι) : (s.injectors j).pc.wantsSetup = true →
      Between s (.injector j) (.sourceLock (s.injectors j).type) .mSourceSetupMutex
  | stop (type : GstMediaType) (rest : List GstMediaType) : s.stop = .lockSource type rest →
      Between s .stop .mSourceSetupMutex (.sourceLock type)

theorem between_of_holds_wants {p : Party ι κ} {l m : Lock} (hl : s.holds p l = true)
    (hm : s.wants p = some m) : s.Between p l m := by
  cases p with
  | injector j =>
      have hwants : (s.injectors j).wants = some m := hm
      unfold Injector.wants at hwants
      split at hwants
      case isTrue hpc =>
          simp only [holds, Injector.holds] at hl
          cases l <;> simp [hpc, InjectorPc.inSource, InjectorPc.inSetup] at hl
      case isFalse =>
          split at hwants
          case isTrue hpc =>
              cases hwants
              cases l with
              | sourceLock type =>
                  have htype := of_decide_eq_true (Bool.and_eq_true_iff.mp hl).2
                  exact htype ▸ .injector j hpc
              | mSourceSetupMutex =>
                  have hin : (s.injectors j).pc.inSetup = true := hl
                  cases hj : (s.injectors j).pc <;>
                    simp [hj, InjectorPc.inSetup, InjectorPc.wantsSetup] at hin hpc
          case isFalse => cases hwants
  | stop =>
      have hheld : s.stop.holds l = true := hl
      have hwants : s.stop.wants = some m := hm
      cases hs : s.stop <;> rw [hs] at hheld hwants <;> cases hwants
      case stop.lockSetup.refl => cases hheld
      case stop.lockSource.refl type rest =>
          cases l with
          | sourceLock _ => cases hheld
          | mSourceSetupMutex => exact .stop type rest hs
  | control c =>
      have hheld : (s.controls c).holds l = true := hl
      have hwants : (s.controls c).wants = some m := hm
      cases hs : s.controls c <;> rw [hs] at hheld hwants <;> cases hwants
      cases hheld

theorem Between.cross {p : Party ι κ} {l m : Lock} (h : s.Between p l m) :
    l = .mSourceSetupMutex ↔ m ≠ .mSourceSetupMutex := by
  cases h <;> simp

theorem Between.holds {p : Party ι κ} {l m : Lock} (h : s.Between p l m) :
    s.holds p l = true := by
  cases h with
  | injector j hpc =>
      show ((s.injectors j).pc.inSource && decide _) = true
      cases hj : (s.injectors j).pc <;>
        simp [hj, InjectorPc.wantsSetup, InjectorPc.inSource] at hpc ⊢
  | stop type rest hs =>
      show s.stop.holds _ = true
      rw [hs]
      rfl

theorem Between.wants {p : Party ι κ} {l m : Lock} (h : s.Between p l m) :
    s.wants p = some m := by
  cases h with
  | injector j hpc =>
      show (s.injectors j).wants = _
      unfold Injector.wants
      cases hj : (s.injectors j).pc <;> simp [hj, InjectorPc.wantsSetup] at hpc ⊢
  | stop type rest hs =>
      show s.stop.wants = _
      rw [hs]
      rfl

theorem Agree.holder_iff (h : s.Agree) {p : Party ι κ} {l : Lock} :
    s.holder l = some p ↔ s.holds p l = true := h p l

/-- All deadlocks are crossings. -/
theorem Agree.deadlock_iff (h : s.Agree) : s.locks.Deadlock ↔ s.Crossing := by
  rw [Locks.deadlock_iff_crossing Lock.mSourceSetupMutex fun p l m hl hm =>
    (between_of_holds_wants (h.holder_iff.mp hl) hm).cross]
  constructor
  · intro ⟨p, q, l, hp, hq, hwant, hheld⟩
    have hbp := between_of_holds_wants (h.holder_iff.mp hheld) hp
    have hbq := between_of_holds_wants (h.holder_iff.mp hq) hwant
    cases hbq with
    | stop type rest hstop =>
        cases hbp with
        | injector j hwants => exact ⟨j, rest, hwants, hstop⟩
  · intro ⟨j, rest, hwants, hstop⟩
    have hj := Between.injector j hwants
    have hs := Between.stop _ rest hstop
    exact ⟨.injector j, .stop, .sourceLock (s.injectors j).type, hj.wants,
      h.holder_iff.mpr hs.holds, hs.wants, h.holder_iff.mpr hj.holds⟩

/-! ### The holders -/

theorem agree_init (h : s.Initial) : s.Agree := by
  intro p l
  rw [h.holder l]
  have hno : s.holds p l = false := by
    cases p with
    | injector j =>
        show (s.injectors j).holds l = false
        cases l <;> simp [Injector.holds, h.injectors j, InjectorPc.inSource, InjectorPc.inSetup]
    | stop =>
        show s.stop.holds l = false
        rw [h.stop]
        rfl
    | control c =>
        show (s.controls c).holds l = false
        rw [h.controls c]
        rfl
  simp [hno]

theorem notifyAll_holds (s : SetupState ι κ) (p : Party ι κ) (l : Lock) :
    s.notifyAll.holds p l = s.holds p l := by
  cases p with
  | injector j =>
      show Injector.holds (if _ then _ else _) l = _
      split
      case isTrue hpc =>
          cases l <;> simp [holds, Injector.holds, hpc, InjectorPc.inSource, InjectorPc.inSetup]
      case isFalse => rfl
  | stop => rfl
  | control c => rfl

theorem Injector.holds_eq {inj inj' : Injector} (htype : inj'.type = inj.type)
    (hsource : inj'.pc.inSource = inj.pc.inSource) (hsetup : inj'.pc.inSetup = inj.pc.inSetup)
    (l : Lock) : inj'.holds l = inj.holds l := by
  cases l with
  | sourceLock type =>
      show (_ && decide (_ = type)) = (_ && decide (_ = type))
      rw [htype, hsource]
  | mSourceSetupMutex => exact hsetup

theorem setStop_holder (s : SetupState ι κ) (pc : StopPc) : (s.setStop pc).holder = s.holder :=
  rfl

variable [DecidableEq ι] [DecidableEq κ]

theorem setInjector_holds (j : ι) (inj : Injector) (p : Party ι κ) (l : Lock) :
    (s.setInjector j inj).holds p l = if p = .injector j then inj.holds l else s.holds p l := by
  cases p with
  | injector k =>
      by_cases hk : k = j
      · subst hk
        simp [holds, setInjector]
      · simp [holds, setInjector, hk]
  | stop => simp [holds, setInjector]
  | control c => simp [holds, setInjector]

theorem setControl_holds (c : κ) (pc : ControlPc) (p : Party ι κ) (l : Lock) :
    (s.setControl c pc).holds p l = if p = .control c then pc.holds l else s.holds p l := by
  cases p with
  | control d =>
      by_cases hd : d = c
      · subst hd
        simp [holds, setControl]
      · simp [holds, setControl, hd]
  | stop => simp [holds, setControl]
  | injector j => simp [holds, setControl]

theorem setStop_holds (s : SetupState ι κ) (pc : StopPc) (p : Party ι κ) (l : Lock) :
    (s.setStop pc).holds p l = if p = .stop then pc.holds l else s.holds p l := by
  cases p <;> simp [holds, setStop]

/-- Thread `p` moves to a section in which it holds `held`, the others stay. -/
def Moves (s t : SetupState ι κ) (p : Party ι κ) (held : Lock → Bool) : Prop :=
  ∀ q l, t.holds q l = if q = p then held l else s.holds q l

theorem Agree.moveKeep (h : s.Agree) {p : Party ι κ} {held : Lock → Bool}
    (hmove : s.Moves t p held) (hholder : t.holder = s.holder)
    (hheld : ∀ l, held l = s.holds p l) : t.Agree :=
  HoldersAgree.moveKeep h hmove hholder hheld

theorem Agree.moveLock (h : s.Agree) {p : Party ι κ} {held : Lock → Bool} {l : Lock}
    (hlock : s.lock l p = some u) (hmove : u.Moves t p held) (hholder : t.holder = u.holder)
    (hheld : ∀ m, held m = (s.holds p m || decide (m = l))) : t.Agree := by
  rcases lock_eq_some hlock with ⟨hfree, rfl⟩
  exact HoldersAgree.moveLock h hfree hmove hholder hheld

theorem Agree.moveUnlock (h : s.Agree) {p : Party ι κ} {held : Lock → Bool} {l : Lock}
    (hl : s.holds p l = true) (hmove : (s.unlock l).Moves t p held)
    (hholder : t.holder = (s.unlock l).holder)
    (hheld : ∀ m, held m = (s.holds p m && !decide (m = l))) : t.Agree :=
  HoldersAgree.moveUnlock h hl hmove hholder hheld

theorem injectorStep_agree (h : s.Agree) {j : ι} (hstep : s.injectorStep j = some t) :
    t.Agree := by
  have hkeep : ∀ inj : Injector, inj.type = (s.injectors j).type →
      inj.pc.inSource = (s.injectors j).pc.inSource →
      inj.pc.inSetup = (s.injectors j).pc.inSetup → (s.setInjector j inj).Agree :=
    fun inj htype hsource hsetup => h.moveKeep (setInjector_holds j inj) rfl
      (Injector.holds_eq htype hsource hsetup)
  cases hpc : (s.injectors j).pc <;> simp only [injectorStep, hpc] at hstep
  case idle => cases hstep
  case waiting => cases hstep
  case lockSource =>
      rcases Option.map_eq_some_iff.mp hstep with ⟨u, hlock, rfl⟩
      apply h.moveLock hlock (setInjector_holds j _) rfl
      intro m
      cases m <;>
        simp [holds, Injector.holds, hpc, InjectorPc.inSource, InjectorPc.inSetup, eq_comm]
  case lockSetup | relockSetup =>
      rcases Option.map_eq_some_iff.mp hstep with ⟨u, hlock, rfl⟩
      apply h.moveLock hlock (setInjector_holds j _) rfl
      intro m
      cases m <;> simp [holds, Injector.holds, hpc, InjectorPc.inSource, InjectorPc.inSetup]
  case unlockSetup =>
      cases hstep
      have hheld : s.holds (.injector j) .mSourceSetupMutex = true := by
        simp [holds, Injector.holds, hpc, InjectorPc.inSetup]
      apply h.moveUnlock hheld (setInjector_holds j _) rfl
      intro m
      cases m <;> simp [holds, Injector.holds, hpc, InjectorPc.inSource, InjectorPc.inSetup]
  case unlockSource =>
      cases hstep
      have hheld : s.holds (.injector j) (.sourceLock (s.injectors j).type) = true := by
        simp [holds, Injector.holds, hpc, InjectorPc.inSource]
      apply h.moveUnlock hheld (setInjector_holds j _) rfl
      intro m
      cases m <;>
        simp [holds, Injector.holds, hpc, InjectorPc.inSource, InjectorPc.inSetup, eq_comm]
  case testTime =>
      split at hstep <;> cases hstep
      · have hheld : s.holds (.injector j) .mSourceSetupMutex = true := by
          simp [holds, Injector.holds, hpc, InjectorPc.inSetup]
        apply h.moveUnlock hheld (setInjector_holds j _) rfl
        intro m
        cases m <;> simp [holds, Injector.holds, hpc, InjectorPc.inSource, InjectorPc.inSetup]
      · apply hkeep <;> simp [hpc, InjectorPc.inSource, InjectorPc.inSetup]
  case setupDone =>
      cases hcaller : (s.injectors j).caller <;> simp only [hcaller] at hstep
      · split at hstep <;> cases hstep <;> apply hkeep <;>
          simp [hpc, InjectorPc.inSource, InjectorPc.inSetup]
      · cases hstep
        apply hkeep <;> simp [hpc, InjectorPc.inSource, InjectorPc.inSetup]
  case testSetup =>
      split at hstep
      · cases hstep
        apply hkeep <;> simp [hpc, InjectorPc.inSource, InjectorPc.inSetup]
      · split at hstep <;> cases hstep <;> apply hkeep <;>
          simp [hpc, InjectorPc.inSource, InjectorPc.inSetup]
  -- the sections that keep the `sourceLock` and do not touch the other one
  all_goals
    split at hstep <;> cases hstep <;> apply hkeep <;>
      simp [hpc, InjectorPc.inSource, InjectorPc.inSetup]

theorem stopStep_agree (h : s.Agree) (hstep : s.stopStep = some t) : t.Agree := by
  cases hpc : s.stop <;> simp only [stopStep, hpc] at hstep
  case idle => cases hstep
  case lockSetup =>
      rcases Option.map_eq_some_iff.mp hstep with ⟨u, hlock, rfl⟩
      apply h.moveLock hlock (setStop_holds u _) (setStop_holder u _)
      intro m
      cases m <;> simp [holds, hpc, StopPc.holds]
  case notifyAll =>
      cases hstep
      have hagree : s.notifyAll.Agree := HoldersAgree.keep h rfl fun p l => by
        rw [notifyAll_holds]
      apply hagree.moveKeep (setStop_holds s.notifyAll _) (setStop_holder s.notifyAll _)
      intro l
      show _ = s.stop.holds l
      rw [hpc]
      cases l <;> rfl
  case tearDown streams =>
      cases streams with
      | nil =>
          cases hstep
          have hheld : s.holds .stop .mSourceSetupMutex = true := by
            simp [holds, hpc, StopPc.holds]
          apply h.moveUnlock hheld (setStop_holds _ _) (setStop_holder _ _)
          intro m
          cases m <;> simp [holds, hpc, StopPc.holds]
      | cons type rest =>
          simp only at hstep
          split at hstep <;> cases hstep <;>
            apply h.moveKeep (setStop_holds s _) (setStop_holder s _) <;> intro l <;> cases l <;> simp [holds, hpc, StopPc.holds]
  case lockSource type rest =>
      rcases Option.map_eq_some_iff.mp hstep with ⟨u, hlock, rfl⟩
      apply h.moveLock hlock (setStop_holds u _) (setStop_holder u _)
      intro m
      cases m <;> simp [holds, hpc, StopPc.holds, eq_comm]
  case detach type rest =>
      cases hstep
      apply h.moveKeep (setStop_holds s _) (setStop_holder s _)
      intro l
      cases l <;> simp [holds, hpc, StopPc.holds]
  case unlockSource type rest =>
      cases hstep
      have hheld : s.holds .stop (.sourceLock type) = true := by
        simp [holds, hpc, StopPc.holds]
      apply h.moveUnlock hheld (setStop_holds _ _) (setStop_holder _ _)
      intro m
      cases m <;> simp [holds, hpc, StopPc.holds, eq_comm]

theorem controlStep_agree (h : s.Agree) {c : κ} (hstep : s.controlStep c = some t) :
    t.Agree := by
  cases hpc : s.controls c <;> simp only [controlStep, hpc] at hstep
  case idle => cases hstep
  case lockSetup pause =>
      rcases Option.map_eq_some_iff.mp hstep with ⟨u, hlock, rfl⟩
      apply h.moveLock hlock (setControl_holds c _) rfl
      intro m
      cases m <;> simp [holds, hpc, ControlPc.holds]
  case assign pause =>
      cases hstep
      have hflag : Agree { s with mPauseInjector := pause } := h
      cases pause with
      | true =>
          apply hflag.moveKeep (setControl_holds c _) rfl
          intro l
          cases l <;> simp [holds, hpc, ControlPc.holds]
      | false =>
          have hagree : (notifyAll { s with mPauseInjector := false }).Agree :=
            HoldersAgree.keep hflag rfl fun p l => by rw [notifyAll_holds]
          apply hagree.moveKeep (setControl_holds c _) rfl
          intro l
          rw [notifyAll_holds]
          cases l <;> simp [holds, hpc, ControlPc.holds]
  case unlockSetup =>
      cases hstep
      have hheld : s.holds (.control c) .mSourceSetupMutex = true := by
        simp [holds, hpc, ControlPc.holds]
      apply h.moveUnlock hheld (setControl_holds c _) rfl
      intro m
      cases m <;> simp [holds, hpc, ControlPc.holds]

/-- Every step keeps the holders and the sections in agreement. -/
theorem agree_step (h : s.Agree) {a : SetupAct ι κ} (hstep : setupStep s a = some t) :
    t.Agree := by
  cases a with
  | injector j => exact injectorStep_agree h hstep
  | stop => exact stopStep_agree h hstep
  | control c => exact controlStep_agree h hstep
  | send j type =>
      simp only [setupStep] at hstep
      split at hstep
      case isFalse => cases hstep
      case isTrue hpc =>
          cases hstep
          apply h.moveKeep (setInjector_holds j _) rfl
          intro l
          cases l <;>
            simp [holds, Injector.holds, hpc, InjectorPc.inSource, InjectorPc.inSetup]
  | wake j =>
      simp only [setupStep] at hstep
      split at hstep
      case isFalse => cases hstep
      case isTrue hpc =>
          cases hstep
          apply h.moveKeep (setInjector_holds j _) rfl
          intro l
          cases l <;>
            simp [holds, Injector.holds, hpc, InjectorPc.inSource, InjectorPc.inSetup]
  | callStop =>
      simp only [setupStep] at hstep
      split at hstep
      case isFalse => cases hstep
      case isTrue hpc =>
          cases hstep
          apply h.moveKeep (setStop_holds s _) (setStop_holder s _)
          intro l
          cases l <;> simp [holds, hpc, StopPc.holds]
  | call c pause =>
      simp only [setupStep] at hstep
      split at hstep
      case isFalse => cases hstep
      case isTrue hpc =>
          cases hstep
          apply h.moveKeep (setControl_holds c _) rfl
          intro l
          cases l <;> simp [holds, hpc, ControlPc.holds]
  | configure type format =>
      cases hstep
      exact h
  | sourceReady type =>
      cases hstep
      exact h
  | setForwardAudioBuffers on =>
      cases hstep
      exact h

/-! ### The steps that close a cycle -/

/-- The next step of an injector takes it to the lock in `WaitForSourceSetup`. -/
def EntersSetup (s : SetupState ι κ) (j : ι) : Prop :=
  (s.injectors j).pc = .checkSource ∧ (s.stream (s.injectors j).type).awaitsSetup = true ∨
    (s.injectors j).pc = .forward ∧ (s.stream .auxAudio).awaitsSetup = true

/-- `Stop` comes to the `sourceLock` of an injector that waits for
`mSourceSetupMutex`, or an injector comes to wait for it while `Stop` waits for
the injector's `sourceLock`. -/
def Crosses (s : SetupState ι κ) : SetupAct ι κ → Prop
  | .stop => ∃ type rest j, s.stop = .tearDown (type :: rest) ∧
      (s.stream type).format ≠ .invalid ∧ s.holder (.sourceLock type) = some (.injector j) ∧
      (s.injectors j).pc.wantsSetup = true
  | .injector j => s.EntersSetup j ∧ ∃ rest, s.stop = .lockSource (s.injectors j).type rest
  | .wake j => ∃ rest, s.stop = .lockSource (s.injectors j).type rest
  | _ => False

omit [DecidableEq κ] in
theorem crossing_setInjector (hno : ¬ s.Crossing) (j : ι) (inj : Injector) :
    (s.setInjector j inj).Crossing ↔
      inj.pc.wantsSetup = true ∧ ∃ rest, s.stop = .lockSource inj.type rest := by
  constructor
  · intro ⟨k, rest, hwants, hstop⟩
    by_cases hk : k = j
    · subst hk
      simp only [setInjector, Function.update_self] at hwants hstop
      exact ⟨hwants, rest, hstop⟩
    · simp only [setInjector, Function.update_of_ne hk] at hwants hstop
      exact absurd ⟨k, rest, hwants, hstop⟩ hno
  · intro ⟨hwants, rest, hstop⟩
    refine ⟨j, rest, ?_, ?_⟩
    · simpa only [setInjector, Function.update_self] using hwants
    · simpa only [setInjector, Function.update_self] using hstop

omit [DecidableEq κ] in
/-- What one step of an injector does to the threads: it moves itself, and comes to
want `mSourceSetupMutex` only from the two tests of the source. -/
theorem injectorStep_spec {j : ι} (hstep : s.injectorStep j = some t) :
    ∃ (u : SetupState ι κ) (inj : Injector), t = u.setInjector j inj ∧ u.stop = s.stop ∧
      u.injectors = s.injectors ∧ inj.type = (s.injectors j).type ∧
      (inj.pc.wantsSetup = true ↔ s.EntersSetup j) := by
  unfold EntersSetup
  cases hpc : (s.injectors j).pc <;> simp only [injectorStep, hpc] at hstep
  case idle => cases hstep
  case waiting => cases hstep
  case lockSource =>
      rcases Option.map_eq_some_iff.mp hstep with ⟨u, hlock, rfl⟩
      rcases lock_eq_some hlock with ⟨_, rfl⟩
      exact ⟨_, _, rfl, rfl, rfl, rfl, by simp [InjectorPc.wantsSetup]⟩
  case lockSetup =>
      rcases Option.map_eq_some_iff.mp hstep with ⟨u, hlock, rfl⟩
      rcases lock_eq_some hlock with ⟨_, rfl⟩
      exact ⟨_, _, rfl, rfl, rfl, rfl, by simp [InjectorPc.wantsSetup]⟩
  case relockSetup =>
      rcases Option.map_eq_some_iff.mp hstep with ⟨u, hlock, rfl⟩
      rcases lock_eq_some hlock with ⟨_, rfl⟩
      exact ⟨_, _, rfl, rfl, rfl, rfl, by simp [InjectorPc.wantsSetup]⟩
  case unlockSetup =>
      cases hstep
      exact ⟨_, _, rfl, rfl, rfl, rfl, by simp [InjectorPc.wantsSetup]⟩
  case unlockSource =>
      cases hstep
      exact ⟨_, _, rfl, rfl, rfl, rfl, by simp [InjectorPc.wantsSetup]⟩
  case checkSource =>
      split at hstep <;> cases hstep
      case isTrue haw => exact ⟨_, _, rfl, rfl, rfl, rfl, by simp [InjectorPc.wantsSetup, haw]⟩
      case isFalse haw => exact ⟨_, _, rfl, rfl, rfl, rfl, by simp [InjectorPc.wantsSetup, haw]⟩
  case forward =>
      split at hstep <;> cases hstep
      case isTrue haw => exact ⟨_, _, rfl, rfl, rfl, rfl, by simp [InjectorPc.wantsSetup, haw]⟩
      case isFalse haw => exact ⟨_, _, rfl, rfl, rfl, rfl, by simp [InjectorPc.wantsSetup, haw]⟩
  case setupDone =>
      cases hcaller : (s.injectors j).caller <;> simp only [hcaller] at hstep
      · split at hstep <;> cases hstep <;>
          exact ⟨_, _, rfl, rfl, rfl, rfl, by simp [InjectorPc.wantsSetup]⟩
      · cases hstep
        exact ⟨_, _, rfl, rfl, rfl, rfl, by simp [InjectorPc.wantsSetup]⟩
  case testSetup =>
      split at hstep
      · cases hstep
        exact ⟨_, _, rfl, rfl, rfl, rfl, by simp [InjectorPc.wantsSetup]⟩
      · split at hstep <;> cases hstep <;>
          exact ⟨_, _, rfl, rfl, rfl, rfl, by simp [InjectorPc.wantsSetup]⟩
  all_goals
    split at hstep <;> cases hstep <;>
      exact ⟨_, _, rfl, rfl, rfl, rfl, by simp [InjectorPc.wantsSetup]⟩

omit [DecidableEq κ] in
theorem crossing_injectorStep_iff (hno : ¬ s.Crossing) {j : ι}
    (hstep : s.injectorStep j = some t) : t.Crossing ↔ s.Crosses (.injector j) := by
  rcases injectorStep_spec hstep with ⟨u, inj, rfl, hstop, hinjectors, htype, hwants⟩
  have hnu : ¬ u.Crossing := by
    unfold Crossing
    rw [hstop, hinjectors]
    exact hno
  rw [crossing_setInjector hnu, hstop, htype, hwants]
  exact Iff.rfl

omit [DecidableEq ι] [DecidableEq κ] in
/-- Away from the lock of a stream `Stop` is on no cycle. -/
theorem not_crossing_of_stop (h : ∀ type rest, s.stop ≠ .lockSource type rest) :
    ¬ s.Crossing := fun ⟨_, _, _, hstop⟩ => h _ _ hstop

omit [DecidableEq ι] [DecidableEq κ] in
theorem crossing_stopStep_iff (h : s.Agree) (hstep : s.stopStep = some t) :
    t.Crossing ↔ s.Crosses .stop := by
  have hmoves : ∀ {u : SetupState ι κ} {pc : StopPc},
      (∀ type rest, s.stop = .tearDown (type :: rest) → (s.stream type).format = .invalid) →
      (∀ type rest, pc ≠ .lockSource type rest) →
      ((u.setStop pc).Crossing ↔ s.Crosses .stop) := fun htear hpc => by
    apply iff_of_false (not_crossing_of_stop hpc)
    intro ⟨type, rest, _, hstop, hvalid, _⟩
    exact hvalid (htear type rest hstop)
  cases hpc : s.stop <;> simp only [stopStep, hpc] at hstep
  case idle => cases hstep
  case lockSetup =>
      rcases Option.map_eq_some_iff.mp hstep with ⟨u, hlock, rfl⟩
      apply hmoves <;> simp [hpc]
  case lockSource type rest =>
      rcases Option.map_eq_some_iff.mp hstep with ⟨u, hlock, rfl⟩
      apply hmoves <;> simp [hpc]
  case tearDown streams =>
      cases streams with
      | nil =>
          cases hstep
          apply hmoves <;> simp [hpc]
      | cons type rest =>
          simp only at hstep
          split at hstep <;> cases hstep
          case cons.isFalse.refl hvalid =>
              apply hmoves
              · intro type' rest' hstop
                rw [hpc] at hstop
                cases hstop
                exact not_not.mp hvalid
              · intro type' rest' hstop
                cases hstop
          case cons.isTrue.refl hvalid =>
              constructor
              · intro ⟨j, rest', hwants, hstop⟩
                have htype : type = (s.injectors j).type := (StopPc.lockSource.inj hstop).1
                subst htype
                have hheld := (Between.injector (s := s) j hwants).holds
                exact ⟨_, rest, j, hpc, hvalid, h.holder_iff.mpr hheld, hwants⟩
              · intro ⟨type', rest', j, hstop, _, hholder, hwants⟩
                rw [hpc] at hstop
                cases hstop
                have hheld := h.holder_iff.mp hholder
                have htype := of_decide_eq_true (Bool.and_eq_true_iff.mp hheld).2
                exact ⟨j, rest, hwants, htype ▸ rfl⟩
  all_goals
    cases hstep
    apply hmoves <;> simp [hpc]

omit [DecidableEq ι] in
theorem crossing_controlStep (h : s.Agree) (hno : ¬ s.Crossing) {c : κ}
    (hstep : s.controlStep c = some t) : ¬ t.Crossing := by
  cases hpc : s.controls c <;> simp only [controlStep, hpc] at hstep
  case idle => cases hstep
  case lockSetup pause =>
      rcases Option.map_eq_some_iff.mp hstep with ⟨u, hlock, rfl⟩
      rcases lock_eq_some hlock with ⟨_, rfl⟩
      exact hno
  case unlockSetup =>
      cases hstep
      exact hno
  case assign pause =>
      cases hstep
      -- the mutex is held here, so `Stop` has not come to a `sourceLock`
      have hheld : s.holds (.control c) .mSourceSetupMutex = true := by
        simp [holds, hpc, ControlPc.holds]
      apply not_crossing_of_stop
      intro type rest hstop
      have hstop' : s.stop = .lockSource type rest := by
        cases pause <;> exact hstop
      have hother := (Between.stop type rest hstop').holds
      have hsame := (h.holder_iff.mpr hheld).symm.trans (h.holder_iff.mpr hother)
      cases hsame

/-- A step closes a cycle exactly when it crosses. -/
theorem crossing_step_iff (h : s.Agree) (hno : ¬ s.Crossing) {a : SetupAct ι κ}
    (hstep : setupStep s a = some t) : t.Crossing ↔ s.Crosses a := by
  cases a with
  | injector j => exact crossing_injectorStep_iff hno hstep
  | stop => exact crossing_stopStep_iff h hstep
  | control c => exact iff_of_false (crossing_controlStep h hno hstep) id
  | send j type =>
      simp only [setupStep] at hstep
      split at hstep <;> cases hstep
      rw [crossing_setInjector hno]
      exact iff_of_false (fun hw => by cases hw.1) id
  | wake j =>
      simp only [setupStep] at hstep
      split at hstep <;> cases hstep
      rw [crossing_setInjector hno]
      exact and_iff_right rfl
  | callStop =>
      simp only [setupStep] at hstep
      split at hstep <;> cases hstep
      apply iff_of_false _ id
      apply not_crossing_of_stop
      intro type rest hstop
      cases hstop
  | call c pause =>
      simp only [setupStep] at hstep
      split at hstep <;> cases hstep
      exact iff_of_false hno id
  | configure type format =>
      cases hstep
      exact iff_of_false hno id
  | sourceReady type =>
      cases hstep
      exact iff_of_false hno id
  | setForwardAudioBuffers on =>
      cases hstep
      exact iff_of_false hno id

end SetupState

variable {ι κ : Type} [DecidableEq ι] [DecidableEq κ]

open SetupState

theorem agree_of_reachable {s : SetupState ι κ} (h : (setupSystem ι κ).Reachable s) : s.Agree :=
  h.invariant (fun _ hs => agree_init hs) fun _ _ _ hs _ hstep => agree_step hs hstep

/-- Throughout a run no cycle of threads waits, if and only if `Stop` never comes to
the `sourceLock` of an injector that waits for `mSourceSetupMutex`, and no injector
comes to wait for that while `Stop` waits for the injector's `sourceLock`. -/
theorem noDeadlock_run_iff {s : SetupState ι κ} (hs : (setupSystem ι κ).init s)
    (as : List (SetupAct ι κ)) :
    (setupSystem ι κ).RunAll (fun s => ¬ s.locks.Deadlock) s as ↔
      (setupSystem ι κ).RunOk (fun s a => ¬ s.Crosses a) s as := by
  have hagree := agree_init hs
  have hstart : ¬ s.Crossing := by
    apply not_crossing_of_stop
    intro type rest hstop
    rw [hs.stop] at hstop
    cases hstop
  apply System.runAll_iff_runOk_of_invariant
  · intro s a t h hstep
    exact agree_step h hstep
  · intro s a t h hno hstep
    rw [h.deadlock_iff] at hno
    rw [(agree_step h hstep).deadlock_iff]
    exact not_congr (crossing_step_iff h hno hstep)
  · exact hagree
  · rwa [hagree.deadlock_iff]

/-- No other thread is near the locks of the step. -/
def uncontended (s : SetupState ι κ) : SetupAct ι κ → Bool
  | .stop =>
      match s.stop with
      | .tearDown (type :: _) => (s.holder (.sourceLock type)).isNone
      | _ => true
  | .injector _ | .wake _ =>
      match s.stop with
      | .lockSource _ _ => false
      | _ => true
  | _ => true

omit [DecidableEq ι] [DecidableEq κ] in
theorem not_crosses_of_uncontended (s : SetupState ι κ) (a : SetupAct ι κ)
    (h : uncontended s a = true) : ¬ s.Crosses a := by
  intro hc
  cases a with
  | stop =>
      rcases hc with ⟨type, rest, j, hstop, _, hholder, _⟩
      simp [uncontended, hstop, hholder] at h
  | injector j =>
      rcases hc with ⟨_, rest, hstop⟩
      simp [uncontended, hstop] at h
  | wake j =>
      rcases hc with ⟨rest, hstop⟩
      simp [uncontended, hstop] at h
  | _ => exact hc

/-- The streams of a new player, and nobody at work. -/
def newSetup : SetupState Unit Unit := { stream := fun _ => {} }

theorem newSetup_initial : (setupSystem Unit Unit).init newSetup :=
  ⟨fun _ => rfl, rfl, fun _ => rfl, fun _ => rfl⟩

/-- A buffer is injected into a configured stream, then the player stops. -/
def injectThenStop : List (SetupAct Unit Unit) :=
  [.configure .video .isoBmff, .sourceReady .video, .send () .video, .injector (), .injector (),
    .injector (), .injector (), .callStop, .stop, .stop, .stop, .stop, .stop, .stop, .stop, .stop,
    .stop, .stop]

theorem injectThenStop_noDeadlock :
    (setupSystem Unit Unit).RunAll (fun s => ¬ s.locks.Deadlock) newSetup injectThenStop := by
  apply (noDeadlock_run_iff newSetup_initial injectThenStop).mpr
  apply System.runOk_of_checkRun not_crosses_of_uncontended
  decide

/-- An injector of a stream that is not set up yet waits for the mutex of `Stop`,
`Stop` for the injector's `sourceLock`. -/
theorem stop_injection_deadlocks :
    ¬ ∀ s, (setupSystem Unit Unit).Reachable s → ¬ s.locks.Deadlock := by
  intro hall
  have hrun : ((setupSystem Unit Unit).run newSetup
      [.configure .video .isoBmff, .send () .video, .injector (), .injector (), .callStop, .stop,
        .stop, .stop]).map (fun s => (s.stop, s.injectors ())) =
      some (.lockSource .video [.audio, .subtitle, .auxAudio],
        { pc := .lockSetup, type := .video }) := by
    decide
  rcases Option.map_eq_some_iff.mp hrun with ⟨s, hs, hat⟩
  rcases Prod.mk.inj hat with ⟨hstop, hinjector⟩
  have hreach := System.reachable_of_run newSetup_initial hs
  apply hall s hreach
  rw [(agree_of_reachable hreach).deadlock_iff]
  refine ⟨(), [.audio, .subtitle, .auxAudio], ?_, ?_⟩
  · rw [hinjector]
    rfl
  · rw [hinjector, hstop]

end PlayerInterface.Player
