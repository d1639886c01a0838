import PlayerInterface.Core.Transition
import PlayerInterface.Ocdm.SessionAdapter

/-!
# The key state of an OCDM session adapter

What `processDRMKey` returns for a session is to rest on a status of that session.
The invariant says which session the last status belongs to; it holds whatever the
callbacks do.
-/

namespace PlayerInterface.Ocdm

open PlayerInterface.Core PlayerInterface.Drm

/-! ## Steps -/

/-- What a step can do, with the part of its guard that the proofs below need. -/
inductive StepsTo (s : State) : Act → State → Prop where
  | generateDRMSession (hpc : s.pc = .idle) :
      StepsTo s .generateDRMSession s.generateDRMSession
  | constructed (result : Construction) : StepsTo s (.constructed result) (s.constructed result)
  | generateKeyRequest (timeout : UInt32) (hbound : s.bound = true) :
      StepsTo s (.generateKeyRequest timeout)
        { s with adapter.m_eKeyState := .KEY_ERROR, pc := .entering .challenge timeout }
  | processDRMKey (key : Option (List Char)) (timeout : UInt32) (hbound : s.bound = true) :
      StepsTo s (.processDRMKey key timeout)
        { s with pc := if key.isSome then .updating timeout else .entering .status timeout }
  | updateFails {timeout : UInt32} (hpc : s.pc = .updating timeout) :
      StepsTo s (.updated true) (s.finish (-1) s.adapter.m_eKeyState)
  | updated {timeout : UInt32} (hpc : s.pc = .updating timeout) :
      StepsTo s (.updated false) { s with pc := .entering .status timeout }
  | enterWait {w : Waited} {timeout : UInt32} (hpc : s.pc = .entering w timeout) :
      StepsTo s .enterWait (s.enterWait w timeout)
  | wake {w : Waited} {timeout : UInt32} (timedOut : Bool) (hpc : s.pc = .blocked w timeout) :
      StepsTo s (.wake timedOut) (s.leaveWait (!timedOut) w)
  | earlyKey (answer : KeyStatus) (hpc : s.pc = .checking) :
      StepsTo s (.checkEarlyKey answer) { s.status answer with pc := .comparing .usable }
  | noEarlyKey (answer : KeyStatus) (hpc : s.pc = .checking) :
      StepsTo s (.checkEarlyKey answer) { s with pc := .comparing .usable }
  | compareStatus {c : Comparison} (hpc : s.pc = .comparing c) :
      StepsTo s .compareStatus (s.compareStatus c)
  | returnStatus (hpc : s.pc = .returning) :
      StepsTo s .returnStatus (s.finish s.adapter.m_keyStatus.value .KEY_ERROR)
  | clearDecryptContext (hpc : s.pc = .idle) :
      StepsTo s .clearDecryptContext s.clearDecryptContext
  | processOCDMChallenge (destUrl challengeData : List Char) :
      StepsTo s (.processOCDMChallenge destUrl challengeData)
        { s with
          adapter := (s.adapter.processOCDMChallenge destUrl challengeData).1
          callbacks :=
            (s.adapter.processOCDMChallenge destUrl challengeData).2 ++ s.callbacks }
  | keyUpdateOCDM (key : List UInt8) (answer : KeyStatus) :
      StepsTo s (.keyUpdateOCDM key answer) (s.keyUpdateOCDM key answer)
  | keysUpdatedOCDM : StepsTo s .keysUpdatedOCDM { s with adapter := s.adapter.keysUpdatedOCDM }
  | waitForState (state : KeyState) (timeout : UInt32) :
      StepsTo s (.waitForState state timeout) (s.waitForState state timeout)
  | waiterWakes (state : KeyState) (timedOut : Bool) :
      StepsTo s (.waiterWakes timedOut) (s.leaveWaitForState state (!timedOut))

theorem step_stepsTo {s t : State} {a : Act} (hstep : s.step a = some t) : StepsTo s a t := by
  cases a with
  | generateDRMSession =>
      obtain ⟨hguard, hstep⟩ := Option.ite_none_right_eq_some.mp hstep
      cases hstep
      exact .generateDRMSession hguard.1
  | constructed result =>
      obtain ⟨-, hstep⟩ := Option.ite_none_right_eq_some.mp hstep
      cases hstep
      exact .constructed result
  | generateKeyRequest timeout =>
      obtain ⟨hguard, hstep⟩ := Option.ite_none_right_eq_some.mp hstep
      cases hstep
      exact .generateKeyRequest timeout hguard.2
  | processDRMKey key timeout =>
      obtain ⟨hguard, hstep⟩ := Option.ite_none_right_eq_some.mp hstep
      cases hstep
      exact .processDRMKey key timeout hguard.2
  | updated error =>
      simp only [State.step] at hstep
      split at hstep
      · rename_i timeout hpc
        cases hstep
        cases error with
        | false => exact .updated hpc
        | true => exact .updateFails hpc
      · cases hstep
  | enterWait =>
      simp only [State.step] at hstep
      split at hstep
      · rename_i w timeout hpc
        cases hstep
        exact .enterWait hpc
      · cases hstep
  | wake timedOut =>
      simp only [State.step] at hstep
      split at hstep
      · rename_i w timeout hpc
        obtain ⟨-, hstep⟩ := Option.ite_none_left_eq_some.mp hstep
        cases hstep
        exact .wake timedOut hpc
      · cases hstep
  | checkEarlyKey answer =>
      obtain ⟨hpc, hstep⟩ := Option.ite_none_right_eq_some.mp hstep
      cases hstep
      split
      · exact .earlyKey answer hpc
      · exact .noEarlyKey answer hpc
  | compareStatus =>
      simp only [State.step] at hstep
      split at hstep
      · rename_i c hpc
        cases hstep
        exact .compareStatus hpc
      · cases hstep
  | returnStatus =>
      obtain ⟨hpc, hstep⟩ := Option.ite_none_right_eq_some.mp hstep
      cases hstep
      exact .returnStatus hpc
  | clearDecryptContext =>
      obtain ⟨hpc, hstep⟩ := Option.ite_none_right_eq_some.mp hstep
      cases hstep
      exact .clearDecryptContext hpc
  | processOCDMChallenge destUrl challengeData =>
      obtain ⟨-, hstep⟩ := Option.ite_none_left_eq_some.mp hstep
      cases hstep
      exact .processOCDMChallenge destUrl challengeData
  | keyUpdateOCDM key answer =>
      obtain ⟨-, hstep⟩ := Option.ite_none_left_eq_some.mp hstep
      cases hstep
      exact .keyUpdateOCDM key answer
  | keysUpdatedOCDM =>
      obtain ⟨-, hstep⟩ := Option.ite_none_left_eq_some.mp hstep
      cases hstep
      exact .keysUpdatedOCDM
  | waitForState state timeout =>
      obtain ⟨-, hstep⟩ := Option.ite_none_left_eq_some.mp hstep
      cases hstep
      exact .waitForState state timeout
  | waiterWakes timedOut =>
      simp only [State.step] at hstep
      split at hstep
      · rename_i state timeout hwaiter
        obtain ⟨-, hstep⟩ := Option.ite_none_left_eq_some.mp hstep
        cases hstep
        exact .waiterWakes state timedOut
      · cases hstep

/-! ## Which session a status belongs to -/

namespace Pc

/-- Inside `generateKeyRequest` or `processDRMKey`. -/
def Working : Pc → Prop
  | idle | constructing | killed => False
  | _ => True

/-- Behind the comparison with `Usable`. -/
def Compared : Pc → Prop
  | comparing .usable => False
  | comparing _ | returning => True
  | _ => False

theorem Compared.working {pc : Pc} (h : pc.Compared) : pc.Working := by
  cases pc with
  | comparing c => trivial
  | returning => trivial
  | _ => exact h.elim

end Pc

/-- The part of the state that decides it. -/
structure View where
  pc : Pc
  m_pOpenCDMSession : Option Nat
  m_keyStatus : KeyStatus
  bound : Bool
  latest : Nat
  answered : Bool
  usable : Bool

def State.view (s : State) : View where
  pc := s.pc
  m_pOpenCDMSession := s.adapter.m_pOpenCDMSession
  m_keyStatus := s.adapter.m_keyStatus
  bound := s.bound
  latest := s.latest
  answered := s.answered
  usable := s.usable

/-- Once the CDM has answered for the session of the latest `generateDRMSession`, its
answers for older sessions do not come any more. -/
structure Sound (v : View) : Prop where
  working : v.pc.Working → v.bound = true
  bound : v.bound = true → v.m_pOpenCDMSession = some v.latest
  le : ∀ n, v.m_pOpenCDMSession = some n → n ≤ v.latest
  constructing : v.pc = .constructing →
    v.bound = false ∧ v.answered = false ∧ ∀ n, v.m_pOpenCDMSession = some n → n < v.latest
  answered : v.answered = true → ∀ n, v.m_pOpenCDMSession = some n → n = v.latest
  usable : v.usable = true → v.answered = true
  current : v.answered = true → v.m_keyStatus = .Usable → v.usable = true
  compared : v.pc.Compared → v.m_keyStatus = .Usable → v.usable = true

namespace Sound

variable {v : View}

theorem start (m_pOpenCDMSystem m_drmCallbacks : Bool) :
    Sound (State.start m_pOpenCDMSystem m_drmCallbacks).view where
  working h := h.elim
  bound h := by cases h
  le _ h := by cases h
  constructing h := by cases h
  answered h := by cases h
  usable h := by cases h
  current h := by cases h
  compared h := h.elim

theorem move (h : Sound v) {pc : Pc} (hworking : pc.Working → v.bound = true)
    (hconstructing : pc ≠ .constructing)
    (hcompared : pc.Compared → v.m_keyStatus = .Usable → v.usable = true) :
    Sound { v with pc := pc } where
  working := hworking
  bound := h.bound
  le := h.le
  constructing hpc := absurd hpc hconstructing
  answered := h.answered
  usable := h.usable
  current := h.current
  compared := hcompared

theorem idle (h : Sound v) : Sound { v with pc := .idle } :=
  h.move (fun hworking => hworking.elim) (by decide) fun hcompared => hcompared.elim

theorem killed (h : Sound v) : Sound { v with pc := .killed } :=
  h.move (fun hworking => hworking.elim) (by decide) fun hcompared => hcompared.elim

theorem work (h : Sound v) (hbound : v.bound = true) {pc : Pc} (hpc : pc.Working)
    (hcompared : pc.Compared → v.m_keyStatus = .Usable → v.usable = true) :
    Sound { v with pc := pc } :=
  h.move (fun _ => hbound) (fun hconstructing => by rw [hconstructing] at hpc; exact hpc)
    hcompared

theorem generate (h : Sound v) {pc : Pc} (hpc : pc = .constructing ∨ pc = .idle) :
    Sound { v with pc, bound := false, latest := v.latest + 1, answered := false,
                   usable := false } where
  working hworking := by rcases hpc with rfl | rfl <;> exact hworking.elim
  bound h := by cases h
  le n hn := (h.le n hn).trans (Nat.le_succ _)
  constructing _ := ⟨rfl, rfl, fun n hn => Nat.lt_succ_of_le (h.le n hn)⟩
  answered h := by cases h
  usable h := by cases h
  current h := by cases h
  compared hcompared := by rcases hpc with rfl | rfl <;> exact hcompared.elim

theorem constructed (h : Sound v) :
    Sound { v with pc := .idle, bound := true, m_pOpenCDMSession := some v.latest } where
  working h := h.elim
  bound _ := rfl
  le _ hn := (Option.some.inj hn).ge
  constructing h := by cases h
  answered _ _ hn := (Option.some.inj hn).symm
  usable := h.usable
  current := h.current
  compared h := h.elim

/-- Nothing is bound to the adapter any more. -/
theorem unbind (h : Sound v) : Sound { v with
    pc := .idle, bound := false, m_pOpenCDMSession := none } where
  working h := h.elim
  bound h := by cases h
  le _ h := by cases h
  constructing h := by cases h
  answered _ _ h := by cases h
  usable := h.usable
  current := h.current
  compared h := h.elim

/-- A status query for a session. -/
theorem query (h : Sound v) {n : Nat} (hn : v.m_pOpenCDMSession = some n) (answer : KeyStatus) :
    Sound { v with
      m_keyStatus := answer
      answered := v.answered || decide (v.m_pOpenCDMSession = some v.latest)
      usable := v.usable || (decide (v.m_pOpenCDMSession = some v.latest) &&
        decide (answer = .Usable)) } := by
  have hreports : v.m_pOpenCDMSession = some v.latest → answer = .Usable →
      (v.usable || (decide (v.m_pOpenCDMSession = some v.latest) &&
        decide (answer = .Usable))) = true := by
    intro hlatest hanswer
    simp [hlatest, hanswer]
  have hanswered : (v.answered || decide (v.m_pOpenCDMSession = some v.latest)) = true →
      v.m_pOpenCDMSession = some v.latest := by
    intro hor
    rcases (Bool.or_eq_true _ _).mp hor with hold | hnow
    · rw [hn, h.answered hold n hn]
    · exact of_decide_eq_true hnow
  constructor
  · exact h.working
  · exact h.bound
  · exact h.le
  · intro hpc
    obtain ⟨hbound, hnot, hlt⟩ := h.constructing hpc
    refine ⟨hbound, ?_, hlt⟩
    have hother : v.m_pOpenCDMSession ≠ some v.latest := fun hlatest =>
      (hlt v.latest hlatest).false
    simp [hnot, hother]
  · intro hor m hm
    exact Option.some.inj (hm.symm.trans (hanswered hor))
  · intro hor
    rcases (Bool.or_eq_true _ _).mp hor with hold | hnow
    · simp [h.usable hold]
    · simp [((Bool.and_eq_true _ _).mp hnow).1]
  · exact fun hor => hreports (hanswered hor)
  · exact fun hcompared => hreports (h.bound (h.working hcompared.working))

end Sound

/-! ## Every step keeps it -/

section
variable {s t : State}

theorem sound_generateDRMSession (hsound : Sound s.view) (hpc : s.pc = .idle) :
    Sound s.generateDRMSession.view := by
  unfold State.generateDRMSession
  dsimp only
  split
  · exact hsound.generate (Or.inl rfl)
  · exact hsound.generate (Or.inr hpc)

theorem sound_constructed (hsound : Sound s.view) (result : Construction) :
    Sound (s.constructed result).view := by
  cases result with
  | session => exact hsound.constructed
  | failure keepsPointer =>
      cases keepsPointer with
      | false => exact hsound.unbind
      | true => exact hsound.idle

theorem takeChallenge_keeps (a : OCDMSessionAdapter) (ready : Bool) :
    (a.takeChallenge ready).1.m_pOpenCDMSession = a.m_pOpenCDMSession ∧
      (a.takeChallenge ready).1.m_keyStatus = a.m_keyStatus := by
  unfold OCDMSessionAdapter.takeChallenge
  split
  · split <;> exact ⟨rfl, rfl⟩
  · exact ⟨rfl, rfl⟩

theorem processOCDMChallenge_keeps (a : OCDMSessionAdapter) (destUrl challengeData : List Char) :
    (a.processOCDMChallenge destUrl challengeData).1.m_pOpenCDMSession = a.m_pOpenCDMSession ∧
      (a.processOCDMChallenge destUrl challengeData).1.m_keyStatus = a.m_keyStatus := by
  unfold OCDMSessionAdapter.processOCDMChallenge
  dsimp only
  split <;> exact ⟨rfl, rfl⟩

theorem sound_leaveWait (hsound : Sound s.view) (hbound : s.bound = true) (ready : Bool)
    (w : Waited) : Sound (s.leaveWait ready w).view := by
  cases w with
  | challenge =>
      have hview : (s.leaveWait ready .challenge).view = { s.view with pc := .idle } := by
        obtain ⟨hsession, hstatus⟩ := takeChallenge_keeps
          { s.adapter with m_challengeReady := s.adapter.m_challengeReady.reset } ready
        simp only [State.leaveWait, State.view, hsession, hstatus]
      rw [hview]
      exact hsound.idle
  | status => exact hsound.work hbound trivial False.elim

theorem sound_compareStatus (hsound : Sound s.view) {c : Comparison} (hpc : s.pc = .comparing c) :
    Sound (s.compareStatus c).view := by
  have hbound : s.bound = true := hsound.working (by rw [State.view, hpc]; trivial)
  unfold State.compareStatus
  split
  · cases c with
    | hwError => exact hsound.killed
    | _ => exact hsound.idle
  · rename_i hdiffers
    cases c with
    | usable => exact hsound.work hbound trivial fun _ hstatus => absurd hstatus hdiffers
    | _ =>
        exact hsound.work hbound trivial fun _ => hsound.compared (by rw [State.view, hpc]; trivial)

theorem sound_keyUpdateOCDM (hsound : Sound s.view) (key : List UInt8) (answer : KeyStatus) :
    Sound (s.keyUpdateOCDM key answer).view := by
  unfold State.keyUpdateOCDM
  split
  · rename_i n hn
    exact hsound.query hn answer
  · exact hsound

theorem sound_processOCDMChallenge (hsound : Sound s.view) (destUrl challengeData : List Char)
    (callbacks : List DrmCallback) :
    Sound (State.view { s with
      adapter := (s.adapter.processOCDMChallenge destUrl challengeData).1, callbacks }) := by
  obtain ⟨hsession, hstatus⟩ := processOCDMChallenge_keeps s.adapter destUrl challengeData
  simp only [State.view, hsession, hstatus]
  exact hsound

theorem sound_step {a : Act} (hsound : Sound s.view) (hstep : StepsTo s a t) : Sound t.view := by
  have hbound : s.pc.Working → s.bound = true := hsound.working
  cases hstep with
  | generateDRMSession hpc => exact sound_generateDRMSession hsound hpc
  | constructed result => exact sound_constructed hsound result
  | generateKeyRequest timeout hbound => exact hsound.work hbound trivial False.elim
  | processDRMKey key timeout hbound =>
      cases key with
      | none => exact hsound.work hbound trivial False.elim
      | some key => exact hsound.work hbound trivial False.elim
  | updateFails hpc => exact hsound.idle
  | updated hpc => exact hsound.work (hbound (by rw [hpc]; trivial)) trivial False.elim
  | @enterWait w timeout hpc =>
      have hbound := hbound (by rw [hpc]; trivial)
      unfold State.enterWait
      split
      · exact sound_leaveWait hsound hbound true w
      · exact hsound.work hbound trivial False.elim
  | wake timedOut hpc => exact sound_leaveWait hsound (hbound (by rw [hpc]; trivial)) _ _
  | earlyKey answer hpc =>
      have hbound := hbound (by rw [hpc]; trivial)
      exact (hsound.query (hsound.bound hbound) answer).work hbound trivial False.elim
  | noEarlyKey answer hpc =>
      exact hsound.work (hbound (by rw [hpc]; trivial)) trivial False.elim
  | compareStatus hpc => exact sound_compareStatus hsound hpc
  | returnStatus hpc => exact hsound.idle
  | clearDecryptContext hpc =>
      have hunbound := hsound.unbind
      rw [← hpc] at hunbound
      exact hunbound
  | processOCDMChallenge destUrl challengeData =>
      exact sound_processOCDMChallenge hsound destUrl challengeData _
  | keyUpdateOCDM key answer => exact sound_keyUpdateOCDM hsound key answer
  | keysUpdatedOCDM => exact hsound
  | waitForState state timeout =>
      unfold State.waitForState
      split
      · exact hsound
      · split <;> exact hsound
  | waiterWakes state timedOut => exact hsound

end

/-! ## What `processDRMKey` returns -/

def Return.Fresh (r : Return) : Prop :=
  (r.retValue = 0 → r.usable = true) ∧ (r.retValue ≠ 0 → r.m_eKeyState = .KEY_ERROR)

def Fresh (s : State) : Prop := ∀ r ∈ s.returns, r.Fresh

/-- The CDM takes the license, unless the state is an error as it is; and a `Usable`
that is compared comes from no older session. -/
def Current (s : State) : Act → Prop
  | .updated error => error = true → s.adapter.m_eKeyState = .KEY_ERROR
  | .compareStatus => s.pc = .comparing .usable → s.adapter.m_keyStatus = .Usable →
      s.answered = true
  | _ => True

section
variable {s t : State}

theorem fresh_finish (hfresh : Fresh s) (retValue : Int) (m_eKeyState : KeyState) :
    Fresh (s.finish retValue m_eKeyState) ↔
      Return.Fresh { retValue, m_eKeyState, usable := s.usable } := by
  refine ⟨fun h => h _ (List.mem_cons_self), fun h r hr => ?_⟩
  rcases List.mem_cons.mp hr with rfl | hold
  · exact h
  · exact hfresh r hold

theorem fresh_error (hfresh : Fresh s) {retValue : Int} (hretValue : retValue ≠ 0) :
    Fresh (s.finish retValue .KEY_ERROR) :=
  (fresh_finish hfresh _ _).mpr ⟨fun hzero => absurd hzero hretValue, fun _ => rfl⟩

theorem returns_leaveWait (s : State) (ready : Bool) (w : Waited) :
    (s.leaveWait ready w).returns = s.returns := by
  cases w <;> rfl

theorem returns_waitForState (s : State) (state : KeyState) (timeout : UInt32) :
    (s.waitForState state timeout).returns = s.returns := by
  unfold State.waitForState
  split
  · rfl
  · split <;> rfl

theorem fresh_compareStatus_iff (hsound : Sound s.view) (hfresh : Fresh s) {c : Comparison}
    (hpc : s.pc = .comparing c) : Fresh (s.compareStatus c) ↔ Current s .compareStatus := by
  have hidle : c ≠ .usable → Current s .compareStatus := fun hother husable =>
    absurd (Pc.comparing.inj (hpc.symm.trans husable)) hother
  unfold State.compareStatus
  split
  · rename_i hstatus
    cases c with
    | usable =>
        refine (fresh_finish hfresh 0 .KEY_READY).trans ⟨fun h _ _ => ?_, fun h => ?_⟩
        · exact hsound.usable (h.1 rfl)
        · refine ⟨fun _ => hsound.current (h hpc hstatus) hstatus, fun hne => absurd rfl hne⟩
    | hwError => exact iff_of_true hfresh (hidle (by decide))
    | outputRestricted =>
        exact iff_of_true (fresh_error hfresh (by decide)) (hidle (by decide))
    | outputRestrictedHDCP22 =>
        exact iff_of_true (fresh_error hfresh (by decide)) (hidle (by decide))
  · rename_i hdiffers
    refine iff_of_true hfresh fun husable hstatus => ?_
    obtain rfl := Pc.comparing.inj (hpc.symm.trans husable)
    exact absurd hstatus hdiffers

theorem value_eq_zero {status : KeyStatus} : status.value = 0 ↔ status = .Usable := by
  cases status <;> decide

theorem fresh_updateFails_iff (hfresh : Fresh s) :
    Fresh (s.finish (-1) s.adapter.m_eKeyState) ↔ Current s (.updated true) := by
  have hnonzero : (-1 : Int) ≠ 0 := by decide
  refine (fresh_finish hfresh (-1) s.adapter.m_eKeyState).trans ⟨fun h _ => ?_, fun h => ?_⟩
  · exact h.2 hnonzero
  · exact ⟨fun hzero => absurd hzero hnonzero, fun _ => h rfl⟩

/-- A step keeps the returns fresh exactly when it meets the condition. -/
theorem fresh_step_iff {a : Act} (hsound : Sound s.view) (hfresh : Fresh s)
    (hstep : StepsTo s a t) : Fresh t ↔ Current s a := by
  have hkeeps : t.returns = s.returns → Fresh t := fun heq r hr => hfresh r (heq ▸ hr)
  cases hstep with
  | generateDRMSession hpc =>
      refine iff_of_true (hkeeps ?_) trivial
      unfold State.generateDRMSession
      dsimp only
      split <;> rfl
  | constructed result =>
      refine iff_of_true (hkeeps ?_) trivial
      rcases result with _ | _ | _ <;> rfl
  | updateFails hpc => exact fresh_updateFails_iff hfresh
  | updated hpc => exact iff_of_true (hkeeps rfl) fun herror => by cases herror
  | @enterWait w timeout hpc =>
      refine iff_of_true (hkeeps ?_) trivial
      unfold State.enterWait
      split
      · exact returns_leaveWait s true w
      · rfl
  | wake timedOut hpc => exact iff_of_true (hkeeps (returns_leaveWait s _ _)) trivial
  | compareStatus hpc => exact fresh_compareStatus_iff hsound hfresh hpc
  | returnStatus hpc =>
      -- the comparisons have read another status than `Usable` before
      refine iff_of_true ((fresh_finish hfresh _ _).mpr ⟨fun hzero => ?_, fun _ => rfl⟩) trivial
      exact hsound.compared (by rw [State.view, hpc]; trivial) (value_eq_zero.mp hzero)
  | keyUpdateOCDM key answer =>
      refine iff_of_true (hkeeps ?_) trivial
      unfold State.keyUpdateOCDM
      split <;> rfl
  | waitForState state timeout =>
      exact iff_of_true (hkeeps (returns_waitForState s state timeout)) trivial
  | _ => exact iff_of_true (hkeeps rfl) trivial

end

/-- In every run what `processDRMKey` has returned is fresh and final exactly when the
CDM takes each license and no `Usable` of an older session is compared. -/
theorem fresh_run_iff (m_pOpenCDMSystem m_drmCallbacks : Bool) (acts : List Act) :
    adapterSystem.RunAll Fresh (.start m_pOpenCDMSystem m_drmCallbacks) acts ↔
      adapterSystem.RunOk Current (.start m_pOpenCDMSystem m_drmCallbacks) acts :=
  System.runAll_iff_runOk_of_invariant
    (fun (s : State) _ _ (hsound : Sound s.view) hstep => sound_step hsound (step_stepsTo hstep))
    (fun _ _ _ hsound hfresh hstep => fresh_step_iff hsound hfresh (step_stepsTo hstep))
    (Sound.start m_pOpenCDMSystem m_drmCallbacks) (fun _ h => by cases h) acts

/-- A first session gets a usable key; the wait of the second one times out. -/
def staleRun : List Act :=
  [.generateDRMSession, .constructed .session, .processOCDMChallenge ['u'] ['c'],
    .generateKeyRequest 5000, .enterWait, .processDRMKey (some ['k']) 5000, .updated false,
    .keyUpdateOCDM [1] .Usable, .keysUpdatedOCDM, .enterWait, .checkEarlyKey .Usable,
    .compareStatus, .clearDecryptContext,
    .generateDRMSession, .constructed .session, .processOCDMChallenge ['u'] ['c'],
    .generateKeyRequest 5000, .enterWait, .processDRMKey (some ['k']) 5000, .updated false,
    .enterWait, .wake true, .checkEarlyKey .Usable, .compareStatus]

theorem staleRun_not_fresh : ¬ ∀ (m_pOpenCDMSystem m_drmCallbacks : Bool) (acts : List Act),
    adapterSystem.RunAll Fresh (.start m_pOpenCDMSystem m_drmCallbacks) acts := by
  intro h
  have hreturns : (adapterSystem.run (.start true true) staleRun).map State.returns =
      some [{ retValue := 0, m_eKeyState := .KEY_READY, usable := false },
        { retValue := 0, m_eKeyState := .KEY_READY, usable := true }] := by decide
  obtain ⟨t, hrun, ht⟩ := Option.map_eq_some_iff.mp hreturns
  have hfresh := (h true true staleRun).run hrun _ (ht ▸ List.mem_cons_self)
  cases hfresh.1 rfl

end PlayerInterface.Ocdm
