import PlayerInterface.Core.Locks
import PlayerInterface.Ocdm.SessionAdapter

/-!
# The uses of an OCDM session

One thread binds and clears sessions under `decryptMutex`. Any number of others
decrypt, process keys and take callbacks, each of which hands `m_pOpenCDMSession`
to the CDM. A step reads the pointer, takes or gives up the mutex, or is one call.
-/

namespace PlayerInterface.Ocdm.SessionUse

open PlayerInterface.Core

/-! ## Threads -/

inductive Life where
  | unused
  | constructed
  | closed
  | destructed
deriving DecidableEq, Repr

inductive ControlOp where
  | generateDRMSession
  | clearDecryptContext
deriving DecidableEq, Repr

/-- Where the thread stands that binds and clears. -/
inductive Control where
  | idle
  | locking (op : ControlOp)
  | locked (op : ControlOp)
  | constructing
  | closing
  | destructing
  /-- about to set the pointer to `NULL` -/
  | clearing
  | unlocking
deriving DecidableEq, Repr

/-- The `decrypt` functions of the two adapters. -/
inductive Decrypt where
  /-- of buffers, in `OCDMGSTSessionAdapter` -/
  | gstBuffers
  /-- of a payload, in `OCDMGSTSessionAdapter` -/
  | gstPayload
  /-- in `OCDMBasicSessionAdapter` -/
  | basic
deriving DecidableEq, Repr

inductive UserOp where
  | decrypt (d : Decrypt)
  | processDRMKey (hasKey : Bool)
  | keyUpdateOCDM
deriving DecidableEq, Repr

/-- Where a thread stands that uses the session. -/
inductive User where
  | idle
  /-- at `verifyOutputProtection` and the test for a clear sample -/
  | verifying (d : Decrypt)
  | locking (d : Decrypt)
  /-- the basic adapter encodes the payload for its memory system -/
  | encoding
  | decrypting (d : Decrypt)
  /-- about to map the key id of a failed buffer -/
  | mapping
  /-- about to ask for the status behind a failed decryption -/
  | querying
  | unlocking
  /-- in `processDRMKey` -/
  | updating
  | waiting
  /-- at the test of `m_keyStateIndeterminate` -/
  | checking
  | askingEarly
  /-- in `keyUpdateOCDM` -/
  | answering
  | storing
deriving DecidableEq, Repr

namespace Control

def holds : Control → Bool
  | idle | locking _ => false
  | locked _ | constructing | closing | destructing | clearing | unlocking => true

/-- The pointer still leads to a session that has been closed. -/
def closed : Control → Bool
  | destructing | clearing => true
  | _ => false

theorem holds_of_closed {pc : Control} (h : pc.closed = true) : pc.holds = true := by
  cases pc <;> first | rfl | cases h

end Control

namespace User

def holds : User → Bool
  | encoding | decrypting _ | mapping | querying | unlocking => true
  | _ => false

/-- The next step is a call that gets the session pointer. -/
def calls : User → Bool
  | decrypting _ | querying | updating | askingEarly | answering => true
  | _ => false

end User

/-! ## The system -/

inductive Thread (ι : Type) where
  | control
  | user (i : ι)
deriving DecidableEq, Repr

structure State (ι : Type) where
  m_pOpenCDMSystem : Bool
  m_pOpenCDMSession : Option Nat := none
  m_keyStateIndeterminate : Bool := false
  decryptMutex : Option (Thread ι) := none
  control : Control := .idle
  users : ι → User := fun _ => .idle
  /-- The number of the next session. -/
  next : Nat := 0
  life : Nat → Life := fun _ => .unused

inductive Act (ι : Type) where
  | control (op : ControlOp)
  | user (i : ι) (op : UserOp)
  /-- the end of `opencdm_construct_session` -/
  | constructed (result : Construction)
  /-- the next step of a thread; `success` is the answer it gets, if it asks for one -/
  | advance (p : Thread ι) (success : Bool)

variable {ι : Type} [DecidableEq ι]

namespace State

def setUser (s : State ι) (i : ι) (pc : User) : State ι :=
  { s with users := Function.update s.users i pc }

/-- The session behind the pointer passes into another stage of its life. -/
def setLife (s : State ι) (stage : Life) : Nat → Life :=
  match s.m_pOpenCDMSession with
  | some n => Function.update s.life n stage
  | none => s.life

def constructed (s : State ι) : Construction → State ι
  | .session =>
      { s with
        control := .unlocking
        m_pOpenCDMSession := some s.next
        next := s.next + 1
        life := Function.update s.life s.next .constructed }
  | .failure true => { s with control := .unlocking }
  | .failure false => { s with control := .unlocking, m_pOpenCDMSession := none }

def advanceControl (s : State ι) : Option (State ι) :=
  match s.control with
  | .idle | .constructing => none
  | .locking op =>
      if s.decryptMutex = none then
        some { s with decryptMutex := some .control, control := .locked op }
      else none
  | .locked .generateDRMSession =>
      some { s with control := if s.m_pOpenCDMSystem then .constructing else .unlocking }
  | .locked .clearDecryptContext =>
      some { s with control := if s.m_pOpenCDMSession.isSome then .closing else .unlocking }
  | .closing => some { s with life := s.setLife .closed, control := .destructing }
  | .destructing => some { s with life := s.setLife .destructed, control := .clearing }
  | .clearing => some { s with m_pOpenCDMSession := none, control := .unlocking }
  | .unlocking => some { s with decryptMutex := none, control := .idle }

/-- The first step of a function, with its test of the pointer. -/
def begin (s : State ι) : UserOp → User
  | .decrypt .basic => .verifying .basic
  | .decrypt d => if s.m_pOpenCDMSession.isSome then .verifying d else .idle
  | .processDRMKey hasKey => if hasKey then .updating else .waiting
  | .keyUpdateOCDM => if s.m_pOpenCDMSession.isSome then .answering else .storing

def advanceUser (s : State ι) (i : ι) (success : Bool) : Option (State ι) :=
  match s.users i with
  | .idle => none
  | .verifying d => some (s.setUser i (if success then .locking d else .idle))
  | .locking d =>
      if s.decryptMutex = none then
        some { s.setUser i (if d = .basic then .encoding else .decrypting d) with
          decryptMutex := some (.user i) }
      else none
  | .encoding => some (s.setUser i (if success then .decrypting .basic else .unlocking))
  | .decrypting .gstBuffers => some (s.setUser i (if success then .unlocking else .mapping))
  | .decrypting .gstPayload => some (s.setUser i (if success then .unlocking else .querying))
  | .decrypting .basic => some (s.setUser i .unlocking)
  | .mapping => some (s.setUser i (if success then .querying else .unlocking))
  | .querying => some (s.setUser i .unlocking)
  | .unlocking => some { s.setUser i .idle with decryptMutex := none }
  | .updating => some (s.setUser i (if success then .waiting else .idle))
  | .waiting => some (s.setUser i .checking)
  | .checking => some (s.setUser i (if s.m_keyStateIndeterminate then .askingEarly else .idle))
  | .askingEarly | .answering =>
      some { s.setUser i .idle with m_keyStateIndeterminate := false }
  | .storing => some { s.setUser i .idle with m_keyStateIndeterminate := true }

end State

def useStep (s : State ι) : Act ι → Option (State ι)
  | .control op => if s.control = .idle then some { s with control := .locking op } else none
  | .user i op => if s.users i = .idle then some (s.setUser i (s.begin op)) else none
  | .constructed result => if s.control = .constructing then some (s.constructed result) else none
  | .advance .control _ => s.advanceControl
  | .advance (.user i) success => s.advanceUser i success

/-- Runs from an adapter that has been constructed. -/
def useSystem (ι : Type) [DecidableEq ι] : System (State ι) (Act ι) where
  init s := ∃ m_pOpenCDMSystem, s = { m_pOpenCDMSystem }
  step := useStep

/-! ## The mutex -/

namespace State

def Holds (s : State ι) : Thread ι → Bool
  | .control => s.control.holds
  | .user i => (s.users i).holds

/-- The mutex is held by the thread that stands in a locked section. -/
def Agree (s : State ι) : Prop :=
  HoldersAgree (fun _ : Unit => s.decryptMutex) fun p _ => s.Holds p = true

section
variable {s t : State ι} {p : Thread ι}

theorem setUser_holds (s : State ι) (i : ι) (pc : User) (q : Thread ι) :
    (s.setUser i pc).Holds q = if q = .user i then pc.holds else s.Holds q := by
  cases q with
  | control => rfl
  | user j =>
      by_cases hj : j = i
      · subst hj
        simp [Holds, setUser]
      · simp [Holds, setUser, hj]

omit [DecidableEq ι] in
theorem Agree.keep (h : s.Agree) (hmutex : t.decryptMutex = s.decryptMutex)
    (hholds : ∀ q, t.Holds q = s.Holds q) : t.Agree :=
  HoldersAgree.keep h (by rw [hmutex]) fun q _ => by rw [hholds]

theorem Agree.take (h : s.Agree) (hfree : s.decryptMutex = none)
    (hmutex : t.decryptMutex = some p)
    (hholds : ∀ q, t.Holds q = if q = p then true else s.Holds q) : t.Agree := by
  refine HoldersAgree.acquire h (p := p) (l := ()) hfree ?_ fun q _ => ?_
  · rw [hmutex]
    exact funext fun l => by rw [Subsingleton.elim l (), Function.update_self]
  · rw [hholds]
    by_cases hq : q = p <;> simp [hq]

theorem Agree.give (h : s.Agree) (hheld : s.Holds p = true) (hmutex : t.decryptMutex = none)
    (hholds : ∀ q, t.Holds q = if q = p then false else s.Holds q) : t.Agree := by
  refine HoldersAgree.release h (p := p) (l := ()) hheld ?_ fun q _ => ?_
  · rw [hmutex]
    exact funext fun l => by rw [Subsingleton.elim l (), Function.update_self]
  · rw [hholds]
    by_cases hq : q = p <;> simp [hq]

omit [DecidableEq ι] in
/-- Two threads do not stand in locked sections at once. -/
theorem Agree.exclusive (h : s.Agree) {q : Thread ι} (hp : s.Holds p = true)
    (hq : s.Holds q = true) : p = q :=
  Option.some.inj (((h p ()).mpr hp).symm.trans ((h q ()).mpr hq))

theorem Agree.user (h : s.Agree) {i : ι} {pc : User} (hpc : pc.holds = (s.users i).holds) :
    (s.setUser i pc).Agree := by
  refine h.keep rfl fun q => ?_
  rw [setUser_holds]
  split
  · rename_i hq
    rw [hq]
    exact hpc
  · rfl

omit [DecidableEq ι] in
theorem Agree.control (h : s.Agree) (hmutex : t.decryptMutex = s.decryptMutex)
    (husers : t.users = s.users) (hpc : t.control.holds = s.control.holds) : t.Agree := by
  refine h.keep hmutex fun q => ?_
  cases q with
  | control => exact hpc
  | user i => exact congrArg (fun users => (users i).holds) husers

theorem agree_advanceControl (h : s.Agree) (hstep : s.advanceControl = some t) : t.Agree := by
  unfold advanceControl at hstep
  split at hstep
  case h_1 => cases hstep
  case h_2 => cases hstep
  case h_3 op hpc =>
      obtain ⟨hfree, hstep⟩ := Option.ite_none_right_eq_some.mp hstep
      cases hstep
      refine h.take hfree rfl fun q => ?_
      cases q <;> rfl
  case h_4 hpc =>
      cases hstep
      refine h.control rfl rfl ?_
      rw [hpc]
      dsimp only
      split <;> rfl
  case h_5 hpc =>
      cases hstep
      refine h.control rfl rfl ?_
      rw [hpc]
      dsimp only
      split <;> rfl
  case h_6 hpc =>
      cases hstep
      exact h.control rfl rfl (by rw [hpc]; rfl)
  case h_7 hpc =>
      cases hstep
      exact h.control rfl rfl (by rw [hpc]; rfl)
  case h_8 hpc =>
      cases hstep
      exact h.control rfl rfl (by rw [hpc]; rfl)
  case h_9 hpc =>
      cases hstep
      refine h.give (p := .control) (by rw [Holds, hpc]; rfl) rfl fun q => ?_
      cases q <;> rfl

theorem agree_advanceUser {i : ι} {success : Bool} (h : s.Agree)
    (hstep : s.advanceUser i success = some t) : t.Agree := by
  unfold advanceUser at hstep
  split at hstep
  case h_1 => cases hstep
  case h_3 d hpc =>
      obtain ⟨hfree, hstep⟩ := Option.ite_none_right_eq_some.mp hstep
      cases hstep
      refine h.take hfree rfl fun q => (setUser_holds s i _ q).trans ?_
      split
      · split <;> rfl
      · rfl
  case h_10 hpc =>
      cases hstep
      exact h.give (p := .user i) (by rw [Holds, hpc]; rfl) rfl fun q => setUser_holds s i _ q
  all_goals
    rename_i hpc
    cases hstep
    refine h.user ?_
    rw [hpc]
    first
      | rfl
      | split <;> rfl

/-! ## The session behind the pointer -/

/-- It is alive unless the clearing thread is about to drop it. -/
def Live (s : State ι) : Prop :=
  ∀ n, s.m_pOpenCDMSession = some n → (s.life n = .constructed ↔ s.control.closed = false)

omit [DecidableEq ι] in
theorem setLife_self {n : Nat} (hn : s.m_pOpenCDMSession = some n) (stage : Life) :
    s.setLife stage n = stage := by
  unfold setLife
  rw [hn]
  exact Function.update_self ..

omit [DecidableEq ι] in
theorem Live.control (h : s.Live) {pc : Control} (hpc : pc.closed = s.control.closed) :
    Live { s with control := pc } := by
  intro n hn
  rw [hpc]
  exact h n hn

omit [DecidableEq ι] in
theorem live_setLife {stage : Life} (hstage : stage ≠ .constructed) {pc : Control}
    (hpc : pc.closed = true) : Live { s with life := s.setLife stage, control := pc } := by
  intro n hn
  dsimp only at hn ⊢
  rw [setLife_self hn stage, hpc]
  exact iff_of_false hstage (by decide)

omit [DecidableEq ι] in
theorem live_constructed (h : s.Live) (hpc : s.control = .constructing) (result : Construction) :
    (s.constructed result).Live := by
  rcases result with _ | _ | _
  · intro n hn
    obtain rfl := Option.some.inj hn
    exact iff_of_true (Function.update_self ..) rfl
  · intro n hn
    cases hn
  · exact h.control (by rw [hpc]; rfl)

omit [DecidableEq ι] in
theorem live_advanceControl (h : s.Live) (hstep : s.advanceControl = some t) : t.Live := by
  unfold advanceControl at hstep
  split at hstep
  case h_1 => cases hstep
  case h_2 => cases hstep
  case h_3 op hpc =>
      obtain ⟨-, hstep⟩ := Option.ite_none_right_eq_some.mp hstep
      cases hstep
      exact h.control (by rw [hpc]; rfl)
  case h_4 hpc =>
      cases hstep
      refine h.control ?_
      rw [hpc]
      split <;> rfl
  case h_5 hpc =>
      cases hstep
      refine h.control ?_
      rw [hpc]
      split <;> rfl
  case h_6 hpc =>
      cases hstep
      exact live_setLife (by decide) rfl
  case h_7 hpc =>
      cases hstep
      exact live_setLife (by decide) rfl
  case h_8 hpc =>
      cases hstep
      intro n hn
      cases hn
  case h_9 hpc =>
      cases hstep
      exact h.control (by rw [hpc]; rfl)

theorem advanceUser_keeps {i : ι} {success : Bool} (hstep : s.advanceUser i success = some t) :
    t.m_pOpenCDMSession = s.m_pOpenCDMSession ∧ t.life = s.life ∧ t.control = s.control := by
  unfold advanceUser at hstep
  split at hstep
  case h_1 => cases hstep
  case h_3 =>
      obtain ⟨-, hstep⟩ := Option.ite_none_right_eq_some.mp hstep
      cases hstep
      exact ⟨rfl, rfl, rfl⟩
  all_goals
    cases hstep
    exact ⟨rfl, rfl, rfl⟩

end

structure Inv (s : State ι) : Prop where
  agree : s.Agree
  live : s.Live

omit [DecidableEq ι] in
theorem inv_start (m_pOpenCDMSystem : Bool) : Inv ({ m_pOpenCDMSystem } : State ι) where
  agree p _ := by
    cases p <;> exact iff_of_false (fun h => by cases h) Bool.false_ne_true
  live _ h := by cases h

omit [DecidableEq ι] in
theorem begin_holds (s : State ι) (op : UserOp) : (s.begin op).holds = false := by
  cases op with
  | decrypt d =>
      cases d with
      | basic => rfl
      | _ =>
          unfold begin
          dsimp only
          split <;> rfl
  | processDRMKey hasKey => cases hasKey <;> rfl
  | keyUpdateOCDM =>
      unfold begin
      dsimp only
      split <;> rfl

theorem inv_step {s t : State ι} {a : Act ι} (h : s.Inv) (hstep : useStep s a = some t) :
    t.Inv := by
  cases a with
  | control op =>
      obtain ⟨hpc, hstep⟩ := Option.ite_none_right_eq_some.mp hstep
      cases hstep
      exact ⟨h.agree.control rfl rfl (by rw [hpc]; rfl), h.live.control (by rw [hpc]; rfl)⟩
  | user i op =>
      obtain ⟨hpc, hstep⟩ := Option.ite_none_right_eq_some.mp hstep
      cases hstep
      exact ⟨h.agree.user (by rw [hpc, begin_holds]; rfl), h.live⟩
  | constructed result =>
      obtain ⟨hpc, hstep⟩ := Option.ite_none_right_eq_some.mp hstep
      cases hstep
      refine ⟨?_, live_constructed h.live hpc result⟩
      rcases result with _ | _ | _ <;> exact h.agree.control rfl rfl (by rw [hpc]; rfl)
  | advance p success =>
      cases p with
      | control => exact ⟨agree_advanceControl h.agree hstep, live_advanceControl h.live hstep⟩
      | user i =>
          obtain ⟨hsession, hlife, hcontrol⟩ := advanceUser_keeps hstep
          refine ⟨agree_advanceUser h.agree hstep, fun n hn => ?_⟩
          rw [hlife, hcontrol]
          exact h.live n (hsession ▸ hn)

end State

/-! ## The calls -/

/-- A call gets a session that is constructed and neither closed nor destructed. -/
def Safe (s : State ι) : Act ι → Prop
  | .advance (.user i) _ => (s.users i).calls = true →
      ∃ n, s.m_pOpenCDMSession = some n ∧ s.life n = .constructed
  | _ => True

/-- The pointer is not `NULL`, and a call without the mutex does not fall between the
closing of a session and the moment its pointer is dropped. -/
def Undisturbed (s : State ι) : Act ι → Prop
  | .advance (.user i) _ => (s.users i).calls = true →
      s.m_pOpenCDMSession ≠ none ∧ ((s.users i).holds = false → s.control.closed = false)
  | _ => True

omit [DecidableEq ι] in
theorem safe_iff {s : State ι} (h : s.Inv) (a : Act ι) : Safe s a ↔ Undisturbed s a := by
  cases a with
  | advance p success =>
      cases p with
      | user i =>
          refine forall_congr' fun _ => ⟨?_, ?_⟩
          · rintro ⟨n, hn, hlife⟩
            exact ⟨by rw [hn]; exact Option.some_ne_none n, fun _ => (h.live n hn).mp hlife⟩
          · rintro ⟨hsome, hopen⟩
            obtain ⟨n, hn⟩ := Option.ne_none_iff_exists'.mp hsome
            refine ⟨n, hn, (h.live n hn).mpr ?_⟩
            cases hholds : (s.users i).holds with
            | false => exact hopen hholds
            | true =>
                -- the clearing thread holds the mutex while it closes
                rw [← Bool.not_eq_true]
                intro hclosed
                have hsame : Thread.user i = .control :=
                  h.agree.exclusive hholds (Control.holds_of_closed hclosed)
                cases hsame
      | control => rfl
  | _ => rfl

/-- In every interleaving all calls get a live session exactly when none of them finds the
pointer `NULL`, or comes without the mutex while a session is being closed. -/
theorem safe_run_iff (ι : Type) [DecidableEq ι] (m_pOpenCDMSystem : Bool) (acts : List (Act ι)) :
    (useSystem ι).RunOk Safe { m_pOpenCDMSystem } acts ↔
      (useSystem ι).RunOk Undisturbed { m_pOpenCDMSystem } acts :=
  System.runOk_iff_of_invariant (fun (s : State ι) a (h : s.Inv) => safe_iff h a)
    (fun _ _ _ h _ hstep => State.inv_step h hstep) (State.inv_start m_pOpenCDMSystem) acts

/-- A key update that has tested the pointer when the session is cleared. -/
def closingRun : List (Act Unit) :=
  [.control .generateDRMSession, .advance .control true, .advance .control true,
    .constructed .session, .advance .control true, .user () .keyUpdateOCDM,
    .control .clearDecryptContext, .advance .control true, .advance .control true,
    .advance .control true, .advance .control true]

/-- Its status call gets a session that has been destructed. -/
theorem closingRun_not_safe : ¬ ∀ (ι : Type) [DecidableEq ι] (m_pOpenCDMSystem : Bool)
    (acts : List (Act ι)), (useSystem ι).RunOk Safe { m_pOpenCDMSystem } acts := by
  intro h
  have hsafe := h Unit true (closingRun ++ [.advance (.user ()) true])
  obtain ⟨n, hn, hlife⟩ := hsafe.last rfl rfl rfl
  obtain rfl : 0 = n := Option.some.inj hn
  exact absurd hlife (by decide)

end PlayerInterface.Ocdm.SessionUse
