import PlayerInterface.SecManager.Registered

/-!
# The handles of a license call

Under the mutex of its back end a license call makes a handle for the session of a
response, gives it to the caller's handle when that one is invalid, and lets it go. When
nobody shares what it lets go, the destructor asks for the same mutex.
-/

namespace PlayerInterface.SecManager

open PlayerInterface.Core

/-- The caller's handle, the two of the call, and all those of other threads. -/
inductive Handle (η : Type) where
  | session
  | newSession
  | temporary
  | other (h : η)
deriving DecidableEq

/-- `lost` is no member: an act under the mutex has let go the last handle of a manager. -/
structure World (η : Type) where
  sessions : State (Handle η)
  lost : Bool := false

variable {η : Type}

/-- Some manager is shared before and not behind. -/
def lastGone (s t : State (Handle η)) : Bool :=
  decide (∃ h ∈ s.handles, (s.mpSessionManager h).any t.expired = true)

/-- `isSessionValid`. -/
def State.isSessionValid (s : State η) (h : η) : Bool := (s.mpSessionManager h).isSome

namespace World

variable [DecidableEq η]

/-- An act of the call itself. -/
def act (w : World η) (a : Act (Handle η)) : World η :=
  match sessionStep w.sessions a with
  | some t => { sessions := t, lost := w.lost || lastGone w.sessions t }
  | none => w

/-- `newSession = ContentSecurityManagerSession(sessionId, inputSummaryHash)`. -/
def makeSession (w : World η) (sessionId : Int) (inputSummaryHash : Nat) : World η :=
  ((w.act (.construct .temporary sessionId inputSummaryHash)).act
    (.assign .newSession .temporary)).act (.destroy .temporary)

/-- `session = newSession` for an invalid `session`, and the end of the scope of `newSession`. -/
def endScope (w : World η) : World η :=
  (if w.sessions.isSessionValid .newSession ∧ ¬ w.sessions.isSessionValid .session then
    w.act (.assign .session .newSession) else w).act (.destroy .newSession)

/-- From the declaration of `newSession` to the end of its scope, with what it is made of when it
is assigned. -/
def keepSession (w : World η) (made : Option (Int × Nat)) : World η :=
  let w := w.act (.constructInvalid .newSession)
  let w := match made with
    | some (sessionId, inputSummaryHash) => w.makeSession sessionId inputSummaryHash
    | none => w
  w.endScope

end World

/-! ## Acts -/

theorem lastGone_iff (s t : State (Handle η)) :
    lastGone s t = true ↔ ∃ n, s.Live n ∧ ¬ t.Live n := by
  rw [lastGone, decide_eq_true_eq]
  constructor
  · rintro ⟨h, hmem, hany⟩
    cases hp : s.mpSessionManager h with
    | none =>
        rw [hp] at hany
        cases hany
    | some n =>
        rw [hp] at hany
        exact ⟨n, ⟨h, hmem, hp⟩, State.expired_iff.mp hany⟩
  · rintro ⟨n, ⟨h, hmem, hp⟩, hgone⟩
    refine ⟨h, hmem, ?_⟩
    rw [hp]
    exact State.expired_iff.mpr hgone

/-- The call's own two handles are not there, the caller's is. -/
structure Ready (s : State (Handle η)) : Prop where
  registered : Registered s
  session : .session ∈ s.handles
  newSession : .newSession ∉ s.handles
  temporary : .temporary ∉ s.handles

theorem Registered.pointer_none {s : State η} (h : Registered s) {g : η} (hg : g ∉ s.handles) :
    s.mpSessionManager g = none := by
  cases hp : s.mpSessionManager g with
  | none => rfl
  | some n => exact absurd (h.held g n hp).1 hg

/-- The pointers of the handles behind a step. -/
structure Behind [DecidableEq η] (s t : State η) (a : Act η) (f : η → Option Nat)
    (handles : Finset η) : Prop where
  step : sessionStep s a = some t
  keeps : Keeps s t a
  pointers : t.mpSessionManager = f
  handles : t.handles = handles

section

variable [DecidableEq η] {s : State η}

theorem Registered.constructInvalid (h : Registered s) {g : η} (hg : g ∉ s.handles) :
    ∃ t, Behind s t (.constructInvalid g) s.mpSessionManager (insert g s.handles) := by
  have hstep : sessionStep s (.constructInvalid g) = some (s.addHandle g none) := if_neg hg
  refine ⟨_, hstep, h.step hstep, ?_, rfl⟩
  funext k
  rw [State.addHandle_mpSessionManager]
  split
  · rename_i hk
    rw [hk, h.pointer_none hg]
  · rfl

theorem Registered.assign (h : Registered s) {g k : η} (hg : g ∈ s.handles) (hk : k ∈ s.handles)
    (hne : g ≠ k) :
    ∃ t, Behind s t (.assign g k) (Function.update s.mpSessionManager g (s.mpSessionManager k))
      s.handles := by
  have hstep : sessionStep s (.assign g k) =
      some ((s.setPointer g (s.mpSessionManager k)).dropped (s.mpSessionManager g)) :=
    if_pos ⟨hg, hk, hne⟩
  obtain ⟨hhandles, hpointers, -, -⟩ :=
    dropped_rest (s.setPointer g (s.mpSessionManager k)) (s.mpSessionManager g)
  refine ⟨_, hstep, h.step hstep, ?_, hhandles⟩
  rw [hpointers]
  funext m
  rw [Function.update_apply]
  rfl

theorem Registered.destroy (h : Registered s) {g : η} (hg : g ∈ s.handles) :
    ∃ t, Behind s t (.destroy g) (Function.update s.mpSessionManager g none)
      (s.handles.erase g) := by
  have hstep : sessionStep s (.destroy g) =
      some ({ s.setPointer g none with handles := s.handles.erase g }.dropped
        (s.mpSessionManager g)) := if_pos hg
  obtain ⟨hhandles, hpointers, -, -⟩ := dropped_rest
    { s.setPointer g none with handles := s.handles.erase g } (s.mpSessionManager g)
  refine ⟨_, hstep, h.step hstep, ?_, hhandles⟩
  rw [hpointers]
  funext m
  rw [Function.update_apply]
  rfl

/-- A new handle for a session: the manager is new or shared already. -/
theorem Registered.constructs (h : Registered s) {g : η} (hg : g ∉ s.handles) {id : Int}
    (hpos : 0 < id) (hash : Nat) :
    ∃ t n, Behind s t (.construct g id hash) (Function.update s.mpSessionManager g (some n))
        (insert g s.handles) ∧
      t.idOf n = some id ∧ (s.Shares id ↔ ∃ k, s.mpSessionManager k = some n) := by
  obtain ⟨n, hn, hinst⟩ := h.getInstance hpos hash
  have hstep : sessionStep s (.construct g id hash) =
      some ((s.getInstance id hash).2.addHandle g (s.getInstance id hash).1) := if_neg hg
  refine ⟨_, n, ⟨hstep, h.step hstep, ?_, ?_⟩, hinst.idOf, hinst.shared⟩
  · funext k
    rw [State.addHandle_mpSessionManager, hn, hinst.pointers, Function.update_apply]
  · rw [State.addHandle_handles, hinst.handles]

theorem Registered.constructs_invalid (h : Registered s) {g : η} (hg : g ∉ s.handles) {id : Int}
    (hpos : ¬ 0 < id) (hash : Nat) :
    ∃ t, Behind s t (.construct g id hash) s.mpSessionManager (insert g s.handles) := by
  have hnone : s.getInstance id hash = (none, s.removeExpired) := if_neg hpos
  have hstep : sessionStep s (.construct g id hash) = some (s.removeExpired.addHandle g none) := by
    rw [sessionStep, if_neg hg, hnone]
  refine ⟨_, hstep, h.step hstep, ?_, rfl⟩
  funext k
  rw [State.addHandle_mpSessionManager]
  split
  · rename_i hk
    rw [hk, h.pointer_none hg]
  · rfl

end

variable [DecidableEq η]

/-- An act behind which every manager that was shared is still shared. -/
theorem World.act_keeps {w : World η} {t : State (Handle η)} {a : Act (Handle η)}
    {f : Handle η → Option Nat} {handles : Finset (Handle η)} (h : Registered w.sessions)
    (ht : Behind w.sessions t a f handles)
    (hshared : ∀ g n, w.sessions.mpSessionManager g = some n → ∃ k, f k = some n) :
    w.act a = { sessions := t, lost := w.lost } := by
  have hgone : lastGone w.sessions t = false := by
    rw [← Bool.not_eq_true, lastGone_iff]
    rintro ⟨n, hlive, hnot⟩
    obtain ⟨g, hp⟩ := (h.live_iff n).mp hlive
    obtain ⟨k, hk⟩ := hshared g n hp
    exact hnot ((ht.keeps.registered.live_iff n).mpr ⟨k, by rw [ht.pointers]; exact hk⟩)
  rw [World.act, ht.step]
  dsimp only
  rw [hgone, Bool.or_false]

/-- A handle goes: its manager is lost when no other handle has it. -/
theorem World.act_destroy {w : World η} {t : State (Handle η)} {g : Handle η}
    {handles : Finset (Handle η)} (h : Registered w.sessions)
    (ht : Behind w.sessions t (.destroy g) (Function.update w.sessions.mpSessionManager g none)
      handles) :
    (w.act (.destroy g)).sessions = t ∧
      ((w.act (.destroy g)).lost = true ↔ w.lost = true ∨
        ∃ n, w.sessions.mpSessionManager g = some n ∧
          ∀ k, k ≠ g → w.sessions.mpSessionManager k ≠ some n) := by
  rw [World.act, ht.step]
  refine ⟨rfl, ?_⟩
  dsimp only
  rw [Bool.or_eq_true, lastGone_iff]
  refine or_congr_right (exists_congr fun n => ?_)
  rw [h.live_iff, ht.keeps.registered.live_iff, ht.pointers]
  constructor
  · rintro ⟨⟨k, hk⟩, hnone⟩
    have hothers : ∀ k, k ≠ g → w.sessions.mpSessionManager k ≠ some n := by
      intro k hkg hk
      exact hnone ⟨k, by rw [Function.update_of_ne hkg]; exact hk⟩
    by_cases hkg : k = g
    · exact ⟨hkg ▸ hk, hothers⟩
    · exact absurd hk (hothers k hkg)
  · rintro ⟨hg, hothers⟩
    refine ⟨⟨g, hg⟩, ?_⟩
    rintro ⟨k, hk⟩
    by_cases hkg : k = g
    · rw [hkg, Function.update_self] at hk
      cases hk
    · rw [Function.update_of_ne hkg] at hk
      exact hothers k hkg hk

/-! ## A round -/

/-- `newSession` is there with pointer `p`, and nothing else has moved. -/
structure Made (s t : State (Handle η)) (p : Option Nat) : Prop where
  registered : Registered t
  pointers : t.mpSessionManager = Function.update s.mpSessionManager .newSession p
  handles : t.handles = insert .newSession s.handles
  idOf : ∀ m id, s.idOf m = some id → t.idOf m = some id

theorem Ready.declares {w : World η} (h : Ready w.sessions) :
    ∃ t, w.act (.constructInvalid .newSession) = { sessions := t, lost := w.lost } ∧
      Made w.sessions t none := by
  obtain ⟨t, ht⟩ := h.registered.constructInvalid h.newSession
  refine ⟨t, World.act_keeps h.registered ht fun g n hp => ⟨g, hp⟩, ht.keeps.registered, ?_,
    ht.handles, ht.keeps.idOf⟩
  rw [ht.pointers, ← h.registered.pointer_none h.newSession, Function.update_eq_self]

/-- The temporary is assigned and goes. -/
theorem Made.assigns {s : State (Handle η)} (h : Ready s) {w : World η} {q : Option Nat}
    (hw : Made s w.sessions none) {t : State (Handle η)} {a : Act (Handle η)}
    (ht : Behind w.sessions t a (Function.update w.sessions.mpSessionManager .temporary q)
      (insert .temporary w.sessions.handles)) :
    ∃ u, ((World.mk t w.lost).act (.assign .newSession .temporary)).act (.destroy .temporary) =
        { sessions := u, lost := w.lost } ∧ Made s u q ∧
      ∀ m id, t.idOf m = some id → u.idOf m = some id := by
  have hnew : Handle.newSession ∈ t.handles := by
    rw [ht.handles, hw.handles]
    exact Finset.mem_insert_of_mem (Finset.mem_insert_self _ _)
  have htemp : Handle.temporary ∈ t.handles := by
    rw [ht.handles]
    exact Finset.mem_insert_self _ _
  have hfree : Handle.temporary ∉ w.sessions.handles := by
    rw [hw.handles, Finset.mem_insert]
    rintro (h' | h')
    · cases h'
    · exact h.temporary h'
  have htp : t.mpSessionManager = Function.update
      (Function.update s.mpSessionManager .newSession none) .temporary q := by
    rw [ht.pointers, hw.pointers]
  have hstemp : s.mpSessionManager .temporary = none := h.registered.pointer_none h.temporary
  obtain ⟨t', ht'⟩ := ht.keeps.registered.assign hnew htemp nofun
  have hassign : (World.mk t w.lost).act (.assign .newSession .temporary) = ⟨t', w.lost⟩ := by
    refine World.act_keeps (w := ⟨t, w.lost⟩) ht.keeps.registered ht' fun g n hp => ⟨g, ?_⟩
    have hg : g ≠ .newSession := by
      rintro rfl
      rw [show t.mpSessionManager .newSession = none by rw [htp]; rfl] at hp
      cases hp
    rw [Function.update_of_ne hg]
    exact hp
  have htemp' : Handle.temporary ∈ t'.handles := ht'.handles ▸ htemp
  obtain ⟨u, hu⟩ := ht'.keeps.registered.destroy htemp'
  have hdestroy : (World.mk t' w.lost).act (.destroy .temporary) = ⟨u, w.lost⟩ := by
    refine World.act_keeps (w := ⟨t', w.lost⟩) ht'.keeps.registered hu fun g n hp => ?_
    by_cases hg : g = .temporary
    · have hne : (.temporary : Handle η) ≠ .newSession := nofun
      refine ⟨.newSession, ?_⟩
      subst hg
      rw [ht'.pointers, Function.update_of_ne hne] at hp
      rw [Function.update_of_ne hne.symm, ht'.pointers, Function.update_self]
      exact hp
    · exact ⟨g, by rw [Function.update_of_ne hg]; exact hp⟩
  refine ⟨u, by rw [hassign, hdestroy], ⟨hu.keeps.registered, ?_, ?_, ?_⟩, ?_⟩
  · rw [hu.pointers, ht'.pointers, htp]
    funext k
    cases k with
    | temporary => exact hstemp.symm
    | newSession | session | other => rfl
  · rw [hu.handles, ht'.handles, ht.handles, Finset.erase_insert hfree, hw.handles]
  · exact fun m id hid => hu.keeps.idOf m id (ht'.keeps.idOf m id (ht.keeps.idOf m id (hw.idOf m id hid)))
  · exact fun m id hid => hu.keeps.idOf m id (ht'.keeps.idOf m id hid)

omit [DecidableEq η] in
theorem Ready.pointer_newSession {s : State (Handle η)} (h : Ready s) :
    s.mpSessionManager .newSession = none := h.registered.pointer_none h.newSession

theorem Made.pointers_none {s t : State (Handle η)} (h : Ready s) (ht : Made s t none) :
    t.mpSessionManager = s.mpSessionManager := by
  rw [ht.pointers, ← h.pointer_newSession, Function.update_eq_self]

/-- A declared handle changes nothing of what the others stand for. -/
theorem Made.shares_iff {s t : State (Handle η)} (h : Ready s) (ht : Made s t none) (id : Int) :
    t.Shares id ↔ s.Shares id := by
  have hpointers := ht.pointers_none h
  constructor
  · rintro ⟨g, hg⟩
    obtain ⟨n, hp, hid⟩ := Option.bind_eq_some_iff.mp hg
    rw [hpointers] at hp
    obtain ⟨-, id', hid', -⟩ := h.registered.held g n hp
    rw [ht.idOf n id' hid'] at hid
    exact ⟨g, Option.bind_eq_some_iff.mpr ⟨n, hp, hid'.trans hid⟩⟩
  · rintro ⟨g, hg⟩
    obtain ⟨n, hp, hid⟩ := Option.bind_eq_some_iff.mp hg
    exact ⟨g, Option.bind_eq_some_iff.mpr ⟨n, by rw [hpointers]; exact hp, ht.idOf n id hid⟩⟩

theorem Made.temporary {s t : State (Handle η)} (h : Ready s) (ht : Made s t none) :
    .temporary ∉ t.handles := by
  rw [ht.handles, Finset.mem_insert]
  rintro (h' | h')
  · cases h'
  · exact h.temporary h'

/-- With a positive id `newSession` gets the manager that is shared already, or a new one. -/
theorem Made.makes {s : State (Handle η)} (h : Ready s) {w : World η} (hw : Made s w.sessions none)
    {id : Int} (hpos : 0 < id) (hash : Nat) :
    ∃ u n, w.makeSession id hash = { sessions := u, lost := w.lost } ∧ Made s u (some n) ∧
      u.idOf n = some id ∧ (s.Shares id ↔ ∃ k, s.mpSessionManager k = some n) := by
  obtain ⟨t, n, ht, hid, hshared⟩ := hw.registered.constructs (hw.temporary h) hpos hash
  have hact : w.act (.construct .temporary id hash) = ⟨t, w.lost⟩ := by
    refine World.act_keeps hw.registered ht fun g m hp => ⟨g, ?_⟩
    have hg : g ≠ .temporary := by
      rintro rfl
      rw [hw.registered.pointer_none (hw.temporary h)] at hp
      cases hp
    rw [Function.update_of_ne hg]
    exact hp
  obtain ⟨u, hu, hmade, hkeeps⟩ := hw.assigns h ht
  refine ⟨u, n, by rw [World.makeSession, hact, hu], hmade, hkeeps n id hid, ?_⟩
  rw [← hw.shares_iff h, hshared, hw.pointers_none h]

theorem Made.makes_invalid {s : State (Handle η)} (h : Ready s) {w : World η}
    (hw : Made s w.sessions none) {id : Int} (hpos : ¬ 0 < id) (hash : Nat) :
    ∃ u, w.makeSession id hash = { sessions := u, lost := w.lost } ∧ Made s u none := by
  obtain ⟨t, ht⟩ := hw.registered.constructs_invalid (hw.temporary h) hpos hash
  have hact : w.act (.construct .temporary id hash) = ⟨t, w.lost⟩ :=
    World.act_keeps hw.registered ht fun g m hp => ⟨g, hp⟩
  have hbehind : Behind w.sessions t (.construct .temporary id hash)
      (Function.update w.sessions.mpSessionManager .temporary none)
      (insert .temporary w.sessions.handles) := by
    refine ⟨ht.step, ht.keeps, ?_, ht.handles⟩
    rw [ht.pointers, ← hw.registered.pointer_none (hw.temporary h), Function.update_eq_self]
  obtain ⟨u, hu, hmade, -⟩ := hw.assigns h hbehind
  exact ⟨u, by rw [World.makeSession, hact, hu], hmade⟩

/-- What a round leaves: the caller's handle as it was, or made valid. -/
structure Kept (s t : State (Handle η)) : Prop where
  ready : Ready t
  idOf : ∀ m id, s.idOf m = some id → t.idOf m = some id
  valid : ∀ n, s.mpSessionManager .session = some n → t.mpSessionManager .session = some n

omit [DecidableEq η] in
theorem Ready.sessionID_none {s : State (Handle η)} (h : Ready s) :
    s.sessionID .session = none ↔ s.mpSessionManager .session = none := by
  constructor
  · intro hid
    cases hp : s.mpSessionManager .session with
    | none => rfl
    | some n =>
        obtain ⟨-, id, hsome, -⟩ := h.registered.held .session n hp
        rw [State.sessionID, hp, Option.bind_some, hsome] at hid
        cases hid
  · intro hp
    rw [State.sessionID, hp, Option.bind_none]

omit [DecidableEq η] in
theorem Kept.sessionID {s t : State (Handle η)} (h : Kept s t) {id : Int}
    (hid : s.sessionID .session = some id) : t.sessionID .session = some id := by
  obtain ⟨n, hp, hn⟩ := Option.bind_eq_some_iff.mp hid
  exact Option.bind_eq_some_iff.mpr ⟨n, h.valid n hp, h.idOf n id hn⟩

omit [DecidableEq η] in
/-- A handle that is not made valid stands for what it stood for. -/
theorem Kept.sessionID_eq {s t : State (Handle η)} (hs : Ready s) (h : Kept s t)
    (hnone : s.mpSessionManager .session = none → t.mpSessionManager .session = none) :
    t.sessionID .session = s.sessionID .session := by
  cases hid : s.sessionID .session with
  | none => exact h.ready.sessionID_none.mpr (hnone (hs.sessionID_none.mp hid))
  | some id => exact h.sessionID hid

/-- `newSession` goes. -/
theorem World.leaves {s : State (Handle η)} (h : Ready s) {v : World η}
    (hv : Registered v.sessions) (hhandles : v.sessions.handles = insert .newSession s.handles) :
    Ready (v.act (.destroy .newSession)).sessions ∧
      (v.act (.destroy .newSession)).sessions.mpSessionManager =
        Function.update v.sessions.mpSessionManager .newSession none ∧
      (∀ m id, v.sessions.idOf m = some id →
        (v.act (.destroy .newSession)).sessions.idOf m = some id) ∧
      ((v.act (.destroy .newSession)).lost = true ↔ v.lost = true ∨
        ∃ n, v.sessions.mpSessionManager .newSession = some n ∧
          ∀ k, k ≠ .newSession → v.sessions.mpSessionManager k ≠ some n) := by
  have hmem : Handle.newSession ∈ v.sessions.handles := hhandles ▸ Finset.mem_insert_self _ _
  obtain ⟨t, ht⟩ := hv.destroy hmem
  obtain ⟨hsessions, hlost⟩ := World.act_destroy hv ht
  have hback : t.handles = s.handles := by
    rw [ht.handles, hhandles, Finset.erase_insert h.newSession]
  rw [hsessions]
  refine ⟨⟨ht.keeps.registered, ?_, ?_, ?_⟩, ht.pointers, ht.keeps.idOf, hlost⟩
  · exact hback ▸ h.session
  · exact hback ▸ h.newSession
  · exact hback ▸ h.temporary

theorem Made.pointer_session {s t : State (Handle η)} {p : Option Nat} (ht : Made s t p) :
    t.mpSessionManager .session = s.mpSessionManager .session := by
  rw [ht.pointers]
  rfl

theorem Made.pointer_other {s t : State (Handle η)} {p : Option Nat} (ht : Made s t p)
    {k : Handle η} (hk : k ≠ .newSession) : t.mpSessionManager k = s.mpSessionManager k := by
  rw [ht.pointers, Function.update_of_ne hk]

theorem Made.pointer_new {s t : State (Handle η)} {p : Option Nat} (ht : Made s t p) :
    t.mpSessionManager .newSession = p := by
  rw [ht.pointers, Function.update_self]

/-- Without a manager nothing is given or lost. -/
theorem Made.ends_none {s : State (Handle η)} (h : Ready s) {w : World η}
    (hw : Made s w.sessions none) :
    Kept s w.endScope.sessions ∧
      w.endScope.sessions.mpSessionManager .session = s.mpSessionManager .session ∧
      w.endScope.lost = w.lost := by
  have hno : ¬ (w.sessions.isSessionValid .newSession ∧ ¬ w.sessions.isSessionValid .session) := by
    rw [State.isSessionValid, hw.pointer_new]
    nofun
  have hscope : w.endScope = w.act (.destroy .newSession) := by rw [World.endScope, if_neg hno]
  obtain ⟨hready, hpointers, hids, hlost⟩ := World.leaves h hw.registered hw.handles
  have hsession : w.endScope.sessions.mpSessionManager .session = s.mpSessionManager .session := by
    rw [hscope, hpointers]
    exact hw.pointer_session
  rw [← hscope] at hready hids
  refine ⟨⟨hready, fun m id hid => hids m id (hw.idOf m id hid), fun n hn => hsession.trans hn⟩,
    hsession, ?_⟩
  rw [hscope, Bool.eq_iff_iff, hlost]
  refine or_iff_left ?_
  rintro ⟨n, hn, -⟩
  rw [hw.pointer_new] at hn
  cases hn

/-- An invalid handle gets the manager and keeps it. -/
theorem Made.ends_given {s : State (Handle η)} (h : Ready s) {w : World η} {n : Nat} {id : Int}
    (hw : Made s w.sessions (some n)) (hid : w.sessions.idOf n = some id)
    (hinvalid : s.mpSessionManager .session = none) :
    Kept s w.endScope.sessions ∧ w.endScope.sessions.sessionID .session = some id ∧
      w.endScope.lost = w.lost := by
  have hyes : w.sessions.isSessionValid .newSession ∧ ¬ w.sessions.isSessionValid .session := by
    rw [State.isSessionValid, State.isSessionValid, hw.pointer_new, hw.pointer_session, hinvalid]
    exact ⟨rfl, nofun⟩
  have hsession : Handle.session ∈ w.sessions.handles :=
    hw.handles ▸ Finset.mem_insert_of_mem h.session
  have hnew : Handle.newSession ∈ w.sessions.handles := hw.handles ▸ Finset.mem_insert_self _ _
  obtain ⟨t, ht⟩ := hw.registered.assign hsession hnew nofun
  have hact : w.act (.assign .session .newSession) = ⟨t, w.lost⟩ := by
    refine World.act_keeps hw.registered ht fun g m hp => ⟨g, ?_⟩
    have hg : g ≠ .session := by
      rintro rfl
      rw [hw.pointer_session, hinvalid] at hp
      cases hp
    rw [Function.update_of_ne hg]
    exact hp
  have hscope : w.endScope = (World.mk t w.lost).act (.destroy .newSession) := by
    rw [World.endScope, if_pos hyes, hact]
  have hgiven : t.mpSessionManager .session = some n := by
    rw [ht.pointers, Function.update_self, hw.pointer_new]
  obtain ⟨hready, hpointers, hids, hlost⟩ := World.leaves (v := ⟨t, w.lost⟩) h ht.keeps.registered
    (ht.handles.trans hw.handles)
  have hend : w.endScope.sessions.mpSessionManager .session = some n := by
    rw [hscope, hpointers]
    exact hgiven
  rw [← hscope] at hready hids
  refine ⟨⟨hready, fun m id' hm => hids m id' (ht.keeps.idOf m id' (hw.idOf m id' hm)),
    fun m hm => ?_⟩, ?_, ?_⟩
  · rw [hinvalid] at hm
    cases hm
  · exact Option.bind_eq_some_iff.mpr ⟨n, hend, hids n id (ht.keeps.idOf n id hid)⟩
  · rw [hscope, Bool.eq_iff_iff, hlost]
    refine or_iff_left ?_
    rintro ⟨m, hm, hothers⟩
    have hne : (.newSession : Handle η) ≠ .session := nofun
    rw [ht.pointers, Function.update_of_ne hne, hw.pointer_new] at hm
    cases hm
    exact hothers .session hne.symm hgiven

/-- Beside a valid handle the manager is lost unless it is shared already. -/
theorem Made.ends_beside {s : State (Handle η)} (h : Ready s) {w : World η} {n m : Nat}
    (hw : Made s w.sessions (some n)) (hvalid : s.mpSessionManager .session = some m) :
    Kept s w.endScope.sessions ∧ w.endScope.sessions.mpSessionManager .session = some m ∧
      (w.endScope.lost = true ↔ w.lost = true ∨ ¬ ∃ k, s.mpSessionManager k = some n) := by
  have hno : ¬ (w.sessions.isSessionValid .newSession ∧ ¬ w.sessions.isSessionValid .session) := by
    rw [State.isSessionValid, State.isSessionValid, hw.pointer_session, hvalid]
    exact fun h => h.2 rfl
  have hscope : w.endScope = w.act (.destroy .newSession) := by rw [World.endScope, if_neg hno]
  obtain ⟨hready, hpointers, hids, hlost⟩ := World.leaves h hw.registered hw.handles
  have hsession : w.endScope.sessions.mpSessionManager .session = some m := by
    rw [hscope, hpointers]
    exact hw.pointer_session.trans hvalid
  rw [← hscope] at hready hids
  refine ⟨⟨hready, fun m id hid => hids m id (hw.idOf m id hid), fun k hk => ?_⟩, hsession, ?_⟩
  · rw [hsession, ← hvalid, hk]
  · rw [hscope, hlost]
    refine or_congr_right ⟨?_, fun hnone => ⟨n, hw.pointer_new, fun k hk hp => ?_⟩⟩
    · rintro ⟨n', hn', hothers⟩ ⟨k, hk⟩
      rw [hw.pointer_new] at hn'
      cases hn'
      have hne : k ≠ .newSession := by
        rintro rfl
        rw [h.pointer_newSession] at hk
        cases hk
      exact hothers k hne ((hw.pointer_other hne).trans hk)
    · exact hnone ⟨k, (hw.pointer_other hk).symm.trans hp⟩

/-- A round makes a manager that nobody shares while the caller's handle is valid. -/
def Discards (s : State (Handle η)) (made : Option (Int × Nat)) : Prop :=
  ∃ id hash, made = some (id, hash) ∧ 0 < id ∧ s.mpSessionManager .session ≠ none ∧ ¬ s.Shares id

structure RoundEnd (w t : World η) (made : Option (Int × Nat)) : Prop where
  kept : Kept w.sessions t.sessions
  given : ∀ id hash, made = some (id, hash) → 0 < id →
    w.sessions.mpSessionManager .session = none → t.sessions.sessionID .session = some id
  still : (∀ id hash, made = some (id, hash) → ¬ 0 < id) →
    t.sessions.mpSessionManager .session = w.sessions.mpSessionManager .session
  lost : t.lost = true ↔ w.lost = true ∨ Discards w.sessions made

theorem keepSession_end {w : World η} (h : Ready w.sessions) (made : Option (Int × Nat)) :
    RoundEnd w (w.keepSession made) made := by
  obtain ⟨t, ht, hdeclared⟩ := h.declares
  -- nothing is made of the response, or a handle of no session
  have hnone : ∀ u : State (Handle η), Made w.sessions u none →
      w.keepSession made = (World.mk u w.lost).endScope →
      (∀ id hash, made = some (id, hash) → ¬ 0 < id) → RoundEnd w (w.keepSession made) made := by
    intro u hu hkeep hinvalid
    obtain ⟨hkept, hsession, hlost⟩ := Made.ends_none (w := ⟨u, w.lost⟩) h hu
    rw [hkeep]
    refine ⟨hkept, fun id hash hm hpos => absurd hpos (hinvalid id hash hm), fun _ => hsession, ?_⟩
    rw [hlost]
    refine (or_iff_left ?_).symm
    rintro ⟨id, hash, hm, hpos, -⟩
    exact hinvalid id hash hm hpos
  cases made with
  | none => exact hnone t hdeclared (by rw [World.keepSession, ht]) nofun
  | some r =>
      obtain ⟨id, hash⟩ := r
      by_cases hpos : 0 < id
      · obtain ⟨u, n, hmake, hmade, hid, hshares⟩ :=
          Made.makes (w := ⟨t, w.lost⟩) h hdeclared hpos hash
        have hkeep : w.keepSession (some (id, hash)) = (World.mk u w.lost).endScope := by
          rw [World.keepSession, ht]
          rw [hmake]
        rw [hkeep]
        cases hsession : w.sessions.mpSessionManager .session with
        | none =>
            obtain ⟨hkept, hgiven, hlost⟩ := Made.ends_given (w := ⟨u, w.lost⟩) h hmade hid hsession
            refine ⟨hkept, ?_, fun hnot => absurd hpos (hnot id hash rfl), ?_⟩
            · rintro id' hash' heq - -
              cases heq
              exact hgiven
            · rw [hlost]
              refine (or_iff_left ?_).symm
              rintro ⟨-, -, -, -, hvalid, -⟩
              exact hvalid hsession
        | some m =>
            obtain ⟨hkept, hstill, hlost⟩ := Made.ends_beside (w := ⟨u, w.lost⟩) h hmade hsession
            refine ⟨hkept, fun _ _ _ _ hinvalid => ?_, fun hnot => absurd hpos (hnot id hash rfl), ?_⟩
            · rw [hsession] at hinvalid
              cases hinvalid
            · rw [hlost, ← hshares]
              refine or_congr_right ⟨fun hnot => ⟨id, hash, rfl, hpos, ?_, hnot⟩, ?_⟩
              · rw [hsession]
                nofun
              · rintro ⟨id', hash', heq, -, -, hnot⟩
                cases heq
                exact hnot
      · obtain ⟨u, hmake, hmade⟩ := Made.makes_invalid (w := ⟨t, w.lost⟩) h hdeclared hpos hash
        refine hnone u hmade ?_ ?_
        · rw [World.keepSession, ht]
          rw [hmake]
        · rintro id' hash' heq
          cases heq
          exact hpos

end PlayerInterface.SecManager
