import PlayerInterface.SecManager.FireboltLicense

/-!
# What a Firebolt call returns

The outcome of a call and the session of the caller's handle against the last response and
the sessions the service has opened.
-/

namespace PlayerInterface.SecManager

open PlayerInterface.Core PlayerInterface.Json
open PlayerInterface.Drm (ascii)

/-- A call with what has happened in it: the text of the last response, the session opened in the
round that made the caller's handle valid, and whether the last allocation has succeeded. -/
structure FireboltCall (η : Type) where
  loop : FireboltLoop η
  last : Option Bytes := none
  madeValidBy : Option (Option Opened) := none
  allocated : Bool := false

variable {η : Type} [DecidableEq η]

namespace FireboltCall

def start (sessions : State (Handle η)) (hash : Bytes → Nat) (r : LicenseRequest)
    (uninitialised : Int) : FireboltCall η where
  loop := .start sessions hash r uninitialised

def after (c : FireboltCall η) (loop : FireboltLoop η) :
    CallAct η FireboltReply → FireboltCall η
  | .round reply =>
      { loop
        last := if reply.active && reply.activeInCall then c.loop.response reply else c.last
        madeValidBy :=
          if !c.loop.world.sessions.isSessionValid .session &&
              loop.world.sessions.isSessionValid .session then some reply.opened
          else c.madeValidBy
        allocated := reply.allocated }
  | .other _ => { c with loop }

def step (lib : JsonLibrary) (c : FireboltCall η) (a : CallAct η FireboltReply) :
    Option (FireboltCall η) :=
  (FireboltLoop.step lib c.loop a).map fun loop => c.after loop a

def system (lib : JsonLibrary) : System (FireboltCall η) (CallAct η FireboltReply) where
  init c := ∃ sessions hash r uninitialised, c = start sessions hash r uninitialised
  step := step lib

omit [DecidableEq η] in
/-- The license bytes the last response carries. -/
def lastLicense (lib : JsonLibrary) (c : FireboltCall η) : Option Bytes :=
  c.last.bind fun drmSession => (lib.PlayerJsonObject drmSession).bind license

/-- No exception escapes, the result and the buffer are those of the last response, and a handle
the call has made valid has the id of the session opened then. -/
structure AcquiresRightly (lib : JsonLibrary) (c : FireboltCall η) : Prop where
  noThrow : ∀ e, c.loop.outcome ≠ .threw e
  returns : ∀ ret, c.loop.outcome = .returned ret → (ret = true ↔ c.lastLicense lib ≠ none)
  buffer : c.loop.outcome = .returned true → c.allocated = true →
    c.loop.licenseResponse = some (c.lastLicense lib)
  session : ∀ opened, c.madeValidBy = some opened →
    c.loop.world.sessions.sessionID .session = opened.map fun o => (o.id : Int)

/-- A response is parsed, an id is an `int`, and when the caller's handle is invalid the
uninitialised variable holds no positive number other than the id. -/
def ServiceFits (lib : JsonLibrary) (c : FireboltCall η) : CallAct η FireboltReply → Prop
  | .round reply =>
      (∀ drmSession, c.loop.response reply = some drmSession →
        lib.PlayerJsonObject drmSession ≠ none) ∧
      ((reply.active && reply.activeInCall) = true → c.loop.update = false →
        ∀ o, reply.opened = some o → o.id < 2 ^ 31 ∧
          (c.loop.world.sessions.isSessionValid .session = false → 0 < c.loop.sessionId →
            c.loop.sessionId = o.id))
  | .other _ => True

/-- Between the rounds no response so far has carried a license. -/
structure Opening (lib : JsonLibrary) (c : FireboltCall η) : Prop where
  ready : Ready c.loop.world.sessions
  session : c.loop.HasVariable
  unanswered : c.loop.outcome = .looping → c.lastLicense lib = none

omit [DecidableEq η] in
theorem opening_start (lib : JsonLibrary) {sessions : State (Handle η)} (h : Ready sessions)
    (hash : Bytes → Nat) (r : LicenseRequest) (uninitialised : Int) :
    Opening lib (start sessions hash r uninitialised) :=
  ⟨h, FireboltLoop.start_hasVariable h hash r uninitialised, fun _ => rfl⟩

/-! ## A round -/

omit [DecidableEq η] in
theorem asked_of_response {s : FireboltLoop η} {reply : FireboltReply} {drmSession : Bytes}
    (h : s.response reply = some drmSession) : (reply.active && reply.activeInCall) = true :=
  (Option.ite_none_right_eq_some.mp h).1

omit [DecidableEq η] in
/-- Without a response, or behind an error, there is still no license. -/
theorem lastLicense_silent {lib : JsonLibrary} {c : FireboltCall η} {reply : FireboltReply}
    (h : c.loop.response reply = none) (hnone : c.lastLicense lib = none)
    (loop : FireboltLoop η) : (c.after loop (.round reply)).lastLicense lib = none := by
  unfold lastLicense after
  dsimp only
  split
  · rw [h, Option.bind_none]
  · exact hnone

omit [DecidableEq η] in
theorem lastLicense_parsed {lib : JsonLibrary} {c : FireboltCall η} {reply : FireboltReply}
    {drmSession : Bytes} {sessionObj : cJSON} (h : c.loop.response reply = some drmSession)
    (hparse : lib.PlayerJsonObject drmSession = some sessionObj) (loop : FireboltLoop η) :
    (c.after loop (.round reply)).lastLicense lib = license sessionObj := by
  unfold lastLicense after
  dsimp only
  rw [if_pos (asked_of_response h), h, Option.bind_some, hparse, Option.bind_some]

omit [DecidableEq η] in
theorem isSessionValid_iff {s : State (Handle η)} (h : Ready s) :
    s.isSessionValid .session = true ↔ s.sessionID .session ≠ none := by
  rw [State.isSessionValid, Option.isSome_iff_ne_none, Ne, Ne, h.sessionID_none]

omit [DecidableEq η] in
/-- A round behind which the handle stands for the same session has not made it valid. -/
theorem madeValidBy_same {c : FireboltCall η} {loop : FireboltLoop η}
    (hc : Ready c.loop.world.sessions) (ht : Ready loop.world.sessions)
    (hid : loop.world.sessions.sessionID .session = c.loop.world.sessions.sessionID .session)
    (reply : FireboltReply) : (c.after loop (.round reply)).madeValidBy = c.madeValidBy := by
  have hvalid : loop.world.sessions.isSessionValid .session =
      c.loop.world.sessions.isSessionValid .session := by
    rw [Bool.eq_iff_iff, isSessionValid_iff ht, isSessionValid_iff hc, hid]
  refine if_neg ?_
  rw [hvalid, Bool.not_and_self]
  exact Bool.false_ne_true

omit [DecidableEq η] in
theorem madeValidBy_made {c : FireboltCall η} {loop : FireboltLoop η} {id : Int}
    (ht : Ready loop.world.sessions)
    (hnone : c.loop.world.sessions.mpSessionManager .session = none)
    (hid : loop.world.sessions.sessionID .session = some id) (reply : FireboltReply) :
    (c.after loop (.round reply)).madeValidBy = some reply.opened := by
  refine if_pos ?_
  have hvalid : loop.world.sessions.isSessionValid .session = true := by
    rw [isSessionValid_iff ht, hid]
    nofun
  rw [hvalid, State.isSessionValid, hnone]
  rfl

theorem opening_round {lib : JsonLibrary} {c : FireboltCall η} (h : Opening lib c)
    (hlooping : c.loop.outcome = .looping) (reply : FireboltReply) :
    Opening lib (c.after (c.loop.round lib reply) (.round reply)) := by
  have hcase := c.loop.round_case lib reply
  have hkept := (FireboltLoop.round_kept hcase h.ready).1
  refine ⟨hkept.ready, FireboltLoop.round_hasVariable h.ready h.session lib reply,
    fun hagain => ?_⟩
  generalize c.loop.round lib reply = t at hcase hagain ⊢
  have hagain : t.outcome = .looping := hagain
  cases hcase with
  | silent hresponse _ _ => exact lastLicense_silent hresponse (h.unanswered hlooping) t
  | unread _ _ hthrew | unparsed _ _ _ _ hthrew =>
      rw [hthrew] at hagain
      cases hagain
  | parsed drmSession sessionObj hresponse _ hparse _ hends =>
      rw [lastLicense_parsed hresponse hparse]
      unfold FireboltLoop.Concludes at hends
      split at hends
      · rename_i hnone
        exact hnone
      · rw [hends.1] at hagain
        cases hagain

omit [DecidableEq η] in
/-- Where a round ends as it should, only the session is left. -/
theorem right_iff {lib : JsonLibrary} {c : FireboltCall η}
    (h : c.loop.Concludes (c.lastLicense lib) c.allocated) :
    AcquiresRightly lib c ↔ ∀ opened, c.madeValidBy = some opened →
      c.loop.world.sessions.sessionID .session = opened.map fun o => (o.id : Int) := by
  refine ⟨fun hright => hright.session, fun hsession => ?_⟩
  unfold FireboltLoop.Concludes at h
  split at h
  · rename_i hnone
    have hfalse : ∀ ret, c.loop.outcome = .returned ret → ret = false := by
      rintro ret hret
      rw [hret] at h
      obtain h | h := h <;> cases h
      rfl
    refine ⟨?_, ?_, fun hret => absurd (hfalse true hret) nofun, hsession⟩
    · intro e hthrew
      rw [hthrew] at h
      obtain h | h := h <;> cases h
    · intro ret hret
      rw [hfalse ret hret, hnone]
      exact ⟨nofun, fun hne => absurd rfl hne⟩
  · rename_i bytes hsome
    obtain ⟨hret, hbuffer⟩ := h
    refine ⟨?_, ?_, fun _ hallocated => ?_, hsession⟩
    · rw [hret]
      nofun
    · intro ret heq
      rw [hret] at heq
      cases heq
      rw [hsome]
      exact ⟨fun _ => nofun, fun _ => rfl⟩
    · rw [hbuffer, hallocated, hsome]
      rfl

omit [DecidableEq η] in
theorem opened_of_response {s : FireboltLoop η} {reply : FireboltReply} {drmSession : Bytes}
    (h : s.response reply = some drmSession) (hupdate : s.update = false) :
    ∃ o, reply.opened = some o := by
  unfold FireboltLoop.response at h
  rw [if_pos (asked_of_response h), hupdate, if_neg Bool.false_ne_true] at h
  obtain ⟨o, hopened, -⟩ := Option.map_eq_some_iff.mp h
  exact ⟨o, hopened⟩

/-- A round in which the service fits with what it says of the session. -/
theorem parsed_right_iff {lib : JsonLibrary} {c : FireboltCall η} (h : Opening lib c)
    (hright : AcquiresRightly lib c) {t : FireboltLoop η} {reply : FireboltReply}
    {drmSession : Bytes} (hresponse : c.loop.response reply = some drmSession)
    (hworld : t.world =
      c.loop.world.keepSession (some (c.loop.sessionId, c.loop.inputSummaryHash))) :
    (∀ opened, (c.after t (.round reply)).madeValidBy = some opened →
        t.world.sessions.sessionID .session = opened.map fun o => (o.id : Int)) ↔
      (c.loop.update = false → ∀ o, reply.opened = some o →
        c.loop.world.sessions.isSessionValid .session = false → 0 < c.loop.sessionId →
          c.loop.sessionId = o.id) := by
  have hkept := (keepSession_end h.ready (some (c.loop.sessionId, c.loop.inputSummaryHash))).kept
  rw [← hworld] at hkept
  by_cases hmakes : c.loop.world.sessions.mpSessionManager .session = none ∧ 0 < c.loop.sessionId
  · -- the caller's handle becomes valid
    obtain ⟨hnone, hpos⟩ := hmakes
    have hid := (FireboltLoop.parsed_session h.ready hworld hnone).1 hpos
    have hupdate : c.loop.update = false := by
      obtain ⟨-, hupdate⟩ | hsome := h.session
      · exact hupdate
      · rw [h.ready.sessionID_none.mpr hnone] at hsome
        cases hsome
    obtain ⟨o, hopened⟩ := opened_of_response hresponse hupdate
    have hmade := madeValidBy_made hkept.ready hnone hid reply
    rw [hid, hmade, hopened]
    constructor
    · rintro hsession - o' heq - -
      cases heq
      exact Option.some.inj (hsession _ rfl)
    · rintro hfits opened heq
      cases heq
      rw [hfits hupdate o rfl ?_ hpos]
      · rfl
      · rw [State.isSessionValid, hnone]
        rfl
  · have hid := hkept.sessionID_eq h.ready fun hnone =>
      (FireboltLoop.parsed_session h.ready hworld hnone).2 fun hpos => hmakes ⟨hnone, hpos⟩
    refine iff_of_true (fun opened hmade => ?_) fun _ _ _ hinvalid hpos => absurd ⟨?_, hpos⟩ hmakes
    · rw [madeValidBy_same h.ready hkept.ready hid] at hmade
      exact hid.trans (hright.session opened hmade)
    · exact Option.not_isSome_iff_eq_none.mp (Bool.eq_false_iff.mp hinvalid)

/-- A round ends right exactly when the service fits. -/
theorem round_right_iff {lib : JsonLibrary} {c : FireboltCall η} (h : Opening lib c)
    (hright : AcquiresRightly lib c) (hlooping : c.loop.outcome = .looping)
    (reply : FireboltReply) :
    AcquiresRightly lib (c.after (c.loop.round lib reply) (.round reply)) ↔
      ServiceFits lib c (.round reply) := by
  have hcase := c.loop.round_case lib reply
  generalize c.loop.round lib reply = t at hcase ⊢
  cases hcase with
  | silent hresponse hworld hends =>
      have hconcludes : (c.after t (.round reply)).loop.Concludes
          ((c.after t (.round reply)).lastLicense lib) reply.allocated := by
        rw [lastLicense_silent hresponse (h.unanswered hlooping) t]
        exact hends
      refine iff_of_true ((right_iff hconcludes).mpr fun opened hmade => ?_) ⟨?_, ?_⟩
      · have hready : Ready t.world.sessions := hworld ▸ h.ready
        rw [madeValidBy_same h.ready hready (by rw [hworld])] at hmade
        exact (congrArg (·.sessions.sessionID .session) hworld).trans (hright.session opened hmade)
      · rw [hresponse]
        nofun
      · intro hasked hupdate o hopened
        unfold FireboltLoop.response at hresponse
        rw [if_pos hasked, hupdate, hopened] at hresponse
        cases hresponse
  | unread hunread _ hthrew =>
      obtain ⟨hasked, hupdate, o, hopened, hlarge⟩ := hunread
      exact iff_of_false (fun hd => hd.noThrow _ hthrew)
        fun hfits => hlarge (hfits.2 hasked hupdate o hopened).1
  | unparsed drmSession hresponse hparse _ hthrew =>
      exact iff_of_false (fun hd => hd.noThrow _ hthrew)
        fun hfits => hfits.1 drmSession hresponse hparse
  | parsed drmSession sessionObj hresponse hread hparse hworld hends =>
      have hasked := asked_of_response hresponse
      have hconcludes : (c.after t (.round reply)).loop.Concludes
          ((c.after t (.round reply)).lastLicense lib) reply.allocated := by
        rw [lastLicense_parsed hresponse hparse]
        exact hends
      refine (right_iff hconcludes).trans ((parsed_right_iff h hright hresponse hworld).trans ?_)
      constructor
      · refine fun hid => ⟨?_, fun _ hupdate o hopened => ⟨?_, hid hupdate o hopened⟩⟩
        · intro text htext
          rw [hresponse] at htext
          cases htext
          rw [hparse]
          nofun
        · exact not_not.mp fun hlarge => hread ⟨hasked, hupdate, o, hopened, hlarge⟩
      · exact fun hfits hupdate o hopened => (hfits.2 hasked hupdate o hopened).2

/-! ## Runs -/

theorem step_round {lib : JsonLibrary} {c d : FireboltCall η} {reply : FireboltReply}
    (h : (system lib).step c (.round reply) = some d) :
    c.loop.outcome = .looping ∧ d = c.after (c.loop.round lib reply) (.round reply) := by
  obtain ⟨loop, hloop, hd⟩ := Option.map_eq_some_iff.mp h
  obtain ⟨hlooping, heq⟩ := Option.ite_none_right_eq_some.mp hloop
  cases heq
  exact ⟨hlooping, hd.symm⟩

theorem step_other {lib : JsonLibrary} {c d : FireboltCall η} {a : Act (Handle η)}
    (h : (system lib).step c (.other a) = some d) :
    ∃ world, c.loop.world.others a = some world ∧
      d = { c with loop := { c.loop with world } } := by
  obtain ⟨loop, hloop, hd⟩ := Option.map_eq_some_iff.mp h
  obtain ⟨world, hworld, heq⟩ := Option.map_eq_some_iff.mp hloop
  cases heq
  exact ⟨world, hworld, hd.symm⟩

theorem opening_step {lib : JsonLibrary} {c d : FireboltCall η} {a : CallAct η FireboltReply}
    (h : Opening lib c) (hd : (system lib).step c a = some d) : Opening lib d := by
  cases a with
  | round reply =>
      obtain ⟨hlooping, rfl⟩ := step_round hd
      exact opening_round h hlooping reply
  | other a =>
      obtain ⟨world, hworld, rfl⟩ := step_other hd
      exact ⟨(World.others_kept h.ready hworld).1.ready,
        FireboltLoop.others_hasVariable h.ready h.session hworld, h.unanswered⟩

theorem step_right_iff {lib : JsonLibrary} {c d : FireboltCall η} {a : CallAct η FireboltReply}
    (h : Opening lib c) (hright : AcquiresRightly lib c) (hd : (system lib).step c a = some d) :
    AcquiresRightly lib d ↔ ServiceFits lib c a := by
  cases a with
  | round reply =>
      obtain ⟨hlooping, rfl⟩ := step_round hd
      exact round_right_iff h hright hlooping reply
  | other a =>
      obtain ⟨world, hworld, rfl⟩ := step_other hd
      obtain ⟨hkept, -, hpointer⟩ := World.others_kept h.ready hworld
      have hid := hkept.sessionID_eq h.ready hpointer.trans
      refine iff_of_true ⟨hright.noThrow, hright.returns, hright.buffer, ?_⟩ trivial
      exact fun opened hmade => hid.trans (hright.session opened hmade)

omit [DecidableEq η] in
theorem right_start (lib : JsonLibrary) (sessions : State (Handle η)) (hash : Bytes → Nat)
    (r : LicenseRequest) (uninitialised : Int) :
    AcquiresRightly lib (start sessions hash r uninitialised) := by
  have hout : (start sessions hash r uninitialised).loop.outcome = .looping ∨
      (start sessions hash r uninitialised).loop.outcome = .returned false := by
    change (if r.complete then Outcome.looping else .returned false) = .looping ∨
      (if r.complete then Outcome.looping else .returned false) = .returned false
    cases r.complete
    · exact .inr rfl
    · exact .inl rfl
  have hconcludes : (start sessions hash r uninitialised).loop.Concludes
      ((start sessions hash r uninitialised).lastLicense lib) false := hout
  exact (right_iff hconcludes).mpr nofun

/-- The rounds still to come. -/
def roundsLeft (c : FireboltCall η) : Nat :=
  if c.loop.outcome = .looping then MAX_LICENSE_REQUEST_ATTEMPTS - c.loop.retryCount else 0

/-- The loop ends. -/
theorem rounds_le {lib : JsonLibrary} {c d : FireboltCall η} {as : List (CallAct η FireboltReply)}
    (h : c.loop.outcome = .looping → c.loop.retryCount < MAX_LICENSE_REQUEST_ATTEMPTS)
    (hd : (system lib).run c as = some d) : as.countP CallAct.isRound ≤ c.roundsLeft := by
  induction as generalizing c with
  | nil => exact Nat.zero_le _
  | cons a as ih =>
      obtain ⟨c', hstep, hrest⟩ := Option.bind_eq_some_iff.mp hd
      cases a with
      | round reply =>
          obtain ⟨hlooping, hc'⟩ := step_round hstep
          have hagain : c'.loop.outcome = .looping →
              c'.loop.retryCount = c.loop.retryCount + 1 ∧
                c.loop.retryCount + 1 < MAX_LICENSE_REQUEST_ATTEMPTS := by
            rw [hc']
            exact (c.loop.round_rest lib reply).2.2
          have hcount := ih (fun hloop => (hagain hloop).1 ▸ (hagain hloop).2) hrest
          have hlt := h hlooping
          rw [List.countP_cons_of_pos (by rfl), roundsLeft, if_pos hlooping]
          unfold roundsLeft at hcount
          split at hcount
          · rename_i hloop
            obtain ⟨hnext, hless⟩ := hagain hloop
            omega
          · omega
      | other a =>
          obtain ⟨world, -, hc'⟩ := step_other hstep
          have hcount := ih (c := c') (hc' ▸ h) hrest
          rw [List.countP_cons_of_neg Bool.false_ne_true]
          rw [hc'] at hcount
          exact hcount

/-- A call makes at most two rounds; every state of a run is right exactly when the service fits
in all of them. -/
theorem acquiresRightly_iff (lib : JsonLibrary) {sessions : State (Handle η)}
    (hreach : (sessionSystem (Handle η)).Reachable sessions) (hsession : .session ∈ sessions.handles)
    (hnew : .newSession ∉ sessions.handles) (htemp : .temporary ∉ sessions.handles)
    (hash : Bytes → Nat) (r : LicenseRequest) (uninitialised : Int)
    (as : List (CallAct η FireboltReply)) :
    (∀ d, (system lib).run (start sessions hash r uninitialised) as = some d →
      as.countP CallAct.isRound ≤ MAX_LICENSE_REQUEST_ATTEMPTS) ∧
    ((system lib).RunAll (AcquiresRightly lib) (start sessions hash r uninitialised) as ↔
      (system lib).RunOk (ServiceFits lib) (start sessions hash r uninitialised) as) := by
  have hready : Ready sessions := ⟨registered_of_reachable hreach, hsession, hnew, htemp⟩
  constructor
  · intro d hd
    have hzero : 0 < MAX_LICENSE_REQUEST_ATTEMPTS := by decide
    refine (rounds_le (fun _ => hzero) hd).trans ?_
    unfold roundsLeft
    split
    · exact Nat.sub_le _ _
    · exact Nat.zero_le _
  · exact System.runAll_iff_runOk_of_invariant (fun _ _ _ => opening_step)
      (fun _ _ _ => step_right_iff) (opening_start lib hready hash r uninitialised)
      (right_start lib sessions hash r uninitialised) as

/-! ## Runs with one response -/

def licensed : Bytes := ascii "\x7b\"license\":\"QQ==\"\x7d"

/-- What the parser gives for one text. -/
def licenseLibrary : JsonLibrary where
  cJSON_Parse text :=
    if text = licensed then some (.object [(ascii "license", .string (ascii "QQ=="))]) else none
  parse_empty := if_neg (by decide)
  outOfInt _ := -2 ^ 31

theorem licenseLibrary_licensed : licenseLibrary.PlayerJsonObject licensed =
    some (.object [(ascii "license", .string (ascii "QQ=="))]) := by
  have hparse : ∀ text, licenseLibrary.cJSON_Parse text = if text = licensed then
      some (.object [(ascii "license", .string (ascii "QQ=="))]) else none := fun _ => rfl
  have htext : cText licensed = licensed := by decide
  rw [JsonLibrary.PlayerJsonObject, htext, hparse, if_pos rfl]

/-- The caller's handle alone. -/
def invalidSession : State (Handle Unit) := ({} : State (Handle Unit)).addHandle .session none

theorem invalidSession_reachable : (sessionSystem (Handle Unit)).Reachable invalidSession :=
  .step (a := .constructInvalid .session) (.init rfl) trivial rfl

/-- The session 5 is opened. -/
def opensFive (openSessionResponse : Bytes) : CallAct Unit FireboltReply :=
  .round ⟨true, true, some ⟨5, by decide, by decide, openSessionResponse⟩, none, true⟩

def startOpen (uninitialised : Int) : FireboltCall Unit :=
  start invalidSession (fun _ => 0) (tokenRequest [0x61] [0x62]) uninitialised

theorem opensFive_acquiresRightly :
    (system licenseLibrary).RunAll (AcquiresRightly licenseLibrary) (startOpen 5)
      [opensFive licensed] := by
  refine (acquiresRightly_iff licenseLibrary invalidSession_reachable (by decide) (by decide)
    (by decide) (fun _ => 0) (tokenRequest [0x61] [0x62]) 5 [opensFive licensed]).2.mpr ?_
  refine fun d _ => ⟨⟨?_, ?_⟩, trivial⟩
  · rintro drmSession hresponse
    cases hresponse
    rw [licenseLibrary_licensed]
    nofun
  · rintro - - o hopened
    cases hopened
    exact ⟨by decide, fun _ _ => rfl⟩

/-- An empty text makes the call throw. -/
theorem emptyResponse_throws :
    ¬ (system licenseLibrary).RunAll (AcquiresRightly licenseLibrary) (startOpen 5)
      [opensFive []] := by
  intro hall
  have hopening : Opening licenseLibrary (startOpen 5) :=
    opening_start _ ⟨registered_of_reachable invalidSession_reachable, by decide, by decide,
      by decide⟩ _ _ _
  have hright := (hall.2 _ rfl).start
  have hfits := (round_right_iff hopening (right_start _ _ _ _ _) rfl _).mp hright
  exact hfits.1 [] rfl rfl

end FireboltCall
end PlayerInterface.SecManager
