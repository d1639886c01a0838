import PlayerInterface.Drm.PlayReadyHelper
import PlayerInterface.Json.PlayerJsonObject
import PlayerInterface.SecManager.ThunderLicense

/-!
# License calls over Firebolt

`ContentProtectionFirebolt::AcquireLicenseOpenOrUpdate` under `mContentProtectionMutex`.
The id of an opened session reaches `OpenDrmSession` and goes no further.
-/

namespace PlayerInterface.SecManager

open PlayerInterface.Core PlayerInterface.Json
open PlayerInterface.Drm (ascii)

/-! ## Asking the service -/

/-- `std::stoi`. -/
def stoi (str : Bytes) : Except StdException Int :=
  let text := (cText str).dropWhile isspace
  let negative : Bool := text.head? = some 45
  let digits := if negative || text.head? = some 43 then text.drop 1 else text
  match leadingNumber digits with
  | none => .error .invalid_argument
  | some n =>
      let value : Int := if negative then -n else n
      if -2 ^ 31 ≤ value ∧ value < 2 ^ 31 then .ok value else .error .out_of_range

theorem isdigit_ne {c : UInt8} (h : isdigit c = true) :
    c ≠ 0 ∧ isspace c = false ∧ c ≠ 43 ∧ c ≠ 45 := by
  have hdigit : 48 ≤ c.toNat :=
    UInt8.le_iff_toNat_le.mp (of_decide_eq_true (Bool.and_eq_true_iff.mp h).1)
  have hne : ∀ d : UInt8, d.toNat < 48 → c ≠ d := by
    rintro d hd rfl
    omega
  refine ⟨hne 0 (by decide), ?_, hne 43 (by decide), hne 45 (by decide)⟩
  have htab : ¬ c ≤ 13 := by
    rw [UInt8.le_iff_toNat_le]
    exact fun hle => absurd (hdigit.trans hle) (by decide)
  rw [isspace, decide_eq_false (hne 32 (by decide)), decide_eq_false htab, Bool.and_false,
    Bool.or_false]

/-- A printed number is read when it is an `int`. -/
theorem stoi_decimal {n : Nat} (h : n ≠ 0) :
    stoi (decimal n) = if n < 2 ^ 31 then .ok (n : Int) else .error .out_of_range := by
  have hdigits := isdigit_decimal h
  have htext : cText (decimal n) = decimal n :=
    List.takeWhile_eq_self_iff.mpr fun c hc => decide_eq_true (isdigit_ne (hdigits c hc)).1
  have hhead : ∀ c, (decimal n).head? = some c → isdigit c = true :=
    fun c hc => hdigits c (List.mem_of_mem_head? hc)
  have hspace : (decimal n).dropWhile isspace = decimal n := by
    rw [List.dropWhile_eq_self_iff]
    intro hpos hyes
    rw [(isdigit_ne (hdigits _ (List.getElem_mem hpos))).2.1] at hyes
    cases hyes
  have hminus : decide ((decimal n).head? = some 45) = false :=
    decide_eq_false fun hc => (isdigit_ne (hhead _ hc)).2.2.2 rfl
  have hplus : decide ((decimal n).head? = some 43) = false :=
    decide_eq_false fun hc => (isdigit_ne (hhead _ hc)).2.2.1 rfl
  unfold stoi
  rw [htext, hspace]
  dsimp only
  rw [hminus, hplus, Bool.or_false, if_neg Bool.false_ne_true, leadingNumber_decimal h]
  dsimp only
  rw [if_neg Bool.false_ne_true]
  by_cases hlt : n < 2 ^ 31
  · rw [if_pos hlt, if_pos (by omega)]
  · rw [if_neg hlt, if_neg (by omega)]

structure DRMSession where
  sessionId : Bytes
  openSessionResponse : Bytes

/-- A session the service has opened under a positive id of 64 bits. -/
structure Opened where
  id : Nat
  pos : 0 < id
  lt : id < 2 ^ 63
  openSessionResponse : Bytes

def Opened.drmSession (o : Opened) : DRMSession where
  sessionId := decimal o.id
  openSessionResponse := o.openSessionResponse

/-- The result and what is in `response`. The parameter `sessionId` is a copy, so that the number
read is not seen by the caller. -/
def OpenDrmSession (active : Bool) (drmSession : Option DRMSession) :
    Except StdException (Bool × Bytes) :=
  match active, drmSession with
  | true, some drmSession => (stoi drmSession.sessionId).map fun _ =>
      (true, drmSession.openSessionResponse)
  | _, _ => .ok (false, [])

def UpdateDrmSession (active : Bool) (drmSession : Option Bytes) : Bool × Bytes :=
  match active, drmSession with
  | true, some response => (true, response)
  | _, _ => (false, [])

/-! ## The loop -/

/-- What a round meets: `IsActive` at its start and in the call, the answer to the call that is
made (`none` is an error), and whether the license buffer can be allocated. -/
structure FireboltReply where
  active : Bool
  activeInCall : Bool
  opened : Option Opened
  updated : Option Bytes
  allocated : Bool

/-- `licenseResponse` is the pointer written, null when the allocation failed. -/
structure FireboltLoop (η : Type) where
  world : World η
  inputSummaryHash : Nat
  update : Bool
  sessionId : Int
  codes : ResultCodes := {}
  retryCount : Nat := 0
  licenseResponse : Option (Option Bytes) := none
  outcome : Outcome := .looping

/-- The bytes of the license in a response. -/
def license (sessionObj : cJSON) : Option Bytes :=
  (sessionObj.getString (ascii "license")).bind decodeLicense

def resultContext (lib : JsonLibrary) (context : cJSON) : ResultContext where
  class_ := lib.getInt context (ascii "class")
  reason := lib.getInt context (ascii "reason")
  businessStatus := lib.getInt context (ascii "businessStatus")

/-- The codes behind a response, which is parsed a second time. -/
def ResultCodes.read (codes : ResultCodes) (lib : JsonLibrary) (drmSession : Bytes) :
    Except StdException ResultCodes :=
  if drmSession = [] then .ok codes
  else
    match lib.PlayerJsonObject drmSession with
    | none => .error .PlayerJsonParseException
    | some response =>
        match response.GetObjectItem (ascii "secManagerResultContext") with
        | some context => .ok (codes.update (resultContext lib context))
        | none => .ok codes

variable {η : Type} [DecidableEq η]

namespace FireboltLoop

/-- `uninitialised` is what the variable `sessionId` holds when nothing is assigned to it. -/
def start (sessions : State (Handle η)) (hash : Bytes → Nat) (r : LicenseRequest)
    (uninitialised : Int) : FireboltLoop η where
  world := { sessions }
  inputSummaryHash := hash r.InputSummary
  update := sessions.isSessionValid .session
  sessionId :=
    if sessions.isSessionValid .session then (sessions.sessionID .session).getD (-1)
    else uninitialised
  outcome := if r.complete then .looping else .returned false

def call (s : FireboltLoop η) (reply : FireboltReply) : Except StdException (Bool × Bytes) :=
  if s.update then .ok (UpdateDrmSession reply.activeInCall reply.updated)
  else OpenDrmSession reply.activeInCall (reply.opened.map Opened.drmSession)

/-- `if (result)`: the license and what the handles become. -/
def receive (s : FireboltLoop η) (lib : JsonLibrary) (drmSession : Bytes) (allocated : Bool) :
    FireboltLoop η × Except StdException Bool :=
  match lib.PlayerJsonObject drmSession with
  | none => ({ s with world := s.world.keepSession none }, .error .PlayerJsonParseException)
  | some sessionObj =>
      if drmSession = [] then ({ s with world := s.world.keepSession none }, .ok false)
      else
        let world := s.world.keepSession (some (s.sessionId, s.inputSummaryHash))
        match license sessionObj with
        | some bytes =>
            ({ s with
                world
                licenseResponse := some (if allocated then some bytes else none) }, .ok true)
        | none => ({ s with world }, .ok false)

/-- The result codes and the end of the round. -/
def conclude (s : FireboltLoop η) (lib : JsonLibrary) (drmSession : Bytes) (ret : Bool) :
    FireboltLoop η :=
  match s.codes.read lib drmSession with
  | .error e => { s with outcome := .threw e }
  | .ok codes =>
      let (retryCount, outcome) := endRound ret codes s.retryCount
      { s with codes, retryCount, outcome }

def round (s : FireboltLoop η) (lib : JsonLibrary) (reply : FireboltReply) : FireboltLoop η :=
  if reply.active then
    match s.call reply with
    | .error e => { s with outcome := .threw e }
    | .ok (false, drmSession) => s.conclude lib drmSession false
    | .ok (true, drmSession) =>
        match s.receive lib drmSession reply.allocated with
        | (s, .error e) => { s with outcome := .threw e }
        | (s, .ok ret) => s.conclude lib drmSession ret
  else { s with outcome := .returned false }

def step (lib : JsonLibrary) (s : FireboltLoop η) :
    CallAct η FireboltReply → Option (FireboltLoop η)
  | .round reply => if s.outcome = .looping then some (s.round lib reply) else none
  | .other a => (s.world.others a).map fun world => { s with world }

/-- A call that has begun, with other threads. -/
def system (lib : JsonLibrary) : System (FireboltLoop η) (CallAct η FireboltReply) where
  init s := ∃ sessions hash r uninitialised, s = start sessions hash r uninitialised
  step := step lib

/-! ## The cases of a round -/

/-- The text of the response to the round, none when the service is not asked or gives an error. -/
def response (s : FireboltLoop η) (reply : FireboltReply) : Option Bytes :=
  if reply.active && reply.activeInCall then
    if s.update then reply.updated else reply.opened.map Opened.openSessionResponse
  else none

/-- The id the round gets is no `int`. -/
def Unread (s : FireboltLoop η) (reply : FireboltReply) : Prop :=
  (reply.active && reply.activeInCall) = true ∧ s.update = false ∧
    ∃ o, reply.opened = some o ∧ ¬ o.id < 2 ^ 31

/-- A round ends without a license, or with one and its bytes in the buffer. -/
def Concludes (t : FireboltLoop η) (licenseDecoded : Option Bytes) (allocated : Bool) : Prop :=
  match licenseDecoded with
  | none => t.outcome = .looping ∨ t.outcome = .returned false
  | some bytes => t.outcome = .returned true ∧
      t.licenseResponse = some (if allocated then some bytes else none)

inductive RoundCase (lib : JsonLibrary) (s : FireboltLoop η) (reply : FireboltReply)
    (t : FireboltLoop η) : Prop where
  | silent : s.response reply = none → t.world = s.world →
      t.outcome = .looping ∨ t.outcome = .returned false → RoundCase lib s reply t
  | unread : s.Unread reply → t.world = s.world → t.outcome = .threw .out_of_range →
      RoundCase lib s reply t
  | unparsed (drmSession : Bytes) : s.response reply = some drmSession →
      lib.PlayerJsonObject drmSession = none → t.world = s.world.keepSession none →
      t.outcome = .threw .PlayerJsonParseException → RoundCase lib s reply t
  | parsed (drmSession : Bytes) (sessionObj : cJSON) : s.response reply = some drmSession →
      ¬ s.Unread reply → lib.PlayerJsonObject drmSession = some sessionObj →
      t.world = s.world.keepSession (some (s.sessionId, s.inputSummaryHash)) →
      t.Concludes (license sessionObj) reply.allocated → RoundCase lib s reply t

omit [DecidableEq η] in
/-- The end of a round with no text, or one that has been parsed. -/
theorem conclude_concludes (s : FireboltLoop η) (lib : JsonLibrary) (drmSession : Bytes)
    (licenseDecoded : Option Bytes) (allocated : Bool)
    (hparsed : drmSession = [] ∨ lib.PlayerJsonObject drmSession ≠ none)
    (hresponse : ∀ bytes, licenseDecoded = some bytes →
      s.licenseResponse = some (if allocated then some bytes else none)) :
    (s.conclude lib drmSession licenseDecoded.isSome).world = s.world ∧
      (s.conclude lib drmSession licenseDecoded.isSome).Concludes licenseDecoded allocated := by
  obtain ⟨codes, hcodes⟩ : ∃ codes, s.codes.read lib drmSession = .ok codes := by
    unfold ResultCodes.read
    split
    · exact ⟨_, rfl⟩
    · rename_i hne
      split
      · rename_i hnone
        exact absurd hnone (hparsed.resolve_left hne)
      · split <;> exact ⟨_, rfl⟩
  rw [conclude, hcodes]
  refine ⟨rfl, ?_⟩
  cases licenseDecoded with
  | none => exact endRound_false codes s.retryCount
  | some bytes => exact ⟨rfl, hresponse bytes rfl⟩

omit [DecidableEq η] in
theorem call_case (s : FireboltLoop η) {reply : FireboltReply} (hactive : reply.active = true) :
    (s.response reply = none ∧ s.call reply = .ok (false, [])) ∨
      (s.Unread reply ∧ s.call reply = .error .out_of_range) ∨
      ∃ drmSession, s.response reply = some drmSession ∧ ¬ s.Unread reply ∧
        s.call reply = .ok (true, drmSession) := by
  unfold response Unread call
  rw [hactive, Bool.true_and]
  cases hcall : reply.activeInCall with
  | false =>
      refine .inl ⟨rfl, ?_⟩
      cases s.update <;> rfl
  | true =>
      cases s.update with
      | true =>
          cases hupdated : reply.updated with
          | none => exact .inl ⟨rfl, rfl⟩
          | some drmSession => exact .inr (.inr ⟨drmSession, rfl, nofun, rfl⟩)
      | false =>
          cases hopened : reply.opened with
          | none => exact .inl ⟨rfl, rfl⟩
          | some o =>
              have hread : OpenDrmSession true (some o.drmSession) =
                  (stoi (decimal o.id)).map fun _ => (true, o.openSessionResponse) := rfl
              rw [stoi_decimal (Nat.ne_of_gt o.pos)] at hread
              by_cases hlt : o.id < 2 ^ 31
              · rw [if_pos hlt] at hread
                refine .inr (.inr ⟨o.openSessionResponse, rfl, ?_, hread⟩)
                rintro ⟨-, -, o', heq, hnot⟩
                cases heq
                exact hnot hlt
              · rw [if_neg hlt] at hread
                exact .inr (.inl ⟨⟨rfl, rfl, o, rfl, hlt⟩, hread⟩)

theorem receive_unparsed (s : FireboltLoop η) {lib : JsonLibrary} {drmSession : Bytes}
    (h : lib.PlayerJsonObject drmSession = none) (allocated : Bool) :
    s.receive lib drmSession allocated =
      ({ s with world := s.world.keepSession none }, .error .PlayerJsonParseException) := by
  rw [receive, h]

/-- A text that has been parsed is not empty. -/
theorem receive_parsed (s : FireboltLoop η) {lib : JsonLibrary} {drmSession : Bytes}
    {sessionObj : cJSON} (h : lib.PlayerJsonObject drmSession = some sessionObj)
    (allocated : Bool) :
    ∃ t, s.receive lib drmSession allocated = (t, .ok (license sessionObj).isSome) ∧
      t.world = s.world.keepSession (some (s.sessionId, s.inputSummaryHash)) ∧
      ∀ bytes, license sessionObj = some bytes →
        t.licenseResponse = some (if allocated then some bytes else none) := by
  have hne : drmSession ≠ [] := by
    rintro rfl
    have hnone : lib.PlayerJsonObject [] = none := lib.parse_empty
    rw [hnone] at h
    cases h
  rw [receive, h]
  dsimp only
  rw [if_neg hne]
  generalize s.world.keepSession (some (s.sessionId, s.inputSummaryHash)) = world
  cases license sessionObj with
  | none => exact ⟨{ s with world }, rfl, rfl, nofun⟩
  | some bytes =>
      refine ⟨_, rfl, rfl, ?_⟩
      rintro bytes' heq
      cases heq
      rfl

theorem round_case (lib : JsonLibrary) (s : FireboltLoop η) (reply : FireboltReply) :
    RoundCase lib s reply (s.round lib reply) := by
  by_cases hactive : reply.active = true
  · obtain ⟨hresponse, hcall⟩ | ⟨hunread, hcall⟩ | ⟨drmSession, hresponse, hread, hcall⟩ :=
      s.call_case hactive
    · have hround : s.round lib reply = s.conclude lib [] false := by
        rw [round, if_pos hactive, hcall]
      obtain ⟨hworld, hends⟩ := s.conclude_concludes lib [] none false (.inl rfl) nofun
      rw [hround]
      exact .silent hresponse hworld hends
    · have hround : s.round lib reply = { s with outcome := .threw .out_of_range } := by
        rw [round, if_pos hactive, hcall]
      rw [hround]
      exact .unread hunread rfl rfl
    · cases hparse : lib.PlayerJsonObject drmSession with
      | none =>
          have hround : s.round lib reply =
              { s with
                world := s.world.keepSession none
                outcome := .threw .PlayerJsonParseException } := by
            rw [round, if_pos hactive, hcall]
            dsimp only
            rw [s.receive_unparsed hparse]
          rw [hround]
          exact .unparsed drmSession hresponse hparse rfl rfl
      | some sessionObj =>
          obtain ⟨t, hreceive, hworld, hwritten⟩ := s.receive_parsed hparse reply.allocated
          have hround : s.round lib reply =
              t.conclude lib drmSession (license sessionObj).isSome := by
            rw [round, if_pos hactive, hcall]
            dsimp only
            rw [hreceive]
          obtain ⟨hsame, hends⟩ := t.conclude_concludes lib drmSession (license sessionObj)
            reply.allocated (.inr (by rw [hparse]; nofun)) hwritten
          rw [hround]
          exact .parsed drmSession sessionObj hresponse hread hparse (hsame.trans hworld) hends
  · have hround : s.round lib reply = { s with outcome := .returned false } := if_neg hactive
    have hresponse : s.response reply = none := by
      rw [response, Bool.eq_false_iff.mpr hactive]
      rfl
    rw [hround]
    exact .silent hresponse rfl (.inr rfl)

omit [DecidableEq η] in
theorem conclude_rest (s : FireboltLoop η) (lib : JsonLibrary) (drmSession : Bytes) (ret : Bool) :
    (s.conclude lib drmSession ret).update = s.update ∧
      (s.conclude lib drmSession ret).sessionId = s.sessionId ∧
      ((s.conclude lib drmSession ret).outcome = .looping →
        (s.conclude lib drmSession ret).retryCount = s.retryCount + 1 ∧
          s.retryCount + 1 < MAX_LICENSE_REQUEST_ATTEMPTS) := by
  unfold conclude
  split
  · exact ⟨rfl, rfl, nofun⟩
  · exact ⟨rfl, rfl, endRound_again⟩

theorem receive_rest (s : FireboltLoop η) (lib : JsonLibrary) (drmSession : Bytes)
    (allocated : Bool) :
    (s.receive lib drmSession allocated).1.update = s.update ∧
      (s.receive lib drmSession allocated).1.sessionId = s.sessionId ∧
      (s.receive lib drmSession allocated).1.retryCount = s.retryCount := by
  unfold receive
  split
  · exact ⟨rfl, rfl, rfl⟩
  · split
    · exact ⟨rfl, rfl, rfl⟩
    · dsimp only
      split <;> exact ⟨rfl, rfl, rfl⟩

/-- No round assigns `update` or `sessionId`, and the loop goes on only behind an attempt that is
counted. -/
theorem round_rest (s : FireboltLoop η) (lib : JsonLibrary) (reply : FireboltReply) :
    (s.round lib reply).update = s.update ∧ (s.round lib reply).sessionId = s.sessionId ∧
      ((s.round lib reply).outcome = .looping →
        (s.round lib reply).retryCount = s.retryCount + 1 ∧
          s.retryCount + 1 < MAX_LICENSE_REQUEST_ATTEMPTS) := by
  unfold round
  split
  · split
    · exact ⟨rfl, rfl, nofun⟩
    · exact s.conclude_rest lib _ _
    · rename_i drmSession _
      have hrest := s.receive_rest lib drmSession reply.allocated
      split
      · rename_i t e heq
        rw [heq] at hrest
        exact ⟨hrest.1, hrest.2.1, nofun⟩
      · rename_i t ret heq
        rw [heq] at hrest
        obtain ⟨hupdate, hid, hcount⟩ := hrest
        obtain ⟨hupdate', hid', hagain⟩ := t.conclude_rest lib drmSession ret
        rw [hcount] at hagain
        exact ⟨hupdate'.trans hupdate, hid'.trans hid, hagain⟩
  · exact ⟨rfl, rfl, nofun⟩

/-! ## The caller's handle -/

/-- The caller's handle is invalid or stands for the variable `sessionId`. -/
def HasVariable (s : FireboltLoop η) : Prop :=
  (s.world.sessions.mpSessionManager .session = none ∧ s.update = false) ∨
    s.world.sessions.sessionID .session = some s.sessionId

omit [DecidableEq η] in
theorem start_hasVariable {sessions : State (Handle η)} (h : Ready sessions) (hash : Bytes → Nat)
    (r : LicenseRequest) (uninitialised : Int) :
    (start sessions hash r uninitialised).HasVariable := by
  change (sessions.mpSessionManager .session = none ∧
    sessions.isSessionValid .session = false) ∨ sessions.sessionID .session =
      some (if sessions.isSessionValid .session then (sessions.sessionID .session).getD (-1)
        else uninitialised)
  cases hp : sessions.mpSessionManager .session with
  | none =>
      refine .inl ⟨rfl, ?_⟩
      rw [State.isSessionValid, hp]
      rfl
  | some n =>
      obtain ⟨id, hid⟩ : ∃ id, sessions.sessionID .session = some id := by
        rw [← Option.ne_none_iff_exists', Ne, h.sessionID_none, hp]
        exact Option.some_ne_none n
      have hvalid : sessions.isSessionValid .session = true := by
        rw [State.isSessionValid, hp]
        rfl
      rw [if_pos hvalid, hid]
      exact .inr rfl

/-- An invalid handle is made valid for the variable `sessionId` when that is positive. -/
theorem parsed_session {s t : FireboltLoop η} (hs : Ready s.world.sessions)
    (hworld : t.world = s.world.keepSession (some (s.sessionId, s.inputSummaryHash)))
    (hnone : s.world.sessions.mpSessionManager .session = none) :
    (0 < s.sessionId → t.world.sessions.sessionID .session = some s.sessionId) ∧
      (¬ 0 < s.sessionId → t.world.sessions.mpSessionManager .session = none) := by
  have hend := keepSession_end hs (some (s.sessionId, s.inputSummaryHash))
  rw [hworld]
  refine ⟨fun hpos => hend.given _ _ rfl hpos hnone, fun hpos => (hend.still ?_).trans hnone⟩
  rintro id hash heq
  cases heq
  exact hpos

/-- What a round does to the handles. -/
theorem round_kept {lib : JsonLibrary} {s t : FireboltLoop η} {reply : FireboltReply}
    (h : RoundCase lib s reply t) (hs : Ready s.world.sessions) :
    Kept s.world.sessions t.world.sessions ∧
      (s.world.sessions.mpSessionManager .session = none →
        t.world.sessions.mpSessionManager .session = none ∨
          t.world.sessions.sessionID .session = some s.sessionId) := by
  have hsame : t.world = s.world → Kept s.world.sessions t.world.sessions ∧
      (s.world.sessions.mpSessionManager .session = none →
        t.world.sessions.mpSessionManager .session = none ∨
          t.world.sessions.sessionID .session = some s.sessionId) := by
    intro hworld
    rw [hworld]
    exact ⟨⟨hs, fun _ _ hid => hid, fun _ hn => hn⟩, fun hnone => .inl hnone⟩
  cases h with
  | silent _ hworld _ => exact hsame hworld
  | unread _ hworld _ => exact hsame hworld
  | unparsed _ _ _ hworld _ =>
      have hend := keepSession_end hs none
      rw [hworld]
      exact ⟨hend.kept, fun hnone => .inl ((hend.still nofun).trans hnone)⟩
  | parsed _ _ _ _ _ hworld _ =>
      refine ⟨?_, fun hnone => ?_⟩
      · rw [hworld]
        exact (keepSession_end hs _).kept
      · obtain ⟨hgiven, hstill⟩ := parsed_session hs hworld hnone
        by_cases hpos : 0 < s.sessionId
        · exact .inr (hgiven hpos)
        · exact .inl (hstill hpos)

theorem round_hasVariable {s : FireboltLoop η} (hs : Ready s.world.sessions) (h : s.HasVariable)
    (lib : JsonLibrary) (reply : FireboltReply) : (s.round lib reply).HasVariable := by
  obtain ⟨hupdate, hvariable, -⟩ := s.round_rest lib reply
  obtain ⟨hkept, hmade⟩ := round_kept (s.round_case lib reply) hs
  unfold HasVariable
  rw [hupdate, hvariable]
  obtain ⟨hnone, hopen⟩ | hid := h
  · exact (hmade hnone).imp (fun hstill => ⟨hstill, hopen⟩) id
  · exact .inr (hkept.sessionID hid)

theorem others_hasVariable {s : FireboltLoop η} (hs : Ready s.world.sessions) (h : s.HasVariable)
    {a : Act (Handle η)} {world : World η} (hworld : s.world.others a = some world) :
    ({ s with world } : FireboltLoop η).HasVariable := by
  obtain ⟨hkept, -, hpointer⟩ := World.others_kept hs hworld
  exact h.imp (fun hnone => ⟨hpointer.trans hnone.1, hnone.2⟩) hkept.sessionID

end FireboltLoop
end PlayerInterface.SecManager
