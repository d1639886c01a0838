import PlayerInterface.BaseConversion.Base64
import PlayerInterface.SecManager.InputSummary
import PlayerInterface.SecManager.KeepSession

/-!
# License calls over Thunder

`SecManagerThunder::AcquireLicenseOpenOrUpdate` under `mSecMutex`. Every response with a
session id makes a handle. While the service answers, other threads use their handles; a
response is evaluated in one step.
-/

namespace PlayerInterface.SecManager

open PlayerInterface.Core PlayerInterface.BaseConversion

def CONTENT_SECURITY_MANAGER_DRM_FAILURE : Int := 200
def CONTENT_SECURITY_MANAGER_WM_FAILURE : Int := 300
def CONTENT_SECURITY_MANAGER_DRM_GEN_FAILURE : Int := 1
def CONTENT_SECURITY_MANAGER_SERVICE_TIMEOUT : Int := 3
def CONTENT_SECURITY_MANAGER_SERVICE_CON_FAILURE : Int := 4
def CONTENT_SECURITY_MANAGER_SERVICE_BUSY : Int := 5
def MAX_LICENSE_REQUEST_ATTEMPTS : Nat := 2

/-! ## The end of a round -/

/-- The result codes; `businessStatus` is written only when a response has one. -/
structure ResultCodes where
  statusCode : Int := CONTENT_SECURITY_MANAGER_DRM_FAILURE
  reasonCode : Int := CONTENT_SECURITY_MANAGER_DRM_GEN_FAILURE
  businessStatus : Option Int := none
deriving DecidableEq, Repr

/-- A result context: each member may be missing. -/
structure ResultContext where
  class_ : Option Int
  reason : Option Int
  businessStatus : Option Int
deriving DecidableEq, Repr

def ResultContext.map (f : Int → Int) (context : ResultContext) : ResultContext where
  class_ := context.class_.map f
  reason := context.reason.map f
  businessStatus := context.businessStatus.map f

/-- The `int32_t` a wider number is stored as. -/
def toInt32 (n : Int) : Int := n.bmod (2 ^ 32)

def ResultCodes.update (c : ResultCodes) (context : ResultContext) : ResultCodes where
  statusCode := context.class_.getD c.statusCode
  reasonCode := context.reason.getD c.reasonCode
  businessStatus := context.businessStatus.or c.businessStatus

/-- The failures for which the request is made again. -/
def ResultCodes.retryable (c : ResultCodes) : Bool :=
  (c.statusCode = CONTENT_SECURITY_MANAGER_DRM_FAILURE ||
    c.statusCode = CONTENT_SECURITY_MANAGER_WM_FAILURE) &&
  (c.reasonCode = CONTENT_SECURITY_MANAGER_SERVICE_TIMEOUT ||
    c.reasonCode = CONTENT_SECURITY_MANAGER_SERVICE_CON_FAILURE ||
    c.reasonCode = CONTENT_SECURITY_MANAGER_SERVICE_BUSY)

inductive StdException where
  | invalid_argument
  | out_of_range
  | PlayerJsonParseException
deriving DecidableEq, Repr

inductive Outcome where
  | looping
  | returned (ret : Bool)
  | threw (e : StdException)
deriving DecidableEq, Repr

/-- The last statements of the loop and its condition: the retry counter and whether the loop
goes on. -/
def endRound (ret : Bool) (codes : ResultCodes) (retryCount : Nat) : Nat × Outcome :=
  if ret then (retryCount, .returned true)
  else if codes.retryable && decide (retryCount < MAX_LICENSE_REQUEST_ATTEMPTS) then
    (retryCount + 1,
      if retryCount + 1 < MAX_LICENSE_REQUEST_ATTEMPTS then .looping else .returned false)
  else (retryCount, .returned false)

theorem endRound_false (codes : ResultCodes) (retryCount : Nat) :
    (endRound false codes retryCount).2 = .looping ∨
      (endRound false codes retryCount).2 = .returned false := by
  unfold endRound
  rw [if_neg Bool.false_ne_true]
  split
  · dsimp only
    split
    · exact .inl rfl
    · exact .inr rfl
  · exact .inr rfl

theorem endRound_again {ret : Bool} {codes : ResultCodes} {retryCount : Nat}
    (h : (endRound ret codes retryCount).2 = .looping) :
    (endRound ret codes retryCount).1 = retryCount + 1 ∧
      retryCount + 1 < MAX_LICENSE_REQUEST_ATTEMPTS := by
  unfold endRound at h ⊢
  split at h
  · cases h
  · rename_i hret
    rw [if_neg hret]
    split at h
    · rename_i hretry
      rw [if_pos hretry]
      refine ⟨rfl, not_le.mp fun hle => ?_⟩
      rw [if_neg (not_lt.mpr hle)] at h
      cases h
    · cases h

/-- The non-empty bytes of a non-empty base64 text. -/
def decodeLicense (license : Bytes) : Option Bytes :=
  if license = [] then none
  else (base64_Decode license).filter fun licenseDecoded => licenseDecoded ≠ []

/-- None of the texts is missing, so that the service is asked at all. -/
def LicenseRequest.complete (r : LicenseRequest) : Bool :=
  decide (r.accessToken ≠ []) && decide (r.contentMetadata ≠ []) && decide (r.licenseRequest ≠ [])

/-! ## Steps of a call and of other threads -/

variable {η ρ : Type} [DecidableEq η]

inductive CallAct (η ρ : Type) where
  | round (r : ρ)
  | other (a : Act (Handle η))

def CallAct.isRound : CallAct η ρ → Bool
  | .round _ => true
  | .other _ => false

/-- Not on a handle of the call or its caller. -/
def Act.byOther (a : Act (Handle η)) : Bool :=
  match a.target with
  | some (.other _) | none => true
  | some _ => false

/-- A step of another thread. -/
def World.others (w : World η) (a : Act (Handle η)) : Option (World η) :=
  if a.byOther then (sessionStep w.sessions a).map fun t => { w with sessions := t } else none

omit [DecidableEq η] in
theorem Act.byOther_target {a : Act (Handle η)} (h : a.byOther = true) :
    a.target ≠ some .session ∧ a.target ≠ some .newSession ∧ a.target ≠ some .temporary := by
  unfold Act.byOther at h
  cases htarget : a.target with
  | none => exact ⟨nofun, nofun, nofun⟩
  | some g =>
      rw [htarget] at h
      cases g with
      | other k => exact ⟨nofun, nofun, nofun⟩
      | session | newSession | temporary => cases h

/-- Other threads leave the caller's handle its session. -/
theorem World.others_kept {w v : World η} {a : Act (Handle η)} (h : Ready w.sessions)
    (hv : w.others a = some v) :
    Kept w.sessions v.sessions ∧ v.lost = w.lost ∧
      v.sessions.mpSessionManager .session = w.sessions.mpSessionManager .session := by
  obtain ⟨hother, hv⟩ := Option.ite_none_right_eq_some.mp hv
  obtain ⟨t, ht, hv⟩ := Option.map_eq_some_iff.mp hv
  cases hv
  obtain ⟨hsession, hnew, htemp⟩ := Act.byOther_target hother
  have hkeeps := h.registered.step ht
  have hpointer := (hkeeps.others .session hsession).1
  refine ⟨⟨⟨hkeeps.registered, ?_, ?_, ?_⟩, hkeeps.idOf, fun n hn => hpointer.trans hn⟩, rfl,
    hpointer⟩
  · exact (hkeeps.others .session hsession).2.mpr h.session
  · exact fun hmem => h.newSession ((hkeeps.others .newSession hnew).2.mp hmem)
  · exact fun hmem => h.temporary ((hkeeps.others .temporary htemp).2.mp hmem)

/-! ## The loop -/

/-- What `InvokeJSONRPC` answers and leaves in `response`, and whether the allocation of the
license buffer succeeds. -/
structure ThunderReply where
  rpcResult : Bool
  success : Bool
  sessionId : Int
  license : Bytes
  secManagerResultContext : Option ResultContext
  allocated : Bool

/-- `licenseResponse` is the pointer written, null when the allocation failed. -/
structure ThunderLoop (η : Type) where
  world : World η
  inputSummaryHash : Nat
  codes : ResultCodes := {}
  retryCount : Nat := 0
  licenseResponse : Option (Option Bytes) := none
  outcome : Outcome := .looping

namespace ThunderLoop

def start (sessions : State (Handle η)) (hash : Bytes → Nat) (r : LicenseRequest) :
    ThunderLoop η where
  world := { sessions }
  inputSummaryHash := hash r.InputSummary
  outcome := if r.complete then .looping else .returned false

/-- What `newSession` is made of. -/
def made (s : ThunderLoop η) (reply : ThunderReply) : Option (Int × Nat) :=
  if reply.success then some (reply.sessionId, s.inputSummaryHash) else none

def round (s : ThunderLoop η) (reply : ThunderReply) : ThunderLoop η :=
  let licenseDecoded :=
    if reply.rpcResult && reply.success then decodeLicense reply.license else none
  let codes := match reply.secManagerResultContext with
    | some context => s.codes.update (context.map toInt32)
    | none => s.codes
  let (retryCount, outcome) := endRound licenseDecoded.isSome codes s.retryCount
  { s with
    world := if reply.rpcResult then s.world.keepSession (s.made reply) else s.world
    codes, retryCount, outcome
    licenseResponse := match licenseDecoded with
      | some bytes => some (if reply.allocated then some bytes else none)
      | none => s.licenseResponse }

def step (s : ThunderLoop η) : CallAct η ThunderReply → Option (ThunderLoop η)
  | .round reply => if s.outcome = .looping then some (s.round reply) else none
  | .other a => (s.world.others a).map fun world => { s with world }

/-- A call that has begun, with other threads. -/
def system : System (ThunderLoop η) (CallAct η ThunderReply) where
  init s := ∃ sessions hash r, s = start sessions hash r
  step := step

/-- A response with a session id, while the caller's handle is valid, is for a session that some
handle stands for. -/
def NamesShared (s : ThunderLoop η) : CallAct η ThunderReply → Prop
  | .round reply => reply.rpcResult = true → reply.success = true → 0 < reply.sessionId →
      s.world.sessions.isSessionValid .session = true → s.world.sessions.Shares reply.sessionId
  | .other _ => True

omit [DecidableEq η] in
theorem discards_iff (s : ThunderLoop η) (reply : ThunderReply) :
    (reply.rpcResult = true ∧ Discards s.world.sessions (s.made reply)) ↔
      ¬ s.NamesShared (.round reply) := by
  have hvalid : s.world.sessions.isSessionValid .session = true ↔
      s.world.sessions.mpSessionManager .session ≠ none := Option.isSome_iff_ne_none
  simp only [NamesShared, hvalid, Classical.not_imp]
  constructor
  · rintro ⟨hrpc, id, hash, hmade, hpos, hsession, hnot⟩
    obtain ⟨hsuccess, heq⟩ := Option.ite_none_right_eq_some.mp hmade
    cases heq
    exact ⟨hrpc, hsuccess, hpos, hsession, hnot⟩
  · rintro ⟨hrpc, hsuccess, hpos, hsession, hnot⟩
    exact ⟨hrpc, _, _, if_pos hsuccess, hpos, hsession, hnot⟩

/-- A step lets go the last handle of a manager exactly when it names a session nobody shares. -/
theorem step_lost_iff {s t : ThunderLoop η} {a : CallAct η ThunderReply}
    (h : Ready s.world.sessions) (ht : system.step s a = some t) :
    Ready t.world.sessions ∧ (t.world.lost = true ↔ s.world.lost = true ∨ ¬ s.NamesShared a) := by
  cases a with
  | round reply =>
      obtain ⟨-, ht⟩ := Option.ite_none_right_eq_some.mp ht
      cases ht
      rw [← s.discards_iff reply]
      by_cases hrpc : reply.rpcResult = true
      · have hworld : (s.round reply).world = s.world.keepSession (s.made reply) := if_pos hrpc
        have hend := keepSession_end h (s.made reply)
        rw [hworld, and_iff_right hrpc]
        exact ⟨hend.kept.ready, hend.lost⟩
      · have hworld : (s.round reply).world = s.world := if_neg hrpc
        rw [hworld]
        exact ⟨h, (or_iff_left fun hdiscards => hrpc hdiscards.1).symm⟩
  | other a =>
      obtain ⟨world, hworld, ht⟩ := Option.map_eq_some_iff.mp ht
      cases ht
      obtain ⟨hkept, hsame, -⟩ := World.others_kept h hworld
      refine ⟨hkept.ready, ?_⟩
      dsimp only
      rw [hsame]
      exact (or_iff_left fun hnot => hnot trivial).symm

end ThunderLoop
end PlayerInterface.SecManager
