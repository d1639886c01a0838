import Mathlib.Logic.Embedding.Basic
import Mathlib.Logic.Encodable.Basic
import Mathlib.Logic.Equiv.List
import PlayerInterface.Core.Bytes
import PlayerInterface.Core.Regrouping
import PlayerInterface.SecManager.Sessions

/-!
# When the licensed session is used again

`AcquireLicense` leaves the license exchange out when the summary of the request has
the hash the session was licensed with. The summary is a text without separators, and
arguments with a length enter it as C strings.
-/

namespace PlayerInterface.SecManager

open PlayerInterface.Core

/-- The arguments of `AcquireLicense` that the summary is about. Those passed with a
length may hold zero bytes. -/
structure LicenseRequest where
  moneyTraceMetadata : CString
  contentMetadata : Bytes
  licenseRequest : Bytes
  keySystemId : CString
  mediaUsage : CString
  accessToken : Bytes
  isVideoMuted : Bool

/-- The flag is printed without `boolalpha`. -/
def printedFlag (flag : Bool) : Bytes := [if flag then 0x31 else 0x30]

/-- The text that is hashed. -/
def LicenseRequest.InputSummary (r : LicenseRequest) : Bytes :=
  r.moneyTraceMetadata.chars ++ printedFlag r.isVideoMuted ++ r.keySystemId.chars ++
    r.mediaUsage.chars ++ cText r.accessToken ++ cText r.contentMetadata ++
    cText r.licenseRequest

/-- `std::hash` is taken as injective: only the summary itself is in question here. -/
def getInputSummaryHash (hash : Bytes ↪ Nat) (r : LicenseRequest) : Nat := hash r.InputSummary

/-! ## `AcquireLicense` -/

/-- What the session handle shares. -/
abbrev ContentSecurityManagerSession := Option SessionManager

def ContentSecurityManagerSession.isSessionValid (session : ContentSecurityManagerSession) : Bool :=
  session.isSome

def ContentSecurityManagerSession.getSessionID (session : ContentSecurityManagerSession) : Int :=
  session.elim (-1) (·.mID)

def ContentSecurityManagerSession.getInputSummaryHash (session : ContentSecurityManagerSession) :
    Nat :=
  session.elim 0 (·.mInputSummaryHash)

/-- The operations of the back end, with what they answer. -/
structure BackEnd where
  SetDrmSessionState : Int → Bool → Bool
  AcquireLicenseOpenOrUpdate :
    LicenseRequest → ContentSecurityManagerSession → Bool × ContentSecurityManagerSession

structure Acquired where
  success : Bool
  session : ContentSecurityManagerSession
  /-- whether the license exchange took place -/
  openOrUpdate : Bool

def AcquireLicense (hash : Bytes ↪ Nat) (b : BackEnd) (r : LicenseRequest)
    (session : ContentSecurityManagerSession) : Acquired :=
  let inputSummaryHash := getInputSummaryHash hash r
  let success :=
    if !session.isSessionValid then false
    else if inputSummaryHash = session.getInputSummaryHash then
      b.SetDrmSessionState session.getSessionID true
    else false
  if !success then
    let acquired := b.AcquireLicenseOpenOrUpdate r session
    { success := acquired.1, session := acquired.2, openOrUpdate := true }
  else { success := success, session := session, openOrUpdate := false }

/-- The session as a request has left it that was given a license under this id. -/
def licensedSession (hash : Bytes ↪ Nat) (r : LicenseRequest) (sessionID : Int) :
    ContentSecurityManagerSession :=
  some { mID := sessionID, mInputSummaryHash := getInputSummaryHash hash r }

theorem AcquireLicense_openOrUpdate (hash : Bytes ↪ Nat) (b : BackEnd) (x y : LicenseRequest)
    (sessionID : Int) :
    (AcquireLicense hash b y (licensedSession hash x sessionID)).openOrUpdate = false ↔
      y.InputSummary = x.InputSummary ∧ b.SetDrmSessionState sessionID true = true := by
  have hhash : getInputSummaryHash hash y = getInputSummaryHash hash x ↔
      y.InputSummary = x.InputSummary := hash.injective.eq_iff
  simp only [AcquireLicense, licensedSession, ContentSecurityManagerSession.isSessionValid,
    ContentSecurityManagerSession.getInputSummaryHash, ContentSecurityManagerSession.getSessionID,
    Option.isSome_some, Option.elim_some, Bool.not_true, Bool.false_eq_true, if_false, hhash]
  by_cases hsame : y.InputSummary = x.InputSummary
  · cases b.SetDrmSessionState sessionID true <;> simp [hsame]
  · simp [hsame]

/-! ## Which requests share a summary -/

/-- The texts that enter the summary, one for each argument. -/
def LicenseRequest.texts (r : LicenseRequest) : List Bytes :=
  [r.moneyTraceMetadata.chars, printedFlag r.isVideoMuted, r.keySystemId.chars,
    r.mediaUsage.chars, cText r.accessToken, cText r.contentMetadata,
    cText r.licenseRequest]

theorem LicenseRequest.flatten_texts (r : LicenseRequest) : r.texts.flatten = r.InputSummary := by
  simp only [texts, InputSummary, List.flatten_cons, List.flatten_nil, List.append_nil,
    List.append_assoc]

/-- Two requests have one summary when characters have crossed between their arguments. -/
theorem InputSummary_eq_iff (x y : LicenseRequest) :
    y.InputSummary = x.InputSummary ↔ Regroups x.texts y.texts := by
  rw [regroups_iff_flatten (show x.texts.length = y.texts.length from rfl), x.flatten_texts,
    y.flatten_texts, eq_comm]

/-- The license exchange is left out for the licensed request only, exactly when no other
request regroups its texts. -/
theorem AcquireLicense_reuse_iff (hash : Bytes ↪ Nat) (x y : LicenseRequest) (sessionID : Int) :
    (∀ b : BackEnd,
        (AcquireLicense hash b y (licensedSession hash x sessionID)).openOrUpdate = false → x = y) ↔
      x = y ∨ ¬ Regroups x.texts y.texts := by
  simp only [AcquireLicense_openOrUpdate, InputSummary_eq_iff]
  constructor
  · intro hreuse
    by_cases htexts : Regroups x.texts y.texts
    · let b : BackEnd :=
        { SetDrmSessionState := fun _ _ => true
          AcquireLicenseOpenOrUpdate := fun _ session => (false, session) }
      exact .inl (hreuse b ⟨htexts, rfl⟩)
    · exact .inr htexts
  · rintro (heq | htexts) b ⟨hsame, -⟩
    · exact heq
    · exact absurd hsame htexts

/-! ## A token that ends where the metadata begins -/

/-- An injective stand-in for the hash. -/
def textHash : Bytes ↪ Nat where
  toFun bs := Encodable.encode (bs.map UInt8.toNat)
  inj' := Encodable.encode_injective.comp (List.map_injective_iff.mpr fun _ _ => UInt8.toNat_inj.mp)

/-- A request that differs from others in its token and its metadata alone. -/
def tokenRequest (accessToken contentMetadata : Bytes) : LicenseRequest where
  moneyTraceMetadata := ⟨[], List.not_mem_nil⟩
  contentMetadata := contentMetadata
  licenseRequest := [0x72]
  keySystemId := ⟨[], List.not_mem_nil⟩
  mediaUsage := ⟨[], List.not_mem_nil⟩
  accessToken := accessToken
  isVideoMuted := false

/-- The token `ab` with the metadata `c` is taken for the token `a` with the metadata `bc`. -/
theorem AcquireLicense_mistakes_token :
    ¬ ∀ (hash : Bytes ↪ Nat) (x y : LicenseRequest) (sessionID : Int) (b : BackEnd),
      (AcquireLicense hash b y (licensedSession hash x sessionID)).openOrUpdate = false → x = y := by
  intro hclaim
  let b : BackEnd :=
    { SetDrmSessionState := fun _ _ => true
      AcquireLicenseOpenOrUpdate := fun _ session => (false, session) }
  have heq := hclaim textHash (tokenRequest [0x61, 0x62] [0x63]) (tokenRequest [0x61] [0x62, 0x63])
    1 b ((AcquireLicense_openOrUpdate textHash b _ _ 1).mpr ⟨by decide, rfl⟩)
  have htoken := congrArg LicenseRequest.accessToken heq
  revert htoken
  decide

end PlayerInterface.SecManager
