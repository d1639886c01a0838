import PlayerInterface.BaseConversion.Base64Url
import PlayerInterface.Core.Reader
import PlayerInterface.Drm.PlayReadyHelper
import PlayerInterface.Drm.SessionManager
import PlayerInterface.Json.CJson

/-!
# The ClearKey session

The session keeps a key id, the key of the license that answered it and a cipher
context. Pointers are `none` when null; what the JSON parser makes of a text is a
parameter.
-/

namespace PlayerInterface.Drm

open PlayerInterface.Core PlayerInterface.BaseConversion PlayerInterface.Json

def AES_CTR_KID_LEN : Nat := 16
def AES_CTR_KEY_LEN : Nat := 16

/-! ## The key id of the init data -/

/-- `strncpy`: everything behind the first zero byte is zero. -/
def strncpyBytes (m : Mem) (p : Nat) : Nat → Bytes
  | 0 => []
  | count + 1 =>
      if m p = 0 then List.replicate (count + 1) 0 else m p :: strncpyBytes m (p + 1) count

/-- Nothing behind the first zero byte is read. -/
def strncpy (count : Nat) : Reader Bytes where
  val m p := strncpyBytes m p count
  next _ p := p
  reads m p := List.range' p (match m.scanNul p count with
    | some i => i + 1
    | none => count)

def extractKeyIdFromPssh : Reader Bytes := do
  Reader.skip 32
  strncpy 16

/-- The key id that the init data gives. -/
def keyIdOf (initData : Mem) : Bytes := extractKeyIdFromPssh.val initData 0

/-! ## The license response -/

/-- The first entry of `keys`. -/
def keyEntry (licenseResponse : cJSON) : Option cJSON :=
  (licenseResponse.GetObjectItem (ascii "keys")).bind cJSON.child

def keyItem (licenseResponse : cJSON) (name : Bytes) : Option cJSON :=
  (keyEntry licenseResponse).bind (·.GetObjectItem name)

/-! ## The session -/

/-- `mOpensslCtx` tells whether the cipher context is there. -/
structure ClearKeySession where
  m_eKeyState : KeyState
  m_keyStr : Option Bytes
  m_keyLen : Nat
  m_keyId : Option Bytes
  m_keyIdLen : Nat
  mOpensslCtx : Bool

namespace ClearKeySession

/-- The constructor, with what `EVP_CIPHER_CTX_new` answers. -/
def new (allocated : Bool) : ClearKeySession where
  m_eKeyState := .KEY_INIT
  m_keyStr := none
  m_keyLen := 0
  m_keyId := none
  m_keyIdLen := 0
  mOpensslCtx := allocated

def setKeyId (s : ClearKeySession) (keyId : Bytes) : ClearKeySession :=
  { s with m_keyId := some keyId, m_keyIdLen := keyId.length }

def generateDRMSession (s : ClearKeySession) (f_pbInitData : Option Mem) (f_cbInitData : Nat) :
    ClearKeySession :=
  match f_pbInitData with
  | some initData =>
      if 0 < f_cbInitData then
        let keyId := keyIdOf initData
        if keyId.length ≠ AES_CTR_KID_LEN then { s with m_eKeyState := .KEY_ERROR }
        else s.setKeyId keyId
      else { s with m_eKeyState := .KEY_ERROR }
  | none => { s with m_eKeyState := .KEY_ERROR }

/-- The body of the request for one key id. -/
def licenseRequest (urlEncodedkeyId : Bytes) : cJSON :=
  .object [(ascii "kids", .array [.string urlEncodedkeyId]),
    (ascii "type", .string (ascii "temporary"))]

/-- `allocated` is false when an allocation on the way fails. -/
def generateKeyRequest (s : ClearKeySession) (allocated : Bool) :
    Option cJSON × ClearKeySession :=
  match s.m_keyId with
  | none => (none, s)
  | some keyId =>
      if s.m_keyIdLen = 0 then (none, s)
      else if allocated then
        (some (licenseRequest (base64_URL_Encode keyId)), { s with m_eKeyState := .KEY_PENDING })
      else (none, s)

/-- The `memcmp` behind the comparison of the lengths. -/
def matchesKeyId (s : ClearKeySession) (resKeyId : Option Bytes) : Bool :=
  (resKeyId.getD []).length = s.m_keyIdLen ∧ resKeyId.getD [] = s.m_keyId.getD []

def keyError (s : ClearKeySession) : ClearKeySession := { s with m_eKeyState := .KEY_ERROR }

/-- The strings of the key and of its id; the length of a null pointer is undefined. -/
def takeKey (s : ClearKeySession) (keyJsonStr keyIdStr : Option Bytes) :
    Option (Nat × ClearKeySession) :=
  match keyIdStr with
  | none => none
  | some keyIdStr =>
      if s.matchesKeyId (base64_URL_Decode keyIdStr) then
        match keyJsonStr with
        | none => none
        | some keyJsonStr =>
            let m_keyStr := base64_URL_Decode keyJsonStr
            let resKeyLen := (m_keyStr.getD []).length
            if resKeyLen = AES_CTR_KEY_LEN then
              some (1, { s with m_keyStr, m_keyLen := resKeyLen, m_eKeyState := .KEY_READY })
            else some (0, { s with m_keyStr := none, m_eKeyState := .KEY_ERROR })
      else some (0, s.keyError)

def processDRMKey (cJSON_Parse : Bytes → Option cJSON) (s : ClearKeySession) (key : Option Bytes) :
    Option (Nat × ClearKeySession) :=
  match key with
  | none => some (0, s)
  | some keyDataStr =>
      if s.m_eKeyState = .KEY_PENDING then
        match cJSON_Parse (cText keyDataStr) with
        | some licenseResponse =>
            -- a response without `keys` is dropped and the session keeps waiting
            if (licenseResponse.GetObjectItem (ascii "keys")).isSome then
              match keyItem licenseResponse (ascii "k"), keyItem licenseResponse (ascii "kid") with
              | some keyJsonObj, some keyIdJsonObj =>
                  s.takeKey keyJsonObj.GetStringValue keyIdJsonObj.GetStringValue
              | _, _ => some (0, s.keyError)
            else some (0, s)
        | none => some (0, s.keyError)
      else some (0, s)

/-- `evp` is what the cipher answers; the session itself is left as it is. -/
def decrypt (s : ClearKeySession) (f_cbIV : Nat) (evp : Bool) : Nat :=
  if s.m_eKeyState = .KEY_READY then
    if (f_cbIV = 8 ∨ f_cbIV = 16) ∧ evp then 0 else 1
  else 1

def clearDecryptContext (s : ClearKeySession) : ClearKeySession where
  m_eKeyState := .KEY_INIT
  m_keyStr := none
  m_keyLen := if s.m_keyStr.isSome then 0 else s.m_keyLen
  m_keyId := none
  m_keyIdLen := if s.m_keyId.isSome then 0 else s.m_keyIdLen
  mOpensslCtx := false

end ClearKeySession

/-! ## Lengths -/

@[simp] theorem strncpyBytes_length (m : Mem) (p count : Nat) :
    (strncpyBytes m p count).length = count := by
  induction count generalizing p with
  | zero => rfl
  | succ count ih =>
      rw [strncpyBytes]
      split
      · simp
      · simp [ih]

@[simp] theorem keyIdOf_length (initData : Mem) : (keyIdOf initData).length = 16 :=
  strncpyBytes_length initData 32 16

theorem ClearKeySession.generateDRMSession_keyId (s : ClearKeySession) (initData : Mem)
    {f_cbInitData : Nat} (h : 0 < f_cbInitData) :
    s.generateDRMSession (some initData) f_cbInitData = s.setKeyId (keyIdOf initData) := by
  have hlen : ¬ (keyIdOf initData).length ≠ AES_CTR_KID_LEN := by simp [AES_CTR_KID_LEN]
  exact (if_pos h).trans (if_neg hlen)

end PlayerInterface.Drm
