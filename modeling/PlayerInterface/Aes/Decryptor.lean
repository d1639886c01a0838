import PlayerInterface.Core.Cipher
import PlayerInterface.Core.Transition

/-!
# The AES-128 decryptor

`AesDec` keeps the key parameters of the last `SetDecryptInfo`, the key that the
acquisition thread fetched, and a state that tells whether the two belong
together. Everything here runs under `mMutex`, but for the resolution of the key
URL and the write of `m_ptr`.
-/

namespace PlayerInterface.Aes

/-! ## Resolution of the key URL -/

/-- What follows `http://` and the like. -/
def ParseUriProtocol : List Char → Option (List Char)
  | [] => none
  | ch :: uri =>
      if ch = ':' then
        match uri with
        | '/' :: '/' :: rest => some rest
        | _ => none
      else if ch.isAlphanum || ch = '.' || ch = '-' || ch = '+' then ParseUriProtocol uri
      else none

/-- `c_str()`: what a scan up to the first zero sees. -/
def cStr (s : List Char) : List Char :=
  s.takeWhile fun c => c != '\x00'

/-- `none` when the base has no protocol: the scan then starts at a null pointer. -/
def ResolveURL (dst base uri : List Char) (bPropagateUriParams : Bool) : Option (List Char) :=
  if (ParseUriProtocol uri).isSome then some uri
  else if base = [] then some dst
  else
    match ParseUriProtocol (cStr base) with
    | none => none
    | some authority =>
        let path := authority.dropWhile fun c => c != '/' && c != '?'
        let params := path.dropWhile fun c => c != '?'
        -- the directory of the base, unless the uri is absolute or empty
        let dir :=
          if uri.head? = some '/' || uri = [] then []
          else (((path.takeWhile fun c => c != '?').reverse.dropWhile
            fun c => c != '/').drop 1).reverse
        let dst := (base.take ((cStr base).length - path.length) ++ dir) ++
          (if uri.head? = some '/' then [] else ['/']) ++ uri
        if bPropagateUriParams && !uri.contains '?' && !params.isEmpty then
          some (dst ++ base.drop ((cStr base).length - params.length))
        else some dst

example : ResolveURL [] "http://h/a/m.m3u8?x=1".toList "k.key".toList true =
    some "http://h/a/k.key?x=1".toList := by decide

/-! ## State -/

structure DrmInfo where
  manifestURL : List Char := []
  keyURI : List Char := []
  iv : List UInt8 := List.replicate 16 0
  bPropagateUriParams : Bool := true
deriving DecidableEq, Repr

/-- `operator=` leaves `bPropagateUriParams` as it is. -/
def DrmInfo.assign (info other : DrmInfo) : DrmInfo :=
  { other with bPropagateUriParams := info.bPropagateUriParams }

/-- The URL `AcquireKey` asks the key of. -/
def DrmInfo.keyUrl (info : DrmInfo) : Option (List Char) :=
  ResolveURL [] info.manifestURL (cStr info.keyURI) info.bPropagateUriParams

inductive DRMState where
  | eDRM_INITIALIZED
  | eDRM_ACQUIRING_KEY
  | eDRM_KEY_ACQUIRED
  | eDRM_KEY_FAILED
  | eDRM_KEY_FLUSH
deriving DecidableEq, Repr

inductive DrmReturn where
  | eDRM_SUCCESS
  | eDRM_ERROR
  | eDRM_KEY_ACQUISITION_TIMEOUT
deriving DecidableEq, Repr

/-- `m_ptr` is known by the URL its key was fetched for. -/
structure AesDec where
  mDrmInfo : DrmInfo := {}
  m_ptr : Option (List Char) := none
  mDrmState : DRMState := .eDRM_INITIALIZED
  mPrevDrmState : DRMState := .eDRM_INITIALIZED
  mDrmUrl : List Char := []
  licenseAcquisitionThreadStarted : Bool := false
deriving DecidableEq, Repr

namespace AesDec

/-! ## Sections under the mutex -/

/-- The test of `SetDecryptInfo` for a key that need not be fetched again. -/
def sameUrl (d : AesDec) (drmInfo : DrmInfo) : Bool :=
  d.mDrmUrl != [] && d.mDrmState == .eDRM_KEY_ACQUIRED && drmInfo.keyURI == d.mDrmUrl

def storeInfo (d : AesDec) (drmInfo : DrmInfo) : AesDec :=
  { d with mDrmInfo := d.mDrmInfo.assign drmInfo }

/-- What `SetDecryptInfo` writes before it joins the last key thread. -/
def beginAcquire (d : AesDec) (drmInfo : DrmInfo) : AesDec :=
  { d.storeInfo drmInfo with
    mDrmUrl := drmInfo.keyURI
    mDrmState := .eDRM_ACQUIRING_KEY
    mPrevDrmState := .eDRM_INITIALIZED }

def threadJoined (d : AesDec) : AesDec :=
  { d with licenseAcquisitionThreadStarted := false }

/-- The end of `SetDecryptInfo`, when the thread was created and when not. -/
def threadCreated (d : AesDec) (created : Bool) : AesDec :=
  if created then { d with licenseAcquisitionThreadStarted := true }
  else { d with mDrmState := .eDRM_KEY_FAILED, licenseAcquisitionThreadStarted := false }

/-- `SignalKeyAcquired` and `SignalDrmError`. -/
def signal (d : AesDec) (keyAcquisitionStatus : Bool) : AesDec :=
  { d with mDrmState := if keyAcquisitionStatus then .eDRM_KEY_ACQUIRED else .eDRM_KEY_FAILED }

/-- The test of `Release` before it waits. -/
def releaseWaits (d : AesDec) : Bool :=
  (d.mDrmState == .eDRM_ACQUIRING_KEY || d.mPrevDrmState == .eDRM_ACQUIRING_KEY) &&
    d.mDrmState != .eDRM_KEY_FAILED

def CancelKeyWait (d : AesDec) : AesDec :=
  { d with
    mPrevDrmState := if d.mDrmState = .eDRM_KEY_FLUSH then d.mPrevDrmState else d.mDrmState
    mDrmState := .eDRM_KEY_FLUSH }

def RestoreKeyState (d : AesDec) : AesDec :=
  if d.mDrmState = .eDRM_KEY_FLUSH then { d with mDrmState := d.mPrevDrmState } else d

/-- The key and the initialisation vector `Decrypt` hands to the cipher, when it
enters the branch of an acquired key. -/
def decryptWith (d : AesDec) : Option (Option (List Char) × List UInt8) :=
  if d.mDrmState = .eDRM_KEY_ACQUIRED then some (d.m_ptr, d.mDrmInfo.iv) else none

/-- `Decrypt` behind its wait; `evpOk` when all cipher calls succeed. -/
def Decrypt (d : AesDec) (err : DrmReturn) (evpOk : Bool) : DrmReturn :=
  match d.decryptWith with
  | some _ => if evpOk then .eDRM_SUCCESS else err
  | none => err

/-- What `Decrypt` returns and what it leaves in the payload. `allocated` is false when there is
no memory for the scratch buffer, and a null context is undefined. -/
def decryptPayload (d : AesDec) (evp : Core.Evp (Option (List Char))) (ctx allocated : Bool)
    (err : DrmReturn) (encryptedData : Core.Bytes) : Option (DrmReturn × Core.Bytes) :=
  match d.decryptWith with
  | some (m_ptr, iv) =>
      if allocated then
        if ctx then
          let run := evp.decrypt m_ptr iv encryptedData (Core.toInt32 encryptedData.length)
          -- copied back after success and failure alike
          some (if run.1 then .eDRM_SUCCESS else err, run.2)
        else none
      else some (err, encryptedData)
  | none => some (err, encryptedData)

/-- The return value of a call that has its memory. -/
theorem decryptPayload_err (d : AesDec) (evp : Core.Evp (Option (List Char))) (err : DrmReturn)
    (encryptedData : Core.Bytes) : ∃ evpOk, (d.decryptPayload evp true true err encryptedData).map
      Prod.fst = some (d.Decrypt err evpOk) := by
  unfold decryptPayload Decrypt
  cases d.decryptWith with
  | none => exact ⟨false, rfl⟩
  | some keys =>
      exact ⟨(evp.decrypt keys.1 keys.2 encryptedData (Core.toInt32 encryptedData.length)).1, rfl⟩

end AesDec

end PlayerInterface.Aes
