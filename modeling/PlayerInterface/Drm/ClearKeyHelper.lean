import PlayerInterface.Drm.ClearKeySession

/-!
# The ClearKey helper and the session's key id

Helper and session take the key id from the same sixteen cells of the init data, the
helper as bytes and the session as a string. Neither looks at the length.
-/

namespace PlayerInterface.Drm

open PlayerInterface.Core PlayerInterface.BaseConversion PlayerInterface.Json

def CLEARKEY_DASH_KEY_ID_OFFSET : Nat := 32
def CLEARKEY_DASH_KEY_ID_LEN : Nat := 16
def CLEARKEY_KEY_ID : Bytes := ascii "1"

inductive MediaFormat where
  | eMEDIAFORMAT_HLS
  | eMEDIAFORMAT_DASH
  | eMEDIAFORMAT_PROGRESSIVE
  | eMEDIAFORMAT_HLS_MP4
  | eMEDIAFORMAT_OTA
  | eMEDIAFORMAT_HDMI
  | eMEDIAFORMAT_COMPOSITE
  | eMEDIAFORMAT_SMOOTHSTREAMINGMEDIA
  | eMEDIAFORMAT_RMF
  | eMEDIAFORMAT_UNKNOWN
deriving DecidableEq, Repr

structure ClearKeyHelper where
  mediaFormat : MediaFormat
  mInitData : Bytes
  mKeyID : Bytes

/-- Pointer arithmetic on the init data. -/
def seek (p : Nat) : Reader Unit := ⟨fun _ _ => (), fun _ _ => p, fun _ _ => []⟩

@[simp] theorem next_seek (p : Nat) (m : Mem) (q : Nat) : (seek p).next m q = p := rfl

@[simp] theorem within_seek (n p : Nat) (m : Mem) (q : Nat) : (seek p).Within n m q ↔ True :=
  ⟨fun _ => trivial, fun _ => nofun⟩

namespace ClearKeyHelper

/-- Always successful; the result is the helper it leaves. -/
def parsePssh (h : ClearKeyHelper) (initDataLen : Nat) : Reader ClearKeyHelper := do
  let mInitData ← Reader.readBytes initDataLen
  seek CLEARKEY_DASH_KEY_ID_OFFSET
  let mKeyID ← Reader.readBytes CLEARKEY_DASH_KEY_ID_LEN
  pure { h with mInitData, mKeyID }

def getKey (h : ClearKeyHelper) : Bytes :=
  if h.mediaFormat = .eMEDIAFORMAT_DASH then h.mKeyID else CLEARKEY_KEY_ID

end ClearKeyHelper

/-! ## A string for bytes -/

/-- Behind a zero byte there are zero bytes only. -/
def ZeroTail : Bytes → Prop
  | [] => True
  | b :: bs => (b = 0 → ∀ c ∈ bs, c = 0) ∧ ZeroTail bs

theorem zeroTail_of_zeros {bs : Bytes} (h : ∀ c ∈ bs, c = 0) : ZeroTail bs := by
  induction bs with
  | nil => trivial
  | cons b bs ih =>
      have htail : ∀ c ∈ bs, c = 0 := fun c hc => h c (List.mem_cons_of_mem b hc)
      exact ⟨fun _ => htail, ih htail⟩

/-- A string copy is a copy of the bytes exactly when nothing follows their first zero. -/
theorem strncpyBytes_eq_slice_iff (m : Mem) (p count : Nat) :
    strncpyBytes m p count = m.slice p count ↔ ZeroTail (m.slice p count) := by
  induction count generalizing p with
  | zero => exact iff_of_true rfl trivial
  | succ count ih =>
      rw [strncpyBytes, Mem.slice, ZeroTail]
      by_cases hzero : m p = 0
      · rw [if_pos hzero, imp_iff_right hzero, List.replicate_succ, hzero, List.cons.injEq,
          and_iff_right rfl, eq_comm, List.eq_replicate_iff, Mem.slice_length,
          and_iff_right rfl]
        exact (and_iff_left_of_imp zeroTail_of_zeros).symm
      · rw [if_neg hzero, List.cons.injEq, and_iff_right rfl, ih (p + 1)]
        exact (and_iff_right fun h => absurd h hzero).symm

/-! ## Helper and session on the same init data -/

/-- The bytes at the position of the key id. -/
def keyIdBytes (initData : Bytes) : Bytes := (initData.drop 32).take 16

/-- A helper for DASH in any state. -/
def dashHelper (mInitData mKeyID : Bytes) : ClearKeyHelper where
  mediaFormat := .eMEDIAFORMAT_DASH
  mInitData := mInitData
  mKeyID := mKeyID

/-- The key id of the helper behind `parsePssh`. -/
def parsedKey (h : ClearKeyHelper) (initData : Bytes) (beyond : Mem) : Bytes :=
  ((h.parsePssh initData.length).val (Mem.ofBytes initData beyond) 0).getKey

/-- The session behind `generateDRMSession`. -/
def boundSession (s : ClearKeySession) (initData : Bytes) (beyond : Mem) : ClearKeySession :=
  s.generateDRMSession (some (Mem.ofBytes initData beyond)) initData.length

/-- Helper and session, each with its own copy of the init data, have one key id, ask for it
and accept it alone, and have read nothing behind the init data. -/
structure AgreeOnKey (h : ClearKeyHelper) (s : ClearKeySession) (initData : Bytes)
    (beyond beyond' : Mem) : Prop where
  keyId : (boundSession s initData beyond').m_keyId = some (parsedKey h initData beyond)
  requested : ((boundSession s initData beyond').generateKeyRequest true).1 =
    some (ClearKeySession.licenseRequest (base64_URL_Encode (parsedKey h initData beyond)))
  matched : ∀ resKeyId, (boundSession s initData beyond').matchesKeyId resKeyId = true ↔
    resKeyId = some (parsedKey h initData beyond)
  helperReads : (h.parsePssh initData.length).Within initData.length (Mem.ofBytes initData beyond) 0
  sessionReads : extractKeyIdFromPssh.Within initData.length (Mem.ofBytes initData beyond') 0

theorem helperReads_iff (h : ClearKeyHelper) (m : Mem) (initDataLen : Nat) :
    (h.parsePssh initDataLen).Within initDataLen m 0 ↔ 48 ≤ initDataLen := by
  simp [ClearKeyHelper.parsePssh, CLEARKEY_DASH_KEY_ID_OFFSET, CLEARKEY_DASH_KEY_ID_LEN]

theorem sessionReads_of_length {n : Nat} (m : Mem) (h : 48 ≤ n) :
    extractKeyIdFromPssh.Within n m 0 := by
  have hcopy : (strncpy 16).Within n m 32 := by
    intro i hi
    have hrange := List.mem_range'_1.mp hi
    cases hscan : m.scanNul 32 16 with
    | none =>
        simp only [hscan] at hrange
        omega
    | some k =>
        simp only [hscan] at hrange
        have hk := Mem.scanNul_lt hscan
        omega
  simpa [extractKeyIdFromPssh] using hcopy

theorem parsedKey_dash (mInitData mKeyID : Bytes) {initData : Bytes}
    (hlen : 48 ≤ initData.length) (beyond : Mem) :
    parsedKey (dashHelper mInitData mKeyID) initData beyond = keyIdBytes initData :=
  Mem.slice_ofBytes hlen beyond

/-- The session holds the helper's key id exactly when it holds the bytes of the init data. -/
theorem keyIdOf_eq_iff {initData : Bytes} (hlen : 48 ≤ initData.length) (beyond : Mem) :
    keyIdOf (Mem.ofBytes initData beyond) = keyIdBytes initData ↔ ZeroTail (keyIdBytes initData) := by
  have hslice : (Mem.ofBytes initData beyond).slice 32 16 = keyIdBytes initData :=
    Mem.slice_ofBytes hlen beyond
  have hcopy := strncpyBytes_eq_slice_iff (Mem.ofBytes initData beyond) 32 16
  rw [hslice] at hcopy
  exact hcopy

theorem boundSession_eq (s : ClearKeySession) {initData : Bytes} (hlen : 48 ≤ initData.length)
    (beyond : Mem) :
    boundSession s initData beyond = s.setKeyId (keyIdOf (Mem.ofBytes initData beyond)) :=
  s.generateDRMSession_keyId _ (by omega)

/-- A session with a key id of sixteen bytes asks for it and accepts no other one. -/
theorem setKeyId_requests (s : ClearKeySession) {keyId : Bytes} (hlen : keyId.length = 16) :
    ((s.setKeyId keyId).generateKeyRequest true).1 =
      some (ClearKeySession.licenseRequest (base64_URL_Encode keyId)) ∧
    ∀ resKeyId, (s.setKeyId keyId).matchesKeyId resKeyId = true ↔ resKeyId = some keyId := by
  have hpositive : ¬ keyId.length = 0 := by omega
  refine ⟨?_, fun resKeyId => ?_⟩
  · simp [ClearKeySession.generateKeyRequest, ClearKeySession.setKeyId, hpositive]
  · rw [ClearKeySession.matchesKeyId, decide_eq_true_eq]
    cases resKeyId with
    | none => exact iff_of_false (fun h => hpositive h.1.symm) nofun
    | some resKeyId =>
        rw [Option.some.injEq]
        exact ⟨fun h => h.2, fun h => ⟨congrArg List.length h, h⟩⟩

/-- Helper and session agree exactly on init data that has the key id, with nothing but zeros
behind the first zero in it. -/
theorem agreeOnKey_iff (mInitData mKeyID : Bytes) (s : ClearKeySession) (initData : Bytes)
    (beyond beyond' : Mem) :
    AgreeOnKey (dashHelper mInitData mKeyID) s initData beyond beyond' ↔
      48 ≤ initData.length ∧ ZeroTail (keyIdBytes initData) := by
  constructor
  · intro h
    have hlen := (helperReads_iff _ _ _).mp h.helperReads
    have hkey := h.keyId
    rw [boundSession_eq s hlen, parsedKey_dash mInitData mKeyID hlen] at hkey
    exact ⟨hlen, (keyIdOf_eq_iff hlen beyond').mp (Option.some.inj hkey)⟩
  · rintro ⟨hlen, htail⟩
    have hkey := (keyIdOf_eq_iff hlen beyond').mpr htail
    have hsixteen : (keyIdBytes initData).length = 16 := hkey ▸ keyIdOf_length _
    have hrequests := setKeyId_requests s hsixteen
    rw [← hkey, ← boundSession_eq s hlen, hkey, ← parsedKey_dash mInitData mKeyID hlen beyond]
      at hrequests
    refine ⟨?_, hrequests.1, hrequests.2, (helperReads_iff _ _ _).mpr hlen,
      sessionReads_of_length _ hlen⟩
    rw [boundSession_eq s hlen, parsedKey_dash mInitData mKeyID hlen, hkey]
    rfl

/-- A PSSH box with one key id that starts with a zero byte. -/
def zeroFirstPssh : Bytes :=
  [0x00, 0x00, 0x00, 0x34, 0x70, 0x73, 0x73, 0x68, 0x01, 0x00, 0x00, 0x00, 0x10, 0x77, 0xef, 0xec,
    0xc0, 0xb2, 0x4d, 0x02, 0xac, 0xe3, 0x3c, 0x1e, 0x52, 0xe2, 0xfb, 0x4b, 0x00, 0x00, 0x00, 0x01,
    0x00, 0xed, 0xf0, 0x0d, 0xee, 0xde, 0xad, 0xbe, 0xef, 0xf0, 0xba, 0xad, 0xf0, 0x0d, 0xd0, 0x0d,
    0x00, 0x00, 0x00, 0x00]

/-- There the session holds sixteen zeros. -/
theorem zeroFirstPssh_disagrees :
    ¬ ∀ initData beyond beyond',
      AgreeOnKey (dashHelper [] []) (.new true) initData beyond beyond' := by
  intro hclaim
  have hkey := (hclaim zeroFirstPssh (fun _ => 0) (fun _ => 0)).keyId
  revert hkey
  decide

end PlayerInterface.Drm
