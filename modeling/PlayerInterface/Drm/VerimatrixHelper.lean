import PlayerInterface.Drm.ClearKeyHelper

/-!
# The Verimatrix helper

The key of a Verimatrix stream is a URL: that of the manifest for HLS, for DASH the one in the
`KeyUrl` element of the PSSH. The end tag is searched from the start of the text, not from the
start tag on.
-/

namespace PlayerInterface.Drm

open PlayerInterface.Core

/-! ## What a manifest says of the protection -/

def PLAYREADY_UUID : String := "9a04f079-9840-4286-ab92-e65be0885f95"
def WIDEVINE_UUID : String := "edef8ba9-79d6-4ace-a3c8-27dcd51d21ed"
def CLEARKEY_UUID : String := "1077efec-c0b2-4d02-ace3-3c1e52e2fb4b"
def VERIMATRIX_UUID : String := "9a27dd82-fde2-4725-8cbc-4234aa06ec09"

inductive DrmMethod where
  | eMETHOD_NONE
  | eMETHOD_AES_128
deriving DecidableEq, Repr

structure DrmInfo where
  method : DrmMethod := .eMETHOD_NONE
  mediaFormat : MediaFormat := .eMEDIAFORMAT_HLS
  keyURI : String := ""
  keyFormat : String := ""
  systemUUID : String := ""
  bPropagateUriParams : Bool := true
  bDecryptClearSamplesRequired : Bool := true
deriving DecidableEq, Repr

/-! ## The helper -/

def KEYURL_TAG_START : Bytes := ascii "<KeyUrl><![CDATA["
def KEYURL_TAG_END : Bytes := ascii "]]></KeyUrl>"
def VERIMATRIX_PSSH_DATA_POSITION : Nat := 52

structure VerimatrixHelper where
  mDrmInfo : DrmInfo
  mInitData : Bytes := []
  mKeyID : Bytes := []

/-- `std::string(init)` of a zero-terminated copy. -/
def cString (bytes : Bytes) : Bytes := bytes.takeWhile (· ≠ 0)

namespace VerimatrixHelper

/-- The text between the tags. The count `ep - sp` is unsigned: with the end tag in front of the
start tag it takes all of the rest. -/
def keyfile (pssh : Bytes) : Option Bytes := do
  let sp ← find KEYURL_TAG_START pssh
  let ep ← find KEYURL_TAG_END pssh
  let sp := sp + KEYURL_TAG_START.length
  some (if sp ≤ ep then (pssh.drop sp).take (ep - sp) else pssh.drop sp)

def parsePssh (h : VerimatrixHelper) (initData : Bytes) : Bool × VerimatrixHelper :=
  let h := { h with mInitData := initData }
  if h.mDrmInfo.mediaFormat = .eMEDIAFORMAT_HLS then (true, h)
  else if initData.length < VERIMATRIX_PSSH_DATA_POSITION then (false, h)
  else
    match keyfile (cString (initData.drop VERIMATRIX_PSSH_DATA_POSITION)) with
    | none => (false, h)
    | some keyfile => (true, { h with mKeyID := keyfile })

/-- `none` where the pointer to the text is never set. -/
def createInitData (h : VerimatrixHelper) : Option Bytes :=
  match h.mDrmInfo.mediaFormat with
  | .eMEDIAFORMAT_HLS => some (ascii "\x7b\"contentType\" : \"HLS\"\x7d")
  | .eMEDIAFORMAT_DASH => some (ascii "\x7b\"contentType\" : \"DASH\"\x7d")
  | _ => none

def getKey (h : VerimatrixHelper) : Bytes :=
  match h.mDrmInfo.mediaFormat with
  | .eMEDIAFORMAT_HLS => ascii h.mDrmInfo.keyURI
  | .eMEDIAFORMAT_DASH => h.mKeyID
  | _ => []

/-- The data of the response behind the call. -/
def transformLicenseResponse (h : VerimatrixHelper) (licenseResponse : Bytes) : Bytes :=
  match h.mDrmInfo.mediaFormat with
  | .eMEDIAFORMAT_HLS => ascii h.mDrmInfo.keyURI
  | .eMEDIAFORMAT_DASH => h.mKeyID
  | _ => licenseResponse

end VerimatrixHelper

/-! ## A key URL in its element -/

/-- A text with the element of a key URL. No start tag stands before the one that is meant, and no
end tag in the URL. -/
structure KeyUrlText where
  front : Bytes
  url : Bytes
  back : Bytes
  nonzero : ∀ b ∈ front ++ KEYURL_TAG_START ++ (url ++ KEYURL_TAG_END ++ back), b ≠ 0
  start_first : FirstAt KEYURL_TAG_START front (url ++ KEYURL_TAG_END ++ back)
  end_first : FirstAt KEYURL_TAG_END url back

namespace KeyUrlText

def bytes (t : KeyUrlText) : Bytes :=
  t.front ++ KEYURL_TAG_START ++ (t.url ++ KEYURL_TAG_END ++ t.back)

/-- No end tag in front of the start tag. -/
def EndTagLate (t : KeyUrlText) : Prop :=
  ∀ i < t.front.length, ¬ KEYURL_TAG_END <+: t.bytes.drop i

theorem cString_bytes (t : KeyUrlText) : cString t.bytes = t.bytes := by
  rw [cString, List.takeWhile_eq_self_iff]
  intro b hb
  exact decide_eq_true (t.nonzero b hb)

/-- The end tag starts with a bracket, which the start tag does not hold in front of the URL. -/
theorem end_not_in_start (t : KeyUrlText) {i : Nat} (hle : t.front.length ≤ i)
    (hlt : i < t.front.length + KEYURL_TAG_START.length) :
    ¬ KEYURL_TAG_END <+: t.bytes.drop i := by
  intro hocc
  have hin : i - t.front.length < KEYURL_TAG_START.length := by omega
  have hdrop : t.bytes.drop i = KEYURL_TAG_START.drop (i - t.front.length) ++
      (t.url ++ KEYURL_TAG_END ++ t.back) := by
    rw [bytes, List.append_assoc, List.drop_append, List.drop_eq_nil_of_le hle, List.nil_append,
      List.drop_append_of_le_length (Nat.le_of_lt hin)]
  rw [hdrop, List.drop_eq_getElem_cons hin] at hocc
  have hhead := (List.cons_prefix_cons.mp hocc).1
  have hbracket : ∀ b ∈ KEYURL_TAG_START, b ≠ 93 := by decide +kernel
  exact hbracket _ (List.getElem_mem hin) hhead.symm

theorem find_start (t : KeyUrlText) :
    find KEYURL_TAG_START t.bytes = some t.front.length := find_of_firstAt t.start_first

theorem drop_start (t : KeyUrlText) :
    t.bytes.drop (t.front.length + KEYURL_TAG_START.length) =
      t.url ++ KEYURL_TAG_END ++ t.back := by
  rw [bytes, ← List.length_append, List.drop_left]

theorem find_end_late {t : KeyUrlText} (h : t.EndTagLate) :
    find KEYURL_TAG_END t.bytes =
      some (t.front.length + KEYURL_TAG_START.length + t.url.length) := by
  have hbytes : t.bytes = (t.front ++ KEYURL_TAG_START ++ t.url) ++ KEYURL_TAG_END ++ t.back := by
    simp only [bytes, List.append_assoc]
  have hfirst : FirstAt KEYURL_TAG_END (t.front ++ KEYURL_TAG_START ++ t.url) t.back := by
    intro i hi hocc
    rw [← hbytes] at hocc
    by_cases hfront : i < t.front.length
    · exact h i hfront hocc
    · by_cases hstart : i < t.front.length + KEYURL_TAG_START.length
      · exact t.end_not_in_start (Nat.le_of_not_lt hfront) hstart hocc
      · obtain ⟨k, rfl⟩ := Nat.exists_eq_add_of_le (Nat.le_of_not_lt hstart)
        rw [← List.drop_drop, t.drop_start] at hocc
        simp only [List.length_append] at hi
        exact t.end_first k (by omega) hocc
  rw [hbytes, find_of_firstAt hfirst, List.length_append, List.length_append]

theorem find_end_early {t : KeyUrlText} (h : ¬ t.EndTagLate) :
    ∃ ep < t.front.length, find KEYURL_TAG_END t.bytes = some ep := by
  unfold EndTagLate at h
  push Not at h
  obtain ⟨i, hi, hocc⟩ := h
  obtain ⟨ep, hep, hfind⟩ := find_le_of_prefix hocc
  exact ⟨ep, Nat.lt_of_le_of_lt hep hi, hfind⟩

theorem keyfile_bytes (t : KeyUrlText) [Decidable t.EndTagLate] :
    VerimatrixHelper.keyfile t.bytes =
      some (if t.EndTagLate then t.url else t.url ++ KEYURL_TAG_END ++ t.back) := by
  simp only [VerimatrixHelper.keyfile, find_start, Option.bind_eq_bind, Option.bind_some,
    drop_start]
  split
  case isTrue hlate =>
    simp only [find_end_late hlate, Option.bind_some, Nat.le_add_right, if_true,
      Nat.add_sub_cancel_left, List.append_assoc, List.take_left]
  case isFalse hearly =>
    obtain ⟨ep, hep, hfind⟩ := find_end_early hearly
    have hbefore : ¬ t.front.length + KEYURL_TAG_START.length ≤ ep := by omega
    simp only [hfind, Option.bind_some, if_neg hbefore]

end KeyUrlText

namespace VerimatrixHelper

/-- A PSSH of a DASH stream: what stands in front of the text is not looked at. -/
theorem parsePssh_bytes {h : VerimatrixHelper} (hdash : h.mDrmInfo.mediaFormat = .eMEDIAFORMAT_DASH)
    {header : Bytes} (hheader : header.length = VERIMATRIX_PSSH_DATA_POSITION) (t : KeyUrlText)
    [Decidable t.EndTagLate] :
    h.parsePssh (header ++ t.bytes) =
      (true, { h with
        mInitData := header ++ t.bytes
        mKeyID := if t.EndTagLate then t.url else t.url ++ KEYURL_TAG_END ++ t.back }) := by
  have hhls : ¬ h.mDrmInfo.mediaFormat = .eMEDIAFORMAT_HLS := by
    rw [hdash]
    decide
  have hlong : ¬ (header ++ t.bytes).length < VERIMATRIX_PSSH_DATA_POSITION := by
    rw [List.length_append]
    omega
  have hdrop : (header ++ t.bytes).drop VERIMATRIX_PSSH_DATA_POSITION = t.bytes := by
    rw [← hheader, List.drop_left]
  simp only [parsePssh, if_neg hhls, if_neg hlong, hdrop, t.cString_bytes, t.keyfile_bytes]

/-- The key and the answer to the CDM are the URL of the element exactly when no end tag stands in
front of the element. -/
theorem keyUrl_iff {h : VerimatrixHelper} (hdash : h.mDrmInfo.mediaFormat = .eMEDIAFORMAT_DASH)
    {header : Bytes} (hheader : header.length = VERIMATRIX_PSSH_DATA_POSITION) (t : KeyUrlText)
    (licenseResponse : Bytes) :
    ((h.parsePssh (header ++ t.bytes)).1 = true ∧
        (h.parsePssh (header ++ t.bytes)).2.getKey = t.url ∧
        (h.parsePssh (header ++ t.bytes)).2.transformLicenseResponse licenseResponse = t.url) ↔
      t.EndTagLate := by
  classical
  rw [parsePssh_bytes hdash hheader t]
  simp only [getKey, transformLicenseResponse, hdash, true_and, and_self]
  by_cases hlate : t.EndTagLate
  · rw [if_pos hlate]
    exact iff_of_true rfl hlate
  · rw [if_neg hlate]
    refine iff_of_false (fun heq => ?_) hlate
    have hlength := congrArg List.length heq
    have hend : KEYURL_TAG_END.length = 12 := rfl
    simp only [List.length_append, hend] at hlength
    omega

end VerimatrixHelper

/-- `<p/><KeyUrl><![CDATA[k]]></KeyUrl>`. -/
def sampleKeyUrl : KeyUrlText where
  front := ascii "<p/>"
  url := ascii "k"
  back := []
  nonzero := by decide +kernel
  start_first := by decide +kernel
  end_first := by decide +kernel

theorem sampleKeyUrl_read :
    let info : DrmInfo := { mediaFormat := .eMEDIAFORMAT_DASH, systemUUID := VERIMATRIX_UUID }
    let helper := (VerimatrixHelper.parsePssh ⟨info, [], []⟩
      (List.replicate 52 0 ++ sampleKeyUrl.bytes)).2
    helper.getKey = ascii "k" ∧ helper.transformLicenseResponse [] = ascii "k" := by
  have hlate : sampleKeyUrl.EndTagLate := by
    unfold KeyUrlText.EndTagLate
    decide
  exact ((VerimatrixHelper.keyUrl_iff rfl List.length_replicate sampleKeyUrl []).mpr hlate).2

end PlayerInterface.Drm
