import PlayerInterface.Drm.FieldLookup
import PlayerInterface.Drm.HelperFactory
import PlayerInterface.Drm.PlayReadyHeader
import PlayerInterface.Drm.WidevineKeys

/-!
# Content protection of HLS streams

From the attributes of a key tag to a helper that knows its keys: the key format selects the
helper, and the URI carries its PSSH in base64 behind the first comma.
-/

namespace PlayerInterface.Drm

open PlayerInterface.Core PlayerInterface.BaseConversion

/-! ## The pipeline -/

/-- An exception of the lookup, or undefined behaviour in the helper. -/
inductive ProtectionFailure where
  | lookup (failure : LookupFailure)
  | undefined
deriving DecidableEq, Repr

/-- As many letters as the prefix has are cut off when it stands anywhere in the text. -/
def stripUrn (systemId : List Char) : List Char :=
  if find "urn:uuid:".toList systemId ≠ none then systemId.drop 9 else systemId

def hlsDrmInfo (systemUUID : String) (bPropagateUriParams bDecryptClearSamplesRequired : Bool) :
    DrmInfo where
  mediaFormat := .eMEDIAFORMAT_HLS_MP4
  systemUUID := systemUUID
  bPropagateUriParams := bPropagateUriParams
  bDecryptClearSamplesRequired := bDecryptClearSamplesRequired

def getDrmHelper (engine : DrmHelperEngine) (attrName : List Char)
    (bPropagateUriParams bDecryptClearSamplesRequired : Bool) :
    Except LookupFailure (Option MadeHelper) := do
  match ← GetFieldValue attrName "KEYFORMAT".toList with
  | none => .ok none
  | some systemId =>
      .ok (engine.createHelper
        (hlsDrmInfo (String.ofList (stripUrn systemId)) bPropagateUriParams
          bDecryptClearSamplesRequired))

def MadeHelper.friendlyName : MadeHelper → String
  | WidevineDrmHelper _ _ => "Widevine"
  | PlayReadyHelper _ _ => "PlayReady"
  | VerimatrixHelper _ => "Verimatrix"
  | ClearKeyHelper _ _ => "Clearkey"

/-- The PSSH of a helper: a copy with zeros for what stands behind a zero byte, or what the C
string before it decodes to. -/
def psshData (helper : MadeHelper) (psshDataStr : List Char) : Bytes :=
  let psshData := cString (bytesOf psshDataStr)
  if helper.friendlyName = "Verimatrix" then
    psshData ++ List.replicate (psshDataStr.length - psshData.length) 0
  else (base64_Decode psshData).getD []

/-- `parsePssh` of each helper with data of a length that is cut to 32 bits, in memory. -/
def MadeHelper.parsePssh (uuid_unparse_lower : Bytes → Bytes) (beyond : Mem) (data : Bytes) :
    MadeHelper → Option (Bool × MadeHelper)
  | WidevineDrmHelper info helper =>
      (helper.parsePssh (Mem.ofBytes data beyond) (data.length % 2 ^ 32)).map fun (ok, helper) =>
        (ok, .WidevineDrmHelper info helper)
  | PlayReadyHelper info helper =>
      (helper.parsePssh uuid_unparse_lower (some ⟨data.take (data.length % 2 ^ 32),
          (List.length_take_le _ _).trans_lt (Nat.mod_lt _ (by decide))⟩)).map fun (ok, helper) =>
        (ok, .PlayReadyHelper info helper)
  | VerimatrixHelper helper =>
      let (ok, helper) := helper.parsePssh (data.take (data.length % 2 ^ 32))
      some (ok, .VerimatrixHelper helper)
  | ClearKeyHelper info helper =>
      some (true, .ClearKeyHelper info
        ((helper.parsePssh (data.length % 2 ^ 32)).val (Mem.ofBytes data beyond) 0))

/-- A helper that could not parse its PSSH is dropped. -/
def parsed : Option (Bool × MadeHelper) → Except ProtectionFailure (Option MadeHelper)
  | none => .error .undefined
  | some (false, _) => .ok none
  | some (true, helper) => .ok (some helper)

/-- The helper with its PSSH, when it could be parsed. -/
def withPssh (uuid_unparse_lower : Bytes → Bytes) (beyond : Mem) (helper : MadeHelper)
    (psshDataStr : List Char) : Except ProtectionFailure (Option MadeHelper) :=
  let data := psshData helper psshDataStr
  if data.length = 0 then .ok none
  else parsed (helper.parsePssh uuid_unparse_lower beyond data)

def ProcessContentProtection (uuid_unparse_lower : Bytes → Bytes) (engine : DrmHelperEngine)
    (beyond : Mem) (attrName : List Char) (propagateURIParam isSamplesRequired : Bool) :
    Except ProtectionFailure (Option MadeHelper) := do
  match ← (getDrmHelper engine attrName propagateURIParam isSamplesRequired).mapError .lookup with
  | none => .ok none
  | some drmHelper =>
      match ← (getPsshData attrName).mapError .lookup with
      | none => .ok none
      | some psshDataStr => withPssh uuid_unparse_lower beyond drmHelper psshDataStr

/-! ## The PSSH of a tag -/

theorem cString_eq_self {bytes : Bytes} (h : ∀ b ∈ bytes, b ≠ 0) : cString bytes = bytes := by
  rw [cString, List.takeWhile_eq_self_iff]
  exact fun b hb => decide_eq_true (h b hb)

theorem base64_nonzero (bytes : Bytes) : ∀ b ∈ base64_Encode bytes, b ≠ 0 := by
  apply forall_mem_base64_Encode
  · decide
  · decide

/-- What a helper that is no Verimatrix helper gets of a PSSH in base64 is the PSSH. -/
theorem psshData_base64 {helper : MadeHelper} (h : helper.factory ≠ .VerimatrixHelperFactory)
    (bytes : Bytes) : psshData helper (textOf (base64_Encode bytes)) = bytes := by
  have hname : helper.friendlyName ≠ "Verimatrix" := by
    cases helper with
    | VerimatrixHelper helper => exact absurd rfl h
    | WidevineDrmHelper info helper | PlayReadyHelper info helper | ClearKeyHelper info helper =>
        simp [MadeHelper.friendlyName]
  rw [psshData, if_neg hname, bytesOf_textOf, cString_eq_self (base64_nonzero bytes),
    base64_Decode_Encode, Option.getD_some]

theorem withPssh_base64 {helper : MadeHelper} (h : helper.factory ≠ .VerimatrixHelperFactory)
    {unparse : Bytes → Bytes} {beyond : Mem} {bytes : Bytes} (hpos : 0 < bytes.length) :
    withPssh unparse beyond helper (textOf (base64_Encode bytes)) =
      parsed (helper.parsePssh unparse beyond bytes) := by
  rw [withPssh, psshData_base64 h, if_neg (Nat.ne_of_gt hpos)]

/-! ## From the tag to the helper -/

theorem KEYFORMAT_ne_nil : "KEYFORMAT".toList ≠ [] := by decide

theorem KEYFORMAT_plain : ∀ c ∈ "KEYFORMAT".toList, c ≠ '=' ∧ c ≠ ',' ∧ c ≠ '"' := by simp

def keyFormat : AttributeName := ⟨"KEYFORMAT".toList, KEYFORMAT_ne_nil, KEYFORMAT_plain⟩

/-- A key tag: the format names a system by its UUID, and the URI carries a PSSH. Both are found
under their names. -/
structure KeyTag (attrs : List Attribute) (uuid : String) (pssh : Bytes) : Prop where
  format : attributeValue attrs keyFormat = some ("urn:uuid:".toList ++ uuid.toList)
  format_found : FindsValue attrs keyFormat
  data : ∃ mediaType : List Char, ',' ∉ mediaType ∧
    attributeValue attrs uri = some (mediaType ++ ',' :: textOf (base64_Encode pssh))
  data_found : FindsValue attrs uri

theorem stripUrn_urn (uuid : String) :
    String.ofList (stripUrn ("urn:uuid:".toList ++ uuid.toList)) = uuid := by
  have hfirst : FirstAt "urn:uuid:".toList [] uuid.toList := fun i hi => absurd hi (Nat.not_lt_zero i)
  have hfind : find "urn:uuid:".toList ("urn:uuid:".toList ++ uuid.toList) = some 0 :=
    find_of_firstAt hfirst
  have hdrop : ("urn:uuid:".toList ++ uuid.toList).drop 9 = uuid.toList := by
    have hlength : "urn:uuid:".toList.length = 9 := by decide
    rw [← hlength, List.drop_left]
  rw [stripUrn, hfind, if_pos nofun, hdrop, String.ofList_toList]

/-- What a key tag comes to, once its system has a helper. -/
theorem KeyTag.processed {attrs : List Attribute} {uuid : String} {pssh : Bytes}
    (h : KeyTag attrs uuid pssh) {engine : DrmHelperEngine} {propagate clearSamples : Bool}
    {helper : MadeHelper}
    (hmade : engine.createHelper (hlsDrmInfo uuid propagate clearSamples) = some helper)
    (unparse : Bytes → Bytes) (beyond : Mem) :
    ProcessContentProtection unparse engine beyond (attributeList attrs) propagate clearSamples =
      withPssh unparse beyond helper (textOf (base64_Encode pssh)) := by
  obtain ⟨mediaType, hcomma, hvalue⟩ := h.data
  have hpssh := getPsshData_eq h.data_found hvalue hcomma
  have hformat : GetFieldValue (attributeList attrs) "KEYFORMAT".toList =
      .ok (some ("urn:uuid:".toList ++ uuid.toList)) := h.format_found.trans (congrArg _ h.format)
  have hhelper : getDrmHelper engine (attributeList attrs) propagate clearSamples =
      .ok (some helper) := by
    simp only [getDrmHelper, hformat, bind, Except.bind, stripUrn_urn, hmade]
  simp only [ProcessContentProtection, hhelper, hpssh, Except.mapError, bind, Except.bind]

/-- With every factory registered a UUID of one of the two systems gets its helper, whatever the
order. -/
theorem createHelper_of_uuid {engine : DrmHelperEngine} (h : engine.Complete)
    {factory : DrmHelperFactory}
    (hsystem : factory = .WidevineDrmHelperFactory ∨ factory = .PlayReadyHelperFactory)
    (propagate clearSamples : Bool) :
    engine.createHelper (hlsDrmInfo factory.systemId propagate clearSamples) =
      some (factory.make (hlsDrmInfo factory.systemId propagate clearSamples)) := by
  have hknown : ∀ f : DrmHelperFactory,
      f.isDRM (hlsDrmInfo factory.systemId propagate clearSamples) = decide (f = factory) := by
    intro f
    rcases hsystem with rfl | rfl <;> cases f <;> rfl
  have hfind : engine.factories.find?
      (·.isDRM (hlsDrmInfo factory.systemId propagate clearSamples)) = some factory := by
    cases hfound : engine.factories.find?
        (·.isDRM (hlsDrmInfo factory.systemId propagate clearSamples)) with
    | none =>
        have hnone := List.find?_eq_none.mp hfound factory (engine.mem_factories h factory)
        rw [hknown, decide_eq_true rfl] at hnone
        exact absurd rfl hnone
    | some f =>
        have hf := List.find?_some hfound
        rw [hknown, decide_eq_true_eq] at hf
        rw [hf]
  rw [DrmHelperEngine.createHelper_eq, hfind, Option.map_some]

/-- A new Widevine helper goes on with all ids of a box exactly when the numbers of the box fit and
it has ids, none of them empty. -/
theorem parsed_widevine_iff {box : WidevinePssh} (hstep : ∀ f ∈ box.fields, f.InStep)
    (info : DrmInfo) (unparse : Bytes → Bytes) (beyond : Mem) :
    (∃ helper, parsed ((MadeHelper.WidevineDrmHelper info .new).parsePssh unparse beyond
          box.bytes) = .ok (some (.WidevineDrmHelper info helper)) ∧
        WidevineDrmHelper.Extracts box true helper) ↔
      (∀ f ∈ box.fields, f.Fits) ∧ box.ids ≠ [] ∧ ∀ id ∈ box.ids, id ≠ [] := by
  have hlength := box.bytes_length
  have hsize : box.bytes.length % 2 ^ 32 = box.bytes.length :=
    Nat.mod_eq_of_lt (hlength ▸ box.fits)
  rw [MadeHelper.parsePssh, hsize]
  by_cases hfits : ∀ f ∈ box.fields, f.Fits
  · obtain ⟨s, hs, hfold⟩ :=
      WidevineDrmHelper.parsePssh_inStep .new box beyond hstep hfits
    have hextracts := WidevineDrmHelper.extracts_iff .new box _ hfits hfold
    rw [WidevineDrmHelper.keyIds_iff] at hextracts
    have hids : (∀ id ∈ box.ids, id ≠ []) →
        (box.fields.filterMap PsshField.storedId? ≠ [] ↔ box.ids ≠ []) := by
      intro hne
      rw [WidevinePssh.ids, ← WidevineDrmHelper.storedIds_eq hne, ne_eq, ne_eq, List.map_eq_nil_iff]
    rw [hs, and_iff_right hfits]
    constructor
    · rintro ⟨helper, heq, hx⟩
      have hrc : s.rc = true ∧ s.helper = helper := by
        cases hrc : s.rc with
        | false =>
            simp only [hrc, Option.map_some, parsed] at heq
            cases heq
        | true =>
            simp only [hrc, Option.map_some, parsed] at heq
            cases heq
            exact ⟨rfl, rfl⟩
      have hall := hextracts.mp (hrc.1 ▸ hrc.2 ▸ hx)
      exact ⟨(hids hall.2.1).mp hall.1, hall.2.1⟩
    · rintro ⟨hsome, hne⟩
      have hx := hextracts.mpr ⟨(hids hne).mpr hsome, hne, fun _ _ => rfl⟩
      have hrc := hx.returned
      rw [hrc] at hx ⊢
      exact ⟨s.helper, rfl, hx⟩
  · rw [WidevineDrmHelper.parsePssh_undefined .new box beyond hstep hfits]
    refine iff_of_false ?_ fun hall => hfits hall.1
    rintro ⟨helper, heq, -⟩
    cases heq

/-- The factories as the linker may have placed them. -/
def sampleEngine : DrmHelperEngine := ⟨DrmHelperFactory.all⟩

theorem sampleEngine_complete : sampleEngine.Complete := by
  refine ⟨DrmHelperFactory.all, .refl _, registered_of_weighed (.refl _) ?_⟩
  unfold Weighed
  decide

/-- `KEYFORMAT="urn:uuid:edef8ba9-…",URI="data:;base64,…"`. -/
def widevineTag : List Attribute :=
  [{ name := keyFormat, quoted := true, value := "urn:uuid:".toList ++ WIDEVINE_UUID.toList
     noQuote := by decide, noComma := nofun },
    { name := uri, quoted := true
      value := "data:;base64".toList ++ ',' :: textOf (base64_Encode WidevineDrmHelper.twoIds.bytes)
      noQuote := by decide +kernel, noComma := nofun }]

theorem widevineTag_keyTag : KeyTag widevineTag WIDEVINE_UUID WidevineDrmHelper.twoIds.bytes where
  format := rfl
  format_found := by
    unfold FindsValue
    decide +kernel
  data := ⟨"data:;base64".toList, by decide, rfl⟩
  data_found := by
    unfold FindsValue
    decide +kernel

/-- `KEYFORMAT="urn:uuid:9a04f079-…",URI="data:;base64,…"`. -/
def playReadyTag : List Attribute :=
  [{ name := keyFormat, quoted := true, value := "urn:uuid:".toList ++ PLAYREADY_UUID.toList
     noQuote := by decide, noComma := nofun },
    { name := uri, quoted := true
      value := "data:;base64".toList ++ ',' :: textOf (base64_Encode
        ([0, 0, 2, 112] ++ utf16le sampleHeader.text ++ [0, 60]))
      noQuote := by decide +kernel, noComma := nofun }]

theorem playReadyTag_keyTag : KeyTag playReadyTag PLAYREADY_UUID
    ([0, 0, 2, 112] ++ utf16le sampleHeader.text ++ [0, 60]) where
  format := rfl
  format_found := by
    unfold FindsValue
    decide +kernel
  data := ⟨"data:;base64".toList, by decide, rfl⟩
  data_found := by
    unfold FindsValue
    decide +kernel

end PlayerInterface.Drm
