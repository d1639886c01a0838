import PlayerInterface.Cdmi.Caps
import PlayerInterface.Cdmi.Decryptor
import PlayerInterface.Drm.ContentProtection

/-!
# Protection events

A decryptor takes its protection system from the first caps that name a known one and asks the
session manager for a session with the init data of each event of that system. Under the Widevine
workaround it takes ClearKey events instead, and carries their key id over into a fixed Widevine
PSSH. The session manager counts init data in 16 bits.
-/

namespace PlayerInterface.Cdmi

open PlayerInterface.Core PlayerInterface.Drm

/-! ## The workaround -/

def WIDEVINE_PSSH_KEYID_OFFSET : Nat := 36
def CK_PSSH_KEYID_OFFSET : Nat := 32
def COMMON_KEYID_SIZE : Nat := 16

def WVSamplePSSH : Bytes :=
  [0x00, 0x00, 0x00, 0x3c, 0x70, 0x73, 0x73, 0x68, 0x00, 0x00, 0x00, 0x00,
    0xed, 0xef, 0x8b, 0xa9, 0x79, 0xd6, 0x4a, 0xce, 0xa3, 0xc8, 0x27, 0xdc, 0xd5, 0x1d, 0x21, 0xed,
    0x00, 0x00, 0x00, 0x1c, 0x08, 0x01, 0x12, 0x10,
    0x00, 0x00, 0x00, 0x00, 0x00, 0x00, 0x00, 0x00, 0x00, 0x00, 0x00, 0x00, 0x00, 0x00, 0x00, 0x00,
    0x22, 0x06, 0x74, 0x65, 0x73, 0x74, 0x5f, 0x37]

/-- One turn of the loop over the key id. -/
def transferByte (InputData outputData : Bytes) (size : Nat) : Bytes :=
  outputData.set (WIDEVINE_PSSH_KEYID_OFFSET + size)
    (InputData.getD (CK_PSSH_KEYID_OFFSET + size) 0)

/-- `none` for a null pointer, in and out. -/
def ReplaceKIDPsshData : Option Bytes → Option Bytes
  | none => none
  | some InputData =>
      if CK_PSSH_KEYID_OFFSET + COMMON_KEYID_SIZE ≤ InputData.length then
        some ((List.range COMMON_KEYID_SIZE).foldl (transferByte InputData) WVSamplePSSH)
      else none

/-- The turns write the key id from its first byte on. -/
theorem foldl_transferByte {InputData : Bytes} {count : Nat} (hcount : count ≤ 16)
    (hlen : 48 ≤ InputData.length) :
    (List.range count).foldl (transferByte InputData) WVSamplePSSH =
      WVSamplePSSH.take 36 ++ (InputData.drop 32).take count ++ WVSamplePSSH.drop (36 + count) := by
  induction count with
  | zero => rfl
  | succ count ih =>
      have hfront : (WVSamplePSSH.take 36 ++ (InputData.drop 32).take count).length =
          36 + count := by
        have hthirtySix : (WVSamplePSSH.take 36).length = 36 := rfl
        rw [List.length_append, hthirtySix, List.length_take, List.length_drop]
        omega
      have hsample : WVSamplePSSH.length = 60 := rfl
      have hnext := List.drop_eq_getElem_cons (show 36 + count < WVSamplePSSH.length by omega)
      have hbyte : (InputData.drop 32).take (count + 1) =
          (InputData.drop 32).take count ++ [InputData.getD (32 + count) 0] := by
        have hin : count < (InputData.drop 32).length := by
          rw [List.length_drop]
          omega
        rw [List.take_succ_eq_append_getElem hin, List.getElem_drop,
          List.getD_eq_getElem?_getD, List.getElem?_eq_getElem (by omega), Option.getD_some]
      rw [List.range_succ, List.foldl_concat, ih (by omega), transferByte,
        WIDEVINE_PSSH_KEYID_OFFSET, CK_PSSH_KEYID_OFFSET, hnext,
        List.set_append_right _ _ (Nat.le_of_eq hfront), hfront]
      simp only [Nat.sub_self, List.set_cons_zero, hbyte, List.append_assoc,
        List.singleton_append, Nat.add_assoc]

theorem nil_short : ([] : List (Fin 128)).length ≤ 9 := Nat.zero_le 9

/-- A varint of one byte. -/
def shortVarint (n : Nat) (h : n < 128) : Varint := ⟨[], ⟨n, h⟩, nil_short⟩

theorem workaroundVarints_short : 1 < 128 ∧ 16 < 128 ∧ 6 < 128 := by decide

/-- An algorithm, the key id and the content id `test_7`. -/
def workaroundFields (kid : Bytes) (h : kid.length = 16) : List PsshField :=
  [.number .Algorithm (shortVarint 1 workaroundVarints_short.1),
    .string .KeyId (shortVarint 16 workaroundVarints_short.2.1) kid h.symm,
    .string .ContentId (shortVarint 6 workaroundVarints_short.2.2) (ascii "test_7") rfl]

theorem workaroundFields_octets (kid : Bytes) (h : kid.length = 16) :
    (workaroundFields kid h).flatMap PsshField.octets = [0x08, 0x01, 0x12, 0x10] ++ kid ++
      [0x22, 0x06, 0x74, 0x65, 0x73, 0x74, 0x5f, 0x37] := by
  simp only [workaroundFields, List.flatMap_cons, List.flatMap_nil, List.append_assoc]
  rfl

theorem workaroundFields_length (kid : Bytes) (h : kid.length = 16) :
    ((workaroundFields kid h).flatMap PsshField.octets).length = 28 := by
  simp [workaroundFields_octets, h]

/-- The fixed box with a key id. -/
def workaroundBox (kid : Bytes) (h : kid.length = 16) : WidevinePssh where
  flags := .zero
  fields := workaroundFields kid h
  fits := (workaroundFields_length kid h).symm ▸ by decide

theorem keyIdBytes_length {initData : Bytes} (h : 48 ≤ initData.length) :
    (keyIdBytes initData).length = 16 := by
  rw [keyIdBytes, List.length_take, List.length_drop]
  omega

theorem workaroundBox_bytes (kid : Bytes) (h : kid.length = 16) :
    (workaroundBox kid h).bytes = WVSamplePSSH.take 36 ++ kid ++ WVSamplePSSH.drop 52 := by
  have hpayload : (workaroundBox kid h).payload = [0x08, 0x01, 0x12, 0x10] ++ kid ++
      [0x22, 0x06, 0x74, 0x65, 0x73, 0x74, 0x5f, 0x37] := workaroundFields_octets kid h
  have hlength : (workaroundBox kid h).payload.length = 28 := workaroundFields_length kid h
  have hfront : beBytes 4 (32 + 28) ++ ascii "pssh" ++ (0 :: (Word.zero : Word 3).bytes) ++
      WidevineDrmHelper.systemID_WideVine ++ beBytes 4 28 ++ [0x08, 0x01, 0x12, 0x10] =
        WVSamplePSSH.take 36 := by decide
  rw [WidevinePssh.bytes, hlength, hpayload, ← hfront]
  simp only [List.append_assoc]
  rfl

/-- The replaced data are a Widevine box with the key id of the ClearKey data. -/
theorem ReplaceKIDPsshData_eq {initData : Bytes} (h : 48 ≤ initData.length) :
    ReplaceKIDPsshData (some initData) =
      some (workaroundBox (keyIdBytes initData) (keyIdBytes_length h)).bytes := by
  have hlen : CK_PSSH_KEYID_OFFSET + COMMON_KEYID_SIZE ≤ initData.length := h
  rw [ReplaceKIDPsshData, if_pos hlen, workaroundBox_bytes]
  exact congrArg some (foldl_transferByte (Nat.le_refl 16) h)

/-! ## The helper of a session -/

def dashDrmInfo (systemUUID : String) (bPropagateUriParams : Bool) : DrmInfo where
  method := .eMETHOD_AES_128
  mediaFormat := .eMEDIAFORMAT_DASH
  systemUUID := systemUUID
  bPropagateUriParams := bPropagateUriParams

/-- `createDrmSession` up to the helper it goes on with. The length of the init data is a
`uint16_t`. -/
def sessionHelper (uuid_unparse_lower : Bytes → Bytes) (engine : DrmHelperEngine) (beyond : Mem)
    (bPropagateUriParams : Bool) (systemId : String) (initData : Bytes) :
    Except ProtectionFailure (Option MadeHelper) :=
  let drmInfo := dashDrmInfo systemId bPropagateUriParams
  if engine.hasDRM drmInfo then
    match engine.createHelper drmInfo with
    | none => .ok none
    | some drmHelper =>
        parsed (drmHelper.parsePssh uuid_unparse_lower (Mem.ofBytes initData beyond)
          (initData.take (initData.length % 2 ^ 16)))
  else .ok none

/-- The ClearKey factory knows every DASH stream of the manager, but comes after the factory that
is named. -/
theorem createHelper_widevine {engine : DrmHelperEngine} (h : engine.Complete) (propagate : Bool) :
    engine.createHelper (dashDrmInfo WIDEVINE_UUID propagate) =
      some (.WidevineDrmHelper (dashDrmInfo WIDEVINE_UUID propagate) .new) := by
  have hknown : ∀ f : DrmHelperFactory, f.isDRM (dashDrmInfo WIDEVINE_UUID propagate) =
      decide (f = .WidevineDrmHelperFactory ∨ f = .ClearKeyHelperFactory) := by
    intro f
    cases f <;> rfl
  have hmem := engine.mem_factories h
  have hfind : engine.factories.find? (·.isDRM (dashDrmInfo WIDEVINE_UUID propagate)) =
      some .WidevineDrmHelperFactory := by
    cases hfound : engine.factories.find? (·.isDRM (dashDrmInfo WIDEVINE_UUID propagate)) with
    | none => exact absurd rfl (List.find?_eq_none.mp hfound .WidevineDrmHelperFactory (hmem _))
    | some f =>
        obtain ⟨order, -, hregistered⟩ := h
        have hleast := find?_lightest hregistered.weighed hfound .WidevineDrmHelperFactory (hmem _)
          rfl
        have hf := List.find?_some hfound
        rw [hknown, decide_eq_true_eq] at hf
        cases hf with
        | inl hwidevine => rw [hwidevine]
        | inr hclear =>
            rw [hclear] at hleast
            exact absurd hleast (by decide)
  rw [DrmHelperEngine.createHelper_eq, hfind, Option.map_some]
  rfl

/-- What is cut off still stands behind what is passed. -/
theorem ofBytes_take (data : Bytes) (count : Nat) (beyond : Mem) :
    Mem.ofBytes (data.take count) (Mem.ofBytes data beyond) = Mem.ofBytes data beyond := by
  funext i
  simp only [Mem.ofBytes, List.getD_eq_getElem?_getD, List.getElem?_take]
  split
  · cases hi : data[i]? with
    | some b => rfl
    | none => simp
  · rfl

theorem sessionHelper_widevine {engine : DrmHelperEngine} (h : engine.Complete)
    (unparse : Bytes → Bytes) (beyond : Mem) (propagate : Bool) (initData : Bytes) :
    sessionHelper unparse engine beyond propagate WIDEVINE_UUID initData =
      parsed ((MadeHelper.WidevineDrmHelper (dashDrmInfo WIDEVINE_UUID propagate) .new).parsePssh
        unparse (Mem.ofBytes initData beyond) (initData.take (initData.length % 2 ^ 16))) := by
  have hmade := createHelper_widevine h propagate
  have hhas : engine.hasDRM (dashDrmInfo WIDEVINE_UUID propagate) = true := by
    rw [DrmHelperEngine.hasDRM_eq_isSome, hmade]
    rfl
  simp only [sessionHelper, hhas, if_true, hmade]

/-- A Widevine event of a DASH stream comes to a helper with all ids of its box exactly when the
size of the box fits 16 bits, its numbers fit and it has ids, none of them empty. -/
theorem dash_widevine_iff {engine : DrmHelperEngine} (h : engine.Complete) {box : WidevinePssh}
    (hstep : ∀ f ∈ box.fields, f.InStep) (unparse : Bytes → Bytes) (beyond : Mem)
    (propagate : Bool) :
    (∃ helper, sessionHelper unparse engine beyond propagate WIDEVINE_UUID box.bytes =
          .ok (some (.WidevineDrmHelper (dashDrmInfo WIDEVINE_UUID propagate) helper)) ∧
        WidevineDrmHelper.Extracts box true helper) ↔
      box.bytes.length < 2 ^ 16 ∧ (∀ f ∈ box.fields, f.Fits) ∧ box.ids ≠ [] ∧
        ∀ id ∈ box.ids, id ≠ [] := by
  rw [sessionHelper_widevine h]
  by_cases hshort : box.bytes.length < 2 ^ 16
  · rw [Nat.mod_eq_of_lt hshort, List.take_length, and_iff_right hshort]
    exact parsed_widevine_iff hstep _ unparse _
  · refine iff_of_false (fun ⟨helper, heq, _⟩ => ?_) fun hall => hshort hall.1
    -- the size in the box is not the size that is passed
    have hcut : box.bytes.length % 2 ^ 16 < 2 ^ 16 := Nat.mod_lt _ (by decide)
    have hcount : (box.bytes.take (box.bytes.length % 2 ^ 16)).length % 2 ^ 32 =
        box.bytes.length % 2 ^ 16 := by
      rw [List.length_take, Nat.min_eq_left (Nat.mod_le _ _)]
      exact Nat.mod_eq_of_lt (by omega)
    have hsize := (WidevineDrmHelper.boxHeader (holds_ofBytes box.bytes beyond)).boxSize
    have hwrong : (Mem.ofBytes box.bytes beyond).be 0 4 ≠ box.bytes.length % 2 ^ 16 := by
      rw [hsize]
      omega
    simp only [MadeHelper.parsePssh, hcount, ofBytes_take, WidevineDrmHelper.parsePssh,
      if_pos hwrong, Option.map_some, parsed] at heq
    cases heq

theorem twoIds_dash : ∃ helper,
    sessionHelper uuidText sampleEngine (fun _ => 0) false WIDEVINE_UUID
        WidevineDrmHelper.twoIds.bytes =
      .ok (some (.WidevineDrmHelper (dashDrmInfo WIDEVINE_UUID false) helper)) ∧
      WidevineDrmHelper.Extracts WidevineDrmHelper.twoIds true helper := by
  have hstep : ∀ f ∈ WidevineDrmHelper.twoIds.fields, f.InStep :=
    List.forall_mem_cons.mpr ⟨rfl, List.forall_mem_cons.mpr ⟨rfl,
      List.forall_mem_cons.mpr ⟨trivial, nofun⟩⟩⟩
  have hfits : ∀ f ∈ WidevineDrmHelper.twoIds.fields, f.Fits :=
    List.forall_mem_cons.mpr ⟨trivial, List.forall_mem_cons.mpr ⟨trivial,
      List.forall_mem_cons.mpr ⟨⟨by decide, by decide⟩, nofun⟩⟩⟩
  exact (dash_widevine_iff sampleEngine_complete hstep uuidText (fun _ => 0) false).mpr
    ⟨by decide, hfits, nofun, by decide⟩

/-- The replaced data come to a helper whose first key is the key id of the ClearKey data. -/
theorem sessionHelper_workaroundBox {engine : DrmHelperEngine} (h : engine.Complete)
    (kid : Bytes) (hkid : kid.length = 16) (unparse : Bytes → Bytes) (beyond : Mem)
    (propagate : Bool) :
    ∃ helper, sessionHelper unparse engine beyond propagate WIDEVINE_UUID
          (workaroundBox kid hkid).bytes =
        .ok (some (.WidevineDrmHelper (dashDrmInfo WIDEVINE_UUID propagate) helper)) ∧
      (helper.mKeyIDs 0).map Subtype.val = some kid := by
  have hids : (workaroundBox kid hkid).ids = [kid, ascii "test_7"] := rfl
  have hstep : ∀ f ∈ (workaroundBox kid hkid).fields, f.InStep :=
    List.forall_mem_cons.mpr ⟨trivial, List.forall_mem_cons.mpr ⟨rfl,
      List.forall_mem_cons.mpr ⟨rfl, nofun⟩⟩⟩
  have hfits : ∀ f ∈ (workaroundBox kid hkid).fields, f.Fits :=
    List.forall_mem_cons.mpr ⟨⟨by decide, by decide⟩, List.forall_mem_cons.mpr ⟨trivial,
      List.forall_mem_cons.mpr ⟨trivial, nofun⟩⟩⟩
  have hshort : (workaroundBox kid hkid).bytes.length < 2 ^ 16 := by
    have hfront : (WVSamplePSSH.take 36).length = 36 := rfl
    have hback : (WVSamplePSSH.drop 52).length = 8 := rfl
    rw [workaroundBox_bytes, List.length_append, List.length_append, hkid, hfront, hback]
    decide
  have hne : ∀ id ∈ (workaroundBox kid hkid).ids, id ≠ [] := by
    rw [hids]
    refine List.forall_mem_cons.mpr ⟨?_, List.forall_mem_cons.mpr ⟨nofun, nofun⟩⟩
    intro hnil
    rw [hnil] at hkid
    cases hkid
  obtain ⟨helper, heq, hextracts⟩ := (dash_widevine_iff h hstep unparse beyond propagate).mpr
    ⟨hshort, hfits, by rw [hids]; nofun, hne⟩
  refine ⟨helper, heq, ?_⟩
  rw [hextracts.keyIds 0, hids]
  rfl

/-! ## The decryptor -/

/-- An event, with what the element finds while it handles it. The buffer of the init data may not
be mapped. -/
structure ProtectionEvent where
  systemId : String
  initData : Option Bytes
  originalMediaType : Option String
  hasSessionManager : Bool
  mIsWVKIDWorkaround : Bool

structure SessionRequest where
  event : ProtectionEvent
  systemId : String
  initData : Bytes
  mediaType : GstMediaType

structure ProtectionElement (V : Type) extends CapsElement V where
  mediaType : GstMediaType := .manifest
  requests : List SessionRequest := []

def mediaTypeOf : Option String → Option GstMediaType
  | some "audio/mpeg" | some "audio/x-opus" | some "audio/x-eac3" | some "audio/x-ac3"
  | some "audio/x-gst-fourcc-ec_3" => some .audio
  | some "video/x-h264" | some "video/x-h265" => some .video
  | _ => none

/-- The system a session is asked for, if any; `none` for a comparison with a null pointer. -/
def wantedSystem (selectedProtection : Option String) (event : ProtectionEvent) :
    Option (Option String) :=
  if event.mIsWVKIDWorkaround then
    some (if event.systemId = CLEARKEY_UUID then some WIDEVINE_UUID else none)
  else
    selectedProtection.map fun selected =>
      if event.systemId = selected then some event.systemId else none

namespace ProtectionElement

variable {V : Type}

/-- The media type is looked up once. -/
def foundMediaType (e : ProtectionElement V) (event : ProtectionEvent) : Option GstMediaType :=
  if e.mediaType = .manifest then mediaTypeOf event.originalMediaType else some e.mediaType

/-- From the init data on. -/
def request (e : ProtectionElement V) (event : ProtectionEvent) (systemId : String)
    (data : Bytes) : Bool × ProtectionElement V :=
  match e.foundMediaType event with
  | none => (false, e)
  | some mediaType =>
      let e := { e with mediaType }
      match if event.mIsWVKIDWorkaround then ReplaceKIDPsshData (some data) else some data with
      | none => (false, e)
      | some initData =>
          (true, { e with requests := e.requests ++ [⟨event, systemId, initData, mediaType⟩] })

/-- The branch for a protection event. -/
def sink_event (e : ProtectionElement V) (event : ProtectionEvent) :
    Option (Bool × ProtectionElement V) :=
  if event.hasSessionManager = false then some (false, e)
  else
    (wantedSystem e.selectedProtection event).map fun
      | none => (true, e)
      | some systemId =>
          match event.initData with
          | none => (false, e)
          | some data => e.request event systemId data

end ProtectionElement

inductive ElementCall (V : Type) where
  | transform_caps (direction : GstPadDirection) (caps : List (GstStructure V))
      (filter : Option (List (GstStructure V)))
  | sink_event (event : ProtectionEvent)

section
variable {V : Type} [DecidableEq V]

def elementStep (gst_caps_intersect_full : List (GstStructure V) → List (GstStructure V) →
      List (GstStructure V)) (e : ProtectionElement V) : ElementCall V →
    Option (ProtectionElement V)
  | .transform_caps direction caps filter =>
      some { e with
        toCapsElement :=
          (transform_caps gst_caps_intersect_full direction caps filter e.toCapsElement).2 }
  | .sink_event event => (e.sink_event event).map Prod.snd

def elementSystem (gst_caps_intersect_full : List (GstStructure V) → List (GstStructure V) →
      List (GstStructure V)) : System (ProtectionElement V) (ElementCall V) where
  init e := e = {}
  step := elementStep gst_caps_intersect_full

end

/-! ## The requests of a run -/

/-- Without the workaround a request passes on an event of the selected system, with it the key id
of a ClearKey event. All requests are for one media type. -/
structure SessionRequest.Follows (r : SessionRequest) (selected : Option String)
    (mediaType : GstMediaType) : Prop where
  typed : r.mediaType = mediaType ∧ mediaType ≠ .manifest
  passed : r.event.mIsWVKIDWorkaround = false →
    selected = some r.systemId ∧ r.event.systemId = r.systemId ∧ r.event.initData = some r.initData
  replaced : r.event.mIsWVKIDWorkaround = true →
    r.event.systemId = CLEARKEY_UUID ∧ r.systemId = WIDEVINE_UUID ∧
      ∃ (data : Bytes) (hdata : 48 ≤ data.length), r.event.initData = some data ∧
        r.initData = (workaroundBox (keyIdBytes data) (keyIdBytes_length hdata)).bytes

section
variable {V : Type}

structure ProtectionElement.Consistent (e : ProtectionElement V) : Prop where
  known : ∀ uuid, e.selectedProtection = some uuid → uuid ∈ knownSystems
  follows : ∀ r ∈ e.requests, r.Follows e.selectedProtection e.mediaType

/-- What has been selected stays selected. -/
theorem selectProtection_selected {e : CapsElement V} {uuid : String}
    (h : e.selectedProtection = some uuid) (caps : List (GstStructure V)) :
    selectProtection e caps = e := by
  rw [selectProtection, if_pos (by rw [h]; nofun)]

theorem selectProtection_known {e : CapsElement V}
    (h : ∀ uuid, e.selectedProtection = some uuid → uuid ∈ knownSystems)
    (caps : List (GstStructure V)) :
    ∀ uuid, (selectProtection e caps).selectedProtection = some uuid → uuid ∈ knownSystems := by
  rw [selectProtection]
  split
  · exact h
  · split
    · exact h
    · split
      · rename_i hcapsinfo
        intro uuid huuid
        cases huuid
        exact hcapsinfo
      · exact h

theorem SessionRequest.Follows.select {r : SessionRequest} {e : CapsElement V}
    {mediaType : GstMediaType} (h : r.Follows e.selectedProtection mediaType)
    (caps : List (GstStructure V)) :
    r.Follows (selectProtection e caps).selectedProtection mediaType where
  typed := h.typed
  passed := by
    intro hplain
    obtain ⟨hselected, hrest⟩ := h.passed hplain
    rw [selectProtection_selected hselected]
    exact ⟨hselected, hrest⟩
  replaced := h.replaced

theorem mediaTypeOf_ne_manifest {originalMediaType : Option String} {mediaType : GstMediaType}
    (h : mediaTypeOf originalMediaType = some mediaType) : mediaType ≠ .manifest := by
  unfold mediaTypeOf at h
  split at h <;> cases h <;> nofun

namespace ProtectionElement

variable {e : ProtectionElement V} {event : ProtectionEvent}

/-- The type that is found is none that could be lost again. -/
theorem foundMediaType_spec {mediaType : GstMediaType}
    (h : e.foundMediaType event = some mediaType) :
    mediaType ≠ .manifest ∧ (e.mediaType ≠ .manifest → mediaType = e.mediaType) := by
  unfold foundMediaType at h
  split at h
  · rename_i hmanifest
    exact ⟨mediaTypeOf_ne_manifest h, fun hne => absurd hmanifest hne⟩
  · rename_i hne
    cases h
    exact ⟨hne, fun _ => rfl⟩

theorem Consistent.setMediaType (h : e.Consistent) {mediaType : GstMediaType}
    (hfound : e.foundMediaType event = some mediaType) :
    { e with mediaType : ProtectionElement V }.Consistent where
  known := h.known
  follows := by
    intro r hr
    have hr := h.follows r hr
    have hsame := (foundMediaType_spec hfound).2 hr.typed.2
    rw [hsame]
    exact hr

/-- A new request, by what the event has been taken for and what its data have become. -/
theorem follows_new {selected : Option String} {systemId : String} {data initData : Bytes}
    {mediaType : GstMediaType} (hne : mediaType ≠ .manifest)
    (hwanted : wantedSystem selected event = some (some systemId))
    (hdata : event.initData = some data)
    (hreplaced : (if event.mIsWVKIDWorkaround then ReplaceKIDPsshData (some data) else some data) =
      some initData) :
    SessionRequest.Follows ⟨event, systemId, initData, mediaType⟩ selected mediaType where
  typed := ⟨rfl, hne⟩
  passed := by
    intro hplain
    dsimp only at hplain
    rw [wantedSystem, hplain, if_neg Bool.false_ne_true, Option.map_eq_some_iff] at hwanted
    rw [hplain, if_neg Bool.false_ne_true] at hreplaced
    obtain ⟨uuid, huuid, hsystem⟩ := hwanted
    split at hsystem
    · rename_i hsame
      cases hsystem
      exact ⟨huuid.trans (congrArg some hsame.symm), rfl, hdata.trans hreplaced⟩
    · cases hsystem
  replaced := by
    intro hwork
    dsimp only at hwork
    rw [wantedSystem, hwork, if_pos rfl, Option.some.injEq] at hwanted
    rw [hwork, if_pos rfl] at hreplaced
    split at hwanted
    · rename_i hclear
      cases hwanted
      by_cases hlength : 48 ≤ data.length
      · rw [ReplaceKIDPsshData_eq hlength] at hreplaced
        exact ⟨hclear, rfl, data, hlength, hdata, (Option.some.inj hreplaced).symm⟩
      · have hshort : ¬ CK_PSSH_KEYID_OFFSET + COMMON_KEYID_SIZE ≤ data.length := hlength
        rw [ReplaceKIDPsshData, if_neg hshort] at hreplaced
        cases hreplaced
    · cases hwanted

theorem Consistent.request (h : e.Consistent) {systemId : String} {data : Bytes}
    (hwanted : wantedSystem e.selectedProtection event = some (some systemId))
    (hdata : event.initData = some data) : (e.request event systemId data).2.Consistent := by
  unfold ProtectionElement.request
  cases hfound : e.foundMediaType event with
  | none => exact h
  | some mediaType =>
      have htyped := h.setMediaType hfound
      cases hreplaced : if event.mIsWVKIDWorkaround then ReplaceKIDPsshData (some data)
          else some data with
      | none => simpa only using htyped
      | some initData =>
          refine ⟨h.known, fun r hr => ?_⟩
          cases List.mem_append.mp hr with
          | inl hold => exact htyped.follows r hold
          | inr hnew =>
              rw [List.mem_singleton.mp hnew]
              exact follows_new (foundMediaType_spec hfound).1 hwanted hdata hreplaced

theorem Consistent.sink_event (h : e.Consistent) {t : ProtectionElement V}
    (ht : (e.sink_event event).map Prod.snd = some t) : t.Consistent := by
  obtain ⟨⟨result, t'⟩, hstep, rfl⟩ := Option.map_eq_some_iff.mp ht
  unfold ProtectionElement.sink_event at hstep
  split at hstep
  · cases hstep
    exact h
  · obtain ⟨wanted, hwanted, hrest⟩ := Option.map_eq_some_iff.mp hstep
    cases wanted with
    | none =>
        cases hrest
        exact h
    | some systemId =>
        cases hdata : event.initData with
        | none =>
            simp only [hdata] at hrest
            cases hrest
            exact h
        | some data =>
            simp only [hdata] at hrest
            have hkept := h.request hwanted hdata
            rw [hrest] at hkept
            exact hkept

theorem Consistent.transform_caps [DecidableEq V] (h : e.Consistent)
    (gst_caps_intersect_full : List (GstStructure V) → List (GstStructure V) →
      List (GstStructure V))
    (direction : GstPadDirection) (caps : List (GstStructure V))
    (filter : Option (List (GstStructure V))) :
    { e with
      toCapsElement := (Cdmi.transform_caps gst_caps_intersect_full direction caps filter
        e.toCapsElement).2 : ProtectionElement V }.Consistent := by
  have hselected : (Cdmi.transform_caps gst_caps_intersect_full direction caps filter
      e.toCapsElement).2.selectedProtection =
        (selectProtection e.toCapsElement caps).selectedProtection :=
    transform_caps_selected _ _ _ _ _
  constructor
  · intro uuid huuid
    exact selectProtection_known h.known caps uuid (hselected ▸ huuid)
  · intro r hr
    dsimp only
    rw [hselected]
    exact (h.follows r hr).select caps

end ProtectionElement

variable [DecidableEq V]
  {gst_caps_intersect_full : List (GstStructure V) → List (GstStructure V) → List (GstStructure V)}
  {e : ProtectionElement V}

theorem reachable_consistent (h : (elementSystem gst_caps_intersect_full).Reachable e) :
    e.Consistent := by
  refine h.invariant ?_ ?_
  · intro e hinit
    rw [show e = {} from hinit]
    exact ⟨nofun, nofun⟩
  · intro e call t he _ hstep
    cases call with
    | transform_caps direction caps filter =>
        cases hstep
        exact he.transform_caps gst_caps_intersect_full direction caps filter
    | sink_event event => exact he.sink_event hstep

/-- Over a run all sessions are for one media type. Without the workaround they are for the system
that was selected, known and the one of their events, with the data of these; with it they come
to a Widevine helper that has the key which a ClearKey helper reads from the event. -/
theorem request_justified (h : (elementSystem gst_caps_intersect_full).Reachable e)
    {r : SessionRequest} (hr : r ∈ e.requests) {engine : DrmHelperEngine}
    (hengine : engine.Complete) (unparse : Bytes → Bytes) (beyond beyond' : Mem)
    (propagate : Bool) (mInitData mKeyID : Bytes) :
    r.mediaType = e.mediaType ∧
      (r.event.mIsWVKIDWorkaround = false →
        e.selectedProtection = some r.systemId ∧ r.systemId ∈ knownSystems ∧
          r.event.systemId = r.systemId ∧ r.event.initData = some r.initData) ∧
      (r.event.mIsWVKIDWorkaround = true → ∃ data helper, r.event.initData = some data ∧
        sessionHelper unparse engine beyond propagate r.systemId r.initData =
          .ok (some (.WidevineDrmHelper (dashDrmInfo WIDEVINE_UUID propagate) helper)) ∧
        (helper.mKeyIDs 0).map Subtype.val =
          some (parsedKey (dashHelper mInitData mKeyID) data beyond')) := by
  have hconsistent := reachable_consistent h
  have hfollows := hconsistent.follows r hr
  refine ⟨hfollows.typed.1, fun hplain => ?_, fun hwork => ?_⟩
  · obtain ⟨hselected, hsystem, hdata⟩ := hfollows.passed hplain
    exact ⟨hselected, hconsistent.known _ hselected, hsystem, hdata⟩
  · obtain ⟨-, hsystem, data, hlength, hdata, hinit⟩ := hfollows.replaced hwork
    obtain ⟨helper, hmade, hkey⟩ := sessionHelper_workaroundBox hengine (keyIdBytes data)
      (keyIdBytes_length hlength) unparse beyond propagate
    refine ⟨data, helper, hdata, ?_, ?_⟩
    · rw [hsystem, hinit]
      exact hmade
    · rw [hkey, parsedKey_dash mInitData mKeyID hlength beyond']

end

/-- The init data of a ClearKey event with the key id `1, …, 16`. -/
def clearKeyData : Bytes := List.replicate 32 0 ++ (List.range' 1 16).map UInt8.ofNat

def sampleEvent (systemId : String) (mIsWVKIDWorkaround : Bool) : ProtectionEvent where
  systemId := systemId
  initData := some clearKeyData
  originalMediaType := some "video/x-h265"
  hasSessionManager := true
  mIsWVKIDWorkaround := mIsWVKIDWorkaround

/-- The selection of Widevine, an event of another system, one of its own and one under the
workaround. -/
def sampleCalls : List (ElementCall Nat) :=
  [.transform_caps .GST_PAD_SRC [] none,
    .transform_caps .GST_PAD_SINK
      [⟨"application/x-cenc", [("protection-system", .string (some WIDEVINE_UUID))], by decide,
        by decide⟩] none,
    .sink_event (sampleEvent PLAYREADY_UUID false), .sink_event (sampleEvent WIDEVINE_UUID false),
    .sink_event (sampleEvent CLEARKEY_UUID true)]

theorem sampleCalls_justified : ∃ e : ProtectionElement Nat, ∃ r ∈ e.requests,
    e.requests.length = 2 ∧ r.mediaType = .video ∧ r.event.mIsWVKIDWorkaround = true ∧
      ∃ data helper, r.event.initData = some data ∧
        sessionHelper uuidText sampleEngine (fun _ => 0) false r.systemId r.initData =
          .ok (some (.WidevineDrmHelper (dashDrmInfo WIDEVINE_UUID false) helper)) ∧
        (helper.mKeyIDs 0).map Subtype.val =
          some (parsedKey (dashHelper [] []) data fun _ => 0) := by
  have hend : ((elementSystem fun caps _ => caps).run {} sampleCalls).any fun e =>
      decide (e.requests.length = 2 ∧ e.mediaType = .video ∧
        (e.requests.getLast?.any (·.event.mIsWVKIDWorkaround))) := by decide +kernel
  obtain ⟨e, hrun, htest⟩ := (Option.any_eq_true _ _).mp hend
  obtain ⟨hlength, htype, hlast⟩ := of_decide_eq_true htest
  obtain ⟨r, hr, hwork⟩ := (Option.any_eq_true _ _).mp hlast
  have hmem := List.mem_of_getLast? hr
  have hall := request_justified (System.reachable_of_run rfl hrun) hmem sampleEngine_complete
    uuidText (fun _ => 0) (fun _ => 0) false [] []
  exact ⟨e, r, hmem, hlength, hall.1.trans htype, hwork, hall.2.2 hwork⟩

end PlayerInterface.Cdmi
