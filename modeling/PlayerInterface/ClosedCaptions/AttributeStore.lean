import PlayerInterface.Core.LastWrite
import PlayerInterface.Drm.PlayReadyHelper
import PlayerInterface.Subtec.Channel
import Mathlib.Data.List.Find
import Mathlib.Data.List.Forall2

/-!
# The caption attribute store

`sendCCSetAttribute` goes over fourteen masks in the order of the packet. A mask the call selects
is looked up in two switches, one that stores a field and one that encodes it. Each of the three
lists its attributes in an order of its own.
-/

namespace PlayerInterface.ClosedCaptions

open PlayerInterface.Core Subtec
open Drm (ascii)

/-! ## Attributes -/

def GSW_MAX_CC_COLOR_NAME_LENGTH : Nat := 32

def GSW_CC_MAX_FONT_NAME_LENGTH : Nat := 128

abbrev CharArray (size : Nat) := { chars : Bytes // chars.length = size }

structure CcColor where
  rgb : Int32
  name : CharArray GSW_MAX_CC_COLOR_NAME_LENGTH
deriving DecidableEq

abbrev CcFontStyle := CharArray GSW_CC_MAX_FONT_NAME_LENGTH

/-- The enumerations start at -1, so they are `int`s and hold any value of one. -/
structure CcAttributes where
  charBgColor : CcColor
  charFgColor : CcColor
  winColor : CcColor
  charBgOpacity : Int32
  charFgOpacity : Int32
  winOpacity : Int32
  fontSize : Int32
  fontStyle : CcFontStyle
  fontItalic : Int32
  fontUnderline : Int32
  borderType : Int32
  borderColor : CcColor
  edgeType : Int32
  edgeColor : CcColor
deriving DecidableEq

def GSW_CC_EMBEDDED_COLOR : Int32 := 0xff000000

/-- `GSW_CC_OPACITY_EMBEDDED` and the other enumerators of that meaning. -/
def EMBEDDED : Int32 := -1

/-- A text copied with its terminator to the front of zeroed memory. -/
def CharArray.zeroedWith {size : Nat} (text : Bytes) : CharArray size :=
  ⟨(text ++ List.replicate size 0).take size, by simp⟩

def createDefaultAttributes : CcAttributes :=
  let embeddedColor : CcColor := ⟨GSW_CC_EMBEDDED_COLOR, CharArray.zeroedWith []⟩
  { charBgColor := embeddedColor
    charFgColor := embeddedColor
    winColor := embeddedColor
    charBgOpacity := EMBEDDED
    charFgOpacity := EMBEDDED
    winOpacity := EMBEDDED
    fontSize := EMBEDDED
    fontStyle := CharArray.zeroedWith (ascii "embedded")
    fontItalic := EMBEDDED
    fontUnderline := EMBEDDED
    borderType := EMBEDDED
    borderColor := embeddedColor
    edgeType := EMBEDDED
    edgeColor := embeddedColor }

inductive CcAttribType where
  | FONT_COLOR
  | BACKGROUND_COLOR
  | FONT_OPACITY
  | BACKGROUND_OPACITY
  | FONT_STYLE
  | FONT_SIZE
  | FONT_ITALIC
  | FONT_UNDERLINE
  | BORDER_TYPE
  | BORDER_COLOR
  | WIN_COLOR
  | WIN_OPACITY
  | EDGE_TYPE
  | EDGE_COLOR
deriving DecidableEq, Repr

namespace CcAttribType

def value : CcAttribType → UInt32
  | FONT_COLOR => 0x0001
  | BACKGROUND_COLOR => 0x0002
  | FONT_OPACITY => 0x0004
  | BACKGROUND_OPACITY => 0x0008
  | FONT_STYLE => 0x0010
  | FONT_SIZE => 0x0020
  | FONT_ITALIC => 0x0040
  | FONT_UNDERLINE => 0x0080
  | BORDER_TYPE => 0x0100
  | BORDER_COLOR => 0x0200
  | WIN_COLOR => 0x0400
  | WIN_OPACITY => 0x0800
  | EDGE_TYPE => 0x1000
  | EDGE_COLOR => 0x2000

/-- The case label a `short` is equal to. -/
def ofShort (type : Int16) : Option CcAttribType :=
  [FONT_COLOR, BACKGROUND_COLOR, FONT_OPACITY, BACKGROUND_OPACITY, FONT_STYLE, FONT_SIZE,
    FONT_ITALIC, FONT_UNDERLINE, BORDER_TYPE, BORDER_COLOR, WIN_COLOR, WIN_OPACITY, EDGE_TYPE,
    EDGE_COLOR].find? fun t => t.value.toInt32 == type.toInt32

end CcAttribType

open CcAttribType

/-! ## The two switches -/

def CcColor.getValue (attrib : CcColor) : UInt32 := attrib.rgb.toUInt32

/-- The overloads for the enumerations. -/
def enumValue (attrib : Int32) : UInt32 := attrib.toUInt32

def valuesMap : List (Bytes × UInt32) :=
  [(ascii "Default", 0),
    (ascii "MonospacedSerif", 1),
    (ascii "ProportionalSerif", 2),
    (ascii "MonospacedSansSerif", 3),
    (ascii "ProportionalSansSerif", 4),
    (ascii "Casual", 5),
    (ascii "Cursive", 6),
    (ascii "SmallCapital", 7)]

/-- The array becomes a `std::string`; without a zero in it, the bytes behind it are read too. -/
def CcFontStyle.getValue (attrib : CcFontStyle) (behind : Bytes) : UInt32 :=
  match valuesMap.find? (·.1 == cText (attrib.val ++ behind)) with
  | some it => it.2
  | none => 0

/-- `behind` is the memory behind the style of the structure. -/
def getValue (attrib : CcAttributes) (behind : Bytes) (type : Int16) : UInt32 :=
  match CcAttribType.ofShort type with
  | some BACKGROUND_COLOR => attrib.charBgColor.getValue
  | some FONT_COLOR => attrib.charFgColor.getValue
  | some WIN_COLOR => attrib.winColor.getValue
  | some BACKGROUND_OPACITY => enumValue attrib.charBgOpacity
  | some FONT_OPACITY => enumValue attrib.charFgOpacity
  | some WIN_OPACITY => enumValue attrib.winOpacity
  | some FONT_SIZE => enumValue attrib.fontSize
  | some FONT_STYLE => CcFontStyle.getValue attrib.fontStyle behind
  | some FONT_ITALIC => enumValue attrib.fontItalic
  | some FONT_UNDERLINE => enumValue attrib.fontUnderline
  | some BORDER_TYPE => enumValue attrib.borderType
  | some BORDER_COLOR => attrib.borderColor.getValue
  | some EDGE_TYPE => enumValue attrib.edgeType
  | some EDGE_COLOR => attrib.edgeColor.getValue
  | none => 0xFFFFFFFF

def setValue (currentAttributes attrib : CcAttributes) (type : Int16) : CcAttributes :=
  match CcAttribType.ofShort type with
  | some BACKGROUND_COLOR => { currentAttributes with charBgColor := attrib.charBgColor }
  | some FONT_COLOR => { currentAttributes with charFgColor := attrib.charFgColor }
  | some WIN_COLOR => { currentAttributes with winColor := attrib.winColor }
  | some BACKGROUND_OPACITY => { currentAttributes with charBgOpacity := attrib.charBgOpacity }
  | some FONT_OPACITY => { currentAttributes with charFgOpacity := attrib.charFgOpacity }
  | some WIN_OPACITY => { currentAttributes with winOpacity := attrib.winOpacity }
  | some FONT_SIZE => { currentAttributes with fontSize := attrib.fontSize }
  -- the length copied is that of the whole array
  | some FONT_STYLE => { currentAttributes with fontStyle := attrib.fontStyle }
  | some FONT_ITALIC => { currentAttributes with fontItalic := attrib.fontItalic }
  | some FONT_UNDERLINE => { currentAttributes with fontUnderline := attrib.fontUnderline }
  | some BORDER_TYPE => { currentAttributes with borderType := attrib.borderType }
  | some BORDER_COLOR => { currentAttributes with borderColor := attrib.borderColor }
  | some EDGE_TYPE => { currentAttributes with edgeType := attrib.edgeType }
  | some EDGE_COLOR => { currentAttributes with edgeColor := attrib.edgeColor }
  | none => currentAttributes

/-! ## The controller -/

/-- A call of `sendCCSetAttribute`, with the memory behind the style it is given. -/
structure SetCall where
  attrib : CcAttributes
  type : Int16
  ccType : UInt32
  behind : Bytes

def masks : List UInt32 :=
  [FONT_COLOR.value,
    BACKGROUND_COLOR.value,
    FONT_OPACITY.value,
    BACKGROUND_OPACITY.value,
    FONT_STYLE.value,
    FONT_SIZE.value,
    FONT_ITALIC.value,
    FONT_UNDERLINE.value,
    BORDER_TYPE.value,
    BORDER_COLOR.value,
    WIN_COLOR.value,
    WIN_OPACITY.value,
    EDGE_TYPE.value,
    EDGE_COLOR.value]

namespace SetCall

/-- The `short` is promoted to `int` and then to the unsigned type of the mask. -/
def matchesMask (call : SetCall) (mask : UInt32) : Bool :=
  call.type.toInt32.toUInt32 &&& mask != 0

/-- One turn of the loop, on the current attributes and the values so far. -/
def turn (call : SetCall) (s : CcAttributes × List UInt32) (mask : UInt32) :
    CcAttributes × List UInt32 :=
  if call.matchesMask mask then
    (setValue s.1 call.attrib mask.toUInt16.toInt16,
      s.2 ++ [getValue call.attrib call.behind mask.toUInt16.toInt16])
  else (s.1, s.2 ++ [0])

/-- The value the loop stores for a mask. -/
def valueFor (call : SetCall) (mask : UInt32) : UInt32 :=
  if call.matchesMask mask then getValue call.attrib call.behind mask.toUInt16.toInt16 else 0

theorem foldl_turn_snd (call : SetCall) (s : CcAttributes × List UInt32) (ms : List UInt32) :
    (ms.foldl call.turn s).2 = s.2 ++ ms.map call.valueFor := by
  induction ms generalizing s with
  | nil => simp
  | cons mask ms ih =>
      rw [List.foldl_cons, ih, List.map_cons]
      cases hm : call.matchesMask mask <;> simp [turn, valueFor, hm]

theorem foldl_turn_length (call : SetCall) (current : CcAttributes) :
    (masks.foldl call.turn (current, [])).2.length = NUMBER_OF_ATTRIBUTES := by
  rw [foldl_turn_snd]
  simp [masks, NUMBER_OF_ATTRIBUTES]

end SetCall

/-- `sent` is what the channel has been asked to send. -/
structure CCDataController where
  currentAttributes : CcAttributes := createDefaultAttributes
  sent : List Send := []

namespace CCDataController

def sendCCSetAttribute (c : CCDataController) (call : SetCall) : CCDataController :=
  { currentAttributes := (masks.foldl call.turn (c.currentAttributes, [])).1
    sent := c.sent ++ [.CCSetAttributePacket call.ccType call.type.toInt32.toUInt32
      ⟨(masks.foldl call.turn (c.currentAttributes, [])).2,
        call.foldl_turn_length c.currentAttributes⟩] }

def ccGetAttributes (c : CCDataController) (_ccType : UInt32) : CcAttributes :=
  c.currentAttributes

end CCDataController


/-! ## Fields, positions and bits -/

namespace CcAttribType

/-- The type of the field of an attribute. -/
def Field : CcAttribType → Type
  | FONT_COLOR | BACKGROUND_COLOR | BORDER_COLOR | WIN_COLOR | EDGE_COLOR => CcColor
  | FONT_STYLE => CcFontStyle
  | FONT_OPACITY | BACKGROUND_OPACITY | FONT_SIZE | FONT_ITALIC | FONT_UNDERLINE | BORDER_TYPE
  | WIN_OPACITY | EDGE_TYPE => Int32

/-- The place of an attribute among the words of the packet, and the number of its mask bit. -/
def position : CcAttribType → Nat
  | FONT_COLOR => 0
  | BACKGROUND_COLOR => 1
  | FONT_OPACITY => 2
  | BACKGROUND_OPACITY => 3
  | FONT_STYLE => 4
  | FONT_SIZE => 5
  | FONT_ITALIC => 6
  | FONT_UNDERLINE => 7
  | BORDER_TYPE => 8
  | BORDER_COLOR => 9
  | WIN_COLOR => 10
  | WIN_OPACITY => 11
  | EDGE_TYPE => 12
  | EDGE_COLOR => 13

/-- A style is known by its number among the names, 0 where it is none of them. -/
def styleNumber (style : CcFontStyle) : Nat :=
  (valuesMap.findIdx? fun name => (name.1 ++ [0]).isPrefixOf style.val).getD 0

/-- What the packet carries for the value of an attribute. -/
def encoded : (t : CcAttribType) → t.Field → UInt32
  | FONT_COLOR | BACKGROUND_COLOR | BORDER_COLOR | WIN_COLOR | EDGE_COLOR =>
      fun color : CcColor => color.rgb.toUInt32
  | FONT_STYLE => fun style => UInt32.ofNat (styleNumber style)
  | FONT_OPACITY | BACKGROUND_OPACITY | FONT_SIZE | FONT_ITALIC | FONT_UNDERLINE | BORDER_TYPE
  | WIN_OPACITY | EDGE_TYPE => fun n : Int32 => n.toUInt32

end CcAttribType

/-- The field of an attribute. -/
def CcAttributes.field (a : CcAttributes) : (t : CcAttribType) → t.Field
  | FONT_COLOR => a.charFgColor
  | BACKGROUND_COLOR => a.charBgColor
  | FONT_OPACITY => a.charFgOpacity
  | BACKGROUND_OPACITY => a.charBgOpacity
  | FONT_STYLE => a.fontStyle
  | FONT_SIZE => a.fontSize
  | FONT_ITALIC => a.fontItalic
  | FONT_UNDERLINE => a.fontUnderline
  | BORDER_TYPE => a.borderType
  | BORDER_COLOR => a.borderColor
  | WIN_COLOR => a.winColor
  | WIN_OPACITY => a.winOpacity
  | EDGE_TYPE => a.edgeType
  | EDGE_COLOR => a.edgeColor

/-- The bit of an attribute is set in the mask of the call. -/
def SetCall.selects (call : SetCall) (t : CcAttribType) : Bool :=
  call.type.toBitVec.getLsbD t.position

/-- The value of an attribute that the packet of a call is to carry. -/
def SetCall.carried (call : SetCall) (t : CcAttribType) : UInt32 :=
  if call.selects t then t.encoded (call.attrib.field t) else 0

/-- A word of a packet, by its number. -/
def packetWord (p : Packet) (i : Nat) : Option UInt32 :=
  (Parse.read32 (p.m_buffer.drop (4 * i))).map Prod.fst

/-- The packet sent for a call has twenty words: behind a header of six, which ends with the mask,
each attribute stands in its position. -/
structure Carries (call : SetCall) (send : Send) (channelId counter : UInt32) (p : Packet) :
    Prop where
  built : (send.construction channelId counter).build = some p
  size : p.m_buffer.length = 4 * 20
  mask : packetWord p 5 = some call.type.toInt32.toUInt32
  words : ∀ t : CcAttribType, packetWord p (6 + t.position) = some (call.carried t)

/-! ## The three mappings agree -/

theorem ofShort_value (t : CcAttribType) :
    CcAttribType.ofShort t.value.toUInt16.toInt16 = some t := by
  cases t <;> rfl

theorem value_toBitVec (t : CcAttribType) : t.value.toBitVec = BitVec.twoPow 32 t.position := by
  cases t <;> rfl

theorem position_lt (t : CcAttribType) : t.position < 14 := by
  cases t <;> decide

/-- The mask of an attribute tests its bit, whatever the sign of the `short`. -/
theorem matchesMask_value (call : SetCall) (t : CcAttribType) :
    call.matchesMask t.value = call.selects t := by
  have hp := position_lt t
  have hbit : (call.type.toInt32.toUInt32 &&& t.value).toBitVec =
      if call.selects t then BitVec.twoPow 32 t.position else 0#32 := by
    rw [UInt32.toBitVec_and, value_toBitVec, BitVec.and_twoPow, Int32.toBitVec_toUInt32,
      Int16.toBitVec_toInt32, BitVec.getLsbD_signExtend]
    simp [SetCall.selects, show t.position < 32 by omega, show t.position < 16 by omega]
  unfold SetCall.matchesMask
  cases hs : call.selects t with
  | true =>
      rw [hs, if_pos rfl, ← value_toBitVec] at hbit
      rw [UInt32.toBitVec_inj.mp hbit]
      cases t <;> rfl
  | false =>
      rw [hs, if_neg Bool.false_ne_true] at hbit
      rw [show call.type.toInt32.toUInt32 &&& t.value = 0 from UInt32.toBitVec_inj.mp hbit]
      rfl

/-- Storing one attribute leaves the fields of the others. -/
theorem field_setValue (current attrib : CcAttributes) (t u : CcAttribType) :
    (setValue current attrib u.value.toUInt16.toInt16).field t =
      if t = u then attrib.field t else current.field t := by
  rw [setValue, ofShort_value]
  cases u <;> cases t <;> rfl

/-! ## Encoding a style -/

theorem valuesMap_names : ∀ name ∈ valuesMap, 0 ∉ name.1 ∧ name.1.length < 128 := by
  decide

/-- A text ends at the first zero. -/
theorem cText_eq_iff {name bytes behind : Bytes} (hname : 0 ∉ name)
    (hlen : name.length < bytes.length) :
    cText (bytes ++ behind) = name ↔ name ++ [0] <+: bytes := by
  unfold cText
  constructor
  · intro htext
    have hsplit := List.takeWhile_append_dropWhile (p := (· ≠ 0)) (l := bytes ++ behind)
    rw [htext] at hsplit
    cases hrest : (bytes ++ behind).dropWhile (· ≠ 0) with
    | nil =>
        have hall := congrArg List.length hsplit
        simp only [hrest, List.length_append, List.length_nil] at hall
        omega
    | cons zero rest =>
        have hzero : zero = 0 := by
          have hhead := List.head?_dropWhile_not (· ≠ 0) (bytes ++ behind)
          rw [hrest] at hhead
          simpa using hhead
        have hstart : name ++ [0] <+: bytes ++ behind := by
          refine ⟨rest, ?_⟩
          rw [List.append_assoc, ← hsplit, hrest, hzero]
          rfl
        exact List.prefix_of_prefix_length_le hstart (List.prefix_append bytes behind)
          (by simp only [List.length_append, List.length_singleton]; omega)
  · intro ⟨rest, hbytes⟩
    have hall : ∀ c ∈ name, decide (c ≠ 0) = true := by
      intro c hc
      exact decide_eq_true fun h => hname (h ▸ hc)
    rw [← hbytes, List.append_assoc, List.append_assoc, List.takeWhile_append_of_pos hall]
    simp

/-- In a list whose entries are numbered from `k`, the entry found is known by its index. -/
theorem find_number {entries : List (Bytes × UInt32)} {p : Bytes × UInt32 → Bool} {k : Nat}
    (h : ∀ i entry, entries[i]? = some entry → entry.2 = UInt32.ofNat (k + i)) :
    (entries.find? p).map Prod.snd = (entries.findIdx? p).map fun i => UInt32.ofNat (k + i) := by
  induction entries generalizing k with
  | nil => rfl
  | cons entry entries ih =>
      rw [List.find?_cons, List.findIdx?_cons]
      cases hp : p entry with
      | true => simp [h 0 entry rfl]
      | false =>
          have hrest := ih (k := k + 1) fun i e he => by
            rw [h (i + 1) e he, Nat.add_right_comm, Nat.add_assoc]
          simp only [Bool.false_eq_true, if_false, Option.map_map, hrest]
          congr 1
          funext i
          simp [Nat.add_assoc, Nat.add_comm 1 i]

theorem valuesMap_numbered : ∀ i entry, valuesMap[i]? = some entry →
    entry.2 = UInt32.ofNat (0 + i) := by
  intro i entry hentry
  have hall : ∀ i < 8, valuesMap[i]?.map Prod.snd = some (UInt32.ofNat (0 + i)) := by decide
  have hi := hall i (List.getElem?_eq_some_iff.mp hentry).1
  simpa [hentry] using hi

/-- The bytes behind an array without a zero do not make it a name. -/
theorem getValue_style (style : CcFontStyle) (behind : Bytes) :
    CcFontStyle.getValue style behind = UInt32.ofNat (styleNumber style) := by
  have hfind : valuesMap.find? (·.1 == cText (style.val ++ behind)) =
      valuesMap.find? fun name => (name.1 ++ [0]).isPrefixOf style.val := by
    apply List.find?_congr
    intro name hname
    have ⟨hzero, hlen⟩ := valuesMap_names name hname
    have hstyle : style.val.length = 128 := style.property
    rw [Bool.eq_iff_iff, beq_iff_eq, List.isPrefixOf_iff_prefix, eq_comm]
    exact cText_eq_iff hzero (by omega)
  have hnumber := find_number (p := fun name => (name.1 ++ [0]).isPrefixOf style.val)
    valuesMap_numbered
  rw [CcFontStyle.getValue, styleNumber, hfind]
  generalize valuesMap.find? (fun name => (name.1 ++ [0]).isPrefixOf style.val) = found at hnumber ⊢
  generalize valuesMap.findIdx? (fun name => (name.1 ++ [0]).isPrefixOf style.val) = index
    at hnumber ⊢
  cases found with
  | none =>
      have hindex : index = none := Option.map_eq_none_iff.mp hnumber.symm
      rw [hindex]
      rfl
  | some it =>
      obtain ⟨i, hi, hit⟩ : ∃ i, index = some i ∧ UInt32.ofNat i = it.2 := by
        simpa using hnumber.symm
      rw [hi]
      exact hit.symm

example : styleNumber (CharArray.zeroedWith (ascii "Casual")) = 5 := by decide

theorem getValue_value (attrib : CcAttributes) (behind : Bytes) (t : CcAttribType) :
    getValue attrib behind t.value.toUInt16.toInt16 = t.encoded (attrib.field t) := by
  rw [getValue, ofShort_value]
  cases t with
  | FONT_STYLE => exact getValue_style attrib.fontStyle behind
  | _ => rfl

/-! ## One call -/

/-- The attributes in the order of their positions. -/
def attributes : List CcAttribType :=
  [FONT_COLOR, BACKGROUND_COLOR, FONT_OPACITY, BACKGROUND_OPACITY, FONT_STYLE, FONT_SIZE,
    FONT_ITALIC, FONT_UNDERLINE, BORDER_TYPE, BORDER_COLOR, WIN_COLOR, WIN_OPACITY, EDGE_TYPE,
    EDGE_COLOR]

theorem mem_attributes (t : CcAttribType) : t ∈ attributes := by
  cases t <;> decide

theorem any_attributes (t : CcAttribType) (b : CcAttribType → Bool) :
    (attributes.any fun u => b u && decide (t = u)) = b t := by
  rw [Bool.eq_iff_iff, List.any_eq_true]
  constructor
  · intro ⟨u, _, hu⟩
    rw [Bool.and_eq_true, decide_eq_true_eq] at hu
    exact hu.2 ▸ hu.1
  · intro hb
    exact ⟨t, mem_attributes t, by simp [hb]⟩

theorem masks_eq : masks = attributes.map CcAttribType.value := rfl

/-- The loop stores the attributes the call selects. -/
theorem field_foldl_turn (call : SetCall) (current : CcAttributes) (t : CcAttribType) :
    (masks.foldl call.turn (current, [])).1.field t =
      if call.selects t then call.attrib.field t else current.field t := by
  have hstep : ∀ (s : CcAttributes × List UInt32) (u : CcAttribType),
      (call.turn s u.value).1.field t =
        if call.selects u && decide (t = u) then call.attrib.field t else s.1.field t := by
    intro s u
    unfold SetCall.turn
    rw [matchesMask_value]
    cases call.selects u with
    | true => simp [field_setValue]
    | false => simp
  rw [masks_eq, List.foldl_map,
    read_foldl (fun s : CcAttributes × List UInt32 => s.1.field t) hstep,
    lastWritten_const _ _ fun _ _ _ => rfl, any_attributes t call.selects]

theorem valueFor_value (call : SetCall) (t : CcAttribType) :
    call.valueFor t.value = call.carried t := by
  rw [SetCall.valueFor, matchesMask_value, getValue_value, SetCall.carried]

/-- What the channel is asked to send for a call. -/
def SetCall.send (call : SetCall) : Send :=
  .CCSetAttributePacket call.ccType call.type.toInt32.toUInt32
    ⟨masks.map call.valueFor, by simp [masks, NUMBER_OF_ATTRIBUTES]⟩

theorem sendCCSetAttribute_sent (c : CCDataController) (call : SetCall) :
    (c.sendCCSetAttribute call).sent = c.sent ++ [call.send] := by
  have hvalues := call.foldl_turn_snd (c.currentAttributes, []) masks
  rw [List.nil_append] at hvalues
  simp only [CCDataController.sendCCSetAttribute, SetCall.send, hvalues]

/-! ## The words of a packet -/

theorem packetWord_flatMap {p : Packet} {words : List UInt32} {i : Nat} {w : UInt32}
    (hp : p.m_buffer = words.flatMap le32) (hw : words[i]? = some w) :
    packetWord p i = some w := by
  rw [packetWord, hp]
  clear hp
  induction words generalizing i with
  | nil => cases hw
  | cons first words ih =>
      cases i with
      | zero =>
          cases hw
          rw [List.flatMap_cons, Nat.mul_zero, List.drop_zero, Parse.read32_append]
          rfl
      | succ i =>
          have hdrop : (le32 first ++ words.flatMap le32).drop (4 * (i + 1)) =
              (words.flatMap le32).drop (4 * i) := by
            rw [Nat.mul_succ, Nat.add_comm, ← List.drop_drop, List.drop_left' (le32_length first)]
          rw [List.flatMap_cons, hdrop]
          exact ih hw

theorem masks_position (t : CcAttribType) : masks[t.position]? = some t.value := by
  cases t <;> rfl

/-- The words of the packet of a call. -/
theorem send_words (call : SetCall) (channelId counter : UInt32) :
    ∃ p, (call.send.construction channelId counter).build = some p ∧ p.m_buffer =
      ([PacketType.CC_SET_ATTRIBUTE.word, counter, 68, channelId, call.ccType,
        call.type.toInt32.toUInt32] ++ masks.map call.valueFor).flatMap le32 := by
  have hvalues : (masks.map call.valueFor).length = NUMBER_OF_ATTRIBUTES := by
    simp [masks, NUMBER_OF_ATTRIBUTES]
  have hsize := Construction.flatMap_le32_length (masks.map call.valueFor)
  rw [hvalues] at hsize
  refine ⟨_, rfl, ?_⟩
  rw [Construction.ccSetAttributePacket_m_buffer]
  simp [Frame.bytes, hsize, NUMBER_OF_ATTRIBUTES]

theorem send_carries (call : SetCall) (channelId counter : UInt32) :
    ∃ p, Carries call call.send channelId counter p := by
  obtain ⟨p, hbuilt, hwords⟩ := send_words call channelId counter
  refine ⟨p, hbuilt, ?_, packetWord_flatMap hwords rfl, fun t => packetWord_flatMap hwords ?_⟩
  · rw [hwords, Construction.flatMap_le32_length]
    simp [masks]
  · rw [List.getElem?_append_right (Nat.le_add_right 6 _)]
    simp [masks_position, valueFor_value]

/-! ## Every sequence of calls -/

theorem foldl_sent (calls : List SetCall) (c : CCDataController) :
    (calls.foldl CCDataController.sendCCSetAttribute c).sent = c.sent ++ calls.map SetCall.send := by
  induction calls generalizing c with
  | nil => simp
  | cons call calls ih =>
      rw [List.foldl_cons, ih, sendCCSetAttribute_sent, List.append_assoc]
      rfl

/-- After any calls each field is that of the last call that selects it, and the packet of each
call carries its attributes. -/
theorem attributes_agree (calls : List SetCall) :
    (∀ (ccType : UInt32) (t : CcAttribType),
      ((calls.foldl CCDataController.sendCCSetAttribute {}).ccGetAttributes ccType).field t =
        lastWritten (·.selects t) (·.attrib.field t) (createDefaultAttributes.field t) calls) ∧
    List.Forall₂ (fun call send => ∀ channelId counter, ∃ p,
      Carries call send channelId counter p) calls
        (calls.foldl CCDataController.sendCCSetAttribute {}).sent := by
  constructor
  · intro ccType t
    exact read_foldl (fun c : CCDataController => c.currentAttributes.field t)
      (fun c call => field_foldl_turn call c.currentAttributes t) {} calls
  · rw [foldl_sent, List.nil_append, List.forall₂_map_right_iff, List.forall₂_same]
    exact fun call _ => send_carries call

end PlayerInterface.ClosedCaptions
