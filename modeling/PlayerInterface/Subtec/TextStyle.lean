import PlayerInterface.Core.LastWrite
import PlayerInterface.Drm.PlayReadyHelper
import PlayerInterface.Json.PlayerJsonObject
import PlayerInterface.Subtec.Packet
import Mathlib.Data.List.Basic

/-!
# Text style options

Each of ten style keys has a table of values and a place in the attribute array. The value of a
key goes to its place, whose bit is set in the mask. The lookup of a key takes the first entry
whose name is the key up to letter case.
-/

namespace PlayerInterface.Subtec

open PlayerInterface.Core Json
open Drm (ascii)

/-! ## Tables -/

/-- The texts of a value, in lower case, and the value. -/
abbrev StyleTable := List (List Bytes × UInt32)

/-- What the five functions below do with their table. -/
def styleValue (table : StyleTable) (input : Bytes) : Option UInt32 :=
  if input.isEmpty then none
  else (table.find? fun row => row.1.contains (input.map tolower)).map Prod.snd

/-- The enumerator -1 of every table but that of the colours. -/
def VALUE_EMBEDDED : UInt32 := 0xFFFFFFFF

def fontSizes : StyleTable :=
  [([ascii "small"], 0),
    ([ascii "standard", ascii "medium"], 1),
    ([ascii "large"], 2),
    ([ascii "extra_large"], 3),
    ([ascii "auto"], VALUE_EMBEDDED)]

def fontStyles : StyleTable :=
  [([ascii "default"], 0),
    ([ascii "monospaced_serif", ascii "monospaced serif"], 1),
    ([ascii "proportional_serif", ascii "proportional serif"], 2),
    ([ascii "monospaced_sanserif", ascii "monospaced sans serif"], 3),
    ([ascii "proportional_sanserif", ascii "proportional sans serif"], 4),
    ([ascii "casual"], 5),
    ([ascii "cursive"], 6),
    ([ascii "smallcaps", ascii "small capital"], 7),
    ([ascii "auto"], VALUE_EMBEDDED)]

def ColorMapTable : StyleTable :=
  [([ascii "black"], 0x00000000),
    ([ascii "white"], 0x00FFFFFF),
    ([ascii "red"], 0x00FF0000),
    ([ascii "green"], 0x0000FF00),
    ([ascii "blue"], 0x000000FF),
    ([ascii "yellow"], 0x00FFFF00),
    ([ascii "magenta"], 0x00FF00FF),
    ([ascii "cyan"], 0x0000FFFF),
    ([ascii "auto"], 0xFF000000)]

def edgeTypes : StyleTable :=
  [([ascii "none"], 0),
    ([ascii "raised"], 1),
    ([ascii "depressed"], 2),
    ([ascii "uniform"], 3),
    ([ascii "drop_shadow_left", ascii "left drop shadow"], 4),
    ([ascii "drop_shadow_right", ascii "right drop shadow"], 5),
    ([ascii "auto"], VALUE_EMBEDDED)]

def opacities : StyleTable :=
  [([ascii "solid"], 0),
    ([ascii "flash"], 1),
    ([ascii "translucent"], 2),
    ([ascii "transparent"], 3),
    ([ascii "auto"], VALUE_EMBEDDED)]

def getFontSize (input : Bytes) : Option UInt32 := styleValue fontSizes input

def getFontStyle (input : Bytes) : Option UInt32 := styleValue fontStyles input

def getColor (input : Bytes) : Option UInt32 := styleValue ColorMapTable input

def getEdgeType (input : Bytes) : Option UInt32 := styleValue edgeTypes input

def getOpacity (input : Bytes) : Option UInt32 := styleValue opacities input

/-! ## Keys -/

inductive AttribPosInArray where
  | FONT_COLOR_ARR_POSITION
  | BACKGROUND_COLOR_ARR_POSITION
  | FONT_OPACITY_ARR_POSITION
  | BACKGROUND_OPACITY_ARR_POSITION
  | FONT_STYLE_ARR_POSITION
  | FONT_SIZE_ARR_POSITION
  | FONT_ITALIC_ARR_POSITION
  | FONT_UNDERLINE_ARR_POSITION
  | BORDER_TYPE_ARR_POSITION
  | BORDER_COLOR_ARR_POSITION
  | WIN_COLOR_ARR_POSITION
  | WIN_OPACITY_ARR_POSITION
  | EDGE_TYPE_ARR_POSITION
  | EDGE_COLOR_ARR_POSITION
deriving DecidableEq, Repr

open AttribPosInArray

def AttribPosInArray.index : AttribPosInArray → Nat
  | FONT_COLOR_ARR_POSITION => 0
  | BACKGROUND_COLOR_ARR_POSITION => 1
  | FONT_OPACITY_ARR_POSITION => 2
  | BACKGROUND_OPACITY_ARR_POSITION => 3
  | FONT_STYLE_ARR_POSITION => 4
  | FONT_SIZE_ARR_POSITION => 5
  | FONT_ITALIC_ARR_POSITION => 6
  | FONT_UNDERLINE_ARR_POSITION => 7
  | BORDER_TYPE_ARR_POSITION => 8
  | BORDER_COLOR_ARR_POSITION => 9
  | WIN_COLOR_ARR_POSITION => 10
  | WIN_OPACITY_ARR_POSITION => 11
  | EDGE_TYPE_ARR_POSITION => 12
  | EDGE_COLOR_ARR_POSITION => 13

/-- A block of `getAttributes`: the key it gets, the function its value is passed to, and the
position it writes. -/
structure StyleKey where
  name : Bytes
  getter : Bytes → Option UInt32
  position : AttribPosInArray

/-- The blocks in their order. -/
def styleKeys : List StyleKey :=
  [⟨ascii "penSize", getFontSize, FONT_SIZE_ARR_POSITION⟩,
    ⟨ascii "fontStyle", getFontStyle, FONT_STYLE_ARR_POSITION⟩,
    ⟨ascii "textForegroundColor", getColor, FONT_COLOR_ARR_POSITION⟩,
    ⟨ascii "textBackgroundColor", getColor, BACKGROUND_COLOR_ARR_POSITION⟩,
    ⟨ascii "textEdgeStyle", getEdgeType, EDGE_TYPE_ARR_POSITION⟩,
    ⟨ascii "textEdgeColor", getColor, EDGE_COLOR_ARR_POSITION⟩,
    ⟨ascii "textBackgroundOpacity", getOpacity, BACKGROUND_OPACITY_ARR_POSITION⟩,
    ⟨ascii "textForegroundOpacity", getOpacity, FONT_OPACITY_ARR_POSITION⟩,
    ⟨ascii "windowFillColor", getColor, WIN_COLOR_ARR_POSITION⟩,
    ⟨ascii "windowFillOpacity", getOpacity, WIN_OPACITY_ARR_POSITION⟩]

/-- What `getAttributes` returns and leaves in its two output arguments. -/
structure StyleResult where
  retVal : Int
  attributesValues : AttributesType
  attributesMask : UInt32

namespace StyleResult

/-- The bit of the position is set and the value written there. -/
def assign (r : StyleResult) (position : AttribPosInArray) (value : UInt32) : StyleResult :=
  { r with
    attributesMask := r.attributesMask ||| (1 <<< UInt32.ofNat position.index)
    attributesValues := ⟨r.attributesValues.val.set position.index value, by
      rw [List.length_set]; exact r.attributesValues.property⟩ }

/-- One block. -/
def apply (inputOptions : cJSON) (r : StyleResult) (k : StyleKey) : StyleResult :=
  match (inputOptions.getString k.name).bind k.getter with
  | some value => r.assign k.position value
  | none => r

end StyleResult

/-- The initial mask is overwritten whatever the options. -/
def getAttributes (lib : JsonLibrary) (options : Bytes) (attributesValues : AttributesType)
    (_attributesMask : UInt32) : StyleResult :=
  if options.isEmpty then ⟨-1, attributesValues, 0⟩
  else
    match lib.PlayerJsonObject options with
    | some inputOptions => styleKeys.foldl (StyleResult.apply inputOptions) ⟨0, attributesValues, 0⟩
    | none => ⟨-1, attributesValues, 0⟩


/-! ## What a key assigns -/

/-- The table of a key. -/
def StyleKey.table (k : StyleKey) : StyleTable :=
  match k.position with
  | FONT_SIZE_ARR_POSITION => fontSizes
  | FONT_STYLE_ARR_POSITION => fontStyles
  | EDGE_TYPE_ARR_POSITION => edgeTypes
  | FONT_OPACITY_ARR_POSITION | BACKGROUND_OPACITY_ARR_POSITION | WIN_OPACITY_ARR_POSITION =>
      opacities
  | _ => ColorMapTable

/-- The table has the text, in some letter case, with the value. -/
def Supports (table : StyleTable) (text : Bytes) (value : UInt32) : Prop :=
  ∃ row ∈ table, text.map tolower ∈ row.1 ∧ row.2 = value

/-- The first entry of the object with the name, in some letter case, is the string. -/
def FirstString (obj : cJSON) (name valuestring : Bytes) : Prop :=
  ∃ before written after, obj = .object (before ++ (written, .string valuestring) :: after) ∧
    written.map tolower = name.map tolower ∧
    ∀ entry ∈ before, entry.1.map tolower ≠ name.map tolower

/-- The object gives a key a supported value; a string ends at its first zero. -/
def StyleKey.Assigned (k : StyleKey) (obj : cJSON) (value : UInt32) : Prop :=
  ∃ valuestring, FirstString obj k.name valuestring ∧ Supports k.table (cText valuestring) value

/-- The outcome for an object: the bits are those of the keys with a supported value, the entries
of these hold the value, and the other entries are as before. -/
structure Reflects (obj : cJSON) (before : AttributesType) (r : StyleResult) : Prop where
  success : r.retVal = 0
  mask : ∀ i, r.attributesMask.toBitVec.getLsbD i = true ↔
    ∃ k ∈ styleKeys, ∃ value, k.position.index = i ∧ k.Assigned obj value
  assigned : ∀ k ∈ styleKeys, ∀ value, k.Assigned obj value →
    r.attributesValues.val[k.position.index]? = some value
  unchanged : ∀ i, (∀ k ∈ styleKeys, ∀ value, k.Assigned obj value → k.position.index ≠ i) →
    r.attributesValues.val[i]? = before.val[i]?

/-! ## Reading one key -/

theorem GetObjectItem_eq_some_iff {obj item : cJSON} {name : Bytes} :
    obj.GetObjectItem name = some item ↔
      ∃ before written after, obj = .object (before ++ (written, item) :: after) ∧
        written.map tolower = name.map tolower ∧
        ∀ entry ∈ before, entry.1.map tolower ≠ name.map tolower := by
  cases obj with
  | object items =>
      unfold cJSON.GetObjectItem
      rw [Option.map_eq_some_iff]
      constructor
      · intro ⟨entry, hfind, hitem⟩
        obtain ⟨hname, before, after, hitems, hbefore⟩ := List.find?_eq_some_iff_append.mp hfind
        refine ⟨before, entry.1, after, ?_, of_decide_eq_true hname, fun e he => ?_⟩
        · rw [hitems, ← hitem]
        · simpa using hbefore e he
      · intro ⟨before, written, after, hobj, hname, hbefore⟩
        cases hobj
        refine ⟨(written, item), ?_, rfl⟩
        apply List.find?_eq_some_iff_append.mpr
        exact ⟨decide_eq_true hname, before, after, rfl, fun e he => by simpa using hbefore e he⟩
  | _ => simp [cJSON.GetObjectItem]

theorem GetStringValue_eq_some_iff {item : cJSON} {valuestring : Bytes} :
    item.GetStringValue = some valuestring ↔ item = .string valuestring := by
  cases item <;> simp [cJSON.GetStringValue]

theorem getString_eq_some_iff {obj : cJSON} {name text : Bytes} :
    obj.getString name = some text ↔
      ∃ valuestring, FirstString obj name valuestring ∧ cText valuestring = text := by
  simp only [cJSON.getString, Option.map_eq_some_iff, Option.bind_eq_some_iff,
    GetStringValue_eq_some_iff, GetObjectItem_eq_some_iff, FirstString]
  constructor
  · intro ⟨valuestring, ⟨item, hitem, hstring⟩, htext⟩
    exact ⟨valuestring, hstring ▸ hitem, htext⟩
  · intro ⟨valuestring, hfirst, htext⟩
    exact ⟨valuestring, ⟨_, hfirst, rfl⟩, htext⟩

/-- Where no text stands in two rows, the first row found is the only one. -/
theorem styleValue_eq_some_iff {table : StyleTable} (hnodup : (table.flatMap Prod.fst).Nodup)
    (hnil : [] ∉ table.flatMap Prod.fst) {input : Bytes} {value : UInt32} :
    styleValue table input = some value ↔ Supports table input value := by
  unfold styleValue Supports
  cases input with
  | nil =>
      constructor
      · intro h
        cases h
      · intro ⟨row, hrow, htext, _⟩
        exact absurd (List.mem_flatMap.mpr ⟨row, hrow, htext⟩) hnil
  | cons c rest =>
      rw [List.isEmpty_cons, if_neg Bool.false_ne_true, Option.map_eq_some_iff]
      constructor
      · intro ⟨row, hfind, hvalue⟩
        have htext := List.find?_some hfind
        exact ⟨row, List.mem_of_find?_eq_some hfind, by simpa using htext, hvalue⟩
      · intro ⟨row, hrow, htext, hvalue⟩
        refine ⟨row, ?_, hvalue⟩
        obtain ⟨before, after, htable⟩ := List.append_of_mem hrow
        rw [htable, List.flatMap_append, List.nodup_append] at hnodup
        apply List.find?_eq_some_iff_append.mpr
        refine ⟨by simpa using htext, before, after, htable, fun other hother => ?_⟩
        have hother' : (c :: rest).map tolower ∉ other.1 := fun hmem =>
          hnodup.2.2 _ (List.mem_flatMap.mpr ⟨other, hother, hmem⟩) _
            (List.mem_flatMap.mpr ⟨row, List.mem_cons_self, htext⟩) rfl
        simpa using hother'

theorem getter_eq {k : StyleKey} (hk : k ∈ styleKeys) : k.getter = styleValue k.table := by
  have hall : styleKeys.Forall fun k => k.getter = styleValue k.table := by
    simp only [styleKeys, List.forall_cons]
    exact ⟨rfl, rfl, rfl, rfl, rfl, rfl, rfl, rfl, rfl, rfl, trivial⟩
  exact List.forall_iff_forall_mem.mp hall k hk

theorem tables_nodup (k : StyleKey) : (k.table.flatMap Prod.fst).Nodup := by
  unfold StyleKey.table
  split <;> decide

theorem tables_nil (k : StyleKey) : [] ∉ k.table.flatMap Prod.fst := by
  unfold StyleKey.table
  split <;> decide

/-- The value a block gets for its key. -/
def StyleKey.valueIn (k : StyleKey) (obj : cJSON) : Option UInt32 :=
  (obj.getString k.name).bind k.getter

theorem valueIn_eq_some_iff {k : StyleKey} (hk : k ∈ styleKeys) {obj : cJSON} {value : UInt32} :
    k.valueIn obj = some value ↔ k.Assigned obj value := by
  rw [StyleKey.valueIn, getter_eq hk, Option.bind_eq_some_iff]
  simp only [getString_eq_some_iff, styleValue_eq_some_iff (tables_nodup k) (tables_nil k)]
  constructor
  · intro ⟨text, ⟨valuestring, hfirst, htext⟩, hvalue⟩
    exact ⟨valuestring, hfirst, htext ▸ hvalue⟩
  · intro ⟨valuestring, hfirst, hvalue⟩
    exact ⟨_, ⟨valuestring, hfirst, rfl⟩, hvalue⟩

/-! ## The blocks -/

theorem apply_eq (obj : cJSON) (r : StyleResult) (k : StyleKey) :
    r.apply obj k = match k.valueIn obj with
      | some value => r.assign k.position value
      | none => r := rfl

theorem assign_mask (r : StyleResult) (p : AttribPosInArray) (value : UInt32) (i : Nat) :
    (r.assign p value).attributesMask.toBitVec.getLsbD i =
      (r.attributesMask.toBitVec.getLsbD i || decide (p.index = i)) := by
  have hbit : (1 <<< UInt32.ofNat p.index : UInt32).toBitVec = BitVec.twoPow 32 p.index := by
    cases p <;> rfl
  have hlt : p.index < 32 := by cases p <;> decide
  rw [StyleResult.assign, UInt32.toBitVec_or, BitVec.getLsbD_or, hbit, BitVec.getLsbD_twoPow]
  simp [hlt]

theorem assign_values (r : StyleResult) (p : AttribPosInArray) (value : UInt32) (i : Nat) :
    (r.assign p value).attributesValues.val[i]? =
      if p.index = i then some value else r.attributesValues.val[i]? := by
  have hlt : p.index < r.attributesValues.val.length := by
    rw [r.attributesValues.property]
    cases p <;> decide
  rw [StyleResult.assign, List.getElem?_set]
  simp [hlt]

/-- The key gives a value for the position. -/
def StyleKey.writesAt (obj : cJSON) (i : Nat) (k : StyleKey) : Bool :=
  decide (k.position.index = i) && (k.valueIn obj).isSome

theorem apply_mask (obj : cJSON) (i : Nat) (r : StyleResult) (k : StyleKey) :
    (r.apply obj k).attributesMask.toBitVec.getLsbD i =
      if k.writesAt obj i then true else r.attributesMask.toBitVec.getLsbD i := by
  rw [apply_eq, StyleKey.writesAt]
  cases k.valueIn obj with
  | some value => by_cases hi : k.position.index = i <;> simp [assign_mask, hi]
  | none => simp

theorem apply_values (obj : cJSON) (i : Nat) (r : StyleResult) (k : StyleKey) :
    (r.apply obj k).attributesValues.val[i]? =
      if k.writesAt obj i then k.valueIn obj else r.attributesValues.val[i]? := by
  rw [apply_eq, StyleKey.writesAt]
  cases k.valueIn obj with
  | some value => by_cases hi : k.position.index = i <;> simp [assign_values, hi]
  | none => simp

theorem apply_retVal (obj : cJSON) (r : StyleResult) (k : StyleKey) :
    (r.apply obj k).retVal = r.retVal := by
  rw [apply_eq]
  cases k.valueIn obj <;> rfl

theorem foldl_apply_retVal (obj : cJSON) (r : StyleResult) (keys : List StyleKey) :
    (keys.foldl (StyleResult.apply obj) r).retVal = r.retVal := by
  induction keys generalizing r with
  | nil => rfl
  | cons k keys ih => rw [List.foldl_cons, ih, apply_retVal]

/-- No two blocks write one position. -/
theorem position_inj {k k' : StyleKey} (hk : k ∈ styleKeys) (hk' : k' ∈ styleKeys)
    (h : k.position.index = k'.position.index) : k = k' := by
  have hnodup : (styleKeys.map fun k => k.position.index).Nodup := by decide
  exact List.inj_on_of_nodup_map hnodup hk hk' h

theorem any_writesAt {obj : cJSON} {i : Nat} :
    styleKeys.any (StyleKey.writesAt obj i) = true ↔
      ∃ k ∈ styleKeys, ∃ value, k.position.index = i ∧ k.Assigned obj value := by
  rw [List.any_eq_true]
  constructor
  · intro ⟨k, hk, hw⟩
    rw [StyleKey.writesAt, Bool.and_eq_true, decide_eq_true_eq, Option.isSome_iff_exists] at hw
    obtain ⟨hi, value, hvalue⟩ := hw
    exact ⟨k, hk, value, hi, (valueIn_eq_some_iff hk).mp hvalue⟩
  · intro ⟨k, hk, value, hi, hassigned⟩
    refine ⟨k, hk, ?_⟩
    rw [StyleKey.writesAt, (valueIn_eq_some_iff hk).mpr hassigned]
    simp [hi]

/-- The blocks together. -/
theorem foldl_apply_reflects (obj : cJSON) (before : AttributesType) :
    Reflects obj before (styleKeys.foldl (StyleResult.apply obj) ⟨0, before, 0⟩) where
  success := foldl_apply_retVal obj ⟨0, before, 0⟩ styleKeys
  mask i := by
    rw [read_foldl (fun r : StyleResult => r.attributesMask.toBitVec.getLsbD i)
      (apply_mask obj i), lastWritten_const _ _ fun _ _ _ => rfl, ← any_writesAt]
    simp
  assigned k hk value hassigned := by
    have hvalue := (valueIn_eq_some_iff hk).mpr hassigned
    rw [read_foldl (fun r : StyleResult => r.attributesValues.val[k.position.index]?)
      (apply_values obj k.position.index)]
    have honly : ∀ k' ∈ styleKeys, k'.writesAt obj k.position.index = true →
        k'.valueIn obj = some value := by
      intro k' hk' hw
      rw [StyleKey.writesAt, Bool.and_eq_true, decide_eq_true_eq] at hw
      rw [position_inj hk' hk hw.1, hvalue]
    rw [lastWritten_const _ _ honly, if_pos (any_writesAt.mpr ⟨k, hk, value, rfl, hassigned⟩)]
  unchanged i hnone := by
    rw [read_foldl (fun r : StyleResult => r.attributesValues.val[i]?)
      (apply_values obj i)]
    apply lastWritten_none
    rw [Bool.eq_false_iff, Ne, any_writesAt]
    intro ⟨k, hk, value, hi, hassigned⟩
    exact hnone k hk value hassigned hi

/-! ## Every options text -/

theorem PlayerJsonObject_nil (lib : JsonLibrary) : lib.PlayerJsonObject [] = none :=
  lib.parse_empty

/-- Only a text that is parsed changes the array, and then as its first entries say. -/
theorem getAttributes_reflects (lib : JsonLibrary) (options : Bytes) (before : AttributesType)
    (mask : UInt32) :
    getAttributes lib [] before mask = ⟨-1, before, 0⟩ ∧
      match lib.PlayerJsonObject options with
      | some obj => Reflects obj before (getAttributes lib options before mask)
      | none => getAttributes lib options before mask = ⟨-1, before, 0⟩ := by
  refine ⟨rfl, ?_⟩
  unfold getAttributes
  cases options with
  | nil =>
      rw [PlayerJsonObject_nil]
      rfl
  | cons c rest =>
      rw [List.isEmpty_cons, if_neg Bool.false_ne_true]
      cases lib.PlayerJsonObject (c :: rest) with
      | some obj => exact foldl_apply_reflects obj before
      | none => rfl

/-! ## A key hidden by another -/

/-- An entry of exactly the name of a key has a supported value. -/
def StyleKey.Present (k : StyleKey) (obj : cJSON) (value : UInt32) : Prop :=
  ∃ items valuestring, obj = .object items ∧ (k.name, .string valuestring) ∈ items ∧
    Supports k.table (cText valuestring) value

/-- The bits are those of the keys present with a supported value. -/
def MasksPresent (lib : JsonLibrary) (options : Bytes) (before : AttributesType) (mask : UInt32) :
    Prop :=
  ∀ obj, lib.PlayerJsonObject options = some obj →
    ∀ i, (getAttributes lib options before mask).attributesMask.toBitVec.getLsbD i = true ↔
      ∃ k ∈ styleKeys, ∃ value, k.position.index = i ∧ k.Present obj value

def hiddenOptions : Bytes := ascii "\x7b\"PENSIZE\":\"bogus\",\"penSize\":\"small\"\x7d"

def hiddenObject : cJSON :=
  .object [(ascii "PENSIZE", .string (ascii "bogus")), (ascii "penSize", .string (ascii "small"))]

/-- A parser, as it does with the one text. -/
def hiddenLibrary : JsonLibrary where
  cJSON_Parse text := if text = hiddenOptions then some hiddenObject else none
  parse_empty := if_neg (by decide)
  outOfInt n := n

theorem PENSIZE_hides_penSize :
    ¬ MasksPresent hiddenLibrary hiddenOptions ⟨List.replicate 14 0, rfl⟩ 0 := by
  intro h
  have hparse : hiddenLibrary.PlayerJsonObject hiddenOptions = some hiddenObject := by
    have htext : cText hiddenOptions = hiddenOptions := by decide
    rw [JsonLibrary.PlayerJsonObject, htext]
    show (if hiddenOptions = hiddenOptions then some hiddenObject else none) = some hiddenObject
    exact if_pos rfl
  have hsmall : Supports fontSizes (cText (ascii "small")) 0 :=
    ⟨([ascii "small"], 0), List.mem_cons_self, by decide, rfl⟩
  have hbit := (h hiddenObject hparse 5).mpr
    ⟨⟨ascii "penSize", getFontSize, FONT_SIZE_ARR_POSITION⟩, List.mem_cons_self, 0, rfl, _, _, rfl,
      List.mem_cons_of_mem _ List.mem_cons_self, hsmall⟩
  unfold getAttributes at hbit
  rw [hparse] at hbit
  exact absurd hbit (by decide)

end PlayerInterface.Subtec
