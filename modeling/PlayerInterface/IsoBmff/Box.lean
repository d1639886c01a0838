import PlayerInterface.Core.Reader

/-!
# ISO-BMFF boxes and their leaf parsers

The box objects of `playerisobmffbox.h` with every field a getter, a setter or a
truncation uses, and one reader for each `constructXxxBox`. A reader starts
behind the size and type words; pointers into the buffer are indices.
-/

namespace PlayerInterface.IsoBmff

open PlayerInterface.Core Reader

/-! ## Box types -/

structure FourCC where
  b0 : UInt8
  b1 : UInt8
  b2 : UInt8
  b3 : UInt8
deriving DecidableEq, Repr

def FourCC.bytes (t : FourCC) : Bytes := [t.b0, t.b1, t.b2, t.b3]

def fourcc (a b c d : Char) : FourCC :=
  ⟨.ofNat a.toNat, .ofNat b.toNat, .ofNat c.toNat, .ofNat d.toNat⟩

def MOOV : FourCC := fourcc 'm' 'o' 'o' 'v'
def TRAK : FourCC := fourcc 't' 'r' 'a' 'k'
def MDIA : FourCC := fourcc 'm' 'd' 'i' 'a'
def MOOF : FourCC := fourcc 'm' 'o' 'o' 'f'
def TRAF : FourCC := fourcc 't' 'r' 'a' 'f'
def TFHD : FourCC := fourcc 't' 'f' 'h' 'd'
def TFDT : FourCC := fourcc 't' 'f' 'd' 't'
def TRUN : FourCC := fourcc 't' 'r' 'u' 'n'
def MVHD : FourCC := fourcc 'm' 'v' 'h' 'd'
def MDHD : FourCC := fourcc 'm' 'd' 'h' 'd'
def EMSG : FourCC := fourcc 'e' 'm' 's' 'g'
def PRFT : FourCC := fourcc 'p' 'r' 'f' 't'
def SIDX : FourCC := fourcc 's' 'i' 'd' 'x'
def MDAT : FourCC := fourcc 'm' 'd' 'a' 't'
def SENC : FourCC := fourcc 's' 'e' 'n' 'c'
def SAIZ : FourCC := fourcc 's' 'a' 'i' 'z'
def TKHD : FourCC := fourcc 't' 'k' 'h' 'd'
def UKWN : FourCC := fourcc 'U' 'K' 'W' 'N'

/-! ## Box objects -/

/-- The `IsoBmffBox` members. `base` is unset until `setBase` is called. -/
structure BoxHeader where
  base : Option Nat := none
  offset : Nat := 0
  size : Nat
  type : FourCC
deriving DecidableEq, Repr

/-- The members each `FullIsoBmffBox` subclass adds. -/
inductive FullBody where
  | mvhd (timeScale timeScale_loc : Nat)
  | mdhd (timeScale timeScale_loc : Nat)
  | tfdt (baseMDT baseMDT_loc : Nat)
  | emsg (timeScale eventDuration id presentationTimeDelta presentationTime : Nat)
      (schemeIdUri value messageData : Option Bytes) (messageLen : Nat)
  | trun (duration sample_count sample_count_loc : Nat) (first_sample_duration_loc : Option Nat)
      (mFirstSampleSize mFlags : Nat)
  | tfhd (mDefaultSampleDuration : Nat) (default_sample_duration_location : Option Nat)
      (mDefaultSampleSize mFlags : Nat)
  | prft (track_id ntp_ts media_time : Nat)
  | sidx (timeScale duration : Nat)
  | senc (sampleCountLoc numSamples : Nat)
  | saiz (sampleCountLoc numSamples firstSampleInfoSize : Nat)
deriving DecidableEq, Repr

inductive IsoBmffBox where
  | plain (hdr : BoxHeader)
  | mdat (hdr : BoxHeader)
  | full (hdr : BoxHeader) (version flags : Nat) (body : FullBody)
  | container (hdr : BoxHeader) (children : List IsoBmffBox)
  | trak (hdr : BoxHeader) (children : List IsoBmffBox) (track_id : Nat)

namespace IsoBmffBox

def header : IsoBmffBox → BoxHeader
  | plain hdr => hdr
  | mdat hdr => hdr
  | full hdr _ _ _ => hdr
  | container hdr _ => hdr
  | trak hdr _ _ => hdr

def getSize (box : IsoBmffBox) : Nat := box.header.size

def getType (box : IsoBmffBox) : FourCC := box.header.type

def getOffset (box : IsoBmffBox) : Nat := box.header.offset

def setOffset (os : Nat) : IsoBmffBox → IsoBmffBox
  | plain hdr => plain { hdr with offset := os }
  | mdat hdr => mdat { hdr with offset := os }
  | full hdr version flags body => full { hdr with offset := os } version flags body
  | container hdr children => container { hdr with offset := os } children
  | trak hdr children track_id => trak { hdr with offset := os } children track_id

@[simp] theorem getSize_setOffset (box : IsoBmffBox) (os : Nat) :
    (box.setOffset os).getSize = box.getSize := by
  cases box <;> rfl

@[simp] theorem getOffset_setOffset (box : IsoBmffBox) (os : Nat) :
    (box.setOffset os).getOffset = os := by
  cases box <;> rfl

@[simp] theorem getType_setOffset (box : IsoBmffBox) (os : Nat) :
    (box.setOffset os).getType = box.getType := by
  cases box <;> rfl

end IsoBmffBox

/-! ## Flags -/

def TRUN_FLAG_DATA_OFFSET_PRESENT : Nat := 0x0001
def TRUN_FLAG_FIRST_SAMPLE_FLAGS_PRESENT : Nat := 0x0004
def TRUN_FLAG_SAMPLE_DURATION_PRESENT : Nat := 0x0100
def TRUN_FLAG_SAMPLE_SIZE_PRESENT : Nat := 0x0200
def TRUN_FLAG_SAMPLE_FLAGS_PRESENT : Nat := 0x0400
def TRUN_FLAG_SAMPLE_COMPOSITION_TIME_OFFSET_PRESENT : Nat := 0x0800

def TFHD_FLAG_BASE_DATA_OFFSET_PRESENT : Nat := 0x00001
def TFHD_FLAG_SAMPLE_DESCRIPTION_INDEX_PRESENT : Nat := 0x00002
def TFHD_FLAG_DEFAULT_SAMPLE_DURATION_PRESENT : Nat := 0x00008
def TFHD_FLAG_DEFAULT_SAMPLE_SIZE_PRESENT : Nat := 0x00010

def SAIZ_FLAG_AUX_INFO_TYPE_PRESENT : Nat := 0x0001

/-- Bytes of an optional field: its width when the flag is set. -/
def ifFlag (flags mask width : Nat) : Nat := if flags &&& mask ≠ 0 then width else 0

/-- Bytes of a field whose width depends on the version. -/
def ifVersion (version expected yes no : Nat) : Nat := if version = expected then yes else no

/-- Subtraction of 32-bit unsigned words. -/
def sub32 (a b : Nat) : Nat := (a + 2 ^ 32 - b % 2 ^ 32) % 2 ^ 32

/-! ## Leaf parsers -/

/-- The part `constructMvhdBox` and `constructMdhdBox` share: the body kind is
the only difference between the two functions. -/
def constructTimeScaleBox (type : FourCC) (body : Nat → Nat → FullBody) (sz : Nat) :
    Reader IsoBmffBox := do
  let start ← tell
  let version ← readBe 1
  let flags ← readBe 3
  skip (ifVersion version 1 16 8)
  let tScale_loc ← tell
  let tScale ← readBe 4
  pure (.full { base := some (start - 8), size := sz, type } version flags
    (body tScale tScale_loc))

def constructMvhdBox : Nat → Reader IsoBmffBox := constructTimeScaleBox MVHD .mvhd

def constructMdhdBox : Nat → Reader IsoBmffBox := constructTimeScaleBox MDHD .mdhd

def constructTfdtBox (sz : Nat) : Reader IsoBmffBox := do
  let version ← readBe 1
  let flags ← readBe 3
  let mdt_loc ← tell
  let mdt ← readBe (ifVersion version 1 8 4)
  pure (.full { size := sz, type := TFDT } version flags (.tfdt mdt mdt_loc))

/-- `ReadCStringLenFromBuffer`: scheme and value are both read through it. -/
def ReadCStringLenFromBuffer (bufferLen : Nat) : Reader Int := cstringLen bufferLen

/-- The scheme and value of an emsg and the size that remains behind them. -/
structure EmsgStrings where
  schemeId : Option Bytes
  schemeIdValue : Option Bytes
  remainingSize : Nat
deriving DecidableEq, Repr

/-- The value string behind the scheme. -/
def readEmsgValue (schemeId : Bytes) (remainingSize : Nat) : Reader EmsgStrings := do
  let schemeIdValueLen ← ReadCStringLenFromBuffer remainingSize
  readIf (0 < schemeIdValueLen) ⟨some schemeId, none, remainingSize⟩ do
    let schemeIdValue ← readBytes schemeIdValueLen.toNat
    pure ⟨some schemeId, some schemeIdValue, sub32 remainingSize schemeIdValueLen.toNat⟩

/-- Both versions of the box read the strings by the same statements, at different places. -/
def readEmsgStrings (remainingSize : Nat) : Reader EmsgStrings := do
  let schemeIdLen ← ReadCStringLenFromBuffer remainingSize
  readIf (0 < schemeIdLen) ⟨none, none, remainingSize⟩ do
    let schemeId ← readBytes schemeIdLen.toNat
    readEmsgValue schemeId (sub32 remainingSize schemeIdLen.toNat)

/-- The message behind the fixed fields and the strings. -/
def readEmsgMessage (remainingSize : Nat) : Reader (Option Bytes × Nat) :=
  readIf (0 < remainingSize) (none, 0) do
    let message ← readBytes remainingSize
    pure (some message, remainingSize)

/-- The statements behind the version test of `constructEmsgBox`. -/
def emsgFields (sz version flags remainingSize : Nat) : Reader IsoBmffBox :=
  if version = 1 then do
    let tScale ← readBe 4
    let presTime ← readBe 8
    let evtDur ← readBe 4
    let boxId ← readBe 4
    let strings ← readEmsgStrings (sub32 remainingSize 20)
    let message ← readEmsgMessage strings.remainingSize
    pure (.full { size := sz, type := EMSG } version flags
      (.emsg tScale evtDur boxId 0 presTime strings.schemeId strings.schemeIdValue message.1
        message.2))
  else if version = 0 then do
    let strings ← readEmsgStrings remainingSize
    let tScale ← readBe 4
    let presTimeDelta ← readBe 4
    let evtDur ← readBe 4
    let boxId ← readBe 4
    let message ← readEmsgMessage (sub32 strings.remainingSize 16)
    pure (.full { size := sz, type := EMSG } version flags
      (.emsg tScale evtDur boxId presTimeDelta 0 strings.schemeId strings.schemeIdValue message.1
        message.2))
  else
    -- unsupported version: an object without fields
    pure (.full { size := sz, type := EMSG } version flags (.emsg 0 0 0 0 0 none none none 0))

def constructEmsgBox (sz : Nat) : Reader IsoBmffBox := do
  let version ← readBe 1
  let flags ← readBe 3
  emsgFields sz version flags (sub32 sz 12)

/-- What the sample loop of a trun carries from one sample to the next. -/
structure TrunTotals where
  totalSampleDuration : Nat := 0
  firstSampleDurationLoc : Option Nat := none
  firstSampleSize : Nat := 0
deriving DecidableEq, Repr

/-- One sample record; `first` is the loop's `i == 0`. -/
def trunSample (flags : Nat) (first : Bool) (t : TrunTotals) : Reader TrunTotals := do
  let t ← readIf (flags &&& TRUN_FLAG_SAMPLE_DURATION_PRESENT != 0) t do
    let loc ← tell
    let sample_duration ← readBe 4
    pure { t with
      totalSampleDuration := (t.totalSampleDuration + sample_duration) % 2 ^ 64
      firstSampleDurationLoc := if first then some loc else t.firstSampleDurationLoc }
  let t ← readIf (flags &&& TRUN_FLAG_SAMPLE_SIZE_PRESENT != 0) t do
    let sample_size ← readBe 4
    pure { t with firstSampleSize := if first then sample_size else t.firstSampleSize }
  skip (ifFlag flags TRUN_FLAG_SAMPLE_FLAGS_PRESENT 4)
  skip (ifFlag flags TRUN_FLAG_SAMPLE_COMPOSITION_TIME_OFFSET_PRESENT 4)
  pure t

/-- The sample loop with `count` iterations to go. -/
def trunSamples (flags : Nat) : Nat → Bool → TrunTotals → Reader TrunTotals
  | 0, _, t => pure t
  | count + 1, first, t => do
    let t ← trunSample flags first t
    trunSamples flags count false t

def constructTrunBox (sz : Nat) : Reader IsoBmffBox := do
  let start ← tell
  let version ← readBe 1
  let flags ← readBe 3
  let sampleCountLoc ← tell
  let sample_count ← readBe 4
  skip (ifFlag flags TRUN_FLAG_DATA_OFFSET_PRESENT 4)
  skip (ifFlag flags TRUN_FLAG_FIRST_SAMPLE_FLAGS_PRESENT 4)
  let t ← trunSamples flags sample_count true {}
  pure (.full { base := some (start - 8), size := sz, type := TRUN } version flags
    (.trun t.totalSampleDuration sample_count sampleCountLoc t.firstSampleDurationLoc
      t.firstSampleSize flags))

def constructTfhdBox (sz : Nat) : Reader IsoBmffBox := do
  let start ← tell
  let version ← readBe 1
  let flags ← readBe 3
  skip 4
  skip (ifFlag flags TFHD_FLAG_BASE_DATA_OFFSET_PRESENT 8)
  skip (ifFlag flags TFHD_FLAG_SAMPLE_DESCRIPTION_INDEX_PRESENT 4)
  let duration ← readIf (flags &&& TFHD_FLAG_DEFAULT_SAMPLE_DURATION_PRESENT != 0) (0, none) do
    let loc ← tell
    let value ← readBe 4
    pure (value, some loc)
  let sampleSize ← readIf (flags &&& TFHD_FLAG_DEFAULT_SAMPLE_SIZE_PRESENT != 0) 0 (readBe 4)
  pure (.full { base := some (start - 8), size := sz, type := TFHD } version flags
    (.tfhd duration.1 duration.2 sampleSize flags))

def constructPrftBox (sz : Nat) : Reader IsoBmffBox := do
  let version ← readBe 1
  let flags ← readBe 3
  let track_id ← readBe 4
  let ntp_ts ← readBe 8
  let pts ← readBe 8
  pure (.full { size := sz, type := PRFT } version flags (.prft track_id ntp_ts pts))

/-- The reference loop of a sidx; its sum is a 32-bit word. -/
def sidxReferences : Nat → Nat → Reader Nat
  | 0, duration => pure duration
  | count + 1, duration => do
    let _ ← readBe 4
    let subsegment_duration ← readBe 4
    let _ ← readBe 4
    sidxReferences count ((duration + subsegment_duration) % 2 ^ 32)

def constructSidxBox (sz : Nat) : Reader IsoBmffBox := do
  let version ← readBe 1
  let flags ← readBe 3
  let _ ← readBe 4
  let currTimeScale ← readBe 4
  let width := ifVersion version 0 4 8
  let _ ← readBe width
  let _ ← readBe width
  let _ ← readBe 2
  let refCount ← readBe 2
  let duration ← sidxReferences refCount 0
  pure (.full { size := sz, type := SIDX } version flags (.sidx currTimeScale duration))

def constructMdatBox (sz : Nat) : Reader IsoBmffBox := do
  let start ← tell
  pure (.mdat { base := some (start - 8), size := sz, type := MDAT })

def constructSencBox (sz : Nat) : Reader IsoBmffBox := do
  let start ← tell
  let version ← readBe 1
  let flags ← readBe 3
  let sample_count_loc ← tell
  let sample_count ← readBe 4
  pure (.full { base := some (start - 8), size := sz, type := SENC } version flags
    (.senc sample_count_loc sample_count))

def constructSaizBox (sz : Nat) : Reader IsoBmffBox := do
  let start ← tell
  let version ← readBe 1
  let flags ← readBe 3
  skip (ifFlag flags SAIZ_FLAG_AUX_INFO_TYPE_PRESENT 8)
  let default_sample_info_size ← readBe 1
  let sample_count_loc ← tell
  let sample_count ← readBe 4
  let sample_info_size ← readIf (default_sample_info_size == 0) default_sample_info_size peek
  pure (.full { base := some (start - 8), size := sz, type := SAIZ } version flags
    (.saiz sample_count_loc sample_count sample_info_size))

/-! ## Dispatch on the type -/

/-- The `constructXxxBox` functions that read a body and no children. -/
inductive LeafKind where
  | tfhd | tfdt | trun | mvhd | mdhd | emsg | prft | sidx | mdat | senc | saiz
deriving DecidableEq, Repr

/-- Where the `else if` chain of `constructBox` sends a box that fits. -/
inductive BoxKind where
  | container
  | trak
  | leaf (kind : LeafKind)
  | other
deriving DecidableEq, Repr

/-- The comparisons of the chain, in its order. -/
def typeTable : List (FourCC × BoxKind) :=
  [(MOOV, .container), (TRAK, .trak), (MDIA, .container), (MOOF, .container),
    (TRAF, .container), (TFHD, .leaf .tfhd), (TFDT, .leaf .tfdt), (TRUN, .leaf .trun),
    (MVHD, .leaf .mvhd), (MDHD, .leaf .mdhd), (EMSG, .leaf .emsg), (PRFT, .leaf .prft),
    (SIDX, .leaf .sidx), (MDAT, .leaf .mdat), (SENC, .leaf .senc), (SAIZ, .leaf .saiz)]

def boxKind (type : FourCC) : BoxKind :=
  match typeTable.find? (fun entry => entry.1 = type) with
  | some entry => entry.2
  | none => .other

def constructLeaf : LeafKind → Nat → Reader IsoBmffBox
  | .tfhd => constructTfhdBox
  | .tfdt => constructTfdtBox
  | .trun => constructTrunBox
  | .mvhd => constructMvhdBox
  | .mdhd => constructMdhdBox
  | .emsg => constructEmsgBox
  | .prft => constructPrftBox
  | .sidx => constructSidxBox
  | .mdat => constructMdatBox
  | .senc => constructSencBox
  | .saiz => constructSaizBox

/-- The type word each leaf parser stores in its object. -/
def LeafKind.type : LeafKind → FourCC
  | .tfhd => TFHD
  | .tfdt => TFDT
  | .trun => TRUN
  | .mvhd => MVHD
  | .mdhd => MDHD
  | .emsg => EMSG
  | .prft => PRFT
  | .sidx => SIDX
  | .mdat => MDAT
  | .senc => SENC
  | .saiz => SAIZ

/-- The kind a type is dispatched to determines the type word. -/
def BoxKind.Names (type : FourCC) : BoxKind → Prop
  | .leaf kind => kind.type = type
  | .trak => TRAK = type
  | .container => type ∈ [MOOV, MDIA, MOOF, TRAF]
  | .other => True

instance (type : FourCC) (kind : BoxKind) : Decidable (kind.Names type) := by
  cases kind <;> unfold BoxKind.Names <;> infer_instance

theorem boxKind_names (type : FourCC) : (boxKind type).Names type := by
  have table : ∀ entry ∈ typeTable, entry.2.Names entry.1 := by decide
  unfold boxKind
  split
  · rename_i entry hf
    have ht : entry.1 = type := by simpa using List.find?_some hf
    exact ht ▸ table entry (List.mem_of_find?_eq_some hf)
  · trivial

theorem type_of_boxKind_leaf {type : FourCC} {kind : LeafKind} (h : boxKind type = .leaf kind) :
    kind.type = type := by
  have hn := boxKind_names type
  rwa [h] at hn

theorem type_of_boxKind_trak {type : FourCC} (h : boxKind type = .trak) : TRAK = type := by
  have hn := boxKind_names type
  rwa [h] at hn

section
open IsoBmffBox

/-- Whatever a leaf parser reads, its object has the size and type of its header. -/
theorem constructLeaf_size_type (kind : LeafKind) (sz : Nat) (m : Mem) (p : Nat) :
    ((constructLeaf kind sz).val m p).getSize = sz ∧
      ((constructLeaf kind sz).val m p).getType = kind.type := by
  cases kind with
  | mvhd => simp [constructLeaf, constructMvhdBox, constructTimeScaleBox, getSize, getType,
      header, LeafKind.type]
  | mdhd => simp [constructLeaf, constructMdhdBox, constructTimeScaleBox, getSize, getType,
      header, LeafKind.type]
  | tfdt => simp [constructLeaf, constructTfdtBox, getSize, getType, header, LeafKind.type]
  | trun => simp [constructLeaf, constructTrunBox, getSize, getType, header, LeafKind.type]
  | tfhd => simp [constructLeaf, constructTfhdBox, getSize, getType, header, LeafKind.type]
  | prft => simp [constructLeaf, constructPrftBox, getSize, getType, header, LeafKind.type]
  | sidx => simp [constructLeaf, constructSidxBox, getSize, getType, header, LeafKind.type]
  | mdat => simp [constructLeaf, constructMdatBox, getSize, getType, header, LeafKind.type]
  | senc => simp [constructLeaf, constructSencBox, getSize, getType, header, LeafKind.type]
  | saiz => simp [constructLeaf, constructSaizBox, getSize, getType, header, LeafKind.type]
  | emsg =>
      simp only [constructLeaf, constructEmsgBox, emsgFields, val_bind, val_ite, LeafKind.type]
      split
      · simp [getSize, getType, header]
      · split <;> simp [getSize, getType, header]

end

end PlayerInterface.IsoBmff
