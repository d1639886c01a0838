import Mathlib.Algebra.GroupWithZero.Nat
import PlayerInterface.IsoBmff.Box

/-!
# Serialised box forests

The boxes a stream is made of, their layout in bytes with exact sizes, and what
a reader of the parsed objects should see of them. Nothing here looks at the
parser.
-/

namespace PlayerInterface.IsoBmff

open PlayerInterface.Core

/-! ## Leaves -/

/-- Time words are 64 bits wide from version 1 on. -/
def timeWidth (version1 : Bool) : Nat := if version1 then 8 else 4

def versionByte (version1 : Bool) : Bytes := [if version1 then 1 else 0]

/-- A field that is there when its flag is set. -/
def field (flags : Word 3) (mask : Nat) {width : Nat} (w : Word width) : Bytes :=
  if flags.toNat &&& mask ≠ 0 then w.bytes else []

/-- The value a getter shows for such a field. -/
def fieldValue (flags : Word 3) (mask : Nat) {width : Nat} (w : Word width) : Nat :=
  if flags.toNat &&& mask ≠ 0 then w.toNat else 0

/-- `mvhd` and `mdhd`; `rest` is the duration and all that follows it. -/
structure TimeScaleFields where
  version1 : Bool
  flags : Word 3
  creation_time : Word (timeWidth version1)
  modification_time : Word (timeWidth version1)
  timescale : Word 4
  rest : Bytes

def TimeScaleFields.bytes (b : TimeScaleFields) : Bytes :=
  versionByte b.version1 ++ (b.flags.bytes ++ (b.creation_time.bytes ++
    (b.modification_time.bytes ++ (b.timescale.bytes ++ b.rest))))

structure TfdtFields where
  version1 : Bool
  flags : Word 3
  baseMediaDecodeTime : Word (timeWidth version1)

def TfdtFields.bytes (b : TfdtFields) : Bytes :=
  versionByte b.version1 ++ (b.flags.bytes ++ b.baseMediaDecodeTime.bytes)

/-- Every field has a value; the flags say which ones are stored. -/
structure TfhdFields where
  version : Word 1
  flags : Word 3
  track_ID : Word 4
  base_data_offset : Word 8
  sample_description_index : Word 4
  default_sample_duration : Word 4
  default_sample_size : Word 4
  default_sample_flags : Word 4

def TFHD_FLAG_DEFAULT_SAMPLE_FLAGS_PRESENT : Nat := 0x00020

def TfhdFields.bytes (b : TfhdFields) : Bytes :=
  b.version.bytes ++ (b.flags.bytes ++ (b.track_ID.bytes ++
    (field b.flags TFHD_FLAG_BASE_DATA_OFFSET_PRESENT b.base_data_offset ++
      (field b.flags TFHD_FLAG_SAMPLE_DESCRIPTION_INDEX_PRESENT b.sample_description_index ++
        (field b.flags TFHD_FLAG_DEFAULT_SAMPLE_DURATION_PRESENT b.default_sample_duration ++
          (field b.flags TFHD_FLAG_DEFAULT_SAMPLE_SIZE_PRESENT b.default_sample_size ++
            field b.flags TFHD_FLAG_DEFAULT_SAMPLE_FLAGS_PRESENT b.default_sample_flags))))))

structure TrunSample where
  sample_duration : Word 4
  sample_size : Word 4
  sample_flags : Word 4
  sample_composition_time_offset : Word 4

def TrunSample.bytes (flags : Word 3) (s : TrunSample) : Bytes :=
  field flags TRUN_FLAG_SAMPLE_DURATION_PRESENT s.sample_duration ++
    (field flags TRUN_FLAG_SAMPLE_SIZE_PRESENT s.sample_size ++
      (field flags TRUN_FLAG_SAMPLE_FLAGS_PRESENT s.sample_flags ++
        field flags TRUN_FLAG_SAMPLE_COMPOSITION_TIME_OFFSET_PRESENT
          s.sample_composition_time_offset))

def samplesBytes (flags : Word 3) : List TrunSample → Bytes
  | [] => []
  | s :: samples => s.bytes flags ++ samplesBytes flags samples

/-- A run of samples whose number fits the sample count word. -/
structure TrunFields where
  version : Word 1
  flags : Word 3
  data_offset : Word 4
  first_sample_flags : Word 4
  samples : List TrunSample
  count_lt : samples.length < 256 ^ 4

def TrunFields.bytes (b : TrunFields) : Bytes :=
  b.version.bytes ++ (b.flags.bytes ++ (beBytes 4 b.samples.length ++
    (field b.flags TRUN_FLAG_DATA_OFFSET_PRESENT b.data_offset ++
      (field b.flags TRUN_FLAG_FIRST_SAMPLE_FLAGS_PRESENT b.first_sample_flags ++
        samplesBytes b.flags b.samples))))

/-- Sum of the sample durations, when samples carry one. -/
def TrunFields.duration (b : TrunFields) : Nat :=
  (b.samples.map fun s => fieldValue b.flags TRUN_FLAG_SAMPLE_DURATION_PRESENT s.sample_duration).sum

def TrunFields.firstSampleSize (b : TrunFields) : Nat :=
  match b.samples with
  | [] => 0
  | s :: _ => fieldValue b.flags TRUN_FLAG_SAMPLE_SIZE_PRESENT s.sample_size

structure PrftFields where
  version : Word 1
  flags : Word 3
  reference_track_ID : Word 4
  ntp_timestamp : Word 8
  media_time : Word 8

def PrftFields.bytes (b : PrftFields) : Bytes :=
  b.version.bytes ++ (b.flags.bytes ++ (b.reference_track_ID.bytes ++
    (b.ntp_timestamp.bytes ++ b.media_time.bytes)))

/-- The presentation time is absolute in version 1 and a delta in version 0. -/
structure EmsgFields where
  version1 : Bool
  flags : Word 3
  timescale : Word 4
  presentation_time : Word (timeWidth version1)
  event_duration : Word 4
  id : Word 4
  scheme_id_uri : CString
  value : CString
  message_data : Bytes

def EmsgFields.bytes (b : EmsgFields) : Bytes :=
  let strings := b.scheme_id_uri.bytes ++ b.value.bytes
  let times := b.timescale.bytes ++ (b.presentation_time.bytes ++
    (b.event_duration.bytes ++ b.id.bytes))
  versionByte b.version1 ++ (b.flags.bytes ++
    if b.version1 then times ++ (strings ++ b.message_data)
    else strings ++ (times ++ b.message_data))

/-- Types that have a layout of their own in a forest. -/
def layoutTypes : List FourCC :=
  [MOOV, TRAK, MDIA, MOOF, TRAF, MVHD, MDHD, TFDT, TFHD, TRUN, PRFT, EMSG]

inductive Leaf where
  | mvhd (fields : TimeScaleFields)
  | mdhd (fields : TimeScaleFields)
  | tfdt (fields : TfdtFields)
  | tfhd (fields : TfhdFields)
  | trun (fields : TrunFields)
  | prft (fields : PrftFields)
  | emsg (fields : EmsgFields)
  | other (type : { t : FourCC // t ∉ layoutTypes }) (payload : Bytes)

def Leaf.type : Leaf → FourCC
  | mvhd _ => MVHD
  | mdhd _ => MDHD
  | tfdt _ => TFDT
  | tfhd _ => TFHD
  | trun _ => TRUN
  | prft _ => PRFT
  | emsg _ => EMSG
  | other type _ => type

def Leaf.body : Leaf → Bytes
  | mvhd b => b.bytes
  | mdhd b => b.bytes
  | tfdt b => b.bytes
  | tfhd b => b.bytes
  | trun b => b.bytes
  | prft b => b.bytes
  | emsg b => b.bytes
  | other _ payload => payload

/-! ## Forests -/

inductive Container where
  | moov | trak | mdia | moof | traf
deriving DecidableEq, Repr

def Container.type : Container → FourCC
  | moov => MOOV
  | trak => TRAK
  | mdia => MDIA
  | moof => MOOF
  | traf => TRAF

inductive Tree where
  | leaf (l : Leaf)
  | node (kind : Container) (children : List Tree)

def boxBytes (type : FourCC) (body : Bytes) : Bytes :=
  beBytes 4 (8 + body.length) ++ (type.bytes ++ body)

mutual

def Tree.bytes : Tree → Bytes
  | .leaf l => boxBytes l.type l.body
  | .node kind children => boxBytes kind.type (forestBytes children)

def forestBytes : List Tree → Bytes
  | [] => []
  | t :: ts => t.bytes ++ forestBytes ts

end

mutual

/-- No `trak` anywhere in the tree. -/
def Tree.noTrak : Tree → Bool
  | .leaf _ => true
  | .node kind children => kind != .trak && forestNoTrak children

def forestNoTrak : List Tree → Bool
  | [] => true
  | t :: ts => t.noTrak && forestNoTrak ts

end

/-! ## What the getters show -/

/-- The values the getters of a parsed box return, by the class of the box. -/
inductive Getters where
  | timeScale (timeScale : Nat)
  | tfdt (baseMDT : Nat)
  | tfhd (defaultSampleDuration defaultSampleSize : Nat)
  | trun (sampleCount sampleDuration firstSampleSize : Nat)
  | prft (trackId ntpTs mediaTime : Nat)
  | emsg (timeScale eventDuration id presentationTimeDelta presentationTime : Nat)
      (schemeIdUri value : Option Bytes) (message : Bytes) (messageLen : Nat)
  | none
deriving DecidableEq, Repr

/-- A box as its accessors show it: type, size, offset, and getters or children. -/
inductive BoxView where
  | leaf (type : FourCC) (size offset : Nat) (getters : Getters)
  | node (type : FourCC) (size offset : Nat) (children : List BoxView)

def FullBody.getters : FullBody → Getters
  | mvhd timeScale _ => .timeScale timeScale
  | mdhd timeScale _ => .timeScale timeScale
  | tfdt baseMDT _ => .tfdt baseMDT
  | tfhd duration _ size _ => .tfhd duration size
  | trun duration sample_count _ _ firstSampleSize _ =>
      .trun sample_count duration firstSampleSize
  | prft track_id ntp_ts media_time => .prft track_id ntp_ts media_time
  | emsg timeScale eventDuration id delta presentationTime schemeIdUri value message len =>
      -- a message of no bytes is a null pointer
      .emsg timeScale eventDuration id delta presentationTime schemeIdUri value (message.getD []) len
  | sidx _ _ => .none
  | senc _ _ => .none
  | saiz _ _ _ => .none

mutual

def IsoBmffBox.view : IsoBmffBox → BoxView
  | .plain hdr => .leaf hdr.type hdr.size hdr.offset .none
  | .mdat hdr => .leaf hdr.type hdr.size hdr.offset .none
  | .full hdr _ _ body => .leaf hdr.type hdr.size hdr.offset body.getters
  | .container hdr children => .node hdr.type hdr.size hdr.offset (viewBoxes children)
  | .trak hdr children _ => .node hdr.type hdr.size hdr.offset (viewBoxes children)

def viewBoxes : List IsoBmffBox → List BoxView
  | [] => []
  | b :: bs => b.view :: viewBoxes bs

end

/-! ## What they should show -/

def EmsgFields.getters (b : EmsgFields) : Getters :=
  .emsg b.timescale.toNat b.event_duration.toNat b.id.toNat
    (if b.version1 then 0 else b.presentation_time.toNat)
    (if b.version1 then b.presentation_time.toNat else 0)
    (some b.scheme_id_uri.bytes) (some b.value.bytes) b.message_data b.message_data.length

def Leaf.getters : Leaf → Getters
  | mvhd b => .timeScale b.timescale.toNat
  | mdhd b => .timeScale b.timescale.toNat
  | tfdt b => .tfdt b.baseMediaDecodeTime.toNat
  | tfhd b => .tfhd
      (fieldValue b.flags TFHD_FLAG_DEFAULT_SAMPLE_DURATION_PRESENT b.default_sample_duration)
      (fieldValue b.flags TFHD_FLAG_DEFAULT_SAMPLE_SIZE_PRESENT b.default_sample_size)
  | trun b => .trun b.samples.length b.duration b.firstSampleSize
  | prft b => .prft b.reference_track_ID.toNat b.ntp_timestamp.toNat b.media_time.toNat
  | emsg b => b.getters
  | other _ _ => .none

mutual

/-- The view of a tree that starts at `offset` of its parent. -/
def Tree.view (offset : Nat) : Tree → BoxView
  | .leaf l => .leaf l.type (8 + l.body.length) offset l.getters
  | .node kind children =>
      .node kind.type (8 + (forestBytes children).length) offset (viewForest 8 children)

def viewForest (offset : Nat) : List Tree → List BoxView
  | [] => []
  | t :: ts => t.view offset :: viewForest (offset + t.bytes.length) ts

end

end PlayerInterface.IsoBmff
