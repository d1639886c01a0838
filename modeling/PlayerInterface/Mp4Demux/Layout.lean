import PlayerInterface.Mp4Demux.Demuxer
import PlayerInterface.IsoBmff.Serialise

/-!
# Serialised boxes of a fragmented MP4 buffer

The boxes a buffer is made of and their bytes: a forest of leaves and of nodes
with children, with the descriptors of an `esds` box as a forest of their own.
Nothing here runs the demuxer.
-/

namespace PlayerInterface.Mp4Demux

open PlayerInterface.Core
open PlayerInterface.IsoBmff (FourCC fourcc TimeScaleFields TfdtFields TfhdFields TrunFields
  timeWidth versionByte boxBytes)

/-! ## Descriptors -/

/-- A length in `more + 1` octets of seven bits, most significant first. -/
def lengthOctets : Nat → Nat → Bytes
  | 0, len => [UInt8.ofNat (len % 128)]
  | more + 1, len => UInt8.ofNat (128 + len / 128 ^ (more + 1) % 128) :: lengthOctets more len

@[simp] theorem lengthOctets_length (more len : Nat) :
    (lengthOctets more len).length = more + 1 := by
  induction more with
  | zero => rfl
  | succ more ih => simp [lengthOctets, ih]

def descriptorBytes (tag : UInt8) (more : Nat) (body : Bytes) : Bytes :=
  tag :: (lengthOctets more body.length ++ body)

/-- Fields of a `DecoderConfigDescriptor`. -/
structure DecoderConfigFields where
  objectTypeIndication : Word 1
  streamType : Word 1
  bufferSizeDB : Word 3
  maxBitrate : Word 4
  avgBitrate : Word 4

def DecoderConfigFields.bytes (b : DecoderConfigFields) : Bytes :=
  b.objectTypeIndication.bytes ++ (b.streamType.bytes ++ (b.bufferSizeDB.bytes ++
    (b.maxBitrate.bytes ++ b.avgBitrate.bytes)))

/-- Descriptors that follow each other; `more` counts the length octets after the first. -/
inductive Descriptors where
  | nil
  | es (more : Nat) (es_id : Word 2) (flags : Word 1) (children rest : Descriptors)
  | decoderConfig (more : Nat) (fields : DecoderConfigFields) (children rest : Descriptors)
  | specificInfo (more : Nat) (payload : Bytes) (rest : Descriptors)
  | slConfig (more : Nat) (payload : Bytes) (rest : Descriptors)

namespace Descriptors

def bytes : Descriptors → Bytes
  | nil => []
  | es more es_id flags children rest =>
      descriptorBytes 0x03 more (es_id.bytes ++ (flags.bytes ++ children.bytes)) ++ rest.bytes
  | decoderConfig more fields children rest =>
      descriptorBytes 0x04 more (fields.bytes ++ children.bytes) ++ rest.bytes
  | specificInfo more payload rest => descriptorBytes 0x05 more payload ++ rest.bytes
  | slConfig more payload rest => descriptorBytes 0x06 more payload ++ rest.bytes

/-- A length of at most four octets that holds the body. -/
def LengthFits (more len : Nat) : Prop := more < 4 ∧ len < 128 ^ (more + 1)

instance (more len : Nat) : Decidable (LengthFits more len) := inferInstanceAs (Decidable (_ ∧ _))

def Fits : Descriptors → Prop
  | nil => True
  | es more _ _ children rest =>
      LengthFits more (3 + children.bytes.length) ∧ children.Fits ∧ rest.Fits
  | decoderConfig more _ children rest =>
      LengthFits more (13 + children.bytes.length) ∧ children.Fits ∧ rest.Fits
  | specificInfo more payload rest => LengthFits more payload.length ∧ rest.Fits
  | slConfig more payload rest => LengthFits more payload.length ∧ rest.Fits

instance decidableFits : (D : Descriptors) → Decidable D.Fits
  | nil => inferInstanceAs (Decidable True)
  | es _ _ _ children rest =>
      have := decidableFits children
      have := decidableFits rest
      inferInstanceAs (Decidable (_ ∧ _ ∧ _))
  | decoderConfig _ _ children rest =>
      have := decidableFits children
      have := decidableFits rest
      inferInstanceAs (Decidable (_ ∧ _ ∧ _))
  | specificInfo _ _ rest =>
      have := decidableFits rest
      inferInstanceAs (Decidable (_ ∧ _))
  | slConfig _ _ rest =>
      have := decidableFits rest
      inferInstanceAs (Decidable (_ ∧ _))

end Descriptors

/-! ## Leaves -/

/-- Boxes that begin with a full box header, two time words and a word of four bytes. -/
inductive TimedBox where
  | mvhd | mdhd | tkhd
deriving DecidableEq, Repr

def TimedBox.type : TimedBox → FourCC
  | mvhd => fourcc 'm' 'v' 'h' 'd'
  | mdhd => fourcc 'm' 'd' 'h' 'd'
  | tkhd => fourcc 't' 'k' 'h' 'd'

/-- Types whose parser leaves the sample table alone whatever the payload is. -/
def IsPassive (type : FourCC) : Prop :=
  boxKind (multiCharConstant type) = .skipped ∨ boxKind (multiCharConstant type) = .mfhd ∨
    boxKind (multiCharConstant type) = .mehd ∨
      (boxKind (multiCharConstant type) = .codecConfiguration ∧
        multiCharConstant type ≠ multiCharConstant ESDS)

instance (type : FourCC) : Decidable (IsPassive type) :=
  inferInstanceAs (Decidable (_ ∨ _ ∨ _ ∨ (_ ∧ _)))

structure TrexFields where
  version : Word 1
  flags : Word 3
  track_ID : Word 4
  default_sample_description_index : Word 4
  default_sample_duration : Word 4
  default_sample_size : Word 4
  default_sample_flags : Word 4

def TrexFields.bytes (b : TrexFields) : Bytes :=
  b.version.bytes ++ (b.flags.bytes ++ (b.track_ID.bytes ++
    (b.default_sample_description_index.bytes ++ (b.default_sample_duration.bytes ++
      (b.default_sample_size.bytes ++ b.default_sample_flags.bytes)))))

inductive Leaf where
  | passive (type : { t : FourCC // IsPassive t }) (payload : Bytes)
  | timed (box : TimedBox) (fields : TimeScaleFields)
  | esds (header : Word 4) (descriptors : Descriptors)
  | trex (fields : TrexFields)
  | tfhd (fields : TfhdFields)
  | tfdt (fields : TfdtFields)
  | trun (fields : { b : TrunFields // b.flags.toNat &&& 0x0001 ≠ 0 })

namespace Leaf

def type : Leaf → FourCC
  | passive type _ => type
  | timed box _ => box.type
  | esds _ _ => ESDS
  | trex _ => fourcc 't' 'r' 'e' 'x'
  | tfhd _ => IsoBmff.TFHD
  | tfdt _ => IsoBmff.TFDT
  | trun _ => IsoBmff.TRUN

def body : Leaf → Bytes
  | passive _ payload => payload
  | timed _ fields => fields.bytes
  | esds header descriptors => header.bytes ++ descriptors.bytes
  | trex fields => fields.bytes
  | tfhd fields => fields.bytes
  | tfdt fields => fields.bytes
  | trun fields => fields.val.bytes

def Fits : Leaf → Prop
  | esds _ descriptors => descriptors.Fits
  | _ => True

instance : (l : Leaf) → Decidable l.Fits
  | esds _ descriptors => descriptors.decidableFits
  | passive _ _ => inferInstanceAs (Decidable True)
  | timed _ _ => inferInstanceAs (Decidable True)
  | trex _ => inferInstanceAs (Decidable True)
  | tfhd _ => inferInstanceAs (Decidable True)
  | tfdt _ => inferInstanceAs (Decidable True)
  | trun _ => inferInstanceAs (Decidable True)

end Leaf

/-! ## Nodes -/

/-- A byte string of a fixed length. -/
abbrev Block (length : Nat) := { bs : Bytes // bs.length = length }

inductive Frame where
  | moof
  | container (type : { t : FourCC // boxKind (multiCharConstant t) = .container })
  | stsd (version : Word 1) (flags : Word 3)
  | visual (type : { t : FourCC // t ∈ visualEntries }) (fields : Block 76)
  | audio (type : { t : FourCC // t ∈ audioEntries }) (fields : Block 28)

namespace Frame

def type : Frame → FourCC
  | moof => IsoBmff.MOOF
  | container type => type
  | stsd _ _ => fourcc 's' 't' 's' 'd'
  | visual type _ => type
  | audio type _ => type

/-- What comes before the children: an `stsd` box counts one entry, and the
fields of a visual entry end with the predefined word -1. -/
def head : Frame → Bytes
  | moof => []
  | container _ => []
  | stsd version flags => version.bytes ++ (flags.bytes ++ beBytes 4 1)
  | visual _ fields => fields.val ++ beBytes 2 0xffff
  | audio _ fields => fields.val

end Frame

/-- Boxes that follow each other. -/
inductive Boxes where
  | nil
  | leaf (box : Leaf) (rest : Boxes)
  | node (frame : Frame) (children rest : Boxes)

namespace Boxes

def bytes : Boxes → Bytes
  | nil => []
  | leaf box rest => boxBytes box.type box.body ++ rest.bytes
  | node frame children rest =>
      boxBytes frame.type (frame.head ++ children.bytes) ++ rest.bytes

/-- Every size fits the size word of its box. -/
def Fits : Boxes → Prop
  | nil => True
  | leaf box rest => 8 + box.body.length < 2 ^ 32 ∧ box.Fits ∧ rest.Fits
  | node frame children rest =>
      8 + (frame.head ++ children.bytes).length < 2 ^ 32 ∧ children.Fits ∧ rest.Fits

instance decidableFits : (F : Boxes) → Decidable F.Fits
  | nil => inferInstanceAs (Decidable True)
  | leaf box rest =>
      have := decidableFits rest
      inferInstanceAs (Decidable (_ ∧ box.Fits ∧ _))
  | node _ children rest =>
      have := decidableFits children
      have := decidableFits rest
      inferInstanceAs (Decidable (_ ∧ _ ∧ _))

def append : Boxes → Boxes → Boxes
  | nil, G => G
  | leaf box rest, G => leaf box (rest.append G)
  | node frame children rest, G => node frame children (rest.append G)

end Boxes
end PlayerInterface.Mp4Demux
