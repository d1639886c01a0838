import Mathlib.Algebra.GroupWithZero.Nat
import PlayerInterface.Mp4Demux.Walk

/-!
# Fragmented documents

A document is an optional movie box followed by fragments, each a `moof` box and
its `mdat` box. Its sample table is stated from the boxes alone, and the table
the demuxer builds is found by one pass over the track fragments, which threads
the default sample size read last.
-/

namespace PlayerInterface.Mp4Demux

open PlayerInterface.Core
open PlayerInterface.IsoBmff (FourCC fourcc boxBytes TfhdFields TfdtFields TrunFields TrunSample)

/-! ## Boxes of a document -/

/-- A track fragment header that gives no base data offset. -/
abbrev Tfhd := { b : TfhdFields // b.flags.toNat &&& 0x0001 = 0 }

/-- A track run that carries a data offset. -/
abbrev Trun := { b : TrunFields // b.flags.toNat &&& 0x0001 ≠ 0 }

structure Traf where
  tfhd : Tfhd
  tfdt : TfdtFields
  truns : List Trun

structure Moof where
  mfhd : Option Bytes
  trafs : List Traf

structure Fragment where
  moof : Moof
  mdat : Bytes

def Leaf.IsInit : Leaf → Prop
  | tfhd _ => False
  | tfdt _ => False
  | trun _ => False
  | _ => True

/-- Boxes a movie box may hold: nothing that belongs to a fragment. -/
def Boxes.IsInit : Boxes → Prop
  | nil => True
  | leaf box rest => box.IsInit ∧ rest.IsInit
  | node frame children rest => frame ≠ .moof ∧ children.IsInit ∧ rest.IsInit

/-- The track defaults among boxes, in document order. -/
def Boxes.trexes : Boxes → List TrexFields
  | nil => []
  | leaf (.trex b) rest => b :: rest.trexes
  | leaf _ rest => rest.trexes
  | node _ children rest => children.trexes ++ rest.trexes

structure Moov where
  boxes : Boxes
  init : boxes.IsInit

def MFHD : { t : FourCC // IsPassive t } := ⟨fourcc 'm' 'f' 'h' 'd', by decide⟩

def MDAT : { t : FourCC // IsPassive t } := ⟨fourcc 'm' 'd' 'a' 't', by decide⟩

def MOOV : { t : FourCC // boxKind (multiCharConstant t) = .container } :=
  ⟨fourcc 'm' 'o' 'o' 'v', by decide⟩

def TRAF : { t : FourCC // boxKind (multiCharConstant t) = .container } :=
  ⟨fourcc 't' 'r' 'a' 'f', by decide⟩

def trunBoxes : List Trun → Boxes
  | [] => .nil
  | b :: truns => .leaf (.trun b) (trunBoxes truns)

def Traf.children (t : Traf) : Boxes :=
  .leaf (.tfhd t.tfhd.val) (.leaf (.tfdt t.tfdt) (trunBoxes t.truns))

def trafBoxes : List Traf → Boxes
  | [] => .nil
  | t :: trafs => .node (.container TRAF) t.children (trafBoxes trafs)

def Moof.children (b : Moof) : Boxes :=
  match b.mfhd with
  | some payload => .leaf (.passive MFHD payload) (trafBoxes b.trafs)
  | none => trafBoxes b.trafs

def fragmentBoxes : List Fragment → Boxes
  | [] => .nil
  | f :: fragments =>
      .node .moof f.moof.children (.leaf (.passive MDAT f.mdat) (fragmentBoxes fragments))

structure Presentation where
  moov : Option Moov
  fragments : List Fragment

def Presentation.boxes (d : Presentation) : Boxes :=
  match d.moov with
  | some moov => .node (.container MOOV) moov.boxes (fragmentBoxes d.fragments)
  | none => fragmentBoxes d.fragments

/-- A presentation whose sizes fit their size words. -/
structure Document extends Presentation where
  fits : toPresentation.boxes.Fits

def Document.bytes (doc : Document) : Bytes := doc.boxes.bytes

/-! ## The sample table of a document -/

structure TableEntry where
  ptr : Int
  len : Nat
deriving DecidableEq, Repr

def Mp4Sample.entry (s : Mp4Sample) : TableEntry := ⟨s.ptr, s.len⟩

/-- Samples of these lengths behind each other, from `base` on. -/
def runEntries (base : Int) (lens : List Nat) : List TableEntry :=
  lens.mapIdx fun i len => ⟨base + ((lens.take i).sum : Nat), len⟩

/-- The tables of some things behind each other, when each has one. -/
def concatTables {α : Type} (f : α → Option (List TableEntry)) : List α → Option (List TableEntry)
  | [] => some []
  | x :: xs => do
      let table ← f x
      let tables ← concatTables f xs
      pure (table ++ tables)

namespace Trun

def carriesSizes (b : Trun) : Prop := b.val.flags.toNat &&& 0x0200 ≠ 0

instance (b : Trun) : Decidable b.carriesSizes := inferInstanceAs (Decidable (_ ≠ _))

/-- The data offset is signed and counts from the start of the `moof` box. -/
def base (b : Trun) (moof : Int) : Int := moof + Int.bmod b.val.data_offset.toNat (2 ^ 32)

def length? (default : Option Nat) (b : Trun) (s : TrunSample) : Option Nat :=
  if b.carriesSizes then some s.sample_size.toNat else default

def table (default : Option Nat) (moof : Int) (b : Trun) : Option (List TableEntry) :=
  (b.val.samples.mapM (b.length? default)).map (runEntries (b.base moof))

end Trun

namespace Traf

def trackId (t : Traf) : Nat := t.tfhd.val.track_ID.toNat

/-- The default sample size a track fragment header gives. -/
def defaultSize? (t : Traf) : Option Nat :=
  if t.tfhd.val.flags.toNat &&& 0x00010 ≠ 0 then some t.tfhd.val.default_sample_size.toNat
  else none

def table (default : Option Nat) (moof : Int) (t : Traf) : Option (List TableEntry) :=
  concatTables (Trun.table default moof) t.truns

end Traf

def Fragment.length (f : Fragment) : Nat :=
  (boxBytes IsoBmff.MOOF f.moof.children.bytes).length + (boxBytes MDAT.val f.mdat).length

/-- The track fragments with the start of their `moof` box, for fragments from address `a` on. -/
def placeTrafs : Nat → List Fragment → List (Int × Traf)
  | _, [] => []
  | a, f :: fragments =>
      f.moof.trafs.map (Prod.mk (a : Int)) ++ placeTrafs (a + f.length) fragments

namespace Document

def trexes (doc : Document) : List TrexFields :=
  match doc.moov with
  | some moov => moov.boxes.trexes
  | none => []

/-- The default sample size of the track defaults of a track. -/
def trackSize? (doc : Document) (trackId : Nat) : Option Nat :=
  (doc.trexes.find? fun b => b.track_ID.toNat = trackId).map (·.default_sample_size.toNat)

def moovLength (doc : Document) : Nat :=
  match doc.moov with
  | some moov => (boxBytes MOOV.val moov.boxes.bytes).length
  | none => 0

def placedTrafs (doc : Document) (start : Nat) : List (Int × Traf) :=
  placeTrafs (start + doc.moovLength) doc.fragments

/-- The sample table of a document at `start`: a size comes from the run, else from
the header of its track fragment, else from the defaults of its track. -/
def table (doc : Document) (start : Nat) : Option (List TableEntry) :=
  concatTables (fun p => p.2.table (p.2.defaultSize? <|> doc.trackSize? p.2.trackId) p.1)
    (doc.placedTrafs start)

end Document

end PlayerInterface.Mp4Demux
