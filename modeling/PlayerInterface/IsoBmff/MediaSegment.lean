import PlayerInterface.IsoBmff.MdatPayload
import PlayerInterface.IsoBmff.RoundTrip
import PlayerInterface.IsoBmff.TrackId

/-!
# Media segments

A buffer with no `ftyp` among its boxes is no init segment, and what is taken from it is the
payload of its first `mdat`.
-/

namespace PlayerInterface.IsoBmff

open PlayerInterface.Core

def FTYP : FourCC := fourcc 'f' 't' 'y' 'p'

def isInitSegment (boxes : List IsoBmffBox) : Bool := boxes.any fun box => box.getType = FTYP

/-- What a buffer is used for. Without an `mdat` the length of the media data is not set. -/
inductive Segment where
  | init
  | media (data : Bytes)
  | lengthUnset
deriving DecidableEq, Repr

/-- The segment in a buffer, once its boxes are parsed. -/
def segmentOf (fuel : Nat) (buffer : Bytes) (beyond : Mem) : Option Segment :=
  (parseBuffer fuel (Mem.ofBytes buffer beyond) buffer.length false (-1)).map fun r =>
    if isInitSegment r.boxes then .init
    else
      match parseMdatBox r.heap.mem r.boxes with
      | some copy => .media copy.bytes
      | none => .lengthUnset

theorem segmentOf_mono {fuel fuel' : Nat} (hf : fuel ≤ fuel') {buffer : Bytes} {beyond : Mem}
    {segment : Segment} (h : segmentOf fuel buffer beyond = some segment) :
    segmentOf fuel' buffer beyond = some segment := by
  obtain ⟨r, hr, hsegment⟩ := Option.map_eq_some_iff.mp h
  have hr' : parseBuffer fuel' (Mem.ofBytes buffer beyond) buffer.length false (-1) = some r :=
    boxLoop_mono hf hr
  rw [segmentOf, hr', Option.map_some, hsegment]

/-! ## Boxes by their views -/

def BoxView.type : BoxView → FourCC
  | .leaf type _ _ _ => type
  | .node type _ _ _ => type

def BoxView.size : BoxView → Nat
  | .leaf _ size _ _ => size
  | .node _ size _ _ => size

theorem IsoBmffBox.view_type (box : IsoBmffBox) : box.view.type = box.getType := by
  cases box <;> rfl

theorem IsoBmffBox.view_size (box : IsoBmffBox) : box.view.size = box.getSize := by
  cases box <;> rfl

theorem Tree.view_type (offset : Nat) (t : Tree) : (t.view offset).type = t.type := by
  cases t <;> rfl

theorem Tree.view_size (offset : Nat) (t : Tree) : (t.view offset).size = t.bytes.length := by
  cases t with
  | leaf l => exact (boxBytes_length l.type l.body).symm
  | node kind children => exact (boxBytes_length kind.type (forestBytes children)).symm

/-- Boxes with the views of a forest have its types and sizes. -/
theorem type_of_view {box : IsoBmffBox} {t : Tree} {offset : Nat} (h : box.view = t.view offset) :
    box.getType = t.type := by
  rw [← box.view_type, h, t.view_type]

theorem size_of_view {box : IsoBmffBox} {t : Tree} {offset : Nat} (h : box.view = t.view offset) :
    box.getSize = t.bytes.length := by
  rw [← box.view_size, h, t.view_size]

theorem isInitSegment_of_view {boxes : List IsoBmffBox} {forest : List Tree} {offset : Nat}
    (h : viewBoxes boxes = viewForest offset forest) :
    isInitSegment boxes = forest.any fun t => t.type = FTYP := by
  induction boxes generalizing forest offset with
  | nil =>
      cases forest with
      | nil => rfl
      | cons t ts => cases h
  | cons box boxes ih =>
      cases forest with
      | nil => cases h
      | cons t ts =>
          obtain ⟨hbox, hrest⟩ := List.cons.inj h
          rw [isInitSegment, List.any_cons, List.any_cons, type_of_view hbox, ← isInitSegment,
            ih hrest]

theorem forestBytes_append (front back : List Tree) :
    forestBytes (front ++ back) = forestBytes front ++ forestBytes back := by
  induction front with
  | nil => rfl
  | cons t ts ih => rw [List.cons_append, forestBytes, forestBytes, ih, List.append_assoc]

/-! ## Segments with media data -/

theorem mdat_not_layout : MDAT ∉ layoutTypes := by decide

def mdat (data : Bytes) : Tree := .leaf (.other ⟨MDAT, mdat_not_layout⟩ data)

structure MediaSegment where
  front : List Tree
  data : Bytes
  back : List Tree
  first : ∀ t ∈ front, t.type ≠ MDAT
  noFtyp : ∀ t ∈ front ++ back, t.type ≠ FTYP
  size_lt : (forestBytes (front ++ mdat data :: back)).length < 2 ^ 32

namespace MediaSegment

theorem bare_size_lt {data : Bytes} (h : data.length + 8 < 2 ^ 32) :
    (forestBytes ([] ++ mdat data :: [])).length < 2 ^ 32 := by
  rw [List.nil_append, forestBytes, forestBytes, List.append_nil, mdat, Tree.bytes,
    boxBytes_length]
  exact Nat.add_comm 8 data.length ▸ h

/-- A single `mdat`. -/
def bare (data : Bytes) (h : data.length + 8 < 2 ^ 32) : MediaSegment :=
  ⟨[], data, [], nofun, nofun, bare_size_lt h⟩

def bytes (s : MediaSegment) : Bytes := forestBytes (s.front ++ mdat s.data :: s.back)

theorem bytes_eq (s : MediaSegment) :
    s.bytes = forestBytes s.front ++ (boxBytes MDAT s.data ++ forestBytes s.back) := by
  rw [bytes, forestBytes_append, forestBytes, mdat, Tree.bytes]
  rfl

theorem length_le (s : MediaSegment) :
    (forestBytes s.front).length + (8 + s.data.length) ≤ s.bytes.length := by
  rw [bytes_eq, List.length_append, List.length_append, boxBytes_length]
  omega

theorem firstBox_of_view {front back : List Tree} {data : Bytes} {boxes : List IsoBmffBox}
    {offset : Nat} (start : Nat)
    (h : viewBoxes boxes = viewForest offset (front ++ mdat data :: back))
    (hfirst : ∀ t ∈ front, t.type ≠ MDAT) :
    ∃ box, firstBox MDAT start boxes = some (start + (forestBytes front).length, box) ∧
      box.getSize = 8 + data.length := by
  induction front generalizing boxes offset start with
  | nil =>
      cases boxes with
      | nil => cases h
      | cons box boxes =>
          obtain ⟨hbox, -⟩ := List.cons.inj h
          have hsize : box.getSize = 8 + data.length :=
            (size_of_view hbox).trans (boxBytes_length MDAT data)
          exact ⟨box, if_pos (type_of_view hbox), hsize⟩
  | cons t ts ih =>
      cases boxes with
      | nil => cases h
      | cons box boxes =>
          obtain ⟨hbox, hrest⟩ := List.cons.inj h
          have htype : box.getType ≠ MDAT := by
            rw [type_of_view hbox]
            exact hfirst t List.mem_cons_self
          obtain ⟨found, hfound, hlength⟩ := ih (start + box.getSize) hrest
            fun u hu => hfirst u (List.mem_cons_of_mem t hu)
          refine ⟨found, ?_, hlength⟩
          rw [firstBox, if_neg htype, hfound, size_of_view hbox, forestBytes,
            List.length_append, Nat.add_assoc]

theorem holds_data (s : MediaSegment) (beyond : Mem) :
    Holds (Mem.ofBytes s.bytes beyond) ((forestBytes s.front).length + 8) s.data := by
  have hholds := holds_ofBytes s.bytes beyond
  rw [bytes_eq] at hholds ⊢
  have hbox := (holds_append.mp (holds_append.mp hholds).2).1
  rw [Nat.zero_add] at hbox
  exact holds_body hbox

/-- The payload is what is taken from the buffer. -/
theorem segmentOf_eq (s : MediaSegment) (beyond : Mem) :
    ∃ fuel, segmentOf fuel s.bytes beyond = some (.media s.data) := by
  have hquiet : (BoxLoop.buffer s.bytes.length false (-1)).Quiet := ⟨rfl, rfl⟩
  obtain ⟨fuel, r, hr, hview, hmem⟩ := forest_stored (s.front ++ mdat s.data :: s.back) 0 {}
    { mem := Mem.ofBytes s.bytes beyond } hquiet.readsOnly (.inl rfl) (Nat.zero_add _).symm
    s.size_lt (holds_ofBytes s.bytes beyond)
  have hinit : isInitSegment r.boxes = false := by
    rw [isInitSegment_of_view hview, List.any_eq_false]
    intro t ht hftyp
    have htype := of_decide_eq_true hftyp
    cases List.mem_append.mp ht with
    | inl hfront => exact s.noFtyp t (List.mem_append_left _ hfront) htype
    | inr hrest =>
        cases List.mem_cons.mp hrest with
        | inl hmdat =>
            rw [hmdat] at htype
            exact absurd htype (show MDAT ≠ FTYP by decide)
        | inr hback => exact s.noFtyp t (List.mem_append_right _ hback) htype
  obtain ⟨box, hbox, hsize⟩ := firstBox_of_view 0 hview s.first
  obtain ⟨hoffset, -, hparse⟩ := firstBox_some (boxLoop_offsets hr rfl) hbox r.heap.mem
  have hcopied : (copyBox r.heap.mem box).bytes = s.data := by
    have hle := s.length_le
    have hlt : s.bytes.length < 2 ^ 32 := s.size_lt
    have hstart : (box.getOffset + 8) % 2 ^ 32 = (forestBytes s.front).length + 8 := by
      rw [hoffset]
      omega
    have hlength : sub32 box.getSize 8 = s.data.length := by
      rw [hsize, sub32_of_le (by omega) (by omega)]
      omega
    rw [copyBox, memcpy, hstart, hlength, hmem]
    exact (s.holds_data beyond).slice
  refine ⟨fuel, Option.map_eq_some_iff.mpr ⟨r, hr, ?_⟩⟩
  rw [hinit, if_neg Bool.false_ne_true, parseMdatBox, hparse]
  exact congrArg Segment.media hcopied

end MediaSegment

end PlayerInterface.IsoBmff
