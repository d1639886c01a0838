import PlayerInterface.IsoBmff.Extent
import PlayerInterface.IsoBmff.Termination

/-!
# Extraction of the media data

`parseMdatBox` copies the payload of the first top-level `mdat` with a length taken
from the declared size of the box. `TtmlSubtecParser::processData` allocates what
`getMdatBoxSize` reports and sends what was copied.
-/

namespace PlayerInterface.IsoBmff

open PlayerInterface.Core Reader

/-! ## The functions -/

def getBoxSizeInternal (name : FourCC) : List IsoBmffBox → Option Nat
  | [] => none
  | box :: boxes => if box.getType = name then some box.getSize else getBoxSizeInternal name boxes

def getMdatBoxSize (boxes : List IsoBmffBox) : Option Nat := getBoxSizeInternal MDAT boxes

/-- What `memcpy` took from the buffer: the size argument, the bytes and their indices. -/
structure BoxCopy where
  size : Nat
  bytes : Bytes
  reads : List Nat
deriving DecidableEq, Repr

def memcpy (m : Mem) (offset size : Nat) : BoxCopy :=
  ⟨size, m.slice offset size, List.range' offset size⟩

/-- The statements for the box of the type; offset and size are 32-bit words. -/
def copyBox (m : Mem) (box : IsoBmffBox) : BoxCopy :=
  memcpy m ((box.getOffset + 8) % 2 ^ 32) (sub32 box.getSize 8)

def parseBoxInternal (m : Mem) (name : FourCC) : List IsoBmffBox → Option BoxCopy
  | [] => none
  | box :: boxes =>
      if box.getType = name then some (copyBox m box) else parseBoxInternal m name boxes

/-- `none` when the function returns false. -/
def parseMdatBox (m : Mem) (boxes : List IsoBmffBox) : Option BoxCopy :=
  parseBoxInternal m MDAT boxes

/-! ## Where a box lies -/

/-- The first box of a type with its start, for boxes that follow each other from a start on. -/
def firstBox (name : FourCC) : Nat → List IsoBmffBox → Option (Nat × IsoBmffBox)
  | _, [] => none
  | start, box :: boxes =>
      if box.getType = name then some (start, box)
      else firstBox name (start + box.getSize) boxes

/-- The offset of each box is the 32-bit word of its start. -/
def OffsetsFrom : Nat → List IsoBmffBox → Prop
  | _, [] => True
  | start, box :: boxes =>
      box.getOffset = start % 2 ^ 32 ∧ OffsetsFrom (start + box.getSize) boxes

theorem boxLoop_offsets {fuel n cur ptr start : Nat} {c : Bool} {tid : Int} {v : LoopVars}
    {h : Heap} {r : LoopResult} (hr : boxLoop fuel (.buffer n c tid) cur ptr v h = some r)
    (hstart : cur % 2 ^ 32 = start % 2 ^ 32) : OffsetsFrom start r.boxes := by
  induction fuel generalizing cur ptr start v h r with
  | zero => simp [boxLoop] at hr
  | succ fuel ih =>
      by_cases hc : cur < n
      · rcases boxLoop_uncons hr hc with ⟨box, h₁, rest, -, hrest, rfl⟩
        have hnext : (cur + box.getSize) % (BoxLoop.buffer n c tid).modulus % 2 ^ 32 =
            (start + box.getSize) % 2 ^ 32 := by
          change (cur + box.getSize) % 2 ^ 64 % 2 ^ 32 = _
          omega
        rw [OffsetsFrom, IsoBmffBox.getOffset_setOffset, IsoBmffBox.getSize_setOffset]
        exact ⟨hstart, ih hrest hnext⟩
      · rw [boxLoop_done hr hc]
        trivial

/-- A box of the type is found by the size query, by the extraction and by its start. -/
theorem firstBox_some {name : FourCC} {boxes : List IsoBmffBox} {s start : Nat}
    {box : IsoBmffBox} (ho : OffsetsFrom s boxes) (h : firstBox name s boxes = some (start, box))
    (m : Mem) :
    box.getOffset = start % 2 ^ 32 ∧ getBoxSizeInternal name boxes = some box.getSize ∧
      parseBoxInternal m name boxes = some (copyBox m box) := by
  induction boxes generalizing s with
  | nil => cases h
  | cons b boxes ih =>
      rw [firstBox] at h
      by_cases ht : b.getType = name
      · rw [if_pos ht] at h
        cases h
        exact ⟨ho.1, by rw [getBoxSizeInternal, if_pos ht], by rw [parseBoxInternal, if_pos ht]⟩
      · rw [if_neg ht] at h
        rw [getBoxSizeInternal, parseBoxInternal, if_neg ht, if_neg ht]
        exact ih ho.2 h

theorem firstBox_none {name : FourCC} {boxes : List IsoBmffBox} {s : Nat}
    (h : firstBox name s boxes = none) (m : Mem) : parseBoxInternal m name boxes = none := by
  induction boxes generalizing s with
  | nil => rfl
  | cons b boxes ih =>
      rw [firstBox] at h
      by_cases ht : b.getType = name
      · rw [if_pos ht] at h
        cases h
      · rw [if_neg ht] at h
        rw [parseBoxInternal, if_neg ht, ih h]

/-! ## The extraction -/

/-- What a successful extraction from a buffer of `n` bytes should mean. -/
structure Extracted (m : Mem) (n : Nat) (boxes : List IsoBmffBox) (copy : BoxCopy)
    (start : Nat) (mdat : IsoBmffBox) : Prop where
  reported : getMdatBoxSize boxes = some (copy.size + 8)
  inside : start + mdat.getSize ≤ n
  payload : copy.bytes = m.slice (start + 8) copy.size
  reads : copy.reads = List.range' (start + 8) copy.size
  bounded : ∀ i ∈ copy.reads, i < n

/-- The first `mdat` has room for its header and lies inside the buffer, and its payload does
not start beyond the 32-bit offsets. -/
def MdatComplete (n start : Nat) (mdat : IsoBmffBox) : Prop :=
  8 ≤ mdat.getSize ∧ start + mdat.getSize ≤ n ∧ (mdat.getSize = 8 ∨ start + 8 < 2 ^ 32)

theorem extracted_memcpy_iff {m : Mem} {n start offset size : Nat} {boxes : List IsoBmffBox}
    {mdat : IsoBmffBox} (hreported : getMdatBoxSize boxes = some mdat.getSize) :
    Extracted m n boxes (memcpy m offset size) start mdat ↔
      mdat.getSize = size + 8 ∧ start + mdat.getSize ≤ n ∧ (size = 0 ∨ offset = start + 8) := by
  constructor
  · intro he
    rcases he with ⟨hsum, hinside, -, hreads, -⟩
    refine ⟨Option.some.inj (hreported.symm.trans hsum), hinside, ?_⟩
    exact (List.range'_inj.mp hreads).2
  · intro hc
    rcases hc with ⟨hsum, hinside, hoffset⟩
    refine ⟨hreported.trans (congrArg some hsum), hinside, ?_, ?_, ?_⟩
    · rcases hoffset with hempty | hoffset
      · rw [hempty]
        rfl
      · rw [hoffset]
        rfl
    · exact List.range'_inj.mpr ⟨rfl, hoffset⟩
    · intro i hi
      have hrange := List.mem_range'_1.mp hi
      omega

theorem extracted_iff {m : Mem} {n start : Nat} {boxes : List IsoBmffBox} {mdat : IsoBmffBox}
    (hoffset : mdat.getOffset = start % 2 ^ 32) (hsize : getMdatBoxSize boxes = some mdat.getSize)
    (hlt : mdat.getSize < 2 ^ 32) :
    Extracted m n boxes (copyBox m mdat) start mdat ↔ MdatComplete n start mdat := by
  have hword : (mdat.getOffset + 8) % 2 ^ 32 = start + 8 ↔ start + 8 < 2 ^ 32 := by omega
  rw [copyBox, extracted_memcpy_iff hsize, hword, MdatComplete]
  -- a size below 8 borrows
  by_cases h8 : 8 ≤ mdat.getSize
  · rw [sub32_of_le hlt h8]
    omega
  · rw [sub32_of_lt (by omega) (by decide)]
    omega

theorem IsoBmffBox.getSize_lt_of_run {fuel n cur ptr : Nat} {c : Bool} {tid : Int}
    {v : LoopVars} {h : Heap} {r : LoopResult}
    (hr : boxLoop fuel (.buffer n c tid) cur ptr v h = some r) :
    ∀ box ∈ r.boxes, box.getSize < 2 ^ 32 := by
  induction fuel generalizing cur ptr v h r with
  | zero => simp [boxLoop] at hr
  | succ fuel ih =>
      by_cases hc : cur < n
      · rcases boxLoop_uncons hr hc with ⟨box, h₁, rest, hb, hrest, rfl⟩
        have hroom := (BoxLoop.buffer n c tid).room_lt cur
        have hhead := (constructBox_head hroom hb).1
        rw [List.forall_mem_cons, IsoBmffBox.getSize_setOffset, hhead]
        exact ⟨head_size_lt hroom, ih hrest⟩
      · rw [boxLoop_done hr hc]
        simp

theorem firstBox_mem {name : FourCC} {boxes : List IsoBmffBox} {s start : Nat} {box : IsoBmffBox}
    (h : firstBox name s boxes = some (start, box)) : box ∈ boxes := by
  induction boxes generalizing s with
  | nil => cases h
  | cons b boxes ih =>
      rw [firstBox] at h
      by_cases ht : b.getType = name
      · rw [if_pos ht] at h
        cases h
        exact List.mem_cons_self
      · rw [if_neg ht] at h
        exact List.mem_cons_of_mem b (ih h)

/-- After any parse that returns, extracting the media data copies exactly the payload of the
first top-level `mdat` and stays inside the buffer, exactly when that box is complete. -/
theorem parseMdatBox_iff (fuel : Nat) (mem : Mem) (n : Nat) (correctBoxSize : Bool)
    (newTrackId : Int) (r : LoopResult)
    (hr : parseBuffer fuel mem n correctBoxSize newTrackId = some r) :
    (∀ copy, parseMdatBox r.heap.mem r.boxes = some copy → ∃ start mdat,
        firstBox MDAT 0 r.boxes = some (start, mdat) ∧
          Extracted r.heap.mem n r.boxes copy start mdat) ↔
      ∀ start mdat, firstBox MDAT 0 r.boxes = some (start, mdat) → MdatComplete n start mdat := by
  have hoffsets : OffsetsFrom 0 r.boxes := boxLoop_offsets hr rfl
  have hiff : ∀ start mdat, firstBox MDAT 0 r.boxes = some (start, mdat) →
      parseMdatBox r.heap.mem r.boxes = some (copyBox r.heap.mem mdat) ∧
      (Extracted r.heap.mem n r.boxes (copyBox r.heap.mem mdat) start mdat ↔
        MdatComplete n start mdat) := by
    intro start mdat hfirst
    rcases firstBox_some hoffsets hfirst r.heap.mem with ⟨hoffset, hsize, hparse⟩
    have hlt := IsoBmffBox.getSize_lt_of_run hr mdat (firstBox_mem hfirst)
    exact ⟨hparse, extracted_iff hoffset hsize hlt⟩
  constructor
  · intro hall start mdat hfirst
    rcases hiff start mdat hfirst with ⟨hparse, hcomplete⟩
    rcases hall _ hparse with ⟨start', mdat', hfirst', hextracted⟩
    cases Option.some.inj (hfirst.symm.trans hfirst')
    exact hcomplete.mp hextracted
  · intro hall copy hcopy
    cases hfirst : firstBox MDAT 0 r.boxes with
    | none =>
        have hnone := firstBox_none hfirst r.heap.mem
        rw [parseMdatBox, hnone] at hcopy
        cases hcopy
    | some found =>
        rcases found with ⟨start, mdat⟩
        rcases hiff start mdat hfirst with ⟨hparse, hcomplete⟩
        have hsame : copy = copyBox r.heap.mem mdat := Option.some.inj (hcopy.symm.trans hparse)
        subst hsame
        exact ⟨start, mdat, rfl, hcomplete.mpr (hall start mdat hfirst)⟩

/-- Media data that claims 100 bytes in a buffer of twelve. -/
def truncatedMdat : Mem := Mem.ofBytes [0, 0, 0, 100, 109, 100, 97, 116, 1, 2, 3, 4] fun _ => 0

def truncatedMdatResult : LoopResult :=
  ⟨[.plain { size := 100, type := MDAT }],
    { chunkedBox := some (.plain { size := 100, type := MDAT }) },
    { mem := truncatedMdat, touched := List.range' 0 8, moves := [(0, 100)] }⟩

theorem truncatedMdat_parsed :
    parseBuffer 2 truncatedMdat 12 false (-1) = some truncatedMdatResult := by
  rfl

theorem truncatedMdat_iff :
    (∀ copy, parseMdatBox truncatedMdatResult.heap.mem truncatedMdatResult.boxes = some copy →
      ∃ start mdat, firstBox MDAT 0 truncatedMdatResult.boxes = some (start, mdat) ∧
        Extracted truncatedMdatResult.heap.mem 12 truncatedMdatResult.boxes copy start mdat) ↔
      ∀ start mdat, firstBox MDAT 0 truncatedMdatResult.boxes = some (start, mdat) →
        MdatComplete 12 start mdat :=
  parseMdatBox_iff 2 truncatedMdat 12 false (-1) truncatedMdatResult truncatedMdat_parsed

/-- The copy reads 92 bytes from index 8 of a buffer of twelve. -/
theorem truncatedMdat_overruns : ¬ ∀ (fuel : Nat) (mem : Mem) (n : Nat) (correctBoxSize : Bool)
    (newTrackId : Int) (r : LoopResult),
    parseBuffer fuel mem n correctBoxSize newTrackId = some r →
      ∀ copy, parseMdatBox r.heap.mem r.boxes = some copy → ∃ start mdat,
        firstBox MDAT 0 r.boxes = some (start, mdat) ∧
          Extracted r.heap.mem n r.boxes copy start mdat := by
  intro hall
  have hcopy : parseMdatBox truncatedMdatResult.heap.mem truncatedMdatResult.boxes =
      some (copyBox truncatedMdat (.plain { size := 100, type := MDAT })) := by
    rw [parseMdatBox, truncatedMdatResult, parseBoxInternal]
    exact if_pos rfl
  rcases hall 2 truncatedMdat 12 false (-1) truncatedMdatResult truncatedMdat_parsed _ hcopy with
    ⟨start, mdat, hfirst, hextracted⟩
  cases Option.some.inj hfirst
  exact absurd hextracted.inside (by decide)

end PlayerInterface.IsoBmff
