import PlayerInterface.Core.Bytes
import PlayerInterface.Core.NestedLoops
import PlayerInterface.Core.Results

/-!
# The search for a box

`findBoxOffsetAndLength` and `printBoxes` walk over the boxes of a buffer and step into containers.
Every read is checked against the length; what the walk does not survive is a box of size zero,
which it goes on to again.
-/

namespace PlayerInterface.GstSubtec

open PlayerInterface.Core

/-- A mapped buffer. No object is larger than the largest difference of two pointers. -/
structure GstMapInfo where
  data : Bytes
  size_lt : data.length < 2 ^ 63

/-- The exception of `parse32`, or a read outside the buffer. -/
inductive ParseError where
  | out_of_range
  | outside
deriving DecidableEq, Repr

def fourChars (a b c d : Char) : Bytes := [a, b, c, d].map fun char => UInt8.ofNat char.toNat

def containerNames : List Bytes :=
  [fourChars 'm' 'o' 'o' 'v', fourChars 't' 'r' 'a' 'k', fourChars 'm' 'd' 'i' 'a',
    fourChars 'm' 'i' 'n' 'f', fourChars 'd' 'i' 'n' 'f', fourChars 's' 't' 'b' 'l',
    fourChars 'm' 'v' 'e' 'x']

def isContainer (name : Bytes) : Bool := containerNames.contains name

namespace GstMapInfo

def size (map : GstMapInfo) : Nat := map.data.length

/-- `ptr[offset]`. -/
def read (map : GstMapInfo) (offset : Nat) : Except ParseError UInt8 :=
  match map.data[offset]? with
  | some byte => .ok byte
  | none => .error .outside

def readFour (map : GstMapInfo) (offset : Nat) : Except ParseError Bytes := do
  let byte0 ← map.read offset
  let byte1 ← map.read (offset + 1)
  let byte2 ← map.read (offset + 2)
  let byte3 ← map.read (offset + 3)
  pure [byte0, byte1, byte2, byte3]

def parse32 (map : GstMapInfo) (offset : Nat) : Except ParseError Nat :=
  if offset + 4 > map.size then .error .out_of_range
  else (map.readFour offset).map be

/-- The name stays empty where `parseName` returns false. -/
def parseName (map : GstMapInfo) (offset : Nat) : Except ParseError Bytes :=
  if offset + 4 > map.size then .ok [] else map.readFour offset

end GstMapInfo

inductive ScanState where
  | scanning
  | parseError
  | found (boxOffset boxLength : Nat)
deriving DecidableEq, Repr

/-- The body of the loops. `printBoxes` looks for no name. An `offset` is a `size_t`, and so is the
difference that is added to it. -/
def boxVisit (map : GstMapInfo) (name : Option Bytes) : Visitor Unit ScanState := fun _ s offset =>
  let header : Except ParseError (Nat × Bytes) := do
    let boxSize ← map.parse32 offset
    let boxName ← map.parseName (offset + 4)
    pure (boxSize, boxName)
  match header with
  | .error .outside => .stop
  | .error .out_of_range => .leave .parseError
  | .ok (boxSize, boxName) =>
      if name = some boxName then .leave (.found (offset + 4 + 4) boxSize)
      else if isContainer boxName then .pass s none (offset + 4 + 4)
      else .pass s none ((offset + 4 + (boxSize + 2 ^ 64 - 4) % 2 ^ 64) % 2 ^ 64)

/-- How a function leaves its loop, if the fuel lasts: behind a read outside the buffer, or not. -/
inductive Run (α : Type) where
  | outside
  | returned (result : α)
deriving DecidableEq, Repr

def scan (map : GstMapInfo) (name : Option Bytes) (fuel : Nat) : Option (Run ScanState) :=
  ((boxVisit map name).loop fuel () .scanning 0 map.size).map fun e =>
    match e with
    | .stopped => .outside
    | .left s _ => .returned s

def Run.map {α β : Type} (f : α → β) : Run α → Run β
  | outside => outside
  | returned result => returned (f result)

def printBoxes (map : GstMapInfo) (fuel : Nat) : Option (Run Bool) :=
  (scan map none fuel).map (Run.map fun s => s ≠ .parseError)

/-- The offset and the length, or `none` for false. -/
def findBoxOffsetAndLength (map : GstMapInfo) (name : Bytes) (fuel : Nat) :
    Option (Run (Option (Nat × Nat))) :=
  (scan map (some name) fuel).map <| Run.map fun s =>
    match s with
    | .found boxOffset boxLength => some (boxOffset, boxLength)
    | _ => none

/-! ## The boxes of a buffer -/

namespace GstMapInfo

/-- The size a box at `p` declares. -/
def boxSize (map : GstMapInfo) (p : Nat) : Nat := be ((map.data.drop p).take 4)

/-- Its name, empty where the buffer ends before. -/
def boxName (map : GstMapInfo) (p : Nat) : Bytes :=
  if p + 8 ≤ map.size then (map.data.drop (p + 4)).take 4 else []

abbrev HasHeader (map : GstMapInfo) (p : Nat) : Prop := p + 4 ≤ map.size

/-- A walk steps into a container and over any other box. -/
def nextBox (map : GstMapInfo) (p : Nat) : Nat :=
  if isContainer (map.boxName p) then p + 8 else p + map.boxSize p

/-- Where a walk that looks for `name` comes to. -/
inductive BoxAt (map : GstMapInfo) (name : Option Bytes) : Nat → Prop where
  | first : BoxAt map name 0
  | next {p : Nat} : BoxAt map name p → map.HasHeader p → name ≠ some (map.boxName p) →
      BoxAt map name (map.nextBox p)

/-- The walk comes to a box of size zero that is neither a container nor the one it looks for. -/
def EmptyBox (map : GstMapInfo) (name : Option Bytes) (p : Nat) : Prop :=
  map.BoxAt name p ∧ map.HasHeader p ∧ map.boxSize p = 0 ∧ name ≠ some (map.boxName p) ∧
    isContainer (map.boxName p) = false

variable {map : GstMapInfo} {name : Option Bytes} {p : Nat}

theorem readFour_eq (h : p + 4 ≤ map.size) :
    map.readFour p = .ok ((map.data.drop p).take 4) := by
  have hread : ∀ i, i < map.size → map.read i = .ok (map.data[i]!) := by
    intro i hi
    rw [read, List.getElem?_eq_getElem hi, getElem!_pos map.data i hi]
  have hbyte : ∀ i (hi : i < map.data.length), map.data[i]! = map.data[i] :=
    fun i hi => getElem!_pos map.data i hi
  unfold size at h hread
  rw [readFour, hread p (by omega), hread (p + 1) (by omega), hread (p + 2) (by omega),
    hread (p + 3) (by omega), hbyte p (by omega), hbyte (p + 1) (by omega), hbyte (p + 2) (by omega),
    hbyte (p + 3) (by omega), List.drop_eq_getElem_cons (by omega), List.drop_eq_getElem_cons (by omega),
    List.drop_eq_getElem_cons (by omega), List.drop_eq_getElem_cons (by omega)]
  rfl

theorem boxSize_lt (map : GstMapInfo) (p : Nat) : map.boxSize p < 2 ^ 32 := by
  have hlt := be_lt ((map.data.drop p).take 4)
  have hlength : ((map.data.drop p).take 4).length ≤ 4 := List.length_take_le _ _
  have hle : 256 ^ ((map.data.drop p).take 4).length ≤ 256 ^ 4 :=
    Nat.pow_le_pow_right (by decide) hlength
  exact Nat.lt_of_lt_of_le hlt hle

/-- Both reads are checked, and the difference of the size does not show. -/
theorem boxVisit_eq (map : GstMapInfo) (name : Option Bytes) (k : Unit) (s : ScanState) (p : Nat) :
    boxVisit map name k s p =
      if p + 4 ≤ map.size then
        if name = some (map.boxName p) then .leave (.found (p + 8) (map.boxSize p))
        else .pass s none (map.nextBox p)
      else .leave .parseError := by
  have hname : map.parseName (p + 4) = .ok (map.boxName p) := by
    rw [parseName, boxName]
    by_cases hsize : p + 8 ≤ map.size
    · rw [if_neg (by omega), if_pos hsize, readFour_eq (by omega)]
    · rw [if_pos (by omega), if_neg hsize]
  by_cases hfour : p + 4 ≤ map.size
  · have hlimit : map.size < 2 ^ 63 := map.size_lt
    have hlt := map.boxSize_lt p
    have hnext : (p + 4 + (map.boxSize p + 2 ^ 64 - 4) % 2 ^ 64) % 2 ^ 64 = p + map.boxSize p := by
      omega
    have hsize : map.parse32 p = .ok (map.boxSize p) := by
      rw [parse32, if_neg (by omega), readFour_eq hfour]
      rfl
    rw [if_pos hfour, boxVisit, hsize, hname, nextBox, apply_ite (Visit.pass s none)]
    show (if _ then _ else _) = _
    rw [hnext]
  · have hsize : map.parse32 p = .error .out_of_range := by
      rw [parse32, if_pos (by omega)]
    rw [if_neg hfour, boxVisit, hsize]
    rfl

/-! ## Where the walk goes -/

variable {k k' : Unit} {s s' s₁ : ScanState}

theorem boxVisit_pass (hp : map.HasHeader p) (hname : name ≠ some (map.boxName p)) :
    boxVisit map name k s p = .pass s none (map.nextBox p) := by
  rw [boxVisit_eq, if_pos hp, if_neg hname]

theorem boxVisit_of_pass {inner : Option (InnerLoop Unit)} {next : Nat}
    (hv : boxVisit map name k s p = .pass s₁ inner next) :
    map.HasHeader p ∧ name ≠ some (map.boxName p) ∧ s₁ = s ∧ inner = none ∧
      next = map.nextBox p := by
  rw [boxVisit_eq] at hv
  split at hv
  · rename_i hheader
    split at hv <;> cases hv
    rename_i hname
    exact ⟨hheader, hname, rfl, rfl, rfl⟩
  · cases hv

theorem nextBox_eq_iff : map.nextBox p = p ↔
    map.boxSize p = 0 ∧ isContainer (map.boxName p) = false := by
  unfold nextBox
  cases isContainer (map.boxName p) with
  | true => simp
  | false => simp

theorem le_nextBox (map : GstMapInfo) (p : Nat) : p ≤ map.nextBox p := by
  unfold nextBox
  split
  · exact Nat.le_add_right p 8
  · exact Nat.le_add_right p _

theorem stalls_iff : (boxVisit map name).Stalls k s p ↔ map.HasHeader p ∧ map.boxSize p = 0 ∧
    name ≠ some (map.boxName p) ∧ isContainer (map.boxName p) = false := by
  constructor
  · intro ⟨inner, hv, _⟩
    obtain ⟨hheader, hname, _, _, hnext⟩ := boxVisit_of_pass hv
    obtain ⟨hzero, hkind⟩ := nextBox_eq_iff.mp hnext.symm
    exact ⟨hheader, hzero, hname, hkind⟩
  · intro ⟨hheader, hzero, hname, hkind⟩
    refine ⟨none, ?_, fun i hi => by cases hi⟩
    rw [boxVisit_pass hheader hname, nextBox_eq_iff.mpr ⟨hzero, hkind⟩]

/-- Whatever the loop comes to is on the walk. -/
theorem boxAt_of_comes {cur limit : Nat} (h : (boxVisit map name).Comes k s cur limit k' s' p)
    (hcur : map.BoxAt name cur) : map.BoxAt name p := by
  induction h with
  | here _ => exact hcur
  | inside _ hv =>
      obtain ⟨_, _, _, hnone, _⟩ := boxVisit_of_pass hv
      cases hnone
  | behind _ hv _ ih =>
      obtain ⟨hheader, hname, _, _, rfl⟩ := boxVisit_of_pass hv
      exact ih (hcur.next hheader hname)
  | after _ hv =>
      obtain ⟨_, _, _, hnone, _⟩ := boxVisit_of_pass hv
      cases hnone

theorem boxVisit_advances (map : GstMapInfo) (name : Option Bytes) :
    (boxVisit map name).Advances (fun _ => True) map.size where
  pass_inv := fun _ _ => trivial
  leave_inv := fun _ _ => trivial
  next_lt := by
    intro k s p s₁ inner next hv hstall
    obtain ⟨hheader, hname, _, _, rfl⟩ := boxVisit_of_pass hv
    refine Nat.lt_of_le_of_ne (map.le_nextBox p) fun heq => hstall ?_
    obtain ⟨hzero, hkind⟩ := nextBox_eq_iff.mp heq.symm
    exact stalls_iff.mpr ⟨hheader, hzero, hname, hkind⟩
  inner_lt := by
    intro k s p s₁ i next hv
    obtain ⟨_, _, _, hnone, _⟩ := boxVisit_of_pass hv
    cases hnone
  top := by
    intro k s p s₁ inner next _ hv _
    have hheader : p + 4 ≤ map.size := (boxVisit_of_pass hv).1
    omega

theorem HasHeader.lt_size (h : map.HasHeader p) : p < map.size := by
  unfold HasHeader at h
  omega

/-- A loop ends as it does from any box its walk comes to. -/
theorem BoxAt.ends_iff {e : LoopEnd ScanState} (h : map.BoxAt name p) :
    (boxVisit map name).Ends () .scanning 0 map.size e ↔
      (boxVisit map name).Ends () .scanning p map.size e := by
  induction h with
  | first => rfl
  | @next p _ hheader hname ih =>
      exact ih.trans (Visitor.ends_pass_iff (HasHeader.lt_size hheader) (boxVisit_pass hheader hname))

/-- The loop ends exactly when its walk comes to no empty box. -/
theorem ends_iff (map : GstMapInfo) (name : Option Bytes) :
    (∃ e, (boxVisit map name).Ends () .scanning 0 map.size e) ↔ ∀ p, ¬ map.EmptyBox name p := by
  constructor
  · intro ⟨e, hends⟩ p ⟨hbox, hheader, hempty⟩
    obtain ⟨fuel, hloop⟩ := hbox.ends_iff.mp hends
    have hlt := HasHeader.lt_size hheader
    rw [Visitor.loop_of_stalls (stalls_iff.mpr ⟨hheader, hempty⟩) hlt] at hloop
    cases hloop
  · intro hnone
    apply ((boxVisit_advances map name).ends_iff trivial).mpr
    intro k' s' p hcomes hstall
    exact hnone p ⟨boxAt_of_comes hcomes .first, stalls_iff.mp hstall⟩

/-! ## Both functions -/

/-- No read of the loop is outside the buffer. -/
theorem loop_ne_stopped (map : GstMapInfo) (name : Option Bytes) (fuel limit p : Nat) :
    (boxVisit map name).loop fuel k s p limit ≠ some .stopped := by
  induction fuel generalizing p with
  | zero => simp [Visitor.loop]
  | succ fuel ih =>
      by_cases hlt : p < limit
      · rw [Visitor.loop, if_pos hlt, boxVisit_eq]
        by_cases hheader : p + 4 ≤ map.size
        · rw [if_pos hheader]
          by_cases hname : name = some (map.boxName p)
          · rw [if_pos hname]
            simp
          · rw [if_neg hname]
            exact ih (map.nextBox p)
        · rw [if_neg hheader]
          simp
      · rw [Visitor.loop_done hlt]
        simp

end GstMapInfo

/-- A function that reads inside the buffer only and comes to its end. -/
structure Safe {α : Type} (run : Nat → Option (Run α)) : Prop where
  inBounds : ∀ fuel, run fuel ≠ some .outside
  terminates : ∃ fuel, run fuel ≠ none

theorem scan_ne_outside (map : GstMapInfo) (name : Option Bytes) (fuel : Nat) :
    scan map name fuel ≠ some .outside := by
  intro hscan
  obtain ⟨e, hloop, he⟩ := Option.map_eq_some_iff.mp hscan
  cases e with
  | stopped => exact GstMapInfo.loop_ne_stopped map name fuel map.size 0 hloop
  | left s cur => cases he

theorem scan_terminates_iff (map : GstMapInfo) (name : Option Bytes) :
    (∃ fuel, scan map name fuel ≠ none) ↔ ∀ p, ¬ map.EmptyBox name p := by
  rw [← GstMapInfo.ends_iff]
  unfold scan
  simp only [ne_eq, Option.map_eq_none_iff, Option.ne_none_iff_exists']
  exact exists_comm

/-- A function of the result of a scan. -/
theorem safe_map_iff {α : Type} (map : GstMapInfo) (name : Option Bytes) (f : ScanState → α) :
    Safe (fun fuel => (scan map name fuel).map (Run.map f)) ↔ ∀ p, ¬ map.EmptyBox name p := by
  rw [← scan_terminates_iff]
  constructor
  · intro h
    obtain ⟨fuel, hfuel⟩ := h.terminates
    exact ⟨fuel, fun hnone => hfuel (by rw [hnone]; rfl)⟩
  · intro ⟨fuel, hfuel⟩
    constructor
    · intro fuel houtside
      obtain ⟨r, hscan, hr⟩ := Option.map_eq_some_iff.mp houtside
      cases r with
      | outside => exact scan_ne_outside map name fuel hscan
      | returned s => cases hr
    · exact ⟨fuel, mt Option.map_eq_none_iff.mp hfuel⟩

/-- Both functions are safe exactly on the buffers in which their walks come to no empty box. -/
theorem boxSearch_iff (map : GstMapInfo) (name : Bytes) :
    (Safe (printBoxes map) ↔ ∀ p, ¬ map.EmptyBox none p) ∧
      (Safe (findBoxOffsetAndLength map name) ↔ ∀ p, ¬ map.EmptyBox (some name) p) :=
  ⟨safe_map_iff map none _, safe_map_iff map (some name) _⟩

theorem eightBytes_lt : (List.replicate 8 (0 : UInt8)).length < 2 ^ 63 := by decide

/-- Eight bytes of zero. -/
def zeroBox : GstMapInfo := ⟨List.replicate 8 0, eightBytes_lt⟩

theorem zeroBox_not_safe :
    ¬ ∀ (map : GstMapInfo) (name : Bytes),
      Safe (printBoxes map) ∧ Safe (findBoxOffsetAndLength map name) := by
  intro hall
  have hprint := (safe_map_iff zeroBox none _).mp (hall zeroBox []).1
  exact hprint 0 ⟨.first, by decide, by decide, by simp, by decide⟩

end PlayerInterface.GstSubtec
