import PlayerInterface.GstSubtec.BoxSearch

/-!
# The payload of the first `mdat`

`findBoxOffsetAndLength` gives the offset of a payload with the length of its box. The copy of
`transform_ip` takes eight bytes more than the payload has, which the buffer need not have.
-/

namespace PlayerInterface.GstSubtec

open PlayerInterface.Core

def FTYP : Bytes := fourChars 'f' 't' 'y' 'p'
def MDAT : Bytes := fourChars 'm' 'd' 'a' 't'

/-- `GST_BASE_TRANSFORM_FLOW_DROPPED`, or `GST_FLOW_OK` with what the buffer holds. -/
inductive TransformFlow where
  | dropped
  | ok (buf : Bytes)
deriving DecidableEq, Repr

/-- `memcpy(map.data, map.data + offset, length)`, with `none` where it leaves the buffer. -/
def GstMapInfo.memcpy (map : GstMapInfo) (offset length : Nat) : Option Bytes :=
  if offset + length ≤ map.size then
    some ((map.data.drop offset).take length ++ map.data.drop length)
  else none

/-- `gst_subtecmp4transform_transform_ip`. -/
def transform_ip (map : GstMapInfo) (fuel : Nat) : Option (Run TransformFlow) :=
  match findBoxOffsetAndLength map FTYP fuel with
  | none => none
  | some .outside => some .outside
  | some (.returned (some _)) => some (.returned .dropped)
  | some (.returned none) =>
      match findBoxOffsetAndLength map MDAT fuel with
      | none => none
      | some .outside => some .outside
      | some (.returned none) => some (.returned (.ok map.data))
      | some (.returned (some (offset, length))) =>
          match map.memcpy offset length with
          | none => some .outside
          | some data => some (.returned (.ok (data.take length)))

/-! ## Well-formed sequences -/

/-- Boxes that follow each other. -/
inductive Boxes where
  | nil
  | leaf (name payload : Bytes) (rest : Boxes)
  | container (name : Bytes) (children rest : Boxes)

namespace Boxes

def header (name : Bytes) (length : Nat) : Bytes := beBytes 4 (8 + length) ++ name

def bytes : Boxes → Bytes
  | nil => []
  | leaf name payload rest => header name payload.length ++ (payload ++ rest.bytes)
  | container name children rest =>
      header name children.bytes.length ++ (children.bytes ++ rest.bytes)

/-- Names have four letters, sizes fit their word, and the containers are those of `isContainer`. -/
def WellFormed : Boxes → Prop
  | nil => True
  | leaf name payload rest =>
      name.length = 4 ∧ isContainer name = false ∧ 8 + payload.length < 2 ^ 32 ∧ rest.WellFormed
  | container name children rest =>
      name.length = 4 ∧ isContainer name = true ∧ 8 + children.bytes.length < 2 ^ 32 ∧
        children.WellFormed ∧ rest.WellFormed

/-- The payload of the first box of a name that is no container's. -/
def first (name : Bytes) : Boxes → Option Bytes
  | nil => none
  | leaf type payload rest => if type = name then some payload else rest.first name
  | container _ children rest => (children.first name).or (rest.first name)

end Boxes

/-- What `transform_ip` is to do: leave the payload of the first `mdat`, and stay in the buffer. -/
structure LeavesPayload (map : GstMapInfo) : Prop where
  payload : ∀ boxes : Boxes, boxes.WellFormed → map.data = boxes.bytes → boxes.first FTYP = none →
    ∀ payload, boxes.first MDAT = some payload →
      ∃ fuel, transform_ip map fuel = some (.returned (.ok payload))
  inBounds : ∀ fuel, transform_ip map fuel ≠ some .outside

/-! ## The end of a search -/

namespace GstMapInfo

variable {map : GstMapInfo} {name : Bytes} {p q : Nat}

/-- The loop that looks for `name` leaves at `q`, with this state. -/
def StopsAt (map : GstMapInfo) (name : Bytes) (q : Nat) : ScanState → Prop
  | .scanning => map.size ≤ q
  | .parseError => q < map.size ∧ ¬ map.HasHeader q
  | .found boxOffset boxLength => map.HasHeader q ∧ map.boxName q = name ∧ boxOffset = q + 8 ∧
      boxLength = map.boxSize q

theorem StopsAt.ends {s : ScanState} (h : map.StopsAt name q s) :
    (boxVisit map (some name)).Ends () .scanning q map.size (.left s q) := by
  cases s with
  | scanning => exact Visitor.ends_done (Nat.not_lt.mpr h)
  | parseError =>
      apply Visitor.ends_leave h.1
      rw [boxVisit_eq, if_neg h.2]
  | found boxOffset boxLength =>
      obtain ⟨hheader, rfl, rfl, rfl⟩ := h
      apply Visitor.ends_leave (HasHeader.lt_size hheader)
      rw [boxVisit_eq, if_pos hheader, if_pos rfl]

/-- A loop leaves at one box of its walk. -/
theorem stopsAt_of_loop {fuel : Nat} {e : LoopEnd ScanState} (hbox : map.BoxAt (some name) p)
    (h : (boxVisit map (some name)).loop fuel () .scanning p map.size = some e) :
    ∃ s q, e = .left s q ∧ map.BoxAt (some name) q ∧ map.StopsAt name q s := by
  induction fuel generalizing p with
  | zero => cases h
  | succ fuel ih =>
      by_cases hlt : p < map.size
      · rw [Visitor.loop, if_pos hlt, boxVisit_eq] at h
        by_cases hheader : p + 4 ≤ map.size
        · rw [if_pos hheader] at h
          by_cases hname : some name = some (map.boxName p)
          · rw [if_pos hname] at h
            cases h
            exact ⟨_, p, rfl, hbox, hheader, (Option.some.inj hname).symm, rfl, rfl⟩
          · rw [if_neg hname] at h
            exact ih (hbox.next hheader hname) h
        · rw [if_neg hheader] at h
          cases h
          exact ⟨_, p, rfl, hbox, hlt, hheader⟩
      · rw [Visitor.loop_done hlt] at h
        cases h
        exact ⟨_, p, rfl, hbox, Nat.le_of_not_lt hlt⟩

/-- A search that ends does so at one box of its walk. -/
theorem scan_iff {s : ScanState} : (∃ fuel, scan map (some name) fuel = some (.returned s)) ↔
    ∃ q, map.BoxAt (some name) q ∧ map.StopsAt name q s := by
  constructor
  · intro ⟨fuel, hscan⟩
    obtain ⟨e, hloop, he⟩ := Option.map_eq_some_iff.mp hscan
    obtain ⟨s', q, rfl, hbox, hstops⟩ := stopsAt_of_loop .first hloop
    cases he
    exact ⟨q, hbox, hstops⟩
  · intro ⟨q, hbox, hstops⟩
    obtain ⟨fuel, hloop⟩ := hbox.ends_iff.mpr hstops.ends
    exact ⟨fuel, by rw [scan, hloop]; rfl⟩

theorem scan_mono {name : Option Bytes} {fuel fuel' : Nat} (hle : fuel ≤ fuel') {r : Run ScanState}
    (h : scan map name fuel = some r) : scan map name fuel' = some r := by
  obtain ⟨e, hloop, he⟩ := Option.map_eq_some_iff.mp h
  exact Option.map_eq_some_iff.mpr ⟨e, Visitor.loop_mono hle hloop, he⟩

/-- Whatever the fuel is, a search that ends does not end otherwise. -/
theorem scan_unique {name : Option Bytes} {fuel fuel' : Nat} {r r' : Run ScanState}
    (h : scan map name fuel = some r) (h' : scan map name fuel' = some r') : r = r' := by
  have hmax := scan_mono (Nat.le_max_left fuel fuel') h
  have hmax' := scan_mono (Nat.le_max_right fuel fuel') h'
  exact Option.some.inj (hmax.symm.trans hmax')

theorem find_eq_found_iff {fuel boxOffset boxLength : Nat} :
    findBoxOffsetAndLength map name fuel = some (.returned (some (boxOffset, boxLength))) ↔
      scan map (some name) fuel = some (.returned (.found boxOffset boxLength)) := by
  unfold findBoxOffsetAndLength
  constructor
  · intro hfind
    obtain ⟨r, hscan, hr⟩ := Option.map_eq_some_iff.mp hfind
    cases r with
    | outside => cases hr
    | returned s =>
        cases s with
        | scanning | parseError => cases hr
        | found _ _ =>
            cases hr
            exact hscan
  · intro hscan
    rw [hscan]
    rfl

theorem find_eq_none_iff {fuel : Nat} :
    findBoxOffsetAndLength map name fuel = some (.returned none) ↔
      ∃ s, scan map (some name) fuel = some (.returned s) ∧ ∀ o l, s ≠ .found o l := by
  unfold findBoxOffsetAndLength
  constructor
  · intro hfind
    obtain ⟨r, hscan, hr⟩ := Option.map_eq_some_iff.mp hfind
    cases r with
    | outside => cases hr
    | returned s =>
        cases s with
        | scanning | parseError => exact ⟨_, hscan, by simp⟩
        | found _ _ => cases hr
  · intro ⟨s, hscan, hs⟩
    rw [hscan]
    cases s with
    | scanning | parseError => rfl
    | found o l => exact absurd rfl (hs o l)

/-- The walk comes to a box of this name. -/
def Meets (map : GstMapInfo) (name : Bytes) (q : Nat) : Prop :=
  map.BoxAt (some name) q ∧ map.HasHeader q ∧ map.boxName q = name

/-- The walk comes to its end without a box of this name. -/
def EndsWithout (map : GstMapInfo) (name : Bytes) : Prop :=
  (∀ q, ¬ map.EmptyBox (some name) q) ∧ ∀ q, ¬ map.Meets name q

theorem Meets.scan (h : map.Meets name q) : ∃ fuel,
    scan map (some name) fuel = some (.returned (.found (q + 8) (map.boxSize q))) :=
  scan_iff.mpr ⟨q, h.1, h.2.1, h.2.2, rfl, rfl⟩

theorem meets_of_scan {fuel boxOffset boxLength : Nat}
    (h : scan map (some name) fuel = some (.returned (.found boxOffset boxLength))) :
    ∃ q, map.Meets name q ∧ boxOffset = q + 8 ∧ boxLength = map.boxSize q := by
  obtain ⟨q, hbox, hheader, hname, hoffset, hlength⟩ := scan_iff.mp ⟨fuel, h⟩
  exact ⟨q, ⟨hbox, hheader, hname⟩, hoffset, hlength⟩

theorem find_eq_none_iff_endsWithout :
    (∃ fuel, findBoxOffsetAndLength map name fuel = some (.returned none)) ↔
      map.EndsWithout name := by
  constructor
  · intro ⟨fuel, hfind⟩
    obtain ⟨s, hscan, hs⟩ := find_eq_none_iff.mp hfind
    constructor
    · exact (scan_terminates_iff map (some name)).mp ⟨fuel, by simp [hscan]⟩
    · intro q hmeets
      obtain ⟨fuel', hfound⟩ := hmeets.scan
      cases scan_unique hscan hfound
      exact hs _ _ rfl
  · intro ⟨hempty, hmeets⟩
    obtain ⟨fuel, hfuel⟩ := (scan_terminates_iff map (some name)).mpr hempty
    obtain ⟨r, hscan⟩ := Option.ne_none_iff_exists'.mp hfuel
    cases r with
    | outside => exact absurd hscan (scan_ne_outside map (some name) fuel)
    | returned s =>
        refine ⟨fuel, find_eq_none_iff.mpr ⟨s, hscan, fun o l hs => ?_⟩⟩
        rw [hs] at hscan
        obtain ⟨q, hq, _⟩ := meets_of_scan hscan
        exact hmeets q hq

/-! ## The copy -/

/-- `transform_ip` copies what it takes for the payload of the `mdat` at `p`. -/
def Copies (map : GstMapInfo) (p : Nat) : Prop := map.EndsWithout FTYP ∧ map.Meets MDAT p

theorem Copies.run (h : map.Copies p) : ∃ fuel, transform_ip map fuel =
    match map.memcpy (p + 8) (map.boxSize p) with
    | none => some .outside
    | some data => some (.returned (.ok (data.take (map.boxSize p)))) := by
  obtain ⟨fuel, hftyp⟩ := find_eq_none_iff_endsWithout.mpr h.1
  obtain ⟨fuel', hmdat⟩ := h.2.scan
  obtain ⟨s, hscan, hs⟩ := find_eq_none_iff.mp hftyp
  have hftyp := find_eq_none_iff.mpr ⟨s, scan_mono (Nat.le_max_left fuel fuel') hscan, hs⟩
  have hmdat := find_eq_found_iff.mpr (scan_mono (Nat.le_max_right fuel fuel') hmdat)
  refine ⟨max fuel fuel', ?_⟩
  rw [GstSubtec.transform_ip, hftyp]
  dsimp only
  rw [hmdat]

theorem find_ne_outside (map : GstMapInfo) (name : Bytes) (fuel : Nat) :
    findBoxOffsetAndLength map name fuel ≠ some .outside := by
  intro hfind
  obtain ⟨r, hscan, hr⟩ := Option.map_eq_some_iff.mp hfind
  cases r with
  | outside => exact scan_ne_outside map (some name) fuel hscan
  | returned s => cases hr

/-- What a run of `transform_ip` comes to. -/
theorem transform_ip_cases {fuel : Nat} {r : Run TransformFlow}
    (h : transform_ip map fuel = some r) :
    r = .returned .dropped ∨ (∀ p, ¬ map.Copies p) ∧ r = .returned (.ok map.data) ∨
      ∃ p, map.Copies p ∧ some r =
        match map.memcpy (p + 8) (map.boxSize p) with
        | none => some .outside
        | some data => some (.returned (.ok (data.take (map.boxSize p)))) := by
  unfold GstSubtec.transform_ip at h
  split at h
  case h_1 => cases h
  case h_2 houtside => exact absurd houtside (find_ne_outside map FTYP fuel)
  case h_3 => exact Or.inl (Option.some.inj h).symm
  case h_4 hftyp =>
      have hwithout := find_eq_none_iff_endsWithout.mp ⟨fuel, hftyp⟩
      split at h
      case h_1 => cases h
      case h_2 houtside => exact absurd houtside (find_ne_outside map MDAT fuel)
      case h_3 hmdat =>
          have hnone := find_eq_none_iff_endsWithout.mp ⟨fuel, hmdat⟩
          exact Or.inr (Or.inl ⟨fun p hp => hnone.2 p hp.2, (Option.some.inj h).symm⟩)
      case h_4 offset length hmdat =>
          obtain ⟨p, hmeets, rfl, rfl⟩ := meets_of_scan (find_eq_found_iff.mp hmdat)
          exact Or.inr (Or.inr ⟨p, ⟨hwithout, hmeets⟩, h.symm⟩)

theorem inBounds_iff : (∀ fuel, transform_ip map fuel ≠ some .outside) ↔
    ∀ p, map.Copies p → p + 8 + map.boxSize p ≤ map.size := by
  constructor
  · intro hin p hcopies
    obtain ⟨fuel, hrun⟩ := hcopies.run
    by_contra hlong
    rw [memcpy, if_neg hlong] at hrun
    exact hin fuel hrun
  · intro hsizes fuel houtside
    obtain hdropped | hkept | ⟨p, hcopies, hrun⟩ := transform_ip_cases houtside
    · cases hdropped
    · cases hkept.2
    · rw [memcpy, if_pos (hsizes p hcopies)] at hrun
      cases hrun

/-! ## Walking over a well-formed sequence -/

theorem header_at {length : Nat} {tail : Bytes} (hname : name.length = 4)
    (hlength : 8 + length < 2 ^ 32) (hdata : map.data.drop p = Boxes.header name length ++ tail) :
    map.HasHeader p ∧ map.boxSize p = 8 + length ∧ map.boxName p = name ∧
      map.data.drop (p + 8) = tail := by
  have hbytes : (beBytes 4 (8 + length)).length = 4 := beBytes_length 4 _
  have hheader : (Boxes.header name length).length = 8 := by
    rw [Boxes.header, List.length_append, hbytes, hname]
  have hroom : p + 8 ≤ map.size := by
    have hlen := congrArg List.length hdata
    rw [List.length_drop, List.length_append, hheader] at hlen
    unfold size
    omega
  have hsize : (map.data.drop p).take 4 = beBytes 4 (8 + length) := by
    rw [hdata, Boxes.header, List.append_assoc, List.take_left' hbytes]
  have htype : (map.data.drop (p + 4)).take 4 = name := by
    rw [← List.drop_drop, hdata, Boxes.header, List.append_assoc, List.drop_left' hbytes,
      List.take_left' hname]
  have htail : map.data.drop (p + 8) = tail := by
    rw [← List.drop_drop, hdata, List.drop_left' hheader]
  refine ⟨by unfold HasHeader; omega, ?_, ?_, htail⟩
  · rw [boxSize, hsize, be_beBytes_of_lt (by omega)]
  · rw [boxName, if_pos hroom, htype]

/-- What a walk over boxes comes to: the box that is looked for, or the bytes behind. -/
def WalksTo (map : GstMapInfo) (name : Bytes) (fin : Nat) (rest : Bytes) : Option Bytes → Prop
  | none => map.BoxAt (some name) fin ∧ map.data.drop fin = rest
  | some payload => ∃ q, map.Meets name q ∧ map.boxSize q = 8 + payload.length

theorem length_header {name : Bytes} (hname : name.length = 4) (length : Nat) :
    (Boxes.header name length).length = 8 := by
  rw [Boxes.header, List.length_append, beBytes_length, hname]

theorem walk_boxes (hname : isContainer name = false) (boxes : Boxes) (hboxes : boxes.WellFormed)
    {rest : Bytes} (hdata : map.data.drop p = boxes.bytes ++ rest) (hp : map.BoxAt (some name) p) :
    map.WalksTo name (p + boxes.bytes.length) rest (boxes.first name) := by
  induction boxes generalizing p rest with
  | nil => exact ⟨hp, hdata⟩
  | leaf type payload boxes ih =>
      obtain ⟨hfour, hkind, hlength, hboxes⟩ := hboxes
      rw [Boxes.bytes, List.append_assoc, List.append_assoc] at hdata
      obtain ⟨hheader, hsize, htype, htail⟩ := header_at hfour hlength hdata
      rw [Boxes.first]
      by_cases heq : type = name
      · rw [if_pos heq]
        exact ⟨p, ⟨hp, hheader, htype.trans heq⟩, hsize⟩
      · have hnext : map.nextBox p = p + 8 + payload.length := by
          rw [nextBox, htype, hkind, hsize, if_neg Bool.false_ne_true, Nat.add_assoc]
        have hbox := hp.next hheader (by simpa [htype, eq_comm] using heq)
        rw [hnext] at hbox
        have hbehind := ih hboxes (by rw [← List.drop_drop, htail, List.drop_left]) hbox
        rw [if_neg heq, Boxes.bytes, List.length_append, List.length_append, length_header hfour]
        rw [Nat.add_assoc, Nat.add_assoc] at hbehind
        exact hbehind
  | container type children boxes ihChildren ih =>
      obtain ⟨hfour, hkind, hlength, hchildren, hboxes⟩ := hboxes
      rw [Boxes.bytes, List.append_assoc, List.append_assoc] at hdata
      obtain ⟨hheader, hsize, htype, htail⟩ := header_at hfour hlength hdata
      have hnext : map.nextBox p = p + 8 := by rw [nextBox, htype, hkind, if_pos rfl]
      have hother : type ≠ name := fun heq => by
        rw [heq, hname] at hkind
        cases hkind
      have hbox := hp.next hheader (by simpa [htype, eq_comm] using hother)
      rw [hnext] at hbox
      have hinside := ihChildren hchildren htail hbox
      rw [Boxes.first]
      cases hfound : children.first name with
      | some payload =>
          rw [hfound] at hinside
          exact hinside
      | none =>
          rw [hfound] at hinside
          obtain ⟨hbehind, hdata⟩ := hinside
          have hrest := ih hboxes hdata hbehind
          rw [Boxes.bytes, List.length_append, List.length_append, length_header hfour]
          rw [Nat.add_assoc, Nat.add_assoc] at hrest
          exact hrest

theorem isContainer_FTYP : isContainer FTYP = false := by decide

theorem isContainer_MDAT : isContainer MDAT = false := by decide

/-- A well-formed sequence with an `mdat` and without an `ftyp` is one that is copied. -/
theorem copies_of_wellFormed {boxes : Boxes} (hboxes : boxes.WellFormed)
    (hdata : map.data = boxes.bytes) (hftyp : boxes.first FTYP = none) {payload : Bytes}
    (hmdat : boxes.first MDAT = some payload) :
    ∃ p, map.Copies p ∧ map.boxSize p = 8 + payload.length := by
  have hstart : map.data.drop 0 = boxes.bytes ++ [] := by rw [List.drop_zero, hdata, List.append_nil]
  have hwalk := walk_boxes isContainer_FTYP boxes hboxes hstart .first
  rw [hftyp] at hwalk
  obtain ⟨hend, _⟩ := hwalk
  have hsize : map.size ≤ 0 + boxes.bytes.length := by
    rw [Nat.zero_add, ← hdata]
    exact Nat.le_refl _
  obtain ⟨fuel, hscan⟩ := scan_iff.mpr ⟨_, hend, show map.StopsAt FTYP _ .scanning from hsize⟩
  have hfind := find_eq_none_iff.mpr ⟨_, hscan, by simp⟩
  have hfound := walk_boxes isContainer_MDAT boxes hboxes hstart .first
  rw [hmdat] at hfound
  obtain ⟨p, hmeets, hlength⟩ := hfound
  exact ⟨p, ⟨find_eq_none_iff_endsWithout.mp ⟨fuel, hfind⟩, hmeets⟩, hlength⟩

theorem Copies.unique (h : map.Copies p) (h' : map.Copies q) : p = q := by
  obtain ⟨fuel, hscan⟩ := h.2.scan
  obtain ⟨fuel', hscan'⟩ := h'.2.scan
  have heq := scan_unique hscan hscan'
  simp only [Run.returned.injEq, ScanState.found.injEq] at heq
  omega

/-- What is left of it has the length of the box. -/
theorem Copies.not_payload (h : map.Copies p) {payload : Bytes}
    (hsize : map.boxSize p = 8 + payload.length) (fuel : Nat) :
    GstSubtec.transform_ip map fuel ≠ some (.returned (.ok payload)) := by
  intro hrun
  obtain hdropped | ⟨hnone, _⟩ | ⟨q, hcopies, hq⟩ := transform_ip_cases hrun
  · cases hdropped
  · exact hnone p h
  · obtain rfl := h.unique hcopies
    rw [memcpy] at hq
    by_cases hroom : p + 8 + map.boxSize p ≤ map.size
    · rw [if_pos hroom] at hq
      have hbuf := TransformFlow.ok.inj (Run.returned.inj (Option.some.inj hq))
      have hlength := congrArg List.length hbuf
      unfold size at hroom
      rw [List.length_take, List.length_append, List.length_take, List.length_drop] at hlength
      omega
    · rw [if_neg hroom] at hq
      cases hq

end GstMapInfo

/-- `transform_ip` does what it is to do exactly when there is nothing to do, and what it copies then
ends eight bytes behind its box. -/
theorem leavesPayload_iff (map : GstMapInfo) : LeavesPayload map ↔
    (∀ boxes : Boxes, boxes.WellFormed → map.data = boxes.bytes → boxes.first FTYP = none →
      boxes.first MDAT = none) ∧
    ∀ p, map.Copies p → p + 8 + map.boxSize p ≤ map.size := by
  constructor
  · intro h
    refine ⟨fun boxes hboxes hdata hftyp => ?_, GstMapInfo.inBounds_iff.mp h.inBounds⟩
    cases hmdat : boxes.first MDAT with
    | none => rfl
    | some payload =>
        obtain ⟨p, hcopies, hsize⟩ := GstMapInfo.copies_of_wellFormed hboxes hdata hftyp hmdat
        obtain ⟨fuel, hrun⟩ := h.payload boxes hboxes hdata hftyp payload hmdat
        exact absurd hrun (hcopies.not_payload hsize fuel)
  · intro ⟨hnone, hsizes⟩
    constructor
    · intro boxes hboxes hdata hftyp payload hmdat
      rw [hnone boxes hboxes hdata hftyp] at hmdat
      cases hmdat
    · exact GstMapInfo.inBounds_iff.mpr hsizes

/-- An `mdat` with one byte. -/
def oneByte : Boxes := .leaf MDAT [65] .nil

theorem oneByte_lt : oneByte.bytes.length < 2 ^ 63 := by decide

theorem oneByte_not_leavesPayload : ¬ ∀ map : GstMapInfo, LeavesPayload map := by
  intro hall
  have hnone := ((leavesPayload_iff _).mp (hall ⟨oneByte.bytes, oneByte_lt⟩)).1
  have hmdat := hnone oneByte ⟨by decide, by decide, by decide, trivial⟩ rfl (by decide)
  have hfirst : oneByte.first MDAT = some [65] := by decide
  rw [hfirst] at hmdat
  cases hmdat

end PlayerInterface.GstSubtec
