import PlayerInterface.IsoBmff.Passing

/-!
# The track ids of a movie

`parseBuffer` hands a new track id down to the `trak` boxes, which write it into their
`tkhd`. The loop of a `trak` adds its cursor to a pointer that has moved along with the
cursor, so it finds the id of a `tkhd` that comes first, and others only by chance.
-/

namespace PlayerInterface.IsoBmff

open PlayerInterface.Core Reader

/-! ## Movies -/

structure TkhdFields where
  version1 : Bool
  flags : Word 3
  creation_time : Word (timeWidth version1)
  modification_time : Word (timeWidth version1)
  track_ID : Word 4
  rest : Bytes

/-- The fields in front of the track id. -/
def TkhdFields.front (b : TkhdFields) : Bytes :=
  versionByte b.version1 ++ (b.flags.bytes ++
    (b.creation_time.bytes ++ b.modification_time.bytes))

def TkhdFields.bytes (b : TkhdFields) : Bytes := b.front ++ (b.track_ID.bytes ++ b.rest)

def Tree.type : Tree → FourCC
  | .leaf l => l.type
  | .node kind _ => kind.type

/-- One `tkhd` among other children, none of which is a `trak` or has one. -/
structure TrakFields where
  before : List Tree
  tkhd : TkhdFields
  after : List Tree
  others : ∀ t ∈ before ++ after, t.noTrak = true ∧ t.type ≠ TKHD

def TrakFields.body (f : TrakFields) : Bytes :=
  forestBytes f.before ++ (boxBytes TKHD f.tkhd.bytes ++ forestBytes f.after)

inductive MoovChild where
  | other (t : Tree) (noTrak : t.noTrak = true)
  | trak (fields : TrakFields)

def MoovChild.bytes : MoovChild → Bytes
  | other t _ => t.bytes
  | trak f => boxBytes TRAK f.body

def childrenBytes : List MoovChild → Bytes
  | [] => []
  | c :: cs => c.bytes ++ childrenBytes cs

/-- A buffer with one `moov`, and no `trak` in the boxes beside it. -/
structure Movie where
  before : List Tree
  children : List MoovChild
  after : List Tree
  first : ∀ t ∈ before, t.noTrak = true ∧ t.type ≠ MOOV
  last : ∀ t ∈ after, t.noTrak = true

def Movie.bytes (s : Movie) : Bytes :=
  forestBytes s.before ++ (boxBytes MOOV (childrenBytes s.children) ++ forestBytes s.after)

/-! ## Its track ids -/

/-- The word an `int` argument is written as, if it is written. -/
def newTrackIdWord (newTrackId : Int) : Option (Word 4) :=
  if newTrackId = -1 then none else some (.ofNat (newTrackId % 2 ^ 32).toNat)

def TkhdFields.retrack (id : Option (Word 4)) (b : TkhdFields) : TkhdFields :=
  { b with track_ID := id.getD b.track_ID }

def TrakFields.retrack (id : Option (Word 4)) (f : TrakFields) : TrakFields :=
  { f with tkhd := f.tkhd.retrack id }

def MoovChild.retrack (id : Option (Word 4)) : MoovChild → MoovChild
  | other t h => other t h
  | trak f => trak (f.retrack id)

/-- The movie with a new track id in every `tkhd`. -/
def Movie.retrack (id : Option (Word 4)) (s : Movie) : Movie :=
  { s with children := s.children.map (MoovChild.retrack id) }

def MoovChild.trackId : MoovChild → Option Nat
  | other _ _ => none
  | trak f => some f.tkhd.track_ID.toNat

def Movie.trackIds (s : Movie) : List Nat := s.children.filterMap MoovChild.trackId

def IsoBmffBox.children : IsoBmffBox → List IsoBmffBox
  | .container _ children => children
  | .trak _ children _ => children
  | _ => []

def IsoBmffBox.getTrack_Id : IsoBmffBox → Option Nat
  | .trak _ _ track_id => some track_id
  | _ => none

/-- What the `trak` objects of the first `moov` show. -/
def getTrack_Ids : List IsoBmffBox → List Nat
  | [] => []
  | box :: boxes =>
      if box.getType = MOOV then box.children.filterMap IsoBmffBox.getTrack_Id
      else getTrack_Ids boxes

/-- Parsing the movie with this argument changes the track ids and nothing else, and the
objects show the ids that are then stored. -/
def Movie.Retracks (s : Movie) (beyond : Mem) (newTrackId : Int) : Prop :=
  ∃ fuel r,
    parseBuffer fuel (Mem.ofBytes s.bytes beyond) s.bytes.length false newTrackId = some r ∧
      r.heap.mem = Mem.ofBytes (s.retrack (newTrackIdWord newTrackId)).bytes beyond ∧
      getTrack_Ids r.boxes = (s.retrack (newTrackIdWord newTrackId)).trackIds

/-- The `tkhd` comes first; or it has version 1, eight bytes in front of it, and no one in
the byte of its creation time that is then taken for the version. -/
def TrakFields.Placed (f : TrakFields) : Prop :=
  f.before = [] ∨
    ((forestBytes f.before).length = 8 ∧ f.tkhd.version1 = true ∧ f.tkhd.bytes.getD 8 0 ≠ 1)

def MoovChild.Placed : MoovChild → Prop
  | other _ _ => True
  | trak f => f.Placed

def Movie.Placed (s : Movie) : Prop := ∀ c ∈ s.children, c.Placed

/-! ## Lengths -/

theorem TkhdFields.front_length (b : TkhdFields) :
    b.front.length = 4 + (timeWidth b.version1 + timeWidth b.version1) := by
  simp only [front, List.length_append, versionByte_length, Word.bytes_length]
  omega

theorem TkhdFields.retrack_length (id : Option (Word 4)) (b : TkhdFields) :
    (b.retrack id).bytes.length = b.bytes.length := by
  simp only [bytes, List.length_append, Word.bytes_length]
  rfl

theorem TrakFields.body_length (f : TrakFields) :
    f.body.length = (forestBytes f.before).length +
      (8 + f.tkhd.bytes.length + (forestBytes f.after).length) := by
  rw [body, List.length_append, List.length_append, boxBytes_length]

theorem TrakFields.retrack_length (id : Option (Word 4)) (f : TrakFields) :
    (f.retrack id).body.length = f.body.length := by
  simp only [body, retrack, List.length_append, boxBytes_length, TkhdFields.retrack_length]

theorem MoovChild.retrack_length (id : Option (Word 4)) (c : MoovChild) :
    (c.retrack id).bytes.length = c.bytes.length := by
  cases c with
  | other t h => rfl
  | trak f => rw [retrack, bytes, bytes, boxBytes_length, boxBytes_length, f.retrack_length]

theorem childrenBytes_retrack_length (id : Option (Word 4)) (cs : List MoovChild) :
    (childrenBytes (cs.map (MoovChild.retrack id))).length = (childrenBytes cs).length := by
  induction cs with
  | nil => rfl
  | cons c cs ih =>
      rw [List.map_cons, childrenBytes, childrenBytes, List.length_append, List.length_append,
        c.retrack_length, ih]

theorem Movie.bytes_length (s : Movie) :
    s.bytes.length = (forestBytes s.before).length +
      (8 + (childrenBytes s.children).length + (forestBytes s.after).length) := by
  rw [bytes, List.length_append, List.length_append, boxBytes_length]

theorem Movie.retrack_length (id : Option (Word 4)) (s : Movie) :
    (s.retrack id).bytes.length = s.bytes.length := by
  simp only [bytes, retrack, List.length_append, boxBytes_length, childrenBytes_retrack_length]

theorem childrenBytes_append (cs ds : List MoovChild) :
    childrenBytes (cs ++ ds) = childrenBytes cs ++ childrenBytes ds := by
  induction cs with
  | nil => rfl
  | cons c cs ih => rw [List.cons_append, childrenBytes, childrenBytes, ih, List.append_assoc]

theorem Tree.bytes_pos (t : Tree) : 8 ≤ t.bytes.length := by
  cases t <;> rw [Tree.bytes, boxBytes_length] <;> omega

/-- Children in front of another one take the bytes of a header at least. -/
theorem forestBytes_length_ge {ts : List Tree} (h : ts ≠ []) : 8 ≤ (forestBytes ts).length := by
  cases ts with
  | nil => exact absurd rfl h
  | cons t ts =>
      have hpos := t.bytes_pos
      rw [forestBytes, List.length_append]
      omega

/-! ## Where the id is looked for -/

section
variable {m : Mem} {p : Nat} {f : TrakFields}

/-- The byte eight bytes behind the version, which an empty box in front makes the version. -/
theorem shifted_version (h : Holds m p f.tkhd.bytes) :
    (m (p + 8)).toNat = 1 ↔ f.tkhd.bytes.getD 8 0 = 1 := by
  have hfront := f.tkhd.front_length
  have hwidth : 4 ≤ timeWidth f.tkhd.version1 := by cases f.tkhd.version1 <;> decide
  have hlength : 8 < f.tkhd.bytes.length := by
    rw [TkhdFields.bytes, List.length_append, List.length_append, Word.bytes_length]
    omega
  rw [h.getD hlength]
  exact ⟨fun h1 => UInt8.toNat_inj.mp h1, fun h1 => congrArg UInt8.toNat h1⟩

theorem trackIdLoc_eq (m : Mem) (q : Nat) :
    trackIdLoc m q = q + 4 + if (m q).toNat = 1 then 16 else 8 := by
  rw [trackIdLoc, m.be_one]

/-- With a version behind the children in front of the `tkhd`, the id is found in a `tkhd`
that is placed well, and looked for behind it otherwise. -/
theorem trackIdLoc_placed (h : Holds m p f.tkhd.bytes) (hplaced : f.Placed) :
    trackIdLoc m (p + (forestBytes f.before).length) = p + f.tkhd.front.length := by
  rw [f.tkhd.front_length, trackIdLoc_eq]
  rcases hplaced with hnone | ⟨hbytes, hversion, hone⟩
  · have hversion := version_stored (holds_append.mp (holds_append.mp h).1).1
    rw [m.be_one] at hversion
    rw [hnone]
    change p + 4 + (if (m p).toNat = 1 then 16 else 8) = _
    rw [hversion]
    cases f.tkhd.version1 <;> simp [timeWidth]
  · rw [hbytes, if_neg (fun h1 => hone ((shifted_version h).mp h1)), hversion]
    simp only [timeWidth, if_true]

theorem trackIdLoc_misplaced (h : Holds m p f.tkhd.bytes) (hplaced : ¬ f.Placed) :
    p + f.tkhd.front.length < trackIdLoc m (p + (forestBytes f.before).length) := by
  rw [f.tkhd.front_length, trackIdLoc_eq]
  have h8 : 8 ≤ (forestBytes f.before).length :=
    forestBytes_length_ge fun hnone => hplaced (Or.inl hnone)
  have hwidth : timeWidth f.tkhd.version1 ≤ 8 := by cases f.tkhd.version1 <;> decide
  rcases Nat.lt_or_ge 8 (forestBytes f.before).length with hmore | hexact
  · split <;> omega
  · have hbytes : (forestBytes f.before).length = 8 := by omega
    rw [hbytes]
    by_cases hversion : f.tkhd.version1 = true
    · have hone : f.tkhd.bytes.getD 8 0 = 1 := by
        by_contra hone
        exact hplaced (Or.inr ⟨hbytes, hversion, hone⟩)
      rw [if_pos ((shifted_version h).mpr hone)]
      omega
    · have hshort : timeWidth f.tkhd.version1 = 4 := by simp [timeWidth, hversion]
      split <;> omega

end

/-! ## Boxes without a track id -/

@[simp] theorem IsoBmffBox.getTrack_Id_setOffset (box : IsoBmffBox) (os : Nat) :
    (box.setOffset os).getTrack_Id = box.getTrack_Id := by
  cases box <;> rfl

theorem getType_of_view {box : IsoBmffBox} {t : Tree} {os : Nat}
    (h : (box.setOffset os).view = t.view os) : box.getType = t.type := by
  cases t with
  | leaf l =>
      cases box <;> simp only [IsoBmffBox.setOffset, IsoBmffBox.view, Tree.view, BoxView.leaf.injEq,
        reduceCtorEq] at h <;> exact h.1
  | node kind children =>
      cases box <;> simp only [IsoBmffBox.setOffset, IsoBmffBox.view, Tree.view, BoxView.node.injEq,
        reduceCtorEq] at h <;> exact h.1

/-- Boxes of this type are not looked at by the loop of a `trak`. -/
def BoxLoop.Ignores (type : FourCC) : BoxLoop → Prop
  | trak _ _ => type ≠ TKHD
  | _ => True

section
variable {L : BoxLoop} {cur ptr : Nat} {v : LoopVars} {h : Heap}

theorem BoxLoop.Ignores.patch {type : FourCC} (hL : L.Ignores type) (cur ptr : Nat) (m : Mem) :
    L.patch cur ptr type m = m := by
  cases L with
  | buffer n c tid => rfl
  | container sz tid => rfl
  | trak sz tid => exact if_neg fun hboth => hL hboth.1

theorem BoxLoop.Ignores.track_id {box : IsoBmffBox} (hL : L.Ignores box.getType) (cur ptr : Nat)
    (v : LoopVars) (h : Heap) : (L.behind cur ptr box v h).1.track_id = v.track_id := by
  cases L with
  | buffer n c tid =>
      unfold behind visit
      dsimp only
      split <;> rfl
  | container sz tid => rfl
  | trak sz tid =>
      have hignored : ¬ (box.setOffset cur).getType = TKHD := by
        rw [IsoBmffBox.getType_setOffset]
        exact hL
      simp only [behind, visit, if_neg hignored]

/-- A stored tree without a `trak` makes a box that shows no track id. -/
theorem getTrack_Id_stored {t : Tree} {maxSz : Nat} {tid : Int} {fuel : Nat} {box : IsoBmffBox}
    {h' : Heap} (hplain : t.noTrak = true) (hb : Holds h.mem ptr t.bytes)
    (hroom : t.bytes.length ≤ maxSz) (hlt : maxSz < 2 ^ 32)
    (hc : constructBox (boxLoop fuel) ptr maxSz false tid h = some (box, h'))
    (hview : (box.setOffset cur).view = t.view cur) : box.getTrack_Id = none := by
  cases t with
  | leaf l =>
      cases box <;> simp only [IsoBmffBox.setOffset, IsoBmffBox.view, Tree.view,
        reduceCtorEq] at hview <;> rfl
  | node kind children =>
      rw [Tree.bytes, boxBytes_length] at hroom
      rw [constructBox_stored hb hroom hlt] at hc
      have hkind : boxKind kind.type = .container := by
        cases kind with
        | trak => simp [Tree.noTrak] at hplain
        | _ => rfl
      simp only [constructBody, hkind, constructContainer] at hc
      split at hc
      · cases hc
      · cases hc
        rfl

theorem tree_passes (t : Tree) (hL : L.correct = false) (hplain : t.noTrak = true)
    (hignored : L.Ignores t.type) (hb : Holds h.mem ptr t.bytes)
    (hfit : cur + t.bytes.length ≤ L.limit) (hlt : L.limit < 2 ^ 32) :
    ∃ box v' h', Passes L cur ptr v h t.bytes.length [box] v' h' ∧ h'.mem = h.mem ∧
      v'.track_id = v.track_id ∧ box.getType = t.type ∧ box.getTrack_Id = none := by
  have hpos := t.bytes_pos
  have hroom := L.room_eq hlt cur
  rcases @tree_stored t cur ptr (L.room cur) L.childTrackId h (.inr hplain) hb (by omega)
    (L.room_lt cur) with ⟨fuel, box, h₁, hc, hview, hmem⟩
  have htype := getType_of_view hview
  have hsize := getSize_of_view hview
  have hid := getTrack_Id_stored hplain hb (by omega) (L.room_lt cur) hc hview
  rw [← hL] at hc
  have hpass := Passes.box (v := v) hc (by omega) (by omega) hlt
  rw [hsize] at hpass
  rw [← htype] at hignored
  refine ⟨_, _, _, hpass, ?_, hignored.track_id cur ptr v h₁, ?_, ?_⟩
  · rw [L.behind_mem, hignored.patch, hmem]
  · rw [IsoBmffBox.getType_setOffset, htype]
  · rw [IsoBmffBox.getTrack_Id_setOffset, hid]

theorem forest_passes (ts : List Tree) (hL : L.correct = false)
    (hplain : ∀ t ∈ ts, t.noTrak = true ∧ L.Ignores t.type)
    (hb : Holds h.mem ptr (forestBytes ts)) (hfit : cur + (forestBytes ts).length ≤ L.limit)
    (hlt : L.limit < 2 ^ 32) :
    ∃ boxes v' h', Passes L cur ptr v h (forestBytes ts).length boxes v' h' ∧ h'.mem = h.mem ∧
      v'.track_id = v.track_id ∧ boxes.map IsoBmffBox.getType = ts.map Tree.type ∧
      boxes.filterMap IsoBmffBox.getTrack_Id = [] := by
  induction ts generalizing cur ptr v h with
  | nil => exact ⟨[], v, h, Passes.refl L cur ptr v h, rfl, rfl, rfl, rfl⟩
  | cons t ts ih =>
      rw [List.forall_mem_cons] at hplain
      rcases hplain with ⟨⟨hnoTrak, hignored⟩, hrest⟩
      rw [forestBytes, List.length_append] at hfit
      rw [forestBytes] at hb
      rcases holds_append.mp hb with ⟨ht, hts⟩
      rcases @tree_passes L cur ptr v h t hL hnoTrak hignored ht (by omega) hlt with
        ⟨box, v₁, h₁, hpass, hmem, hid, htype, hnone⟩
      rw [← hmem] at hts
      rcases @ih (cur + t.bytes.length) (ptr + t.bytes.length) v₁ h₁ hrest hts (by omega) with
        ⟨boxes, v', h', hpasses, hmem', hid', htypes, hnones⟩
      rw [forestBytes, List.length_append]
      refine ⟨_, _, _, hpass.trans hpasses, hmem'.trans hmem, hid'.trans hid, ?_, ?_⟩
      · simp only [List.singleton_append, List.map_cons, htype, htypes]
      · simp only [List.singleton_append, List.filterMap_cons, hnone, hnones]

/-! ## The `tkhd` of a `trak` -/

/-- The memory when an id, if there is one, has been written at `loc`. -/
def writeId (id : Option (Word 4)) (loc : Nat) (m : Mem) : Mem :=
  match id with
  | none => m
  | some w => m.write loc w.bytes

theorem patch_tkhd (sz : Nat) (tid : Int) (cur ptr : Nat) (m : Mem) :
    (BoxLoop.trak sz tid).patch cur ptr TKHD m =
      writeId (newTrackIdWord tid) (trackIdLoc m (ptr + cur)) m := by
  unfold BoxLoop.patch newTrackIdWord
  by_cases htid : tid = -1
  · simp [htid, writeId]
  · have hbytes : trackIdBytes tid = (Word.ofNat (tid % 2 ^ 32).toNat : Word 4).bytes :=
      (beBytes_mod 4 _).symm
    simp [htid, writeId, hbytes]

theorem writeId_below {id : Option (Word 4)} {loc i : Nat} {m : Mem} (hi : i < loc) :
    writeId id loc m i = m i := by
  cases id with
  | none => rfl
  | some w => exact Mem.write_outside (Or.inl hi)

theorem writeId_stored {id : Option (Word 4)} {m : Mem} {b : TkhdFields} {loc : Nat}
    (hb : Holds m ptr (boxBytes TKHD b.bytes)) (hloc : loc = ptr + 8 + b.front.length) :
    writeId id loc m = m.write ptr (boxBytes TKHD (b.retrack id).bytes) := by
  cases id with
  | none => exact hb.write_self.symm
  | some w =>
      have hheader : (beBytes 4 (8 + b.bytes.length) ++ (TKHD.bytes ++ b.front)).length =
          8 + b.front.length := by
        rw [← List.append_assoc, List.length_append, boxHeader_length]
      have hstored : Holds m ptr ((beBytes 4 (8 + b.bytes.length) ++ (TKHD.bytes ++ b.front)) ++
          (b.track_ID.bytes ++ b.rest)) := by
        rw [boxBytes] at hb
        nth_rewrite 2 [TkhdFields.bytes] at hb
        simpa only [List.append_assoc] using hb
      have hword : w.bytes.length = b.track_ID.bytes.length := by
        rw [Word.bytes_length, Word.bytes_length]
      rw [writeId, hstored.write_part (by rw [hheader]; omega) hword, boxBytes,
        TkhdFields.retrack_length]
      simp only [TkhdFields.bytes, List.append_assoc]
      rfl

/-- The loop of a `trak` passes a `tkhd` and keeps the id it reads behind its write. -/
theorem tkhd_passes {sz : Nat} {tid : Int} {b : TkhdFields}
    (hb : Holds h.mem ptr (boxBytes TKHD b.bytes)) (hfit : cur + (8 + b.bytes.length) ≤ sz)
    (hlt : sz < 2 ^ 32) :
    ∃ box v' h', Passes (.trak sz tid) cur ptr v h (8 + b.bytes.length) [box] v' h' ∧
      h'.mem = writeId (newTrackIdWord tid) (trackIdLoc h.mem (ptr + cur)) h.mem ∧
      v'.track_id = h'.mem.be (trackIdLoc h.mem (ptr + cur)) 4 := by
  let L := BoxLoop.trak sz tid
  have hbody : constructBody (boxLoop 0) ⟨8 + b.bytes.length, TKHD⟩ (ptr + 8) (-1)
      (h.read readHeader ptr) =
        some (.plain { size := 8 + b.bytes.length, type := TKHD }, h.read readHeader ptr) := rfl
  have hpass := Passes.stored (L := L) (v := v) hb rfl hfit hlt hbody
  refine ⟨_, _, _, hpass, ?_, ?_⟩
  · rw [L.behind_mem]
    exact patch_tkhd sz tid cur ptr h.mem
  · rfl

/-- A `tkhd` that is placed well gets its new id. -/
theorem placed_tkhd_passes {f : TrakFields} {sz : Nat} {tid : Int} (hplaced : f.Placed)
    (hb : Holds h.mem ptr (boxBytes TKHD f.tkhd.bytes))
    (hcur : cur = 8 + (forestBytes f.before).length)
    (hfit : cur + (8 + f.tkhd.bytes.length) ≤ sz) (hlt : sz < 2 ^ 32) :
    ∃ box v' h', Passes (.trak sz tid) cur ptr v h (8 + f.tkhd.bytes.length) [box] v' h' ∧
      h'.mem = h.mem.write ptr (boxBytes TKHD (f.tkhd.retrack (newTrackIdWord tid)).bytes) ∧
      v'.track_id = (f.tkhd.retrack (newTrackIdWord tid)).track_ID.toNat := by
  rcases @tkhd_passes cur ptr v h sz tid f.tkhd hb hfit hlt with ⟨box, v', h', hpass, hmem, hid⟩
  have hloc : trackIdLoc h.mem (ptr + cur) = ptr + 8 + f.tkhd.front.length := by
    rw [hcur, ← Nat.add_assoc]
    exact trackIdLoc_placed (holds_body hb) hplaced
  rw [hloc] at hmem hid
  rw [writeId_stored hb rfl] at hmem
  have hretracked : Holds h'.mem ptr
      (boxBytes TKHD (f.tkhd.retrack (newTrackIdWord tid)).bytes) := by
    rw [hmem]
    exact h.mem.holds_write ptr _
  have hword := (holds_append.mp (holds_append.mp (holds_body hretracked)).2).1
  exact ⟨box, v', h', hpass, hmem, hid.trans hword.word⟩

theorem TrakFields.ignored {f : TrakFields} (sz : Nat) (tid : Int) {ts : List Tree}
    (hts : ∀ t ∈ ts, t ∈ f.before ++ f.after) :
    ∀ t ∈ ts, t.noTrak = true ∧ (BoxLoop.trak sz tid).Ignores t.type :=
  fun t ht => f.others t (hts t ht)

/-- The loop of a `trak` whose `tkhd` is placed well writes the id and keeps it. -/
theorem trak_returns {f : TrakFields} {sz : Nat} {tid : Int} (hplaced : f.Placed)
    (hb : Holds h.mem ptr f.body) (hsz : sz = 8 + f.body.length) (hlt : sz < 2 ^ 32) :
    Outcome (.trak sz tid) 8 ptr {} h fun r =>
      r.heap.mem = h.mem.write ptr (f.retrack (newTrackIdWord tid)).body ∧
        r.vars.track_id = (f.retrack (newTrackIdWord tid)).tkhd.track_ID.toNat := by
  let place := ptr + (forestBytes f.before).length
  have hlength := f.body_length
  have hwords : (boxBytes TKHD (f.tkhd.retrack (newTrackIdWord tid)).bytes).length =
      8 + f.tkhd.bytes.length := by
    rw [boxBytes_length, TkhdFields.retrack_length]
  rw [TrakFields.body] at hb
  rcases holds_append.mp hb with ⟨hbefore, hparts⟩
  rcases holds_append.mp hparts with ⟨htkhd, hafter⟩
  rcases @forest_passes (.trak sz tid) 8 ptr {} h f.before rfl
    (f.ignored sz tid fun t ht => List.mem_append_left _ ht) hbefore
    (by simp only [BoxLoop.limit]; omega) hlt with ⟨boxes₁, v₁, h₁, hpass₁, hmem₁, -⟩
  rcases @placed_tkhd_passes _ place v₁ h₁ f sz tid hplaced (hmem₁ ▸ htkhd) rfl (by omega) hlt with
    ⟨box, v₂, h₂, hpass₂, hmem₂, hid₂⟩
  have hafter₂ : Holds h₂.mem (place + (8 + f.tkhd.bytes.length)) (forestBytes f.after) := by
    rw [hmem₂, hmem₁]
    rw [boxBytes_length] at hafter
    exact hafter.write_before (congrArg (place + ·) hwords)
  rcases @forest_passes (.trak sz tid) _ _ v₂ h₂ f.after rfl
    (f.ignored sz tid fun t ht => List.mem_append_right _ ht) hafter₂
    (show 8 + (forestBytes f.before).length + (8 + f.tkhd.bytes.length) + _ ≤ sz by omega) hlt with
    ⟨boxes₃, v₃, h₃, hpass₃, hmem₃, hid₃, -⟩
  apply (hpass₁.trans (hpass₂.trans hpass₃) _).mpr
  rw [Outcome.done_iff (by simp only [BoxLoop.limit]; omega)]
  constructor
  · rw [hmem₃, hmem₂, hmem₁, TrakFields.body]
    exact hb.write_part rfl (hwords.trans (boxBytes_length TKHD _).symm)
  · exact hid₃.trans hid₂

/-! ## The children of the `moov` -/

/-- A write over the body of a stored box is a write over the box. -/
theorem write_body {type : FourCC} {body body' : Bytes} {m : Mem}
    (hb : Holds m ptr (boxBytes type body)) (hlength : body'.length = body.length) :
    m.write (ptr + 8) body' = m.write ptr (boxBytes type body') := by
  have hheader := boxHeader_length (8 + body.length) type
  have hstored : Holds m ptr ((beBytes 4 (8 + body.length) ++ type.bytes) ++ (body ++ [])) := by
    rw [List.append_nil, List.append_assoc]
    exact hb
  rw [hstored.write_part (by rw [hheader]) hlength, boxBytes, hlength, List.append_nil,
    List.append_assoc]

/-- A child whose `tkhd` is placed well is passed with its new id. -/
theorem child_passes {c : MoovChild} {sz : Nat} {tid : Int} (hplaced : c.Placed)
    (hb : Holds h.mem ptr c.bytes) (hfit : cur + c.bytes.length ≤ sz) (hlt : sz < 2 ^ 32) :
    ∃ box v' h', Passes (.container sz tid) cur ptr v h c.bytes.length [box] v' h' ∧
      h'.mem = h.mem.write ptr (c.retrack (newTrackIdWord tid)).bytes ∧
      box.getTrack_Id = (c.retrack (newTrackIdWord tid)).trackId := by
  cases c with
  | other t hplain =>
      rcases @tree_passes (.container sz tid) cur ptr v h t rfl hplain trivial hb hfit hlt with
        ⟨box, v', h', hpass, hmem, -, -, hnone⟩
      exact ⟨box, v', h', hpass, hmem.trans hb.write_self.symm, hnone⟩
  | trak f =>
      let L := BoxLoop.container sz tid
      rw [MoovChild.bytes, boxBytes_length] at hfit
      have hbody := holds_body hb
      rcases @trak_returns (ptr + 8) (h.read readHeader ptr) f (8 + f.body.length) tid hplaced hbody
        rfl (by omega) with ⟨fuel, r, hr, hmem, hid⟩
      have hkind : boxKind TRAK = .trak := rfl
      have htrak : constructBody (boxLoop fuel) ⟨8 + f.body.length, TRAK⟩ (ptr + 8) tid
          (h.read readHeader ptr) =
            some (.trak { size := 8 + f.body.length, type := TRAK } r.boxes r.vars.track_id,
              r.heap) := by
        simp only [constructBody, hkind, constructTrakBox, hr]
      have hpass := Passes.stored (L := L) (v := v) hb rfl hfit hlt htrak
      rw [MoovChild.bytes, boxBytes_length]
      refine ⟨_, _, _, hpass, ?_, congrArg some hid⟩
      rw [L.behind_mem]
      exact hmem.trans (write_body hb (f.retrack_length _))

theorem children_passes (cs : List MoovChild) {sz : Nat} {tid : Int}
    (hplaced : ∀ c ∈ cs, c.Placed) (hb : Holds h.mem ptr (childrenBytes cs))
    (hfit : cur + (childrenBytes cs).length ≤ sz) (hlt : sz < 2 ^ 32) :
    ∃ boxes v' h', Passes (.container sz tid) cur ptr v h (childrenBytes cs).length boxes v' h' ∧
      h'.mem =
        h.mem.write ptr (childrenBytes (cs.map (MoovChild.retrack (newTrackIdWord tid)))) ∧
      boxes.filterMap IsoBmffBox.getTrack_Id =
        (cs.map (MoovChild.retrack (newTrackIdWord tid))).filterMap MoovChild.trackId := by
  induction cs generalizing cur ptr v h with
  | nil => exact ⟨[], v, h, Passes.refl _ cur ptr v h, (h.mem.write_nil ptr).symm, rfl⟩
  | cons c cs ih =>
      rw [List.forall_mem_cons] at hplaced
      rw [childrenBytes, List.length_append] at hfit
      rw [childrenBytes] at hb
      rcases holds_append.mp hb with ⟨hc, hcs⟩
      rcases @child_passes cur ptr v h c sz tid hplaced.1 hc (by omega) hlt with
        ⟨box, v₁, h₁, hpass, hmem, hid⟩
      have hrest : Holds h₁.mem (ptr + c.bytes.length) (childrenBytes cs) := by
        rw [hmem]
        exact hcs.write_before (congrArg (ptr + ·) (c.retrack_length _))
      rcases @ih (cur + c.bytes.length) (ptr + c.bytes.length) v₁ h₁ hplaced.2 hrest (by omega) with
        ⟨boxes, v', h', hpasses, hmem', hids⟩
      rw [childrenBytes, List.length_append]
      refine ⟨_, _, _, hpass.trans hpasses, ?_, ?_⟩
      · rw [hmem', hmem, List.map_cons, childrenBytes, Mem.write_append_right, c.retrack_length]
      · rw [List.map_cons, List.singleton_append, List.filterMap_cons, List.filterMap_cons, hid,
          hids]

/-! ## The buffer -/

theorem getTrack_Ids_append {boxes : List IsoBmffBox} (rest : List IsoBmffBox)
    (h : ∀ box ∈ boxes, box.getType ≠ MOOV) : getTrack_Ids (boxes ++ rest) = getTrack_Ids rest := by
  induction boxes with
  | nil => rfl
  | cons box boxes ih =>
      rw [List.forall_mem_cons] at h
      rw [List.cons_append, getTrack_Ids, if_neg h.1, ih h.2]

@[simp] theorem IsoBmffBox.children_setOffset (box : IsoBmffBox) (os : Nat) :
    (box.setOffset os).children = box.children := by
  cases box <;> rfl

theorem moov_passes (cs : List MoovChild) {n : Nat} {tid : Int} (hplaced : ∀ c ∈ cs, c.Placed)
    (hb : Holds h.mem ptr (boxBytes MOOV (childrenBytes cs)))
    (hfit : cur + (8 + (childrenBytes cs).length) ≤ n) (hlt : n < 2 ^ 32) :
    ∃ box v' h', Passes (.buffer n false tid) cur ptr v h (8 + (childrenBytes cs).length) [box]
        v' h' ∧
      h'.mem = h.mem.write ptr
        (boxBytes MOOV (childrenBytes (cs.map (MoovChild.retrack (newTrackIdWord tid))))) ∧
      box.getType = MOOV ∧
      box.children.filterMap IsoBmffBox.getTrack_Id =
        (cs.map (MoovChild.retrack (newTrackIdWord tid))).filterMap MoovChild.trackId := by
  let L := BoxLoop.buffer n false tid
  have hbody := holds_body hb
  rcases @children_passes 8 (ptr + 8) {} (h.read readHeader ptr) cs (8 + (childrenBytes cs).length)
    tid hplaced hbody (Nat.le_refl _) (by omega) with ⟨boxes, v₁, h₁, hpass, hmem, hids⟩
  have hdone : Outcome (.container (8 + (childrenBytes cs).length) tid) 8 (ptr + 8) {}
      (h.read readHeader ptr) fun r => r = ⟨boxes, v₁, h₁⟩ := by
    rw [hpass, Outcome.done_iff (by simp only [BoxLoop.limit]; omega), List.append_nil]
  rcases hdone with ⟨fuel, r, hr, rfl⟩
  have hkind : boxKind MOOV = .container := rfl
  have hmoov : constructBody (boxLoop fuel) ⟨8 + (childrenBytes cs).length, MOOV⟩ (ptr + 8) tid
      (h.read readHeader ptr) =
        some (.container { size := 8 + (childrenBytes cs).length, type := MOOV } boxes, h₁) := by
    simp only [constructBody, hkind, constructContainer, hr]
  have hpasses := Passes.stored (L := L) (v := v) hb rfl hfit hlt hmoov
  refine ⟨_, _, _, hpasses, ?_, rfl, hids⟩
  rw [L.behind_mem]
  exact hmem.trans (write_body hb (childrenBytes_retrack_length _ cs))

/-- When every `tkhd` is placed well, any new track id is written and shown. -/
theorem Movie.Placed.retracks {s : Movie} (hplaced : s.Placed) (hlt : s.bytes.length < 2 ^ 32)
    (beyond : Mem) (tid : Int) : s.Retracks beyond tid := by
  let L := BoxLoop.buffer s.bytes.length false tid
  let start : Heap := { mem := Mem.ofBytes s.bytes beyond }
  have hb : Holds start.mem 0 s.bytes := holds_ofBytes s.bytes beyond
  have hlength := s.bytes_length
  have hparts := hb
  rw [Movie.bytes] at hparts
  rcases holds_append.mp hparts with ⟨hbefore, hparts⟩
  rcases holds_append.mp hparts with ⟨hmoov, hafter⟩
  rcases @forest_passes L 0 0 {} start s.before rfl (fun t ht => ⟨(s.first t ht).1, trivial⟩) hbefore
    (by simp only [L, BoxLoop.limit]; omega) hlt with ⟨boxes₁, v₁, h₁, hpass₁, hmem₁, -, htypes₁, -⟩
  have hmoov₁ : Holds h₁.mem (0 + (forestBytes s.before).length)
      (boxBytes MOOV (childrenBytes s.children)) := hmem₁ ▸ hmoov
  rcases @moov_passes (0 + (forestBytes s.before).length) (0 + (forestBytes s.before).length) v₁ h₁
    s.children s.bytes.length tid hplaced hmoov₁ (by omega) hlt with
    ⟨box, v₂, h₂, hpass₂, hmem₂, htype, hids⟩
  have hwords : (boxBytes MOOV (childrenBytes (s.retrack (newTrackIdWord tid)).children)).length =
      8 + (childrenBytes s.children).length := by
    rw [boxBytes_length]
    exact congrArg (8 + ·) (childrenBytes_retrack_length _ s.children)
  have hafter₂ : Holds h₂.mem (0 + (forestBytes s.before).length +
      (8 + (childrenBytes s.children).length)) (forestBytes s.after) := by
    rw [hmem₂, hmem₁]
    rw [boxBytes_length] at hafter
    exact hafter.write_before (congrArg (0 + (forestBytes s.before).length + ·) hwords)
  rcases @forest_passes L _ _ v₂ h₂ s.after rfl (fun t ht => ⟨s.last t ht, trivial⟩) hafter₂
    (show 0 + (forestBytes s.before).length + (8 + (childrenBytes s.children).length) + _ ≤ _ by
      simp only [L, BoxLoop.limit]; omega) hlt with ⟨boxes₃, v₃, h₃, hpass₃, hmem₃, -⟩
  have hrun : Outcome L 0 0 {} start fun r =>
      r.heap.mem = Mem.ofBytes (s.retrack (newTrackIdWord tid)).bytes beyond ∧
        getTrack_Ids r.boxes = (s.retrack (newTrackIdWord tid)).trackIds := by
    apply (hpass₁.trans (hpass₂.trans hpass₃) _).mpr
    rw [Outcome.done_iff (by simp only [L, BoxLoop.limit]; omega)]
    constructor
    · rw [Movie.bytes] at hb
      rw [hmem₃, hmem₂, hmem₁]
      have hwritten := hb.write_part rfl (hwords.trans (boxBytes_length MOOV _).symm)
      exact hwritten.trans (Mem.ofBytes_write beyond (s.retrack_length (newTrackIdWord tid)))
    · have hfirst : ∀ b ∈ boxes₁, b.getType ≠ MOOV := by
        intro b hmem
        have htype := List.mem_map_of_mem (f := IsoBmffBox.getType) hmem
        rw [htypes₁] at htype
        rcases List.mem_map.mp htype with ⟨t, ht, heq⟩
        rw [← heq]
        exact (s.first t ht).2
      rw [List.append_assoc, getTrack_Ids_append _ hfirst, List.append_assoc, List.singleton_append,
        getTrack_Ids, if_pos htype, hids]
      rfl
  exact hrun

/-! ## A `tkhd` behind other children -/

/-- A loop that returns has constructed the stored box in front of it, and what comes behind
the box writes nothing below its end. -/
theorem Outcome.first_box {type : FourCC} {body : Bytes} {P : LoopResult → Prop}
    (ho : Outcome L cur ptr v h P) (hL : L.correct = false)
    (hb : Holds h.mem ptr (boxBytes type body)) (hfit : cur + (8 + body.length) ≤ L.limit)
    (hlt : L.limit < 2 ^ 32) :
    ∃ fuel box h₁ r, constructBody (boxLoop fuel) ⟨8 + body.length, type⟩ (ptr + 8)
        L.childTrackId (h.read readHeader ptr) = some (box, h₁) ∧ P r ∧
      ∀ i < ptr + (8 + body.length), r.heap.mem i = L.patch cur ptr type h₁.mem i := by
  have hroom := L.room_eq hlt cur
  rcases ho with ⟨fuel, r, hr, hP⟩
  cases fuel with
  | zero => simp [boxLoop] at hr
  | succ fuel =>
      rcases boxLoop_uncons hr (show cur < L.limit by omega) with ⟨box, h₁, rest, hc, hrest, rfl⟩
      rw [hL, constructBox_stored hb (by omega) (L.room_lt cur)] at hc
      rcases constructBody_head hc with ⟨hsize, htype, -⟩
      refine ⟨fuel, box, h₁, _, hc, hP, fun i hi => ?_⟩
      have hbelow := boxLoop_mem_below hrest hL (show i < ptr + box.getSize by rw [hsize]; exact hi)
      rw [Heap.move_mem, L.visit_mem, IsoBmffBox.getType_setOffset, htype] at hbelow
      exact hbelow

/-- The id of a `tkhd` that is placed badly keeps its first byte. -/
theorem trak_keeps {f : TrakFields} {sz : Nat} {tid : Int} {P : LoopResult → Prop}
    (ho : Outcome (.trak sz tid) 8 ptr {} h P) (hplaced : ¬ f.Placed)
    (hb : Holds h.mem ptr f.body) (hsz : sz = 8 + f.body.length) (hlt : sz < 2 ^ 32) :
    ∃ r, P r ∧ r.heap.mem (ptr + (forestBytes f.before).length + 8 + f.tkhd.front.length) =
      h.mem (ptr + (forestBytes f.before).length + 8 + f.tkhd.front.length) := by
  let place := ptr + (forestBytes f.before).length
  have hlength := f.body_length
  rw [TrakFields.body] at hb
  rcases holds_append.mp hb with ⟨hbefore, hparts⟩
  have htkhd := (holds_append.mp hparts).1
  rcases @forest_passes (.trak sz tid) 8 ptr {} h f.before rfl
    (f.ignored sz tid fun t ht => List.mem_append_left _ ht) hbefore
    (by simp only [BoxLoop.limit]; omega) hlt with ⟨boxes₁, v₁, h₁, hpass₁, hmem₁, -⟩
  have htkhd₁ : Holds h₁.mem place (boxBytes TKHD f.tkhd.bytes) := hmem₁ ▸ htkhd
  rcases ((hpass₁ P).mp ho).first_box rfl htkhd₁ (by simp only [BoxLoop.limit]; omega) hlt with
    ⟨fuel, box, h₂, r, hbody, hP, hbelow⟩
  have hmem₂ : h₂.mem = h.mem := by
    have hplain : constructBody (boxLoop fuel) ⟨8 + f.tkhd.bytes.length, TKHD⟩ (place + 8) (-1)
        (h₁.read readHeader place) =
          some (.plain { size := 8 + f.tkhd.bytes.length, type := TKHD }, h₁.read readHeader place) :=
      rfl
    cases Option.some.inj (hplain.symm.trans hbody)
    exact hmem₁
  have hloc : place + 8 + f.tkhd.front.length <
      trackIdLoc h.mem (place + (8 + (forestBytes f.before).length)) := by
    rw [← Nat.add_assoc]
    rw [hmem₁] at htkhd₁
    exact trackIdLoc_misplaced (holds_body htkhd₁) hplaced
  have hinside : place + 8 + f.tkhd.front.length < place + (8 + f.tkhd.bytes.length) := by
    rw [TkhdFields.bytes, List.length_append, List.length_append, Word.bytes_length]
    omega
  refine ⟨_, hP, ?_⟩
  have hkept := hbelow _ hinside
  rw [patch_tkhd, hmem₂, writeId_below hloc] at hkept
  exact hkept

theorem child_keeps {f : TrakFields} {sz : Nat} {tid : Int} {P : LoopResult → Prop}
    (ho : Outcome (.container sz tid) cur ptr v h P) (hplaced : ¬ f.Placed)
    (hb : Holds h.mem ptr (boxBytes TRAK f.body)) (hfit : cur + (8 + f.body.length) ≤ sz)
    (hlt : sz < 2 ^ 32) :
    ∃ r, P r ∧ r.heap.mem (ptr + 8 + (forestBytes f.before).length + 8 + f.tkhd.front.length) =
      h.mem (ptr + 8 + (forestBytes f.before).length + 8 + f.tkhd.front.length) := by
  have hlength := f.body_length
  rcases ho.first_box rfl hb hfit hlt with ⟨fuel, box, h₁, r, hbody, hP, hbelow⟩
  have hkind : boxKind TRAK = .trak := rfl
  simp only [constructBody, hkind, constructTrakBox] at hbody
  have hinside : ptr + 8 + (forestBytes f.before).length + 8 + f.tkhd.front.length <
      ptr + (8 + f.body.length) := by
    rw [hlength, TkhdFields.bytes, List.length_append, List.length_append, Word.bytes_length]
    omega
  have hkept := hbelow _ hinside
  split at hbody
  · cases hbody
  · rename_i r' hr'
    cases hbody
    have ho' : Outcome (.trak (8 + f.body.length) tid) 8 (ptr + 8) {} (h.read readHeader ptr)
        fun r => r = r' := ⟨fuel, r', hr', rfl⟩
    rcases trak_keeps ho' hplaced (holds_body hb) rfl (by omega) with
      ⟨_, rfl, hsame⟩
    exact ⟨r, hP, hkept.trans hsame⟩

/-- The first `trak` of the `moov` whose `tkhd` is placed badly. -/
theorem moov_keeps {pre post : List MoovChild} {f : TrakFields} {n : Nat} {tid : Int}
    {P : LoopResult → Prop} (ho : Outcome (.buffer n false tid) cur ptr v h P)
    (hpre : ∀ c ∈ pre, c.Placed) (hplaced : ¬ f.Placed)
    (hb : Holds h.mem ptr (boxBytes MOOV (childrenBytes (pre ++ .trak f :: post))))
    (hfit : cur + (8 + (childrenBytes (pre ++ .trak f :: post)).length) ≤ n) (hlt : n < 2 ^ 32) :
    ∃ r, P r ∧ r.heap.mem (ptr + 8 + (childrenBytes pre).length + 8 +
        (forestBytes f.before).length + 8 + f.tkhd.front.length) =
      h.mem (ptr + 8 + (childrenBytes pre).length + 8 + (forestBytes f.before).length + 8 +
        f.tkhd.front.length) := by
  have hlength : (childrenBytes (pre ++ .trak f :: post)).length = (childrenBytes pre).length +
      (8 + f.body.length + (childrenBytes post).length) := by
    simp only [childrenBytes_append, childrenBytes, MoovChild.bytes, List.length_append,
      boxBytes_length]
  rcases ho.first_box rfl hb hfit hlt with ⟨fuel, box, h₁, r, hbody, hP, hbelow⟩
  have hkind : boxKind MOOV = .container := rfl
  simp only [constructBody, hkind, constructContainer] at hbody
  have hinside : ptr + 8 + (childrenBytes pre).length + 8 + (forestBytes f.before).length + 8 +
      f.tkhd.front.length < ptr + (8 + (childrenBytes (pre ++ .trak f :: post)).length) := by
    rw [hlength, f.body_length, TkhdFields.bytes, List.length_append, List.length_append,
      Word.bytes_length]
    omega
  have hkept := hbelow _ hinside
  split at hbody
  · cases hbody
  · rename_i r' hr'
    cases hbody
    have hstored := holds_body hb
    rw [childrenBytes_append, childrenBytes] at hstored
    rcases holds_append.mp hstored with ⟨hchildren, hrest⟩
    rcases @children_passes 8 (ptr + 8) {} (h.read readHeader ptr) pre
      (8 + (childrenBytes (pre ++ .trak f :: post)).length) tid hpre hchildren (by omega)
      (by omega) with ⟨boxes, v₂, h₂, hpass, hmem, -⟩
    have ho' : Outcome (.container (8 + (childrenBytes (pre ++ .trak f :: post)).length) tid) 8
        (ptr + 8) {} (h.read readHeader ptr) fun r => r = r' := ⟨fuel, r', hr', rfl⟩
    have htrak : Holds h₂.mem (ptr + 8 + (childrenBytes pre).length) (boxBytes TRAK f.body) := by
      rw [hmem]
      exact (holds_append.mp hrest).1.write_before
        (congrArg (ptr + 8 + ·) (childrenBytes_retrack_length _ pre))
    rcases child_keeps ((hpass _).mp ho') hplaced htrak (by omega) (by omega) with ⟨q, hq, hsame⟩
    have hheap : q.heap = r'.heap := by rw [← hq]
    rw [hheap, hmem, Mem.write_outside (by rw [childrenBytes_retrack_length]; omega)] at hsame
    exact ⟨r, hP, hkept.trans hsame⟩

end

/-- Where the track id of a `trak` behind the children `pre` lies. -/
def Movie.idPlace (s : Movie) (pre : List MoovChild) (f : TrakFields) : Nat :=
  (forestBytes s.before).length + 8 + (childrenBytes pre).length + 8 +
    (forestBytes f.before).length + 8 + f.tkhd.front.length

theorem Movie.holds_id {s : Movie} {pre post : List MoovChild} {f : TrakFields} {m : Mem}
    (hs : s.children = pre ++ .trak f :: post) (h : Holds m 0 s.bytes) :
    Holds m (s.idPlace pre f) f.tkhd.track_ID.bytes := by
  have hmoov := holds_body (holds_append.mp (holds_append.mp h).2).1
  rw [hs, childrenBytes_append, childrenBytes] at hmoov
  have htrak := holds_body (holds_append.mp (holds_append.mp hmoov).2).1
  have htkhd := holds_body (holds_append.mp (holds_append.mp htrak).2).1
  have hid := (holds_append.mp (holds_append.mp htkhd).2).1
  rw [Nat.zero_add] at hid
  exact hid

/-- Some child is the first one that is placed badly. -/
theorem exists_misplaced {cs : List MoovChild} (h : ¬ ∀ c ∈ cs, c.Placed) :
    ∃ pre f post, cs = pre ++ .trak f :: post ∧ (∀ c ∈ pre, c.Placed) ∧ ¬ f.Placed := by
  induction cs with
  | nil => exact absurd (fun c hc => absurd hc List.not_mem_nil) h
  | cons c cs ih =>
      by_cases hc : c.Placed
      · rw [List.forall_mem_cons] at h
        rcases ih (fun hcs => h ⟨hc, hcs⟩) with ⟨pre, f, post, rfl, hpre, hf⟩
        exact ⟨c :: pre, f, post, rfl, List.forall_mem_cons.mpr ⟨hc, hpre⟩, hf⟩
      · cases c with
        | other t hplain => exact absurd trivial hc
        | trak f => exact ⟨[], f, cs, rfl, by simp, hc⟩

/-- The first byte of an id that is retracked stays as it was. -/
theorem Movie.Retracks.first_byte {s : Movie} {pre post : List MoovChild} {f : TrakFields}
    {beyond : Mem} {tid : Int} (h : s.Retracks beyond tid) (hlt : s.bytes.length < 2 ^ 32)
    (hs : s.children = pre ++ .trak f :: post) (hpre : ∀ c ∈ pre, c.Placed) (hf : ¬ f.Placed) :
    Mem.ofBytes (s.retrack (newTrackIdWord tid)).bytes beyond (s.idPlace pre f) =
      Mem.ofBytes s.bytes beyond (s.idPlace pre f) := by
  let start : Heap := { mem := Mem.ofBytes s.bytes beyond }
  have hb : Holds start.mem 0 s.bytes := holds_ofBytes s.bytes beyond
  have hlength := s.bytes_length
  rw [Movie.bytes] at hb
  rcases holds_append.mp hb with ⟨hbefore, hparts⟩
  have hmoov := (holds_append.mp hparts).1
  rcases h with ⟨fuel, r, hr, hmem, -⟩
  have ho : Outcome (.buffer s.bytes.length false tid) 0 0 {} start fun q => q = r :=
    ⟨fuel, r, hr, rfl⟩
  rcases @forest_passes (.buffer s.bytes.length false tid) 0 0 {} start s.before rfl
    (fun t ht => ⟨(s.first t ht).1, trivial⟩) hbefore (by simp only [BoxLoop.limit]; omega) hlt with
    ⟨boxes₁, v₁, h₁, hpass₁, hmem₁, -⟩
  have hmoov₁ : Holds h₁.mem (0 + (forestBytes s.before).length)
      (boxBytes MOOV (childrenBytes (pre ++ .trak f :: post))) := hs ▸ hmem₁ ▸ hmoov
  rw [hs] at hlength
  rcases moov_keeps ((hpass₁ _).mp ho) hpre hf hmoov₁ (by omega) hlt with ⟨q, hq, hsame⟩
  have hheap : q.heap = r.heap := by rw [← hq]
  rw [hheap, hmem, hmem₁, Nat.zero_add] at hsame
  exact hsame

/-! ## The track ids of a movie -/

/-- The first byte of a stored id. -/
theorem first_byte {m : Mem} {p : Nat} {w : Word 4} (h : Holds m p w.bytes) :
    m p = UInt8.ofNat (w.toNat / 256 ^ 3) := h.1

theorem Movie.retrack_first_byte {s : Movie} {pre post : List MoovChild} {f : TrakFields}
    (hs : s.children = pre ++ .trak f :: post) (w : Word 4) (beyond : Mem) :
    Mem.ofBytes (s.retrack (some w)).bytes beyond (s.idPlace pre f) =
      UInt8.ofNat (w.toNat / 256 ^ 3) := by
  have hchildren : (s.retrack (some w)).children = pre.map (MoovChild.retrack (some w)) ++
      .trak (f.retrack (some w)) :: post.map (MoovChild.retrack (some w)) := by
    change s.children.map _ = _
    rw [hs, List.map_append, List.map_cons]
    rfl
  have hplace : (s.retrack (some w)).idPlace (pre.map (MoovChild.retrack (some w)))
      (f.retrack (some w)) = s.idPlace pre f := by
    rw [idPlace, childrenBytes_retrack_length]
    rfl
  have hid := Movie.holds_id hchildren (holds_ofBytes (s.retrack (some w)).bytes beyond)
  rw [hplace] at hid
  exact first_byte hid

/-- Two ids that differ in their first byte are not both written by a movie with a `tkhd`
that is placed badly. -/
theorem Movie.placed_of_retracks {s : Movie} {beyond : Mem} (hlt : s.bytes.length < 2 ^ 32)
    (hzero : s.Retracks beyond 0) (hhigh : s.Retracks beyond (2 ^ 24)) : s.Placed := by
  by_contra hplaced
  rcases exists_misplaced hplaced with ⟨pre, f, post, hs, hpre, hf⟩
  have h0 := hzero.first_byte hlt hs hpre hf
  have h1 := hhigh.first_byte hlt hs hpre hf
  have hbyte := h0.trans h1.symm
  have hzeroWord : newTrackIdWord 0 = some (.ofNat 0) := rfl
  have hhighWord : newTrackIdWord (2 ^ 24) = some (.ofNat (2 ^ 24)) := rfl
  rw [hzeroWord, hhighWord, retrack_first_byte hs, retrack_first_byte hs] at hbyte
  exact absurd hbyte (by decide)

/-- Parsing a movie with a new track id changes the ids and nothing else, whatever the new id
is, exactly when every `tkhd` is placed well. -/
theorem Movie.retracks_iff (s : Movie) (beyond : Mem) (hlt : s.bytes.length < 2 ^ 32) :
    (∀ newTrackId : Int, -2 ^ 31 ≤ newTrackId → newTrackId < 2 ^ 31 →
      s.Retracks beyond newTrackId) ↔ s.Placed := by
  constructor
  · intro hall
    exact placed_of_retracks hlt (hall 0 (by decide) (by decide))
      (hall (2 ^ 24) (by decide) (by decide))
  · intro hplaced newTrackId _ _
    exact hplaced.retracks hlt beyond newTrackId

def FREE : FourCC := fourcc 'f' 'r' 'e' 'e'

/-- An empty box in front of a `tkhd` of version 0. -/
def lateTkhd : TrakFields where
  before := [.leaf (.other ⟨FREE, by decide⟩ [])]
  tkhd := ⟨false, .zero, .zero, .zero, .ofNat 1, []⟩
  after := []
  others := by decide

def lateMovie : Movie where
  before := []
  children := [.trak lateTkhd]
  after := []
  first := by decide
  last := by decide

theorem lateMovie_retracks_iff :
    (∀ newTrackId : Int, -2 ^ 31 ≤ newTrackId → newTrackId < 2 ^ 31 →
      lateMovie.Retracks (fun _ => 0) newTrackId) ↔ lateMovie.Placed :=
  lateMovie.retracks_iff (fun _ => 0) (by decide)

/-- The id is written eight bytes behind its place. -/
theorem lateMovie_not_retracked :
    ¬ ∀ (s : Movie) (beyond : Mem), s.bytes.length < 2 ^ 32 →
      ∀ newTrackId : Int, -2 ^ 31 ≤ newTrackId → newTrackId < 2 ^ 31 →
        s.Retracks beyond newTrackId := by
  intro hall
  have hretracks := hall lateMovie (fun _ => 0) (by decide)
  have hplaced := Movie.placed_of_retracks (by decide) (hretracks 0 (by decide) (by decide))
    (hretracks (2 ^ 24) (by decide) (by decide))
  rcases hplaced (.trak lateTkhd) List.mem_cons_self with hnone | ⟨-, hversion, -⟩
  · cases hnone
  · cases hversion

end PlayerInterface.IsoBmff
