import PlayerInterface.IsoBmff.Box

/-!
# The box loops of the parser

`parseBuffer`, `constructContainer` and `constructTrakBox` run the same loop:
construct the box at the cursor, use it, advance by its size. `BoxLoop` holds
what the three do differently. The heap carries the memory together with every
index touched and every move of a loop cursor.
-/

namespace PlayerInterface.IsoBmff

open PlayerInterface.Core Reader

/-! ## Heap -/

structure Heap where
  mem : Mem
  touched : List Nat := []
  moves : List (Nat × Nat) := []

namespace Heap

/-- Log the indices a reader reads at `p`. -/
def read (h : Heap) {α : Type} (r : Reader α) (p : Nat) : Heap :=
  { h with touched := h.touched ++ r.reads h.mem p }

def write (h : Heap) (p : Nat) (bs : Bytes) : Heap :=
  { h with mem := h.mem.write p bs, touched := h.touched ++ List.range' p bs.length }

/-- One iteration of a box loop took the cursor from `cur` to `next`. -/
def move (h : Heap) (cur next : Nat) : Heap :=
  { h with moves := h.moves ++ [(cur, next)] }

@[simp] theorem read_mem (h : Heap) {α : Type} (r : Reader α) (p : Nat) :
    (h.read r p).mem = h.mem := rfl

@[simp] theorem read_touched (h : Heap) {α : Type} (r : Reader α) (p : Nat) :
    (h.read r p).touched = h.touched ++ r.reads h.mem p := rfl

@[simp] theorem read_moves (h : Heap) {α : Type} (r : Reader α) (p : Nat) :
    (h.read r p).moves = h.moves := rfl

@[simp] theorem write_mem (h : Heap) (p : Nat) (bs : Bytes) :
    (h.write p bs).mem = h.mem.write p bs := rfl

@[simp] theorem write_touched (h : Heap) (p : Nat) (bs : Bytes) :
    (h.write p bs).touched = h.touched ++ List.range' p bs.length := rfl

@[simp] theorem write_moves (h : Heap) (p : Nat) (bs : Bytes) :
    (h.write p bs).moves = h.moves := rfl

@[simp] theorem move_mem (h : Heap) (cur next : Nat) : (h.move cur next).mem = h.mem := rfl

@[simp] theorem move_touched (h : Heap) (cur next : Nat) :
    (h.move cur next).touched = h.touched := rfl

@[simp] theorem move_moves (h : Heap) (cur next : Nat) :
    (h.move cur next).moves = h.moves ++ [(cur, next)] := rfl

end Heap

/-! ## The three loops -/

/-- Which loop runs, with the arguments of the function it belongs to. -/
inductive BoxLoop where
  | buffer (bufSize : Nat) (correctBoxSize : Bool) (newTrackId : Int)
  | container (sz : Nat) (newTrackId : Int)
  | trak (sz : Nat) (newTrackId : Int)
deriving DecidableEq, Repr

namespace BoxLoop

/-- The loop runs while its cursor is below the limit. -/
def limit : BoxLoop → Nat
  | buffer bufSize _ _ => bufSize
  | container sz _ => sz
  | trak sz _ => sz

/-- The cursor is a `size_t` in `parseBuffer` and a `uint32_t` in the others. -/
def modulus : BoxLoop → Nat
  | buffer _ _ _ => 2 ^ 64
  | container _ _ => 2 ^ 32
  | trak _ _ => 2 ^ 32

/-- The `maxSz` argument; `parseBuffer` casts the remaining size to `uint32_t`. -/
def room (L : BoxLoop) (cur : Nat) : Nat := (L.limit - cur) % 2 ^ 32

def correct : BoxLoop → Bool
  | buffer _ correctBoxSize _ => correctBoxSize
  | container _ _ => false
  | trak _ _ => false

/-- The `newTrackId` argument for the children; a trak leaves it at the default. -/
def childTrackId : BoxLoop → Int
  | buffer _ _ newTrackId => newTrackId
  | container _ newTrackId => newTrackId
  | trak _ _ => -1

end BoxLoop

/-- What a loop leaves besides its boxes. -/
structure LoopVars where
  track_id : Nat := 0
  chunkedBox : Option IsoBmffBox := none

/-! ## Track id -/

/-- The four bytes an `int` argument is written as. -/
def trackIdBytes (newTrackId : Int) : Bytes := beBytes 4 (newTrackId % 2 ^ 32).toNat

/-- Where the track id lies for a version byte at `at`. -/
def trackIdLoc (m : Mem) (loc : Nat) : Nat := loc + 4 + if m.be loc 1 = 1 then 16 else 8

/-- The tkhd statements of `constructTrakBox`, with `loc` the pointer `ptr + curOffset`. -/
def readTkhd (newTrackId : Int) (loc : Nat) (h : Heap) : Nat × Heap :=
  let idLoc := trackIdLoc h.mem loc
  let h := h.read (readBe 1) loc
  let h := if newTrackId ≠ -1 then h.write idLoc (trackIdBytes newTrackId) else h
  (h.mem.be idLoc 4, h.read (readBe 4) idLoc)

/-- What a loop does with the box it has just constructed. -/
def BoxLoop.visit (L : BoxLoop) (cur ptr : Nat) (box : IsoBmffBox) (v : LoopVars) (h : Heap) :
    LoopVars × Heap :=
  match L with
  | .buffer bufSize _ _ =>
      if bufSize - cur < 4 ∨ bufSize - cur < box.getSize then
        ({ v with chunkedBox := some box }, h)
      else (v, h)
  | .container _ _ => (v, h)
  | .trak _ newTrackId =>
      if box.getType = TKHD then
        let r := readTkhd newTrackId (ptr + cur) h
        ({ v with track_id := r.1 }, r.2)
      else (v, h)

/-! ## Box construction -/

/-- The result of a loop: its boxes, its variables and the heap. -/
structure LoopResult where
  boxes : List IsoBmffBox
  vars : LoopVars
  heap : Heap

/-- A loop started at a cursor and a pointer; `none` when the fuel is used up. -/
abbrev RunLoop := BoxLoop → Nat → Nat → LoopVars → Heap → Option LoopResult

/-- The size and type words. -/
structure HeaderWords where
  size : Nat
  type : FourCC
deriving DecidableEq, Repr

def readHeader : Reader HeaderWords := do
  let size ← readBe 4
  let b0 ← readBe 1
  let b1 ← readBe 1
  let b2 ← readBe 1
  let b3 ← readBe 1
  pure ⟨size, ⟨.ofNat b0, .ofNat b1, .ofNat b2, .ofNat b3⟩⟩

def headerWords (m : Mem) (p : Nat) : HeaderWords := readHeader.val m p

def constructContainer (loop : RunLoop) (sz : Nat) (btype : FourCC) (ptr : Nat)
    (newTrackId : Int) (h : Heap) : Option (IsoBmffBox × Heap) :=
  match loop (.container sz newTrackId) 8 ptr {} h with
  | none => none
  | some r => some (.container { size := sz, type := btype } r.boxes, r.heap)

def constructTrakBox (loop : RunLoop) (sz ptr : Nat) (newTrackId : Int) (h : Heap) :
    Option (IsoBmffBox × Heap) :=
  match loop (.trak sz newTrackId) 8 ptr {} h with
  | none => none
  | some r => some (.trak { size := sz, type := TRAK } r.boxes r.vars.track_id, r.heap)

/-- The `else if` chain for a box that fits; `ptr` is behind the size and type words. -/
def constructBody (loop : RunLoop) (w : HeaderWords) (ptr : Nat) (newTrackId : Int) (h : Heap) :
    Option (IsoBmffBox × Heap) :=
  match boxKind w.type with
  | .container => constructContainer loop w.size w.type ptr newTrackId h
  | .trak => constructTrakBox loop w.size ptr newTrackId h
  | .leaf kind =>
      some ((constructLeaf kind w.size).val h.mem ptr, h.read (constructLeaf kind w.size) ptr)
  | .other => some (.plain { size := w.size, type := w.type }, h)

/-- `constructBox`. After `goto L_RESTART` the size word holds `maxSz`, so the
second pass never takes the branch again; it is given no third pass. -/
def constructBox (loop : RunLoop) (hdr maxSz : Nat) (correctBoxSize : Bool) (newTrackId : Int)
    (h : Heap) : Option (IsoBmffBox × Heap) :=
  if maxSz < 4 then some (.plain { size := maxSz, type := UKWN }, h)
  else if maxSz < 8 then some (.plain { size := maxSz, type := UKWN }, h)
  else
    let w := headerWords h.mem hdr
    let h := h.read readHeader hdr
    if maxSz < w.size then
      if correctBoxSize then
        let h := h.write hdr (beBytes 4 maxSz)
        let w := headerWords h.mem hdr
        let h := h.read readHeader hdr
        if maxSz < w.size then none else constructBody loop w (hdr + 8) newTrackId h
      else some (.plain { size := w.size, type := w.type }, h)
    else constructBody loop w (hdr + 8) newTrackId h

/-- The loop of `parseBuffer`, `constructContainer` and `constructTrakBox`. -/
def boxLoop : Nat → RunLoop
  | 0, _, _, _, _, _ => none
  | fuel + 1, L, cur, ptr, v, h =>
    if cur < L.limit then
      match constructBox (boxLoop fuel) ptr (L.room cur) L.correct L.childTrackId h with
      | none => none
      | some (box, h) =>
        let box := box.setOffset (cur % 2 ^ 32)
        let vh := L.visit cur ptr box v h
        let next := (cur + box.getSize) % L.modulus
        match boxLoop fuel L next (ptr + box.getSize) vh.1 (vh.2.move cur next) with
        | none => none
        | some r => some { r with boxes := box :: r.boxes }
    else some ⟨[], v, h⟩

/-- `PlayerIsoBmffBuffer::parseBuffer` on the buffer `[0, bufSize)` of `mem`. -/
def parseBuffer (fuel : Nat) (mem : Mem) (bufSize : Nat) (correctBoxSize : Bool)
    (newTrackId : Int) : Option LoopResult :=
  boxLoop fuel (.buffer bufSize correctBoxSize newTrackId) 0 0 {} { mem }

/-! ## What a box construction does -/

theorem BoxLoop.room_lt (L : BoxLoop) (cur : Nat) : L.room cur < 2 ^ 32 :=
  Nat.mod_lt _ (by decide)

theorem BoxLoop.room_eq {L : BoxLoop} (hlt : L.limit < 2 ^ 32) (cur : Nat) :
    L.room cur = L.limit - cur :=
  Nat.mod_eq_of_lt (Nat.lt_of_le_of_lt (Nat.sub_le L.limit cur) hlt)

/-- The header words a box is dispatched on, and the heap at that moment: read
once, and once more behind the correction when the size is corrected. -/
def settle (h : Heap) (hdr maxSz : Nat) (correctBoxSize : Bool) : HeaderWords × Heap :=
  let w := headerWords h.mem hdr
  let h := h.read readHeader hdr
  if maxSz < w.size ∧ correctBoxSize then
    (⟨maxSz, w.type⟩, (h.write hdr (beBytes 4 maxSz)).read readHeader hdr)
  else (w, h)

theorem headerWords_size_lt (m : Mem) (p : Nat) : (headerWords m p).size < 2 ^ 32 :=
  m.be_lt p 4

theorem headerWords_eq (m : Mem) (p : Nat) :
    headerWords m p = ⟨m.be p 4, ⟨m (p + 4), m (p + 5), m (p + 6), m (p + 7)⟩⟩ := by
  simp only [headerWords, readHeader, val_bind, val_pure, val_readBe, next_readBe, Mem.be_one,
    UInt8.ofNat_toNat]

/-- Rewriting the size word changes the size and keeps the type. -/
theorem headerWords_write {m : Mem} {p sz : Nat} (h : sz < 2 ^ 32) :
    headerWords (m.write p (beBytes 4 sz)) p = ⟨sz, (headerWords m p).type⟩ := by
  have htype : ∀ k, 4 ≤ k → m.write p (beBytes 4 sz) (p + k) = m (p + k) :=
    fun k hk => Mem.write_outside (by simp; omega)
  rw [headerWords_eq, headerWords_eq, Mem.be_write h, htype 4 (by omega), htype 5 (by omega),
    htype 6 (by omega), htype 7 (by omega)]

/-- `constructBox` without the restart: a stub of the remaining bytes, an
oversized box that is not looked into, or a body that fits. -/
theorem constructBox_eq {loop : RunLoop} {hdr maxSz : Nat} (hm : maxSz < 2 ^ 32) {c : Bool}
    {tid : Int} {h : Heap} :
    constructBox loop hdr maxSz c tid h =
      if maxSz < 8 then some (.plain { size := maxSz, type := UKWN }, h)
      else if maxSz < (settle h hdr maxSz c).1.size then
        some (.plain { size := (settle h hdr maxSz c).1.size,
                       type := (settle h hdr maxSz c).1.type }, (settle h hdr maxSz c).2)
      else constructBody loop (settle h hdr maxSz c).1 (hdr + 8) tid (settle h hdr maxSz c).2 := by
  unfold constructBox
  by_cases h8 : maxSz < 8
  · simp [h8]
  · have h4 : ¬ maxSz < 4 := by omega
    rw [if_neg h4, if_neg h8, if_neg h8]
    by_cases hs : maxSz < (headerWords h.mem hdr).size
    · cases c with
      | false => simp [settle, hs]
      | true => simp [settle, hs, headerWords_write hm]
    · simp [settle, hs]

/-! ## Fuel -/

theorem constructBody_mono {loop loop' : RunLoop}
    (hl : ∀ {L cur ptr v h r}, loop L cur ptr v h = some r → loop' L cur ptr v h = some r)
    {w : HeaderWords} {ptr : Nat} {tid : Int} {h : Heap} {r : IsoBmffBox × Heap}
    (hr : constructBody loop w ptr tid h = some r) : constructBody loop' w ptr tid h = some r := by
  unfold constructBody at hr ⊢
  split at hr
  · unfold constructContainer at hr ⊢
    split at hr
    · cases hr
    · rename_i hloop
      rw [hl hloop]
      exact hr
  · unfold constructTrakBox at hr ⊢
    split at hr
    · cases hr
    · rename_i hloop
      rw [hl hloop]
      exact hr
  · exact hr
  · exact hr

theorem constructBox_mono {loop loop' : RunLoop}
    (hl : ∀ {L cur ptr v h r}, loop L cur ptr v h = some r → loop' L cur ptr v h = some r)
    {hdr maxSz : Nat} (hm : maxSz < 2 ^ 32) {c : Bool} {tid : Int} {h : Heap}
    {r : IsoBmffBox × Heap} (hr : constructBox loop hdr maxSz c tid h = some r) :
    constructBox loop' hdr maxSz c tid h = some r := by
  rw [constructBox_eq hm] at hr ⊢
  by_cases h8 : maxSz < 8
  · simpa [h8] using hr
  · rw [if_neg h8] at hr ⊢
    by_cases hs : maxSz < (settle h hdr maxSz c).1.size
    · simpa [hs] using hr
    · rw [if_neg hs] at hr ⊢
      exact constructBody_mono hl hr

theorem boxLoop_succ {fuel : Nat} {L : BoxLoop} {cur ptr : Nat} {v : LoopVars} {h : Heap}
    {r : LoopResult} (hr : boxLoop fuel L cur ptr v h = some r) :
    boxLoop (fuel + 1) L cur ptr v h = some r := by
  induction fuel generalizing L cur ptr v h r with
  | zero => simp [boxLoop] at hr
  | succ fuel ih =>
      rw [boxLoop] at hr
      rw [boxLoop]
      by_cases hc : cur < L.limit
      · rw [if_pos hc] at hr
        rw [if_pos hc]
        cases hb : constructBox (boxLoop fuel) ptr (L.room cur) L.correct L.childTrackId h with
        | none => simp [hb] at hr
        | some bh =>
            simp only [hb] at hr
            rw [constructBox_mono ih (L.room_lt cur) hb]
            dsimp only
            split at hr
            · cases hr
            · rename_i hrest
              rw [ih hrest]
              exact hr
      · rw [if_neg hc] at hr
        rw [if_neg hc]
        exact hr

/-- A loop that has returned returns the same with more fuel. -/
theorem boxLoop_mono {fuel fuel' : Nat} (hf : fuel ≤ fuel') {L : BoxLoop} {cur ptr : Nat}
    {v : LoopVars} {h : Heap} {r : LoopResult} (hr : boxLoop fuel L cur ptr v h = some r) :
    boxLoop fuel' L cur ptr v h = some r := by
  induction hf with
  | refl => exact hr
  | step _ ih => exact boxLoop_succ ih

end PlayerInterface.IsoBmff
