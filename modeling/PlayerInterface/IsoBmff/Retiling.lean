import PlayerInterface.IsoBmff.Rewrite

/-!
# Parsing a byte range again

What a new parse of a range of stored boxes without children finds there, and when
the range of a box that was rewritten in place is tiled again: by the box alone, or
by the box and one `skip` behind it.
-/

namespace PlayerInterface.IsoBmff

open PlayerInterface.Core Reader

/-! ## Boxes without children -/

/-- Types that are not looked into for children. -/
def Flat (type : FourCC) : Prop := boxKind type ≠ .container ∧ boxKind type ≠ .trak

/-- The object of such a box of `size` bytes, with `ptr` behind its header. -/
def flatBox (type : FourCC) (size : Nat) (m : Mem) (ptr : Nat) : IsoBmffBox :=
  match boxKind type with
  | .leaf kind => (constructLeaf kind size).val m ptr
  | _ => .plain { size, type }

theorem flatBox_size_type (type : FourCC) (size : Nat) (m : Mem) (ptr : Nat) :
    (flatBox type size m ptr).getSize = size ∧ (flatBox type size m ptr).getType = type := by
  unfold flatBox
  split
  · rename_i kind hk
    rw [← type_of_boxKind_leaf hk]
    exact constructLeaf_size_type kind size m ptr
  · exact ⟨rfl, rfl⟩

theorem constructBody_flat {type : FourCC} (hflat : Flat type) (loop : RunLoop) (size ptr : Nat)
    (tid : Int) (h : Heap) :
    ∃ h', constructBody loop ⟨size, type⟩ ptr tid h = some (flatBox type size h.mem ptr, h') ∧
      h'.mem = h.mem := by
  unfold constructBody flatBox
  cases hk : boxKind type with
  | container => exact absurd hk hflat.1
  | trak => exact absurd hk hflat.2
  | leaf kind => exact ⟨_, rfl, rfl⟩
  | other => exact ⟨_, rfl, rfl⟩

/-- Parsing `n` bytes from `cur` on, which lie at `ptr`, makes these boxes. -/
def Reparses (n cur ptr : Nat) (m : Mem) (boxes : List IsoBmffBox) : Prop :=
  ∀ v h, h.mem = m → Outcome (.buffer n false (-1)) cur ptr v h fun r => r.boxes = boxes

variable {n cur ptr : Nat} {m : Mem} {type : FourCC} {body : Bytes} {boxes : List IsoBmffBox}

theorem Reparses.done (h : n ≤ cur) : Reparses n cur ptr m [] := by
  intro v heap hmem
  rw [Outcome.done_iff (show ¬ cur < (BoxLoop.buffer n false (-1)).limit by
    rw [BoxLoop.limit]; omega)]

theorem Reparses.cons (hflat : Flat type) (hb : Holds m ptr (boxBytes type body))
    (hfit : cur + (8 + body.length) ≤ n) (hn : n < 2 ^ 32)
    (hrest : Reparses n (cur + (8 + body.length)) (ptr + (8 + body.length)) m boxes) :
    Reparses n cur ptr m
      ((flatBox type (8 + body.length) m (ptr + 8)).setOffset cur :: boxes) := by
  intro v heap hmem
  subst hmem
  let L := BoxLoop.buffer n false (-1)
  rcases constructBody_flat hflat (boxLoop 0) (8 + body.length) (ptr + 8) (-1)
    (heap.read readHeader ptr) with ⟨h₁, hbody, hmem⟩
  have hpass := Passes.stored (L := L) (v := v) hb rfl hfit hn hbody
  have hbehind : (L.behind cur ptr (flatBox type (8 + body.length) heap.mem (ptr + 8)) v h₁).2.mem =
      heap.mem := by
    rw [L.behind_mem]
    exact hmem
  apply (hpass _).mpr
  rcases hrest _ _ hbehind with ⟨fuel, r, hr, hboxes⟩
  exact ⟨fuel, r, hr, congrArg (_ :: ·) hboxes⟩

/-! ## Tiled again -/

/-- The `size` bytes at `p`, where a box was rewritten in place, parse as a box of its
type, alone or with one `skip` behind it. The object and the box agree in size, and no
byte outside the range has changed. -/
structure Retiled (type : FourCC) (p size : Nat) (m m' : Mem) (box first : IsoBmffBox)
    (rest : List IsoBmffBox) : Prop where
  reparsed : Reparses size 0 p m' (first :: rest)
  type_eq : first.getType = type
  tiles : (rest = [] ∧ first.getSize = size) ∨
    ∃ skip, rest = [skip] ∧ skip.getType = SKIP ∧ first.getSize + skip.getSize = size
  getSize : box.getSize = first.getSize
  outside : ∀ i, i < p ∨ p + size ≤ i → m' i = m i

/-- The box fills its range. -/
theorem Retiled.alone {box : IsoBmffBox} {p : Nat} {m' : Mem} (hflat : Flat type)
    (hb : Holds m' p (boxBytes type body)) (hlt : 8 + body.length < 2 ^ 32)
    (hsize : box.getSize = 8 + body.length)
    (houtside : ∀ i, i < p ∨ p + (8 + body.length) ≤ i → m' i = m i) :
    Retiled type p (8 + body.length) m m' box
      ((flatBox type (8 + body.length) m' (p + 8)).setOffset 0) [] := by
  have hbox := flatBox_size_type type (8 + body.length) m' (p + 8)
  constructor
  · exact Reparses.cons hflat hb (by omega) hlt (Reparses.done (by omega))
  · rw [IsoBmffBox.getType_setOffset, hbox.2]
  · exact Or.inl ⟨rfl, by rw [IsoBmffBox.getSize_setOffset, hbox.1]⟩
  · rw [IsoBmffBox.getSize_setOffset, hbox.1, hsize]
  · exact houtside

theorem flat_skip : Flat SKIP := ⟨by decide, by decide⟩

/-- A `skip` box fills what the box has left of its range. -/
theorem Retiled.skipped {box : IsoBmffBox} {p size : Nat} {m' : Mem} {payload : Bytes}
    (hflat : Flat type) (hb : Holds m' p (boxBytes type body ++ boxBytes SKIP payload))
    (hlength : 8 + body.length + (8 + payload.length) = size) (hlt : size < 2 ^ 32)
    (hsize : box.getSize = 8 + body.length)
    (houtside : ∀ i, i < p ∨ p + size ≤ i → m' i = m i) :
    ∃ skip, Retiled type p size m m' box
      ((flatBox type (8 + body.length) m' (p + 8)).setOffset 0) [skip] := by
  rcases holds_append.mp hb with ⟨hfirst, hskip⟩
  rw [boxBytes_length] at hskip
  have hbox := flatBox_size_type type (8 + body.length) m' (p + 8)
  have hskipBox := flatBox_size_type SKIP (8 + payload.length) m' (p + (8 + body.length) + 8)
  have hrest : Reparses size (0 + (8 + body.length)) (p + (8 + body.length)) m' [_] :=
    Reparses.cons flat_skip hskip (by omega) hlt (Reparses.done (by omega))
  refine ⟨_, Reparses.cons hflat hfirst (by omega) hlt hrest, ?_, ?_, ?_, houtside⟩
  · rw [IsoBmffBox.getType_setOffset, hbox.2]
  · refine Or.inr ⟨_, rfl, ?_, ?_⟩
    · rw [IsoBmffBox.getType_setOffset, hskipBox.2]
    · rw [IsoBmffBox.getSize_setOffset, IsoBmffBox.getSize_setOffset, hbox.1, hskipBox.1, hlength]
  · rw [IsoBmffBox.getSize_setOffset, hbox.1, hsize]

/-- The box found again has the size and type words that are stored. -/
theorem Reparses.words {first : IsoBmffBox} {rest : List IsoBmffBox}
    (hr : Reparses n 0 ptr m (first :: rest)) (h8 : 8 ≤ n) (hn : n < 2 ^ 32) :
    first.getSize = (headerWords m ptr).size ∧ first.getType = (headerWords m ptr).type := by
  rcases hr {} { mem := m } rfl with ⟨fuel, r, hrun, hboxes⟩
  cases fuel with
  | zero => simp [boxLoop] at hrun
  | succ fuel =>
      rcases boxLoop_uncons hrun (show 0 < n by omega) with ⟨box, h₁, tail, hb, -, rfl⟩
      have hroom : (BoxLoop.buffer n false (-1)).room 0 = n := Nat.mod_eq_of_lt hn
      rw [hroom] at hb
      rcases constructBox_head hn hb with ⟨hsize, htype, -⟩
      have hwords : (IsoBmff.head m ptr n false (-1)).words = headerWords m ptr := by
        unfold IsoBmff.head
        rw [if_neg (by omega)]
        split <;> simp [settledWords]
      change box.getSize = (IsoBmff.head m ptr n false (-1)).words.size at hsize
      change box.getType = (IsoBmff.head m ptr n false (-1)).words.type at htype
      rw [hwords] at hsize htype
      rcases List.cons.inj hboxes with ⟨rfl, -⟩
      rw [IsoBmffBox.getSize_setOffset, IsoBmffBox.getType_setOffset]
      exact ⟨hsize, htype⟩

/-! ## Headers that are written -/

/-- A new size word and a `skip` header over the bytes behind it cut stored bytes into two boxes. -/
theorem holds_skip {old : Nat} {rest : Bytes}
    (h : Holds m ptr (beBytes 4 old ++ (type.bytes ++ (body ++ rest)))) (h8 : 8 ≤ rest.length) :
    Holds (SkipIsoBmffBox (PLAYER_WRITE_U32 m ptr (8 + body.length)) rest.length
        (ptr + (8 + body.length))) ptr
      (boxBytes type body ++ boxBytes SKIP (rest.drop 8)) := by
  have hempty : Holds m ptr ([] ++ (beBytes 4 old ++ (type.bytes ++ (body ++ rest)))) := h
  have hsize : Holds (m.write ptr (beBytes 4 (8 + body.length))) ptr
      ([] ++ (beBytes 4 (8 + body.length) ++ (type.bytes ++ (body ++ rest)))) :=
    hempty.replace rfl (by simp)
  have hcut : Holds (PLAYER_WRITE_U32 m ptr (8 + body.length)) ptr
      (boxBytes type body ++ (rest.take 8 ++ rest.drop 8)) := by
    rw [List.take_append_drop, PLAYER_WRITE_U32]
    simpa only [boxBytes, List.append_assoc, List.nil_append] using hsize
  have hheader : (beBytes 4 rest.length ++ SKIP.bytes).length = (rest.take 8).length := by
    rw [boxHeader_length, List.length_take, Nat.min_eq_left h8]
  have hskip := hcut.replace (q := ptr + (8 + body.length)) (by rw [boxBytes_length]) hheader
  have hlength : 8 + (rest.drop 8).length = rest.length := by
    rw [List.length_drop]
    omega
  rw [SkipIsoBmffBox_eq]
  simpa only [boxBytes, hlength, List.append_assoc] using hskip

/-- A cell that is not in the word keeps its value. -/
theorem PLAYER_WRITE_U32_outside {loc val i : Nat} (h : i < loc ∨ loc + 4 ≤ i) :
    PLAYER_WRITE_U32 m loc val i = m i :=
  Mem.write_outside (by rwa [beBytes_length])

/-- Writing the word that is there changes nothing. -/
theorem PLAYER_WRITE_U32_same {loc val : Nat} (h : Holds m loc (beBytes 4 val)) :
    PLAYER_WRITE_U32 m loc val = m := by
  rw [PLAYER_WRITE_U32, h.write_self]

theorem SkipIsoBmffBox_outside {size loc i : Nat} (h : i < loc ∨ loc + 8 ≤ i) :
    SkipIsoBmffBox m size loc i = m i := by
  rw [SkipIsoBmffBox_eq]
  apply Mem.write_outside
  rwa [boxHeader_length]

end PlayerInterface.IsoBmff
