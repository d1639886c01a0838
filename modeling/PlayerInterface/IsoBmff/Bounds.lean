import PlayerInterface.IsoBmff.Extent
import PlayerInterface.IsoBmff.Termination

/-!
# Bounds of the parser

A container never hands its children more room than it has, so the headers stay
inside the buffer. The bodies do not: a leaf parser reads as far as its version,
flags and counts say. A terminating parse stays inside the buffer exactly when
every body it enters ends inside it.
-/

namespace PlayerInterface.IsoBmff

open PlayerInterface.Core Reader

/-! ## Logged indices -/

/-- Every index touched so far lies below `n`. -/
def Heap.Below (n : Nat) (h : Heap) : Prop := ∀ i ∈ h.touched, i < n

theorem Heap.Within.below {n : Nat} {h h' : Heap} (hw : h.Within h') (hb : h'.Below n) :
    h.Below n :=
  fun i hi => hb i (hw.1 hi)

theorem Heap.below_read {n : Nat} {h : Heap} {α : Type} {r : Reader α} {p : Nat} :
    (h.read r p).Below n ↔ h.Below n ∧ Reader.Within n r h.mem p := by
  simp only [Below, read_touched, List.mem_append, or_imp, forall_and, Reader.Within]

theorem Heap.below_write {n : Nat} {h : Heap} {p : Nat} {bs : Bytes} :
    (h.write p bs).Below n ↔ h.Below n ∧ (bs.length = 0 ∨ p + bs.length ≤ n) := by
  simp only [Below, write_touched, List.mem_append, or_imp, forall_and, range'_lt_iff]

theorem Heap.below_move {n : Nat} {h : Heap} {cur next : Nat} :
    (h.move cur next).Below n ↔ h.Below n := Iff.rfl

theorem within_readHeader (n : Nat) (m : Mem) (p : Nat) :
    Reader.Within n readHeader m p ↔ p + 8 ≤ n := by
  simp only [readHeader, within_bind, within_readBe, next_readBe, within_pure, and_true]
  omega

/-! ## Heads without correction -/

theorem head_uncorrected (m : Mem) (hdr maxSz : Nat) (tid : Int) :
    head m hdr maxSz false tid =
      if maxSz < 8 then ⟨⟨maxSz, UKWN⟩, m, .plain⟩
      else if maxSz < (headerWords m hdr).size then ⟨headerWords m hdr, m, .plain⟩
      else ⟨headerWords m hdr, m, bodyEntry (headerWords m hdr) tid⟩ := by
  simp only [head, settledWords, settledMem, Bool.false_eq_true, and_false, if_false]

theorem head_uncorrected_mem (m : Mem) (hdr maxSz : Nat) (tid : Int) :
    (head m hdr maxSz false tid).mem = m := by
  rw [head_uncorrected]
  split_ifs <;> rfl

theorem below_headHeap {n : Nat} {h : Heap} {hdr maxSz : Nat} :
    (headHeap h hdr maxSz false).Below n ↔ h.Below n ∧ (maxSz < 8 ∨ hdr + 8 ≤ n) := by
  unfold headHeap
  by_cases h8 : maxSz < 8
  · simp [h8]
  · simp only [settle, Bool.false_eq_true, and_false, if_false, h8, false_or, Heap.below_read,
      within_readHeader]

/-- A box that is looked into fits the room its loop has left. -/
theorem head_nested {m : Mem} {hdr maxSz : Nat} {tid : Int} {L : BoxLoop}
    (he : (head m hdr maxSz false tid).entry = .nested L) :
    L.correct = false ∧ L.limit = (head m hdr maxSz false tid).words.size ∧ L.limit ≤ maxSz := by
  rw [head_uncorrected] at he ⊢
  by_cases h8 : maxSz < 8
  · simp only [if_pos h8, reduceCtorEq] at he
  · by_cases hs : maxSz < (headerWords m hdr).size
    · simp only [if_neg h8, if_pos hs, reduceCtorEq] at he
    · simp only [if_neg h8, if_neg hs] at he ⊢
      unfold bodyEntry at he
      cases hk : boxKind (headerWords m hdr).type <;> rw [hk] at he <;> dsimp only at he
      · cases he
        exact ⟨rfl, rfl, by simpa [BoxLoop.limit] using hs⟩
      · cases he
        exact ⟨rfl, rfl, by simpa [BoxLoop.limit] using hs⟩
      · cases he
      · cases he

/-- Behind a header there is a body only where a header was read. -/
theorem head_body_room {m : Mem} {hdr maxSz : Nat} {tid : Int}
    (he : (head m hdr maxSz false tid).entry ≠ .plain) : 8 ≤ maxSz := by
  by_contra h8
  apply he
  rw [head_uncorrected, if_pos (by omega)]

/-- The words of a head are the bytes of its header: memory that agrees on
those gives the same words. -/
theorem head_words_congr {m m' : Mem} {hdr maxSz : Nat} {tid : Int}
    (h : headerWords m' hdr = headerWords m hdr) :
    (head m' hdr maxSz false tid).words = (head m hdr maxSz false tid).words := by
  rw [head_uncorrected, head_uncorrected, h]
  split_ifs <;> rfl

theorem headerWords_write_behind {m : Mem} {p q : Nat} {bs : Bytes} (h : p + 8 ≤ q) :
    headerWords (m.write q bs) p = headerWords m p := by
  have htype : ∀ k, k < 8 → m.write q bs (p + k) = m (p + k) :=
    fun k hk => Mem.write_outside (Or.inl (by omega))
  rw [headerWords_eq, headerWords_eq, Mem.be_write_outside (Or.inl (by omega)),
    htype 4 (by omega), htype 5 (by omega), htype 6 (by omega), htype 7 (by omega)]

/-! ## The box a loop visits -/

/-- Places inside a buffer of `n` bytes. -/
def Checks.inside (n : Nat) : Checks where
  leaf m ptr kind sz := ptr + leafExtent m ptr kind sz ≤ n
  tkhd m loc := trackIdLoc m loc + 4 ≤ n

theorem trackIdLoc_ge (m : Mem) (loc : Nat) : loc + 12 ≤ trackIdLoc m loc := by
  unfold trackIdLoc
  split <;> omega

theorem trackIdBytes_length (tid : Int) : (trackIdBytes tid).length = 4 := beBytes_length 4 _

/-- Reading the track id of a tkhd touches as far as its four bytes. -/
theorem below_readTkhd {n : Nat} {tid : Int} {loc : Nat} {h : Heap} :
    (readTkhd tid loc h).2.Below n ↔ h.Below n ∧ trackIdLoc h.mem loc + 4 ≤ n := by
  have hge := trackIdLoc_ge h.mem loc
  unfold readTkhd
  by_cases ht : tid = -1
  · simp only [ht, ne_eq, not_true_eq_false, if_false, Heap.below_read, within_readBe,
      Heap.read_mem]
    constructor
    · rintro ⟨⟨hb, _⟩, h4⟩
      exact ⟨hb, by omega⟩
    · rintro ⟨hb, h4⟩
      exact ⟨⟨hb, by omega⟩, by omega⟩
  · simp only [ht, ne_eq, not_false_eq_true, if_true, Heap.below_read, Heap.below_write,
      within_readBe, trackIdBytes_length]
    constructor
    · rintro ⟨⟨⟨hb, _⟩, _⟩, h4⟩
      exact ⟨hb, by omega⟩
    · rintro ⟨hb, h4⟩
      exact ⟨⟨⟨hb, by omega⟩, by omega⟩, by omega⟩

theorem BoxLoop.below_visit {n : Nat} (L : BoxLoop) (cur ptr : Nat) (box : IsoBmffBox)
    (v : LoopVars) (h : Heap) :
    (L.visit cur ptr box v h).2.Below n ↔
      h.Below n ∧ L.Meets (Checks.inside n) cur ptr box.getType h.mem := by
  cases L with
  | buffer bufSize c tid =>
      by_cases hc : bufSize - cur < 4 ∨ bufSize - cur < box.getSize <;> simp [visit, Meets, hc]
  | container sz tid => simp [visit, Meets]
  | trak sz tid =>
      by_cases ht : box.getType = TKHD
      · simp [visit, Meets, ht, below_readTkhd, Checks.inside]
      · simp [visit, Meets, ht]

/-- A tkhd is patched behind the header of its own box. -/
theorem BoxLoop.headerWords_patch (L : BoxLoop) (cur ptr : Nat) (type : FourCC) (m : Mem) :
    headerWords (L.patch cur ptr type m) ptr = headerWords m ptr := by
  cases L with
  | buffer bufSize c tid => rfl
  | container sz tid => rfl
  | trak sz tid =>
      by_cases ht : type = TKHD ∧ tid ≠ -1
      · have hge := trackIdLoc_ge m (ptr + cur)
        simp only [patch, if_pos ht]
        exact headerWords_write_behind (by omega)
      · simp only [patch, if_neg ht]

/-! ## Regions -/

/-- A loop without size correction whose unread part lies inside the buffer. -/
structure BoxLoop.Region (n : Nat) (L : BoxLoop) (cur ptr : Nat) : Prop where
  uncorrected : L.correct = false
  limit_le : L.limit ≤ n
  cur_le : cur ≤ ptr
  inside : cur < L.limit → ptr + (L.limit - cur) ≤ n

theorem BoxLoop.Region.room {n : Nat} {L : BoxLoop} {cur ptr : Nat} (hn : n < 2 ^ 32)
    (hr : L.Region n cur ptr) : L.room cur = L.limit - cur := by
  have hlimit := hr.limit_le
  exact L.room_eq (by omega) cur

theorem BoxLoop.Region.head {n : Nat} {L : BoxLoop} {cur ptr : Nat} (hn : n < 2 ^ 32)
    (hr : L.Region n cur ptr) (m : Mem) :
    L.head cur ptr m = IsoBmff.head m ptr (L.limit - cur) false L.childTrackId := by
  rw [BoxLoop.head, hr.room hn, hr.uncorrected]

/-- The loop over the children of a box stays in the region of the box. -/
theorem BoxLoop.Region.nested {n : Nat} {L L' : BoxLoop} {cur ptr : Nat} (hn : n < 2 ^ 32)
    (hr : L.Region n cur ptr) (hc : cur < L.limit) {m : Mem}
    (he : (L.head cur ptr m).entry = .nested L') : L'.Region n 8 (ptr + 8) := by
  rw [hr.head hn] at he
  have hin := hr.inside hc
  have hlimit := hr.limit_le
  rcases head_nested he with ⟨hcorrect, -, hfit⟩
  exact ⟨hcorrect, by omega, by omega, fun h8 => by omega⟩

theorem BoxLoop.Region.body_le {n : Nat} {L : BoxLoop} {cur ptr : Nat} (hn : n < 2 ^ 32)
    (hr : L.Region n cur ptr) (hc : cur < L.limit) {m : Mem}
    (he : (L.head cur ptr m).entry ≠ .plain) : ptr + 8 ≤ n := by
  rw [hr.head hn] at he
  have hin := hr.inside hc
  have hroom := head_body_room he
  omega

theorem BoxLoop.Region.step {n : Nat} {L : BoxLoop} {cur ptr size : Nat}
    (hr : L.Region n cur ptr) : L.Region n (cur + size) (ptr + size) where
  uncorrected := hr.uncorrected
  limit_le := hr.limit_le
  cur_le := by
    have := hr.cur_le
    omega
  inside hc := by
    have := hr.inside (by omega)
    omega

/-! ## Returning inside the buffer implies well-sized -/

/-- The children of an empty box are none, so its construction leaves the memory. -/
theorem Entry.Runs.empty {fuel ptr : Nat} {h h' : Heap} {e : Entry}
    (hlimit : ∀ L, e = .nested L → L.limit = 0) (hr : e.Runs (boxLoop fuel) ptr h h') :
    h'.mem = h.mem := by
  cases e with
  | plain => exact hr ▸ rfl
  | leaf kind sz => exact hr ▸ rfl
  | nested L =>
      have hz := hlimit L rfl
      rcases hr with ⟨r, hloop, rfl⟩
      cases fuel with
      | zero => simp [boxLoop] at hloop
      | succ fuel => rw [boxLoop_done hloop (by omega)]

/-- A loop that comes to a box of size zero comes to the same box again. -/
theorem boxLoop_zero_size {n fuel : Nat} {L : BoxLoop} {cur ptr : Nat} {v : LoopVars} {h : Heap}
    {r : LoopResult} (hn : n < 2 ^ 32) (hreg : L.Region n cur ptr) (hc : cur < L.limit)
    (hz : (L.head cur ptr h.mem).words.size = 0) : boxLoop fuel L cur ptr v h ≠ some r := by
  induction fuel generalizing v h r with
  | zero => simp [boxLoop]
  | succ fuel ih =>
      intro hr
      obtain ⟨it⟩ := boxLoop_iteration hr hc
      have hsize : it.box.getSize = 0 := it.size_eq.trans hz
      have hmod := L.modulus_ge
      have hle := hreg.limit_le
      have hrest := it.rest_eq
      rw [hsize, Nat.add_zero, Nat.add_zero, Nat.mod_eq_of_lt (by omega)] at hrest
      refine ih ?_ hrest
      -- the box left the memory, and the patch of a tkhd lies behind its header
      have hmem : it.heap.mem = h.mem := by
        have hlimit : ∀ L', (L.head cur ptr h.mem).entry = .nested L' → L'.limit = 0 := by
          intro L' he
          rw [hreg.head hn] at he hz
          exact (head_nested he).2.1.trans hz
        have hruns := it.runs.empty hlimit
        rw [headHeap_mem h ptr (L.room cur) L.correct L.childTrackId, hreg.uncorrected,
          head_uncorrected_mem] at hruns
        exact hruns
      rw [Heap.move_mem, L.visit_mem, hmem, hreg.head hn,
        head_words_congr (L.headerWords_patch cur ptr it.box.getType h.mem), ← hreg.head hn]
      exact hz

/-- What is read at the head of a box is read in the whole run. -/
theorem Iteration.head_below {n fuel : Nat} {L : BoxLoop} {cur ptr : Nat} {h : Heap}
    {r : LoopResult} (it : Iteration fuel L cur ptr h r) (hbelow : it.rest.heap.Below n) :
    (headHeap h ptr (L.room cur) L.correct).Below n := by
  have hbox := it.runs.within boxLoop_within
  have hvisit := L.visit_within cur ptr it.box it.vars it.heap
  have hrest := (Heap.within_move _ _ _).trans (boxLoop_within it.rest_eq)
  exact (hbox.trans (hvisit.trans hrest)).below hbelow

/-- A cursor that wraps sends the pointer behind the buffer, where the next
header is read. -/
theorem no_wrap {n fuel : Nat} {L : BoxLoop} {cur ptr : Nat} {h : Heap} {r : LoopResult}
    (hn : n < 2 ^ 32) (hreg : L.Region n cur ptr) (hc : cur < L.limit)
    (it : Iteration fuel L cur ptr h r) (hbelow : r.heap.Below n) :
    cur + it.box.getSize < L.modulus := by
  have hle := hreg.limit_le
  have hcur := hreg.cur_le
  have hmod := L.modulus_ge
  have hsz : it.box.getSize < 2 ^ 32 := by
    rw [it.size_eq]
    exact head_size_lt (L.room_lt cur)
  by_contra hwrap
  have hmod32 : L.modulus = 2 ^ 32 := by
    cases L with
    | buffer bufSize c tid =>
        simp only [BoxLoop.modulus] at hwrap ⊢
        omega
    | container sz tid => rfl
    | trak sz tid => rfl
  have hnext : (cur + it.box.getSize) % L.modulus = cur + it.box.getSize - 2 ^ 32 := by
    rw [hmod32, Nat.mod_eq_sub_mod (by omega), Nat.mod_eq_of_lt (by omega)]
  -- only a box larger than its room wraps, and that room holds a header
  have hroom : 8 ≤ L.limit - cur := by
    have hsize := it.size_eq
    rw [hreg.head hn, head_uncorrected] at hsize
    by_contra h8
    rw [if_pos (by omega)] at hsize
    dsimp only at hsize
    omega
  have hrest := it.rest_eq
  rw [hnext] at hrest
  generalize hnc : cur + it.box.getSize - 2 ^ 32 = next at hrest
  cases fuel with
  | zero => simp [boxLoop] at hrest
  | succ fuel =>
      obtain ⟨it'⟩ := boxLoop_iteration hrest (by omega)
      have hread := it'.head_below (it'.heap_eq ▸ it.heap_eq ▸ hbelow)
      have hroom' : L.room next = L.limit - next := Nat.mod_eq_of_lt (by omega)
      rw [hreg.uncorrected, below_headHeap, hroom'] at hread
      omega

theorem wellSized_of_below {n fuel : Nat} {L : BoxLoop} {cur ptr : Nat} {v : LoopVars} {h : Heap}
    {r : LoopResult} (hn : n < 2 ^ 32) (hreg : L.Region n cur ptr)
    (hr : boxLoop fuel L cur ptr v h = some r) (hbelow : r.heap.Below n) :
    WellSized (Checks.inside n) L cur ptr h.mem r.heap.mem := by
  induction fuel generalizing L cur ptr v h r with
  | zero => simp [boxLoop] at hr
  | succ fuel ih =>
      by_cases hc : cur < L.limit
      · have hpos : 0 < (L.head cur ptr h.mem).words.size :=
          Nat.pos_of_ne_zero fun hz => boxLoop_zero_size hn hreg hc hz hr
        obtain ⟨it⟩ := boxLoop_iteration hr hc
        have hfit := no_wrap hn hreg hc it hbelow
        have hin := hreg.inside hc
        rw [it.heap_eq] at hbelow ⊢
        have hmoved := (boxLoop_within it.rest_eq).below hbelow
        rw [Heap.below_move, L.below_visit] at hmoved
        have hrest := ih hreg.step (by rw [← Nat.mod_eq_of_lt hfit]; exact it.rest_eq) hbelow
        rw [Heap.move_mem, L.visit_mem, it.size_eq, it.type_eq] at hrest
        have hmem := headHeap_mem h ptr (L.room cur) L.correct L.childTrackId
        have hruns := it.runs
        refine .box hc hpos (it.size_eq ▸ hfit) ?_ ?_ ?_ (it.type_eq ▸ hmoved.2) hrest
        · cases he : (L.head cur ptr h.mem).entry with
          | plain => trivial
          | leaf kind sz =>
              rw [he] at hruns
              have hbody := hreg.body_le hn hc (by rw [he]; exact Entry.noConfusion)
              have hleaf := (Heap.below_read.mp (hruns ▸ hmoved.1)).2
              rw [hmem] at hleaf
              exact (within_constructLeaf hn kind sz _ _ hbody).mp hleaf
          | nested L' => trivial
        · intro L' he
          rw [he] at hruns
          rcases hruns with ⟨r', hloop, heq⟩
          have hin' := ih (hreg.nested hn hc he) hloop (heq ▸ hmoved.1)
          rw [hmem] at hin'
          exact heq ▸ hin'
        · intro hflat
          exact (hruns.flat hflat).1.trans hmem
      · rw [boxLoop_done hr hc]
        exact .done (by omega)

/-! ## Well-sized implies staying inside -/

theorem below_of_wellSized {n : Nat} {L : BoxLoop} {cur ptr : Nat} {m m' : Mem} (hn : n < 2 ^ 32)
    (hw : WellSized (Checks.inside n) L cur ptr m m') (hreg : L.Region n cur ptr) {fuel : Nat}
    {v : LoopVars} {h : Heap} {r : LoopResult} (hm : h.mem = m) (hb : h.Below n)
    (hr : boxLoop fuel L cur ptr v h = some r) : r.heap.Below n ∧ r.heap.mem = m' := by
  induction hw generalizing fuel v h r with
  | @done L cur ptr m hc =>
      cases fuel with
      | zero => simp [boxLoop] at hr
      | succ fuel =>
          rw [boxLoop_done hr (by omega)]
          exact ⟨hb, hm⟩
  | @box L cur ptr m m₁ m' hc hpos hfit hok hnest hflat hvisit _ ihnest ihrest =>
      subst hm
      cases fuel with
      | zero => simp [boxLoop] at hr
      | succ fuel =>
          obtain ⟨it⟩ := boxLoop_iteration hr hc
          have hmem := headHeap_mem h ptr (L.room cur) L.correct L.childTrackId
          have hin := hreg.inside hc
          have hhead : (headHeap h ptr (L.room cur) L.correct).Below n := by
            rw [hreg.uncorrected, hreg.room hn]
            exact below_headHeap.mpr ⟨hb, by omega⟩
          have hbox : it.heap.Below n ∧ it.heap.mem = m₁ := by
            have hruns := it.runs
            cases he : (L.head cur ptr h.mem).entry with
            | plain =>
                rw [he] at hruns hflat
                rw [hruns, hflat fun _ => Entry.noConfusion]
                exact ⟨hhead, hmem⟩
            | leaf kind sz =>
                rw [he] at hruns hok hflat
                have hbody := hreg.body_le hn hc (by rw [he]; exact Entry.noConfusion)
                rw [hruns, hflat fun _ => Entry.noConfusion]
                refine ⟨Heap.below_read.mpr ⟨hhead, ?_⟩, hmem⟩
                rw [hmem]
                exact (within_constructLeaf hn kind sz _ _ hbody).mpr hok
            | nested L' =>
                rw [he] at hruns
                rcases hruns with ⟨r', hloop, heq⟩
                rw [heq]
                exact ihnest L' he (hreg.nested hn hc he) hmem hhead hloop
          have hvisited : (L.visit cur ptr it.box it.vars it.heap).2.Below n := by
            rw [L.below_visit, it.type_eq, hbox.2]
            exact ⟨hbox.1, hvisit⟩
          have hrest := it.rest_eq
          rw [it.size_eq, Nat.mod_eq_of_lt hfit] at hrest
          rw [it.heap_eq]
          refine ihrest hreg.step ?_ (Heap.below_move.mpr hvisited) hrest
          rw [Heap.move_mem, L.visit_mem, it.type_eq, hbox.2]

/-! ## The parser -/

/-- A mvhd that ends behind its type word. -/
def truncatedMvhd : Mem := Mem.ofBytes [0, 0, 0, 8, 109, 118, 104, 100] fun _ => 0

end PlayerInterface.IsoBmff
