import PlayerInterface.IsoBmff.Bounds
import PlayerInterface.IsoBmff.RoundTrip

/-!
# The top level of a buffer

A loop that neither corrects sizes nor writes a track id leaves the memory alone
and returns exactly when its layout ends. For the loop of `parseBuffer` this says
which boxes it makes of a buffer whose last box is cut, and when `getChunkedfBox`
points to that box.
-/

namespace PlayerInterface.IsoBmff

open PlayerInterface.Core Reader

/-! ## Loops that only read -/

section
variable {m : Mem} {L : BoxLoop} {cur ptr fuel : Nat} {h : Heap}

theorem BoxLoop.Quiet.head_eq (hL : L.Quiet) (cur ptr : Nat) (m : Mem) :
    L.head cur ptr m = IsoBmff.head m ptr (L.room cur) false (-1) := by
  rw [BoxLoop.head, hL.correct, hL.childTrackId]

theorem bodyEntry_quiet {w : HeaderWords} {L' : BoxLoop} (he : bodyEntry w (-1) = .nested L') :
    L'.Quiet := by
  unfold bodyEntry at he
  split at he
  · cases he
    exact rfl
  · cases he
    exact rfl
  · cases he
  · cases he

theorem BoxLoop.Quiet.nested (hL : L.Quiet) {L' : BoxLoop}
    (he : (L.head cur ptr m).entry = .nested L') : L'.Quiet := by
  rw [hL.head_eq, head_uncorrected] at he
  split at he
  · cases he
  · split at he
    · cases he
    · exact bodyEntry_quiet he

theorem BoxLoop.Quiet.headHeap_mem (hL : L.Quiet) (h : Heap) (cur ptr : Nat) :
    (headHeap h ptr (L.room cur) L.correct).mem = h.mem := by
  rw [IsoBmff.headHeap_mem h ptr (L.room cur) L.correct (-1), hL.correct, head_uncorrected_mem]

/-- Entering a box leaves the memory when the loop over its children does. -/
theorem Entry.Runs.mem_eq {loop : RunLoop} {h' : Heap} {e : Entry}
    (hr : e.Runs loop ptr h h')
    (hloop : ∀ L' r, e = .nested L' → loop L' 8 ptr {} h = some r → r.heap.mem = h.mem) :
    h'.mem = h.mem := by
  cases e with
  | plain => exact congrArg Heap.mem hr
  | leaf kind sz => exact hr ▸ Heap.read_mem h (constructLeaf kind sz) ptr
  | nested L' =>
      obtain ⟨r, hrun, rfl⟩ := hr
      exact hloop L' r rfl hrun

/-- A loop that only reads leaves the memory it found. -/
theorem BoxLoop.Quiet.mem_eq (hL : L.Quiet) {v : LoopVars} {r : LoopResult}
    (hr : boxLoop fuel L cur ptr v h = some r) : r.heap.mem = h.mem := by
  induction fuel generalizing L cur ptr v h r with
  | zero => simp [boxLoop] at hr
  | succ fuel ih =>
      by_cases hc : cur < L.limit
      · obtain ⟨it⟩ := boxLoop_iteration hr hc
        have hbox := it.runs.mem_eq fun L' r' he hrun => ih (hL.nested he) hrun
        rw [it.heap_eq, ih hL it.rest_eq, Heap.move_mem, L.visit_mem, hL.patch, hbox,
          hL.headHeap_mem]
      · rw [boxLoop_done hr hc]

theorem BoxLoop.Quiet.constructBox_mem (hL : L.Quiet) {h₁ : Heap} {box : IsoBmffBox}
    (hb : constructBox (boxLoop fuel) ptr (L.room cur) L.correct L.childTrackId h =
      some (box, h₁)) :
    h₁.mem = h.mem := by
  obtain ⟨-, -, hruns⟩ := constructBox_head (L.room_lt cur) hb
  change (L.head cur ptr h.mem).entry.Runs _ _ _ _ at hruns
  have hbox := hruns.mem_eq fun L' r he hrun => (hL.nested he).mem_eq hrun
  rw [hbox, hL.headHeap_mem]

end

/-! ## Layouts that end -/

/-- The boxes from the cursor of a loop on come to its limit, and so do those inside the
containers on the way. -/
inductive Ends (m : Mem) : BoxLoop → Nat → Nat → Prop where
  | done {L cur ptr} : L.limit ≤ cur → Ends m L cur ptr
  | box {L cur ptr} : cur < L.limit →
      (∀ L', (L.head cur ptr m).entry = .nested L' → Ends m L' 8 (ptr + 8)) →
      Ends m L ((cur + (L.head cur ptr m).words.size) % L.modulus)
        (ptr + (L.head cur ptr m).words.size) →
      Ends m L cur ptr

section
variable {m : Mem} {L : BoxLoop} {cur ptr fuel : Nat} {h : Heap}

theorem BoxLoop.Quiet.ends_of_run (hL : L.Quiet) {v : LoopVars} {r : LoopResult}
    (hr : boxLoop fuel L cur ptr v h = some r) : Ends h.mem L cur ptr := by
  induction fuel generalizing L cur ptr v h r with
  | zero => simp [boxLoop] at hr
  | succ fuel ih =>
      by_cases hc : cur < L.limit
      · obtain ⟨it⟩ := boxLoop_iteration hr hc
        have hmem : _ = h.mem := (hL.mem_eq it.rest_eq).symm.trans (it.heap_eq ▸ hL.mem_eq hr)
        have hrest := ih hL it.rest_eq
        rw [hmem, it.size_eq] at hrest
        refine .box hc (fun L' he => ?_) hrest
        have hruns := it.runs
        rw [he] at hruns
        obtain ⟨r', hloop, -⟩ := hruns
        have hin := ih (hL.nested he) hloop
        rwa [hL.headHeap_mem] at hin
      · exact .done (by omega)

/-- A loop that only reads returns when its layout ends. -/
theorem Ends.returns (hE : Ends m L cur ptr) (hL : L.Quiet) (v : LoopVars) (h : Heap)
    (hm : h.mem = m) : ∃ fuel r, boxLoop fuel L cur ptr v h = some r := by
  induction hE generalizing v h with
  | @done L cur ptr hc => exact ⟨1, ⟨[], v, h⟩, by rw [boxLoop, if_neg (by omega)]⟩
  | @box L cur ptr hc _ _ ihnest ihrest =>
      subst hm
      obtain ⟨fuel₁, box, h₁, hb⟩ := BoxLoop.constructBox_returns (L := L) (h := h)
        fun L' he => ihnest L' he (hL.nested he) {} _ (hL.headHeap_mem h cur ptr)
      obtain ⟨hsize, -, -⟩ := constructBox_head (L.room_lt cur) hb
      change box.getSize = (L.head cur ptr h.mem).words.size at hsize
      obtain ⟨fuel₂, rest, hrest⟩ := ihrest hL
        (L.visit cur ptr (box.setOffset (cur % 2 ^ 32)) v h₁).1
        ((L.visit cur ptr (box.setOffset (cur % 2 ^ 32)) v h₁).2.move cur
          ((cur + box.getSize) % L.modulus)) (by
            rw [Heap.move_mem, L.visit_mem, hL.patch, hL.constructBox_mem hb])
      rw [← hsize] at hrest
      exact ⟨max fuel₁ fuel₂ + 1, _, boxLoop_cons hc
        (constructBox_mono (boxLoop_mono (Nat.le_max_left _ _)) (L.room_lt cur) hb)
        (boxLoop_mono (Nat.le_max_right _ _) hrest)⟩

/-- The box at the cursor is constructed exactly when the layouts inside it end. -/
theorem BoxLoop.Quiet.constructs_iff (hL : L.Quiet) :
    (∃ fuel box h₁, constructBox (boxLoop fuel) ptr (L.room cur) L.correct L.childTrackId h =
        some (box, h₁)) ↔
      ∀ L', (L.head cur ptr h.mem).entry = .nested L' → Ends h.mem L' 8 (ptr + 8) := by
  constructor
  · rintro ⟨fuel, box, h₁, hb⟩ L' he
    obtain ⟨-, -, hruns⟩ := constructBox_head (L.room_lt cur) hb
    change (L.head cur ptr h.mem).entry.Runs _ _ _ _ at hruns
    rw [he] at hruns
    obtain ⟨r, hr, -⟩ := hruns
    have hends := (hL.nested he).ends_of_run hr
    rwa [hL.headHeap_mem] at hends
  · intro hends
    exact BoxLoop.constructBox_returns fun L' he =>
      (hends L' he).returns (hL.nested he) {} _ (hL.headHeap_mem h cur ptr)

end

/-! ## Buffers with a cut last box -/

/-- The bytes from a start on that a size word claims for a box. -/
structure Span where
  start : Nat
  size : Nat
deriving DecidableEq, Repr

/-- The boxes of a buffer of `n` bytes from a start on: sizes of at least 8, and the last
box may be cut inside its header or behind it. -/
inductive Tiling (m : Mem) (n : Nat) : Nat → List Span → Prop where
  | done : Tiling m n n []
  | whole {cur spans} : 8 ≤ m.be cur 4 → cur + m.be cur 4 ≤ n →
      Tiling m n (cur + m.be cur 4) spans → Tiling m n cur (⟨cur, m.be cur 4⟩ :: spans)
  | cutHeader {cur} : cur < n → n < cur + 8 → Tiling m n cur [⟨cur, n - cur⟩]
  | cutBody {cur} : cur + 8 ≤ n → n < cur + m.be cur 4 → Tiling m n cur [⟨cur, m.be cur 4⟩]

/-- Too few bytes left for a header, or fewer than its size word claims. -/
def Incomplete (m : Mem) (n p : Nat) : Prop := n - p < 8 ∨ n - p < m.be p 4

instance (m : Mem) (n p : Nat) : Decidable (Incomplete m n p) := inferInstanceAs (Decidable (_ ∨ _))

/-- Each box starts where the one before it ends, all but the last lie inside the buffer, the
last reaches its end, and the chunked box is the last one exactly when that is incomplete. -/
def Tiled (m : Mem) (n : Nat) : Nat → List IsoBmffBox → Option IsoBmffBox → Prop
  | cur, [], chunkedBox => cur = n ∧ chunkedBox = none
  | cur, [box], chunkedBox =>
      box.getOffset = cur ∧ n ≤ cur + box.getSize ∧
        chunkedBox = if Incomplete m n cur then some box else none
  | cur, box :: next :: boxes, chunkedBox =>
      box.getOffset = cur ∧ cur + box.getSize ≤ n ∧
        Tiled m n (cur + box.getSize) (next :: boxes) chunkedBox

/-- What a start asks of the loop: it fits the offset and the cursor words, the 32 bits of the
remaining size do not cut the header short, no header is cut behind its size word, and the
loop over the children of a box that is looked into ends. -/
structure Sound (m : Mem) (n : Nat) (s : Span) : Prop where
  offset : s.start < 2 ^ 32
  cursor : s.start + s.size < 2 ^ 64
  header : n - s.start < 4 ∨ 8 ≤ (n - s.start) % 2 ^ 32
  children : ∀ L', (BoxLoop.head (.buffer n false (-1)) s.start s.start m).entry = .nested L' →
    Ends m L' 8 (s.start + 8)

/-! ## The loop of `parseBuffer` -/

section
variable {m : Mem} {n cur : Nat} {v : LoopVars} {h : Heap}

/-- The loop of `parseBuffer(false, -1)`. -/
abbrev topLoop (n : Nat) : BoxLoop := .buffer n false (-1)

theorem topLoop_quiet (n : Nat) : (topLoop n).Quiet := ⟨rfl, rfl⟩

theorem topLoop_head_size (m : Mem) (n cur : Nat) :
    ((topLoop n).head cur cur m).words.size =
      if (n - cur) % 2 ^ 32 < 8 then (n - cur) % 2 ^ 32 else m.be cur 4 := by
  rw [(topLoop_quiet n).head_eq, head_uncorrected]
  change (if (n - cur) % 2 ^ 32 < 8 then _ else if _ then _ else _ : Head).words.size = _
  split
  · rfl
  · split <;> rfl

/-- A box the loop constructs at its cursor has the size of its head. -/
theorem topLoop_size {fuel : Nat} {h₁ : Heap} {box : IsoBmffBox} (hm : h.mem = m)
    (hb : constructBox (boxLoop fuel) cur ((topLoop n).room cur) (topLoop n).correct
      (topLoop n).childTrackId h = some (box, h₁)) :
    box.getSize = if (n - cur) % 2 ^ 32 < 8 then (n - cur) % 2 ^ 32 else m.be cur 4 := by
  rw [← topLoop_head_size, ← hm]
  exact (constructBox_head ((topLoop n).room_lt cur) hb).1

/-- Where a multiple of 2^32 bytes is left, the stub of size zero is made forever. -/
theorem topLoop_no_room {fuel : Nat} {r : LoopResult} (hn : n < 2 ^ 64) (hc : cur < n)
    (hroom : (n - cur) % 2 ^ 32 = 0) : boxLoop fuel (topLoop n) cur cur v h ≠ some r := by
  induction fuel generalizing v h r with
  | zero => simp [boxLoop]
  | succ fuel ih =>
      intro hr
      obtain ⟨box, h₁, rest, hb, hrest, -⟩ := boxLoop_uncons hr hc
      have hsize := topLoop_size rfl hb
      rw [if_pos (by omega), hroom] at hsize
      have hnext : (cur + box.getSize) % (topLoop n).modulus = cur := by
        rw [hsize]
        exact Nat.mod_eq_of_lt (by change cur + 0 < 2 ^ 64; omega)
      rw [hnext, hsize, Nat.add_zero] at hrest
      exact ih hrest

/-- In front of the last box the tiling goes on behind each box. -/
theorem tiled_cons_iff {box : IsoBmffBox} {boxes : List IsoBmffBox}
    {chunkedBox : Option IsoBmffBox} (hin : cur + box.getSize ≤ n) (hc : ¬ Incomplete m n cur) :
    Tiled m n cur (box :: boxes) chunkedBox ↔
      box.getOffset = cur ∧ Tiled m n (cur + box.getSize) boxes chunkedBox := by
  cases boxes with
  | nil =>
      rw [Tiled, Tiled, if_neg hc]
      constructor
      · rintro ⟨hoff, hend, hchunk⟩
        exact ⟨hoff, by omega, hchunk⟩
      · rintro ⟨hoff, hend, hchunk⟩
        exact ⟨hoff, by omega, hchunk⟩
  | cons next boxes =>
      rw [Tiled]
      exact and_congr_right fun _ => and_iff_right hin

/-- The visit of a box records it when it is incomplete, but for a header cut behind its
size word. -/
theorem topLoop_visit (box : IsoBmffBox) (v : LoopVars) (h : Heap) :
    (topLoop n).visit cur cur box v h =
      (if n - cur < 4 ∨ n - cur < box.getSize then { v with chunkedBox := some box } else v, h) := by
  simp only [BoxLoop.visit]
  split <;> rfl

theorem topLoop_chunkedBox (box : IsoBmffBox) (hv : v.chunkedBox = none) :
    ((topLoop n).visit cur cur box v h).1.chunkedBox =
      if n - cur < 4 ∨ n - cur < box.getSize then some box else none := by
  rw [topLoop_visit]
  by_cases ht : n - cur < 4 ∨ n - cur < box.getSize
  · rw [if_pos ht, if_pos ht]
  · rw [if_neg ht, if_neg ht]
    exact hv

/-- A box recorded under some test is the tiling of its own when the test is right. -/
theorem tiled_last_iff {box : IsoBmffBox} {c : Prop} [Decidable c] :
    Tiled m n cur [box] (if c then some box else none) ↔
      box.getOffset = cur ∧ n ≤ cur + box.getSize ∧ (c ↔ Incomplete m n cur) := by
  rw [Tiled]
  by_cases hc : c
  · by_cases hi : Incomplete m n cur <;> simp [hc, hi]
  · by_cases hi : Incomplete m n cur <;> simp [hc, hi]

/-- The last box: the loop stops behind it, and it is tiled exactly when its offset is
kept and the test of the loop agrees that it is complete. -/
theorem topLoop_last {size : Nat} (hc : cur < n) (hv : v.chunkedBox = none) (hm : h.mem = m)
    (hsize : (if (n - cur) % 2 ^ 32 < 8 then (n - cur) % 2 ^ 32 else m.be cur 4) = size)
    (hend : n ≤ cur + size) (hcursor : cur + size < 2 ^ 64) :
    (∃ fuel r, boxLoop fuel (topLoop n) cur cur v h = some r ∧
        Tiled m n cur r.boxes r.vars.chunkedBox) ↔
      (∀ L', ((topLoop n).head cur cur m).entry = .nested L' → Ends m L' 8 (cur + 8)) ∧
        cur < 2 ^ 32 ∧ (n - cur < 4 ∨ n - cur < size ↔ Incomplete m n cur) := by
  have hnext : (cur + size) % (topLoop n).modulus = cur + size := Nat.mod_eq_of_lt hcursor
  have hstop : ¬ cur + size < (topLoop n).limit := Nat.not_lt.mpr hend
  have hlast : ∀ (box : IsoBmffBox) (h : Heap), box.getSize = size →
      (Tiled m n cur [box.setOffset (cur % 2 ^ 32)]
          ((topLoop n).visit cur cur (box.setOffset (cur % 2 ^ 32)) v h).1.chunkedBox ↔
        cur < 2 ^ 32 ∧ (n - cur < 4 ∨ n - cur < size ↔ Incomplete m n cur)) := by
    intro box h hbox
    rw [topLoop_chunkedBox _ hv, tiled_last_iff, IsoBmffBox.getOffset_setOffset,
      IsoBmffBox.getSize_setOffset, hbox]
    have hoffset : cur % 2 ^ 32 = cur ↔ cur < 2 ^ 32 := by omega
    rw [hoffset, and_iff_right hend]
  subst hm
  rw [boxLoop_returns_iff (show cur < (topLoop n).limit from hc),
    ← (topLoop_quiet n).constructs_iff]
  constructor
  · intro hrun
    rcases hrun with ⟨fuel, box, h₁, rest, hb, hrest, htiled⟩
    have hbox : box.getSize = size := (topLoop_size rfl hb).trans hsize
    rw [hbox, hnext] at hrest
    cases fuel with
    | zero => simp [boxLoop] at hrest
    | succ fuel =>
        rw [boxLoop_done hrest hstop] at htiled
        exact ⟨⟨_, box, h₁, hb⟩, (hlast box h₁ hbox).mp htiled⟩
  · intro hsound
    rcases hsound with ⟨⟨fuel, box, h₁, hb⟩, hlt⟩
    have hbox : box.getSize = size := (topLoop_size rfl hb).trans hsize
    have hb' := constructBox_mono boxLoop_succ ((topLoop n).room_lt cur) hb
    have hrest : ∀ v' h', boxLoop (fuel + 1) (topLoop n) ((cur + box.getSize) % (topLoop n).modulus)
        (cur + box.getSize) v' h' = some ⟨[], v', h'⟩ := by
      intro v' h'
      rw [hbox, hnext, boxLoop, if_neg hstop]
    exact ⟨fuel + 1, box, h₁, _, hb', hrest _ _, (hlast box h₁ hbox).mpr hlt⟩

/-- A whole box: it is constructed and offset as it should, and the tiling goes on behind it. -/
theorem topLoop_whole (hn : n < 2 ^ 64) (hv : v.chunkedBox = none) (hm : h.mem = m)
    (h8 : 8 ≤ m.be cur 4) (hin : cur + m.be cur 4 ≤ n) {P : Prop}
    (hrest : ∀ v h, v.chunkedBox = none → h.mem = m →
      ((∃ fuel r, boxLoop fuel (topLoop n) (cur + m.be cur 4) (cur + m.be cur 4) v h = some r ∧
        Tiled m n (cur + m.be cur 4) r.boxes r.vars.chunkedBox) ↔ P)) :
    (∃ fuel r, boxLoop fuel (topLoop n) cur cur v h = some r ∧
        Tiled m n cur r.boxes r.vars.chunkedBox) ↔
      Sound m n ⟨cur, m.be cur 4⟩ ∧ P := by
  have hc : cur < n := by omega
  have hcomplete : ¬ Incomplete m n cur := by
    unfold Incomplete
    omega
  have hnext : (cur + m.be cur 4) % (topLoop n).modulus = cur + m.be cur 4 :=
    Nat.mod_eq_of_lt (by change cur + m.be cur 4 < 2 ^ 64; omega)
  subst hm
  -- the memory and the variables behind the box are those in front of it
  have hbehind : ∀ {fuel box h₁},
      constructBox (boxLoop fuel) cur ((topLoop n).room cur) (topLoop n).correct
        (topLoop n).childTrackId h = some (box, h₁) → box.getSize = h.mem.be cur 4 →
      ((∃ fuel r, boxLoop fuel (topLoop n) (cur + box.getSize) (cur + box.getSize)
          ((topLoop n).visit cur cur (box.setOffset (cur % 2 ^ 32)) v h₁).1
          (((topLoop n).visit cur cur (box.setOffset (cur % 2 ^ 32)) v h₁).2.move cur
            (cur + box.getSize)) = some r ∧
        Tiled h.mem n (cur + box.getSize) r.boxes r.vars.chunkedBox) ↔ P) := by
    intro fuel box h₁ hb hbox
    have hmem : (((topLoop n).visit cur cur (box.setOffset (cur % 2 ^ 32)) v h₁).2.move cur
        (cur + box.getSize)).mem = h.mem := by
      rw [Heap.move_mem, topLoop_visit]
      exact (topLoop_quiet n).constructBox_mem hb
    have hnone : ((topLoop n).visit cur cur (box.setOffset (cur % 2 ^ 32)) v h₁).1.chunkedBox =
        none := by
      rw [topLoop_chunkedBox _ hv, IsoBmffBox.getSize_setOffset, hbox, if_neg (by omega)]
    rw [hbox] at hmem ⊢
    exact hrest _ _ hnone hmem
  rw [boxLoop_returns_iff (show cur < (topLoop n).limit from hc)]
  constructor
  · intro hrun
    rcases hrun with ⟨fuel, box, h₁, rest, hb, hrun, htiled⟩
    have hsize := topLoop_size rfl hb
    -- a stub would leave a multiple of 2^32 bytes
    have hroom : 8 ≤ (n - cur) % 2 ^ 32 := by
      by_contra hlt
      rw [if_pos (by omega)] at hsize
      have hstub : (cur + box.getSize) % (topLoop n).modulus = cur + box.getSize :=
        Nat.mod_eq_of_lt (by change cur + box.getSize < 2 ^ 64; omega)
      rw [hstub] at hrun
      exact topLoop_no_room hn (by omega) (by omega) hrun
    rw [if_neg (by omega)] at hsize
    rw [hsize, hnext, ← hsize] at hrun
    rw [tiled_cons_iff (by rw [IsoBmffBox.getSize_setOffset]; omega) hcomplete,
      IsoBmffBox.getOffset_setOffset, IsoBmffBox.getSize_setOffset] at htiled
    have hP := (hbehind hb hsize).mp ⟨fuel, rest, hrun, htiled.2⟩
    exact ⟨⟨by dsimp only; omega, by dsimp only; omega, .inr hroom,
      (topLoop_quiet n).constructs_iff.mp ⟨fuel, box, h₁, hb⟩⟩, hP⟩
  · intro hsound
    rcases hsound with ⟨⟨hoffset, -, hheader, hchildren⟩, hP⟩
    dsimp only at hoffset hheader hchildren
    rcases (topLoop_quiet n).constructs_iff.mpr hchildren with ⟨fuel₁, box, h₁, hb⟩
    have hsize := topLoop_size rfl hb
    rw [if_neg (by omega)] at hsize
    rcases (hbehind hb hsize).mpr hP with ⟨fuel₂, rest, hrun, htiled⟩
    have hb' := constructBox_mono (boxLoop_mono (Nat.le_max_left fuel₁ fuel₂))
      ((topLoop n).room_lt cur) hb
    refine ⟨max fuel₁ fuel₂, box, h₁, rest, hb', ?_, ?_⟩
    · rw [hsize, hnext, ← hsize]
      exact boxLoop_mono (Nat.le_max_right fuel₁ fuel₂) hrun
    · rw [tiled_cons_iff (by rw [IsoBmffBox.getSize_setOffset]; omega) hcomplete,
        IsoBmffBox.getOffset_setOffset, IsoBmffBox.getSize_setOffset]
      exact ⟨Nat.mod_eq_of_lt hoffset, htiled⟩

/-- A cursor that wraps goes on with further boxes, although its box ended the buffer. -/
theorem topLoop_wrap (hn : n < 2 ^ 64) (hm : h.mem = m) (h8 : cur + 8 ≤ n)
    (hend : n < cur + m.be cur 4) (hwrap : 2 ^ 64 ≤ cur + m.be cur 4) :
    ¬ ∃ fuel r, boxLoop fuel (topLoop n) cur cur v h = some r ∧
      Tiled m n cur r.boxes r.vars.chunkedBox := by
  subst hm
  have hc : cur < n := by omega
  have hlt := h.mem.be_lt cur 4
  have hnext : (cur + h.mem.be cur 4) % (topLoop n).modulus = cur + h.mem.be cur 4 - 2 ^ 64 := by
    change (cur + h.mem.be cur 4) % 2 ^ 64 = _
    omega
  rw [boxLoop_returns_iff (show cur < (topLoop n).limit from hc)]
  intro hrun
  rcases hrun with ⟨fuel, box, h₁, rest, hb, hrun, htiled⟩
  have hsize := topLoop_size rfl hb
  rw [if_neg (by omega)] at hsize
  rw [hsize, hnext] at hrun
  cases fuel with
  | zero => simp [boxLoop] at hrun
  | succ fuel =>
      rcases boxLoop_uncons hrun (show _ < n by omega) with ⟨next, h₂, rest', -, -, rfl⟩
      rw [Tiled, IsoBmffBox.getSize_setOffset, hsize] at htiled
      omega

theorem Tiling.returns_iff {spans : List Span} (hT : Tiling m n cur spans) (hn : n < 2 ^ 64)
    (hv : v.chunkedBox = none) (hm : h.mem = m) :
    (∃ fuel r, boxLoop fuel (topLoop n) cur cur v h = some r ∧
        Tiled m n cur r.boxes r.vars.chunkedBox) ↔ ∀ s ∈ spans, Sound m n s := by
  induction hT generalizing v h with
  | done =>
      have hrun : boxLoop 1 (topLoop n) n n v h = some ⟨[], v, h⟩ := by
        rw [boxLoop, if_neg (show ¬ n < (topLoop n).limit from Nat.lt_irrefl n)]
      exact iff_of_true ⟨1, _, hrun, rfl, hv⟩ (by simp)
  | @whole cur spans h8 hin _ ih =>
      rw [topLoop_whole hn hv hm h8 hin fun v h hv hm => ih hv hm, List.forall_mem_cons]
  | @cutHeader cur hc h8 =>
      have hroom : (n - cur) % 2 ^ 32 = n - cur := Nat.mod_eq_of_lt (by omega)
      have hcut : Incomplete m n cur := .inl (by omega)
      have hsize : (if (n - cur) % 2 ^ 32 < 8 then (n - cur) % 2 ^ 32 else m.be cur 4) =
          n - cur := by
        rw [hroom, if_pos (by omega)]
      rw [topLoop_last hc hv hm hsize (by omega) (by omega), List.forall_mem_singleton, iff_true_right hcut]
      constructor
      · intro hs
        rcases hs with ⟨hchildren, hoffset, hshort⟩
        exact ⟨hoffset, by dsimp only; omega, by dsimp only; omega, hchildren⟩
      · intro hs
        rcases hs with ⟨hoffset, -, hheader, hchildren⟩
        dsimp only at hheader
        exact ⟨hchildren, hoffset, by omega⟩
  | @cutBody cur h8 hend =>
      have hlt := m.be_lt cur 4
      have hroom : (n - cur) % 2 ^ 32 = n - cur := Nat.mod_eq_of_lt (by omega)
      have hcut : Incomplete m n cur := .inr (by omega)
      rw [List.forall_mem_singleton]
      by_cases hcursor : cur + m.be cur 4 < 2 ^ 64
      · rw [topLoop_last (by omega) hv hm (by rw [hroom, if_neg (by omega)]) (by omega) hcursor,
          iff_true_right hcut]
        constructor
        · intro hs
          rcases hs with ⟨hchildren, hoffset, -⟩
          exact ⟨hoffset, hcursor, by dsimp only; omega, hchildren⟩
        · intro hs
          exact ⟨hs.children, hs.offset, by omega⟩
      · exact iff_of_false (topLoop_wrap hn hm h8 hend (by omega)) fun hs => hcursor hs.cursor

end

/-- An empty box and five bytes of the next one. -/
def cutHeaderBuffer : Mem := Mem.ofBytes [0, 0, 0, 8, 102, 114, 101, 101, 0, 0, 0, 9, 102] fun _ => 0

theorem cutHeaderBuffer_tiling : Tiling cutHeaderBuffer 13 0 [⟨0, 8⟩, ⟨8, 5⟩] :=
  .whole (by decide) (by decide) (.cutHeader (by decide) (by decide))

end PlayerInterface.IsoBmff
