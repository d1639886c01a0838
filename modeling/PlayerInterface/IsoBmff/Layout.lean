import PlayerInterface.IsoBmff.Parse

/-!
# Well-sized layouts and termination of the box loops

A layout is what the size words alone say about a buffer: which boxes follow
each other, which are looked into, and where a loop cursor goes. `WellSized`
asks of every box on the way that its size is not zero and that it does not
carry the cursor past its machine word. The loops terminate with every
iteration advancing exactly on the well-sized buffers.
-/

namespace PlayerInterface.IsoBmff

open PlayerInterface.Core Reader

/-! ## The head of a box -/

/-- What follows the size and type words of a box. -/
inductive Entry where
  | plain
  | leaf (kind : LeafKind) (sz : Nat)
  | nested (L : BoxLoop)
deriving DecidableEq, Repr

/-- Size and type the box object gets, the memory behind a size correction, and
what is parsed behind the two words. -/
structure Head where
  words : HeaderWords
  mem : Mem
  entry : Entry

def bodyEntry (w : HeaderWords) (tid : Int) : Entry :=
  match boxKind w.type with
  | .container => .nested (.container w.size tid)
  | .trak => .nested (.trak w.size tid)
  | .leaf kind => .leaf kind w.size
  | .other => .plain

def settledWords (m : Mem) (hdr maxSz : Nat) (correctBoxSize : Bool) : HeaderWords :=
  if maxSz < (headerWords m hdr).size ∧ correctBoxSize then ⟨maxSz, (headerWords m hdr).type⟩
  else headerWords m hdr

def settledMem (m : Mem) (hdr maxSz : Nat) (correctBoxSize : Bool) : Mem :=
  if maxSz < (headerWords m hdr).size ∧ correctBoxSize then m.write hdr (beBytes 4 maxSz) else m

def head (m : Mem) (hdr maxSz : Nat) (correctBoxSize : Bool) (tid : Int) : Head :=
  if maxSz < 8 then ⟨⟨maxSz, UKWN⟩, m, .plain⟩
  else if maxSz < (settledWords m hdr maxSz correctBoxSize).size then
    ⟨settledWords m hdr maxSz correctBoxSize, settledMem m hdr maxSz correctBoxSize, .plain⟩
  else
    ⟨settledWords m hdr maxSz correctBoxSize, settledMem m hdr maxSz correctBoxSize,
      bodyEntry (settledWords m hdr maxSz correctBoxSize) tid⟩

/-- The heap when the head of a box has been read. -/
def headHeap (h : Heap) (hdr maxSz : Nat) (correctBoxSize : Bool) : Heap :=
  if maxSz < 8 then h else (settle h hdr maxSz correctBoxSize).2

/-- The head of the box a loop constructs at its cursor. -/
def BoxLoop.head (L : BoxLoop) (cur ptr : Nat) (m : Mem) : Head :=
  IsoBmff.head m ptr (L.room cur) L.correct L.childTrackId

theorem settle_words (h : Heap) (hdr maxSz : Nat) (c : Bool) :
    (settle h hdr maxSz c).1 = settledWords h.mem hdr maxSz c := by
  by_cases hc : maxSz < (headerWords h.mem hdr).size ∧ c
  · simp only [settle, settledWords, if_pos hc]
  · simp only [settle, settledWords, if_neg hc]

theorem headHeap_mem (h : Heap) (hdr maxSz : Nat) (c : Bool) (tid : Int) :
    (headHeap h hdr maxSz c).mem = (head h.mem hdr maxSz c tid).mem := by
  unfold headHeap head
  by_cases h8 : maxSz < 8
  · simp only [if_pos h8]
  · simp only [if_neg h8, apply_ite Head.mem, ite_self]
    by_cases hc : maxSz < (headerWords h.mem hdr).size ∧ c
    · simp only [settle, settledMem, if_pos hc, Heap.read_mem, Heap.write_mem]
    · simp only [settle, settledMem, if_neg hc, Heap.read_mem]

theorem headHeap_moves (h : Heap) (hdr maxSz : Nat) (c : Bool) :
    (headHeap h hdr maxSz c).moves = h.moves := by
  unfold headHeap
  by_cases h8 : maxSz < 8
  · simp only [if_pos h8]
  · by_cases hc : maxSz < (headerWords h.mem hdr).size ∧ c
    · simp only [if_neg h8, settle, if_pos hc, Heap.read_moves, Heap.write_moves]
    · simp only [if_neg h8, settle, if_neg hc, Heap.read_moves]

theorem settledWords_size_lt {m : Mem} {hdr maxSz : Nat} {c : Bool} (hm : maxSz < 2 ^ 32) :
    (settledWords m hdr maxSz c).size < 2 ^ 32 := by
  unfold settledWords
  by_cases hc : maxSz < (headerWords m hdr).size ∧ c
  · rw [if_pos hc]
    exact hm
  · rw [if_neg hc]
    exact headerWords_size_lt m hdr

theorem head_size_lt {m : Mem} {hdr maxSz : Nat} {c : Bool} {tid : Int} (hm : maxSz < 2 ^ 32) :
    (head m hdr maxSz c tid).words.size < 2 ^ 32 := by
  unfold head
  by_cases h8 : maxSz < 8
  · rw [if_pos h8]
    exact hm
  · have hw := @settledWords_size_lt m hdr maxSz c hm
    simpa only [if_neg h8, apply_ite Head.words, ite_self] using hw

/-! ## The memory a loop leaves behind one box -/

/-- The track id written for a tkhd child of a trak. -/
def BoxLoop.patch (L : BoxLoop) (cur ptr : Nat) (type : FourCC) (m : Mem) : Mem :=
  match L with
  | .trak _ newTrackId =>
      if type = TKHD ∧ newTrackId ≠ -1 then
        m.write (trackIdLoc m (ptr + cur)) (trackIdBytes newTrackId)
      else m
  | _ => m

theorem BoxLoop.visit_mem (L : BoxLoop) (cur ptr : Nat) (box : IsoBmffBox) (v : LoopVars)
    (h : Heap) : (L.visit cur ptr box v h).2.mem = L.patch cur ptr box.getType h.mem := by
  cases L with
  | buffer n c t =>
      by_cases hc : n - cur < 4 ∨ n - cur < box.getSize <;> simp [visit, patch, hc]
  | container sz t => rfl
  | trak sz t =>
      by_cases ht : box.getType = TKHD
      · by_cases hn : t = -1 <;> simp [visit, patch, readTkhd, ht, hn]
      · simp [visit, patch, ht]

theorem BoxLoop.visit_moves (L : BoxLoop) (cur ptr : Nat) (box : IsoBmffBox) (v : LoopVars)
    (h : Heap) : (L.visit cur ptr box v h).2.moves = h.moves := by
  cases L with
  | buffer n c t =>
      by_cases hc : n - cur < 4 ∨ n - cur < box.getSize <;> simp [visit, hc]
  | container sz t => rfl
  | trak sz t =>
      by_cases ht : box.getType = TKHD
      · by_cases hn : t = -1 <;> simp [visit, readTkhd, ht, hn]
      · simp [visit, ht]

/-! ## Box construction by its head -/

/-- What a box construction with this entry does from the heap behind the head. -/
def Entry.Runs (loop : RunLoop) (ptr : Nat) (h h' : Heap) : Entry → Prop
  | .plain => h' = h
  | .leaf kind sz => h' = h.read (constructLeaf kind sz) ptr
  | .nested L => ∃ r, loop L 8 ptr {} h = some r ∧ h' = r.heap

theorem constructBody_head {loop : RunLoop} {w : HeaderWords} {ptr : Nat} {tid : Int} {h : Heap}
    {box : IsoBmffBox} {h' : Heap} (hr : constructBody loop w ptr tid h = some (box, h')) :
    box.getSize = w.size ∧ box.getType = w.type ∧ (bodyEntry w tid).Runs loop ptr h h' := by
  unfold constructBody at hr
  unfold bodyEntry
  cases hk : boxKind w.type with
  | container =>
      simp only [hk, constructContainer] at hr
      cases hl : loop (.container w.size tid) 8 ptr {} h with
      | none => simp [hl] at hr
      | some r =>
          simp only [hl, Option.some.injEq, Prod.mk.injEq] at hr
          obtain ⟨rfl, rfl⟩ := hr
          exact ⟨rfl, rfl, r, hl, rfl⟩
  | trak =>
      simp only [hk, constructTrakBox] at hr
      cases hl : loop (.trak w.size tid) 8 ptr {} h with
      | none => simp [hl] at hr
      | some r =>
          simp only [hl, Option.some.injEq, Prod.mk.injEq] at hr
          obtain ⟨rfl, rfl⟩ := hr
          exact ⟨rfl, type_of_boxKind_trak hk, r, hl, rfl⟩
  | leaf kind =>
      simp only [hk, Option.some.injEq, Prod.mk.injEq] at hr
      obtain ⟨rfl, rfl⟩ := hr
      obtain ⟨hsz, hty⟩ := constructLeaf_size_type kind w.size h.mem ptr
      exact ⟨hsz, hty.trans (type_of_boxKind_leaf hk), rfl⟩
  | other =>
      simp only [hk, Option.some.injEq, Prod.mk.injEq] at hr
      obtain ⟨rfl, rfl⟩ := hr
      exact ⟨rfl, rfl, rfl⟩

/-- The one thing a box construction can do, by the entry of its head. -/
theorem constructBox_head {loop : RunLoop} {hdr maxSz : Nat} (hm : maxSz < 2 ^ 32) {c : Bool}
    {tid : Int} {h : Heap} {box : IsoBmffBox} {h' : Heap}
    (hr : constructBox loop hdr maxSz c tid h = some (box, h')) :
    box.getSize = (head h.mem hdr maxSz c tid).words.size ∧
      box.getType = (head h.mem hdr maxSz c tid).words.type ∧
      (head h.mem hdr maxSz c tid).entry.Runs loop (hdr + 8) (headHeap h hdr maxSz c) h' := by
  rw [constructBox_eq hm, settle_words] at hr
  unfold head headHeap
  by_cases h8 : maxSz < 8
  · simp only [if_pos h8, Option.some.injEq, Prod.mk.injEq] at hr ⊢
    obtain ⟨rfl, rfl⟩ := hr
    exact ⟨rfl, rfl, rfl⟩
  · by_cases hs : maxSz < (settledWords h.mem hdr maxSz c).size
    · simp only [if_neg h8, if_pos hs, Option.some.injEq, Prod.mk.injEq] at hr ⊢
      obtain ⟨rfl, rfl⟩ := hr
      exact ⟨rfl, rfl, rfl⟩
    · simp only [if_neg h8, if_neg hs] at hr ⊢
      exact constructBody_head hr

/-! ## Well-sized layouts -/

/-- Further demands on the places a walk visits: the body of a leaf box, given
by its memory, pointer, kind and size, and the place a tkhd is looked for. -/
structure Checks where
  leaf : Mem → Nat → LeafKind → Nat → Prop
  tkhd : Mem → Nat → Prop

/-- No demand beyond the sizes. -/
def Checks.none : Checks := ⟨fun _ _ _ _ => True, fun _ _ => True⟩

def Entry.Meets (ok : Checks) (m : Mem) (ptr : Nat) : Entry → Prop
  | .plain => True
  | .leaf kind sz => ok.leaf m ptr kind sz
  | .nested _ => True

def BoxLoop.Meets (ok : Checks) (cur ptr : Nat) (type : FourCC) (m : Mem) : BoxLoop → Prop
  | .trak _ _ => type = TKHD → ok.tkhd m (ptr + cur)
  | _ => True

/-- The boxes from the cursor of a loop to its limit: every size is positive,
keeps the cursor inside its word and meets the checks, and so do the boxes
inside the containers on the way. The last argument is the memory behind. -/
inductive WellSized (ok : Checks) : BoxLoop → Nat → Nat → Mem → Mem → Prop where
  | done {L cur ptr m} : L.limit ≤ cur → WellSized ok L cur ptr m m
  | box {L cur ptr m m₁ m'} : cur < L.limit →
      0 < (L.head cur ptr m).words.size →
      cur + (L.head cur ptr m).words.size < L.modulus →
      (L.head cur ptr m).entry.Meets ok (L.head cur ptr m).mem (ptr + 8) →
      (∀ L', (L.head cur ptr m).entry = .nested L' →
        WellSized ok L' 8 (ptr + 8) (L.head cur ptr m).mem m₁) →
      ((∀ L', (L.head cur ptr m).entry ≠ .nested L') → m₁ = (L.head cur ptr m).mem) →
      L.Meets ok cur ptr (L.head cur ptr m).words.type m₁ →
      WellSized ok L (cur + (L.head cur ptr m).words.size)
        (ptr + (L.head cur ptr m).words.size)
        (L.patch cur ptr (L.head cur ptr m).words.type m₁) m' →
      WellSized ok L cur ptr m m'

theorem WellSized.size_pos {ok : Checks} {L : BoxLoop} {cur ptr : Nat} {m m' : Mem}
    (hw : WellSized ok L cur ptr m m') (hc : cur < L.limit) :
    0 < (L.head cur ptr m).words.size := by
  cases hw with
  | done hd => exact absurd hc (by omega)
  | box _ hpos => exact hpos

/-! ## Logs only grow -/

/-- Every logged index and move of the first heap is still logged in the second. -/
def Heap.Within (h h' : Heap) : Prop := h.touched ⊆ h'.touched ∧ h.moves ⊆ h'.moves

theorem Heap.Within.refl (h : Heap) : h.Within h := ⟨fun _ hi => hi, fun _ hi => hi⟩

theorem Heap.Within.trans {h₁ h₂ h₃ : Heap} (a : h₁.Within h₂) (b : h₂.Within h₃) :
    h₁.Within h₃ :=
  ⟨List.Subset.trans a.1 b.1, List.Subset.trans a.2 b.2⟩

theorem Heap.within_read (h : Heap) {α : Type} (r : Reader α) (p : Nat) : h.Within (h.read r p) :=
  ⟨List.subset_append_left _ _, fun _ hi => hi⟩

theorem Heap.within_write (h : Heap) (p : Nat) (bs : Bytes) : h.Within (h.write p bs) :=
  ⟨List.subset_append_left _ _, fun _ hi => hi⟩

theorem Heap.within_move (h : Heap) (cur next : Nat) : h.Within (h.move cur next) :=
  ⟨fun _ hi => hi, List.subset_append_left _ _⟩

theorem headHeap_within (h : Heap) (hdr maxSz : Nat) (c : Bool) :
    h.Within (headHeap h hdr maxSz c) := by
  unfold headHeap
  by_cases h8 : maxSz < 8
  · rw [if_pos h8]
    exact .refl h
  · rw [if_neg h8]
    by_cases hc : maxSz < (headerWords h.mem hdr).size ∧ c
    · simp only [settle, if_pos hc]
      exact ((h.within_read _ _).trans (Heap.within_write _ _ _)).trans (Heap.within_read _ _ _)
    · simp only [settle, if_neg hc]
      exact h.within_read _ _

theorem BoxLoop.visit_within (L : BoxLoop) (cur ptr : Nat) (box : IsoBmffBox) (v : LoopVars)
    (h : Heap) : h.Within (L.visit cur ptr box v h).2 := by
  cases L with
  | buffer n c t =>
      by_cases hc : n - cur < 4 ∨ n - cur < box.getSize
      · simpa only [visit, if_pos hc] using Heap.Within.refl h
      · simpa only [visit, if_neg hc] using Heap.Within.refl h
  | container sz t => exact .refl h
  | trak sz t =>
      by_cases ht : box.getType = TKHD
      · have hr := h.within_read (readBe 1) (ptr + cur)
        by_cases hn : t = -1
        · simpa [visit, readTkhd, ht, hn] using hr.trans (Heap.within_read _ _ _)
        · simpa [visit, readTkhd, ht, hn] using
            (hr.trans (Heap.within_write _ _ _)).trans (Heap.within_read _ _ _)
      · simpa [visit, ht] using Heap.Within.refl h

theorem Entry.Runs.within {loop : RunLoop} {ptr : Nat} {h h' : Heap} {e : Entry}
    (hl : ∀ {L cur ptr v h r}, loop L cur ptr v h = some r → h.Within r.heap)
    (hr : e.Runs loop ptr h h') : h.Within h' := by
  cases e with
  | plain => exact hr ▸ .refl h
  | leaf kind sz => exact hr ▸ h.within_read _ _
  | nested L =>
      obtain ⟨r, hloop, rfl⟩ := hr
      exact hl hloop

theorem Entry.Runs.flat {loop : RunLoop} {ptr : Nat} {h h' : Heap} {e : Entry}
    (he : ∀ L, e ≠ .nested L) (hr : e.Runs loop ptr h h') :
    h'.mem = h.mem ∧ h'.moves = h.moves := by
  cases e with
  | plain => exact hr ▸ ⟨rfl, rfl⟩
  | leaf kind sz => exact hr ▸ ⟨rfl, rfl⟩
  | nested L => exact absurd rfl (he L)

/-! ## One iteration -/

/-- What a returned loop did: nothing at its limit, else one box and the rest. -/
structure Iteration (fuel : Nat) (L : BoxLoop) (cur ptr : Nat) (h : Heap) (r : LoopResult) where
  box : IsoBmffBox
  vars : LoopVars
  heap : Heap
  rest : LoopResult
  size_eq : box.getSize = (L.head cur ptr h.mem).words.size
  type_eq : box.getType = (L.head cur ptr h.mem).words.type
  runs : (L.head cur ptr h.mem).entry.Runs (boxLoop fuel) (ptr + 8)
    (headHeap h ptr (L.room cur) L.correct) heap
  rest_eq : boxLoop fuel L ((cur + box.getSize) % L.modulus) (ptr + box.getSize)
    (L.visit cur ptr box vars heap).1
    ((L.visit cur ptr box vars heap).2.move cur ((cur + box.getSize) % L.modulus)) = some rest
  heap_eq : r.heap = rest.heap
  boxes_eq : r.boxes = box :: rest.boxes

theorem boxLoop_done {fuel : Nat} {L : BoxLoop} {cur ptr : Nat} {v : LoopVars} {h : Heap}
    {r : LoopResult} (hr : boxLoop (fuel + 1) L cur ptr v h = some r) (hc : ¬ cur < L.limit) :
    r = ⟨[], v, h⟩ := by
  rw [boxLoop, if_neg hc] at hr
  exact (Option.some.inj hr).symm

/-- A returned loop with its cursor below the limit constructed a box and went on behind it. -/
theorem boxLoop_uncons {fuel : Nat} {L : BoxLoop} {cur ptr : Nat} {v : LoopVars} {h : Heap}
    {r : LoopResult} (hr : boxLoop (fuel + 1) L cur ptr v h = some r) (hc : cur < L.limit) :
    ∃ box h₁ rest,
      constructBox (boxLoop fuel) ptr (L.room cur) L.correct L.childTrackId h = some (box, h₁) ∧
      boxLoop fuel L ((cur + box.getSize) % L.modulus) (ptr + box.getSize)
          (L.visit cur ptr (box.setOffset (cur % 2 ^ 32)) v h₁).1
          ((L.visit cur ptr (box.setOffset (cur % 2 ^ 32)) v h₁).2.move cur
            ((cur + box.getSize) % L.modulus)) = some rest ∧
      r = { rest with boxes := box.setOffset (cur % 2 ^ 32) :: rest.boxes } := by
  rw [boxLoop, if_pos hc] at hr
  cases hb : constructBox (boxLoop fuel) ptr (L.room cur) L.correct L.childTrackId h with
  | none => simp [hb] at hr
  | some bh =>
      obtain ⟨box, h₁⟩ := bh
      simp only [hb, IsoBmffBox.getSize_setOffset] at hr
      split at hr
      · cases hr
      · rename_i rest hrest
        exact ⟨box, h₁, rest, rfl, hrest, (Option.some.inj hr).symm⟩

theorem boxLoop_iteration {fuel : Nat} {L : BoxLoop} {cur ptr : Nat} {v : LoopVars} {h : Heap}
    {r : LoopResult} (hr : boxLoop (fuel + 1) L cur ptr v h = some r) (hc : cur < L.limit) :
    Nonempty (Iteration fuel L cur ptr h r) := by
  obtain ⟨box, h₁, rest, hb, hrest, heq⟩ := boxLoop_uncons hr hc
  obtain ⟨hsize, htype, hruns⟩ := constructBox_head (L.room_lt cur) hb
  exact ⟨{ box := box.setOffset (cur % 2 ^ 32), vars := v, heap := h₁, rest,
           size_eq := by rw [IsoBmffBox.getSize_setOffset, hsize]; rfl
           type_eq := by rw [IsoBmffBox.getType_setOffset, htype]; rfl
           runs := hruns
           rest_eq := by rw [IsoBmffBox.getSize_setOffset]; exact hrest
           heap_eq := by rw [heq], boxes_eq := by rw [heq] }⟩

theorem boxLoop_within {fuel : Nat} {L : BoxLoop} {cur ptr : Nat} {v : LoopVars} {h : Heap}
    {r : LoopResult} (hr : boxLoop fuel L cur ptr v h = some r) : h.Within r.heap := by
  induction fuel generalizing L cur ptr v h r with
  | zero => simp [boxLoop] at hr
  | succ fuel ih =>
      by_cases hc : cur < L.limit
      · obtain ⟨it⟩ := boxLoop_iteration hr hc
        have hhead := headHeap_within h ptr (L.room cur) L.correct
        have hbox := it.runs.within ih
        have hvisit := L.visit_within cur ptr it.box it.vars it.heap
        have hrest := (Heap.within_move _ _ _).trans (ih it.rest_eq)
        exact it.heap_eq ▸ hhead.trans (hbox.trans (hvisit.trans hrest))
      · rw [boxLoop_done hr hc]
        exact .refl h

end PlayerInterface.IsoBmff
