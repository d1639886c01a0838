import PlayerInterface.IsoBmff.Layout

/-!
# Termination of the parser

The loops return with every iteration advancing its cursor exactly on the
well-sized buffers. A size word of zero, at any nesting level, makes them run
forever.
-/

namespace PlayerInterface.IsoBmff

open PlayerInterface.Core Reader

/-- The cursor limit fits the cursor's machine word, so the cursor starts inside it. -/
def BoxLoop.Sized (L : BoxLoop) : Prop := L.limit < L.modulus

theorem bodyEntry_sized {w : HeaderWords} {tid : Int} {L : BoxLoop} (hw : w.size < 2 ^ 32)
    (h : bodyEntry w tid = .nested L) : L.Sized := by
  unfold bodyEntry at h
  split at h
  · cases h
    exact hw
  · cases h
    exact hw
  · cases h
  · cases h

theorem head_sized {m : Mem} {hdr maxSz : Nat} {c : Bool} {tid : Int} {L : BoxLoop}
    (hm : maxSz < 2 ^ 32) (h : (head m hdr maxSz c tid).entry = .nested L) : L.Sized := by
  unfold head at h
  by_cases h8 : maxSz < 8
  · simp only [if_pos h8, reduceCtorEq] at h
  · by_cases hs : maxSz < (settledWords m hdr maxSz c).size
    · simp only [if_neg h8, if_pos hs, reduceCtorEq] at h
    · simp only [if_neg h8, if_neg hs] at h
      exact bodyEntry_sized (settledWords_size_lt hm) h

theorem BoxLoop.modulus_ge (L : BoxLoop) : 2 ^ 32 ≤ L.modulus := by
  cases L <;> simp [modulus]

/-- A cursor below the limit moves forward exactly when the size is positive
and the sum stays inside the machine word. -/
theorem BoxLoop.advances_iff {L : BoxLoop} (hL : L.Sized) {cur size : Nat} (hc : cur < L.limit)
    (hs : size < 2 ^ 32) :
    cur < (cur + size) % L.modulus ↔ 0 < size ∧ cur + size < L.modulus := by
  have hmod := L.modulus_ge
  unfold Sized at hL
  constructor
  · intro h
    by_cases hw : cur + size < L.modulus
    · rw [Nat.mod_eq_of_lt hw] at h
      exact ⟨by omega, hw⟩
    · -- a wrapped cursor lands below where it was
      have hsub : (cur + size) % L.modulus = cur + size - L.modulus := by
        rw [Nat.mod_eq_sub_mod (by omega), Nat.mod_eq_of_lt (by omega)]
      omega
  · rintro ⟨hp, hw⟩
    rw [Nat.mod_eq_of_lt hw]
    omega

/-! ## Returning implies well-sized -/

theorem wellSized_of_run {fuel : Nat} {L : BoxLoop} {cur ptr : Nat} {v : LoopVars} {h : Heap}
    {r : LoopResult} (hL : L.Sized) (hr : boxLoop fuel L cur ptr v h = some r)
    (hmoves : ∀ mv ∈ r.heap.moves, mv.1 < mv.2) :
    WellSized Checks.none L cur ptr h.mem r.heap.mem := by
  induction fuel generalizing L cur ptr v h r with
  | zero => simp [boxLoop] at hr
  | succ fuel ih =>
      by_cases hc : cur < L.limit
      · obtain ⟨it⟩ := boxLoop_iteration hr hc
        rw [it.heap_eq] at hmoves ⊢
        have hlt : it.box.getSize < 2 ^ 32 := by
          rw [it.size_eq]
          exact head_size_lt (L.room_lt cur)
        have hstep : cur < (cur + it.box.getSize) % L.modulus := by
          refine hmoves (cur, (cur + it.box.getSize) % L.modulus) ?_
          exact (boxLoop_within it.rest_eq).2 (by simp)
        obtain ⟨hpos, hfit⟩ := (BoxLoop.advances_iff hL hc hlt).mp hstep
        have hrest := ih hL it.rest_eq hmoves
        rw [Heap.move_mem, L.visit_mem, Nat.mod_eq_of_lt hfit, it.size_eq, it.type_eq] at hrest
        have hruns := it.runs
        have hmem := headHeap_mem h ptr (L.room cur) L.correct L.childTrackId
        refine .box hc (it.size_eq ▸ hpos) (it.size_eq ▸ hfit) ?_ ?_ ?_ ?_ hrest
        · cases (L.head cur ptr h.mem).entry <;> trivial
        · intro L' he
          rw [he] at hruns
          obtain ⟨r', hin, heq⟩ := hruns
          have hin' := ih (head_sized (L.room_lt cur) he) hin fun mv hmv => by
            refine hmoves mv ?_
            have hw := (L.visit_within cur ptr it.box it.vars it.heap).trans
              ((Heap.within_move _ _ _).trans (boxLoop_within it.rest_eq))
            exact hw.2 (heq ▸ hmv)
          rw [hmem] at hin'
          exact heq ▸ hin'
        · intro hflat
          exact (hruns.flat hflat).1.trans hmem
        · cases L <;> first | trivial | exact fun _ => trivial
      · rw [boxLoop_done hr hc]
        exact .done (by omega)

/-! ## Well-sized implies returning -/

theorem constructBody_returns {loop : RunLoop} {w : HeaderWords} {ptr : Nat} {tid : Int} {h : Heap}
    (hin : ∀ L', bodyEntry w tid = .nested L' → ∃ r, loop L' 8 ptr {} h = some r) :
    ∃ box h', constructBody loop w ptr tid h = some (box, h') := by
  unfold constructBody
  unfold bodyEntry at hin
  cases hk : boxKind w.type with
  | container =>
      obtain ⟨r, hr⟩ := hin (.container w.size tid) (by rw [hk])
      exact ⟨_, _, by simp only [constructContainer, hr]; rfl⟩
  | trak =>
      obtain ⟨r, hr⟩ := hin (.trak w.size tid) (by rw [hk])
      exact ⟨_, _, by simp only [constructTrakBox, hr]; rfl⟩
  | leaf kind => exact ⟨_, _, rfl⟩
  | other => exact ⟨_, _, rfl⟩

theorem constructBox_returns (loop : RunLoop) {hdr maxSz : Nat} (hm : maxSz < 2 ^ 32) {c : Bool}
    {tid : Int} {h : Heap}
    (hin : ∀ L', (head h.mem hdr maxSz c tid).entry = .nested L' →
      ∃ r, loop L' 8 (hdr + 8) {} (headHeap h hdr maxSz c) = some r) :
    ∃ box h', constructBox loop hdr maxSz c tid h = some (box, h') := by
  rw [constructBox_eq hm, settle_words]
  unfold head headHeap at hin
  by_cases h8 : maxSz < 8
  · exact ⟨_, _, by rw [if_pos h8]⟩
  · by_cases hs : maxSz < (settledWords h.mem hdr maxSz c).size
    · exact ⟨_, _, by rw [if_neg h8, if_pos hs]⟩
    · simp only [if_neg h8, if_neg hs] at hin ⊢
      exact constructBody_returns hin

/-- One iteration followed by a returning rest returns. -/
theorem boxLoop_cons {fuel : Nat} {L : BoxLoop} {cur ptr : Nat} {v : LoopVars} {h : Heap}
    {box : IsoBmffBox} {h₁ : Heap} {rest : LoopResult} (hc : cur < L.limit)
    (hb : constructBox (boxLoop fuel) ptr (L.room cur) L.correct L.childTrackId h = some (box, h₁))
    (hrest : boxLoop fuel L ((cur + box.getSize) % L.modulus) (ptr + box.getSize)
      (L.visit cur ptr (box.setOffset (cur % 2 ^ 32)) v h₁).1
      ((L.visit cur ptr (box.setOffset (cur % 2 ^ 32)) v h₁).2.move cur
        ((cur + box.getSize) % L.modulus)) = some rest) :
    boxLoop (fuel + 1) L cur ptr v h =
      some { rest with boxes := box.setOffset (cur % 2 ^ 32) :: rest.boxes } := by
  rw [boxLoop, if_pos hc]
  simp only [hb, IsoBmffBox.getSize_setOffset, hrest]

/-- A loop below its limit returns by constructing a box and returning behind it. -/
theorem boxLoop_returns_iff {L : BoxLoop} {cur ptr : Nat} {v : LoopVars} {h : Heap}
    {P : LoopResult → Prop} (hc : cur < L.limit) :
    (∃ fuel r, boxLoop fuel L cur ptr v h = some r ∧ P r) ↔
      ∃ fuel box h₁ rest,
        constructBox (boxLoop fuel) ptr (L.room cur) L.correct L.childTrackId h = some (box, h₁) ∧
        boxLoop fuel L ((cur + box.getSize) % L.modulus) (ptr + box.getSize)
            (L.visit cur ptr (box.setOffset (cur % 2 ^ 32)) v h₁).1
            ((L.visit cur ptr (box.setOffset (cur % 2 ^ 32)) v h₁).2.move cur
              ((cur + box.getSize) % L.modulus)) = some rest ∧
        P { rest with boxes := box.setOffset (cur % 2 ^ 32) :: rest.boxes } := by
  constructor
  · rintro ⟨fuel, r, hr, hP⟩
    cases fuel with
    | zero => simp [boxLoop] at hr
    | succ fuel =>
        obtain ⟨box, h₁, rest, hb, hrest, rfl⟩ := boxLoop_uncons hr hc
        exact ⟨fuel, box, h₁, rest, hb, hrest, hP⟩
  · rintro ⟨fuel, box, h₁, rest, hb, hrest, hP⟩
    exact ⟨fuel + 1, _, boxLoop_cons hc hb hrest, hP⟩

/-- The box at the cursor is constructed when the loop over its children returns. -/
theorem BoxLoop.constructBox_returns {L : BoxLoop} {cur ptr : Nat} {h : Heap}
    (hin : ∀ L', (L.head cur ptr h.mem).entry = .nested L' → ∃ fuel r,
      boxLoop fuel L' 8 (ptr + 8) {} (headHeap h ptr (L.room cur) L.correct) = some r) :
    ∃ fuel box h₁,
      constructBox (boxLoop fuel) ptr (L.room cur) L.correct L.childTrackId h = some (box, h₁) := by
  by_cases hn : ∃ L', (L.head cur ptr h.mem).entry = .nested L'
  · obtain ⟨L', he⟩ := hn
    obtain ⟨fuel, r, hr⟩ := hin L' he
    refine ⟨fuel, IsoBmff.constructBox_returns (boxLoop fuel) (L.room_lt cur) fun L'' he' => ?_⟩
    cases Entry.nested.inj (he.symm.trans he')
    exact ⟨r, hr⟩
  · exact ⟨0, IsoBmff.constructBox_returns (boxLoop 0) (L.room_lt cur)
      fun L' he => absurd ⟨L', he⟩ hn⟩

/-- With enough fuel a well-sized loop returns, leaves the memory of the layout
behind, and every move it adds to the log is forward. -/
theorem WellSized.returns {ok : Checks} {L : BoxLoop} {cur ptr : Nat} {m m' : Mem}
    (hw : WellSized ok L cur ptr m m') (v : LoopVars) (h : Heap) (hm : h.mem = m) :
    ∃ fuel r, boxLoop fuel L cur ptr v h = some r ∧ r.heap.mem = m' ∧
      ∀ mv ∈ r.heap.moves, mv ∈ h.moves ∨ mv.1 < mv.2 := by
  induction hw generalizing v h with
  | @done L cur ptr m hc =>
      exact ⟨1, ⟨[], v, h⟩, by rw [boxLoop, if_neg (by omega)], hm, fun mv hmv => .inl hmv⟩
  | @box L cur ptr m m₁ m' hc hpos hfit hok hnest hflat hvisit _ ihnest ihrest =>
      subst hm
      have hhead := headHeap_mem h ptr (L.room cur) L.correct L.childTrackId
      have hmoves₀ := headHeap_moves h ptr (L.room cur) L.correct
      -- the box: with enough fuel it is constructed and leaves `m₁`
      obtain ⟨fuel₁, box, h₁, hb, hmem₁, hmoves₁⟩ : ∃ fuel box h₁,
          constructBox (boxLoop fuel) ptr (L.room cur) L.correct L.childTrackId h =
            some (box, h₁) ∧ h₁.mem = m₁ ∧ ∀ mv ∈ h₁.moves, mv ∈ h.moves ∨ mv.1 < mv.2 := by
        by_cases hn : ∃ L', (L.head cur ptr h.mem).entry = .nested L'
        · obtain ⟨L', he⟩ := hn
          obtain ⟨fuel, r, hr, hrm, hrmv⟩ :=
            ihnest L' he {} (headHeap h ptr (L.room cur) L.correct) hhead
          obtain ⟨box, h₁, hb⟩ := constructBox_returns (boxLoop fuel)
            (L.room_lt cur) (fun L'' he' => by
              cases Entry.nested.inj (he.symm.trans he')
              exact ⟨r, hr⟩)
          obtain ⟨-, -, hruns⟩ := constructBox_head (L.room_lt cur) hb
          change (L.head cur ptr h.mem).entry.Runs _ _ _ _ at hruns
          rw [he] at hruns
          obtain ⟨r', hr', rfl⟩ := hruns
          cases Option.some.inj (hr.symm.trans hr')
          exact ⟨fuel, box, r.heap, hb, hrm, fun mv hmv => hmoves₀ ▸ hrmv mv hmv⟩
        · have hn' : ∀ L', (L.head cur ptr h.mem).entry ≠ .nested L' := fun L' he => hn ⟨L', he⟩
          obtain ⟨box, h₁, hb⟩ := constructBox_returns (boxLoop 0)
            (L.room_lt cur) (fun L' he => absurd he (hn' L'))
          obtain ⟨-, -, hruns⟩ := constructBox_head (L.room_lt cur) hb
          obtain ⟨hmem₁, hmv₁⟩ := Entry.Runs.flat hn' hruns
          refine ⟨0, box, h₁, hb, ?_, fun mv hmv => .inl ?_⟩
          · rw [hflat hn', hmem₁, hhead]
            rfl
          · rwa [hmv₁, hmoves₀] at hmv
      obtain ⟨hsize, htype, -⟩ := constructBox_head (L.room_lt cur) hb
      change box.getSize = (L.head cur ptr h.mem).words.size at hsize
      change box.getType = (L.head cur ptr h.mem).words.type at htype
      -- the rest, from the memory the visit leaves
      let vh := L.visit cur ptr (box.setOffset (cur % 2 ^ 32)) v h₁
      obtain ⟨fuel₂, rest, hrest, hrm, hrmv⟩ :=
        ihrest vh.1 (vh.2.move cur (cur + (L.head cur ptr h.mem).words.size)) (by
          rw [Heap.move_mem, L.visit_mem, IsoBmffBox.getType_setOffset, htype, hmem₁])
      rw [← hsize] at hfit hrest hpos
      refine ⟨max fuel₁ fuel₂ + 1, { rest with boxes := box.setOffset (cur % 2 ^ 32) :: rest.boxes },
        ?_, hrm, ?_⟩
      · refine boxLoop_cons hc
          (constructBox_mono (boxLoop_mono (Nat.le_max_left _ _)) (L.room_lt cur) hb) ?_
        rw [Nat.mod_eq_of_lt hfit]
        exact boxLoop_mono (Nat.le_max_right _ _) hrest
      · intro mv hmv
        rcases hrmv mv hmv with hin | hlt
        · rw [Heap.move_moves, L.visit_moves, List.mem_append, List.mem_singleton] at hin
          rcases hin with hin | rfl
          · exact hmoves₁ mv hin
          · exact .inr (by dsimp only; omega)
        · exact .inr hlt

/-! ## The parser -/

/-- `parseBuffer` returns and every iteration of a box loop moved its cursor forward. -/
def ParseAdvances (mem : Mem) (bufSize : Nat) (correctBoxSize : Bool) (newTrackId : Int) : Prop :=
  ∃ fuel r, parseBuffer fuel mem bufSize correctBoxSize newTrackId = some r ∧
    ∀ mv ∈ r.heap.moves, mv.1 < mv.2

/-- The parse of a buffer terminates with every iteration advancing exactly
when the boxes the loops come to are well sized. -/
theorem parseBuffer_advances_iff (mem : Mem) (bufSize : Nat) (hsize : bufSize < 2 ^ 64)
    (correctBoxSize : Bool) (newTrackId : Int) :
    ParseAdvances mem bufSize correctBoxSize newTrackId ↔
      ∃ m', WellSized Checks.none (.buffer bufSize correctBoxSize newTrackId) 0 0 mem m' := by
  constructor
  · rintro ⟨fuel, r, hr, hmoves⟩
    have hL : (BoxLoop.buffer bufSize correctBoxSize newTrackId).Sized := hsize
    exact ⟨r.heap.mem, wellSized_of_run hL hr hmoves⟩
  · rintro ⟨m', hw⟩
    obtain ⟨fuel, r, hr, -, hmoves⟩ := hw.returns {} { mem } rfl
    refine ⟨fuel, r, hr, fun mv hmv => ?_⟩
    rcases hmoves mv hmv with hin | hlt
    · cases hin
    · exact hlt

/-- One empty `free` box. -/
def emptyBox : Mem := Mem.ofBytes [0, 0, 0, 8, 102, 114, 101, 101] fun _ => 0

theorem emptyBox_wellSized (ok : Checks) :
    WellSized ok (.buffer 8 false (-1)) 0 0 emptyBox emptyBox := by
  have hhead : BoxLoop.head (.buffer 8 false (-1)) 0 0 emptyBox =
      ⟨⟨8, fourcc 'f' 'r' 'e' 'e'⟩, emptyBox, .plain⟩ := rfl
  refine @WellSized.box _ _ _ _ _ emptyBox _ (by decide) ?_ ?_ ?_ ?_ (fun _ => ?_) ?_ ?_ <;> rw [hhead]
  · decide
  · decide
  · trivial
  · intro L' he
    cases he
  · trivial
  · exact .done (by decide)

theorem emptyBox_advances : ParseAdvances emptyBox 8 false (-1) :=
  (parseBuffer_advances_iff emptyBox 8 (by decide) false (-1)).mpr
    ⟨emptyBox, emptyBox_wellSized Checks.none⟩

/-- A box whose size word is zero. -/
def zeroSizeBox : Mem := Mem.ofBytes [0, 0, 0, 0, 102, 114, 101, 101] fun _ => 0

theorem zeroSizeBox_stuck : ¬ ∀ (mem : Mem) (bufSize : Nat), bufSize < 2 ^ 64 →
    ∀ (correctBoxSize : Bool) (newTrackId : Int),
      ParseAdvances mem bufSize correctBoxSize newTrackId := by
  intro hall
  obtain ⟨fuel, r, hr, hmoves⟩ := hall zeroSizeBox 8 (by decide) false (-1)
  have hzero : (BoxLoop.head (.buffer 8 false (-1)) 0 0 zeroSizeBox).words.size = 0 := rfl
  have hL : (BoxLoop.buffer 8 false (-1)).Sized := by
    unfold BoxLoop.Sized
    decide
  have hpos := (wellSized_of_run hL hr hmoves).size_pos (by decide)
  exact absurd hpos (by rw [hzero]; decide)

end PlayerInterface.IsoBmff
