import PlayerInterface.Core.NestedLoops
import PlayerInterface.Mp4Demux.AdjustTime
import PlayerInterface.Mp4Demux.Walk

/-!
# Termination of the demuxer and of the restamping

The loops over boxes and over descriptors are nested loops over the cursor. What
a loop does at a box depends on the memory alone, and over a memory that ends
somewhere the loops end exactly when none comes to a box of size zero.
-/

namespace PlayerInterface.Mp4Demux

open PlayerInterface.Core Program

/-! ## What the loops find -/

inductive LoopKind where
  | boxes
  | descriptors
deriving DecidableEq

/-- A run of bytes with nothing behind it. -/
def finiteMem (heap : Bytes) : Mem := Mem.ofBytes heap fun _ => 0

/-- The length the octets of a text stand for behind `rc`, and how many octets that takes. -/
def lengthWord : Bytes → Nat → Nat × Nat
  | [], rc => ((rc <<< 7) % 2 ^ 32 ||| 0 &&& 0x7f, 1)
  | octet :: octets, rc =>
      let rc := (rc <<< 7) % 2 ^ 32 ||| octet.toNat &&& 0x7f
      if octet.toNat &&& 0x80 = 0 then (rc, 1)
      else ((lengthWord octets rc).1, (lengthWord octets rc).2 + 1)

def parsed (next : Nat) : Visit LoopKind Unit := .pass () none next

def goesInto (kind : LoopKind) (p next : Nat) : Visit LoopKind Unit :=
  .pass () (some ⟨kind, p, next, false⟩) next

/-- The body of a box at `p`: a failed assertion, boxes or descriptors inside, or none. -/
def bodyVisit (m : Mem) (type p next : Nat) : Visit LoopKind Unit :=
  match boxKind type with
  | .streamFormat =>
      if type ∈ visualEntries.map multiCharConstant then
        if m.be (p + 76) 2 = 0xffff then goesInto .boxes (p + 78) next else .stop
      else if type ∈ audioEntries.map multiCharConstant then goesInto .boxes (p + 28) next
      else .stop
  | .codecConfiguration =>
      if type = multiCharConstant ESDS then goesInto .descriptors (p + 4) next else parsed next
  | .trun => if m.be (p + 1) 3 &&& 0x0001 ≠ 0 then parsed next else .stop
  | .stsd => if m.be (p + 4) 4 = 1 then goesInto .boxes (p + 8) next else .stop
  | .moof => goesInto .boxes p next
  | .container => goesInto .boxes p next
  | _ => parsed next

def boxVisit (m : Mem) (cur : Nat) : Visit LoopKind Unit :=
  bodyVisit m (m.be (cur + 4) 4) (cur + 8) (cur + m.be cur 4)

/-- A descriptor with its body at `p` has to end where its length says. -/
def descriptorBody (tag p limit : Nat) : Visit LoopKind Unit :=
  match tag with
  | 0x03 => .pass () (some ⟨.descriptors, p + 3, limit, true⟩) limit
  | 0x04 => .pass () (some ⟨.descriptors, p + 13, limit, true⟩) limit
  | 0x05 => parsed limit
  | 0x06 => parsed limit
  | _ => .stop

def descriptorVisit (heap : Bytes) (cur : Nat) : Visit LoopKind Unit :=
  let word := lengthWord (heap.drop (cur + 1)) 0
  descriptorBody (finiteMem heap cur).toNat (cur + 1 + word.2) (cur + 1 + word.2 + word.1)

def demuxVisit (heap : Bytes) : Visitor LoopKind Unit
  | .boxes, _, cur => boxVisit (finiteMem heap) cur
  | .descriptors, _, cur => descriptorVisit heap cur

/-! ## Parsers without a loop of boxes -/

section
variable {m : Mem} {d : Demuxer}

/-- A parser that returns from every state. -/
def Total {α : Type} (x : Demux α) (m : Mem) : Prop := ∀ d, ∃ a d', x m d = .ok (a, d')

namespace Total

variable {α β : Type}

theorem pure (a : α) : Total (pure a) m := fun d => ⟨a, d, rfl⟩

theorem bind {x : Demux α} {f : α → Demux β} (hx : Total x m) (hf : ∀ a, Total (f a) m) :
    Total (x >>= f) m := by
  intro d
  obtain ⟨a, d', h⟩ := hx d
  rw [bind_ok h]
  exact hf a d'

theorem get {f : Demuxer → Demux β} (hf : ∀ d, Total (f d) m) : Total (MonadState.get >>= f) m :=
  fun d => hf d d

theorem modify (f : Demuxer → Demuxer) : Total (modify f) m := fun d => ⟨(), f d, rfl⟩

theorem readU32 : Total readU32 m := fun d => ⟨_, _, readU32_run m d⟩

theorem assign {read : Demux Nat} (h : Total read m) (set : Nat → Demuxer → Demuxer) :
    Total (assign read set) m := h.bind fun v => modify (set v)

theorem when {c : Prop} [Decidable c] {x : Demux Unit} (h : Total x m) :
    Total (when c x) m := by
  unfold Program.when
  split
  · exact h
  · exact pure ()

theorem orDefault {c : Prop} [Decidable c] {x : Demux α} (h : Total x m) (default : α) :
    Total (orDefault c default x) m := by
  unfold Program.orDefault
  split
  · exact h
  · exact pure default

theorem of_leaves {x : Demux Unit} {r : Cursor → Registers} (h : ∀ c, Leaves x m c (r c)) :
    Total x m := by
  intro d
  obtain ⟨d', hd', -⟩ := h d.cursor d rfl
  exact ⟨(), d', hd'⟩

end Total

theorem parseTrackFragmentHeaderBox_total : Total parseTrackFragmentHeaderBox m := by
  refine .bind (fun d => ⟨_, _, readHeader_run m d⟩) fun _ => ?_
  refine .bind (.assign .readU32 _) fun _ => .get fun _ => ?_
  refine .bind (.when (.assign (fun d => ⟨_, _, readBytes_run m d (by decide)⟩) _)) fun _ => ?_
  refine .bind (.when (.assign .readU32 _)) fun _ => ?_
  refine .bind (.when (.assign .readU32 _)) fun _ => ?_
  refine .bind (.when (.assign .readU32 _)) fun _ => ?_
  exact .when (.assign .readU32 _)

theorem parseSamples_total (sample_count : Nat) (v : RunVars) :
    Total (parseSamples sample_count v) m := by
  induction sample_count generalizing v with
  | zero => exact .pure ()
  | succ sample_count ih =>
      refine .bind (.get fun d => ?_) fun v => ih v
      refine .bind (.orDefault .readU32 _) fun _ => ?_
      refine .bind (.orDefault .readU32 _) fun _ => ?_
      refine .bind (.orDefault .readU32 _) fun _ => ?_
      refine .bind (.orDefault (fun d => ⟨_, _, readI32_run m d⟩) _) fun _ => ?_
      exact .bind (.modify _) fun _ => .pure _

theorem assert_run {p : Prop} [Decidable p] (h : p) : assert p m d = .ok ((), d) := by
  rw [assert, if_pos h]
  rfl

theorem assert_fails {p : Prop} [Decidable p] (h : ¬ p) : assert p m d = .error .assertion := by
  rw [assert, if_neg h]
  rfl

/-- How the parse of a box follows a visit of its body; `run` runs the loops inside. -/
inductive Follows (run : LoopKind → Nat → Demux Unit) (m : Mem) (next : Nat) :
    Visit LoopKind Unit → Except Stop (Unit × Demuxer) → Prop where
  | stop : Follows run m next .stop (.error .assertion)
  | parsed {d'} : Follows run m next (parsed next) (.ok ((), d'))
  | inside {kind p d'} : d'.ptr = p →
      Follows run m next (goesInto kind p next) (run kind next m d')

namespace Follows

variable {run : LoopKind → Nat → Demux Unit} {next : Nat}

theorem of_total {x : Demux Unit} (h : Total x m) (d : Demuxer) :
    Follows run m next (Mp4Demux.parsed next) (x m d) := by
  obtain ⟨_, d', hd'⟩ := h d
  rw [hd']
  exact .parsed

/-- What follows an assertion of the parser that the visit tests as well. -/
theorem of_assert {p q : Prop} [Decidable p] [Decidable q] (hpq : p ↔ q)
    {visit : Visit LoopKind Unit} {x : Unit → Demux Unit}
    (h : Follows run m next visit (x () m d)) :
    Follows run m next (if q then visit else .stop) ((assert p >>= x) m d) := by
  by_cases hq : q
  · rw [if_pos hq, bind_ok (assert_run (hpq.mpr hq))]
    exact h
  · rw [if_neg hq, bind_error (assert_fails fun hp => hq (hpq.mp hp))]
    exact .stop

/-- A run is read to its end, unless it carries no data offset. -/
theorem trun :
    Follows run m next (if m.be (d.ptr + 1) 3 &&& 0x0001 ≠ 0 then Mp4Demux.parsed next else .stop)
      (parseTrackFragmentRunBox m d) := by
  rw [parseTrackFragmentRunBox, bind_ok (readHeader_run m d), bind_ok (readU32_run m _), get_bind]
  refine of_assert Iff.rfl (of_total (.bind (fun e => ⟨_, _, readI32_run m e⟩) fun _ => ?_) _)
  exact .bind (.orDefault .readU32 _) fun _ => parseSamples_total _ _

theorem stsd :
    Follows run m next (if m.be (d.ptr + 4) 4 = 1 then goesInto .boxes (d.ptr + 8) next else .stop)
      (parseSampleDescriptionBox (run .boxes) next m d) := by
  rw [parseSampleDescriptionBox, bind_ok (readHeader_run m d), bind_ok (readU32_run m _)]
  exact of_assert Iff.rfl (.inside rfl)

theorem parseVisualEntry_eq (m : Mem) (d : Demuxer) :
    ∃ d', d'.ptr = d.ptr + 78 ∧
      parseVisualEntry m d = assert (m.be (d.ptr + 76) 2 = 0xffff) m d' := by
  rw [parseVisualEntry, bind_ok (show skipBytes 4 m d = _ from rfl),
    bind_ok (assign_run (readU32_run m _) _), bind_ok (show skipBytes 16 m _ = _ from rfl),
    bind_ok (assign_run (readU16_run m _) _), bind_ok (assign_run (readU16_run m _) _),
    bind_ok (assign_run (readU32_run m _) _), bind_ok (assign_run (readU32_run m _) _),
    bind_ok (show skipBytes 4 m _ = _ from rfl), bind_ok (assign_run (readU16_run m _) _),
    bind_ok (show skipBytes 32 m _ = _ from rfl), bind_ok (assign_run (readU16_run m _) _),
    bind_ok (readU16_run m _)]
  exact ⟨_, rfl, rfl⟩

theorem parseAudioEntry_eq (m : Mem) (d : Demuxer) :
    ∃ d', d'.ptr = d.ptr + 28 ∧ parseAudioEntry m d = .ok ((), d') := by
  rw [parseAudioEntry, bind_ok (show skipBytes 4 m d = _ from rfl),
    bind_ok (assign_run (readU32_run m _) _), bind_ok (show skipBytes 8 m _ = _ from rfl),
    bind_ok (assign_run (readU16_run m _) _), bind_ok (assign_run (readU16_run m _) _),
    bind_ok (show skipBytes 4 m _ = _ from rfl), bind_ok (assign_run (readU16_run m _) _)]
  exact ⟨_, rfl, rfl⟩

theorem streamFormat (type : Nat) :
    Follows run m next
      (if type ∈ visualEntries.map multiCharConstant then
        if m.be (d.ptr + 76) 2 = 0xffff then goesInto .boxes (d.ptr + 78) next else .stop
      else if type ∈ audioEntries.map multiCharConstant then goesInto .boxes (d.ptr + 28) next
      else .stop)
      (parseStreamFormat (run .boxes) type next m d) := by
  rw [parseStreamFormat, modify_bind]
  dsimp only
  by_cases hvisual : type ∈ visualEntries.map multiCharConstant
  · obtain ⟨d', hd', hparse⟩ :=
      parseVisualEntry_eq m { d with info.stream_format := type }
    have hrun : (parseVisualEntry >>= fun _ => run .boxes next) m
        { d with info.stream_format := type } =
          (assert (m.be (d.ptr + 76) 2 = 0xffff) >>= fun _ => run .boxes next) m d' := by
      rw [bind_apply, hparse]
      rfl
    rw [if_pos hvisual, if_pos hvisual]
    refine Eq.subst hrun.symm (of_assert Iff.rfl (.inside hd'))
  · rw [if_neg hvisual, if_neg hvisual]
    by_cases haudio : type ∈ audioEntries.map multiCharConstant
    · obtain ⟨d', hd', hparse⟩ := parseAudioEntry_eq m { d with info.stream_format := type }
      rw [if_pos haudio, if_pos haudio, bind_ok hparse]
      exact .inside hd'
    · rw [if_neg haudio, if_neg haudio, bind_error (assert_fails not_false)]
      exact .stop

theorem codecConfiguration (type fuel : Nat)
    (hrun : run .descriptors next = parseCodecConfigHelper fuel next) :
    Follows run m next
      (if type = multiCharConstant ESDS then goesInto .descriptors (d.ptr + 4) next
      else Mp4Demux.parsed next)
      (parseCodecConfiguration fuel type next m d) := by
  by_cases htype : type = multiCharConstant ESDS
  · rw [parseCodecConfiguration, modify_bind, if_pos htype, if_pos htype,
      bind_ok (show skipBytes 4 m _ = _ from rfl), ← hrun]
    exact .inside rfl
  · rw [if_neg htype]
    exact of_total (.of_leaves (r := Cursor.toRegisters) fun _ =>
      parseCodecConfiguration_passive htype fuel next) d

end Follows

/-- The loops of the demuxer. -/
def loopRun (fuel : Nat) : LoopKind → Nat → Demux Unit
  | .boxes => demuxHelper fuel
  | .descriptors => parseCodecConfigHelper fuel

theorem demuxBox_follows (m : Mem) (d : Demuxer) (fuel type next : Nat) :
    Follows (loopRun fuel) m next (bodyVisit m type d.ptr next)
      (demuxBox (demuxHelper fuel) fuel type next m d) := by
  unfold bodyVisit demuxBox
  cases boxKind type with
  | streamFormat => exact .streamFormat type
  | codecConfiguration => exact .codecConfiguration type fuel rfl
  | trun => exact .trun
  | stsd => exact .stsd
  | moof => exact .inside rfl
  | container => exact .inside rfl
  | skipped => exact .parsed
  | mfhd => exact .of_total (.of_leaves fun _ => parseMovieFragmentHeaderBox_leaves) d
  | tfhd => exact .of_total parseTrackFragmentHeaderBox_total d
  | tfdt => exact .of_total (.of_leaves fun _ => parseTrackFragmentBaseMediaDecodeTimeBox_leaves) d
  | mvhd => exact .of_total (.of_leaves fun _ => parseMovieHeaderBox_leaves) d
  | mehd => exact .of_total (.of_leaves fun _ => parseMovieExtendsHeader_leaves) d
  | trex => exact .of_total (.of_leaves fun _ => parseTrackExtendsBox_leaves) d
  | tkhd => exact .of_total (.of_leaves fun _ => parseTrackHeader_leaves) d
  | mdhd => exact .of_total (.of_leaves fun _ => parseMediaHeaderBox_leaves) d

end

/-! ## One step of a loop -/

/-- How a step of a loop follows its visit: `run` runs the loops inside, `rest` goes on. -/
inductive Steps (run : LoopKind → Nat → Demux Unit) (rest : Demux Unit) (m : Mem) :
    Visit LoopKind Unit → Except Stop (Unit × Demuxer) → Prop where
  | stop : Steps run rest m .stop (.error .assertion)
  | pass {next d'} : d'.ptr = next → Steps run rest m (.pass () none next) (rest m d')
  | inside {i next d'} {post : Demuxer → Demuxer} : d'.ptr = i.cur → (∀ e, (post e).ptr = next) →
      Steps run rest m (.pass () (some i) next)
        ((run i.kind i.limit m d').bind fun r =>
          if i.exact ∧ r.2.ptr ≠ i.limit then .error .assertion else rest m (post r.2))

theorem Follows.steps {run : LoopKind → Nat → Demux Unit} {m : Mem} {next : Nat}
    {visit : Visit LoopKind Unit} {x : Except Stop (Unit × Demuxer)}
    (h : Follows run m next visit x) (rest : Demux Unit) {post : Demuxer → Demuxer}
    (hpost : ∀ e, (post e).ptr = next) :
    Steps run rest m visit (x.bind fun r => rest m (post r.2)) := by
  cases h with
  | stop => exact .stop
  | parsed => exact .pass (hpost _)
  | @inside kind p d' hd' =>
      have hstep := @Steps.inside run rest m ⟨kind, p, next, false⟩ next d' post hd' hpost
      simp only [Bool.false_eq_true, false_and, if_false] at hstep
      exact hstep

theorem demuxHelper_steps {m : Mem} {d : Demuxer} {fin : Nat} (h : d.ptr < fin) (fuel : Nat) :
    Steps (loopRun fuel) (demuxHelper fuel fin) m (boxVisit m d.ptr)
      (demuxHelper (fuel + 1) fin m d) := by
  have hnext : d.ptr + 4 + m.be d.ptr 4 - 4 = d.ptr + m.be d.ptr 4 := by omega
  rw [demuxHelper, get_bind, if_pos h, bind_ok (readU32_run m d), get_bind]
  dsimp only [Demuxer.seek]
  rw [bind_ok (readU32_run m _), bind_apply, hnext]
  have hfollows : Follows (loopRun fuel) m (d.ptr + m.be d.ptr 4) (boxVisit m d.ptr)
      (demuxBox (demuxHelper fuel) fuel (m.be (d.ptr + 4) 4) (d.ptr + m.be d.ptr 4) m
        (d.seek (d.ptr + 8))) := demuxBox_follows m (d.seek (d.ptr + 8)) fuel _ _
  exact @Follows.steps _ _ _ _ _ hfollows _ (fun e => e.seek (d.ptr + m.be d.ptr 4)) fun _ => rfl

/-! ## Descriptors -/

theorem finiteMem_drop {heap : Bytes} {p : Nat} {octet : UInt8} {octets : Bytes}
    (h : heap.drop p = octet :: octets) :
    finiteMem heap p = octet ∧ heap.drop (p + 1) = octets := by
  have hget : heap[p]? = some octet := by
    rw [← List.head?_drop, h]
    rfl
  refine ⟨?_, ?_⟩
  · rw [finiteMem, Mem.ofBytes, List.getD_eq_getElem?_getD, hget]
    rfl
  · rw [← List.tail_drop, h]
    rfl

theorem finiteMem_end {heap : Bytes} {p : Nat} (h : heap.length ≤ p) : finiteMem heap p = 0 := by
  rw [finiteMem, Mem.ofBytes, List.getD_eq_getElem?_getD, List.getElem?_eq_none h]
  rfl

theorem lengthWord_pos (octets : Bytes) (rc : Nat) : 0 < (lengthWord octets rc).2 := by
  cases octets with
  | nil => exact Nat.one_pos
  | cons octet octets =>
      rw [lengthWord]
      split
      · exact Nat.one_pos
      · exact Nat.succ_pos _

theorem lengthWord_lt (octets : Bytes) {rc : Nat} : (lengthWord octets rc).1 < 2 ^ 32 := by
  have hword : ∀ rc octet : Nat, (rc <<< 7) % 2 ^ 32 ||| octet &&& 0x7f < 2 ^ 32 := fun rc octet =>
    Nat.or_lt_two_pow (Nat.mod_lt _ (by decide))
      (Nat.lt_of_le_of_lt Nat.and_le_right (by decide))
  induction octets generalizing rc with
  | nil => exact hword rc 0
  | cons octet octets ih =>
      rw [lengthWord]
      split
      · exact hword rc octet.toNat
      · exact ih

/-- The length is read when the fuel lasts to the octet that ends it. -/
theorem readLen_word {heap octets : Bytes} {d : Demuxer} (h : heap.drop d.ptr = octets)
    (fuel rc : Nat) :
    (readLen fuel rc (finiteMem heap) d = .error .fuel ∧ fuel ≤ octets.length) ∨
      readLen fuel rc (finiteMem heap) d =
        .ok ((lengthWord octets rc).1, d.seek (d.ptr + (lengthWord octets rc).2)) := by
  induction octets generalizing d fuel rc with
  | nil =>
      cases fuel with
      | zero => exact .inl ⟨rfl, Nat.zero_le _⟩
      | succ fuel =>
          have hend : finiteMem heap d.ptr = 0 := finiteMem_end (List.drop_eq_nil_iff.mp h)
          refine .inr ?_
          rw [readLen, bind_ok (readU8_run _ d), be_one, hend]
          rfl
  | cons octet octets ih =>
      cases fuel with
      | zero => exact .inl ⟨rfl, Nat.zero_le _⟩
      | succ fuel =>
          obtain ⟨hoctet, hrest⟩ := finiteMem_drop h
          rw [readLen, bind_ok (readU8_run _ d), be_one, hoctet, lengthWord]
          by_cases hlast : octet.toNat &&& 0x80 = 0
          · rw [if_pos hlast, if_pos hlast]
            exact .inr rfl
          · rw [if_neg hlast, if_neg hlast]
            rcases ih (d := d.seek (d.ptr + 1)) hrest fuel
              ((rc <<< 7) % 2 ^ 32 ||| octet.toNat &&& 0x7f) with ⟨hfuel, hle⟩ | hok
            · exact .inl ⟨hfuel, by rw [List.length_cons]; omega⟩
            · have hcount : ∀ n, d.ptr + 1 + n = d.ptr + (n + 1) := fun n => by omega
              exact .inr (hok.trans (congrArg (fun p => Except.ok (_, d.seek p)) (hcount _)))

/-- What the loop does behind the `switch` over a descriptor. -/
def closeDescriptor (fuel limit next : Nat) : Demux Unit := do
  assert ((← get).ptr = limit)
  modify fun d => { d with ptr := limit }
  parseCodecConfigHelper fuel next

theorem closeDescriptor_eq (m : Mem) (d : Demuxer) (fuel limit next : Nat) :
    closeDescriptor fuel limit next m d =
      if d.ptr ≠ limit then .error .assertion
      else parseCodecConfigHelper fuel next m (d.seek limit) := by
  rw [closeDescriptor, get_bind]
  by_cases hend : d.ptr = limit
  · rw [bind_ok (assert_run hend), modify_bind, if_neg (not_not_intro hend)]
    rfl
  · rw [bind_error (assert_fails hend), if_pos hend]

theorem parseDescriptor_steps (m : Mem) (d : Demuxer) (fuel tag next : Nat) {len : Nat}
    (hlen : len < 2 ^ 32) :
    Steps (loopRun fuel) (parseCodecConfigHelper fuel next) m
      (descriptorBody tag d.ptr (d.ptr + len))
      ((parseDescriptor (parseCodecConfigHelper fuel) tag len (d.ptr + len) >>= fun _ =>
        closeDescriptor fuel (d.ptr + len) next) m d) := by
  have hclosed : ∀ e : Demuxer, e.ptr = d.ptr + len →
      Steps (loopRun fuel) (parseCodecConfigHelper fuel next) m (parsed (d.ptr + len))
        (closeDescriptor fuel (d.ptr + len) next m e) := by
    intro e he
    rw [closeDescriptor_eq, if_neg (not_not_intro he)]
    exact .pass rfl
  have hinside : ∀ e : Demuxer, ∀ p, e.ptr = p →
      Steps (loopRun fuel) (parseCodecConfigHelper fuel next) m
        (.pass () (some ⟨.descriptors, p, d.ptr + len, true⟩) (d.ptr + len))
        ((parseCodecConfigHelper fuel (d.ptr + len) >>= fun _ =>
          closeDescriptor fuel (d.ptr + len) next) m e) := by
    intro e p hp
    have hstep := @Steps.inside (loopRun fuel) (parseCodecConfigHelper fuel next) m
      ⟨.descriptors, p, d.ptr + len, true⟩ _ e (fun e => e.seek (d.ptr + len)) hp fun _ => rfl
    simp only [true_and] at hstep
    rw [bind_apply]
    simp only [closeDescriptor_eq]
    exact hstep
  rcases tag with _ | _ | _ | _ | _ | _ | _ | tag
  · exact .stop
  · exact .stop
  · exact .stop
  · exact hinside (d.seek (d.ptr + 3)) _ rfl
  · obtain ⟨e, he, hbody⟩ : ∃ e, e.ptr = d.ptr + 13 ∧
        parseDescriptor (parseCodecConfigHelper fuel) 4 len (d.ptr + len) m d =
          parseCodecConfigHelper fuel (d.ptr + len) m e := by
      rw [parseDescriptor, bind_ok (assign_run (readU8_run m d) _),
        bind_ok (assign_run (readU8_run m _) _), bind_ok (assign_run (readU8_run m _) _),
        bind_ok (assign_run (readU16_run m _) _), bind_ok (assign_run (readU32_run m _) _),
        bind_ok (assign_run (readU32_run m _) _)]
      exact ⟨_, rfl, rfl⟩
    exact Eq.subst (bind_congr hbody _).symm (hinside e _ he)
  · have hgranted : len < 2 ^ 63 := Nat.lt_trans hlen (by decide)
    obtain ⟨e, he, hbody⟩ : ∃ e, e.ptr = d.ptr + len ∧
        parseDescriptor (parseCodecConfigHelper fuel) 5 len (d.ptr + len) m d = .ok ((), e) := by
      rw [parseDescriptor, bind_ok (show copyCodecData len m d = .ok (decide (len < 2 ^ 63), _) from rfl),
        decide_eq_true hgranted]
      exact ⟨_, rfl, rfl⟩
    rw [bind_ok hbody]
    exact hclosed e he
  · exact hclosed (d.seek (d.ptr + len)) rfl
  · exact .stop

theorem parseCodecConfigHelper_steps {heap : Bytes} {d : Demuxer} {next : Nat} (h : d.ptr < next)
    (fuel : Nat) :
    (parseCodecConfigHelper (fuel + 1) next (finiteMem heap) d = .error .fuel ∧
        fuel ≤ heap.length) ∨
      Steps (loopRun fuel) (parseCodecConfigHelper fuel next) (finiteMem heap)
        (descriptorVisit heap d.ptr)
        (parseCodecConfigHelper (fuel + 1) next (finiteMem heap) d) := by
  rw [parseCodecConfigHelper, get_bind, if_pos h, bind_ok (readU8_run _ d), be_one]
  rcases readLen_word (d := d.seek (d.ptr + 1)) rfl fuel 0 with ⟨hfuel, hle⟩ | hok
  · refine .inl ⟨bind_error hfuel _, Nat.le_trans hle ?_⟩
    rw [List.length_drop]
    omega
  · refine .inr ?_
    rw [bind_ok hok, get_bind]
    exact parseDescriptor_steps (finiteMem heap)
      (d.seek (d.ptr + 1 + (lengthWord (heap.drop (d.ptr + 1)) 0).2)) fuel
      (finiteMem heap d.ptr).toNat next (lengthWord_lt (heap.drop (d.ptr + 1)))

/-! ## The loops of the demuxer as nested loops -/

/-- How a run of the demuxer ends, unless its fuel is used up. -/
def outcome : Except Stop (Unit × Demuxer) → Option (LoopEnd Unit)
  | .ok (_, d) => some (.left () d.ptr)
  | .error .assertion => some .stopped
  | .error .fuel => none

theorem loopRun_steps (heap : Bytes) (k : LoopKind) {d : Demuxer} {limit : Nat}
    (h : d.ptr < limit) (fuel : Nat) :
    (loopRun (fuel + 1) k limit (finiteMem heap) d = .error .fuel ∧ fuel ≤ heap.length) ∨
      Steps (loopRun fuel) (loopRun fuel k limit) (finiteMem heap) (demuxVisit heap k () d.ptr)
        (loopRun (fuel + 1) k limit (finiteMem heap) d) := by
  cases k with
  | boxes => exact .inr (demuxHelper_steps h fuel)
  | descriptors => exact parseCodecConfigHelper_steps h fuel

theorem loopRun_done {m : Mem} {k : LoopKind} {d : Demuxer} {limit : Nat} (h : ¬ d.ptr < limit)
    (fuel : Nat) : loopRun (fuel + 1) k limit m d = .ok ((), d) := by
  cases k with
  | boxes => rw [loopRun, demuxHelper, get_bind, if_neg h]; rfl
  | descriptors => rw [loopRun, parseCodecConfigHelper, get_bind, if_neg h]; rfl

/-- A run of the demuxer that ends is a run of the nested loops. -/
theorem loop_of_loopRun {heap : Bytes} {fuel : Nat} {k : LoopKind} {d : Demuxer} {limit : Nat}
    {e : LoopEnd Unit} (h : outcome (loopRun fuel k limit (finiteMem heap) d) = some e) :
    (demuxVisit heap).loop fuel k () d.ptr limit = some e := by
  induction fuel generalizing k d limit e with
  | zero => cases k <;> cases h
  | succ fuel ih =>
      by_cases hcur : d.ptr < limit
      · rcases loopRun_steps heap k hcur fuel with ⟨hfuel, -⟩ | hsteps
        · rw [hfuel] at h
          cases h
        · rw [Visitor.loop, if_pos hcur]
          generalize demuxVisit heap k () d.ptr = visit at hsteps
          generalize loopRun (fuel + 1) k limit (finiteMem heap) d = result at hsteps h
          cases hsteps with
          | stop => exact h
          | pass hd' =>
              rw [← hd']
              exact ih h
          | @inside i next d' post hd' hpost =>
              dsimp only
              cases hinner : loopRun fuel i.kind i.limit (finiteMem heap) d' with
              | error reason =>
                  rw [hinner] at h
                  cases reason with
                  | fuel => cases h
                  | assertion =>
                      have hloop := ih (congrArg outcome hinner)
                      rw [hd'] at hloop
                      rw [hloop]
                      exact h
              | ok r =>
                  have hloop := ih (congrArg outcome hinner)
                  rw [hd'] at hloop
                  rw [hinner] at h
                  dsimp only [Except.bind] at h
                  rw [hloop]
                  dsimp only
                  by_cases hexact : i.exact ∧ r.2.ptr ≠ i.limit
                  · rw [if_pos hexact] at h ⊢
                    exact h
                  · rw [if_neg hexact] at h ⊢
                    rw [← hpost r.2]
                    exact ih h
      · rw [loopRun_done hcur] at h
        rw [Visitor.loop_done hcur]
        exact h

/-- A run of the nested loops that ends is a run of the demuxer, with fuel left for the
octets of a length. -/
theorem loopRun_of_loop {heap : Bytes} {fuel : Nat} {k : LoopKind} {d : Demuxer} {limit : Nat}
    {e : LoopEnd Unit} (h : (demuxVisit heap).loop fuel k () d.ptr limit = some e) :
    outcome (loopRun (fuel + (heap.length + 1)) k limit (finiteMem heap) d) = some e := by
  induction fuel generalizing k d limit e with
  | zero => cases h
  | succ fuel ih =>
      rw [Nat.add_right_comm]
      by_cases hcur : d.ptr < limit
      · rcases loopRun_steps heap k hcur (fuel + (heap.length + 1)) with
          ⟨-, hle⟩ | hsteps
        · omega
        · rw [Visitor.loop, if_pos hcur] at h
          generalize demuxVisit heap k () d.ptr = visit at hsteps h
          generalize loopRun (fuel + (heap.length + 1) + 1) k limit (finiteMem heap) d = result
            at hsteps ⊢
          cases hsteps with
          | stop => exact h
          | pass hd' =>
              rw [← hd'] at h
              exact ih h
          | @inside i next d' post hd' hpost =>
              dsimp only at h
              rw [← hd'] at h
              cases hinner : (demuxVisit heap).loop fuel i.kind () d'.ptr i.limit with
              | none =>
                  rw [hinner] at h
                  cases h
              | some inner =>
                  have hrun := ih hinner
                  rw [hinner] at h
                  cases hresult : loopRun (fuel + (heap.length + 1)) i.kind i.limit
                      (finiteMem heap) d' with
                  | error reason =>
                      rw [hresult] at hrun
                      cases reason with
                      | fuel => cases hrun
                      | assertion =>
                          cases hrun
                          exact h
                  | ok r =>
                      rw [hresult] at hrun
                      cases hrun
                      dsimp only at h
                      dsimp only [Except.bind]
                      by_cases hexact : i.exact ∧ r.2.ptr ≠ i.limit
                      · rw [if_pos hexact] at h ⊢
                        exact h
                      · rw [if_neg hexact] at h ⊢
                        rw [← hpost r.2] at h
                        exact ih h
      · rw [Visitor.loop_done hcur] at h
        rw [loopRun_done hcur]
        exact h

/-! ## Boxes of size zero -/

/-- A box is passed by its size; the boxes and descriptors inside start behind its header. -/
inductive Passes (cur next : Nat) : Visit LoopKind Unit → Prop where
  | stop : Passes cur next .stop
  | parsed : Passes cur next (parsed next)
  | inside {kind p} : cur < p → Passes cur next (goesInto kind p next)

theorem Passes.ite {cur next : Nat} {c : Prop} [Decidable c] {v w : Visit LoopKind Unit}
    (hv : Passes cur next v) (hw : Passes cur next w) : Passes cur next (if c then v else w) := by
  split
  · exact hv
  · exact hw

theorem bodyVisit_passes (m : Mem) (type p next : Nat) {cur : Nat} (h : cur < p) :
    Passes cur next (bodyVisit m type p next) := by
  have hinside : ∀ kind skip, Passes cur next (goesInto kind (p + skip) next) := fun _ _ =>
    .inside (by omega)
  unfold bodyVisit
  cases boxKind type with
  | streamFormat => exact .ite (.ite (hinside _ _) .stop) (.ite (hinside _ _) .stop)
  | codecConfiguration => exact .ite (hinside _ _) .parsed
  | trun => exact .ite .parsed .stop
  | stsd => exact .ite (hinside _ _) .stop
  | moof => exact .inside h
  | container => exact .inside h
  | skipped => exact .parsed
  | mfhd => exact .parsed
  | tfhd => exact .parsed
  | tfdt => exact .parsed
  | mvhd => exact .parsed
  | mehd => exact .parsed
  | trex => exact .parsed
  | tkhd => exact .parsed
  | mdhd => exact .parsed

theorem boxVisit_passes (m : Mem) (cur : Nat) :
    Passes cur (cur + m.be cur 4) (boxVisit m cur) :=
  bodyVisit_passes m _ (cur + 8) _ (by omega)

theorem boxVisit_pass {m : Mem} {cur next : Nat} {inner : Option (InnerLoop LoopKind)}
    (h : boxVisit m cur = .pass () inner next) :
    next = cur + m.be cur 4 ∧ ∀ i ∈ inner, cur < i.cur ∧ i.limit = next ∧ i.exact = false := by
  have hpasses := boxVisit_passes m cur
  rw [h] at hpasses
  generalize hvisit : Visit.pass () inner next = visit at hpasses
  cases hpasses with
  | stop => cases hvisit
  | parsed =>
      cases hvisit
      exact ⟨rfl, fun i hi => by cases hi⟩
  | inside hp =>
      cases hvisit
      refine ⟨rfl, fun i hi => ?_⟩
      cases hi
      exact ⟨hp, rfl, rfl⟩

theorem descriptorVisit_pass {heap : Bytes} {cur next : Nat}
    {inner : Option (InnerLoop LoopKind)} (h : descriptorVisit heap cur = .pass () inner next) :
    cur < heap.length ∧ cur < next ∧ ∀ i ∈ inner, cur < i.cur := by
  have hpos := lengthWord_pos (heap.drop (cur + 1)) 0
  have hcur : cur < heap.length := by
    refine Nat.lt_of_not_le fun hle => ?_
    rw [descriptorVisit, finiteMem_end hle] at h
    cases h
  rw [descriptorVisit] at h
  generalize (finiteMem heap cur).toNat = tag at h
  generalize lengthWord (heap.drop (cur + 1)) 0 = word at h hpos
  have hinside : ∀ skip kind limit exact, ∀ i ∈ some (⟨kind, cur + 1 + word.2 + skip, limit,
      exact⟩ : InnerLoop LoopKind), cur < i.cur := by
    intro skip kind limit exact i hi
    cases hi
    show cur < cur + 1 + word.2 + skip
    omega
  rcases tag with _ | _ | _ | _ | _ | _ | _ | tag
  · cases h
  · cases h
  · cases h
  · cases h
    exact ⟨hcur, by omega, hinside 3 _ _ _⟩
  · cases h
    exact ⟨hcur, by omega, hinside 13 _ _ _⟩
  · cases h
    exact ⟨hcur, by omega, fun i hi => by cases hi⟩
  · cases h
    exact ⟨hcur, by omega, fun i hi => by cases hi⟩
  · cases h

/-- The size of a box is zero, and no assertion fails in it. -/
def SizeZero (m : Mem) (p : Nat) : Prop := m.be p 4 = 0 ∧ boxVisit m p ≠ .stop

theorem demuxVisit_stalls_iff (heap : Bytes) (k : LoopKind) (p : Nat) :
    (demuxVisit heap).Stalls k () p ↔ k = .boxes ∧ SizeZero (finiteMem heap) p := by
  cases k with
  | descriptors =>
      refine iff_of_false ?_ fun h => by cases h.1
      rintro ⟨inner, hvisit, -⟩
      exact Nat.lt_irrefl p (descriptorVisit_pass hvisit).2.1
  | boxes =>
      constructor
      · rintro ⟨inner, hvisit, -⟩
        obtain ⟨hnext, -⟩ := boxVisit_pass hvisit
        refine ⟨rfl, by omega, ?_⟩
        rw [show boxVisit (finiteMem heap) p = _ from hvisit]
        exact fun h => by cases h
      · rintro ⟨-, hzero, hgoes⟩
        cases hvisit : boxVisit (finiteMem heap) p with
        | stop => exact absurd hvisit hgoes
        | leave _ =>
            have hpasses := boxVisit_passes (finiteMem heap) p
            rw [hvisit] at hpasses
            cases hpasses
        | pass _ inner next =>
            obtain ⟨hnext, hinner⟩ := boxVisit_pass hvisit
            obtain rfl : next = p := by omega
            refine ⟨inner, hvisit, fun i hi => ?_⟩
            obtain ⟨hlt, hlimit, hexact⟩ := hinner i hi
            rw [hlimit, hexact]
            exact ⟨Nat.le_of_lt hlt, fun h => Bool.false_ne_true h.1⟩

theorem finiteMem_be_end {heap : Bytes} {p : Nat} (h : heap.length ≤ p) (n : Nat) :
    (finiteMem heap).be p n = 0 :=
  Mem.be_zero fun _ hi => finiteMem_end (Nat.le_trans h hi)

theorem demuxVisit_advances (heap : Bytes) :
    (demuxVisit heap).Advances (fun _ => True) heap.length where
  pass_inv := fun _ _ => trivial
  leave_inv := fun _ _ => trivial
  next_lt := by
    intro k _ cur _ inner next hvisit hstall
    cases k with
    | descriptors => exact (descriptorVisit_pass hvisit).2.1
    | boxes =>
        obtain ⟨rfl, -⟩ := boxVisit_pass hvisit
        refine Nat.lt_add_of_pos_right (Nat.pos_of_ne_zero fun hzero => hstall ?_)
        refine (demuxVisit_stalls_iff heap .boxes cur).mpr ⟨rfl, hzero, ?_⟩
        rw [show boxVisit (finiteMem heap) cur = _ from hvisit]
        exact fun h => by cases h
  inner_lt := by
    intro k _ cur _ i next hvisit
    cases k with
    | descriptors => exact (descriptorVisit_pass hvisit).2.2 i rfl
    | boxes => exact ((boxVisit_pass hvisit).2 i rfl).1
  top := by
    intro k _ cur _ inner next _ hvisit hstall
    cases k with
    | descriptors => exact (descriptorVisit_pass hvisit).1
    | boxes =>
        refine Nat.lt_of_not_le fun hle => hstall ?_
        refine (demuxVisit_stalls_iff heap .boxes cur).mpr ⟨rfl, finiteMem_be_end hle 4, ?_⟩
        rw [show boxVisit (finiteMem heap) cur = _ from hvisit]
        exact fun h => by cases h

theorem outcome_eq_none_iff {result : Except Stop (Unit × Demuxer)} :
    outcome result = none ↔ result.map Prod.snd = .error .fuel := by
  cases result with
  | ok r => exact iff_of_false (fun h => by cases h) fun h => by cases h
  | error reason =>
      cases reason with
      | fuel => exact iff_of_true rfl rfl
      | assertion => exact iff_of_false (fun h => by cases h) fun h => by cases h

theorem construct_ends_iff (heap : Bytes) (ptr len timescale : Nat) (memory : Demuxer) :
    (∃ fuel, construct fuel (finiteMem heap) ptr len timescale memory ≠ .error .fuel) ↔
      ∃ e, (demuxVisit heap).Ends .boxes () ptr (ptr + len) e := by
  let d : Demuxer :=
    { memory with
      info := memory.info.construct, samples := [], ptr := ptr, moof_ptr := 0
      timescale := timescale }
  have hconstruct : ∀ fuel,
      construct fuel (finiteMem heap) ptr len timescale memory ≠ .error .fuel ↔
        ∃ e, outcome (loopRun fuel .boxes (ptr + len) (finiteMem heap) d) = some e := fun fuel =>
    (not_congr outcome_eq_none_iff.symm).trans Option.ne_none_iff_exists'
  constructor
  · rintro ⟨fuel, hfuel⟩
    obtain ⟨e, he⟩ := (hconstruct fuel).mp hfuel
    exact ⟨e, fuel, loop_of_loopRun he⟩
  · rintro ⟨e, fuel, he⟩
    exact ⟨_, (hconstruct _).mpr ⟨e, loopRun_of_loop (d := d) he⟩⟩

/-- The constructor returns or fails an assertion, in steps forward, exactly when none of
its loops comes to a box of size zero. -/
theorem construct_terminates_iff (heap : Bytes) (ptr len timescale : Nat) (memory : Demuxer) :
    ((∃ fuel, construct fuel (finiteMem heap) ptr len timescale memory ≠ .error .fuel) ∧
        (demuxVisit heap).StepsForward .boxes () ptr (ptr + len)) ↔
      ∀ p, (demuxVisit heap).Comes .boxes () ptr (ptr + len) .boxes () p →
        ¬ SizeZero (finiteMem heap) p := by
  rw [construct_ends_iff, (demuxVisit_advances heap).ends_forward_iff trivial]
  constructor
  · intro h p hcomes hzero
    exact h .boxes () p hcomes ((demuxVisit_stalls_iff heap .boxes p).mpr ⟨rfl, hzero⟩)
  · intro h k' s' p hcomes hstall
    obtain ⟨rfl, hzero⟩ := (demuxVisit_stalls_iff heap k' p).mp hstall
    exact h p hcomes hzero

/-! ## The loops of the restamping -/

namespace AdjustTime

/-- What the walk does with the time of a `tfdt` box at `cur`. -/
def stampBox (delta : Int) (m : Mem) (cur : Nat) : Nat × Mem :=
  stampAll delta [⟨cur + 12, timeSize (m (cur + 8)).toNat⟩] m

def adjustVisit (delta : Int) : Visitor Unit Mem := fun _ m cur =>
  let next := cur + m.be cur 4
  if m.be (cur + 4) 4 = TFDT then
    if (stampBox delta m cur).1 = 0 then .leave (stampBox delta m cur).2 else .stop
  else if m.be (cur + 4) 4 ∈ parentTypes then .pass m (some ⟨(), cur + 8, next, false⟩) next
  else .pass m none next

/-- The memory of a walk that has found no time but zero. -/
def timeless (r : Nat × Mem) : Option Mem := if r.1 = 0 then some r.2 else none

def memoryLeft : LoopEnd Mem → Option Mem
  | .stopped => none
  | .left m _ => some m

/-- The walk is a run of the nested loops that a time other than zero stops. -/
theorem walk_loop (delta : Int) (fuel : Nat) (m : Mem) (ptr fin : Nat) :
    (mp4AdjustMediaDecodeTime delta fuel m ptr fin).map timeless =
      ((adjustVisit delta).loop fuel () m ptr fin).map memoryLeft := by
  induction fuel generalizing m ptr fin with
  | zero => rfl
  | succ fuel ih =>
      by_cases hptr : ptr < fin
      · rw [Visitor.loop, if_pos hptr, adjustVisit]
        by_cases htype : m.be (ptr + 4) 4 = TFDT
        · rw [walk_tfdt hptr htype, if_pos htype, ← stampBox]
          by_cases hzero : (stampBox delta m ptr).1 = 0
          · rw [if_pos hzero, Option.map_some, timeless, if_pos hzero]
            rfl
          · rw [if_neg hzero, Option.map_some, timeless, if_neg hzero]
            rfl
        · rw [mp4AdjustMediaDecodeTime, if_pos hptr, if_neg htype]
          dsimp only
          rw [readWord_eq, readWord_eq, if_neg htype]
          by_cases hparent : m.be (ptr + 4) 4 ∈ parentTypes
          · rw [if_pos hparent, if_pos hparent]
            have hinner := ih m (ptr + 8) (ptr + m.be ptr 4)
            dsimp only
            cases hloop : (adjustVisit delta).loop fuel () m (ptr + 8) (ptr + m.be ptr 4) with
            | none =>
                rw [hloop] at hinner
                rw [Option.map_eq_none_iff.mp hinner]
                rfl
            | some e =>
                rw [hloop] at hinner
                obtain ⟨⟨time, m'⟩, hwalk, htime⟩ := Option.map_eq_some_iff.mp hinner
                rw [hwalk]
                cases e with
                | stopped =>
                    have htime : time ≠ 0 := fun h => by cases (if_pos h).symm.trans htime
                    exact (congrArg (Option.map timeless) (if_neg htime)).trans
                      (congrArg some (if_neg htime))
                | left m₂ _ =>
                    by_cases hzero : time = 0
                    · obtain rfl := Option.some.inj ((if_pos hzero).symm.trans htime)
                      refine (congrArg (Option.map timeless) (if_pos hzero)).trans ?_
                      exact ih _ _ _
                    · cases (if_neg hzero).symm.trans htime
          · rw [if_neg hparent, if_neg hparent]
            exact ih _ _ _
      · rw [mp4AdjustMediaDecodeTime, if_neg hptr, Visitor.loop_done hptr]
        rfl

theorem walk_ends_iff (delta : Int) (m : Mem) (ptr fin : Nat) :
    (∃ fuel, mp4AdjustMediaDecodeTime delta fuel m ptr fin ≠ none) ↔
      ∃ e, (adjustVisit delta).Ends () m ptr fin e := by
  have hnone : ∀ fuel, mp4AdjustMediaDecodeTime delta fuel m ptr fin = none ↔
      (adjustVisit delta).loop fuel () m ptr fin = none := by
    intro fuel
    rw [← Option.map_eq_none_iff (f := timeless), walk_loop, Option.map_eq_none_iff]
  constructor
  · rintro ⟨fuel, h⟩
    obtain ⟨e, he⟩ := Option.ne_none_iff_exists'.mp (mt (hnone fuel).mpr h)
    exact ⟨e, fuel, he⟩
  · rintro ⟨e, fuel, he⟩
    exact ⟨fuel, mt (hnone fuel).mp (Option.ne_none_iff_exists'.mpr ⟨e, he⟩)⟩

theorem adjustVisit_pass {delta : Int} {m m' : Mem} {cur next : Nat}
    {inner : Option (InnerLoop Unit)} (h : adjustVisit delta () m cur = .pass m' inner next) :
    m' = m ∧ next = cur + m.be cur 4 ∧ m.be (cur + 4) 4 ≠ TFDT ∧
      ∀ i ∈ inner, i = ⟨(), cur + 8, next, false⟩ := by
  rw [adjustVisit] at h
  by_cases htype : m.be (cur + 4) 4 = TFDT
  · rw [if_pos htype] at h
    split at h <;> cases h
  · rw [if_neg htype] at h
    by_cases hparent : m.be (cur + 4) 4 ∈ parentTypes
    · rw [if_pos hparent] at h
      cases h
      exact ⟨rfl, rfl, htype, fun i hi => (Option.some.inj hi).symm⟩
    · rw [if_neg hparent] at h
      cases h
      exact ⟨rfl, rfl, htype, fun i hi => by cases hi⟩

/-- The size of a box that is not a `tfdt` box is zero. -/
def SizeZero (m : Mem) (p : Nat) : Prop := m.be p 4 = 0 ∧ m.be (p + 4) 4 ≠ TFDT

theorem adjustVisit_stalls_iff (delta : Int) (m : Mem) (p : Nat) :
    (adjustVisit delta).Stalls () m p ↔ SizeZero m p := by
  constructor
  · rintro ⟨inner, hvisit, -⟩
    obtain ⟨-, hnext, htype, -⟩ := adjustVisit_pass hvisit
    exact ⟨by omega, htype⟩
  · rintro ⟨hzero, htype⟩
    by_cases hparent : m.be (p + 4) 4 ∈ parentTypes
    · refine ⟨some ⟨(), p + 8, p, false⟩, ?_, fun i hi => ?_⟩
      · rw [adjustVisit, if_neg htype, if_pos hparent, hzero]
        rfl
      · cases hi
        exact ⟨Nat.le_add_right p 8, fun h => Bool.false_ne_true h.1⟩
    · refine ⟨none, ?_, fun i hi => by cases hi⟩
      rw [adjustVisit, if_neg htype, if_neg hparent, hzero]
      rfl

/-- The memory from `top` on holds zeros. -/
def EndsAt (top : Nat) (m : Mem) : Prop := ∀ i, top ≤ i → m i = 0

theorem EndsAt.stampBox {delta : Int} {top cur : Nat} {m : Mem} (h : EndsAt top m)
    (hzero : (stampBox delta m cur).1 = 0) : EndsAt top (stampBox delta m cur).2 := by
  rw [AdjustTime.stampBox, stampAll] at hzero ⊢
  have hmoved : Stamp.moved ⟨cur + 12, timeSize (m (cur + 8)).toNat⟩ delta m = 0 := by
    by_contra hne
    rw [if_neg hne] at hzero
    exact hne hzero
  rw [if_pos hmoved]
  refine fun i hi => Mem.write_all (P := (· = 0)) (fun octet hoctet => ?_) (h i hi)
  rw [beBytes_zero] at hoctet
  exact List.eq_of_mem_replicate hoctet

theorem adjustVisit_advances (delta : Int) (top : Nat) :
    (adjustVisit delta).Advances (EndsAt top) top where
  pass_inv := by
    intro _ m cur m' inner next hm hvisit
    rw [(adjustVisit_pass hvisit).1]
    exact hm
  leave_inv := by
    intro _ m cur m' hm hvisit
    rw [adjustVisit] at hvisit
    split at hvisit
    · split at hvisit
      · rename_i hzero
        cases hvisit
        exact hm.stampBox hzero
      · cases hvisit
    · split at hvisit <;> cases hvisit
  next_lt := by
    intro _ m cur m' inner next hvisit hstall
    obtain ⟨-, rfl, htype, -⟩ := adjustVisit_pass hvisit
    refine Nat.lt_add_of_pos_right (Nat.pos_of_ne_zero fun hzero => hstall ?_)
    exact (adjustVisit_stalls_iff delta m cur).mpr ⟨hzero, htype⟩
  inner_lt := by
    intro _ m cur m' i next hvisit
    rw [(adjustVisit_pass hvisit).2.2.2 i rfl]
    exact Nat.lt_add_of_pos_right (by decide)
  top := by
    intro _ m cur m' inner next hm hvisit hstall
    obtain ⟨-, -, htype, -⟩ := adjustVisit_pass hvisit
    refine Nat.lt_of_not_le fun hle => hstall ?_
    exact (adjustVisit_stalls_iff delta m cur).mpr
      ⟨Mem.be_zero fun i hi => hm i (Nat.le_trans hle hi), htype⟩

/-- The walk returns, in steps forward, exactly when none of its loops comes to a box of
size zero. -/
theorem mp4AdjustMediaDecodeTime_terminates_iff (heap : Bytes) (ptr len : Nat) (delta : Int) :
    ((∃ fuel, mp4AdjustMediaDecodeTime delta fuel (finiteMem heap) ptr (ptr + len) ≠ none) ∧
        (adjustVisit delta).StepsForward () (finiteMem heap) ptr (ptr + len)) ↔
      ∀ m p, (adjustVisit delta).Comes () (finiteMem heap) ptr (ptr + len) () m p →
        ¬ SizeZero m p := by
  have hends : EndsAt heap.length (finiteMem heap) := fun _ hi => finiteMem_end hi
  rw [walk_ends_iff, (adjustVisit_advances delta heap.length).ends_forward_iff hends]
  constructor
  · exact fun h m p hcomes hzero => h () m p hcomes ((adjustVisit_stalls_iff delta m p).mpr hzero)
  · exact fun h _ m p hcomes hstall => h m p hcomes ((adjustVisit_stalls_iff delta m p).mp hstall)

end AdjustTime

/-! ## Both -/

/-- Over the buffer from `ptr` on both come to an end, every loop in steps forward. -/
structure Terminates (heap : Bytes) (ptr len timescale : Nat) (memory : Demuxer)
    (pts_restamp_delta : Int) : Prop where
  construct : ∃ fuel, construct fuel (finiteMem heap) ptr len timescale memory ≠ .error .fuel
  construct_forward : (demuxVisit heap).StepsForward .boxes () ptr (ptr + len)
  adjust : ∃ fuel, AdjustTime.mp4AdjustMediaDecodeTime pts_restamp_delta fuel (finiteMem heap) ptr
    (ptr + len) ≠ none
  adjust_forward : (AdjustTime.adjustVisit pts_restamp_delta).StepsForward () (finiteMem heap) ptr
    (ptr + len)

/-- What keeps a loop from ending is a box of size zero; sizes below a header, sizes beyond
the parent and the lengths of descriptors do not. -/
theorem terminates_iff (heap : Bytes) (ptr len timescale : Nat) (memory : Demuxer)
    (pts_restamp_delta : Int) :
    Terminates heap ptr len timescale memory pts_restamp_delta ↔
      (∀ p, (demuxVisit heap).Comes .boxes () ptr (ptr + len) .boxes () p →
        ¬ SizeZero (finiteMem heap) p) ∧
      (∀ m p, (AdjustTime.adjustVisit pts_restamp_delta).Comes () (finiteMem heap) ptr (ptr + len)
        () m p → ¬ AdjustTime.SizeZero m p) := by
  rw [← construct_terminates_iff heap ptr len timescale memory,
    ← AdjustTime.mp4AdjustMediaDecodeTime_terminates_iff]
  constructor
  · rintro ⟨hconstruct, hforward, hadjust, hforward'⟩
    exact ⟨⟨hconstruct, hforward⟩, hadjust, hforward'⟩
  · rintro ⟨⟨hconstruct, hforward⟩, hadjust, hforward'⟩
    exact ⟨hconstruct, hforward, hadjust, hforward'⟩

/-- A box of type `skip` and size zero. -/
def emptyBox : Bytes := [0, 0, 0, 0] ++ (IsoBmff.fourcc 's' 'k' 'i' 'p').bytes

theorem emptyBox_not_terminates :
    ¬ ∀ (heap : Bytes) (timescale : Nat) (memory : Demuxer) (pts_restamp_delta : Int),
      Terminates heap 0 heap.length timescale memory pts_restamp_delta := by
  intro h
  have hends := h emptyBox 1 default 0
  have hnone := (construct_terminates_iff emptyBox 0 emptyBox.length 1 default).mp
    ⟨hends.construct, hends.construct_forward⟩
  exact hnone 0 (.here (by decide)) ⟨by decide, by decide⟩

end PlayerInterface.Mp4Demux
