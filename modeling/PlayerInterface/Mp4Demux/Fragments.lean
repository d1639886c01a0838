import PlayerInterface.Mp4Demux.Reading

/-!
# The boxes of a track fragment

What `tfhd`, `tfdt`, `trex` and `trun` leave in the registers, in terms of the
fields they were serialised from. A field that its flags leave out moves nothing
and keeps the default.
-/

namespace PlayerInterface.Mp4Demux

open PlayerInterface.Core Program
open PlayerInterface.IsoBmff (TimeScaleFields TfdtFields TfhdFields TrunFields TrunSample field
  timeWidth versionByte samplesBytes)

variable {m : Mem} {c c' : Cursor}

/-! ## Optional fields -/

/-- The value of a field, or the default when its flags leave it out. -/
def fieldOr (flags : Word 3) (mask : Nat) {width : Nat} (w : Word width) (default : Nat) : Nat :=
  if flags.toNat &&& mask ≠ 0 then w.toNat else default

theorem readU32_word {w : Word 4} (h : Holds m c.ptr w.bytes) :
    Moves readU32 m c w.toNat (c.seek (c.ptr + 4)) :=
  h.word ▸ readU32_moves

theorem readU64_word {w : Word 8} (h : Holds m c.ptr w.bytes) :
    Moves readU64 m c w.toNat (c.seek (c.ptr + 8)) :=
  h.word ▸ readU64_moves

theorem readI32_word {w : Word 4} (h : Holds m c.ptr w.bytes) :
    Moves readI32 m c (Int.bmod w.toNat (2 ^ 32)) (c.seek (c.ptr + 4)) :=
  h.word ▸ readI32_moves

theorem readHeader_word {version : Word 1} {flags : Word 3}
    (h : Holds m c.ptr (version.bytes ++ flags.bytes)) :
    Moves readHeader m c () (c.enter version.toNat flags.toNat) := by
  obtain ⟨hversion, hflags⟩ := holds_append.mp h
  rw [Word.bytes_length] at hflags
  exact hversion.word ▸ hflags.word ▸ readHeader_moves

section
variable {flags : Word 3} {mask width : Nat} {w : Word width}

theorem field_of_flag (h : flags.toNat &&& mask ≠ 0) : field flags mask w = w.bytes := if_pos h

theorem field_of_no_flag (h : ¬ flags.toNat &&& mask ≠ 0) : field flags mask w = [] := if_neg h

/-- An optional value: the cursor moves behind the field, whether it is there or not. -/
theorem orDefault_field {α : Type} {read : Demux α} {a : α}
    (h : Holds m c.ptr (field flags mask w))
    (hread : Holds m c.ptr w.bytes → Moves read m c a (c.seek (c.ptr + width))) (default : α) :
    Moves (orDefault (flags.toNat &&& mask ≠ 0) default read) m c
      (if flags.toNat &&& mask ≠ 0 then a else default)
      (c.seek (c.ptr + (field flags mask w).length)) := by
  by_cases hflag : flags.toNat &&& mask ≠ 0
  · rw [field_of_flag hflag] at h ⊢
    rw [orDefault, if_pos hflag, if_pos hflag, Word.bytes_length]
    exact hread h
  · rw [field_of_no_flag hflag, orDefault, if_neg hflag, if_neg hflag]
    exact .pure default

/-- An optional member; `val` and `put` are how the cursor shows it. -/
theorem when_register {read : Demux Nat} {set : Nat → Demuxer → Demuxer}
    (h : Holds m c.ptr (field flags mask w))
    (hread : Holds m c.ptr w.bytes → Moves read m c w.toNat (c.seek (c.ptr + width)))
    (val : Cursor → Nat) (put : Nat → Cursor → Cursor)
    (hset : ∀ v d, (set v d).cursor = put v d.cursor)
    (hseek : ∀ v e p, put v (Cursor.seek e p) = (put v e).seek p)
    (hself : ∀ e, put (val e) e = e) :
    Moves (when (flags.toNat &&& mask ≠ 0) (assign read set)) m c ()
      ((put (fieldOr flags mask w (val c)) c).seek (c.ptr + (field flags mask w).length)) := by
  by_cases hflag : flags.toNat &&& mask ≠ 0
  · rw [field_of_flag hflag] at h ⊢
    rw [when, fieldOr, if_pos hflag, if_pos hflag, Word.bytes_length, ← hseek]
    exact assign_register (hread h) (put w.toNat) (hset w.toNat)
  · rw [field_of_no_flag hflag, when, fieldOr, if_neg hflag, if_neg hflag, hself]
    exact .pure ()

/-- An optional member that the cursor does not show. -/
theorem when_frame {read : Demux Nat} {set : Nat → Demuxer → Demuxer}
    (h : Holds m c.ptr (field flags mask w))
    (hread : Holds m c.ptr w.bytes → Moves read m c w.toNat (c.seek (c.ptr + width)))
    (hset : ∀ v d, (set v d).cursor = d.cursor) :
    Moves (when (flags.toNat &&& mask ≠ 0) (assign read set)) m c ()
      (c.seek (c.ptr + (field flags mask w).length)) :=
  when_register h hread (fun _ => 0) (fun _ e => e) hset (fun _ _ _ => rfl) fun _ => rfl

end

/-! ## Track defaults -/

def trexRegisters (b : TrexFields) (r : Registers) : Registers :=
  { r with
    track_id := b.track_ID.toNat, default_sample_duration := b.default_sample_duration.toNat
    default_sample_size := b.default_sample_size.toNat }

theorem parseTrackExtendsBox_fields {b : TrexFields} (h : Holds m c.ptr b.bytes) :
    Leaves parseTrackExtendsBox m c (trexRegisters b c.toRegisters) := by
  simp only [TrexFields.bytes, holds_append, Word.bytes_length] at h
  obtain ⟨-, -, hid, -, hduration, hsize, -⟩ := h
  have hrun := @parseTrackExtendsBox_leaves m c
  rw [hid.word, hduration.word, hsize.word] at hrun
  exact hrun

def tfhdRegisters (b : TfhdFields) (r : Registers) : Registers :=
  { r with
    track_id := b.track_ID.toNat
    default_sample_duration :=
      fieldOr b.flags 0x00008 b.default_sample_duration r.default_sample_duration
    default_sample_size := fieldOr b.flags 0x00010 b.default_sample_size r.default_sample_size }

theorem parseTrackFragmentHeaderBox_fields {b : TfhdFields} (h : Holds m c.ptr b.bytes) :
    Leaves parseTrackFragmentHeaderBox m c (tfhdRegisters b c.toRegisters) := by
  rw [TfhdFields.bytes, ← List.append_assoc, holds_append, List.length_append] at h
  obtain ⟨hheader, h⟩ := h
  simp only [holds_append, Word.bytes_length] at h
  obtain ⟨hid, hbase, hindex, hduration, hsize, hflags⟩ := h
  refine .step (readHeader_word hheader) ?_
  refine .step (assign_register (readU32_word hid)
    (fun e => { e with track_id := b.track_ID.toNat }) fun _ => rfl) (.get fun d hd => ?_)
  have hd' : d.flags = b.flags.toNat := congrArg Cursor.flags hd
  rw [hd']
  refine .step (when_frame hbase readU64_word fun _ _ => rfl) ?_
  refine .step (when_frame hindex readU32_word fun _ _ => rfl) ?_
  refine .step (when_register hduration readU32_word (·.default_sample_duration)
    (fun v e => { e with default_sample_duration := v }) (fun _ _ => rfl) (fun _ _ _ => rfl)
    fun _ => rfl) ?_
  refine .step (when_register hsize readU32_word (·.default_sample_size)
    (fun v e => { e with default_sample_size := v }) (fun _ _ => rfl) (fun _ _ _ => rfl)
    fun _ => rfl) ?_
  exact .of_moves (when_frame hflags readU32_word fun _ _ => rfl) rfl

/-! ## Time words -/

theorem versionByte_timeSize {version1 : Bool} {p : Nat} (h : Holds m p (versionByte version1)) :
    timeSize (m.be p 1) = timeWidth version1 := by
  have hbyte : m.be p 1 = be (versionByte version1) := congrArg be h.slice
  rw [hbyte]
  cases version1 <;> rfl

def tfdtRegisters (b : TfdtFields) (r : Registers) : Registers :=
  { r with baseMediaDecodeTime := b.baseMediaDecodeTime.toNat }

theorem parseTrackFragmentBaseMediaDecodeTimeBox_fields {b : TfdtFields}
    (h : Holds m c.ptr b.bytes) :
    Leaves parseTrackFragmentBaseMediaDecodeTimeBox m c (tfdtRegisters b c.toRegisters) := by
  simp only [TfdtFields.bytes, holds_append, Word.bytes_length] at h
  obtain ⟨hversion, -, htime⟩ := h
  have hrun := @parseTrackFragmentBaseMediaDecodeTimeBox_leaves m c
  have hword : m.be (c.ptr + 4) (timeWidth b.version1) = b.baseMediaDecodeTime.toNat :=
    Holds.word htime
  rw [versionByte_timeSize hversion, hword] at hrun
  exact hrun

/-- The word behind the two time words, where the layout puts it. -/
theorem TimeScaleFields_word {b : TimeScaleFields} (h : Holds m c.ptr b.bytes) :
    m.be (behindTimes m c.ptr) 4 = b.timescale.toNat := by
  simp only [TimeScaleFields.bytes, holds_append, Word.bytes_length] at h
  obtain ⟨hversion, -, -, -, hword, -⟩ := h
  rw [behindTimes, versionByte_timeSize hversion]
  exact Holds.word hword

/-! ## Track runs -/

/-- Duration, length and composition offset of a sample, by the flags of its run. -/
def sampleDuration (flags : Word 3) (r : SampleDefaults) (s : TrunSample) : Nat :=
  fieldOr flags 0x0100 s.sample_duration r.default_sample_duration

def sampleLen (flags : Word 3) (r : SampleDefaults) (s : TrunSample) : Nat :=
  fieldOr flags 0x0200 s.sample_size r.default_sample_size

def sampleOffset (flags : Word 3) (s : TrunSample) : Int :=
  if flags.toNat &&& 0x0800 ≠ 0 then
    Int.bmod s.sample_composition_time_offset.toNat (2 ^ 32)
  else 0

def runSample (flags : Word 3) (r : SampleDefaults) (v : RunVars) (s : TrunSample) : Mp4Sample :=
  Mp4Sample.make r.timescale flags.toNat v (sampleDuration flags r s) (sampleLen flags r s)
    (sampleOffset flags s)

def RunVars.next (v : RunVars) (flags : Word 3) (r : SampleDefaults) (s : TrunSample) : RunVars :=
  ⟨v.data_ptr + sampleLen flags r s, (v.dts + sampleDuration flags r s) % 2 ^ 64⟩

/-- The samples of a run, in order. -/
def runSamples (flags : Word 3) (r : SampleDefaults) : RunVars → List TrunSample → List Mp4Sample
  | _, [] => []
  | v, s :: samples => runSample flags r v s :: runSamples flags r (v.next flags r s) samples

def Cursor.push (c : Cursor) (samples : List Mp4Sample) : Cursor :=
  { c with samples := c.samples ++ samples }

theorem parseSample_moves {flags : Word 3} (hflags : c.flags = flags.toNat) {s : TrunSample}
    (h : Holds m c.ptr (s.bytes flags)) (v : RunVars) :
    Moves (parseSample v) m c (v.next flags c.toSampleDefaults s)
      ((c.push [runSample flags c.toSampleDefaults v s]).seek (c.ptr + (s.bytes flags).length)) := by
  have hlen : c.ptr + (s.bytes flags).length = c.ptr + (field flags 0x0100 s.sample_duration).length
      + (field flags 0x0200 s.sample_size).length + (field flags 0x0400 s.sample_flags).length
      + (field flags 0x0800 s.sample_composition_time_offset).length := by
    simp only [TrunSample.bytes, List.length_append, Nat.add_assoc]
    rfl
  simp only [TrunSample.bytes, holds_append] at h
  obtain ⟨hduration, hsize, hsflags, hoffset⟩ := h
  rw [hlen]
  refine .get fun d hd => ?_
  have hdflags : d.flags = flags.toNat := (congrArg Cursor.flags hd).trans hflags
  have hscale : d.timescale = c.timescale := congrArg (·.timescale) hd
  have hdefault : d.default_sample_duration = c.default_sample_duration :=
    congrArg (·.default_sample_duration) hd
  have hdsize : d.default_sample_size = c.default_sample_size :=
    congrArg (·.default_sample_size) hd
  rw [hdflags, hscale, hdefault, hdsize]
  refine (orDefault_field hduration readU32_word _).bind ?_
  refine (orDefault_field hsize readU32_word _).bind ?_
  refine (orDefault_field hsflags readU32_word _).bind ?_
  refine (orDefault_field hoffset readI32_word _).bind ?_
  refine (Yields.modify (fun e => Cursor.push e [runSample flags c.toSampleDefaults v s])
    fun _ => rfl).bind ?_
  exact .pure _

theorem parseSamples_moves {flags : Word 3} (samples : List TrunSample)
    (hflags : c.flags = flags.toNat) (h : Holds m c.ptr (samplesBytes flags samples))
    (v : RunVars) :
    Moves (parseSamples samples.length v) m c ()
      ((c.push (runSamples flags c.toSampleDefaults v samples)).seek
        (c.ptr + (samplesBytes flags samples).length)) := by
  induction samples generalizing c v with
  | nil =>
      have hpush : c.push [] = c := by simp [Cursor.push]
      rw [runSamples, hpush]
      exact .pure ()
  | cons s samples ih =>
      obtain ⟨hs, hrest⟩ := holds_append.mp h
      have hlen : c.ptr + (samplesBytes flags (s :: samples)).length =
          c.ptr + (s.bytes flags).length + (samplesBytes flags samples).length := by
        rw [samplesBytes, List.length_append, Nat.add_assoc]
      have hpush : c.push (runSamples flags c.toSampleDefaults v (s :: samples)) =
          (c.push [runSample flags c.toSampleDefaults v s]).push (runSamples flags
            c.toSampleDefaults (v.next flags c.toSampleDefaults s) samples) := by
        simp [Cursor.push, runSamples]
      rw [hlen, hpush]
      refine (parseSample_moves hflags hs v).bind (ih ?_ ?_ _)
      · exact hflags
      · exact hrest

def trunRegisters (b : TrunFields) (r : Registers) : Registers :=
  { r with
    samples := r.samples ++ runSamples b.flags r.toSampleDefaults
      ⟨r.moof_ptr + Int.bmod b.data_offset.toNat (2 ^ 32), r.baseMediaDecodeTime⟩ b.samples }

theorem parseTrackFragmentRunBox_fields {b : TrunFields} (hoffset : b.flags.toNat &&& 0x0001 ≠ 0)
    (h : Holds m c.ptr b.bytes) :
    Leaves parseTrackFragmentRunBox m c (trunRegisters b c.toRegisters) := by
  rw [TrunFields.bytes, ← List.append_assoc, holds_append, List.length_append] at h
  obtain ⟨hheader, h⟩ := h
  simp only [holds_append, Word.bytes_length, beBytes_length] at h
  obtain ⟨hcount, hdata, hfirst, hsamples⟩ := h
  rw [IsoBmff.TRUN_FLAG_DATA_OFFSET_PRESENT, field_of_flag hoffset] at hdata hfirst hsamples
  rw [Word.bytes_length] at hfirst hsamples
  have hcount' : m.be (c.ptr + 4) 4 = b.samples.length := Holds.be hcount b.count_lt
  refine .step (readHeader_word hheader) ?_
  refine .step readU32_moves (.get fun d hd => ?_)
  have hflags : d.flags = b.flags.toNat := congrArg Cursor.flags hd
  have hmoof : d.moof_ptr = c.moof_ptr := congrArg (·.moof_ptr) hd
  have htime : d.baseMediaDecodeTime = c.baseMediaDecodeTime :=
    congrArg (·.baseMediaDecodeTime) hd
  rw [hflags, hmoof, htime]
  refine .step (assert_moves hoffset) ?_
  refine .step (readI32_word hdata) ?_
  refine .step (orDefault_field hfirst readU32_word 0) ?_
  rw [show (c.enter b.version.toNat b.flags.toNat).ptr = c.ptr + 4 from rfl, hcount']
  exact .of_moves (parseSamples_moves b.samples rfl hsamples _) rfl

end PlayerInterface.Mp4Demux
