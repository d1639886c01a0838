import PlayerInterface.IsoBmff.Retiling

/-!
# Truncating a run of samples

`TrunIsoBmffBox::truncate` keeps the first sample. The records of the others become a
`skip` box when they take eight bytes or more, and otherwise stay inside the box,
behind a table that the sample count says has ended.
-/

namespace PlayerInterface.IsoBmff

open PlayerInterface.Core Reader

/-- The run with only its first sample. -/
def TrunFields.first (b : TrunFields) : TrunFields where
  version := b.version
  flags := b.flags
  data_offset := b.data_offset
  first_sample_flags := b.first_sample_flags
  samples := b.samples.take 1
  count_lt := Nat.lt_of_le_of_lt (List.length_take_le 1 b.samples) (by decide)

@[simp] theorem TrunFields.first_samples (b : TrunFields) :
    b.first.samples = b.samples.take 1 := rfl

@[simp] theorem TrunFields.first_flags (b : TrunFields) : b.first.flags = b.flags := rfl

/-- The bytes of a run up to its sample count, and those between the count and the samples. -/
def TrunFields.front (b : TrunFields) : Bytes := b.version.bytes ++ b.flags.bytes

def TrunFields.optional (b : TrunFields) : Bytes :=
  field b.flags TRUN_FLAG_DATA_OFFSET_PRESENT b.data_offset ++
    field b.flags TRUN_FLAG_FIRST_SAMPLE_FLAGS_PRESENT b.first_sample_flags

@[simp] theorem TrunFields.first_optional (b : TrunFields) : b.first.optional = b.optional := rfl

theorem TrunFields.bytes_eq (b : TrunFields) :
    b.bytes = b.front ++ (beBytes 4 b.samples.length ++
      (b.optional ++ samplesBytes b.flags b.samples)) := by
  simp only [bytes, front, optional, List.append_assoc]

theorem TrunFields.front_length (b : TrunFields) : b.front.length = 4 := by
  rw [front, List.length_append, Word.bytes_length, Word.bytes_length]

theorem samplesBytes_length (flags : Word 3) (samples : List TrunSample) :
    (samplesBytes flags samples).length = samples.length * trunRecordWidth flags.toNat := by
  induction samples with
  | nil => rw [samplesBytes, List.length_nil, List.length_nil, Nat.zero_mul]
  | cons s samples ih =>
      rw [samplesBytes, List.length_append, TrunSample.bytes_length, ih, List.length_cons,
        Nat.succ_mul, Nat.add_comm]

theorem TrunFields.bytes_length (b : TrunFields) :
    b.bytes.length = 8 + b.optional.length + b.samples.length * trunRecordWidth b.flags.toNat := by
  rw [bytes_eq, List.length_append, List.length_append, List.length_append, front_length,
    beBytes_length, samplesBytes_length]
  omega

theorem TrunFields.first_bytes {b : TrunFields} {s : TrunSample} {samples : List TrunSample}
    (hs : b.samples = s :: samples) :
    b.first.bytes = b.front ++ (beBytes 4 1 ++ (b.optional ++ s.bytes b.flags)) := by
  have htake : b.first.samples = [s] := by rw [first_samples, hs]; rfl
  rw [bytes_eq, htake, samplesBytes, samplesBytes, List.append_nil]
  rfl

theorem TrunFields.first_firstSampleSize (b : TrunFields) :
    b.first.firstSampleSize = b.firstSampleSize := by
  simp only [firstSampleSize, first_samples, first_flags]
  cases b.samples with
  | nil => rfl
  | cons s samples => rfl

/-! ## The object -/

theorem trunSample_loc (flags : Nat) (first : Bool) (t : TrunTotals) (m : Mem) (p : Nat) :
    ((trunSample flags first t).val m p).firstSampleDurationLoc =
      if flags &&& TRUN_FLAG_SAMPLE_DURATION_PRESENT ≠ 0 ∧ first then some p
      else t.firstSampleDurationLoc := by
  simp only [trunSample, val_bind, next_bind, val_tell, next_tell, val_readBe, next_readBe,
    next_skip, val_pure, val_readIf, next_readIf, next_pure, bne_zero_ite]
  by_cases hd : flags &&& TRUN_FLAG_SAMPLE_DURATION_PRESENT = 0
  · by_cases hs : flags &&& TRUN_FLAG_SAMPLE_SIZE_PRESENT = 0 <;> simp [hd, hs]
  · by_cases hs : flags &&& TRUN_FLAG_SAMPLE_SIZE_PRESENT = 0 <;> cases first <;> simp [hd, hs]

theorem trunSamples_loc (flags count : Nat) (t : TrunTotals) (m : Mem) (p : Nat) :
    ((trunSamples flags count false t).val m p).firstSampleDurationLoc =
      t.firstSampleDurationLoc := by
  induction count generalizing t p with
  | zero => rfl
  | succ count ih => rw [trunSamples, val_bind, ih, trunSample_loc, if_neg (by simp)]

/-- The location of the first duration, in a `trun`. -/
def IsoBmffBox.durationLoc : IsoBmffBox → Option Nat
  | .full _ _ _ (.trun _ _ _ loc _ _) => loc
  | _ => none

theorem durationLoc_constructTrunBox (sz : Nat) (m : Mem) (p : Nat) :
    ((constructTrunBox sz).val m p).durationLoc =
      if m.be (p + 1) 3 &&& TRUN_FLAG_SAMPLE_DURATION_PRESENT ≠ 0 ∧ m.be (p + 4) 4 ≠ 0 then
        some (p + 8 + ifFlag (m.be (p + 1) 3) TRUN_FLAG_DATA_OFFSET_PRESENT 4 +
          ifFlag (m.be (p + 1) 3) TRUN_FLAG_FIRST_SAMPLE_FLAGS_PRESENT 4)
      else none := by
  simp only [constructTrunBox, val_bind, val_tell, next_tell, val_readBe, next_readBe, next_skip,
    val_pure, IsoBmffBox.durationLoc]
  have hcount : p + 1 + 3 = p + 4 := rfl
  have hnext : p + 4 + 4 = p + 8 := rfl
  rw [hcount, hnext]
  cases hn : m.be (p + 4) 4 with
  | zero => rw [if_neg (by simp)]; rfl
  | succ count =>
      rw [trunSamples, val_bind, trunSamples_loc, trunSample_loc]
      by_cases hd : m.be (p + 1) 3 &&& TRUN_FLAG_SAMPLE_DURATION_PRESENT = 0
      · rw [if_neg (by simp [hd]), if_neg (by simp [hd])]
      · rw [if_pos (by simp [hd]), if_pos (by simp [hd])]

/-- Where the duration of the first sample lies, for a box at `p`. -/
def TrunFields.durationLoc (b : TrunFields) (p : Nat) : Option Nat :=
  if b.flags.toNat &&& TRUN_FLAG_SAMPLE_DURATION_PRESENT ≠ 0 ∧ b.samples.length ≠ 0 then
    some (p + 16 + b.optional.length)
  else none

/-- The object of the run at `p`, with the duration it keeps. -/
def TrunFields.object (b : TrunFields) (p sz duration : Nat) : IsoBmffBox :=
  .full { base := some p, size := sz, type := TRUN } b.version.toNat b.flags.toNat
    (.trun duration b.samples.length (p + 12) (b.durationLoc p) b.firstSampleSize b.flags.toNat)

@[simp] theorem TrunFields.getSize_object (b : TrunFields) (p sz duration : Nat) :
    (b.object p sz duration).getSize = sz := rfl

/-- Bytes behind the run do not change what is parsed of it. -/
theorem flatBox_trun {b : TrunFields} {m : Mem} {p : Nat} {slack : Bytes} (sz : Nat)
    (h : Holds m (p + 8) (b.bytes ++ slack)) :
    flatBox TRUN sz m (p + 8) = b.object p sz b.duration := by
  have hbytes := (holds_append.mp h).1
  rcases constructTrunBox_stored hbytes sz with ⟨loc, hbox⟩
  have hloc := durationLoc_constructTrunBox sz m (p + 8)
  simp only [TrunFields.bytes, holds_append, Word.bytes_length, beBytes_length] at hbytes
  rcases hbytes with ⟨-, hf, hc, -⟩
  have hflags : m.be (p + 8 + 1) 3 = b.flags.toNat := hf.word
  have hcount : m.be (p + 8 + 4) 4 = b.samples.length := hc.be b.count_lt
  have hoptional : p + 8 + 8 + ifFlag b.flags.toNat TRUN_FLAG_DATA_OFFSET_PRESENT 4 +
      ifFlag b.flags.toNat TRUN_FLAG_FIRST_SAMPLE_FLAGS_PRESENT 4 =
        p + 16 + b.optional.length := by
    rw [TrunFields.optional, List.length_append, field_length, field_length]
    omega
  rw [hbox, hflags, hcount, hoptional] at hloc
  change loc = b.durationLoc p at hloc
  change (constructTrunBox sz).val m (p + 8) = _
  rw [hbox, hloc]
  rfl

/-- The first sample alone, in the object of the whole run. -/
theorem TrunFields.object_first {b : TrunFields} (hcount : 1 < b.samples.length)
    (p sz duration : Nat) :
    b.first.object p sz duration =
      .full { base := some p, size := sz, type := TRUN } b.version.toNat b.flags.toNat
        (.trun duration 1 (p + 12) (b.durationLoc p) b.firstSampleSize b.flags.toNat) := by
  have hone : b.first.samples.length = 1 := by
    rw [first_samples, List.length_take]
    omega
  have hloc : b.first.durationLoc p = b.durationLoc p := by
    have hmany : b.samples ≠ [] := List.length_pos_iff.mp (by omega)
    simp [durationLoc, hmany]
  rw [object, hone, hloc, b.first_firstSampleSize]
  rfl

/-- What the truncation of a run should leave: `box` and `m'` from the bytes at `p`. -/
structure Truncated (b : TrunFields) (p : Nat) (m m' : Mem) (box first : IsoBmffBox)
    (rest : List IsoBmffBox) : Prop where
  retiled : Retiled TRUN p (8 + b.bytes.length) m m' box first rest
  kept : ∃ slack, first.getSize = 8 + (b.first.bytes ++ slack).length ∧
    Holds m' p (boxBytes TRUN (b.first.bytes ++ slack))
  record : ∀ i, p + 16 + b.optional.length ≤ i →
    i < p + 16 + b.optional.length + trunRecordWidth b.flags.toNat → m' i = m i
  parsed : ∃ hdr duration loc, first = .full hdr b.version.toNat b.flags.toNat
    (.trun duration (min b.samples.length 1) (p + 12) loc b.firstSampleSize b.flags.toNat)
  getSampleCount : box.sampleCount = first.sampleCount
  getFirstSampleSize : box.getFirstSampleSize = first.getFirstSampleSize

section
variable {b : TrunFields} {p sz duration : Nat} {m m' : Mem} {box found : IsoBmffBox}
  {rest : List IsoBmffBox}

/-- The getters agree when the object is that of the shortened run. -/
theorem Truncated.of_retiled (slack : Bytes) (hbox : box = b.first.object p sz duration)
    (hstored : Holds m' p (boxBytes TRUN (b.first.bytes ++ slack)))
    (hlt : 8 + (b.first.bytes ++ slack).length < 2 ^ 32)
    (hfound : found =
      (flatBox TRUN (8 + (b.first.bytes ++ slack).length) m' (p + 8)).setOffset 0)
    (hretiled : Retiled TRUN p (8 + b.bytes.length) m m' box found rest)
    (hrecord : ∀ i, p + 16 + b.optional.length ≤ i →
      i < p + 16 + b.optional.length + trunRecordWidth b.flags.toNat → m' i = m i) :
    Truncated b p m m' box found rest := by
  have hcount : b.first.samples.length = min b.samples.length 1 := by
    rw [TrunFields.first_samples, List.length_take, Nat.min_comm]
  rw [flatBox_trun _ (headerWords_stored hstored hlt).2] at hfound
  subst hfound hbox
  constructor
  · exact hretiled
  · exact ⟨slack, rfl, hstored⟩
  · exact hrecord
  · exact ⟨_, b.first.duration, _, by rw [← hcount, ← b.first_firstSampleSize]; rfl⟩
  · rfl
  · rfl

/-! ## The words of the truncation -/

/-- A run with at least two samples, cut behind the first one. -/
theorem TrunFields.bytes_split {s : TrunSample} {samples : List TrunSample}
    (hs : b.samples = s :: samples) :
    b.bytes = b.front ++ (beBytes 4 b.samples.length ++
      (b.optional ++ (s.bytes b.flags ++ samplesBytes b.flags samples))) := by
  rw [bytes_eq, hs, samplesBytes]

/-- The new size, the freed bytes and the size of the `skip` box, for `count` samples of `w`
bytes behind `h` bytes. -/
theorem truncate_words {h w count : Nat} (hcount : 1 < count) (hlt : h + count * w < 2 ^ 32) :
    (sub32 (h + count * w) (count * w % 2 ^ 32) + w) % 2 ^ 32 = h + w ∧
      sub32 (h + count * w) (h + w) = (count - 1) * w ∧
      sub32 (count * w % 2 ^ 32) w = (count - 1) * w := by
  have hsplit : count * w = (count - 1) * w + w := by
    rw [← Nat.succ_mul]
    congr 1
    omega
  have htable : count * w % 2 ^ 32 = count * w := Nat.mod_eq_of_lt (by omega)
  rw [htable, sub32_of_le hlt (by omega), sub32_of_le hlt (by omega),
    sub32_of_le (by omega) (by omega)]
  refine ⟨?_, by omega, by omega⟩
  rw [Nat.add_sub_cancel, Nat.mod_eq_of_lt (by omega)]

/-! ## The truncation -/

/-- A run of one sample or none is left alone. -/
theorem truncate_short (hcount : b.samples.length ≤ 1) :
    (b.object p sz duration).truncate m = some (b.object p sz duration, m) := by
  rw [TrunFields.object, IsoBmffBox.truncate, IsoBmffBox.truncateTrun, if_neg (by omega)]

theorem TrunFields.size_eq (b : TrunFields) :
    8 + b.bytes.length =
      16 + b.optional.length + b.samples.length * trunRecordWidth b.flags.toNat := by
  rw [bytes_length]
  omega

/-- Too few bytes are freed for a `skip` box: only the sample count changes. -/
theorem truncate_kept (hcount : 1 < b.samples.length) (hlt : 8 + b.bytes.length < 2 ^ 32)
    (hfreed : (b.samples.length - 1) * trunRecordWidth b.flags.toNat < 8) :
    (b.object p (8 + b.bytes.length) duration).truncate m =
      some (b.first.object p (8 + b.bytes.length) duration, PLAYER_WRITE_U32 m (p + 12) 1) := by
  have hsize := b.size_eq
  rw [hsize] at hlt ⊢
  rcases truncate_words hcount hlt with ⟨hnew, hold, -⟩
  rw [TrunFields.object_first hcount, TrunFields.object, IsoBmffBox.truncate,
    IsoBmffBox.truncateTrun, if_pos hcount]
  simp only [hnew, hold, PLAYER_SIZEOF_SIZE_AND_TAG]
  rw [if_neg (by omega)]

/-- The freed bytes get the header of a `skip` box. -/
theorem truncate_skipped (hcount : 1 < b.samples.length) (hlt : 8 + b.bytes.length < 2 ^ 32)
    (hfreed : 8 ≤ (b.samples.length - 1) * trunRecordWidth b.flags.toNat) :
    (b.object p (8 + b.bytes.length) duration).truncate m =
      some (b.first.object p (16 + b.optional.length + trunRecordWidth b.flags.toNat) duration,
        SkipIsoBmffBox
          (PLAYER_WRITE_U32 (PLAYER_WRITE_U32 m (p + 12) 1) p
            (16 + b.optional.length + trunRecordWidth b.flags.toNat))
          ((b.samples.length - 1) * trunRecordWidth b.flags.toNat)
          (p + (16 + b.optional.length + trunRecordWidth b.flags.toNat))) := by
  have hsize := b.size_eq
  rw [hsize] at hlt ⊢
  rcases truncate_words hcount hlt with ⟨hnew, hold, hskip⟩
  rw [TrunFields.object_first hcount, TrunFields.object, IsoBmffBox.truncate,
    IsoBmffBox.truncateTrun, if_pos hcount]
  simp only [hnew, hold, hskip, PLAYER_SIZEOF_SIZE_AND_TAG]
  rw [if_pos hfreed]
  rfl

/-- The stored run with its count replaced by one. -/
theorem holds_counted {s : TrunSample} {samples : List TrunSample}
    (hs : b.samples = s :: samples) (h : Holds m p (boxBytes TRUN b.bytes)) :
    Holds (PLAYER_WRITE_U32 m (p + 12) 1) p (beBytes 4 (8 + b.bytes.length) ++
      (TRUN.bytes ++ (b.first.bytes ++ samplesBytes b.flags samples))) := by
  have hfront : (beBytes 4 (8 + b.bytes.length) ++ (TRUN.bytes ++ b.front)).length = 12 := by
    rw [List.length_append, List.length_append, beBytes_length, b.front_length]
    rfl
  have hstored : Holds m p ((beBytes 4 (8 + b.bytes.length) ++ (TRUN.bytes ++ b.front)) ++
      (beBytes 4 b.samples.length ++ (b.optional ++ (s.bytes b.flags ++
        samplesBytes b.flags samples)))) := by
    simp only [List.append_assoc]
    rw [← TrunFields.bytes_split hs]
    exact h
  have hwords : (beBytes 4 1).length = (beBytes 4 b.samples.length).length := by
    rw [beBytes_length, beBytes_length]
  have hwrite := hstored.replace (q := p + 12) (by rw [hfront]) hwords
  rw [PLAYER_WRITE_U32, TrunFields.first_bytes hs]
  simpa only [List.append_assoc] using hwrite

theorem first_length {s : TrunSample} {samples : List TrunSample}
    (hs : b.samples = s :: samples) :
    8 + b.first.bytes.length = 16 + b.optional.length + trunRecordWidth b.flags.toNat ∧
      (samplesBytes b.flags samples).length =
        (b.samples.length - 1) * trunRecordWidth b.flags.toNat := by
  constructor
  · rw [TrunFields.first_bytes hs, List.length_append, List.length_append, List.length_append,
      b.front_length, beBytes_length, TrunSample.bytes_length]
    omega
  · rw [samplesBytes_length, hs, List.length_cons, Nat.add_sub_cancel]

/-- The first sample and the records behind it are all of the run. -/
theorem first_append_length {s : TrunSample} {samples : List TrunSample}
    (hs : b.samples = s :: samples) :
    (b.first.bytes ++ samplesBytes b.flags samples).length = b.bytes.length := by
  have hsize := b.size_eq
  rcases first_length hs with ⟨hfirst, hrest⟩
  rw [hs, List.length_cons, Nat.succ_mul] at hsize
  rw [hs, List.length_cons, Nat.add_sub_cancel] at hrest
  rw [List.length_append, hrest]
  omega

theorem flat_trun : Flat TRUN := ⟨by decide, by decide⟩

theorem truncated_short (hcount : b.samples.length ≤ 1)
    (hbox : box = b.object p (8 + b.bytes.length) duration) (hlt : 8 + b.bytes.length < 2 ^ 32)
    (h : Holds m p (boxBytes TRUN b.bytes)) :
    ∃ found rest, Truncated b p m m box found rest := by
  have hsame : b.first = b := by
    rcases b with ⟨version, flags, data_offset, first_sample_flags, samples, count_lt⟩
    simp only [TrunFields.first, TrunFields.mk.injEq, true_and]
    exact List.take_of_length_le hcount
  have hretiled := Retiled.alone (m := m) flat_trun h hlt (congrArg IsoBmffBox.getSize hbox)
    fun _ _ => rfl
  have hbytes : b.bytes = b.first.bytes ++ [] := by rw [hsame, List.append_nil]
  rw [hbytes] at h hlt
  refine ⟨_, _, Truncated.of_retiled [] (hsame.symm ▸ hbox) h hlt ?_ hretiled fun _ _ _ => rfl⟩
  rw [← hbytes]

theorem truncated_kept {s : TrunSample} {samples : List TrunSample} (hs : b.samples = s :: samples)
    (hbox : box = b.first.object p (8 + b.bytes.length) duration)
    (hlt : 8 + b.bytes.length < 2 ^ 32) (h : Holds m p (boxBytes TRUN b.bytes)) :
    ∃ found rest, Truncated b p m (PLAYER_WRITE_U32 m (p + 12) 1) box found rest := by
  have hcounted := holds_counted hs h
  have hlength := first_append_length hs
  rw [← hlength] at hcounted hlt hbox
  have houtside : ∀ i, i < p ∨
      p + (8 + (b.first.bytes ++ samplesBytes b.flags samples).length) ≤ i →
        PLAYER_WRITE_U32 m (p + 12) 1 i = m i := by
    intro i hi
    have hsize := b.size_eq
    exact PLAYER_WRITE_U32_outside (by omega)
  have hretiled := Retiled.alone flat_trun hcounted hlt (congrArg IsoBmffBox.getSize hbox) houtside
  rw [hlength] at hretiled
  refine ⟨_, _, Truncated.of_retiled _ hbox hcounted hlt (by rw [hlength]) hretiled ?_⟩
  intro i hlow hhigh
  exact PLAYER_WRITE_U32_outside (by omega)

theorem truncated_skipped {s : TrunSample} {samples : List TrunSample}
    (hs : b.samples = s :: samples)
    (hbox : box = b.first.object p (8 + b.first.bytes.length) duration)
    (hlt : 8 + b.bytes.length < 2 ^ 32) (h : Holds m p (boxBytes TRUN b.bytes))
    (hfreed : 8 ≤ (samplesBytes b.flags samples).length) :
    ∃ found rest, Truncated b p m
      (SkipIsoBmffBox (PLAYER_WRITE_U32 (PLAYER_WRITE_U32 m (p + 12) 1) p
          (8 + b.first.bytes.length)) (samplesBytes b.flags samples).length
        (p + (8 + b.first.bytes.length))) box found rest := by
  have hskip := holds_skip (holds_counted hs h) hfreed
  rcases first_length hs with ⟨hfirst, hrest⟩
  have hsize := b.size_eq
  rw [hs, List.length_cons, Nat.succ_mul] at hsize
  rw [hs, List.length_cons, Nat.add_sub_cancel] at hrest
  have htotal : 8 + b.first.bytes.length +
      (8 + ((samplesBytes b.flags samples).drop 8).length) = 8 + b.bytes.length := by
    rw [List.length_drop]
    omega
  have hwrites : ∀ i, i < p ∨ p + 16 ≤ i → i < p + (8 + b.first.bytes.length) ∨
      p + (8 + b.bytes.length) ≤ i →
      SkipIsoBmffBox (PLAYER_WRITE_U32 (PLAYER_WRITE_U32 m (p + 12) 1) p
          (8 + b.first.bytes.length)) (samplesBytes b.flags samples).length
        (p + (8 + b.first.bytes.length)) i = m i := by
    intro i hfront hbehind
    rw [SkipIsoBmffBox_outside (by omega), PLAYER_WRITE_U32_outside (by omega),
      PLAYER_WRITE_U32_outside (by omega)]
  rcases Retiled.skipped flat_trun hskip htotal hlt (congrArg IsoBmffBox.getSize hbox)
    (fun i hi => hwrites i (by omega) (by omega)) with ⟨skip, hretiled⟩
  refine ⟨_, _, Truncated.of_retiled [] hbox ?_ ?_ ?_ hretiled ?_⟩
  · rw [List.append_nil]
    exact (holds_append.mp hskip).1
  · rw [List.append_nil]
    omega
  · rw [List.append_nil]
  · intro i hlow hhigh
    exact hwrites i (by omega) (by omega)

/-- Truncating a stored run leaves its first sample, in a box that fills the bytes of
the old one or in front of one `skip` box, and an object that agrees with the box. -/
theorem TrunFields.truncate_truncated (b : TrunFields) (m : Mem) (p : Nat)
    (hlt : 8 + b.bytes.length < 2 ^ 32) (h : Holds m p (boxBytes TRUN b.bytes)) :
    ∃ box m' found rest,
      ((constructTrunBox (8 + b.bytes.length)).val m (p + 8)).truncate m = some (box, m') ∧
        Truncated b p m m' box found rest := by
  have hbody := (headerWords_stored h hlt).2
  rw [← List.append_nil b.bytes] at hbody
  have hobject : (constructTrunBox (8 + b.bytes.length)).val m (p + 8) =
      b.object p (8 + b.bytes.length) b.duration := flatBox_trun _ hbody
  rw [hobject]
  rcases Nat.lt_or_ge 1 b.samples.length with hcount | hcount
  · obtain ⟨s, samples, hs⟩ := List.exists_cons_of_length_pos (Nat.lt_of_succ_lt hcount)
    rcases first_length hs with ⟨hfirst, hrest⟩
    rcases Nat.lt_or_ge ((b.samples.length - 1) * trunRecordWidth b.flags.toNat) 8 with
      hfreed | hfreed
    · rcases truncated_kept hs rfl hlt h with ⟨found, rest, htruncated⟩
      exact ⟨_, _, found, rest, truncate_kept hcount hlt hfreed, htruncated⟩
    · have hbox := @truncate_skipped b p b.duration m hcount hlt hfreed
      rw [← hrest, ← hfirst] at hbox
      rcases truncated_skipped hs rfl hlt h (hrest ▸ hfreed) with ⟨found, rest, htruncated⟩
      exact ⟨_, _, found, rest, hbox, htruncated⟩
  · rcases truncated_short hcount rfl hlt h with ⟨found, rest, htruncated⟩
    exact ⟨_, m, found, rest, truncate_short hcount, htruncated⟩

end

/-- Three samples with a size each, of which the last two make a `skip` box. -/
def threeSamples : TrunFields :=
  ⟨.zero, .ofNat 0x201, .ofNat 100, .zero,
    [⟨.zero, .ofNat 7, .zero, .zero⟩, ⟨.zero, .ofNat 8, .zero, .zero⟩,
      ⟨.zero, .ofNat 9, .zero, .zero⟩], by decide⟩

theorem threeSamples_truncated : ∃ box m' found rest,
    ((constructTrunBox (8 + threeSamples.bytes.length)).val
        (Mem.ofBytes (boxBytes TRUN threeSamples.bytes) fun _ => 0) (0 + 8)).truncate
      (Mem.ofBytes (boxBytes TRUN threeSamples.bytes) fun _ => 0) = some (box, m') ∧
    Truncated threeSamples 0 (Mem.ofBytes (boxBytes TRUN threeSamples.bytes) fun _ => 0) m' box
      found rest :=
  threeSamples.truncate_truncated _ 0 (by decide) (holds_ofBytes _ _)

end PlayerInterface.IsoBmff
