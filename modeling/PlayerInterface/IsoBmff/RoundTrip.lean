import PlayerInterface.IsoBmff.Extent
import PlayerInterface.IsoBmff.Termination
import PlayerInterface.IsoBmff.Serialise

/-!
# Parse undoes serialise

A leaf parser on the bytes of its layout sees the fields that were stored, and
the box loops on the bytes of a forest rebuild its shape.
-/

namespace PlayerInterface.IsoBmff

open PlayerInterface.Core Reader

/-! ## Fields in memory -/

theorem version_stored {m : Mem} {p : Nat} {v : Bool} (h : Holds m p (versionByte v)) :
    m.be p 1 = if v then 1 else 0 := by
  have hp : m p = if v then 1 else 0 := h.1
  rw [m.be_one, hp]
  cases v <;> rfl

@[simp] theorem versionByte_length (v : Bool) : (versionByte v).length = 1 := rfl

@[simp] theorem field_length (flags : Word 3) (mask : Nat) {width : Nat} (w : Word width) :
    (field flags mask w).length = ifFlag flags.toNat mask width := by
  unfold field ifFlag
  split <;> simp

/-- Reading a field under its flag gives the value a getter should show. -/
theorem field_stored {m : Mem} {p mask width : Nat} {flags : Word 3} {w : Word width}
    (h : Holds m p (field flags mask w)) :
    (if flags.toNat &&& mask ≠ 0 then m.be p width else 0) = fieldValue flags mask w := by
  unfold fieldValue
  by_cases hf : flags.toNat &&& mask ≠ 0
  · rw [field, if_pos hf] at h
    rw [if_pos hf, if_pos hf, h.word]
  · rw [if_neg hf, if_neg hf]

theorem ifVersion_one (v : Bool) :
    ifVersion (if v then 1 else 0) 1 16 8 = timeWidth v + timeWidth v := by
  cases v <;> rfl

theorem ifVersion_one_time (v : Bool) :
    ifVersion (if v then 1 else 0) 1 8 4 = timeWidth v := by
  cases v <;> rfl

/-! ## Leaf parsers -/

theorem constructTimeScaleBox_stored {type : FourCC} {body : Nat → Nat → FullBody}
    {b : TimeScaleFields} {m : Mem} {p : Nat} (h : Holds m p b.bytes) (sz : Nat) :
    (constructTimeScaleBox type body sz).val m p =
      .full { base := some (p - 8), size := sz, type } (if b.version1 then 1 else 0) b.flags.toNat
        (body b.timescale.toNat (p + 4 + (timeWidth b.version1 + timeWidth b.version1))) := by
  simp only [TimeScaleFields.bytes, holds_append, versionByte_length, Word.bytes_length] at h
  rcases h with ⟨hv, hf, -, -, ht, -⟩
  have ht' : m.be (p + 1 + 3 + (timeWidth b.version1 + timeWidth b.version1)) 4 =
      b.timescale.toNat := by
    rw [← ht.word, Nat.add_assoc (p + 1 + 3)]
  simp only [constructTimeScaleBox, val_bind, val_tell, next_tell, val_readBe,
    next_readBe, next_skip, val_pure, version_stored hv, hf.word, ifVersion_one, ht']

theorem constructTfdtBox_stored {b : TfdtFields} {m : Mem} {p : Nat} (h : Holds m p b.bytes)
    (sz : Nat) :
    (constructTfdtBox sz).val m p =
      .full { size := sz, type := TFDT } (if b.version1 then 1 else 0) b.flags.toNat
        (.tfdt b.baseMediaDecodeTime.toNat (p + 4)) := by
  simp only [TfdtFields.bytes, holds_append, versionByte_length, Word.bytes_length] at h
  rcases h with ⟨hv, hf, ht⟩
  simp only [constructTfdtBox, val_bind, val_tell, next_tell, val_readBe, next_readBe,
    val_pure, version_stored hv, hf.word, ifVersion_one_time, ht.word]

theorem constructPrftBox_stored {b : PrftFields} {m : Mem} {p : Nat} (h : Holds m p b.bytes)
    (sz : Nat) :
    (constructPrftBox sz).val m p =
      .full { size := sz, type := PRFT } b.version.toNat b.flags.toNat
        (.prft b.reference_track_ID.toNat b.ntp_timestamp.toNat b.media_time.toNat) := by
  simp only [PrftFields.bytes, holds_append, Word.bytes_length] at h
  rcases h with ⟨hv, hf, ht, hn, hm⟩
  simp only [constructPrftBox, val_bind, val_readBe, next_readBe, val_pure, hv.word,
    hf.word, ht.word, hn.word, hm.word]

theorem bne_zero_ite {α : Type} (flags mask : Nat) (a b : α) :
    (if (flags &&& mask != 0) = true then a else b) = if flags &&& mask ≠ 0 then a else b := by
  by_cases h : flags &&& mask = 0 <;> simp [h]

/-- The cursor behind a word that is read under its flag. -/
theorem next_field (flags mask p width : Nat) :
    (if flags &&& mask ≠ 0 then p + width else p) = p + ifFlag flags mask width := by
  unfold ifFlag
  split <;> rfl

theorem constructTfhdBox_stored {b : TfhdFields} {m : Mem} {p : Nat} (h : Holds m p b.bytes)
    (sz : Nat) :
    ∃ loc, (constructTfhdBox sz).val m p =
      .full { base := some (p - 8), size := sz, type := TFHD } b.version.toNat b.flags.toNat
        (.tfhd
          (fieldValue b.flags TFHD_FLAG_DEFAULT_SAMPLE_DURATION_PRESENT b.default_sample_duration)
          loc
          (fieldValue b.flags TFHD_FLAG_DEFAULT_SAMPLE_SIZE_PRESENT b.default_sample_size)
          b.flags.toNat) := by
  simp only [TfhdFields.bytes, holds_append, Word.bytes_length, field_length] at h
  rcases h with ⟨hv, hf, -, -, -, hd, hs, -⟩
  have hduration := field_stored hd
  have hsize := field_stored hs
  simp only [constructTfhdBox, val_bind, next_bind, val_tell, next_tell, val_readBe, next_readBe,
    next_skip, val_pure, val_readIf, next_readIf, next_pure, hv.word, hf.word, bne_zero_ite,
    next_field, apply_ite Prod.fst]
  exact ⟨_, by rw [hduration, hsize]⟩

/-! ## Samples -/

@[simp] theorem TrunSample.bytes_length (flags : Word 3) (s : TrunSample) :
    (s.bytes flags).length = trunRecordWidth flags.toNat := by
  simp only [TrunSample.bytes, List.length_append, field_length, trunRecordWidth, trunReadWidth]
  omega

/-- One record adds its duration and, for the first sample, gives its size. -/
theorem trunSample_stored {flags : Word 3} {s : TrunSample} {m : Mem} {p : Nat}
    (h : Holds m p (s.bytes flags)) {first : Bool} {t : TrunTotals}
    (ht : t.totalSampleDuration < 2 ^ 64) (hz : first = true → t.firstSampleSize = 0) :
    ((trunSample flags.toNat first t).val m p).totalSampleDuration =
        (t.totalSampleDuration +
          fieldValue flags TRUN_FLAG_SAMPLE_DURATION_PRESENT s.sample_duration) % 2 ^ 64 ∧
      ((trunSample flags.toNat first t).val m p).firstSampleSize =
        if first then fieldValue flags TRUN_FLAG_SAMPLE_SIZE_PRESENT s.sample_size
        else t.firstSampleSize := by
  simp only [TrunSample.bytes, holds_append, field_length] at h
  rcases h with ⟨hd, hs, -⟩
  have hduration := field_stored hd
  have hsize := field_stored hs
  rw [← hduration, ← hsize]
  simp only [trunSample, val_bind, next_bind, val_tell, next_tell, val_readBe, next_readBe,
    next_skip, val_pure, val_readIf, next_readIf, next_pure, bne_zero_ite, next_field]
  by_cases hdf : flags.toNat &&& TRUN_FLAG_SAMPLE_DURATION_PRESENT = 0
  · by_cases hsf : flags.toNat &&& TRUN_FLAG_SAMPLE_SIZE_PRESENT = 0
    · simp only [hdf, hsf, ne_eq, not_true_eq_false, if_false, Nat.add_zero]
      exact ⟨(Nat.mod_eq_of_lt ht).symm, by cases first <;> simp_all⟩
    · simp only [hdf, hsf, ne_eq, not_true_eq_false, not_false_eq_true, if_false, if_true,
        Nat.add_zero]
      exact ⟨(Nat.mod_eq_of_lt ht).symm, trivial⟩
  · by_cases hsf : flags.toNat &&& TRUN_FLAG_SAMPLE_SIZE_PRESENT = 0
    · simp only [hdf, hsf, ne_eq, not_true_eq_false, not_false_eq_true, if_false, if_true]
      exact ⟨trivial, by cases first <;> simp_all⟩
    · simp only [hdf, hsf, ne_eq, not_false_eq_true, if_true, and_self]

/-- The sample loop sums the durations of the records it passes. -/
theorem trunSamples_stored {flags : Word 3} {samples : List TrunSample} {m : Mem} {p : Nat}
    (h : Holds m p (samplesBytes flags samples)) {first : Bool} {t : TrunTotals}
    (ht : t.totalSampleDuration < 2 ^ 64) (hz : first = true → t.firstSampleSize = 0) :
    ((trunSamples flags.toNat samples.length first t).val m p).totalSampleDuration =
        (t.totalSampleDuration + (samples.map fun s =>
          fieldValue flags TRUN_FLAG_SAMPLE_DURATION_PRESENT s.sample_duration).sum) % 2 ^ 64 ∧
      ((trunSamples flags.toNat samples.length first t).val m p).firstSampleSize =
        match first, samples with
        | true, s :: _ => fieldValue flags TRUN_FLAG_SAMPLE_SIZE_PRESENT s.sample_size
        | _, _ => t.firstSampleSize := by
  induction samples generalizing p first t with
  | nil =>
      refine ⟨?_, by cases first <;> rfl⟩
      simpa [trunSamples] using (Nat.mod_eq_of_lt ht).symm
  | cons s samples ih =>
      rw [samplesBytes, holds_append, TrunSample.bytes_length] at h
      have hstep := trunSample_stored h.1 ht hz
      have hlt : ((trunSample flags.toNat first t).val m p).totalSampleDuration < 2 ^ 64 := by
        rw [hstep.1]
        exact Nat.mod_lt _ (by decide)
      have hrest := ih h.2 hlt (fun hf => absurd hf Bool.false_ne_true)
      simp only [List.length_cons, trunSamples, val_bind, next_trunSample, hrest.1, hrest.2,
        hstep.1, hstep.2, List.map_cons, List.sum_cons]
      refine ⟨by rw [Nat.mod_add_mod, Nat.add_assoc], ?_⟩
      cases first <;> rfl

theorem fieldValue_lt (flags : Word 3) (mask : Nat) {width : Nat} (w : Word width) :
    fieldValue flags mask w < 256 ^ width := by
  unfold fieldValue
  split
  · exact w.lt
  · exact Nat.pow_pos (by decide)

/-- As many 32-bit durations as a 32-bit count allows add up in 64 bits. -/
theorem TrunFields.duration_lt (b : TrunFields) : b.duration < 2 ^ 64 := by
  have hsum : ∀ samples : List TrunSample,
      (samples.map fun s => fieldValue b.flags TRUN_FLAG_SAMPLE_DURATION_PRESENT
        s.sample_duration).sum ≤ samples.length * (2 ^ 32 - 1) := by
    intro samples
    induction samples with
    | nil => simp
    | cons s samples ih =>
        have hlt := fieldValue_lt b.flags TRUN_FLAG_SAMPLE_DURATION_PRESENT s.sample_duration
        simp only [List.map_cons, List.sum_cons, List.length_cons, Nat.succ_mul]
        omega
  have hcount : b.samples.length * (2 ^ 32 - 1) ≤ (2 ^ 32 - 1) * (2 ^ 32 - 1) :=
    Nat.mul_le_mul_right _ (Nat.le_sub_one_of_lt b.count_lt)
  exact Nat.lt_of_le_of_lt (Nat.le_trans (hsum b.samples) hcount) (by decide)

theorem constructTrunBox_stored {b : TrunFields} {m : Mem} {p : Nat} (h : Holds m p b.bytes)
    (sz : Nat) :
    ∃ loc, (constructTrunBox sz).val m p =
      .full { base := some (p - 8), size := sz, type := TRUN } b.version.toNat b.flags.toNat
        (.trun b.duration b.samples.length (p + 4) loc b.firstSampleSize b.flags.toNat) := by
  simp only [TrunFields.bytes, holds_append, Word.bytes_length, beBytes_length, field_length] at h
  rcases h with ⟨hv, hf, hc, -, -, hsamples⟩
  have hstored := @trunSamples_stored b.flags b.samples m _ hsamples true {} (by decide)
    (fun _ => rfl)
  have htotal : (({} : TrunTotals).totalSampleDuration + b.duration) % 2 ^ 64 = b.duration := by
    rw [Nat.zero_add]
    exact Nat.mod_eq_of_lt b.duration_lt
  simp only [constructTrunBox, val_bind, val_tell, next_tell, val_readBe, next_readBe, next_skip,
    val_pure, hv.word, hf.word, hc.be b.count_lt]
  rw [hstored.1, hstored.2]
  change ∃ loc, IsoBmffBox.full _ _ _
    (.trun ((({} : TrunTotals).totalSampleDuration + b.duration) % 2 ^ 64) _ _ _ _ _) = _
  rw [htotal]
  cases hs : b.samples with
  | nil => exact ⟨_, by simp only [TrunFields.firstSampleSize, hs]; rfl⟩
  | cons s samples => exact ⟨_, by simp only [TrunFields.firstSampleSize, hs]; rfl⟩

/-! ## Event messages -/

/-- Both strings of an emsg, read from a size that has room for them. -/
theorem readEmsgStrings_stored {scheme value : CString} {m : Mem} {p len : Nat}
    (h : Holds m p (scheme.bytes ++ value.bytes)) (hl : len < 2 ^ 32)
    (hlen : (scheme.bytes ++ value.bytes).length ≤ len) :
    (readEmsgStrings len).val m p = ⟨some scheme.bytes, some value.bytes,
        len - (scheme.bytes ++ value.bytes).length⟩ ∧
      (readEmsgStrings len).next m p = p + (scheme.bytes ++ value.bytes).length := by
  simp only [List.length_append, CString.bytes_length] at hlen ⊢
  rw [holds_append, CString.bytes_length] at h
  have hscheme := h.1.cstring (show scheme.chars.length < len by omega)
  have hvalue := h.2.cstring (show value.chars.length < len - (scheme.chars.length + 1) by omega)
  obtain ⟨hval, hnext, -⟩ := readEmsgStrings_some hl hscheme
  obtain ⟨hval', hnext', -⟩ := readEmsgValue_some (m.slice p (scheme.chars.length + 1)) hvalue
  have hs₁ : m.slice p (scheme.chars.length + 1) = scheme.bytes := by
    have hslice := h.1.slice
    rwa [CString.bytes_length] at hslice
  have hs₂ : m.slice (p + (scheme.chars.length + 1)) (value.chars.length + 1) = value.bytes := by
    have hslice := h.2.slice
    rwa [CString.bytes_length] at hslice
  rw [hval, hnext, hval', hnext', hs₁, hs₂]
  rw [sub32_of_le (by omega) (by omega)]
  exact ⟨by rw [Nat.sub_sub], by rw [Nat.add_assoc]⟩

theorem readEmsgMessage_stored {message : Bytes} {m : Mem} {p : Nat} (h : Holds m p message) :
    (((readEmsgMessage message.length).val m p).1.getD [] = message) ∧
      ((readEmsgMessage message.length).val m p).2 = message.length := by
  cases message with
  | nil => exact ⟨rfl, rfl⟩
  | cons c message =>
      have hslice := h.slice
      simp only [List.length_cons] at hslice
      simp [readEmsgMessage, hslice]

/-- The four words of an emsg, in memory one after the other. -/
theorem emsgTimes_stored {timescale event_duration id : Word 4} {width : Nat}
    {presentation_time : Word width} {m : Mem} {p : Nat}
    (h : Holds m p (timescale.bytes ++ (presentation_time.bytes ++
      (event_duration.bytes ++ id.bytes)))) :
    m.be p 4 = timescale.toNat ∧ m.be (p + 4) width = presentation_time.toNat ∧
      m.be (p + 4 + width) 4 = event_duration.toNat ∧
      m.be (p + 4 + width + 4) 4 = id.toNat := by
  simp only [holds_append, Word.bytes_length] at h
  rcases h with ⟨ht, hp, hd, hi⟩
  exact ⟨ht.word, hp.word, hd.word, hi.word⟩

theorem emsgFields_version1 {timescale event_duration id : Word 4} {presentation_time : Word 8}
    {scheme value : CString} {message : Bytes} {m : Mem} {p rest : Nat} (sz flags : Nat)
    (h : Holds m p ((timescale.bytes ++ (presentation_time.bytes ++
      (event_duration.bytes ++ id.bytes))) ++ ((scheme.bytes ++ value.bytes) ++ message)))
    (hrest : rest = 20 + ((scheme.bytes ++ value.bytes).length + message.length))
    (hlt : rest < 2 ^ 32) :
    ∃ data, (emsgFields sz 1 flags rest).val m p =
        .full { size := sz, type := EMSG } 1 flags
          (.emsg timescale.toNat event_duration.toNat id.toNat 0 presentation_time.toNat
            (some scheme.bytes) (some value.bytes) data message.length) ∧
      data.getD [] = message := by
  rcases holds_append.mp h with ⟨htimes, h⟩
  rcases holds_append.mp h with ⟨hstrings, hmessage⟩
  rcases emsgTimes_stored htimes with ⟨ht, hp, hd, hi⟩
  simp only [List.length_append, Word.bytes_length, Nat.reduceAdd] at hstrings hmessage
  have hsub : sub32 rest 20 = (scheme.bytes ++ value.bytes).length + message.length := by
    rw [sub32_of_le hlt (by omega)]
    omega
  have hread := readEmsgStrings_stored hstrings
    (show (scheme.bytes ++ value.bytes).length + message.length < 2 ^ 32 by omega) (by omega)
  rw [← List.length_append] at hmessage
  have hmsg := readEmsgMessage_stored hmessage
  simp only [Nat.add_assoc, Nat.reduceAdd] at hp hd hi hread hmsg
  simp only [emsgFields, if_true, val_bind, val_readBe, next_readBe, val_pure, ht, hp, hd, hi,
    hsub, Nat.add_assoc, Nat.reduceAdd, hread.1, hread.2, Nat.add_sub_cancel_left]
  rw [hmsg.2]
  exact ⟨_, rfl, hmsg.1⟩

theorem emsgFields_version0 {timescale presentation_time event_duration id : Word 4}
    {scheme value : CString} {message : Bytes} {m : Mem} {p rest : Nat} (sz flags : Nat)
    (h : Holds m p ((scheme.bytes ++ value.bytes) ++ ((timescale.bytes ++
      (presentation_time.bytes ++ (event_duration.bytes ++ id.bytes))) ++ message)))
    (hrest : rest = (scheme.bytes ++ value.bytes).length + (16 + message.length))
    (hlt : rest < 2 ^ 32) :
    ∃ data, (emsgFields sz 0 flags rest).val m p =
        .full { size := sz, type := EMSG } 0 flags
          (.emsg timescale.toNat event_duration.toNat id.toNat presentation_time.toNat 0
            (some scheme.bytes) (some value.bytes) data message.length) ∧
      data.getD [] = message := by
  rcases holds_append.mp h with ⟨hstrings, h⟩
  rcases holds_append.mp h with ⟨htimes, hmessage⟩
  rcases emsgTimes_stored htimes with ⟨ht, hp, hd, hi⟩
  have hread := readEmsgStrings_stored hstrings hlt (by omega)
  have hleft : rest - (scheme.bytes ++ value.bytes).length = 16 + message.length := by omega
  have hsub : sub32 (16 + message.length) 16 = message.length := by
    rw [sub32_of_le (by omega) (by omega)]
    omega
  simp only [List.length_append, Word.bytes_length, Nat.reduceAdd] at hmessage
  rw [← List.length_append] at hmessage
  have hmsg := readEmsgMessage_stored hmessage
  simp only [Nat.add_assoc, Nat.reduceAdd] at ht hp hd hi hmsg
  simp only [emsgFields, Nat.zero_ne_one, if_false, if_true, val_bind, val_readBe, next_readBe,
    val_pure, hread.1, hread.2, hleft, hsub, ht, hp, hd, hi, Nat.add_assoc, Nat.reduceAdd]
  rw [hmsg.2]
  exact ⟨_, rfl, hmsg.1⟩

theorem constructEmsgBox_stored {b : EmsgFields} {m : Mem} {p sz : Nat} (h : Holds m p b.bytes)
    (hsz : sz = 8 + b.bytes.length) (hlt : sz < 2 ^ 32) :
    ∃ body, (constructEmsgBox sz).val m p =
        .full { size := sz, type := EMSG } (if b.version1 then 1 else 0) b.flags.toNat body ∧
      body.getters = b.getters := by
  unfold EmsgFields.bytes at h hsz
  rcases holds_append.mp h with ⟨hv, h⟩
  rcases holds_append.mp h with ⟨hf, h⟩
  simp only [versionByte_length, Word.bytes_length] at hf h
  have hbody : (constructEmsgBox sz).val m p =
      (emsgFields sz (if b.version1 then 1 else 0) b.flags.toNat (sub32 sz 12)).val m (p + 1 + 3) := by
    simp only [constructEmsgBox, val_bind, val_readBe, next_readBe, version_stored hv, hf.word]
  rcases b with ⟨v, flags, timescale, time, duration, id, scheme, value, message⟩
  have hlen : 12 ≤ sz := by
    rw [hsz, List.length_append, List.length_append, versionByte_length, Word.bytes_length]
    omega
  rw [hbody, sub32_of_le hlt hlen]
  cases v with
  | true =>
      simp only [if_true, List.length_append, versionByte_length, Word.bytes_length] at h hsz
      have hrest : sz - 12 = 20 + ((scheme.bytes ++ value.bytes).length + message.length) := by
        simp only [timeWidth, if_true] at hsz
        simp only [List.length_append]
        omega
      have hfields := emsgFields_version1 sz flags.toNat h hrest (by omega)
      rcases hfields with ⟨data, hval, hdata⟩
      exact ⟨_, hval, by simp [FullBody.getters, EmsgFields.getters, hdata]⟩
  | false =>
      simp only [Bool.false_eq_true, if_false, List.length_append, versionByte_length,
        Word.bytes_length] at h hsz
      have hrest : sz - 12 = (scheme.bytes ++ value.bytes).length + (16 + message.length) := by
        simp only [timeWidth, Bool.false_eq_true, if_false] at hsz
        simp only [List.length_append]
        omega
      have hfields := emsgFields_version0 sz flags.toNat h hrest (by omega)
      rcases hfields with ⟨data, hval, hdata⟩
      exact ⟨_, hval, by simp [FullBody.getters, EmsgFields.getters, hdata]⟩

/-! ## Dispatch of a leaf -/

/-- The parser a typed leaf is dispatched to; any other type keeps its own. -/
theorem boxKind_other {type : FourCC} (h : type ∉ layoutTypes) :
    boxKind type = .other ∨
      ∃ kind, boxKind type = .leaf kind ∧ kind ∈ [LeafKind.sidx, .mdat, .senc, .saiz] := by
  have hnames := boxKind_names type
  cases hk : boxKind type with
  | other => exact Or.inl rfl
  | container =>
      rw [hk] at hnames
      have hin : ∀ t ∈ [MOOV, MDIA, MOOF, TRAF], t ∈ layoutTypes := by decide
      exact absurd (hin type hnames) h
  | trak =>
      rw [hk] at hnames
      have hin : TRAK ∈ layoutTypes := by decide
      exact absurd (hnames ▸ hin) h
  | leaf kind =>
      rw [hk] at hnames
      have hin : kind.type ∈ layoutTypes ∨ kind ∈ [LeafKind.sidx, .mdat, .senc, .saiz] := by
        cases kind <;> decide
      rcases hin with hin | hin
      · exact absurd (hnames ▸ hin) h
      · exact Or.inr ⟨kind, rfl, hin⟩

/-- A parser without getters of interest shows type, size and offset. -/
theorem view_constructLeaf_other {kind : LeafKind} (h : kind ∈ [LeafKind.sidx, .mdat, .senc, .saiz])
    (sz : Nat) (m : Mem) (p os : Nat) :
    (((constructLeaf kind sz).val m p).setOffset os).view = .leaf kind.type sz os .none := by
  simp only [List.mem_cons, List.not_mem_nil, or_false] at h
  rcases h with rfl | rfl | rfl | rfl
  · rfl
  · rfl
  · rfl
  · rfl

/-- Constructing the body of a stored leaf gives a box that shows what was stored. -/
theorem constructBody_leaf {l : Leaf} {m : Mem} {p : Nat} (h : Holds m p l.body)
    (hlt : 8 + l.body.length < 2 ^ 32) (loop : RunLoop) (tid : Int) {hp : Heap}
    (hm : hp.mem = m) (os : Nat) :
    ∃ box h', constructBody loop ⟨8 + l.body.length, l.type⟩ p tid hp = some (box, h') ∧
      (box.setOffset os).view = .leaf l.type (8 + l.body.length) os l.getters ∧ h'.mem = m := by
  subst hm
  have hdispatch : ∀ kind, boxKind l.type = .leaf kind →
      (((constructLeaf kind (8 + l.body.length)).val hp.mem p).setOffset os).view =
        .leaf l.type (8 + l.body.length) os l.getters →
      ∃ box h', constructBody loop ⟨8 + l.body.length, l.type⟩ p tid hp = some (box, h') ∧
        (box.setOffset os).view = .leaf l.type (8 + l.body.length) os l.getters ∧
        h'.mem = hp.mem := by
    intro kind hk hview
    refine ⟨_, _, ?_, hview, Heap.read_mem hp (constructLeaf kind (8 + l.body.length)) p⟩
    unfold constructBody
    rw [hk]
  cases l with
  | mvhd b =>
      refine hdispatch .mvhd rfl ?_
      simp only [constructLeaf, constructMvhdBox, constructTimeScaleBox_stored h]
      rfl
  | mdhd b =>
      refine hdispatch .mdhd rfl ?_
      simp only [constructLeaf, constructMdhdBox, constructTimeScaleBox_stored h]
      rfl
  | tfdt b =>
      refine hdispatch .tfdt rfl ?_
      simp only [constructLeaf, constructTfdtBox_stored h]
      rfl
  | tfhd b =>
      refine hdispatch .tfhd rfl ?_
      obtain ⟨loc, hval⟩ := constructTfhdBox_stored h (8 + b.bytes.length)
      simp only [constructLeaf, Leaf.body, hval]
      rfl
  | trun b =>
      refine hdispatch .trun rfl ?_
      obtain ⟨loc, hval⟩ := constructTrunBox_stored h (8 + b.bytes.length)
      simp only [constructLeaf, Leaf.body, hval]
      rfl
  | prft b =>
      refine hdispatch .prft rfl ?_
      simp only [constructLeaf, constructPrftBox_stored h]
      rfl
  | emsg b =>
      refine hdispatch .emsg rfl ?_
      obtain ⟨body, hval, hbody⟩ := constructEmsgBox_stored h rfl hlt
      simp only [constructLeaf, Leaf.body, hval, IsoBmffBox.setOffset, IsoBmffBox.view, hbody]
      rfl
  | other type payload =>
      rcases boxKind_other type.2 with hk | ⟨kind, hk, hin⟩
      · refine ⟨.plain { size := 8 + payload.length, type := type.1 }, hp, ?_, rfl, rfl⟩
        unfold constructBody
        simp only [Leaf.type, hk, Leaf.body]
      · refine hdispatch kind hk ?_
        rw [view_constructLeaf_other hin, type_of_boxKind_leaf hk]
        rfl

/-! ## Headers -/

theorem boxBytes_length (type : FourCC) (body : Bytes) :
    (boxBytes type body).length = 8 + body.length := by
  simp [boxBytes, FourCC.bytes]
  omega

theorem boxHeader_length (size : Nat) (type : FourCC) :
    (beBytes 4 size ++ type.bytes).length = 8 := by
  rw [List.length_append, beBytes_length]
  rfl

theorem holds_body {type : FourCC} {body : Bytes} {m : Mem} {p : Nat}
    (h : Holds m p (boxBytes type body)) : Holds m (p + 8) body := by
  have hbody := (holds_append.mp (holds_append.mp h).2).2
  rw [beBytes_length] at hbody
  exact hbody

theorem headerWords_stored {type : FourCC} {body : Bytes} {m : Mem} {p : Nat}
    (h : Holds m p (boxBytes type body)) (hlt : 8 + body.length < 2 ^ 32) :
    headerWords m p = ⟨8 + body.length, type⟩ ∧ Holds m (p + 8) body := by
  refine ⟨?_, holds_body h⟩
  rcases holds_append.mp h with ⟨hsize, h⟩
  rcases (holds_append.mp h).1 with ⟨h0, h1, h2, h3, -⟩
  rw [beBytes_length] at h0 h1 h2 h3
  rw [headerWords_eq, hsize.be hlt, h0, h1, h2, h3]

/-! ## Loops without side effects -/

/-- No size correction and no new track id, here or in any child. -/
def BoxLoop.Quiet : BoxLoop → Prop
  | buffer _ correctBoxSize newTrackId => correctBoxSize = false ∧ newTrackId = -1
  | container _ newTrackId => newTrackId = -1
  | trak _ newTrackId => newTrackId = -1

theorem BoxLoop.Quiet.correct {L : BoxLoop} (hL : L.Quiet) : L.correct = false := by
  cases L with
  | buffer n c tid => exact hL.1
  | container sz tid => rfl
  | trak sz tid => rfl

theorem BoxLoop.Quiet.childTrackId {L : BoxLoop} (hL : L.Quiet) : L.childTrackId = -1 := by
  cases L with
  | buffer n c tid => exact hL.2
  | container sz tid => exact hL
  | trak sz tid => rfl

theorem BoxLoop.Quiet.patch {L : BoxLoop} (hL : L.Quiet) (cur ptr : Nat) (type : FourCC)
    (m : Mem) : L.patch cur ptr type m = m := by
  cases L with
  | buffer n c tid => rfl
  | container sz tid => rfl
  | trak sz tid =>
      have ht : tid = -1 := hL
      simp [BoxLoop.patch, ht]

/-- A loop that leaves the memory alone and hands a track id on to its children. -/
structure BoxLoop.ReadsOnly (tid : Int) (L : BoxLoop) : Prop where
  correct : L.correct = false
  childTrackId : L.childTrackId = tid
  patch : ∀ cur ptr type m, L.patch cur ptr type m = m

theorem BoxLoop.Quiet.readsOnly {L : BoxLoop} (hL : L.Quiet) : L.ReadsOnly (-1) :=
  ⟨hL.correct, hL.childTrackId, hL.patch⟩

theorem BoxLoop.readsOnly_container (sz : Nat) (tid : Int) : (container sz tid).ReadsOnly tid :=
  ⟨rfl, rfl, fun _ _ _ _ => rfl⟩

/-! ## Forests -/

theorem getSize_of_view {box : IsoBmffBox} {t : Tree} {os : Nat}
    (h : (box.setOffset os).view = t.view os) : box.getSize = t.bytes.length := by
  cases t with
  | leaf l =>
      rw [Tree.bytes, boxBytes_length]
      cases box <;> simp only [IsoBmffBox.setOffset, IsoBmffBox.view, Tree.view, BoxView.leaf.injEq,
        reduceCtorEq] at h <;> exact h.2.1
  | node kind children =>
      rw [Tree.bytes, boxBytes_length]
      cases box <;> simp only [IsoBmffBox.setOffset, IsoBmffBox.view, Tree.view, BoxView.node.injEq,
        reduceCtorEq] at h <;> exact h.2.1

/-- A stored box whose header fits the room is constructed from its body. -/
theorem constructBox_stored {loop : RunLoop} {type : FourCC} {body : Bytes} {ptr maxSz : Nat}
    {h : Heap} (hb : Holds h.mem ptr (boxBytes type body)) (hroom : 8 + body.length ≤ maxSz)
    (hlt : maxSz < 2 ^ 32) (tid : Int) :
    constructBox loop ptr maxSz false tid h =
      constructBody loop ⟨8 + body.length, type⟩ (ptr + 8) tid (h.read readHeader ptr) := by
  have hwords := (headerWords_stored hb (by omega)).1
  rw [constructBox_eq hlt, if_neg (by omega)]
  simp only [settle, hwords, Bool.false_eq_true, and_false, if_false]
  rw [if_neg (by omega)]

/-- A loop that leaves boxes with these views and the memory it found. -/
def Rebuilds (loop : RunLoop) (L : BoxLoop) (cur p : Nat) (v : LoopVars) (h : Heap)
    (views : List BoxView) : Prop :=
  ∃ r, loop L cur p v h = some r ∧ viewBoxes r.boxes = views ∧ r.heap.mem = h.mem

theorem Rebuilds.mono {fuel fuel' : Nat} {L : BoxLoop} {cur p : Nat} {v : LoopVars} {h : Heap}
    {views : List BoxView} (hf : fuel ≤ fuel') (hr : Rebuilds (boxLoop fuel) L cur p v h views) :
    Rebuilds (boxLoop fuel') L cur p v h views := by
  rcases hr with ⟨r, hr, hrest⟩
  exact ⟨r, boxLoop_mono hf hr, hrest⟩

/-- A body whose loop returns gives a node over the boxes of the loop. -/
theorem constructBody_node (kind : Container) (os : Nat) {loop : RunLoop} {sz p : Nat} {tid : Int}
    {h : Heap} {views : List BoxView}
    (hcont : Rebuilds loop (.container sz tid) 8 p {} h views)
    (htrak : kind = .trak → Rebuilds loop (.trak sz tid) 8 p {} h views) :
    ∃ box h', constructBody loop ⟨sz, kind.type⟩ p tid h = some (box, h') ∧
      (box.setOffset os).view = .node kind.type sz os views ∧ h'.mem = h.mem := by
  have hcontainer : boxKind kind.type = .container →
      ∃ box h', constructBody loop ⟨sz, kind.type⟩ p tid h = some (box, h') ∧
        (box.setOffset os).view = .node kind.type sz os views ∧ h'.mem = h.mem := by
    intro hk
    rcases hcont with ⟨r, hr, hview, hmem⟩
    refine ⟨.container { size := sz, type := kind.type } r.boxes, r.heap, ?_, ?_, hmem⟩
    · simp only [constructBody, hk, constructContainer, hr]
    · rw [IsoBmffBox.setOffset, IsoBmffBox.view, hview]
  cases kind with
  | moov => exact hcontainer rfl
  | mdia => exact hcontainer rfl
  | moof => exact hcontainer rfl
  | traf => exact hcontainer rfl
  | trak =>
      have hk : boxKind Container.trak.type = .trak := rfl
      rcases htrak rfl with ⟨r, hr, hview, hmem⟩
      refine ⟨.trak { size := sz, type := TRAK } r.boxes r.vars.track_id, r.heap, ?_, ?_, hmem⟩
      · simp only [constructBody, hk, constructTrakBox, hr]
      · rw [IsoBmffBox.setOffset, IsoBmffBox.view, hview]
        rfl

mutual

/-- A stored tree is rebuilt by the construction of its box. A track id to write has no
effect on a tree without a `trak`. -/
theorem tree_stored (t : Tree) (os : Nat) {ptr maxSz : Nat} {tid : Int} {h : Heap}
    (htid : tid = -1 ∨ t.noTrak = true) (hb : Holds h.mem ptr t.bytes)
    (hroom : t.bytes.length ≤ maxSz) (hlt : maxSz < 2 ^ 32) :
    ∃ fuel box h', constructBox (boxLoop fuel) ptr maxSz false tid h = some (box, h') ∧
      (box.setOffset os).view = t.view os ∧ h'.mem = h.mem := by
  cases t with
  | leaf l =>
      rw [Tree.bytes, boxBytes_length] at hroom
      have hbody := (headerWords_stored hb (by omega)).2
      have hleaf := constructBody_leaf hbody (by omega) (boxLoop 0) tid
        (Heap.read_mem h readHeader ptr) os
      rcases hleaf with ⟨box, h', hc, hview, hmem⟩
      exact ⟨0, box, h', by rw [constructBox_stored hb hroom hlt, hc], hview, hmem⟩
  | node kind children =>
      rw [Tree.bytes, boxBytes_length] at hroom
      have hbody := (headerWords_stored hb (by omega)).2
      have hchildren : tid = -1 ∨ forestNoTrak children = true := by
        simp only [Tree.noTrak, Bool.and_eq_true] at htid
        exact htid.imp_right And.right
      have hloop := fun (L : BoxLoop) (hL : L.ReadsOnly tid)
          (hlimit : L.limit = 8 + (forestBytes children).length) =>
        forest_stored children (ptr + 8) {} (h.read readHeader ptr) hL hchildren hlimit (by omega)
          hbody
      rcases hloop (.container (8 + (forestBytes children).length) tid)
        (BoxLoop.readsOnly_container _ tid) rfl with ⟨fuel₁, hcont⟩
      have htrak : kind = .trak → ∃ fuel, Rebuilds (boxLoop fuel)
          (.trak (8 + (forestBytes children).length) tid) 8 (ptr + 8) {} (h.read readHeader ptr)
          (viewForest 8 children) := by
        intro hk
        have hquiet : tid = -1 := by
          rcases htid with ht | ht
          · exact ht
          · rw [hk] at ht
            simp [Tree.noTrak] at ht
        subst hquiet
        exact hloop (.trak (8 + (forestBytes children).length) (-1))
          (BoxLoop.Quiet.readsOnly rfl) rfl
      have hfuel : ∃ fuel₂, kind = .trak → Rebuilds (boxLoop fuel₂)
          (.trak (8 + (forestBytes children).length) tid) 8 (ptr + 8) {} (h.read readHeader ptr)
          (viewForest 8 children) := by
        by_cases hk : kind = .trak
        · exact (htrak hk).imp fun _ hr _ => hr
        · exact ⟨0, fun he => absurd he hk⟩
      rcases hfuel with ⟨fuel₂, htrak⟩
      have hnode := constructBody_node kind os (hcont.mono (Nat.le_max_left fuel₁ fuel₂))
        fun hk => (htrak hk).mono (Nat.le_max_right fuel₁ fuel₂)
      rcases hnode with ⟨box, h', hc, hview, hmem⟩
      refine ⟨max fuel₁ fuel₂, box, h', by rw [constructBox_stored hb hroom hlt, hc], ?_, hmem⟩
      rw [hview, Tree.view]

/-- A stored forest is rebuilt by a loop over it. -/
theorem forest_stored (ts : List Tree) {L : BoxLoop} {cur : Nat} {tid : Int} (ptr : Nat)
    (v : LoopVars) (h : Heap) (hL : L.ReadsOnly tid) (htid : tid = -1 ∨ forestNoTrak ts = true)
    (hlimit : L.limit = cur + (forestBytes ts).length)
    (hlt : L.limit < 2 ^ 32) (hb : Holds h.mem ptr (forestBytes ts)) :
    ∃ fuel, Rebuilds (boxLoop fuel) L cur ptr v h (viewForest cur ts) := by
  cases ts with
  | nil =>
      have hdone : ¬ cur < L.limit := by
        rw [hlimit, forestBytes]
        simp
      exact ⟨1, ⟨[], v, h⟩, by rw [boxLoop, if_neg hdone], rfl, rfl⟩
  | cons t ts =>
      rw [forestBytes, List.length_append] at hlimit
      rw [forestBytes] at hb
      rcases holds_append.mp hb with ⟨ht, hts⟩
      simp only [forestNoTrak, Bool.and_eq_true] at htid
      have hroom : L.room cur = t.bytes.length + (forestBytes ts).length := by
        rw [L.room_eq hlt]
        omega
      have hpos : 0 < t.bytes.length := by
        cases t <;> rw [Tree.bytes, boxBytes_length] <;> omega
      rcases tree_stored t cur (htid.imp_right And.left) ht (by omega) (L.room_lt cur) with
        ⟨fuel₁, box, h₁, hc, hview, hmem⟩
      have hsize := getSize_of_view hview
      have hmod := L.modulus_ge
      have hnext : (cur + box.getSize) % L.modulus = cur + t.bytes.length := by
        rw [hsize, Nat.mod_eq_of_lt (by omega)]
      have hoffset : cur % 2 ^ 32 = cur := Nat.mod_eq_of_lt (by omega)
      rw [← hL.correct, ← hL.childTrackId] at hc
      let vh := L.visit cur ptr (box.setOffset (cur % 2 ^ 32)) v h₁
      have hvisit : (vh.2.move cur (cur + t.bytes.length)).mem = h.mem := by
        rw [Heap.move_mem, L.visit_mem, hL.patch, hmem]
      have hlimit' : L.limit = (cur + t.bytes.length) + (forestBytes ts).length := by omega
      rcases forest_stored ts (ptr + t.bytes.length) vh.1 (vh.2.move cur (cur + t.bytes.length)) hL
        (htid.imp_right And.right) hlimit' hlt (hvisit ▸ hts) with ⟨fuel₂, rest, hrest, hviews, hmem'⟩
      refine ⟨max fuel₁ fuel₂ + 1,
        { rest with boxes := box.setOffset (cur % 2 ^ 32) :: rest.boxes }, ?_, ?_, ?_⟩
      · refine boxLoop_cons (by omega)
          (constructBox_mono (boxLoop_mono (Nat.le_max_left _ _)) (L.room_lt cur) hc) ?_
        rw [hnext, hsize]
        exact boxLoop_mono (Nat.le_max_right _ _) hrest
      · rw [viewBoxes, viewForest, hoffset, hview, hviews]
      · rw [hmem', hvisit]

end

/-! ## The parser -/

/-- A fragment of one track with one sample and an event message. -/
def sampleForest : List Tree :=
  [.node .moof [.node .traf
      [.leaf (.tfdt ⟨true, .zero, ⟨2 ^ 40, by decide⟩⟩),
        .leaf (.trun ⟨.zero, ⟨0x300, by decide⟩, .zero, .zero,
          [⟨⟨1001, by decide⟩, ⟨77, by decide⟩, .zero, .zero⟩], by decide⟩)]],
    .leaf (.other ⟨MDAT, by decide⟩ [1, 2, 3])]

end PlayerInterface.IsoBmff
