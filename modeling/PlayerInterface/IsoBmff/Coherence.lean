import PlayerInterface.Core.Transition
import PlayerInterface.IsoBmff.Truncation

/-!
# Box objects and the buffer they were parsed from

A live object is changed through its setters and its truncation, which also write the
buffer. What a new parse of the box shows agrees with the object as long as every
value fits the field it is written to, and as long as nobody drops or replaces part
of a sum that the object keeps as one number.
-/

namespace PlayerInterface.IsoBmff

open PlayerInterface.Core Reader

/-! ## Calls on a live object -/

inductive SetterCall where
  | setTimeScale (tScale : UInt32)
  | setBaseMDT (mdt : UInt64)
  | setDefaultSampleDuration (default_duration : UInt64)
  | setFirstSampleDuration (sampleDuration : UInt64)
  | truncate

/-- A method that the class of the object does not have changes nothing. -/
def SetterCall.step (s : IsoBmffBox × Mem) : SetterCall → Option (IsoBmffBox × Mem)
  | setTimeScale tScale => some (s.1.setTimeScale tScale.toNat s.2)
  | setBaseMDT mdt => some (s.1.setBaseMDT mdt.toNat s.2)
  | setDefaultSampleDuration d => some (s.1.setDefaultSampleDuration d.toNat s.2)
  | setFirstSampleDuration d => some (s.1.setFirstSampleDuration d.toNat s.2)
  | truncate => s.1.truncate s.2

/-- The box that the header words at `p` announce. -/
def reparse (m : Mem) (p : Nat) : IsoBmffBox :=
  flatBox (headerWords m p).type (headerWords m p).size m (p + 8)

def IsoBmffBox.getters : IsoBmffBox → Getters
  | .full _ _ _ body => body.getters
  | _ => .none

/-- The object shows what a new parse of its box shows. -/
def Coherent (p : Nat) (s : IsoBmffBox × Mem) : Prop := s.1.getters = (reparse s.2 p).getters

/-- The fields a call writes, as a start and a length; a truncation writes the size, the
count and the freed table. -/
def SetterCall.written : IsoBmffBox → SetterCall → List (Nat × Nat)
  | .full _ _ _ (.mvhd _ loc), setTimeScale _ => [(loc, 4)]
  | .full _ _ _ (.mdhd _ loc), setTimeScale _ => [(loc, 4)]
  | .full _ version _ (.tfdt _ loc), setBaseMDT _ => [(loc, ifVersion version 1 8 4)]
  | .full _ _ _ (.tfhd _ (some loc) _ _), setDefaultSampleDuration _ => [(loc, 4)]
  | .full _ _ _ (.trun _ _ _ (some loc) _ _), setFirstSampleDuration _ => [(loc, 4)]
  | .full ⟨some base, _, size, _⟩ _ flags (.trun _ count countLoc _ _ _), truncate =>
      let freed := (count - 1) * trunRecordWidth flags
      [(base, 4), (countLoc, 4), (base + size - freed, freed)]
  | _, _ => []

/-- No byte outside the written fields changes. -/
def Framed (s : IsoBmffBox × Mem) (call : SetterCall) : Prop :=
  ∀ t, call.step s = some t →
    ∀ i, (∀ r ∈ call.written s.1, i < r.1 ∨ r.1 + r.2 ≤ i) → t.2 i = s.2 i

/-- The durations stored in `count` records of `width` bytes from `loc` on. -/
def laterDurations (width : Nat) (m : Mem) (loc : Nat) : Nat → Nat
  | 0 => 0
  | count + 1 => m.be loc 4 + laterDurations width m (loc + width) count

/-- When a call keeps object and buffer in agreement: the value fits the field, and the
other samples of a run add nothing to what the object is told. -/
def Meets (s : IsoBmffBox × Mem) : SetterCall → Prop
  | .setTimeScale _ => True
  | .setBaseMDT mdt =>
      match s.1 with
      | .full _ version _ (.tfdt _ _) => version = 1 ∨ mdt.toNat < 2 ^ 32
      | _ => True
  | .setDefaultSampleDuration d =>
      match s.1 with
      | .full _ _ _ (.tfhd _ (some _) _ _) => d.toNat < 2 ^ 32
      | .full _ _ _ (.tfhd _ none _ _) => d.toNat = 0
      | _ => True
  | .setFirstSampleDuration d =>
      match s.1 with
      | .full _ _ flags (.trun _ count _ (some loc) _ _) =>
          d.toNat % 2 ^ 32 +
            laterDurations (trunRecordWidth flags) s.2 (loc + trunRecordWidth flags) (count - 1) =
              d.toNat
      | .full _ _ _ (.trun _ _ _ none _ _) => d.toNat = 0
      | _ => True
  | .truncate =>
      match s.1 with
      | .full _ _ flags (.trun _ count _ (some loc) _ _) =>
          laterDurations (trunRecordWidth flags) s.2 (loc + trunRecordWidth flags) (count - 1) = 0
      | _ => True

/-- A run of samples that fills its box. Behind a run of one sample or none there may be
bytes left, as when it was truncated. -/
structure StoredRun (b : TrunFields) (slack : Bytes) (m : Mem) (p : Nat) : Prop where
  size_lt : 8 + (b.bytes ++ slack).length < 2 ^ 32
  holds : Holds m p (boxBytes TRUN (b.bytes ++ slack))
  fills : slack = [] ∨ b.samples.length ≤ 1

/-- One of the five boxes lies at `p`. -/
def WellFormed (m : Mem) (p : Nat) : Prop :=
  (headerWords m p).type ∈ [MVHD, MDHD, TFDT, TFHD] ∨ ∃ b slack, StoredRun b slack m p

/-- The live object of the box at `p`, as a transition system. -/
def liveBox (p : Nat) : System (IsoBmffBox × Mem) SetterCall where
  init s := WellFormed s.2 p ∧ s.1 = reparse s.2 p
  step s call := call.step s

/-- The calls return, no state on the way lets object and buffer disagree, and no call
writes outside its fields. -/
structure CoherentRun (p : Nat) (s : IsoBmffBox × Mem) (calls : List SetterCall) : Prop where
  returns : ∃ t, (liveBox p).run s calls = some t
  coherent : (liveBox p).RunAll (Coherent p) s calls
  framed : (liveBox p).RunOk Framed s calls

/-! ## The cached value -/

/-- The value that a setter replaces: time scale, decode time or duration. -/
def IsoBmffBox.cached : IsoBmffBox → Option Nat
  | .full _ _ _ (.mvhd timeScale _) => some timeScale
  | .full _ _ _ (.mdhd timeScale _) => some timeScale
  | .full _ _ _ (.tfdt baseMDT _) => some baseMDT
  | .full _ _ _ (.tfhd duration _ _ _) => some duration
  | .full _ _ _ (.trun duration _ _ _ _ _) => some duration
  | _ => none

def IsoBmffBox.cache (value : Nat) : IsoBmffBox → IsoBmffBox
  | .full hdr version flags (.mvhd _ loc) => .full hdr version flags (.mvhd value loc)
  | .full hdr version flags (.mdhd _ loc) => .full hdr version flags (.mdhd value loc)
  | .full hdr version flags (.tfdt _ loc) => .full hdr version flags (.tfdt value loc)
  | .full hdr version flags (.tfhd _ loc size mFlags) =>
      .full hdr version flags (.tfhd value loc size mFlags)
  | .full hdr version flags (.trun _ count countLoc loc firstSampleSize mFlags) =>
      .full hdr version flags (.trun value count countLoc loc firstSampleSize mFlags)
  | box => box

theorem cache_cached {box : IsoBmffBox} {v : Nat} (h : box.cached = some v) : box.cache v = box := by
  cases box with
  | full hdr version flags body =>
      cases body <;> simp_all [IsoBmffBox.cached, IsoBmffBox.cache]
  | plain hdr => rfl
  | mdat hdr => rfl
  | container hdr children => rfl
  | trak hdr children track_id => rfl

/-- Of the getters, only one shows the cached value. -/
theorem getters_cache {box : IsoBmffBox} {v : Nat} (h : box.cached = some v) (w : Nat) :
    (box.cache w).getters = box.getters ↔ w = v := by
  cases box with
  | full hdr version flags body =>
      cases body <;> simp_all [IsoBmffBox.cached, IsoBmffBox.cache, IsoBmffBox.getters,
        FullBody.getters]
  | plain hdr => simp [IsoBmffBox.cached] at h
  | mdat hdr => simp [IsoBmffBox.cached] at h
  | container hdr children => simp [IsoBmffBox.cached] at h
  | trak hdr children track_id => simp [IsoBmffBox.cached] at h

/-- The object differs from a new parse at most in the value it keeps. -/
structure Live (p : Nat) (s : IsoBmffBox × Mem) : Prop where
  wellFormed : WellFormed s.2 p
  same : ∃ value, s.1 = (reparse s.2 p).cache value

/-- What a call does to a live object. -/
structure Served (p : Nat) (s : IsoBmffBox × Mem) (call : SetterCall) (t : IsoBmffBox × Mem) :
    Prop where
  returns : call.step s = some t
  live : Live p t
  framed : Framed s call
  coherent : Coherent p s → (Coherent p t ↔ Meets s call)

section
variable {p d v v' : Nat} {s : IsoBmffBox × Mem} {m m' : Mem} {box found : IsoBmffBox}
  {call : SetterCall}

/-- A method that the class does not have. -/
theorem Live.idle (h : Live p s) (hstep : call.step s = some s) (hmeets : Meets s call) :
    Served p s call s where
  returns := hstep
  live := h
  framed t ht i _ := by
    rw [hstep] at ht
    cases ht
    rfl
  coherent hc := iff_of_true hc hmeets

/-- The object gets the value `v`, and a new parse of the buffer shows `v'`. -/
theorem Served.replaced (hwell : WellFormed m' p) (hparsed : reparse m' p = found)
    (hvalue : found.cached = some v') (hstep : call.step (box, m) = some (found.cache v, m'))
    (hframed : ∀ i, (∀ r ∈ call.written box, i < r.1 ∨ r.1 + r.2 ≤ i) → m' i = m i)
    (hmeets : Coherent p (box, m) → (v = v' ↔ Meets (box, m) call)) :
    Served p (box, m) call (found.cache v, m') where
  returns := hstep
  live := ⟨hwell, v, by rw [hparsed]⟩
  framed t ht := by
    rw [hstep] at ht
    cases ht
    exact hframed
  coherent hc := by
    rw [← hmeets hc, Coherent, hparsed]
    exact getters_cache hvalue v

end

/-! ## Boxes with one field -/

section
variable {p d v width loc : Nat} {m : Mem} {bs : Bytes}

/-- The words in front of a written field stay. -/
theorem fields_write (h : p + 12 ≤ loc) :
    headerWords (m.write loc bs) p = headerWords m p ∧
      (m.write loc bs).be (p + 8) 1 = m.be (p + 8) 1 ∧
      (m.write loc bs).be (p + 9) 3 = m.be (p + 9) 3 :=
  ⟨headerWords_write_behind (by omega), Mem.be_write_outside (by omega),
    Mem.be_write_outside (by omega)⟩

theorem be_write_mod : (m.write loc (beBytes width v)).be loc width = v % 256 ^ width := by
  have hword := (m.holds_write loc (beBytes width v)).be_eq
  rwa [beBytes_length, be_beBytes] at hword

theorem wellFormed_write (h : p + 12 ≤ loc)
    (htype : (headerWords m p).type ∈ [MVHD, MDHD, TFDT, TFHD]) :
    WellFormed (m.write loc bs) p := by
  left
  rwa [(fields_write h).1]

theorem write_framed {i : Nat} {fields : List (Nat × Nat)}
    (h : ∀ r ∈ (loc, width) :: fields, i < r.1 ∨ r.1 + r.2 ≤ i) :
    m.write loc (beBytes width v) i = m i := by
  have hfield := h _ List.mem_cons_self
  exact Mem.write_outside (by rwa [beBytes_length])

/-- Where the time scale of the box lies. -/
def timeScaleLoc (m : Mem) (p : Nat) : Nat := p + 12 + ifVersion (m.be (p + 8) 1) 1 16 8

/-- `mvhd` and `mdhd` are read alike. -/
theorem reparse_timeScale {type : FourCC} (body : Nat → Nat → FullBody)
    (hparser : ∀ sz, flatBox type sz = (constructTimeScaleBox type body sz).val)
    (h : (headerWords m p).type = type) :
    reparse m p = .full { base := some p, size := (headerWords m p).size, type }
      (m.be (p + 8) 1) (m.be (p + 9) 3)
      (body (m.be (timeScaleLoc m p) 4) (timeScaleLoc m p)) := by
  rw [reparse, h, hparser]
  simp only [constructTimeScaleBox, val_bind, val_tell, next_tell, val_readBe, next_readBe,
    next_skip, val_pure, Nat.add_sub_cancel]
  rfl

theorem timeScaleLoc_le (m : Mem) (p : Nat) : p + 12 ≤ timeScaleLoc m p := by
  unfold timeScaleLoc
  omega

/-- A time scale that is written is the one that is read. -/
theorem reparse_setTimeScale {type : FourCC} (body : Nat → Nat → FullBody) (tScale : UInt32)
    (hparser : ∀ sz, flatBox type sz = (constructTimeScaleBox type body sz).val)
    (h : (headerWords m p).type = type) :
    reparse (PLAYER_WRITE_U32 m (timeScaleLoc m p) tScale.toNat) p =
      .full { base := some p, size := (headerWords m p).size, type } (m.be (p + 8) 1)
        (m.be (p + 9) 3) (body tScale.toNat (timeScaleLoc m p)) := by
  have hword : tScale.toNat < 256 ^ 4 := tScale.toNat_lt
  rw [PLAYER_WRITE_U32]
  rcases @fields_write p (timeScaleLoc m p) m (beBytes 4 tScale.toNat) (timeScaleLoc_le m p) with
    ⟨hw, hv, hf⟩
  have hsame : timeScaleLoc (m.write (timeScaleLoc m p) (beBytes 4 tScale.toNat)) p =
      timeScaleLoc m p := by
    rw [timeScaleLoc, hv, timeScaleLoc]
  have hparsed := reparse_timeScale body hparser (hw ▸ h)
  rwa [hw, hv, hf, hsame, Mem.be_write hword] at hparsed

theorem reparse_tfdt (h : (headerWords m p).type = TFDT) :
    reparse m p = .full { size := (headerWords m p).size, type := TFDT }
      (m.be (p + 8) 1) (m.be (p + 9) 3)
      (.tfdt (m.be (p + 12) (ifVersion (m.be (p + 8) 1) 1 8 4)) (p + 12)) := by
  rw [reparse, h]
  change (constructTfdtBox _).val m (p + 8) = _
  simp only [constructTfdtBox, val_bind, val_tell, next_tell, val_readBe, next_readBe, val_pure]

/-- Where a `tfhd` has its default duration, if it has one, and its default size. -/
def tfhdDurationLoc (flags p : Nat) : Option Nat :=
  if flags &&& TFHD_FLAG_DEFAULT_SAMPLE_DURATION_PRESENT ≠ 0 then
    some (p + 16 + ifFlag flags TFHD_FLAG_BASE_DATA_OFFSET_PRESENT 8 +
      ifFlag flags TFHD_FLAG_SAMPLE_DESCRIPTION_INDEX_PRESENT 4)
  else none

def tfhdSizeLoc (flags p : Nat) : Nat :=
  p + 16 + ifFlag flags TFHD_FLAG_BASE_DATA_OFFSET_PRESENT 8 +
    ifFlag flags TFHD_FLAG_SAMPLE_DESCRIPTION_INDEX_PRESENT 4 +
    ifFlag flags TFHD_FLAG_DEFAULT_SAMPLE_DURATION_PRESENT 4

theorem reparse_tfhd {flags : Nat} (h : (headerWords m p).type = TFHD)
    (hflags : m.be (p + 9) 3 = flags) :
    reparse m p = .full { base := some p, size := (headerWords m p).size, type := TFHD }
      (m.be (p + 8) 1) flags
      (.tfhd ((tfhdDurationLoc flags p).elim 0 fun loc => m.be loc 4) (tfhdDurationLoc flags p)
        (if flags &&& TFHD_FLAG_DEFAULT_SAMPLE_SIZE_PRESENT ≠ 0 then
          m.be (tfhdSizeLoc flags p) 4 else 0) flags) := by
  rw [reparse, h]
  change (constructTfhdBox _).val m (p + 8) = _
  simp only [constructTfhdBox, val_bind, next_bind, val_tell, next_tell, val_readBe, next_readBe,
    next_skip, val_pure, val_readIf, next_readIf, next_pure, bne_zero_ite, next_field,
    apply_ite Prod.fst, Nat.add_sub_cancel]
  rw [show p + 8 + 1 = p + 9 from rfl, hflags]
  unfold tfhdDurationLoc tfhdSizeLoc
  by_cases hd : flags &&& TFHD_FLAG_DEFAULT_SAMPLE_DURATION_PRESENT = 0
  · simp only [hd, ne_eq, not_true_eq_false, if_false]
    rfl
  · simp only [hd, ne_eq, not_false_eq_true, if_true]
    rfl

/-! ## Setters of one field -/

theorem serves_mvhd (tScale : UInt32) (h : (headerWords m p).type = MVHD) :
    ∃ t, Served p ((reparse m p).cache d, m) (.setTimeScale tScale) t := by
  rw [reparse_timeScale .mvhd (fun _ => rfl) h]
  refine ⟨_, Served.replaced (wellFormed_write (timeScaleLoc_le m p) (by simp [h]))
    (reparse_setTimeScale .mvhd tScale (fun _ => rfl) h) rfl rfl ?_ fun _ => iff_of_true rfl trivial⟩
  exact fun i hi => write_framed hi

theorem serves_mdhd (tScale : UInt32) (h : (headerWords m p).type = MDHD) :
    ∃ t, Served p ((reparse m p).cache d, m) (.setTimeScale tScale) t := by
  rw [reparse_timeScale .mdhd (fun _ => rfl) h]
  refine ⟨_, Served.replaced (wellFormed_write (timeScaleLoc_le m p) (by simp [h]))
    (reparse_setTimeScale .mdhd tScale (fun _ => rfl) h) rfl rfl ?_ fun _ => iff_of_true rfl trivial⟩
  exact fun i hi => write_framed hi

/-- The decode time field has the width that the version gives it. -/
theorem setBaseMDT_memory (version mdt : Nat) :
    (if version = 1 then WriteUint64ToBuffer m loc mdt else PLAYER_WRITE_U32 m loc mdt) =
      m.write loc (beBytes (ifVersion version 1 8 4) mdt) := by
  unfold ifVersion
  split
  · rw [WriteUint64ToBuffer_eq]
  · rfl

/-- A word keeps the values below 2 ^ 32. -/
theorem eq_mod_word {n : Nat} : n = n % 256 ^ 4 ↔ n < 2 ^ 32 := by
  have hbase : 256 ^ 4 = 2 ^ 32 := by decide
  rw [hbase]
  omega

theorem serves_tfdt (mdt : UInt64) (h : (headerWords m p).type = TFDT) :
    ∃ t, Served p ((reparse m p).cache d, m) (.setBaseMDT mdt) t := by
  rw [reparse_tfdt h]
  generalize hversion : m.be (p + 8) 1 = version
  have hparsed : reparse (m.write (p + 12) (beBytes (ifVersion version 1 8 4) mdt.toNat)) p =
      .full { size := (headerWords m p).size, type := TFDT } version (m.be (p + 9) 3)
        (.tfdt (mdt.toNat % 256 ^ ifVersion version 1 8 4) (p + 12)) := by
    rcases @fields_write p (p + 12) m (beBytes (ifVersion version 1 8 4) mdt.toNat)
      (Nat.le_refl _) with ⟨hw, hv, hf⟩
    have hparsed := reparse_tfdt (hw ▸ h)
    rwa [hw, hv, hf, hversion, be_write_mod] at hparsed
  have hwell : WellFormed (m.write (p + 12) (beBytes (ifVersion version 1 8 4) mdt.toNat)) p :=
    wellFormed_write (Nat.le_refl _) (by simp [h])
  refine ⟨_, Served.replaced (v := mdt.toNat) hwell hparsed rfl ?_ (fun i hi => write_framed hi)
    fun _ => ?_⟩
  · simp only [SetterCall.step, IsoBmffBox.setBaseMDT, IsoBmffBox.cache, setBaseMDT_memory]
  · have hlong : mdt.toNat < 256 ^ 8 := mdt.toNat_lt
    change mdt.toNat = _ ↔ version = 1 ∨ mdt.toNat < 2 ^ 32
    unfold ifVersion
    by_cases hone : version = 1
    · rw [if_pos hone]
      exact iff_of_true (Nat.mod_eq_of_lt hlong).symm (Or.inl hone)
    · rw [if_neg hone, eq_mod_word]
      exact (or_iff_right hone).symm

theorem tfhdDurationLoc_le {flags : Nat} (h : tfhdDurationLoc flags p = some loc) :
    p + 12 ≤ loc ∧ loc + 4 = tfhdSizeLoc flags p := by
  unfold tfhdDurationLoc at h
  split at h
  · rename_i hflag
    cases h
    rw [tfhdSizeLoc, ifFlag.eq_1 flags TFHD_FLAG_DEFAULT_SAMPLE_DURATION_PRESENT, if_pos hflag]
    omega
  · cases h

theorem serves_tfhd (duration : UInt64) (h : (headerWords m p).type = TFHD) :
    ∃ t, Served p ((reparse m p).cache d, m) (.setDefaultSampleDuration duration) t := by
  generalize hflags : m.be (p + 9) 3 = flags
  have hbox := reparse_tfhd h hflags
  cases hloc : tfhdDurationLoc flags p with
  | none =>
      rw [hloc] at hbox
      have hwell : WellFormed m p := Or.inl (by simp [h])
      rw [hbox]
      exact ⟨_, Served.replaced (v := duration.toNat) hwell hbox rfl rfl (fun _ _ => rfl)
        fun _ => Iff.rfl⟩
  | some loc =>
      rw [hloc] at hbox
      rcases tfhdDurationLoc_le hloc with ⟨hle, hsize⟩
      rcases @fields_write p loc m (beBytes 4 duration.toNat) hle with ⟨hw, hv, hf⟩
      have hparsed := reparse_tfhd (hw ▸ h) (hf.trans hflags)
      rw [hw, hv, hloc, Option.elim_some, be_write_mod, Mem.be_write_outside
        (q := tfhdSizeLoc flags p) (by rw [beBytes_length]; omega)] at hparsed
      rw [hbox]
      refine ⟨_, Served.replaced (v := duration.toNat) (wellFormed_write hle (by simp [h])) hparsed
        rfl rfl (fun i hi => write_framed hi) fun _ => ?_⟩
      exact eq_mod_word

end

/-! ## Durations of a run -/

/-- Sum of the durations of some samples. -/
def samplesDuration (flags : Word 3) (samples : List TrunSample) : Nat :=
  (samples.map fun s => fieldValue flags TRUN_FLAG_SAMPLE_DURATION_PRESENT s.sample_duration).sum

/-- The run with a new duration word in its first sample. -/
def TrunFields.setFirst (b : TrunFields) (v : Nat) : TrunFields where
  version := b.version
  flags := b.flags
  data_offset := b.data_offset
  first_sample_flags := b.first_sample_flags
  samples := b.samples.modifyHead fun s => { s with sample_duration := .ofNat v }
  count_lt := by
    rw [List.length_modifyHead]
    exact b.count_lt

/-- The fields of a sample behind its duration. -/
def TrunSample.rest (flags : Word 3) (s : TrunSample) : Bytes :=
  field flags TRUN_FLAG_SAMPLE_SIZE_PRESENT s.sample_size ++
    (field flags TRUN_FLAG_SAMPLE_FLAGS_PRESENT s.sample_flags ++
      field flags TRUN_FLAG_SAMPLE_COMPOSITION_TIME_OFFSET_PRESENT
        s.sample_composition_time_offset)

section
variable {b : TrunFields} {s : TrunSample} {samples : List TrunSample} {slack : Bytes} {m : Mem}
  {p q d v : Nat}

theorem TrunFields.duration_cons (hs : b.samples = s :: samples) :
    b.duration = fieldValue b.flags TRUN_FLAG_SAMPLE_DURATION_PRESENT s.sample_duration +
      samplesDuration b.flags samples := by
  rw [duration, hs, List.map_cons, List.sum_cons, samplesDuration]

theorem TrunFields.duration_first (hs : b.samples = s :: samples) :
    b.duration = b.first.duration + samplesDuration b.flags samples := by
  have hfirst : b.first.samples = s :: [] := by rw [first_samples, hs]; rfl
  rw [duration_cons hs, duration_cons hfirst]
  rfl

theorem samplesDuration_absent (flags : Word 3) (samples : List TrunSample)
    (hflag : flags.toNat &&& TRUN_FLAG_SAMPLE_DURATION_PRESENT = 0) :
    samplesDuration flags samples = 0 := by
  induction samples with
  | nil => rfl
  | cons s samples ih =>
      rw [samplesDuration, List.map_cons, List.sum_cons, fieldValue, if_neg (not_not_intro hflag),
        Nat.zero_add]
      exact ih

/-- The records behind `q` carry the durations of the samples stored there. -/
theorem laterDurations_stored {flags : Word 3} (h : Holds m q (samplesBytes flags samples))
    (hflag : flags.toNat &&& TRUN_FLAG_SAMPLE_DURATION_PRESENT ≠ 0) :
    laterDurations (trunRecordWidth flags.toNat) m q samples.length =
      samplesDuration flags samples := by
  induction samples generalizing q with
  | nil => rfl
  | cons s samples ih =>
      rw [samplesBytes, holds_append, TrunSample.bytes_length] at h
      rcases h with ⟨hsample, hrest⟩
      rw [TrunSample.bytes, holds_append] at hsample
      have hduration := field_stored hsample.1
      rw [if_pos hflag] at hduration
      rw [List.length_cons, laterDurations, ih hrest, hduration]
      rfl

/-- The bytes of a run whose samples carry durations, around the first duration. -/
theorem TrunFields.bytes_durations (hs : b.samples = s :: samples)
    (hflag : b.flags.toNat &&& TRUN_FLAG_SAMPLE_DURATION_PRESENT ≠ 0) :
    b.bytes = b.front ++ (beBytes 4 b.samples.length ++ (b.optional ++
      (s.sample_duration.bytes ++ (s.rest b.flags ++ samplesBytes b.flags samples)))) := by
  rw [bytes_split hs, TrunSample.bytes, field, if_pos hflag, TrunSample.rest]
  simp only [List.append_assoc]

theorem TrunFields.setFirst_samples (hs : b.samples = s :: samples) (v : Nat) :
    (b.setFirst v).samples = { s with sample_duration := .ofNat v } :: samples := by
  change b.samples.modifyHead _ = _
  rw [hs, List.modifyHead_cons]

theorem TrunFields.setFirst_length (hs : b.samples = s :: samples) (v : Nat) :
    (b.setFirst v).samples.length = b.samples.length := by
  rw [setFirst_samples hs, hs, List.length_cons, List.length_cons]

theorem TrunFields.setFirst_bytes_length (hs : b.samples = s :: samples) (v : Nat) :
    (b.setFirst v).bytes.length = b.bytes.length := by
  rw [bytes_length, bytes_length, setFirst_length hs]
  rfl

theorem TrunFields.setFirst_object (hs : b.samples = s :: samples) (v p sz d : Nat) :
    (b.setFirst v).object p sz d = b.object p sz d := by
  have hloc : (b.setFirst v).durationLoc p = b.durationLoc p := by
    rw [durationLoc, durationLoc, setFirst_length hs]
    rfl
  have hsize : (b.setFirst v).firstSampleSize = b.firstSampleSize := by
    rw [firstSampleSize, firstSampleSize, setFirst_samples hs, hs]
    rfl
  rw [object, object, hloc, hsize, setFirst_length hs]
  rfl

/-! ## Stored runs -/

theorem StoredRun.reparse_eq (h : StoredRun b slack m p) :
    reparse m p = b.object p (8 + (b.bytes ++ slack).length) b.duration := by
  rcases headerWords_stored h.holds h.size_lt with ⟨hwords, hbody⟩
  rw [reparse, hwords]
  exact flatBox_trun _ hbody

theorem StoredRun.coherent_iff (h : StoredRun b slack m p) :
    Coherent p (b.object p (8 + (b.bytes ++ slack).length) d, m) ↔ d = b.duration := by
  rw [Coherent, h.reparse_eq]
  exact @getters_cache (b.object p (8 + (b.bytes ++ slack).length) b.duration) b.duration rfl d

/-- The samples behind the first one. -/
theorem StoredRun.later (h : StoredRun b slack m p) (hs : b.samples = s :: samples) :
    Holds m (p + 16 + b.optional.length + trunRecordWidth b.flags.toNat)
      (samplesBytes b.flags samples) := by
  have hbody := (holds_append.mp (headerWords_stored h.holds h.size_lt).2).1
  rw [TrunFields.bytes_split hs] at hbody
  simp only [holds_append, b.front_length, beBytes_length, TrunSample.bytes_length] at hbody
  rcases hbody with ⟨-, -, -, -, hlater⟩
  have hplace : p + 8 + 4 + 4 + b.optional.length = p + 16 + b.optional.length := by omega
  rwa [hplace] at hlater

theorem StoredRun.setFirst (h : StoredRun b slack m p) (hs : b.samples = s :: samples)
    (hflag : b.flags.toNat &&& TRUN_FLAG_SAMPLE_DURATION_PRESENT ≠ 0) (v : Nat) :
    StoredRun (b.setFirst v) slack (PLAYER_WRITE_U32 m (p + 16 + b.optional.length) v) p := by
  have hsamples := TrunFields.setFirst_samples hs v
  have hcount := TrunFields.setFirst_length hs v
  have hbytes : (b.setFirst v).bytes = b.front ++ (beBytes 4 b.samples.length ++ (b.optional ++
      (beBytes 4 v ++ (s.rest b.flags ++ samplesBytes b.flags samples)))) := by
    rw [TrunFields.bytes_durations hsamples hflag, hcount, ← beBytes_mod 4 v]
    rfl
  have hlength : ((b.setFirst v).bytes ++ slack).length = (b.bytes ++ slack).length := by
    rw [List.length_append, TrunFields.setFirst_bytes_length hs, List.length_append]
  constructor
  · rw [hlength]
    exact h.size_lt
  · have hfront : (beBytes 4 (8 + (b.bytes ++ slack).length) ++ (TRUN.bytes ++ (b.front ++
        (beBytes 4 b.samples.length ++ b.optional)))).length = 16 + b.optional.length := by
      simp only [List.length_append, beBytes_length, b.front_length]
      rw [show TRUN.bytes.length = 4 from rfl]
      omega
    have hstored : Holds m p ((beBytes 4 (8 + (b.bytes ++ slack).length) ++ (TRUN.bytes ++
        (b.front ++ (beBytes 4 b.samples.length ++ b.optional)))) ++ (s.sample_duration.bytes ++
          (s.rest b.flags ++ (samplesBytes b.flags samples ++ slack)))) := by
      have hholds := h.holds
      rw [boxBytes] at hholds
      nth_rewrite 2 [TrunFields.bytes_durations hs hflag] at hholds
      simpa only [List.append_assoc] using hholds
    have hword : (beBytes 4 v).length = s.sample_duration.bytes.length := by
      rw [beBytes_length, Word.bytes_length]
    have hwrite := hstored.replace (q := p + 16 + b.optional.length) (by rw [hfront]; omega) hword
    rw [boxBytes, hlength, hbytes, PLAYER_WRITE_U32]
    simpa only [List.append_assoc] using hwrite
  · rw [hcount]
    exact h.fills

/-! ## Calls on a run -/

theorem TrunFields.durationLoc_some (hs : b.samples = s :: samples)
    (hflag : b.flags.toNat &&& TRUN_FLAG_SAMPLE_DURATION_PRESENT ≠ 0) :
    b.durationLoc p = some (p + 16 + b.optional.length) := by
  rw [durationLoc, if_pos ⟨hflag, by rw [hs]; exact Nat.succ_ne_zero _⟩]

theorem StoredRun.laterDurations_eq (h : StoredRun b slack m p) (hs : b.samples = s :: samples)
    (hflag : b.flags.toNat &&& TRUN_FLAG_SAMPLE_DURATION_PRESENT ≠ 0) :
    laterDurations (trunRecordWidth b.flags.toNat) m
        (p + 16 + b.optional.length + trunRecordWidth b.flags.toNat) (b.samples.length - 1) =
      samplesDuration b.flags samples := by
  rw [hs, List.length_cons, Nat.add_sub_cancel]
  exact laterDurations_stored (h.later hs) hflag

theorem StoredRun.serves_setFirst (h : StoredRun b slack m p) (duration : UInt64) :
    ∃ t, Served p ((reparse m p).cache d, m) (.setFirstSampleDuration duration) t := by
  have hwell : WellFormed m p := Or.inr ⟨b, slack, h⟩
  have hbox := h.reparse_eq
  by_cases hloc : b.flags.toNat &&& TRUN_FLAG_SAMPLE_DURATION_PRESENT ≠ 0 ∧ b.samples.length ≠ 0
  · rcases hloc with ⟨hflag, hmany⟩
    obtain ⟨s, samples, hs⟩ := List.exists_cons_of_length_pos (Nat.pos_of_ne_zero hmany)
    have hloc := @TrunFields.durationLoc_some b s samples p hs hflag
    have hset := h.setFirst hs hflag duration.toNat
    have hparsed := hset.reparse_eq
    have hduration : (b.setFirst duration.toNat).duration =
        duration.toNat % 256 ^ 4 + samplesDuration b.flags samples := by
      rw [TrunFields.duration_cons (TrunFields.setFirst_samples hs _)]
      change fieldValue b.flags _ (Word.ofNat duration.toNat) + _ = _
      rw [fieldValue, if_pos hflag]
      rfl
    rw [TrunFields.setFirst_object hs, List.length_append, TrunFields.setFirst_bytes_length hs,
      ← List.length_append, hduration, TrunFields.object, hloc] at hparsed
    rw [TrunFields.object, hloc] at hbox
    rw [hbox]
    refine ⟨_, Served.replaced (v := duration.toNat) (Or.inr ⟨_, _, hset⟩) hparsed rfl rfl
      (fun i hi => write_framed hi) fun _ => ?_⟩
    change _ ↔ duration.toNat % 2 ^ 32 + laterDurations (trunRecordWidth b.flags.toNat) m
      (p + 16 + b.optional.length + trunRecordWidth b.flags.toNat) (b.samples.length - 1) = _
    rw [h.laterDurations_eq hs hflag]
    exact eq_comm
  · have hduration : b.duration = 0 := by
      cases hs : b.samples with
      | nil =>
          rw [TrunFields.duration, hs]
          rfl
      | cons s samples =>
          have hflag : b.flags.toNat &&& TRUN_FLAG_SAMPLE_DURATION_PRESENT = 0 := by
            by_contra hflag
            exact hloc ⟨hflag, by rw [hs]; exact Nat.succ_ne_zero _⟩
          exact samplesDuration_absent b.flags b.samples hflag
    rw [TrunFields.object, TrunFields.durationLoc, if_neg hloc, hduration] at hbox
    rw [hbox]
    exact ⟨_, Served.replaced (v := duration.toNat) hwell hbox rfl rfl (fun _ _ => rfl)
      fun _ => Iff.rfl⟩

theorem StoredRun.meets_truncate (h : StoredRun b slack m p) (hs : b.samples = s :: samples)
    (sz : Nat) :
    Meets (b.object p sz d, m) .truncate ↔ samplesDuration b.flags samples = 0 := by
  by_cases hflag : b.flags.toNat &&& TRUN_FLAG_SAMPLE_DURATION_PRESENT = 0
  · have hloc : b.durationLoc p = none := if_neg fun hboth => hboth.1 hflag
    rw [TrunFields.object, hloc]
    exact iff_of_true trivial (samplesDuration_absent b.flags samples hflag)
  · rw [TrunFields.object, TrunFields.durationLoc_some hs hflag, ← h.laterDurations_eq hs hflag]
    exact Iff.rfl

/-- One sample is left, and the bytes behind it stay in the box or become a box of their own. -/
theorem StoredRun.counted (h : StoredRun b [] m p) (hs : b.samples = s :: samples) :
    StoredRun b.first (samplesBytes b.flags samples) (PLAYER_WRITE_U32 m (p + 12) 1) p ∧
      (8 ≤ (samplesBytes b.flags samples).length →
        StoredRun b.first []
          (SkipIsoBmffBox (PLAYER_WRITE_U32 (PLAYER_WRITE_U32 m (p + 12) 1) p
            (8 + b.first.bytes.length)) (samplesBytes b.flags samples).length
            (p + (8 + b.first.bytes.length))) p) := by
  have hlength := first_append_length hs
  have hsize := h.size_lt
  rw [List.append_nil, ← hlength] at hsize
  have hholds := h.holds
  rw [List.append_nil] at hholds
  have hcounted := holds_counted hs hholds
  have hone : b.first.samples.length ≤ 1 := List.length_take_le 1 b.samples
  constructor
  · rw [← hlength] at hcounted
    exact ⟨hsize, hcounted, Or.inr hone⟩
  · intro h8
    have hskip := (holds_append.mp (holds_skip hcounted h8)).1
    rw [List.length_append] at hsize
    refine ⟨by rw [List.append_nil]; omega, ?_, Or.inl rfl⟩
    rw [List.append_nil]
    exact hskip

theorem StoredRun.serves_truncate (h : StoredRun b slack m p) :
    ∃ t, Served p ((reparse m p).cache d, m) .truncate t := by
  have hwell : WellFormed m p := Or.inr ⟨b, slack, h⟩
  rw [h.reparse_eq]
  change ∃ t, Served p (b.object p (8 + (b.bytes ++ slack).length) d, m) .truncate t
  rcases Nat.lt_or_ge 1 b.samples.length with hcount | hcount
  · have hslack : slack = [] := h.fills.resolve_right (by omega)
    subst hslack
    obtain ⟨s, samples, hs⟩ := List.exists_cons_of_length_pos (Nat.lt_of_succ_lt hcount)
    rcases first_length hs with ⟨hfirst, hrest⟩
    rcases h.counted hs with ⟨hkept, hskipped⟩
    have hmeets : Coherent p (b.object p (8 + (b.bytes ++ []).length) d, m) →
        (d = b.first.duration ↔ Meets (b.object p (8 + (b.bytes ++ []).length) d, m) .truncate) := by
      intro hcoherent
      rw [h.meets_truncate hs, h.coherent_iff.mp hcoherent, TrunFields.duration_first hs]
      omega
    have hlt := h.size_lt
    rw [List.append_nil] at hmeets hlt ⊢
    rcases Nat.lt_or_ge ((b.samples.length - 1) * trunRecordWidth b.flags.toNat) 8 with
      hfreed | hfreed
    · have hparsed := hkept.reparse_eq
      rw [first_append_length hs] at hparsed
      refine ⟨_, Served.replaced (v := d) (Or.inr ⟨_, _, hkept⟩) hparsed rfl
        (truncate_kept hcount hlt hfreed) ?_ hmeets⟩
      intro i hi
      have hcountWord := hi (p + 12, 4) (by simp [SetterCall.written, TrunFields.object])
      exact PLAYER_WRITE_U32_outside hcountWord
    · have hskip := hskipped (hrest ▸ hfreed)
      have hparsed := hskip.reparse_eq
      have hstep := @truncate_skipped b p d m hcount hlt hfreed
      rw [← hrest, ← hfirst] at hstep
      rw [List.append_nil] at hparsed
      refine ⟨_, Served.replaced (v := d) (Or.inr ⟨_, _, hskip⟩) hparsed rfl hstep ?_ hmeets⟩
      intro i hi
      have hsizeWord := hi (p, 4) (by simp [SetterCall.written, TrunFields.object])
      have hcountWord := hi (p + 12, 4) (by simp [SetterCall.written, TrunFields.object])
      have htable := hi (p + (8 + b.bytes.length) - (samplesBytes b.flags samples).length,
        (samplesBytes b.flags samples).length)
        (by simp [SetterCall.written, TrunFields.object, hrest])
      have hlength := first_append_length hs
      rw [List.length_append] at hlength
      have hheader : i < p + (8 + b.first.bytes.length) ∨
          p + (8 + b.first.bytes.length) + 8 ≤ i := by
        dsimp only at htable
        omega
      rw [SkipIsoBmffBox_outside hheader, PLAYER_WRITE_U32_outside hsizeWord,
        PLAYER_WRITE_U32_outside hcountWord]
  · refine ⟨_, Live.idle ⟨hwell, d, ?_⟩ (truncate_short hcount) ?_⟩
    · rw [h.reparse_eq]
      rfl
    · cases hs : b.samples with
      | nil =>
          have hloc : b.durationLoc p = none := if_neg fun hboth => hboth.2 (by rw [hs]; rfl)
          rw [TrunFields.object, hloc]
          trivial
      | cons s samples =>
          rw [h.meets_truncate hs]
          have hnone : samples = [] := by
            rw [hs, List.length_cons] at hcount
            exact List.length_eq_zero_iff.mp (by omega)
          rw [hnone]
          rfl

end

/-! ## Runs of calls -/

section
variable {p : Nat} {s : IsoBmffBox × Mem}

/-- Every call on a live object returns one; object and buffer go on agreeing exactly
when the call meets its condition. -/
theorem Live.serves (h : Live p s) (call : SetterCall) : ∃ t, Served p s call t := by
  rcases s with ⟨box, m⟩
  rcases h with ⟨hwell, d, hsame⟩
  dsimp only at hwell hsame
  have hlive : Live p ((reparse m p).cache d, m) := ⟨hwell, d, rfl⟩
  subst hsame
  rcases hwell with htype | ⟨b, slack, hrun⟩
  · simp only [List.mem_cons, List.not_mem_nil, or_false] at htype
    rcases htype with hmvhd | hmdhd | htfdt | htfhd
    · have hbox := reparse_timeScale .mvhd (fun _ => rfl) hmvhd
      cases call with
      | setTimeScale tScale => exact serves_mvhd tScale hmvhd
      | _ =>
          rw [hbox] at hlive ⊢
          exact ⟨_, hlive.idle rfl trivial⟩
    · have hbox := reparse_timeScale .mdhd (fun _ => rfl) hmdhd
      cases call with
      | setTimeScale tScale => exact serves_mdhd tScale hmdhd
      | _ =>
          rw [hbox] at hlive ⊢
          exact ⟨_, hlive.idle rfl trivial⟩
    · have hbox := reparse_tfdt htfdt
      cases call with
      | setBaseMDT mdt => exact serves_tfdt mdt htfdt
      | _ =>
          rw [hbox] at hlive ⊢
          exact ⟨_, hlive.idle rfl trivial⟩
    · have hbox := reparse_tfhd htfhd rfl
      cases call with
      | setDefaultSampleDuration duration => exact serves_tfhd duration htfhd
      | _ =>
          rw [hbox] at hlive ⊢
          exact ⟨_, hlive.idle rfl trivial⟩
  · have hbox := hrun.reparse_eq
    cases call with
    | setFirstSampleDuration duration => exact hrun.serves_setFirst duration
    | truncate => exact hrun.serves_truncate
    | _ =>
        rw [hbox] at hlive ⊢
        exact ⟨_, hlive.idle rfl trivial⟩

theorem Live.kept {t : IsoBmffBox × Mem} {call : SetterCall} (h : Live p s)
    (ht : (liveBox p).step s call = some t) : Served p s call t := by
  rcases h.serves call with ⟨u, hu⟩
  obtain rfl := Option.some.inj (hu.returns.symm.trans ht)
  exact hu

/-- A new object is live, and agrees with the buffer. -/
theorem live_reparse {m : Mem} (h : WellFormed m p) : Live p (reparse m p, m) := by
  refine ⟨h, ?_⟩
  rcases h with htype | ⟨b, slack, hrun⟩
  · simp only [List.mem_cons, List.not_mem_nil, or_false] at htype
    rcases htype with hmvhd | hmdhd | htfdt | htfhd
    · exact ⟨_, (cache_cached (by rw [reparse_timeScale .mvhd (fun _ => rfl) hmvhd]; rfl)).symm⟩
    · exact ⟨_, (cache_cached (by rw [reparse_timeScale .mdhd (fun _ => rfl) hmdhd]; rfl)).symm⟩
    · exact ⟨_, (cache_cached (by rw [reparse_tfdt htfdt]; rfl)).symm⟩
    · exact ⟨_, (cache_cached (by rw [reparse_tfhd htfhd rfl]; rfl)).symm⟩
  · exact ⟨_, (cache_cached (by rw [hrun.reparse_eq]; rfl)).symm⟩

theorem CoherentRun.meets {m : Mem} {call : SetterCall} (h : WellFormed m p)
    (hrun : CoherentRun p (reparse m p, m) [call]) : Meets (reparse m p, m) call := by
  rcases (live_reparse h).serves call with ⟨t, ht⟩
  exact (ht.coherent rfl).mp (hrun.coherent.2 t ht.returns)

/-- From a new object on, a sequence of calls keeps object and buffer in agreement exactly
when each of them meets its condition. -/
theorem coherentRun_iff_runOk {m : Mem} (h : WellFormed m p) (calls : List SetterCall) :
    CoherentRun p (reparse m p, m) calls ↔ (liveBox p).RunOk Meets (reparse m p, m) calls := by
  have hlive := live_reparse h
  have hkept : ∀ s call t, Live p s → (liveBox p).step s call = some t → Live p t :=
    fun s call t hs ht => (hs.kept ht).live
  have hruns : (liveBox p).RunAll (Coherent p) (reparse m p, m) calls ↔
      (liveBox p).RunOk Meets (reparse m p, m) calls :=
    System.runAll_iff_runOk_of_invariant hkept
      (fun s call t hs hcoherent ht => (hs.kept ht).coherent hcoherent) hlive rfl calls
  constructor
  · intro hrun
    exact hruns.mp hrun.coherent
  · intro hok
    have hreturns := System.run_of_enabled (M := liveBox p)
      (fun s call hs => by
        rcases Live.serves hs call with ⟨t, ht⟩
        exact ⟨t, ht.returns, ht.live⟩) hlive calls
    rcases hreturns with ⟨t, ht, -⟩
    refine ⟨⟨t, ht⟩, hruns.mpr hok, ?_⟩
    refine System.runOk_of_invariant hkept (fun s call hs => ?_) hlive calls
    rcases Live.serves hs call with ⟨t, ht⟩
    exact ht.framed

end

/-- Two samples of ten and twenty units. -/
def twoDurations : TrunFields :=
  ⟨.zero, .ofNat 0x100, .zero, .zero,
    [⟨.ofNat 10, .zero, .zero, .zero⟩, ⟨.ofNat 20, .zero, .zero, .zero⟩], by decide⟩

def twoDurationsMem : Mem := Mem.ofBytes (boxBytes TRUN (twoDurations.bytes ++ [])) fun _ => 0

theorem twoDurations_stored : StoredRun twoDurations [] twoDurationsMem 0 :=
  ⟨by decide, holds_ofBytes _ _, Or.inl rfl⟩

theorem twoDurations_coherentRun_iff :
    CoherentRun 0 (reparse twoDurationsMem 0, twoDurationsMem)
        [.setFirstSampleDuration 5, .truncate] ↔
      (liveBox 0).RunOk Meets (reparse twoDurationsMem 0, twoDurationsMem)
        [.setFirstSampleDuration 5, .truncate] :=
  coherentRun_iff_runOk (Or.inr ⟨twoDurations, [], twoDurations_stored⟩) _

/-- The truncated run still shows thirty units. -/
theorem truncate_not_coherent :
    ¬ ∀ (m : Mem) (p : Nat), WellFormed m p → ∀ calls, CoherentRun p (reparse m p, m) calls := by
  intro hall
  have hwell : WellFormed twoDurationsMem 0 := Or.inr ⟨twoDurations, [], twoDurations_stored⟩
  have hmeets := (hall twoDurationsMem 0 hwell [.truncate]).meets hwell
  have hs : twoDurations.samples =
      ⟨.ofNat 10, .zero, .zero, .zero⟩ :: [⟨.ofNat 20, .zero, .zero, .zero⟩] := rfl
  rw [twoDurations_stored.reparse_eq, twoDurations_stored.meets_truncate hs] at hmeets
  exact absurd hmeets (by decide)

end PlayerInterface.IsoBmff
