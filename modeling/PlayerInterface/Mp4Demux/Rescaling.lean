import PlayerInterface.Mp4Demux.Demuxer

/-!
# Demuxing over two timescales

The timescale a demuxer starts with goes into the times of the samples and nowhere else. Either an
`mvhd` or `mdhd` box replaces it in every run over the same bytes, or it stays in all of them.
-/

namespace PlayerInterface.Mp4Demux

open PlayerInterface.Core Program

/-! ## What a timescale does not touch -/

def Mp4Sample.untimed (s : Mp4Sample) : Mp4Sample :=
  { s with pts := 0, dts := 0, duration := 0 }

def Demuxer.untimed (d : Demuxer) : Demuxer :=
  { d with timescale := 0, samples := d.samples.map Mp4Sample.untimed }

/-- What two runs that have started with `timescale` and `timescale'` leave alike. -/
structure Rescaled (timescale timescale' : Nat) (d d' : Demuxer) : Prop where
  untimed : d.untimed = d'.untimed
  scale : d.timescale = d'.timescale ∨ (d.timescale = timescale ∧ d'.timescale = timescale')

section Runs

variable {timescale timescale' : Nat} {m : Mem}

/-- What does not show the timescale is the same in both. -/
theorem Rescaled.same {α : Type} {d d' : Demuxer} (h : Rescaled timescale timescale' d d')
    {f : Demuxer → α} (hf : ∀ d, f d.untimed = f d) : f d = f d' := by
  rw [← hf d, ← hf d', h.untimed]

/-- A program ends in the same way in both runs. -/
abbrev Alike {α : Type} (timescale timescale' : Nat) (m : Mem) (x : Demux α) : Prop :=
  Agree (Rescaled timescale timescale') m x x

namespace Alike

variable {α : Type}

theorem get {f : Demuxer → Demux α} (hf : ∀ d, f d = f d.untimed)
    (h : ∀ d, Alike timescale timescale' m (f d)) :
    Alike timescale timescale' m (MonadState.get >>= f) := by
  apply Agree.get
  intro d d' hd
  rw [hd.same fun e => (hf e).symm]
  exact h d'

theorem modify {f : Demuxer → Demuxer} (hf : ∀ d, (f d).untimed = f d.untimed)
    (hscale : ∀ d, (f d).timescale = d.timescale) :
    Alike timescale timescale' m (modify f) := by
  apply Agree.modify
  intro d d' hd
  constructor
  · rw [hf, hf, hd.untimed]
  · rw [hscale, hscale]
    exact hd.scale

theorem readBytes (n : Nat) : Alike timescale timescale' m (readBytes n) := by
  intro d d' hd
  have hptr : d.ptr = d'.ptr := hd.same fun _ => rfl
  rw [Mp4Demux.readBytes, Mp4Demux.readBytes, hptr]
  exact .ok ⟨congrArg (fun e : Demuxer => { e with ptr := d'.ptr + n }) hd.untimed, hd.scale⟩

theorem readU8 : Alike timescale timescale' m readU8 := by
  intro d d' hd
  have hptr : d.ptr = d'.ptr := hd.same fun _ => rfl
  rw [Mp4Demux.readU8, Mp4Demux.readU8, hptr]
  exact .ok ⟨congrArg (fun e : Demuxer => { e with ptr := d'.ptr + 1 }) hd.untimed, hd.scale⟩

theorem readU16 : Alike timescale timescale' m readU16 :=
  .bind (readBytes 2) fun _ => .pure _

theorem readU32 : Alike timescale timescale' m readU32 :=
  .bind (readBytes 4) fun _ => .pure _

theorem readI32 : Alike timescale timescale' m readI32 :=
  .bind (readBytes 4) fun _ => .pure _

theorem readU64 : Alike timescale timescale' m readU64 := readBytes 8

theorem skipBytes (len : Nat) : Alike timescale timescale' m (skipBytes len) :=
  modify (fun _ => rfl) fun _ => rfl

theorem assert (c : Prop) [Decidable c] : Alike timescale timescale' m (assert c) :=
  .ite (.pure ()) (.throw _)

theorem assign {read : Demux Nat} (h : Alike timescale timescale' m read)
    {set : Nat → Demuxer → Demuxer}
    (hset : ∀ v d, (set v d).untimed = set v d.untimed ∧ (set v d).timescale = d.timescale) :
    Alike timescale timescale' m (assign read set) :=
  .bind h fun v => modify (fun d => (hset v d).1) fun d => (hset v d).2

/-- A read timescale is the same in both runs. -/
theorem assignTimescale {read : Demux Nat} (h : Alike timescale timescale' m read) :
    Alike timescale timescale' m (Mp4Demux.assign read fun v d => { d with timescale := v }) :=
  .bind h fun _ => .modify fun _ _ hd => ⟨hd.untimed, Or.inl rfl⟩

theorem readHeader : Alike timescale timescale' m readHeader :=
  .bind readU8 fun _ => .bind (readBytes 3) fun _ => modify (fun _ => rfl) fun _ => rfl

theorem readMatrix (count : Nat) : Alike timescale timescale' m (readMatrix count) := by
  induction count with
  | zero => exact .pure []
  | succ count ih => exact .bind readI32 fun _ => .bind ih fun _ => .pure _

/-! ## Boxes of a fragment -/

theorem parseMovieFragmentHeaderBox :
    Alike timescale timescale' m parseMovieFragmentHeaderBox :=
  .bind readHeader fun _ => .bind readU32 fun _ => .pure ()

theorem parseTrackFragmentHeaderBox :
    Alike timescale timescale' m parseTrackFragmentHeaderBox :=
  .bind readHeader fun _ =>
  .bind (assign readU32 fun _ _ => ⟨rfl, rfl⟩) fun _ =>
  get (fun _ => rfl) fun _ =>
  .bind (.when (assign readU64 fun _ _ => ⟨rfl, rfl⟩)) fun _ =>
  .bind (.when (assign readU32 fun _ _ => ⟨rfl, rfl⟩)) fun _ =>
  .bind (.when (assign readU32 fun _ _ => ⟨rfl, rfl⟩)) fun _ =>
  .bind (.when (assign readU32 fun _ _ => ⟨rfl, rfl⟩)) fun _ =>
  .when (assign readU32 fun _ _ => ⟨rfl, rfl⟩)

theorem parseTrackFragmentBaseMediaDecodeTimeBox :
    Alike timescale timescale' m parseTrackFragmentBaseMediaDecodeTimeBox :=
  .bind readHeader fun _ =>
  get (fun _ => rfl) fun _ => assign (readBytes _) fun _ _ => ⟨rfl, rfl⟩

/-- A sample is collected in both runs, with times of its own in each. -/
theorem collect {sample sample' : Mp4Sample} (h : sample.untimed = sample'.untimed) :
    Agree (Rescaled timescale timescale') m
      (MonadState.modifyGet fun e : Demuxer => ((), { e with samples := e.samples ++ [sample] }) :
        Demux Unit)
      (MonadState.modifyGet fun e => ((), { e with samples := e.samples ++ [sample'] })) := by
  have hcollect : ∀ (e : Demuxer) (s : Mp4Sample),
      ({ e with samples := e.samples ++ [s] } : Demuxer).untimed =
        { e.untimed with samples := e.untimed.samples ++ [s.untimed] } := by
    intro e s
    rw [Demuxer.untimed, List.map_append]
    rfl
  apply Agree.modify
  intro e e' he
  constructor
  · rw [hcollect, hcollect, he.untimed, h]
  · exact he.scale

theorem parseSample (v : RunVars) : Alike timescale timescale' m (parseSample v) := by
  apply Agree.get
  intro d d' hd
  have hflags : d.flags = d'.flags := hd.same fun _ => rfl
  have hduration : d.default_sample_duration = d'.default_sample_duration :=
    hd.same fun _ => rfl
  have hsize : d.default_sample_size = d'.default_sample_size := hd.same fun _ => rfl
  rw [hflags, hduration, hsize]
  exact
    .bind (.orDefault _ readU32) fun _ =>
    .bind (.orDefault _ readU32) fun _ =>
    .bind (.orDefault _ readU32) fun _ =>
    .bind (.orDefault _ readI32) fun _ =>
    .bind (collect rfl) fun _ => .pure _

theorem parseSamples (sample_count : Nat) (v : RunVars) :
    Alike timescale timescale' m (parseSamples sample_count v) := by
  induction sample_count generalizing v with
  | zero => exact .pure ()
  | succ sample_count ih => exact .bind (parseSample v) fun v => ih v

theorem parseTrackFragmentRunBox :
    Alike timescale timescale' m parseTrackFragmentRunBox :=
  .bind readHeader fun _ =>
  .bind readU32 fun sample_count =>
  get (fun _ => rfl) fun _ =>
  .bind (assert _) fun _ =>
  .bind readI32 fun _ =>
  .bind (.orDefault _ readU32) fun _ => parseSamples sample_count _

/-! ## Boxes of the movie -/

theorem parseMovieHeaderBox : Alike timescale timescale' m parseMovieHeaderBox :=
  .bind readHeader fun _ =>
  get (fun _ => rfl) fun _ =>
  .bind (assign (readBytes _) fun _ _ => ⟨rfl, rfl⟩) fun _ =>
  .bind (assign (readBytes _) fun _ _ => ⟨rfl, rfl⟩) fun _ =>
  .bind (assignTimescale readU32) fun _ =>
  .bind (assign readU32 fun _ _ => ⟨rfl, rfl⟩) fun _ =>
  .bind (assign readU32 fun _ _ => ⟨rfl, rfl⟩) fun _ =>
  .bind (assign readU32 fun _ _ => ⟨rfl, rfl⟩) fun _ =>
  .bind (skipBytes 8) fun _ =>
  .bind (readMatrix 9) fun _ => modify (fun _ => rfl) fun _ => rfl

theorem parseMovieExtendsHeader : Alike timescale timescale' m parseMovieExtendsHeader :=
  .bind readHeader fun _ => assign readU32 fun _ _ => ⟨rfl, rfl⟩

theorem parseTrackExtendsBox : Alike timescale timescale' m parseTrackExtendsBox :=
  .bind readHeader fun _ =>
  .bind (assign readU32 fun _ _ => ⟨rfl, rfl⟩) fun _ =>
  .bind (assign readU32 fun _ _ => ⟨rfl, rfl⟩) fun _ =>
  .bind (assign readU32 fun _ _ => ⟨rfl, rfl⟩) fun _ =>
  .bind (assign readU32 fun _ _ => ⟨rfl, rfl⟩) fun _ => assign readU32 fun _ _ => ⟨rfl, rfl⟩

theorem parseTrackHeader : Alike timescale timescale' m parseTrackHeader :=
  .bind readHeader fun _ =>
  get (fun _ => rfl) fun _ =>
  .bind (assign (readBytes _) fun _ _ => ⟨rfl, rfl⟩) fun _ =>
  .bind (assign (readBytes _) fun _ _ => ⟨rfl, rfl⟩) fun _ =>
  .bind (assign readU32 fun _ _ => ⟨rfl, rfl⟩) fun _ =>
  .bind (skipBytes _) fun _ =>
  .bind (readMatrix 9) fun _ =>
  .bind (modify (fun _ => rfl) fun _ => rfl) fun _ =>
  .bind (assign readU32 fun _ _ => ⟨rfl, rfl⟩) fun _ => assign readU32 fun _ _ => ⟨rfl, rfl⟩

theorem parseMediaHeaderBox : Alike timescale timescale' m parseMediaHeaderBox :=
  .bind readHeader fun _ =>
  get (fun _ => rfl) fun _ =>
  .bind (assign (readBytes _) fun _ _ => ⟨rfl, rfl⟩) fun _ =>
  .bind (assign (readBytes _) fun _ _ => ⟨rfl, rfl⟩) fun _ =>
  .bind (assignTimescale readU32) fun _ =>
  .bind (assign readU32 fun _ _ => ⟨rfl, rfl⟩) fun _ => assign readU16 fun _ _ => ⟨rfl, rfl⟩

/-! ## Sample descriptions and codec configuration -/

theorem parseVisualEntry : Alike timescale timescale' m parseVisualEntry :=
  .bind (skipBytes 4) fun _ =>
  .bind (assign readU32 fun _ _ => ⟨rfl, rfl⟩) fun _ =>
  .bind (skipBytes 16) fun _ =>
  .bind (assign readU16 fun _ _ => ⟨rfl, rfl⟩) fun _ =>
  .bind (assign readU16 fun _ _ => ⟨rfl, rfl⟩) fun _ =>
  .bind (assign readU32 fun _ _ => ⟨rfl, rfl⟩) fun _ =>
  .bind (assign readU32 fun _ _ => ⟨rfl, rfl⟩) fun _ =>
  .bind (skipBytes 4) fun _ =>
  .bind (assign readU16 fun _ _ => ⟨rfl, rfl⟩) fun _ =>
  .bind (skipBytes 32) fun _ =>
  .bind (assign readU16 fun _ _ => ⟨rfl, rfl⟩) fun _ =>
  .bind readU16 fun _ => assert _

theorem parseAudioEntry : Alike timescale timescale' m parseAudioEntry :=
  .bind (skipBytes 4) fun _ =>
  .bind (assign readU32 fun _ _ => ⟨rfl, rfl⟩) fun _ =>
  .bind (skipBytes 8) fun _ =>
  .bind (assign readU16 fun _ _ => ⟨rfl, rfl⟩) fun _ =>
  .bind (assign readU16 fun _ _ => ⟨rfl, rfl⟩) fun _ =>
  .bind (skipBytes 4) fun _ =>
  .bind (assign readU16 fun _ _ => ⟨rfl, rfl⟩) fun _ => skipBytes 2

theorem parseStreamFormat {demuxHelper : Nat → Demux Unit}
    (h : ∀ next, Alike timescale timescale' m (demuxHelper next)) (type next : Nat) :
    Alike timescale timescale' m (parseStreamFormat demuxHelper type next) :=
  .bind (modify (fun _ => rfl) fun _ => rfl) fun _ =>
  .ite (.bind parseVisualEntry fun _ => h next)
    (.ite (.bind parseAudioEntry fun _ => h next) (.bind (assert False) fun _ => h next))

theorem parseSampleDescriptionBox {demuxHelper : Nat → Demux Unit}
    (h : ∀ next, Alike timescale timescale' m (demuxHelper next)) (next : Nat) :
    Alike timescale timescale' m (parseSampleDescriptionBox demuxHelper next) :=
  .bind readHeader fun _ => .bind readU32 fun _ => .bind (assert _) fun _ => h next

theorem copyCodecData (len : Nat) : Alike timescale timescale' m (copyCodecData len) :=
  .bind .read fun _ => .bind (modify (fun _ => rfl) fun _ => rfl) fun _ => .pure _

theorem readLen (fuel rc : Nat) : Alike timescale timescale' m (readLen fuel rc) := by
  induction fuel generalizing rc with
  | zero => exact .throw _
  | succ fuel ih => exact .bind readU8 fun _ => .ite (.pure _) (ih _)

theorem parseDescriptor {parseCodecConfigHelper : Nat → Demux Unit}
    (h : ∀ next, Alike timescale timescale' m (parseCodecConfigHelper next))
    (tag len limit : Nat) :
    Alike timescale timescale' m (parseDescriptor parseCodecConfigHelper tag len limit) := by
  unfold Mp4Demux.parseDescriptor
  split
  · exact .bind (skipBytes 3) fun _ => h limit
  · exact
      .bind (assign readU8 fun _ _ => ⟨rfl, rfl⟩) fun _ =>
      .bind (assign readU8 fun _ _ => ⟨rfl, rfl⟩) fun _ =>
      .bind (assign readU8 fun _ _ => ⟨rfl, rfl⟩) fun _ =>
      .bind (assign readU16 fun _ _ => ⟨rfl, rfl⟩) fun _ =>
      .bind (assign readU32 fun _ _ => ⟨rfl, rfl⟩) fun _ =>
      .bind (assign readU32 fun _ _ => ⟨rfl, rfl⟩) fun _ => h limit
  · exact .bind (copyCodecData len) fun _ => .when (skipBytes len)
  · exact skipBytes len
  · exact assert False

theorem parseCodecConfigHelper (fuel next : Nat) :
    Alike timescale timescale' m (parseCodecConfigHelper fuel next) := by
  induction fuel generalizing next with
  | zero => exact .throw _
  | succ fuel ih =>
      exact
        get (fun _ => rfl) fun _ =>
        .ite
          (.bind readU8 fun _ =>
          .bind (readLen fuel 0) fun _ =>
          get (fun _ => rfl) fun _ =>
          .bind (parseDescriptor ih _ _ _) fun _ =>
          get (fun _ => rfl) fun _ =>
          .bind (assert _) fun _ =>
          .bind (modify (fun _ => rfl) fun _ => rfl) fun _ => ih next)
          (.pure ())

theorem parseCodecConfiguration (fuel type next : Nat) :
    Alike timescale timescale' m (parseCodecConfiguration fuel type next) :=
  .bind (modify (fun _ => rfl) fun _ => rfl) fun _ =>
  .ite
    (.bind (skipBytes 4) fun _ => parseCodecConfigHelper fuel next)
    (get (fun _ => rfl) fun _ => .bind (copyCodecData _) fun _ => .pure ())

/-! ## The walk -/

theorem demuxBox {demuxHelper : Nat → Demux Unit}
    (h : ∀ next, Alike timescale timescale' m (demuxHelper next)) (fuel type next : Nat) :
    Alike timescale timescale' m (demuxBox demuxHelper fuel type next) := by
  unfold Mp4Demux.demuxBox
  cases boxKind type with
  | streamFormat => exact parseStreamFormat h type next
  | codecConfiguration => exact parseCodecConfiguration fuel type next
  | mfhd => exact parseMovieFragmentHeaderBox
  | tfhd => exact parseTrackFragmentHeaderBox
  | trun => exact parseTrackFragmentRunBox
  | tfdt => exact parseTrackFragmentBaseMediaDecodeTimeBox
  | mvhd => exact parseMovieHeaderBox
  | mehd => exact parseMovieExtendsHeader
  | trex => exact parseTrackExtendsBox
  | tkhd => exact parseTrackHeader
  | mdhd => exact parseMediaHeaderBox
  | stsd => exact parseSampleDescriptionBox h next
  | moof => exact .bind (modify (fun _ => rfl) fun _ => rfl) fun _ => h next
  | container => exact h next
  | skipped => exact .pure ()

theorem demuxHelper (fuel fin : Nat) :
    Alike timescale timescale' m (demuxHelper fuel fin) := by
  induction fuel generalizing fin with
  | zero => exact .throw _
  | succ fuel ih =>
      exact
        get (fun _ => rfl) fun _ =>
        .ite
          (.bind readU32 fun _ =>
          get (fun _ => rfl) fun _ =>
          .bind readU32 fun _ =>
          .bind (demuxBox ih fuel _ _) fun _ =>
          .bind (modify (fun _ => rfl) fun _ => rfl) fun _ => ih fin)
          (.pure ())

end Alike
end Runs

/-- Two demuxers of the same bytes stop for the same reason, or both return. -/
theorem construct_alike (fuel : Nat) (m : Mem) (ptr len timescale timescale' : Nat)
    (memory : Demuxer) :
    (∃ e, construct fuel m ptr len timescale memory = .error e ∧
        construct fuel m ptr len timescale' memory = .error e) ∨
      ∃ d d', construct fuel m ptr len timescale memory = .ok d ∧
        construct fuel m ptr len timescale' memory = .ok d' ∧
        Rescaled timescale timescale' d d' := by
  let d₀ : Demuxer := { memory with
    info := memory.info.construct, samples := [], ptr := ptr, moof_ptr := 0 }
  have hstart : Rescaled timescale timescale' { d₀ with timescale := timescale }
      { d₀ with timescale := timescale' } := ⟨rfl, Or.inr ⟨rfl, rfl⟩⟩
  have hend := Alike.demuxHelper (m := m) fuel (ptr + len) _ _ hstart
  rcases hend.elim with ⟨e, he, he'⟩ | ⟨_, d, d', hd, hd', hrel⟩
  · exact Or.inl ⟨e, congrArg (Except.map Prod.snd) he, congrArg (Except.map Prod.snd) he'⟩
  · exact Or.inr ⟨d, d', congrArg (Except.map Prod.snd) hd, congrArg (Except.map Prod.snd) hd',
      hrel⟩

theorem Rescaled.samples_length {timescale timescale' : Nat} {d d' : Demuxer}
    (h : Rescaled timescale timescale' d d') : d.samples.length = d'.samples.length := by
  have hlength : ∀ d : Demuxer, d.untimed.samples.length = d.samples.length :=
    fun d => List.length_map Mp4Sample.untimed
  exact h.same (f := fun d => d.samples.length) hlength

end PlayerInterface.Mp4Demux
