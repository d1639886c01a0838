import Mathlib.Algebra.Order.Field.Rat
import Mathlib.Tactic.FieldSimp
import Mathlib.Tactic.Ring
import PlayerInterface.Mp4Demux.Document

/-!
# Decode and presentation times of track runs

The loop over the samples of a run carries the decode time along in 64 bits and
joins the composition offset to it before it divides by the timescale.
-/

namespace PlayerInterface.Mp4Demux

open PlayerInterface.Core Program
open PlayerInterface.IsoBmff (FourCC TfhdFields TfdtFields TrunSample timeWidth)

/-! ## Decode times of a run -/

/-- The decode times the loop carries along for samples of these durations. -/
def decodeTimes : Nat → List Nat → List Nat
  | _, [] => []
  | dts, duration :: durations => dts :: decodeTimes ((dts + duration) % 2 ^ 64) durations

@[simp] theorem decodeTimes_length (dts : Nat) (durations : List Nat) :
    (decodeTimes dts durations).length = durations.length := by
  induction durations generalizing dts with
  | nil => rfl
  | cons duration durations ih => simp [decodeTimes, ih]

namespace Trun

def carriesDurations (b : Trun) : Prop := b.val.flags.toNat &&& 0x0100 ≠ 0

instance (b : Trun) : Decidable b.carriesDurations := inferInstanceAs (Decidable (_ ≠ _))

/-- The durations of the samples of a run, with the default for those it does not carry. -/
def durations (b : Trun) (default : Nat) : List Nat :=
  b.val.samples.map fun f => fieldOr b.val.flags 0x0100 f.sample_duration default

end Trun

/-- Decode time and composition offset of each sample of a run. -/
def Trun.timing (b : Trun) (r : Registers) : List (Nat × Int) :=
  (decodeTimes r.baseMediaDecodeTime (b.durations r.default_sample_duration)).zip
    (b.val.samples.map (sampleOffset b.val.flags))

@[simp] theorem runSamples_length (flags : Word 3) (r : SampleDefaults) (v : RunVars)
    (samples : List TrunSample) : (runSamples flags r v samples).length = samples.length := by
  induction samples generalizing v with
  | nil => rfl
  | cons s samples ih => simp [runSamples, ih]

/-- Each sample of a run is made from its own fields and the decode time before it. -/
theorem runSamples_timing (flags : Word 3) (r : SampleDefaults) (v : RunVars)
    (samples : List TrunSample) :
    List.Forall₂ (fun s p => ∃ data_ptr f,
        s = runSample flags r ⟨data_ptr, p.1⟩ f ∧ p.2 = sampleOffset flags f)
      (runSamples flags r v samples)
      ((decodeTimes v.dts (samples.map (sampleDuration flags r))).zip
        (samples.map (sampleOffset flags))) := by
  induction samples generalizing v with
  | nil => exact .nil
  | cons f samples ih => exact .cons ⟨v.data_ptr, f, rfl, rfl⟩ (ih (v.next flags r f))

/-! ## Presentation times -/

/-- Presentation time of a sample with this decode time and composition offset, in
exact quotients by the timescale. -/
structure Mp4Sample.Presents (s : Mp4Sample) (timescale time : Nat) (offset : Int) : Prop where
  scaled : timescale ≠ 0
  dts : s.dts = time / (timescale : Rat)
  pts : s.pts * timescale = ((time + offset : Int) : Rat)
  composition : s.pts - s.dts = offset / (timescale : Rat)

theorem sampleOffset_bounds (flags : Word 3) (f : TrunSample) :
    -2 ^ 31 ≤ sampleOffset flags f ∧ sampleOffset flags f < 2 ^ 31 := by
  rw [sampleOffset]
  split
  · exact ⟨Int.le_bmod (by decide), Int.bmod_lt (by decide)⟩
  · decide

/-- A sum that stays below the word is kept exactly when it is not negative. -/
theorem emod_word_iff {x : Int} (h : x < 2 ^ 64) : x % 2 ^ 64 = x ↔ 0 ≤ x := by
  constructor
  · intro hx
    rw [← hx]
    exact Int.emod_nonneg x (by decide)
  · intro hx
    exact Int.emod_eq_of_lt hx h

theorem Mp4Sample.make_presents_iff {timescale flags sample_duration len : Nat} {v : RunVars}
    {offset : Int} (htime : v.dts < 2 ^ 63) (hoffset : offset < 2 ^ 31) :
    (Mp4Sample.make timescale flags v sample_duration len offset).Presents timescale v.dts offset ↔
      timescale ≠ 0 ∧ 0 ≤ (v.dts : Int) + offset := by
  have hword := emod_word_iff (x := (v.dts : Int) + offset) (by omega)
  constructor
  · rintro ⟨hscaled, -, hpts, -⟩
    have hscale : (timescale : Rat) ≠ 0 := Nat.cast_ne_zero.mpr hscaled
    refine ⟨hscaled, hword.mp ?_⟩
    rw [Mp4Sample.make, div_mul_cancel₀ _ hscale] at hpts
    exact Int.cast_injective hpts
  · rintro ⟨hscaled, hsum⟩
    have hscale : (timescale : Rat) ≠ 0 := Nat.cast_ne_zero.mpr hscaled
    have hpts : (Mp4Sample.make timescale flags v sample_duration len offset).pts =
        (((v.dts : Int) + offset : Int) : Rat) / (timescale : Rat) := by
      rw [Mp4Sample.make, hword.mpr hsum]
    refine ⟨hscaled, rfl, ?_, ?_⟩
    · rw [hpts, div_mul_cancel₀ _ hscale]
    · rw [hpts, Mp4Sample.make, ← sub_div]
      push_cast
      ring

/-- Of every track run, a sample whose decode time is below 2^63 is presented at decode
time plus offset exactly when that sum is not negative. -/
theorem parseTrackFragmentRunBox_presents_iff (m : Mem) (d : Demuxer) (b : Trun)
    (h : Holds m d.ptr b.val.bytes) :
    ∃ d' samples, parseTrackFragmentRunBox m d = .ok ((), d') ∧
      d'.samples = d.samples ++ samples ∧
      List.Forall₂ (fun s p => p.1 < 2 ^ 63 →
          (s.Presents d.timescale p.1 p.2 ↔ d.timescale ≠ 0 ∧ 0 ≤ (p.1 : Int) + p.2))
        samples (b.timing d.cursor.toRegisters) := by
  obtain ⟨d', hd', hr⟩ := parseTrackFragmentRunBox_fields b.property h d rfl
  refine ⟨d', _, hd', congrArg Registers.samples hr, ?_⟩
  refine (runSamples_timing b.val.flags d.cursor.toSampleDefaults _ b.val.samples).imp ?_
  rintro s ⟨time, offset⟩ ⟨data_ptr, f, rfl, hoffset⟩ htime
  dsimp only at hoffset htime ⊢
  rw [hoffset]
  exact Mp4Sample.make_presents_iff htime (sampleOffset_bounds b.val.flags f).2

namespace EarlyRun

/-- One sample, presented one tick before its decode time. -/
def run : Trun := ⟨{
  version := ⟨1, by decide⟩, flags := ⟨0x0801, by decide⟩, data_offset := .zero
  first_sample_flags := .zero
  samples := [⟨.zero, .zero, .zero, ⟨0xffffffff, by decide⟩⟩]
  count_lt := by decide }, by decide⟩

def memory : Mem := Mem.ofBytes run.val.bytes fun _ => 0

def demuxer : Demuxer := { (default : Demuxer) with timescale := 1 }

theorem holds : Holds memory demuxer.ptr run.val.bytes := holds_ofBytes run.val.bytes fun _ => 0

end EarlyRun

theorem earlyRun_presents_iff :
    ∃ d' samples, parseTrackFragmentRunBox EarlyRun.memory EarlyRun.demuxer = .ok ((), d') ∧
      d'.samples = [] ++ samples ∧
      List.Forall₂ (fun s p => p.1 < 2 ^ 63 →
          (Mp4Sample.Presents s 1 p.1 p.2 ↔ (1 : Nat) ≠ 0 ∧ 0 ≤ (p.1 : Int) + p.2))
        samples [(0, -1)] :=
  parseTrackFragmentRunBox_presents_iff EarlyRun.memory EarlyRun.demuxer EarlyRun.run
    EarlyRun.holds

/-- At decode time 0 the presentation time of an offset of -1 wraps around. -/
theorem earlyRun_not_presented :
    ¬ ∀ (m : Mem) (d : Demuxer) (b : Trun), d.timescale ≠ 0 → Holds m d.ptr b.val.bytes →
      ∃ d' samples, parseTrackFragmentRunBox m d = .ok ((), d') ∧
        d'.samples = d.samples ++ samples ∧
        List.Forall₂ (fun s p => p.1 < 2 ^ 63 → s.Presents d.timescale p.1 p.2) samples
          (b.timing d.cursor.toRegisters) := by
  intro h
  obtain ⟨d', samples, hd', hsamples, htiming⟩ :=
    h EarlyRun.memory EarlyRun.demuxer EarlyRun.run (by decide) EarlyRun.holds
  obtain ⟨e, he, hr⟩ := parseTrackFragmentRunBox_fields EarlyRun.run.property EarlyRun.holds
    EarlyRun.demuxer rfl
  obtain rfl : e = d' := congrArg Prod.snd (Except.ok.inj (he.symm.trans hd'))
  obtain rfl : _ = samples := (congrArg Registers.samples hr).symm.trans hsamples
  cases htiming with
  | cons hfirst _ =>
      have hpresents := hfirst (by decide)
      have hsum := ((Mp4Sample.make_presents_iff (by decide) (by decide)).mp hpresents).2
      exact absurd hsum (by decide)

/-! ## The timeline of a track fragment -/

/-- A box behind the decode time of a track fragment: a run, or one that is passed over. -/
inductive FragmentBox where
  | other (type : { t : FourCC // IsPassive t }) (payload : Bytes)
  | run (b : Trun)

def FragmentBox.leaf : FragmentBox → Leaf
  | other type payload => .passive type payload
  | run b => .trun b

def FragmentBox.run? : FragmentBox → Option Trun
  | other _ _ => none
  | run b => some b

def leafBoxes : List FragmentBox → Boxes
  | [] => .nil
  | box :: boxes => .leaf box.leaf (leafBoxes boxes)

/-- A track fragment with a decode time, any number of runs and other boxes among them. -/
structure TrackFragment where
  tfhd : TfhdFields
  tfdt : TfdtFields
  boxes : List FragmentBox

/-- When a sample is decoded and for how long it is shown. -/
structure Slot where
  dts : Rat
  duration : Rat

def Mp4Sample.slot (s : Mp4Sample) : Slot := ⟨s.dts, s.duration⟩

/-- Samples of these durations behind each other, from `start` on. -/
def slots (timescale start : Nat) (durations : List Nat) : List Slot :=
  durations.mapIdx fun k (duration : Nat) =>
    ⟨((start + (durations.take k).sum : Nat) : Rat) / (timescale : Rat),
      duration / (timescale : Rat)⟩

namespace TrackFragment

def forest (t : TrackFragment) : Boxes :=
  .node (.container TRAF) (.leaf (.tfhd t.tfhd) (.leaf (.tfdt t.tfdt) (leafBoxes t.boxes))) .nil

def runs (t : TrackFragment) : List Trun := t.boxes.filterMap FragmentBox.run?

def start (t : TrackFragment) : Nat := t.tfdt.baseMediaDecodeTime.toNat

/-- The default of the header, else the one that was in force before. -/
def defaultDuration (t : TrackFragment) (default : Nat) : Nat :=
  fieldOr t.tfhd.flags 0x00008 t.tfhd.default_sample_duration default

/-- The slots of all samples, counted across the runs, where `trackDefault` is the
default duration of the track. -/
def timeline (t : TrackFragment) (timescale trackDefault : Nat) : List Slot :=
  slots timescale t.start (t.runs.flatMap fun b => b.durations (t.defaultDuration trackDefault))

end TrackFragment

/-! ## One run on the timeline -/

@[simp] theorem slots_length (timescale start : Nat) (durations : List Nat) :
    (slots timescale start durations).length = durations.length := by
  simp [slots]

theorem slots_cons (timescale start duration : Nat) (durations : List Nat) :
    slots timescale start (duration :: durations) =
      ⟨start / (timescale : Rat), duration / (timescale : Rat)⟩ ::
        slots timescale (start + duration) durations := by
  simp only [slots, List.mapIdx_cons, List.take_zero, List.take_succ_cons, List.sum_cons,
    List.sum_nil, Nat.add_zero, Nat.add_assoc]

theorem slots_append (timescale start : Nat) (xs ys : List Nat) :
    slots timescale start (xs ++ ys) =
      slots timescale start xs ++ slots timescale (start + xs.sum) ys := by
  induction xs generalizing start with
  | nil => rfl
  | cons x xs ih =>
      rw [List.cons_append, slots_cons, slots_cons, ih, List.sum_cons, Nat.add_assoc,
        List.cons_append]

/-- Two times agree as quotients exactly when they agree. -/
theorem div_timescale_inj {timescale x y : Nat} (hscale : timescale ≠ 0) :
    (x : Rat) / (timescale : Rat) = y / (timescale : Rat) ↔ x = y := by
  rw [div_left_inj' (Nat.cast_ne_zero.mpr hscale), Nat.cast_inj]

section
variable {flags : Word 3} {r : SampleDefaults} (hscale : r.timescale ≠ 0)
include hscale

/-- With durations of its own a run stays on the timeline until the sum leaves 64 bits. -/
theorem runSamples_slots_carried (hflag : flags.toNat &&& 0x0100 ≠ 0) (samples : List TrunSample)
    {v : RunVars} (hv : v.dts < 2 ^ 64) (start : Nat) :
    (runSamples flags r v samples).map Mp4Sample.slot =
        slots r.timescale start (samples.map fun f => f.sample_duration.toNat) ↔
      samples = [] ∨ v.dts = start ∧
        start + (samples.map fun f => f.sample_duration.toNat).dropLast.sum < 2 ^ 64 := by
  induction samples generalizing v start with
  | nil => simp [runSamples, slots]
  | cons f samples ih =>
      have hmove : sampleDuration flags r f = f.sample_duration.toNat := if_pos hflag
      have hslot : (runSample flags r v f).slot =
          ⟨v.dts / (r.timescale : Rat), f.sample_duration.toNat / (r.timescale : Rat)⟩ := by
        rw [runSample, hmove, Mp4Sample.make, Mp4Sample.slot, if_pos hflag]
      have hnext : (v.next flags r f).dts = (v.dts + f.sample_duration.toNat) % 2 ^ 64 := by
        rw [RunVars.next, hmove]
      have hnext64 : (v.next flags r f).dts < 2 ^ 64 := by
        rw [hnext]
        exact Nat.mod_lt _ (by decide)
      rw [runSamples, List.map_cons, hslot, List.map_cons, slots_cons, List.cons.injEq,
        Slot.mk.injEq, div_timescale_inj hscale, ih hnext64, hnext]
      cases samples with
      | nil => simp; omega
      | cons g samples =>
          simp only [List.map_cons, List.dropLast_cons_cons, List.sum_cons, reduceCtorEq, false_or,
            and_true]
          omega

/-- Without durations of its own a run reports none, and stays on the timeline when the
default it moves on by is zero or it has a single sample. -/
theorem runSamples_slots_default (hflag : ¬ flags.toNat &&& 0x0100 ≠ 0)
    (hr : r.default_sample_duration < 2 ^ 64) (samples : List TrunSample) {v : RunVars}
    (hv : v.dts < 2 ^ 64) (start default : Nat) :
    (runSamples flags r v samples).map Mp4Sample.slot =
        slots r.timescale start (samples.map fun _ => default) ↔
      samples = [] ∨ v.dts = start ∧ default = 0 ∧
        (r.default_sample_duration = 0 ∨ samples.length ≤ 1) := by
  induction samples generalizing v start with
  | nil => simp [runSamples, slots]
  | cons f samples ih =>
      have hmove : sampleDuration flags r f = r.default_sample_duration := if_neg hflag
      have hslot : (runSample flags r v f).slot = ⟨v.dts / (r.timescale : Rat), 0⟩ := by
        rw [runSample, Mp4Sample.make, Mp4Sample.slot, if_neg hflag]
      have hnext : (v.next flags r f).dts = (v.dts + r.default_sample_duration) % 2 ^ 64 := by
        rw [RunVars.next, hmove]
      have hnext64 : (v.next flags r f).dts < 2 ^ 64 := by
        rw [hnext]
        exact Nat.mod_lt _ (by decide)
      have hzero : (0 : Rat) = default / (r.timescale : Rat) ↔ default = 0 := by
        have h := div_timescale_inj (x := 0) (y := default) hscale
        rw [Nat.cast_zero, zero_div] at h
        exact h.trans eq_comm
      rw [runSamples, List.map_cons, hslot, List.map_cons, slots_cons, List.cons.injEq,
        Slot.mk.injEq, div_timescale_inj hscale, hzero, ih hnext64, hnext]
      cases samples with
      | nil => simp
      | cons g samples =>
          simp only [reduceCtorEq, false_or, List.length_cons]
          omega

end

/-- A run that starts with its track fragment is on the timeline from `start` on, where
`default` stands for the durations it does not carry and `register` is what the loop
moves on by. -/
def Trun.KeepsTime (b : Trun) (start default register : Nat) : Prop :=
  if b.carriesDurations then start + (b.durations default).dropLast.sum < 2 ^ 64
  else default = 0 ∧ (register = 0 ∨ b.val.samples.length ≤ 1)

instance (b : Trun) (start default register : Nat) :
    Decidable (b.KeepsTime start default register) :=
  inferInstanceAs (Decidable (ite _ _ _))

theorem Trun.slots_iff (b : Trun) {r : SampleDefaults} (hscale : r.timescale ≠ 0)
    (hr : r.default_sample_duration < 2 ^ 64) {v : RunVars} (hv : v.dts < 2 ^ 64)
    (start default : Nat) :
    (runSamples b.val.flags r v b.val.samples).map Mp4Sample.slot =
        slots r.timescale start (b.durations default) ↔
      b.val.samples = [] ∨
        v.dts = start ∧ b.KeepsTime start default r.default_sample_duration := by
  by_cases hflag : b.carriesDurations
  · have hown : b.durations default = b.val.samples.map fun f => f.sample_duration.toNat :=
      List.map_congr_left fun f _ => if_pos hflag
    rw [KeepsTime, if_pos hflag, hown]
    exact runSamples_slots_carried hscale hflag b.val.samples hv start
  · have hown : b.durations default = b.val.samples.map fun _ => default :=
      List.map_congr_left fun f _ => if_neg hflag
    rw [KeepsTime, if_neg hflag, hown]
    exact runSamples_slots_default hscale hflag hr b.val.samples hv start default

/-! ## All runs of a track fragment -/

/-- Every run with samples comes before any time has passed, and keeps the timeline. -/
def KeepTimeline (start default register : Nat) : Nat → List Trun → Prop
  | _, [] => True
  | elapsed, b :: runs =>
      (b.val.samples = [] ∨ elapsed = 0 ∧ b.KeepsTime start default register) ∧
        KeepTimeline start default register (elapsed + (b.durations default).sum) runs

instance KeepTimeline.decidable (start default register : Nat) :
    (elapsed : Nat) → (runs : List Trun) →
      Decidable (KeepTimeline start default register elapsed runs)
  | _, [] => inferInstanceAs (Decidable True)
  | elapsed, b :: runs =>
      have := decidable start default register (elapsed + (b.durations default).sum) runs
      inferInstanceAs (Decidable (_ ∧ _))

theorem append_slots_iff {xs ys us vs : List Slot} (h : xs.length = us.length) :
    xs ++ ys = us ++ vs ↔ xs = us ∧ ys = vs :=
  ⟨fun heq => List.append_inj heq h, fun heq => congrArg₂ (· ++ ·) heq.1 heq.2⟩

/-- The samples the demuxer makes of runs: each run starts at the decode time in the registers. -/
def runsSamples (r : Registers) (runs : List Trun) : List Mp4Sample :=
  runs.flatMap fun b => runSamples b.val.flags r.toSampleDefaults
    ⟨r.moof_ptr + Int.bmod b.val.data_offset.toNat (2 ^ 32), r.baseMediaDecodeTime⟩ b.val.samples

theorem runsSamples_slots_iff {r : Registers} (hscale : r.timescale ≠ 0)
    (hr : r.default_sample_duration < 2 ^ 64) (hstart : r.baseMediaDecodeTime < 2 ^ 64)
    (default elapsed : Nat) (runs : List Trun) :
    (runsSamples r runs).map Mp4Sample.slot =
        slots r.timescale (r.baseMediaDecodeTime + elapsed)
          (runs.flatMap fun b => b.durations default) ↔
      KeepTimeline r.baseMediaDecodeTime default r.default_sample_duration elapsed runs := by
  induction runs generalizing elapsed with
  | nil => exact iff_of_true rfl trivial
  | cons b runs ih =>
      have hstarts : r.baseMediaDecodeTime = r.baseMediaDecodeTime + elapsed ↔ elapsed = 0 := by
        omega
      have hlength : ((runSamples b.val.flags r.toSampleDefaults
          ⟨r.moof_ptr + Int.bmod b.val.data_offset.toNat (2 ^ 32), r.baseMediaDecodeTime⟩
          b.val.samples).map Mp4Sample.slot).length =
          (slots r.timescale (r.baseMediaDecodeTime + elapsed) (b.durations default)).length := by
        rw [slots_length, Trun.durations, List.length_map, List.length_map]
        exact runSamples_length ..
      rw [runsSamples, List.flatMap_cons, List.map_append, List.flatMap_cons, slots_append,
        append_slots_iff hlength, Trun.slots_iff b hscale hr hstart, hstarts, KeepTimeline,
        Nat.add_assoc]
      refine and_congr (or_congr Iff.rfl (and_congr_right fun hzero => ?_)) (ih _)
      rw [hzero, Nat.add_zero]

theorem leafBoxes_registers (boxes : List FragmentBox) (a : Nat) (r : Registers) :
    (leafBoxes boxes).registers a r =
      { r with samples := r.samples ++ runsSamples r (boxes.filterMap FragmentBox.run?) } := by
  induction boxes generalizing a r with
  | nil => simp [leafBoxes, Boxes.registers, runsSamples]
  | cons box boxes ih =>
      rw [leafBoxes, Boxes.registers, ih]
      cases box with
      | other type payload => rfl
      | run b => simp [FragmentBox.leaf, FragmentBox.run?, Leaf.registers, trunRegisters, runsSamples]

namespace TrackFragment

/-- The timeline is kept when each run keeps it; `register` is the default duration that
was read last before the track fragment. -/
def KeepsTimeline (t : TrackFragment) (trackDefault register : Nat) : Prop :=
  KeepTimeline t.start (t.defaultDuration trackDefault) (t.defaultDuration register) 0 t.runs

/-- The registers the runs of a track fragment start from. -/
def registers (t : TrackFragment) (r : Registers) : Registers :=
  tfdtRegisters t.tfdt (tfhdRegisters t.tfhd r)

theorem demuxHelper_samples {t : TrackFragment} (hfit : t.forest.Fits) {fuel : Nat}
    (hfuel : t.forest.fuel ≤ fuel) {m : Mem} {d : Demuxer} (h : Holds m d.ptr t.forest.bytes) :
    ∃ d', demuxHelper fuel (d.ptr + t.forest.bytes.length) m d = .ok ((), d') ∧
      d'.samples = d.samples ++ runsSamples (t.registers d.cursor.toRegisters) t.runs := by
  obtain ⟨d', hd', hr⟩ := demuxHelper_boxes hfit hfuel h d rfl
  have hsamples := congrArg Registers.samples hr
  simp only [forest, Boxes.registers, leafBoxes_registers] at hsamples
  exact ⟨d', hd', hsamples⟩

theorem start_lt (t : TrackFragment) : t.start < 2 ^ 64 := by
  have hwidth : timeWidth t.tfdt.version1 ≤ 8 := by
    cases t.tfdt.version1 <;> decide
  exact Nat.lt_of_lt_of_le t.tfdt.baseMediaDecodeTime.lt
    (Nat.pow_le_pow_right (by decide : 0 < 256) hwidth)

theorem defaultDuration_lt (t : TrackFragment) {register : Nat} (h : register < 2 ^ 32) :
    t.defaultDuration register < 2 ^ 32 := by
  unfold defaultDuration fieldOr
  split
  · exact t.tfhd.default_sample_duration.lt
  · exact h

theorem runsSamples_timeline_iff (t : TrackFragment) (trackDefault : Nat) {r : Registers}
    (hregister : r.default_sample_duration < 2 ^ 32) (hscale : r.timescale ≠ 0) :
    (runsSamples (t.registers r) t.runs).map Mp4Sample.slot =
        t.timeline r.timescale trackDefault ↔
      t.KeepsTimeline trackDefault r.default_sample_duration :=
  runsSamples_slots_iff (r := t.registers r) hscale
    (Nat.lt_trans (t.defaultDuration_lt hregister) (by decide)) t.start_lt
    (t.defaultDuration trackDefault) 0 t.runs

instance (t : TrackFragment) (trackDefault register : Nat) :
    Decidable (t.KeepsTimeline trackDefault register) :=
  KeepTimeline.decidable _ _ _ _ _

/-- On every track fragment, whatever was demuxed before it, the walk returns, and the
slots of the samples it adds are the timeline exactly when the runs keep it. -/
theorem timeline_iff (t : TrackFragment) (hfit : t.forest.Fits) (trackDefault : Nat) (m : Mem)
    (d : Demuxer) (hregister : d.default_sample_duration < 2 ^ 32) (hscale : d.timescale ≠ 0)
    (h : Holds m d.ptr t.forest.bytes) :
    ∃ enough, ∀ fuel, enough ≤ fuel → ∃ d' samples,
      demuxHelper fuel (d.ptr + t.forest.bytes.length) m d = .ok ((), d') ∧
      d'.samples = d.samples ++ samples ∧
      (samples.map Mp4Sample.slot = t.timeline d.timescale trackDefault ↔
        t.KeepsTimeline trackDefault d.default_sample_duration) := by
  refine ⟨t.forest.fuel, fun fuel hfuel => ?_⟩
  obtain ⟨d', hd', hsamples⟩ := demuxHelper_samples hfit hfuel h
  exact ⟨d', _, hd', hsamples,
    t.runsSamples_timeline_iff trackDefault (r := d.cursor.toRegisters) hregister hscale⟩

end TrackFragment

/-! ## Two runs -/

namespace TwoRuns

/-- One sample that lasts ten ticks. -/
def run : Trun := ⟨{
  version := .zero, flags := .ofNat 0x0101, data_offset := .zero
  first_sample_flags := .zero
  samples := [⟨.ofNat 10, .zero, .zero, .zero⟩]
  count_lt := by decide }, by decide⟩

def fragment (runs : List Trun) : TrackFragment where
  tfhd := {
    version := .zero, flags := .zero, track_ID := .zero, base_data_offset := .zero
    sample_description_index := .zero, default_sample_duration := .zero
    default_sample_size := .zero, default_sample_flags := .zero }
  tfdt := { version1 := false, flags := .zero, baseMediaDecodeTime := .zero }
  boxes := runs.map .run

def memory (runs : List Trun) : Mem := Mem.ofBytes (fragment runs).forest.bytes fun _ => 0

def demuxer : Demuxer := { (default : Demuxer) with timescale := 1 }

theorem holds (runs : List Trun) :
    Holds (memory runs) demuxer.ptr (fragment runs).forest.bytes :=
  holds_ofBytes (fragment runs).forest.bytes fun _ => 0

end TwoRuns

theorem oneRun_timeline :
    (TwoRuns.fragment [TwoRuns.run]).KeepsTimeline 0 0 ∧
      ∃ enough, ∀ fuel, enough ≤ fuel → ∃ d' samples,
        demuxHelper fuel (0 + (TwoRuns.fragment [TwoRuns.run]).forest.bytes.length)
          (TwoRuns.memory [TwoRuns.run]) TwoRuns.demuxer = .ok ((), d') ∧
        d'.samples = [] ++ samples ∧
        (samples.map Mp4Sample.slot = (TwoRuns.fragment [TwoRuns.run]).timeline 1 0 ↔
          (TwoRuns.fragment [TwoRuns.run]).KeepsTimeline 0 0) :=
  ⟨by decide,
    TrackFragment.timeline_iff (TwoRuns.fragment [TwoRuns.run]) (by decide) 0 _ TwoRuns.demuxer
      (by decide) (by decide) (TwoRuns.holds [TwoRuns.run])⟩

/-- The second of two runs starts again at the decode time of the track fragment. -/
theorem twoRuns_not_timeline :
    ¬ ∀ (t : TrackFragment) (trackDefault : Nat) (m : Mem) (d : Demuxer) (fuel : Nat)
      (d' : Demuxer) (samples : List Mp4Sample), t.forest.Fits →
      d.default_sample_duration < 2 ^ 32 → d.timescale ≠ 0 → Holds m d.ptr t.forest.bytes →
      demuxHelper fuel (d.ptr + t.forest.bytes.length) m d = .ok ((), d') →
      d'.samples = d.samples ++ samples →
      samples.map Mp4Sample.slot = t.timeline d.timescale trackDefault := by
  intro h
  have hfit : (TwoRuns.fragment [TwoRuns.run, TwoRuns.run]).forest.Fits := by decide
  have hholds := TwoRuns.holds [TwoRuns.run, TwoRuns.run]
  obtain ⟨d', hd', hsamples⟩ :=
    TrackFragment.demuxHelper_samples hfit (Nat.le_refl _) hholds
  have htimeline := h _ 0 _ _ _ d' _ hfit (by decide) (by decide) hholds hd' hsamples
  have hkeeps := (TrackFragment.runsSamples_timeline_iff _ 0 (by decide) (by decide)).mp htimeline
  rcases hkeeps.2.1 with hnil | ⟨hzero, -⟩
  · cases hnil
  · exact absurd hzero (by decide)

end PlayerInterface.Mp4Demux
