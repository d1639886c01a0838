import Mathlib.Data.List.Induction
import PlayerInterface.Player.TrackCount

/-!
# What the AV monitor says of a poll

`MonitorAV` compares the positions of a poll with those of the poll before. The flag that
has a jump looked for is never set, and the difference of the positions is cut to an `int`.
-/

namespace PlayerInterface.Player

/-- `GstConfigParam` as far as the monitor reads it. -/
structure MonitorConfig where
  monitorAvsyncThresholdPositiveMs : Int32
  monitorAvsyncThresholdNegativeMs : Int32
  monitorAvJumpThresholdMs : Int32
deriving DecidableEq, Repr

inductive AvDescription where
  | stall
  | videoFreeze
  | audioDrop
  | eos
  | trickplay
  | avsync
  | jump
  | ok
deriving DecidableEq, Repr

structure MonitorAVState where
  tLastReported : Int := 0
  tLastSampled : Int := 0
  description : Option AvDescription := none
  av_position : GstMediaType → Int := fun _ => 0
  happy : Bool := false

/-- What a call finds: whether the state query succeeds and tells `GST_STATE_PLAYING`, the rate, the
clock, and the positions in nanoseconds, `none` without a sink or a format or when the query
fails. -/
structure AvPoll where
  stateKnown : Bool := true
  playing : Bool := true
  rate : Int := GST_NORMAL_PLAY_RATE
  tNow : Int
  position : GstMediaType → Option Int

/-! ## The monitor -/

/-- What the loop over the tracks has gathered. -/
structure AvSample where
  description : Option AvDescription := none
  numTracks : Nat := 0
  bigJump : Bool := false
  av_position : GstMediaType → Int := fun _ => 0

def GST_TIME_AS_MSECONDS (time : Int) : Int := time.tdiv 1000000

/-- One turn of the loop. -/
def sampleTrack (config : MonitorConfig) (monitorAVState : MonitorAVState) (poll : AvPoll)
    (sample : AvSample) (i : GstMediaType) : AvSample :=
  match poll.position i with
  | none => sample
  | some position =>
      let ms := GST_TIME_AS_MSECONDS position
      let sample :=
        if ms = monitorAVState.av_position i then
          { sample with
            description :=
              some (if sample.description.isSome then .stall
                else if i = .video then .videoFreeze else .audioDrop) }
        else if i = .video ∧ monitorAVState.happy then
          let actualDelta := ms - monitorAVState.av_position i
          let expectedDelta := poll.tNow - monitorAVState.tLastSampled
          if expectedDelta + config.monitorAvJumpThresholdMs.toInt < actualDelta then
            { sample with bigJump := true }
          else sample
        else sample
      { sample with
        av_position := Function.update sample.av_position i ms
        numTracks := sample.numTracks + 1 }

/-- The difference in milliseconds as an `int`. -/
def AvSample.delta (sample : AvSample) : Int32 :=
  Int32.ofInt (sample.av_position .video - sample.av_position .audio)

def Diverged (config : MonitorConfig) (delta : Int) : Prop :=
  config.monitorAvsyncThresholdPositiveMs.toInt < delta ∨
    delta < config.monitorAvsyncThresholdNegativeMs.toInt

instance (config : MonitorConfig) (delta : Int) : Decidable (Diverged config delta) :=
  inferInstanceAs (Decidable (_ ∨ _))

/-- The switch on the number of tracks. -/
def AvSample.describe (config : MonitorConfig) (sample : AvSample) : AvDescription :=
  let description : Option AvDescription :=
    match sample.numTracks with
    | 0 => some .eos
    | 1 => some .trickplay
    | 2 =>
        if Diverged config sample.delta.toInt then
          if sample.description.isNone then some .avsync else sample.description
        else if sample.bigJump then some .jump
        else sample.description
    | _ => sample.description
  description.getD .ok

/-- Without its log lines. -/
def MonitorAV (config : MonitorConfig) (monitorAVState : MonitorAVState) (poll : AvPoll) :
    MonitorAVState :=
  if poll.stateKnown && poll.playing then
    let tLastReported :=
      if monitorAVState.tLastReported = 0 then poll.tNow else monitorAVState.tLastReported
    -- the audio position is not read in trickplay
    let tracks :=
      if poll.rate = GST_NORMAL_PLAY_RATE then [GstMediaType.video, .audio] else [.video]
    let sample := tracks.foldl (sampleTrack config monitorAVState poll) {}
    let description := sample.describe config
    { monitorAVState with
      tLastReported :=
        if monitorAVState.description = some description then tLastReported else poll.tNow
      tLastSampled := poll.tNow
      description := some description
      av_position := sample.av_position }
  else monitorAVState

/-! ## What is due -/

/-- A poll while playing at normal rate that finds both positions. -/
structure PlayingPoll where
  tNow : Int
  video : Nat
  audio : Nat
deriving DecidableEq, Repr

def PlayingPoll.poll (p : PlayingPoll) : AvPoll where
  tNow := p.tNow
  position
    | .video => some p.video
    | .audio => some p.audio
    | _ => none

namespace PlayingPoll

def videoMs (p : PlayingPoll) : Int := GST_TIME_AS_MSECONDS p.video

def audioMs (p : PlayingPoll) : Int := GST_TIME_AS_MSECONDS p.audio

end PlayingPoll

/-- The video went on by more than the wall time and the threshold. -/
def Jumped (config : MonitorConfig) (before after : PlayingPoll) : Prop :=
  after.tNow - before.tNow + config.monitorAvJumpThresholdMs.toInt < after.videoMs - before.videoMs

instance (config : MonitorConfig) (before after : PlayingPoll) :
    Decidable (Jumped config before after) :=
  inferInstanceAs (Decidable (_ < _))

def dueDescription (config : MonitorConfig) (before after : PlayingPoll) : AvDescription :=
  if after.videoMs = before.videoMs then
    if after.audioMs = before.audioMs then .stall else .videoFreeze
  else if after.audioMs = before.audioMs then .audioDrop
  else if Diverged config (after.videoMs - after.audioMs) then .avsync
  else if Jumped config before after then .jump
  else .ok

/-- Where both moved, the difference is outside the thresholds and stays there as an `int`, or it is
inside and the video did not jump. -/
def Recognised (config : MonitorConfig) (before after : PlayingPoll) : Prop :=
  after.videoMs ≠ before.videoMs → after.audioMs ≠ before.audioMs →
    if Diverged config (after.videoMs - after.audioMs) then
      Diverged config (Int32.ofInt (after.videoMs - after.audioMs)).toInt
    else ¬ Jumped config before after

/-! ## One poll -/

/-- The state behind a poll, as the next poll reads it. -/
structure Remembers (monitorAVState : MonitorAVState) (p : PlayingPoll) : Prop where
  video : monitorAVState.av_position .video = p.videoMs
  audio : monitorAVState.av_position .audio = p.audioMs
  tLastSampled : monitorAVState.tLastSampled = p.tNow

variable {config : MonitorConfig} {monitorAVState : MonitorAVState}

/-- One turn of the loop while no jump is looked for. -/
theorem sampleTrack_eq (hhappy : monitorAVState.happy = false) {poll : AvPoll} {i : GstMediaType}
    {position : Int} (hposition : poll.position i = some position) (sample : AvSample) :
    sampleTrack config monitorAVState poll sample i =
      { description :=
          if GST_TIME_AS_MSECONDS position = monitorAVState.av_position i then
            some (if sample.description.isSome then .stall
              else if i = .video then .videoFreeze else .audioDrop)
          else sample.description
        numTracks := sample.numTracks + 1
        bigJump := sample.bigJump
        av_position := Function.update sample.av_position i (GST_TIME_AS_MSECONDS position) } := by
  rw [sampleTrack, hposition]
  by_cases hsame : GST_TIME_AS_MSECONDS position = monitorAVState.av_position i
  · simp only [if_pos hsame]
  · simp [hsame, hhappy]

variable (config) in
/-- What the two turns gather. -/
theorem sampleTrack_both (hhappy : monitorAVState.happy = false) (p : PlayingPoll) :
    [GstMediaType.video, .audio].foldl (sampleTrack config monitorAVState p.poll) {} =
      { description :=
          if p.videoMs = monitorAVState.av_position .video then
            some (if p.audioMs = monitorAVState.av_position .audio then .stall else .videoFreeze)
          else if p.audioMs = monitorAVState.av_position .audio then some .audioDrop
          else none
        numTracks := 2
        av_position :=
          Function.update (Function.update (fun _ => 0) .video p.videoMs) .audio p.audioMs } := by
  have hvideo : p.poll.position .video = some (p.video : Int) := rfl
  have haudio : p.poll.position .audio = some (p.audio : Int) := rfl
  rw [List.foldl_cons, sampleTrack_eq hhappy hvideo, List.foldl_cons, sampleTrack_eq hhappy haudio,
    List.foldl_nil]
  unfold PlayingPoll.videoMs PlayingPoll.audioMs
  by_cases hv : GST_TIME_AS_MSECONDS p.video = monitorAVState.av_position .video <;>
    by_cases ha : GST_TIME_AS_MSECONDS p.audio = monitorAVState.av_position .audio <;>
    simp [hv, ha]

/-- A poll is remembered, and the flag stays as it is. -/
theorem MonitorAV_remembers (hhappy : monitorAVState.happy = false) (p : PlayingPoll) :
    Remembers (MonitorAV config monitorAVState p.poll) p ∧
      (MonitorAV config monitorAVState p.poll).happy = false := by
  have hsample := sampleTrack_both config hhappy p
  have hposition : (MonitorAV config monitorAVState p.poll).av_position =
      Function.update (Function.update (fun _ => 0) .video p.videoMs) .audio p.audioMs :=
    congrArg AvSample.av_position hsample
  refine ⟨⟨?_, ?_, rfl⟩, hhappy⟩
  · rw [hposition]
    rfl
  · rw [hposition]
    rfl

/-- What the monitor says of a poll: a jump is never said. -/
theorem MonitorAV_description (hhappy : monitorAVState.happy = false) {before : PlayingPoll}
    (hbefore : Remembers monitorAVState before) (after : PlayingPoll) :
    (MonitorAV config monitorAVState after.poll).description = some
      (if after.videoMs = before.videoMs then
        if after.audioMs = before.audioMs then .stall else .videoFreeze
      else if after.audioMs = before.audioMs then .audioDrop
      else if Diverged config (Int32.ofInt (after.videoMs - after.audioMs)).toInt then .avsync
      else .ok) := by
  have hsample := sampleTrack_both config hhappy after
  have hdescription : (MonitorAV config monitorAVState after.poll).description =
      some (([GstMediaType.video, .audio].foldl
        (sampleTrack config monitorAVState after.poll) {}).describe config) := rfl
  rw [hdescription, hsample, hbefore.video, hbefore.audio]
  unfold AvSample.describe
  have hdelta : AvSample.delta
      { av_position := Function.update (Function.update (fun _ => 0) .video after.videoMs) .audio
          after.audioMs } = Int32.ofInt (after.videoMs - after.audioMs) := rfl
  simp only [AvSample.delta] at hdelta ⊢
  rw [hdelta]
  generalize (Int32.ofInt (after.videoMs - after.audioMs)).toInt = delta
  by_cases hv : after.videoMs = before.videoMs <;> by_cases ha : after.audioMs = before.audioMs <;>
    by_cases hd : Diverged config delta <;> simp [hv, ha, hd]

/-- The thresholds are `int`s, so a difference inside them is not changed. -/
theorem cut_of_inside {delta : Int} (h : ¬ Diverged config delta) :
    (Int32.ofInt delta).toInt = delta := by
  have hpositive := config.monitorAvsyncThresholdPositiveMs.toInt_lt
  have hnegative := config.monitorAvsyncThresholdNegativeMs.le_toInt
  unfold Diverged at h
  exact Int32.toInt_ofInt_of_le (by omega) (by omega)

theorem description_due_iff (hhappy : monitorAVState.happy = false) {before : PlayingPoll}
    (hbefore : Remembers monitorAVState before) (after : PlayingPoll) :
    (MonitorAV config monitorAVState after.poll).description =
        some (dueDescription config before after) ↔ Recognised config before after := by
  rw [MonitorAV_description hhappy hbefore]
  unfold dueDescription Recognised
  by_cases hv : after.videoMs = before.videoMs
  · simp [hv]
  · by_cases ha : after.audioMs = before.audioMs
    · simp [ha]
    · simp only [hv, ha, if_false, ne_eq, not_false_eq_true, true_implies]
      by_cases hexact : Diverged config (after.videoMs - after.audioMs)
      · simp only [if_pos hexact]
        by_cases hcut : Diverged config (Int32.ofInt (after.videoMs - after.audioMs)).toInt
        · exact iff_of_true (by rw [if_pos hcut]) hcut
        · exact iff_of_false (by rw [if_neg hcut]; exact fun h => by cases h) hcut
      · simp only [if_neg hexact, cut_of_inside hexact]
        by_cases hjump : Jumped config before after <;> simp [hjump]

/-! ## Runs -/

/-- The state behind polls from the construction on. -/
def monitorRun (config : MonitorConfig) (polls : List PlayingPoll) : MonitorAVState :=
  polls.foldl (fun monitorAVState p => MonitorAV config monitorAVState p.poll) {}

theorem monitorRun_concat (config : MonitorConfig) (polls : List PlayingPoll) (p : PlayingPoll) :
    monitorRun config (polls ++ [p]) = MonitorAV config (monitorRun config polls) p.poll := by
  rw [monitorRun, List.foldl_append]
  rfl

theorem monitorRun_happy (config : MonitorConfig) (polls : List PlayingPoll) :
    (monitorRun config polls).happy = false := by
  induction polls using List.reverseRecOn with
  | nil => rfl
  | append_singleton polls p ih =>
      rw [monitorRun_concat]
      exact (MonitorAV_remembers ih p).2

theorem monitorRun_remembers (config : MonitorConfig) (polls : List PlayingPoll)
    (p : PlayingPoll) : Remembers (monitorRun config (polls ++ [p])) p := by
  rw [monitorRun_concat]
  exact (MonitorAV_remembers (monitorRun_happy config polls) p).1

/-- The polls of a run with the one before each: every description from the second poll on. -/
def DescribesDue (config : MonitorConfig) (polls : List PlayingPoll) : Prop :=
  ∀ earlier before after later, polls = earlier ++ before :: after :: later →
    (monitorRun config (earlier ++ [before, after])).description =
      some (dueDescription config before after)

/-- In every run the descriptions are the ones due exactly when each poll is recognised. -/
theorem describesDue_iff (config : MonitorConfig) (polls : List PlayingPoll) :
    DescribesDue config polls ↔
      ∀ earlier before after later, polls = earlier ++ before :: after :: later →
        Recognised config before after := by
  have hpoll : ∀ earlier before after,
      (monitorRun config (earlier ++ [before, after])).description =
        some (dueDescription config before after) ↔ Recognised config before after := by
    intro earlier before after
    have hsplit : earlier ++ [before, after] = (earlier ++ [before]) ++ [after] := by simp
    rw [hsplit, monitorRun_concat]
    exact description_due_iff (monitorRun_happy config _) (monitorRun_remembers config earlier before)
      after
  constructor
  · intro h earlier before after later hpolls
    exact (hpoll earlier before after).mp (h earlier before after later hpolls)
  · intro h earlier before after later hpolls
    exact (hpoll earlier before after).mpr (h earlier before after later hpolls)

/-- Nine seconds of video in one second are no jump. -/
theorem jump_missed :
    ¬ DescribesDue ⟨100, -100, 100⟩ [⟨1000, 1000000000, 1000000000⟩, ⟨2000, 10000000000, 10000000000⟩] := by
  intro h
  have hdue := h [] _ _ [] rfl
  exact absurd hdue (by decide)

end PlayerInterface.Player
