import PlayerInterface.Player.SourceSetup

/-!
# The number of tracks

`NumberOfTracks` is counted up in the first loop of `ConfigurePipeline`, the formats
are written in the second one and cleared by `TearDownStream`, and only
`DestroyPipeline` resets the count. What the platform decides in a call, the
outcomes of the set-ups included, is part of the call.
-/

namespace PlayerInterface.Player

open PlayerInterface.Core

def INVALID_RATE : Int := -9999
def GST_NORMAL_PLAY_RATE : Int := 1

/-- The arguments of `ConfigurePipeline` and what it learns from its environment. -/
structure ConfigureCall where
  format : GstStreamOutputFormat
  audioFormat : GstStreamOutputFormat
  auxFormat : GstStreamOutputFormat
  subFormat : GstStreamOutputFormat
  bESChangeStatus : Bool := false
  forwardAudioToAux : Bool := false
  isSubEnable : Bool := false
  rate : Int := GST_NORMAL_PLAY_RATE
  ShouldTearDownForTrickplay : Bool := false
  /-- `gst_pipeline_new` and `gst_pipeline_get_bus` return an object -/
  newPipeline : Bool := true
  newBus : Bool := true
  /-- `InterfacePlayer_SetupStream` returns 0 -/
  setUp : GstMediaType → Bool := fun _ => true

def ConfigureCall.newFormat (call : ConfigureCall) : GstMediaType → GstStreamOutputFormat
  | .video => call.format
  | .audio => call.audioFormat
  | .subtitle => if call.isSubEnable then call.subFormat else .invalid
  | .auxAudio => if call.forwardAudioToAux then call.audioFormat else call.auxFormat

/-- Streams other than the video stream are closed at this rate. -/
def ConfigureCall.forTrickplay (call : ConfigureCall) (rate : Int) : Bool :=
  call.ShouldTearDownForTrickplay && (decide (1 < rate) || decide (rate < 0))

structure TrackState where
  format : GstMediaType → GstStreamOutputFormat := fun _ => .invalid
  NumberOfTracks : Nat := 0
  rate : Int := GST_NORMAL_PLAY_RATE
  trickTeardown : Bool := false
  /-- there is a pipeline, there is a bus -/
  pipeline : Bool := false
  bus : Bool := false

inductive TrackAct where
  | ConfigurePipeline (call : ConfigureCall)
  | TearDownStream (type : GstMediaType)
  | Stop
  | SetTrickTearDown (state : Bool)
  /-- `Flush` -/
  | setRate (rate : Int)

namespace TrackState

def TearDownStream (s : TrackState) (type : GstMediaType) : TrackState :=
  if s.format type ≠ .invalid then
    { s with format := Function.update s.format type .invalid }
  else s

def DestroyPipeline (s : TrackState) : TrackState :=
  { s with pipeline := false, bus := false, NumberOfTracks := 0 }

def CreatePipeline (s : TrackState) (call : ConfigureCall) : TrackState :=
  let s := if s.pipeline || s.bus then s.DestroyPipeline else s
  { s with pipeline := call.newPipeline, bus := call.newPipeline && call.newBus }

/-- The first loop: the state and `configureStream` after one more track. -/
def decideStream (call : ConfigureCall) (r : TrackState × (GstMediaType → Bool))
    (i : GstMediaType) : TrackState × (GstMediaType → Bool) :=
  let counted := decide (r.1.format i ≠ call.newFormat i) && decide (call.newFormat i ≠ .invalid)
  let r := if counted then
      ({ r.1 with NumberOfTracks := r.1.NumberOfTracks + 1 }, Function.update r.2 i true)
    else r
  let r := if call.forTrickplay r.1.rate then
      if i = .video then (r.1, Function.update r.2 i true)
      else (r.1.TearDownStream i, Function.update r.2 i false)
    else r
  if !r.2 i && call.bESChangeStatus && decide (i = .audio) then
    (r.1, Function.update r.2 i true)
  else r

/-- The second loop; a failed set-up ends it unless it is that of the subtitles. -/
def setupStreams (call : ConfigureCall) (configureStream : GstMediaType → Bool) :
    List GstMediaType → TrackState → TrackState
  | [], s => s
  | i :: rest, s =>
      if configureStream i && decide (call.newFormat i ≠ .invalid) ||
          s.trickTeardown && decide (i = .audio) then
        let s := { s with trickTeardown := false }.TearDownStream i
        let s := { s with format := Function.update s.format i (call.newFormat i) }
        if !call.setUp i && decide (i ≠ .subtitle) then s
        else setupStreams call configureStream rest s
      else setupStreams call configureStream rest s

/-- The rate that the call leaves. -/
def playRate (s : TrackState) (call : ConfigureCall) : Int :=
  if call.rate ≠ INVALID_RATE then call.rate else s.rate

def ConfigurePipeline (s : TrackState) (call : ConfigureCall) : TrackState :=
  let s := { s with rate := s.playRate call }
  let s := if !s.pipeline || !s.bus then s.CreatePipeline call else s
  let r := GstMediaType.tracks.foldl (decideStream call) (s, fun _ => false)
  setupStreams call r.2 GstMediaType.tracks r.1

def Stop (s : TrackState) : TrackState :=
  { (GstMediaType.tracks.foldl TearDownStream s).DestroyPipeline with
    rate := GST_NORMAL_PLAY_RATE }

/-- `notifyFirstBuffer` of `NotifyFirstFrame`. -/
def notifyFirstBuffer (s : TrackState) (firstFrameReceived firstVideoFrameReceived
    firstAudioFrameReceived : Bool) : Bool :=
  !firstFrameReceived && (firstVideoFrameReceived ||
    decide (s.NumberOfTracks = 1) && (firstAudioFrameReceived || firstVideoFrameReceived))

def step (s : TrackState) : TrackAct → Option TrackState
  | .ConfigurePipeline call => some (s.ConfigurePipeline call)
  | .TearDownStream type => some (s.TearDownStream type)
  | .Stop => some s.Stop
  | .SetTrickTearDown state => some { s with trickTeardown := state }
  | .setRate rate => some { s with rate := rate }

/-- The constructor does not set `trickTeardown`. -/
structure Initial (s : TrackState) : Prop where
  format : ∀ i, s.format i = .invalid
  count : s.NumberOfTracks = 0
  rate : s.rate = GST_NORMAL_PLAY_RATE
  pipeline : s.pipeline = false
  bus : s.bus = false

end TrackState

def trackSystem : System TrackState TrackAct where
  init := TrackState.Initial
  step := TrackState.step

end PlayerInterface.Player
