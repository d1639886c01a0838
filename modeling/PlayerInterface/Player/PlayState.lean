import PlayerInterface.Player.TrackCount

/-!
# Playing, paused, and the buffering before the start

The state that was last asked for, and the state in which the pipeline is left or will be left by
the buffering timer. A call or a callback is one step; a state that is set counts as reached.
-/

namespace PlayerInterface.Player

open PlayerInterface.Core

inductive GstState where
  | null
  | ready
  | paused
  | playing
deriving DecidableEq, Repr

inductive GstMediaFormat where
  | hls
  | dash
  | progressive
  | hlsMp4
  | ota
  | hdmi
  | composite
  | smoothStreamingMedia
  | rmf
  | unknown
deriving DecidableEq, Repr

/-- The application is told to tune again when the buffering takes too long. -/
def GstMediaFormat.retunes (media : GstMediaFormat) : Bool :=
  media ≠ .dash && media ≠ .progressive && media ≠ .hlsMp4

def DEFAULT_BUFFERING_TO_MS : Nat := 10

def DEFAULT_BUFFERING_MAX_MS : Nat := 1000

def DEFAULT_BUFFERING_MAX_CNT : UInt32 :=
  UInt32.ofNat (DEFAULT_BUFFERING_MAX_MS / DEFAULT_BUFFERING_TO_MS)

/-- Beside what decides about the tracks. -/
structure StartCall extends ConfigureCall where
  setReadyAfterPipelineCreation : Bool := false
  gstreamerBufferingBeforePlay : Bool := false

structure PlayState extends TrackState where
  /-- the state the pipeline was last set to -/
  current : GstState := .null
  buffering_enabled : Bool := false
  buffering_in_progress : Bool := false
  buffering_timeout_cnt : UInt32 := 0
  buffering_target_state : GstState := .null
  pauseOnStartPlayback : Bool := false
  paused : Bool := false
  pendingPlayState : Bool := false
  numberOfVideoBuffersSent : Int := 0
  /-- what was last asked for; nothing is while the application has to tune again -/
  wanted : Option GstState := none

inductive PlayAct where
  | ConfigurePipeline (call : StartCall)
  | TearDownStream (type : GstMediaType)
  | Stop
  | SetTrickTearDown (state : Bool)
  /-- `flushed` tells that the pipeline could be flushed -/
  | Flush (rate : Int) (flushed : Bool)
  | Pause (pause forceStopGstreamerPreBuffering : Bool)
  | SetPauseOnStartPlayback (enable : Bool)
  | EnablePendingPlayState
  | NotifyFragmentCachingComplete
  | EndOfStreamReached (type : GstMediaType) (firstBufferProcessed : Bool)
  /-- a video buffer is sent -/
  | SendHelper
  /-- the frames queued in the decoder, where there is one -/
  | buffering_timeout (media : GstMediaFormat) (framesToQueue : Int) (queued_frames : Option Int)
  | GST_MESSAGE_CLOCK_LOST (media : GstMediaFormat)
  | GST_MESSAGE_STATE_CHANGED (new_state : GstState)

namespace PlayState

def SetStateWithWarnings (s : PlayState) (targetState : GstState) : PlayState :=
  if s.pipeline then { s with current := targetState } else s

def TearDownStream (s : PlayState) (type : GstMediaType) : PlayState :=
  if s.format type ≠ .invalid then
    { s with
      toTrackState := s.toTrackState.TearDownStream type
      buffering_in_progress := s.buffering_in_progress && !s.pipeline }
  else s

def CreatePipeline (s : PlayState) (call : StartCall) : PlayState :=
  let s := { s with
    toTrackState := s.toTrackState.CreatePipeline call.toConfigureCall
    current := .null }
  if s.bus then
    { s with
      buffering_enabled := call.gstreamerBufferingBeforePlay
      buffering_in_progress := false
      buffering_timeout_cnt := DEFAULT_BUFFERING_MAX_CNT
      buffering_target_state := .null }
  else s

/-- The first loop: a stream that is closed for trick play ends the buffering. -/
def decideStream (call : StartCall) (r : PlayState × (GstMediaType → Bool)) (i : GstMediaType) :
    PlayState × (GstMediaType → Bool) :=
  let tracks := TrackState.decideStream call.toConfigureCall (r.1.toTrackState, r.2) i
  let s := if call.forTrickplay r.1.rate && decide (i ≠ .video) then r.1.TearDownStream i else r.1
  ({ s with toTrackState := tracks.1 }, tracks.2)

/-- The second loop, and whether it came to its end. -/
def setupStreams (call : StartCall) (configureStream : GstMediaType → Bool) :
    List GstMediaType → PlayState → PlayState × Bool
  | [], s => (s, true)
  | i :: rest, s =>
      if configureStream i && decide (call.newFormat i ≠ .invalid) ||
          s.trickTeardown && decide (i = .audio) then
        let s := { s with trickTeardown := false }.TearDownStream i
        let s := { s with format := Function.update s.format i (call.newFormat i) }
        if !call.setUp i && decide (i ≠ .subtitle) then (s, false)
        else setupStreams call configureStream rest s
      else setupStreams call configureStream rest s

/-- `ConfigurePipeline` up to the end of the second loop. -/
def prepare (s : PlayState) (call : StartCall) : PlayState × Bool :=
  let s := { s with rate := s.playRate call.toConfigureCall }
  let s := if !s.pipeline || !s.bus then s.CreatePipeline call else s
  let s := if call.setReadyAfterPipelineCreation then s.SetStateWithWarnings .ready else s
  let r := GstMediaType.tracks.foldl (decideStream call) (s, fun _ => false)
  setupStreams call r.2 GstMediaType.tracks r.1

def startsPaused (s : PlayState) : Bool :=
  s.pauseOnStartPlayback && decide (s.rate = GST_NORMAL_PLAY_RATE)

def startsBuffering (s : PlayState) (format : GstStreamOutputFormat) : Bool :=
  !s.startsPaused && s.buffering_enabled && decide (format ≠ .invalid) &&
    decide (s.rate = GST_NORMAL_PLAY_RATE)

/-- `ConfigurePipeline` behind the loops. -/
def start (s : PlayState) (format : GstStreamOutputFormat) : PlayState :=
  let s :=
    if s.startsPaused then
      let s := { s with paused := true, pendingPlayState := false, wanted := some .paused }
      s.SetStateWithWarnings .paused
    else if s.startsBuffering format then
      let s := { s with
        buffering_target_state := .playing
        buffering_in_progress := true
        buffering_timeout_cnt := DEFAULT_BUFFERING_MAX_CNT }
      { s.SetStateWithWarnings .paused with
        pendingPlayState := false
        paused := false
        wanted := some .playing }
    else
      { s.SetStateWithWarnings .playing with
        pendingPlayState := false
        paused := false
        wanted := some .playing }
  { s with numberOfVideoBuffersSent := 0 }

def ConfigurePipeline (s : PlayState) (call : StartCall) : PlayState :=
  let r := s.prepare call
  if r.2 then r.1.start call.format else { r.1 with wanted := none }

def Stop (s : PlayState) : PlayState :=
  let s := if s.pipeline then
      { s with buffering_in_progress := false }.SetStateWithWarnings .null
    else s
  let s := GstMediaType.tracks.foldl TearDownStream s
  { s with
    toTrackState := { s.toTrackState.DestroyPipeline with rate := GST_NORMAL_PLAY_RATE }
    paused := false
    wanted := none }

def Pause (s : PlayState) (pause forceStopGstreamerPreBuffering : Bool) : PlayState :=
  if s.pipeline then
    let nextState : GstState := if pause then .paused else .playing
    let s := { s with
      buffering_target_state := nextState
      buffering_in_progress :=
        s.buffering_in_progress && !(pause && forceStopGstreamerPreBuffering) }
    { s.SetStateWithWarnings nextState with
      buffering_target_state := nextState
      paused := pause
      pendingPlayState := false
      wanted := some nextState }
  else s

def NotifyFragmentCachingComplete (s : PlayState) : PlayState :=
  if s.pendingPlayState then
    { { s with buffering_target_state := .playing }.SetStateWithWarnings .playing with
      pendingPlayState := false
      wanted := some .playing }
  else s

def EndOfStreamReached (s : PlayState) (type : GstMediaType) (firstBufferProcessed : Bool) :
    PlayState :=
  if s.format type ≠ .invalid ∧ firstBufferProcessed = false then s
  else s.NotifyFragmentCachingComplete

def finishBuffering (s : PlayState) : PlayState :=
  { s.SetStateWithWarnings s.buffering_target_state with buffering_in_progress := false }

def buffering_timeout (s : PlayState) (media : GstMediaFormat) (framesToQueue : Int)
    (queued_frames : Option Int) : PlayState :=
  if s.buffering_in_progress then
    let frames := queued_frames.getD (-1)
    if media.retunes && s.buffering_timeout_cnt == 0 && decide (0 < s.numberOfVideoBuffersSent) then
      { s with buffering_in_progress := false, wanted := none }
    else if frames = -1 ∨ framesToQueue ≤ frames then s.finishBuffering
    else
      let t := { s with buffering_timeout_cnt := s.buffering_timeout_cnt - 1 }
      if s.buffering_timeout_cnt = 0 then t.finishBuffering else t
  else s

def GST_MESSAGE_CLOCK_LOST (s : PlayState) (media : GstMediaFormat) : PlayState :=
  if media ≠ .dash then (s.SetStateWithWarnings .paused).SetStateWithWarnings .playing else s

def GST_MESSAGE_STATE_CHANGED (s : PlayState) (new_state : GstState) : PlayState :=
  if new_state = .paused ∨ new_state = .playing then { s with pauseOnStartPlayback := false }
  else s

def Flush (s : PlayState) (rate : Int) (flushed : Bool) : PlayState :=
  let s := { s with rate }
  if s.pipeline && flushed then { s with numberOfVideoBuffersSent := 0 } else s

def step (s : PlayState) : PlayAct → Option PlayState
  | .ConfigurePipeline call => some (s.ConfigurePipeline call)
  | .TearDownStream type => some (s.TearDownStream type)
  | .Stop => some s.Stop
  | .SetTrickTearDown state => some { s with trickTeardown := state }
  | .Flush rate flushed => some (s.Flush rate flushed)
  | .Pause pause forceStop => some (s.Pause pause forceStop)
  | .SetPauseOnStartPlayback enable => some { s with pauseOnStartPlayback := enable }
  | .EnablePendingPlayState => some { s with pendingPlayState := true }
  | .NotifyFragmentCachingComplete => some s.NotifyFragmentCachingComplete
  | .EndOfStreamReached type firstBufferProcessed =>
      some (s.EndOfStreamReached type firstBufferProcessed)
  | .SendHelper => some { s with numberOfVideoBuffersSent := s.numberOfVideoBuffersSent + 1 }
  | .buffering_timeout media framesToQueue queued_frames =>
      some (s.buffering_timeout media framesToQueue queued_frames)
  | .GST_MESSAGE_CLOCK_LOST media => some (s.GST_MESSAGE_CLOCK_LOST media)
  | .GST_MESSAGE_STATE_CHANGED new_state => some (s.GST_MESSAGE_STATE_CHANGED new_state)

end PlayState
end PlayerInterface.Player
