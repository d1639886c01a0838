import PlayerInterface.Core.History
import PlayerInterface.Player.TrackCount

/-!
# What the sources of the streams are told

The first buffer behind a new tune, a seek or a change of period comes with events for the
demultiplexer: where to seek, the rate, the protection. Whether a buffer is the first one is read
before the call waits for the source; everything behind the wait is one step here, as is any other
call. That a call goes on only with a source that is there is not looked at again.
-/

namespace PlayerInterface.Player

open PlayerInterface.Core

/-- What is pushed to a source. `reset` is no push: the position of the stream is reset; and a
buffer is recorded with the rate of its moment. -/
inductive Injected (ε : Type) where
  | reset
  /-- the events of `SendGstEvents` follow -/
  | events (rate : Int)
  | seek (position : Rat)
  | override (enable : Bool) (rate : Int) (fps : Nat)
  | protection (event : ε)
  | segment (start : Nat) (applied_rate : Int)
  | buffer (rate : Int)

/-- The arguments of `SendHelper`, the configuration it reads and the platform's answers.
`copied` tells that the auxiliary stream gets its copy. -/
structure SendArgs where
  pts : Nat
  sendNewSegmentEvent : Bool
  enablePTSReStamp : Bool
  vodTrickModeFPS : Nat
  IsPlatformSegmentReady : Bool
  IsVideoMaster : Bool
  allocated : Bool
  copied : Bool

/-- How a `Flush` ends: nothing is done, the application stops the pipeline (because the audio
decoder is not ready, when the pipeline is), or the pipeline is flushed, and the seek succeeds. -/
inductive FlushOutcome where
  | refused
  | stopped (decoder : Bool)
  | flushed (seeked : Bool)

structure InjectionState (ι ε : Type) extends TrackState where
  resetPosition : GstMediaType → Bool := fun _ => false
  pendingSeek : GstMediaType → Bool := fun _ => false
  seekPosition : Rat := 0
  forwardAudioBuffers : Bool := false
  mPauseInjector : Bool := false
  protectionEvent : GstMediaType → Option ε := fun _ => none
  injected : GstMediaType → List (Injected ε) := fun _ => []
  /-- the stream of a call that waits, and its `isFirstBuffer` -/
  calls : ι → Option (GstMediaType × Bool) := fun _ => none

inductive InjectionAct (ι ε : Type) where
  | SendHelper (j : ι) (type : GstMediaType)
  /-- the wait is over, and succeeded or did not -/
  | goOn (j : ι) (args : SendArgs)
  | giveUp (j : ι)
  | ConfigurePipeline (call : ConfigureCall)
  | TearDownStream (type : GstMediaType)
  | Stop
  | SetTrickTearDown (state : Bool)
  | Flush (position : Rat) (rate : Int) (outcome : FlushOutcome)
  | SetPendingSeek (state : Bool)
  | QueueProtectionEvent (type : GstMediaType) (event : Option ε)
  | ClearProtectionEvent
  /-- `PauseInjector` or `ResumeInjector` -/
  | setInjector (pause : Bool)

namespace InjectionState

variable {ι ε : Type}

def inject (s : InjectionState ι ε) (type : GstMediaType) (xs : List (Injected ε)) :
    InjectionState ι ε :=
  { s with injected := Function.update s.injected type (s.injected type ++ xs) }

def ForwardAudioBuffersToAux (s : InjectionState ι ε) : Bool :=
  s.forwardAudioBuffers && decide (s.format .auxAudio ≠ .invalid)

/-- The event of the stream, or the first one of another stream. -/
def protectionFor (s : InjectionState ι ε) (type : GstMediaType) : Option ε :=
  match s.protectionEvent type with
  | some event => some event
  | none => (GstMediaType.tracks.filter (· ≠ type)).findSome? s.protectionEvent

/-- `SendQtDemuxOverrideEvent`. -/
def overrideEvent (s : InjectionState ι ε) (type : GstMediaType) (args : SendArgs) :
    List (Injected ε) :=
  let enableOverride := !args.enablePTSReStamp && decide (s.rate ≠ GST_NORMAL_PLAY_RATE)
  if s.format type = .isoBmff ∧ type ≠ .subtitle then
    [.override enableOverride s.rate args.vodTrickModeFPS]
  else []

def SendGstEvents (s : InjectionState ι ε) (type : GstMediaType) (args : SendArgs) :
    InjectionState ι ε :=
  let seek : List (Injected ε) :=
    if s.pendingSeek type = true ∧ 0 < s.seekPosition then [.seek s.seekPosition] else []
  let protection : List (Injected ε) :=
    if s.format type = .isoBmff then (s.protectionFor type).toList.map .protection else []
  { s.inject type (.events s.rate :: (seek ++ s.overrideEvent type args ++ protection)) with
    pendingSeek := Function.update s.pendingSeek type false
    resetPosition := Function.update s.resetPosition type false }

def SendNewSegmentEvent (s : InjectionState ι ε) (type : GstMediaType) (args : SendArgs) :
    InjectionState ι ε :=
  if s.format type = .isoBmff then
    let applied_rate :=
      if !args.IsVideoMaster && decide (type = .video) then s.rate else GST_NORMAL_PLAY_RATE
    s.inject type [.segment args.pts applied_rate]
  else s

/-- A stream without a format has no source. -/
def push (s : InjectionState ι ε) (type : GstMediaType) : InjectionState ι ε :=
  if s.format type ≠ .invalid then s.inject type [.buffer s.rate] else s

/-- `SendHelper` in front of its buffer. -/
def announce (s : InjectionState ι ε) (type : GstMediaType) (args : SendArgs) :
    InjectionState ι ε :=
  let s := s.SendGstEvents type args
  let s := if decide (type = .audio) && s.ForwardAudioBuffersToAux then
      s.SendGstEvents .auxAudio args
    else s
  if args.IsPlatformSegmentReady && args.sendNewSegmentEvent then s.SendNewSegmentEvent type args
  else s

/-- `SendHelper` behind the wait. -/
def sendBuffer (s : InjectionState ι ε) (type : GstMediaType) (isFirstBuffer : Bool)
    (args : SendArgs) : InjectionState ι ε :=
  let s := if isFirstBuffer then s.announce type args else s
  if !s.mPauseInjector && args.allocated then
    let s := if decide (type = .audio) && s.ForwardAudioBuffersToAux && args.copied then
        s.push .auxAudio
      else s
    s.push type
  else s

def SetPendingSeek (s : InjectionState ι ε) (state : Bool) : InjectionState ι ε :=
  { s with pendingSeek := fun _ => state }

def SetSeekPosition (s : InjectionState ι ε) (positionSecs : Rat) : InjectionState ι ε :=
  { s with seekPosition := positionSecs, pendingSeek := fun _ => true }

/-- The position of every stream is reset. -/
def resetPositions (s : InjectionState ι ε) : InjectionState ι ε :=
  { s with
    resetPosition := fun _ => true
    injected := fun type => s.injected type ++ [.reset] }

def ResetGstEvents (s : InjectionState ι ε) : InjectionState ι ε :=
  s.resetPositions.SetPendingSeek false

def Stop (s : InjectionState ι ε) : InjectionState ι ε :=
  { s with toTrackState := s.toTrackState.Stop }

/-- The application stops the pipeline, and the rate is set back. -/
def recoveryStop (s : InjectionState ι ε) (rate : Int) (decoder : Bool) : InjectionState ι ε :=
  let trickTeardown :=
    s.trickTeardown || !decoder && decide (GST_NORMAL_PLAY_RATE < rate)
  { InjectionState.Stop { s with trickTeardown } with rate }

def Flush (s : InjectionState ι ε) (position : Rat) (rate : Int) (outcome : FlushOutcome) :
    InjectionState ι ε :=
  let s := { s with rate }.SetSeekPosition position
  if !s.pipeline then s
  else
    match outcome with
    | .refused => s
    | .stopped decoder => s.recoveryStop rate decoder
    | .flushed seeked =>
        let s := s.ResetGstEvents
        if seeked then s else s.SetPendingSeek true

/-- The first loop resets the positions. -/
def ConfigurePipeline (s : InjectionState ι ε) (call : ConfigureCall) : InjectionState ι ε :=
  { s.resetPositions with
    toTrackState := s.toTrackState.ConfigurePipeline call
    forwardAudioBuffers := call.forwardAudioToAux }

end InjectionState

section

variable {ι ε : Type} [DecidableEq ι]

def injectionStep (s : InjectionState ι ε) : InjectionAct ι ε → Option (InjectionState ι ε)
  | .SendHelper j type =>
      if s.calls j = none then
        some { s with calls := Function.update s.calls j (some (type, s.resetPosition type)) }
      else none
  | .goOn j args =>
      match s.calls j with
      | none => none
      | some (type, isFirstBuffer) =>
          some { s.sendBuffer type isFirstBuffer args with
            calls := Function.update s.calls j none }
  | .giveUp j => some { s with calls := Function.update s.calls j none }
  | .ConfigurePipeline call => some (s.ConfigurePipeline call)
  | .TearDownStream type => some { s with toTrackState := s.toTrackState.TearDownStream type }
  | .Stop => some s.Stop
  | .SetTrickTearDown state => some { s with trickTeardown := state }
  | .Flush position rate outcome => some (s.Flush position rate outcome)
  | .SetPendingSeek state => some (s.SetPendingSeek state)
  | .QueueProtectionEvent type event =>
      some { s with protectionEvent := Function.update s.protectionEvent type event }
  | .ClearProtectionEvent => some { s with protectionEvent := fun _ => none }
  | .setInjector pause => some { s with mPauseInjector := pause }

end

def injectionSystem (ι ε : Type) [DecidableEq ι] :
    System (InjectionState ι ε) (InjectionAct ι ε) where
  init s := ∃ trickTeardown, s = { trickTeardown }
  step := injectionStep

end PlayerInterface.Player
