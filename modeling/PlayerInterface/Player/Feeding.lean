import PlayerInterface.Player.SourceSetup

/-!
# Pushing buffers to the sources

`SendHelper` and `ForwardBuffersToAuxPipeline` with every test and push a step of its own, since
only the stream a call sends to is locked meanwhile: `TearDownStream` of the auxiliary stream and
the callbacks that set sources up run between any two of them. A push is recorded with the stream
as it finds it.
-/

namespace PlayerInterface.Player

open PlayerInterface.Core

/-- `source` tells that the pointer is not `NULL`. -/
structure FedStream extends GstMediaStream where
  source : Bool := false
deriving DecidableEq, Repr

def FedStream.ready (stream : FedStream) : Bool := stream.sourceConfigured && stream.source

/-- The stream of the call, and the one `ForwardBuffersToAuxPipeline` pushes to. -/
inductive Target where
  | own
  | aux
deriving DecidableEq, Repr

inductive SendPc where
  | idle
  | lockSource
  /-- the two operands of the test before `WaitForSourceSetup` -/
  | checkConfigured (target : Target)
  | checkFormat (target : Target)
  | lockSetup (target : Target)
  | testTime (target : Target)
  | waiting (target : Target)
  /-- woken, about to lock `mSourceSetupMutex` again -/
  | relockSetup (target : Target)
  | testSetup (target : Target)
  | unlockSetup (target : Target)
  | afterWait (target : Target)
  | readPause
  | allocate
  | testForward
  /-- `mPauseInjector` is read for the argument -/
  | passPause
  | pushCopy
  | push
  | unlockSource
deriving DecidableEq, Repr

/-- Behind the test of the source. -/
def Target.entered : Target → SendPc
  | own => .readPause
  | aux => .pushCopy

/-- A call of `SendHelper`: where it stands and its locals, `status` and `pauseInjecter` those of the
functions it calls. `pushed` records whether its buffer was pushed. -/
structure SendCall where
  pc : SendPc := .idle
  type : GstMediaType := .video
  timeRemaining : Int := 0
  status : Bool := false
  pauseInjecter : Bool := false
  bPushBuffer : Bool := false
  pushed : Bool := false
deriving DecidableEq, Repr

def SendCall.targetType (call : SendCall) : Target → GstMediaType
  | .own => call.type
  | .aux => .auxAudio

/-- `mSourceSetupCV` wakes the call. -/
def SendCall.woken (call : SendCall) : SendCall :=
  match call.pc with
  | .waiting target => { call with pc := .relockSetup target }
  | _ => call

/-- What else runs: `TearDownStream`, `PauseInjector` and `ResumeInjector`, `gst_found_source`, and
`SetupStream` for a subtitle bin, which configures the source before it keeps it. -/
inductive WorkerPc where
  | idle
  | testFormat (type : GstMediaType)
  | lockSource (type : GstMediaType)
  | clearFormat (type : GstMediaType)
  | clearSource (type : GstMediaType)
  | clearConfigured (type : GstMediaType)
  | unlockSource (type : GstMediaType)
  | lockSetup (pause : Bool)
  | assignPause (pause : Bool)
  | unlockSetup
  | takeSource (type : GstMediaType)
  | initializeSource (type : GstMediaType)
  | createAppSrc
  | keepAppSrc
deriving DecidableEq, Repr

inductive WorkerTask where
  | TearDownStream (type : GstMediaType)
  /-- `PauseInjector` or `ResumeInjector` -/
  | setInjector (pause : Bool)
  | foundSource (type : GstMediaType)
  | setupSubtitle
deriving DecidableEq, Repr

def WorkerTask.entry : WorkerTask → WorkerPc
  | TearDownStream type => .testFormat type
  | setInjector pause => .lockSetup pause
  | foundSource type => .takeSource type
  | setupSubtitle => .createAppSrc

inductive Feeder (ι κ : Type) where
  | injector (j : ι)
  | worker (c : κ)
deriving DecidableEq, Repr

/-- A push of a buffer to the source of a stream, with the stream at that moment. -/
structure Push where
  type : GstMediaType
  stream : FedStream
deriving DecidableEq, Repr

/-- A call that is over: whether it pushed its buffer, and what it returned. -/
structure SendResult where
  pushed : Bool
  returned : Bool
deriving DecidableEq, Repr

structure FeedState (ι κ : Type) where
  stream : GstMediaType → FedStream
  forwardAudioBuffers : Bool := false
  mPauseInjector : Bool := false
  sourceLock : GstMediaType → Option (Feeder ι κ) := fun _ => none
  mSourceSetupMutex : Option (Feeder ι κ) := none
  calls : ι → SendCall := fun _ => {}
  workers : κ → WorkerPc := fun _ => .idle
  pushes : List Push := []
  results : List SendResult := []

namespace FeedState

variable {ι κ : Type}

def ForwardAudioBuffersToAux (s : FeedState ι κ) : Bool :=
  s.forwardAudioBuffers && decide ((s.stream .auxAudio).format ≠ .invalid)

def notifyAll (s : FeedState ι κ) : FeedState ι κ :=
  { s with calls := fun j => (s.calls j).woken }

def setStream (s : FeedState ι κ) (type : GstMediaType) (stream : FedStream) : FeedState ι κ :=
  { s with stream := Function.update s.stream type stream }

def lockSource (s : FeedState ι κ) (type : GstMediaType) (p : Feeder ι κ) :
    Option (FeedState ι κ) :=
  if s.sourceLock type = none then
    some { s with sourceLock := Function.update s.sourceLock type (some p) }
  else none

def unlockSource (s : FeedState ι κ) (type : GstMediaType) : FeedState ι κ :=
  { s with sourceLock := Function.update s.sourceLock type none }

def lockSetup (s : FeedState ι κ) (p : Feeder ι κ) : Option (FeedState ι κ) :=
  if s.mSourceSetupMutex = none then some { s with mSourceSetupMutex := some p } else none

def unlockSetup (s : FeedState ι κ) : FeedState ι κ := { s with mSourceSetupMutex := none }

/-- `gst_app_src_push_buffer` on the source of a stream. -/
def pushTo (s : FeedState ι κ) (type : GstMediaType) : FeedState ι κ :=
  { s with pushes := s.pushes ++ [⟨type, s.stream type⟩] }

/-- The call gives its lock up and returns. -/
def finish (s : FeedState ι κ) (call : SendCall) : FeedState ι κ :=
  { s.unlockSource call.type with results := s.results ++ [⟨call.pushed, call.bPushBuffer⟩] }

variable [DecidableEq ι] [DecidableEq κ]

def setCall (s : FeedState ι κ) (j : ι) (call : SendCall) : FeedState ι κ :=
  { s with calls := Function.update s.calls j call }

def setWorker (s : FeedState ι κ) (c : κ) (pc : WorkerPc) : FeedState ι κ :=
  { s with workers := Function.update s.workers c pc }

/-- One step of a call; `allocated` tells whether a new buffer was made and filled. -/
def injectorStep (s : FeedState ι κ) (j : ι) (allocated : Bool) : Option (FeedState ι κ) :=
  let call := s.calls j
  match call.pc with
  | .idle | .waiting _ => none
  | .lockSource =>
      (s.lockSource call.type (.injector j)).map
        (·.setCall j { call with pc := .checkConfigured .own })
  | .checkConfigured target =>
      if (s.stream (call.targetType target)).sourceConfigured then
        some (s.setCall j { call with pc := target.entered })
      else some (s.setCall j { call with pc := .checkFormat target })
  | .checkFormat target =>
      if (s.stream (call.targetType target)).format ≠ .invalid then
        some (s.setCall j { call with pc := .lockSetup target })
      else some (s.setCall j { call with pc := target.entered })
  | .lockSetup target =>
      (s.lockSetup (.injector j)).map
        (·.setCall j { call with pc := .testTime target, timeRemaining := 1000, status := false })
  | .testTime target =>
      -- `wait_for` gives the mutex up until the call is woken
      if 0 ≤ call.timeRemaining then
        some (s.unlockSetup.setCall j { call with pc := .waiting target })
      else some (s.setCall j { call with pc := .unlockSetup target })
  | .relockSetup target =>
      (s.lockSetup (.injector j)).map (·.setCall j { call with pc := .testSetup target })
  | .testSetup target =>
      if s.mPauseInjector then some (s.setCall j { call with pc := .unlockSetup target })
      else if (s.stream (call.targetType target)).sourceConfigured then
        some (s.setCall j { call with pc := .unlockSetup target, status := true })
      else
        some (s.setCall j
          { call with pc := .testTime target, timeRemaining := call.timeRemaining - 100 })
  | .unlockSetup target =>
      some (s.unlockSetup.setCall j { call with pc := .afterWait target })
  | .afterWait .own =>
      if s.mPauseInjector || !call.status then
        some (s.setCall j { call with pc := .unlockSource, bPushBuffer := false })
      else some (s.setCall j { call with pc := .readPause })
  | .afterWait .aux =>
      if call.pauseInjecter && !call.status then some (s.setCall j { call with pc := .push })
      else some (s.setCall j { call with pc := .pushCopy })
  | .readPause =>
      if s.mPauseInjector then
        some (s.setCall j { call with pc := .unlockSource, bPushBuffer := false })
      else some (s.setCall j { call with pc := .allocate, bPushBuffer := true })
  | .allocate =>
      if allocated then some (s.setCall j { call with pc := .testForward })
      else some (s.setCall j { call with pc := .unlockSource, bPushBuffer := false })
  | .testForward =>
      if decide (call.type = .audio) && s.ForwardAudioBuffersToAux then
        some (s.setCall j { call with pc := .passPause })
      else some (s.setCall j { call with pc := .push })
  | .passPause =>
      some (s.setCall j
        { call with pc := .checkConfigured .aux, pauseInjecter := s.mPauseInjector })
  | .pushCopy =>
      if allocated then some ((s.pushTo .auxAudio).setCall j { call with pc := .push })
      else some (s.setCall j { call with pc := .push })
  | .push =>
      some ((s.pushTo call.type).setCall j { call with pc := .unlockSource, pushed := true })
  | .unlockSource => some ((s.finish call).setCall j {})

def workerStep (s : FeedState ι κ) (c : κ) : Option (FeedState ι κ) :=
  match s.workers c with
  | .idle => none
  | .testFormat type =>
      if (s.stream type).format ≠ .invalid then some (s.setWorker c (.lockSource type))
      else some (s.setWorker c .idle)
  | .lockSource type =>
      (s.lockSource type (.worker c)).map (·.setWorker c (.clearFormat type))
  | .clearFormat type =>
      some ((s.setStream type { s.stream type with format := .invalid }).setWorker c
        (.clearSource type))
  | .clearSource type =>
      some ((s.setStream type { s.stream type with source := false }).setWorker c
        (.clearConfigured type))
  | .clearConfigured type =>
      some ((s.setStream type { s.stream type with sourceConfigured := false }).setWorker c
        (.unlockSource type))
  | .unlockSource type => some ((s.unlockSource type).setWorker c .idle)
  | .lockSetup pause => (s.lockSetup (.worker c)).map (·.setWorker c (.assignPause pause))
  | .assignPause pause =>
      let s' := { s with mPauseInjector := pause }
      some ((if pause then s' else s'.notifyAll).setWorker c .unlockSetup)
  | .unlockSetup => some (s.unlockSetup.setWorker c .idle)
  | .takeSource type =>
      some ((s.setStream type { s.stream type with source := true }).setWorker c
        (.initializeSource type))
  | .initializeSource type =>
      some ((s.setStream type { s.stream type with sourceConfigured := true }).setWorker c .idle)
  | .createAppSrc =>
      some ((s.setStream .subtitle { s.stream .subtitle with sourceConfigured := true }).setWorker c
        .keepAppSrc)
  | .keepAppSrc =>
      some ((s.setStream .subtitle { s.stream .subtitle with source := true }).setWorker c .idle)

end FeedState

inductive FeedAct (ι κ : Type) where
  /-- a call of `SendHelper` -/
  | send (j : ι) (type : GstMediaType)
  | injector (j : ι) (allocated : Bool)
  /-- the interval of `wait_for` is over, or the wake-up is spurious -/
  | wake (j : ι)
  | call (c : κ) (task : WorkerTask)
  | worker (c : κ)
  /-- `ConfigurePipeline` gives the stream its format -/
  | configure (type : GstMediaType) (format : GstStreamOutputFormat)
  | setForwardAudioBuffers (on : Bool)
deriving DecidableEq, Repr

variable {ι κ : Type} [DecidableEq ι] [DecidableEq κ]

def feedStep (s : FeedState ι κ) : FeedAct ι κ → Option (FeedState ι κ)
  | .send j type =>
      if (s.calls j).pc = .idle then
        some (s.setCall j { pc := .lockSource, type := type })
      else none
  | .injector j allocated => s.injectorStep j allocated
  | .wake j => some (s.setCall j (s.calls j).woken)
  | .call c task =>
      if s.workers c = .idle then some (s.setWorker c task.entry) else none
  | .worker c => s.workerStep c
  | .configure type format => some (s.setStream type { s.stream type with format := format })
  | .setForwardAudioBuffers on => some { s with forwardAudioBuffers := on }

/-- Nobody is at work; the streams are as they may be. -/
structure FeedState.Initial (s : FeedState ι κ) : Prop where
  calls : ∀ j, s.calls j = {}
  workers : ∀ c, s.workers c = .idle
  sourceLock : ∀ type, s.sourceLock type = none
  pushes : s.pushes = []
  results : s.results = []

def feedSystem (ι κ : Type) [DecidableEq ι] [DecidableEq κ] :
    System (FeedState ι κ) (FeedAct ι κ) where
  init := FeedState.Initial
  step := feedStep

end PlayerInterface.Player
