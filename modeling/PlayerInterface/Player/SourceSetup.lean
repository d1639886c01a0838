import PlayerInterface.Core.Locks
import PlayerInterface.Core.Transition

/-!
# Injection, its wait for the source element, and `Stop`

The two kinds of locks are a stream's `sourceLock` and `mSourceSetupMutex`. A step
is what a thread does between two lock operations; a thread that is about to lock
stands still while another thread has the lock.
-/

namespace PlayerInterface.Player

open PlayerInterface.Core

/-- The media types that have a stream, in the order of their indices. -/
inductive GstMediaType where
  | video
  | audio
  | subtitle
  | auxAudio
deriving DecidableEq, Repr

/-- The loop over `GST_TRACK_COUNT`. -/
def GstMediaType.tracks : List GstMediaType := [.video, .audio, .subtitle, .auxAudio]

inductive GstStreamOutputFormat where
  | invalid
  | mpegts
  | isoBmff
  | audioEsMp3
  | audioEsAac
  | audioEsAc3
  | audioEsEc3
  | audioEsAtmos
  | audioEsAc4
  | videoEsH264
  | videoEsHevc
  | videoEsMpeg2
  | subtitleWebvtt
  | subtitleTtml
  | subtitleMp4
  | unknown
deriving DecidableEq, Repr

structure GstMediaStream where
  format : GstStreamOutputFormat := .invalid
  sourceConfigured : Bool := false
deriving DecidableEq, Repr

/-- The test made before `WaitForSourceSetup` is called. -/
def GstMediaStream.awaitsSetup (stream : GstMediaStream) : Bool :=
  !stream.sourceConfigured && decide (stream.format ≠ .invalid)

inductive Lock where
  | sourceLock (type : GstMediaType)
  | mSourceSetupMutex
deriving DecidableEq, Repr

/-- `WaitForSourceSetup` is called by `SendHelper`, and by
`ForwardBuffersToAuxPipeline` with the flag it was passed. -/
inductive SetupCaller where
  | SendHelper
  | ForwardBuffersToAuxPipeline (pauseInjecter : Bool)
deriving DecidableEq, Repr

inductive InjectorPc where
  | idle
  | lockSource
  | checkSource
  | lockSetup
  | testTime
  | waiting
  /-- woken, about to lock `mSourceSetupMutex` again -/
  | relockSetup
  | testSetup
  | unlockSetup
  | setupDone
  | push
  | forward
  | unlockSource
deriving DecidableEq, Repr

/-- An injector thread: where it stands in `SendHelper`, and the locals of
`SendHelper` and `WaitForSourceSetup` that decide what it does. -/
structure Injector where
  pc : InjectorPc := .idle
  type : GstMediaType := .video
  caller : SetupCaller := .SendHelper
  timeRemaining : Int := 0
  ret : Bool := false
  bPushBuffer : Bool := false
deriving DecidableEq, Repr

/-- The stream that `WaitForSourceSetup` was called for. -/
def Injector.mediaType (inj : Injector) : GstMediaType :=
  match inj.caller with
  | .SendHelper => inj.type
  | .ForwardBuffersToAuxPipeline _ => .auxAudio

/-- Between taking `mSourceSetupMutex` and giving it up. -/
def InjectorPc.inSetup : InjectorPc → Bool
  | testTime | testSetup | unlockSetup => true
  | _ => false

/-- Between `pthread_mutex_lock` and `pthread_mutex_unlock` of `sourceLock`. -/
def InjectorPc.inSource : InjectorPc → Bool
  | idle | lockSource => false
  | _ => true

/-- About to lock `mSourceSetupMutex`, for the first time or after a wait. -/
def InjectorPc.wantsSetup : InjectorPc → Bool
  | lockSetup | relockSetup => true
  | _ => false

def Injector.holds (inj : Injector) : Lock → Bool
  | .sourceLock type => inj.pc.inSource && decide (inj.type = type)
  | .mSourceSetupMutex => inj.pc.inSetup

def Injector.wants (inj : Injector) : Option Lock :=
  if inj.pc = .lockSource then some (.sourceLock inj.type)
  else if inj.pc.wantsSetup then some .mSourceSetupMutex
  else none

/-- Where `Stop` stands; the list holds the streams still to be torn down. -/
inductive StopPc where
  | idle
  | lockSetup
  | notifyAll
  | tearDown (streams : List GstMediaType)
  | lockSource (type : GstMediaType) (rest : List GstMediaType)
  | detach (type : GstMediaType) (rest : List GstMediaType)
  | unlockSource (type : GstMediaType) (rest : List GstMediaType)
deriving DecidableEq, Repr

def StopPc.holds : StopPc → Lock → Bool
  | idle, _ | lockSetup, _ => false
  | _, .mSourceSetupMutex => true
  | detach type _, .sourceLock t | unlockSource type _, .sourceLock t => decide (type = t)
  | _, .sourceLock _ => false

def StopPc.wants : StopPc → Option Lock
  | lockSetup => some .mSourceSetupMutex
  | lockSource type _ => some (.sourceLock type)
  | _ => none

/-- `PauseInjector` and `ResumeInjector`, by the value they give `mPauseInjector`. -/
inductive ControlPc where
  | idle
  | lockSetup (pause : Bool)
  | assign (pause : Bool)
  | unlockSetup
deriving DecidableEq, Repr

def ControlPc.holds : ControlPc → Lock → Bool
  | assign _, .mSourceSetupMutex | unlockSetup, .mSourceSetupMutex => true
  | _, _ => false

def ControlPc.wants : ControlPc → Option Lock
  | lockSetup _ => some .mSourceSetupMutex
  | _ => none

/-- Any number of injectors, the thread that stops, any number of others. -/
inductive Party (ι κ : Type) where
  | injector (j : ι)
  | stop
  | control (c : κ)
deriving DecidableEq, Repr

structure SetupState (ι κ : Type) where
  stream : GstMediaType → GstMediaStream
  forwardAudioBuffers : Bool := false
  mPauseInjector : Bool := false
  holder : Lock → Option (Party ι κ) := fun _ => none
  injectors : ι → Injector := fun _ => {}
  stop : StopPc := .idle
  controls : κ → ControlPc := fun _ => .idle

namespace SetupState

variable {ι κ : Type}

def holds (s : SetupState ι κ) : Party ι κ → Lock → Bool
  | .injector j, l => (s.injectors j).holds l
  | .stop, l => s.stop.holds l
  | .control c, l => (s.controls c).holds l

def wants (s : SetupState ι κ) : Party ι κ → Option Lock
  | .injector j => (s.injectors j).wants
  | .stop => s.stop.wants
  | .control c => (s.controls c).wants

def locks (s : SetupState ι κ) : Locks (Party ι κ) Lock := ⟨s.holder, s.wants⟩

def ForwardAudioBuffersToAux (s : SetupState ι κ) : Bool :=
  s.forwardAudioBuffers && decide ((s.stream .auxAudio).format ≠ .invalid)

/-- `mSourceSetupCV.notify_all`: the waiting threads go on to lock the mutex. -/
def notifyAll (s : SetupState ι κ) : SetupState ι κ :=
  { s with injectors := fun j =>
      if (s.injectors j).pc = .waiting then { s.injectors j with pc := .relockSetup }
      else s.injectors j }

def lock (s : SetupState ι κ) (l : Lock) (p : Party ι κ) : Option (SetupState ι κ) :=
  if s.holder l = none then some { s with holder := Function.update s.holder l (some p) }
  else none

def unlock (s : SetupState ι κ) (l : Lock) : SetupState ι κ :=
  { s with holder := Function.update s.holder l none }

def setStop (s : SetupState ι κ) (pc : StopPc) : SetupState ι κ := { s with stop := pc }

variable [DecidableEq ι] [DecidableEq κ]

def setInjector (s : SetupState ι κ) (j : ι) (inj : Injector) : SetupState ι κ :=
  { s with injectors := Function.update s.injectors j inj }

def setControl (s : SetupState ι κ) (c : κ) (pc : ControlPc) : SetupState ι κ :=
  { s with controls := Function.update s.controls c pc }

/-- One step of `SendHelper`, with `WaitForSourceSetup` and
`ForwardBuffersToAuxPipeline` where it calls them. -/
def injectorStep (s : SetupState ι κ) (j : ι) : Option (SetupState ι κ) :=
  let inj := s.injectors j
  match inj.pc with
  | .idle | .waiting => none
  | .lockSource =>
      (s.lock (.sourceLock inj.type) (.injector j)).map
        (·.setInjector j { inj with pc := .checkSource })
  | .checkSource =>
      if (s.stream inj.type).awaitsSetup then
        some (s.setInjector j { inj with pc := .lockSetup, caller := .SendHelper })
      else some (s.setInjector j { inj with pc := .push })
  | .lockSetup =>
      (s.lock .mSourceSetupMutex (.injector j)).map
        (·.setInjector j { inj with pc := .testTime, timeRemaining := 1000, ret := false })
  | .testTime =>
      -- `wait_for` gives the mutex up until the thread is woken
      if 0 ≤ inj.timeRemaining then
        some ((s.unlock .mSourceSetupMutex).setInjector j { inj with pc := .waiting })
      else some (s.setInjector j { inj with pc := .unlockSetup })
  | .relockSetup =>
      (s.lock .mSourceSetupMutex (.injector j)).map
        (·.setInjector j { inj with pc := .testSetup })
  | .testSetup =>
      if s.mPauseInjector then some (s.setInjector j { inj with pc := .unlockSetup })
      else if (s.stream inj.mediaType).sourceConfigured then
        some (s.setInjector j { inj with pc := .unlockSetup, ret := true })
      else
        some (s.setInjector j
          { inj with pc := .testTime, timeRemaining := inj.timeRemaining - 100 })
  | .unlockSetup =>
      some ((s.unlock .mSourceSetupMutex).setInjector j { inj with pc := .setupDone })
  | .setupDone =>
      match inj.caller with
      | .SendHelper =>
          if s.mPauseInjector || !inj.ret then
            some (s.setInjector j { inj with pc := .unlockSource, bPushBuffer := false })
          else some (s.setInjector j { inj with pc := .push })
      -- the buffer is copied to the auxiliary source or not, then pushed to its own
      | .ForwardBuffersToAuxPipeline _ =>
          some (s.setInjector j { inj with pc := .unlockSource })
  | .push =>
      let bPushBuffer := !s.mPauseInjector
      if bPushBuffer && decide (inj.type = .audio) && s.ForwardAudioBuffersToAux then
        some (s.setInjector j { inj with pc := .forward, bPushBuffer := bPushBuffer })
      else some (s.setInjector j { inj with pc := .unlockSource, bPushBuffer := bPushBuffer })
  | .forward =>
      if (s.stream .auxAudio).awaitsSetup then
        some (s.setInjector j { inj with
          pc := .lockSetup, caller := .ForwardBuffersToAuxPipeline s.mPauseInjector })
      else some (s.setInjector j { inj with pc := .unlockSource })
  | .unlockSource =>
      some ((s.unlock (.sourceLock inj.type)).setInjector j { inj with pc := .idle })

/-- One step of `Stop`, with `TearDownStream` for each track. -/
def stopStep (s : SetupState ι κ) : Option (SetupState ι κ) :=
  match s.stop with
  | .idle => none
  | .lockSetup => (s.lock .mSourceSetupMutex .stop).map (·.setStop .notifyAll)
  | .notifyAll => some (s.notifyAll.setStop (.tearDown GstMediaType.tracks))
  | .tearDown [] => some ((s.unlock .mSourceSetupMutex).setStop .idle)
  | .tearDown (type :: rest) =>
      if (s.stream type).format ≠ .invalid then some (s.setStop (.lockSource type rest))
      else some (s.setStop (.tearDown rest))
  | .lockSource type rest =>
      (s.lock (.sourceLock type) .stop).map (·.setStop (.detach type rest))
  | .detach type rest =>
      let detached := { s.stream type with format := .invalid, sourceConfigured := false }
      some ({ s with stream := Function.update s.stream type detached }.setStop
        (.unlockSource type rest))
  | .unlockSource type rest =>
      some ((s.unlock (.sourceLock type)).setStop (.tearDown rest))

/-- `ResumeInjector` notifies, `PauseInjector` does not. -/
def controlStep (s : SetupState ι κ) (c : κ) : Option (SetupState ι κ) :=
  match s.controls c with
  | .idle => none
  | .lockSetup pause =>
      (s.lock .mSourceSetupMutex (.control c)).map (·.setControl c (.assign pause))
  | .assign pause =>
      let s' := { s with mPauseInjector := pause }
      some ((if pause then s' else s'.notifyAll).setControl c .unlockSetup)
  | .unlockSetup => some ((s.unlock .mSourceSetupMutex).setControl c .idle)

end SetupState

inductive SetupAct (ι κ : Type) where
  /-- a call of `SendHelper` -/
  | send (j : ι) (type : GstMediaType)
  | injector (j : ι)
  /-- the interval of `wait_for` is over, or the wake-up is spurious -/
  | wake (j : ι)
  | callStop
  | stop
  | call (c : κ) (pause : Bool)
  | control (c : κ)
  /-- `ConfigurePipeline` sets up a stream, the source element becomes ready -/
  | configure (type : GstMediaType) (format : GstStreamOutputFormat)
  | sourceReady (type : GstMediaType)
  | setForwardAudioBuffers (on : Bool)
deriving DecidableEq, Repr

variable {ι κ : Type} [DecidableEq ι] [DecidableEq κ]

def setupStep (s : SetupState ι κ) : SetupAct ι κ → Option (SetupState ι κ)
  | .send j type =>
      if (s.injectors j).pc = .idle then
        some (s.setInjector j { pc := .lockSource, type := type })
      else none
  | .injector j => s.injectorStep j
  | .wake j =>
      if (s.injectors j).pc = .waiting then
        some (s.setInjector j { s.injectors j with pc := .relockSetup })
      else none
  | .callStop => if s.stop = .idle then some (s.setStop .lockSetup) else none
  | .stop => s.stopStep
  | .call c pause =>
      if s.controls c = .idle then some (s.setControl c (.lockSetup pause)) else none
  | .control c => s.controlStep c
  | .configure type format =>
      some { s with
        stream := Function.update s.stream type { s.stream type with format := format } }
  | .sourceReady type =>
      some { s with
        stream := Function.update s.stream type { s.stream type with sourceConfigured := true } }
  | .setForwardAudioBuffers on => some { s with forwardAudioBuffers := on }

/-- Nobody injects, stops or holds a lock yet; the streams are as they may be. -/
structure SetupState.Initial (s : SetupState ι κ) : Prop where
  injectors : ∀ j, (s.injectors j).pc = .idle
  stop : s.stop = .idle
  controls : ∀ c, s.controls c = .idle
  holder : ∀ l, s.holder l = none

def setupSystem (ι κ : Type) [DecidableEq ι] [DecidableEq κ] :
    System (SetupState ι κ) (SetupAct ι κ) where
  init := SetupState.Initial
  step := setupStep

end PlayerInterface.Player
