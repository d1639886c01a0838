import PlayerInterface.Player.HandlerControl

/-!
# The buffering timer and the progress timer

Timers are sources of the main loop: one lives from `g_timeout_add` until its
callback returns FALSE or its id is passed to `g_source_remove`, and no id is used
twice. A step is one statement on the shared fields; `TimerAdd`, `TimerRemove` and
`TimerIsRunning` lock `TaskControlMutex` and are one step each.
-/

namespace PlayerInterface.Player

open PlayerInterface.Core

/-- Where an ASYNC_DONE message stands in `bus_sync_handler`. -/
inductive AsyncDonePc where
  | entered
  /-- about to test `buffering_in_progress` -/
  | testing
  | creating
  | leaving
deriving DecidableEq, Repr

def AsyncDonePc.inBody : AsyncDonePc → Bool
  | testing | creating => true
  | _ => false

/-- Where `IdleCallback` stands, from its test for a running progress timer on. -/
inductive IdleCallbackPc where
  | idle
  | testing
  | adding
deriving DecidableEq, Repr

/-- The removal of the buffering timer in `Flush`. -/
inductive RemovalPc where
  | idle
  | testing
  | removing
  | clearing
deriving DecidableEq, Repr

inductive TimerStopPc where
  | idle
  | disable
  | timerRemove
  | testBuffering
  | removeBuffering
  | clearBuffering
  | waitSync
  | waitOthers
  | endBuffering
  | returning
deriving DecidableEq, Repr

structure TimerState (ι : Type) where
  bufferingTimers : List Nat := []
  progressTimers : List Nat := []
  nextSource : Nat := 1
  bufferingTimeoutTimerId : Nat := 0
  periodicProgressCallbackIdleTaskId : Nat := 0
  buffering_in_progress : Bool := false
  syncControl : GstHandlerControl := {}
  handlers : List AsyncDonePc := []
  /-- the buffering timer whose callback the main loop runs -/
  mainLoop : Option Nat := none
  idleCallback : IdleCallbackPc := .idle
  flushes : ι → RemovalPc := fun _ => .idle
  stop : TimerStopPc := .idle
  /-- all waits of this `Stop` so far have returned true -/
  waitsOk : Bool := true
  /-- a `Stop` whose waits succeeded has returned, no `ConfigurePipeline` since -/
  stopped : Bool := false

namespace TimerState

variable {ι : Type}

def g_source_remove (s : TimerState ι) (id : Nat) : TimerState ι :=
  { s with
    bufferingTimers := s.bufferingTimers.filter (· ≠ id)
    progressTimers := s.progressTimers.filter (· ≠ id) }

/-- `bufferingTimeoutTimerId = g_timeout_add_full(…)`. -/
def addBuffering (s : TimerState ι) : TimerState ι :=
  { s with
    bufferingTimers := s.bufferingTimers ++ [s.nextSource]
    bufferingTimeoutTimerId := s.nextSource
    nextSource := s.nextSource + 1 }

def TimerAdd (s : TimerState ι) : TimerState ι :=
  if s.periodicProgressCallbackIdleTaskId = 0 then
    { s with
      progressTimers := s.progressTimers ++ [s.nextSource]
      periodicProgressCallbackIdleTaskId := s.nextSource
      nextSource := s.nextSource + 1 }
  else s

def TimerRemove (s : TimerState ι) : TimerState ι :=
  if s.periodicProgressCallbackIdleTaskId ≠ 0 then
    { s.g_source_remove s.periodicProgressCallbackIdleTaskId with
      periodicProgressCallbackIdleTaskId := 0 }
  else s

/-- The next step of the `i`-th ASYNC_DONE message. -/
def handlerStep (s : TimerState ι) (i : Nat) : Option (TimerState ι) :=
  s.handlers[i]?.map fun pc =>
    match pc with
    | .entered =>
        { s with handlers := s.handlers.set i (if s.syncControl.mEnabled then .testing else .leaving) }
    | .testing =>
        { s with
          handlers := s.handlers.set i (if s.buffering_in_progress then .creating else .leaving) }
    -- there is no test for a timer that exists already
    | .creating => { s.addBuffering with handlers := s.handlers.set i .leaving }
    | .leaving =>
        { s with syncControl := s.syncControl.handlerEnd, handlers := s.handlers.eraseIdx i }

/-- `buffering_timeout` up to its last test; `completes` when the frames or the
count end the buffering. -/
def fireBuffering (s : TimerState ι) (id : Nat) (completes : Bool) : Option (TimerState ι) :=
  if s.mainLoop = none ∧ id ∈ s.bufferingTimers then
    some { s with
      mainLoop := some id
      buffering_in_progress := s.buffering_in_progress && !completes }
  else none

/-- The end of `buffering_timeout`: the flag is tested, and read again for the
return value; `again` when `ConfigurePipeline` sets it in between. -/
def returnBuffering (s : TimerState ι) (again : Bool) : Option (TimerState ι) :=
  s.mainLoop.map fun id =>
    let cleared := if s.buffering_in_progress then s else { s with bufferingTimeoutTimerId := 0 }
    let inProgress := s.buffering_in_progress || again
    let returned := if inProgress then cleared else cleared.g_source_remove id
    { returned with mainLoop := none, buffering_in_progress := inProgress }

def idleCallbackStep (s : TimerState ι) : TimerState ι :=
  match s.idleCallback with
  | .idle => { s with idleCallback := .testing }
  | .testing =>
      if s.periodicProgressCallbackIdleTaskId ≠ 0 then { s with idleCallback := .idle }
      else { s with idleCallback := .adding }
  | .adding => { s.TimerAdd with idleCallback := .idle }

def setFlush [DecidableEq ι] (s : TimerState ι) (j : ι) (pc : RemovalPc) : TimerState ι :=
  { s with flushes := Function.update s.flushes j pc }

def flushStep [DecidableEq ι] (s : TimerState ι) (j : ι) : TimerState ι :=
  match s.flushes j with
  | .idle => s.setFlush j .testing
  | .testing => s.setFlush j (if s.bufferingTimeoutTimerId ≠ 0 then .removing else .idle)
  | .removing => (s.g_source_remove s.bufferingTimeoutTimerId).setFlush j .clearing
  | .clearing => { s with bufferingTimeoutTimerId := 0 }.setFlush j .idle

/-- One operation of `Stop`; `ok` says whether a wait returns true, where the state
leaves that open. -/
def stopStep (s : TimerState ι) (ok : Bool) : Option (TimerState ι) :=
  match s.stop with
  | .idle => some { s with stop := .disable, waitsOk := true }
  | .disable => some { s with syncControl := s.syncControl.disable, stop := .timerRemove }
  | .timerRemove => some { s.TimerRemove with stop := .testBuffering }
  | .testBuffering =>
      some { s with
        stop := if s.bufferingTimeoutTimerId ≠ 0 then .removeBuffering else .waitSync }
  | .removeBuffering =>
      some { s.g_source_remove s.bufferingTimeoutTimerId with stop := .clearBuffering }
  | .clearBuffering => some { s with bufferingTimeoutTimerId := 0, stop := .waitSync }
  | .waitSync =>
      if s.syncControl.mInstanceCount = 0 then
        some { s with syncControl := s.syncControl.disable, stop := .waitOthers }
      else if ok then none
      else some { s with
        syncControl := s.syncControl.disable, stop := .waitOthers, waitsOk := false }
  | .waitOthers => some { s with stop := .endBuffering, waitsOk := s.waitsOk && ok }
  | .endBuffering => some { s with buffering_in_progress := false, stop := .returning }
  | .returning => some { s with stop := .idle, stopped := s.stopped || s.waitsOk }

end TimerState

inductive TimerAct (ι : Type) where
  /-- `bus_sync_handler` is entered with an ASYNC_DONE message -/
  | asyncDone
  | handler (i : Nat)
  | fireBuffering (id : Nat) (completes : Bool)
  | returnBuffering (again : Bool)
  | fireProgress (id : Nat)
  | IdleCallback
  | Flush (j : ι)
  | Stop (ok : Bool)
  /-- `ConfigurePipeline` begins; `create` when it creates the pipeline -/
  | ConfigurePipeline (create : Bool)
  /-- `ConfigurePipeline` or `Pause` assigns `buffering_in_progress` -/
  | setBuffering (inProgress : Bool)
deriving DecidableEq, Repr

variable {ι : Type} [DecidableEq ι]

def timerStep (s : TimerState ι) : TimerAct ι → Option (TimerState ι)
  | .asyncDone =>
      some { s with
        syncControl := s.syncControl.getScopeHelper, handlers := s.handlers ++ [.entered] }
  | .handler i => s.handlerStep i
  | .fireBuffering id completes => s.fireBuffering id completes
  | .returnBuffering again => s.returnBuffering again
  -- the callback returns G_SOURCE_CONTINUE and leaves the fields alone
  | .fireProgress id => if id ∈ s.progressTimers then some s else none
  | .IdleCallback => some s.idleCallbackStep
  | .Flush j => some (s.flushStep j)
  | .Stop ok => s.stopStep ok
  | .ConfigurePipeline create =>
      if create then
        some { s with
          syncControl := s.syncControl.enable, buffering_in_progress := false, stopped := false }
      else some { s with stopped := false }
  | .setBuffering inProgress => some { s with buffering_in_progress := inProgress }

def timerSystem (ι : Type) [DecidableEq ι] : System (TimerState ι) (TimerAct ι) where
  init s := s = {}
  step := timerStep

end PlayerInterface.Player
