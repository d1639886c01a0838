import PlayerInterface.Core.Transition

/-!
# Handler controls and the part of `Stop` that waits for handlers

Every method of a control locks its `mSync`, so each is one step. The handlers run
on threads of the media framework; `Stop` and the set-up of a pipeline run on
threads of the client.
-/

namespace PlayerInterface.Player

open PlayerInterface.Core

structure GstHandlerControl where
  mEnabled : Bool := true
  mInstanceCount : Nat := 0
deriving DecidableEq, Repr

namespace GstHandlerControl

def enable (c : GstHandlerControl) : GstHandlerControl := { c with mEnabled := true }

def disable (c : GstHandlerControl) : GstHandlerControl := { c with mEnabled := false }

def getScopeHelper (c : GstHandlerControl) : GstHandlerControl :=
  { c with mInstanceCount := c.mInstanceCount + 1 }

/-- The source resets a negative count to 0. -/
def handlerEnd (c : GstHandlerControl) : GstHandlerControl :=
  { c with mInstanceCount := c.mInstanceCount - 1 }

end GstHandlerControl

inductive ControlName where
  | syncControl
  | aSyncControl
  | callbackControl
deriving DecidableEq, Repr

/-- The functions that start with one of the two entry macros. -/
inductive Handler where
  | bus_sync_handler
  | bus_message
  | gstappsrc_seek
  | gst_need_data
  | gst_enough_data
  | gst_found_source
  | callback_element_added
  | httpsoup_source_setup
  | GstPlayer_OnFirstVideoFrameCallback
  | GstPlayer_OnAudioFirstFrameAudDecoder
  | GstPlayer_OnGstBufferUnderflowCb
  | GstPlayer_OnGstPtsErrorCb
  | GstPlayer_OnGstDecodeErrorCb
  | GstPlayer_redButtonCallback
deriving DecidableEq, Repr

namespace Handler

def control : Handler → ControlName
  | bus_sync_handler => .syncControl
  | bus_message => .aSyncControl
  | _ => .callbackControl

/-- `HANDLER_CONTROL_HELPER` tests the control, `HANDLER_CONTROL_HELPER_CALLBACK_VOID`
does not. -/
def returnsStraightAway : Handler → Bool
  | bus_sync_handler | bus_message | gstappsrc_seek => true
  | _ => false

/-- The signals that a handler may connect. -/
def connects : Handler → List Handler
  | bus_sync_handler =>
      [GstPlayer_OnFirstVideoFrameCallback, GstPlayer_OnAudioFirstFrameAudDecoder,
        GstPlayer_redButtonCallback]
  | bus_message =>
      [GstPlayer_OnGstBufferUnderflowCb, GstPlayer_OnGstPtsErrorCb, GstPlayer_OnGstDecodeErrorCb]
  | gst_found_source => [gst_need_data, gst_enough_data, gstappsrc_seek]
  | _ => []

end Handler

inductive InvocationPc where
  /-- has its scope helper, has not tested the control yet -/
  | entered
  | body
  /-- in `SignalConnect`, between connecting the signal and `callbackControl.enable` -/
  | connecting
  | leaving
deriving DecidableEq, Repr

structure Invocation where
  handler : Handler
  pc : InvocationPc := .entered
deriving DecidableEq, Repr

/-- The body is being executed. -/
def Invocation.executing (v : Invocation) : Bool :=
  v.pc = .body || v.pc = .connecting

def Invocation.control (v : Invocation) : ControlName := v.handler.control

inductive StopOp where
  | disable (c : ControlName)
  /-- the wait in `waitForDone` -/
  | wait (c : ControlName)
  | gst_bus_remove_watch
  | DisconnectSignals
  | RemoveProbes
  | TearDownStream
  | DestroyPipeline
deriving DecidableEq, Repr

def waitForDone (c : ControlName) : List StopOp := [.disable c, .wait c]

/-- `Stop` as far as handlers are concerned; its last wait is for `aSyncControl` again. -/
def Stop : List StopOp :=
  [.disable .syncControl, .disable .aSyncControl, .gst_bus_remove_watch] ++
    waitForDone .syncControl ++ waitForDone .aSyncControl ++
    [.disable .callbackControl, .DisconnectSignals] ++ waitForDone .aSyncControl ++
    [.RemoveProbes, .TearDownStream, .DestroyPipeline]

structure HandlerState where
  control : ControlName → GstHandlerControl := fun _ => {}
  /-- the invocations between entry and return -/
  active : List Invocation := []
  /-- the connected signals; `bus_sync_handler` and `bus_message` are not signals -/
  connected : Handler → Bool := fun _ => false
  busWatch : Bool := false
  enableDisconnectSignals : Bool := true
  /-- what `Stop` has still to do, while it runs -/
  stop : Option (List StopOp) := none
  /-- all `waitForDone` calls of this `Stop` so far have returned true -/
  allDone : Bool := true

namespace HandlerState

def setControl (s : HandlerState) (c : ControlName) (k : GstHandlerControl) : HandlerState :=
  { s with control := Function.update s.control c k }

/-- A message or signal can start the handler now. -/
def canEnter (s : HandlerState) : Handler → Bool
  | .bus_sync_handler => true
  | .bus_message => s.busWatch
  | h => s.connected h

/-- `getScopeHelper` at the start of a handler. -/
def enter (s : HandlerState) (h : Handler) : HandlerState :=
  { s.setControl h.control (s.control h.control).getScopeHelper with
    active := s.active ++ [{ handler := h }] }

/-- The next step of the `i`-th invocation, other than connecting a signal. -/
def handlerStep (s : HandlerState) (i : Nat) : Option HandlerState :=
  s.active[i]?.map fun v =>
    match v.pc with
    | .entered =>
        if v.handler.returnsStraightAway && !(s.control v.control).mEnabled then
          { s with active := s.active.set i { v with pc := .leaving } }
        else { s with active := s.active.set i { v with pc := .body } }
    | .body => { s with active := s.active.set i { v with pc := .leaving } }
    | .connecting =>
        { s.setControl .callbackControl (s.control .callbackControl).enable with
          active := s.active.set i { v with pc := .body } }
    | .leaving =>
        { s.setControl v.control (s.control v.control).handlerEnd with
          active := s.active.eraseIdx i }

/-- `SignalConnect` in a body, up to the `enable`. -/
def connectStep (s : HandlerState) (i : Nat) (h : Handler) : Option HandlerState :=
  match s.active[i]? with
  | some v =>
      if v.pc = .body ∧ h ∈ v.handler.connects then
        some { s with
          connected := Function.update s.connected h true
          active := s.active.set i { v with pc := .connecting } }
      else none
  | none => none

/-- One operation of `Stop`; a wait ends when no instance is left, or with `timeout`. -/
def stopStep (s : HandlerState) (timeout : Bool) : Option HandlerState :=
  match s.stop with
  | none => none
  | some [] => some { s with stop := none }
  | some (.disable c :: rest) =>
      some { s.setControl c (s.control c).disable with stop := some rest }
  | some (.wait c :: rest) =>
      if (s.control c).mInstanceCount = 0 then some { s with stop := some rest }
      else if timeout then some { s with stop := some rest, allDone := false }
      else none
  | some (.gst_bus_remove_watch :: rest) =>
      some { s with busWatch := false, stop := some rest }
  | some (.DisconnectSignals :: rest) =>
      some { s with
        connected := if s.enableDisconnectSignals then fun _ => false else s.connected
        stop := some rest }
  | some (_ :: rest) => some { s with stop := some rest }

end HandlerState

inductive HandlerAct where
  | enter (h : Handler)
  | handler (i : Nat)
  | connect (i : Nat) (h : Handler)
  | callStop
  | stop (timeout : Bool)
  /-- `CreatePipeline`, while no `Stop` runs -/
  | CreatePipeline
  /-- `SignalConnect` by the client while no `Stop` runs -/
  | SignalConnect (h : Handler)
deriving DecidableEq, Repr

def handlerControlStep (s : HandlerState) : HandlerAct → Option HandlerState
  | .enter h => if s.canEnter h then some (s.enter h) else none
  | .handler i => s.handlerStep i
  | .connect i h => s.connectStep i h
  | .callStop => if s.stop = none then some { s with stop := some Stop, allDone := true } else none
  | .stop timeout => s.stopStep timeout
  | .CreatePipeline =>
      if s.stop = none then
        some { (s.setControl .aSyncControl (s.control .aSyncControl).enable).setControl .syncControl
          (s.control .syncControl).enable with busWatch := true }
      else none
  | .SignalConnect h =>
      if s.stop = none then
        some { s.setControl .callbackControl (s.control .callbackControl).enable with
          connected := Function.update s.connected h true }
      else none

/-- A new player; the configuration is as it may be. -/
structure HandlerState.Initial (s : HandlerState) : Prop where
  control : ∀ c, s.control c = {}
  active : s.active = []
  connected : ∀ h, s.connected h = false
  stop : s.stop = none

def handlerSystem : System HandlerState HandlerAct where
  init := HandlerState.Initial
  step := handlerControlStep

end PlayerInterface.Player
