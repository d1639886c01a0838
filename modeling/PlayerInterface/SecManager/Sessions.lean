import Mathlib.Data.Finset.Basic
import PlayerInterface.Core.Transition

/-!
# Content security sessions

A `ContentSecurityManagerSession` is a handle that shares a `SessionManager`; the
destructor of the last handle's manager releases the session. The registry of
`getInstance` holds weak pointers. Objects are known by the order they were made
in, and a step is what one thread does under one mutex.
-/

namespace PlayerInterface.SecManager

open PlayerInterface.Core

/-- The last handle is gone in the second stage; the destructor has run in the third. -/
inductive Stage where
  | alive
  | destructing
  | destroyed
deriving DecidableEq, Repr

structure SessionManager where
  mID : Int
  mInputSummaryHash : Nat
  stage : Stage := .alive
deriving DecidableEq, Repr

/-- `handles` are the constructed handles and `releases` the managers whose
destructor has called `ReleaseSession`, in that order. -/
structure State (η : Type) where
  handles : Finset η := ∅
  mpSessionManager : η → Option Nat := fun _ => none
  objects : Nat → Option SessionManager := fun _ => none
  next : Nat := 0
  instances : Int → Option Nat := fun _ => none
  releases : List Nat := []

inductive Act (η : Type) where
  | construct (h : η) (sessionID : Int) (inputSummaryHash : Nat)
  | constructInvalid (h : η)
  | copy (h other : η)
  | assign (h other : η)
  | setSessionInvalid (h : η)
  | destroy (h : η)
  /-- the destructor of a manager -/
  | ReleaseSession (object : Nat)

variable {η : Type}

namespace State

/-- `expired()`: no handle shares the manager. -/
def expired (s : State η) (object : Nat) : Bool :=
  decide (∀ h ∈ s.handles, s.mpSessionManager h ≠ some object)

def setObject (s : State η) (object : Nat) (o : SessionManager) : State η :=
  { s with objects := fun n => if n = object then some o else s.objects n }

@[simp] theorem setObject_objects (s : State η) (object : Nat) (o : SessionManager) (n : Nat) :
    (s.setObject object o).objects n = if n = object then some o else s.objects n := rfl

variable [DecidableEq η]

def setPointer (s : State η) (h : η) (p : Option Nat) : State η :=
  { s with mpSessionManager := fun g => if g = h then p else s.mpSessionManager g }

@[simp] theorem setPointer_mpSessionManager (s : State η) (h : η) (p : Option Nat) (g : η) :
    (s.setPointer h p).mpSessionManager g = if g = h then p else s.mpSessionManager g := rfl

/-- A new handle with the given pointer. -/
def addHandle (s : State η) (h : η) (p : Option Nat) : State η :=
  { s.setPointer h p with handles := insert h s.handles }

@[simp] theorem addHandle_mpSessionManager (s : State η) (h : η) (p : Option Nat) (g : η) :
    (s.addHandle h p).mpSessionManager g = if g = h then p else s.mpSessionManager g := rfl

@[simp] theorem addHandle_handles (s : State η) (h : η) (p : Option Nat) :
    (s.addHandle h p).handles = insert h s.handles := rfl

/-- The destructor of a manager becomes due when its last pointer goes. -/
def dropped (s : State η) : Option Nat → State η
  | none => s
  | some n =>
      match s.objects n with
      | none => s
      | some o => if s.expired n then s.setObject n { o with stage := .destructing } else s

/-- The registry without its expired entries. -/
def removeExpired (s : State η) : State η :=
  { s with instances := fun key => (s.instances key).filter fun n => !s.expired n }

def setInputSummaryHash (s : State η) (object : Nat) (inputSummaryHash : Nat) : State η :=
  match s.objects object with
  | none => s
  | some o =>
      if o.mInputSummaryHash ≠ inputSummaryHash then
        s.setObject object { o with mInputSummaryHash := inputSummaryHash }
      else s

/-- A new manager and its entry in the registry. -/
def newInstance (s : State η) (sessionID : Int) (inputSummaryHash : Nat) : State η :=
  { s.setObject s.next { mID := sessionID, mInputSummaryHash := inputSummaryHash } with
    next := s.next + 1
    instances := fun key => if key = sessionID then some s.next else s.instances key }

/-- `SessionManager::getInstance`. A handle that goes between the clean-up and
`lock()` counts as gone before the call. -/
def getInstance (s : State η) (sessionID : Int) (inputSummaryHash : Nat) : Option Nat × State η :=
  let s := s.removeExpired
  if 0 < sessionID then
    match s.instances sessionID with
    | some n => (some n, s.setInputSummaryHash n inputSummaryHash)
    | none => (some s.next, s.newInstance sessionID inputSummaryHash)
  else (none, s)

end State

variable [DecidableEq η]

def sessionStep (s : State η) : Act η → Option (State η)
  | .construct h sessionID inputSummaryHash =>
      if h ∈ s.handles then none
      else
        let r := s.getInstance sessionID inputSummaryHash
        some (r.2.addHandle h r.1)
  | .constructInvalid h => if h ∈ s.handles then none else some (s.addHandle h none)
  | .copy h other =>
      if h ∉ s.handles ∧ other ∈ s.handles then some (s.addHandle h (s.mpSessionManager other))
      else none
  | .assign h other =>
      -- an assignment to itself would lock one mutex twice
      if h ∈ s.handles ∧ other ∈ s.handles ∧ h ≠ other then
        some ((s.setPointer h (s.mpSessionManager other)).dropped (s.mpSessionManager h))
      else none
  | .setSessionInvalid h =>
      if h ∈ s.handles then some ((s.setPointer h none).dropped (s.mpSessionManager h)) else none
  | .destroy h =>
      if h ∈ s.handles then
        some ({ s.setPointer h none with handles := s.handles.erase h }.dropped
          (s.mpSessionManager h))
      else none
  | .ReleaseSession object =>
      match s.objects object with
      | none => none
      | some o =>
          if o.stage = .destructing then
            some { s.setObject object { o with stage := .destroyed } with
              releases := if 0 < o.mID then s.releases ++ [object] else s.releases }
          else none

def sessionSystem (η : Type) [DecidableEq η] : System (State η) (Act η) where
  init s := s = {}
  step := sessionStep

end PlayerInterface.SecManager
