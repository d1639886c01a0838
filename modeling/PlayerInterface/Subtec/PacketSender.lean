import PlayerInterface.Core.Locks
import PlayerInterface.Core.Transition

/-!
# The packet sender

One thread runs `senderTask`; any number of clients call `Init`, `SendPacket`,
`Flush` and `Close`. A step is one statement on the shared members or one lock
operation. `Init` returns once the thread is created, whether or not it has come
to its wait.
-/

namespace PlayerInterface.Subtec

open PlayerInterface.Core

inductive SenderMutex where
  | mPktMutex
  | mStartMutex
deriving DecidableEq, Repr

inductive Party (ι : Type) where
  | sender
  | client (c : ι)
deriving DecidableEq, Repr

/-- Where the thread of `senderTask` stands; `first` in its first round. -/
inductive SenderPc where
  | absent
  | starting
  /-- at `running = true` -/
  | entering (first : Bool)
  /-- at `mCv.wait` -/
  | atWait (first : Bool)
  | waiting
  /-- woken, about to lock `mPktMutex` again -/
  | relocking
  | draining
  /-- at the test of `running` -/
  | testing
  | exited
deriving DecidableEq, Repr

/-- Where a client stands in its call. -/
inductive ClientPc (α : Type) where
  | idle
  | initLock
  | initTest
  | initSocket
  | initSenderTask
  | initReturn (ret : Bool)
  | sendLock (packet : α)
  | sendPush (packet : α)
  | sendNotify
  | sendReturn
  | flushLock
  | flushSwap
  | flushReturn
  | closeTest
  | closeStore
  | closeNotify
  | closeJoinable
  | closeJoin
deriving DecidableEq, Repr

def SenderPc.inPkt : SenderPc → Bool
  | entering _ | atWait _ | draining | testing => true
  | _ => false

def ClientPc.holds {α : Type} : ClientPc α → SenderMutex → Bool
  | initTest, .mStartMutex | initSocket, .mStartMutex | initSenderTask, .mStartMutex
  | initReturn _, .mStartMutex => true
  | sendPush _, .mPktMutex | sendNotify, .mPktMutex | sendReturn, .mPktMutex
  | flushSwap, .mPktMutex | flushReturn, .mPktMutex => true
  | _, _ => false

/-- About to call `mCv.notify_all`. -/
def ClientPc.notifies {α : Type} : ClientPc α → Bool
  | sendNotify | closeNotify => true
  | _ => false

/-- `joinable` is about `mSendThread`; `terminated` after an assignment to a
joinable thread or a join of one that is not. -/
structure PacketSender (ι α : Type) where
  running : Bool := false
  mPacketQueue : List α := []
  joinable : Bool := false
  holder : SenderMutex → Option (Party ι) := fun _ => none
  sender : SenderPc := .absent
  client : ι → ClientPc α := fun _ => .idle
  terminated : Bool := false

inductive Call (α : Type) where
  | Init
  | SendPacket (packet : α)
  | Flush
  | Close
deriving DecidableEq, Repr

def Call.start {α : Type} : Call α → ClientPc α
  | Init => .initLock
  | SendPacket packet => .sendLock packet
  | Flush => .flushLock
  | Close => .closeTest

inductive SenderAct (ι α : Type) where
  | call (c : ι) (f : Call α)
  /-- the next step of a client; `ok` is what the socket calls and the creation of
  the thread come to -/
  | client (c : ι) (ok : Bool)
  | sender
  | spuriousWakeup
deriving DecidableEq, Repr

namespace PacketSender

variable {ι α : Type}

def atSender (s : PacketSender ι α) (pc : SenderPc) : PacketSender ι α := { s with sender := pc }

/-- Sends the front packet and pops it. -/
def sendFront (s : PacketSender ι α) : PacketSender ι α :=
  { s with mPacketQueue := s.mPacketQueue.tail }

/-- `notify_all` wakes the sender out of its wait and does nothing otherwise. -/
def notifyAll (s : PacketSender ι α) : PacketSender ι α :=
  if s.sender = .waiting then s.atSender .relocking else s

section

variable [DecidableEq ι]

def atClient (s : PacketSender ι α) (c : ι) (pc : ClientPc α) : PacketSender ι α :=
  { s with client := Function.update s.client c pc }

def setHolder (s : PacketSender ι α) (m : SenderMutex) (p : Option (Party ι)) :
    PacketSender ι α :=
  { s with holder := Function.update s.holder m p }

def lockBySender (s : PacketSender ι α) (pc : SenderPc) : Option (PacketSender ι α) :=
  if s.holder .mPktMutex = none then
    some ((s.atSender pc).setHolder .mPktMutex (some .sender))
  else none

def unlockBySender (s : PacketSender ι α) (pc : SenderPc) : PacketSender ι α :=
  (s.atSender pc).setHolder .mPktMutex none

def lockByClient (s : PacketSender ι α) (c : ι) (m : SenderMutex) (pc : ClientPc α) :
    Option (PacketSender ι α) :=
  if s.holder m = none then some ((s.atClient c pc).setHolder m (some (.client c))) else none

def unlockByClient (s : PacketSender ι α) (c : ι) (m : SenderMutex) : PacketSender ι α :=
  (s.atClient c .idle).setHolder m none

/-- The next step of `senderTask`. -/
def senderStep (s : PacketSender ι α) : Option (PacketSender ι α) :=
  match s.sender with
  | .absent => none
  | .starting => s.lockBySender (.entering true)
  | .entering first => some { s.atSender (.atWait first) with running := true }
  | .atWait _ => some (s.unlockBySender .waiting)
  | .waiting => none
  | .relocking => s.lockBySender .draining
  | .draining => some (if s.mPacketQueue.isEmpty then s.atSender .testing else s.sendFront)
  | .testing => some (if s.running then s.atSender (.entering false) else s.unlockBySender .exited)
  | .exited => none

/-- `mSendThread = std::thread(runWorkerTask, this)`. -/
def createThread (s : PacketSender ι α) (c : ι) : PacketSender ι α :=
  if s.joinable then { s with terminated := true }
  else { (s.atClient c (.initReturn true)).atSender .starting with joinable := true }

/-- `mSendThread.join()`. -/
def join (s : PacketSender ι α) (c : ι) : Option (PacketSender ι α) :=
  if s.joinable then
    if s.sender = .exited then
      some { (s.atClient c .idle).atSender .absent with joinable := false }
    else none
  else some { s with terminated := true }

/-- The next step of the call that a client is in. -/
def clientStep (s : PacketSender ι α) (c : ι) (ok : Bool) : Option (PacketSender ι α) :=
  match s.client c with
  | .idle => none
  | .initLock => s.lockByClient c .mStartMutex .initTest
  | .initTest => some (s.atClient c (if s.running then .initReturn true else .initSocket))
  | .initSocket => some (s.atClient c (if ok then .initSenderTask else .initReturn false))
  | .initSenderTask => some (if ok then s.createThread c else s.atClient c (.initReturn false))
  | .initReturn _ => some (s.unlockByClient c .mStartMutex)
  | .sendLock packet => s.lockByClient c .mPktMutex (.sendPush packet)
  | .sendPush packet =>
      some { s.atClient c .sendNotify with mPacketQueue := s.mPacketQueue ++ [packet] }
  | .sendNotify => some (s.atClient c .sendReturn).notifyAll
  | .sendReturn => some (s.unlockByClient c .mPktMutex)
  | .flushLock => s.lockByClient c .mPktMutex .flushSwap
  | .flushSwap => some { s.atClient c .flushReturn with mPacketQueue := [] }
  | .flushReturn => some (s.unlockByClient c .mPktMutex)
  | .closeTest => some (s.atClient c (if s.running then .closeStore else .idle))
  | .closeStore => some { s.atClient c .closeNotify with running := false }
  | .closeNotify => some (s.atClient c .closeJoinable).notifyAll
  | .closeJoinable => some (s.atClient c (if s.joinable then .closeJoin else .idle))
  | .closeJoin => s.join c

def startCall (s : PacketSender ι α) (c : ι) (f : Call α) : Option (PacketSender ι α) :=
  match s.client c with
  | .idle => some (s.atClient c f.start)
  | _ => none

def step (s : PacketSender ι α) (a : SenderAct ι α) : Option (PacketSender ι α) :=
  if s.terminated then none
  else
    match a with
    | .call c f => s.startCall c f
    | .client c ok => s.clientStep c ok
    | .sender => s.senderStep
    | .spuriousWakeup => if s.sender = .waiting then some (s.atSender .relocking) else none

/-- A new `PacketSender`, no client in a call. -/
def system : System (PacketSender ι α) (SenderAct ι α) where
  init s := s = {}
  step := step

end

/-! ## Lost wake-ups -/

def Notifying (s : PacketSender ι α) : Prop := ∃ c, (s.client c).notifies = true

/-- The sender is blocked with packets to send and nobody about to wake it. -/
def LostWakeup (s : PacketSender ι α) : Prop :=
  s.sender = .waiting ∧ s.running = true ∧ s.mPacketQueue ≠ [] ∧ ¬ s.Notifying

/-- A `senderTask` comes to its first wait with nothing queued, or while a `Close` is
under way. -/
def FirstWaitReady (s : PacketSender ι α) : SenderAct ι α → Prop
  | .sender =>
      s.sender = .atWait true → s.mPacketQueue = [] ∨ s.running = false ∨ s.Notifying
  | _ => True

end PacketSender
end PlayerInterface.Subtec
