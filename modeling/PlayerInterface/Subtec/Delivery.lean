import PlayerInterface.Core.History
import PlayerInterface.Subtec.Counters

/-!
# Delivery to the subtec socket

`senderTask` hands the front packet to `sendPacket` and pops it, whether or not the write came
to anything. The socket is beside the channels here: it sees every step of the packet sender
and, in that step, what its own calls come to.
-/

namespace PlayerInterface.Subtec

open PlayerInterface.Core

def MAX_SNDBUF_SIZE : Nat := 8 * 1024 * 1024

/-- What the calls on the socket come to in a step. -/
structure SocketIo where
  socket : Bool := true
  /-- what `::getsockopt` stores, when it succeeds -/
  sndBuf : Option Int32 := none
  connect : Bool := true
  setsockopt : Bool := true
  write : Bool := true
deriving DecidableEq, Repr

/-- How a packet left the queue. -/
inductive Fate where
  | written
  | writeFailed (reconnecting : Bool)
  | flushed
deriving DecidableEq, Repr

/-- Whether the write failed, for a packet that was handed to it. -/
def Fate.failed? : Fate → Option Bool
  | written => some false
  | writeFailed _ => some true
  | flushed => none

structure SubtecSocket (χ : Type) where
  mSockBufSize : Int32 := 0
  mPktWriteFailCtr : Nat := 0
  /-- the packets that left the queue, in order -/
  departed : List ((χ × Packet) × Fate) := []

namespace SubtecSocket

variable {χ : Type}

/-- `mSockBufSize` as the comparison with a `size_t` reads it. -/
def sockBufSize (s : SubtecSocket χ) : Nat := (s.mSockBufSize.toInt % 2 ^ 64).toNat

/-- The socket buffer grows to the packet, up to a limit. -/
def fitBuffer (s : SubtecSocket χ) (size : Nat) (io : SocketIo) : SubtecSocket χ :=
  if s.sockBufSize < size ∧ size < MAX_SNDBUF_SIZE then
    if io.setsockopt then { s with mSockBufSize := Int32.ofNat size } else s
  else s

def sendPacket (s : SubtecSocket χ) (packet : χ × Packet) (io : SocketIo) : SubtecSocket χ :=
  let s := s.fitBuffer packet.2.m_buffer.length io
  let failCtr := if io.write then 0 else s.mPktWriteFailCtr + 1
  let reconnecting := decide (failCtr > 5)
  let fate := if io.write then Fate.written else .writeFailed reconnecting
  { s with
    mPktWriteFailCtr := if reconnecting then 0 else failCtr
    departed := s.departed ++ [(packet, fate)] }

/-- The packets of a swapped queue are dropped. -/
def flushed (s : SubtecSocket χ) (queue : List (χ × Packet)) : SubtecSocket χ :=
  { s with departed := s.departed ++ queue.map fun packet => (packet, .flushed) }

/-- The kernel returns twice the value of the buffer. -/
def initSocket (s : SubtecSocket χ) (io : SocketIo) : SubtecSocket χ :=
  if io.socket then { s with mSockBufSize := io.sndBuf.getD s.mSockBufSize / 2 } else s

/-- What a step of the packet sender does on the socket. -/
def observe {ι : Type} (s : SubtecSocket χ) (sender : PacketSender ι (χ × Packet))
    (a : SenderAct ι (χ × Packet)) (io : SocketIo) : SubtecSocket χ :=
  match a with
  | .sender =>
      match sender.sender, sender.mPacketQueue with
      | .draining, packet :: _ => s.sendPacket packet io
      | _, _ => s
  | .client c _ =>
      match sender.client c with
      | .initSocket => s.initSocket io
      | .flushSwap => s.flushed sender.mPacketQueue
      | _ => s
  | _ => s

end SubtecSocket

structure Delivery (ι χ : Type) where
  channels : ChannelState ι χ
  socket : SubtecSocket χ := {}

section

variable {ι χ : Type} [DecidableEq ι] [DecidableEq χ]

namespace Delivery

/-- `initSocket` fails exactly when one of its two calls does. -/
def admits (s : Delivery ι χ) (io : SocketIo) : ChannelAct ι χ → Bool
  | .sender (.client c ok) =>
      match s.channels.sender.client c with
      | .initSocket => ok == (io.socket && io.connect)
      | _ => true
  | _ => true

def socketAfter (s : Delivery ι χ) (io : SocketIo) : ChannelAct ι χ → SubtecSocket χ
  | .sender a => s.socket.observe s.channels.sender a io
  | _ => s.socket

end Delivery

def deliveryStep (s : Delivery ι χ) (a : ChannelAct ι χ × SocketIo) : Option (Delivery ι χ) :=
  if s.admits a.2 a.1 then
    (subtecStep s.channels a.1).map fun channels => ⟨channels, s.socketAfter a.2 a.1⟩
  else none

/-- New channels and a new packet sender. -/
def deliverySystem (ι χ : Type) [DecidableEq ι] [DecidableEq χ] :
    System (Delivery ι χ) (ChannelAct ι χ × SocketIo) where
  init s := s.channels.Initial ∧ s.socket = {}
  step := deliveryStep

/-! ## The queue -/

/-- The packets that a step takes out of the queue. -/
def PacketSender.leaving {α : Type} (s : PacketSender ι α) : SenderAct ι α → List α
  | .sender =>
      match s.sender with
      | .draining => s.mPacketQueue.take 1
      | _ => []
  | .client c _ =>
      match s.client c with
      | .flushSwap => s.mPacketQueue
      | _ => []
  | _ => []

omit [DecidableEq ι] in
theorem notifyAll_queue {α : Type} (s : PacketSender ι α) :
    s.notifyAll.mPacketQueue = s.mPacketQueue := by
  unfold PacketSender.notifyAll
  split <;> rfl

omit [DecidableEq ι] in
theorem lockBySender_queue {α : Type} {s t : PacketSender ι α} {pc : SenderPc}
    (h : s.lockBySender pc = some t) : t.mPacketQueue = s.mPacketQueue := by
  rcases Option.ite_none_right_eq_some.mp h with ⟨-, ht⟩
  cases ht
  rfl

theorem lockByClient_queue {α : Type} {s t : PacketSender ι α} {c : ι} {m : SenderMutex}
    {pc : ClientPc α} (h : s.lockByClient c m pc = some t) : t.mPacketQueue = s.mPacketQueue := by
  rcases Option.ite_none_right_eq_some.mp h with ⟨-, ht⟩
  cases ht
  rfl

omit [DecidableEq ι] in
theorem senderStep_queue {α : Type} {s t : PacketSender ι α} (h : s.senderStep = some t) :
    s.mPacketQueue = s.leaving .sender ++ t.mPacketQueue := by
  cases hpc : s.sender with
  | absent | waiting | exited =>
      simp only [PacketSender.senderStep, hpc] at h
      cases h
  | starting | relocking =>
      simp only [PacketSender.senderStep, hpc] at h
      simp only [PacketSender.leaving, hpc, lockBySender_queue h, List.nil_append]
  | entering first | atWait first =>
      simp only [PacketSender.senderStep, hpc] at h
      cases h
      simp only [PacketSender.leaving, hpc]
      rfl
  | testing =>
      simp only [PacketSender.senderStep, hpc] at h
      cases h
      simp only [PacketSender.leaving, hpc]
      split <;> rfl
  | draining =>
      simp only [PacketSender.senderStep, hpc] at h
      cases h
      cases hqueue : s.mPacketQueue with
      | nil => simp [PacketSender.leaving, hpc, hqueue, PacketSender.atSender]
      | cons packet queue =>
          simp [PacketSender.leaving, hpc, hqueue, PacketSender.sendFront]

/-- The packet that a client pushes in its next step. -/
def ClientPc.pushes {α : Type} : ClientPc α → List α
  | sendPush packet => [packet]
  | _ => []

/-- The queue of a client's step: one packet more, none, or the queue before. -/
theorem clientStep_queue {α : Type} {s t : PacketSender ι α} {c : ι} {ok : Bool}
    (h : s.clientStep c ok = some t) :
    s.mPacketQueue ++ (s.client c).pushes = s.leaving (.client c ok) ++ t.mPacketQueue := by
  cases hpc : s.client c with
  | idle =>
      simp only [PacketSender.clientStep, hpc] at h
      cases h
  | initLock | sendLock packet | flushLock =>
      simp only [PacketSender.clientStep, hpc] at h
      simp [PacketSender.leaving, hpc, ClientPc.pushes, lockByClient_queue h]
  | initTest | initSocket | initReturn ret | sendReturn | flushReturn | closeTest | closeStore
  | closeJoinable =>
      simp only [PacketSender.clientStep, hpc] at h
      cases h
      simp only [PacketSender.leaving, hpc, ClientPc.pushes, List.append_nil, List.nil_append]
      rfl
  | sendNotify | closeNotify =>
      simp only [PacketSender.clientStep, hpc] at h
      cases h
      simp only [PacketSender.leaving, hpc, ClientPc.pushes, List.append_nil, notifyAll_queue]
      rfl
  | sendPush packet =>
      simp only [PacketSender.clientStep, hpc] at h
      cases h
      simp only [PacketSender.leaving, hpc, ClientPc.pushes, List.nil_append]
  | flushSwap =>
      simp only [PacketSender.clientStep, hpc] at h
      cases h
      simp only [PacketSender.leaving, hpc, ClientPc.pushes]
  | initSenderTask =>
      simp only [PacketSender.clientStep, hpc] at h
      cases h
      simp only [PacketSender.leaving, hpc, ClientPc.pushes, List.append_nil, List.nil_append,
        PacketSender.createThread]
      split
      · split <;> rfl
      · rfl
  | closeJoin =>
      simp only [PacketSender.clientStep, hpc, PacketSender.join] at h
      simp only [PacketSender.leaving, hpc, ClientPc.pushes, List.append_nil, List.nil_append]
      split at h
      · rcases Option.ite_none_right_eq_some.mp h with ⟨-, ht⟩
        cases ht
        rfl
      · cases h
        rfl

omit [DecidableEq ι] [DecidableEq χ] in
theorem pushed_client (s : ChannelState ι χ) (c : ι) (ok : Bool) :
    s.pushed (.client c ok) = (s.sender.client c).pushes := by
  cases hpc : s.sender.client c <;> simp only [ChannelState.pushed, hpc, ClientPc.pushes]

/-- What was queued and what a step pushes is what leaves in it and what is queued behind it. -/
theorem step_conserves {s t : ChannelState ι χ} {a : SenderAct ι (χ × Packet)}
    (h : subtecStep s (.sender a) = some t) :
    t.entered = s.entered ++ s.pushed a ∧
      s.sender.mPacketQueue ++ s.pushed a = s.sender.leaving a ++ t.sender.mPacketQueue := by
  rcases Option.ite_none_right_eq_some.mp h with ⟨-, hrun⟩
  rcases Option.map_eq_some_iff.mp hrun with ⟨sender, hsender, rfl⟩
  refine ⟨rfl, ?_⟩
  simp only [PacketSender.step] at hsender
  split at hsender
  · cases hsender
  · cases a with
    | call c f =>
        simp only [PacketSender.startCall] at hsender
        split at hsender
        · cases hsender
          simp only [ChannelState.pushed, PacketSender.leaving, List.append_nil]
          rfl
        · cases hsender
    | client c ok =>
        rw [pushed_client]
        exact clientStep_queue hsender
    | sender =>
        simp only [ChannelState.pushed, List.append_nil]
        exact senderStep_queue hsender
    | spuriousWakeup =>
        rcases Option.ite_none_right_eq_some.mp hsender with ⟨-, ht⟩
        cases ht
        simp only [ChannelState.pushed, PacketSender.leaving, List.append_nil]
        rfl

/-- The other steps of a channel leave the queue and its record as they are. -/
theorem step_keepsQueue {s t : ChannelState ι χ} {a : ChannelAct ι χ}
    (h : subtecStep s a = some t) (ha : ∀ b, a ≠ .sender b) :
    t.entered = s.entered ∧ t.sender.mPacketQueue = s.sender.mPacketQueue := by
  cases a with
  | sender b => exact absurd rfl (ha b)
  | send c ch f =>
      simp only [subtecStep] at h
      split at h
      · cases h
        exact ⟨rfl, rfl⟩
      · cases h
  | channel c =>
      cases hpc : s.pc c with
      | outside =>
          simp only [subtecStep, ChannelState.channelStep, hpc] at h
          cases h
      | locking ch f =>
          simp only [subtecStep, ChannelState.channelStep, hpc] at h
          rcases Option.ite_none_right_eq_some.mp h with ⟨-, ht⟩
          cases ht
          exact ⟨rfl, rfl⟩
      | locked ch f =>
          simp only [subtecStep, ChannelState.channelStep, hpc, Option.bind_eq_bind] at h
          rcases Option.bind_eq_some_iff.mp h with ⟨p, -, hrest⟩
          rcases Option.bind_eq_some_iff.mp hrest with ⟨sender, hcall, ht⟩
          cases ht
          simp only [PacketSender.step, PacketSender.startCall] at hcall
          split at hcall
          · cases hcall
          · split at hcall
            · cases hcall
              exact ⟨rfl, rfl⟩
            · cases hcall
      | sending ch =>
          simp only [subtecStep, ChannelState.channelStep, hpc] at h
          split at h
          · cases h
            exact ⟨rfl, rfl⟩
          · cases h

end

/-! ## What left the queue -/

section

variable {χ : Type}

/-- Whether each write failed, in a record of packets that left the queue. -/
def outcomes (departed : List ((χ × Packet) × Fate)) : List Bool :=
  departed.filterMap fun entry => entry.2.failed?

theorem outcomes_flushed (departed : List ((χ × Packet) × Fate)) (queue : List (χ × Packet)) :
    outcomes (departed ++ queue.map fun packet => (packet, Fate.flushed)) = outcomes departed := by
  have hnone : outcomes (queue.map fun packet => (packet, Fate.flushed)) = [] := by
    rw [outcomes, List.filterMap_map, List.filterMap_eq_nil_iff]
    exact fun _ _ => rfl
  rw [outcomes, List.filterMap_append, ← outcomes, ← outcomes, hnone, List.append_nil]

/-- A failed write tries to reconnect when it is a sixth one in a row. -/
def ReconnectsDue (before : List ((χ × Packet) × Fate)) (entry : (χ × Packet) × Fate) : Prop :=
  ∀ reconnecting, entry.2 = .writeFailed reconnecting →
    (reconnecting = true ↔ 6 ∣ streak (outcomes before) + 1)

namespace SubtecSocket

/-- The counter and the reconnects go by the failures in a row. -/
structure CountsFailures (s : SubtecSocket χ) : Prop where
  counter : s.mPktWriteFailCtr = streak (outcomes s.departed) % 6
  reconnects : EachAfter ReconnectsDue s.departed

theorem fitBuffer_departed (s : SubtecSocket χ) (size : Nat) (io : SocketIo) :
    (s.fitBuffer size io).departed = s.departed := by
  unfold fitBuffer
  split
  · split <;> rfl
  · rfl

theorem fitBuffer_counter (s : SubtecSocket χ) (size : Nat) (io : SocketIo) :
    (s.fitBuffer size io).mPktWriteFailCtr = s.mPktWriteFailCtr := by
  unfold fitBuffer
  split
  · split <;> rfl
  · rfl

/-- A packet is recorded once, and the counter and the alarm are those of a limit of five. -/
theorem sendPacket_eq (s : SubtecSocket χ) (packet : χ × Packet) (io : SocketIo) :
    ∃ fate, (s.sendPacket packet io).departed = s.departed ++ [(packet, fate)] ∧
      fate.failed? = some (!io.write) ∧
      ((s.sendPacket packet io).mPktWriteFailCtr, decide (fate = .writeFailed true)) =
        countFailure 5 s.mPktWriteFailCtr (!io.write) := by
  cases hwrite : io.write with
  | true =>
      exact ⟨.written, by simp [sendPacket, fitBuffer_departed, hwrite], rfl,
        by simp [sendPacket, hwrite, countFailure]⟩
  | false =>
      refine ⟨.writeFailed (decide (s.mPktWriteFailCtr + 1 > 5)), ?_, rfl, ?_⟩
      · simp [sendPacket, fitBuffer_departed, fitBuffer_counter, hwrite]
      · simp only [sendPacket, hwrite, fitBuffer_counter, countFailure]
        by_cases hover : s.mPktWriteFailCtr + 1 > 5
        · simp [hover]
        · simp [hover]

theorem sendPacket_countsFailures {s : SubtecSocket χ} (h : s.CountsFailures)
    (packet : χ × Packet) (io : SocketIo) : (s.sendPacket packet io).CountsFailures := by
  obtain ⟨fate, hdeparted, hfailed, hcount⟩ := s.sendPacket_eq packet io
  rw [h.counter, countFailure_streak 5] at hcount
  obtain ⟨hcounter, halarm⟩ := Prod.mk.inj hcount
  have hpast : outcomes (s.departed ++ [(packet, fate)]) = outcomes s.departed ++ [!io.write] := by
    have hone : outcomes [(packet, fate)] = [!io.write] := List.filterMap_cons_some hfailed
    rw [outcomes, List.filterMap_append, ← outcomes, ← outcomes, hone]
  constructor
  · rw [hcounter, hdeparted, hpast]
  · rw [hdeparted]
    apply h.reconnects.concat
    rintro reconnecting rfl
    cases hwrite : io.write with
    | true =>
        rw [hwrite] at hfailed
        cases hfailed
    | false =>
        rw [hwrite] at halarm
        simp only [Bool.not_false, streak_concat_true, true_and] at halarm
        have hiff := decide_eq_decide.mp halarm
        rw [Fate.writeFailed.injEq] at hiff
        exact hiff

theorem flushed_countsFailures {s : SubtecSocket χ} (h : s.CountsFailures)
    (queue : List (χ × Packet)) : (s.flushed queue).CountsFailures := by
  constructor
  · show s.mPktWriteFailCtr = streak (outcomes (s.departed ++ _)) % 6
    rw [outcomes_flushed]
    exact h.counter
  · apply h.reconnects.append
    intro before entry after hsplit reconnecting hfate
    have hmem : entry ∈ queue.map fun packet => (packet, Fate.flushed) := by
      rw [hsplit]
      exact List.mem_append_right _ List.mem_cons_self
    rcases List.mem_map.mp hmem with ⟨packet, -, rfl⟩
    cases hfate

theorem initSocket_countsFailures {s : SubtecSocket χ} (h : s.CountsFailures) (io : SocketIo) :
    (s.initSocket io).CountsFailures := by
  unfold initSocket
  split
  · exact ⟨h.counter, h.reconnects⟩
  · exact h

theorem CountsFailures.observe {ι : Type} {s : SubtecSocket χ} (h : s.CountsFailures)
    (sender : PacketSender ι (χ × Packet)) (a : SenderAct ι (χ × Packet)) (io : SocketIo) :
    (s.observe sender a io).CountsFailures := by
  cases a with
  | call c f | spuriousWakeup => exact h
  | sender =>
      simp only [SubtecSocket.observe]
      split
      · exact sendPacket_countsFailures h _ io
      · exact h
  | client c ok =>
      simp only [SubtecSocket.observe]
      split
      · exact initSocket_countsFailures h io
      · exact flushed_countsFailures h _
      · exact h

/-- What leaves the queue in a step is recorded, and nothing else. -/
theorem observe_departed {ι : Type} (s : SubtecSocket χ) (sender : PacketSender ι (χ × Packet))
    (a : SenderAct ι (χ × Packet)) (io : SocketIo) :
    (s.observe sender a io).departed.map Prod.fst =
      s.departed.map Prod.fst ++ sender.leaving a := by
  cases a with
  | call c f | spuriousWakeup => exact (List.append_nil _).symm
  | sender =>
      cases hpc : sender.sender with
      | draining =>
          cases hqueue : sender.mPacketQueue with
          | nil => simp [observe, PacketSender.leaving, hpc, hqueue]
          | cons packet queue =>
              obtain ⟨fate, hdeparted, -, -⟩ := s.sendPacket_eq packet io
              simp [observe, PacketSender.leaving, hpc, hqueue, hdeparted]
      | absent | starting | entering | atWait | waiting | relocking | testing | exited =>
          simp [observe, PacketSender.leaving, hpc]
  | client c ok =>
      by_cases hinit : sender.client c = .initSocket
      · simp only [observe, PacketSender.leaving, hinit, initSocket, List.append_nil]
        split <;> rfl
      · by_cases hflush : sender.client c = .flushSwap
        · simp [observe, PacketSender.leaving, hflush, flushed, Function.comp_def]
        · have hsame : s.observe sender (.client c ok) io = s := by
            simp only [observe]
          have hnone : sender.leaving (.client c ok) = [] := by
            simp only [PacketSender.leaving]
          rw [hsame, hnone, List.append_nil]

end SubtecSocket

end

/-! ## Runs -/

section

variable {ι χ : Type} [DecidableEq ι] [DecidableEq χ]

namespace Delivery

/-- The packets of one channel that left the queue, in order. -/
def departedBy (s : Delivery ι χ) (ch : χ) : List (Packet × Fate) :=
  (s.socket.departed.filter fun entry => entry.1.1 = ch).map fun entry => (entry.1.2, entry.2)

structure Accounted (s : Delivery ι χ) : Prop where
  numbered : s.channels.Numbered
  entered : s.channels.entered =
    s.socket.departed.map Prod.fst ++ s.channels.sender.mPacketQueue
  failures : s.socket.CountsFailures

omit [DecidableEq ι] in
theorem Accounted.initial {s : Delivery ι χ} (hchannels : s.channels.Initial)
    (hsocket : s.socket = {}) : s.Accounted where
  numbered := hchannels.numbered
  entered := by
    rw [hchannels.entered, hsocket, hchannels.sender]
    rfl
  failures := by
    rw [hsocket]
    exact ⟨rfl, eachAfter_nil⟩

theorem Accounted.step {s t : Delivery ι χ} {a : ChannelAct ι χ × SocketIo} (h : s.Accounted)
    (hstep : deliveryStep s a = some t) : t.Accounted := by
  rcases Option.ite_none_right_eq_some.mp hstep with ⟨-, hrun⟩
  rcases Option.map_eq_some_iff.mp hrun with ⟨channels, hchannels, rfl⟩
  have hnumbered := ChannelState.step_numbered h.numbered hchannels
  obtain ⟨act, io⟩ := a
  cases act with
  | send c ch f =>
      obtain ⟨hentered, hqueue⟩ := step_keepsQueue hchannels nofun
      exact ⟨hnumbered, by rw [hentered, hqueue]; exact h.entered, h.failures⟩
  | channel c =>
      obtain ⟨hentered, hqueue⟩ := step_keepsQueue hchannels nofun
      exact ⟨hnumbered, by rw [hentered, hqueue]; exact h.entered, h.failures⟩
  | sender b =>
      obtain ⟨hentered, hconserves⟩ := step_conserves hchannels
      refine ⟨hnumbered, ?_, h.failures.observe _ _ _⟩
      calc channels.entered
          = s.channels.entered ++ s.channels.pushed b := hentered
        _ = s.socket.departed.map Prod.fst ++
              (s.channels.sender.mPacketQueue ++ s.channels.pushed b) := by
            rw [h.entered, List.append_assoc]
        _ = s.socket.departed.map Prod.fst ++
              (s.channels.sender.leaving b ++ channels.sender.mPacketQueue) := by
            rw [hconserves]
        _ = (s.socket.observe s.channels.sender b io).departed.map Prod.fst ++
              channels.sender.mPacketQueue := by
            rw [SubtecSocket.observe_departed, List.append_assoc]

theorem accounted_of_reachable {s : Delivery ι χ} (h : (deliverySystem ι χ).Reachable s) :
    s.Accounted :=
  h.invariant (fun _ hinit => .initial hinit.1 hinit.2) fun _ _ _ hs _ hstep => hs.step hstep

end Delivery

/-- Whatever the interleaving of channels, flushes, closes and failing writes: the packets that
entered the queue are those that left it, each once and in the same order, and then those queued. -/
theorem entered_eq_departed_append {s : Delivery ι χ}
    (h : (deliverySystem ι χ).Reachable s) :
    s.channels.entered = s.socket.departed.map Prod.fst ++ s.channels.sender.mPacketQueue :=
  (Delivery.accounted_of_reachable h).entered

/-- A failed write is followed by a reconnect exactly when it is the sixth, twelfth, … failure
since the last write that succeeded, across flushes, closes and new starts. -/
theorem reconnects_every_sixth {s : Delivery ι χ} (h : (deliverySystem ι χ).Reachable s)
    {before after : List ((χ × Packet) × Fate)} {packet : χ × Packet} {reconnecting : Bool}
    (hdeparted : s.socket.departed = before ++ (packet, .writeFailed reconnecting) :: after) :
    reconnecting = true ↔ 6 ∣ streak (outcomes before) + 1 :=
  (Delivery.accounted_of_reachable h).failures.reconnects before _ after hdeparted reconnecting rfl

/-! ## Gaps in the counters -/

def Packet.IsResetAll (p : Packet) : Prop := ∃ n, p.header = some (PacketType.RESET_ALL.word, n)

/-- Along a row without a reset the counter words count the packets. -/
theorem number_along {p q : Packet} {between : List Packet}
    (h : (p :: (between ++ [q])).IsChain Follows)
    (hreset : ∀ r ∈ between ++ [q], ¬ r.IsResetAll) :
    ∃ tp np tq nq, p.header = some (tp, np) ∧ q.header = some (tq, nq) ∧
      nq = np + UInt32.ofNat (between.length + 1) := by
  induction between generalizing p with
  | nil =>
      obtain ⟨⟨tp, np, tq, nq, hp, hq, hnext⟩, -⟩ := List.isChain_cons_cons.mp h
      have hplain : tq ≠ PacketType.RESET_ALL.word := by
        rintro rfl
        exact hreset q (List.mem_append_right _ List.mem_cons_self) ⟨nq, hq⟩
      rw [if_neg hplain] at hnext
      exact ⟨tp, np, tq, nq, hp, hq, hnext⟩
  | cons r between ih =>
      obtain ⟨⟨tp, np, tr, nr, hp, hr, hnext⟩, hrest⟩ := List.isChain_cons_cons.mp h
      have hplain : tr ≠ PacketType.RESET_ALL.word := by
        rintro rfl
        exact hreset r List.mem_cons_self ⟨nr, hr⟩
      rw [if_neg hplain] at hnext
      have hlater : ∀ x ∈ between ++ [q], ¬ x.IsResetAll := fun x hx =>
        hreset x (List.mem_cons_of_mem r hx)
      obtain ⟨tr', nr', tq, nq, hr', hq, hcount⟩ := ih hrest hlater
      cases hr.symm.trans hr'
      refine ⟨tp, np, tq, nq, hp, hq, ?_⟩
      rw [hcount, hnext, List.length_cons, UInt32.add_assoc, Nat.add_comm (between.length + 1) 1,
        UInt32.ofNat_add 1]
      rfl

namespace Delivery

omit [DecidableEq ι] in
theorem enteredBy_eq {s : Delivery ι χ} (h : s.Accounted) (ch : χ) :
    ∃ queued, s.channels.enteredBy ch = (s.departedBy ch).map Prod.fst ++ queued := by
  refine ⟨(s.channels.sender.mPacketQueue.filter fun entry => entry.1 = ch).map Prod.snd, ?_⟩
  rw [ChannelState.enteredBy, h.entered, List.filter_append, List.map_append, departedBy]
  congr 1
  rw [List.filter_map, List.map_map, List.map_map]
  rfl

end Delivery

/-- Two packets of a channel on the socket, with no reset of all channels behind the first: the
difference of their counters, the datagrams received between them and one make up the number
of packets lost between them. -/
theorem lost_from_counters {s : Delivery ι χ} (h : (deliverySystem ι χ).Reachable s) (ch : χ)
    {p q : Packet} {before between after : List (Packet × Fate)}
    (hdeparted : s.departedBy ch =
      before ++ (p, .written) :: (between ++ (q, .written) :: after))
    (hreset : ∀ r ∈ between.map Prod.fst ++ [q], ¬ r.IsResetAll)
    (hfew : between.length + 1 < 2 ^ 32) :
    ∃ tp np tq nq, p.header = some (tp, np) ∧ q.header = some (tq, nq) ∧
      (between.countP fun entry => entry.2 ≠ .written) +
        (between.countP fun entry => entry.2 = .written) + 1 = (nq - np).toNat := by
  have haccounted := Delivery.accounted_of_reachable h
  have hchain : (s.channels.enteredBy ch).IsChain Follows :=
    (List.isChain_append.mp (haccounted.numbered.chain ch)).1
  obtain ⟨queued, hentered⟩ := Delivery.enteredBy_eq haccounted ch
  have hrow : (p :: (between.map Prod.fst ++ [q])).IsChain Follows := by
    apply hchain.infix
    refine ⟨before.map Prod.fst, after.map Prod.fst ++ queued, ?_⟩
    rw [hentered, hdeparted]
    simp
  obtain ⟨tp, np, tq, nq, hp, hq, hcount⟩ := number_along hrow hreset
  refine ⟨tp, np, tq, nq, hp, hq, ?_⟩
  have hlength := between.length_eq_countP_add_countP fun entry => decide (entry.2 = .written)
  have hdistance : nq - np = UInt32.ofNat (between.length + 1) := by
    rw [hcount, List.length_map, UInt32.add_comm, UInt32.add_sub_cancel]
  rw [hdistance, UInt32.toNat_ofNat_of_lt' hfew, hlength, Nat.add_comm (List.countP _ _)]
  congr 2
  exact List.countP_congr fun entry _ => by simp

end

/-! ## A sender at work -/

def SocketIo.writing (write : Bool) : SocketIo := { write }

/-- The first client starts the sender, which comes to its wait. -/
def startedSender : List (ChannelAct Bool Unit) :=
  .sender (.call false .Init) :: List.replicate 5 (.sender (.client false true)) ++
    List.replicate 3 (.sender .sender)

/-- Both clients pause the channel in turn; the sender wakes up and writes with these results. -/
def pausesWritten (count : Nat) (writes : List Bool) : List (ChannelAct Bool Unit × SocketIo) :=
  (startedSender ++
    (List.range count).flatMap (fun k => sendOnce (k % 2 == 0) .PausePacket) ++
    [ChannelAct.sender .sender]).map (fun act => (act, SocketIo.writing true)) ++
      writes.map fun write => (.sender .sender, .writing write)

/-- A run of the two clients, checked at its end. -/
theorem pausesWritten_run (count : Nat) (writes : List Bool) (test : Delivery Bool Unit → Bool)
    (h : ((deliverySystem Bool Unit).run ⟨oneChannel, {}⟩ (pausesWritten count writes)).any test) :
    ∃ s, (deliverySystem Bool Unit).Reachable s ∧ test s = true := by
  rcases (Option.any_eq_true _ _).mp h with ⟨s, hrun, htest⟩
  have hinit : (deliverySystem Bool Unit).init ⟨oneChannel, {}⟩ :=
    ⟨⟨rfl, fun _ => rfl, fun _ => rfl, fun _ => rfl, rfl⟩, rfl⟩
  exact ⟨s, System.reachable_of_run hinit hrun, htest⟩

/-- Of three packets the second is lost, the third still queued. -/
theorem twoWritten_accounted : ∃ s : Delivery Bool Unit,
    s.socket.departed.map Prod.snd = [.written, .writeFailed false] ∧
      s.channels.entered = s.socket.departed.map Prod.fst ++ s.channels.sender.mPacketQueue := by
  obtain ⟨s, hreach, hfates⟩ := pausesWritten_run 3 [true, false]
    (fun s => decide (s.socket.departed.map Prod.snd = [.written, .writeFailed false]))
    (by decide +kernel)
  exact ⟨s, of_decide_eq_true hfates, entered_eq_departed_append hreach⟩

/-- The sixth failure in a row reconnects. -/
theorem sixFailures_reconnect : ∃ s : Delivery Bool Unit, ∃ before packet,
    s.socket.departed = before ++ [(packet, .writeFailed true)] ∧
      6 ∣ streak (outcomes before) + 1 := by
  obtain ⟨s, hreach, hlast⟩ := pausesWritten_run 7 (true :: List.replicate 6 false)
    (fun s => decide (s.socket.departed =
      s.socket.departed.take 6 ++ [(((), pausePacket 7 6), .writeFailed true)]))
    (by decide +kernel)
  have hdeparted := of_decide_eq_true hlast
  exact ⟨s, _, _, hdeparted, (reconnects_every_sixth hreach hdeparted).mp rfl⟩

theorem pausePacket_header (channelId counter : UInt32) :
    (pausePacket channelId counter).header = some (PacketType.PAUSE.word, counter) := by
  simp only [Packet.header, pausePacket, Construction.channelPacket_m_buffer, Frame.bytes,
    List.append_assoc, Parse.read32_append, Option.bind_eq_bind, Option.bind_some]
  rfl

/-- The counters 0 and 2 tell of the packet between them. -/
theorem oneLost_counted :
    ∃ tp np tq nq, (pausePacket 7 0).header = some (tp, np) ∧
      (pausePacket 7 2).header = some (tq, nq) ∧ 1 + 0 + 1 = (nq - np).toNat := by
  obtain ⟨s, hreach, hthree⟩ := pausesWritten_run 3 [true, false, true]
    (fun s => decide (s.departedBy () = [] ++ (pausePacket 7 0, .written) ::
      ([(pausePacket 7 1, .writeFailed false)] ++ (pausePacket 7 2, .written) :: [])))
    (by decide +kernel)
  have hplain : ∀ n : UInt32, ¬ (pausePacket 7 n).IsResetAll := by
    rintro n ⟨m, hm⟩
    have hword : PacketType.PAUSE.word ≠ PacketType.RESET_ALL.word := by decide
    rw [pausePacket_header] at hm
    exact hword (congrArg Prod.fst (Option.some.inj hm))
  exact lost_from_counters hreach () (of_decide_eq_true hthree) (by simp [hplain]) (by decide)

end PlayerInterface.Subtec
