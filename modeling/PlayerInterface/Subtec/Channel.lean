import PlayerInterface.Subtec.Framing
import PlayerInterface.Subtec.PacketSender

/-!
# Subtec channels

Every sender of a channel takes the counter and hands the packet to the packet
sender under `mChannelMtx`. The channels share one packet sender; its packets are
marked here with the channel they come from.
-/

namespace PlayerInterface.Subtec

open PlayerInterface.Core

/-- What a channel can be asked to send, by the senders of `SubtecChannel` and its subclasses. -/
inductive Send where
  | ResetAllPacket
  | ResetChannelPacket
  | PausePacket
  | ResumePacket
  | MutePacket
  | UnmutePacket
  | CCSetAttributePacket (ccType attribType : UInt32) (attributesValues : AttributesType)
  | TtmlSelectionPacket (width height : UInt32)
  | TtmlDataPacket (timeOffsetMs : Int64) (data : Bytes)
  | TtmlTimestampPacket (timestampMs : UInt64)
  | WebVttSelectionPacket (width height : UInt32)
  | WebVttDataPacket (timeOffsetMs : Int64) (data : Bytes)
  | WebVttTimestampPacket (timestampMs : UInt64)
  | DataPacketWithPTS (ptsValue : UInt32) (data : Bytes)
  | DataPacketNoPTS (data : Bytes)
  | ActiveTypePacket (type : CEA) (channel : UInt32)
deriving DecidableEq, Repr

structure SubtecChannel (ι : Type) where
  m_channelId : UInt32
  m_counter : UInt32 := 0
  /-- who holds `mChannelMtx` -/
  holder : Option ι := none

/-- The constructor call of a sender, with the counter it is given. -/
def Send.construction (channelId counter : UInt32) : Send → Construction
  | ResetAllPacket => .resetAllPacket
  | ResetChannelPacket => .resetChannelPacket channelId counter
  | PausePacket => .pausePacket channelId counter
  | ResumePacket => .resumePacket channelId counter
  | MutePacket => .mutePacket channelId counter
  | UnmutePacket => .unmutePacket channelId counter
  | CCSetAttributePacket ccType attribType attributesValues =>
      .ccSetAttributePacket channelId counter ccType attribType attributesValues
  | TtmlSelectionPacket width height => .ttmlSelectionPacket channelId counter width height
  | TtmlDataPacket timeOffsetMs data => .ttmlDataPacket channelId counter timeOffsetMs data
  | TtmlTimestampPacket timestampMs => .ttmlTimestampPacket channelId counter timestampMs
  | WebVttSelectionPacket width height => .webVttSelectionPacket channelId counter width height
  | WebVttDataPacket timeOffsetMs data => .webVttDataPacket channelId counter timeOffsetMs data
  | WebVttTimestampPacket timestampMs => .webVttTimestampPacket channelId counter timestampMs
  | DataPacketWithPTS ptsValue data => .closedCaptionsPacketWithPTS channelId counter ptsValue data
  | DataPacketNoPTS data => .closedCaptionsPacketNoPTS channelId counter data
  | ActiveTypePacket type channel =>
      .closedCaptionsActiveTypePacket channelId counter type channel.toInt32

/-- `m_counter++`, or `m_counter = 1` for a reset of all channels. -/
def Send.nextCounter (counter : UInt32) : Send → UInt32
  | ResetAllPacket => 1
  | _ => counter + 1

/-- Where a client stands in a sender of a channel `χ`. -/
inductive ChannelPc (χ : Type) where
  | outside
  | locking (ch : χ) (f : Send)
  /-- holds `mChannelMtx`, has not taken the counter yet -/
  | locked (ch : χ) (f : Send)
  /-- in `SendPacket`, or back from it -/
  | sending (ch : χ)
deriving DecidableEq, Repr

structure ChannelState (ι χ : Type) where
  sender : PacketSender ι (χ × Packet) := {}
  channel : χ → SubtecChannel ι
  pc : ι → ChannelPc χ := fun _ => .outside
  /-- the packets in the order they entered the queue -/
  entered : List (χ × Packet) := []

inductive ChannelAct (ι χ : Type) where
  | send (c : ι) (ch : χ) (f : Send)
  /-- the next step of a client in the sender of a channel, outside `SendPacket` -/
  | channel (c : ι)
  /-- a step of the packet sender or of a client in one of its calls -/
  | sender (a : SenderAct ι (χ × Packet))

section

variable {ι χ : Type} [DecidableEq ι] [DecidableEq χ]

namespace ChannelState

def atPc (s : ChannelState ι χ) (c : ι) (pc : ChannelPc χ) : ChannelState ι χ :=
  { s with pc := Function.update s.pc c pc }

def setChannel (s : ChannelState ι χ) (ch : χ) (k : SubtecChannel ι) : ChannelState ι χ :=
  { s with channel := Function.update s.channel ch k }

/-- The packet that the step puts into the queue. -/
def pushed (s : ChannelState ι χ) : SenderAct ι (χ × Packet) → List (χ × Packet)
  | .client c _ =>
      match s.sender.client c with
      | .sendPush packet => [packet]
      | _ => []
  | _ => []

/-- Packets come from channels only, and a client is in one call at a time. -/
def admits (s : ChannelState ι χ) : SenderAct ι (χ × Packet) → Bool
  | .call _ (.SendPacket _) => false
  | .call c _ => match s.pc c with
      | .outside => true
      | _ => false
  | _ => true

def channelStep (s : ChannelState ι χ) (c : ι) : Option (ChannelState ι χ) :=
  match s.pc c with
  | .outside => none
  | .locking ch f =>
      if (s.channel ch).holder = none then
        some ((s.atPc c (.locked ch f)).setChannel ch { s.channel ch with holder := some c })
      else none
  | .locked ch f => do
      let k := s.channel ch
      let packet ← (f.construction k.m_channelId k.m_counter).build
      let sender ← s.sender.step (.call c (.SendPacket (ch, packet)))
      pure { (s.atPc c (.sending ch)).setChannel ch
        { k with m_counter := f.nextCounter k.m_counter } with sender }
  | .sending ch =>
      match s.sender.client c with
      | .idle => some ((s.atPc c .outside).setChannel ch { s.channel ch with holder := none })
      | _ => none

end ChannelState

def subtecStep (s : ChannelState ι χ) : ChannelAct ι χ → Option (ChannelState ι χ)
  | .send c ch f =>
      match s.pc c, s.sender.client c with
      | .outside, .idle => some (s.atPc c (.locking ch f))
      | _, _ => none
  | .channel c => s.channelStep c
  | .sender a =>
      if s.admits a then
        (s.sender.step a).map fun sender => { s with sender, entered := s.entered ++ s.pushed a }
      else none

/-- New channels, whatever their ids. -/
structure ChannelState.Initial (s : ChannelState ι χ) : Prop where
  sender : s.sender = {}
  counter : ∀ ch, (s.channel ch).m_counter = 0
  holder : ∀ ch, (s.channel ch).holder = none
  pc : ∀ c, s.pc c = .outside
  entered : s.entered = []

def subtecSystem (ι χ : Type) [DecidableEq ι] [DecidableEq χ] :
    System (ChannelState ι χ) (ChannelAct ι χ) where
  init := ChannelState.Initial
  step := subtecStep

/-! ## The counters on the wire -/

/-- The type and the counter word of a packet. -/
def Packet.header (p : Packet) : Option (UInt32 × UInt32) := do
  let (type, rest) ← Parse.read32 p.m_buffer
  let (counter, _) ← Parse.read32 rest
  pure (type, counter)

/-- A reset of all channels carries 0, every other packet the word before plus one. -/
def Follows (p q : Packet) : Prop :=
  ∃ tp np tq nq, p.header = some (tp, np) ∧ q.header = some (tq, nq) ∧
    nq = if tq = PacketType.RESET_ALL.word then 0 else np + 1

/-- The packets of one channel in the order they entered the queue. -/
def ChannelState.enteredBy (s : ChannelState ι χ) (ch : χ) : List Packet :=
  (s.entered.filter fun entry => entry.1 = ch).map Prod.snd

end

/-- What is built for a sender has its counter in its second word. -/
theorem header_of_build {f : Send} {channelId counter : UInt32} {p : Packet}
    (h : (f.construction channelId counter).build = some p) :
    ∃ type number, p.header = some (type, number) ∧
      (number = if type = PacketType.RESET_ALL.word then 0 else counter) ∧
      f.nextCounter counter = number + 1 := by
  let c := f.construction channelId counter
  have hindexed : c.indexedPayload.length ≤ INT_MAX := by
    by_contra hlong
    rw [Construction.build_overflow (Nat.lt_of_not_le hlong)] at h
    cases h
  rcases Construction.build_of_indexed hindexed with ⟨q, hq, hbuffer⟩
  cases hq.symm.trans h
  have hheader : p.header = some (c.type.word, c.counter) := by
    rw [Packet.header, hbuffer, Frame.bytes, List.append_assoc, List.append_assoc]
    simp only [Parse.read32_append, Option.bind_eq_bind, Option.bind_some]
    rfl
  refine ⟨_, _, hheader, ?_⟩
  cases f <;> exact ⟨rfl, rfl⟩

end PlayerInterface.Subtec
