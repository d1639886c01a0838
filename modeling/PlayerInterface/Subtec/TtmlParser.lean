import PlayerInterface.IsoBmff.MediaSegment
import PlayerInterface.Subtec.Channel
import PlayerInterface.Subtec.TtmlBegin

/-!
# From media segments to TTML packets

The parser sends the payload of every media segment through its channel. Of a linear stream it
sends once after `init`, in front of the first document that has a begin time, the offset of that
document.
-/

namespace PlayerInterface.Subtec

open PlayerInterface.Core PlayerInterface.IsoBmff

/-! ## The parser -/

/-- What the parser computes with `double`, and with the positions the player gives. -/
structure Clock (D P : Type) where
  zero : D
  startMs : D → UInt64
  totalOffset : Int → D → D → P → UInt64

inductive ParserFailure where
  | exception (failure : Failure)
  | lengthUnset
deriving DecidableEq, Repr

structure TtmlSubtecParser (D : Type) where
  m_isLinear : Bool := false
  m_parsedFirstPacket : Bool := false
  m_sentOffset : Bool := false
  m_firstBeginOffset : D
  /-- what the channel was asked to send -/
  sent : List Send := []
deriving DecidableEq

namespace TtmlSubtecParser

variable {D P : Type}

def send (p : TtmlSubtecParser D) (f : Send) : TtmlSubtecParser D :=
  { p with sent := p.sent ++ [f] }

/-- The constructor, when the channel could be opened. -/
def new (clock : Clock D P) (width height : UInt32) : TtmlSubtecParser D :=
  let screen : UInt32 × UInt32 := if width ≠ 0 ∧ height ≠ 0 then (width, height) else (1920, 1080)
  { m_firstBeginOffset := clock.zero
    sent := [.ResetAllPacket, .TtmlSelectionPacket screen.1 screen.2, .MutePacket] }

def init (clock : Clock D P) (p : TtmlSubtecParser D) (startPosSeconds : D) : TtmlSubtecParser D :=
  { p.send (.TtmlTimestampPacket (clock.startMs startPosSeconds)) with
    m_parsedFirstPacket := false
    m_sentOffset := false
    m_firstBeginOffset := clock.zero }

def updateTimestamp (p : TtmlSubtecParser D) (positionMs : UInt64) : TtmlSubtecParser D :=
  p.send (.TtmlTimestampPacket positionMs)

def reset (p : TtmlSubtecParser D) : TtmlSubtecParser D := p.send .ResetChannelPacket

def isLinear (p : TtmlSubtecParser D) (linear : Bool) : TtmlSubtecParser D :=
  { p with m_isLinear := linear }

def mute (p : TtmlSubtecParser D) (muted : Bool) : TtmlSubtecParser D :=
  p.send (if muted then .MutePacket else .UnmutePacket)

def pause (p : TtmlSubtecParser D) (paused : Bool) : TtmlSubtecParser D :=
  p.send (if paused then .PausePacket else .ResumePacket)

/-- The position of the first document of a linear stream is kept. -/
def firstPacket (p : TtmlSubtecParser D) (position : D) : TtmlSubtecParser D :=
  if p.m_parsedFirstPacket = false ∧ p.m_isLinear then
    { p with m_firstBeginOffset := position, m_parsedFirstPacket := true }
  else p

/-- What is sent for a document in front of its data. -/
def sendOffset (clock : Clock D P) (p : TtmlSubtecParser D) (data : Bytes) (position : D)
    (positions : P) : Except Failure (TtmlSubtecParser D) :=
  if p.m_sentOffset = false ∧ p.m_parsedFirstPacket ∧ p.m_isLinear then
    (parseFirstBegin (textOf data)).map fun (offset : Int) =>
      if offset ≠ INT64_MAX then
        { p with m_sentOffset := true }.send
          (.TtmlTimestampPacket (clock.totalOffset offset position p.m_firstBeginOffset positions))
      else p
  else .ok p

/-- An exception leaves the parser as it is then, with the data unsent. -/
def processSegment (clock : Clock D P) (p : TtmlSubtecParser D) (segment : Segment) (position : D)
    (positions : P) : Option ParserFailure × TtmlSubtecParser D :=
  match segment with
  | .init => (none, p)
  | .lengthUnset => (some .lengthUnset, p)
  | .media data =>
      let p := p.firstPacket position
      match p.sendOffset clock data position positions with
      | .error failure => (some (.exception failure), p)
      | .ok p => (none, p.send (.TtmlDataPacket 0 data))

/-- `none` while the boxes are not parsed. -/
def processData (clock : Clock D P) (fuel : Nat) (p : TtmlSubtecParser D) (buffer : Bytes)
    (beyond : Mem) (position : D) (positions : P) :
    Option (Option ParserFailure × TtmlSubtecParser D) :=
  (segmentOf fuel buffer beyond).map fun segment =>
    p.processSegment clock segment position positions

end TtmlSubtecParser

/-! ## A stream of segments -/

/-- A call of `processData`, with what stands behind the buffer. -/
structure Feed (D P : Type) where
  segment : MediaSegment
  beyond : Mem
  position : D
  positions : P

/-- What is sent of the segment itself. -/
def Feed.send {D P : Type} (feed : Feed D P) : Send := .TtmlDataPacket 0 feed.segment.data

namespace TtmlSubtecParser

variable {D P : Type}

/-- The calls one after the other, as long as they succeed. -/
def feedAll (clock : Clock D P) (fuel : Nat) (p : TtmlSubtecParser D) :
    List (Feed D P) → Option (TtmlSubtecParser D)
  | [] => some p
  | feed :: feeds =>
      match p.processData clock fuel feed.segment.bytes feed.beyond feed.position
          feed.positions with
      | some (none, p) => feedAll clock fuel p feeds
      | _ => none

/-- A new parser for a linear stream, from its `init` on. -/
def tune (clock : Clock D P) (width height : UInt32) (startPosSeconds : D) : TtmlSubtecParser D :=
  ((new clock width height).isLinear true).init clock startPosSeconds

/-- The segments as what is taken from them. -/
def feedSegments (clock : Clock D P) (p : TtmlSubtecParser D) :
    List (Feed D P) → Option (TtmlSubtecParser D)
  | [] => some p
  | feed :: feeds =>
      match p.processSegment clock (.media feed.segment.data) feed.position feed.positions with
      | (none, p) => feedSegments clock p feeds
      | _ => none

/-- With fuel for its longest segment a stream is parsed to the end. -/
theorem feedAll_eq (clock : Clock D P) (feeds : List (Feed D P)) :
    ∃ fuel, ∀ p, feedAll clock fuel p feeds = feedSegments clock p feeds := by
  have hall : ∃ fuel, ∀ feed ∈ feeds,
      segmentOf fuel feed.segment.bytes feed.beyond = some (.media feed.segment.data) := by
    induction feeds with
    | nil => exact ⟨0, nofun⟩
    | cons feed feeds ih =>
        obtain ⟨fuel, hrest⟩ := ih
        obtain ⟨fuel', hfeed⟩ := feed.segment.segmentOf_eq feed.beyond
        refine ⟨max fuel fuel', List.forall_mem_cons.mpr ⟨?_, fun f hf => ?_⟩⟩
        · exact segmentOf_mono (Nat.le_max_right _ _) hfeed
        · exact segmentOf_mono (Nat.le_max_left _ _) (hrest f hf)
  obtain ⟨fuel, hfuel⟩ := hall
  refine ⟨fuel, fun p => ?_⟩
  induction feeds generalizing p with
  | nil => rfl
  | cons feed feeds ih =>
      have hrest := ih fun f hf => hfuel f (List.mem_cons_of_mem feed hf)
      rw [feedAll, processData, hfuel feed List.mem_cons_self, Option.map_some, feedSegments]
      split
      · rename_i heq
        rw [Option.some.injEq] at heq
        rw [heq]
        exact hrest _
      · rename_i hne
        split
        · rename_i heq
          exact absurd (congrArg some heq) (hne _)
        · rfl

theorem feedSegments_append (clock : Clock D P) (p : TtmlSubtecParser D)
    (front back : List (Feed D P)) :
    feedSegments clock p (front ++ back) =
      (feedSegments clock p front).bind fun q => feedSegments clock q back := by
  induction front generalizing p with
  | nil => rfl
  | cons feed front ih =>
      rw [List.cons_append, feedSegments, feedSegments]
      split
      · exact ih _
      · rfl

/-! ## What a linear stream sends -/

/-- A linear stream whose offset is still to be sent; `first` is the position of the first document
when there was one. -/
structure Waiting (p : TtmlSubtecParser D) (first : Option D) : Prop where
  linear : p.m_isLinear = true
  unsent : p.m_sentOffset = false
  parsed : p.m_parsedFirstPacket = first.isSome
  position : ∀ d, first = some d → p.m_firstBeginOffset = d

theorem tune_waiting (clock : Clock D P) (width height : UInt32) (startPosSeconds : D) :
    (tune clock width height startPosSeconds).Waiting none :=
  ⟨rfl, rfl, rfl, nofun⟩

/-- With a document in hand the position of the first one is known. -/
theorem Waiting.firstPacket {p : TtmlSubtecParser D} {first : Option D} (h : p.Waiting first)
    (position : D) :
    (p.firstPacket position).Waiting (some (first.getD position)) ∧
      (p.firstPacket position).sent = p.sent := by
  cases first with
  | none =>
      rw [TtmlSubtecParser.firstPacket, if_pos ⟨h.parsed, h.linear⟩]
      exact ⟨⟨h.linear, h.unsent, rfl, fun d hd => Option.some.inj hd⟩, rfl⟩
  | some d =>
      have hparsed : ¬ (p.m_parsedFirstPacket = false ∧ p.m_isLinear = true) := by
        rw [h.parsed]
        nofun
      rw [TtmlSubtecParser.firstPacket, if_neg hparsed]
      exact ⟨h, rfl⟩

theorem Waiting.sendOffset {p : TtmlSubtecParser D} {d : D} (h : p.Waiting (some d))
    (clock : Clock D P) {data : Bytes} {offset : Int}
    (hoffset : parseFirstBegin (textOf data) = .ok offset) (position : D) (positions : P) :
    p.sendOffset clock data position positions = .ok
      (if offset ≠ INT64_MAX then
        { p with m_sentOffset := true }.send
          (.TtmlTimestampPacket (clock.totalOffset offset position d positions))
      else p) := by
  rw [TtmlSubtecParser.sendOffset, if_pos ⟨h.unsent, h.parsed, h.linear⟩, hoffset,
    h.position d rfl]
  rfl

/-- A document without a begin time is passed on, and the offset stays to be sent. -/
theorem Waiting.quiet {p : TtmlSubtecParser D} {first : Option D} (h : p.Waiting first)
    (clock : Clock D P) {data : Bytes}
    (hquiet : parseFirstBegin (textOf data) = .ok (INT64_MAX : Int)) (position : D)
    (positions : P) :
    ∃ q, p.processSegment clock (.media data) position positions = (none, q) ∧
      q.Waiting (some (first.getD position)) ∧ q.sent = p.sent ++ [.TtmlDataPacket 0 data] := by
  obtain ⟨hwaiting, hsent⟩ := h.firstPacket position
  have hoffset := hwaiting.sendOffset clock hquiet position positions
  rw [if_neg (not_not_intro rfl)] at hoffset
  refine ⟨(p.firstPacket position).send (.TtmlDataPacket 0 data), ?_, ?_, ?_⟩
  · simp only [processSegment, hoffset]
  · exact ⟨hwaiting.linear, hwaiting.unsent, hwaiting.parsed, hwaiting.position⟩
  · rw [TtmlSubtecParser.send, hsent]

theorem Waiting.loud {p : TtmlSubtecParser D} {first : Option D} (h : p.Waiting first)
    (clock : Clock D P) {data : Bytes} {offset : Int}
    (hloud : parseFirstBegin (textOf data) = .ok offset) (hne : offset ≠ INT64_MAX) (position : D)
    (positions : P) :
    ∃ q, p.processSegment clock (.media data) position positions = (none, q) ∧
      q.m_sentOffset = true ∧ q.sent = p.sent ++
        [.TtmlTimestampPacket
            (clock.totalOffset offset position (first.getD position) positions),
          .TtmlDataPacket 0 data] := by
  obtain ⟨hwaiting, hsent⟩ := h.firstPacket position
  have hoffset := hwaiting.sendOffset clock hloud position positions
  rw [if_pos hne] at hoffset
  refine ⟨({ p.firstPacket position with m_sentOffset := true }.send
    (.TtmlTimestampPacket (clock.totalOffset offset position (first.getD position)
      positions))).send (.TtmlDataPacket 0 data), ?_, rfl, ?_⟩
  · simp only [processSegment, hoffset]
  · simp only [TtmlSubtecParser.send, hsent, List.append_assoc, List.singleton_append]

/-- Behind the offset nothing but data is sent. -/
theorem feedSegments_sent (clock : Clock D P) {p : TtmlSubtecParser D}
    (h : p.m_sentOffset = true) (feeds : List (Feed D P)) :
    ∃ q, feedSegments clock p feeds = some q ∧ q.sent = p.sent ++ feeds.map Feed.send := by
  induction feeds generalizing p with
  | nil => exact ⟨p, rfl, (List.append_nil _).symm⟩
  | cons feed feeds ih =>
      have hfirst : (p.firstPacket feed.position).m_sentOffset = true ∧
          (p.firstPacket feed.position).sent = p.sent := by
        rw [TtmlSubtecParser.firstPacket]
        split
        · exact ⟨h, rfl⟩
        · exact ⟨h, rfl⟩
      have hoffset : (p.firstPacket feed.position).sendOffset clock feed.segment.data feed.position
          feed.positions = .ok (p.firstPacket feed.position) := by
        rw [TtmlSubtecParser.sendOffset, if_neg fun hunsent => ?_]
        rw [hfirst.1] at hunsent
        exact absurd hunsent.1 nofun
      obtain ⟨q, hq, hsent⟩ := ih (p := (p.firstPacket feed.position).send
        (.TtmlDataPacket 0 feed.segment.data)) hfirst.1
      refine ⟨q, ?_, ?_⟩
      · rw [feedSegments]
        simp only [processSegment, hoffset]
        exact hq
      · rw [hsent, TtmlSubtecParser.send, hfirst.2, List.map_cons, List.append_assoc]
        rfl

theorem feedSegments_quiet (clock : Clock D P) {p : TtmlSubtecParser D} {first : Option D}
    (h : p.Waiting first) {feeds : List (Feed D P)}
    (hquiet : ∀ feed ∈ feeds, parseFirstBegin (textOf feed.segment.data) = .ok (INT64_MAX : Int)) :
    ∃ q, feedSegments clock p feeds = some q ∧
      q.Waiting (first.or (feeds.head?.map Feed.position)) ∧
        q.sent = p.sent ++ feeds.map Feed.send := by
  induction feeds generalizing p first with
  | nil => exact ⟨p, rfl, by simpa using h, (List.append_nil _).symm⟩
  | cons feed feeds ih =>
      obtain ⟨r, hr, hwaiting, hsent⟩ :=
        h.quiet clock (hquiet feed List.mem_cons_self) feed.position feed.positions
      obtain ⟨q, hq, hlast, hall⟩ := ih hwaiting fun f hf => hquiet f (List.mem_cons_of_mem feed hf)
      refine ⟨q, ?_, ?_, ?_⟩
      · simp only [feedSegments, hr, hq]
      · cases first <;> exact hlast
      · rw [hall, hsent, List.map_cons, List.append_assoc]
        rfl

end TtmlSubtecParser

/-! ## On the socket -/

/-- The constructor calls of a channel with one client. -/
def numbered (channelId : UInt32) : UInt32 → List Send → List Construction
  | _, [] => []
  | counter, f :: fs =>
      f.construction channelId counter :: numbered channelId (f.nextCounter counter) fs

/-- A payload does not depend on the channel and the counter. -/
theorem Send.payload_construction (f : Send) (channelId counter : UInt32) :
    (f.construction channelId counter).payload = (f.construction 0 0).payload ∧
      (f.construction channelId counter).indexedPayload = (f.construction 0 0).indexedPayload := by
  cases f <;> exact ⟨rfl, rfl⟩

/-- Small enough for the size word and for the index of the copy loops. -/
def Send.Small (f : Send) : Prop :=
  (f.construction 0 0).payload.length < 2 ^ 32 - 16 ∧
    (f.construction 0 0).indexedPayload.length ≤ INT_MAX

theorem numbered_small {fs : List Send} (h : ∀ f ∈ fs, f.Small) (channelId counter : UInt32) :
    ∀ c ∈ numbered channelId counter fs,
      c.payload.length < 2 ^ 32 - 16 ∧ c.indexedPayload.length ≤ INT_MAX := by
  induction fs generalizing counter with
  | nil => nofun
  | cons f fs ih =>
      refine List.forall_mem_cons.mpr ⟨?_, ih (fun g hg => h g (List.mem_cons_of_mem f hg)) _⟩
      rw [(f.payload_construction channelId counter).1,
        (f.payload_construction channelId counter).2]
      exact h f List.mem_cons_self

/-- The receiver gets what the channel was asked to send. -/
theorem numbered_received {fs : List Send} (h : ∀ f ∈ fs, f.Small) (channelId counter : UInt32) :
    (Construction.stream (numbered channelId counter fs)).bind Receiver.packets =
      some (numbered channelId counter fs) := by
  have hsmall := numbered_small h channelId counter
  have hframes : ∀ f ∈ (numbered channelId counter fs).map Construction.frame,
      f.body.length < 2 ^ 32 := by
    intro f hf
    obtain ⟨c, hc, rfl⟩ := List.mem_map.mp hf
    exact Construction.body_length_lt (hsmall c hc).1
  rw [Construction.stream_of_indexed fun c hc => (hsmall c hc).2, Option.bind_some,
    Receiver.packets, Frame.readAll_flatMap hframes]
  exact Receiver.mapM_packet_frame _

open TtmlSubtecParser

section
variable {D P : Type}

theorem Feed.send_small {feed : Feed D P} (h : feed.segment.data.length < 2 ^ 32 - 16) :
    feed.send.Small :=
  ⟨h, Nat.zero_le INT_MAX⟩

theorem timestamp_small (timestampMs : UInt64) : (Send.TtmlTimestampPacket timestampMs).Small :=
  ⟨show 0 < 2 ^ 32 - 16 by decide, Nat.zero_le INT_MAX⟩

/-- The packets of the start are small, whatever the screen. -/
theorem tune_small (clock : Clock D P) (width height : UInt32) (startPosSeconds : D) :
    ∀ f ∈ (tune clock width height startPosSeconds).sent, f.Small := by
  intro f hf
  change f ∈ [.ResetAllPacket, .TtmlSelectionPacket _ _, .MutePacket, .TtmlTimestampPacket _] at hf
  simp only [List.mem_cons, List.not_mem_nil, or_false] at hf
  obtain rfl | rfl | rfl | rfl := hf
  · exact ⟨by decide, Nat.zero_le INT_MAX⟩
  · exact ⟨show 0 < 2 ^ 32 - 16 by decide, Nat.zero_le INT_MAX⟩
  · exact ⟨by decide, Nat.zero_le INT_MAX⟩
  · exact timestamp_small _

end

def naturalClock : Clock Nat Nat where
  zero := 0
  startMs seconds := UInt64.ofNat (seconds * 1000)
  totalOffset offset position first fromStart :=
    UInt64.ofInt (offset - (position - first) * 1000 + fromStart)

def emptyDocument : Feed Nat Nat where
  segment := .bare (bytesOf "<tt/>".toList) (by decide)
  beyond := fun _ => 0
  position := 20
  positions := 7

def timedDocument : Feed Nat Nat where
  segment := .bare (bytesOf "<p begin=\"0:0:33.25\">".toList) (by decide)
  beyond := fun _ => 0
  position := 22
  positions := 7

end PlayerInterface.Subtec
