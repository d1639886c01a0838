import PlayerInterface.GstSubtec.ViperTransform
import PlayerInterface.Subtec.Channel

/-!
# The subtec sink

Each data packet needs a selection and a timestamp behind the last reset. A flush asks for both
again; new caps reset all channels and select, but ask for no timestamp.
-/

namespace PlayerInterface.GstSubtec

open PlayerInterface.Core PlayerInterface.Subtec

/-! ## Data -/

/-- The channels the sink asks the factory for. -/
inductive ChannelType where
  | TTML
  | WEBVTT
deriving DecidableEq, Repr

/-- The names of caps that `set_caps` tells apart. -/
inductive CapsName where
  /-- `text/vtt` -/
  | vtt
  /-- `application/x-subtitle-vtt` -/
  | subtitleVtt
  /-- `application/ttml+xml` -/
  | ttml
  | other
deriving DecidableEq, Repr

structure GstSubtecSink where
  m_channel : Option ChannelType
  m_mute : Bool
  m_no_eos : Bool
  m_send_timestamp : Bool
  m_segmentstart : UInt64
  m_pts_offset : UInt64
  m_subtec_socket : Bytes
  m_attribute_values : AttributesType
  m_attribute_mask : UInt32

/-- The element, what its base class keeps, the packets handed to the packet sender and the buffers
rendered, newest first. -/
structure SinkState where
  sink : GstSubtecSink
  segmentTime : UInt64
  flushing : Bool
  negotiated : Bool
  wire : List Send
  rendered : List Bytes
  nullChannel : Bool

/-- The `attribute-values` property: the fields that are there, by their index. -/
structure AttributeFields where
  values : Nat → Option UInt32
  attribute_mask : Option UInt32

inductive SinkAct where
  | start
  | stop
  | dispose
  | setCaps (caps_name : CapsName)
  | flushStart
  | flushStop
  | segment (start time : UInt64)
  | eos
  /-- the `current-pts` of a `sub_clock_sync` -/
  | customDownstream (subClockSync : Option UInt64)
  | mute (value : Bool)
  | noEos (value : Bool)
  | subtecSocket (value : Bytes)
  | ptsOffset (value : UInt64)
  | attributeValues (fields : Option AttributeFields)
  | pausedToPlaying
  | playingToPaused
  /-- the bytes of a buffer that can be mapped, and `GST_BUFFER_OFFSET` -/
  | render (mapped : Option Bytes) (offset : Int64)

/-! ## Packets of a channel -/

def SelectionPacket (width height : UInt32) : ChannelType → Send
  | .TTML => .TtmlSelectionPacket width height
  | .WEBVTT => .WebVttSelectionPacket width height

def TimestampPacket (timestampMs : UInt64) : ChannelType → Send
  | .TTML => .TtmlTimestampPacket timestampMs
  | .WEBVTT => .WebVttTimestampPacket timestampMs

def DataPacket (data : Bytes) (time_offset_ms : Int64) : ChannelType → Send
  | .TTML => .TtmlDataPacket time_offset_ms data
  | .WEBVTT => .WebVttDataPacket time_offset_ms data

namespace SinkState

/-- A call through `m_channel`, which has to be there. -/
def send (s : SinkState) (packet : ChannelType → Send) : SinkState :=
  match s.sink.m_channel with
  | some channel => { s with wire := packet channel :: s.wire }
  | none => { s with nullChannel := true }

/-- A call behind a test of `m_channel`. -/
def sendIfChannel (s : SinkState) (packet : ChannelType → Send) : SinkState :=
  if s.sink.m_channel.isSome then s.send packet else s

def set_mute (s : SinkState) : SinkState :=
  s.sendIfChannel fun _ => if s.sink.m_mute then .MutePacket else .UnmutePacket

def set_attribute (s : SinkState) : SinkState :=
  s.sendIfChannel fun _ =>
    .CCSetAttributePacket 0 s.sink.m_attribute_mask s.sink.m_attribute_values

def setTimestamp (s : SinkState) (m_send_timestamp : Bool) : SinkState :=
  { s with sink := { s.sink with m_send_timestamp } }

/-! ## The entry points -/

def channelOf : CapsName → Option ChannelType
  | .vtt | .subtitleVtt => some .WEBVTT
  | .ttml => some .TTML
  | .other => none

/-- `gst_subtecsink_set_caps`. -/
def set_caps (s : SinkState) (caps_name : CapsName) : SinkState :=
  match channelOf caps_name with
  | none => s
  | some channel =>
      let s := { s with sink := { s.sink with m_channel := some channel }, negotiated := true }
      let s := s.send fun _ => .ResetAllPacket
      let s := s.send (SelectionPacket 1920 1080)
      s.set_mute.set_attribute

/-- `GST_MSECOND` as a `guint64`. -/
def mSecond : UInt64 := UInt64.ofNat GST_MSECOND

def get_timestamp_ms (s : SinkState) (pts offset : UInt64) : UInt64 :=
  let timestampMs := max pts s.segmentTime / mSecond
  if offset.toInt64 > 0 then timestampMs + offset
  else if pts.toInt64 < 0 then 0
  else timestampMs

/-- Indices of the attributes that have a field. -/
def storedIndices : List Nat := [0, 1, 2, 3, 4, 5, 10, 11, 12, 13]

def storeValues (fields : AttributeFields) (values : List UInt32) : List UInt32 :=
  values.mapIdx fun i value =>
    if storedIndices.contains i then (fields.values i).getD value else value

theorem storeValues_length (fields : AttributeFields) (values : AttributesType) :
    (storeValues fields values.val).length = NUMBER_OF_ATTRIBUTES := by
  rw [storeValues, List.length_mapIdx, values.property]

def storeAttributes (s : SinkState) (fields : AttributeFields) : SinkState :=
  { s with
    sink :=
      { s.sink with
        m_attribute_values := ⟨storeValues fields s.sink.m_attribute_values.val,
          storeValues_length fields s.sink.m_attribute_values⟩
        m_attribute_mask := fields.attribute_mask.getD s.sink.m_attribute_mask } }

/-- `dataBuffer`: the size is cast to 32 bits. -/
def dataBuffer (mapped : Option Bytes) : Bytes :=
  (mapped.map fun bytes => bytes.take (bytes.length % 2 ^ 32)).getD []

/-- The timestamp that is due goes in front of the data. -/
def stampIfDue (s : SinkState) : SinkState :=
  if s.sink.m_send_timestamp then
    let timestampMs := s.get_timestamp_ms s.sink.m_segmentstart s.sink.m_pts_offset
    (s.send (TimestampPacket timestampMs)).setTimestamp false
  else s

/-- `gst_subtecsink_render` behind the test of `dataBuffer`. -/
def sendData (s : SinkState) (dataBuffer : Bytes) (offset : Int64) : SinkState :=
  let offset := if offset = -1 then 0 else offset
  s.stampIfDue.send (DataPacket dataBuffer (0 - offset))

/-- `gst_subtecsink_render`. -/
def render (s : SinkState) (mapped : Option Bytes) (offset : Int64) : SinkState :=
  let t := if dataBuffer mapped = [] then s else s.sendData (dataBuffer mapped) offset
  { t with rendered := mapped.getD [] :: s.rendered }

/-- Buffers come behind caps. -/
def step (s : SinkState) : SinkAct → Option SinkState
  | .start => some (s.setTimestamp true)
  | .stop =>
      let s := s.sendIfChannel fun _ => .ResetChannelPacket
      some { s.sendIfChannel (fun _ => .ResetAllPacket) with negotiated := false }
  | .dispose => some { s.sendIfChannel (fun _ => .ResetAllPacket) with negotiated := false }
  | .setCaps caps_name => some (s.set_caps caps_name)
  | .flushStart => some { s.sendIfChannel (fun _ => .ResetChannelPacket) with flushing := true }
  | .flushStop =>
      let s := { s with flushing := false }.sendIfChannel (SelectionPacket 1920 1080)
      some (s.setTimestamp true).set_mute.set_attribute
  | .segment start time =>
      some { s with sink := { s.sink with m_segmentstart := start }, segmentTime := time }
  | .eos => some s
  | .customDownstream none => some s
  | .customDownstream (some pts) =>
      some ((s.send (TimestampPacket (s.get_timestamp_ms pts s.sink.m_pts_offset))).setTimestamp false)
  | .mute value => some { s with sink := { s.sink with m_mute := value } }.set_mute
  | .noEos value => some { s with sink := { s.sink with m_no_eos := value } }
  | .subtecSocket value => some { s with sink := { s.sink with m_subtec_socket := value } }
  | .ptsOffset value =>
      some ({ s with sink := { s.sink with m_pts_offset := value } }.setTimestamp true)
  | .attributeValues none => some s
  | .attributeValues (some fields) => some (s.storeAttributes fields).set_attribute
  | .pausedToPlaying => some (s.sendIfChannel fun _ => .ResumePacket).set_mute.set_attribute
  | .playingToPaused =>
      let s := s.sendIfChannel fun _ => .MutePacket
      some (s.sendIfChannel fun _ => .PausePacket)
  | .render mapped offset => if s.negotiated then some (s.render mapped offset) else none

end SinkState

/-- An element without a channel yet, whatever its other members are. -/
def sinkSystem : System SinkState SinkAct where
  init s := s.sink.m_channel = none ∧ s.negotiated = false ∧ s.wire = [] ∧ s.rendered = [] ∧
    s.nullChannel = false
  step := SinkState.step

/-! ## What the wire shows -/

def isReset : Send → Bool
  | .ResetAllPacket | .ResetChannelPacket => true
  | _ => false

def isSelection : Send → Bool
  | .TtmlSelectionPacket _ _ | .WebVttSelectionPacket _ _ => true
  | _ => false

def isTimestamp : Send → Bool
  | .TtmlTimestampPacket _ | .WebVttTimestampPacket _ => true
  | _ => false

/-- The bytes of a data packet. -/
def dataOf : Send → Option Bytes
  | .TtmlDataPacket _ data | .WebVttDataPacket _ data => some data
  | _ => none

/-- The packets since the last reset. -/
def sinceReset (wire : List Send) : List Send := wire.takeWhile fun packet => !isReset packet

def Selected (wire : List Send) : Prop := ∃ packet ∈ sinceReset wire, isSelection packet = true

def Stamped (wire : List Send) : Prop := ∃ packet ∈ sinceReset wire, isTimestamp packet = true

/-- Data packets come behind a selection and a timestamp since the last reset before them. -/
def InOrder (wire : List Send) : Prop :=
  ∀ later packet earlier, wire = later ++ packet :: earlier → dataOf packet ≠ none →
    Selected earlier ∧ Stamped earlier

/-- What is to hold throughout a run. -/
structure Sound (s : SinkState) : Prop where
  inOrder : InOrder s.wire
  carried : s.wire.filterMap dataOf = s.rendered.filter (· ≠ [])
  noNull : s.nullChannel = false

/-- A step that does not go wrong. New caps come only while a timestamp is due, a clock only once there
is a channel, and a buffer with bytes neither during a flush nor larger than its size says. -/
def SinkState.Careful (s : SinkState) : SinkAct → Prop
  | .setCaps caps_name => SinkState.channelOf caps_name ≠ none → s.sink.m_send_timestamp = true
  | .customDownstream (some _) => s.sink.m_channel ≠ none
  | .render mapped _ => ∀ bytes ∈ mapped, bytes.length < 2 ^ 32 ∧ (bytes ≠ [] → s.flushing = false)
  | _ => True

/-! ## One more packet -/

theorem sinceReset_cons (packet : Send) (wire : List Send) :
    sinceReset (packet :: wire) = if isReset packet then [] else packet :: sinceReset wire := by
  rw [sinceReset, List.takeWhile_cons]
  cases isReset packet <;> rfl

theorem selected_cons {packet : Send} {wire : List Send} :
    Selected (packet :: wire) ↔
      isReset packet = false ∧ (isSelection packet = true ∨ Selected wire) := by
  unfold Selected
  rw [sinceReset_cons]
  cases isReset packet <;> simp

theorem stamped_cons {packet : Send} {wire : List Send} :
    Stamped (packet :: wire) ↔
      isReset packet = false ∧ (isTimestamp packet = true ∨ Stamped wire) := by
  unfold Stamped
  rw [sinceReset_cons]
  cases isReset packet <;> simp

theorem inOrder_cons {packet : Send} {wire : List Send} :
    InOrder (packet :: wire) ↔
      InOrder wire ∧ (dataOf packet ≠ none → Selected wire ∧ Stamped wire) := by
  constructor
  · intro h
    constructor
    · intro later p earlier heq
      exact h (packet :: later) p earlier (by rw [heq, List.cons_append])
    · exact h [] packet wire rfl
  · intro ⟨hrest, hfirst⟩ later p earlier heq
    cases later with
    | nil =>
        obtain ⟨rfl, rfl⟩ := List.cons.inj heq
        exact hfirst
    | cons _ later =>
        obtain ⟨_, htail⟩ := List.cons.inj heq
        exact hrest later p earlier htail

namespace SinkState

variable {s t : SinkState}

/-- What holds between the entry points of a careful run. -/
structure Ready (s : SinkState) : Prop where
  sound : Sound s
  channel : s.negotiated = true → s.sink.m_channel ≠ none
  selected : s.negotiated = true → s.flushing = false → Selected s.wire
  stamped : s.negotiated = true → s.flushing = false →
    s.sink.m_send_timestamp = true ∨ Stamped s.wire

/-- A packet that is neither data nor a reset. -/
def Plain (packet : Send) : Prop := isReset packet = false ∧ dataOf packet = none

theorem Sound.push (h : Sound s) (packet : Send) (hdata : dataOf packet = none) :
    Sound { s with wire := packet :: s.wire } where
  inOrder := inOrder_cons.mpr ⟨h.inOrder, fun hne => absurd hdata hne⟩
  carried := by
    rw [List.filterMap_cons_none hdata]
    exact h.carried
  noNull := h.noNull

theorem sendIfChannel_cases (s : SinkState) (packet : ChannelType → Send) :
    s.sink.m_channel = none ∧ s.sendIfChannel packet = s ∨
      ∃ channel, s.sink.m_channel = some channel ∧
        s.sendIfChannel packet = { s with wire := packet channel :: s.wire } := by
  unfold sendIfChannel send
  cases hchannel : s.sink.m_channel with
  | none => exact Or.inl ⟨rfl, rfl⟩
  | some channel => exact Or.inr ⟨channel, rfl, rfl⟩

theorem Ready.sendIfChannel (h : s.Ready) {packet : ChannelType → Send}
    (hplain : ∀ channel, Plain (packet channel)) : (s.sendIfChannel packet).Ready := by
  obtain ⟨_, heq⟩ | ⟨channel, _, heq⟩ := sendIfChannel_cases s packet
  · rw [heq]
    exact h
  · rw [heq]
    obtain ⟨hreset, hdata⟩ := hplain channel
    exact
      { sound := Sound.push h.sound _ hdata
        channel := h.channel
        selected := fun hn hf => selected_cons.mpr ⟨hreset, Or.inr (h.selected hn hf)⟩
        stamped := fun hn hf => (h.stamped hn hf).imp id fun hst =>
          stamped_cons.mpr ⟨hreset, Or.inr hst⟩ }

theorem Ready.set_mute (h : s.Ready) : s.set_mute.Ready := by
  apply h.sendIfChannel
  intro _
  split
  · exact ⟨rfl, rfl⟩
  · exact ⟨rfl, rfl⟩

theorem Ready.set_attribute (h : s.Ready) : s.set_attribute.Ready :=
  h.sendIfChannel fun _ => ⟨rfl, rfl⟩

/-! ## The entry points of a careful run -/

theorem Sound.sendIfChannel (h : Sound s) (packet : ChannelType → Send)
    (hdata : ∀ channel, dataOf (packet channel) = none) : Sound (s.sendIfChannel packet) := by
  obtain ⟨_, heq⟩ | ⟨channel, _, heq⟩ := sendIfChannel_cases s packet
  · rw [heq]
    exact h
  · rw [heq]
    exact Sound.push h _ (hdata channel)

theorem send_eq {channel : ChannelType} (h : s.sink.m_channel = some channel)
    (packet : ChannelType → Send) : s.send packet = { s with wire := packet channel :: s.wire } := by
  unfold send
  rw [h]

theorem selectionPacket_facts (width height : UInt32) (channel : ChannelType) :
    isReset (SelectionPacket width height channel) = false ∧
      dataOf (SelectionPacket width height channel) = none ∧
      isSelection (SelectionPacket width height channel) = true := by
  cases channel with
  | TTML => exact ⟨rfl, rfl, rfl⟩
  | WEBVTT => exact ⟨rfl, rfl, rfl⟩

theorem timestampPacket_facts (timestampMs : UInt64) (channel : ChannelType) :
    isReset (TimestampPacket timestampMs channel) = false ∧
      dataOf (TimestampPacket timestampMs channel) = none ∧
      isTimestamp (TimestampPacket timestampMs channel) = true := by
  cases channel with
  | TTML => exact ⟨rfl, rfl, rfl⟩
  | WEBVTT => exact ⟨rfl, rfl, rfl⟩

theorem dataPacket_facts (data : Bytes) (time_offset_ms : Int64) (channel : ChannelType) :
    isReset (DataPacket data time_offset_ms channel) = false ∧
      dataOf (DataPacket data time_offset_ms channel) = some data := by
  cases channel with
  | TTML => exact ⟨rfl, rfl⟩
  | WEBVTT => exact ⟨rfl, rfl⟩

/-- Without caps behind it nothing is asked of the wire. -/
theorem Sound.ready (h : Sound s) (hn : s.negotiated = false) : s.Ready where
  sound := h
  channel := by
    rw [hn]
    exact fun hneg => by cases hneg
  selected := by
    rw [hn]
    exact fun hneg => by cases hneg
  stamped := by
    rw [hn]
    exact fun hneg => by cases hneg

theorem Ready.stop (h : s.Ready) (hstep : s.step .stop = some t) : t.Ready := by
  cases hstep
  have hchannel := Sound.sendIfChannel h.sound (fun _ => .ResetChannelPacket) fun _ => rfl
  have hall := Sound.sendIfChannel hchannel (fun _ => .ResetAllPacket) fun _ => rfl
  exact Sound.ready ⟨hall.inOrder, hall.carried, hall.noNull⟩ rfl

theorem Ready.dispose (h : s.Ready) (hstep : s.step .dispose = some t) : t.Ready := by
  cases hstep
  have hall := Sound.sendIfChannel h.sound (fun _ => .ResetAllPacket) fun _ => rfl
  exact Sound.ready ⟨hall.inOrder, hall.carried, hall.noNull⟩ rfl

theorem Ready.set_caps (h : s.Ready) {caps_name : CapsName}
    (hok : s.Careful (.setCaps caps_name)) : (s.set_caps caps_name).Ready := by
  unfold SinkState.set_caps
  cases hchannel : channelOf caps_name with
  | none => exact h
  | some channel =>
      obtain ⟨hreset, hdata, hselection⟩ := selectionPacket_facts 1920 1080 channel
      dsimp only
      rw [send_eq (show _ = some channel from rfl), send_eq (show _ = some channel from rfl)]
      apply Ready.set_attribute
      apply Ready.set_mute
      have hsound := Sound.push (Sound.push h.sound .ResetAllPacket rfl) _ hdata
      exact
        { sound := ⟨hsound.inOrder, hsound.carried, hsound.noNull⟩
          channel := fun _ => by simp
          selected := fun _ _ => selected_cons.mpr ⟨hreset, Or.inl hselection⟩
          stamped := fun _ _ => Or.inl (hok (by simp [hchannel])) }

theorem Ready.flushStart (h : s.Ready) (hstep : s.step .flushStart = some t) : t.Ready := by
  cases hstep
  obtain ⟨_, heq⟩ | ⟨channel, hchannel, heq⟩ := sendIfChannel_cases s fun _ => .ResetChannelPacket
  · rw [heq]
    exact ⟨⟨h.sound.inOrder, h.sound.carried, h.sound.noNull⟩, h.channel, by simp, by simp⟩
  · rw [heq]
    have hsound := Sound.push h.sound .ResetChannelPacket rfl
    exact ⟨⟨hsound.inOrder, hsound.carried, hsound.noNull⟩, h.channel, by simp, by simp⟩

theorem Ready.flushStop (h : s.Ready) (hstep : s.step .flushStop = some t) : t.Ready := by
  cases hstep
  apply Ready.set_attribute
  apply Ready.set_mute
  obtain ⟨hnone, heq⟩ | ⟨channel, hchannel, heq⟩ :=
    sendIfChannel_cases { s with flushing := false } (SelectionPacket 1920 1080)
  · have hn : s.negotiated = false := Bool.eq_false_iff.mpr fun hn => h.channel hn hnone
    rw [heq]
    exact Sound.ready ⟨h.sound.inOrder, h.sound.carried, h.sound.noNull⟩ hn
  · obtain ⟨hreset, hdata, hselection⟩ := selectionPacket_facts 1920 1080 channel
    rw [heq]
    have hsound := Sound.push h.sound _ hdata
    exact
      { sound := ⟨hsound.inOrder, hsound.carried, hsound.noNull⟩
        channel := h.channel
        selected := fun _ _ => selected_cons.mpr ⟨hreset, Or.inl hselection⟩
        stamped := fun _ _ => Or.inl rfl }

theorem Ready.stamp (h : s.Ready) (timestampMs : UInt64) (channel : ChannelType) :
    Ready { s with
      wire := TimestampPacket timestampMs channel :: s.wire
      sink := { s.sink with m_send_timestamp := false } } := by
  obtain ⟨hreset, hdata, htimestamp⟩ := timestampPacket_facts timestampMs channel
  have hsound := Sound.push h.sound _ hdata
  exact
    { sound := ⟨hsound.inOrder, hsound.carried, hsound.noNull⟩
      channel := h.channel
      selected := fun hn hf => selected_cons.mpr ⟨hreset, Or.inr (h.selected hn hf)⟩
      stamped := fun _ _ => Or.inr (stamped_cons.mpr ⟨hreset, Or.inl htimestamp⟩) }

theorem Ready.clock (h : s.Ready) {pts : UInt64}
    (hok : s.Careful (.customDownstream (some pts)))
    (hstep : s.step (.customDownstream (some pts)) = some t) : t.Ready := by
  cases hstep
  obtain ⟨channel, hchannel⟩ := Option.ne_none_iff_exists'.mp hok
  rw [send_eq hchannel]
  exact h.stamp _ channel

/-! ## Buffers -/

theorem dataBuffer_eq {mapped : Option Bytes} (h : ∀ bytes ∈ mapped, bytes.length < 2 ^ 32) :
    dataBuffer mapped = mapped.getD [] := by
  cases mapped with
  | none => rfl
  | some bytes =>
      have hlt := h bytes rfl
      rw [dataBuffer, Option.map_some, Option.getD_some, Option.getD_some, Nat.mod_eq_of_lt hlt,
        List.take_length]

theorem Ready.stampIfDue (h : s.Ready) (hn : s.negotiated = true) (hf : s.flushing = false)
    {channel : ChannelType} (hchannel : s.sink.m_channel = some channel) :
    ∃ wire m_send_timestamp, s.stampIfDue = { s with wire, sink := { s.sink with m_send_timestamp } } ∧
      s.stampIfDue.Ready ∧ Selected wire ∧ Stamped wire := by
  have hselected := h.selected hn hf
  unfold SinkState.stampIfDue
  by_cases hdue : s.sink.m_send_timestamp = true
  · rw [if_pos hdue]
    dsimp only
    obtain ⟨hreset, _, htimestamp⟩ := timestampPacket_facts
      (s.get_timestamp_ms s.sink.m_segmentstart s.sink.m_pts_offset) channel
    rw [send_eq hchannel]
    exact ⟨_, false, rfl, h.stamp _ channel, selected_cons.mpr ⟨hreset, Or.inr hselected⟩,
      stamped_cons.mpr ⟨hreset, Or.inl htimestamp⟩⟩
  · rw [if_neg hdue]
    exact ⟨s.wire, s.sink.m_send_timestamp, rfl, h, hselected, (h.stamped hn hf).resolve_left hdue⟩

/-- The data packet of a buffer goes behind what it needs. -/
theorem Ready.sendData (h : s.Ready) (hn : s.negotiated = true) (hf : s.flushing = false)
    {bytes : Bytes} (hne : bytes ≠ []) (offset : Int64) :
    Ready { s.sendData bytes offset with rendered := bytes :: s.rendered } := by
  obtain ⟨channel, hchannel⟩ := Option.ne_none_iff_exists'.mp (h.channel hn)
  obtain ⟨wire, m_send_timestamp, heq, hready, hselected, hstamped⟩ := h.stampIfDue hn hf hchannel
  rw [heq] at hready
  obtain ⟨hreset, hdata⟩ :=
    dataPacket_facts bytes (0 - if offset = -1 then 0 else offset) channel
  have hsend : s.sendData bytes offset = { s with
      wire := DataPacket bytes (0 - if offset = -1 then 0 else offset) channel :: wire
      sink := { s.sink with m_send_timestamp } } := by
    unfold SinkState.sendData
    rw [heq]
    exact send_eq (s := { s with wire, sink := { s.sink with m_send_timestamp } }) hchannel _
  rw [hsend]
  have hcarried : wire.filterMap dataOf = s.rendered.filter (· ≠ []) := hready.sound.carried
  exact
    { sound :=
        { inOrder := inOrder_cons.mpr ⟨hready.sound.inOrder, fun _ => ⟨hselected, hstamped⟩⟩
          carried := by
            rw [List.filterMap_cons_some hdata, hcarried, List.filter_cons_of_pos (by simpa)]
          noNull := h.sound.noNull }
      channel := h.channel
      selected := fun _ _ => selected_cons.mpr ⟨hreset, Or.inr hselected⟩
      stamped := fun _ _ => Or.inr (stamped_cons.mpr ⟨hreset, Or.inr hstamped⟩) }

theorem Ready.render (h : s.Ready) {mapped : Option Bytes} {offset : Int64}
    (hok : s.Careful (.render mapped offset)) (hn : s.negotiated = true) :
    (s.render mapped offset).Ready := by
  have hbuffer := dataBuffer_eq fun bytes hbytes => (hok bytes hbytes).1
  unfold SinkState.render
  rw [hbuffer]
  by_cases hempty : mapped.getD [] = []
  · rw [if_pos hempty]
    have hcarried : s.wire.filterMap dataOf =
        (mapped.getD [] :: s.rendered).filter (· ≠ []) := by
      rw [List.filter_cons_of_neg (by simp [hempty]), h.sound.carried]
    exact ⟨⟨h.sound.inOrder, hcarried, h.sound.noNull⟩, h.channel, h.selected, h.stamped⟩
  · have hf : s.flushing = false := by
      cases mapped with
      | none => exact absurd rfl hempty
      | some bytes => exact (hok bytes rfl).2 hempty
    rw [if_neg hempty]
    exact h.sendData hn hf hempty offset

/-! ## Runs -/

/-- A careful step keeps the element ready. -/
theorem step_ready {a : SinkAct} (h : s.Ready) (hok : s.Careful a) (hstep : s.step a = some t) :
    t.Ready := by
  cases a with
  | start =>
      cases hstep
      exact ⟨⟨h.sound.inOrder, h.sound.carried, h.sound.noNull⟩, h.channel, h.selected,
        fun _ _ => Or.inl rfl⟩
  | stop => exact h.stop hstep
  | dispose => exact h.dispose hstep
  | setCaps caps_name =>
      cases hstep
      exact h.set_caps hok
  | flushStart => exact h.flushStart hstep
  | flushStop => exact h.flushStop hstep
  | segment start time =>
      cases hstep
      exact ⟨⟨h.sound.inOrder, h.sound.carried, h.sound.noNull⟩, h.channel, h.selected, h.stamped⟩
  | eos =>
      cases hstep
      exact h
  | customDownstream subClockSync =>
      cases subClockSync with
      | none =>
          cases hstep
          exact h
      | some pts => exact h.clock hok hstep
  | mute value =>
      cases hstep
      apply Ready.set_mute
      exact ⟨⟨h.sound.inOrder, h.sound.carried, h.sound.noNull⟩, h.channel, h.selected, h.stamped⟩
  | noEos value =>
      cases hstep
      exact ⟨⟨h.sound.inOrder, h.sound.carried, h.sound.noNull⟩, h.channel, h.selected, h.stamped⟩
  | subtecSocket value =>
      cases hstep
      exact ⟨⟨h.sound.inOrder, h.sound.carried, h.sound.noNull⟩, h.channel, h.selected, h.stamped⟩
  | ptsOffset value =>
      cases hstep
      exact ⟨⟨h.sound.inOrder, h.sound.carried, h.sound.noNull⟩, h.channel, h.selected,
        fun _ _ => Or.inl rfl⟩
  | attributeValues fields =>
      cases fields with
      | none =>
          cases hstep
          exact h
      | some fields =>
          cases hstep
          apply Ready.set_attribute
          exact ⟨⟨h.sound.inOrder, h.sound.carried, h.sound.noNull⟩, h.channel, h.selected,
            h.stamped⟩
  | pausedToPlaying =>
      cases hstep
      apply Ready.set_attribute
      apply Ready.set_mute
      exact h.sendIfChannel fun _ => ⟨rfl, rfl⟩
  | playingToPaused =>
      cases hstep
      apply Ready.sendIfChannel
      · exact h.sendIfChannel fun _ => ⟨rfl, rfl⟩
      · exact fun _ => ⟨rfl, rfl⟩
  | render mapped offset =>
      simp only [step] at hstep
      split at hstep <;> cases hstep
      rename_i hn
      exact h.render hok hn

theorem ready_init (h : sinkSystem.init s) : s.Ready := by
  obtain ⟨_, hn, hwire, hrendered, hnull⟩ := h
  apply Sound.ready _ hn
  constructor
  · rw [hwire]
    intro later packet earlier heq
    cases later <;> cases heq
  · rw [hwire, hrendered]
    rfl
  · exact hnull

end SinkState

/-- In a run of careful steps the wire is in order, carries the buffers, and no call goes through a
null channel. -/
theorem sink_run : ∀ s, sinkSystem.Reaches SinkState.Careful s → Sound s := by
  intro s hs
  have hready : s.Ready := by
    apply hs.invariant
    · exact fun s hinit => SinkState.ready_init hinit
    · exact fun s a t h hok hstep => SinkState.step_ready h hok hstep
  exact hready.sound

/-- An element as it comes to its first caps. -/
def freshSink : SinkState where
  sink :=
    { m_channel := none
      m_mute := false
      m_no_eos := false
      m_send_timestamp := false
      m_segmentstart := 0
      m_pts_offset := 0
      m_subtec_socket := []
      m_attribute_values := ⟨List.replicate NUMBER_OF_ATTRIBUTES 0, List.length_replicate⟩
      m_attribute_mask := 0 }
  segmentTime := 0
  flushing := false
  negotiated := false
  wire := []
  rendered := []
  nullChannel := false

/-- Two buffers with a flush between them. -/
def flushedRun : List SinkAct :=
  [.start, .setCaps .ttml, .render (some [65]) 0, .flushStart, .flushStop, .render (some [66]) 0]

/-- A test of the steps of a run. -/
def sinkTest (s : SinkState) : SinkAct → Bool
  | .setCaps _ => s.sink.m_send_timestamp
  | .customDownstream (some _) => s.sink.m_channel.isSome
  | .render (some bytes) _ => bytes.length < 2 ^ 32 ∧ s.flushing = false
  | _ => true

theorem careful_of_sinkTest (s : SinkState) (a : SinkAct) (h : sinkTest s a = true) :
    s.Careful a := by
  cases a with
  | setCaps caps_name => exact fun _ => h
  | customDownstream subClockSync =>
      cases subClockSync with
      | none => trivial
      | some pts => exact Option.isSome_iff_ne_none.mp h
  | render mapped offset =>
      cases mapped with
      | none =>
          intro bytes hbytes
          cases hbytes
      | some data =>
          intro bytes hbytes
          cases hbytes
          have htest := of_decide_eq_true h
          exact ⟨htest.1, fun _ => htest.2⟩
  | _ => trivial

theorem flushedRun_sound : ∃ s, sinkSystem.run freshSink flushedRun = some s ∧
    s.wire.filterMap dataOf = [[66], [65]] ∧ Sound s := by
  have hok : sinkSystem.RunOk SinkState.Careful freshSink flushedRun := by
    apply System.runOk_of_checkRun careful_of_sinkTest
    decide
  obtain ⟨s, hrun, hdata⟩ : ∃ s, sinkSystem.run freshSink flushedRun = some s ∧
      s.wire.filterMap dataOf = [[66], [65]] := ⟨_, rfl, rfl⟩
  have hinit : sinkSystem.init freshSink := ⟨rfl, rfl, rfl, rfl, rfl⟩
  exact ⟨s, hrun, hdata, sink_run s (System.Reaches.run (.init hinit) hok hrun)⟩

/-- A buffer, new caps and another buffer. -/
def newCapsRun : List SinkAct :=
  [.start, .setCaps .ttml, .render (some [65]) 0, .setCaps .ttml, .render (some [66]) 0]

/-- The second buffer goes out without a timestamp. -/
theorem newCapsRun_not_sound : ¬ ∀ s, sinkSystem.Reachable s → Sound s := by
  intro hall
  obtain ⟨s, hrun, hwire⟩ : ∃ s, sinkSystem.run freshSink newCapsRun = some s ∧
      s.wire = [.TtmlDataPacket 0 [66],
        .CCSetAttributePacket 0 0 freshSink.sink.m_attribute_values, .UnmutePacket,
        .TtmlSelectionPacket 1920 1080, .ResetAllPacket,
        .TtmlDataPacket 0 [65], .TtmlTimestampPacket 0,
        .CCSetAttributePacket 0 0 freshSink.sink.m_attribute_values, .UnmutePacket,
        .TtmlSelectionPacket 1920 1080, .ResetAllPacket] := ⟨_, rfl, rfl⟩
  have hinit : sinkSystem.init freshSink := ⟨rfl, rfl, rfl, rfl, rfl⟩
  have hsound := hall s (System.reachable_of_run hinit hrun)
  have horder := hsound.inOrder [] _ _ hwire (by simp [dataOf])
  obtain ⟨packet, hmem, htimestamp⟩ := horder.2
  simp only [sinceReset, isReset, Bool.not_false, Bool.not_true, List.takeWhile_cons, if_true,
    Bool.false_eq_true, if_false, List.mem_cons, List.not_mem_nil, or_false] at hmem
  obtain rfl | rfl | rfl := hmem <;> cases htimestamp

end PlayerInterface.GstSubtec
