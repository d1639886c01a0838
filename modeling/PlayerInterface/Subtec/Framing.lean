import PlayerInterface.Subtec.Packet

/-!
# Framing of a packet stream

The receiver reads a header of three words and as many bytes as the size word
says, so one wrong size word loses every later packet. The size words written
by hand are all right; what breaks the stream is a closed-caption payload too
long for the index that copies it.
-/

namespace PlayerInterface.Subtec

open PlayerInterface.Core PacketType

/-- A constructor call with its arguments. -/
inductive Construction where
  | pausePacket (channelId counter : UInt32)
  | resumePacket (channelId counter : UInt32)
  | mutePacket (channelId counter : UInt32)
  | unmutePacket (channelId counter : UInt32)
  | resetAllPacket
  | resetChannelPacket (channelId counter : UInt32)
  | ccSetAttributePacket (channelId counter ccType attribType : UInt32)
      (attributesValues : AttributesType)
  | ttmlSelectionPacket (channelId counter width height : UInt32)
  | ttmlDataPacket (channelId counter : UInt32) (dataOffset : Int64) (dataBuffer : Bytes)
  | ttmlTimestampPacket (channelId counter : UInt32) (timestamp : UInt64)
  | webVttSelectionPacket (channelId counter width height : UInt32)
  | webVttDataPacket (channelId counter : UInt32) (timeOffsetMs : Int64) (dataBuffer : Bytes)
  | webVttTimestampPacket (channelId counter : UInt32) (timestamp : UInt64)
  | closedCaptionsPacketWithPTS (channelId counter ptsValue : UInt32) (data : Bytes)
  | closedCaptionsPacketNoPTS (channelId counter : UInt32) (data : Bytes)
  | closedCaptionsActiveTypePacket (channelId counter : UInt32) (type : CEA) (service : Int32)
  deriving DecidableEq, Repr

namespace Construction

def build : Construction → Option Packet
  | pausePacket ch n => some (Subtec.pausePacket ch n)
  | resumePacket ch n => some (Subtec.resumePacket ch n)
  | mutePacket ch n => some (Subtec.mutePacket ch n)
  | unmutePacket ch n => some (Subtec.unmutePacket ch n)
  | resetAllPacket => some Subtec.resetAllPacket
  | resetChannelPacket ch n => some (Subtec.resetChannelPacket ch n)
  | ccSetAttributePacket ch n cc attr values =>
      some (Subtec.ccSetAttributePacket ch n cc attr values)
  | ttmlSelectionPacket ch n w h => some (Subtec.ttmlSelectionPacket ch n w h)
  | ttmlDataPacket ch n offset data => some (Subtec.ttmlDataPacket ch n offset data)
  | ttmlTimestampPacket ch n time => some (Subtec.ttmlTimestampPacket ch n time)
  | webVttSelectionPacket ch n w h => some (Subtec.webVttSelectionPacket ch n w h)
  | webVttDataPacket ch n offset data => some (Subtec.webVttDataPacket ch n offset data)
  | webVttTimestampPacket ch n time => some (Subtec.webVttTimestampPacket ch n time)
  | closedCaptionsPacketWithPTS ch n pts data => Subtec.closedCaptionsPacketWithPTS ch n pts data
  | closedCaptionsPacketNoPTS ch n data => Subtec.closedCaptionsPacketNoPTS ch n data
  | closedCaptionsActiveTypePacket ch n type service =>
      some (Subtec.closedCaptionsActiveTypePacket ch n type service)

/-- The raw bytes a packet carries after its fields. -/
def payload : Construction → Bytes
  | ttmlDataPacket _ _ _ data => data
  | webVttDataPacket _ _ _ data => data
  | closedCaptionsPacketWithPTS _ _ _ data => data
  | closedCaptionsPacketNoPTS _ _ data => data
  | _ => []

/-- The payload, of the packets that copy it with an `int` index. -/
def indexedPayload : Construction → Bytes
  | closedCaptionsPacketWithPTS _ _ _ data => data
  | closedCaptionsPacketNoPTS _ _ data => data
  | _ => []

/-- The buffers of the packets in sequence. -/
def stream : List Construction → Option Bytes
  | [] => some []
  | c :: cs => do
      let packet ← c.build
      let rest ← stream cs
      pure (packet.m_buffer ++ rest)

end Construction

open Construction

/-! ## The receiver -/

def PacketType.ofWord : UInt32 → PacketType
  | 0 => ZERO
  | 1 => PES_DATA
  | 2 => TIMESTAMP
  | 3 => RESET_ALL
  | 4 => RESET_CHANNEL
  | 5 => SUBTITLE_SELECTION
  | 6 => TELETEXT_SELECTION
  | 7 => TTML_SELECTION
  | 8 => TTML_DATA
  | 9 => TTML_TIMESTAMP
  | 10 => CC_DATA
  | 11 => PAUSE
  | 12 => RESUME
  | 13 => MUTE
  | 14 => UNMUTE
  | 15 => WEBVTT_SELECTION
  | 16 => WEBVTT_DATA
  | 17 => WEBVTT_TIMESTAMP
  | 18 => CC_SET_ATTRIBUTE
  | _ => INVALID

@[simp] theorem PacketType.ofWord_word (type : PacketType) : ofWord type.word = type := by
  cases type <;> rfl

namespace Receiver

open Parse

def channel (make : UInt32 → Construction) : Parse Construction := do
  let channelId ← read32
  pure (make channelId)

def selection (make : UInt32 → UInt32 → UInt32 → Construction) : Parse Construction := do
  let channelId ← read32
  let width ← read32
  let height ← read32
  pure (make channelId width height)

def data (make : UInt32 → Int64 → Bytes → Construction) : Parse Construction := do
  let channelId ← read32
  let offset ← read64
  let payload ← takeRest
  pure (make channelId offset.toInt64 payload)

def timestamp (make : UInt32 → UInt64 → Construction) : Parse Construction := do
  let channelId ← read32
  let time ← read64
  pure (make channelId time)

def setAttribute (counter : UInt32) : Parse Construction := do
  let channelId ← read32
  let ccType ← read32
  let attribType ← read32
  let values ← readWords NUMBER_OF_ATTRIBUTES
  if h : values.length = NUMBER_OF_ATTRIBUTES then
    pure (.ccSetAttributePacket channelId counter ccType attribType ⟨values, h⟩)
  else failure

/-- The presence word tells the two constructors apart. -/
def ccData (counter : UInt32) : Parse Construction := do
  let channelId ← read32
  let _channelType ← read32
  let ptsPresence ← read32
  let ptsValue ← read32
  let payload ← takeRest
  if ptsPresence = 0 then pure (.closedCaptionsPacketNoPTS channelId counter payload)
  else pure (.closedCaptionsPacketWithPTS channelId counter ptsValue payload)

def activeType (counter : UInt32) : Parse Construction := do
  let channelId ← read32
  let _userdataType ← read32
  let type ← read32
  let service ← read32
  pure (.closedCaptionsActiveTypePacket channelId counter
    (if type = 0 then .type_608 else .type_708) service.toInt32)

def body (counter : UInt32) : PacketType → Parse Construction
  | RESET_ALL => pure .resetAllPacket
  | RESET_CHANNEL => channel (.resetChannelPacket · counter)
  | SUBTITLE_SELECTION => activeType counter
  | TTML_SELECTION => selection (.ttmlSelectionPacket · counter)
  | TTML_DATA => data (.ttmlDataPacket · counter)
  | TTML_TIMESTAMP => timestamp (.ttmlTimestampPacket · counter)
  | CC_DATA => ccData counter
  | PAUSE => channel (.pausePacket · counter)
  | RESUME => channel (.resumePacket · counter)
  | MUTE => channel (.mutePacket · counter)
  | UNMUTE => channel (.unmutePacket · counter)
  | WEBVTT_SELECTION => selection (.webVttSelectionPacket · counter)
  | WEBVTT_DATA => data (.webVttDataPacket · counter)
  | WEBVTT_TIMESTAMP => timestamp (.webVttTimestampPacket · counter)
  | CC_SET_ATTRIBUTE => setAttribute counter
  | _ => failure

/-- The body of a frame, read to its last byte. -/
def packet (frame : Frame) : Option Construction :=
  (body frame.counter (PacketType.ofWord frame.type)).complete frame.body

/-- Frames until no byte is left, and the constructor call of each. -/
def packets (bytes : Bytes) : Option (List Construction) := do
  let frames ← Frame.readAll bytes
  frames.mapM packet

end Receiver

/-! ## The frame of a packet -/

namespace Construction

def type : Construction → PacketType
  | pausePacket .. => PAUSE
  | resumePacket .. => RESUME
  | mutePacket .. => MUTE
  | unmutePacket .. => UNMUTE
  | resetAllPacket => RESET_ALL
  | resetChannelPacket .. => RESET_CHANNEL
  | ccSetAttributePacket .. => CC_SET_ATTRIBUTE
  | ttmlSelectionPacket .. => TTML_SELECTION
  | ttmlDataPacket .. => TTML_DATA
  | ttmlTimestampPacket .. => TTML_TIMESTAMP
  | webVttSelectionPacket .. => WEBVTT_SELECTION
  | webVttDataPacket .. => WEBVTT_DATA
  | webVttTimestampPacket .. => WEBVTT_TIMESTAMP
  | closedCaptionsPacketWithPTS .. => CC_DATA
  | closedCaptionsPacketNoPTS .. => CC_DATA
  | closedCaptionsActiveTypePacket .. => SUBTITLE_SELECTION

def counter : Construction → UInt32
  | resetAllPacket => 0
  | pausePacket _ n | resumePacket _ n | mutePacket _ n | unmutePacket _ n
  | resetChannelPacket _ n | ccSetAttributePacket _ n _ _ _ | ttmlSelectionPacket _ n _ _
  | ttmlDataPacket _ n _ _ | ttmlTimestampPacket _ n _ | webVttSelectionPacket _ n _ _
  | webVttDataPacket _ n _ _ | webVttTimestampPacket _ n _
  | closedCaptionsPacketWithPTS _ n _ _ | closedCaptionsPacketNoPTS _ n _
  | closedCaptionsActiveTypePacket _ n _ _ => n

def body : Construction → Bytes
  | resetAllPacket => []
  | pausePacket ch _ | resumePacket ch _ | mutePacket ch _ | unmutePacket ch _
  | resetChannelPacket ch _ => le32 ch
  | ccSetAttributePacket ch _ cc attr values =>
      le32 ch ++ le32 cc ++ le32 attr ++ values.val.flatMap le32
  | ttmlSelectionPacket ch _ w h | webVttSelectionPacket ch _ w h =>
      le32 ch ++ le32 w ++ le32 h
  | ttmlDataPacket ch _ offset data | webVttDataPacket ch _ offset data =>
      le32 ch ++ le64 offset.toUInt64 ++ data
  | ttmlTimestampPacket ch _ time | webVttTimestampPacket ch _ time => le32 ch ++ le64 time
  | closedCaptionsPacketWithPTS ch _ pts data =>
      le32 ch ++ le32 CC_CHANNEL_TYPE ++ le32 1 ++ le32 pts ++ data
  | closedCaptionsPacketNoPTS ch _ data =>
      le32 ch ++ le32 CC_CHANNEL_TYPE ++ le32 0 ++ le32 0 ++ data
  | closedCaptionsActiveTypePacket ch _ type service =>
      le32 ch ++ le32 CC_USERDATA_SUBTITLE_TYPE ++ le32 type.word ++ le32 service.toUInt32

def frame (c : Construction) : Frame := ⟨c.type.word, c.counter, c.body⟩

theorem flatMap_le32_length (words : List UInt32) :
    (words.flatMap le32).length = 4 * words.length := by
  induction words with
  | nil => rfl
  | cons word words ih =>
      rw [List.flatMap_cons, List.length_append, ih, le32_length, List.length_cons]
      omega

theorem body_length_lt {c : Construction} (h : c.payload.length < 2 ^ 32 - 16) :
    c.body.length < 2 ^ 32 := by
  cases c with
  | ccSetAttributePacket ch n cc attr values =>
      have := values.property
      simp only [body, List.length_append, le32_length, flatMap_le32_length, this,
        NUMBER_OF_ATTRIBUTES]
      omega
  | _ => simp [body, payload] at h ⊢ <;> omega

/-! ## Building and reading one packet -/

theorem channelPacket_m_buffer (type : PacketType) (ch n : UInt32) :
    (channelPacket type ch n).m_buffer = Frame.bytes ⟨type.word, n, le32 ch⟩ := by
  simp [channelPacket, Packet.withCounter, Frame.bytes]

theorem selectionPacket_m_buffer (type : PacketType) (ch n w h : UInt32) :
    (selectionPacket type 12 ch n w h).m_buffer =
      Frame.bytes ⟨type.word, n, le32 ch ++ le32 w ++ le32 h⟩ := by
  simp [selectionPacket, Packet.withCounter, Frame.bytes]

theorem timestampPacket_m_buffer (type : PacketType) (ch n : UInt32) (time : UInt64) :
    (timestampPacket type 12 ch n time).m_buffer =
      Frame.bytes ⟨type.word, n, le32 ch ++ le64 time⟩ := by
  simp [timestampPacket, Packet.withCounter, Frame.bytes]

theorem dataPacket_m_buffer (type : PacketType) (ch n : UInt32) (offset : Int64)
    (data : Bytes) :
    (dataPacket type ch n offset data).m_buffer =
      Frame.bytes ⟨type.word, n, le32 ch ++ le64 offset.toUInt64 ++ data⟩ := by
  have hsize : (le32 ch ++ le64 offset.toUInt64 ++ data).length = 8 + 4 + data.length := by
    simp only [List.length_append, le32_length, le64_length]
  simp only [dataPacket, Frame.bytes, hsize]
  simp [Packet.withCounter]

theorem ccSetAttributePacket_m_buffer (ch n cc attr : UInt32) (values : AttributesType) :
    (Subtec.ccSetAttributePacket ch n cc attr values).m_buffer =
      Frame.bytes ⟨CC_SET_ATTRIBUTE.word, n,
        le32 ch ++ le32 cc ++ le32 attr ++ values.val.flatMap le32⟩ := by
  have hsize : (le32 ch ++ le32 cc ++ le32 attr ++ values.val.flatMap le32).length =
      (NUMBER_OF_ATTRIBUTES + 3) * 4 := by
    have := values.property
    simp only [List.length_append, le32_length, flatMap_le32_length, this, NUMBER_OF_ATTRIBUTES]
  simp only [Subtec.ccSetAttributePacket, foldl_append32_m_buffer, Frame.bytes, hsize]
  simp [Packet.withCounter]

theorem ccDataPacket_of_indexed (ch n presence pts : UInt32) {data : Bytes}
    (h : data.length ≤ INT_MAX) :
    ∃ packet, ccDataPacket ch n presence pts data = some packet ∧
      packet.m_buffer = Frame.bytes ⟨CC_DATA.word, n,
        le32 ch ++ le32 CC_CHANNEL_TYPE ++ le32 presence ++ le32 pts ++ data⟩ := by
  have hsize : (le32 ch ++ le32 CC_CHANNEL_TYPE ++ le32 presence ++ le32 pts ++ data).length =
      CC_DATA_HEADER_LEN + data.length := by
    simp only [List.length_append, le32_length, CC_DATA_HEADER_LEN]
  refine ⟨_, pushData_of_le h _, ?_⟩
  simp only [Frame.bytes, hsize]
  simp [Packet.withoutCounter]

/-- Every constructor writes the frame of its arguments: the size words count
what is appended after them. -/
theorem build_of_indexed {c : Construction} (h : c.indexedPayload.length ≤ INT_MAX) :
    ∃ packet, c.build = some packet ∧ packet.m_buffer = c.frame.bytes := by
  cases c with
  | pausePacket ch n | resumePacket ch n | mutePacket ch n | unmutePacket ch n
  | resetChannelPacket ch n => exact ⟨_, rfl, channelPacket_m_buffer _ ch n⟩
  | resetAllPacket => exact ⟨_, rfl, by decide⟩
  | ccSetAttributePacket ch n cc attr values =>
      exact ⟨_, rfl, ccSetAttributePacket_m_buffer ch n cc attr values⟩
  | ttmlSelectionPacket ch n width height | webVttSelectionPacket ch n width height =>
      exact ⟨_, rfl, selectionPacket_m_buffer _ ch n width height⟩
  | ttmlDataPacket ch n offset data | webVttDataPacket ch n offset data =>
      exact ⟨_, rfl, dataPacket_m_buffer _ ch n offset data⟩
  | ttmlTimestampPacket ch n time | webVttTimestampPacket ch n time =>
      exact ⟨_, rfl, timestampPacket_m_buffer _ ch n time⟩
  | closedCaptionsPacketWithPTS ch n pts data => exact ccDataPacket_of_indexed ch n 1 pts h
  | closedCaptionsPacketNoPTS ch n data => exact ccDataPacket_of_indexed ch n 0 0 h
  | closedCaptionsActiveTypePacket ch n type service =>
      refine ⟨_, rfl, ?_⟩
      simp [Subtec.closedCaptionsActiveTypePacket, Packet.withoutCounter, Frame.bytes, frame,
        body, counter, Construction.type, CC_SELECTION_LEN]

theorem build_overflow {c : Construction} (h : INT_MAX < c.indexedPayload.length) :
    c.build = none := by
  cases c with
  | closedCaptionsPacketWithPTS ch n pts data => exact pushData_overflow h _
  | closedCaptionsPacketNoPTS ch n data => exact pushData_overflow h _
  | _ => simp [indexedPayload] at h

end Construction

namespace Receiver

open Parse

theorem setAttribute_body (ch n cc attr : UInt32) (values : AttributesType) :
    setAttribute n (Construction.ccSetAttributePacket ch n cc attr values).body =
      some (.ccSetAttributePacket ch n cc attr values, []) := by
  have hread := readWords_append values.val []
  rw [values.property, List.append_nil] at hread
  simp only [setAttribute, Construction.body, List.append_assoc, read32_bind]
  rw [bind_of_apply hread]
  simp [values.property]

theorem ccData_body (ch n presence pts : UInt32) (data : Bytes) :
    ccData n (le32 ch ++ le32 CC_CHANNEL_TYPE ++ le32 presence ++ le32 pts ++ data) =
      some (if presence = 0 then .closedCaptionsPacketNoPTS ch n data
        else .closedCaptionsPacketWithPTS ch n pts data, []) := by
  simp only [ccData, List.append_assoc, read32_bind, takeRest_bind]
  split <;> rfl

theorem activeType_body (ch n : UInt32) (type : CEA) (service : Int32) :
    activeType n (Construction.closedCaptionsActiveTypePacket ch n type service).body =
      some (.closedCaptionsActiveTypePacket ch n type service, []) := by
  simp only [activeType, Construction.body, List.append_assoc, read32_bind, read32_bind_last]
  cases type <;> rfl

/-- The receiver gets the constructor call back from the body. -/
theorem body_body (c : Construction) : body c.counter c.type c.body = some (c, []) := by
  cases c with
  | ccSetAttributePacket ch n cc attr values => exact setAttribute_body ch n cc attr values
  | closedCaptionsPacketWithPTS ch n pts data => exact ccData_body ch n 1 pts data
  | closedCaptionsPacketNoPTS ch n data => exact ccData_body ch n 0 0 data
  | closedCaptionsActiveTypePacket ch n type service => exact activeType_body ch n type service
  | resetAllPacket => rfl
  | _ =>
      simp [-bind_pure_comp, Construction.body, Construction.counter, Construction.type, body,
        channel, selection, data, timestamp]

theorem packet_frame (c : Construction) : packet c.frame = some c := by
  rw [packet, Construction.frame, PacketType.ofWord_word]
  exact complete_of_apply (body_body c)

theorem mapM_packet_frame (cs : List Construction) :
    (cs.map Construction.frame).mapM packet = some cs := by
  induction cs with
  | nil => rfl
  | cons c cs ih => simp [List.mapM_cons, packet_frame, ih]

end Receiver

/-! ## Streams -/

namespace Construction

theorem stream_of_indexed {cs : List Construction}
    (h : ∀ c ∈ cs, c.indexedPayload.length ≤ INT_MAX) :
    stream cs = some ((cs.map frame).flatMap Frame.bytes) := by
  induction cs with
  | nil => rfl
  | cons c cs ih =>
      rcases build_of_indexed (h c List.mem_cons_self) with ⟨packet, hbuild, hbuffer⟩
      have htail := ih fun d hd => h d (List.mem_cons_of_mem c hd)
      simp [stream, hbuild, hbuffer, htail]

/-- A stream is only sent when each of its packets is built. -/
theorem stream_eq_none {cs : List Construction} {c : Construction} (hc : c ∈ cs)
    (hbuild : c.build = none) : stream cs = none := by
  induction cs with
  | nil => cases hc
  | cons d cs ih =>
      rcases List.mem_cons.mp hc with rfl | hc
      · simp [stream, hbuild]
      · cases hd : d.build <;> simp [stream, hd, ih hc]

end Construction

/-- The bytes of the packets are read back to the constructor calls that made them, packet by
packet and to the last byte. -/
def Decodable (cs : List Construction) : Prop :=
  ∃ bytes, stream cs = some bytes ∧ Receiver.packets bytes = some cs

/-- A stream of packets decodes to its constructor calls exactly when the index
of the copy loop reaches the end of every closed-caption payload. -/
theorem decodable_iff_indexed {cs : List Construction}
    (hpayload : ∀ c ∈ cs, c.payload.length < 2 ^ 32 - 16) :
    Decodable cs ↔ ∀ c ∈ cs, c.indexedPayload.length ≤ INT_MAX := by
  constructor
  · rintro ⟨bytes, hstream, -⟩ c hc
    by_contra hlong
    rw [stream_eq_none hc (build_overflow (Nat.lt_of_not_le hlong))] at hstream
    cases hstream
  · intro h
    have hframes : ∀ f ∈ cs.map frame, f.body.length < 2 ^ 32 := by
      intro f hf
      rcases List.mem_map.mp hf with ⟨c, hc, rfl⟩
      exact body_length_lt (hpayload c hc)
    refine ⟨_, stream_of_indexed h, ?_⟩
    rw [Receiver.packets, Frame.readAll_flatMap hframes]
    exact Receiver.mapM_packet_frame cs

def sampleStream : List Construction :=
  [.resetAllPacket, .ttmlSelectionPacket 7 0 1920 1080, .ttmlDataPacket 7 1 (-40) [60, 116, 116],
    .closedCaptionsActiveTypePacket 7 2 .type_708 (-1),
    .closedCaptionsPacketWithPTS 7 3 90000 [252, 128], .mutePacket 7 4]

theorem sampleStream_decodable : Decodable sampleStream :=
  (decodable_iff_indexed (by decide)).mpr (by decide)

example : stream [.pausePacket 7 258] = some [11, 0, 0, 0, 2, 1, 0, 0, 4, 0, 0, 0, 7, 0, 0, 0] := by
  decide

/-- A caption payload of more than 2 GiB, followed by another packet. -/
def longCaption : List Construction :=
  [.closedCaptionsPacketNoPTS 7 0 (List.replicate (2 ^ 31 + 1) 128), .pausePacket 7 1]

theorem longCaption_not_decodable :
    (∀ c ∈ longCaption, c.payload.length < 2 ^ 32 - 16) ∧ ¬ Decodable longCaption := by
  have hlen : (List.replicate (2 ^ 31 + 1) (128 : UInt8)).length = 2 ^ 31 + 1 :=
    List.length_replicate
  constructor
  · simp only [longCaption, List.forall_mem_cons, payload, hlen, List.length_nil]
    refine ⟨by omega, by omega, fun c hc => by cases hc⟩
  · rintro ⟨bytes, hstream, -⟩
    have hlong : INT_MAX < (List.replicate (2 ^ 31 + 1) (128 : UInt8)).length := by
      rw [hlen, INT_MAX]
      omega
    have hbuild : build (.closedCaptionsPacketNoPTS 7 0 (List.replicate (2 ^ 31 + 1) 128)) = none :=
      build_overflow hlong
    rw [longCaption, stream_eq_none List.mem_cons_self hbuild] at hstream
    cases hstream

end PlayerInterface.Subtec
