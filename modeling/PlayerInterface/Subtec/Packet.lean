import PlayerInterface.Core.IntLoop
import PlayerInterface.Core.LittleEndian

/-!
# Subtec packets

Each packet class appends its type, its counter, a size word computed by hand
and then its fields to one buffer. The two closed-caption data constructors
copy their payload with an `int` index; the other data packets insert the
vector whole.
-/

namespace PlayerInterface.Subtec

open PlayerInterface.Core

inductive PacketType where
  | ZERO
  | PES_DATA
  | TIMESTAMP
  | RESET_ALL
  | RESET_CHANNEL
  | SUBTITLE_SELECTION
  | TELETEXT_SELECTION
  | TTML_SELECTION
  | TTML_DATA
  | TTML_TIMESTAMP
  | CC_DATA
  | PAUSE
  | RESUME
  | MUTE
  | UNMUTE
  | WEBVTT_SELECTION
  | WEBVTT_DATA
  | WEBVTT_TIMESTAMP
  | CC_SET_ATTRIBUTE
  | INVALID
  deriving DecidableEq, Repr

def PacketType.word : PacketType → UInt32
  | ZERO => 0
  | PES_DATA => 1
  | TIMESTAMP => 2
  | RESET_ALL => 3
  | RESET_CHANNEL => 4
  | SUBTITLE_SELECTION => 5
  | TELETEXT_SELECTION => 6
  | TTML_SELECTION => 7
  | TTML_DATA => 8
  | TTML_TIMESTAMP => 9
  | CC_DATA => 10
  | PAUSE => 11
  | RESUME => 12
  | MUTE => 13
  | UNMUTE => 14
  | WEBVTT_SELECTION => 15
  | WEBVTT_DATA => 16
  | WEBVTT_TIMESTAMP => 17
  | CC_SET_ATTRIBUTE => 18
  | INVALID => 0xFFFFFFFF

structure Packet where
  m_buffer : Bytes
  m_counter : UInt32
  deriving DecidableEq, Repr

namespace Packet

/-- `Packet(counter)`. -/
def withCounter (counter : UInt32) : Packet := ⟨[], counter⟩

/-- `Packet()`, with the largest counter. -/
def withoutCounter : Packet := ⟨[], 0xFFFFFFFF⟩

def push (p : Packet) (byte : UInt8) : Packet := { p with m_buffer := p.m_buffer ++ [byte] }

def append32 (p : Packet) (value : UInt32) : Packet :=
  p.push ((value >>> 0).toUInt8 &&& 0xFF)
    |>.push ((value >>> 8).toUInt8 &&& 0xFF)
    |>.push ((value >>> 16).toUInt8 &&& 0xFF)
    |>.push ((value >>> 24).toUInt8 &&& 0xFF)

def append64 (p : Packet) (value : Int64) : Packet :=
  p.append32 ((value >>> 0).toInt32.toUInt32 &&& 0xFFFFFFFF)
    |>.append32 ((value >>> 32).toInt32.toUInt32 &&& 0xFFFFFFFF)

def appendType (p : Packet) (type : PacketType) : Packet := p.append32 type.word

/-- `buffer.insert(buffer.end(), …)`, which is also what pushing every byte of a vector does. -/
def insertEnd (p : Packet) (bytes : Bytes) : Packet := { p with m_buffer := p.m_buffer ++ bytes }

end Packet

open Packet PacketType

/-! ## Control packets -/

/-- The five packets whose body is the channel alone. -/
def channelPacket (type : PacketType) (channelId counter : UInt32) : Packet :=
  withCounter counter |>.appendType type |>.append32 counter |>.append32 4 |>.append32 channelId

def pausePacket (channelId counter : UInt32) : Packet := channelPacket PAUSE channelId counter

def resumePacket (channelId counter : UInt32) : Packet := channelPacket RESUME channelId counter

def mutePacket (channelId counter : UInt32) : Packet := channelPacket MUTE channelId counter

def unmutePacket (channelId counter : UInt32) : Packet := channelPacket UNMUTE channelId counter

def resetChannelPacket (channelId counter : UInt32) : Packet :=
  channelPacket RESET_CHANNEL channelId counter

def resetAllPacket : Packet :=
  withCounter 0 |>.appendType RESET_ALL |>.append32 0 |>.append32 0

def NUMBER_OF_ATTRIBUTES : Nat := 14

abbrev AttributesType := { values : List UInt32 // values.length = NUMBER_OF_ATTRIBUTES }

def ccSetAttributePacket (channelId counter ccType attribType : UInt32)
    (attributesValues : AttributesType) : Packet :=
  let header := withCounter counter |>.appendType CC_SET_ATTRIBUTE |>.append32 counter
    |>.append32 (UInt32.ofNat ((NUMBER_OF_ATTRIBUTES + 3) * 4))
    |>.append32 channelId |>.append32 ccType |>.append32 attribType
  attributesValues.val.foldl append32 header

/-! ## TTML and WebVTT packets -/

def TTML_SELECTION_PACKET_SIZE : UInt32 := 12

def TTML_TIMESTAMP_PACKET_SIZE : UInt32 := 12

def WEBVTT_SELECTION_PACKET_SIZE : UInt32 := 12

def WEBVTT_TIMESTAMP_PACKET_SIZE : UInt32 := 12

def selectionPacket (type : PacketType) (size channelId counter width height : UInt32) :
    Packet :=
  withCounter counter |>.appendType type |>.append32 counter |>.append32 size
    |>.append32 channelId |>.append32 width |>.append32 height

def dataPacket (type : PacketType) (channelId counter : UInt32) (dataOffset : Int64)
    (dataBuffer : Bytes) : Packet :=
  let size := UInt32.ofNat (8 + 4 + dataBuffer.length)
  withCounter counter |>.appendType type |>.append32 counter |>.append32 size
    |>.append32 channelId |>.append64 dataOffset |>.insertEnd dataBuffer

def timestampPacket (type : PacketType) (size channelId counter : UInt32) (timestamp : UInt64) :
    Packet :=
  withCounter counter |>.appendType type |>.append32 counter |>.append32 size
    |>.append32 channelId |>.append64 timestamp.toInt64

def ttmlSelectionPacket (channelId counter width height : UInt32) : Packet :=
  selectionPacket TTML_SELECTION TTML_SELECTION_PACKET_SIZE channelId counter width height

def ttmlDataPacket (channelId counter : UInt32) (dataOffset : Int64) (dataBuffer : Bytes) :
    Packet :=
  dataPacket TTML_DATA channelId counter dataOffset dataBuffer

def ttmlTimestampPacket (channelId counter : UInt32) (timestamp : UInt64) : Packet :=
  timestampPacket TTML_TIMESTAMP TTML_TIMESTAMP_PACKET_SIZE channelId counter timestamp

def webVttSelectionPacket (channelId counter width height : UInt32) : Packet :=
  selectionPacket WEBVTT_SELECTION WEBVTT_SELECTION_PACKET_SIZE channelId counter width height

def webVttDataPacket (channelId counter : UInt32) (timeOffsetMs : Int64) (dataBuffer : Bytes) :
    Packet :=
  dataPacket WEBVTT_DATA channelId counter timeOffsetMs dataBuffer

def webVttTimestampPacket (channelId counter : UInt32) (timestamp : UInt64) : Packet :=
  timestampPacket WEBVTT_TIMESTAMP WEBVTT_TIMESTAMP_PACKET_SIZE channelId counter timestamp

/-! ## Closed-caption packets -/

def CC_DATA_HEADER_LEN : Nat := 16

def CC_CHANNEL_TYPE : UInt32 := 3

/-- `for(int i = 0; i<dataLen; ++i) getBuffer().push_back(data[i])`. -/
def pushData (data : Bytes) (p : Packet) : Option Packet := intLoop push data 0 p

/-- Both constructors, which differ in the two words after the channel type. They
leave the base class with its default counter. -/
def ccDataPacket (channelId counter ptsPresence ptsValue : UInt32) (data : Bytes) :
    Option Packet :=
  withoutCounter |>.appendType CC_DATA |>.append32 counter
    |>.append32 (UInt32.ofNat (CC_DATA_HEADER_LEN + data.length))
    |>.append32 channelId |>.append32 CC_CHANNEL_TYPE |>.append32 ptsPresence
    |>.append32 ptsValue |> pushData data

def closedCaptionsPacketWithPTS (channelId counter ptsValue : UInt32) (data : Bytes) :
    Option Packet :=
  ccDataPacket channelId counter 1 ptsValue data

def closedCaptionsPacketNoPTS (channelId counter : UInt32) (data : Bytes) : Option Packet :=
  ccDataPacket channelId counter 0 0 data

inductive CEA where
  | type_608
  | type_708
  deriving DecidableEq, Repr

def CEA.word : CEA → UInt32
  | type_608 => 0
  | type_708 => 1

def CC_SELECTION_LEN : UInt32 := 16

def CC_USERDATA_SUBTITLE_TYPE : UInt32 := 3

def closedCaptionsActiveTypePacket (channelId counter : UInt32) (type : CEA) (service : Int32) :
    Packet :=
  withoutCounter |>.appendType SUBTITLE_SELECTION |>.append32 counter
    |>.append32 CC_SELECTION_LEN |>.append32 channelId |>.append32 CC_USERDATA_SUBTITLE_TYPE
    |>.append32 type.word |>.append32 service.toUInt32

/-! ## What the appends write -/

@[simp] theorem push_m_buffer (p : Packet) (byte : UInt8) :
    (p.push byte).m_buffer = p.m_buffer ++ [byte] := rfl

@[simp] theorem insertEnd_m_buffer (p : Packet) (bytes : Bytes) :
    (p.insertEnd bytes).m_buffer = p.m_buffer ++ bytes := rfl

/-- The pushed byte is the `k`-th base-256 digit of the word. -/
theorem shifted_byte (value shift : UInt32) (k : Nat)
    (h : 2 ^ (shift.toNat % 32) = 256 ^ k) :
    (value >>> shift).toUInt8 &&& 0xFF = UInt8.ofNat (value.toNat / 256 ^ k) := by
  have hmask : (0xFF : UInt8) = -1 := by decide
  apply UInt8.toNat_inj.mp
  rw [hmask, UInt8.and_neg_one, UInt32.toNat_toUInt8, UInt32.toNat_shiftRight,
    Nat.shiftRight_eq_div_pow, h, UInt8.toNat_ofNat']

@[simp] theorem append32_m_buffer (p : Packet) (value : UInt32) :
    (p.append32 value).m_buffer = p.m_buffer ++ le32 value := by
  have h0 := shifted_byte value 0 0 rfl
  have h1 := shifted_byte value 8 1 rfl
  have h2 := shifted_byte value 16 2 rfl
  have h3 := shifted_byte value 24 3 rfl
  simp only [append32, push_m_buffer, List.append_assoc, h0, h1, h2, h3]
  simp [le32, leBytes, Nat.div_div_eq_div_mul]

@[simp] theorem appendType_m_buffer (p : Packet) (type : PacketType) :
    (p.appendType type).m_buffer = p.m_buffer ++ le32 type.word := append32_m_buffer p type.word

theorem and_word_mask (value : UInt32) : value &&& 0xFFFFFFFF = value := by
  have hmask : (0xFFFFFFFF : UInt32) = -1 := by decide
  rw [hmask, UInt32.and_neg_one]

theorem low_word_toNat (value : Int64) :
    ((value >>> 0).toInt32.toUInt32 &&& 0xFFFFFFFF).toNat = value.toUInt64.toNat % 256 ^ 4 := by
  have hlow : (value >>> 0).toInt32.toUInt32 = value.toUInt64.toUInt32 := by
    apply UInt32.toBitVec_inj.1
    simp [BitVec.signExtend_eq_setWidth_of_le]
  have hcast := UInt64.toNat_toUInt32 value.toUInt64
  rw [and_word_mask, hlow]
  omega

/-- The signed shift differs from the unsigned one only in the bits the cast to
32 bits cuts off. -/
theorem high_word_toNat (value : Int64) :
    ((value >>> 32).toInt32.toUInt32 &&& 0xFFFFFFFF).toNat = value.toUInt64.toNat / 256 ^ 4 := by
  have hhigh : (value >>> 32).toInt32.toUInt32 = (value.toUInt64 >>> 32).toUInt32 := by
    apply UInt32.toBitVec_inj.1
    simp only [Int32.toBitVec_toUInt32, Int64.toBitVec_toInt32,
      BitVec.signExtend_eq_setWidth_of_le _ (show 32 ≤ 64 by omega), Int64.toBitVec_shiftRight,
      UInt64.toBitVec_toUInt32, UInt64.toBitVec_shiftRight, Int64.toBitVec_toUInt64]
    change (value.toBitVec.sshiftRight 32).setWidth 32 = (value.toBitVec >>> 32).setWidth 32
    ext i hi
    have hin : 32 + i < 64 := by omega
    simp [BitVec.getLsbD_sshiftRight, hin]
    omega
  have hlt := value.toUInt64.toNat_lt
  have hcast := UInt64.toNat_toUInt32 (value.toUInt64 >>> 32)
  have hshift : (value.toUInt64 >>> 32).toNat = value.toUInt64.toNat >>> 32 :=
    UInt64.toNat_shiftRight value.toUInt64 32
  have hdiv := Nat.shiftRight_eq_div_pow value.toUInt64.toNat 32
  rw [and_word_mask, hhigh]
  omega

@[simp] theorem append64_m_buffer (p : Packet) (value : Int64) :
    (p.append64 value).m_buffer = p.m_buffer ++ le64 value.toUInt64 := by
  have hsplit := leBytes_add 4 4 value.toUInt64.toNat
  rw [← leBytes_mod 4] at hsplit
  simp only [append64, append32_m_buffer, List.append_assoc, le32, low_word_toNat,
    high_word_toNat]
  rw [le64, hsplit]

theorem foldl_append32_m_buffer (words : List UInt32) (p : Packet) :
    (words.foldl append32 p).m_buffer = p.m_buffer ++ words.flatMap le32 := by
  induction words generalizing p with
  | nil => simp
  | cons word words ih =>
      rw [List.foldl_cons, ih, append32_m_buffer, List.append_assoc, List.flatMap_cons]

theorem foldl_push (bytes : Bytes) (p : Packet) : bytes.foldl push p = p.insertEnd bytes := by
  induction bytes generalizing p with
  | nil => simp [insertEnd]
  | cons byte bytes ih => simp [ih, insertEnd, push]

/-- The copy loop appends the payload when its last index is an `int`. -/
theorem pushData_of_le {data : Bytes} (h : data.length ≤ INT_MAX) (p : Packet) :
    pushData data p = some (p.insertEnd data) := by
  rw [pushData, intLoop_of_le h, List.drop_zero, foldl_push]

/-- With a longer payload the index overflows. -/
theorem pushData_overflow {data : Bytes} (h : INT_MAX < data.length) (p : Packet) :
    pushData data p = none :=
  intLoop_overflow h push (Nat.zero_le INT_MAX) p

end PlayerInterface.Subtec
