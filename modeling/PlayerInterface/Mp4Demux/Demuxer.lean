import PlayerInterface.Core.Program
import PlayerInterface.IsoBmff.Box

/-!
# The demuxer of fragmented MP4 buffers

`Mp4Demux` walks a buffer box by box. All parsers share its members: the cursor
`ptr`, the header of the box read last, the defaults of the track read last and
the samples collected so far. Pointers are addresses, and time stamps are exact
quotients. A loop takes fuel, and an assertion that fails stops the run.
-/

namespace PlayerInterface.Mp4Demux

open PlayerInterface.Core Program
open PlayerInterface.IsoBmff (FourCC fourcc)

/-! ## Members -/

structure Mp4Sample where
  ptr : Int
  len : Nat
  pts : Rat
  dts : Rat
  duration : Rat
deriving DecidableEq, Repr

structure InitializationHeaderInfo where
  channel_count : Nat
  samplesize : Nat
  samplerate : Nat
  object_type_id : Nat
  stream_type : Nat
  upStream : Nat
  buffer_size : Nat
  maxBitrate : Nat
  avgBitrate : Nat
  width : Nat
  height : Nat
  frame_count : Nat
  depth : Nat
  horizresolution : Nat
  vertresolution : Nat
  stream_format : Nat
  data_reference_index : Nat
  codec_type : Nat
  codec_data_len : Nat
  codec_data : Option Bytes
deriving DecidableEq, Repr, Inhabited

/-- The constructor leaves the members it does not name as they are. -/
def InitializationHeaderInfo.construct (memory : InitializationHeaderInfo) :
    InitializationHeaderInfo :=
  { memory with
    channel_count := 0, samplesize := 0, samplerate := 0, width := 0, height := 0
    frame_count := 0, depth := 0, horizresolution := 0, vertresolution := 0
    stream_format := 0, data_reference_index := 0, codec_type := 0
    codec_data_len := 0, codec_data := none }

structure Demuxer where
  timescale : Nat
  info : InitializationHeaderInfo
  samples : List Mp4Sample
  moof_ptr : Int
  ptr : Nat
  version : Nat
  flags : Nat
  baseMediaDecodeTime : Nat
  fragment_duration : Nat
  track_id : Nat
  base_data_offset : Nat
  default_sample_description_index : Nat
  default_sample_duration : Nat
  default_sample_size : Nat
  default_sample_flags : Nat
  creation_time : Nat
  modification_time : Nat
  duration : Nat
  rate : Nat
  volume : Nat
  matrix : List Int
  width : Nat
  height : Nat
  language : Nat
deriving DecidableEq, Repr, Inhabited

/-- Why a run does not return: an assertion fails, or its fuel is used up. -/
inductive Stop where
  | assertion
  | fuel
deriving DecidableEq, Repr

abbrev Demux := Program Demuxer Stop

/-- `assert` of the C library. -/
def assert (c : Prop) [Decidable c] : Demux Unit := if c then pure () else throw .assertion

/-! ## Reading -/

/-- The loop shifts one byte after the other into a 64-bit word. -/
def readBytes (n : Nat) : Demux Nat := fun m d =>
  .ok ((m.slice d.ptr n).foldl (fun rc octet => (rc <<< 8) % 2 ^ 64 ||| octet.toNat) 0,
    { d with ptr := d.ptr + n })

def readU8 : Demux Nat := fun m d => .ok ((m d.ptr).toNat, { d with ptr := d.ptr + 1 })

def readU16 : Demux Nat := do
  let v ← readBytes 2
  pure (v % 2 ^ 16)

def readU32 : Demux Nat := do
  let v ← readBytes 4
  pure (v % 2 ^ 32)

def readI32 : Demux Int := do
  let v ← readBytes 4
  pure (Int.bmod v (2 ^ 32))

def readU64 : Demux Nat := readBytes 8

def skipBytes (len : Nat) : Demux Unit := modify fun d => { d with ptr := d.ptr + len }

def readHeader : Demux Unit := do
  let version ← readU8
  let flags ← readBytes 3
  modify fun d => { d with version := version, flags := flags }

/-- Width of the time words behind the header. -/
def timeSize (version : Nat) : Nat := if version = 1 then 8 else 4

def readMatrix : Nat → Demux (List Int)
  | 0 => pure []
  | count + 1 => do
      let entry ← readI32
      let entries ← readMatrix count
      pure (entry :: entries)

/-- A member is read into. -/
def assign (read : Demux Nat) (set : Nat → Demuxer → Demuxer) : Demux Unit := do
  let v ← read
  modify (set v)

/-! ## Boxes of a fragment -/

def parseMovieFragmentHeaderBox : Demux Unit := do
  readHeader
  let _sequence_number ← readU32
  pure ()

def parseTrackFragmentHeaderBox : Demux Unit := do
  readHeader
  assign readU32 fun v d => { d with track_id := v }
  let flags := (← get).flags
  when (flags &&& 0x00001 ≠ 0) (assign readU64 fun v d => { d with base_data_offset := v })
  when (flags &&& 0x00002 ≠ 0)
    (assign readU32 fun v d => { d with default_sample_description_index := v })
  when (flags &&& 0x00008 ≠ 0) (assign readU32 fun v d => { d with default_sample_duration := v })
  when (flags &&& 0x00010 ≠ 0) (assign readU32 fun v d => { d with default_sample_size := v })
  when (flags &&& 0x00020 ≠ 0) (assign readU32 fun v d => { d with default_sample_flags := v })

def parseTrackFragmentBaseMediaDecodeTimeBox : Demux Unit := do
  readHeader
  let sz := timeSize (← get).version
  assign (readBytes sz) fun v d => { d with baseMediaDecodeTime := v }

/-- What the loop over the samples of a run carries along. -/
structure RunVars where
  data_ptr : Int
  dts : Nat
deriving DecidableEq, Repr

/-- The sample of one pass of the loop, with the words read for it. -/
def Mp4Sample.make (timescale flags : Nat) (v : RunVars) (sample_duration len : Nat)
    (offset : Int) : Mp4Sample where
  ptr := v.data_ptr
  len := len
  -- the offset joins the unsigned 64-bit decode time before the division
  pts := (((v.dts : Int) + offset) % 2 ^ 64 : Int) / (timescale : Rat)
  dts := v.dts / (timescale : Rat)
  duration := if flags &&& 0x0100 ≠ 0 then sample_duration / (timescale : Rat) else 0

def parseSample (v : RunVars) : Demux RunVars := do
  let d ← get
  let sample_duration ← orDefault (d.flags &&& 0x0100 ≠ 0) d.default_sample_duration readU32
  let len ← orDefault (d.flags &&& 0x0200 ≠ 0) d.default_sample_size readU32
  let _sample_flags ← orDefault (d.flags &&& 0x0400 ≠ 0) 0 readU32
  let offset ← orDefault (d.flags &&& 0x0800 ≠ 0) 0 readI32
  let sample := Mp4Sample.make d.timescale d.flags v sample_duration len offset
  modify fun e => { e with samples := e.samples ++ [sample] }
  pure ⟨v.data_ptr + len, (v.dts + sample_duration) % 2 ^ 64⟩

def parseSamples : Nat → RunVars → Demux Unit
  | 0, _ => pure ()
  | sample_count + 1, v => do
      let v ← parseSample v
      parseSamples sample_count v

def parseTrackFragmentRunBox : Demux Unit := do
  readHeader
  let sample_count ← readU32
  let d ← get
  assert (d.flags &&& 0x0001 ≠ 0)
  let data_offset ← readI32
  let _sample_flags ← orDefault (d.flags &&& 0x0004 ≠ 0) 0 readU32
  parseSamples sample_count ⟨d.moof_ptr + data_offset, d.baseMediaDecodeTime⟩

/-! ## Boxes of the movie -/

def parseMovieHeaderBox : Demux Unit := do
  readHeader
  let sz := timeSize (← get).version
  assign (readBytes sz) fun v d => { d with creation_time := v }
  assign (readBytes sz) fun v d => { d with modification_time := v }
  assign readU32 fun v d => { d with timescale := v }
  assign readU32 fun v d => { d with duration := v }
  assign readU32 fun v d => { d with rate := v }
  assign readU32 fun v d => { d with volume := v }
  skipBytes 8
  let matrix ← readMatrix 9
  modify fun d => { d with matrix := matrix }

def parseMovieExtendsHeader : Demux Unit := do
  readHeader
  assign readU32 fun v d => { d with fragment_duration := v }

def parseTrackExtendsBox : Demux Unit := do
  readHeader
  assign readU32 fun v d => { d with track_id := v }
  assign readU32 fun v d => { d with default_sample_description_index := v }
  assign readU32 fun v d => { d with default_sample_duration := v }
  assign readU32 fun v d => { d with default_sample_size := v }
  assign readU32 fun v d => { d with default_sample_flags := v }

def parseTrackHeader : Demux Unit := do
  readHeader
  let sz := timeSize (← get).version
  assign (readBytes sz) fun v d => { d with creation_time := v }
  assign (readBytes sz) fun v d => { d with modification_time := v }
  assign readU32 fun v d => { d with track_id := v }
  skipBytes (20 + sz)
  let matrix ← readMatrix 9
  modify fun d => { d with matrix := matrix }
  assign readU32 fun v d => { d with width := v }
  assign readU32 fun v d => { d with height := v }

def parseMediaHeaderBox : Demux Unit := do
  readHeader
  let sz := timeSize (← get).version
  assign (readBytes sz) fun v d => { d with creation_time := v }
  assign (readBytes sz) fun v d => { d with modification_time := v }
  assign readU32 fun v d => { d with timescale := v }
  assign readU32 fun v d => { d with duration := v }
  assign readU16 fun v d => { d with language := v }

/-! ## Sample descriptions -/

/-- `MultiChar_Constant`: the type word four characters are read as. -/
def multiCharConstant (text : FourCC) : Nat :=
  text.b0.toNat <<< 24 ||| text.b1.toNat <<< 16 ||| text.b2.toNat <<< 8 ||| text.b3.toNat

def visualEntries : List FourCC :=
  [fourcc 'h' 'e' 'v' '1', fourcc 'a' 'v' 'c' '1', fourcc 'h' 'v' 'c' '1']

def audioEntries : List FourCC := [fourcc 'm' 'p' '4' 'a', fourcc 'e' 'c' '-' '3']

def ESDS : FourCC := fourcc 'e' 's' 'd' 's'

/-- `parseSampleDescriptionBox`, with the walk its children are left to. -/
def parseSampleDescriptionBox (demuxHelper : Nat → Demux Unit) (next : Nat) : Demux Unit := do
  readHeader
  let count ← readU32
  assert (count = 1)
  demuxHelper next

def parseVisualEntry : Demux Unit := do
  skipBytes 4
  assign readU32 fun v d => { d with info.data_reference_index := v }
  skipBytes 16
  assign readU16 fun v d => { d with info.width := v }
  assign readU16 fun v d => { d with info.height := v }
  assign readU32 fun v d => { d with info.horizresolution := v }
  assign readU32 fun v d => { d with info.vertresolution := v }
  skipBytes 4
  assign readU16 fun v d => { d with info.frame_count := v }
  skipBytes 32
  assign readU16 fun v d => { d with info.depth := v }
  let pad ← readU16
  assert (pad = 0xffff)

def parseAudioEntry : Demux Unit := do
  skipBytes 4
  assign readU32 fun v d => { d with info.data_reference_index := v }
  skipBytes 8
  assign readU16 fun v d => { d with info.channel_count := v }
  assign readU16 fun v d => { d with info.samplesize := v }
  skipBytes 4
  assign readU16 fun v d => { d with info.samplerate := v }
  skipBytes 2

def parseStreamFormat (demuxHelper : Nat → Demux Unit) (type next : Nat) : Demux Unit := do
  modify fun d => { d with info.stream_format := type }
  if type ∈ visualEntries.map multiCharConstant then parseVisualEntry
  else if type ∈ audioEntries.map multiCharConstant then parseAudioEntry
  else assert False
  demuxHelper next

/-! ## Codec configuration -/

/-- `malloc` and the copy behind it. A request of half the address space or more,
as a negative length becomes, is refused; every other one is granted. -/
def mallocCopy (m : Mem) (p len : Nat) : Option Bytes :=
  if len < 2 ^ 63 then some (m.slice p len) else none

/-- `codec_data_len` bytes from the cursor on become the codec data. -/
def copyCodecData (len : Nat) : Demux Bool := do
  let m ← read
  modify fun d => { d with info.codec_data_len := len, info.codec_data := mallocCopy m d.ptr len }
  pure (len < 2 ^ 63)

/-- Seven bits an octet, until one has its top bit clear; `rc` is what is read so far. -/
def readLen : Nat → Nat → Demux Nat
  | 0, _ => throw .fuel
  | fuel + 1, rc => do
      let octet ← readU8
      let rc := (rc <<< 7) % 2 ^ 32 ||| octet &&& 0x7f
      if octet &&& 0x80 = 0 then pure rc else readLen fuel rc

/-- The `switch` over a descriptor's tag, with the walk over nested descriptors. -/
def parseDescriptor (parseCodecConfigHelper : Nat → Demux Unit) (tag len limit : Nat) :
    Demux Unit :=
  match tag with
  | 0x03 => do
      skipBytes 3
      parseCodecConfigHelper limit
  | 0x04 => do
      assign readU8 fun v d => { d with info.object_type_id := v }
      assign readU8 fun v d => { d with info.stream_type := v }
      assign readU8 fun v d => { d with info.upStream := v }
      assign readU16 fun v d => { d with info.buffer_size := v }
      assign readU32 fun v d => { d with info.maxBitrate := v }
      assign readU32 fun v d => { d with info.avgBitrate := v }
      parseCodecConfigHelper limit
  | 0x05 => do
      let granted ← copyCodecData len
      when granted (skipBytes len)
  | 0x06 => skipBytes len
  | _ => assert False

def parseCodecConfigHelper : Nat → Nat → Demux Unit
  | 0, _ => throw .fuel
  | fuel + 1, next => do
      let d ← get
      if d.ptr < next then do
        let tag ← readU8
        let len ← readLen fuel 0
        let limit := (← get).ptr + len
        parseDescriptor (parseCodecConfigHelper fuel) tag len limit
        assert ((← get).ptr = limit)
        modify fun d => { d with ptr := limit }
        parseCodecConfigHelper fuel next
      else pure ()

def parseCodecConfiguration (fuel type next : Nat) : Demux Unit := do
  modify fun d => { d with info.codec_type := type }
  if type = multiCharConstant ESDS then do
    skipBytes 4
    parseCodecConfigHelper fuel next
  else do
    let d ← get
    let _granted ← copyCodecData (((next : Int) - d.ptr) % 2 ^ 64).toNat
    pure ()

/-! ## The walk -/

/-- The cases of the `switch` over a box type. -/
inductive BoxKind where
  | streamFormat | codecConfiguration
  | mfhd | tfhd | trun | tfdt | mvhd | mehd | trex | tkhd | mdhd | stsd
  | moof | container | skipped
deriving DecidableEq, Repr

/-- The labels of each case that does something; all other types are skipped. -/
def boxCases : List (BoxKind × List FourCC) :=
  [(.streamFormat, [fourcc 'h' 'e' 'v' '1', fourcc 'h' 'v' 'c' '1', fourcc 'a' 'v' 'c' '1',
      fourcc 'm' 'p' '4' 'a', fourcc 'e' 'c' '-' '3']),
    (.codecConfiguration, [fourcc 'h' 'v' 'c' 'C', fourcc 'd' 'e' 'c' '3',
      fourcc 'a' 'v' 'c' 'C', fourcc 'e' 's' 'd' 's']),
    (.mfhd, [fourcc 'm' 'f' 'h' 'd']), (.tfhd, [fourcc 't' 'f' 'h' 'd']),
    (.trun, [fourcc 't' 'r' 'u' 'n']), (.tfdt, [fourcc 't' 'f' 'd' 't']),
    (.mvhd, [fourcc 'm' 'v' 'h' 'd']), (.mehd, [fourcc 'm' 'e' 'h' 'd']),
    (.trex, [fourcc 't' 'r' 'e' 'x']), (.tkhd, [fourcc 't' 'k' 'h' 'd']),
    (.mdhd, [fourcc 'm' 'd' 'h' 'd']), (.stsd, [fourcc 's' 't' 's' 'd']),
    (.moof, [fourcc 'm' 'o' 'o' 'f']),
    (.container, [fourcc 't' 'r' 'a' 'f', fourcc 'm' 'o' 'o' 'v', fourcc 't' 'r' 'a' 'k',
      fourcc 'm' 'i' 'n' 'f', fourcc 'd' 'i' 'n' 'f', fourcc 'm' 'v' 'e' 'x',
      fourcc 'm' 'd' 'i' 'a', fourcc 's' 't' 'b' 'l'])]

def boxKind (type : Nat) : BoxKind :=
  match boxCases.find? fun c => type ∈ c.2.map multiCharConstant with
  | some c => c.1
  | none => .skipped

/-- The `switch` of `DemuxHelper`, with the walk over nested boxes. -/
def demuxBox (demuxHelper : Nat → Demux Unit) (fuel type next : Nat) : Demux Unit :=
  match boxKind type with
  | .streamFormat => parseStreamFormat demuxHelper type next
  | .codecConfiguration => parseCodecConfiguration fuel type next
  | .mfhd => parseMovieFragmentHeaderBox
  | .tfhd => parseTrackFragmentHeaderBox
  | .trun => parseTrackFragmentRunBox
  | .tfdt => parseTrackFragmentBaseMediaDecodeTimeBox
  | .mvhd => parseMovieHeaderBox
  | .mehd => parseMovieExtendsHeader
  | .trex => parseTrackExtendsBox
  | .tkhd => parseTrackHeader
  | .mdhd => parseMediaHeaderBox
  | .stsd => parseSampleDescriptionBox demuxHelper next
  | .moof => do
      modify fun d => { d with moof_ptr := (d.ptr : Int) - 8 }
      demuxHelper next
  | .container => demuxHelper next
  | .skipped => pure ()

def demuxHelper : Nat → Nat → Demux Unit
  | 0, _ => throw .fuel
  | fuel + 1, fin => do
      let d ← get
      if d.ptr < fin then do
        let size ← readU32
        let next := (← get).ptr + size - 4
        let type ← readU32
        demuxBox (demuxHelper fuel) fuel type next
        modify fun d => { d with ptr := next }
        demuxHelper fuel fin
      else pure ()

/-- The constructor, over memory whose old contents show in the members it does not set. -/
def construct (fuel : Nat) (m : Mem) (ptr len timescale : Nat) (memory : Demuxer) :
    Except Stop Demuxer :=
  let d := { memory with
    info := memory.info.construct, samples := [], ptr := ptr, moof_ptr := 0
    timescale := timescale }
  (demuxHelper fuel (ptr + len) m d).map Prod.snd

end PlayerInterface.Mp4Demux
