import PlayerInterface.Mp4Demux.Descriptors

/-!
# The codec information of an `esds` box

An elementary stream descriptor carries one decoder configuration, the decoder
specific information inside it and an SL configuration. `parseCodecConfiguration`
takes over all of it but the buffer size, of which it keeps the low 16 bits, and
the stream type, of which it keeps the whole byte.
-/

namespace PlayerInterface.Mp4Demux

open PlayerInterface.Core Program

/-- The six bits of the stream type, above the `upStream` bit and a reserved one. -/
def DecoderConfigFields.streamTypeField (b : DecoderConfigFields) : Nat :=
  b.streamType.toNat >>> 2

/-- The descriptors of an `esds` box. Each `more` counts the octets of a length
behind the first one; the SL configuration stands inside the `ES_Descriptor` or
behind it. -/
structure ElementaryStream where
  es_id : Word 2
  config : DecoderConfigFields
  specificInfo : Bytes
  slConfig : Bytes
  esMore : Nat
  configMore : Nat
  infoMore : Nat
  slMore : Nat
  slInside : Bool

namespace ElementaryStream

/-- The decoder configuration followed by other descriptors. -/
def configWith (s : ElementaryStream) (rest : Descriptors) : Descriptors :=
  .decoderConfig s.configMore s.config (.specificInfo s.infoMore s.specificInfo .nil) rest

def descriptors (s : ElementaryStream) : Descriptors :=
  if s.slInside then
    .es s.esMore s.es_id .zero (s.configWith (.slConfig s.slMore s.slConfig .nil)) .nil
  else
    .es s.esMore s.es_id .zero (s.configWith .nil) (.slConfig s.slMore s.slConfig .nil)

/-- The box behind its size and type words. -/
def bytes (header : Word 4) (s : ElementaryStream) : Bytes := header.bytes ++ s.descriptors.bytes

theorem bytes_length (header : Word 4) (s : ElementaryStream) :
    (s.bytes header).length = 4 + s.descriptors.bytes.length := by
  rw [bytes, List.length_append, Word.bytes_length]

/-- What the codec information takes over whatever the values are. -/
structure Carried (s : ElementaryStream) (i : InitializationHeaderInfo) : Prop where
  codec_data : i.codec_data = some s.specificInfo
  codec_data_len : i.codec_data_len = s.specificInfo.length
  object_type_id : i.object_type_id = s.config.objectTypeIndication.toNat
  maxBitrate : i.maxBitrate = s.config.maxBitrate.toNat
  avgBitrate : i.avgBitrate = s.config.avgBitrate.toNat

/-- All of it, with `streamType` for the encoded stream type. -/
structure Decoded (s : ElementaryStream) (streamType : Nat) (i : InitializationHeaderInfo) :
    Prop extends s.Carried i where
  stream_type : i.stream_type = streamType
  buffer_size : i.buffer_size = s.config.bufferSizeDB.toNat

/-! ## The codec information -/

theorem descriptors_info (s : ElementaryStream) (i : InitializationHeaderInfo) :
    s.descriptors.info i = (s.config.info i).setCodecData s.specificInfo := by
  unfold descriptors
  split <;> rfl

theorem carried_info (s : ElementaryStream) (i : InitializationHeaderInfo) :
    s.Carried (s.descriptors.info i) := by
  rw [descriptors_info]
  exact ⟨rfl, rfl, rfl, rfl, rfl⟩

/-- Only the low 16 bits of the buffer size are kept. -/
theorem decoded_info_iff (s : ElementaryStream) (streamType : Nat)
    (i : InitializationHeaderInfo) :
    s.Decoded streamType (s.descriptors.info i) ↔
      s.config.streamType.toNat = streamType ∧ s.config.bufferSizeDB.toNat < 2 ^ 16 := by
  have hcarried := s.carried_info i
  have hstream : (s.descriptors.info i).stream_type = s.config.streamType.toNat := by
    rw [descriptors_info]
    rfl
  have hsize : (s.descriptors.info i).buffer_size = s.config.bufferSizeDB.toNat % 256 ^ 2 := by
    rw [descriptors_info]
    rfl
  constructor
  · rintro ⟨-, hs, hb⟩
    have hlow := hsize.symm.trans hb
    exact ⟨hstream.symm.trans hs, by omega⟩
  · rintro ⟨hs, hb⟩
    exact ⟨hcarried, hstream.trans hs, hsize.trans (Nat.mod_eq_of_lt hb)⟩

/-- A byte is its own upper six bits only when it is zero. -/
theorem shiftRight_two_eq_iff (n : Nat) : n = n >>> 2 ↔ n = 0 := by
  rw [Nat.shiftRight_eq_div_pow]
  omega

/-! ## The parser -/

variable {m : Mem} {c : Cursor}

theorem parseCodecConfiguration_moves {s : ElementaryStream} (hfit : s.descriptors.Fits)
    {header : Word 4} (h : Holds m c.ptr (s.bytes header)) {fuel : Nat}
    (hfuel : s.descriptors.fuel ≤ fuel) :
    Moves
      (parseCodecConfiguration fuel (multiCharConstant ESDS) (c.ptr + (s.bytes header).length))
      m c ()
      ((c.setInfo fun i =>
        s.descriptors.info { i with codec_type := multiCharConstant ESDS }).seek
          (c.ptr + (s.bytes header).length)) := by
  have hbody := (holds_append.mp h).2
  rw [Word.bytes_length] at hbody
  have hend : c.ptr + (s.bytes header).length = c.ptr + 4 + s.descriptors.bytes.length := by
    rw [bytes_length]
    omega
  rw [hend]
  refine (Yields.modify
    (fun c : Cursor => c.setInfo fun i => { i with codec_type := multiCharConstant ESDS })
    fun _ => rfl).bind ?_
  rw [if_pos rfl]
  refine (skipBytes_moves 4).bind ?_
  exact parseCodecConfigHelper_moves (c := (c.setInfo _).seek (c.ptr + 4)) hfit hfuel hbody

/-- An `esds` box is consumed to its last byte, with every assertion satisfied, and
the codec information is what it says exactly when the buffer size has 16 bits. The
stream type is the byte that carries it: as the six-bit field it is right only when
that byte is zero. -/
theorem esds_decoded_iff (s : ElementaryStream) (hfit : s.descriptors.Fits) (header : Word 4)
    (m : Mem) (d : Demuxer) (h : Holds m d.ptr (s.bytes header)) (fuel : Nat)
    (hfuel : s.descriptors.fuel ≤ fuel) :
    ∃ d', parseCodecConfiguration fuel (multiCharConstant ESDS)
        (d.ptr + (s.bytes header).length) m d = .ok ((), d') ∧
      d'.ptr = d.ptr + (s.bytes header).length ∧ s.Carried d'.info ∧
      (s.Decoded s.config.streamType.toNat d'.info ↔ s.config.bufferSizeDB.toNat < 2 ^ 16) ∧
      (s.Decoded s.config.streamTypeField d'.info ↔
        s.config.streamType.toNat = 0 ∧ s.config.bufferSizeDB.toNat < 2 ^ 16) := by
  obtain ⟨d', hrun, hview⟩ := parseCodecConfiguration_moves (c := d.cursor) hfit h hfuel d rfl
  have hptr : d'.ptr = d.ptr + (s.bytes header).length := congrArg Cursor.ptr hview
  have hinfo : d'.info =
      s.descriptors.info { d.info with codec_type := multiCharConstant ESDS } :=
    congrArg Cursor.info hview
  refine ⟨d', hrun, hptr, ?_, ?_, ?_⟩
  · rw [hinfo]
    exact s.carried_info _
  · rw [hinfo, decoded_info_iff]
    exact ⟨fun h => h.2, fun h => ⟨rfl, h⟩⟩
  · rw [hinfo, decoded_info_iff, DecoderConfigFields.streamTypeField, shiftRight_two_eq_iff]

/-! ## An audio stream -/

/-- AAC with a decoder buffer of the given size; every length takes four octets. -/
def audio (bufferSizeDB : Word 3) : ElementaryStream where
  es_id := .zero
  config :=
    { objectTypeIndication := .ofNat 0x40, streamType := .ofNat 0x15, bufferSizeDB
      maxBitrate := .ofNat 128000, avgBitrate := .ofNat 96000 }
  specificInfo := [0x12, 0x10]
  slConfig := [0x02]
  esMore := 3
  configMore := 3
  infoMore := 3
  slMore := 3
  slInside := true

theorem audio_fits (bufferSizeDB : Word 3) : (audio bufferSizeDB).descriptors.Fits := by
  simp [audio, descriptors, configWith, Descriptors.Fits, Descriptors.LengthFits,
    Descriptors.bytes, descriptorBytes, DecoderConfigFields.bytes_length]

def audioMemory (bufferSizeDB : Word 3) : Mem :=
  Mem.ofBytes ((audio bufferSizeDB).bytes .zero) fun _ => 0

theorem audio_decoded_iff : ∃ d',
    parseCodecConfiguration (audio .zero).descriptors.fuel (multiCharConstant ESDS)
        (0 + ((audio .zero).bytes .zero).length) (audioMemory .zero) default = .ok ((), d') ∧
      d'.ptr = 0 + ((audio .zero).bytes .zero).length ∧ (audio .zero).Carried d'.info ∧
      ((audio .zero).Decoded (audio .zero).config.streamType.toNat d'.info ↔
        (audio .zero).config.bufferSizeDB.toNat < 2 ^ 16) ∧
      ((audio .zero).Decoded (audio .zero).config.streamTypeField d'.info ↔
        (audio .zero).config.streamType.toNat = 0 ∧
          (audio .zero).config.bufferSizeDB.toNat < 2 ^ 16) :=
  esds_decoded_iff (audio .zero) (audio_fits .zero) .zero (audioMemory .zero) default
    (holds_ofBytes _ fun _ => 0) _ (Nat.le_refl _)

/-- A buffer size of 65536 is read as 0, whichever way the stream type is taken. -/
theorem largeBuffer_not_decoded :
    ¬ ∀ (s : ElementaryStream), s.descriptors.Fits → ∀ (header : Word 4) (m : Mem) (d : Demuxer),
      Holds m d.ptr (s.bytes header) → ∀ fuel, s.descriptors.fuel ≤ fuel →
        ∃ d', parseCodecConfiguration fuel (multiCharConstant ESDS)
            (d.ptr + (s.bytes header).length) m d = .ok ((), d') ∧
          d'.ptr = d.ptr + (s.bytes header).length ∧
          ∃ streamType, s.Decoded streamType d'.info := by
  intro hall
  have hfits := audio_fits (.ofNat (2 ^ 16))
  have hm : Holds (audioMemory (.ofNat (2 ^ 16))) (default : Demuxer).ptr
      ((audio (.ofNat (2 ^ 16))).bytes .zero) := holds_ofBytes _ fun _ => 0
  obtain ⟨d', hrun, -, streamType, hdecoded⟩ :=
    hall (audio (.ofNat (2 ^ 16))) hfits .zero _ default hm _ (Nat.le_refl _)
  obtain ⟨e, he, hview⟩ :=
    parseCodecConfiguration_moves (c := (default : Demuxer).cursor) hfits hm (Nat.le_refl _) default
      rfl
  obtain rfl : e = d' := congrArg Prod.snd (Except.ok.inj (he.symm.trans hrun))
  have hinfo := congrArg Cursor.info hview
  rw [show e.info = _ from hinfo] at hdecoded
  exact absurd ((decoded_info_iff _ streamType _).mp hdecoded).2 (by decide)

end ElementaryStream
end PlayerInterface.Mp4Demux
