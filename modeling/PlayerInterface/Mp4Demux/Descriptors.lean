import PlayerInterface.Mp4Demux.Fragments

/-!
# The descriptors of an `esds` box

`parseCodecConfigHelper` reads serialised descriptors to their last byte: every
assertion about the end of a descriptor holds, and the codec information is what
the descriptors say.
-/

namespace PlayerInterface.Mp4Demux

open PlayerInterface.Core Program

variable {m : Mem} {c c' c'' : Cursor}

/-! ## Lengths -/

theorem be_one (m : Mem) (p : Nat) : m.be p 1 = (m p).toNat := by
  simp [Mem.be, Mem.slice, be]

theorem last_octet : ∀ n < 128, n &&& 0x80 = 0 ∧ n &&& 0x7f = n := by decide

theorem more_octet : ∀ n < 128, (128 + n) &&& 0x80 ≠ 0 ∧ (128 + n) &&& 0x7f = n := by decide

/-- Seven bits more, while the word has room for them. -/
theorem shift_octet {rc n : Nat} (hrc : rc * 128 < 2 ^ 32) (hn : n < 128) :
    (rc <<< 7) % 2 ^ 32 ||| n = rc * 128 + n := by
  have hn' : n < 2 ^ 7 := hn
  have hrc' : rc * 2 ^ 7 < 2 ^ 32 := hrc
  have hshift : (rc <<< 7) % 2 ^ 32 ||| n = rc * 2 ^ 7 + n := by
    rw [Nat.shiftLeft_eq, Nat.mod_eq_of_lt hrc', mul_two_pow_or hn']
  exact hshift

theorem octet_room {rc k : Nat} (hrc : rc < 128 ^ k) (hk : k < 4) : rc * 128 < 2 ^ 32 := by
  have hle : 128 ^ k ≤ 128 ^ 3 := Nat.pow_le_pow_right (by decide) (by omega)
  have hpow : 128 ^ 3 * 128 < 2 ^ 32 := by decide
  exact Nat.lt_of_le_of_lt (Nat.mul_le_mul_right 128 (Nat.le_trans (Nat.le_of_lt hrc) hle)) hpow

/-- The octets hold the low bits of a length: the last seven behind the first ones. -/
theorem octets_value (rc len more : Nat) :
    (rc * 128 + len / 128 ^ (more + 1) % 128) * 128 ^ (more + 1) + len % 128 ^ (more + 1) =
      rc * 128 ^ (more + 1 + 1) + len % 128 ^ (more + 1 + 1) := by
  rw [Nat.pow_succ 128 (more + 1), Nat.mod_mul, Nat.add_mul, Nat.mul_assoc, Nat.mul_comm 128,
    Nat.mul_comm (len / 128 ^ (more + 1) % 128)]
  omega

theorem readLen_octets {fuel more len rc k : Nat} (hfuel : more < fuel) (hrc : rc < 128 ^ k)
    (hk : k + more < 4) (h : Holds m c.ptr (lengthOctets more len)) :
    Moves (readLen fuel rc) m c (rc * 128 ^ (more + 1) + len % 128 ^ (more + 1))
      (c.seek (c.ptr + (more + 1))) := by
  induction more generalizing fuel rc k c with
  | zero =>
      obtain ⟨fuel, rfl⟩ : ∃ f, fuel = f + 1 := ⟨fuel - 1, by omega⟩
      have hlt : len % 128 < 128 := Nat.mod_lt len (by decide)
      have hoctet : m.be c.ptr 1 = len % 128 := by
        rw [be_one, h.1, UInt8.toNat_ofNat']
        exact Nat.mod_eq_of_lt (Nat.lt_trans hlt (by decide))
      refine readU8_moves.bind ?_
      rw [hoctet, (last_octet _ hlt).1, (last_octet _ hlt).2,
        shift_octet (octet_room hrc hk) hlt, if_pos rfl]
      exact .pure _
  | succ more ih =>
      obtain ⟨fuel, rfl⟩ : ∃ f, fuel = f + 1 := ⟨fuel - 1, by omega⟩
      have hlt : len / 128 ^ (more + 1) % 128 < 128 := Nat.mod_lt _ (by decide)
      have hoctet : m.be c.ptr 1 = 128 + len / 128 ^ (more + 1) % 128 := by
        rw [be_one, h.1, UInt8.toNat_ofNat']
        exact Nat.mod_eq_of_lt (by omega)
      have hnext : rc * 128 + len / 128 ^ (more + 1) % 128 < 128 ^ (k + 1) := by
        rw [Nat.pow_succ]
        omega
      have hend : c.ptr + (more + 1 + 1) = c.ptr + 1 + (more + 1) := by omega
      refine readU8_moves.bind ?_
      rw [hoctet, (more_octet _ hlt).2, shift_octet (octet_room hrc (by omega)) hlt,
        if_neg (more_octet _ hlt).1, ← octets_value, hend]
      exact ih (by omega) hnext (by omega) h.2

/-! ## The walk -/

def InitializationHeaderInfo.setCodecData (i : InitializationHeaderInfo) (payload : Bytes) :
    InitializationHeaderInfo :=
  { i with codec_data_len := payload.length, codec_data := some payload }

def DecoderConfigFields.info (b : DecoderConfigFields) (i : InitializationHeaderInfo) :
    InitializationHeaderInfo :=
  { i with
    object_type_id := b.objectTypeIndication.toNat, stream_type := b.streamType.toNat
    -- the buffer size is read as a flag byte and a short word
    upStream := b.bufferSizeDB.toNat / 256 ^ 2, buffer_size := b.bufferSizeDB.toNat % 256 ^ 2
    maxBitrate := b.maxBitrate.toNat, avgBitrate := b.avgBitrate.toNat }

/-- The codec information behind descriptors. -/
def Descriptors.info : Descriptors → InitializationHeaderInfo → InitializationHeaderInfo
  | nil, i => i
  | es _ _ _ children rest, i => rest.info (children.info i)
  | decoderConfig _ fields children rest, i => rest.info (children.info (fields.info i))
  | specificInfo _ payload rest, i => rest.info (i.setCodecData payload)
  | slConfig _ _ rest, i => rest.info i

/-- Enough fuel for the loops over descriptors and over the octets of a length. -/
def Descriptors.fuel : Descriptors → Nat
  | nil => 1
  | es _ _ _ children rest => 5 + children.fuel + rest.fuel
  | decoderConfig _ _ children rest => 5 + children.fuel + rest.fuel
  | specificInfo _ _ rest => 5 + rest.fuel
  | slConfig _ _ rest => 5 + rest.fuel

/-- One pass of the loop: the `switch` ends where the descriptor does. -/
theorem parseCodecConfigHelper_step {fuel next more : Nat} {tag : UInt8} {body : Bytes}
    (hfuel : 4 ≤ fuel) (hfit : Descriptors.LengthFits more body.length)
    (h : Holds m c.ptr (descriptorBytes tag more body)) (hnext : c.ptr < next)
    (hbody : Moves
      (parseDescriptor (parseCodecConfigHelper fuel) tag.toNat body.length
        (c.ptr + (descriptorBytes tag more body).length)) m (c.seek (c.ptr + 1 + (more + 1))) ()
      (c'.seek (c.ptr + (descriptorBytes tag more body).length)))
    (hrest : Moves (parseCodecConfigHelper fuel next) m
      (c'.seek (c.ptr + (descriptorBytes tag more body).length)) () c'') :
    Moves (parseCodecConfigHelper (fuel + 1) next) m c () c'' := by
  obtain ⟨htag, hbytes⟩ := h
  have hlength := (holds_append.mp hbytes).1
  have hend : c.ptr + 1 + (more + 1) + body.length =
      c.ptr + (descriptorBytes tag more body).length := by
    simp only [descriptorBytes, List.length_cons, List.length_append, lengthOctets_length]
    omega
  have htag' : m.be c.ptr 1 = tag.toNat := by rw [be_one, htag]
  refine .get fun d hd => ?_
  have hlt : d.ptr < next := by
    rw [show d.ptr = c.ptr from congrArg Cursor.ptr hd]
    exact hnext
  rw [if_pos hlt]
  refine readU8_moves.bind ?_
  have hlen := @readLen_octets m (c.seek (c.ptr + 1)) fuel more body.length 0 0
    (by have := hfit.1; omega) (by decide) (by have := hfit.1; omega) hlength
  rw [Nat.zero_mul, Nat.zero_add, Nat.mod_eq_of_lt hfit.2] at hlen
  refine hlen.bind (.get fun e he => ?_)
  have hptr : e.ptr + body.length = c.ptr + (descriptorBytes tag more body).length := by
    rw [show e.ptr = c.ptr + 1 + (more + 1) from congrArg Cursor.ptr he, hend]
  rw [htag']
  dsimp only
  rw [hptr]
  refine hbody.bind (.get fun f hf => ?_)
  refine (assert_moves (congrArg Cursor.ptr hf)).bind ?_
  exact (Yields.modify
    (fun e => Cursor.seek e (c.ptr + (descriptorBytes tag more body).length)) fun _ => rfl).bind
    hrest

theorem DecoderConfigFields.bytes_length (b : DecoderConfigFields) : b.bytes.length = 13 := by
  simp [bytes]

/-- The first byte of a three-byte word and the two behind it. -/
theorem Word.split_three {w : Word 3} {p : Nat} (h : Holds m p w.bytes) :
    m.be p 1 = w.toNat / 256 ^ 2 ∧ m.be (p + 1) 2 = w.toNat % 256 ^ 2 := by
  obtain ⟨hfirst, hrest⟩ := h
  constructor
  · have hlt : w.toNat / 256 ^ 2 < 256 := Nat.div_lt_of_lt_mul w.lt
    rw [be_one, hfirst, UInt8.toNat_ofNat']
    exact Nat.mod_eq_of_lt hlt
  · have hslice : m.slice (p + 1) 2 = beBytes 2 w.toNat := Holds.slice hrest
    rw [Mem.be, hslice, be_beBytes]

theorem parseDecoderConfig_moves {b : DecoderConfigFields} (h : Holds m c.ptr b.bytes)
    {walk : Nat → Demux Unit} {len limit : Nat}
    (hwalk : Moves (walk limit) m ((c.setInfo b.info).seek (c.ptr + 13)) () c') :
    Moves (parseDescriptor walk 0x04 len limit) m c () c' := by
  simp only [DecoderConfigFields.bytes, holds_append, Word.bytes_length] at h
  obtain ⟨htype, hstream, hsize, hmax, havg⟩ := h
  have htype' : m.be c.ptr 1 = b.objectTypeIndication.toNat := Holds.word htype
  have hstream' : m.be (c.ptr + 1) 1 = b.streamType.toNat := Holds.word hstream
  obtain ⟨hup, hbuffer⟩ := Word.split_three hsize
  refine (assign_register readU8_moves
    (fun e => e.setInfo fun i => { i with object_type_id := m.be c.ptr 1 }) fun _ => rfl).bind ?_
  refine (assign_register readU8_moves
    (fun e => e.setInfo fun i => { i with stream_type := m.be (c.ptr + 1) 1 }) fun _ => rfl).bind ?_
  refine (assign_register readU8_moves
    (fun e => e.setInfo fun i => { i with upStream := m.be (c.ptr + 1 + 1) 1 }) fun _ => rfl).bind ?_
  refine (assign_register readU16_moves
    (fun e => e.setInfo fun i => { i with buffer_size := m.be (c.ptr + 1 + 1 + 1) 2 })
    fun _ => rfl).bind ?_
  refine (assign_register (readU32_word hmax)
    (fun e => e.setInfo fun i => { i with maxBitrate := b.maxBitrate.toNat }) fun _ => rfl).bind ?_
  refine (assign_register (readU32_word havg)
    (fun e => e.setInfo fun i => { i with avgBitrate := b.avgBitrate.toNat }) fun _ => rfl).bind ?_
  simp only [Cursor.setInfo_seek, Cursor.setInfo_setInfo, Cursor.seek_seek,
    Cursor.seek_ptr, htype', hstream', hup, hbuffer]
  exact hwalk

theorem parseSpecificInfo_moves {payload : Bytes} (h : Holds m c.ptr payload)
    (hlen : payload.length < 2 ^ 63) {walk : Nat → Demux Unit} {limit : Nat} :
    Moves (parseDescriptor walk 0x05 payload.length limit) m c ()
      ((c.setInfo (·.setCodecData payload)).seek
        (c.ptr + payload.length)) := by
  have hcopied : Moves (copyCodecData payload.length) m c true
      (c.setInfo (·.setCodecData payload)) := by
    rintro d rfl
    have hcopy : mallocCopy m d.ptr payload.length = some payload := by
      rw [mallocCopy, if_pos hlen]
      exact congrArg some h.slice
    refine ⟨{ d with info := d.info.setCodecData payload }, ?_, rfl⟩
    show Except.ok (decide (payload.length < 2 ^ 63), { d with
      info.codec_data_len := payload.length
      info.codec_data := mallocCopy m d.ptr payload.length }) = _
    rw [hcopy, decide_eq_true hlen]
    rfl
  exact hcopied.bind (skipBytes_moves payload.length)

theorem descriptorBytes_ne_nil (tag : UInt8) (more : Nat) (body : Bytes) :
    0 < (descriptorBytes tag more body).length := by
  simp [descriptorBytes]

/-- A descriptor and those behind it, from what its `switch` case and they do. -/
theorem parseCodecConfigHelper_cons {fuel more : Nat} {tag : UInt8} {body : Bytes}
    {rest : Descriptors} {f : InitializationHeaderInfo → InitializationHeaderInfo}
    (hfuel : 4 ≤ fuel) (hfit : Descriptors.LengthFits more body.length)
    (h : Holds m c.ptr (descriptorBytes tag more body ++ rest.bytes))
    (hbody : ∀ q, Holds m q body →
      Moves (parseDescriptor (parseCodecConfigHelper fuel) tag.toNat body.length
        (q + body.length)) m (c.seek q) () ((c.setInfo f).seek (q + body.length)))
    (hrest : ∀ e : Cursor, Holds m e.ptr rest.bytes →
      Moves (parseCodecConfigHelper fuel (e.ptr + rest.bytes.length)) m e ()
        ((e.setInfo rest.info).seek (e.ptr + rest.bytes.length))) :
    Moves (parseCodecConfigHelper (fuel + 1)
        (c.ptr + (descriptorBytes tag more body ++ rest.bytes).length)) m c ()
      ((c.setInfo fun i => rest.info (f i)).seek
        (c.ptr + (descriptorBytes tag more body ++ rest.bytes).length)) := by
  obtain ⟨hhead, htail⟩ := holds_append.mp h
  have hpos := descriptorBytes_ne_nil tag more body
  have hat : Holds m (c.ptr + 1 + (more + 1)) body := by
    have := (holds_append.mp hhead.2).2
    rwa [lengthOctets_length] at this
  have hend : c.ptr + 1 + (more + 1) + body.length =
      c.ptr + (descriptorBytes tag more body).length := by
    simp only [descriptorBytes, List.length_cons, List.length_append, lengthOctets_length]
    omega
  have hcase := hbody _ hat
  rw [hend] at hcase
  rw [List.length_append, ← Nat.add_assoc]
  exact parseCodecConfigHelper_step hfuel hfit hhead (by omega) hcase
    (hrest ((c.setInfo f).seek (c.ptr + (descriptorBytes tag more body).length)) htail)

/-- `parseCodecConfigHelper` consumes serialised descriptors and takes their values over. -/
theorem parseCodecConfigHelper_moves {D : Descriptors} (hfit : D.Fits) {fuel : Nat}
    (hfuel : D.fuel ≤ fuel) (h : Holds m c.ptr D.bytes) :
    Moves (parseCodecConfigHelper fuel (c.ptr + D.bytes.length)) m c ()
      ((c.setInfo D.info).seek (c.ptr + D.bytes.length)) := by
  induction D generalizing fuel c with
  | nil =>
      obtain ⟨fuel, rfl⟩ : ∃ f, fuel = f + 1 := Nat.exists_eq_add_one.mpr hfuel
      refine .get fun d hd => ?_
      have hptr : ¬ d.ptr < c.ptr + 0 := by
        rw [show d.ptr = c.ptr from congrArg Cursor.ptr hd]
        omega
      rw [Descriptors.bytes, List.length_nil, if_neg hptr]
      exact .pure ()
  | es more es_id flags children rest ihc ihr =>
      obtain ⟨hlength, hchildren, hrest⟩ := hfit
      simp only [Descriptors.fuel] at hfuel
      obtain ⟨fuel, rfl⟩ : ∃ f, fuel = f + 1 := Nat.exists_eq_add_one.mpr (by omega)
      have hlen : (es_id.bytes ++ (flags.bytes ++ children.bytes)).length =
          3 + children.bytes.length := by
        simp only [List.length_append, Word.bytes_length]
        omega
      rw [← hlen] at hlength
      refine parseCodecConfigHelper_cons (by omega) hlength h (fun q hq => ?_)
        fun e he => ihr hrest (by omega) he
      simp only [holds_append, Word.bytes_length] at hq
      rw [hlen, ← Nat.add_assoc]
      exact (skipBytes_moves 3).bind
        (@ihc (c.seek (q + 3)) hchildren fuel (by omega) hq.2.2)
  | decoderConfig more fields children rest ihc ihr =>
      obtain ⟨hlength, hchildren, hrest⟩ := hfit
      simp only [Descriptors.fuel] at hfuel
      obtain ⟨fuel, rfl⟩ : ∃ f, fuel = f + 1 := Nat.exists_eq_add_one.mpr (by omega)
      have hlen : (fields.bytes ++ children.bytes).length = 13 + children.bytes.length := by
        rw [List.length_append, fields.bytes_length]
      rw [← hlen] at hlength
      refine parseCodecConfigHelper_cons (by omega) hlength h (fun q hq => ?_)
        fun e he => ihr hrest (by omega) he
      rw [holds_append, fields.bytes_length] at hq
      rw [hlen, ← Nat.add_assoc]
      exact parseDecoderConfig_moves hq.1
        (@ihc ((c.setInfo fields.info).seek (q + 13)) hchildren fuel (by omega) hq.2)
  | specificInfo more payload rest ih =>
      obtain ⟨hlength, hrest⟩ := hfit
      simp only [Descriptors.fuel] at hfuel
      obtain ⟨fuel, rfl⟩ : ∃ f, fuel = f + 1 := Nat.exists_eq_add_one.mpr (by omega)
      have hpow : 128 ^ (more + 1) ≤ 128 ^ 4 :=
        Nat.pow_le_pow_right (by decide) (by have := hlength.1; omega)
      have hsmall : payload.length < 2 ^ 63 :=
        Nat.lt_of_lt_of_le hlength.2 (Nat.le_trans hpow (by decide))
      exact parseCodecConfigHelper_cons (by omega) hlength h
        (fun q hq => parseSpecificInfo_moves hq hsmall) fun e he => ih hrest (by omega) he
  | slConfig more payload rest ih =>
      obtain ⟨hlength, hrest⟩ := hfit
      simp only [Descriptors.fuel] at hfuel
      obtain ⟨fuel, rfl⟩ : ∃ f, fuel = f + 1 := Nat.exists_eq_add_one.mpr (by omega)
      exact parseCodecConfigHelper_cons (f := id) (by omega) hlength h
        (fun q _ => skipBytes_moves payload.length) fun e he => ih hrest (by omega) he

end PlayerInterface.Mp4Demux
