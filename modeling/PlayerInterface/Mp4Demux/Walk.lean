import PlayerInterface.Mp4Demux.Descriptors

/-!
# The walk over serialised boxes

On the bytes of a forest of boxes the demuxer returns, and its registers are
those of one pass over the boxes in document order.
-/

namespace PlayerInterface.Mp4Demux

open PlayerInterface.Core Program
open PlayerInterface.IsoBmff (FourCC fourcc boxBytes TimeScaleFields)

variable {m : Mem} {c c' : Cursor}

/-! ## Types -/

/-- The type word of a box is read as the constant its four characters stand for. -/
theorem be_fourCC (type : FourCC) : be type.bytes = multiCharConstant type := by
  have h0 := type.b0.toNat_lt
  have h1 := type.b1.toNat_lt
  have h2 := type.b2.toNat_lt
  have h3 := type.b3.toNat_lt
  have hor2 : (type.b0.toNat <<< 24 ||| type.b1.toNat <<< 16) =
      (type.b0.toNat * 2 ^ 8 + type.b1.toNat) * 2 ^ 16 := by
    rw [Nat.shiftLeft_eq, Nat.shiftLeft_eq, mul_two_pow_or (by omega)]
    omega
  have hor3 : (type.b0.toNat <<< 24 ||| type.b1.toNat <<< 16) ||| type.b2.toNat <<< 8 =
      (type.b0.toNat * 2 ^ 16 + type.b1.toNat * 2 ^ 8 + type.b2.toNat) * 2 ^ 8 := by
    rw [hor2, Nat.shiftLeft_eq, mul_two_pow_or (by omega)]
    omega
  rw [multiCharConstant, hor3, mul_two_pow_or h3]
  simp only [FourCC.bytes, be, List.length_cons, List.length_nil]
  omega

/-! ## Sample entries -/

def visualInfo (m : Mem) (p : Nat) (i : InitializationHeaderInfo) : InitializationHeaderInfo :=
  { i with
    data_reference_index := m.be (p + 4) 4, width := m.be (p + 24) 2, height := m.be (p + 26) 2
    horizresolution := m.be (p + 28) 4, vertresolution := m.be (p + 32) 4
    frame_count := m.be (p + 40) 2, depth := m.be (p + 74) 2 }

theorem parseVisualEntry_moves (hpad : m.be (c.ptr + 76) 2 = 0xffff) :
    Moves parseVisualEntry m c () ((c.setInfo (visualInfo m c.ptr)).seek (c.ptr + 78)) := by
  refine (skipBytes_moves 4).bind ?_
  refine (assign_register readU32_moves (fun e => e.setInfo fun i =>
    { i with data_reference_index := m.be (c.ptr + 4) 4 }) fun _ => rfl).bind ?_
  refine (skipBytes_moves 16).bind ?_
  refine (assign_register readU16_moves (fun e => e.setInfo fun i =>
    { i with width := m.be (c.ptr + 24) 2 }) fun _ => rfl).bind ?_
  refine (assign_register readU16_moves (fun e => e.setInfo fun i =>
    { i with height := m.be (c.ptr + 26) 2 }) fun _ => rfl).bind ?_
  refine (assign_register readU32_moves (fun e => e.setInfo fun i =>
    { i with horizresolution := m.be (c.ptr + 28) 4 }) fun _ => rfl).bind ?_
  refine (assign_register readU32_moves (fun e => e.setInfo fun i =>
    { i with vertresolution := m.be (c.ptr + 32) 4 }) fun _ => rfl).bind ?_
  refine (skipBytes_moves 4).bind ?_
  refine (assign_register readU16_moves (fun e => e.setInfo fun i =>
    { i with frame_count := m.be (c.ptr + 40) 2 }) fun _ => rfl).bind ?_
  refine (skipBytes_moves 32).bind ?_
  refine (assign_register readU16_moves (fun e => e.setInfo fun i =>
    { i with depth := m.be (c.ptr + 74) 2 }) fun _ => rfl).bind ?_
  simp only [Cursor.setInfo_seek, Cursor.setInfo_setInfo, Cursor.seek_seek, Cursor.seek_ptr]
  refine readU16_moves.bind ?_
  exact assert_moves hpad

def audioInfo (m : Mem) (p : Nat) (i : InitializationHeaderInfo) : InitializationHeaderInfo :=
  { i with
    data_reference_index := m.be (p + 4) 4, channel_count := m.be (p + 16) 2
    samplesize := m.be (p + 18) 2, samplerate := m.be (p + 24) 2 }

theorem parseAudioEntry_moves :
    Moves parseAudioEntry m c () ((c.setInfo (audioInfo m c.ptr)).seek (c.ptr + 28)) := by
  refine (skipBytes_moves 4).bind ?_
  refine (assign_register readU32_moves (fun e => e.setInfo fun i =>
    { i with data_reference_index := m.be (c.ptr + 4) 4 }) fun _ => rfl).bind ?_
  refine (skipBytes_moves 8).bind ?_
  refine (assign_register readU16_moves (fun e => e.setInfo fun i =>
    { i with channel_count := m.be (c.ptr + 16) 2 }) fun _ => rfl).bind ?_
  refine (assign_register readU16_moves (fun e => e.setInfo fun i =>
    { i with samplesize := m.be (c.ptr + 18) 2 }) fun _ => rfl).bind ?_
  refine (skipBytes_moves 4).bind ?_
  refine (assign_register readU16_moves (fun e => e.setInfo fun i =>
    { i with samplerate := m.be (c.ptr + 24) 2 }) fun _ => rfl).bind ?_
  simp only [Cursor.setInfo_seek, Cursor.setInfo_setInfo, Cursor.seek_seek, Cursor.seek_ptr]
  exact skipBytes_moves 2

/-! ## Leaves -/

def Leaf.registers : Leaf → Registers → Registers
  | passive _ _, r => r
  | timed .mvhd b, r => { r with timescale := b.timescale.toNat }
  | timed .mdhd b, r => { r with timescale := b.timescale.toNat }
  | timed .tkhd b, r => { r with track_id := b.timescale.toNat }
  | esds _ _, r => r
  | trex b, r => trexRegisters b r
  | tfhd b, r => tfhdRegisters b r
  | tfdt b, r => tfdtRegisters b r
  | trun b, r => trunRegisters b r

def Leaf.fuel : Leaf → Nat
  | esds _ descriptors => descriptors.fuel
  | _ => 0

/-- Copying codec data leaves the registers alone. -/
theorem copyCodecData_leaves (len : Nat) :
    Leaves (do let _ ← copyCodecData len; pure ()) m c c.toRegisters := by
  rintro d rfl
  exact ⟨_, rfl, rfl⟩

theorem parseCodecConfiguration_passive {type : Nat} (htype : type ≠ multiCharConstant ESDS)
    (fuel next : Nat) : Leaves (parseCodecConfiguration fuel type next) m c c.toRegisters := by
  refine .step (.modify (fun e => e.setInfo fun i => { i with codec_type := type })
    fun _ => rfl) ?_
  rw [if_neg htype]
  exact .get fun d _ => copyCodecData_leaves _

theorem parseCodecConfiguration_esds {header : Word 4} {D : Descriptors} (hfit : D.Fits)
    {fuel type : Nat} (htype : type = multiCharConstant ESDS) (hfuel : D.fuel ≤ fuel)
    (h : Holds m c.ptr (header.bytes ++ D.bytes)) :
    Leaves (parseCodecConfiguration fuel type (c.ptr + (header.bytes ++ D.bytes).length)) m c
      c.toRegisters := by
  have hbytes := (holds_append.mp h).2
  rw [Word.bytes_length] at hbytes
  have hend : c.ptr + (header.bytes ++ D.bytes).length = c.ptr + 4 + D.bytes.length := by
    rw [List.length_append, Word.bytes_length, Nat.add_assoc]
  rw [hend]
  refine .step (.modify (fun e => e.setInfo fun i => { i with codec_type := type })
    fun _ => rfl) ?_
  rw [if_pos htype]
  refine .step (skipBytes_moves 4) ?_
  exact .of_moves (parseCodecConfigHelper_moves hfit hfuel hbytes) rfl

/-- A leaf is parsed to its effect on the registers. -/
theorem Leaf.demux {l : Leaf} (hfit : l.Fits) {fuel : Nat} (hfuel : l.fuel ≤ fuel)
    (h : Holds m c.ptr l.body) (walk : Nat → Demux Unit) :
    Leaves (demuxBox walk fuel (multiCharConstant l.type) (c.ptr + l.body.length)) m c
      (l.registers c.toRegisters) := by
  cases l with
  | passive type payload =>
      rcases type.property with hskip | hmfhd | hmehd | ⟨hconfig, htype⟩
      · rw [demuxBox, Leaf.type, hskip]
        exact .of_moves (.pure ()) rfl
      · rw [demuxBox, Leaf.type, hmfhd]
        exact parseMovieFragmentHeaderBox_leaves
      · rw [demuxBox, Leaf.type, hmehd]
        exact parseMovieExtendsHeader_leaves
      · rw [demuxBox, Leaf.type, hconfig]
        exact parseCodecConfiguration_passive htype _ _
  | timed box fields =>
      cases box with
      | mvhd =>
          have hkind : boxKind (multiCharConstant TimedBox.mvhd.type) = .mvhd := by decide
          rw [demuxBox, Leaf.type, hkind, registers, ← TimeScaleFields_word h]
          exact parseMovieHeaderBox_leaves
      | mdhd =>
          have hkind : boxKind (multiCharConstant TimedBox.mdhd.type) = .mdhd := by decide
          rw [demuxBox, Leaf.type, hkind, registers, ← TimeScaleFields_word h]
          exact parseMediaHeaderBox_leaves
      | tkhd =>
          have hkind : boxKind (multiCharConstant TimedBox.tkhd.type) = .tkhd := by decide
          rw [demuxBox, Leaf.type, hkind, registers, ← TimeScaleFields_word h]
          exact parseTrackHeader_leaves
  | esds header descriptors =>
      have hkind : boxKind (multiCharConstant ESDS) = .codecConfiguration := by decide
      rw [demuxBox, Leaf.type, hkind]
      exact parseCodecConfiguration_esds hfit rfl hfuel h
  | trex fields =>
      have hkind : boxKind (multiCharConstant (fourcc 't' 'r' 'e' 'x')) = .trex := by decide
      rw [demuxBox, Leaf.type, hkind]
      exact parseTrackExtendsBox_fields h
  | tfhd fields =>
      have hkind : boxKind (multiCharConstant IsoBmff.TFHD) = .tfhd := by decide
      rw [demuxBox, Leaf.type, hkind]
      exact parseTrackFragmentHeaderBox_fields h
  | tfdt fields =>
      have hkind : boxKind (multiCharConstant IsoBmff.TFDT) = .tfdt := by decide
      rw [demuxBox, Leaf.type, hkind]
      exact parseTrackFragmentBaseMediaDecodeTimeBox_fields h
  | trun fields =>
      have hkind : boxKind (multiCharConstant IsoBmff.TRUN) = .trun := by decide
      rw [demuxBox, Leaf.type, hkind]
      exact parseTrackFragmentRunBox_fields fields.property h

/-! ## Nodes -/

/-- The registers the children of a box at address `a` start from. -/
def Frame.registers (a : Nat) : Frame → Registers → Registers
  | moof, r => { r with moof_ptr := a }
  | _, r => r

theorem boxKind_visual {type : FourCC} (h : type ∈ visualEntries) :
    boxKind (multiCharConstant type) = .streamFormat :=
  (by decide : ∀ t ∈ visualEntries, boxKind (multiCharConstant t) = .streamFormat) type h

theorem boxKind_audio {type : FourCC} (h : type ∈ audioEntries) :
    boxKind (multiCharConstant type) = .streamFormat :=
  (by decide : ∀ t ∈ audioEntries, boxKind (multiCharConstant t) = .streamFormat) type h

theorem audio_not_visual {type : FourCC} (h : type ∈ audioEntries) :
    multiCharConstant type ∉ visualEntries.map multiCharConstant :=
  (by decide : ∀ t ∈ audioEntries, multiCharConstant t ∉ visualEntries.map multiCharConstant)
    type h

/-- A node is parsed by reading its head and walking over its children. -/
theorem Frame.demux {f : Frame} {a next fuel : Nat} {walk : Nat → Demux Unit} {r : Registers}
    (ha : c.ptr = a + 8) (h : Holds m c.ptr f.head)
    (hwalk : ∀ e : Cursor, e.ptr = c.ptr + f.head.length →
      e.toRegisters = f.registers a c.toRegisters → Leaves (walk next) m e r) :
    Leaves (demuxBox walk fuel (multiCharConstant f.type) next) m c r := by
  cases f with
  | moof =>
      have hkind : boxKind (multiCharConstant IsoBmff.MOOF) = .moof := by decide
      rw [demuxBox, Frame.type, hkind]
      refine .step (.modify (fun e => { e with moof_ptr := (e.ptr : Int) - 8 }) fun _ => rfl) ?_
      refine hwalk _ rfl ?_
      have hptr : (c.ptr : Int) - 8 = a := by omega
      simp only [registers, hptr]
  | container type =>
      rw [demuxBox, Frame.type, type.property]
      exact hwalk c rfl rfl
  | stsd version flags =>
      have hkind : boxKind (multiCharConstant (fourcc 's' 't' 's' 'd')) = .stsd := by decide
      rw [demuxBox, Frame.type, hkind]
      simp only [head, holds_append, Word.bytes_length] at h
      obtain ⟨-, -, hcount⟩ := h
      have hcount' : m.be (c.ptr + 4) 4 = 1 := Holds.be hcount (by decide)
      refine .step readHeader_moves (.step readU32_moves (.step (assert_moves hcount') ?_))
      exact hwalk _ rfl rfl
  | visual type fields =>
      rw [demuxBox, Frame.type, boxKind_visual type.property]
      have hpad : m.be (c.ptr + 76) 2 = 0xffff := by
        have hlast := (holds_append.mp h).2
        rw [fields.property] at hlast
        exact Holds.be hlast (by decide)
      refine .step (.modify (fun e => e.setInfo fun i =>
        { i with stream_format := multiCharConstant type }) fun _ => rfl) ?_
      rw [if_pos (List.mem_map_of_mem type.property)]
      refine .step (parseVisualEntry_moves hpad) (hwalk _ ?_ rfl)
      simp [head, fields.property]
  | audio type fields =>
      rw [demuxBox, Frame.type, boxKind_audio type.property]
      refine .step (.modify (fun e => e.setInfo fun i =>
        { i with stream_format := multiCharConstant type }) fun _ => rfl) ?_
      rw [if_neg (audio_not_visual type.property), if_pos (List.mem_map_of_mem type.property)]
      refine .step parseAudioEntry_moves (hwalk _ ?_ rfl)
      simp [head, fields.property]

/-! ## Forests -/

/-- One pass over boxes that start at address `a`, in document order. -/
def Boxes.registers : Boxes → Nat → Registers → Registers
  | nil, _, r => r
  | leaf box rest, a, r =>
      rest.registers (a + (boxBytes box.type box.body).length) (box.registers r)
  | node frame children rest, a, r =>
      rest.registers (a + (boxBytes frame.type (frame.head ++ children.bytes)).length)
        (children.registers (a + 8 + frame.head.length) (frame.registers a r))

/-- Enough fuel for the walk over boxes. -/
def Boxes.fuel : Boxes → Nat
  | nil => 1
  | leaf box rest => 1 + box.fuel + rest.fuel
  | node _ children rest => 1 + children.fuel + rest.fuel

theorem boxBytes_length (type : FourCC) (body : Bytes) :
    (boxBytes type body).length = 8 + body.length := by
  simp [boxBytes, FourCC.bytes]
  omega

/-- One pass of the loop of `demuxHelper`, over a serialised box. -/
theorem demuxHelper_box {fuel fin : Nat} {type : FourCC} {body : Bytes} {r r' : Registers}
    (hsize : 8 + body.length < 2 ^ 32) (h : Holds m c.ptr (boxBytes type body))
    (hfin : c.ptr + 8 + body.length ≤ fin)
    (hbox : Leaves (demuxBox (demuxHelper fuel) fuel (multiCharConstant type)
      (c.ptr + 8 + body.length)) m (c.seek (c.ptr + 8)) r)
    (hrest : ∀ e : Cursor, e.ptr = c.ptr + 8 + body.length → e.toRegisters = r →
      Leaves (demuxHelper fuel fin) m e r') :
    Leaves (demuxHelper (fuel + 1) fin) m c r' := by
  obtain ⟨hsizeWord, htypeBody⟩ := holds_append.mp h
  have htypeWord := (holds_append.mp htypeBody).1
  rw [beBytes_length] at htypeWord
  have hsize' : m.be c.ptr 4 = 8 + body.length := Holds.be hsizeWord hsize
  have htype' : m.be (c.ptr + 4) 4 = multiCharConstant type := by
    have hslice : m.slice (c.ptr + 4) 4 = type.bytes := htypeWord.slice
    rw [Mem.be, hslice, be_fourCC]
  refine .get fun d hd => ?_
  have hptr : d.ptr = c.ptr := congrArg Cursor.ptr hd
  rw [if_pos (by omega)]
  refine .step readU32_moves (.get fun e he => ?_)
  have heptr : e.ptr = c.ptr + 4 := congrArg Cursor.ptr he
  have hnext : e.ptr + m.be c.ptr 4 - 4 = c.ptr + 8 + body.length := by omega
  dsimp only
  rw [hnext]
  refine .step readU32_moves ?_
  rw [Cursor.seek_ptr, htype']
  refine hbox.bind fun f hf => ?_
  exact .step (.modify (fun e => Cursor.seek e (c.ptr + 8 + body.length)) fun _ => rfl)
    (hrest _ rfl hf)

/-- On the bytes of a forest the walk returns with the registers of one pass over it. -/
theorem demuxHelper_boxes {F : Boxes} (hfit : F.Fits) {fuel : Nat} (hfuel : F.fuel ≤ fuel)
    (h : Holds m c.ptr F.bytes) :
    Leaves (demuxHelper fuel (c.ptr + F.bytes.length)) m c
      (F.registers c.ptr c.toRegisters) := by
  induction F generalizing fuel c with
  | nil =>
      obtain ⟨fuel, rfl⟩ : ∃ f, fuel = f + 1 := Nat.exists_eq_add_one.mpr hfuel
      refine .get fun d hd => ?_
      have hptr : ¬ d.ptr < c.ptr + 0 := by
        rw [show d.ptr = c.ptr from congrArg Cursor.ptr hd]
        omega
      rw [Boxes.bytes, List.length_nil, if_neg hptr]
      exact .of_moves (.pure ()) rfl
  | leaf box rest ih =>
      obtain ⟨hsize, hbox, hrest⟩ := hfit
      simp only [Boxes.fuel] at hfuel
      obtain ⟨fuel, rfl⟩ : ∃ f, fuel = f + 1 := Nat.exists_eq_add_one.mpr (by omega)
      obtain ⟨hbytes, htail⟩ := holds_append.mp h
      have hlen := boxBytes_length box.type box.body
      have hbody : Holds m (c.ptr + 8) box.body := (holds_append.mp (holds_append.mp hbytes).2).2
      have hfin : c.ptr + (Boxes.leaf box rest).bytes.length =
          c.ptr + 8 + box.body.length + rest.bytes.length := by
        rw [Boxes.bytes, List.length_append, hlen]
        omega
      have hnext : c.ptr + (boxBytes box.type box.body).length =
          c.ptr + 8 + box.body.length := by omega
      rw [hnext] at htail
      rw [hfin, Boxes.registers, hnext]
      refine demuxHelper_box hsize hbytes (by omega)
        (Leaf.demux hbox (by omega) hbody (demuxHelper fuel)) fun e he hr => ?_
      rw [← he] at htail ⊢
      rw [show c.toRegisters = (c.seek (c.ptr + 8)).toRegisters from rfl, ← hr]
      exact ih hrest (by omega) htail
  | node frame children rest ihc ihr =>
      obtain ⟨hsize, hchildren, hrest⟩ := hfit
      simp only [Boxes.fuel] at hfuel
      obtain ⟨fuel, rfl⟩ : ∃ f, fuel = f + 1 := Nat.exists_eq_add_one.mpr (by omega)
      obtain ⟨hbytes, htail⟩ := holds_append.mp h
      have hlen := boxBytes_length frame.type (frame.head ++ children.bytes)
      have hbody : Holds m (c.ptr + 8) (frame.head ++ children.bytes) :=
        (holds_append.mp (holds_append.mp hbytes).2).2
      obtain ⟨hhead, hinner⟩ := holds_append.mp hbody
      have hfin : c.ptr + (Boxes.node frame children rest).bytes.length =
          c.ptr + 8 + (frame.head ++ children.bytes).length + rest.bytes.length := by
        rw [Boxes.bytes, List.length_append, hlen]
        omega
      have hnext : c.ptr + (boxBytes frame.type (frame.head ++ children.bytes)).length =
          c.ptr + 8 + (frame.head ++ children.bytes).length := by omega
      have hinnerEnd : c.ptr + 8 + (frame.head ++ children.bytes).length =
          c.ptr + 8 + frame.head.length + children.bytes.length := by
        rw [List.length_append, Nat.add_assoc (c.ptr + 8)]
      rw [hnext] at htail
      rw [hfin, Boxes.registers, hnext]
      refine demuxHelper_box (r := children.registers (c.ptr + 8 + frame.head.length)
        (frame.registers c.ptr c.toRegisters)) hsize hbytes (by omega)
        (Frame.demux (Cursor.seek_ptr c (c.ptr + 8)) hhead fun e he hr => ?_) fun e he hr => ?_
      · rw [Cursor.seek_ptr] at he
        rw [Cursor.seek_toRegisters] at hr
        rw [hinnerEnd, ← hr]
        rw [← he] at hinner ⊢
        exact ihc hchildren (by omega) hinner
      · rw [← he] at htail ⊢
        rw [← hr]
        exact ihr hrest (by omega) htail

end PlayerInterface.Mp4Demux
