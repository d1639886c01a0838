import PlayerInterface.Mp4Demux.Layout

/-!
# What the readers of the demuxer return

One lemma for each reader and for each parser of a box, for any memory: where
the cursor is behind it and what it leaves in the members a sample depends on.
-/

namespace PlayerInterface.Mp4Demux

open PlayerInterface.Core Program

/-! ## Views of the members -/

/-- What a sample takes over when its run does not say otherwise. -/
structure SampleDefaults where
  timescale : Nat
  default_sample_duration : Nat
  default_sample_size : Nat
deriving DecidableEq, Repr

/-- The members the samples of a fragment depend on. -/
structure Registers extends SampleDefaults where
  samples : List Mp4Sample
  moof_ptr : Int
  track_id : Nat
  baseMediaDecodeTime : Nat
deriving DecidableEq, Repr

/-- The registers with the cursor, the header of the box read last and the codec information. -/
structure Cursor extends Registers where
  ptr : Nat
  version : Nat
  flags : Nat
  info : InitializationHeaderInfo
deriving DecidableEq, Repr

def Demuxer.cursor (d : Demuxer) : Cursor where
  samples := d.samples
  moof_ptr := d.moof_ptr
  track_id := d.track_id
  timescale := d.timescale
  baseMediaDecodeTime := d.baseMediaDecodeTime
  default_sample_duration := d.default_sample_duration
  default_sample_size := d.default_sample_size
  ptr := d.ptr
  version := d.version
  flags := d.flags
  info := d.info

def Cursor.seek (c : Cursor) (p : Nat) : Cursor := { c with ptr := p }

@[simp] theorem Cursor.seek_ptr (c : Cursor) (p : Nat) : (c.seek p).ptr = p := rfl

@[simp] theorem Cursor.seek_seek (c : Cursor) (p q : Nat) : (c.seek p).seek q = c.seek q := rfl

@[simp] theorem Cursor.seek_toRegisters (c : Cursor) (p : Nat) :
    (c.seek p).toRegisters = c.toRegisters := rfl

@[simp] theorem Cursor.seek_version (c : Cursor) (p : Nat) : (c.seek p).version = c.version := rfl

@[simp] theorem Cursor.seek_flags (c : Cursor) (p : Nat) : (c.seek p).flags = c.flags := rfl

def Cursor.setInfo (c : Cursor) (f : InitializationHeaderInfo → InitializationHeaderInfo) :
    Cursor :=
  { c with info := f c.info }

@[simp] theorem Cursor.setInfo_ptr (c : Cursor)
    (f : InitializationHeaderInfo → InitializationHeaderInfo) : (c.setInfo f).ptr = c.ptr := rfl

@[simp] theorem Cursor.setInfo_info (c : Cursor)
    (f : InitializationHeaderInfo → InitializationHeaderInfo) :
    (c.setInfo f).info = f c.info := rfl

@[simp] theorem Cursor.seek_info (c : Cursor) (p : Nat) : (c.seek p).info = c.info := rfl

/-- Moving the cursor and changing the codec information do not interfere. -/
theorem Cursor.setInfo_seek (c : Cursor) (p : Nat)
    (f : InitializationHeaderInfo → InitializationHeaderInfo) :
    (c.seek p).setInfo f = (c.setInfo f).seek p := rfl

theorem Cursor.setInfo_setInfo (c : Cursor)
    (f g : InitializationHeaderInfo → InitializationHeaderInfo) :
    (c.setInfo f).setInfo g = c.setInfo fun i => g (f i) := rfl

/-- A run as the cursor shows it. -/
abbrev Moves {α : Type} (x : Demux α) (m : Mem) (c : Cursor) (a : α) (c' : Cursor) : Prop :=
  Yields Demuxer.cursor x m c a c'

variable {m : Mem} {c c' : Cursor}

/-! ## Words -/

theorem mul_two_pow_or {a b i : Nat} (h : b < 2 ^ i) : a * 2 ^ i ||| b = a * 2 ^ i + b := by
  rw [Nat.mul_comm, ← Nat.two_pow_add_eq_or_of_lt h a]

/-- A word that is short enough loses no byte when it is shifted together. -/
theorem foldl_shift {k : Nat} (bs : Bytes) (hk : k + bs.length ≤ 8) {rc : Nat} (h : rc < 256 ^ k) :
    bs.foldl (fun rc octet => (rc <<< 8) % 2 ^ 64 ||| octet.toNat) rc =
      bs.foldl (fun rc octet => rc * 256 + octet.toNat) rc := by
  induction bs generalizing k rc with
  | nil => rfl
  | cons b bs ih =>
      rw [List.length_cons] at hk
      have hb : b.toNat < 2 ^ 8 := b.toNat_lt
      have hnext : rc * 256 + b.toNat < 256 ^ (k + 1) := by
        rw [Nat.pow_succ]
        omega
      have hbound : 256 ^ (k + 1) ≤ 256 ^ 8 := Nat.pow_le_pow_right (by decide) (by omega)
      have hfit : rc * 2 ^ 8 < 2 ^ 64 :=
        Nat.lt_of_lt_of_le (Nat.lt_of_le_of_lt (Nat.le_add_right _ b.toNat) hnext) hbound
      have hshift : (rc <<< 8) % 2 ^ 64 ||| b.toNat = rc * 2 ^ 8 + b.toNat := by
        rw [Nat.shiftLeft_eq, Nat.mod_eq_of_lt hfit, mul_two_pow_or hb]
      have hstep : (rc <<< 8) % 2 ^ 64 ||| b.toNat = rc * 256 + b.toNat := hshift
      rw [List.foldl_cons, List.foldl_cons, hstep, ih (by omega) hnext]

/-! ## Readers -/

def Demuxer.seek (d : Demuxer) (p : Nat) : Demuxer := { d with ptr := p }

def matrixAt (m : Mem) : Nat → Nat → List Int
  | 0, _ => []
  | count + 1, p => Int.bmod (m.be p 4) (2 ^ 32) :: matrixAt m count (p + 4)

section
variable (m : Mem) (d : Demuxer)

theorem readBytes_run {n : Nat} (h : n ≤ 8) :
    readBytes n m d = .ok (m.be d.ptr n, d.seek (d.ptr + n)) := by
  have hfold := foldl_shift (m.slice d.ptr n) (by simpa using h) (by decide : 0 < 256 ^ 0)
  rw [readBytes, hfold, foldl_be, Nat.zero_mul, Nat.zero_add]
  rfl

theorem readU8_run : readU8 m d = .ok (m.be d.ptr 1, d.seek (d.ptr + 1)) := by
  rw [m.be_one]
  rfl

theorem readU16_run : readU16 m d = .ok (m.be d.ptr 2, d.seek (d.ptr + 2)) := by
  have hmod : m.be d.ptr 2 % 2 ^ 16 = m.be d.ptr 2 := Nat.mod_eq_of_lt (m.be_lt d.ptr 2)
  rw [readU16, bind_ok (readBytes_run m d (by decide)), hmod]
  rfl

theorem readU32_run : readU32 m d = .ok (m.be d.ptr 4, d.seek (d.ptr + 4)) := by
  have hmod : m.be d.ptr 4 % 2 ^ 32 = m.be d.ptr 4 := Nat.mod_eq_of_lt (m.be_lt d.ptr 4)
  rw [readU32, bind_ok (readBytes_run m d (by decide)), hmod]
  rfl

theorem readI32_run :
    readI32 m d = .ok (Int.bmod (m.be d.ptr 4) (2 ^ 32), d.seek (d.ptr + 4)) := by
  rw [readI32, bind_ok (readBytes_run m d (by decide))]
  rfl

theorem readMatrix_run (count : Nat) :
    readMatrix count m d = .ok (matrixAt m count d.ptr, d.seek (d.ptr + 4 * count)) := by
  induction count generalizing d with
  | zero => rfl
  | succ count ih =>
      have hend : d.ptr + 4 * (count + 1) = d.ptr + 4 + 4 * count := by omega
      rw [readMatrix, bind_ok (readI32_run m d), bind_ok (ih _), hend]
      rfl

theorem readHeader_run :
    readHeader m d = .ok ((),
      { d with version := m.be d.ptr 1, flags := m.be (d.ptr + 1) 3, ptr := d.ptr + 4 }) := by
  rw [readHeader, bind_ok (readU8_run m d), bind_ok (readBytes_run m _ (by decide))]
  rfl

variable {m d}

theorem assign_run {read : Demux Nat} {v : Nat} {d' : Demuxer} (h : read m d = .ok (v, d'))
    (set : Nat → Demuxer → Demuxer) : assign read set m d = .ok ((), set v d') := bind_ok h _

end

theorem readBytes_moves {n : Nat} (h : n ≤ 8) :
    Moves (readBytes n) m c (m.be c.ptr n) (c.seek (c.ptr + n)) := by
  rintro d rfl
  exact ⟨_, readBytes_run m d h, rfl⟩

theorem readU16_moves : Moves readU16 m c (m.be c.ptr 2) (c.seek (c.ptr + 2)) := by
  rintro d rfl
  exact ⟨_, readU16_run m d, rfl⟩

theorem readU8_moves : Moves readU8 m c (m.be c.ptr 1) (c.seek (c.ptr + 1)) := by
  rintro d rfl
  exact ⟨_, readU8_run m d, rfl⟩

theorem readU32_moves : Moves readU32 m c (m.be c.ptr 4) (c.seek (c.ptr + 4)) := by
  rintro d rfl
  exact ⟨_, readU32_run m d, rfl⟩

theorem readI32_moves :
    Moves readI32 m c (Int.bmod (m.be c.ptr 4) (2 ^ 32)) (c.seek (c.ptr + 4)) := by
  rintro d rfl
  exact ⟨_, readI32_run m d, rfl⟩

theorem readU64_moves : Moves readU64 m c (m.be c.ptr 8) (c.seek (c.ptr + 8)) :=
  readBytes_moves (by decide)

theorem skipBytes_moves (len : Nat) : Moves (skipBytes len) m c () (c.seek (c.ptr + len)) :=
  .modify (fun c : Cursor => c.seek (c.ptr + len)) fun _ => rfl

/-- The cursor behind the header of a full box. -/
def Cursor.enter (c : Cursor) (version flags : Nat) : Cursor :=
  { c with version := version, flags := flags, ptr := c.ptr + 4 }

@[simp] theorem Cursor.enter_ptr (c : Cursor) (version flags : Nat) :
    (c.enter version flags).ptr = c.ptr + 4 := rfl

@[simp] theorem Cursor.enter_version (c : Cursor) (version flags : Nat) :
    (c.enter version flags).version = version := rfl

@[simp] theorem Cursor.enter_flags (c : Cursor) (version flags : Nat) :
    (c.enter version flags).flags = flags := rfl

@[simp] theorem Cursor.enter_toRegisters (c : Cursor) (version flags : Nat) :
    (c.enter version flags).toRegisters = c.toRegisters := rfl

theorem readHeader_moves :
    Moves readHeader m c () (c.enter (m.be c.ptr 1) (m.be (c.ptr + 1) 3)) := by
  rintro d rfl
  exact ⟨_, readHeader_run m d, rfl⟩

/-- Assigning a member that the view does not show only moves the cursor. -/
theorem assign_moves {read : Demux Nat} {v : Nat} (h : Moves read m c v c')
    {set : Nat → Demuxer → Demuxer} (hset : ∀ d, (set v d).cursor = d.cursor) :
    Moves (assign read set) m c () c' :=
  h.bind (.modify id hset)

theorem assign_register {read : Demux Nat} {v : Nat} (h : Moves read m c v c')
    {set : Nat → Demuxer → Demuxer} (g : Cursor → Cursor)
    (hset : ∀ d, (set v d).cursor = g d.cursor) : Moves (assign read set) m c () (g c') :=
  h.bind (.modify g hset)

theorem assert_moves {p : Prop} [Decidable p] (h : p) : Moves (assert p) m c () c := by
  rw [assert, if_pos h]
  exact .pure ()

theorem timeSize_le (version : Nat) : timeSize version ≤ 8 := by
  unfold timeSize
  split <;> omega

theorem readMatrix_moves (count : Nat) :
    Moves (readMatrix count) m c (matrixAt m count c.ptr) (c.seek (c.ptr + 4 * count)) := by
  rintro d rfl
  exact ⟨_, readMatrix_run m d count, rfl⟩

/-! ## Boxes that read a fixed layout -/

/-- `x` returns from every state at `c` and leaves the registers `r`. -/
def Leaves (x : Demux Unit) (m : Mem) (c : Cursor) (r : Registers) : Prop :=
  ∀ d, d.cursor = c → ∃ d', x m d = .ok ((), d') ∧ d'.cursor.toRegisters = r

namespace Leaves

variable {α : Type} {r : Registers}

theorem of_moves {x : Demux Unit} (h : Moves x m c () c') (hr : c'.toRegisters = r) :
    Leaves x m c r := by
  intro d hd
  obtain ⟨d', hd', hc'⟩ := h d hd
  exact ⟨d', hd', by rw [hc', hr]⟩

theorem step {x : Demux α} {a : α} {f : α → Demux Unit} (hx : Moves x m c a c')
    (hf : Leaves (f a) m c' r) : Leaves (x >>= f) m c r := by
  intro d hd
  obtain ⟨d', hd', hc'⟩ := hx d hd
  obtain ⟨d'', hd'', hr⟩ := hf d' hc'
  exact ⟨d'', by rw [bind_ok hd', hd''], hr⟩

theorem bind {x : Demux Unit} {f : Unit → Demux Unit} {r' : Registers} (hx : Leaves x m c r)
    (hf : ∀ c', c'.toRegisters = r → Leaves (f ()) m c' r') : Leaves (x >>= f) m c r' := by
  intro d hd
  obtain ⟨d', hd', hr⟩ := hx d hd
  obtain ⟨d'', hd'', hr'⟩ := hf d'.cursor hr d' rfl
  exact ⟨d'', by rw [bind_ok hd', hd''], hr'⟩

theorem get {f : Demuxer → Demux Unit} (h : ∀ d, d.cursor = c → Leaves (f d) m c r) :
    Leaves (MonadState.get >>= f) m c r :=
  fun d hd => h d hd d hd

end Leaves

theorem parseMovieFragmentHeaderBox_leaves :
    Leaves parseMovieFragmentHeaderBox m c c.toRegisters :=
  .step readHeader_moves (.step readU32_moves (.of_moves (.pure ()) rfl))

theorem parseMovieExtendsHeader_leaves : Leaves parseMovieExtendsHeader m c c.toRegisters :=
  .step readHeader_moves (.of_moves (assign_moves readU32_moves fun _ => rfl) rfl)

theorem parseTrackExtendsBox_leaves :
    Leaves parseTrackExtendsBox m c
      { c.toRegisters with
        track_id := m.be (c.ptr + 4) 4, default_sample_duration := m.be (c.ptr + 12) 4
        default_sample_size := m.be (c.ptr + 16) 4 } := by
  refine .step readHeader_moves ?_
  refine .step (assign_register readU32_moves
    (fun e => { e with track_id := m.be (c.ptr + 4) 4 }) fun _ => rfl) ?_
  refine .step (assign_moves readU32_moves fun _ => rfl) ?_
  refine .step (assign_register readU32_moves
    (fun e => { e with default_sample_duration := m.be (c.ptr + 12) 4 }) fun _ => rfl) ?_
  refine .step (assign_register readU32_moves
    (fun e => { e with default_sample_size := m.be (c.ptr + 16) 4 }) fun _ => rfl) ?_
  exact .of_moves (assign_moves readU32_moves fun _ => rfl) rfl

theorem parseTrackFragmentBaseMediaDecodeTimeBox_leaves :
    Leaves parseTrackFragmentBaseMediaDecodeTimeBox m c
      { c.toRegisters with
        baseMediaDecodeTime := m.be (c.ptr + 4) (timeSize (m.be c.ptr 1)) } := by
  refine .step readHeader_moves (.get fun d hd => ?_)
  have hversion : d.version = m.be c.ptr 1 := congrArg Cursor.version hd
  rw [hversion]
  exact .of_moves (assign_register (readBytes_moves (timeSize_le _))
    (fun e => { e with baseMediaDecodeTime := m.be (c.ptr + 4) (timeSize (m.be c.ptr 1)) })
    fun _ => rfl) rfl

/-- Where the word behind the two time words lies. -/
def behindTimes (m : Mem) (p : Nat) : Nat := p + 4 + timeSize (m.be p 1) + timeSize (m.be p 1)

theorem parseMovieHeaderBox_leaves :
    Leaves parseMovieHeaderBox m c
      { c.toRegisters with timescale := m.be (behindTimes m c.ptr) 4 } := by
  refine .step readHeader_moves (.get fun d hd => ?_)
  have hversion : d.version = m.be c.ptr 1 := congrArg Cursor.version hd
  rw [hversion]
  refine .step (assign_moves (readBytes_moves (timeSize_le _)) fun _ => rfl) ?_
  refine .step (assign_moves (readBytes_moves (timeSize_le _)) fun _ => rfl) ?_
  refine .step (assign_register readU32_moves
    (fun e => { e with timescale := m.be (behindTimes m c.ptr) 4 }) fun _ => rfl) ?_
  refine .step (assign_moves readU32_moves fun _ => rfl) ?_
  refine .step (assign_moves readU32_moves fun _ => rfl) ?_
  refine .step (assign_moves readU32_moves fun _ => rfl) ?_
  refine .step (skipBytes_moves 8) (.step (readMatrix_moves 9) ?_)
  exact .of_moves (.modify id fun _ => rfl) rfl

theorem parseMediaHeaderBox_leaves :
    Leaves parseMediaHeaderBox m c
      { c.toRegisters with timescale := m.be (behindTimes m c.ptr) 4 } := by
  refine .step readHeader_moves (.get fun d hd => ?_)
  have hversion : d.version = m.be c.ptr 1 := congrArg Cursor.version hd
  rw [hversion]
  refine .step (assign_moves (readBytes_moves (timeSize_le _)) fun _ => rfl) ?_
  refine .step (assign_moves (readBytes_moves (timeSize_le _)) fun _ => rfl) ?_
  refine .step (assign_register readU32_moves
    (fun e => { e with timescale := m.be (behindTimes m c.ptr) 4 }) fun _ => rfl) ?_
  refine .step (assign_moves readU32_moves fun _ => rfl) ?_
  exact .of_moves (assign_moves readU16_moves fun _ => rfl) rfl

theorem parseTrackHeader_leaves :
    Leaves parseTrackHeader m c
      { c.toRegisters with track_id := m.be (behindTimes m c.ptr) 4 } := by
  refine .step readHeader_moves (.get fun d hd => ?_)
  have hversion : d.version = m.be c.ptr 1 := congrArg Cursor.version hd
  rw [hversion]
  refine .step (assign_moves (readBytes_moves (timeSize_le _)) fun _ => rfl) ?_
  refine .step (assign_moves (readBytes_moves (timeSize_le _)) fun _ => rfl) ?_
  refine .step (assign_register readU32_moves
    (fun e => { e with track_id := m.be (behindTimes m c.ptr) 4 }) fun _ => rfl) ?_
  refine .step (skipBytes_moves _) (.step (readMatrix_moves 9) ?_)
  refine .step (.modify id fun _ => rfl) ?_
  refine .step (assign_moves readU32_moves fun _ => rfl) ?_
  exact .of_moves (assign_moves readU32_moves fun _ => rfl) rfl

end PlayerInterface.Mp4Demux
