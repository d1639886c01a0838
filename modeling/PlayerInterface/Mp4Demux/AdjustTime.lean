import PlayerInterface.Mp4Demux.Reading
import PlayerInterface.IsoBmff.Serialise

/-!
# Restamping the base media decode time

`mp4AdjustMediaDecodeTime` walks the boxes of a segment down to the first `tfdt`
box and adds a delta to its time. The time it stores is also what tells the
loops above that they are done, so a time of zero sends them on.
-/

namespace PlayerInterface.Mp4Demux.AdjustTime

open PlayerInterface.Core
open PlayerInterface.IsoBmff (fourcc timeWidth boxBytes)

/-! ## The code -/

def readBytes (m : Mem) (ptr n : Nat) : Nat :=
  (m.slice ptr n).foldl (fun rc octet => (rc <<< 8) % 2 ^ 64 ||| octet.toNat) 0

/-- The last byte first. -/
def writeBytes (m : Mem) (ptr : Nat) : Nat → Nat → Mem
  | 0, _ => m
  | n + 1, value => writeBytes (m.write (ptr + n) [UInt8.ofNat (value &&& 0xff)]) ptr n (value >>> 8)

def TFDT : Nat := multiCharConstant (fourcc 't' 'f' 'd' 't')

/-- The boxes the walk goes into. -/
def parentTypes : List Nat :=
  [fourcc 't' 'r' 'a' 'f', fourcc 'm' 'o' 'o' 'v', fourcc 't' 'r' 'a' 'k',
    fourcc 'm' 'i' 'n' 'f', fourcc 'd' 'i' 'n' 'f', fourcc 's' 't' 'b' 'l',
    fourcc 'm' 'v' 'e' 'x', fourcc 'm' 'o' 'o' 'f', fourcc 'm' 'd' 'i' 'a'].map multiCharConstant

/-- The loop from `ptr` to `fin`, which a call computes as `&ptr[len]`: for the call on
the children, whose `len` is `next - ptr`, that is `next`. -/
def mp4AdjustMediaDecodeTime (pts_restamp_delta : Int) :
    Nat → Mem → Nat → Nat → Option (Nat × Mem)
  | 0, _, _, _ => none
  | fuel + 1, m, ptr, fin =>
      if ptr < fin then
        let next := ptr + readBytes m ptr 4 % 2 ^ 32
        let type := readBytes m (ptr + 4) 4 % 2 ^ 32
        if type = TFDT then
          let version := (m (ptr + 8)).toNat
          let sz := timeSize version
          let baseMediaDecodeTime :=
            ((readBytes m (ptr + 12) sz + pts_restamp_delta) % 2 ^ 64).toNat
          some (baseMediaDecodeTime, writeBytes m (ptr + 12) sz baseMediaDecodeTime)
        else if type ∈ parentTypes then do
          let (baseMediaDecodeTime, m) ←
            mp4AdjustMediaDecodeTime pts_restamp_delta fuel m (ptr + 8) next
          if baseMediaDecodeTime = 0 then
            mp4AdjustMediaDecodeTime pts_restamp_delta fuel m next fin
          else some (baseMediaDecodeTime, m)
        else mp4AdjustMediaDecodeTime pts_restamp_delta fuel m next fin
      else some (0, m)

/-! ## Reading and writing -/

theorem readBytes_eq (m : Mem) (ptr : Nat) {n : Nat} (h : n ≤ 8) : readBytes m ptr n = m.be ptr n := by
  have hfold := foldl_shift (m.slice ptr n) (by simpa using h) (by decide : 0 < 256 ^ 0)
  rw [readBytes, hfold, foldl_be, Nat.zero_mul, Nat.zero_add]
  rfl

theorem readWord_eq (m : Mem) (ptr : Nat) : readBytes m ptr 4 % 2 ^ 32 = m.be ptr 4 := by
  rw [readBytes_eq m ptr (by decide)]
  exact Nat.mod_eq_of_lt (m.be_lt ptr 4)

theorem writeBytes_eq (m : Mem) (ptr n value : Nat) :
    writeBytes m ptr n value = m.write ptr (beBytes n value) := by
  induction n generalizing m value with
  | zero => exact (m.write_nil ptr).symm
  | succ n ih =>
      have hbyte : UInt8.ofNat (value &&& 0xff) = UInt8.ofNat value := by
        rw [Nat.and_two_pow_sub_one_eq_mod value 8]
        exact UInt8.toNat_inj.mp (by simp)
      rw [writeBytes, ih, beBytes_add n 1, Mem.write_append, beBytes_length, Nat.shiftRight_eq_div_pow,
        hbyte]
      simp [beBytes]

/-! ## Segments -/

/-- A type the walk passes over. -/
abbrev OtherType := { t : Nat // t ≠ TFDT ∧ t ∉ parentTypes }

abbrev ParentType := { t : Nat // t ∈ parentTypes }

/-- How the boxes of a segment lie behind each other and inside each other. -/
inductive Segment where
  | nil
  | other (type : OtherType) (payload : Nat) (rest : Segment)
  | tfdt (version1 : Bool) (rest : Segment)
  | parent (type : ParentType) (children rest : Segment)

/-- A time word that a walk comes to. -/
structure Stamp where
  pos : Nat
  width : Nat

namespace Segment

def length : Segment → Nat
  | nil => 0
  | other _ payload rest => 8 + payload + rest.length
  | tfdt version1 rest => 12 + timeWidth version1 + rest.length
  | parent _ children rest => 8 + children.length + rest.length

/-- The memory holds boxes of these exact sizes from `a` on; what they carry is arbitrary. -/
def Lies (m : Mem) : Nat → Segment → Prop
  | _, nil => True
  | a, other type payload rest =>
      m.be a 4 = 8 + payload ∧ m.be (a + 4) 4 = type ∧ rest.Lies m (a + (8 + payload))
  | a, tfdt version1 rest =>
      m.be a 4 = 12 + timeWidth version1 ∧ m.be (a + 4) 4 = TFDT ∧
        (m (a + 8)).toNat = (if version1 then 1 else 0) ∧
          rest.Lies m (a + (12 + timeWidth version1))
  | a, parent type children rest =>
      m.be a 4 = 8 + children.length ∧ m.be (a + 4) 4 = type ∧ children.Lies m (a + 8) ∧
        rest.Lies m (a + (8 + children.length))

instance decidableLies (m : Mem) : (a : Nat) → (F : Segment) → Decidable (F.Lies m a)
  | _, nil => inferInstanceAs (Decidable True)
  | a, other _ payload rest =>
      have := decidableLies m (a + (8 + payload)) rest
      inferInstanceAs (Decidable (_ ∧ _ ∧ _))
  | a, tfdt version1 rest =>
      have := decidableLies m (a + (12 + timeWidth version1)) rest
      inferInstanceAs (Decidable (_ ∧ _ ∧ _ ∧ _))
  | a, parent _ children rest =>
      have := decidableLies m (a + 8) children
      have := decidableLies m (a + (8 + children.length)) rest
      inferInstanceAs (Decidable (_ ∧ _ ∧ _ ∧ _))

/-- The time words a walk comes to when it is sent on by each: it leaves the loop that
has found a `tfdt` box, not those above. -/
def stamps : Nat → Segment → List Stamp
  | _, nil => []
  | a, other _ payload rest => rest.stamps (a + (8 + payload))
  | a, tfdt version1 _ => [⟨a + 12, timeWidth version1⟩]
  | a, parent _ children rest =>
      children.stamps (a + 8) ++ rest.stamps (a + (8 + children.length))

/-- Enough fuel for the walk. -/
def fuel : Segment → Nat
  | nil => 1
  | other _ _ rest => 1 + rest.fuel
  | tfdt _ rest => 1 + rest.fuel
  | parent _ children rest => 1 + children.fuel + rest.fuel

end Segment

/-! ## Stamping -/

namespace Stamp

def value (s : Stamp) (m : Mem) : Nat := m.be s.pos s.width

def put (s : Stamp) (m : Mem) (time : Nat) : Mem := m.write s.pos (beBytes s.width time)

/-- The 64-bit sum of a time word and the delta. -/
def moved (s : Stamp) (delta : Int) (m : Mem) : Nat := ((s.value m + delta) % 2 ^ 64).toNat

end Stamp

/-- Time words are stamped one after the other until a sum is not zero. -/
def stampAll (delta : Int) : List Stamp → Mem → Nat × Mem
  | [], m => (0, m)
  | s :: later, m =>
      if s.moved delta m = 0 then stampAll delta later (s.put m 0)
      else (s.moved delta m, s.put m (s.moved delta m))

theorem stampAll_append (delta : Int) (xs ys : List Stamp) (m : Mem) :
    stampAll delta (xs ++ ys) m =
      if (stampAll delta xs m).1 = 0 then stampAll delta ys (stampAll delta xs m).2
      else stampAll delta xs m := by
  induction xs generalizing m with
  | nil => rfl
  | cons s xs ih =>
      rw [List.cons_append, stampAll, stampAll]
      by_cases hzero : s.moved delta m = 0
      · rw [if_pos hzero, if_pos hzero, ih]
      · rw [if_neg hzero, if_neg hzero]
        exact (if_neg hzero).symm

/-- All cells outside the time words stay. -/
theorem stampAll_frame (delta : Int) (stamps : List Stamp) (m : Mem) {i : Nat}
    (h : ∀ s ∈ stamps, i < s.pos ∨ s.pos + s.width ≤ i) : (stampAll delta stamps m).2 i = m i := by
  induction stamps generalizing m with
  | nil => rfl
  | cons s later ih =>
      have hput : ∀ time, s.put m time i = m i := fun time =>
        Mem.write_outside (by rw [beBytes_length]; exact h s List.mem_cons_self)
      rw [stampAll]
      split
      · rw [ih _ fun t ht => h t (List.mem_cons_of_mem s ht), hput]
      · exact hput _

namespace Segment

/-- Time words lie inside the segment. -/
theorem stamps_inside {F : Segment} {a : Nat} {s : Stamp} (h : s ∈ F.stamps a) :
    a + 12 ≤ s.pos ∧ s.pos + s.width ≤ a + F.length := by
  induction F generalizing a with
  | nil => cases h
  | other type payload rest ih =>
      have := ih h
      simp only [length]
      omega
  | tfdt version1 rest =>
      obtain rfl := List.mem_singleton.mp h
      simp only [length]
      omega
  | parent type children rest ihc ihr =>
      simp only [length]
      rcases List.mem_append.mp h with h | h
      · have := ihc h
        omega
      · have := ihr h
        omega

/-- A segment still lies there when only its time words have changed. -/
theorem Lies.congr {F : Segment} {a : Nat} {m m' : Mem} (h : F.Lies m a)
    (hcells : ∀ i, a ≤ i → i < a + F.length →
      (∀ s ∈ F.stamps a, i < s.pos ∨ s.pos + s.width ≤ i) → m i = m' i) : F.Lies m' a := by
  induction F generalizing a with
  | nil => trivial
  | other type payload rest ih =>
      obtain ⟨hsize, htype, hrest⟩ := h
      simp only [length, stamps] at hcells
      have hhead : ∀ i, a ≤ i → i < a + 8 → m i = m' i := fun i hi hlt =>
        hcells i hi (by omega) fun s hs => by
          have := stamps_inside hs
          omega
      refine ⟨?_, ?_, ih hrest fun i hi hlt hout => hcells i (by omega) (by omega) hout⟩
      · rw [← Mem.be_congr fun i hi hlt => hhead i hi (by omega), hsize]
      · rw [← Mem.be_congr fun i hi hlt => hhead i (by omega) (by omega), htype]
  | tfdt version1 rest ih =>
      obtain ⟨hsize, htype, hversion, hrest⟩ := h
      simp only [length, stamps, List.forall_mem_singleton] at hcells
      have hhead : ∀ i, a ≤ i → i < a + 12 → m i = m' i := fun i hi hlt =>
        hcells i hi (by omega) (.inl hlt)
      refine ⟨?_, ?_, ?_, ih hrest fun i hi hlt _ => hcells i (by omega) (by omega)
        (.inr (by omega))⟩
      · rw [← Mem.be_congr fun i hi hlt => hhead i hi (by omega), hsize]
      · rw [← Mem.be_congr fun i hi hlt => hhead i (by omega) (by omega), htype]
      · rw [← hhead (a + 8) (by omega) (by omega), hversion]
  | parent type children rest ihc ihr =>
      obtain ⟨hsize, htype, hchildren, hrest⟩ := h
      simp only [length, stamps, List.forall_mem_append] at hcells
      have hhead : ∀ i, a ≤ i → i < a + 8 → m i = m' i := fun i hi hlt =>
        hcells i hi (by omega) ⟨fun s hs => by
          have := stamps_inside hs
          omega, fun s hs => by
          have := stamps_inside hs
          omega⟩
      refine ⟨?_, ?_, ?_, ?_⟩
      · rw [← Mem.be_congr fun i hi hlt => hhead i hi (by omega), hsize]
      · rw [← Mem.be_congr fun i hi hlt => hhead i (by omega) (by omega), htype]
      · exact ihc hchildren fun i hi hlt hout => hcells i (by omega) (by omega)
          ⟨hout, fun s hs => by
            have := stamps_inside hs
            omega⟩
      · exact ihr hrest fun i hi hlt hout => hcells i (by omega) (by omega)
          ⟨fun s hs => by
            have := stamps_inside hs
            omega, hout⟩

/-- Time words do not overlap, and stand in the order of the walk. -/
theorem stamps_apart (F : Segment) (a : Nat) :
    (F.stamps a).Pairwise fun s t => s.pos + s.width ≤ t.pos := by
  induction F generalizing a with
  | nil => exact .nil
  | other type payload rest ih => exact ih _
  | tfdt version1 rest ih => exact List.pairwise_singleton _ _
  | parent type children rest ihc ihr =>
      refine List.pairwise_append.mpr ⟨ihc _, ihr _, fun s hs t ht => ?_⟩
      have hleft := stamps_inside hs
      have hright := stamps_inside ht
      omega

theorem stamps_width {F : Segment} {a : Nat} {s : Stamp} (h : s ∈ F.stamps a) :
    s.width = 4 ∨ s.width = 8 := by
  induction F generalizing a with
  | nil => cases h
  | other type payload rest ih => exact ih h
  | tfdt version1 rest ih =>
      obtain rfl := List.mem_singleton.mp h
      cases version1
      · exact .inl rfl
      · exact .inr rfl
  | parent type children rest ihc ihr =>
      rcases List.mem_append.mp h with h | h
      · exact ihc h
      · exact ihr h

/-- After stamping, the segment still lies there. -/
theorem Lies.stampAll {F : Segment} {a : Nat} {m : Mem} (h : F.Lies m a) (delta : Int) :
    F.Lies (stampAll delta (F.stamps a) m).2 a :=
  h.congr fun _ _ _ hout => (stampAll_frame delta _ m hout).symm

end Segment

/-! ## The walk -/

/-- A `tfdt` box ends the loop that comes to it, with its time moved. -/
theorem walk_tfdt {m : Mem} {a fin fuel : Nat} {delta : Int} (ha : a < fin)
    (htype : m.be (a + 4) 4 = TFDT) :
    mp4AdjustMediaDecodeTime delta (fuel + 1) m a fin =
      some (stampAll delta [⟨a + 12, timeSize (m (a + 8)).toNat⟩] m) := by
  rw [mp4AdjustMediaDecodeTime, if_pos ha]
  dsimp only
  rw [readWord_eq, readWord_eq, if_pos htype, readBytes_eq m _ (timeSize_le _), writeBytes_eq,
    stampAll]
  split
  · rename_i hzero
    rw [Stamp.moved, Stamp.value] at hzero
    rw [hzero]
    rfl
  · rfl

theorem walk_stamp {m : Mem} {a fin fuel : Nat} {delta : Int} {version1 : Bool} (ha : a < fin)
    (htype : m.be (a + 4) 4 = TFDT)
    (hversion : (m (a + 8)).toNat = if version1 then 1 else 0) :
    mp4AdjustMediaDecodeTime delta (fuel + 1) m a fin =
      some (stampAll delta [⟨a + 12, timeWidth version1⟩] m) := by
  have hsize : timeSize (m (a + 8)).toNat = timeWidth version1 := by
    rw [hversion]
    cases version1 <;> rfl
  rw [walk_tfdt ha htype, hsize]

/-- On the boxes of a segment the walk stamps its time words. -/
theorem walk_segment {F : Segment} {a fuel : Nat} {m : Mem} (hfuel : F.fuel ≤ fuel)
    (h : F.Lies m a) (delta : Int) :
    mp4AdjustMediaDecodeTime delta fuel m a (a + F.length) =
      some (stampAll delta (F.stamps a) m) := by
  induction F generalizing a fuel m with
  | nil =>
      obtain ⟨fuel, rfl⟩ : ∃ f, fuel = f + 1 := Nat.exists_eq_add_one.mpr hfuel
      rw [mp4AdjustMediaDecodeTime, if_neg (by simp [Segment.length])]
      rfl
  | other type payload rest ih =>
      obtain ⟨hsize, htype, hrest⟩ := h
      simp only [Segment.fuel] at hfuel
      obtain ⟨fuel, rfl⟩ : ∃ f, fuel = f + 1 := Nat.exists_eq_add_one.mpr (by omega)
      have hfin : a + (Segment.other type payload rest).length = a + (8 + payload) + rest.length := by
        simp only [Segment.length]
        omega
      rw [hfin, mp4AdjustMediaDecodeTime, if_pos (by omega)]
      dsimp only
      rw [readWord_eq, readWord_eq, hsize, htype, if_neg type.property.1, if_neg type.property.2]
      exact ih (by omega) hrest
  | tfdt version1 rest ih =>
      obtain ⟨-, htype, hversion, -⟩ := h
      simp only [Segment.fuel] at hfuel
      obtain ⟨fuel, rfl⟩ : ∃ f, fuel = f + 1 := Nat.exists_eq_add_one.mpr (by omega)
      exact walk_stamp (by simp only [Segment.length]; omega) htype hversion
  | parent type children rest ihc ihr =>
      obtain ⟨hsize, htype, hchildren, hrest⟩ := h
      simp only [Segment.fuel] at hfuel
      obtain ⟨fuel, rfl⟩ : ∃ f, fuel = f + 1 := Nat.exists_eq_add_one.mpr (by omega)
      have hfin : a + (Segment.parent type children rest).length =
          a + (8 + children.length) + rest.length := by
        simp only [Segment.length]
        omega
      have hnext : a + (8 + children.length) = a + 8 + children.length := by omega
      have hinner := ihc (by omega : children.fuel ≤ fuel) hchildren
      have hbehind : rest.Lies (stampAll delta (children.stamps (a + 8)) m).2
          (a + (8 + children.length)) := by
        refine hrest.congr fun i hi _ _ => (stampAll_frame delta _ m fun s hs => ?_).symm
        have := Segment.stamps_inside hs
        omega
      have hparent := type.property
      have hother : type.val ≠ TFDT := fun he => absurd (he ▸ hparent) (by decide)
      rw [hfin, mp4AdjustMediaDecodeTime, if_pos (by omega)]
      dsimp only
      rw [readWord_eq, readWord_eq, hsize, htype, if_neg hother, if_pos hparent, hnext, hinner,
        ← hnext, Segment.stamps, stampAll_append]
      dsimp only [Option.bind_eq_bind, Option.bind_some]
      split
      · exact ihr (by omega) hbehind
      · rfl

/-! ## One time word -/

namespace Stamp

variable (s : Stamp) (m : Mem)

theorem value_lt : s.value m < 256 ^ s.width := m.be_lt s.pos s.width

theorem value_put (time : Nat) : s.value (s.put m time) = time % 256 ^ s.width := by
  have hbe := (m.holds_write s.pos (beBytes s.width time)).be_eq
  rw [beBytes_length, be_beBytes] at hbe
  exact hbe

theorem put_put (time later : Nat) : s.put (s.put m time) later = s.put m later :=
  m.write_write s.pos (by rw [beBytes_length, beBytes_length])

theorem put_mod (time : Nat) : s.put m (time % 256 ^ s.width) = s.put m time := by
  rw [put, beBytes_mod, put]

theorem put_value : s.put m (s.value m) = m := by
  have hbytes := beBytes_be (m.slice s.pos s.width)
  rw [Mem.slice_length] at hbytes
  rw [put, value, Mem.be, hbytes, Mem.write_slice]

/-- A time word is put back exactly when its low bytes are put back. -/
theorem put_eq_self_iff (time : Nat) : s.put m time = m ↔ time % 256 ^ s.width = s.value m := by
  constructor
  · intro h
    rw [← s.value_put m time, h]
  · intro h
    rw [← s.put_mod m time, h, put_value]

theorem moved_eq (delta : Int) : ((s.moved delta m : Nat) : Int) = (s.value m + delta) % 2 ^ 64 :=
  Int.toNat_of_nonneg (Int.emod_nonneg _ (by decide))

end Stamp

/-- A delta of 64 bits, or the opposite of one. -/
def IsDelta (delta : Int) : Prop := -2 ^ 63 ≤ delta ∧ delta ≤ 2 ^ 63

theorem IsDelta.neg {delta : Int} (h : IsDelta delta) : IsDelta (-delta) := by
  unfold IsDelta at *
  omega

/-- Stamping the time words that follow `s` leaves `s` alone. -/
theorem stampAll_value {s : Stamp} {later : List Stamp}
    (h : ∀ t ∈ later, s.pos + s.width ≤ t.pos) (delta : Int) (m : Mem) :
    s.value (stampAll delta later m).2 = s.value m :=
  Mem.be_congr fun i hi hlt => stampAll_frame delta later m fun t ht => by
    have := h t ht
    omega

section
variable {t : Stamp} {ts : List Stamp} {m : Mem} {delta : Int}

/-- Another delta than zero moves a time word, unless only its upper half is stored elsewhere. -/
theorem moved_ne_zero (hwidth : t.width = 4) (hdelta : IsDelta delta) (hne : delta ≠ 0)
    (hdvd : delta % 2 ^ 32 = 0) : t.moved delta m ≠ 0 := by
  have hlt := t.value_lt m
  have hmoved := t.moved_eq m delta
  rw [hwidth] at hlt
  obtain ⟨hlow, hhigh⟩ := hdelta
  omega

theorem moved_kept_iff (hwidth : t.width = 4 ∨ t.width = 8) (hdelta : IsDelta delta)
    (hne : delta ≠ 0) :
    t.moved delta m % 256 ^ t.width = t.value m ↔ t.width = 4 ∧ delta % 2 ^ 32 = 0 := by
  have hlt := t.value_lt m
  have hmoved := t.moved_eq m delta
  obtain ⟨hlow, hhigh⟩ := hdelta
  rcases hwidth with hwidth | hwidth <;> rw [hwidth] at hlt ⊢ <;> omega

/-- Another delta than zero leaves time words as they are only when it adds to the
upper half of a word of four bytes. -/
theorem stampAll_eq_self_iff (hwidth : t.width = 4 ∨ t.width = 8)
    (hapart : ∀ u ∈ ts, t.pos + t.width ≤ u.pos) (hdelta : IsDelta delta) (hne : delta ≠ 0) :
    (stampAll delta (t :: ts) m).2 = m ↔ t.width = 4 ∧ delta % 2 ^ 32 = 0 := by
  rw [stampAll]
  by_cases hzero : t.moved delta m = 0
  · have hkept := moved_kept_iff (m := m) hwidth hdelta hne
    rw [if_pos hzero]
    refine ⟨fun h => ?_, fun h => absurd hzero (moved_ne_zero h.1 hdelta hne h.2)⟩
    have hvalue := stampAll_value hapart delta (t.put m 0)
    rw [h, t.value_put, Nat.zero_mod] at hvalue
    rw [hzero, Nat.zero_mod] at hkept
    exact hkept.mp hvalue.symm
  · rw [if_neg hzero, Stamp.put_eq_self_iff]
    exact moved_kept_iff hwidth hdelta hne

end

theorem moved_zero {s : Stamp} (hwidth : s.width = 4 ∨ s.width = 8) (m : Mem) :
    s.moved 0 m = s.value m := by
  have hlt := s.value_lt m
  have hmoved := s.moved_eq m 0
  rcases hwidth with hwidth | hwidth <;> rw [hwidth] at hlt <;> omega

/-- Without a delta stamping changes nothing, and finds no time when all words are zero. -/
theorem stampAll_zero {stamps : List Stamp} (hwidth : ∀ s ∈ stamps, s.width = 4 ∨ s.width = 8)
    (m : Mem) :
    (stampAll 0 stamps m).2 = m ∧
      ((stampAll 0 stamps m).1 = 0 ↔ ∀ s ∈ stamps, s.value m = 0) := by
  induction stamps with
  | nil => simp [stampAll]
  | cons s later ih =>
      obtain ⟨hs, hlater⟩ := List.forall_mem_cons.mp hwidth
      have hput : s.put m (s.value m) = m := s.put_value m
      rw [stampAll, moved_zero hs]
      by_cases hzero : s.value m = 0
      · rw [hzero] at hput
        rw [if_pos hzero, hput, List.forall_mem_cons]
        exact ⟨(ih hlater).1, (ih hlater).2.trans (iff_and_self.mpr fun _ => hzero)⟩
      · rw [if_neg hzero, hput, List.forall_mem_cons]
        exact ⟨rfl, fun h => absurd h hzero, fun h => h.1⟩

/-! ## A call and the opposite call behind it -/

/-- The sum as far as the time word holds it. -/
def Stamp.stored (s : Stamp) (delta : Int) (m : Mem) : Nat :=
  ((s.value m + delta) % (256 ^ s.width : Nat)).toNat

/-- The first call changes the first time word only, to the sum it returns, and the
second call restores the memory. -/
structure Restamps (delta : Int) (stamps : List Stamp) (m : Mem) (first second : Nat × Mem) :
    Prop where
  untouched : stamps = [] → first.2 = m
  stamped : ∀ s later, stamps = s :: later →
    first = (s.stored delta m, s.put m (s.stored delta m))
  undone : second.2 = m

/-- When the sum fits the first time word, and neither a sum nor a time of zero sends
the walk on to change another one. -/
def Undoable (delta : Int) (m : Mem) : List Stamp → Prop
  | [] => True
  | s :: later =>
      (s.width = 4 → 0 ≤ s.value m + delta ∧ s.value m + delta < 2 ^ 32) ∧
      (s.moved delta m = 0 → later = [] ∨ delta = 0 ∧ ∀ t ∈ later, t.value m = 0) ∧
      (s.value m = 0 → delta = 0 ∨ ∀ t ∈ later.head?, t.width = 4 ∧ delta % 2 ^ 32 = 0)

section
variable {s : Stamp} {later : List Stamp} {m : Mem} {delta : Int}

theorem stored_eq (s : Stamp) (delta : Int) (m : Mem) :
    ((s.stored delta m : Nat) : Int) = (s.value m + delta) % (256 ^ s.width : Nat) := by
  have hpos : 0 < 256 ^ s.width := Nat.pow_pos (by decide)
  exact Int.toNat_of_nonneg (Int.emod_nonneg _ (by omega))

theorem stored_eq_mod (hwidth : s.width = 4 ∨ s.width = 8) (m : Mem) (delta : Int) :
    s.stored delta m = s.moved delta m % 256 ^ s.width := by
  have hstored := stored_eq s delta m
  have hmoved := s.moved_eq m delta
  rcases hwidth with hwidth | hwidth <;> rw [hwidth] at hstored ⊢ <;> omega

theorem put_moved (hwidth : s.width = 4 ∨ s.width = 8) (m : Mem) (delta : Int) :
    s.put m (s.stored delta m) = s.put m (s.moved delta m) := by
  rw [stored_eq_mod hwidth, s.put_mod]

theorem moved_eq_stored_iff (hwidth : s.width = 4 ∨ s.width = 8) (hdelta : IsDelta delta) :
    s.moved delta m = s.stored delta m ↔
      (s.width = 4 → 0 ≤ s.value m + delta ∧ s.value m + delta < 2 ^ 32) := by
  have hlt := s.value_lt m
  have hstored := stored_eq s delta m
  have hmoved := s.moved_eq m delta
  obtain ⟨hlow, hhigh⟩ := hdelta
  rcases hwidth with hwidth | hwidth <;> rw [hwidth] at hstored hlt ⊢ <;> omega

/-- The opposite delta leads back to the time, when the time word held the sum. -/
theorem moved_back (hwidth : s.width = 4 ∨ s.width = 8)
    (hkept : s.moved delta m = s.stored delta m) :
    s.moved (-delta) (s.put m (s.moved delta m)) = s.value m := by
  have hlt := s.value_lt m
  have hmoved := s.moved_eq m delta
  have hback := s.moved_eq (s.put m (s.moved delta m)) (-delta)
  rw [s.value_put, ← stored_eq_mod hwidth, ← hkept] at hback
  rcases hwidth with hwidth | hwidth <;> rw [hwidth] at hlt <;> omega

/-- A sum that is not zero ends the walk; a time of zero sends the opposite call on. -/
theorem restamps_of_moved (hwidth : ∀ t ∈ s :: later, t.width = 4 ∨ t.width = 8)
    (hapart : (s :: later).Pairwise fun s t => s.pos + s.width ≤ t.pos) (hdelta : IsDelta delta)
    (hmoved : s.moved delta m ≠ 0) :
    Restamps delta (s :: later) m (stampAll delta (s :: later) m)
        (stampAll (-delta) (s :: later) (stampAll delta (s :: later) m).2) ↔
      Undoable delta m (s :: later) := by
  have hs := hwidth s List.mem_cons_self
  have hfirst : stampAll delta (s :: later) m = (s.moved delta m, s.put m (s.moved delta m)) := by
    rw [stampAll, if_neg hmoved]
  have hfits := moved_eq_stored_iff (m := m) hs hdelta
  have hstamped : (∀ t ts, s :: later = t :: ts →
      (s.moved delta m, s.put m (s.moved delta m)) =
        (t.stored delta m, t.put m (t.stored delta m))) ↔
      s.moved delta m = s.stored delta m := by
    constructor
    · intro h
      exact congrArg Prod.fst (h s later rfl)
    · rintro h _ _ ⟨⟩
      rw [put_moved hs, h]
  have hsplit : Restamps delta (s :: later) m (stampAll delta (s :: later) m)
      (stampAll (-delta) (s :: later) (stampAll delta (s :: later) m).2) ↔
      s.moved delta m = s.stored delta m ∧
        (stampAll (-delta) (s :: later) (s.put m (s.moved delta m))).2 = m := by
    rw [hfirst]
    exact ⟨fun h => ⟨hstamped.mp h.stamped, h.undone⟩,
      fun h => ⟨fun hnil => (List.cons_ne_nil s later hnil).elim, hstamped.mpr h.1, h.2⟩⟩
  rw [hsplit, hfits, Undoable]
  refine and_congr_right fun hkept => ?_
  have hback := moved_back hs (hfits.mpr hkept)
  rw [stampAll, hback]
  have hsecond : s.put m (s.value m) = m := s.put_value m
  by_cases hzero : s.value m = 0
  · have hne : delta ≠ 0 := by
      rintro rfl
      exact hmoved ((moved_zero hs m).trans hzero)
    rw [hzero] at hsecond
    rw [if_pos hzero, Stamp.put_put, hsecond]
    refine Iff.trans ?_ ⟨fun h => ⟨fun hz => absurd hz hmoved, fun _ => .inr h⟩,
      fun h => (h.2 hzero).resolve_left hne⟩
    cases later with
    | nil => simp [stampAll]
    | cons t ts =>
        have ht := hwidth t (by simp)
        have htail := (List.pairwise_cons.mp (List.pairwise_cons.mp hapart).2).1
        have hneg : (-delta) % 2 ^ 32 = 0 ↔ delta % 2 ^ 32 = 0 := by omega
        rw [stampAll_eq_self_iff ht htail hdelta.neg (by omega), hneg]
        simp
  · rw [if_neg hzero, Stamp.put_put, hsecond]
    exact iff_of_true rfl ⟨fun hz => absurd hz hmoved, fun hz => absurd hz hzero⟩

theorem stored_of_not_moved (hwidth : s.width = 4 ∨ s.width = 8) (hmoved : s.moved delta m = 0) :
    s.stored delta m = 0 := by
  rw [stored_eq_mod hwidth, hmoved, Nat.zero_mod]

/-- Without a delta a time of zero sends the walk on to find another one. -/
theorem restamps_without_delta (hwidth : ∀ t ∈ s :: later, t.width = 4 ∨ t.width = 8)
    (hmoved : s.moved 0 m = 0) :
    Restamps 0 (s :: later) m (stampAll 0 (s :: later) m)
        (stampAll (-0) (s :: later) (stampAll 0 (s :: later) m).2) ↔
      Undoable 0 m (s :: later) := by
  have hs := hwidth s List.mem_cons_self
  have hstored := stored_of_not_moved hs hmoved
  have hzero : s.value m = 0 := (moved_zero hs m).symm.trans hmoved
  have hfits := (moved_eq_stored_iff (m := m) hs (by constructor <;> omega)).mp
    (hmoved.trans hstored.symm)
  have hput : s.put m 0 = m := by
    have hself := s.put_value m
    rwa [hzero] at hself
  obtain ⟨hsame, hfound⟩ := stampAll_zero (fun t ht => hwidth t (List.mem_cons_of_mem s ht)) m
  have hsecond := (stampAll_zero hwidth m).1
  rw [stampAll, if_pos hmoved, hput, hsame, Int.neg_zero]
  constructor
  · intro h
    have htime := congrArg Prod.fst (h.stamped s later rfl)
    exact ⟨hfits, fun _ => .inr ⟨rfl, hfound.mp (htime.trans hstored)⟩, fun _ => .inl rfl⟩
  · rintro ⟨-, hall, -⟩
    have hnone : ∀ t ∈ later, t.value m = 0 := by
      rcases hall hmoved with rfl | ⟨-, h⟩
      · exact fun t ht => absurd ht List.not_mem_nil
      · exact h
    refine ⟨fun hnil => (List.cons_ne_nil s later hnil).elim, ?_, hsecond⟩
    rintro _ _ ⟨⟩
    rw [hstored, hput]
    exact Prod.ext (hfound.mpr hnone) hsame

/-- A word without another one behind it is stamped and restored. -/
theorem restamps_alone (hs : s.width = 4 ∨ s.width = 8) (hmoved : s.moved delta m = 0)
    (hvalue : s.value m ≠ 0) :
    Restamps delta [s] m (stampAll delta [s] m)
      (stampAll (-delta) [s] (stampAll delta [s] m).2) := by
  have hstored := stored_of_not_moved hs hmoved
  have hback := moved_back hs (hmoved.trans hstored.symm)
  rw [hmoved] at hback
  have hfirst : stampAll delta [s] m = (0, s.put m 0) := by
    rw [stampAll, if_pos hmoved, stampAll]
  have hsecond : stampAll (-delta) [s] (s.put m 0) = (s.value m, m) := by
    rw [stampAll, hback, if_neg hvalue, Stamp.put_put, Stamp.put_value]
  rw [hfirst, hsecond]
  refine ⟨fun hnil => (List.cons_ne_nil s [] hnil).elim, ?_, rfl⟩
  rintro _ _ ⟨⟩
  rw [hstored]

/-- A word behind it is stamped in its place. -/
theorem not_restamps_of_later {t : Stamp} {ts : List Stamp} {second : Nat × Mem}
    (hs : s.width = 4 ∨ s.width = 8) (ht : t.width = 4 ∨ t.width = 8)
    (hapart : ∀ u ∈ ts, t.pos + t.width ≤ u.pos) (hdelta : IsDelta delta) (hne : delta ≠ 0)
    (hmoved : s.moved delta m = 0) :
    ¬ Restamps delta (s :: t :: ts) m (stampAll delta (s :: t :: ts) m) second := by
  intro h
  have heq := h.stamped s (t :: ts) rfl
  rw [stampAll, if_pos hmoved, stored_of_not_moved hs hmoved] at heq
  have hsame : (stampAll delta (t :: ts) (s.put m 0)).2 = s.put m 0 := by rw [heq]
  obtain ⟨hfour, hdvd⟩ := (stampAll_eq_self_iff (m := s.put m 0) ht hapart hdelta hne).mp hsame
  have hfound := moved_ne_zero (m := s.put m 0) hfour hdelta hne hdvd
  rw [stampAll, if_neg hfound] at heq
  exact hfound (Prod.mk.inj heq).1

/-- A sum of zero sends the first call on. -/
theorem restamps_of_not_moved (hwidth : ∀ t ∈ s :: later, t.width = 4 ∨ t.width = 8)
    (hapart : (s :: later).Pairwise fun s t => s.pos + s.width ≤ t.pos) (hdelta : IsDelta delta)
    (hmoved : s.moved delta m = 0) :
    Restamps delta (s :: later) m (stampAll delta (s :: later) m)
        (stampAll (-delta) (s :: later) (stampAll delta (s :: later) m).2) ↔
      Undoable delta m (s :: later) := by
  have hs := hwidth s List.mem_cons_self
  have hstored := stored_of_not_moved hs hmoved
  have hfits := (moved_eq_stored_iff (m := m) hs hdelta).mp (hmoved.trans hstored.symm)
  by_cases hne : delta = 0
  · subst hne
    exact restamps_without_delta hwidth hmoved
  · have hvalue : s.value m ≠ 0 := by
      intro hzero
      have hsum := s.moved_eq m delta
      rw [hmoved, hzero] at hsum
      obtain ⟨hlow, hhigh⟩ := hdelta
      omega
    cases later with
    | nil =>
        exact iff_of_true (restamps_alone hs hmoved hvalue)
          ⟨hfits, fun _ => .inl rfl, fun hzero => absurd hzero hvalue⟩
    | cons t ts =>
        have ht := hwidth t (List.mem_cons_of_mem s List.mem_cons_self)
        have htail := (List.pairwise_cons.mp (List.pairwise_cons.mp hapart).2).1
        refine iff_of_false (not_restamps_of_later hs ht htail hdelta hne hmoved) fun h => ?_
        rcases h.2.1 hmoved with hnil | ⟨hzero, -⟩
        · cases hnil
        · exact hne hzero

end

theorem stampAll_restamps_iff {stamps : List Stamp} {m : Mem} {delta : Int}
    (hwidth : ∀ s ∈ stamps, s.width = 4 ∨ s.width = 8)
    (hapart : stamps.Pairwise fun s t => s.pos + s.width ≤ t.pos) (hdelta : IsDelta delta) :
    Restamps delta stamps m (stampAll delta stamps m)
        (stampAll (-delta) stamps (stampAll delta stamps m).2) ↔ Undoable delta m stamps := by
  cases stamps with
  | nil =>
      exact iff_of_true ⟨fun _ => rfl, fun s later h => (List.cons_ne_nil s later h.symm).elim, rfl⟩
        trivial
  | cons s later =>
      by_cases hmoved : s.moved delta m = 0
      · exact restamps_of_not_moved hwidth hapart hdelta hmoved
      · exact restamps_of_moved hwidth hapart hdelta hmoved

/-- In every segment and for every delta both calls return, and they restamp the first
time word and nothing else exactly when the segment is undoable. -/
theorem mp4AdjustMediaDecodeTime_restamps_iff (F : Segment) (m : Mem) (ptr : Nat) (delta : Int)
    (hdelta : -2 ^ 63 ≤ delta ∧ delta < 2 ^ 63) (h : F.Lies m ptr) :
    ∃ enough, ∀ fuel, enough ≤ fuel → ∃ first second,
      mp4AdjustMediaDecodeTime delta fuel m ptr (ptr + F.length) = some first ∧
      mp4AdjustMediaDecodeTime (-delta) fuel first.2 ptr (ptr + F.length) = some second ∧
      (Restamps delta (F.stamps ptr) m first second ↔ Undoable delta m (F.stamps ptr)) :=
  ⟨F.fuel, fun _ hfuel => ⟨_, _, walk_segment hfuel h delta,
    walk_segment hfuel (h.stampAll delta) (-delta),
    stampAll_restamps_iff (fun _ hs => Segment.stamps_width hs) (F.stamps_apart ptr)
      ⟨hdelta.1, Int.le_of_lt hdelta.2⟩⟩⟩

namespace TwoFragments

/-- A fragment that starts at `time`. -/
def fragment (time : Nat) : Bytes :=
  boxBytes IsoBmff.MOOF (boxBytes IsoBmff.TRAF (boxBytes IsoBmff.TFDT
    ([1, 0, 0, 0] ++ beBytes 8 time)))

def memory : Mem := Mem.ofBytes (fragment 10 ++ fragment 20) fun _ => 0

def moof (rest : Segment) : Segment :=
  .parent ⟨multiCharConstant IsoBmff.MOOF, by decide⟩
    (.parent ⟨multiCharConstant IsoBmff.TRAF, by decide⟩ (.tfdt true .nil) .nil) rest

def segment : Segment := moof (moof .nil)

end TwoFragments

theorem twoFragments_restamps_iff :
    ∃ enough, ∀ fuel, enough ≤ fuel → ∃ first second,
      mp4AdjustMediaDecodeTime 5 fuel TwoFragments.memory 0 (0 + TwoFragments.segment.length) =
        some first ∧
      mp4AdjustMediaDecodeTime (-5) fuel first.2 0 (0 + TwoFragments.segment.length) =
        some second ∧
      (Restamps 5 [⟨28, 8⟩, ⟨64, 8⟩] TwoFragments.memory first second ↔
        Undoable 5 TwoFragments.memory [⟨28, 8⟩, ⟨64, 8⟩]) :=
  mp4AdjustMediaDecodeTime_restamps_iff TwoFragments.segment TwoFragments.memory 0 5 (by decide)
    (by decide)

/-- A delta that brings the first fragment to zero moves the second one too. -/
theorem twoFragments_not_restamps :
    ¬ ∀ (F : Segment) (m : Mem) (ptr : Nat) (delta : Int), -2 ^ 63 ≤ delta ∧ delta < 2 ^ 63 →
      F.Lies m ptr → ∀ fuel first second,
      mp4AdjustMediaDecodeTime delta fuel m ptr (ptr + F.length) = some first →
      mp4AdjustMediaDecodeTime (-delta) fuel first.2 ptr (ptr + F.length) = some second →
      Restamps delta (F.stamps ptr) m first second := by
  intro h
  have hlies : TwoFragments.segment.Lies TwoFragments.memory 0 := by decide
  have hrestamps := h TwoFragments.segment TwoFragments.memory 0 (-10) (by decide) hlies
    TwoFragments.segment.fuel _ _ (walk_segment (Nat.le_refl _) hlies (-10))
    (walk_segment (Nat.le_refl _) (hlies.stampAll (-10)) 10)
  have hundoable := (stampAll_restamps_iff (fun _ hs => Segment.stamps_width hs)
    (TwoFragments.segment.stamps_apart 0) (by unfold IsDelta; decide)).mp hrestamps
  rcases hundoable.2.1 (by decide) with hlater | ⟨hzero, -⟩
  · cases hlater
  · exact absurd hzero (by decide)

end PlayerInterface.Mp4Demux.AdjustTime
