import Mathlib.Algebra.Group.Int.Defs
import Mathlib.Algebra.Group.Nat.Defs
import Mathlib.Tactic.Common

/-!
# Byte memory and big-endian words

A memory is total: the cells past the end of a buffer hold whatever the heap
holds there. Bounds are never assumed by reading; they are statements about the
indices a computation reads.
-/

namespace PlayerInterface.Core

abbrev Bytes := List UInt8

/-- Cells indexed from the start of the buffer under study. -/
abbrev Mem := Nat → UInt8

/-! ## Big-endian words -/

def be : Bytes → Nat
  | [] => 0
  | b :: bs => 256 ^ bs.length * b.toNat + be bs

/-- The low `width` bytes of a value, most significant byte first. -/
def beBytes : Nat → Nat → Bytes
  | 0, _ => []
  | width + 1, v => UInt8.ofNat (v / 256 ^ width) :: beBytes width v

@[simp] theorem beBytes_length (width v : Nat) : (beBytes width v).length = width := by
  induction width with
  | zero => rfl
  | succ width ih => simp [beBytes, ih]

theorem be_lt (bs : Bytes) : be bs < 256 ^ bs.length := by
  induction bs with
  | nil => simp [be]
  | cons b bs ih =>
      have hb : b.toNat + 1 ≤ 256 := b.toNat_lt
      have hm := Nat.mul_le_mul_left (256 ^ bs.length) hb
      simp only [be, List.length_cons, Nat.pow_succ]
      rw [Nat.mul_add] at hm
      omega

/-- Decoding the encoded low bytes reduces the value to the encoded width. -/
theorem be_beBytes (width v : Nat) : be (beBytes width v) = v % 256 ^ width := by
  induction width with
  | zero => simp [beBytes, be, Nat.mod_one]
  | succ width ih =>
      have hbyte : (UInt8.ofNat (v / 256 ^ width)).toNat = v / 256 ^ width % 256 := by simp
      rw [beBytes, be, beBytes_length, ih, hbyte, Nat.pow_succ, Nat.mod_mul, Nat.add_comm]

theorem be_beBytes_of_lt {width v : Nat} (h : v < 256 ^ width) : be (beBytes width v) = v := by
  rw [be_beBytes, Nat.mod_eq_of_lt h]

theorem beBytes_add (high low v : Nat) :
    beBytes (high + low) v = beBytes high (v / 256 ^ low) ++ beBytes low v := by
  induction high with
  | zero => simp [beBytes]
  | succ high ih =>
      rw [Nat.add_right_comm, beBytes, beBytes, ih, Nat.div_div_eq_div_mul, ← Nat.pow_add,
        Nat.add_comm low high, List.cons_append]

theorem beBytes_zero (width : Nat) : beBytes width 0 = List.replicate width 0 := by
  induction width with
  | zero => rfl
  | succ width ih => rw [beBytes, ih, Nat.zero_div]; rfl

theorem be_append (xs ys : Bytes) : be (xs ++ ys) = 256 ^ ys.length * be xs + be ys := by
  induction xs with
  | nil => simp [be]
  | cons x xs ih =>
      rw [List.cons_append, be, be, ih, List.length_append, Nat.pow_add, Nat.mul_add,
        Nat.mul_comm (256 ^ xs.length), Nat.mul_assoc, Nat.add_assoc]

/-- Only the low bytes of a value are encoded. -/
theorem beBytes_mod (width v : Nat) : beBytes width (v % 256 ^ width) = beBytes width v := by
  have hle : ∀ w, w ≤ width → beBytes w (v % 256 ^ width) = beBytes w v := by
    intro w hw
    induction w with
    | zero => rfl
    | succ w ih =>
        have hsplit : 256 ^ width = 256 ^ w * (256 * 256 ^ (width - w - 1)) := by
          rw [← Nat.mul_assoc, ← Nat.pow_succ, ← Nat.pow_add]
          congr 1
          omega
        have hbyte : UInt8.ofNat (v % 256 ^ width / 256 ^ w) = UInt8.ofNat (v / 256 ^ w) := by
          rw [hsplit, Nat.mod_mul_right_div_self]
          apply UInt8.toNat_inj.mp
          rw [UInt8.toNat_ofNat', UInt8.toNat_ofNat']
          exact Nat.mod_mul_right_mod _ 256 _
        rw [beBytes, beBytes, hbyte, ih (by omega)]
  exact hle width (Nat.le_refl width)

theorem beBytes_be (bs : Bytes) : beBytes bs.length (be bs) = bs := by
  induction bs with
  | nil => rfl
  | cons b bs ih =>
      have hlow := be_lt bs
      have hpos : 0 < 256 ^ bs.length := Nat.pow_pos (by decide)
      have hhead : (256 ^ bs.length * b.toNat + be bs) / 256 ^ bs.length = b.toNat := by
        rw [Nat.mul_add_div hpos, Nat.div_eq_of_lt hlow, Nat.add_zero]
      have htail : (256 ^ bs.length * b.toNat + be bs) % 256 ^ bs.length = be bs := by
        rw [Nat.mul_add_mod, Nat.mod_eq_of_lt hlow]
      rw [List.length_cons, be, beBytes, hhead, ← beBytes_mod, htail, ih]
      simp

/-- Accumulating bytes by shift and add, as a read loop does, is the big-endian value. -/
theorem foldl_be (bs : Bytes) (acc : Nat) :
    bs.foldl (fun rc b => rc * 256 + b.toNat) acc = acc * 256 ^ bs.length + be bs := by
  induction bs generalizing acc with
  | nil => simp [be]
  | cons b bs ih =>
      rw [List.foldl_cons, ih, List.length_cons, Nat.pow_succ, be, Nat.add_mul, Nat.mul_assoc,
        Nat.mul_comm 256, Nat.mul_comm b.toNat, Nat.add_assoc]

/-- An unsigned word of `width` bytes. -/
structure Word (width : Nat) where
  toNat : Nat
  lt : toNat < 256 ^ width
deriving DecidableEq, Repr

def Word.zero {width : Nat} : Word width := ⟨0, Nat.pow_pos (by decide)⟩

/-- The low bytes of a number. -/
def Word.ofNat {width : Nat} (n : Nat) : Word width :=
  ⟨n % 256 ^ width, Nat.mod_lt n (Nat.pow_pos (by decide))⟩

def Word.bytes {width : Nat} (w : Word width) : Bytes := beBytes width w.toNat

@[simp] theorem Word.bytes_length {width : Nat} (w : Word width) : w.bytes.length = width :=
  beBytes_length width w.toNat

/-- A string without zero bytes, stored with a terminator. -/
structure CString where
  chars : Bytes
  noNul : 0 ∉ chars

def CString.bytes (s : CString) : Bytes := s.chars ++ [0]

@[simp] theorem CString.bytes_length (s : CString) : s.bytes.length = s.chars.length + 1 := by
  simp [bytes]

/-- What is seen of a byte string through a `const char*`. -/
def cText (bs : Bytes) : Bytes := bs.takeWhile (· ≠ 0)

/-! ## Slices and writes -/

def Mem.slice (m : Mem) (p : Nat) : Nat → Bytes
  | 0 => []
  | count + 1 => m p :: slice m (p + 1) count

@[simp] theorem Mem.slice_length (m : Mem) (p count : Nat) : (m.slice p count).length = count := by
  induction count generalizing p with
  | zero => rfl
  | succ count ih => simp [slice, ih]

def Mem.be (m : Mem) (p width : Nat) : Nat := Core.be (m.slice p width)

theorem Mem.be_lt (m : Mem) (p width : Nat) : m.be p width < 256 ^ width := by
  simpa [Mem.be] using Core.be_lt (m.slice p width)

theorem Mem.be_one (m : Mem) (p : Nat) : m.be p 1 = (m p).toNat := by
  simp [Mem.be, slice, Core.be]

theorem Mem.slice_congr {m m' : Mem} {p count : Nat}
    (h : ∀ i, p ≤ i → i < p + count → m i = m' i) : m.slice p count = m'.slice p count := by
  induction count generalizing p with
  | zero => rfl
  | succ count ih =>
      simp only [slice]
      rw [h p (by omega) (by omega), ih fun i hi hl => h i (by omega) (by omega)]

theorem Mem.be_congr {m m' : Mem} {p width : Nat}
    (h : ∀ i, p ≤ i → i < p + width → m i = m' i) : m.be p width = m'.be p width :=
  congrArg Core.be (slice_congr h)

theorem Mem.be_zero {m : Mem} {p width : Nat} (h : ∀ i, p ≤ i → m i = 0) : m.be p width = 0 := by
  rw [Mem.be]
  induction width generalizing p with
  | zero => rfl
  | succ width ih =>
      rw [slice, Core.be, h p (Nat.le_refl p), ih fun i hi => h i (by omega)]
      simp

def Mem.write (m : Mem) (p : Nat) (bs : Bytes) : Mem := fun i =>
  if p ≤ i ∧ i < p + bs.length then bs.getD (i - p) 0 else m i

theorem Mem.write_outside {m : Mem} {p i : Nat} {bs : Bytes} (h : i < p ∨ p + bs.length ≤ i) :
    m.write p bs i = m i := by
  rw [write, if_neg (by omega)]

theorem Mem.write_all {P : UInt8 → Prop} {m : Mem} {p i : Nat} {bs : Bytes}
    (hbs : ∀ b ∈ bs, P b) (hm : P (m i)) : P (m.write p bs i) := by
  rw [write]
  split
  · rename_i hin
    have hlt : i - p < bs.length := by omega
    rw [List.getD_eq_getElem?_getD, List.getElem?_eq_getElem hlt]
    exact hbs _ (List.getElem_mem hlt)
  · exact hm

@[simp] theorem Mem.write_nil (m : Mem) (p : Nat) : m.write p [] = m :=
  funext fun i => write_outside (by simp; omega)

/-- Writing bytes behind each other, the last ones first. -/
theorem Mem.write_append (m : Mem) (p : Nat) (xs ys : Bytes) :
    m.write p (xs ++ ys) = (m.write (p + xs.length) ys).write p xs := by
  funext i
  by_cases hx : p ≤ i ∧ i < p + xs.length
  · have hboth : p ≤ i ∧ i < p + (xs ++ ys).length := by
      rw [List.length_append]
      omega
    rw [write, write, if_pos hboth, if_pos hx, List.getD_eq_getElem?_getD,
      List.getElem?_append_left (by omega), List.getD_eq_getElem?_getD]
  · rw [write_outside (m := m.write (p + xs.length) ys) (by omega), write, write]
    by_cases hy : p + xs.length ≤ i ∧ i < p + xs.length + ys.length
    · have hboth : p ≤ i ∧ i < p + (xs ++ ys).length := by
        rw [List.length_append]
        omega
      rw [if_pos hboth, if_pos hy, List.getD_eq_getElem?_getD,
        List.getElem?_append_right (by omega), Nat.sub_sub, List.getD_eq_getElem?_getD]
    · rw [if_neg hy, if_neg (by rw [List.length_append]; omega)]

theorem Mem.write_comm (m : Mem) {p q : Nat} {xs ys : Bytes}
    (h : p + xs.length ≤ q ∨ q + ys.length ≤ p) :
    (m.write p xs).write q ys = (m.write q ys).write p xs := by
  funext i
  by_cases hp : p ≤ i ∧ i < p + xs.length
  · rw [write_outside (m := m.write p xs) (by omega), write, write, if_pos hp, if_pos hp]
  · by_cases hq : q ≤ i ∧ i < q + ys.length
    · have houtside := @write_outside (m.write q ys) p i xs (by omega)
      rw [houtside, write, if_pos hq, write, if_pos hq]
    · rw [write_outside (by omega), write_outside (by omega), write_outside (by omega),
        write_outside (by omega)]

/-- Writing what is there changes nothing. -/
theorem Mem.write_slice (m : Mem) (p count : Nat) : m.write p (m.slice p count) = m := by
  induction count generalizing m p with
  | zero => exact m.write_nil p
  | succ count ih =>
      have hsplit : m.slice p (count + 1) = [m p] ++ m.slice (p + 1) count := rfl
      rw [hsplit, write_append, List.length_singleton, ih]
      funext i
      by_cases hi : i = p
      · rw [write, if_pos (by rw [List.length_singleton]; omega), hi, Nat.sub_self]
        rfl
      · exact write_outside (by rw [List.length_singleton]; omega)

/-- The later of two writes to the same cells stays. -/
theorem Mem.write_write (m : Mem) (p : Nat) {xs ys : Bytes} (h : xs.length = ys.length) :
    (m.write p xs).write p ys = m.write p ys := by
  funext i
  by_cases hi : p ≤ i ∧ i < p + ys.length
  · rw [write, if_pos hi, write, if_pos hi]
  · rw [write_outside (by omega), write_outside (by omega), write_outside (by omega)]

theorem Mem.slice_write_outside {m : Mem} {p q count : Nat} {bs : Bytes}
    (h : q + count ≤ p ∨ p + bs.length ≤ q) : (m.write p bs).slice q count = m.slice q count :=
  slice_congr fun _ _ _ => write_outside (by omega)

theorem Mem.be_write_outside {m : Mem} {p q width : Nat} {bs : Bytes}
    (h : q + width ≤ p ∨ p + bs.length ≤ q) : (m.write p bs).be q width = m.be q width := by
  rw [Mem.be, Mem.slice_write_outside h, Mem.be]

/-! ## Memory holding a byte string -/

/-- The cells from `p` on hold exactly `bs`; nothing is said about the others. -/
def Holds (m : Mem) (p : Nat) : Bytes → Prop
  | [] => True
  | b :: bs => m p = b ∧ Holds m (p + 1) bs

@[simp] theorem holds_nil (m : Mem) (p : Nat) : Holds m p [] := trivial

theorem holds_append {m : Mem} {p : Nat} {xs ys : Bytes} :
    Holds m p (xs ++ ys) ↔ Holds m p xs ∧ Holds m (p + xs.length) ys := by
  induction xs generalizing p with
  | nil => simp
  | cons x xs ih => simp [Holds, ih, and_assoc, Nat.add_assoc, Nat.add_comm 1]

theorem Holds.slice {m : Mem} {p : Nat} {bs : Bytes} (h : Holds m p bs) :
    m.slice p bs.length = bs := by
  induction bs generalizing p with
  | nil => rfl
  | cons b bs ih =>
      obtain ⟨hb, hbs⟩ := h
      simp [Mem.slice, hb, ih hbs]

theorem Holds.getD {m : Mem} {p i : Nat} {bs : Bytes} (h : Holds m p bs) (hi : i < bs.length) :
    m (p + i) = bs.getD i 0 := by
  induction bs generalizing p i with
  | nil => simp at hi
  | cons b bs ih =>
      cases i with
      | zero => exact h.1
      | succ i =>
          rw [← Nat.add_assoc, Nat.add_right_comm]
          exact ih h.2 (Nat.lt_of_succ_lt_succ hi)

theorem Holds.be {m : Mem} {p width v : Nat} (h : Holds m p (beBytes width v))
    (hv : v < 256 ^ width) : m.be p width = v := by
  have hs := h.slice
  rw [beBytes_length] at hs
  rw [Mem.be, hs, be_beBytes_of_lt hv]

theorem Holds.be_eq {m : Mem} {p : Nat} {bs : Bytes} (h : Holds m p bs) :
    m.be p bs.length = Core.be bs := congrArg Core.be h.slice

theorem Holds.word {m : Mem} {p width : Nat} {w : Word width} (h : Holds m p w.bytes) :
    m.be p width = w.toNat := Holds.be h w.lt

theorem Mem.holds_write (m : Mem) (p : Nat) (bs : Bytes) : Holds (m.write p bs) p bs := by
  suffices h : ∀ xs ys : Bytes, bs = xs ++ ys → Holds (m.write p bs) (p + xs.length) ys from
    h [] bs rfl
  intro xs ys
  induction ys generalizing xs with
  | nil => intro _; trivial
  | cons y ys ih =>
      intro hb
      refine ⟨?_, ?_⟩
      · have hin : p ≤ p + xs.length ∧ p + xs.length < p + bs.length := by simp [hb]
        rw [Mem.write, if_pos hin]
        simp [hb]
      · simpa [Nat.add_assoc] using ih (xs ++ [y]) (by simpa using hb)

theorem Holds.write_outside {m : Mem} {p q : Nat} {bs ys : Bytes} (h : Holds m p bs)
    (hdisjoint : p + bs.length ≤ q ∨ q + ys.length ≤ p) : Holds (m.write q ys) p bs := by
  induction bs generalizing p with
  | nil => trivial
  | cons b bs ih =>
      rw [List.length_cons] at hdisjoint
      obtain ⟨hb, hbs⟩ := h
      exact ⟨(Mem.write_outside (by omega)).trans hb, ih hbs (by omega)⟩

/-- Stored bytes behind the last cell that is written. -/
theorem Holds.write_before {m : Mem} {p q : Nat} {bs ys : Bytes} (h : Holds m p bs)
    (hend : q + ys.length = p) : Holds (m.write q ys) p bs :=
  h.write_outside (Or.inr (Nat.le_of_eq hend))

/-- A write over a part of stored bytes replaces that part. -/
theorem Holds.replace {m : Mem} {p q : Nat} {xs ys ys' zs : Bytes}
    (h : Holds m p (xs ++ (ys ++ zs))) (hq : q = p + xs.length) (hlength : ys'.length = ys.length) :
    Holds (m.write q ys') p (xs ++ (ys' ++ zs)) := by
  simp only [holds_append] at h ⊢
  obtain ⟨hxs, -, hzs⟩ := h
  refine ⟨hxs.write_outside (by omega), hq ▸ m.holds_write q ys', ?_⟩
  rw [hlength]
  exact hzs.write_outside (by omega)

theorem Holds.write_self {m : Mem} {p : Nat} {bs : Bytes} (h : Holds m p bs) :
    m.write p bs = m := by
  rw [← h.slice]
  exact m.write_slice p _

/-- A write over a part of stored bytes is a write over all of them. -/
theorem Holds.write_part {m : Mem} {p q : Nat} {xs ys ys' zs : Bytes}
    (h : Holds m p (xs ++ (ys ++ zs))) (hq : q = p + xs.length) (hlength : ys'.length = ys.length) :
    m.write q ys' = m.write p (xs ++ (ys' ++ zs)) := by
  have hwritten := h.replace hq hlength
  have hxs := (holds_append.mp hwritten).1
  have hzs := (holds_append.mp (holds_append.mp h).2).2
  subst hq
  rw [Mem.write_append, Mem.write_append, hlength, hzs.write_self, hxs.write_self]

/-- Writing bytes behind each other, the first ones first. -/
theorem Mem.write_append_right (m : Mem) (p : Nat) (xs ys : Bytes) :
    m.write p (xs ++ ys) = (m.write p xs).write (p + xs.length) ys := by
  rw [write_append, m.write_comm (Or.inl (Nat.le_refl _))]

theorem Mem.be_write {m : Mem} {p width v : Nat} (hv : v < 256 ^ width) :
    (m.write p (beBytes width v)).be p width = v :=
  (m.holds_write p (beBytes width v)).be hv

/-- A buffer followed by arbitrary cells. -/
def Mem.ofBytes (bs : Bytes) (beyond : Mem) : Mem := fun i => bs.getD i (beyond i)

theorem holds_ofBytes (bs : Bytes) (beyond : Mem) : Holds (Mem.ofBytes bs beyond) 0 bs := by
  suffices h : ∀ (xs ys : Bytes), bs = xs ++ ys →
      Holds (Mem.ofBytes bs beyond) xs.length ys from h [] bs rfl
  intro xs ys
  induction ys generalizing xs with
  | nil => intro _; trivial
  | cons y ys ih =>
      intro hb
      refine ⟨?_, ?_⟩
      · simp [Mem.ofBytes, hb]
      · simpa using ih (xs ++ [y]) (by simpa using hb)

theorem Mem.slice_ofBytes {bs : Bytes} {p count : Nat} (h : p + count ≤ bs.length)
    (beyond : Mem) : (Mem.ofBytes bs beyond).slice p count = (bs.drop p).take count := by
  have hsplit : bs =
      bs.take p ++ ((bs.drop p).take count ++ (bs.drop p).drop count) := by
    rw [List.take_append_drop, List.take_append_drop]
  have hholds := holds_ofBytes bs beyond
  rw [hsplit, holds_append, ← hsplit, List.length_take, Nat.min_eq_left (by omega)] at hholds
  have hslice := (holds_append.mp hholds.2).1.slice
  rw [List.length_take, List.length_drop, Nat.min_eq_left (by omega), Nat.zero_add] at hslice
  exact hslice

/-- Writing over a whole buffer. -/
theorem Mem.ofBytes_write {bs bs' : Bytes} (beyond : Mem) (h : bs'.length = bs.length) :
    (Mem.ofBytes bs beyond).write 0 bs' = Mem.ofBytes bs' beyond := by
  funext i
  simp only [write, ofBytes, Nat.zero_le, Nat.zero_add, Nat.sub_zero, true_and,
    List.getD_eq_getElem?_getD]
  by_cases hi : i < bs'.length
  · rw [if_pos hi, List.getElem?_eq_getElem hi]
    rfl
  · rw [if_neg hi, List.getElem?_eq_none (by omega), List.getElem?_eq_none (by omega)]

/-! ## NUL-terminated strings -/

/-- Position of the first zero byte among the `len` bytes at `p`. -/
def Mem.scanNul (m : Mem) (p : Nat) : Nat → Option Nat
  | 0 => none
  | len + 1 => if m p = 0 then some 0 else (scanNul m (p + 1) len).map (· + 1)

theorem Mem.scanNul_lt {m : Mem} {p len i : Nat} (h : m.scanNul p len = some i) : i < len := by
  induction len generalizing p i with
  | zero => simp [scanNul] at h
  | succ len ih =>
      simp only [scanNul] at h
      split at h
      · cases h
        omega
      · obtain ⟨j, hj, rfl⟩ := Option.map_eq_some_iff.mp h
        have := ih hj
        omega

theorem Holds.scanNul {m : Mem} {p : Nat} {s : Bytes} (hn : 0 ∉ s) (h : Holds m p (s ++ [0]))
    {len : Nat} (hl : s.length < len) : m.scanNul p len = some s.length := by
  induction s generalizing p len with
  | nil =>
      obtain ⟨len, rfl⟩ : ∃ k, len = k + 1 := ⟨len - 1, by simp at hl; omega⟩
      simp [Mem.scanNul, h.1]
  | cons c s ih =>
      obtain ⟨len, rfl⟩ : ∃ k, len = k + 1 := ⟨len - 1, by simp at hl; omega⟩
      obtain ⟨hc, hs⟩ := h
      have hz : c ≠ 0 := fun he => hn (by simp [he])
      have ht : 0 ∉ s := fun hm => hn (List.mem_cons_of_mem c hm)
      simp only [List.length_cons] at hl
      simp [Mem.scanNul, hc, hz, ih ht hs (by omega : s.length < len)]

theorem Holds.cstring {m : Mem} {p len : Nat} {s : CString} (h : Holds m p s.bytes)
    (hl : s.chars.length < len) : m.scanNul p len = some s.chars.length :=
  Holds.scanNul s.noNul h hl

/-! ## Bytes as text -/

/-- The bytes of a `std::string`. -/
def bytesOf (text : List Char) : Bytes := text.map fun c => UInt8.ofNat c.toNat

def textOf (bytes : Bytes) : List Char := bytes.map fun b => Char.ofNat b.toNat

@[simp] theorem bytesOf_textOf (bytes : Bytes) : bytesOf (textOf bytes) = bytes := by
  rw [bytesOf, textOf, List.map_map]
  refine (List.map_congr_left fun b _ => ?_).trans (List.map_id bytes)
  have hvalid : b.toNat.isValidChar := Or.inl (by have := b.toNat_lt; omega)
  have hchar : (Char.ofNat b.toNat).toNat = b.toNat := by
    rw [Char.ofNat, dif_pos hvalid]
    rfl
  simp only [Function.comp_apply, hchar, UInt8.ofNat_toNat, id]

end PlayerInterface.Core
