import PlayerInterface.Core.Bytes
import Mathlib.Data.List.Basic

/-!
# Little-endian words and length-prefixed frames

Parsers are stateful in the bytes still to read and fail when these run out.
Each writer comes with the lemma that its parser, run on the written bytes and
any tail, gives the value and hands on the tail.
-/

namespace PlayerInterface.Core

def le : Bytes → Nat
  | [] => 0
  | b :: bs => b.toNat + 256 * le bs

/-- The low `width` bytes of a value, least significant byte first. -/
def leBytes : Nat → Nat → Bytes
  | 0, _ => []
  | width + 1, v => UInt8.ofNat v :: leBytes width (v / 256)

@[simp] theorem leBytes_length (width v : Nat) : (leBytes width v).length = width := by
  induction width generalizing v with
  | zero => rfl
  | succ width ih => simp [leBytes, ih]

theorem le_leBytes (width v : Nat) : le (leBytes width v) = v % 256 ^ width := by
  induction width generalizing v with
  | zero => simp [leBytes, le, Nat.mod_one]
  | succ width ih =>
      have hbyte : (UInt8.ofNat v).toNat = v % 256 := by simp
      rw [leBytes, le, ih, hbyte, Nat.pow_succ', Nat.mod_mul]

/-- A value splits into its low and its high bytes. -/
theorem leBytes_add (low high v : Nat) :
    leBytes (low + high) v = leBytes low v ++ leBytes high (v / 256 ^ low) := by
  induction low generalizing v with
  | zero => simp [leBytes]
  | succ low ih =>
      rw [Nat.succ_add, leBytes, ih, leBytes, List.cons_append, Nat.pow_succ',
        Nat.div_div_eq_div_mul]

/-- Only the low bytes of a value are written. -/
theorem leBytes_mod (width v : Nat) : leBytes width (v % 256 ^ width) = leBytes width v := by
  induction width generalizing v with
  | zero => rfl
  | succ width ih =>
      have hlow : UInt8.ofNat (v % 256 ^ (width + 1)) = UInt8.ofNat v := by
        apply UInt8.toNat_inj.mp
        have hdvd : 256 ∣ 256 ^ (width + 1) := Nat.pow_succ' ▸ Nat.dvd_mul_right 256 (256 ^ width)
        rw [UInt8.toNat_ofNat', UInt8.toNat_ofNat']
        exact Nat.mod_mod_of_dvd v hdvd
      have hhigh : v % 256 ^ (width + 1) / 256 = v / 256 % 256 ^ width := by
        rw [Nat.pow_succ', Nat.mod_mul_right_div_self]
      rw [leBytes, leBytes, hlow, hhigh, ih]

/-! ## Parsers -/

abbrev Parse := StateT Bytes Option

namespace Parse

variable {α : Type}

def takeBytes (count : Nat) : Parse Bytes := fun bs =>
  if count ≤ bs.length then some (bs.take count, bs.drop count) else none

def readLe (width : Nat) : Parse Nat := do
  let word ← takeBytes width
  pure (le word)

/-- All the bytes that are left. -/
def takeRest : Parse Bytes := fun bs => some (bs, [])

def read32 : Parse UInt32 := do
  let word ← readLe 4
  pure (UInt32.ofNat word)

def read64 : Parse UInt64 := do
  let word ← readLe 8
  pure (UInt64.ofNat word)

def readWords : Nat → Parse (List UInt32)
  | 0 => pure []
  | count + 1 => do
      let word ← read32
      let words ← readWords count
      pure (word :: words)

/-- The value of a parser that consumes its whole input. -/
def complete (p : Parse α) (bs : Bytes) : Option α :=
  match p bs with
  | some (a, []) => some a
  | _ => none

end Parse

def le32 (v : UInt32) : Bytes := leBytes 4 v.toNat

def le64 (v : UInt64) : Bytes := leBytes 8 v.toNat

@[simp] theorem le32_length (v : UInt32) : (le32 v).length = 4 := leBytes_length 4 v.toNat

@[simp] theorem le64_length (v : UInt64) : (le64 v).length = 8 := leBytes_length 8 v.toNat

namespace Parse

variable {α β : Type}

theorem bind_apply (p : Parse α) (f : α → Parse β) (bs : Bytes) :
    (p >>= f) bs = (p bs).bind fun r => f r.1 r.2 := rfl

@[simp] theorem pure_apply (a : α) (bs : Bytes) : (pure a : Parse α) bs = some (a, bs) := rfl

theorem bind_of_apply {p : Parse α} {bs rest : Bytes} {a : α} (h : p bs = some (a, rest))
    (f : α → Parse β) : (p >>= f) bs = f a rest := by
  rw [bind_apply, h, Option.bind_some]

theorem takeBytes_append (bytes tail : Bytes) :
    takeBytes bytes.length (bytes ++ tail) = some (bytes, tail) := by
  simp [takeBytes]

theorem readLe_append {width v : Nat} (h : v < 256 ^ width) (tail : Bytes) :
    readLe width (leBytes width v ++ tail) = some (v, tail) := by
  have htake := takeBytes_append (leBytes width v) tail
  rw [leBytes_length] at htake
  rw [readLe, bind_of_apply htake, pure_apply, le_leBytes, Nat.mod_eq_of_lt h]

theorem read32_append (v : UInt32) (tail : Bytes) : read32 (le32 v ++ tail) = some (v, tail) := by
  rw [read32, le32, bind_of_apply (readLe_append v.toNat_lt tail), pure_apply, UInt32.ofNat_toNat]

theorem read64_append (v : UInt64) (tail : Bytes) : read64 (le64 v ++ tail) = some (v, tail) := by
  rw [read64, le64, bind_of_apply (readLe_append v.toNat_lt tail), pure_apply, UInt64.ofNat_toNat]

theorem readWords_append (words : List UInt32) (tail : Bytes) :
    readWords words.length (words.flatMap le32 ++ tail) = some (words, tail) := by
  induction words with
  | nil => rfl
  | cons word words ih =>
      rw [List.flatMap_cons, List.append_assoc, List.length_cons, readWords,
        bind_of_apply (read32_append word _), bind_of_apply ih, pure_apply]

@[simp] theorem read32_bind (v : UInt32) (tail : Bytes) (f : UInt32 → Parse β) :
    (read32 >>= f) (le32 v ++ tail) = f v tail :=
  bind_of_apply (read32_append v tail) f

@[simp] theorem read64_bind (v : UInt64) (tail : Bytes) (f : UInt64 → Parse β) :
    (read64 >>= f) (le64 v ++ tail) = f v tail :=
  bind_of_apply (read64_append v tail) f

@[simp] theorem read32_bind_last (v : UInt32) (f : UInt32 → Parse β) :
    (read32 >>= f) (le32 v) = f v [] := by
  simpa using read32_bind v [] f

@[simp] theorem read64_bind_last (v : UInt64) (f : UInt64 → Parse β) :
    (read64 >>= f) (le64 v) = f v [] := by
  simpa using read64_bind v [] f

@[simp] theorem takeRest_bind (bs : Bytes) (f : Bytes → Parse β) :
    (takeRest >>= f) bs = f bs [] := rfl

theorem complete_of_apply {p : Parse α} {bs : Bytes} {a : α} (h : p bs = some (a, [])) :
    p.complete bs = some a := by
  rw [complete, h]

end Parse

/-! ## Frames -/

/-- A header of three words, type, counter and body length, then the body. -/
structure Frame where
  type : UInt32
  counter : UInt32
  body : Bytes
  deriving DecidableEq, Repr

namespace Frame

def bytes (f : Frame) : Bytes :=
  le32 f.type ++ le32 f.counter ++ le32 (UInt32.ofNat f.body.length) ++ f.body

def read : Parse Frame := do
  let type ← Parse.read32
  let counter ← Parse.read32
  let size ← Parse.read32
  let body ← Parse.takeBytes size.toNat
  pure ⟨type, counter, body⟩

/-- Frames read one after the other until no byte is left. A frame is at least
one byte long, so the length of the input is enough fuel. -/
def readMany : Nat → Bytes → Option (List Frame)
  | _, [] => some []
  | 0, _ :: _ => none
  | fuel + 1, bs => do
      let (frame, rest) ← read bs
      let frames ← readMany fuel rest
      pure (frame :: frames)

def readAll (bs : Bytes) : Option (List Frame) := readMany bs.length bs

theorem read_append {f : Frame} (h : f.body.length < 2 ^ 32) (tail : Bytes) :
    read (f.bytes ++ tail) = some (f, tail) := by
  have hsize : (UInt32.ofNat f.body.length).toNat = f.body.length := by
    rw [UInt32.toNat_ofNat', Nat.mod_eq_of_lt h]
  have hbody := Parse.takeBytes_append f.body tail
  simp only [read, bytes, List.append_assoc, Parse.read32_bind, hsize]
  rw [Parse.bind_of_apply hbody, Parse.pure_apply]

theorem bytes_ne_nil (f : Frame) : f.bytes ≠ [] := by
  intro h
  have hlen := congrArg List.length h
  simp [bytes] at hlen

theorem readMany_append {f : Frame} (h : f.body.length < 2 ^ 32) (fuel : Nat) (tail : Bytes) :
    readMany (fuel + 1) (f.bytes ++ tail) = (readMany fuel tail).map (f :: ·) := by
  have hread := read_append h tail
  cases hbytes : f.bytes ++ tail with
  | nil => exact absurd (List.append_eq_nil_iff.mp hbytes).1 f.bytes_ne_nil
  | cons b bs =>
      rw [hbytes] at hread
      simp only [readMany, hread, Option.bind_eq_bind, Option.bind_some, Option.pure_def]
      cases readMany fuel tail <;> rfl

theorem readMany_flatMap {frames : List Frame} (h : ∀ f ∈ frames, f.body.length < 2 ^ 32)
    {fuel : Nat} (hfuel : frames.length ≤ fuel) :
    readMany fuel (frames.flatMap bytes) = some frames := by
  induction frames generalizing fuel with
  | nil => cases fuel <;> rfl
  | cons f frames ih =>
      have hf := h f List.mem_cons_self
      have htail : ∀ g ∈ frames, g.body.length < 2 ^ 32 :=
        fun g hg => h g (List.mem_cons_of_mem f hg)
      cases fuel with
      | zero => simp at hfuel
      | succ fuel =>
          rw [List.flatMap_cons, readMany_append hf,
            ih htail (Nat.le_of_succ_le_succ hfuel), Option.map_some]

theorem length_le_flatMap (frames : List Frame) :
    frames.length ≤ (frames.flatMap bytes).length := by
  induction frames with
  | nil => exact Nat.le_refl 0
  | cons f frames ih =>
      have := List.length_pos_iff.mpr f.bytes_ne_nil
      rw [List.flatMap_cons, List.length_append, List.length_cons]
      omega

/-- A concatenation of frames is read back frame by frame, with no byte left. -/
theorem readAll_flatMap {frames : List Frame} (h : ∀ f ∈ frames, f.body.length < 2 ^ 32) :
    readAll (frames.flatMap bytes) = some frames :=
  readMany_flatMap h (length_le_flatMap frames)

end Frame
end PlayerInterface.Core
