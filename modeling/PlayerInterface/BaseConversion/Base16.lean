import PlayerInterface.Core.Bytes

/-!
# Base16

Two letters stand for a byte. The decoder allocates half a byte for each letter,
rounded down, and takes the letters two at a time while there are any, so the two
lengths part on a text of odd length.
-/

namespace PlayerInterface.BaseConversion.Base16

open PlayerInterface.Core

/-- `"0123456789abcdef"[nibble]`. -/
def hascii (nibble : Nat) : UInt8 :=
  if nibble < 10 then UInt8.ofNat (nibble + 48) else UInt8.ofNat (nibble - 10 + 97)

def WRITE_HASCII (c : UInt8) : Bytes := [hascii (c.toNat / 16), hascii (c.toNat % 16)]

/-- Without the terminator. -/
def base16_Encode (src : Bytes) : Bytes := src.flatMap WRITE_HASCII

/-- The entries of the table as bytes; 255 stands for `-1`. -/
def mBase16CharToIndex (c : UInt8) : UInt8 :=
  if 48 ≤ c ∧ c ≤ 57 then c - 48
  else if 65 ≤ c ∧ c ≤ 70 then c - 65 + 10
  else if 97 ≤ c ∧ c ≤ 102 then c - 97 + 10
  else 255

/-- The indices read so far and the bytes stored from `outData` on. -/
structure Run where
  reads : List Nat
  stored : Bytes

/-- The loop `while (srcPtr < finish)`. -/
def decodeLoop (src : Mem) (finish srcPtr : Nat) (run : Run) : Run :=
  if srcPtr < finish then
    decodeLoop src finish (srcPtr + 2)
      ⟨run.reads ++ [srcPtr, srcPtr + 1],
        run.stored ++
          [mBase16CharToIndex (src srcPtr) <<< 4 ||| mBase16CharToIndex (src (srcPtr + 1))]⟩
  else run
  termination_by finish - srcPtr

/-- The size of the allocation, which is also what `*len` receives. -/
def numChars (srcLen : Nat) : Nat := srcLen / 2

def base16_Decode (src : Mem) (srcLen : Nat) : Run := decodeLoop src srcLen 0 ⟨[], []⟩

/-- What the caller sees through the returned pointer and `*len`. -/
def decoded (src : Mem) (srcLen : Nat) : Bytes :=
  (base16_Decode src srcLen).stored.take (numChars srcLen)

/-- Only letters of the text are read, and one byte is stored, inside the allocation, for each
two of them. -/
structure DecodesWithin (src : Mem) (srcLen : Nat) : Prop where
  reads : ∀ i ∈ (base16_Decode src srcLen).reads, i < srcLen
  stored : (base16_Decode src srcLen).stored.length = srcLen / 2
  allocated : (base16_Decode src srcLen).stored.length ≤ numChars srcLen

/-! ## Reads and stores -/

theorem decodeLoop_turn {src : Mem} {finish srcPtr : Nat} {run : Run} (h : srcPtr < finish) :
    decodeLoop src finish srcPtr run = decodeLoop src finish (srcPtr + 2)
      ⟨run.reads ++ [srcPtr, srcPtr + 1],
        run.stored ++
          [mBase16CharToIndex (src srcPtr) <<< 4 ||| mBase16CharToIndex (src (srcPtr + 1))]⟩ := by
  rw [decodeLoop, if_pos h]

theorem decodeLoop_end {src : Mem} {finish srcPtr : Nat} {run : Run} (h : finish ≤ srcPtr) :
    decodeLoop src finish srcPtr run = run := by
  rw [decodeLoop, if_neg (Nat.not_lt.mpr h)]

/-- A last letter without a partner counts for a whole turn. -/
theorem decodeLoop_stored (src : Mem) (finish srcPtr : Nat) (run : Run) :
    (decodeLoop src finish srcPtr run).stored.length =
      run.stored.length + (finish - srcPtr + 1) / 2 := by
  induction srcPtr, run using decodeLoop.induct src finish with
  | case1 srcPtr run h ih =>
      rw [decodeLoop_turn h, ih, List.length_append, List.length_singleton]
      omega
  | case2 srcPtr run h =>
      rw [decodeLoop_end (Nat.not_lt.mp h)]
      omega

theorem decodeLoop_reads (src : Mem) (finish srcPtr : Nat) (run : Run) :
    ∀ i ∈ (decodeLoop src finish srcPtr run).reads,
      i ∈ run.reads ∨ i < finish + (finish - srcPtr) % 2 := by
  induction srcPtr, run using decodeLoop.induct src finish with
  | case1 srcPtr run h ih =>
      intro i hi
      rw [decodeLoop_turn h] at hi
      rcases ih i hi with hi | hi
      · rcases List.mem_append.mp hi with hi | hi
        · exact Or.inl hi
        · simp only [List.mem_cons, List.not_mem_nil, or_false] at hi
          right
          omega
      · right
        omega
  | case2 srcPtr run h =>
      intro i hi
      rw [decodeLoop_end (Nat.not_lt.mp h)] at hi
      exact Or.inl hi

/-- The decoder keeps to its text and its allocation exactly on texts of even length. -/
theorem decodesWithin_iff (src : Mem) (srcLen : Nat) :
    DecodesWithin src srcLen ↔ srcLen % 2 = 0 := by
  have hlength := decodeLoop_stored src srcLen 0 ⟨[], []⟩
  rw [List.length_nil, Nat.zero_add, Nat.sub_zero] at hlength
  constructor
  · intro h
    have hstored := h.stored
    rw [base16_Decode, hlength] at hstored
    omega
  · intro heven
    have hhalf : (base16_Decode src srcLen).stored.length = srcLen / 2 := by
      rw [base16_Decode, hlength]
      omega
    refine ⟨fun i hi => ?_, hhalf, Nat.le_of_eq hhalf⟩
    rcases decodeLoop_reads src srcLen 0 ⟨[], []⟩ i hi with hi | hi
    · cases hi
    · omega

/-! ## Round trip -/

theorem index_hascii {nibble : Nat} (h : nibble < 16) :
    mBase16CharToIndex (hascii nibble) = UInt8.ofNat nibble := by
  have hall : ∀ n < 16, mBase16CharToIndex (hascii n) = UInt8.ofNat n := by decide
  exact hall nibble h

theorem nibbles_join (c : UInt8) :
    UInt8.ofNat (c.toNat / 16) <<< 4 ||| UInt8.ofNat (c.toNat % 16) = c := by
  have hall : ∀ n < 256, UInt8.ofNat (n / 16) <<< 4 ||| UInt8.ofNat (n % 16) = UInt8.ofNat n := by
    decide +kernel
  have hc := hall c.toNat c.toNat_lt
  rwa [UInt8.ofNat_toNat] at hc

@[simp] theorem base16_Encode_length (src : Bytes) :
    (base16_Encode src).length = 2 * src.length := by
  induction src with
  | nil => rfl
  | cons c src ih =>
      have hcons : base16_Encode (c :: src) = WRITE_HASCII c ++ base16_Encode src := rfl
      rw [hcons, List.length_append, ih, List.length_cons]
      exact (Nat.add_comm _ _).trans (Nat.mul_succ 2 _).symm

theorem decodeLoop_encoded {m : Mem} {finish srcPtr : Nat} {src : Bytes}
    (hholds : Holds m srcPtr (base16_Encode src)) (hfin : finish = srcPtr + 2 * src.length)
    (run : Run) :
    (decodeLoop m finish srcPtr run).stored = run.stored ++ src := by
  induction src generalizing srcPtr run with
  | nil =>
      have hend : finish ≤ srcPtr := Nat.le_of_eq hfin
      rw [decodeLoop_end hend, List.append_nil]
  | cons c src ih =>
      have hc := c.toNat_lt
      rcases hholds with ⟨hhigh, hlow, hrest⟩
      rw [List.length_cons] at hfin
      rw [decodeLoop_turn (by omega), ih hrest (by omega), hhigh, hlow, index_hascii (by omega),
        index_hascii (by omega), nibbles_join, List.append_assoc]
      rfl

theorem decoded_base16_Encode (src : Bytes) (beyond : Mem) :
    decoded (Mem.ofBytes (base16_Encode src) beyond) (base16_Encode src).length = src := by
  have hstored := decodeLoop_encoded (holds_ofBytes (base16_Encode src) beyond)
    (Nat.zero_add _).symm ⟨[], []⟩
  rw [decoded, base16_Decode, numChars, base16_Encode_length, hstored,
    Nat.mul_div_cancel_left _ (by decide)]
  exact List.take_length

/-- The decoder gives every encoded text back; it keeps to its text and to its allocation exactly
when the text has an even number of letters. -/
theorem base16_codec (src s : Bytes) (beyond : Mem) :
    decoded (Mem.ofBytes (base16_Encode src) beyond) (base16_Encode src).length = src ∧
      (DecodesWithin (Mem.ofBytes s beyond) s.length ↔ s.length % 2 = 0) :=
  ⟨decoded_base16_Encode src beyond, decodesWithin_iff _ _⟩

/-- The single letter `0` is read together with the byte behind it, and a byte is stored in an
allocation of none. -/
theorem oneLetter_not_within :
    ¬ ∀ (s : Bytes) (beyond : Mem), DecodesWithin (Mem.ofBytes s beyond) s.length := by
  intro hclaim
  have hreads := (hclaim [48] fun _ => 0).reads 1
  rw [base16_Decode, decodeLoop_turn (by decide), decodeLoop_end (by decide)] at hreads
  exact absurd (hreads (List.mem_cons_of_mem 0 List.mem_cons_self)) (by decide)

end PlayerInterface.BaseConversion.Base16
