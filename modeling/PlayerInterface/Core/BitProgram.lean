import PlayerInterface.Core.Bytes

/-!
# Programs that read bits

What such a program reads next may depend on all it has read. Over bytes that end somewhere it
fails at the first bit behind the end; it comes to its result exactly when its layout, with the
bits behind the end taken as zero, ends inside the bytes.
-/

namespace PlayerInterface.Core

inductive BitProgram (α : Type) where
  | done (a : α)
  | read (count : Nat) (next : Nat → BitProgram α)

/-- A byte with the bits behind the end of the bytes taken as zero. -/
def byteOrZero (bytes : Bytes) (i : Nat) : UInt8 := bytes[i]?.getD 0

/-- The bit of a byte that a mask of `0x80 >> (pos & 7)` leaves. -/
def maskedBit (byte : UInt8) (pos : Nat) : Nat :=
  if byte.toNat &&& (0x80 >>> (pos % 8)) ≠ 0 then 1 else 0

namespace BitProgram

variable {α β : Type}

def bind : BitProgram α → (α → BitProgram β) → BitProgram β
  | done a, f => f a
  | read count next, f => read count fun value => (next value).bind f

instance : Monad BitProgram where
  pure := done
  bind := bind

/-- The next `count` bits as a number, the first one on top. -/
def bits (count : Nat) : BitProgram Nat := read count done

/-- Reads bits from `pos` on behind `rc`; `none` at a byte that is not there. -/
def readBits (bytes : Bytes) : Nat → Nat → Nat → Option Nat
  | 0, _, rc => some rc
  | count + 1, pos, rc =>
      match bytes[pos / 8]? with
      | none => none
      | some byte => readBits bytes count (pos + 1) (rc * 2 + maskedBit byte pos)

/-- The result over bytes and the place behind the last bit. -/
def runIn (bytes : Bytes) : BitProgram α → Nat → Option (α × Nat)
  | done a, pos => some (a, pos)
  | read count next, pos =>
      match readBits bytes count pos 0 with
      | none => none
      | some value => runIn bytes (next value) (pos + count)

/-- The value of bits, with zeros behind the end. -/
def bitsOrZero (bytes : Bytes) : Nat → Nat → Nat → Nat
  | 0, _, rc => rc
  | count + 1, pos, rc =>
      bitsOrZero bytes count (pos + 1) (rc * 2 + maskedBit (byteOrZero bytes (pos / 8)) pos)

/-- The same over bytes that go on with zeros. -/
def run (bytes : Bytes) : BitProgram α → Nat → α × Nat
  | done a, pos => (a, pos)
  | read count next, pos => run bytes (next (bitsOrZero bytes count pos 0)) (pos + count)

theorem readBits_of_le {bytes : Bytes} {count pos : Nat} (h : pos + count ≤ 8 * bytes.length)
    (rc : Nat) : readBits bytes count pos rc = some (bitsOrZero bytes count pos rc) := by
  induction count generalizing pos rc with
  | zero => rfl
  | succ count ih =>
      have hlt : pos / 8 < bytes.length := by omega
      have hbyte : bytes[pos / 8]? = some bytes[pos / 8] := List.getElem?_eq_getElem hlt
      have hzero : byteOrZero bytes (pos / 8) = bytes[pos / 8] := by
        rw [byteOrZero, hbyte, Option.getD_some]
      rw [readBits, hbyte, bitsOrZero, hzero]
      exact ih (by omega) _

theorem readBits_of_lt {bytes : Bytes} {count pos : Nat} (h : 8 * bytes.length < pos + count)
    (hpos : pos ≤ 8 * bytes.length) (rc : Nat) : readBits bytes count pos rc = none := by
  induction count generalizing pos rc with
  | zero => omega
  | succ count ih =>
      rw [readBits]
      cases hbyte : bytes[pos / 8]? with
      | none => rfl
      | some byte =>
          obtain ⟨hlt, _⟩ := List.getElem?_eq_some_iff.mp hbyte
          exact ih (by omega) (by omega) _

theorem le_run (bytes : Bytes) (program : BitProgram α) (pos : Nat) :
    pos ≤ (program.run bytes pos).2 := by
  induction program generalizing pos with
  | done a => exact Nat.le_refl pos
  | read count next ih => exact Nat.le_trans (Nat.le_add_right pos count) (ih _ (pos + count))

/-- A program comes to its result exactly when its layout ends inside the bytes. -/
theorem runIn_eq {bytes : Bytes} (program : BitProgram α) {pos : Nat}
    (hpos : pos ≤ 8 * bytes.length) : program.runIn bytes pos =
      if (program.run bytes pos).2 ≤ 8 * bytes.length then some (program.run bytes pos)
      else none := by
  induction program generalizing pos with
  | done a => rw [runIn, run, if_pos hpos]
  | read count next ih =>
      rw [runIn, run]
      by_cases hcount : pos + count ≤ 8 * bytes.length
      · rw [readBits_of_le hcount]
        exact ih _ hcount
      · have hend := le_run bytes (next (bitsOrZero bytes count pos 0)) (pos + count)
        rw [readBits_of_lt (by omega) hpos, if_neg (by omega)]

end BitProgram
end PlayerInterface.Core
