import PlayerInterface.Core.Bytes

/-!
# The wire format of protocol buffers

Numbers in groups of seven bits, least significant group first, each group but the last
with the high bit set; fields behind a key that says how far they extend.
-/

namespace PlayerInterface.Core

/-- A number as it is written, with as many groups as the writer chose. -/
structure Varint where
  more : List (Fin 128)
  last : Fin 128
  short : more.length ≤ 9
deriving DecidableEq

namespace Varint

def continued (group : Fin 128) : UInt8 := UInt8.ofNat (group.val + 128)

def final (group : Fin 128) : UInt8 := UInt8.ofNat group.val

def groupValue : List (Fin 128) → Fin 128 → Nat
  | [], last => last.val
  | group :: more, last => group.val + 128 * groupValue more last

def octets (v : Varint) : Bytes := v.more.map continued ++ [final v.last]

def value (v : Varint) : Nat := groupValue v.more v.last

/-- A number in one octet. -/
def ofOctet (octet : UInt8) (h : octet.toNat < 128) : Varint := ⟨[], ⟨octet.toNat, h⟩, Nat.zero_le 9⟩

@[simp] theorem ofOctet_octets (octet : UInt8) (h : octet.toNat < 128) :
    (ofOctet octet h).octets = [octet] := by
  simp [octets, ofOctet, final]

@[simp] theorem octets_length (v : Varint) : v.octets.length = v.more.length + 1 := by
  simp [octets]

theorem continued_toNat (group : Fin 128) : (continued group).toNat = group.val + 128 := by
  have hlt := group.isLt
  rw [continued, UInt8.toNat_ofNat', Nat.mod_eq_of_lt (by omega)]

theorem final_toNat (group : Fin 128) : (final group).toNat = group.val := by
  have hlt := group.isLt
  rw [final, UInt8.toNat_ofNat', Nat.mod_eq_of_lt (by omega)]

/-- Written in one octet, a number is that octet. -/
theorem octets_of_one {v : Varint} (h : v.more = []) :
    ∃ octet : UInt8, v.octets = [octet] ∧ octet.toNat = v.value := by
  refine ⟨final v.last, ?_, ?_⟩
  · rw [octets, h]
    rfl
  · rw [value, h, final_toNat]
    rfl

/-- Groups in front of a value below a power of two. -/
theorem groupValue_lt (group : Fin 128) (n k : Nat) :
    group.val + 128 * n < 2 ^ (k + 7) ↔ n < 2 ^ k := by
  have hlt := group.isLt
  have hpow : 2 ^ (k + 7) = 128 * 2 ^ k := by rw [Nat.pow_add, Nat.mul_comm]
  rw [hpow]
  omega

end Varint

mutual

/-- The octets of a field with the given key: field number and wire type. -/
inductive IsField : Nat → Bytes → Prop
  | varint (key v : Varint) : key.value % 8 = 0 → IsField key.value (key.octets ++ v.octets)
  | fixed64 (key : Varint) (bs : Bytes) : key.value % 8 = 1 → bs.length = 8 →
      IsField key.value (key.octets ++ bs)
  | bytes (key len : Varint) (bs : Bytes) : key.value % 8 = 2 → len.value = bs.length →
      IsField key.value (key.octets ++ len.octets ++ bs)
  | group (key stop : Varint) (inner : Bytes) : key.value % 8 = 3 → stop.value = key.value + 1 →
      IsFields inner → IsField key.value (key.octets ++ inner ++ stop.octets)
  | fixed32 (key : Varint) (bs : Bytes) : key.value % 8 = 5 → bs.length = 4 →
      IsField key.value (key.octets ++ bs)

/-- A message: fields one behind the other. -/
inductive IsFields : Bytes → Prop
  | nil : IsFields []
  | cons (key : Nat) (bs rest : Bytes) : IsField key bs → IsFields rest → IsFields (bs ++ rest)

end

theorem IsField.length_pos {key : Nat} {bs : Bytes} (h : IsField key bs) : 0 < bs.length := by
  cases h <;> simp only [List.length_append, Varint.octets_length] <;> omega

end PlayerInterface.Core
