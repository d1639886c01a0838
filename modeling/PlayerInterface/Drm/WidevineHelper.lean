import PlayerInterface.Core.Protobuf
import PlayerInterface.Drm.PlayReadyHelper

/-!
# The Widevine helper's reading of a PSSH box

A loop over tags of one octet. Lengths are read as one octet too, numbers as groups of
seven bits. Of a tag it does not know it steps over the tag alone.
-/

namespace PlayerInterface.Drm

open PlayerInterface.Core

/-- Only keys with at least one byte are ever stored. -/
abbrev KeyId := {bs : Bytes // bs ≠ []}

structure WidevineDrmHelper where
  mInitData : Bytes
  mKeyIDs : Nat → Option KeyId
  protectionScheme : BitVec 32

namespace WidevineDrmHelper

/-- As the constructor leaves it. -/
def new : WidevineDrmHelper where
  mInitData := []
  mKeyIDs := fun _ => none
  protectionScheme := 0

def systemID_WideVine : Bytes :=
  [0xed, 0xef, 0x8b, 0xa9, 0x79, 0xd6, 0x4a, 0xce, 0xa3, 0xc8, 0x27, 0xdc, 0xd5, 0x1d, 0x21, 0xed]

/-- `a << shift` of a nonnegative `int`, whose bits must all fit its 32 ones. -/
def shiftLeft (a shift : Nat) : Option (BitVec 32) :=
  if shift < 32 ∧ a * 2 ^ shift < 2 ^ 32 then some (BitVec.ofNat 32 (a * 2 ^ shift)) else none

/-- With `left` bytes before the end: the value, a `long`, and the position behind it. -/
def ParseMultiInt (m : Mem) : Nat → Nat → BitVec 64 → Nat → Option (BitVec 64 × Nat)
  | 0, psshData, iVal, _ => some (iVal, psshData)
  | left + 1, psshData, iVal, shift => do
      let code := (m psshData).toNat
      let group ← shiftLeft (code % 128) shift
      let iVal := iVal ||| group.signExtend 64
      if code < 128 then some (iVal, psshData + 1)
      else ParseMultiInt m left (psshData + 1) iVal (shift + 7)

theorem slice_ne_nil (m : Mem) (p : Nat) {count : Nat} (h : 0 < count) : m.slice p count ≠ [] := by
  intro hnil
  have hlen := m.slice_length p count
  rw [hnil] at hlen
  exact Nat.ne_of_lt h hlen

def setKeyID (h : WidevineDrmHelper) (i : Nat) (keyId : KeyId) : WidevineDrmHelper :=
  { h with mKeyIDs := Function.update h.mKeyIDs i (some keyId) }

/-! ## The loop over the fields of version 0 -/

/-- The locals of the loop and the helper. -/
structure FieldLoop where
  psshData : Nat
  kidCount : Nat
  rc : Bool
  helper : WidevineDrmHelper

/-- Content ID and Key ID, from the octet of the length. -/
def readKeyID (m : Mem) (fin psshData : Nat) (s : FieldLoop) : FieldLoop :=
  let fieldSize := (m psshData).toNat
  let psshData := psshData + 1
  if h : 0 < fieldSize ∧ psshData + fieldSize ≤ fin then
    let keyId := ⟨m.slice psshData fieldSize, slice_ne_nil m psshData h.1⟩
    { psshData := psshData + fieldSize, kidCount := s.kidCount + 1, rc := true,
      helper := s.helper.setKeyID s.kidCount keyId }
  else { s with psshData := psshData + fieldSize }

/-- One turn of the loop, from the octet of the tag. -/
def readField (m : Mem) (fin : Nat) (s : FieldLoop) : Option FieldLoop :=
  let psshData := s.psshData + 1
  match (m s.psshData).toNat with
  | 0x38 | 0x50 | 0x08 => do
      let (_, psshData) ← ParseMultiInt m (fin - psshData) psshData 0 0
      some { s with psshData }
  | 0x48 => do
      let (iVal, psshData) ← ParseMultiInt m (fin - psshData) psshData 0 0
      some { s with psshData, helper := { s.helper with protectionScheme := iVal.setWidth 32 } }
  | 0x22 | 0x12 => some (readKeyID m fin psshData s)
  | 0x32 | 0x2a | 0x1a =>
      let fieldSize := (m psshData).toNat
      some { s with psshData := psshData + 1 + fieldSize }
  | _ => some { s with psshData }

/-- Every turn goes on by an octet at least, so the octets before the end are enough turns. -/
def readFields (m : Mem) (fin : Nat) : Nat → FieldLoop → Option FieldLoop
  | 0, s => some s
  | turns + 1, s =>
      if s.psshData < fin then (readField m fin s).bind (readFields m fin turns) else some s

/-! ## The keys of version 1 -/

/-- Key ids of sixteen bytes, one behind the other, whatever the size of the box. -/
def assignKeyIDs (m : Mem) : Nat → Nat → Nat → WidevineDrmHelper → WidevineDrmHelper
  | 0, _, _, h => h
  | left + 1, i, psshData, h =>
      let keyId := ⟨m.slice psshData 16, slice_ne_nil m psshData (by decide)⟩
      assignKeyIDs m left (i + 1) (psshData + 16) (h.setKeyID i keyId)

/-! ## The box -/

/-- Undefined behaviour has no result. A data size that is not the rest of the box is only
logged. -/
def parsePssh (h : WidevineDrmHelper) (psshData : Mem) (psshSize : Nat) :
    Option (Bool × WidevineDrmHelper) :=
  let h := { h with mInitData := psshData.slice 0 psshSize }
  let fin := psshSize
  let boxSize := psshData.be 0 4
  if boxSize ≠ psshSize then some (false, h)
  else if psshData.slice 4 4 ≠ ascii "pssh" then some (false, h)
  else if psshData.slice 12 16 ≠ systemID_WideVine then some (false, h)
  else
    let psshDataVer := psshData.be 8 4 / 2 ^ 24
    if psshDataVer = 0 then do
      let s ← readFields psshData fin (fin - 32) ⟨32, 0, false, h⟩
      some (s.rc, s.helper)
    else if psshDataVer = 1 then
      let kidCount := psshData.be 28 4
      some (decide (0 < kidCount), assignKeyIDs psshData kidCount 0 32 h)
    else some (false, h)

/-! ## What one turn and one call do -/

theorem ParseMultiInt_advances {m : Mem} {left psshData shift next : Nat} {iVal iVal' : BitVec 64}
    (h : ParseMultiInt m left psshData iVal shift = some (iVal', next)) : psshData ≤ next := by
  induction left generalizing psshData iVal shift with
  | zero =>
      cases h
      exact Nat.le_refl _
  | succ left ih =>
      obtain ⟨group, -, h⟩ := Option.bind_eq_some_iff.mp h
      dsimp only at h
      split at h
      · cases h
        exact Nat.le_succ _
      · exact Nat.le_of_succ_le (ih h)

theorem readKeyID_advances (m : Mem) (fin psshData : Nat) (s : FieldLoop) :
    psshData < (readKeyID m fin psshData s).psshData := by
  unfold readKeyID
  dsimp only
  split <;> dsimp only <;> omega

theorem readField_advances {m : Mem} {fin : Nat} {s t : FieldLoop}
    (h : readField m fin s = some t) : s.psshData < t.psshData := by
  unfold readField at h
  dsimp only at h
  split at h
  case h_1 | h_2 | h_3 | h_4 =>
      obtain ⟨⟨iVal, next⟩, hint, h⟩ := Option.bind_eq_some_iff.mp h
      cases h
      exact ParseMultiInt_advances hint
  case h_5 | h_6 =>
      cases h
      exact Nat.lt_of_succ_lt (readKeyID_advances m fin _ s)
  case h_7 | h_8 | h_9 =>
      cases h
      dsimp only
      omega
  case h_10 =>
      cases h
      exact Nat.lt_succ_self _

/-- Enough turns are as good as any other number of turns that is enough. -/
theorem readFields_turns {m : Mem} {fin : Nat} {s : FieldLoop} {turns turns' : Nat}
    (h : fin - s.psshData ≤ turns) (h' : fin - s.psshData ≤ turns') :
    readFields m fin turns s = readFields m fin turns' s := by
  induction turns generalizing s turns' with
  | zero =>
      cases turns' with
      | zero => rfl
      | succ turns' => rw [readFields, readFields, if_neg (by omega)]
  | succ turns ih =>
      cases turns' with
      | zero => rw [readFields, readFields, if_neg (by omega)]
      | succ turns' =>
          rw [readFields, readFields]
          split
          · cases hstep : readField m fin s with
            | none => rfl
            | some t =>
                have hadv := readField_advances hstep
                exact ih (by omega) (by omega)
          · rfl

/-- The loop from a state on, to its end. -/
def runFields (m : Mem) (fin : Nat) (s : FieldLoop) : Option FieldLoop :=
  readFields m fin (fin - s.psshData) s

theorem runFields_step {m : Mem} {fin : Nat} {s : FieldLoop} (h : s.psshData < fin) :
    runFields m fin s = (readField m fin s).bind (runFields m fin) := by
  obtain ⟨turns, hturns⟩ : ∃ turns, fin - s.psshData = turns + 1 := ⟨fin - s.psshData - 1, by omega⟩
  rw [runFields, hturns, readFields, if_pos h]
  cases hstep : readField m fin s with
  | none => rfl
  | some t =>
      have hadv := readField_advances hstep
      exact readFields_turns (by omega) (Nat.le_refl _)

theorem runFields_end {m : Mem} {fin : Nat} {s : FieldLoop} (h : fin ≤ s.psshData) :
    runFields m fin s = some s := by
  rw [runFields, Nat.sub_eq_zero_of_le h]
  rfl

end WidevineDrmHelper
end PlayerInterface.Drm
