import PlayerInterface.Core.BitProgram

/-!
# Time codes in video buffers

`ExtractSEI` looks for start codes with four bytes to spare, and hands what is behind one to a
reader of bits that knows no end. The layout of a message may go on behind the buffer; below four
bytes the bound of the loop wraps.
-/

namespace PlayerInterface.Ocdm

open PlayerInterface.Core

/-- The arguments of `gst_buffer_add_video_time_code_meta_full`. -/
structure TimeCodeMeta where
  fps_n : Nat := 30000
  fps_d : Nat := 1001
  hours : Nat
  minutes : Nat
  seconds : Nat
  frames : Nat
  field_count : Nat := 0
deriving DecidableEq, Repr

def NAL_SEI_PREFIX : Nat := 39

def TIME_CODE : Nat := 136

open BitProgram

def hoursValue : BitProgram Nat := do
  let hours_flag ← bits 1
  if hours_flag ≠ 0 then bits 5 else pure 0

/-- Minutes and hours. -/
def minutesValue : BitProgram (Nat × Nat) := do
  let minutes_flag ← bits 1
  if minutes_flag ≠ 0 then do
    let minutes_value ← bits 6
    let hours_value ← hoursValue
    pure (minutes_value, hours_value)
  else pure (0, 0)

/-- Seconds, minutes and hours. -/
def timeValue (full_timestamp_flag : Nat) : BitProgram (Nat × Nat × Nat) := do
  if full_timestamp_flag ≠ 0 then do
    let seconds_value ← bits 6
    let minutes_value ← bits 6
    let hours_value ← bits 5
    pure (seconds_value, minutes_value, hours_value)
  else do
    let seconds_flag ← bits 1
    if seconds_flag ≠ 0 then do
      let seconds_value ← bits 6
      let (minutes_value, hours_value) ← minutesValue
      pure (seconds_value, minutes_value, hours_value)
    else pure (0, 0, 0)

def timeCode : BitProgram TimeCodeMeta := do
  let _nuit_field_based_flag ← bits 1
  let _counting_type ← bits 5
  let full_timestamp_flag ← bits 1
  let _discontinuity_flag ← bits 1
  let _cnt_dropped_flag ← bits 1
  let n_frames ← bits 9
  let (seconds_value, minutes_value, hours_value) ← timeValue full_timestamp_flag
  pure
    { hours := hours_value
      minutes := minutes_value
      seconds := seconds_value
      frames := n_frames }

/-- The loop over the clock timestamps, left behind the first one that is there. -/
def clockTimestamps : Nat → BitProgram (List TimeCodeMeta)
  | 0 => pure []
  | num_clock_ts + 1 => do
      let clock_time_stamp_flag ← bits 1
      if clock_time_stamp_flag ≠ 0 then do
        let code ← timeCode
        pure [code]
      else clockTimestamps num_clock_ts

/-- What is read behind a start code. -/
def seiMessage : BitProgram (List TimeCodeMeta) := do
  let _forbidden_zero_bit ← bits 1
  let NALUnitType ← bits 6
  if NALUnitType = NAL_SEI_PREFIX then do
    let _nuh_layer_id ← bits 6
    let _nuh_temporal_id_plus1 ← bits 3
    let payload_type ← bits 8
    if payload_type = TIME_CODE then do
      let _payload_size ← bits 8
      let num_clock_ts ← bits 2
      clockTimestamps num_clock_ts
    else pure []
  else pure []

/-- The bytes of `ptr` from `i` on are those of the pattern; each is read only when the ones before
it fit, and `none` stands for a read outside the buffer. -/
def matchesAt (ptr : Bytes) (i : Nat) : Bytes → Option Bool
  | [] => some true
  | byte :: pattern =>
      match ptr[i]? with
      | none => none
      | some b => if b = byte then matchesAt ptr (i + 1) pattern else some false

def startCode : Bytes := [0x00, 0x00, 0x00, 0x0b]

/-- The loop from `i` on, for `count` values of `i`. The metas are added in order. -/
def scanFrom (ptr : Bytes) : Nat → Nat → Option (List TimeCodeMeta)
  | 0, _ => some []
  | count + 1, i =>
      match matchesAt ptr i startCode with
      | none => none
      | some false => scanFrom ptr count (i + 1)
      | some true =>
          match seiMessage.runIn (ptr.drop (i + 4)) 0 with
          | none => none
          | some (codes, _) => (scanFrom ptr count (i + 1)).map fun rest => codes ++ rest

/-- `ExtractSEI` for the bytes of a buffer. `len - 4` is a `gsize`. -/
def ExtractSEI (ptr : Bytes) : Option (List TimeCodeMeta) :=
  let len := min ptr.length 2048
  scanFrom ptr ((len + 2 ^ 64 - 4) % 2 ^ 64) 0

/-! ## Where the messages end -/

/-- Below four bytes the loop goes on behind the buffer. -/
theorem scanFrom_beyond {ptr : Bytes} {count i : Nat} (hi : i ≤ ptr.length)
    (hcount : ptr.length < i + count) : scanFrom ptr count i = none := by
  induction count generalizing i with
  | zero => omega
  | succ count ih =>
      by_cases hend : i = ptr.length
      · have hbyte : ptr[i]? = none := List.getElem?_eq_none (by omega)
        rw [scanFrom, startCode, matchesAt, hbyte]
      · have hrest := ih (i := i + 1) (by omega) (by omega)
        rw [scanFrom, hrest]
        split
        · rfl
        · rfl
        · split
          · rfl
          · rfl

theorem matchesAt_of_le {ptr pattern : Bytes} {i : Nat} (h : i + pattern.length ≤ ptr.length) :
    matchesAt ptr i pattern = some (decide (pattern <+: ptr.drop i)) := by
  induction pattern generalizing i with
  | nil => simp [matchesAt]
  | cons byte pattern ih =>
      rw [List.length_cons] at h
      have hlt : i < ptr.length := by omega
      rw [matchesAt, List.getElem?_eq_getElem hlt, List.drop_eq_getElem_cons hlt]
      simp only [List.cons_prefix_cons]
      by_cases hb : ptr[i] = byte
      · rw [if_pos hb, ih (by omega)]
        simp [hb]
      · rw [if_neg hb]
        simp [Ne.symm hb]

/-- The message behind a start code at `i` ends inside the buffer. -/
abbrev MessageFits (ptr : Bytes) (i : Nat) : Prop :=
  (seiMessage.run (ptr.drop (i + 4)) 0).2 ≤ 8 * (ptr.length - (i + 4))

theorem scanFrom_isSome_iff {ptr : Bytes} {count i : Nat} (h : i + count + 4 ≤ ptr.length) :
    (scanFrom ptr count i).isSome = true ↔
      ∀ j, i ≤ j → j < i + count → startCode <+: ptr.drop j → MessageFits ptr j := by
  induction count generalizing i with
  | zero =>
      refine iff_of_true rfl fun j hle hlt => ?_
      omega
  | succ count ih =>
      have hrest := ih (i := i + 1) (by omega)
      have hsplit : (∀ j, i ≤ j → j < i + (count + 1) → startCode <+: ptr.drop j →
          MessageFits ptr j) ↔ (startCode <+: ptr.drop i → MessageFits ptr i) ∧
          (scanFrom ptr count (i + 1)).isSome = true := by
        rw [hrest]
        constructor
        · exact fun hall => ⟨hall i (by omega) (by omega),
            fun j hle hlt => hall j (by omega) (by omega)⟩
        · intro ⟨hfirst, hall⟩ j hle hlt
          by_cases hj : j = i
          · rw [hj]
            exact hfirst
          · exact hall j (by omega) (by omega)
      rw [hsplit, scanFrom, matchesAt_of_le (by simp only [startCode, List.length_cons, List.length_nil]; omega)]
      by_cases hcode : startCode <+: ptr.drop i
      · have hrun := runIn_eq seiMessage (Nat.zero_le (8 * (ptr.drop (i + 4)).length))
        rw [decide_eq_true hcode]
        dsimp only
        rw [hrun, List.length_drop]
        by_cases hfits : MessageFits ptr i
        · rw [if_pos hfits]
          simp [hcode, hfits]
        · rw [if_neg hfits]
          simp [hcode, hfits]
      · rw [decide_eq_false hcode]
        simp [hcode]

/-- The scan stays in the buffer and comes to its end exactly for buffers of at least four bytes in
which every message behind a start code is complete. -/
theorem extractSEI_iff (ptr : Bytes) : (∃ codes, ExtractSEI ptr = some codes) ↔
    4 ≤ ptr.length ∧ ∀ i, i + 4 < min ptr.length 2048 → startCode <+: ptr.drop i →
      MessageFits ptr i := by
  rw [← Option.isSome_iff_exists, ExtractSEI]
  by_cases hlength : 4 ≤ ptr.length
  · have hcount : (min ptr.length 2048 + 2 ^ 64 - 4) % 2 ^ 64 = min ptr.length 2048 - 4 := by omega
    rw [hcount, scanFrom_isSome_iff (by omega), and_iff_right hlength]
    constructor
    · exact fun h i hi => h i (by omega) (by omega)
    · exact fun h i _ hi => h i (by omega)
  · rw [scanFrom_beyond (by omega) (by omega)]
    exact iff_of_false Bool.false_ne_true fun h => hlength h.1

/-- A start code with the first byte of a prefix SEI unit, and nothing behind it. -/
def truncatedUnit : Bytes := [0x00, 0x00, 0x00, 0x0b, 0x4e]

theorem truncatedUnit_outside : ¬ ∀ ptr : Bytes, ∃ codes, ExtractSEI ptr = some codes := by
  intro hall
  have hfits := ((extractSEI_iff truncatedUnit).mp (hall truncatedUnit)).2 0 (by decide) (by decide)
  revert hfits
  unfold MessageFits
  decide

end PlayerInterface.Ocdm
