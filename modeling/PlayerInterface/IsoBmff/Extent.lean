import PlayerInterface.IsoBmff.Box

/-!
# How far a leaf parser reads

The number of bytes behind the size and type words that a `constructXxxBox`
body indexes, from the version, the flags and the counts it finds there. None of
the parsers compares this number with the size of its box.
-/

namespace PlayerInterface.IsoBmff

open PlayerInterface.Core Reader

/-! ## Extents -/

def tfhdExtent (flags : Nat) : Nat :=
  if flags &&& TFHD_FLAG_DEFAULT_SAMPLE_DURATION_PRESENT ≠ 0 ∨
      flags &&& TFHD_FLAG_DEFAULT_SAMPLE_SIZE_PRESENT ≠ 0 then
    8 + ifFlag flags TFHD_FLAG_BASE_DATA_OFFSET_PRESENT 8 +
      ifFlag flags TFHD_FLAG_SAMPLE_DESCRIPTION_INDEX_PRESENT 4 +
      ifFlag flags TFHD_FLAG_DEFAULT_SAMPLE_DURATION_PRESENT 4 +
      ifFlag flags TFHD_FLAG_DEFAULT_SAMPLE_SIZE_PRESENT 4
  else 4

/-- Bytes of a sample record that are read, in front of those skipped. -/
def trunReadWidth (flags : Nat) : Nat :=
  ifFlag flags TRUN_FLAG_SAMPLE_DURATION_PRESENT 4 + ifFlag flags TRUN_FLAG_SAMPLE_SIZE_PRESENT 4

def trunRecordWidth (flags : Nat) : Nat :=
  trunReadWidth flags + ifFlag flags TRUN_FLAG_SAMPLE_FLAGS_PRESENT 4 +
    ifFlag flags TRUN_FLAG_SAMPLE_COMPOSITION_TIME_OFFSET_PRESENT 4

def trunExtent (flags count : Nat) : Nat :=
  if count = 0 ∨ trunReadWidth flags = 0 then 8
  else 8 + ifFlag flags TRUN_FLAG_DATA_OFFSET_PRESENT 4 +
    ifFlag flags TRUN_FLAG_FIRST_SAMPLE_FLAGS_PRESENT 4 +
    (count - 1) * trunRecordWidth flags + trunReadWidth flags

/-- Bytes of the string at `p` with its terminator, when there is one in `len` bytes. -/
def cstringBytes (m : Mem) (p len : Nat) : Nat :=
  match m.scanNul p len with
  | some i => i + 1
  | none => 0

/-- Bytes of scheme and value; the value is looked for behind a scheme only. -/
def emsgStringsBytes (m : Mem) (p len : Nat) : Nat :=
  let scheme := cstringBytes m p len
  if scheme = 0 then 0 else scheme + cstringBytes m (p + scheme) (len - scheme)

/-- The message is as long as the size words leave it, in 32-bit words. -/
def emsgExtent (m : Mem) (p sz : Nat) : Nat :=
  let rest := sub32 sz 12
  if m.be p 1 = 1 then 24 + sub32 rest 20
  else if m.be p 1 = 0 then
    let strings := emsgStringsBytes m (p + 4) rest
    20 + strings + sub32 (rest - strings) 16
  else 4

def saizExtent (m : Mem) (p : Nat) : Nat :=
  let fixed := 4 + ifFlag (m.be (p + 1) 3) SAIZ_FLAG_AUX_INFO_TYPE_PRESENT 8
  fixed + 5 + if m.be (p + fixed) 1 = 0 then 1 else 0

def leafExtent (m : Mem) (p : Nat) : LeafKind → Nat → Nat
  | .mvhd, _ => 8 + ifVersion (m.be p 1) 1 16 8
  | .mdhd, _ => 8 + ifVersion (m.be p 1) 1 16 8
  | .tfdt, _ => 4 + ifVersion (m.be p 1) 1 8 4
  | .tfhd, _ => tfhdExtent (m.be (p + 1) 3)
  | .trun, _ => trunExtent (m.be (p + 1) 3) (m.be (p + 4) 4)
  | .emsg, sz => emsgExtent m p sz
  | .prft, _ => 24
  | .sidx, _ =>
      let width := ifVersion (m.be p 1) 0 4 8
      16 + 2 * width + 12 * m.be (p + 14 + 2 * width) 2
  | .mdat, _ => 0
  | .senc, _ => 8
  | .saiz, _ => saizExtent m p

/-! ## Words -/

theorem sub32_lt (a b : Nat) : sub32 a b < 2 ^ 32 := Nat.mod_lt _ (by decide)

theorem sub32_of_le {a b : Nat} (ha : a < 2 ^ 32) (h : b ≤ a) : sub32 a b = a - b := by
  have hb : b % 2 ^ 32 = b := Nat.mod_eq_of_lt (by omega)
  rw [sub32, hb, show a + 2 ^ 32 - b = a - b + 2 ^ 32 by omega, Nat.add_mod_right]
  exact Nat.mod_eq_of_lt (by omega)

/-- A subtraction that borrows leaves a word no buffer below 2^32 bytes has room for. -/
theorem sub32_of_lt {a b : Nat} (h : a < b) (hb : b < 2 ^ 32) : sub32 a b = a + 2 ^ 32 - b := by
  rw [sub32, Nat.mod_eq_of_lt hb]
  exact Nat.mod_eq_of_lt (by omega)

theorem ifFlag_cases (flags mask width : Nat) :
    (flags &&& mask = 0 ∧ ifFlag flags mask width = 0) ∨
      (flags &&& mask ≠ 0 ∧ ifFlag flags mask width = width) := by
  unfold ifFlag
  by_cases h : flags &&& mask = 0 <;> simp [h]

/-! ## Loops -/

theorem next_trunSample (flags : Nat) (first : Bool) (t : TrunTotals) (m : Mem) (p : Nat) :
    (trunSample flags first t).next m p = p + trunRecordWidth flags := by
  simp only [trunSample, next_bind, next_readIf, next_tell, next_readBe, next_pure, next_skip,
    trunRecordWidth, trunReadWidth, ifFlag]
  by_cases hd : flags &&& TRUN_FLAG_SAMPLE_DURATION_PRESENT = 0
  · by_cases hs : flags &&& TRUN_FLAG_SAMPLE_SIZE_PRESENT = 0 <;> simp [hd, hs, Nat.add_assoc]
  · by_cases hs : flags &&& TRUN_FLAG_SAMPLE_SIZE_PRESENT = 0 <;> simp [hd, hs, Nat.add_assoc]

theorem within_trunSample (n flags : Nat) (first : Bool) (t : TrunTotals) (m : Mem) (p : Nat) :
    Within n (trunSample flags first t) m p ↔
      trunReadWidth flags = 0 ∨ p + trunReadWidth flags ≤ n := by
  simp only [trunSample, within_bind, within_readIf, within_tell, within_readBe, within_pure,
    within_skip, next_readIf, next_bind, next_tell, next_readBe, next_pure, true_and, and_true,
    trunReadWidth, ifFlag]
  by_cases hd : flags &&& TRUN_FLAG_SAMPLE_DURATION_PRESENT = 0
  · by_cases hs : flags &&& TRUN_FLAG_SAMPLE_SIZE_PRESENT = 0 <;> simp [hd, hs]
  · by_cases hs : flags &&& TRUN_FLAG_SAMPLE_SIZE_PRESENT = 0
    · simp [hd, hs]
    · simp [hd, hs]
      omega

/-- Reading as far as the last record's fields is reading every record. -/
theorem within_trunSamples (n flags count : Nat) (first : Bool) (t : TrunTotals) (m : Mem)
    (p : Nat) :
    Within n (trunSamples flags count first t) m p ↔
      count = 0 ∨ trunReadWidth flags = 0 ∨
        p + (count - 1) * trunRecordWidth flags + trunReadWidth flags ≤ n := by
  induction count generalizing first t p with
  | zero => simp [trunSamples]
  | succ count ih =>
      rw [trunSamples, within_bind, within_trunSample, next_trunSample, ih]
      rcases Nat.eq_zero_or_pos count with hz | hp
      · subst hz
        simp
      · have hc : (count + 1 - 1) * trunRecordWidth flags =
            trunRecordWidth flags + (count - 1) * trunRecordWidth flags := by
          have hs : count + 1 - 1 = (count - 1) + 1 := by omega
          rw [hs, Nat.succ_mul, Nat.add_comm]
        rw [hc]
        omega

theorem within_sidxReferences (n count duration : Nat) (m : Mem) (p : Nat) (hp : p ≤ n) :
    Within n (sidxReferences count duration) m p ↔ p + 12 * count ≤ n := by
  induction count generalizing duration p with
  | zero => simpa [sidxReferences] using hp
  | succ count ih =>
      simp only [sidxReferences, within_bind, within_readBe, next_readBe, val_readBe]
      constructor
      · rintro ⟨_, _, h12, hrest⟩
        have := (ih _ (p + 4 + 4 + 4) (by omega)).mp hrest
        omega
      · intro h
        refine ⟨by omega, by omega, by omega, ?_⟩
        apply (ih _ (p + 4 + 4 + 4) (by omega)).mpr
        omega

/-! ## Strings -/

theorem cstringBytes_le (m : Mem) (p len : Nat) : cstringBytes m p len ≤ len := by
  unfold cstringBytes
  cases hs : m.scanNul p len with
  | none => simp
  | some i =>
      have := Mem.scanNul_lt hs
      dsimp only
      omega

theorem within_ReadCStringLen {n p len : Nat} (m : Mem) (h : p + len ≤ n) :
    Within n (ReadCStringLenFromBuffer len) m p := by
  unfold ReadCStringLenFromBuffer
  cases hs : m.scanNul p len with
  | none => exact (within_cstringLen_none hs n).mpr (Or.inr h)
  | some i =>
      have := Mem.scanNul_lt hs
      exact (within_cstringLen_some hs n).mpr (by omega)

/-- An unterminated value is left unread. -/
theorem readEmsgValue_none (scheme : Bytes) {m : Mem} {p len : Nat} (h : m.scanNul p len = none) :
    (readEmsgValue scheme len).val m p = ⟨some scheme, none, len⟩ ∧
      (readEmsgValue scheme len).next m p = p ∧
      ∀ n, Within n (readEmsgValue scheme len) m p ↔ Within n (ReadCStringLenFromBuffer len) m p := by
  have hlen : (ReadCStringLenFromBuffer len).val m p = -1 := val_cstringLen_none h
  have hnext : (ReadCStringLenFromBuffer len).next m p = p := rfl
  refine ⟨?_, ?_, fun n => ?_⟩
  · simp [readEmsgValue, hlen]
  · simp [readEmsgValue, hlen, hnext]
  · simp [readEmsgValue, hlen]

theorem readEmsgValue_some (scheme : Bytes) {m : Mem} {p len i : Nat}
    (h : m.scanNul p len = some i) :
    (readEmsgValue scheme len).val m p =
        ⟨some scheme, some (m.slice p (i + 1)), sub32 len (i + 1)⟩ ∧
      (readEmsgValue scheme len).next m p = p + (i + 1) ∧
      ∀ n, Within n (readEmsgValue scheme len) m p ↔ p + (i + 1) ≤ n := by
  have hlen : (ReadCStringLenFromBuffer len).val m p = (i + 1 : Nat) := val_cstringLen_some h
  have hnext : (ReadCStringLenFromBuffer len).next m p = p := rfl
  have hpos : decide ((0 : Int) < (i + 1 : Nat)) = true := by simp
  refine ⟨?_, ?_, fun n => ?_⟩
  · simp only [readEmsgValue, val_bind, hlen, val_readIf, hpos, if_true, hnext, val_readBytes,
      val_pure, Int.toNat_natCast]
  · simp only [readEmsgValue, next_bind, hlen, next_readIf, hpos, if_true, hnext, next_readBytes,
      next_pure, Int.toNat_natCast]
  · have hlen' := within_cstringLen_some h n
    simp only [readEmsgValue, within_bind, hlen, within_readIf, hpos, forall_true_left, hnext,
      within_readBytes, within_pure, Int.toNat_natCast, and_true]
    change Within n (cstringLen len) m p ∧ _ ↔ _
    rw [hlen']
    omega

theorem readEmsgStrings_none {m : Mem} {p len : Nat} (h : m.scanNul p len = none) :
    (readEmsgStrings len).val m p = ⟨none, none, len⟩ ∧
      (readEmsgStrings len).next m p = p ∧
      ∀ n, Within n (readEmsgStrings len) m p ↔ Within n (ReadCStringLenFromBuffer len) m p := by
  have hlen : (ReadCStringLenFromBuffer len).val m p = -1 := val_cstringLen_none h
  have hnext : (ReadCStringLenFromBuffer len).next m p = p := rfl
  refine ⟨?_, ?_, fun n => ?_⟩
  · simp [readEmsgStrings, hlen]
  · simp [readEmsgStrings, hlen, hnext]
  · simp [readEmsgStrings, hlen]

/-- Behind a terminated scheme the value is read from the size that is left. -/
theorem readEmsgStrings_some {m : Mem} {p len i : Nat} (hl : len < 2 ^ 32)
    (h : m.scanNul p len = some i) :
    (readEmsgStrings len).val m p =
        (readEmsgValue (m.slice p (i + 1)) (len - (i + 1))).val m (p + (i + 1)) ∧
      (readEmsgStrings len).next m p =
        (readEmsgValue (m.slice p (i + 1)) (len - (i + 1))).next m (p + (i + 1)) ∧
      ∀ n, Within n (readEmsgStrings len) m p ↔ p + (i + 1) ≤ n ∧
        Within n (readEmsgValue (m.slice p (i + 1)) (len - (i + 1))) m (p + (i + 1)) := by
  have hlen : (ReadCStringLenFromBuffer len).val m p = (i + 1 : Nat) := val_cstringLen_some h
  have hnext : (ReadCStringLenFromBuffer len).next m p = p := rfl
  have hpos : decide ((0 : Int) < (i + 1 : Nat)) = true := by simp
  have hsub : sub32 len (i + 1) = len - (i + 1) := sub32_of_le hl (Mem.scanNul_lt h)
  refine ⟨?_, ?_, fun n => ?_⟩
  · simp only [readEmsgStrings, val_bind, hlen, val_readIf, hpos, if_true, hnext, val_readBytes,
      next_readBytes, Int.toNat_natCast, hsub]
  · simp only [readEmsgStrings, next_bind, hlen, next_readIf, hpos, if_true, hnext,
      val_readBytes, next_readBytes, Int.toNat_natCast, hsub]
  · have hlen' := within_cstringLen_some h n
    simp only [readEmsgStrings, within_bind, hlen, within_readIf, hpos, forall_true_left, hnext,
      within_readBytes, val_readBytes, next_readBytes, Int.toNat_natCast, hsub]
    change Within n (cstringLen len) m p ∧ _ ↔ _
    rw [hlen']
    constructor
    · rintro ⟨he, -, hv⟩
      exact ⟨he, hv⟩
    · rintro ⟨he, hv⟩
      exact ⟨he, Or.inr he, hv⟩

theorem cstringBytes_none {m : Mem} {p len : Nat} (h : m.scanNul p len = none) :
    cstringBytes m p len = 0 := by
  simp [cstringBytes, h]

theorem cstringBytes_some {m : Mem} {p len i : Nat} (h : m.scanNul p len = some i) :
    cstringBytes m p len = i + 1 := by
  simp [cstringBytes, h]

theorem emsgStringsBytes_le (m : Mem) (p len : Nat) : emsgStringsBytes m p len ≤ len := by
  unfold emsgStringsBytes
  have hscheme := cstringBytes_le m p len
  have hvalue := cstringBytes_le m (p + cstringBytes m p len) (len - cstringBytes m p len)
  by_cases hz : cstringBytes m p len = 0
  · simp [hz]
  · simp only [if_neg hz]
    omega

/-- Both strings together: the cursor passes them and the remaining size shrinks by them. -/
theorem readEmsgStrings_spec {len : Nat} (hl : len < 2 ^ 32) (m : Mem) (p : Nat) :
    (readEmsgStrings len).next m p = p + emsgStringsBytes m p len ∧
      ((readEmsgStrings len).val m p).remainingSize = len - emsgStringsBytes m p len := by
  unfold emsgStringsBytes
  cases hs : m.scanNul p len with
  | none =>
      obtain ⟨hval, hnext, -⟩ := readEmsgStrings_none hs
      simp [hval, hnext, cstringBytes_none hs]
  | some i =>
      obtain ⟨hval, hnext, -⟩ := readEmsgStrings_some hl hs
      rw [hval, hnext, cstringBytes_some hs]
      simp only [Nat.add_one_ne_zero, if_false]
      cases hv : m.scanNul (p + (i + 1)) (len - (i + 1)) with
      | none =>
          obtain ⟨hval', hnext', -⟩ := readEmsgValue_none (m.slice p (i + 1)) hv
          rw [hval', hnext', cstringBytes_none hv]
          exact ⟨rfl, rfl⟩
      | some j =>
          obtain ⟨hval', hnext', -⟩ := readEmsgValue_some (m.slice p (i + 1)) hv
          have hj := Mem.scanNul_lt hv
          rw [hval', hnext', cstringBytes_some hv]
          have hsub : sub32 (len - (i + 1)) (j + 1) = len - (i + 1) - (j + 1) :=
            sub32_of_le (by omega) (by omega)
          dsimp only
          rw [hsub]
          omega

/-- The strings are looked for in the remaining size only. -/
theorem within_readEmsgStrings {n p len : Nat} (hl : len < 2 ^ 32) (m : Mem) (h : p + len ≤ n) :
    Within n (readEmsgStrings len) m p := by
  cases hs : m.scanNul p len with
  | none =>
      obtain ⟨-, -, hw⟩ := readEmsgStrings_none hs
      exact (hw n).mpr (within_ReadCStringLen m h)
  | some i =>
      obtain ⟨-, -, hw⟩ := readEmsgStrings_some hl hs
      have hi := Mem.scanNul_lt hs
      refine (hw n).mpr ⟨by omega, ?_⟩
      cases hv : m.scanNul (p + (i + 1)) (len - (i + 1)) with
      | none =>
          obtain ⟨-, -, hw'⟩ := readEmsgValue_none (m.slice p (i + 1)) hv
          exact (hw' n).mpr (within_ReadCStringLen m (by omega))
      | some j =>
          obtain ⟨-, -, hw'⟩ := readEmsgValue_some (m.slice p (i + 1)) hv
          have hj := Mem.scanNul_lt hv
          exact (hw' n).mpr (by omega)

theorem within_readEmsgStrings_end {n p len : Nat} (hl : len < 2 ^ 32) (m : Mem) (hp : p ≤ n)
    (h : Within n (readEmsgStrings len) m p) : p + emsgStringsBytes m p len ≤ n := by
  unfold emsgStringsBytes
  cases hs : m.scanNul p len with
  | none => simpa [cstringBytes_none hs] using hp
  | some i =>
      obtain ⟨-, -, hw⟩ := readEmsgStrings_some hl hs
      obtain ⟨he, hvalue⟩ := (hw n).mp h
      rw [cstringBytes_some hs]
      simp only [Nat.add_one_ne_zero, if_false]
      cases hv : m.scanNul (p + (i + 1)) (len - (i + 1)) with
      | none =>
          rw [cstringBytes_none hv]
          omega
      | some j =>
          obtain ⟨-, -, hw'⟩ := readEmsgValue_some (m.slice p (i + 1)) hv
          have := (hw' n).mp hvalue
          rw [cstringBytes_some hv]
          omega

theorem within_readEmsgMessage (n len : Nat) (m : Mem) (p : Nat) :
    Within n (readEmsgMessage len) m p ↔ len = 0 ∨ p + len ≤ n := by
  simp only [readEmsgMessage, within_readIf, within_bind, within_readBytes, within_pure, and_true,
    decide_eq_true_eq]
  omega

/-! ## Leaf parsers -/

theorem within_constructTimeScaleBox (type : FourCC) (body : Nat → Nat → FullBody) (sz n : Nat)
    (m : Mem) (p : Nat) :
    Within n (constructTimeScaleBox type body sz) m p ↔ p + (8 + ifVersion (m.be p 1) 1 16 8) ≤ n := by
  simp only [constructTimeScaleBox, within_bind, within_tell, within_readBe, within_skip,
    within_pure, next_tell, next_readBe, next_skip, val_readBe, true_and, and_true]
  omega

theorem within_constructTrunBox (sz n : Nat) (m : Mem) (p : Nat) :
    Within n (constructTrunBox sz) m p ↔
      p + trunExtent (m.be (p + 1) 3) (m.be (p + 4) 4) ≤ n := by
  simp only [constructTrunBox, within_bind, within_tell, within_readBe, within_skip, within_pure,
    next_tell, next_readBe, next_skip, val_readBe, within_trunSamples, true_and, and_true,
    Nat.add_assoc, Nat.reduceAdd, trunExtent]
  by_cases hz : m.be (p + 4) 4 = 0 ∨ trunReadWidth (m.be (p + 1) 3) = 0
  · simp only [if_pos hz]
    omega
  · simp only [if_neg hz]
    omega

theorem within_constructTfhdBox (sz n : Nat) (m : Mem) (p : Nat) :
    Within n (constructTfhdBox sz) m p ↔ p + tfhdExtent (m.be (p + 1) 3) ≤ n := by
  simp only [constructTfhdBox, within_bind, within_tell, within_readBe, within_skip, within_pure,
    within_readIf, next_tell, next_readBe, next_skip, next_readIf, next_bind, next_pure,
    val_readBe, true_and, and_true, bne_iff_ne, tfhdExtent]
  have hd := ifFlag_cases (m.be (p + 1) 3) TFHD_FLAG_DEFAULT_SAMPLE_DURATION_PRESENT 4
  have hs := ifFlag_cases (m.be (p + 1) 3) TFHD_FLAG_DEFAULT_SAMPLE_SIZE_PRESENT 4
  rcases hd with ⟨hd, ed⟩ | ⟨hd, ed⟩
  · rcases hs with ⟨hs, es⟩ | ⟨hs, es⟩
    · simp [hd, hs]
      omega
    · simp [ed, es, hd, hs]
      omega
  · rcases hs with ⟨hs, es⟩ | ⟨hs, es⟩
    · simp [ed, es, hd, hs]
      omega
    · simp [ed, es, hd, hs]
      omega

theorem within_constructSidxBox (sz n : Nat) (m : Mem) (p : Nat) :
    Within n (constructSidxBox sz) m p ↔ p + leafExtent m p .sidx sz ≤ n := by
  simp only [constructSidxBox, within_bind, within_readBe, within_pure, next_readBe, val_readBe,
    and_true, leafExtent]
  have hloc : p + 1 + 3 + 4 + 4 + ifVersion (m.be p 1) 0 4 8 + ifVersion (m.be p 1) 0 4 8 + 2 =
      p + 14 + 2 * ifVersion (m.be p 1) 0 4 8 := by omega
  rw [hloc]
  constructor
  · rintro ⟨_, _, _, _, _, _, _, _, hrefs⟩
    rw [within_sidxReferences _ _ _ _ _ (by omega)] at hrefs
    omega
  · intro h
    rw [within_sidxReferences _ _ _ _ _ (by omega)]
    omega

theorem within_constructSaizBox (sz n : Nat) (m : Mem) (p : Nat) :
    Within n (constructSaizBox sz) m p ↔ p + saizExtent m p ≤ n := by
  simp only [constructSaizBox, within_bind, within_tell, within_readBe, within_skip, within_pure,
    within_readIf, within_peek, next_tell, next_readBe, next_skip, val_readBe, true_and, and_true,
    beq_iff_eq, saizExtent]
  have hloc : p + 1 + 3 + ifFlag (m.be (p + 1) 3) SAIZ_FLAG_AUX_INFO_TYPE_PRESENT 8 =
      p + (4 + ifFlag (m.be (p + 1) 3) SAIZ_FLAG_AUX_INFO_TYPE_PRESENT 8) := by omega
  rw [hloc]
  by_cases hz : m.be (p + (4 + ifFlag (m.be (p + 1) 3) SAIZ_FLAG_AUX_INFO_TYPE_PRESENT 8)) 1 = 0
  · simp [hz]
    omega
  · simp [hz]
    omega

theorem within_emsgFields {n : Nat} (hn : n < 2 ^ 32) (sz version flags : Nat) {rest : Nat}
    (hr : rest < 2 ^ 32) (m : Mem) (p : Nat) (hp : p ≤ n) :
    Within n (emsgFields sz version flags rest) m p ↔
      p + (if version = 1 then 20 + sub32 rest 20
        else if version = 0 then
          16 + emsgStringsBytes m p rest + sub32 (rest - emsgStringsBytes m p rest) 16
        else 0) ≤ n := by
  unfold emsgFields
  by_cases h1 : version = 1
  · simp only [if_pos h1, within_bind, within_readBe, next_readBe, within_pure, and_true,
      within_readEmsgMessage, Nat.add_assoc, Nat.reduceAdd]
    have hlen : sub32 rest 20 < 2 ^ 32 := sub32_lt rest 20
    have hspec := readEmsgStrings_spec hlen m (p + 20)
    have hle := emsgStringsBytes_le m (p + 20) (sub32 rest 20)
    rw [hspec.1, hspec.2]
    constructor
    · rintro ⟨_, _, _, h20, hstrings, hmessage⟩
      have hend := within_readEmsgStrings_end hlen m (by omega) hstrings
      omega
    · intro h
      refine ⟨by omega, by omega, by omega, by omega, within_readEmsgStrings hlen m (by omega), ?_⟩
      omega
  · by_cases h0 : version = 0
    · simp only [if_neg h1, if_pos h0, within_bind, within_readBe, next_readBe, within_pure,
        and_true, within_readEmsgMessage]
      have hspec := readEmsgStrings_spec hr m p
      have hle := emsgStringsBytes_le m p rest
      rw [hspec.1, hspec.2]
      constructor
      · rintro ⟨_, _, _, _, h16, hmessage⟩
        omega
      · intro h
        -- a message size that borrows is larger than any buffer
        have hfit : 16 ≤ rest - emsgStringsBytes m p rest := by
          by_contra hlt
          rw [sub32_of_lt (by omega) (by decide)] at h
          omega
        rw [sub32_of_le (by omega) hfit] at h ⊢
        refine ⟨within_readEmsgStrings hr m (by omega), ?_⟩
        omega
    · simpa only [if_neg h1, if_neg h0, within_pure, true_iff, Nat.add_zero] using hp

theorem within_constructEmsgBox {n : Nat} (hn : n < 2 ^ 32) (sz : Nat) (m : Mem) (p : Nat) :
    Within n (constructEmsgBox sz) m p ↔ p + emsgExtent m p sz ≤ n := by
  simp only [constructEmsgBox, within_bind, within_readBe, next_readBe, val_readBe, emsgExtent,
    Nat.add_assoc, Nat.reduceAdd]
  constructor
  · rintro ⟨_, h4, hfields⟩
    rw [within_emsgFields hn _ _ _ (sub32_lt sz 12) m (p + 4) (by omega)] at hfields
    split_ifs at hfields ⊢ <;> omega
  · intro h
    have h4 : p + 4 ≤ n := by split_ifs at h <;> omega
    refine ⟨by omega, by omega, ?_⟩
    rw [within_emsgFields hn _ _ _ (sub32_lt sz 12) m (p + 4) h4]
    split_ifs at h ⊢ <;> omega

/-- A leaf parser stays inside a buffer exactly when its extent does. -/
theorem within_constructLeaf {n : Nat} (hn : n < 2 ^ 32) (kind : LeafKind) (sz : Nat) (m : Mem)
    (p : Nat) (hp : p ≤ n) :
    Within n (constructLeaf kind sz) m p ↔ p + leafExtent m p kind sz ≤ n := by
  cases kind with
  | mvhd => exact within_constructTimeScaleBox MVHD .mvhd sz n m p
  | mdhd => exact within_constructTimeScaleBox MDHD .mdhd sz n m p
  | tfdt =>
      have hv : 4 ≤ ifVersion (m.be p 1) 1 8 4 := by
        unfold ifVersion
        split <;> omega
      simp only [constructLeaf, constructTfdtBox, within_bind, within_tell, within_readBe,
        within_pure, next_tell, next_readBe, val_readBe, true_and, and_true, leafExtent]
      omega
  | tfhd => exact within_constructTfhdBox sz n m p
  | trun => exact within_constructTrunBox sz n m p
  | emsg => exact within_constructEmsgBox hn sz m p
  | prft =>
      simp only [constructLeaf, constructPrftBox, within_bind, within_readBe, within_pure,
        next_readBe, and_true, leafExtent]
      omega
  | sidx => exact within_constructSidxBox sz n m p
  | mdat => simpa [constructLeaf, constructMdatBox, leafExtent] using hp
  | senc =>
      simp only [constructLeaf, constructSencBox, within_bind, within_tell, within_readBe,
        within_pure, next_tell, next_readBe, true_and, and_true, leafExtent]
      omega
  | saiz => exact within_constructSaizBox sz n m p

end PlayerInterface.IsoBmff
