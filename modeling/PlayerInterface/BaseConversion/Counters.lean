import PlayerInterface.BaseConversion.Base64Url
import PlayerInterface.Core.IntLoop

/-!
# The counters of the base64 loops

The encoder counts its bytes and the URL decoder its letters with an `int`, while
both lengths are a `size_t`. The four letters of three bytes reach the end of an
`int` first: a text of the URL encoder comes back exactly below `3 * 2 ^ 29` bytes.
-/

namespace PlayerInterface.BaseConversion.Counted

open PlayerInterface.Core

/-- `i += by`; passing the largest `int` has no defined result. -/
def advance (i step : Nat) : Option Nat := if i + step ≤ INT_MAX then some (i + step) else none

/-- The loop of `base64_Encode` with the bytes from `src` on: `i < len` as long as
there are any. -/
def encodeFrom (i : Nat) : Bytes → Option Bytes
  | [] => some []
  | [a] => do
      let _ ← advance i 3
      pure (encodeGroup (a.toNat * 2 ^ 16) 2)
  | [a, b] => do
      let _ ← advance i 3
      pure (encodeGroup (a.toNat * 2 ^ 16 + b.toNat * 2 ^ 8) 1)
  | a :: b :: c :: src => do
      let i ← advance i 3
      let rest ← encodeFrom i src
      pure (encodeGroup (a.toNat * 2 ^ 16 + b.toNat * 2 ^ 8 + c.toNat) 0 ++ rest)

/-- `none` when the counter overflows. -/
def base64_Encode (src : Bytes) : Option Bytes := encodeFrom 0 src

def base64_URL_Encode (src : Bytes) : Option Bytes :=
  (base64_Encode src).map fun rc => (rc.takeWhile (· ≠ PAD)).map urlLetter

/-- `temp` holds the exchanged letters and two of padding, and its length is taken
by `strlen`. The outer `none` is an overflow, the inner one a null pointer. -/
def base64_URL_Decode (src : Bytes) : Option (Option Bytes) :=
  (intLoop (fun temp c => temp ++ [plainLetter c]) src 0 []).map fun temp =>
    base64_Decode (cText (temp ++ List.replicate 2 PAD))

/-! ## The encoder -/

theorem advance_eq_some {i step j : Nat} :
    advance i step = some j ↔ i + step ≤ INT_MAX ∧ j = i + step := by
  rw [advance]
  split
  · simp only [Option.some.injEq]
    omega
  · simp only [reduceCtorEq, false_iff]
    omega

theorem encodeFrom_of_le {src : Bytes} {i : Nat} (h : i + (src.length + 2) / 3 * 3 ≤ INT_MAX) :
    encodeFrom i src = some (BaseConversion.base64_Encode src) := by
  fun_induction BaseConversion.base64_Encode src generalizing i with
  | case1 => rfl
  | case2 a =>
      simp only [List.length_cons, List.length_nil] at h
      have hadvance : advance i 3 = some (i + 3) := advance_eq_some.mpr ⟨by omega, rfl⟩
      rw [encodeFrom, hadvance]
      rfl
  | case3 a b =>
      simp only [List.length_cons, List.length_nil] at h
      have hadvance : advance i 3 = some (i + 3) := advance_eq_some.mpr ⟨by omega, rfl⟩
      rw [encodeFrom, hadvance]
      rfl
  | case4 a b c src ih =>
      simp only [List.length_cons] at h
      have hadvance : advance i 3 = some (i + 3) := advance_eq_some.mpr ⟨by omega, rfl⟩
      have hrest := ih (i := i + 3) (by omega)
      rw [encodeFrom, hadvance, Option.bind_eq_bind, Option.bind_some, hrest]
      rfl

theorem encodeFrom_overflow {src : Bytes} {i : Nat}
    (h : INT_MAX < i + (src.length + 2) / 3 * 3) (hi : i ≤ INT_MAX) : encodeFrom i src = none := by
  fun_induction encodeFrom i src with
  | case1 i =>
      simp only [List.length_nil] at h
      omega
  | case2 i a =>
      simp only [List.length_cons, List.length_nil] at h
      have hadvance : advance i 3 = none := if_neg (by omega)
      rw [hadvance]
      rfl
  | case3 i a b =>
      simp only [List.length_cons, List.length_nil] at h
      have hadvance : advance i 3 = none := if_neg (by omega)
      rw [hadvance]
      rfl
  | case4 i a b c src ih =>
      simp only [List.length_cons] at h
      cases hadvance : advance i 3 with
      | none => rfl
      | some j =>
          obtain ⟨hle, rfl⟩ := advance_eq_some.mp hadvance
          have hrest := ih (i + 3) (by omega) hle
          rw [Option.bind_eq_bind, Option.bind_some, hrest]
          rfl

/-- The encoder counts up to the next multiple of three. -/
theorem base64_Encode_isSome_iff (src : Bytes) :
    (base64_Encode src).isSome = true ↔ src.length < 2 ^ 31 - 1 := by
  by_cases hle : (src.length + 2) / 3 * 3 ≤ INT_MAX
  · rw [base64_Encode, encodeFrom_of_le (by omega)]
    simp only [INT_MAX] at hle
    exact iff_of_true rfl (by omega)
  · rw [base64_Encode, encodeFrom_overflow (by omega) (by simp only [INT_MAX]; omega)]
    simp only [INT_MAX] at hle
    exact iff_of_false Bool.false_ne_true (by omega)

/-- A result of the encoder is the encoded text. -/
theorem eq_of_encodeFrom {src rc : Bytes} {i : Nat} (h : encodeFrom i src = some rc) :
    rc = BaseConversion.base64_Encode src := by
  fun_induction encodeFrom i src generalizing rc with
  | case1 i => exact (Option.some.inj h).symm
  | case2 i a =>
      rcases Option.bind_eq_some_iff.mp h with ⟨j, hj, hrc⟩
      exact (Option.some.inj hrc).symm
  | case3 i a b =>
      rcases Option.bind_eq_some_iff.mp h with ⟨j, hj, hrc⟩
      exact (Option.some.inj hrc).symm
  | case4 i a b c src ih =>
      rcases Option.bind_eq_some_iff.mp h with ⟨j, hj, hbind⟩
      rcases Option.bind_eq_some_iff.mp hbind with ⟨rest, hrest, hrc⟩
      have htail := ih j hrest
      rw [BaseConversion.base64_Encode, ← htail]
      exact (Option.some.inj hrc).symm

/-! ## The URL decoder -/

theorem foldl_plainLetter (src temp : Bytes) :
    src.foldl (fun temp c => temp ++ [plainLetter c]) temp = temp ++ src.map plainLetter := by
  induction src generalizing temp with
  | nil => rw [List.foldl_nil, List.map_nil, List.append_nil]
  | cons c src ih => rw [List.foldl_cons, ih, List.map_cons, List.append_assoc, List.singleton_append]

theorem cText_eq_self {text : Bytes} (h : ∀ c ∈ text, c ≠ 0) : cText text = text :=
  List.takeWhile_eq_self_iff.mpr fun c hc => by simpa using h c hc

theorem base64_URL_Decode_of_le {src : Bytes} (hlength : src.length ≤ INT_MAX)
    (hnul : ∀ c ∈ src, c ≠ 0) :
    base64_URL_Decode src = some (BaseConversion.base64_URL_Decode src) := by
  have hplain : ∀ c ∈ src.map plainLetter ++ List.replicate 2 PAD, c ≠ 0 := by
    intro c hc
    rcases List.mem_append.mp hc with hc | hc
    · rcases List.mem_map.mp hc with ⟨d, hd, rfl⟩
      have hne := hnul d hd
      unfold plainLetter
      split
      · decide
      · split
        · decide
        · exact hne
    · rw [List.eq_of_mem_replicate hc]
      decide
  rw [base64_URL_Decode, intLoop_of_le hlength, List.drop_zero, foldl_plainLetter,
    List.nil_append, Option.map_some, cText_eq_self hplain, BaseConversion.base64_URL_Decode]

theorem base64_URL_Decode_overflow {src : Bytes} (h : INT_MAX < src.length) :
    base64_URL_Decode src = none := by
  rw [base64_URL_Decode, intLoop_overflow h _ (Nat.zero_le _), Option.map_none]

/-! ## The URL text -/

/-- Letters, digits, `-` and `_`. -/
def UrlLetter (c : UInt8) : Prop :=
  (65 ≤ c.toNat ∧ c.toNat ≤ 90) ∨ (97 ≤ c.toNat ∧ c.toNat ≤ 122) ∨
    (48 ≤ c.toNat ∧ c.toNat ≤ 57) ∨ c = 45 ∨ c = 95

instance (c : UInt8) : Decidable (UrlLetter c) := by
  unfold UrlLetter
  infer_instance

theorem urlLetter_encode {digit : Nat} (h : digit < 64) : UrlLetter (urlLetter (encode digit)) := by
  have hall : ∀ d < 64, UrlLetter (urlLetter (encode d)) := by decide
  exact hall digit h

theorem UrlLetter.ne_zero {c : UInt8} (h : UrlLetter c) : c ≠ 0 := by
  intro hc
  subst hc
  exact absurd h (by decide)

theorem base64_URL_Encode_eq_map (src : Bytes) :
    BaseConversion.base64_URL_Encode src = ((letters src).map encode).map urlLetter := by
  rcases base64_Encode_eq src with ⟨n, hn⟩
  rw [BaseConversion.base64_URL_Encode, hn, takeWhile_encode (letters src) (letters_lt src)]

theorem forall_mem_base64_URL_Encode (src : Bytes) :
    ∀ c ∈ BaseConversion.base64_URL_Encode src, UrlLetter c := by
  intro c hc
  rw [base64_URL_Encode_eq_map] at hc
  rcases List.mem_map.mp hc with ⟨e, he, rfl⟩
  rcases List.mem_map.mp he with ⟨d, hd, rfl⟩
  exact urlLetter_encode (letters_lt src d hd)

/-- A byte more than a group of three costs one letter more than its bytes. -/
theorem length_letters (src : Bytes) : (letters src).length = (4 * src.length + 2) / 3 := by
  fun_induction letters src with
  | case1 => rfl
  | case2 a => simp only [List.length_cons, List.length_nil]
  | case3 a b => simp only [List.length_cons, List.length_nil]
  | case4 a b c src ih =>
      rw [List.length_append, ih]
      simp only [List.length_cons, List.length_nil]
      omega

theorem length_base64_URL_Encode (src : Bytes) :
    (BaseConversion.base64_URL_Encode src).length = (4 * src.length + 2) / 3 := by
  rw [base64_URL_Encode_eq_map, List.length_map, List.length_map, length_letters]

/-! ## Round trip -/

/-- Both pairs of functions give the bytes back, and the URL text is made of URL letters. -/
structure RoundTrips (b : Bytes) : Prop where
  plain : ∃ text, base64_Encode b = some text ∧ base64_Decode text = some b
  url : ∃ text, base64_URL_Encode b = some text ∧ base64_URL_Decode text = some (some b) ∧
    ∀ c ∈ text, UrlLetter c

theorem RoundTrips.of_lt {b : Bytes} (h : b.length < 3 * 2 ^ 29) : RoundTrips b := by
  have hencode : base64_Encode b = some (BaseConversion.base64_Encode b) :=
    encodeFrom_of_le (by simp only [INT_MAX]; omega)
  have hurl := forall_mem_base64_URL_Encode b
  have hlength : (BaseConversion.base64_URL_Encode b).length ≤ INT_MAX := by
    rw [length_base64_URL_Encode]
    simp only [INT_MAX]
    omega
  have hdecode := base64_URL_Decode_of_le hlength fun c hc => (hurl c hc).ne_zero
  rw [base64_URL_Decode_Encode] at hdecode
  constructor
  · exact ⟨_, hencode, base64_Decode_Encode b⟩
  · refine ⟨BaseConversion.base64_URL_Encode b, ?_, hdecode, hurl⟩
    rw [base64_URL_Encode, hencode]
    rfl

/-- From `3 * 2 ^ 29` bytes on the URL decoder counts more letters than an `int` can. -/
theorem length_lt_of_url {b text : Bytes} {result : Option Bytes}
    (hencode : base64_URL_Encode b = some text) (hdecode : base64_URL_Decode text = some result) :
    b.length < 3 * 2 ^ 29 := by
  rcases Option.map_eq_some_iff.mp hencode with ⟨rc, hrc, htext⟩
  have htext : text = BaseConversion.base64_URL_Encode b := by
    rw [← htext, eq_of_encodeFrom hrc, BaseConversion.base64_URL_Encode]
  by_contra hlong
  have hoverflow : INT_MAX < text.length := by
    rw [htext, length_base64_URL_Encode]
    simp only [INT_MAX]
    omega
  rw [base64_URL_Decode_overflow hoverflow] at hdecode
  cases hdecode

theorem RoundTrips.length_lt {b : Bytes} (h : RoundTrips b) : b.length < 3 * 2 ^ 29 := by
  rcases h.url with ⟨text, hencode, hdecode, _⟩
  exact length_lt_of_url hencode hdecode

theorem roundTrips_iff (b : Bytes) : RoundTrips b ↔ b.length < 3 * 2 ^ 29 := by
  constructor
  · exact RoundTrips.length_lt
  · exact RoundTrips.of_lt

/-- The shortest bytes that do not come back. -/
theorem not_roundTrips_zeros :
    ¬ ∀ b : Bytes, b.length < 2 ^ 31 → RoundTrips b := by
  intro hall
  have hround := hall (List.replicate (3 * 2 ^ 29) 0) (by rw [List.length_replicate]; omega)
  have hlt := hround.length_lt
  rw [List.length_replicate] at hlt
  omega

end PlayerInterface.BaseConversion.Counted
