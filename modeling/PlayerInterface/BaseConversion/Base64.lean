import PlayerInterface.Core.Bytes
import Mathlib.Data.List.DropRight

/-!
# Base64

The decoder strips every trailing `=` and then reads groups of up to four digits,
so it also takes texts that no encoder writes. On the encoder's own texts it is
the inverse.
-/

namespace PlayerInterface.BaseConversion

open PlayerInterface.Core

def PAD : UInt8 := 61

/-- `"ABCDEFGHIJKLMNOPQRSTUVWXYZabcdefghijklmnopqrstuvwxyz0123456789+/"`. -/
def encode (digit : Nat) : UInt8 :=
  if digit < 26 then UInt8.ofNat (digit + 65)
  else if digit < 52 then UInt8.ofNat (digit - 26 + 97)
  else if digit < 62 then UInt8.ofNat (digit - 52 + 48)
  else if digit = 62 then 43
  else 47

/-- The table of the decoder; `none` stands for `-1`. -/
def decode (c : UInt8) : Option Nat :=
  let n := c.toNat
  if n = 43 then some 62
  else if n = 45 ∨ n = 47 then some 63
  else if 48 ≤ n ∧ n ≤ 57 then some (n - 48 + 52)
  else if n = 61 then some 0
  else if 65 ≤ n ∧ n ≤ 90 then some (n - 65)
  else if 97 ≤ n ∧ n ≤ 122 then some (n - 97 + 26)
  else none

/-- The four letters of one turn of the encoder. -/
def encodeGroup (temp pad : Nat) : Bytes :=
  [encode (temp / 2 ^ 18 % 64), encode (temp / 2 ^ 12 % 64),
    if pad ≥ 2 then PAD else encode (temp / 2 ^ 6 % 64),
    if pad ≥ 1 then PAD else encode (temp % 64)]

def base64_Encode : Bytes → Bytes
  | [] => []
  | [a] => encodeGroup (a.toNat * 2 ^ 16) 2
  | [a, b] => encodeGroup (a.toNat * 2 ^ 16 + b.toNat * 2 ^ 8) 1
  | a :: b :: c :: src =>
      encodeGroup (a.toNat * 2 ^ 16 + b.toNat * 2 ^ 8 + c.toNat) 0 ++ base64_Encode src

/-- Four turns of `buf <<= 6`, with a digit added in the first ones. -/
def shiftIn (digits : List Nat) : Nat :=
  (digits ++ List.replicate (4 - digits.length) 0).foldl (fun buf digit => buf * 64 + digit) 0

/-- The bytes of one turn of the decoder, fewer than three when digits are missing. -/
def decodeGroup (letters : Bytes) : Option Bytes := do
  let digits ← letters.mapM decode
  let buf := shiftIn digits
  pure ([UInt8.ofNat (buf / 2 ^ 16), UInt8.ofNat (buf / 2 ^ 8), UInt8.ofNat buf].take
    (digits.length - 1))

def decodeGroups : Bytes → Option Bytes
  | c₀ :: c₁ :: c₂ :: c₃ :: src => do
      let bytes ← decodeGroup [c₀, c₁, c₂, c₃]
      let rest ← decodeGroups src
      pure (bytes ++ rest)
  | [] => some []
  | src => decodeGroup src

/-- `none` is a null pointer, with `*outLen` zero. -/
def base64_Decode (src : Bytes) : Option Bytes := decodeGroups (src.rdropWhile (· = PAD))

/-! ## Round trip -/

theorem decode_encode {digit : Nat} (h : digit < 64) : decode (encode digit) = some digit := by
  have hall : ∀ d < 64, decode (encode d) = some d := by decide
  exact hall digit h

theorem mapM_decode_encode {digits : List Nat} (h : ∀ d ∈ digits, d < 64) :
    (digits.map encode).mapM decode = some digits := by
  induction digits with
  | nil => rfl
  | cons d digits ih =>
      have htail := ih fun e he => h e (List.mem_cons_of_mem d he)
      simp [List.mapM_cons, decode_encode (h d List.mem_cons_self), htail]

/-- The letters of an encoded text without its padding. -/
def letters : Bytes → List Nat
  | [] => []
  | [a] => [a.toNat / 4, a.toNat % 4 * 16]
  | [a, b] => [a.toNat / 4, a.toNat % 4 * 16 + b.toNat / 16, b.toNat % 16 * 4]
  | a :: b :: c :: src =>
      [a.toNat / 4, a.toNat % 4 * 16 + b.toNat / 16, b.toNat % 16 * 4 + c.toNat / 64,
        c.toNat % 64] ++ letters src

theorem letters_lt (src : Bytes) : ∀ d ∈ letters src, d < 64 := by
  fun_induction letters src with
  | case1 => nofun
  | case2 a =>
      have := a.toNat_lt
      simp only [List.mem_cons, List.not_mem_nil, or_false]
      omega
  | case3 a b =>
      have := a.toNat_lt
      have := b.toNat_lt
      simp only [List.mem_cons, List.not_mem_nil, or_false]
      omega
  | case4 a b c src ih =>
      have := a.toNat_lt
      have := b.toNat_lt
      have := c.toNat_lt
      simp only [List.mem_append, List.mem_cons, List.not_mem_nil, or_false]
      rintro d (hd | hd)
      · omega
      · exact ih d hd

/-- The four sextets of three bytes. -/
theorem encodeGroup_bytes {a b c : Nat} (ha : a < 256) (hb : b < 256) (hc : c < 256)
    (pad : Nat) :
    encodeGroup (a * 2 ^ 16 + b * 2 ^ 8 + c) pad =
      [encode (a / 4), encode (a % 4 * 16 + b / 16),
        if pad ≥ 2 then PAD else encode (b % 16 * 4 + c / 64),
        if pad ≥ 1 then PAD else encode (c % 64)] := by
  have h₀ : (a * 2 ^ 16 + b * 2 ^ 8 + c) / 2 ^ 18 % 64 = a / 4 := by omega
  have h₁ : (a * 2 ^ 16 + b * 2 ^ 8 + c) / 2 ^ 12 % 64 = a % 4 * 16 + b / 16 := by omega
  have h₂ : (a * 2 ^ 16 + b * 2 ^ 8 + c) / 2 ^ 6 % 64 = b % 16 * 4 + c / 64 := by omega
  have h₃ : (a * 2 ^ 16 + b * 2 ^ 8 + c) % 64 = c % 64 := by omega
  rw [encodeGroup, h₀, h₁, h₂, h₃]

theorem base64_Encode_eq (src : Bytes) :
    ∃ n, base64_Encode src = (letters src).map encode ++ List.replicate n PAD := by
  fun_induction base64_Encode src with
  | case1 => exact ⟨0, rfl⟩
  | case2 a =>
      have hgroup := encodeGroup_bytes a.toNat_lt (b := 0) (c := 0) (by omega) (by omega) 2
      exact ⟨2, by simpa [letters] using hgroup⟩
  | case3 a b =>
      have hgroup := encodeGroup_bytes a.toNat_lt b.toNat_lt (c := 0) (by omega) 1
      exact ⟨1, by simpa [letters] using hgroup⟩
  | case4 a b c src ih =>
      rcases ih with ⟨n, hn⟩
      have hgroup := encodeGroup_bytes a.toNat_lt b.toNat_lt c.toNat_lt 0
      exact ⟨n, by rw [hgroup, hn]; simp [letters]⟩

/-- Every letter of an encoded text is a digit or padding. -/
theorem forall_mem_base64_Encode {p : UInt8 → Prop} (hdigit : ∀ d < 64, p (encode d))
    (hpad : p PAD) (src : Bytes) : ∀ c ∈ base64_Encode src, p c := by
  rcases base64_Encode_eq src with ⟨n, hn⟩
  intro c hc
  rw [hn] at hc
  rcases List.mem_append.mp hc with hc | hc
  · rcases List.mem_map.mp hc with ⟨d, hd, rfl⟩
    exact hdigit d (letters_lt src d hd)
  · rw [List.eq_of_mem_replicate hc]
    exact hpad

theorem encode_ne_pad {digit : Nat} (h : digit < 64) : encode digit ≠ PAD := by
  have hall : ∀ d < 64, encode d ≠ PAD := by decide
  exact hall digit h

theorem rdropWhile_pad {src : Bytes} (h : PAD ∉ src) (n : Nat) :
    (src ++ List.replicate n PAD).rdropWhile (· = PAD) = src := by
  induction n with
  | zero =>
      rw [List.replicate_zero, List.append_nil, List.rdropWhile_eq_self_iff]
      intro hne hpad
      have hlast := of_decide_eq_true hpad
      exact h (hlast ▸ List.getLast_mem hne)
  | succ n ih =>
      rw [List.replicate_succ', ← List.append_assoc, List.rdropWhile_concat_pos _ _ _ (by simp), ih]

theorem decodeGroup_encode {digits : List Nat} (h : ∀ d ∈ digits, d < 64) :
    decodeGroup (digits.map encode) =
      some ([UInt8.ofNat (shiftIn digits / 2 ^ 16), UInt8.ofNat (shiftIn digits / 2 ^ 8),
        UInt8.ofNat (shiftIn digits)].take (digits.length - 1)) := by
  rw [decodeGroup, mapM_decode_encode h]
  rfl

theorem shiftIn_four (w x y z : Nat) : shiftIn [w, x, y, z] = ((w * 64 + x) * 64 + y) * 64 + z := by
  simp [shiftIn]

/-- The sextets of three bytes, shifted in and cut into bytes again. -/
theorem bytes_shiftIn (a b c : UInt8) :
    let buf := shiftIn [a.toNat / 4, a.toNat % 4 * 16 + b.toNat / 16,
      b.toNat % 16 * 4 + c.toNat / 64, c.toNat % 64]
    [UInt8.ofNat (buf / 2 ^ 16), UInt8.ofNat (buf / 2 ^ 8), UInt8.ofNat buf] = [a, b, c] := by
  intro buf
  have ha := a.toNat_lt
  have hb := b.toNat_lt
  have hc := c.toNat_lt
  have hbuf : buf = a.toNat * 2 ^ 16 + b.toNat * 2 ^ 8 + c.toNat := by
    rw [show buf = _ from shiftIn_four ..]
    omega
  have h₀ : UInt8.ofNat (buf / 2 ^ 16) = a := by
    apply UInt8.toNat_inj.mp
    rw [UInt8.toNat_ofNat']
    omega
  have h₁ : UInt8.ofNat (buf / 2 ^ 8) = b := by
    apply UInt8.toNat_inj.mp
    rw [UInt8.toNat_ofNat']
    omega
  have h₂ : UInt8.ofNat buf = c := by
    apply UInt8.toNat_inj.mp
    rw [UInt8.toNat_ofNat']
    omega
  rw [h₀, h₁, h₂]

theorem decodeGroups_letters (src : Bytes) :
    decodeGroups ((letters src).map encode) = some src := by
  fun_induction letters src with
  | case1 => rfl
  | case2 a =>
      have hbytes := congrArg (List.take 1) (bytes_shiftIn a 0 0)
      exact (decodeGroup_encode (letters_lt [a])).trans (congrArg some hbytes)
  | case3 a b =>
      have hbytes := congrArg (List.take 2) (bytes_shiftIn a b 0)
      exact (decodeGroup_encode (letters_lt [a, b])).trans (congrArg some hbytes)
  | case4 a b c src ih =>
      have hbytes := congrArg (List.take 3) (bytes_shiftIn a b c)
      have hgroup : decodeGroup ((letters [a, b, c]).map encode) = some [a, b, c] :=
        (decodeGroup_encode (letters_lt [a, b, c])).trans (congrArg some hbytes)
      simp only [letters, List.map_cons, List.map_nil, List.cons_append,
        List.nil_append, List.append_nil, decodeGroups] at hgroup ⊢
      rw [hgroup, ih]
      rfl

/-- The decoder gives every encoded text back. -/
theorem base64_Decode_Encode (src : Bytes) : base64_Decode (base64_Encode src) = some src := by
  rcases base64_Encode_eq src with ⟨n, hn⟩
  have hpad : PAD ∉ (letters src).map encode := by
    intro hmem
    rcases List.mem_map.mp hmem with ⟨d, hd, hpad⟩
    exact encode_ne_pad (letters_lt src d hd) hpad
  rw [base64_Decode, hn, rdropWhile_pad hpad, decodeGroups_letters]

end PlayerInterface.BaseConversion
