import PlayerInterface.BaseConversion.Base64

/-!
# Base64 for URLs

The two letters with a meaning in a URL are exchanged and the padding is left out;
the decoder exchanges them back and lets the other decoder drop a padding of two.
-/

namespace PlayerInterface.BaseConversion

open PlayerInterface.Core

def urlLetter (c : UInt8) : UInt8 := if c = 43 then 45 else if c = 47 then 95 else c

/-- The encoded text ends at its first padding letter, which becomes a zero. -/
def base64_URL_Encode (src : Bytes) : Bytes :=
  ((base64_Encode src).takeWhile (· ≠ PAD)).map urlLetter

def plainLetter (c : UInt8) : UInt8 := if c = 95 then 47 else if c = 45 then 43 else c

/-- `none` is a null pointer, with a length of zero. -/
def base64_URL_Decode (src : Bytes) : Option Bytes :=
  base64_Decode (src.map plainLetter ++ List.replicate 2 PAD)

theorem takeWhile_encode (digits : List Nat) (hlt : ∀ d ∈ digits, d < 64) (n : Nat) :
    (digits.map encode ++ List.replicate n PAD).takeWhile (· ≠ PAD) = digits.map encode := by
  induction digits with
  | nil =>
      cases n with
      | zero => rfl
      | succ n => simp [List.replicate_succ]
  | cons d digits ih =>
      have hne : encode d ≠ PAD := encode_ne_pad (hlt d List.mem_cons_self)
      have htail := ih fun e he => hlt e (List.mem_cons_of_mem d he)
      rw [List.map_cons, List.cons_append, List.takeWhile_cons_of_pos (by simpa using hne), htail]

theorem plainLetter_urlLetter {digit : Nat} (h : digit < 64) :
    plainLetter (urlLetter (encode digit)) = encode digit := by
  have hall : ∀ d < 64, plainLetter (urlLetter (encode d)) = encode d := by decide
  exact hall digit h

/-- The decoder gives every encoded text back. -/
theorem base64_URL_Decode_Encode (src : Bytes) :
    base64_URL_Decode (base64_URL_Encode src) = some src := by
  rcases base64_Encode_eq src with ⟨n, hn⟩
  have hpad : PAD ∉ (letters src).map encode := by
    intro hmem
    rcases List.mem_map.mp hmem with ⟨d, hd, hpad⟩
    exact encode_ne_pad (letters_lt src d hd) hpad
  have hback : (((letters src).map encode).map urlLetter).map plainLetter =
      (letters src).map encode := by
    simp only [List.map_map]
    exact List.map_congr_left fun d hd => plainLetter_urlLetter (letters_lt src d hd)
  rw [base64_URL_Decode, base64_URL_Encode, hn, takeWhile_encode (letters src) (letters_lt src),
    hback, base64_Decode, rdropWhile_pad hpad, decodeGroups_letters]

end PlayerInterface.BaseConversion
