import PlayerInterface.Core.Bytes

/-!
# Decryption into a zeroed buffer

The cipher is set up, given the whole input and finished. Each of the three calls may fail
and still have written something, and what the last one reached is left in the buffer.
-/

namespace PlayerInterface.Core

/-- A length as a signed argument of 32 bits. -/
def toInt32 (length : Nat) : Int := (BitVec.ofNat 32 length).toInt

/-- What the calls answer for a key, an initialisation vector and an input: whether they
succeed and what they write. -/
structure Evp (κ : Type) where
  DecryptInit_ex : κ → Bytes → Bool
  DecryptUpdate : κ → Bytes → Bytes → Int → Bool × Bytes
  DecryptFinal_ex : κ → Bytes → Bytes → Int → Bool × Bytes
  fits : ∀ key iv input inl, (DecryptUpdate key iv input inl).2.length +
    (DecryptFinal_ex key iv input inl).2.length ≤ input.length

/-- The zeroed buffer of `size` bytes with `written` at its start. -/
def zeroFilled (size : Nat) (written : Bytes) : Bytes :=
  written ++ List.replicate (size - written.length) 0

theorem zeroFilled_length {size : Nat} {written : Bytes} (h : written.length ≤ size) :
    (zeroFilled size written).length = size := by
  rw [zeroFilled, List.length_append, List.length_replicate]
  omega

namespace Evp

variable {κ : Type} (evp : Evp κ) (key : κ) (iv input : Bytes) (inl : Int)

/-- Whether all three calls succeed, and the buffer behind the last one that was made. -/
def decrypt : Bool × Bytes :=
  if evp.DecryptInit_ex key iv then
    let (updated, out) := evp.DecryptUpdate key iv input inl
    if updated then
      let (finished, rest) := evp.DecryptFinal_ex key iv input inl
      (finished, zeroFilled input.length (out ++ rest))
    else (false, zeroFilled input.length out)
  else (false, zeroFilled input.length [])

/-- The call that fails finds the input in the buffer. -/
structure FailsIntact : Prop where
  init : evp.DecryptInit_ex key iv = false → zeroFilled input.length [] = input
  update : evp.DecryptInit_ex key iv = true → (evp.DecryptUpdate key iv input inl).1 = false →
    zeroFilled input.length (evp.DecryptUpdate key iv input inl).2 = input
  final : evp.DecryptInit_ex key iv = true → (evp.DecryptUpdate key iv input inl).1 = true →
    (evp.DecryptFinal_ex key iv input inl).1 = false →
    zeroFilled input.length ((evp.DecryptUpdate key iv input inl).2 ++
      (evp.DecryptFinal_ex key iv input inl).2) = input

variable {evp key iv input inl}

/-- The buffer is as long as the input, whichever call was the last one. -/
theorem decrypt_length : (evp.decrypt key iv input inl).2.length = input.length := by
  have hfits := evp.fits key iv input inl
  unfold decrypt
  dsimp only
  split
  · split
    · exact zeroFilled_length (by rw [List.length_append]; exact hfits)
    · exact zeroFilled_length (Nat.le_of_add_right_le hfits)
  · exact zeroFilled_length (Nat.zero_le _)

theorem failsIntact_iff :
    ((evp.decrypt key iv input inl).1 = false → (evp.decrypt key iv input inl).2 = input) ↔
      evp.FailsIntact key iv input inl := by
  unfold decrypt
  dsimp only
  cases hinit : evp.DecryptInit_ex key iv with
  | false =>
      rw [if_neg Bool.false_ne_true]
      constructor
      · exact fun h => ⟨fun _ => h rfl, fun ht => Bool.noConfusion (hinit.symm.trans ht),
          fun ht => Bool.noConfusion (hinit.symm.trans ht)⟩
      · exact fun h _ => h.init hinit
  | true =>
      rw [if_pos rfl]
      cases hupdate : (evp.DecryptUpdate key iv input inl).1 with
      | false =>
          rw [if_neg Bool.false_ne_true]
          constructor
          · exact fun h => ⟨fun hf => Bool.noConfusion (hinit.symm.trans hf), fun _ _ => h rfl,
              fun _ ht => Bool.noConfusion (hupdate.symm.trans ht)⟩
          · exact fun h _ => h.update hinit hupdate
      | true =>
          rw [if_pos rfl]
          constructor
          · exact fun h => ⟨fun hf => Bool.noConfusion (hinit.symm.trans hf),
              fun _ hf => Bool.noConfusion (hupdate.symm.trans hf), fun _ _ hfinal => h hfinal⟩
          · exact fun h hfinal => h.final hinit hupdate hfinal

end Evp
end PlayerInterface.Core
