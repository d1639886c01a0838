import PlayerInterface.Json.CJson
import Mathlib.Data.List.TakeWhile
import Mathlib.Data.Nat.Digits.Lemmas
import Mathlib.Tactic.Ring

/-!
# `PlayerJsonObject` and numbers as text

The readers over a parsed text. The parser is a library function; what is said of it is
that it gives a null pointer for an empty text.
-/

namespace PlayerInterface.Json

open PlayerInterface.Core

/-- `outOfInt` is what the conversion of a number that is no `int` gives. -/
structure JsonLibrary where
  cJSON_Parse : Bytes → Option cJSON
  parse_empty : cJSON_Parse [] = none
  outOfInt : Int → Int

namespace JsonLibrary

/-- `PlayerJsonObject(jsonStr)`, which throws for `none`. -/
def PlayerJsonObject (lib : JsonLibrary) (jsonStr : Bytes) : Option cJSON :=
  lib.cJSON_Parse (cText jsonStr)

def toInt (lib : JsonLibrary) (n : Int) : Int :=
  if -2 ^ 31 ≤ n ∧ n < 2 ^ 31 then n else lib.outOfInt n

/-- `valuedouble` is zero in everything but numbers. -/
def valuedouble : cJSON → Int
  | .number value => value
  | _ => 0

def getInt (lib : JsonLibrary) (obj : cJSON) (name : Bytes) : Option Int :=
  (obj.GetObjectItem name).map fun strObj => lib.toInt (valuedouble strObj)

end JsonLibrary

def cJSON.getString (obj : cJSON) (name : Bytes) : Option Bytes :=
  ((obj.GetObjectItem name).bind cJSON.GetStringValue).map cText

/-! ## Numbers as text -/

/-- `std::to_string` of a natural number. -/
def decimal (n : Nat) : Bytes :=
  if n = 0 then [48] else ((Nat.digits 10 n).reverse).map fun digit => UInt8.ofNat (48 + digit)

def isspace (c : UInt8) : Bool := c = 32 || (9 ≤ c && c ≤ 13)

def isdigit (c : UInt8) : Bool := 48 ≤ c && c ≤ 57

/-- The digits at the front of a text as a number. -/
def leadingNumber (text : Bytes) : Option Nat :=
  match text.takeWhile isdigit with
  | [] => none
  | digits => some (digits.foldl (fun n c => 10 * n + (c.toNat - 48)) 0)

theorem foldl_digits (digits : List Nat) (h : ∀ d ∈ digits, d < 10) (n : Nat) :
    ((digits.reverse).map fun digit => UInt8.ofNat (48 + digit)).foldl
        (fun n c => 10 * n + (c.toNat - 48)) n =
      n * 10 ^ digits.length + Nat.ofDigits 10 digits := by
  induction digits generalizing n with
  | nil => simp
  | cons d digits ih =>
      have hd : d < 10 := h d List.mem_cons_self
      have hdigit : (UInt8.ofNat (48 + d)).toNat - 48 = d := by
        rw [UInt8.toNat_ofNat', Nat.mod_eq_of_lt (by omega)]
        omega
      rw [List.reverse_cons, List.map_append, List.foldl_append,
        ih (fun e he => h e (List.mem_cons_of_mem d he)) n, List.map_singleton, List.foldl_cons,
        List.foldl_nil, hdigit, Nat.ofDigits_cons, List.length_cons, Nat.pow_succ]
      ring

theorem isdigit_decimal {n : Nat} (h : n ≠ 0) : ∀ c ∈ decimal n, isdigit c = true := by
  intro c hc
  rw [decimal, if_neg h] at hc
  obtain ⟨d, hd, rfl⟩ := List.mem_map.mp hc
  have hlt : d < 10 := Nat.digits_lt_base (by decide) (List.mem_reverse.mp hd)
  have hall : ∀ d < 10, isdigit (UInt8.ofNat (48 + d)) = true := by decide
  exact hall d hlt

theorem leadingNumber_decimal {n : Nat} (h : n ≠ 0) : leadingNumber (decimal n) = some n := by
  have hall : (decimal n).takeWhile isdigit = decimal n :=
    List.takeWhile_eq_self_iff.mpr (isdigit_decimal h)
  have hne : decimal n ≠ [] := by
    rw [decimal, if_neg h, Ne, List.map_eq_nil_iff, List.reverse_eq_nil_iff]
    exact Nat.digits_ne_nil_iff_ne_zero.mpr h
  unfold leadingNumber
  rw [hall]
  split
  · rename_i hnil
    exact absurd hnil hne
  · rw [decimal, if_neg h, foldl_digits _ (fun d hd => Nat.digits_lt_base (by decide) hd),
      Nat.ofDigits_digits, Nat.zero_mul, Nat.zero_add]

end PlayerInterface.Json
