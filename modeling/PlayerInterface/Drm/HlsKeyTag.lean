import Mathlib.Algebra.Group.Nat.Defs
import PlayerInterface.Core.Occurrences

/-!
# Attributes of an HLS key tag

`GetFieldValue` searches the name of an attribute as a substring and takes the first
occurrence that is followed by an equals sign.
-/

namespace PlayerInterface.Drm

open PlayerInterface.Core

/-! ## The lookup -/

/-- `at` throws behind the end; a position that is no `int` has no defined result. -/
inductive LookupFailure where
  | out_of_range
  | overflow
deriving DecidableEq, Repr

/-- The `int` a position is stored in. -/
def intPosition (n : Nat) : Except LookupFailure Nat :=
  if n < 2 ^ 31 then .ok n else .error .overflow

def charAt (s : List Char) (i : Nat) : Except LookupFailure Char :=
  match s[i]? with
  | some c => .ok c
  | none => .error .out_of_range

/-- The value in the text behind the equals sign. Without a closing quote the end is -1, which as a
count takes everything. -/
def readFieldValue (valueTempPtr : List Char) : Except LookupFailure (List Char) := do
  let c ← charAt valueTempPtr 0
  if c = '"' then
    let valueTempPtr := valueTempPtr.drop 1
    match find ['"'] valueTempPtr with
    | none => .ok valueTempPtr
    | some valueEndPos => do
        let valueEndPos ← intPosition valueEndPos
        .ok (valueTempPtr.take valueEndPos)
  else
    let valueEndPos ← intPosition ((find [','] valueTempPtr).getD valueTempPtr.length)
    .ok (valueTempPtr.take valueEndPos)

/-- The loop from position `found` on; `none` is `DRM_API_FAILED`. -/
def GetFieldValueLoop (attrName keyName : List Char) :
    Nat → Nat → Except LookupFailure (Option (List Char))
  | 0, _ => .ok none
  | fuel + 1, found =>
      match findFrom keyName attrName found with
      | none => .ok none
      | some foundpos => do
          let foundpos ← intPosition foundpos
          let valueStartPos ← intPosition (foundpos + keyName.length)
          let c ← charAt attrName valueStartPos
          if c = '=' then do
            let start ← intPosition (valueStartPos + 1)
            let valuePtr ← readFieldValue (attrName.drop start)
            .ok (some valuePtr)
          else do
            let found ← intPosition (valueStartPos + 1)
            GetFieldValueLoop attrName keyName fuel found

def GetFieldValue (attrName keyName : List Char) : Except LookupFailure (Option (List Char)) := do
  let _keylen ← intPosition keyName.length
  GetFieldValueLoop attrName keyName (attrName.length + 1) 0

/-- What stands behind the first comma of the URI, all of it without one. -/
def getPsshData (attrName : List Char) : Except LookupFailure (Option (List Char)) := do
  let psshData ← GetFieldValue attrName "URI".toList
  .ok (psshData.map fun psshData => psshData.drop ((find [','] psshData).elim 0 (· + 1)))

/-! ## Attribute lists -/

/-- The name of an attribute. -/
structure AttributeName where
  chars : List Char
  ne_nil : chars ≠ []
  plain : ∀ c ∈ chars, c ≠ '=' ∧ c ≠ ',' ∧ c ≠ '"'

/-- A quoted value holds anything but quotes, an unquoted one no commas either. -/
structure Attribute where
  name : AttributeName
  quoted : Bool
  value : List Char
  noQuote : '"' ∉ value
  noComma : quoted = false → ',' ∉ value

namespace Attribute

def valueText (a : Attribute) : List Char :=
  if a.quoted then '"' :: (a.value ++ ['"']) else a.value

def text (a : Attribute) : List Char := a.name.chars ++ '=' :: a.valueText

end Attribute

/-- The attributes with commas between them. -/
def attributeList : List Attribute → List Char
  | [] => []
  | [a] => a.text
  | a :: b :: attrs => a.text ++ ',' :: attributeList (b :: attrs)

/-- The value of the first attribute of that name. -/
def attributeValue (attrs : List Attribute) (key : AttributeName) : Option (List Char) :=
  (attrs.find? (·.name.chars = key.chars)).map Attribute.value

/-- Where this attribute starts in the list. -/
def attributePlace (key : AttributeName) : List Attribute → Option Nat
  | [] => none
  | a :: attrs =>
      if a.name.chars = key.chars then some 0
      else (attributePlace key attrs).map (· + (a.text.length + 1))

/-! ## The occurrences the loop looks at -/

/-- Each search goes on behind the letter that follows the occurrence before. -/
def examinedFrom (keyName attrName : List Char) : Nat → Nat → List Nat
  | 0, _ => []
  | fuel + 1, found =>
      match findFrom keyName attrName found with
      | none => []
      | some p => p :: examinedFrom keyName attrName fuel (p + keyName.length + 1)

def examined (keyName attrName : List Char) : List Nat :=
  examinedFrom keyName attrName (attrName.length + 1) 0

/-- The loop ends at an occurrence that is followed by an equals sign, or by nothing. -/
def isLast (keyName attrName : List Char) (p : Nat) : Bool :=
  attrName[p + keyName.length]?.all (· = '=')

end PlayerInterface.Drm
