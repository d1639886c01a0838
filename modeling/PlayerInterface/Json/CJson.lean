import PlayerInterface.Core.Bytes

/-!
# JSON trees

What `cJSON` offers of a parsed text. Names are compared without regard to case, and
every lookup gives a null pointer where the item is not of the kind asked for.
-/

namespace PlayerInterface.Json

open PlayerInterface.Core

/-- A number is known by its value without the fraction. -/
inductive cJSON where
  | null
  | bool (value : Bool)
  | number (value : Int)
  | string (valuestring : Bytes)
  | array (items : List cJSON)
  | object (items : List (Bytes × cJSON))

def tolower (c : UInt8) : UInt8 := if 65 ≤ c ∧ c ≤ 90 then c + 32 else c

namespace cJSON

/-- The pointer `child`. -/
def child : cJSON → Option cJSON
  | array items => items.head?
  | object items => (items.head?).map Prod.snd
  | _ => none

/-- `cJSON_GetObjectItem`: the items of an array have no names. -/
def GetObjectItem (item : cJSON) (name : Bytes) : Option cJSON :=
  match item with
  | object items =>
      (items.find? fun entry => entry.1.map tolower = name.map tolower).map Prod.snd
  | _ => none

/-- `cJSON_GetStringValue`. -/
def GetStringValue : cJSON → Option Bytes
  | string valuestring => some valuestring
  | _ => none

end cJSON
end PlayerInterface.Json
