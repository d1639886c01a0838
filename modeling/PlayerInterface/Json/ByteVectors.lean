import PlayerInterface.BaseConversion.Counters
import PlayerInterface.Json.PlayerJsonObject

/-!
# Byte vectors in a JSON object

A vector is stored as a string in one of three encodings. Reading one back that was stored
as it is gives its bytes, but never reports success.
-/

namespace PlayerInterface.Json

open PlayerInterface.Core PlayerInterface.BaseConversion

inductive ENCODING where
  | STRING
  | BASE64
  | BASE64_URL
deriving DecidableEq, Repr

/-- The items of a `PlayerJsonObject` that is no array. -/
abbrev Entries := List (Bytes × cJSON)

/-- The text of a vector; `none` when a counter overflows. -/
def encodeBytes (values : Bytes) : ENCODING → Option Bytes
  | .STRING => some values
  | .BASE64 => Counted.base64_Encode values
  | .BASE64_URL => Counted.base64_URL_Encode values

/-- `PlayerJsonObject::add` for bytes, with its result. Names and strings end at their first zero. -/
def addBytes (obj : Entries) (name values : Bytes) (encoding : ENCODING) :
    Option (Bool × Entries) :=
  (encodeBytes values encoding).map fun strValue =>
    (true, obj ++ [(cText name, .string (cText strValue))])

/-- What the decoders make of a text, with `none` for a null pointer. -/
def decodedResponse : Option Bytes → Bool × Bytes
  | some decoded => (true, decoded)
  | none => (false, [])

/-- `PlayerJsonObject::get` for bytes: its result and the vector behind it. -/
def getBytes (obj : cJSON) (name values : Bytes) (encoding : ENCODING) : Option (Bool × Bytes) :=
  match obj.getString (cText name) with
  | none => some (false, values)
  | some strValue =>
      match encoding with
      -- `res` stays false
      | .STRING => some (false, strValue)
      | .BASE64 => some (decodedResponse (base64_Decode strValue))
      | .BASE64_URL => (Counted.base64_URL_Decode strValue).map decodedResponse

/-- A library that prints what it parses: an object of one string comes back when neither the name
nor the string has a zero in it. -/
structure PrintingLibrary extends JsonLibrary where
  cJSON_Print : cJSON → Option Bytes
  print_parse : ∀ name text : Bytes, 0 ∉ name → 0 ∉ text → ∃ json,
    cJSON_Print (.object [(name, .string text)]) = some json ∧
      cJSON_Parse (cText json) = some (.object [(name, .string text)])

/-- `print` and `print_UnFormatted`. -/
def PrintingLibrary.print (lib : PrintingLibrary) (obj : cJSON) : Bytes :=
  (lib.cJSON_Print obj).elim [] cText

/-- The vector comes back from a fresh object, at once and behind a print of the object. -/
structure ComesBack (lib : PrintingLibrary) (name v : Bytes) (encoding : ENCODING) : Prop where
  atOnce : ∃ obj, addBytes [] name v encoding = some (true, obj) ∧
    ∀ w, getBytes (.object obj) name w encoding = some (true, v)
  reparsed : ∃ obj, addBytes [] name v encoding = some (true, obj) ∧
    ∃ parsed, lib.PlayerJsonObject (lib.print (.object obj)) = some parsed ∧
      ∀ w, getBytes parsed name w encoding = some (true, v)

/-! ## Reading what was stored -/

theorem zero_notMem_cText (bs : Bytes) : 0 ∉ cText bs := by
  intro hmem
  have hne := List.mem_takeWhile_imp hmem
  simp at hne

theorem cText_eq_self {bs : Bytes} (h : 0 ∉ bs) : cText bs = bs :=
  Counted.cText_eq_self fun _ hc heq => h (heq ▸ hc)

theorem getString_single (name strValue : Bytes) :
    (cJSON.object [(cText name, .string (cText strValue))]).getString (cText name) =
      some (cText strValue) := by
  have hitem : (cJSON.object [(cText name, .string (cText strValue))]).GetObjectItem (cText name) =
      some (.string (cText strValue)) := by
    show Option.map Prod.snd _ = _
    rw [List.find?_cons_of_pos (by simp)]
    rfl
  rw [cJSON.getString, hitem]
  exact congrArg some (cText_eq_self (zero_notMem_cText strValue))

theorem zero_notMem_base64 (src : Bytes) : 0 ∉ BaseConversion.base64_Encode src := by
  intro hmem
  have hdigit : ∀ d < 64, encode d ≠ 0 := by decide
  have hne := forall_mem_base64_Encode (p := fun c => c ≠ 0) hdigit (by decide) src 0 hmem
  exact hne rfl

theorem zero_notMem_base64_URL {v text : Bytes} (h : Counted.base64_URL_Encode v = some text) :
    0 ∉ text := by
  obtain ⟨rc, hrc, rfl⟩ := Option.map_eq_some_iff.mp h
  rw [Counted.eq_of_encodeFrom hrc]
  intro hmem
  exact (Counted.forall_mem_base64_URL_Encode v 0 hmem).ne_zero rfl

/-- What `get` gives for a text that was stored. -/
theorem getBytes_stored (name strValue w : Bytes) (encoding : ENCODING) :
    getBytes (.object [(cText name, .string (cText strValue))]) name w encoding =
      match encoding with
      | .STRING => some (false, cText strValue)
      | .BASE64 => some (decodedResponse (base64_Decode (cText strValue)))
      | .BASE64_URL =>
          (Counted.base64_URL_Decode (cText strValue)).map decodedResponse := by
  unfold getBytes
  rw [getString_single]

/-- An object that is printed is parsed to the same one. -/
theorem PrintingLibrary.reparse (lib : PrintingLibrary) (name strValue : Bytes) :
    lib.PlayerJsonObject (lib.print (.object [(cText name, .string (cText strValue))])) =
      some (.object [(cText name, .string (cText strValue))]) := by
  obtain ⟨json, hprint, hparse⟩ :=
    lib.print_parse _ _ (zero_notMem_cText name) (zero_notMem_cText strValue)
  rw [JsonLibrary.PlayerJsonObject, PrintingLibrary.print, hprint, Option.elim_some,
    cText_eq_self (zero_notMem_cText json)]
  exact hparse

/-- The vector comes back exactly when its text is decoded. -/
theorem comesBack_iff_stored (lib : PrintingLibrary) (name v : Bytes) (encoding : ENCODING) :
    ComesBack lib name v encoding ↔ ∃ strValue, encodeBytes v encoding = some strValue ∧
      ∀ w, getBytes (.object [(cText name, .string (cText strValue))]) name w encoding =
        some (true, v) := by
  have hadd : ∀ obj, addBytes [] name v encoding = some (true, obj) ↔
      ∃ strValue, encodeBytes v encoding = some strValue ∧
        obj = [(cText name, .string (cText strValue))] := by
    intro obj
    unfold addBytes
    rw [Option.map_eq_some_iff]
    simp only [List.nil_append, Prod.mk.injEq, true_and, eq_comm]
  constructor
  · intro h
    obtain ⟨obj, hobj, hget⟩ := h.atOnce
    obtain ⟨strValue, hencode, rfl⟩ := (hadd obj).mp hobj
    exact ⟨strValue, hencode, hget⟩
  · intro ⟨strValue, hencode, hget⟩
    have hobj := (hadd _).mpr ⟨strValue, hencode, rfl⟩
    exact ⟨⟨_, hobj, hget⟩, ⟨_, hobj, _, lib.reparse name strValue, hget⟩⟩

/-- The encodings with a decoder, for as many bytes as the counters of the loops can hold. -/
def Decodable : ENCODING → Bytes → Prop
  | .STRING, _ => False
  | .BASE64, v => v.length < 2 ^ 31 - 1
  | .BASE64_URL, v => v.length < 3 * 2 ^ 29

/-- A vector comes back exactly in these encodings and lengths. -/
theorem comesBack_iff (lib : PrintingLibrary) (name v : Bytes) (encoding : ENCODING) :
    ComesBack lib name v encoding ↔ Decodable encoding v := by
  rw [comesBack_iff_stored]
  cases encoding with
  | STRING =>
      refine iff_of_false ?_ id
      intro ⟨strValue, _, hget⟩
      have hfalse := hget []
      rw [getBytes_stored] at hfalse
      cases hfalse
  | BASE64 =>
      show _ ↔ v.length < 2 ^ 31 - 1
      rw [← Counted.base64_Encode_isSome_iff, Option.isSome_iff_exists]
      refine exists_congr fun strValue => ?_
      rw [encodeBytes, and_iff_left_iff_imp]
      intro hencode w
      have htext := Counted.eq_of_encodeFrom hencode
      rw [getBytes_stored, htext, cText_eq_self (zero_notMem_base64 v), base64_Decode_Encode]
      rfl
  | BASE64_URL =>
      show _ ↔ v.length < 3 * 2 ^ 29
      constructor
      · intro ⟨strValue, hencode, hget⟩
        have hdecode := hget []
        rw [getBytes_stored] at hdecode
        obtain ⟨result, hresult, _⟩ := Option.map_eq_some_iff.mp hdecode
        rw [cText_eq_self (zero_notMem_base64_URL hencode)] at hresult
        exact Counted.length_lt_of_url hencode hresult
      · intro hlt
        obtain ⟨text, hencode, hdecode, _⟩ := (Counted.RoundTrips.of_lt hlt).url
        refine ⟨text, hencode, fun w => ?_⟩
        rw [getBytes_stored, cText_eq_self (zero_notMem_base64_URL hencode), hdecode]
        rfl

/-! ## A library -/

/-- A string between quotes: the quote and the backslash stand behind a backslash. -/
def escaped (text : Bytes) : Bytes := text.flatMap fun c => if c = 34 ∨ c = 92 then [92, c] else [c]

/-- The string up to the closing quote, and what is behind it. -/
def unescaped : Bytes → Option (Bytes × Bytes)
  | [] => none
  | c :: json =>
      if c = 34 then some ([], json)
      else if c = 92 then
        match json with
        | [] => none
        | d :: json => (unescaped json).map fun result => (d :: result.1, result.2)
      else (unescaped json).map fun result => (c :: result.1, result.2)

/-- An object of one string, a line for each item and a tab behind the colon. -/
def printItem (name text : Bytes) : Bytes :=
  [123, 10, 9, 34] ++ (escaped name ++ 34 :: ([58, 9, 34] ++ (escaped text ++ [34, 10, 125])))

def parseItem (json : Bytes) : Option cJSON := do
  guard (json.take 4 = [123, 10, 9, 34])
  let (name, json) ← unescaped (json.drop 4)
  guard (json.take 3 = [58, 9, 34])
  let (text, json) ← unescaped (json.drop 3)
  guard (json = [10, 125])
  pure (.object [(name, .string text)])

theorem unescaped_escaped (text json : Bytes) :
    unescaped (escaped text ++ 34 :: json) = some (text, json) := by
  induction text with
  | nil =>
      show unescaped (34 :: json) = _
      rw [unescaped.eq_def]
      rfl
  | cons c text ih =>
      have hrest : escaped (c :: text) ++ 34 :: json =
          (if c = 34 ∨ c = 92 then [92, c] else [c]) ++ (escaped text ++ 34 :: json) := by
        rw [escaped, List.flatMap_cons, List.append_assoc]
        rfl
      rw [hrest]
      by_cases hc : c = 34 ∨ c = 92
      · rw [if_pos hc]
        simp [unescaped, ih]
      · obtain ⟨hquote, hbackslash⟩ := not_or.mp hc
        rw [if_neg hc, List.singleton_append, unescaped.eq_def]
        simp [hquote, hbackslash, ih]

theorem parseItem_printItem (name text : Bytes) :
    parseItem (printItem name text) = some (.object [(name, .string text)]) := by
  have htext := unescaped_escaped text [10, 125]
  simp [parseItem, printItem, unescaped_escaped, htext]

theorem zero_notMem_escaped {text : Bytes} (h : 0 ∉ text) : 0 ∉ escaped text := by
  intro hmem
  obtain ⟨c, hc, hzero⟩ := List.mem_flatMap.mp hmem
  split at hzero
  · have heq : c = 0 := by simpa [eq_comm] using hzero
    exact h (heq ▸ hc)
  · have heq : c = 0 := by simpa [eq_comm] using hzero
    exact h (heq ▸ hc)

theorem zero_notMem_printItem {name text : Bytes} (hname : 0 ∉ name) (htext : 0 ∉ text) :
    0 ∉ printItem name text := by
  have hname := zero_notMem_escaped hname
  have htext := zero_notMem_escaped htext
  simp [printItem, hname, htext]

/-- Objects of one string are printed, and only they are parsed. -/
def itemLibrary : PrintingLibrary where
  cJSON_Parse := parseItem
  parse_empty := rfl
  outOfInt := id
  cJSON_Print := fun obj =>
    match obj with
    | .object [(name, .string text)] => some (printItem name text)
    | _ => none
  print_parse := by
    intro name text hname htext
    refine ⟨printItem name text, rfl, ?_⟩
    rw [cText_eq_self (zero_notMem_printItem hname htext)]
    exact parseItem_printItem name text

/-- The text `A` under the name `n`, stored as it is. -/
theorem string_not_back :
    ¬ ∀ (lib : PrintingLibrary) (name v : Bytes) (encoding : ENCODING),
      (encoding = .STRING → 0 ∉ v) → ComesBack lib name v encoding := by
  intro hall
  have hback := hall itemLibrary [110] [65] .STRING (fun _ => by decide)
  obtain ⟨obj, hadd, hget⟩ := hback.atOnce
  cases hadd
  have hfalse : getBytes (.object [([110], .string [65])]) [110] [] .STRING = some (false, [65]) := rfl
  have htrue := hget []
  rw [show cText [110] = [110] from rfl, show cText [65] = [65] from rfl, List.nil_append,
    hfalse] at htrue
  cases htrue

end PlayerInterface.Json
