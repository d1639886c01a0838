import PlayerInterface.Drm.PlayReadyHelper

/-!
# PlayReady headers

Init data is a UTF-16 header between bytes of any kind. The scan sees its nonzero
bytes only; where no delimiter occurs before its own place it finds the key id of
each header version.
-/

namespace PlayerInterface.Drm

open PlayerInterface.Core PlayerInterface.BaseConversion

/-! ## Texts -/

/-- Code units of a UTF-16 text. -/
abbrev Text := List UInt16

def utf16le (text : Text) : Bytes :=
  text.flatMap fun unit : UInt16 => [unit.toUInt8, (unit >>> 8).toUInt8]

def wide (bytes : Bytes) : Text := bytes.map UInt8.toUInt16

/-- The nonzero bytes. -/
def clean (bytes : Bytes) : Bytes := bytes.filter (· ≠ 0)

/-- What the scan sees of a text. -/
def seen (text : Text) : Bytes := clean (utf16le text)

theorem clean_append (bytes rest : Bytes) : clean (bytes ++ rest) = clean bytes ++ clean rest :=
  List.filter_append bytes rest

theorem seen_append (s t : Text) : seen (s ++ t) = seen s ++ seen t := by
  rw [seen, utf16le, List.flatMap_append, clean_append]
  rfl

theorem seen_wide (bytes : Bytes) : seen (wide bytes) = clean bytes := by
  induction bytes with
  | nil => rfl
  | cons byte bytes ih =>
      have hlow : byte.toUInt16.toUInt8 = byte := UInt8.toUInt8_toUInt16 byte
      have hhigh : (byte.toUInt16 >>> 8).toUInt8 = 0 := by
        apply UInt8.toNat_inj.mp
        have := byte.toNat_lt
        simp [Nat.shiftRight_eq_div_pow]
        omega
      have hunit : utf16le (wide (byte :: bytes)) = [byte, 0] ++ utf16le (wide bytes) := by
        simp [utf16le, wide, hlow, hhigh]
      have hzero : clean [byte, 0] = clean [byte] := by simp [clean, List.filter_cons]
      rw [seen, hunit, clean_append, hzero, ← seen, ih, ← clean_append, List.singleton_append]

theorem foldl_keepNonzero (bytes cleaned : Bytes) :
    bytes.foldl PlayReadyHelper.keepNonzero cleaned = cleaned ++ clean bytes := by
  induction bytes generalizing cleaned with
  | nil => simp [clean]
  | cons byte bytes ih =>
      rw [List.foldl_cons, ih, PlayReadyHelper.keepNonzero]
      split <;> simp_all [clean]

/-! ## Key ids -/

/-- A GUID in the byte order of the header. -/
abbrev Guid := { bytes : Bytes // bytes.length = 16 }

/-- The first three fields, of four, two and two bytes, in the other byte order. -/
def Guid.fieldsSwapped (guid : Guid) : Bytes :=
  let b := guid.val
  (b.take 4).reverse ++ ((b.drop 4).take 2).reverse ++ ((b.drop 6).take 2).reverse ++ b.drop 8

theorem convertEndianness_guid (guid : Guid) :
    convertEndianness guid.val = guid.fieldsSwapped := by
  rcases guid with ⟨bytes, hlen⟩
  match bytes, hlen with
  | [_, _, _, _, _, _, _, _, _, _, _, _, _, _, _, _], _ => rfl

def hexDigit (n : Nat) : UInt8 := if n < 10 then UInt8.ofNat (n + 48) else UInt8.ofNat (n - 10 + 97)

def hex (bytes : Bytes) : Bytes :=
  bytes.flatMap fun byte => [hexDigit (byte.toNat / 16), hexDigit (byte.toNat % 16)]

/-- The canonical lower-case text of a UUID. -/
def uuidText (b : Bytes) : Bytes :=
  hex (b.take 4) ++ ascii "-" ++ hex ((b.drop 4).take 2) ++ ascii "-" ++ hex ((b.drop 6).take 2)
    ++ ascii "-" ++ hex ((b.drop 8).take 2) ++ ascii "-" ++ hex (b.drop 10)

theorem hex_length (bytes : Bytes) : (hex bytes).length = 2 * bytes.length := by
  induction bytes with
  | nil => rfl
  | cons byte bytes ih =>
      simp only [hex, List.flatMap_cons, List.length_append, List.length_cons] at ih ⊢
      simp only [List.length_nil, ih]
      omega

theorem uuidText_length {b : Bytes} (h : b.length = 16) : (uuidText b).length = 36 := by
  have hdash : (ascii "-").length = 1 := rfl
  simp only [uuidText, List.length_append, hex_length, List.length_take, List.length_drop, h, hdash]
  omega

/-! ## Headers -/

def base64 (guid : Guid) : Bytes := base64_Encode guid.val

/-- `<KID … VALUE="…" …></KID>`, after `before`. -/
structure KidElement where
  before : Text := []
  attributes : Text
  after : Text
  guid : Guid

def KidElement.text (kid : KidElement) : Text :=
  kid.before ++ wide (ascii "<KID") ++ kid.attributes ++ wide (ascii "VALUE=\"") ++
    wide (base64 kid.guid) ++ wide (ascii "\"") ++ kid.after ++ wide (ascii "</KID>")

/-- The element with the key ids in the layout of each version; `lead` and `tail` are
what stands in front of the keys and behind them. -/
inductive KeyIds where
  | v4_0 (guid : Guid)
  | v4_1 (kid : KidElement) (tail : Text)
  | v4_2 (lead : Text) (kid : KidElement) (kids : List KidElement) (kidsTail tail : Text)
  | v4_3 (attributes lead : Text) (kid : KidElement) (kids : List KidElement)
      (kidsTail tail : Text)

namespace KeyIds

def version : KeyIds → Bytes
  | v4_0 .. => ascii "4.0.0.0"
  | v4_1 .. => ascii "4.1.0.0"
  | v4_2 .. => ascii "4.2.0.0"
  | v4_3 .. => ascii "4.3.0.0"

def firstGuid : KeyIds → Guid
  | v4_0 guid => guid
  | v4_1 kid _ | v4_2 _ kid _ _ _ | v4_3 _ _ kid _ _ _ => kid.guid

/-- The delimiters around the key ids, and what stands between them. -/
def opening : KeyIds → Bytes
  | v4_0 .. => ascii "<KID>"
  | v4_1 .. | v4_2 .. => ascii "<PROTECTINFO>"
  | v4_3 .. => ascii "<PROTECTINFO"

def closing : KeyIds → Bytes
  | v4_0 .. => ascii "</KID>"
  | v4_1 .. | v4_2 .. | v4_3 .. => ascii "</PROTECTINFO>"

def kidsText (kid : KidElement) (kids : List KidElement) (kidsTail : Text) : Text :=
  kid.text ++ kids.flatMap KidElement.text ++ kidsTail

def content : KeyIds → Text
  | v4_0 guid => wide (base64 guid)
  | v4_1 kid tail => kid.text ++ tail
  | v4_2 lead kid kids kidsTail tail =>
      lead ++ wide (ascii "<KIDS>") ++ kidsText kid kids kidsTail ++ wide (ascii "</KIDS>") ++ tail
  | v4_3 attributes lead kid kids kidsTail tail =>
      attributes ++ wide (ascii ">") ++ lead ++ wide (ascii "<KIDS>") ++
        kidsText kid kids kidsTail ++ wide (ascii "</KIDS>") ++ tail

end KeyIds

/-- A header: the text up to the version attribute, what follows it up to the element
with the key ids, and the rest. -/
structure WrmHeader where
  root : Text
  data : Text
  keyIds : KeyIds
  rest : Text

def WrmHeader.text (header : WrmHeader) : Text :=
  header.root ++ wide (ascii "version=\"") ++ wide header.keyIds.version ++ wide (ascii "\"") ++
    header.data ++ wide header.keyIds.opening ++ header.keyIds.content ++
    wide header.keyIds.closing ++ header.rest

/-! ## Delimiters in their places -/

/-- In a KID element followed by `post`. -/
structure KidElement.Placed (kid : KidElement) (post : Bytes) : Prop where
  kid_first : FirstAt (ascii "<KID") (seen kid.before)
    (seen (kid.attributes ++ wide (ascii "VALUE=\"") ++ wide (base64 kid.guid) ++
      wide (ascii "\"") ++ kid.after) ++ ascii "</KID>" ++ post)
  end_first : FirstAt (ascii "</KID>")
    (seen (kid.attributes ++ wide (ascii "VALUE=\"") ++ wide (base64 kid.guid) ++
      wide (ascii "\"") ++ kid.after)) post
  value_first : FirstAt (ascii "VALUE=\"") (seen kid.attributes)
    (base64 kid.guid ++ ascii "\"" ++ seen kid.after)

namespace KeyIds

/-- In a PROTECTINFO element that starts with `lead` and is followed by `post`. -/
structure KidsPlaced (lead : Text) (kid : KidElement) (kids : List KidElement)
    (kidsTail tail : Text) : Prop where
  kids_first : FirstAt (ascii "<KIDS>") (seen lead)
    (seen (kidsText kid kids kidsTail) ++ ascii "</KIDS>" ++ seen tail)
  end_first : FirstAt (ascii "</KIDS>") (seen (kidsText kid kids kidsTail)) (seen tail)
  kid_placed : kid.Placed (seen (kids.flatMap KidElement.text ++ kidsTail))

/-- Between the opening delimiter and the closing one, which `post` follows. The key id
of version 4.0 stands there alone. -/
def Placed (keyIds : KeyIds) (post : Bytes) : Prop :=
  match keyIds with
  | v4_0 _ => True
  | v4_1 kid tail =>
      FirstAt keyIds.closing (seen keyIds.content) post ∧ kid.Placed (seen tail)
  | v4_2 lead kid kids kidsTail tail =>
      FirstAt keyIds.closing (seen keyIds.content) post ∧ KidsPlaced lead kid kids kidsTail tail
  | v4_3 attributes lead kid kids kidsTail tail =>
      FirstAt keyIds.closing (seen keyIds.content) post ∧
        KidsPlaced (attributes ++ wide (ascii ">") ++ lead) kid kids kidsTail tail

end KeyIds

/-- No delimiter occurs before its own place in the header between `front` and `back`. -/
structure WrmHeader.Placed (header : WrmHeader) (front back : Bytes) : Prop where
  version_first : FirstAt (ascii "version=\"") (clean front ++ seen header.root)
    (header.keyIds.version ++ ascii "\"" ++ (seen header.data ++ header.keyIds.opening ++
      seen header.keyIds.content ++ header.keyIds.closing ++ seen header.rest ++ clean back))
  opening_first : FirstAt header.keyIds.opening
    (clean front ++ seen header.root ++ ascii "version=\"" ++ header.keyIds.version ++ ascii "\"" ++
      seen header.data)
    (seen header.keyIds.content ++ header.keyIds.closing ++ (seen header.rest ++ clean back))
  keyIds_placed : header.keyIds.Placed (seen header.rest ++ clean back)

/-! ## The scan -/

theorem clean_base64 (guid : Guid) : clean (base64 guid) = base64 guid := by
  apply List.filter_eq_self.mpr
  exact forall_mem_base64_Encode (by decide) (by decide) guid.val

theorem quote_notMem_base64 (guid : Guid) : (34 : UInt8) ∉ base64 guid := by
  intro hmem
  have hall := forall_mem_base64_Encode (p := (· ≠ 34)) (by decide) (by decide) guid.val
  exact hall 34 hmem rfl

theorem angle_notMem_base64 (guid : Guid) : (60 : UInt8) ∉ base64 guid := by
  intro hmem
  have hall := forall_mem_base64_Encode (p := (· ≠ 60)) (by decide) (by decide) guid.val
  exact hall 60 hmem rfl

theorem KidElement.seen_text (kid : KidElement) :
    seen kid.text = seen kid.before ++ ascii "<KID" ++
      (seen (kid.attributes ++ wide (ascii "VALUE=\"") ++ wide (base64 kid.guid) ++
        wide (ascii "\"") ++ kid.after) ++ ascii "</KID>") := by
  have hkid : clean (ascii "<KID") = ascii "<KID" := by decide
  have hend : clean (ascii "</KID>") = ascii "</KID>" := by decide
  simp only [KidElement.text, seen_append, seen_wide, hkid, hend, List.append_assoc]

theorem KidElement.seen_inner (kid : KidElement) :
    seen (kid.attributes ++ wide (ascii "VALUE=\"") ++ wide (base64 kid.guid) ++
      wide (ascii "\"") ++ kid.after) =
    seen kid.attributes ++ ascii "VALUE=\"" ++ (base64 kid.guid ++ ascii "\"" ++ seen kid.after) := by
  have hvalue : clean (ascii "VALUE=\"") = ascii "VALUE=\"" := by decide
  have hquote : clean (ascii "\"") = ascii "\"" := by decide
  simp only [seen_append, seen_wide, clean_base64, hvalue, hquote, List.append_assoc]

/-- The scan of one element finds its key id: the letters of the key id do not
contain the quote that ends it. -/
theorem KidElement.Placed.keyId_found {kid : KidElement} {post : Bytes} (h : kid.Placed post) :
    findSubstr (findSubstr (seen kid.text ++ post) (ascii "<KID") (ascii "</KID>"))
      (ascii "VALUE=\"") (ascii "\"") = base64 kid.guid := by
  have htag := findSubstr_of_firstAt h.kid_first h.end_first
  have hquote : FirstAt (ascii "\"") (base64 kid.guid) (seen kid.after) :=
    firstAt_of_notMem (quote_notMem_base64 kid.guid) (seen kid.after)
  have hvalue := findSubstr_of_firstAt h.value_first hquote
  rw [kid.seen_text, List.append_assoc, htag, kid.seen_inner]
  exact hvalue

theorem KeyIds.seen_kidsText (kid : KidElement) (kids : List KidElement) (kidsTail : Text) :
    seen (kidsText kid kids kidsTail) =
      seen kid.text ++ seen (kids.flatMap KidElement.text ++ kidsTail) := by
  rw [kidsText, List.append_assoc, seen_append]

/-- The scan of a list of elements finds the key id of the first. -/
theorem KeyIds.KidsPlaced.keyId_found {lead : Text} {kid : KidElement} {kids : List KidElement}
    {kidsTail tail : Text} (h : KidsPlaced lead kid kids kidsTail tail) :
    findSubstr (findSubstr (findSubstr (seen (lead ++ wide (ascii "<KIDS>") ++
        kidsText kid kids kidsTail ++ wide (ascii "</KIDS>") ++ tail))
      (ascii "<KIDS>") (ascii "</KIDS>")) (ascii "<KID") (ascii "</KID>"))
      (ascii "VALUE=\"") (ascii "\"") = base64 kid.guid := by
  have hkids := findSubstr_of_firstAt h.kids_first h.end_first
  have hstart : clean (ascii "<KIDS>") = ascii "<KIDS>" := by decide
  have hend : clean (ascii "</KIDS>") = ascii "</KIDS>" := by decide
  have hseen : seen (lead ++ wide (ascii "<KIDS>") ++ kidsText kid kids kidsTail ++
      wide (ascii "</KIDS>") ++ tail) = seen lead ++ ascii "<KIDS>" ++
        (seen (kidsText kid kids kidsTail) ++ ascii "</KIDS>" ++ seen tail) := by
    simp only [seen_append, seen_wide, hstart, hend, List.append_assoc]
  rw [hseen, hkids, seen_kidsText]
  exact h.kid_placed.keyId_found

/-- Attributes of PROTECTINFO are one more text in front of the keys. -/
theorem KeyIds.content_v4_3 (attributes lead : Text) (kid : KidElement) (kids : List KidElement)
    (kidsTail tail : Text) :
    (v4_3 attributes lead kid kids kidsTail tail).content =
      (v4_2 (attributes ++ wide (ascii ">") ++ lead) kid kids kidsTail tail).content := rfl

theorem KeyIds.clean_delimiters (keyIds : KeyIds) :
    clean keyIds.version = keyIds.version ∧ clean keyIds.opening = keyIds.opening ∧
      clean keyIds.closing = keyIds.closing := by
  cases keyIds <;> exact ⟨rfl, rfl, rfl⟩

/-- What is left of the init data. -/
theorem WrmHeader.clean_initData (header : WrmHeader) (front back : Bytes) :
    clean (front ++ utf16le header.text ++ back) =
      clean front ++ seen header.root ++ ascii "version=\"" ++ (header.keyIds.version ++ ascii "\"" ++
        (seen header.data ++ header.keyIds.opening ++ seen header.keyIds.content ++
          header.keyIds.closing ++ seen header.rest ++ clean back)) := by
  have hattribute : clean (ascii "version=\"") = ascii "version=\"" := by decide
  have hquote : clean (ascii "\"") = ascii "\"" := by decide
  rcases header.keyIds.clean_delimiters with ⟨hversion, hopening, hclosing⟩
  rw [clean_append, clean_append, ← seen, WrmHeader.text]
  simp only [seen_append, seen_wide, hattribute, hquote, hversion, hopening, hclosing,
    List.append_assoc]

/-- The closing delimiter of the key ids is the first one; in version 4.0 because a key
id has no `<`. -/
theorem KeyIds.Placed.closing_first {keyIds : KeyIds} {post : Bytes} (h : keyIds.Placed post) :
    FirstAt keyIds.closing (seen keyIds.content) post := by
  cases keyIds with
  | v4_0 guid =>
      have hseen : seen (v4_0 guid).content = base64 guid := by
        rw [content, seen_wide, clean_base64]
      rw [hseen]
      exact firstAt_of_notMem (angle_notMem_base64 guid) post
  | v4_1 kid tail => exact h.1
  | v4_2 lead kid kids kidsTail tail => exact h.1
  | v4_3 attributes lead kid kids kidsTail tail => exact h.1

section

variable {header : WrmHeader} {front back : Bytes}

theorem WrmHeader.Placed.version_found (h : header.Placed front back) :
    findSubstr (clean (front ++ utf16le header.text ++ back)) (ascii "version=\"") (ascii "\"") =
      header.keyIds.version := by
  have hquote : (34 : UInt8) ∉ header.keyIds.version := by
    cases header.keyIds <;> exact of_decide_eq_true rfl
  rw [header.clean_initData]
  exact findSubstr_of_firstAt h.version_first (firstAt_of_notMem hquote _)

theorem WrmHeader.Placed.content_found (h : header.Placed front back) :
    findSubstr (clean (front ++ utf16le header.text ++ back)) header.keyIds.opening
      header.keyIds.closing = seen header.keyIds.content := by
  have hfound := findSubstr_of_firstAt h.opening_first h.keyIds_placed.closing_first
  rw [header.clean_initData]
  simpa only [List.append_assoc] using hfound

/-- The scan of each version finds the first key id. -/
theorem WrmHeader.Placed.extractKeyID (h : header.Placed front back) {helper : PlayReadyHelper}
    (hdata : helper.mStrInitDataFormated = clean (front ++ utf16le header.text ++ back)) :
    helper.extractKeyID = base64 header.keyIds.firstGuid := by
  have hversion := h.version_found
  have hcontent := h.content_found
  have hplaced := h.keyIds_placed
  rw [← hdata] at hversion hcontent
  simp only [PlayReadyHelper.extractKeyID, hversion]
  cases hkeyIds : header.keyIds with
  | v4_0 guid =>
      rw [hkeyIds] at hcontent
      refine (if_pos rfl).trans (hcontent.trans ?_)
      rw [KeyIds.content, seen_wide, clean_base64]
      rfl
  | v4_1 kid tail =>
      rw [hkeyIds] at hcontent hplaced
      have hkid := hplaced.2.keyId_found
      rw [← seen_append, ← KeyIds.content, ← hcontent] at hkid
      exact (if_neg (of_decide_eq_true rfl)).trans ((if_pos rfl).trans hkid)
  | v4_2 lead kid kids kidsTail tail =>
      rw [hkeyIds] at hcontent hplaced
      have hkid := hplaced.2.keyId_found
      rw [← KeyIds.content, ← hcontent] at hkid
      exact (if_neg (of_decide_eq_true rfl)).trans
        ((if_neg (of_decide_eq_true rfl)).trans ((if_pos rfl).trans hkid))
  | v4_3 attributes lead kid kids kidsTail tail =>
      rw [hkeyIds] at hcontent hplaced
      rw [KeyIds.content_v4_3] at hcontent
      have hkid := hplaced.2.keyId_found
      rw [← KeyIds.content, ← hcontent] at hkid
      exact (if_neg (of_decide_eq_true rfl)).trans ((if_neg (of_decide_eq_true rfl)).trans
        ((if_neg (of_decide_eq_true rfl)).trans ((if_pos rfl).trans hkid)))

end

/-! ## `parsePssh` -/

/-- Decoding the letters of a GUID, swapping its fields and formatting them. -/
theorem storeKeyID_base64 {unparse : Bytes → Bytes}
    (hunparse : ∀ b : Bytes, b.length = 16 → unparse b = uuidText b) (helper : PlayReadyHelper)
    (guid : Guid) :
    helper.storeKeyID unparse (base64 guid) =
      (true, { helper with mKeyID := uuidText guid.fieldsSwapped }) := by
  have hlen : guid.fieldsSwapped.length = 16 := by
    simp [Guid.fieldsSwapped, guid.property]
  have htake : (uuidText guid.fieldsSwapped).take (PLAYREADY_KEY_ID_LEN - 1) =
      uuidText guid.fieldsSwapped :=
    List.take_of_length_le (Nat.le_of_eq (uuidText_length hlen))
  rw [PlayReadyHelper.storeKeyID, base64, base64_Decode_Encode, Option.getD_some,
    convertEndianness_guid, hunparse _ hlen]
  refine (if_neg (not_not_intro guid.property)).trans ?_
  simp only [htake]

theorem base64_ne_nil (guid : Guid) : base64 guid ≠ [] := by
  intro h
  have hdecode := base64_Decode_Encode guid.val
  rw [← base64, h] at hdecode
  have hnil : guid.val = [] := (Option.some.inj hdecode).symm
  have hlen := guid.property
  rw [hnil] at hlen
  cases hlen

theorem WrmHeader.initData_pos (header : WrmHeader) (front back : Bytes) :
    (front ++ utf16le header.text ++ back).length > 0 := by
  by_contra hzero
  have hnil := List.eq_nil_of_length_eq_zero (Nat.eq_zero_of_not_pos hzero)
  have hclean := congrArg List.length (header.clean_initData front back)
  have hattribute : (ascii "version=\"").length = 9 := rfl
  rw [hnil, clean, List.filter_nil] at hclean
  simp only [List.length_append, List.length_nil, hattribute] at hclean
  omega

/-- A helper whose scan finds the letters of a GUID stores its text. -/
theorem parseFormated_of_extractKeyID {unparse : Bytes → Bytes}
    (hunparse : ∀ b : Bytes, b.length = 16 → unparse b = uuidText b) {helper : PlayReadyHelper}
    {guid : Guid} (hkey : helper.extractKeyID = base64 guid) :
    ∃ after, helper.parseFormated unparse = (true, after) ∧
      after.mKeyID = uuidText guid.fieldsSwapped := by
  have hne : ¬ (base64 guid).isEmpty = true := by
    rw [List.isEmpty_iff]
    exact base64_ne_nil guid
  rw [PlayReadyHelper.parseFormated, hkey, if_neg hne, storeKeyID_base64 hunparse]
  exact ⟨_, rfl, rfl⟩

/-- The key id of a header is stored as the text of its first GUID exactly when the
init data can be counted by an `int`. -/
theorem parsePssh_stores_iff {unparse : Bytes → Bytes}
    (hunparse : ∀ b : Bytes, b.length = 16 → unparse b = uuidText b) {header : WrmHeader}
    {front back : Bytes} (hlen : (front ++ utf16le header.text ++ back).length < 2 ^ 32)
    (hplaced : header.Placed front back) (helper : PlayReadyHelper) :
    (∃ after, helper.parsePssh unparse (some ⟨front ++ utf16le header.text ++ back, hlen⟩) =
        some (true, after) ∧ after.mKeyID = uuidText header.keyIds.firstGuid.fieldsSwapped) ↔
      (front ++ utf16le header.text ++ back).length ≤ INT_MAX := by
  constructor
  · rintro ⟨after, hparse, -⟩
    by_contra hlong
    have hpos := header.initData_pos front back
    have hloop := intLoop_overflow (Nat.lt_of_not_le hlong) PlayReadyHelper.keepNonzero
      (Nat.zero_le INT_MAX) []
    rw [PlayReadyHelper.parsePssh, if_pos hpos, hloop] at hparse
    cases hparse
  · intro hle
    have hpos := header.initData_pos front back
    have hloop := intLoop_of_le hle PlayReadyHelper.keepNonzero 0 []
    rw [List.drop_zero, foldl_keepNonzero, List.nil_append] at hloop
    rw [PlayReadyHelper.parsePssh, if_pos hpos, hloop, Option.map_some]
    simp only [Option.some.injEq]
    exact parseFormated_of_extractKeyID hunparse (hplaced.extractKeyID rfl)

def sampleKid (guid : Guid) : KidElement where
  attributes := wide (ascii " ALGID=\"AESCTR\" ")
  after := []
  guid := guid

/-- A header of version 4.2 with two keys. -/
def sampleHeader : WrmHeader where
  root := wide (ascii "<WRMHEADER ")
  data := wide (ascii "><DATA>")
  keyIds := .v4_2 [] (sampleKid ⟨[0, 1, 2, 3, 4, 5, 6, 7, 8, 9, 10, 11, 12, 13, 14, 255], rfl⟩)
    [sampleKid ⟨List.replicate 16 7, rfl⟩] [] []
  rest := wide (ascii "</DATA>")

theorem sampleHeader_placed : sampleHeader.Placed [0, 0, 2, 112] [0, 60] where
  version_first := by decide
  opening_first := by decide +kernel
  keyIds_placed := ⟨by decide +kernel, by decide, by decide, by decide, by decide, by decide⟩

theorem sampleHeader_stored :
    ∃ after, PlayReadyHelper.parsePssh uuidText {} (some ⟨[0, 0, 2, 112] ++
        utf16le sampleHeader.text ++ [0, 60], by decide +kernel⟩) = some (true, after) ∧
      after.mKeyID = uuidText sampleHeader.keyIds.firstGuid.fieldsSwapped :=
  (parsePssh_stores_iff (fun _ _ => rfl) (by decide +kernel) sampleHeader_placed {}).mpr
    (by decide +kernel)

example : uuidText sampleHeader.keyIds.firstGuid.fieldsSwapped =
    ascii "03020100-0504-0706-0809-0a0b0c0d0eff" := by decide

/-- A header of version 4.0. -/
def shortHeader : WrmHeader where
  root := []
  data := wide (ascii ">")
  keyIds := .v4_0 ⟨List.replicate 16 7, rfl⟩
  rest := []

theorem clean_zeros (n : Nat) : clean (List.replicate n 0) = [] := by
  simp [clean]

theorem shortHeader_length (n : Nat) :
    ([] ++ utf16le shortHeader.text ++ List.replicate n 0).length = 106 + n := by
  have htext : (utf16le shortHeader.text).length = 106 := by decide
  rw [List.nil_append, List.length_append, htext, List.length_replicate]

/-- With 2 GiB of zeros behind it, which the scan would drop. -/
theorem shortHeader_not_stored :
    ∃ hlen : ([] ++ utf16le shortHeader.text ++ List.replicate (2 ^ 31) 0).length < 2 ^ 32,
      shortHeader.Placed [] (List.replicate (2 ^ 31) 0) ∧
      ¬ ∃ after, PlayReadyHelper.parsePssh uuidText {} (some ⟨_, hlen⟩) = some (true, after) ∧
        after.mKeyID = uuidText shortHeader.keyIds.firstGuid.fieldsSwapped := by
  have hlength := shortHeader_length (2 ^ 31)
  have hclean := clean_zeros (2 ^ 31)
  have hlen : ([] ++ utf16le shortHeader.text ++ List.replicate (2 ^ 31) 0).length < 2 ^ 32 := by
    omega
  refine ⟨hlen, ⟨?_, ?_, trivial⟩, ?_⟩
  · rw [hclean]
    decide
  · rw [hclean]
    decide
  · rintro ⟨after, hparse, -⟩
    have hlong : INT_MAX < ([] ++ utf16le shortHeader.text ++ List.replicate (2 ^ 31) 0).length := by
      rw [hlength, INT_MAX]
      omega
    have hloop := intLoop_overflow hlong PlayReadyHelper.keepNonzero (Nat.zero_le INT_MAX) []
    rw [PlayReadyHelper.parsePssh, if_pos (shortHeader.initData_pos _ _), hloop] at hparse
    cases hparse

end PlayerInterface.Drm
