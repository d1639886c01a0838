import PlayerInterface.Core.Results
import PlayerInterface.Drm.HlsKeyTag

/-!
# When a key tag attribute is found

The attribute itself is never missed. What stands before it can be taken for it: its name
at the end of a longer name or in a value, with an equals sign behind.
-/

namespace PlayerInterface.Drm

open PlayerInterface.Core

/-- The lookup gives the value of the attribute, and fails without one. -/
def FindsValue (attrs : List Attribute) (key : AttributeName) : Prop :=
  GetFieldValue (attributeList attrs) key.chars = .ok (attributeValue attrs key)

/-! ## The condition -/

/-- At the occurrence `p` where the loop ends something stands behind the equals sign, and it is the
value: that of the attribute itself, or of another text that happens to read the same. -/
structure EndsRight (attrs : List Attribute) (key : AttributeName) (p : Nat) : Prop where
  fits : p + key.chars.length + 1 < 2 ^ 31
  behind : p + key.chars.length + 1 < (attributeList attrs).length
  value : if attributePlace key attrs = some p then
      ∀ value, attributeValue attrs key = some value → value.length < 2 ^ 31
    else
      ∃ value, attributeValue attrs key = some value ∧
        readFieldValue ((attributeList attrs).drop (p + key.chars.length + 1)) = .ok value

/-- The positions are `int`s, and the loop ends right if it ends at an occurrence. -/
structure LooksRight (attrs : List Attribute) (key : AttributeName) : Prop where
  key_fits : key.chars.length < 2 ^ 31
  passed_fits : ∀ p ∈ (examined key.chars (attributeList attrs)).takeWhile
    fun p => !isLast key.chars (attributeList attrs) p, p + key.chars.length + 1 < 2 ^ 31
  ends : ∀ p, (examined key.chars (attributeList attrs)).find?
    (isLast key.chars (attributeList attrs)) = some p → EndsRight attrs key p

/-! ## The loop over the occurrences -/

theorem intPosition_eq_ok {n m : Nat} : intPosition n = .ok m ↔ n < 2 ^ 31 ∧ n = m :=
  guard_eq_ok

theorem charAt_eq_ok {s : List Char} {i : Nat} {c : Char} : charAt s i = .ok c ↔ s[i]? = some c := by
  rw [charAt]
  cases s[i]? <;> simp

/-- One turn of the loop, for the occurrence `p`. -/
theorem GetFieldValueLoop_step {attrName keyName : List Char} {fuel found p : Nat}
    (hp : findFrom keyName attrName found = some p) {result : Option (List Char)} :
    GetFieldValueLoop attrName keyName (fuel + 1) found = .ok result ↔
      p + keyName.length + 1 < 2 ^ 31 ∧ ∃ c, attrName[p + keyName.length]? = some c ∧
        if c = '=' then
          ∃ valuePtr, readFieldValue (attrName.drop (p + keyName.length + 1)) = .ok valuePtr ∧
            some valuePtr = result
        else GetFieldValueLoop attrName keyName fuel (p + keyName.length + 1) = .ok result := by
  rw [GetFieldValueLoop, hp]
  simp only [bind_eq_ok, intPosition_eq_ok, charAt_eq_ok]
  constructor
  · intro ⟨_, ⟨_, hfound⟩, _, ⟨_, hstart⟩, c, hc, hrest⟩
    subst hfound hstart
    by_cases hequals : c = '='
    · rw [if_pos hequals] at hrest
      obtain ⟨_, ⟨hlt, rfl⟩, valuePtr, hread, hresult⟩ := by
        simpa only [bind_eq_ok, intPosition_eq_ok] using hrest
      refine ⟨hlt, c, hc, ?_⟩
      rw [if_pos hequals]
      exact ⟨valuePtr, hread, Except.ok.inj hresult⟩
    · rw [if_neg hequals] at hrest
      obtain ⟨_, ⟨hlt, rfl⟩, hloop⟩ := by
        simpa only [bind_eq_ok, intPosition_eq_ok] using hrest
      refine ⟨hlt, c, hc, ?_⟩
      rw [if_neg hequals]
      exact hloop
  · intro ⟨hlt, c, hc, hrest⟩
    refine ⟨p, ⟨by omega, rfl⟩, _, ⟨by omega, rfl⟩, c, hc, ?_⟩
    by_cases hequals : c = '='
    · rw [if_pos hequals] at hrest ⊢
      obtain ⟨valuePtr, hread, hresult⟩ := hrest
      simp only [bind_eq_ok, intPosition_eq_ok]
      exact ⟨_, ⟨hlt, rfl⟩, valuePtr, hread, congrArg _ hresult⟩
    · rw [if_neg hequals] at hrest ⊢
      simp only [bind_eq_ok, intPosition_eq_ok]
      exact ⟨_, ⟨hlt, rfl⟩, hrest⟩

/-- How the loop ends: at the first occurrence that is followed by an equals sign or by nothing. -/
theorem GetFieldValueLoop_eq_ok {attrName keyName : List Char} {fuel found : Nat}
    {result : Option (List Char)} :
    GetFieldValueLoop attrName keyName fuel found = .ok result ↔
      (∀ p ∈ (examinedFrom keyName attrName fuel found).takeWhile
        fun p => !isLast keyName attrName p, p + keyName.length + 1 < 2 ^ 31) ∧
      match (examinedFrom keyName attrName fuel found).find? (isLast keyName attrName) with
      | none => none = result
      | some p => p + keyName.length + 1 < 2 ^ 31 ∧ attrName[p + keyName.length]? = some '=' ∧
          ∃ valuePtr, readFieldValue (attrName.drop (p + keyName.length + 1)) = .ok valuePtr ∧
            some valuePtr = result := by
  induction fuel generalizing found with
  | zero => simp [GetFieldValueLoop, examinedFrom]
  | succ fuel ih =>
      cases hp : findFrom keyName attrName found with
      | none => simp [GetFieldValueLoop, examinedFrom, hp]
      | some p =>
          rw [GetFieldValueLoop_step hp, examinedFrom, hp]
          dsimp only
          cases hc : attrName[p + keyName.length]? with
          | none =>
              have hlast : isLast keyName attrName p = true := by rw [isLast, hc]; rfl
              rw [List.find?_cons_of_pos hlast]
              simp only [hc, reduceCtorEq, false_and, and_false, exists_false]
          | some c =>
              by_cases hequals : c = '='
              · have hlast : isLast keyName attrName p = true := by
                  rw [isLast, hc, hequals]
                  rfl
                rw [List.find?_cons_of_pos hlast, List.takeWhile_cons_of_neg (by rw [hlast]; simp)]
                simp only [hc, Option.some.injEq, exists_eq_left', hequals, if_true, true_and,
                  List.not_mem_nil, false_implies, implies_true]
              · have hlast : isLast keyName attrName p = false := by
                  rw [isLast, hc]
                  simpa using hequals
                rw [List.find?_cons_of_neg (by rw [hlast]; exact Bool.false_ne_true),
                  List.takeWhile_cons_of_pos (by rw [hlast]; rfl)]
                simp only [Option.some.injEq, exists_eq_left', if_neg hequals, ih,
                  List.forall_mem_cons, and_assoc]

/-! ## The attribute is not missed -/

/-- Enough fuel reaches every occurrence that no other one overlaps or touches. -/
theorem mem_examinedFrom {keyName attrName : List Char} (hkey : keyName ≠ []) {fuel found p : Nat}
    (hfuel : attrName.length < found + fuel) (hle : found ≤ p)
    (hp : p < attrName.length ∧ keyName <+: attrName.drop p)
    (hapart : ∀ q < p, keyName <+: attrName.drop q → q + keyName.length + 1 ≤ p) :
    p ∈ examinedFrom keyName attrName fuel found := by
  induction fuel generalizing found with
  | zero => omega
  | succ fuel ih =>
      have hmem : p ∈ occurrencesFrom keyName attrName found :=
        mem_occurrencesFrom.mpr ⟨hle, hp⟩
      rw [examinedFrom, findFrom_eq hkey]
      cases hplaces : occurrencesFrom keyName attrName found with
      | nil => rw [hplaces] at hmem; cases hmem
      | cons q rest =>
          obtain ⟨hfound, hq, hocc, hrest⟩ := occurrencesFrom_cons hplaces
          rw [List.head?_cons]
          dsimp only
          by_cases hqp : q = p
          · rw [hqp]
            exact List.mem_cons_self
          · rw [hplaces] at hmem
            have hlater : p ∈ occurrencesFrom keyName attrName (q + 1) := by
              rw [← hrest]
              exact (List.mem_cons.mp hmem).resolve_left fun h => hqp h.symm
            have hlt := (mem_occurrencesFrom.mp hlater).1
            have hgap := hapart q hlt hocc
            exact List.mem_cons_of_mem q (ih (by omega) hgap)

/-- How the list is cut around the attribute. -/
theorem attributePlace_eq_some {key : AttributeName} {attrs : List Attribute} {p : Nat}
    (h : attributePlace key attrs = some p) :
    ∃ (before : List Char) (a : Attribute) (behind : List Char),
      attributeList attrs = before ++ (a.text ++ behind) ∧ before.length = p ∧
      a.name.chars = key.chars ∧ attributeValue attrs key = some a.value ∧
      (before = [] ∨ before.getLast? = some ',') ∧ (behind = [] ∨ behind.head? = some ',') := by
  induction attrs generalizing p with
  | nil => cases h
  | cons a attrs ih =>
      have htext : ∃ behind, attributeList (a :: attrs) = a.text ++ behind ∧
          (behind = [] ∨ behind = ',' :: attributeList attrs) := by
        cases attrs with
        | nil => exact ⟨[], (List.append_nil _).symm, Or.inl rfl⟩
        | cons b attrs => exact ⟨_, rfl, Or.inr rfl⟩
      obtain ⟨behind, htext, hbehind⟩ := htext
      rw [attributePlace] at h
      by_cases hname : a.name.chars = key.chars
      · rw [if_pos hname] at h
        obtain rfl := Option.some.inj h
        refine ⟨[], a, behind, htext, rfl, hname, ?_, Or.inl rfl, ?_⟩
        · rw [attributeValue, List.find?_cons_of_pos (by simpa using hname)]
          rfl
        · rcases hbehind with hnil | hcons
          · exact Or.inl hnil
          · exact Or.inr (by rw [hcons]; rfl)
      · rw [if_neg hname] at h
        obtain ⟨q, hq, rfl⟩ := Option.map_eq_some_iff.mp h
        obtain ⟨before, b, behind', hlist, rfl, hb, hvalue, hbefore, hbehind'⟩ := ih hq
        have hne : attrs ≠ [] := by
          intro hnil
          rw [hnil] at hq
          cases hq
        have hcons : behind = ',' :: attributeList attrs := by
          cases attrs with
          | nil => exact absurd rfl hne
          | cons c attrs => exact List.append_cancel_left htext.symm
        refine ⟨a.text ++ ',' :: before, b, behind', ?_, ?_, hb, ?_, Or.inr ?_, hbehind'⟩
        · rw [htext, hcons, hlist, List.append_assoc, List.cons_append]
        · rw [List.length_append, List.length_cons]
          omega
        · rw [attributeValue, List.find?_cons_of_neg (by simpa using hname), ← attributeValue]
          exact hvalue
        · rcases hbefore with hnil | hlast
          · rw [hnil, List.getLast?_append_of_ne_nil _ (List.cons_ne_nil _ _)]
            rfl
          · rw [List.getLast?_append_of_ne_nil _ (List.cons_ne_nil _ _), List.getLast?_cons, hlast]
            rfl

/-- Nothing before the attribute reaches up to it: the name has no comma. -/
theorem occurrence_before_attribute {key : AttributeName} {before rest : List Char}
    (hbefore : before = [] ∨ before.getLast? = some ',') {q : Nat} (hq : q < before.length)
    (hocc : key.chars <+: (before ++ rest).drop q) : q + key.chars.length + 1 ≤ before.length := by
  by_contra hover
  rcases hbefore with hnil | hlast
  · rw [hnil] at hq
    exact absurd hq (Nat.not_lt_zero q)
  · obtain ⟨tail, htail⟩ := hocc
    have hcomma : (before ++ rest)[before.length - 1]? = some ',' := by
      rw [List.getElem?_append_left (by omega), ← List.getLast?_eq_getElem?]
      exact hlast
    have hinside : (before ++ rest)[before.length - 1]? = key.chars[before.length - 1 - q]? := by
      have hindex : before.length - 1 = q + (before.length - 1 - q) := by omega
      conv_lhs => rw [hindex, ← List.getElem?_drop, ← htail]
      exact List.getElem?_append_left (by omega)
    rw [hcomma] at hinside
    exact (key.plain ',' (List.mem_of_getElem? hinside.symm)).2.1 rfl

/-- The loop looks at the attribute, where it would end. -/
theorem attributePlace_examined {key : AttributeName} {attrs : List Attribute} {p : Nat}
    (h : attributePlace key attrs = some p) :
    p ∈ examined key.chars (attributeList attrs) ∧
      isLast key.chars (attributeList attrs) p = true := by
  obtain ⟨before, a, behind, hlist, rfl, hname, _, hbefore, _⟩ := attributePlace_eq_some h
  have hdrop : (attributeList attrs).drop before.length =
      key.chars ++ '=' :: (a.valueText ++ behind) := by
    rw [hlist, List.drop_left, Attribute.text, hname, List.append_assoc, List.cons_append]
  have hequals : (attributeList attrs)[before.length + key.chars.length]? = some '=' := by
    rw [← List.getElem?_drop, hdrop, List.getElem?_append_right (Nat.le_refl _), Nat.sub_self]
    rfl
  have hlt : before.length < (attributeList attrs).length := by
    have := (List.getElem?_eq_some_iff.mp hequals).1
    omega
  constructor
  · refine mem_examinedFrom key.ne_nil (by omega) (Nat.zero_le _)
      ⟨hlt, by rw [hdrop]; exact List.prefix_append _ _⟩ ?_
    intro q hq hocc
    rw [hlist] at hocc
    exact occurrence_before_attribute hbefore hq hocc
  · rw [isLast, hequals]
    rfl

/-! ## The value -/

theorem readFieldValue_quoted {value : List Char} (h : '"' ∉ value) (rest : List Char) :
    readFieldValue ('"' :: (value ++ '"' :: rest)) =
      if value.length < 2 ^ 31 then .ok value else .error .overflow := by
  have hfirst : charAt ('"' :: (value ++ '"' :: rest)) 0 = .ok '"' := rfl
  rw [readFieldValue, hfirst]
  simp only [bind, Except.bind, if_true, List.drop_one, List.tail_cons, find_letter h, intPosition]
  by_cases hlen : value.length < 2 ^ 31
  · simp only [if_pos hlen, List.take_left]
  · simp only [if_neg hlen]

theorem readFieldValue_unquoted {value rest : List Char} (hquote : '"' ∉ value)
    (hcomma : ',' ∉ value) (hrest : rest = [] ∨ rest.head? = some ',') (hne : value ++ rest ≠ []) :
    readFieldValue (value ++ rest) =
      if value.length < 2 ^ 31 then .ok value else .error .overflow := by
  have hend : (find [','] (value ++ rest)).getD (value ++ rest).length = value.length := by
    cases rest with
    | nil => rw [List.append_nil, find_letter_eq_none hcomma]; rfl
    | cons c rest =>
        have hc : c = ',' := by simpa using hrest
        rw [hc, find_letter hcomma]
        rfl
  obtain ⟨c, hc⟩ : ∃ c, (value ++ rest)[0]? = some c :=
    ⟨_, List.getElem?_eq_getElem (List.length_pos_iff.mpr hne)⟩
  have hfirst : charAt (value ++ rest) 0 = .ok c := charAt_eq_ok.mpr hc
  have hnot : ¬ c = '"' := by
    intro heq
    subst heq
    cases value with
    | nil =>
        rcases hrest with hnil | hhead
        · exact hne (by rw [hnil]; rfl)
        · rw [List.nil_append, ← List.head?_eq_getElem?, hhead] at hc
          exact absurd hc (by decide)
    | cons d value =>
        obtain rfl := Option.some.inj hc
        exact hquote List.mem_cons_self
  rw [readFieldValue, hfirst]
  simp only [bind, Except.bind, if_neg hnot, hend, intPosition]
  by_cases hlen : value.length < 2 ^ 31
  · simp only [if_pos hlen, List.take_left]
  · simp only [if_neg hlen]

/-- The value of an attribute is read unless nothing stands behind its equals sign. -/
theorem readFieldValue_attribute (a : Attribute) {behind : List Char}
    (hbehind : behind = [] ∨ behind.head? = some ',') {valuePtr : List Char} :
    readFieldValue (a.valueText ++ behind) = .ok valuePtr ↔
      a.valueText ++ behind ≠ [] ∧ a.value.length < 2 ^ 31 ∧ a.value = valuePtr := by
  rw [Attribute.valueText]
  split
  case isTrue hquoted =>
    have htext : '"' :: (a.value ++ ['"']) ++ behind = '"' :: (a.value ++ '"' :: behind) := by
      rw [List.cons_append, List.append_assoc]
      rfl
    rw [htext, readFieldValue_quoted a.noQuote, guard_eq_ok,
      and_iff_right (List.cons_ne_nil _ _)]
  case isFalse hunquoted =>
    have hcomma : ',' ∉ a.value := a.noComma (by simpa using hunquoted)
    by_cases hne : a.value ++ behind = []
    · rw [hne]
      simp [readFieldValue, charAt, bind, Except.bind]
    · rw [readFieldValue_unquoted a.noQuote hcomma hbehind hne, guard_eq_ok, and_iff_right hne]

/-! ## The lookup -/

theorem attributePlace_isSome {key : AttributeName} {attrs : List Attribute} {value : List Char}
    (h : attributeValue attrs key = some value) : ∃ p, attributePlace key attrs = some p := by
  induction attrs with
  | nil => cases h
  | cons a attrs ih =>
      rw [attributePlace]
      by_cases hname : a.name.chars = key.chars
      · exact ⟨0, if_pos hname⟩
      · rw [attributeValue, List.find?_cons_of_neg (by simpa using hname), ← attributeValue] at h
        obtain ⟨p, hp⟩ := ih h
        exact ⟨_, by rw [if_neg hname, hp]; rfl⟩

theorem readFieldValue_ne_nil {text valuePtr : List Char} (h : readFieldValue text = .ok valuePtr) :
    text ≠ [] := by
  intro hnil
  rw [hnil] at h
  cases h

/-- What is read at the occurrence where the loop ends is the value. -/
theorem endsRight_iff {attrs : List Attribute} {key : AttributeName} {p : Nat}
    (hlast : isLast key.chars (attributeList attrs) p = true) :
    EndsRight attrs key p ↔ p + key.chars.length + 1 < 2 ^ 31 ∧
      (attributeList attrs)[p + key.chars.length]? = some '=' ∧ ∃ valuePtr,
        readFieldValue ((attributeList attrs).drop (p + key.chars.length + 1)) = .ok valuePtr ∧
          some valuePtr = attributeValue attrs key := by
  have hequals : p + key.chars.length + 1 < (attributeList attrs).length →
      (attributeList attrs)[p + key.chars.length]? = some '=' := by
    intro hlt
    have hget := List.getElem?_eq_getElem (Nat.lt_of_succ_lt hlt)
    rw [isLast, hget] at hlast
    rw [hget, of_decide_eq_true hlast]
  -- at the attribute itself the text read is its value and what follows
  have hown : attributePlace key attrs = some p → ∃ (a : Attribute) (behind : List Char),
      (attributeList attrs).drop (p + key.chars.length + 1) = a.valueText ++ behind ∧
        (behind = [] ∨ behind.head? = some ',') ∧ attributeValue attrs key = some a.value := by
    intro hplace
    obtain ⟨before, a, behind, hlist, rfl, hname, hvalue, _, hbehind⟩ :=
      attributePlace_eq_some hplace
    refine ⟨a, behind, ?_, hbehind, hvalue⟩
    rw [hlist, Nat.add_assoc, ← List.drop_drop, List.drop_left, Attribute.text, hname,
      ← List.drop_drop, List.append_assoc, List.drop_left]
    rfl
  constructor
  · intro h
    refine ⟨h.fits, hequals h.behind, ?_⟩
    have hvalue := h.value
    split at hvalue
    case isTrue hplace =>
      obtain ⟨a, behind, hdrop, hbehind, hattr⟩ := hown hplace
      refine ⟨a.value, ?_, hattr.symm⟩
      rw [hdrop, readFieldValue_attribute a hbehind, ← hdrop]
      refine ⟨?_, hvalue a.value hattr, rfl⟩
      intro hnil
      have := List.drop_eq_nil_iff.mp hnil
      have := h.behind
      omega
    case isFalse =>
      obtain ⟨value, hattr, hread⟩ := hvalue
      exact ⟨value, hread, hattr.symm⟩
  · intro ⟨hfits, _, valuePtr, hread, hvalue⟩
    have hne := readFieldValue_ne_nil hread
    rw [ne_eq, List.drop_eq_nil_iff, Nat.not_le] at hne
    refine ⟨hfits, hne, ?_⟩
    split
    case isTrue hplace =>
      intro value hattr
      obtain ⟨a, behind, hdrop, hbehind, hattr'⟩ := hown hplace
      rw [hdrop, readFieldValue_attribute a hbehind] at hread
      rw [hattr'] at hattr
      rw [← Option.some.inj hattr]
      exact hread.2.1
    case isFalse => exact ⟨valuePtr, hvalue.symm, hread⟩

/-- Without an occurrence to end at there is no such attribute. -/
theorem attributeValue_eq_none {attrs : List Attribute} {key : AttributeName}
    (h : (examined key.chars (attributeList attrs)).find?
      (isLast key.chars (attributeList attrs)) = none) : attributeValue attrs key = none := by
  cases hvalue : attributeValue attrs key with
  | none => rfl
  | some value =>
      obtain ⟨p, hplace⟩ := attributePlace_isSome hvalue
      obtain ⟨hmem, hlast⟩ := attributePlace_examined hplace
      exact absurd hlast (List.find?_eq_none.mp h p hmem)

theorem URI_ne_nil : "URI".toList ≠ [] := by decide

theorem URI_plain : ∀ c ∈ "URI".toList, c ≠ '=' ∧ c ≠ ',' ∧ c ≠ '"' := by simp

def uri : AttributeName := ⟨"URI".toList, URI_ne_nil, URI_plain⟩

/-- The PSSH data are what follows the media type of the URI. -/
theorem getPsshData_eq {attrs : List Attribute} (h : FindsValue attrs uri) {mediaType data : List Char}
    (hvalue : attributeValue attrs uri = some (mediaType ++ ',' :: data))
    (hcomma : ',' ∉ mediaType) : getPsshData (attributeList attrs) = .ok (some data) := by
  have hfound : GetFieldValue (attributeList attrs) "URI".toList =
      .ok (some (mediaType ++ ',' :: data)) := h.trans (congrArg _ hvalue)
  rw [getPsshData, hfound]
  simp only [bind, Except.bind, Option.map_some, find_letter hcomma, Option.elim_some]
  rw [← List.drop_drop, List.drop_left]
  rfl

theorem BURI_ne_nil : "BURI".toList ≠ [] := by decide

theorem BURI_plain : ∀ c ∈ "BURI".toList, c ≠ '=' ∧ c ≠ ',' ∧ c ≠ '"' := by simp

/-- `BURI="x"`. -/
def longerName : List Attribute :=
  [{ name := ⟨"BURI".toList, BURI_ne_nil, BURI_plain⟩, quoted := true, value := ['x']
     noQuote := by decide, noComma := by decide }]

end PlayerInterface.Drm
