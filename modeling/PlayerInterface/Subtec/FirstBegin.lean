import PlayerInterface.Core.Results
import PlayerInterface.Subtec.TtmlBegin

/-!
# What the first begin time is

The digits of a fraction are read as a number of milliseconds, and they have to be there:
the conversion of a group that has matched nothing throws, and only errors of the regular
expression are caught.
-/

namespace PlayerInterface.Subtec

open PlayerInterface.Core Regex

/-! ## Begin attributes -/

/-- `begin="h:m:s"`, or `begin="h:m:s.f"` with a fraction. -/
structure Begin where
  hours : List Char
  minutes : List Char
  seconds : List Char
  fraction : Option (List Char)
  hours_ne : hours ≠ []
  minutes_length : minutes.length = 1 ∨ minutes.length = 2
  seconds_length : seconds.length = 1 ∨ seconds.length = 2
  fraction_ne : fraction ≠ some []
  digits : ∀ c ∈ hours ++ minutes ++ seconds ++ fraction.getD [], c.isDigit = true

namespace Begin

/-- What stands behind the seconds. -/
def tail (b : Begin) : List Char :=
  match b.fraction with
  | none => ['"']
  | some f => '.' :: (f ++ ['"'])

def text (b : Begin) : List Char :=
  beginWord ++ (b.hours ++ ':' :: (b.minutes ++ ':' :: (b.seconds ++ b.tail)))

/-- The whole milliseconds of the time. -/
def milliseconds (b : Begin) : Nat :=
  3600000 * number b.hours + 60000 * number b.minutes + 1000 * number b.seconds +
    number (b.fraction.getD []) * 1000 / 10 ^ (b.fraction.getD []).length

/-- The attribute stands at place `i` of a line. -/
def At (b : Begin) (line : List Char) (i : Nat) : Prop := b.text <+: line.drop i

end Begin

/-- No begin attribute stands in the lines. -/
def NoBegin (lines : List (List Char)) : Prop := ∀ line ∈ lines, ∀ b i, ¬ Begin.At b line i

/-- The first attribute of the first line that has one. -/
def FirstBegin (lines : List (List Char)) (b : Begin) : Prop :=
  ∃ before line after i, lines = before ++ line :: after ∧ NoBegin before ∧ b.At line i ∧
    ∀ j < i, ∀ b', ¬ Begin.At b' line j

/-- The result due: the maximum without an attribute, else the time of the first one where an
`int64_t` holds it. -/
structure Due (lines : List (List Char)) (firstBegin : Int) : Prop where
  none : NoBegin lines → firstBegin = INT64_MAX
  some : ∀ b, FirstBegin lines b → b.milliseconds ≤ INT64_MAX → firstBegin = b.milliseconds

/-- The call returns what is due. -/
def ParsesRight (ss : List Char) : Prop :=
  ∃ firstBegin, parseFirstBegin ss = .ok firstBegin ∧ Due (getLines ss) firstBegin

/-! ## The condition -/

/-- What the groups of a match add up to. -/
def matchSum (m : RegexMatch Char) : Nat :=
  number (matchStr m 4) +
    1000 * (number (matchStr m 3) + 60 * (number (matchStr m 2) + 60 * number (matchStr m 1)))

/-- The milliseconds of the time in the groups of a match. -/
def matchTime (m : RegexMatch Char) : Nat :=
  3600000 * number (matchStr m 1) + 60000 * number (matchStr m 2) + 1000 * number (matchStr m 3) +
    number (matchStr m 4) * 1000 / 10 ^ (matchStr m 4).length

/-- The groups of a match with the dot in front of the fraction. -/
def dottedText (m : RegexMatch Char) : List Char :=
  beginWord ++ (matchStr m 1 ++ ':' :: (matchStr m 2 ++ ':' ::
    (matchStr m 3 ++ '.' :: (matchStr m 4 ++ ['"']))))

/-- The first match in the lines, with the text from there on. -/
def firstMatch (lines : List (List Char)) : Option (List Char × RegexMatch Char) :=
  lines.findSome? (search beginRegex)

/-- Nothing matches; or the first match has a fraction, fits 64 bits, and is a begin attribute whose
fraction has three digits or is zero, or one too large to be due. A match of another form, with more
than two digits of seconds, must happen to give what is due. -/
def ReadsMilliseconds (lines : List (List Char)) : Prop :=
  match firstMatch lines with
  | none => True
  | some (place, m) =>
      matchStr m 4 ≠ [] ∧ matchSum m ≤ INT64_MAX ∧
        if dottedText m <+: place then
          (matchStr m 4).length = 3 ∨ number (matchStr m 4) = 0 ∨ INT64_MAX < matchTime m
        else Due lines (matchSum m)

/-! ## The conversions -/

theorem digit_head {c : Char} (h : c.isDigit = true) : isspace c = false ∧ c ≠ '-' ∧ c ≠ '+' := by
  have hne : ∀ d : Char, d.isDigit = false → c ≠ d := by
    intro d hd hc
    rw [hc, hd] at h
    cases h
  refine ⟨?_, hne '-' (by decide), hne '+' (by decide)⟩
  rw [isspace, Bool.eq_false_iff]
  intro hspace
  simp only [List.contains_cons, List.contains_nil, Bool.or_false, Bool.or_eq_true,
    beq_iff_eq] at hspace
  rcases hspace with hc | hc | hc | hc | hc | hc
  · exact hne ' ' (by decide) hc
  · exact hne '\t' (by decide) hc
  · exact hne '\n' (by decide) hc
  · exact hne '\x0b' (by decide) hc
  · exact hne '\x0c' (by decide) hc
  · exact hne '\x0d' (by decide) hc

/-- Digits convert to their number, as far as there are any and a `long` holds it. -/
theorem stol_digits {s : List Char} (h : ∀ c ∈ s, c.isDigit = true) :
    stol s = if s = [] then .error .invalid_argument
      else if 2 ^ 63 ≤ number s then .error .out_of_range else .ok (number s : Int) := by
  have hspaces : s.dropWhile isspace = s := by
    refine dropWhile_of_takeWhile_nil ?_
    cases s with
    | nil => rfl
    | cons c s =>
        refine List.takeWhile_cons_of_neg ?_
        rw [(digit_head (h c List.mem_cons_self)).1]
        exact Bool.false_ne_true
  have hsign : ∀ sign : Char, sign.isDigit = false → ¬ s.head? = some sign := by
    intro sign hs hhead
    rw [h sign (List.mem_of_mem_head? hhead)] at hs
    cases hs
  have hall : s.takeWhile Char.isDigit = s := List.takeWhile_eq_self_iff.mpr h
  have hminus := hsign '-' (by decide)
  have hplus := hsign '+' (by decide)
  unfold stol
  simp only [hspaces, hminus, hplus, or_self, if_false, hall]
  split
  case isTrue => rfl
  case isFalse =>
    by_cases hbig : 2 ^ 63 ≤ number s
    · rw [if_pos hbig, if_pos (by omega)]
    · rw [if_neg hbig, if_neg (by omega)]

theorem stol_eq_ok {s : List Char} (h : ∀ c ∈ s, c.isDigit = true) {v : Int} :
    stol s = .ok v ↔ s ≠ [] ∧ number s ≤ INT64_MAX ∧ v = number s := by
  rw [stol_digits h, INT64_MAX]
  split
  case isTrue hnil => simp [hnil]
  case isFalse hne =>
    split
    case isTrue hbig =>
      simp only [reduceCtorEq, false_iff]
      intro hok
      omega
    case isFalse hsmall =>
      simp only [Except.ok.injEq]
      constructor
      · intro hv
        exact ⟨hne, by omega, hv.symm⟩
      · intro hv
        exact hv.2.2.symm

theorem inInt64_eq_ok {n v : Int} : inInt64 n = .ok v ↔ (-2 ^ 63 ≤ n ∧ n < 2 ^ 63) ∧ n = v :=
  guard_eq_ok

/-- No step of the sum is larger than the sum. -/
theorem inMilliseconds_eq_ok {h m s f : Nat} {v : Int} :
    inMilliseconds h m s f = .ok v ↔
      f + 1000 * (s + 60 * (m + 60 * h)) ≤ INT64_MAX ∧
        ((f + 1000 * (s + 60 * (m + 60 * h)) : Nat) : Int) = v := by
  have hmax : INT64_MAX = 9223372036854775807 := by decide
  simp only [inMilliseconds, bind_eq_ok, inInt64_eq_ok, hmax]
  constructor
  · intro ⟨_, ⟨_, h₁⟩, _, ⟨_, h₂⟩, _, ⟨_, h₃⟩, _, ⟨_, h₄⟩, _, ⟨_, h₅⟩, hlast, hv⟩
    subst h₁ h₂ h₃ h₄ h₅ hv
    omega
  · intro ⟨hle, hv⟩
    exact ⟨_, ⟨by omega, rfl⟩, _, ⟨by omega, rfl⟩, _, ⟨by omega, rfl⟩, _, ⟨by omega, rfl⟩,
      _, ⟨by omega, rfl⟩, by omega, by omega⟩

/-- The four conversions and the sum, for groups that have captured digits. -/
theorem convertMatch_eq_ok {m : RegexMatch Char} {h mi w f : List Char} {v : Int}
    (hm : m.captures = [h, mi, w, f]) (hdigits : ∀ c ∈ h ++ mi ++ w ++ f, c.isDigit = true)
    (hh : h ≠ []) (hmi : mi ≠ []) (hw : w ≠ []) :
    convertMatch m = .ok v ↔ f ≠ [] ∧ matchSum m ≤ INT64_MAX ∧ (matchSum m : Int) = v := by
  have hstr : matchStr m 1 = h ∧ matchStr m 2 = mi ∧ matchStr m 3 = w ∧ matchStr m 4 = f := by
    simp [matchStr, hm]
  obtain ⟨h₁, h₂, h₃, h₄⟩ := hstr
  have hd₁ : ∀ c ∈ h, c.isDigit = true := fun c hc => hdigits c (by simp [hc])
  have hd₂ : ∀ c ∈ mi, c.isDigit = true := fun c hc => hdigits c (by simp [hc])
  have hd₃ : ∀ c ∈ w, c.isDigit = true := fun c hc => hdigits c (by simp [hc])
  have hd₄ : ∀ c ∈ f, c.isDigit = true := fun c hc => hdigits c (by simp [hc])
  have hmax : INT64_MAX = 9223372036854775807 := by decide
  simp only [convertMatch, matchSum, h₁, h₂, h₃, h₄, bind_eq_ok, stol_eq_ok hd₁, stol_eq_ok hd₂,
    stol_eq_ok hd₃, stol_eq_ok hd₄]
  constructor
  · intro ⟨_, ⟨_, _, hv₁⟩, _, ⟨_, _, hv₂⟩, _, ⟨_, _, hv₃⟩, _, ⟨hne, _, hv₄⟩, hsum⟩
    subst hv₁ hv₂ hv₃ hv₄
    obtain ⟨hle, hv⟩ := inMilliseconds_eq_ok.mp hsum
    exact ⟨hne, hle, hv⟩
  · intro ⟨hne, hle, hv⟩
    exact ⟨_, ⟨hh, by omega, rfl⟩, _, ⟨hmi, by omega, rfl⟩, _, ⟨hw, by omega, rfl⟩, _,
      ⟨hne, by omega, rfl⟩, inMilliseconds_eq_ok.mpr ⟨hle, hv⟩⟩

/-! ## The first match -/

theorem parseLines_eq (lines : List (List Char)) :
    parseLines lines = match firstMatch lines with
      | none => .ok INT64_MAX
      | some (_, m) => convertMatch m := by
  induction lines with
  | nil => rfl
  | cons line lines ih =>
      rw [parseLines, firstMatch, List.findSome?_cons]
      cases search beginRegex line with
      | none => exact ih
      | some found => rfl

theorem firstMatch_eq_some {lines : List (List Char)} {place : List Char} {m : RegexMatch Char}
    (h : firstMatch lines = some (place, m)) :
    ∃ before line after i, lines = before ++ line :: after ∧
      (∀ l ∈ before, ∀ j, run beginRegex (l.drop j) = []) ∧ place = line.drop i ∧
      (run beginRegex place).head? = some m ∧ ∀ j < i, run beginRegex (line.drop j) = [] := by
  obtain ⟨before, line, after, hlines, hfound, hnone⟩ := List.findSome?_eq_some_iff.mp h
  obtain ⟨i, _, hplace, hm, hbefore⟩ := search_eq_some hfound
  exact ⟨before, line, after, i, hlines,
    fun l hl => (search_eq_none_iff beginRegex l).mp (hnone l hl), hplace, hm, hbefore⟩

/-- The parts of the attribute that starts a text are those of the first match there. -/
theorem Begin.run_text {b : Begin} {s : List Char} (h : b.text <+: s) :
    ∃ rest, (run beginRegex s).head? =
      some ⟨rest, [b.hours, b.minutes, b.seconds, b.fraction.getD []]⟩ := by
  obtain ⟨rest, rfl⟩ := h
  have hbehind : (b.tail ++ rest).takeWhile Char.isDigit = [] ∧
      closing (b.tail ++ rest) = some (b.fraction.getD [], rest) := by
    have hdigits := b.digits
    unfold Begin.tail
    cases hfraction : b.fraction with
    | none => exact ⟨rfl, rfl⟩
    | some f =>
        rw [hfraction] at hdigits
        have hf : ∀ c ∈ f, c.isDigit = true := fun c hc => hdigits c (by simp [hc])
        have hclosing : closing ('.' :: (f ++ ['"']) ++ rest) = some (f, rest) := by
          rw [List.cons_append, closing, if_pos (by decide), List.append_assoc]
          exact closingQuote_append hf rest
        exact ⟨rfl, hclosing⟩
  have hrun := beginRegex_run b.hours_ne
    (fun c hc => b.digits c (List.mem_append_left _ hc)) b.minutes_length b.seconds_length
    hbehind.1 hbehind.2
  refine ⟨rest, ?_⟩
  rw [← hrun, Begin.text]
  simp only [List.append_assoc, List.cons_append]

theorem Begin.run_ne_nil {b : Begin} {line : List Char} {i : Nat} (h : b.At line i) :
    run beginRegex (line.drop i) ≠ [] := by
  obtain ⟨rest, hrun⟩ := Begin.run_text h
  intro hnil
  rw [hnil] at hrun
  cases hrun

/-- Two attributes at one place give the same time. -/
theorem Begin.milliseconds_eq {b b' : Begin} {s : List Char} (h : b.text <+: s)
    (h' : b'.text <+: s) : b.milliseconds = b'.milliseconds := by
  obtain ⟨rest, hrun⟩ := Begin.run_text h
  obtain ⟨rest', hrun'⟩ := Begin.run_text h'
  rw [hrun] at hrun'
  have hparts := congrArg RegexMatch.captures (Option.some.inj hrun')
  simp only [List.cons.injEq, and_true] at hparts
  obtain ⟨hh, hm, hs, hf⟩ := hparts
  rw [Begin.milliseconds, Begin.milliseconds, hh, hm, hs, hf]

/-! ## What is due -/

/-- The first element with a property is one element. -/
theorem first_unique {α : Type} {P : α → Prop} {l l' r r' : List α} {a a' : α}
    (h : l ++ a :: r = l' ++ a' :: r') (ha : P a) (ha' : P a') (hl : ∀ x ∈ l, ¬ P x)
    (hl' : ∀ x ∈ l', ¬ P x) : a = a' := by
  induction l generalizing l' with
  | nil =>
      cases l' with
      | nil => exact (List.cons.inj h).1
      | cons x l' =>
          obtain ⟨rfl, _⟩ := List.cons.inj h
          exact absurd ha (hl' a List.mem_cons_self)
  | cons x l ih =>
      cases l' with
      | nil =>
          obtain ⟨rfl, _⟩ := List.cons.inj h
          exact absurd ha' (hl x List.mem_cons_self)
      | cons x' l' =>
          exact ih (List.cons.inj h).2 (fun y hy => hl y (List.mem_cons_of_mem x hy))
            (fun y hy => hl' y (List.mem_cons_of_mem x' hy))

theorem FirstBegin.unique {lines : List (List Char)} {b b' : Begin} (h : FirstBegin lines b)
    (h' : FirstBegin lines b') : b.milliseconds = b'.milliseconds := by
  obtain ⟨before, line, after, i, hlines, hnone, hat, hfirst⟩ := h
  obtain ⟨before', line', after', i', hlines', hnone', hat', hfirst'⟩ := h'
  obtain rfl : line = line' := by
    refine first_unique (P := fun line => ∃ b i, Begin.At b line i) (hlines ▸ hlines') ⟨b, i, hat⟩
      ⟨b', i', hat'⟩ ?_ ?_
    · exact fun l hl ⟨c, j, hc⟩ => hnone l hl c j hc
    · exact fun l hl ⟨c, j, hc⟩ => hnone' l hl c j hc
  obtain rfl : i = i' := by
    rcases Nat.lt_trichotomy i i' with hlt | heq | hgt
    · exact absurd hat (hfirst' i hlt b)
    · exact heq
    · exact absurd hat' (hfirst i' hgt b')
  exact Begin.milliseconds_eq hat hat'

theorem due_of_first {lines : List (List Char)} {b : Begin} (h : FirstBegin lines b) (v : Int) :
    Due lines v ↔ (b.milliseconds ≤ INT64_MAX → v = b.milliseconds) := by
  constructor
  · exact fun hdue => hdue.some b h
  · intro hv
    constructor
    · intro hnone
      obtain ⟨before, line, after, i, rfl, _, hat, _⟩ := h
      exact absurd hat (hnone line (by simp) b i)
    · intro b' hb'
      rw [← h.unique hb']
      exact hv

/-- A fraction taken for milliseconds is right where it has three digits or is zero. -/
theorem fraction_eq_iff (n digits : Nat) :
    n = n * 1000 / 10 ^ digits ↔ digits = 3 ∨ n = 0 := by
  have hpos : 0 < 10 ^ digits := Nat.pow_pos (by decide)
  constructor
  · intro h
    by_contra hne
    have hn : 0 < n := by omega
    rcases Nat.lt_or_gt_of_ne (fun h3 => hne (Or.inl h3)) with hlt | hgt
    · have hle : 10 ^ digits ≤ 10 ^ 2 := Nat.pow_le_pow_right (by decide) (by omega)
      have hdiv : n * 1000 / 10 ^ 2 ≤ n * 1000 / 10 ^ digits := Nat.div_le_div_left hle hpos
      omega
    · have hle : 10 ^ 4 ≤ 10 ^ digits := Nat.pow_le_pow_right (by decide) hgt
      have hdiv : n * 1000 / 10 ^ digits ≤ n * 1000 / 10 ^ 4 := Nat.div_le_div_left hle (by decide)
      omega
  · intro h
    rcases h with rfl | rfl
    · exact (Nat.mul_div_cancel n (by decide)).symm
    · rw [Nat.zero_mul, Nat.zero_div]

theorem matchSum_eq_matchTime_iff (m : RegexMatch Char) :
    matchSum m = matchTime m ↔ (matchStr m 4).length = 3 ∨ number (matchStr m 4) = 0 := by
  rw [← fraction_eq_iff, matchSum, matchTime]
  omega

/-- A match with dot and fraction is a begin attribute. -/
theorem begin_of_dotted {place : List Char} {m : RegexMatch Char} {h mi w f : List Char}
    (hm : m.captures = [h, mi, w, f]) (hh : h ≠ []) (hmi : mi.length = 1 ∨ mi.length = 2)
    (hw : w.length = 1 ∨ w.length = 2) (hdigits : ∀ c ∈ h ++ mi ++ w ++ f, c.isDigit = true)
    (hf : f ≠ []) (hdot : dottedText m <+: place) :
    ∃ b : Begin, b.text <+: place ∧ b.milliseconds = matchTime m := by
  have hstr : matchStr m 1 = h ∧ matchStr m 2 = mi ∧ matchStr m 3 = w ∧ matchStr m 4 = f := by
    simp [matchStr, hm]
  obtain ⟨h₁, h₂, h₃, h₄⟩ := hstr
  rw [dottedText, h₁, h₂, h₃, h₄] at hdot
  let b : Begin :=
    { hours := h, minutes := mi, seconds := w, fraction := some f, hours_ne := hh
      minutes_length := hmi, seconds_length := hw
      fraction_ne := fun heq => hf (Option.some.inj heq), digits := hdigits }
  refine ⟨b, hdot, ?_⟩
  rw [Begin.milliseconds, matchTime, h₁, h₂, h₃, h₄]
  rfl

theorem due_of_noBegin {lines : List (List Char)} (h : NoBegin lines) : Due lines INT64_MAX := by
  constructor
  · exact fun _ => rfl
  · intro b hb
    obtain ⟨before, line, after, i, rfl, _, hat, _⟩ := hb
    exact absurd hat (h line (by simp) b i)

theorem noBegin_of_firstMatch_eq_none {lines : List (List Char)} (h : firstMatch lines = none) :
    NoBegin lines := by
  intro line hline b i hat
  have hsearch := List.findSome?_eq_none_iff.mp h line hline
  exact Begin.run_ne_nil hat ((search_eq_none_iff beginRegex line).mp hsearch i)

/-- An attribute at the first match is the first attribute. -/
theorem firstBegin_of_firstMatch {lines : List (List Char)} {place : List Char}
    {m : RegexMatch Char} (h : firstMatch lines = some (place, m)) {b : Begin}
    (hb : b.text <+: place) : FirstBegin lines b := by
  obtain ⟨before, line, after, i, hlines, hbefore, rfl, _, hfirst⟩ := firstMatch_eq_some h
  exact ⟨before, line, after, i, hlines,
    fun l hl b' j hat => Begin.run_ne_nil hat (hbefore l hl j), hb,
    fun j hj b' hat => Begin.run_ne_nil hat (hfirst j hj)⟩

end PlayerInterface.Subtec
