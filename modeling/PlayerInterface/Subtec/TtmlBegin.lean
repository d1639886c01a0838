import Mathlib.Algebra.Group.Int.Defs
import Mathlib.Algebra.Group.Nat.Defs
import PlayerInterface.Core.Regex

/-!
# The first begin time of a TTML text

`parseFirstBegin` searches each line for a begin attribute with one regular expression and
converts its four groups, the last of which may be empty.
-/

namespace PlayerInterface.Subtec

open PlayerInterface.Core Regex

/-! ## The regular expression -/

def isQuote (c : Char) : Bool := c = '"'

def isColon (c : Char) : Bool := c = ':'

def isDot (c : Char) : Bool := c = '.'

/-- `([0-9]+)?"`. -/
def fractionRegex : Regex Char := .seq (.opt (.group (.many1 Char.isDigit))) (.cls isQuote)

/-- `\.?([0-9]+)?"`. -/
def tailRegex : Regex Char := .seq (.opt (.cls isDot)) fractionRegex

/-- `([0-9][0-9]?)\.?([0-9]+)?"`. -/
def secondsRegex : Regex Char := .seq (oneOrTwo Char.isDigit) tailRegex

/-- `([0-9][0-9]?):([0-9][0-9]?)\.?([0-9]+)?"`. -/
def minutesRegex : Regex Char := .seq (oneOrTwo Char.isDigit) (.seq (.cls isColon) secondsRegex)

/-- `([0-9]+):([0-9][0-9]?):([0-9][0-9]?)\.?([0-9]+)?"`. -/
def hoursRegex : Regex Char :=
  .seq (.group (.many1 Char.isDigit)) (.seq (.cls isColon) minutesRegex)

def beginWord : List Char := "begin=\"".toList

/-- `begin="([0-9]+):([0-9][0-9]?):([0-9][0-9]?)\.?([0-9]+)?"`. -/
def beginRegex : Regex Char := word beginWord hoursRegex

/-! ## Numbers -/

/-- How a conversion fails; overflow of an `int64_t` is undefined. -/
inductive Failure where
  | invalid_argument
  | out_of_range
  | overflow
deriving DecidableEq, Repr

def INT64_MAX : Nat := 2 ^ 63 - 1

def number (digits : List Char) : Nat := digits.foldl (fun n c => 10 * n + (c.toNat - 48)) 0

def isspace (c : Char) : Bool :=
  [' ', '\t', '\n', '\x0b', '\x0c', '\x0d'].contains c

/-- `std::stol` for a `long` of 64 bits. -/
def stol (str : List Char) : Except Failure Int :=
  let str := str.dropWhile isspace
  let negative := str.head? = some '-'
  let digits := (if negative ∨ str.head? = some '+' then str.drop 1 else str).takeWhile Char.isDigit
  let value : Int := if negative then -number digits else number digits
  if digits = [] then .error .invalid_argument
  else if value < -2 ^ 63 ∨ 2 ^ 63 ≤ value then .error .out_of_range
  else .ok value

def inInt64 (n : Int) : Except Failure Int :=
  if -2 ^ 63 ≤ n ∧ n < 2 ^ 63 then .ok n else .error .overflow

/-- `milliseconds + (1000 * (seconds + (60 * (minutes + (60 * hours)))))`. -/
def inMilliseconds (hours minutes seconds milliseconds : Int) : Except Failure Int := do
  let time ← inInt64 (60 * hours)
  let time ← inInt64 (minutes + time)
  let time ← inInt64 (60 * time)
  let time ← inInt64 (seconds + time)
  let time ← inInt64 (1000 * time)
  inInt64 (milliseconds + time)

/-! ## The search -/

/-- The lines `std::getline` extracts, with what it has extracted of the current one. -/
def getLinesFrom (line : List Char) : List Char → List (List Char)
  | [] => if line = [] then [] else [line]
  | c :: ss => if c = '\n' then line :: getLinesFrom [] ss else getLinesFrom (line ++ [c]) ss

def getLines (ss : List Char) : List (List Char) := getLinesFrom [] ss

/-- `match.str(group)`. -/
def matchStr (m : RegexMatch Char) (group : Nat) : List Char := m.captures.getD (group - 1) []

/-- The conversions, none of which depends on whether its group is empty. -/
def convertMatch (m : RegexMatch Char) : Except Failure Int := do
  let hours ← stol (matchStr m 1)
  let minutes ← stol (matchStr m 2)
  let seconds ← stol (matchStr m 3)
  let milliseconds ← stol (matchStr m 4)
  inMilliseconds hours minutes seconds milliseconds

def parseLines : List (List Char) → Except Failure Int
  | [] => .ok INT64_MAX
  | line :: lines =>
      match search beginRegex line with
      | some (_, m) => convertMatch m
      | none => parseLines lines

def parseFirstBegin (ss : List Char) : Except Failure Int := parseLines (getLines ss)

/-! ## What the regular expression matches -/

theorem digit_ne_quote {c : Char} (h : c.isDigit = true) : isQuote c = false := by
  rw [isQuote, decide_eq_false_iff_not]
  intro hc
  subst hc
  exact absurd h (by decide)

theorem digit_ne_dot {c : Char} (h : c.isDigit = true) : isDot c = false := by
  rw [isDot, decide_eq_false_iff_not]
  intro hc
  subst hc
  exact absurd h (by decide)

theorem digit_ne_colon {c : Char} (h : c.isDigit = true) : isColon c = false := by
  rw [isColon, decide_eq_false_iff_not]
  intro hc
  subst hc
  exact absurd h (by decide)

theorem run_cls_digit {q : Char → Bool} (hq : ∀ c, c.isDigit = true → q c = false) {c : Char}
    (hc : c.isDigit = true) (t : Regex Char) (s : List Char) : run (.seq (.cls q) t) (c :: s) = [] := by
  rw [run_seq_cls, if_neg (by rw [hq c hc]; exact Bool.false_ne_true)]

/-- The fraction and what is left behind the closing quote. -/
def closingQuote (s : List Char) : Option (List Char × List Char) :=
  match s.dropWhile Char.isDigit with
  | c :: rest => if isQuote c then some (s.takeWhile Char.isDigit, rest) else none
  | [] => none

theorem fractionRegex_run (s : List Char) :
    run fractionRegex s =
      (closingQuote s).toList.map fun m => (⟨m.2, [m.1]⟩ : RegexMatch Char) := by
  have hquote : ∀ c s, c.isDigit = true → run (.cls isQuote) (c :: s) = [] := by
    intro c s hc
    rw [run, if_neg (by rw [digit_ne_quote hc]; exact Bool.false_ne_true)]
  have hrest : run fractionRegex s = (run (.cls isQuote) (s.dropWhile Char.isDigit)).map
      (capture (s.takeWhile Char.isDigit)) := by
    rw [fractionRegex, run_seq_opt, run_seq_group_many1 hquote]
    by_cases hnone : s.takeWhile Char.isDigit = []
    · rw [if_pos hnone, List.nil_append, hnone, dropWhile_of_takeWhile_nil hnone]
      rfl
    · rw [if_neg hnone]
      cases s with
      | nil => exact absurd rfl hnone
      | cons c s =>
          have hc : c.isDigit = true := by
            by_contra hc
            exact hnone (List.takeWhile_cons_of_neg hc)
          rw [hquote c s hc, List.map_nil, List.append_nil]
  rw [hrest, closingQuote]
  cases s.dropWhile Char.isDigit with
  | nil => rfl
  | cons c rest =>
      rw [run]
      dsimp only
      split <;> rfl

/-- An optional dot in front of the fraction. -/
def closing : List Char → Option (List Char × List Char)
  | [] => none
  | c :: s => if isDot c then closingQuote s else closingQuote (c :: s)

theorem tailRegex_run (s : List Char) :
    run tailRegex s = (closing s).toList.map fun m => (⟨m.2, [m.1]⟩ : RegexMatch Char) := by
  have hid : ∀ ms : List (RegexMatch Char),
      ms.map (fun m => (⟨m.rest, List.replicate (groups (.cls isDot)) [] ++ m.captures⟩ :
        RegexMatch Char)) = ms :=
    fun ms => List.map_id ms
  rw [tailRegex, run_seq_opt, hid]
  cases s with
  | nil => rfl
  | cons c s =>
      rw [run_seq_cls, closing]
      by_cases hdot : isDot c = true
      · have hdigit : ¬ c.isDigit = true := by
          intro hc
          rw [digit_ne_dot hc] at hdot
          cases hdot
        have hquote : isQuote c = false := by
          rw [isDot, decide_eq_true_eq] at hdot
          subst hdot
          decide
        have hfail : closingQuote (c :: s) = none := by
          rw [closingQuote, List.dropWhile_cons_of_neg hdigit]
          dsimp only
          rw [hquote, if_neg Bool.false_ne_true]
        rw [if_pos hdot, if_pos hdot, fractionRegex_run, fractionRegex_run, hfail]
        exact List.append_nil _
      · rw [if_neg hdot, if_neg hdot, fractionRegex_run]
        exact List.nil_append _

theorem closingQuote_eq_some {s f rest : List Char} (h : closingQuote s = some (f, rest)) :
    s = f ++ '"' :: rest ∧ ∀ c ∈ f, c.isDigit = true := by
  have hsplit := List.takeWhile_append_dropWhile (p := Char.isDigit) (l := s)
  rw [closingQuote] at h
  split at h
  case h_1 c rest' hdrop =>
    split at h
    case isTrue hquote =>
      obtain ⟨rfl, rfl⟩ := Prod.mk.inj (Option.some.inj h)
      rw [isQuote, decide_eq_true_eq] at hquote
      rw [hdrop, hquote] at hsplit
      exact ⟨hsplit.symm, fun c hc => List.mem_takeWhile_imp hc⟩
    case isFalse => cases h
  case h_2 => cases h

theorem closingQuote_append {f : List Char} (hf : ∀ c ∈ f, c.isDigit = true) (rest : List Char) :
    closingQuote (f ++ '"' :: rest) = some (f, rest) := by
  have hquote : ¬ Char.isDigit '"' = true := by decide
  rw [closingQuote, List.dropWhile_append_of_pos hf, List.takeWhile_append_of_pos hf,
    List.dropWhile_cons_of_neg hquote, List.takeWhile_cons_of_neg hquote, List.append_nil]
  rfl

/-- Behind the seconds stands an optional dot, the fraction and the closing quote. -/
theorem closing_eq_some {s f rest : List Char} (h : closing s = some (f, rest)) :
    (s = f ++ '"' :: rest ∨ s = '.' :: (f ++ '"' :: rest)) ∧ ∀ c ∈ f, c.isDigit = true := by
  cases s with
  | nil => cases h
  | cons c s =>
      rw [closing] at h
      split at h
      case isTrue hdot =>
        obtain ⟨rfl, hf⟩ := closingQuote_eq_some h
        rw [isDot, decide_eq_true_eq] at hdot
        exact ⟨Or.inr (by rw [hdot]), hf⟩
      case isFalse =>
        obtain ⟨heq, hf⟩ := closingQuote_eq_some h
        exact ⟨Or.inl heq, hf⟩

theorem secondsRegex_run {w s : List Char} (hw : ∀ c ∈ w, c.isDigit = true)
    (hlen : w.length = 1 ∨ w.length = 2) (hs : s.takeWhile Char.isDigit = [])
    {f rest : List Char} (hclose : closing s = some (f, rest)) :
    (run secondsRegex (w ++ s)).head? = some ⟨rest, [w, f]⟩ := by
  have htail : run tailRegex s = [⟨rest, [f]⟩] := by rw [tailRegex_run, hclose]; rfl
  rw [secondsRegex]
  rcases w with _ | ⟨c, _ | ⟨d, _ | ⟨e, w⟩⟩⟩
  · simp at hlen
  · rw [List.cons_append, List.nil_append, run_oneOrTwo_one (hw c (by simp)) hs, htail]
    rfl
  · rw [List.cons_append, List.cons_append, List.nil_append,
      run_oneOrTwo_two (hw c (by simp)) (hw d (by simp)), htail]
    rfl
  · simp at hlen

/-- The first match in front of a begin attribute takes its parts. -/
theorem beginRegex_run {h m w s f rest : List Char} (hne : h ≠ [])
    (hdigits : ∀ c ∈ h ++ m ++ w, c.isDigit = true) (hm : m.length = 1 ∨ m.length = 2)
    (hw : w.length = 1 ∨ w.length = 2) (hs : s.takeWhile Char.isDigit = [])
    (hclose : closing s = some (f, rest)) :
    (run beginRegex (beginWord ++ (h ++ ':' :: (m ++ ':' :: (w ++ s))))).head? =
      some ⟨rest, [h, m, w, f]⟩ := by
  have hh : ∀ c ∈ h, c.isDigit = true := fun c hc => hdigits c (by simp [hc])
  have hmd : ∀ c ∈ m, c.isDigit = true := fun c hc => hdigits c (by simp [hc])
  have hwd : ∀ c ∈ w, c.isDigit = true := fun c hc => hdigits c (by simp [hc])
  have hcolon : ¬ Char.isDigit ':' = true := by decide
  have hstart : ∀ t : Regex Char, ∀ c s, c.isDigit = true → run (.seq (.cls isColon) t) (c :: s) = [] :=
    fun t c s hc => run_cls_digit (fun c hc => digit_ne_colon hc) hc t s
  have hskip : ∀ t : Regex Char, ∀ s, run (.seq (.cls isColon) t) (':' :: s) = run t s :=
    fun t s => by rw [run_seq_cls, if_pos (by decide)]
  rw [beginRegex, run_word, if_pos (List.prefix_append _ _), List.drop_left, hoursRegex,
    run_seq_group_many1 (hstart _), List.takeWhile_append_of_pos hh,
    List.dropWhile_append_of_pos hh, List.takeWhile_cons_of_neg hcolon,
    List.dropWhile_cons_of_neg hcolon, List.append_nil, if_neg hne, hskip, minutesRegex,
    run_seq_oneOrTwo (hstart _) hmd hm (List.takeWhile_cons_of_neg hcolon), hskip,
    List.map_map, List.head?_map, secondsRegex_run hwd hw hs hclose]
  rfl

/-- What a match says of the text. -/
theorem mem_beginRegex {s : List Char} {match_ : RegexMatch Char}
    (hmatch : match_ ∈ run beginRegex s) :
    ∃ h m w s' f, s = beginWord ++ (h ++ ':' :: (m ++ ':' :: (w ++ s'))) ∧ h ≠ [] ∧
      (m.length = 1 ∨ m.length = 2) ∧ (w.length = 1 ∨ w.length = 2) ∧
      (∀ c ∈ h ++ m ++ w ++ f, c.isDigit = true) ∧ closing s' = some (f, match_.rest) ∧
      match_.captures = [h, m, w, f] := by
  have hcolon : ∀ {c : Char}, isColon c = true → c = ':' := fun hc => of_decide_eq_true hc
  obtain ⟨s₁, rfl, h₁⟩ := mem_run_word hmatch
  obtain ⟨h, s₂, m₂, rfl, hne, hh, h₂, rfl⟩ := mem_run_seq_group_many1 h₁
  obtain ⟨c₂, s₃, rfl, hc₂, h₃⟩ := mem_run_seq_cls h₂
  obtain rfl := hcolon hc₂
  obtain ⟨m, s₄, m₄, rfl, hm, hmd, h₄, rfl⟩ := mem_run_seq_oneOrTwo h₃
  obtain ⟨c₄, s₅, rfl, hc₄, h₅⟩ := mem_run_seq_cls h₄
  obtain rfl := hcolon hc₄
  obtain ⟨w, s', m₆, rfl, hw, hwd, h₆, rfl⟩ := mem_run_seq_oneOrTwo h₅
  rw [tailRegex_run] at h₆
  obtain ⟨⟨f, rest⟩, hclose, rfl⟩ := List.mem_map.mp h₆
  rw [Option.mem_toList] at hclose
  obtain ⟨_, hf⟩ := closing_eq_some hclose
  refine ⟨h, m, w, s', f, rfl, hne, hm, hw, ?_, hclose, rfl⟩
  intro c hc
  simp only [List.mem_append] at hc
  rcases hc with ((hc | hc) | hc) | hc
  · exact hh c hc
  · exact hmd c hc
  · exact hwd c hc
  · exact hf c hc

end PlayerInterface.Subtec
