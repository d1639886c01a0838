import Mathlib.Data.List.TakeWhile
import Mathlib.Tactic.Common

/-!
# Regular expressions with greedy quantifiers

A pattern gives its matches at a place in the order a backtracking matcher tries them, so
that the first one is the match reported. A search reports the first place that has one.
-/

namespace PlayerInterface.Core

variable {α : Type}

/-- Quantifiers other than `?` stand on letter classes only. -/
inductive Regex (α : Type) where
  | cls (p : α → Bool)
  | many1 (p : α → Bool)
  | opt (r : Regex α)
  | seq (r t : Regex α)
  | group (r : Regex α)

structure RegexMatch (α : Type) where
  rest : List α
  captures : List (List α)

namespace Regex

/-- The number of groups; a group that is skipped captures nothing. -/
def groups : Regex α → Nat
  | cls _ => 0
  | many1 _ => 0
  | opt r => r.groups
  | seq r t => r.groups + t.groups
  | group r => r.groups + 1

/-- What is left behind one or more letters, the most letters first. -/
def greedyRests (p : α → Bool) : List α → List (List α)
  | [] => []
  | c :: s => if p c then greedyRests p s ++ [s] else []

def run : Regex α → List α → List (RegexMatch α)
  | cls _, [] => []
  | cls p, c :: s => if p c then [⟨s, []⟩] else []
  | many1 p, s => (greedyRests p s).map (⟨·, []⟩)
  | opt r, s => run r s ++ [⟨s, List.replicate r.groups []⟩]
  | seq r t, s => (run r s).flatMap fun m =>
      (run t m.rest).map fun m' => ⟨m'.rest, m.captures ++ m'.captures⟩
  | group r, s => (run r s).map fun m => ⟨m.rest, s.take (s.length - m.rest.length) :: m.captures⟩

/-- The text from the first place with a match on, and the match. -/
def search (r : Regex α) : List α → Option (List α × RegexMatch α)
  | [] => (run r []).head?.map ([], ·)
  | c :: s =>
      match (run r (c :: s)).head? with
      | some m => some (c :: s, m)
      | none => search r s

/-- A word letter by letter, in front of a pattern. -/
def word [DecidableEq α] (w : List α) (t : Regex α) : Regex α :=
  w.foldr (fun c t => seq (cls (· = c)) t) t

/-! ## Searching -/

theorem search_eq_none_iff (r : Regex α) (s : List α) :
    search r s = none ↔ ∀ i, run r (s.drop i) = [] := by
  induction s with
  | nil => simp [search]
  | cons c s ih =>
      rw [search]
      cases hhead : (run r (c :: s)).head? with
      | some m =>
          have hne : run r (c :: s) ≠ [] := by
            intro hnil
            rw [hnil] at hhead
            cases hhead
          simp only [reduceCtorEq, false_iff]
          intro h
          exact hne (h 0)
      | none =>
          have hnil : run r (c :: s) = [] := List.head?_eq_none_iff.mp hhead
          simp only [ih]
          constructor
          · intro h i
            cases i with
            | zero => exact hnil
            | succ i => exact h i
          · intro h i
            exact h (i + 1)

theorem search_eq_some {r : Regex α} {s at_ : List α} {m : RegexMatch α}
    (h : search r s = some (at_, m)) :
    ∃ i, i ≤ s.length ∧ at_ = s.drop i ∧ (run r at_).head? = some m ∧
      ∀ j < i, run r (s.drop j) = [] := by
  induction s with
  | nil =>
      obtain ⟨m', hm', heq⟩ := Option.map_eq_some_iff.mp h
      obtain ⟨rfl, rfl⟩ := Prod.mk.inj heq
      exact ⟨0, Nat.le_refl 0, rfl, hm', fun j hj => absurd hj (Nat.not_lt_zero j)⟩
  | cons c s ih =>
      rw [search] at h
      split at h
      case h_1 m' hm' =>
        obtain ⟨rfl, rfl⟩ := Prod.mk.inj (Option.some.inj h)
        exact ⟨0, Nat.zero_le _, rfl, hm', fun j hj => absurd hj (Nat.not_lt_zero j)⟩
      case h_2 hnone =>
        obtain ⟨i, hle, hat, hm, hbefore⟩ := ih h
        refine ⟨i + 1, Nat.succ_le_succ hle, hat, hm, ?_⟩
        intro j hj
        cases j with
        | zero => exact List.head?_eq_none_iff.mp hnone
        | succ j => exact hbefore j (Nat.lt_of_succ_lt_succ hj)

/-! ## Matching in front of a pattern -/

/-- A match with the text of a group in front of its captures. -/
def capture (w : List α) (m : RegexMatch α) : RegexMatch α :=
  ⟨m.rest, w :: m.captures⟩

theorem run_seq_cls (p : α → Bool) (t : Regex α) (c : α) (s : List α) :
    run (seq (cls p) t) (c :: s) = if p c then run t s else [] := by
  rw [run, run]
  split <;> simp

theorem run_seq_opt (r t : Regex α) (s : List α) :
    run (seq (opt r) t) s = run (seq r t) s ++
      (run t s).map fun m => ⟨m.rest, List.replicate r.groups [] ++ m.captures⟩ := by
  rw [run, run, List.flatMap_append, List.flatMap_singleton, ← run]

theorem run_word [DecidableEq α] (w : List α) (t : Regex α) (s : List α) :
    run (word w t) s = if w <+: s then run t (s.drop w.length) else [] := by
  induction w generalizing s with
  | nil => simp [word]
  | cons c w ih =>
      have hword : word (c :: w) t = seq (cls (· = c)) (word w t) := rfl
      cases s with
      | nil => rw [if_neg (by simp)]; rfl
      | cons d s =>
          rw [hword, run_seq_cls, ih, List.length_cons, List.drop_succ_cons]
          by_cases hd : d = c
          · subst hd
            simp
          · have hc : ¬ c = d := fun h => hd h.symm
            simp [List.cons_prefix_cons, hd, hc]

theorem dropWhile_of_takeWhile_nil {p : α → Bool} {s : List α} (h : s.takeWhile p = []) :
    s.dropWhile p = s := by
  have hsplit := List.takeWhile_append_dropWhile (p := p) (l := s)
  rwa [h] at hsplit

/-- Only the longest run of letters leaves a text that does not start with one of them. -/
theorem greedyRests_flatMap {β : Type} {p : α → Bool} {f : List α → List β}
    (hf : ∀ c s, p c = true → f (c :: s) = []) (s : List α) :
    (greedyRests p s).flatMap f =
      if s.takeWhile p = [] then [] else f (s.dropWhile p) := by
  induction s with
  | nil => rfl
  | cons c s ih =>
      rw [greedyRests]
      by_cases hc : p c = true
      · rw [if_pos hc, List.flatMap_append, ih, List.flatMap_singleton, List.takeWhile_cons_of_pos hc,
          List.dropWhile_cons_of_pos hc, if_neg (List.cons_ne_nil c _)]
        split
        case isTrue hnil =>
          rw [dropWhile_of_takeWhile_nil hnil, List.nil_append]
        case isFalse hne =>
          cases s with
          | nil => exact absurd rfl hne
          | cons d s =>
              have hd : p d = true := by
                by_contra hd
                exact hne (List.takeWhile_cons_of_neg hd)
              rw [hf d s hd, List.append_nil]
      · rw [if_neg hc, List.takeWhile_cons_of_neg hc, if_pos rfl]
        rfl

theorem take_takeWhile (p : α → Bool) (s : List α) :
    s.take (s.length - (s.dropWhile p).length) = s.takeWhile p := by
  have hsplit := List.takeWhile_append_dropWhile (p := p) (l := s)
  have hlen := congrArg List.length hsplit
  rw [List.length_append] at hlen
  have hcount : s.length - (s.dropWhile p).length = (s.takeWhile p).length := by omega
  calc s.take (s.length - (s.dropWhile p).length)
      = (s.takeWhile p ++ s.dropWhile p).take (s.takeWhile p).length := by rw [hcount, hsplit]
    _ = s.takeWhile p := List.take_left

/-- In front of a pattern that cannot start with a letter of the class. -/
theorem run_seq_group_many1 {p : α → Bool} {t : Regex α}
    (ht : ∀ c s, p c = true → run t (c :: s) = []) (s : List α) :
    run (seq (group (many1 p)) t) s =
      if s.takeWhile p = [] then []
      else (run t (s.dropWhile p)).map (capture (s.takeWhile p)) := by
  have hrun : run (seq (group (many1 p)) t) s = (greedyRests p s).flatMap fun rest =>
      (run t rest).map (capture (s.take (s.length - rest.length))) := by
    rw [run, run, run, List.map_map, List.flatMap_map]
    rfl
  rw [hrun, greedyRests_flatMap, take_takeWhile]
  intro c s' hc
  rw [ht c s' hc, List.map_nil]

/-- One or two letters, two if there are two. -/
def oneOrTwo (p : α → Bool) : Regex α := group (seq (cls p) (opt (cls p)))

theorem run_oneOrTwo_two {p : α → Bool} {t : Regex α} {c d : α} (hc : p c = true)
    (hd : p d = true) (s : List α) :
    run (seq (oneOrTwo p) t) (c :: d :: s) =
      (run t s).map (capture [c, d]) ++
        (run t (d :: s)).map (capture [c]) := by
  have hlen : (c :: d :: s).length - s.length = 2 := by
    rw [List.length_cons, List.length_cons]
    omega
  have hlen' : (c :: d :: s).length - (d :: s).length = 1 := by
    rw [List.length_cons]
    omega
  simp only [oneOrTwo, run, hc, hd, if_true, List.flatMap_cons, List.flatMap_nil, List.append_nil,
    List.map_cons, List.map_nil, List.map_append, List.cons_append, List.nil_append, hlen, hlen']
  rfl

theorem run_oneOrTwo_one {p : α → Bool} {t : Regex α} {c : α} (hc : p c = true) {s : List α}
    (hs : s.takeWhile p = []) :
    run (seq (oneOrTwo p) t) (c :: s) = (run t s).map (capture [c]) := by
  have hlen : (c :: s).length - s.length = 1 := by
    rw [List.length_cons]
    omega
  have hnone : run (cls p) s = [] := by
    cases s with
    | nil => rfl
    | cons d s =>
        rw [run, if_neg]
        intro hd
        rw [List.takeWhile_cons_of_pos hd] at hs
        cases hs
  simp only [oneOrTwo, run, hc, if_true, hnone, List.flatMap_cons, List.flatMap_nil,
    List.append_nil, List.map_cons, List.map_nil, List.nil_append, hlen]
  rfl

/-- In front of a pattern that cannot start with a letter of the class. -/
theorem run_seq_oneOrTwo {p : α → Bool} {t : Regex α}
    (ht : ∀ c s, p c = true → run t (c :: s) = []) {w s : List α} (hw : ∀ c ∈ w, p c = true)
    (hlen : w.length = 1 ∨ w.length = 2) (hs : s.takeWhile p = []) :
    run (seq (oneOrTwo p) t) (w ++ s) = (run t s).map (capture w) := by
  rcases w with _ | ⟨c, _ | ⟨d, _ | ⟨e, w⟩⟩⟩
  · simp at hlen
  · exact run_oneOrTwo_one (hw c (by simp)) hs
  · rw [List.cons_append, List.cons_append, List.nil_append,
      run_oneOrTwo_two (hw c (by simp)) (hw d (by simp)), ht d s (hw d (by simp)), List.map_nil,
      List.append_nil]
  · simp at hlen

theorem run_oneOrTwo_none {p : α → Bool} {t : Regex α} {s : List α} (hs : s.takeWhile p = []) :
    run (seq (oneOrTwo p) t) s = [] := by
  cases s with
  | nil => rfl
  | cons c s =>
      have hc : ¬ p c = true := by
        intro hc
        rw [List.takeWhile_cons_of_pos hc] at hs
        cases hs
      simp only [oneOrTwo, run, if_neg hc, List.flatMap_nil, List.map_nil]

/-! ## What a match says of the text -/

variable {p : α → Bool} {t : Regex α} {s : List α} {m : RegexMatch α}

theorem mem_run_seq_cls (h : m ∈ run (seq (cls p) t) s) :
    ∃ c s', s = c :: s' ∧ p c = true ∧ m ∈ run t s' := by
  cases s with
  | nil => cases h
  | cons c s =>
      rw [run_seq_cls] at h
      split at h
      case isTrue hc => exact ⟨c, s, rfl, hc, h⟩
      case isFalse => cases h

theorem mem_run_word [DecidableEq α] {w : List α} (h : m ∈ run (word w t) s) :
    ∃ s', s = w ++ s' ∧ m ∈ run t s' := by
  rw [run_word] at h
  split at h
  case isTrue hw =>
    obtain ⟨s', rfl⟩ := hw
    rw [List.drop_left] at h
    exact ⟨s', rfl, h⟩
  case isFalse => cases h

theorem mem_greedyRests {rest : List α} (h : rest ∈ greedyRests p s) :
    ∃ w, s = w ++ rest ∧ w ≠ [] ∧ ∀ c ∈ w, p c = true := by
  induction s with
  | nil => cases h
  | cons c s ih =>
      rw [greedyRests] at h
      split at h
      case isTrue hc =>
        rcases List.mem_append.mp h with hmem | hlast
        · obtain ⟨w, rfl, _, hw⟩ := ih hmem
          exact ⟨c :: w, rfl, List.cons_ne_nil c w, List.forall_mem_cons.mpr ⟨hc, hw⟩⟩
        · obtain rfl := List.mem_singleton.mp hlast
          exact ⟨[c], rfl, List.cons_ne_nil c [], List.forall_mem_cons.mpr ⟨hc, by simp⟩⟩
      case isFalse => cases h

theorem mem_run_seq_group_many1 (h : m ∈ run (seq (group (many1 p)) t) s) :
    ∃ w s' m', s = w ++ s' ∧ w ≠ [] ∧ (∀ c ∈ w, p c = true) ∧ m' ∈ run t s' ∧
      m = capture w m' := by
  rw [run, run, run, List.map_map, List.flatMap_map] at h
  obtain ⟨rest, hrest, hm⟩ := List.mem_flatMap.mp h
  obtain ⟨m', hm', rfl⟩ := List.mem_map.mp hm
  obtain ⟨w, rfl, hne, hw⟩ := mem_greedyRests hrest
  have htake : (w ++ rest).take ((w ++ rest).length - rest.length) = w := by
    rw [List.length_append, Nat.add_sub_cancel]
    exact List.take_left
  refine ⟨w, rest, m', rfl, hne, hw, hm', ?_⟩
  simp only [Function.comp_apply, htake]
  rfl

theorem mem_run_seq_oneOrTwo (h : m ∈ run (seq (oneOrTwo p) t) s) :
    ∃ w s' m', s = w ++ s' ∧ (w.length = 1 ∨ w.length = 2) ∧ (∀ c ∈ w, p c = true) ∧
      m' ∈ run t s' ∧ m = capture w m' := by
  by_cases hnone : s.takeWhile p = []
  · rw [run_oneOrTwo_none hnone] at h
    cases h
  cases s with
  | nil => exact absurd rfl hnone
  | cons c s =>
      have hc : p c = true := by
        by_contra hc
        exact hnone (List.takeWhile_cons_of_neg hc)
      have hone : ∀ m, m ∈ (run t s).map (capture [c]) →
          ∃ w s' m', c :: s = w ++ s' ∧ (w.length = 1 ∨ w.length = 2) ∧
            (∀ c ∈ w, p c = true) ∧ m' ∈ run t s' ∧ m = capture w m' := by
        intro m hm
        obtain ⟨m', hm', rfl⟩ := List.mem_map.mp hm
        exact ⟨[c], s, m', rfl, Or.inl rfl, by simpa using hc, hm', rfl⟩
      by_cases hshort : s.takeWhile p = []
      · rw [run_oneOrTwo_one hc hshort] at h
        exact hone m h
      · cases s with
        | nil => exact absurd rfl hshort
        | cons d s =>
            have hd : p d = true := by
              by_contra hd
              exact hshort (List.takeWhile_cons_of_neg hd)
            rw [run_oneOrTwo_two hc hd] at h
            rcases List.mem_append.mp h with htwo | hm
            · obtain ⟨m', hm', rfl⟩ := List.mem_map.mp htwo
              exact ⟨[c, d], s, m', rfl, Or.inr rfl, by simp [hc, hd], hm', rfl⟩
            · exact hone m hm

end Regex

end PlayerInterface.Core
