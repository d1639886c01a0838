import PlayerInterface.Core.Search

/-!
# The places a pattern occurs at

A search from a position on returns the next of these places, and a text cut at all of
them is a list of pieces that each start with the pattern, where no two occurrences
overlap.
-/

namespace PlayerInterface.Core

variable {α : Type}

/-- `count` letters from `start` on, all of them without a count. -/
def substr (s : List α) (start : Nat) (count : Option Nat) : List α :=
  match count with
  | none => s.drop start
  | some count => (s.drop start).take count

/-- The pieces from each place to the next one, the last piece to the end. -/
def cutAt (s : List α) : List Nat → List (List α)
  | [] => []
  | p :: rest => substr s p (rest.head?.map (· - p)) :: cutAt s rest

theorem cutAt_flatten (s : List α) {p : Nat} {rest : List Nat}
    (hasc : (p :: rest).Pairwise (· < ·)) : (cutAt s (p :: rest)).flatten = s.drop p := by
  induction rest generalizing p with
  | nil => simp [cutAt, substr]
  | cons q rest ih =>
      have hpq : p < q := List.rel_of_pairwise_cons hasc List.mem_cons_self
      have hdrop : s.drop q = (s.drop p).drop (q - p) := by
        rw [List.drop_drop]
        congr 1
        omega
      rw [cutAt, List.flatten_cons, ih (List.Pairwise.of_cons hasc), hdrop]
      exact List.take_append_drop (q - p) (s.drop p)

/-- A pattern with its first letter nowhere else in it cannot start inside itself. -/
theorem occurrence_gap {x : α} {pat s : List α} (hx : x ∉ pat) {p q : Nat} (hpq : p < q)
    (hp : x :: pat <+: s.drop p) (hq : x :: pat <+: s.drop q) : p + (pat.length + 1) ≤ q := by
  by_contra hlt
  obtain ⟨tail, htail⟩ := hp
  obtain ⟨tail', htail'⟩ := hq
  have hletter : s[q]? = some x := by
    rw [← Nat.add_zero q, ← List.getElem?_drop, ← htail']
    rfl
  have hinside : s[q]? = pat[q - p - 1]? := by
    have hq : q = p + (q - p - 1 + 1) := by omega
    conv_lhs => rw [hq, ← List.getElem?_drop, ← htail]
    rw [List.cons_append, List.getElem?_cons_succ, List.getElem?_append_left (by omega)]
  rw [hletter] at hinside
  exact hx (List.mem_of_getElem? hinside.symm)

variable [DecidableEq α]

/-- The first occurrence at or after a position. -/
def findFrom (pat s : List α) (pos : Nat) : Option Nat :=
  if pos ≤ s.length then (find pat (s.drop pos)).map (pos + ·) else none

/-- A single letter is found behind the letters before it. -/
theorem find_letter {x : α} {pre : List α} (h : x ∉ pre) (post : List α) :
    find [x] (pre ++ x :: post) = some pre.length := by
  have hstart : FirstAt [x] pre post := firstAt_of_notMem h post
  have hfind := find_of_firstAt hstart
  rwa [List.append_assoc] at hfind

theorem find_letter_eq_none {x : α} {s : List α} (h : x ∉ s) : find [x] s = none := by
  induction s with
  | nil => rw [find, if_neg (List.cons_ne_nil x [])]
  | cons y s ih =>
      have hxy : ¬ [x] <+: y :: s := by
        rw [List.cons_prefix_cons]
        exact fun heq => h (heq.1 ▸ List.mem_cons_self)
      rw [find, if_neg hxy, ih fun hmem => h (List.mem_cons_of_mem y hmem)]
      rfl

/-- The places in a text that itself starts at `k`, in ascending order. -/
def occurrencesAt (pat : List α) : Nat → List α → List Nat
  | _, [] => []
  | k, x :: xs =>
      if pat <+: x :: xs then k :: occurrencesAt pat (k + 1) xs else occurrencesAt pat (k + 1) xs

def occurrences (pat s : List α) : List Nat := occurrencesAt pat 0 s

/-- The places that are left from a position on. -/
def occurrencesFrom (pat s : List α) (pos : Nat) : List Nat := occurrencesAt pat pos (s.drop pos)

theorem occurrencesFrom_zero (pat s : List α) : occurrencesFrom pat s 0 = occurrences pat s := rfl

theorem find_eq_head {pat : List α} (hpat : pat ≠ []) (k : Nat) (s : List α) :
    (find pat s).map (k + ·) = (occurrencesAt pat k s).head? := by
  induction s generalizing k with
  | nil => rw [find, if_neg hpat]; rfl
  | cons x xs ih =>
      rw [find, occurrencesAt]
      by_cases hhead : pat <+: x :: xs
      · simp only [if_pos hhead, Option.map_some, List.head?_cons, Nat.add_zero]
      · simp only [if_neg hhead, Option.map_map, ← ih (k + 1)]
        congr 1
        funext i
        simp only [Function.comp_apply]
        omega

/-- A search returns the next place. -/
theorem findFrom_eq {pat : List α} (hpat : pat ≠ []) (s : List α) (pos : Nat) :
    findFrom pat s pos = (occurrencesFrom pat s pos).head? := by
  rw [findFrom]
  split
  case isTrue => exact find_eq_head hpat pos (s.drop pos)
  case isFalse hpos =>
    rw [occurrencesFrom, List.drop_eq_nil_of_le (Nat.le_of_not_le hpos)]
    rfl

/-- What the next place says: it is one, none is missed before it, and the places left are
those behind it. -/
theorem occurrencesAt_cons {pat s : List α} {k p : Nat} {rest : List Nat}
    (h : occurrencesAt pat k s = p :: rest) :
    k ≤ p ∧ p - k < s.length ∧ pat <+: s.drop (p - k) ∧
      rest = occurrencesAt pat (p + 1) (s.drop (p + 1 - k)) := by
  induction s generalizing k with
  | nil => exact absurd h (List.cons_ne_nil p rest).symm
  | cons x xs ih =>
      rw [occurrencesAt] at h
      split at h
      case isTrue hhead =>
        obtain ⟨rfl, rfl⟩ := List.cons.inj h
        rw [Nat.sub_self, Nat.add_sub_cancel_left]
        exact ⟨Nat.le_refl _, Nat.succ_pos _, hhead, rfl⟩
      case isFalse =>
        obtain ⟨hle, hlt, hocc, hrest⟩ := ih h
        have hsub : p - k = p - (k + 1) + 1 := by omega
        have hsub' : p + 1 - k = p + 1 - (k + 1) + 1 := by omega
        rw [hsub, hsub', List.length_cons]
        exact ⟨by omega, by omega, hocc, hrest⟩

theorem occurrencesFrom_cons {pat s : List α} {pos p : Nat} {rest : List Nat}
    (h : occurrencesFrom pat s pos = p :: rest) :
    pos ≤ p ∧ p < s.length ∧ pat <+: s.drop p ∧ rest = occurrencesFrom pat s (p + 1) := by
  obtain ⟨hle, hlt, hocc, hrest⟩ := occurrencesAt_cons h
  have hpos : pos + (p - pos) = p := by omega
  have hpos' : pos + (p + 1 - pos) = p + 1 := by omega
  rw [List.length_drop] at hlt
  rw [List.drop_drop] at hocc hrest
  rw [hpos] at hocc
  rw [hpos'] at hrest
  exact ⟨hle, by omega, hocc, hrest⟩

/-- A search from a place on finds this place again. -/
theorem occurrencesFrom_place {pat s : List α} {pos p : Nat} {rest : List Nat}
    (h : occurrencesFrom pat s pos = p :: rest) : occurrencesFrom pat s p = p :: rest := by
  obtain ⟨_, hlt, hocc, hrest⟩ := occurrencesFrom_cons h
  rw [hrest, occurrencesFrom, occurrencesFrom]
  rw [List.drop_eq_getElem_cons hlt] at hocc ⊢
  rw [occurrencesAt, if_pos hocc]

theorem mem_occurrencesAt {pat s : List α} {k i : Nat} :
    i ∈ occurrencesAt pat k s ↔ k ≤ i ∧ i - k < s.length ∧ pat <+: s.drop (i - k) := by
  induction s generalizing k with
  | nil => simp [occurrencesAt]
  | cons x xs ih =>
      have hmem : i ∈ occurrencesAt pat k (x :: xs) ↔
          (i = k ∧ pat <+: x :: xs) ∨ i ∈ occurrencesAt pat (k + 1) xs := by
        rw [occurrencesAt]
        split <;> simp [*]
      rw [hmem, ih, List.length_cons]
      constructor
      · rintro (⟨rfl, hhead⟩ | ⟨hle, hlt, hocc⟩)
        · simpa using hhead
        · have hsub : i - k = i - (k + 1) + 1 := by omega
          exact ⟨by omega, by omega, by rw [hsub]; exact hocc⟩
      · intro ⟨hle, hlt, hocc⟩
        by_cases hik : i = k
        · subst hik
          exact Or.inl ⟨rfl, by simpa using hocc⟩
        · have hsub : i - k = i - (k + 1) + 1 := by omega
          rw [hsub] at hocc
          exact Or.inr ⟨by omega, by omega, hocc⟩

theorem mem_occurrences {pat s : List α} {i : Nat} :
    i ∈ occurrences pat s ↔ i < s.length ∧ pat <+: s.drop i := by
  rw [occurrences, mem_occurrencesAt]
  simp

theorem mem_occurrencesFrom {pat s : List α} {pos i : Nat} :
    i ∈ occurrencesFrom pat s pos ↔ pos ≤ i ∧ i < s.length ∧ pat <+: s.drop i := by
  rw [occurrencesFrom, mem_occurrencesAt, List.length_drop, List.drop_drop]
  constructor
  · intro ⟨hle, hlt, hocc⟩
    rw [Nat.add_sub_cancel' hle] at hocc
    exact ⟨hle, by omega, hocc⟩
  · intro ⟨hle, hlt, hocc⟩
    rw [Nat.add_sub_cancel' hle]
    exact ⟨hle, by omega, hocc⟩

theorem occurrencesAt_pairwise (pat : List α) (k : Nat) (s : List α) :
    (occurrencesAt pat k s).Pairwise (· < ·) := by
  induction s generalizing k with
  | nil => exact List.Pairwise.nil
  | cons x xs ih =>
      rw [occurrencesAt]
      split
      case isTrue =>
        refine List.Pairwise.cons ?_ (ih (k + 1))
        intro i hi
        have := (mem_occurrencesAt.mp hi).1
        omega
      case isFalse => exact ih (k + 1)

/-! ## Patterns that do not overlap -/

theorem occurrences_eq_singleton {pat s : List α} (hpat : pat ≠ []) (hhead : pat <+: s)
    (hno : ∀ i, 0 < i → ¬ pat <+: s.drop i) : occurrences pat s = [0] := by
  cases s with
  | nil => exact absurd (List.prefix_nil.mp hhead) hpat
  | cons x xs =>
      have hrest : occurrencesAt pat 1 xs = [] := by
        rw [List.eq_nil_iff_forall_not_mem]
        intro i hi
        obtain ⟨hle, hlt, hocc⟩ := mem_occurrencesAt.mp hi
        have hsub : i = i - 1 + 1 := by omega
        refine hno i hle ?_
        rw [hsub]
        exact hocc
      rw [occurrences, occurrencesAt, if_pos hhead, hrest]

/-- No occurrence lies between a place and the next one. -/
theorem not_occurs_between {pat s : List α} (hpat : pat ≠ []) {p i : Nat} {rest : List Nat}
    (hrest : occurrencesFrom pat s (p + 1) = rest) (hi : p < i) (hnext : ∀ q ∈ rest.head?, i < q) :
    ¬ pat <+: s.drop i := by
  intro hocc
  have hpos : 0 < pat.length := List.length_pos_iff.mpr hpat
  have hlen := hocc.length_le
  rw [List.length_drop] at hlen
  have hmem : i ∈ rest := hrest ▸ mem_occurrencesFrom.mpr ⟨hi, by omega, hocc⟩
  cases rest with
  | nil => cases hmem
  | cons q rest =>
      have hlt : i < q := hnext q rfl
      have hasc : (q :: rest).Pairwise (· < ·) :=
        hrest ▸ occurrencesAt_pairwise pat (p + 1) (s.drop (p + 1))
      rcases List.mem_cons.mp hmem with heq | hmem
      · omega
      · have := List.rel_of_pairwise_cons hasc hmem
        omega

/-- Cut at every place, each piece starts with the pattern and has it once. -/
theorem cutAt_occurrences {x : α} {pat : List α} (hx : x ∉ pat) (s : List α) (pos : Nat) :
    ∀ piece ∈ cutAt s (occurrencesFrom (x :: pat) s pos), occurrences (x :: pat) piece = [0] := by
  have hpat : x :: pat ≠ [] := List.cons_ne_nil x pat
  generalize hplaces : occurrencesFrom (x :: pat) s pos = places
  induction places generalizing pos with
  | nil => intro piece hpiece; cases hpiece
  | cons p rest ih =>
      obtain ⟨_, _, hocc, hrest⟩ := occurrencesFrom_cons hplaces
      intro piece hpiece
      rw [cutAt, List.mem_cons] at hpiece
      rcases hpiece with rfl | hpiece
      · cases rest with
        | nil =>
            refine occurrences_eq_singleton hpat hocc ?_
            intro i hi
            rw [List.head?_nil, Option.map_none, substr, List.drop_drop]
            exact not_occurs_between hpat hrest.symm (by omega) (by simp)
        | cons q rest =>
            obtain ⟨_, _, hoccq, _⟩ := occurrencesFrom_cons hrest.symm
            have hgap := occurrence_gap hx (by omega) hocc hoccq
            rw [List.head?_cons, Option.map_some, substr]
            refine occurrences_eq_singleton hpat ?_ ?_
            · exact List.prefix_take_iff.mpr ⟨hocc, by rw [List.length_cons]; omega⟩
            · intro i hi hoccᵢ
              have hlen := hoccᵢ.length_le
              rw [List.length_drop, List.length_take, List.length_cons] at hlen
              rw [List.drop_take, List.drop_drop] at hoccᵢ
              refine not_occurs_between hpat hrest.symm (i := p + i) (by omega) ?_
                (List.prefix_take_iff.mp hoccᵢ).1
              intro q' hq'
              obtain rfl : q = q' := Option.some.inj hq'
              omega
      · exact ih (p + 1) hrest.symm piece hpiece

end PlayerInterface.Core
