import PlayerInterface.BaseConversion.Base64
import Mathlib.Data.List.TakeWhile

/-!
# What the base64 decoder reads, writes and accepts

The decoder over the memory its text lies in, with the indices it reads and the
bytes it stores. Its table has the letters of the alphabet, `-` as the older form
of `/`, and `=` as a letter without bits when it is not trailing.
-/

namespace PlayerInterface.BaseConversion.Traced

open PlayerInterface.Core

/-- The loop `while (srcLen > 0 && src[srcLen-1] == '=')`: what it reads and the
length it leaves. -/
def stripPadding (src : Mem) : Nat → List Nat × Nat
  | 0 => ([], 0)
  | srcLen + 1 =>
      if src srcLen = PAD then
        let stripped := stripPadding src srcLen
        (srcLen :: stripped.1, stripped.2)
      else ([srcLen], srcLen + 1)

/-- The variables of `for (int i = 0; i < 4; i++)`, with the indices read so far. -/
structure Turn where
  next : Nat
  buf : Nat
  count : Nat
  reads : List Nat

/-- The remaining turns of that loop. A character outside the table ends the whole
decoder, and only what was read stays. -/
def readLetters (src : Mem) (fin : Nat) : Nat → Turn → Except (List Nat) Turn
  | 0, t => .ok t
  | turns + 1, t =>
      if t.next < fin then
        match decode (src t.next) with
        | none => .error (t.reads ++ [t.next])
        | some digit64 =>
            readLetters src fin turns
              ⟨t.next + 1, t.buf * 64 + digit64, t.count + 1, t.reads ++ [t.next]⟩
      else readLetters src fin turns { t with buf := t.buf * 64 }

/-- The bytes stored at `dst` for one group. -/
def Turn.stored (t : Turn) : Bytes :=
  (if t.count ≥ 2 then [UInt8.ofNat (t.buf / 2 ^ 16)] else []) ++
    (if t.count ≥ 3 then [UInt8.ofNat (t.buf / 2 ^ 8)] else []) ++
    (if t.count ≥ 4 then [UInt8.ofNat t.buf] else [])

theorem readLetters_next {src : Mem} {fin turns : Nat} {t t' : Turn}
    (h : readLetters src fin turns t = .ok t') : t.next ≤ t'.next := by
  induction turns generalizing t with
  | zero => cases h; exact Nat.le_refl _
  | succ turns ih =>
      rw [readLetters] at h
      split at h
      · split at h
        · cases h
        · have hnext := ih h
          exact Nat.le_of_succ_le hnext
      · have hnext := ih h
        exact hnext

theorem readLetters_next_lt {src : Mem} {fin turns : Nat} {t t' : Turn} (hlt : t.next < fin)
    (h : readLetters src fin (turns + 1) t = .ok t') : t.next < t'.next := by
  rw [readLetters, if_pos hlt] at h
  split at h
  · cases h
  · exact readLetters_next h

/-- What a run of the decoder has done: the indices read, the bytes stored from `rc`
on, and whether it goes on or has returned a null pointer. -/
structure Run where
  reads : List Nat
  stored : Bytes
  valid : Bool

/-- The loop `while (src < fin)`. -/
def decodeLoop (src : Mem) (fin next : Nat) (run : Run) : Run :=
  if hlt : next < fin then
    match hturn : readLetters src fin 4 ⟨next, 0, 0, run.reads⟩ with
    | .error reads => { run with reads := reads, valid := false }
    | .ok t =>
        have : next < t.next := readLetters_next_lt hlt hturn
        decodeLoop src fin t.next ⟨t.reads, run.stored ++ t.stored, run.valid⟩
  else run
  termination_by fin - next

/-- The argument of `malloc`, a product of `size_t`. -/
def allocated (srcLen : Nat) : Nat := srcLen * 3 % 2 ^ 64 / 4

def base64_Decode (src : Mem) (srcLen : Nat) : Run :=
  let stripped := stripPadding src srcLen
  decodeLoop src stripped.2 0 ⟨stripped.1, [], true⟩

/-- `none` is the null pointer. -/
def Run.result (run : Run) : Option Bytes := if run.valid then some run.stored else none

/-! ## The padding -/

theorem stripPadding_spec {src : Mem} {s : Bytes} (h : Holds src 0 s) :
    (stripPadding src s.length).2 = (s.rdropWhile (· = PAD)).length ∧
      ∀ i ∈ (stripPadding src s.length).1, i < s.length := by
  induction s using List.reverseRecOn with
  | nil => exact ⟨rfl, nofun⟩
  | append_singleton s c ih =>
      rcases holds_append.mp h with ⟨hs, hc, -⟩
      rw [Nat.zero_add] at hc
      rcases ih hs with ⟨hlength, hreads⟩
      rw [List.length_append, List.length_singleton, stripPadding, hc]
      by_cases hpad : c = PAD
      · rw [if_pos hpad, List.rdropWhile_concat_pos _ _ _ (by simpa using hpad)]
        constructor
        · exact hlength
        · intro i hi
          rcases List.mem_cons.mp hi with rfl | hi
          · omega
          · have := hreads i hi
            omega
      · rw [if_neg hpad, List.rdropWhile_concat_neg _ _ _ (by simpa using hpad)]
        constructor
        · rw [List.length_append, List.length_singleton]
        · intro i hi
          rw [List.mem_singleton.mp hi]
          omega

/-! ## One group -/

theorem readLetters_spec {src : Mem} {fin turns : Nat} {t : Turn} {letters : Bytes}
    (hholds : Holds src t.next letters) (hfin : fin = t.next + letters.length) :
    match (letters.take turns).mapM decode with
    | some digits => ∃ reads, readLetters src fin turns t = .ok
        ⟨t.next + digits.length,
          (digits ++ List.replicate (turns - digits.length) 0).foldl
            (fun buf digit => buf * 64 + digit) t.buf,
          t.count + digits.length, t.reads ++ reads⟩ ∧ ∀ i ∈ reads, i < fin
    | none => ∃ reads, readLetters src fin turns t = .error (t.reads ++ reads) ∧
        ∀ i ∈ reads, i < fin := by
  induction turns generalizing t letters with
  | zero => exact ⟨[], by simp [readLetters], nofun⟩
  | succ turns ih =>
      cases letters with
      | nil =>
          have hrest := @ih { t with buf := t.buf * 64 } [] trivial hfin
          rw [List.take_nil] at hrest ⊢
          rcases hrest with ⟨reads, hrun, hreads⟩
          have hend : ¬ t.next < fin := by rw [hfin]; simp
          refine ⟨reads, ?_, hreads⟩
          rw [readLetters, if_neg hend, hrun]
          simp [List.replicate_succ]
      | cons c letters =>
          rcases hholds with ⟨hc, hletters⟩
          rw [List.length_cons] at hfin
          have hlt : t.next < fin := by omega
          rw [readLetters, if_pos hlt, hc, List.take_succ_cons, List.mapM_cons]
          cases hdecode : decode c with
          | none =>
              refine ⟨[t.next], rfl, ?_⟩
              intro i hi
              rw [List.mem_singleton.mp hi]
              exact hlt
          | some digit =>
              have hrest := ih (t := ⟨t.next + 1, t.buf * 64 + digit, t.count + 1,
                t.reads ++ [t.next]⟩) hletters (by simp only; omega)
              cases hdigits : (letters.take turns).mapM decode with
              | none =>
                  rw [hdigits] at hrest
                  rcases hrest with ⟨reads, hrun, hreads⟩
                  refine ⟨t.next :: reads, ?_, ?_⟩
                  · simpa using hrun
                  · intro i hi
                    rcases List.mem_cons.mp hi with rfl | hi
                    · exact hlt
                    · exact hreads i hi
              | some digits =>
                  rw [hdigits] at hrest
                  rcases hrest with ⟨reads, hrun, hreads⟩
                  refine ⟨t.next :: reads, ?_, ?_⟩
                  · simpa [Nat.add_assoc, Nat.add_comm 1] using hrun
                  · intro i hi
                    rcases List.mem_cons.mp hi with rfl | hi
                    · exact hlt
                    · exact hreads i hi

theorem length_of_mapM {letters : Bytes} {digits : List Nat}
    (h : letters.mapM decode = some digits) : digits.length = letters.length := by
  induction letters generalizing digits with
  | nil => cases h; rfl
  | cons c letters ih =>
      rw [List.mapM_cons] at h
      rcases Option.bind_eq_some_iff.mp h with ⟨digit, hdigit, hbind⟩
      rcases Option.bind_eq_some_iff.mp hbind with ⟨rest, hrest, hdigits⟩
      cases hdigits
      rw [List.length_cons, List.length_cons, ih hrest]

/-- The three conditions on `count` are one prefix of the group's bytes. -/
theorem Turn.stored_eq (t : Turn) (h : t.count ≤ 4) :
    t.stored = [UInt8.ofNat (t.buf / 2 ^ 16), UInt8.ofNat (t.buf / 2 ^ 8),
      UInt8.ofNat t.buf].take (t.count - 1) := by
  rcases t with ⟨next, buf, count, reads⟩
  simp only at h
  have hcount : count = 0 ∨ count = 1 ∨ count = 2 ∨ count = 3 ∨ count = 4 := by omega
  rcases hcount with rfl | rfl | rfl | rfl | rfl <;> rfl

/-! ## The groups -/

theorem decodeGroups_short {letters : Bytes} (h : letters.length < 4) (hne : letters ≠ []) :
    decodeGroups letters = decodeGroup letters := by
  rcases letters with _ | ⟨c₀, _ | ⟨c₁, _ | ⟨c₂, _ | ⟨c₃, letters⟩⟩⟩⟩
  · exact absurd rfl hne
  · rfl
  · rfl
  · rfl
  · simp only [List.length_cons] at h
    omega

theorem decodeGroups_eq {letters : Bytes} (h : letters ≠ []) :
    decodeGroups letters = (decodeGroup (letters.take 4)).bind fun bytes =>
      (decodeGroups (letters.drop 4)).map (bytes ++ ·) := by
  rcases Nat.lt_or_ge letters.length 4 with hshort | hlong
  · rw [decodeGroups_short hshort h, List.take_of_length_le (by omega),
      List.drop_of_length_le (by omega)]
    simp [decodeGroups]
  · rcases letters with _ | ⟨c₀, _ | ⟨c₁, _ | ⟨c₂, _ | ⟨c₃, letters⟩⟩⟩⟩
    case cons.cons.cons.cons =>
      simp only [List.take_succ_cons, List.take_zero, List.drop_succ_cons, List.drop_zero,
        Option.map_eq_bind]
      rfl
    all_goals exact absurd hlong (by simp)

theorem decodeGroup_of_error {src : Mem} {fin next : Nat} {reads reads' : List Nat}
    {letters : Bytes} (hholds : Holds src next letters) (hfin : fin = next + letters.length)
    (hturn : readLetters src fin 4 ⟨next, 0, 0, reads⟩ = .error reads') :
    decodeGroup (letters.take 4) = none ∧ ∀ i ∈ reads', i ∈ reads ∨ i < fin := by
  have hgroup := @readLetters_spec src fin 4 ⟨next, 0, 0, reads⟩ letters hholds hfin
  rw [decodeGroup]
  cases hdigits : (letters.take 4).mapM decode with
  | some digits =>
      rw [hdigits, hturn] at hgroup
      rcases hgroup with ⟨more, hmore, -⟩
      cases hmore
  | none =>
      rw [hdigits, hturn] at hgroup
      rcases hgroup with ⟨more, hmore, hbound⟩
      cases hmore
      constructor
      · rfl
      · intro i hi
        rcases List.mem_append.mp hi with hi | hi
        · exact Or.inl hi
        · exact Or.inr (hbound i hi)

theorem decodeGroup_of_ok {src : Mem} {fin next : Nat} {reads : List Nat} {t : Turn}
    {letters : Bytes} (hholds : Holds src next letters) (hfin : fin = next + letters.length)
    (hturn : readLetters src fin 4 ⟨next, 0, 0, reads⟩ = .ok t) :
    decodeGroup (letters.take 4) = some t.stored ∧ t.next = next + (letters.take 4).length ∧
      4 * t.stored.length ≤ 3 * (letters.take 4).length ∧
      ∀ i ∈ t.reads, i ∈ reads ∨ i < fin := by
  have hgroup := @readLetters_spec src fin 4 ⟨next, 0, 0, reads⟩ letters hholds hfin
  rw [decodeGroup]
  cases hdigits : (letters.take 4).mapM decode with
  | none =>
      rw [hdigits, hturn] at hgroup
      rcases hgroup with ⟨more, hmore, -⟩
      cases hmore
  | some digits =>
      have hlength := length_of_mapM hdigits
      have hfour : digits.length ≤ 4 := by
        rw [hlength, List.length_take]
        omega
      rw [hdigits, hturn] at hgroup
      rcases hgroup with ⟨more, hmore, hbound⟩
      cases hmore
      rw [Turn.stored_eq _ (by simpa using hfour), ← hlength]
      simp only [Nat.zero_add]
      refine ⟨rfl, trivial, ?_, ?_⟩
      · rw [List.length_take]
        simp only [List.length_cons, List.length_nil]
        omega
      · intro i hi
        rcases List.mem_append.mp hi with hi | hi
        · exact Or.inl hi
        · exact Or.inr (hbound i hi)

/-- The loop stores what the groups decode to, at most three bytes for four
characters, and reads nothing from `fin` on. -/
theorem decodeLoop_spec {src : Mem} {fin next : Nat} {run : Run} {letters : Bytes}
    (hholds : Holds src next letters) (hfin : fin = next + letters.length) (hvalid : run.valid) :
    (∃ bytes, (decodeLoop src fin next run).stored = run.stored ++ bytes ∧
      4 * bytes.length ≤ 3 * letters.length) ∧
    (decodeLoop src fin next run).result = (decodeGroups letters).map (run.stored ++ ·) ∧
    ∀ i ∈ (decodeLoop src fin next run).reads, i ∈ run.reads ∨ i < fin := by
  fun_induction decodeLoop src fin next run generalizing letters with
  | case1 next run hlt reads hturn =>
      rcases decodeGroup_of_error hholds hfin hturn with ⟨hnone, hreads⟩
      have hne : letters ≠ [] := by
        intro hnil
        rw [hnil, List.length_nil] at hfin
        omega
      refine ⟨⟨[], by simp, by simp⟩, ?_, hreads⟩
      rw [decodeGroups_eq hne, hnone]
      rfl
  | case2 next run hlt t hturn hnext ih =>
      rcases decodeGroup_of_ok hholds hfin hturn with ⟨hgroup, hstop, hsize, hreads⟩
      have hne : letters ≠ [] := by
        intro hnil
        rw [hnil, List.length_nil] at hfin
        omega
      have hsplit := congrArg List.length (List.take_append_drop 4 letters)
      rw [List.length_append] at hsplit
      rw [← List.take_append_drop 4 letters] at hholds
      have hdropped : Holds src t.next (letters.drop 4) := by
        rw [hstop]
        exact (holds_append.mp hholds).2
      have hrest := ih hdropped (by omega) hvalid
      rcases hrest with ⟨⟨bytes, hstored, hbytes⟩, hresult, hmore⟩
      refine ⟨⟨t.stored ++ bytes, ?_, ?_⟩, ?_, ?_⟩
      · rw [hstored, List.append_assoc]
      · rw [List.length_append]
        omega
      · rw [hresult, decodeGroups_eq hne, hgroup]
        simp [Function.comp_def]
      · intro i hi
        rcases hmore i hi with hi | hi
        · exact hreads i hi
        · exact Or.inr hi
  | case3 next run hend =>
      have hnil : letters = [] := by
        rw [← List.length_eq_zero_iff]
        omega
      subst hnil
      refine ⟨⟨[], by simp, by simp⟩, ?_, fun i hi => Or.inl hi⟩
      rw [Run.result, if_pos hvalid]
      simp [decodeGroups]

/-! ## The whole text -/

/-- The text without its trailing padding. -/
def unpadded (s : Bytes) : Bytes := s.rdropWhile (· = PAD)

theorem unpadded_append (s : Bytes) : ∃ n, s = unpadded s ++ List.replicate n PAD := by
  refine ⟨(s.rtakeWhile (· = PAD)).length, ?_⟩
  have hpad : s.rtakeWhile (· = PAD) =
      List.replicate (s.rtakeWhile (· = PAD)).length PAD := by
    apply List.eq_replicate_of_mem
    intro c hc
    have hletter := List.mem_rtakeWhile_imp hc
    exact of_decide_eq_true hletter
  rw [← hpad]
  exact (List.rdropWhile_append_rtakeWhile ..).symm

theorem length_unpadded_le (s : Bytes) : (unpadded s).length ≤ s.length := by
  rcases unpadded_append s with ⟨n, hn⟩
  have hlength := congrArg List.length hn
  rw [List.length_append] at hlength
  omega

/-- The run over the memory gives what the decoder of the text gives. -/
theorem base64_Decode_run {src : Mem} {s : Bytes} (hholds : Holds src 0 s) :
    4 * (base64_Decode src s.length).stored.length ≤ 3 * s.length ∧
    (base64_Decode src s.length).result = BaseConversion.base64_Decode s ∧
    ∀ i ∈ (base64_Decode src s.length).reads, i < s.length := by
  rcases stripPadding_spec hholds with ⟨hfin, hstrip⟩
  rcases unpadded_append s with ⟨n, hn⟩
  have hle := length_unpadded_le s
  have hboth := hholds
  rw [hn] at hboth
  let start : Run := ⟨(stripPadding src s.length).1, [], true⟩
  have hstart : start.valid = true := rfl
  have hrun := decodeLoop_spec (holds_append.mp hboth).1 (hfin.trans (Nat.zero_add _).symm) hstart
  rcases hrun with ⟨⟨bytes, hstored, hbytes⟩, hresult, hreads⟩
  refine ⟨?_, ?_, ?_⟩
  · rw [base64_Decode, hstored, List.nil_append]
    omega
  · rw [base64_Decode, hresult]
    exact Option.map_id'
  · intro i hi
    rcases hreads i hi with hi | hi
    · exact hstrip i hi
    · have hfin' : (stripPadding src s.length).2 = (unpadded s).length := hfin
      omega

/-! ## What is accepted -/

/-- `A-Z a-z 0-9 + /`. -/
def StandardLetter (c : UInt8) : Prop :=
  (65 ≤ c.toNat ∧ c.toNat ≤ 90) ∨ (97 ≤ c.toNat ∧ c.toNat ≤ 122) ∨
    (48 ≤ c.toNat ∧ c.toNat ≤ 57) ∨ c = 43 ∨ c = 47

instance (c : UInt8) : Decidable (StandardLetter c) := by
  unfold StandardLetter
  infer_instance

/-- The two further characters of the table: `-` for `/`, and `=` as the digit zero. -/
def meaning (c : UInt8) : UInt8 := if c = 45 then 47 else if c = PAD then 65 else c

theorem forall_byte {p : UInt8 → Prop} (h : ∀ n < 256, p (UInt8.ofNat n)) (c : UInt8) : p c := by
  have hc := h c.toNat c.toNat_lt
  rwa [UInt8.ofNat_toNat] at hc

set_option maxRecDepth 4000 in
theorem decode_isSome_iff (c : UInt8) :
    (decode c).isSome ↔ StandardLetter c ∨ c = 45 ∨ c = PAD := by
  have hall : ∀ n < 256, (decode (UInt8.ofNat n)).isSome ↔
      StandardLetter (UInt8.ofNat n) ∨ UInt8.ofNat n = 45 ∨ UInt8.ofNat n = PAD := by decide
  exact forall_byte (p := fun c => (decode c).isSome ↔ StandardLetter c ∨ c = 45 ∨ c = PAD) hall c

set_option maxRecDepth 4000 in
theorem meaning_of_decode {c : UInt8} {digit : Nat} (h : decode c = some digit) :
    digit < 64 ∧ meaning c = encode digit := by
  have hall : ∀ n < 256, ∀ d ∈ decode (UInt8.ofNat n),
      d < 64 ∧ meaning (UInt8.ofNat n) = encode d := by decide
  exact forall_byte (p := fun c => ∀ d ∈ decode c, d < 64 ∧ meaning c = encode d) hall c digit h

theorem mapM_isSome_iff (letters : Bytes) :
    (letters.mapM decode).isSome ↔ ∀ c ∈ letters, (decode c).isSome := by
  induction letters with
  | nil => simp
  | cons c letters ih =>
      rw [List.mapM_cons, List.forall_mem_cons, ← ih]
      cases decode c with
      | none => simp
      | some digit => cases letters.mapM decode <;> simp

theorem decodeGroup_isSome_iff (letters : Bytes) :
    (decodeGroup letters).isSome ↔ ∀ c ∈ letters, (decode c).isSome := by
  rw [decodeGroup, ← mapM_isSome_iff]
  cases letters.mapM decode <;> simp

theorem decodeGroups_isSome_iff (letters : Bytes) :
    (decodeGroups letters).isSome ↔ ∀ c ∈ letters, (decode c).isSome := by
  induction hlength : letters.length using Nat.strongRecOn generalizing letters with
  | ind count ih =>
      by_cases hne : letters = []
      · subst hne
        simp [decodeGroups]
      · have hpos := List.length_pos_iff.mpr hne
        have hdrop : (letters.drop 4).length < count := by
          rw [List.length_drop]
          omega
        have hrest := ih _ hdrop (letters.drop 4) rfl
        have hgroup := decodeGroup_isSome_iff (letters.take 4)
        have hboth : (decodeGroups letters).isSome ↔
            (decodeGroup (letters.take 4)).isSome ∧ (decodeGroups (letters.drop 4)).isSome := by
          rw [decodeGroups_eq hne]
          cases decodeGroup (letters.take 4) <;> simp
        rw [hboth, hgroup, hrest, ← List.forall_mem_append, List.take_append_drop]

/-- The texts the decoder takes: letters of the alphabet and the two further ones,
then any number of `=`. -/
def Accepted (s : Bytes) : Prop :=
  ∃ letters n, s = letters ++ List.replicate n PAD ∧
    ∀ c ∈ letters, StandardLetter c ∨ c = 45 ∨ c = PAD

theorem decode_accepted_iff (s : Bytes) :
    (BaseConversion.base64_Decode s).isSome ↔ Accepted s := by
  rw [BaseConversion.base64_Decode, decodeGroups_isSome_iff]
  simp only [decode_isSome_iff]
  constructor
  · intro hletters
    rcases unpadded_append s with ⟨n, hn⟩
    exact ⟨unpadded s, n, hn, hletters⟩
  · intro haccepted c hc
    rcases haccepted with ⟨letters, n, hs, hletters⟩
    have hlead := List.rdropWhile_prefix (p := (· = PAD)) (l := s)
    have hmem := hlead.subset hc
    rw [hs] at hmem
    rcases List.mem_append.mp hmem with hmem | hmem
    · exact hletters c hmem
    · exact Or.inr (Or.inr (List.eq_of_mem_replicate hmem))

/-! ## What is told apart -/

theorem map_meaning {letters : Bytes} {digits : List Nat}
    (h : letters.mapM decode = some digits) :
    letters.map meaning = digits.map encode ∧ ∀ d ∈ digits, d < 64 := by
  induction letters generalizing digits with
  | nil => cases h; exact ⟨rfl, nofun⟩
  | cons c letters ih =>
      rw [List.mapM_cons] at h
      rcases Option.bind_eq_some_iff.mp h with ⟨digit, hdigit, hbind⟩
      rcases Option.bind_eq_some_iff.mp hbind with ⟨rest, hrest, hdigits⟩
      cases hdigits
      rcases meaning_of_decode hdigit with ⟨hlt, hmeaning⟩
      rcases ih hrest with ⟨hmap, hall⟩
      constructor
      · rw [List.map_cons, List.map_cons, hmeaning, hmap]
      · exact List.forall_mem_cons.mpr ⟨hlt, hall⟩

theorem length_decodeGroup {letters bytes : Bytes} (h : decodeGroup letters = some bytes)
    (hfour : letters.length ≤ 4) : bytes.length = letters.length - 1 := by
  rcases Option.bind_eq_some_iff.mp h with ⟨digits, hdigits, hbytes⟩
  cases hbytes
  rw [List.length_take, length_of_mapM hdigits]
  simp only [List.length_cons, List.length_nil]
  omega

/-- The bytes of a full group determine its digits. -/
theorem shiftIn_inj {u v : List Nat} (hu : u.length = 4) (hv : v.length = 4)
    (hult : ∀ d ∈ u, d < 64) (hvlt : ∀ d ∈ v, d < 64)
    (h : [UInt8.ofNat (shiftIn u / 2 ^ 16), UInt8.ofNat (shiftIn u / 2 ^ 8),
        UInt8.ofNat (shiftIn u)] =
      [UInt8.ofNat (shiftIn v / 2 ^ 16), UInt8.ofNat (shiftIn v / 2 ^ 8),
        UInt8.ofNat (shiftIn v)]) : u = v := by
  match u, hu, v, hv with
  | [u₀, u₁, u₂, u₃], _, [v₀, v₁, v₂, v₃], _ =>
      simp only [List.mem_cons, List.not_mem_nil, or_false, forall_eq_or_imp, forall_eq]
        at hult hvlt
      simp only [shiftIn_four, List.cons.injEq, and_true, ← UInt8.toNat_inj,
        UInt8.toNat_ofNat'] at h ⊢
      omega

theorem decodeGroup_inj {x y bytes : Bytes} (hx : x.length = 4) (hy : y.length = 4)
    (hxbytes : decodeGroup x = some bytes) (hybytes : decodeGroup y = some bytes) :
    x.map meaning = y.map meaning := by
  rcases Option.bind_eq_some_iff.mp hxbytes with ⟨u, hu, hub⟩
  rcases Option.bind_eq_some_iff.mp hybytes with ⟨v, hv, hvb⟩
  have hulength := (length_of_mapM hu).trans hx
  have hvlength := (length_of_mapM hv).trans hy
  rcases map_meaning hu with ⟨hmapu, hult⟩
  rcases map_meaning hv with ⟨hmapv, hvlt⟩
  have hsame := Option.some.inj (hub.trans hvb.symm)
  rw [hulength, hvlength] at hsame
  rw [hmapu, hmapv, shiftIn_inj hulength hvlength hult hvlt hsame]

theorem decodeGroups_some {letters bytes : Bytes} (hne : letters ≠ [])
    (h : decodeGroups letters = some bytes) :
    ∃ first rest, decodeGroup (letters.take 4) = some first ∧
      decodeGroups (letters.drop 4) = some rest ∧ bytes = first ++ rest := by
  rw [decodeGroups_eq hne] at h
  rcases Option.bind_eq_some_iff.mp h with ⟨first, hfirst, hmap⟩
  rcases Option.map_eq_some_iff.mp hmap with ⟨rest, hrest, hbytes⟩
  exact ⟨first, rest, hfirst, hrest, hbytes.symm⟩

theorem length_decodeGroups {letters bytes : Bytes} (h : decodeGroups letters = some bytes) :
    bytes.length = 3 * (letters.length / 4) + (letters.length % 4 - 1) := by
  induction hlength : letters.length using Nat.strongRecOn generalizing letters bytes with
  | ind count ih =>
      by_cases hne : letters = []
      · subst hne
        cases h
        rw [← hlength]
        rfl
      · have hpos := List.length_pos_iff.mpr hne
        rcases decodeGroups_some hne h with ⟨first, rest, hfirst, hrest, rfl⟩
        have htail := ih _ (by rw [List.length_drop]; omega) hrest rfl
        have hhead := length_decodeGroup hfirst (List.length_take_le 4 letters)
        rw [List.length_drop] at htail
        rw [List.length_take] at hhead
        rw [List.length_append]
        omega

/-- The characters of one group, with the two further ones replaced by what they mean. -/
def group (s : Bytes) (k : Nat) : Bytes := ((s.drop (4 * k)).take 4).map meaning

/-- Two texts with the same bytes have the same bytes in their first groups. -/
theorem decodeGroups_same {x y bytes : Bytes} (hxlong : 4 ≤ x.length) (hylong : 4 ≤ y.length)
    (hx : decodeGroups x = some bytes) (hy : decodeGroups y = some bytes) :
    ∃ first rest, decodeGroup (x.take 4) = some first ∧ decodeGroup (y.take 4) = some first ∧
      decodeGroups (x.drop 4) = some rest ∧ decodeGroups (y.drop 4) = some rest := by
  rcases decodeGroups_some (List.length_pos_iff.mp (by omega)) hx with ⟨u, us, hu, hus, rfl⟩
  rcases decodeGroups_some (List.length_pos_iff.mp (by omega)) hy with ⟨v, vs, hv, hvs, hsame⟩
  have hulength := length_decodeGroup hu (List.length_take_le 4 x)
  have hvlength := length_decodeGroup hv (List.length_take_le 4 y)
  rw [List.length_take] at hulength hvlength
  rcases List.append_inj hsame (by omega) with ⟨rfl, rfl⟩
  exact ⟨u, us, hu, hv, hus, hvs⟩

theorem group_eq_of_decodeGroups {x y bytes : Bytes} {k : Nat} (hk : 4 * (k + 1) ≤ x.length)
    (hx : decodeGroups x = some bytes) (hy : decodeGroups y = some bytes) :
    4 * (k + 1) ≤ y.length ∧ group x k = group y k := by
  have hxlength := length_decodeGroups hx
  have hylength := length_decodeGroups hy
  have hky : 4 * (k + 1) ≤ y.length := by omega
  refine ⟨hky, ?_⟩
  clear hxlength hylength
  induction k generalizing x y bytes with
  | zero =>
      rcases decodeGroups_same (by omega) (by omega) hx hy with ⟨first, rest, hu, hv, -, -⟩
      have hxfour : (x.take 4).length = 4 := by rw [List.length_take]; omega
      have hyfour : (y.take 4).length = 4 := by rw [List.length_take]; omega
      exact decodeGroup_inj hxfour hyfour hu hv
  | succ k ih =>
      rcases decodeGroups_same (by omega) (by omega) hx hy with ⟨first, rest, -, -, hus, hvs⟩
      have hrest := ih (by rw [List.length_drop]; omega) hus hvs (by rw [List.length_drop]; omega)
      simp only [group, List.drop_drop] at hrest ⊢
      rwa [show 4 * (k + 1) = 4 + 4 * k by omega]

/-- A group that lies before the padding is the same in the text without it. -/
theorem group_unpadded {s : Bytes} {k : Nat} (hk : 4 * (k + 1) ≤ (unpadded s).length) :
    group (unpadded s) k = group s k := by
  rcases unpadded_append s with ⟨n, hn⟩
  have hdrop : s.drop (4 * k) = (unpadded s).drop (4 * k) ++ List.replicate n PAD := by
    rw [← List.drop_append_of_le_length (by omega), ← hn]
  rw [group, group, hdrop, List.take_append_of_le_length (by rw [List.length_drop]; omega)]

/-! ## The decoder on every text -/

/-- The run on a text of `s.length` characters that lie in front of `beyond`. -/
def decoding (s : Bytes) (beyond : Mem) : Run := base64_Decode (Mem.ofBytes s beyond) s.length

structure Decodes (s : Bytes) (beyond : Mem) : Prop where
  reads : ∀ i ∈ (decoding s beyond).reads, i < s.length
  stored : (decoding s beyond).stored.length ≤ 3 * s.length / 4
  allocated : 3 * s.length < 2 ^ 64 → allocated s.length = 3 * s.length / 4
  accepts : (decoding s beyond).result.isSome ↔ Accepted s
  separates : ∀ t beyond' k bs bt, 4 * (k + 1) ≤ (unpadded s).length → group s k ≠ group t k →
    (decoding s beyond).result = some bs → (decoding t beyond').result = some bt → bs ≠ bt

theorem decoding_result (s : Bytes) (beyond : Mem) :
    (decoding s beyond).result = BaseConversion.base64_Decode s :=
  (base64_Decode_run (holds_ofBytes s beyond)).2.1

theorem base64_Decode_decodes (s : Bytes) (beyond : Mem) : Decodes s beyond := by
  rcases base64_Decode_run (holds_ofBytes s beyond) with ⟨hstored, -, hreads⟩
  constructor
  · exact hreads
  · rw [decoding]
    omega
  · intro hsize
    rw [allocated, Nat.mod_eq_of_lt (by omega), Nat.mul_comm]
  · rw [decoding_result, decode_accepted_iff]
  · intro t beyond' k bs bt hk hne hs ht hsame
    subst hsame
    rw [decoding_result] at hs ht
    rcases group_eq_of_decodeGroups hk hs ht with ⟨hkt, hgroup⟩
    apply hne
    rw [← group_unpadded hk, hgroup, ← group_unpadded hkt]
    rfl

/-- `AAA-` is taken although `-` is no letter of the alphabet. -/
theorem dash_accepted : ¬ ∀ s beyond, (decoding s beyond).result.isSome ↔
    ∃ letters n, s = letters ++ List.replicate n PAD ∧ ∀ c ∈ letters, StandardLetter c := by
  intro hall
  have haccepted : (decoding [65, 65, 65, 45] fun _ => 0).result.isSome := by
    rw [decoding_result]
    decide
  rcases (hall _ _).mp haccepted with ⟨letters, n, hs, hletters⟩
  have hdash : (45 : UInt8) ∈ letters ++ List.replicate n PAD := by
    rw [← hs]
    decide
  rcases List.mem_append.mp hdash with hdash | hdash
  · exact absurd (hletters 45 hdash) (by decide)
  · exact absurd (List.eq_of_mem_replicate hdash) (by decide)

end PlayerInterface.BaseConversion.Traced
