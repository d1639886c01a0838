import PlayerInterface.Aes.Decryptor
import Mathlib.Data.List.TakeWhile

/-!
# Resolution of a relative URL

Two scans over the base share a cursor, which is also where the search for its query
starts. A `const char*` is the text from the cursor to the terminator.
-/

namespace PlayerInterface.PlayerUtils

open PlayerInterface.Aes

/-! ## The scans -/

/-- The loop that stops behind the authority. -/
def scanAuthority : List Char → List Char
  | [] => []
  | c :: basePtr => if c = '/' ∨ c = '?' then c :: basePtr else scanAuthority basePtr

/-- The loop that stops behind the path: the cursor, and `baseEnd`, which stays at the last `/`. -/
def scanPath (baseEnd : List Char) : List Char → List Char × List Char
  | [] => ([], baseEnd)
  | c :: basePtr =>
      if c = '/' then scanPath (c :: basePtr) basePtr
      else if c = '?' then (c :: basePtr, baseEnd)
      else scanPath baseEnd basePtr

def strchr (c : Char) : List Char → Option (List Char)
  | [] => none
  | c' :: s => if c' = c then some (c' :: s) else strchr c s

/-- The query of the base, searched from the cursor on, behind a uri that has none. -/
def appendParams (base uri basePtr dst : List Char) (bPropagateUriParams : Bool) : List Char :=
  if bPropagateUriParams ∧ strchr '?' uri = none then
    match strchr '?' basePtr with
    | some baseParams => dst ++ base.drop ((cStr base).length - baseParams.length)
    | none => dst
  else dst

/-- `none` when the base has no protocol: the scan then starts at a null pointer. -/
def ResolveURL (dst base uri : List Char) (bPropagateUriParams : Bool) : Option (List Char) :=
  if (ParseUriProtocol uri).isSome then some uri
  else if base = [] then some dst
  else
    match ParseUriProtocol (cStr base) with
    | none => none
    | some basePtr =>
        let basePtr := scanAuthority basePtr
        let scanned := if uri.head? ≠ some '/' ∧ uri ≠ [] then scanPath basePtr basePtr
          else (basePtr, basePtr)
        let dst := base.take ((cStr base).length - scanned.2.length)
        let dst := if uri.head? ≠ some '/' then dst ++ ['/'] else dst
        some (appendParams base uri scanned.1 (dst ++ uri) bPropagateUriParams)

/-- The copy of it in `ClearKeyHelper.cpp`, which also logs an empty base. -/
def ClearKeyHelper.resolveURL (dst base uri : List Char) (bPropagateUriParams : Bool) :
    Option (List Char) :=
  ResolveURL dst base uri bPropagateUriParams

/-! ## URLs -/

/-- What `ParseUriProtocol` takes for a character of a protocol. -/
def isProtocolChar (c : Char) : Bool := c.isAlphanum || c = '.' || c = '-' || c = '+'

/-- `scheme://authority[/path][?query]`, path and query with the character they start with. -/
structure Url where
  scheme : List Char
  authority : List Char
  path : List Char
  query : List Char
  scheme_chars : ∀ c ∈ scheme, isProtocolChar c = true
  authority_chars : ∀ c ∈ authority, c ≠ '\x00' ∧ c ≠ '/' ∧ c ≠ '?'
  path_chars : ∀ c ∈ path, c ≠ '\x00' ∧ c ≠ '?'
  path_rooted : path = [] ∨ path.head? = some '/'
  query_chars : ∀ c ∈ query, c ≠ '\x00'
  query_marked : query = [] ∨ query.head? = some '?'

/-- What stands before the last `/`, if there is one. -/
def directory : List Char → List Char
  | [] => []
  | c :: path => if '/' ∈ path then c :: directory path else []

namespace Url

def origin (u : Url) : List Char := u.scheme ++ [':', '/', '/'] ++ u.authority

def text (u : Url) : List Char := u.origin ++ u.path ++ u.query

/-- A rooted uri replaces the path, another one its last segment; a uri without a query of its own
may inherit the base's. -/
def resolve (u : Url) (uri : List Char) (bPropagateUriParams : Bool) : List Char :=
  u.origin ++
    (if uri.head? = some '/' then uri else directory u.path ++ '/' :: uri) ++
    (if bPropagateUriParams ∧ '?' ∉ uri then u.query else [])

end Url

/-- `resolve` returns, and gives the resolved text where the base is a URL. -/
def Resolves (resolve : List Char → List Char → List Char → Bool → Option (List Char))
    (dst base uri : List Char) (bPropagateUriParams : Bool) : Prop :=
  resolve dst base uri bPropagateUriParams ≠ none ∧
    ∀ u : Url, base = u.text →
      resolve dst base uri bPropagateUriParams = some (u.resolve uri bPropagateUriParams)

/-! ## What the scans find -/

theorem ParseUriProtocol_char {c : Char} (h : isProtocolChar c = true) (uri : List Char) :
    ParseUriProtocol (c :: uri) = ParseUriProtocol uri := by
  have hcolon : c ≠ ':' := by
    rintro rfl
    exact absurd h (by decide)
  simp only [isProtocolChar, Bool.or_eq_true, decide_eq_true_eq] at h
  rw [ParseUriProtocol.eq_def]
  dsimp only
  rw [if_neg hcolon, if_pos (by simpa [or_assoc] using h)]

theorem ParseUriProtocol_scheme {scheme rest : List Char}
    (h : ∀ c ∈ scheme, isProtocolChar c = true) :
    ParseUriProtocol (scheme ++ [':', '/', '/'] ++ rest) = some rest := by
  induction scheme with
  | nil => rfl
  | cons c scheme ih =>
      have htail := ih fun d hd => h d (List.mem_cons_of_mem c hd)
      exact (ParseUriProtocol_char (h c List.mem_cons_self) _).trans htail

theorem scanAuthority_append {authority rest : List Char}
    (h : ∀ c ∈ authority, c ≠ '\x00' ∧ c ≠ '/' ∧ c ≠ '?') :
    scanAuthority (authority ++ rest) = scanAuthority rest := by
  induction authority with
  | nil => rfl
  | cons c authority ih =>
      have hc := h c List.mem_cons_self
      rw [List.cons_append, scanAuthority, if_neg (not_or.mpr hc.2)]
      exact ih fun d hd => h d (List.mem_cons_of_mem c hd)

theorem scanAuthority_of_mark {rest : List Char}
    (h : rest = [] ∨ rest.head? = some '/' ∨ rest.head? = some '?') : scanAuthority rest = rest := by
  cases rest with
  | nil => rfl
  | cons c rest =>
      have hc : c = '/' ∨ c = '?' := by simpa using h
      rw [scanAuthority, if_pos hc]

theorem scanPath_query {query : List Char} (h : query = [] ∨ query.head? = some '?')
    (baseEnd : List Char) : scanPath baseEnd query = (query, baseEnd) := by
  cases query with
  | nil => rfl
  | cons c query =>
      have hc : c = '?' := by simpa using h
      rw [scanPath, hc, if_neg (by decide), if_pos rfl]

/-- Without a `/` the mark stays where it was. -/
theorem scanPath_segment {segment rest : List Char} (h : ∀ c ∈ segment, c ≠ '/' ∧ c ≠ '?')
    (baseEnd : List Char) : scanPath baseEnd (segment ++ rest) = scanPath baseEnd rest := by
  induction segment with
  | nil => rfl
  | cons c segment ih =>
      have hc := h c List.mem_cons_self
      rw [List.cons_append, scanPath, if_neg hc.1, if_neg hc.2]
      exact ih fun d hd => h d (List.mem_cons_of_mem c hd)

/-- The mark ends at the last `/`, whatever it was before. -/
theorem scanPath_directory {path : List Char} (h : ∀ c ∈ path, c ≠ '?') (hslash : '/' ∈ path)
    (baseEnd rest : List Char) :
    ∃ segment, path = directory path ++ '/' :: segment ∧
      scanPath baseEnd (path ++ rest) = scanPath ('/' :: segment ++ rest) rest := by
  induction path generalizing baseEnd with
  | nil => cases hslash
  | cons c path ih =>
      have htail : ∀ d ∈ path, d ≠ '?' := fun d hd => h d (List.mem_cons_of_mem c hd)
      rw [List.cons_append, scanPath, directory]
      by_cases hmore : '/' ∈ path
      · rw [if_pos hmore]
        rcases ih htail hmore with hpath
        by_cases hc : c = '/'
        · rw [if_pos hc]
          rcases hpath (c :: (path ++ rest)) with ⟨segment, hsplit, hscan⟩
          exact ⟨segment, congrArg (c :: ·) hsplit, hscan⟩
        · rw [if_neg hc, if_neg (h c List.mem_cons_self)]
          rcases hpath baseEnd with ⟨segment, hsplit, hscan⟩
          exact ⟨segment, congrArg (c :: ·) hsplit, hscan⟩
      · have hc : c = '/' := by
          rcases List.mem_cons.mp hslash with hc | hc
          · exact hc.symm
          · exact absurd hc hmore
        have hsegment : ∀ d ∈ path, d ≠ '/' ∧ d ≠ '?' :=
          fun d hd => ⟨fun he => hmore (he ▸ hd), htail d hd⟩
        rw [if_neg hmore, if_pos hc, scanPath_segment hsegment, hc]
        exact ⟨path, rfl, rfl⟩

theorem strchr_eq_none {c : Char} {s : List Char} : strchr c s = none ↔ c ∉ s := by
  induction s with
  | nil => exact iff_of_true rfl List.not_mem_nil
  | cons d s ih =>
      rw [strchr, List.mem_cons, not_or]
      by_cases hd : d = c
      · rw [if_pos hd]
        exact iff_of_false nofun fun h => h.1 hd.symm
      · rw [if_neg hd, ih]
        exact (and_iff_right (Ne.symm hd)).symm

theorem strchr_append {c : Char} {s rest : List Char} (h : c ∉ s) :
    strchr c (s ++ rest) = strchr c rest := by
  induction s with
  | nil => rfl
  | cons d s ih =>
      rw [List.mem_cons, not_or] at h
      rw [List.cons_append, strchr, if_neg (Ne.symm h.1)]
      exact ih h.2

theorem strchr_query {query : List Char} (h : query = [] ∨ query.head? = some '?') :
    strchr '?' query = if query = [] then none else some query := by
  cases query with
  | nil => rfl
  | cons c query =>
      have hc : c = '?' := by simpa using h
      rw [strchr, if_pos hc, if_neg (List.cons_ne_nil c query)]

/-! ## Bases that are URLs -/

namespace Url

variable (u : Url)

theorem text_ne_nil : u.text ≠ [] := by
  simp [text, origin]

theorem text_chars : ∀ c ∈ u.text, c ≠ '\x00' := by
  have hscheme : ∀ c ∈ u.scheme, c ≠ '\x00' := by
    rintro c hc rfl
    exact absurd (u.scheme_chars _ hc) (by decide)
  intro c hc
  simp only [text, origin, List.mem_append] at hc
  rcases hc with ((((hc | hc) | hc) | hc) | hc)
  · exact hscheme c hc
  · rintro rfl
    exact absurd hc (by decide)
  · exact (u.authority_chars c hc).1
  · exact (u.path_chars c hc).1
  · exact u.query_chars c hc

@[simp] theorem cStr_text : cStr u.text = u.text :=
  List.takeWhile_eq_self_iff.mpr fun c hc => by simpa using u.text_chars c hc

theorem ParseUriProtocol_text :
    ParseUriProtocol u.text = some (u.authority ++ (u.path ++ u.query)) := by
  have hsplit : u.text = u.scheme ++ [':', '/', '/'] ++ (u.authority ++ (u.path ++ u.query)) := by
    simp [text, origin]
  rw [hsplit, ParseUriProtocol_scheme u.scheme_chars]

theorem scanAuthority_text :
    scanAuthority (u.authority ++ (u.path ++ u.query)) = u.path ++ u.query := by
  rw [scanAuthority_append u.authority_chars]
  apply scanAuthority_of_mark
  rcases u.path_rooted with hpath | hpath
  · rw [hpath, List.nil_append]
    exact u.query_marked.imp_right Or.inr
  · refine Or.inr (Or.inl ?_)
    rw [List.head?_append, hpath]
    rfl

theorem query_not_in_path : '?' ∉ u.path := fun h => (u.path_chars _ h).2 rfl

/-- What the second scan leaves of the base: the directory, and the query for the search. -/
theorem scanPath_text : ∃ segment, scanPath (u.path ++ u.query) (u.path ++ u.query) =
      (u.query, segment ++ u.query) ∧ u.path = directory u.path ++ segment := by
  rcases u.path_rooted with hpath | hpath
  · refine ⟨[], ?_, by rw [hpath]; rfl⟩
    rw [hpath, List.nil_append, scanPath_query u.query_marked]
  · have hchars : ∀ c ∈ u.path, c ≠ '?' := fun c hc => (u.path_chars c hc).2
    have hslash : '/' ∈ u.path := List.mem_of_head? hpath
    rcases scanPath_directory hchars hslash (u.path ++ u.query) u.query with ⟨segment, hsplit, hscan⟩
    refine ⟨'/' :: segment, ?_, hsplit⟩
    rw [hscan, scanPath_query u.query_marked]

end Url

/-- The part of a text before what the scan has left of it. -/
theorem take_sub_length {α : Type} (before rest : List α) :
    (before ++ rest).take ((before ++ rest).length - rest.length) = before := by
  rw [List.length_append, Nat.add_sub_cancel, List.take_left]

theorem drop_sub_length {α : Type} (before rest : List α) :
    (before ++ rest).drop ((before ++ rest).length - rest.length) = rest := by
  rw [List.length_append, Nat.add_sub_cancel, List.drop_left]

theorem appendParams_text (u : Url) {uri basePtr : List Char}
    (hsearch : strchr '?' basePtr = if u.query = [] then none else some u.query)
    (dst : List Char) (bPropagateUriParams : Bool) :
    appendParams u.text uri basePtr dst bPropagateUriParams =
      dst ++ if bPropagateUriParams ∧ '?' ∉ uri then u.query else [] := by
  have hquery : u.text.drop ((cStr u.text).length - u.query.length) = u.query := by
    rw [u.cStr_text]
    exact drop_sub_length _ _
  unfold appendParams
  by_cases hprop : bPropagateUriParams = true ∧ '?' ∉ uri
  · rw [if_pos (hprop.imp_right strchr_eq_none.mpr), if_pos hprop, hsearch]
    by_cases hnil : u.query = []
    · rw [if_pos hnil, hnil, List.append_nil]
    · rw [if_neg hnil]
      exact congrArg (dst ++ ·) hquery
  · rw [if_neg fun h => hprop (h.imp_right strchr_eq_none.mp), if_neg hprop, List.append_nil]

section

variable {dst base uri : List Char} (hrelative : ParseUriProtocol uri = none)
include hrelative

theorem ResolveURL_relative (hbase : base ≠ []) {basePtr : List Char}
    (hparse : ParseUriProtocol (cStr base) = some basePtr) (bPropagateUriParams : Bool) :
    ResolveURL dst base uri bPropagateUriParams =
      let basePtr := scanAuthority basePtr
      let scanned := if uri.head? ≠ some '/' ∧ uri ≠ [] then scanPath basePtr basePtr
        else (basePtr, basePtr)
      let dst := base.take ((cStr base).length - scanned.2.length)
      let dst := if uri.head? ≠ some '/' then dst ++ ['/'] else dst
      some (appendParams base uri scanned.1 (dst ++ uri) bPropagateUriParams) := by
  simp only [ResolveURL, hrelative, Option.isSome_none, Bool.false_eq_true, if_false, hbase, hparse]

theorem ResolveURL_null (hbase : base ≠ []) (hparse : ParseUriProtocol (cStr base) = none)
    (bPropagateUriParams : Bool) : ResolveURL dst base uri bPropagateUriParams = none := by
  simp only [ResolveURL, hrelative, Option.isSome_none, Bool.false_eq_true, if_false, hbase, hparse]

theorem ResolveURL_empty (bPropagateUriParams : Bool) :
    ResolveURL dst [] uri bPropagateUriParams = some dst := by
  simp only [ResolveURL, hrelative, Option.isSome_none, Bool.false_eq_true, if_false, if_true]

theorem ResolveURL_text (u : Url) (huri : uri ≠ []) (bPropagateUriParams : Bool) :
    ResolveURL dst u.text uri bPropagateUriParams = some (u.resolve uri bPropagateUriParams) := by
  have hparse : ParseUriProtocol (cStr u.text) = some (u.authority ++ (u.path ++ u.query)) := by
    rw [u.cStr_text, u.ParseUriProtocol_text]
  rw [ResolveURL_relative hrelative u.text_ne_nil hparse, u.scanAuthority_text, u.cStr_text]
  by_cases hrooted : uri.head? = some '/'
  · have hsearch : strchr '?' (u.path ++ u.query) =
        if u.query = [] then none else some u.query := by
      rw [strchr_append u.query_not_in_path, strchr_query u.query_marked]
    have horigin : u.text.take (u.text.length - (u.path ++ u.query).length) = u.origin := by
      have hsplit : u.text = u.origin ++ (u.path ++ u.query) := List.append_assoc _ _ _
      rw [hsplit]
      exact take_sub_length _ _
    dsimp only
    rw [if_neg fun h => h.1 hrooted, appendParams_text u hsearch, horigin, if_neg (not_not.mpr hrooted), Url.resolve,
      if_pos hrooted]
  · rcases u.scanPath_text with ⟨segment, hscan, hpath⟩
    have hdirectory : u.text.take (u.text.length - (segment ++ u.query).length) =
        u.origin ++ directory u.path := by
      have hsplit : u.text = (u.origin ++ directory u.path) ++ (segment ++ u.query) := by
        rw [Url.text]
        nth_rewrite 1 [hpath]
        simp
      rw [hsplit]
      exact take_sub_length _ _
    dsimp only
    rw [if_pos ⟨hrooted, huri⟩, hscan, appendParams_text u (strchr_query u.query_marked), hdirectory, if_pos hrooted, Url.resolve,
      if_neg hrooted]
    simp

theorem resolves_ResolveURL_iff (huri : uri ≠ []) (bPropagateUriParams : Bool) :
    Resolves ResolveURL dst base uri bPropagateUriParams ↔
      base = [] ∨ (ParseUriProtocol (cStr base)).isSome := by
  constructor
  · intro h
    by_contra hbad
    rw [not_or, Option.not_isSome_iff_eq_none] at hbad
    exact h.1 (ResolveURL_null hrelative hbad.1 hbad.2 bPropagateUriParams)
  · intro hgood
    constructor
    · by_cases hbase : base = []
      · rw [hbase, ResolveURL_empty hrelative]
        nofun
      · rcases Option.isSome_iff_exists.mp (hgood.resolve_left hbase) with ⟨basePtr, hparse⟩
        rw [ResolveURL_relative hrelative hbase hparse]
        nofun
    · intro u hu
      rw [hu]
      exact ResolveURL_text hrelative u huri bPropagateUriParams

end

/-- For a relative uri, `ResolveURL` and its copy resolve against a base exactly when the base is
empty or starts with a protocol. -/
theorem resolves_iff (dst base : List Char) {uri : List Char} (huri : uri ≠ [])
    (hrelative : ParseUriProtocol uri = none) (bPropagateUriParams : Bool) :
    Resolves ResolveURL dst base uri bPropagateUriParams ∧
        Resolves ClearKeyHelper.resolveURL dst base uri bPropagateUriParams ↔
      base = [] ∨ (ParseUriProtocol (cStr base)).isSome :=
  (and_iff_left_of_imp id).trans (resolves_ResolveURL_iff hrelative huri bPropagateUriParams)

/-- A manifest and a key name, with the query of the manifest. -/
theorem manifest_resolves :
    Resolves ResolveURL [] "http://h/a/m.m3u8?x=/1".toList "k.key".toList true ∧
      Resolves ClearKeyHelper.resolveURL [] "http://h/a/m.m3u8?x=/1".toList "k.key".toList true :=
  have huri : "k.key".toList ≠ [] := by decide
  (resolves_iff [] "http://h/a/m.m3u8?x=/1".toList huri (by decide) true).mpr (Or.inr (by decide))

/-- A base that is a path of the file system. -/
theorem filePath_not_resolves :
    ¬ ∀ dst base uri bPropagateUriParams, uri ≠ [] → ParseUriProtocol uri = none →
      Resolves ResolveURL dst base uri bPropagateUriParams := by
  intro hclaim
  have hreturns := (hclaim [] "/tmp/m.m3u8".toList "k.key".toList true (by decide) (by decide)).1
  exact hreturns (by decide)

/-! ## The scans as searches

What the key acquisition computes of whole texts, the scans compute too. -/

theorem ParseUriProtocol_suffix {uri rest : List Char} (h : ParseUriProtocol uri = some rest) :
    ∃ front, uri = front ++ rest := by
  induction uri with
  | nil => cases h
  | cons c uri ih =>
      rw [ParseUriProtocol.eq_def] at h
      dsimp only at h
      split at h
      · split at h
        · cases h
          exact ⟨[c, '/', '/'], rfl⟩
        · cases h
      · split at h
        · rcases ih h with ⟨front, hfront⟩
          exact ⟨c :: front, congrArg (c :: ·) hfront⟩
        · cases h

theorem scanAuthority_eq (s : List Char) :
    scanAuthority s = s.dropWhile fun c => c != '/' && c != '?' := by
  induction s with
  | nil => rfl
  | cons c s ih =>
      rw [scanAuthority, List.dropWhile_cons, ih]
      by_cases hc : c = '/' ∨ c = '?'
      · rcases hc with rfl | rfl <;> rfl
      · rw [if_neg hc, if_pos (by simpa [not_or] using hc)]

theorem strchr_eq (c : Char) (s : List Char) :
    strchr c s = if c ∈ s then some (s.dropWhile fun d => d != c) else none := by
  induction s with
  | nil => rfl
  | cons d s ih =>
      rw [strchr, List.dropWhile_cons, ih]
      by_cases hd : d = c
      · simp [hd]
      · simp [hd, Ne.symm hd]

theorem dropWhile_marked (c : Char) (s : List Char) :
    (s.dropWhile fun d => d != c) = [] ∨ (s.dropWhile fun d => d != c).head? = some c := by
  induction s with
  | nil => exact Or.inl rfl
  | cons d s ih =>
      rw [List.dropWhile_cons]
      by_cases hd : d = c
      · exact Or.inr (by simp [hd])
      · simpa [hd] using ih

theorem scanPath_eq (baseEnd s : List Char) :
    let path := s.takeWhile fun c => c != '?'
    scanPath baseEnd s = (s.dropWhile fun c => c != '?',
      if '/' ∈ path then s.drop (directory path).length else baseEnd) := by
  intro path
  have hsplit : s = path ++ s.dropWhile fun c => c != '?' := List.takeWhile_append_dropWhile.symm
  have hchars : ∀ c ∈ path, c ≠ '?' := fun c hc => by simpa using List.mem_takeWhile_imp hc
  have hmark := dropWhile_marked '?' s
  generalize (s.dropWhile fun c => c != '?') = query at hsplit hmark
  by_cases hslash : '/' ∈ path
  · rcases scanPath_directory hchars hslash baseEnd query with ⟨segment, hpath, hscan⟩
    have hdrop : s.drop (directory path).length = '/' :: segment ++ query := by
      rw [hsplit]
      nth_rewrite 2 [hpath]
      rw [List.append_assoc, List.drop_left]
    rw [if_pos hslash, hdrop]
    nth_rewrite 1 [hsplit]
    rw [hscan, scanPath_query hmark]
  · have hnone : ∀ c ∈ path, c ≠ '/' ∧ c ≠ '?' :=
      fun c hc => ⟨fun he => hslash (he ▸ hc), hchars c hc⟩
    rw [if_neg hslash]
    nth_rewrite 1 [hsplit]
    rw [scanPath_segment hnone, scanPath_query hmark]

theorem directory_eq (path : List Char) :
    directory path = ((path.reverse.dropWhile fun c => c != '/').drop 1).reverse := by
  induction path with
  | nil => rfl
  | cons c path ih =>
      rw [directory, List.reverse_cons]
      by_cases hslash : '/' ∈ path
      · have hfound : path.reverse.dropWhile (fun c => c != '/') ≠ [] := by
          rw [Ne, List.dropWhile_eq_nil_iff]
          intro hall
          exact absurd (hall '/' (List.mem_reverse.mpr hslash)) (by decide)
        rw [if_pos hslash, ih, List.dropWhile_append, if_neg (by simpa using hfound),
          List.drop_append_of_le_length (List.length_pos_iff.mpr hfound), List.reverse_append]
        rfl
      · have hall : path.reverse.dropWhile (fun c => c != '/') = [] := by
          rw [List.dropWhile_eq_nil_iff]
          intro d hd
          have hne : d ≠ '/' := fun he => hslash (he ▸ List.mem_reverse.mp hd)
          simpa using hne
        rw [if_neg hslash, List.dropWhile_append, hall]
        by_cases hc : c = '/' <;> simp [hc]

theorem path_starts_directory (path : List Char) : directory path <+: path := by
  induction path with
  | nil => exact List.prefix_refl []
  | cons c path ih =>
      rw [directory]
      split
      · exact List.cons_prefix_cons.mpr ⟨rfl, ih⟩
      · exact List.nil_prefix

theorem directory_of_not_mem {path : List Char} (h : '/' ∉ path) : directory path = [] := by
  cases path with
  | nil => rfl
  | cons c path => exact if_neg fun hmem => h (List.mem_cons_of_mem c hmem)

/-- When the mark starts at the cursor, the scan cuts the directory off. -/
theorem scanPath_self (s : List Char) :
    scanPath s s = (s.dropWhile fun c => c != '?',
      s.drop (directory (s.takeWhile fun c => c != '?')).length) := by
  rw [scanPath_eq]
  by_cases hslash : '/' ∈ s.takeWhile fun c => c != '?'
  · rw [if_pos hslash]
  · rw [if_neg hslash, directory_of_not_mem hslash]
    rfl

theorem appendParams_eq (base uri basePtr dst : List Char) (bPropagateUriParams : Bool) :
    let params := basePtr.dropWhile fun c => c != '?'
    appendParams base uri basePtr dst bPropagateUriParams =
      if bPropagateUriParams && !uri.contains '?' && !params.isEmpty then
        dst ++ base.drop ((cStr base).length - params.length)
      else dst := by
  intro params
  have hmem : '?' ∈ basePtr ↔ params ≠ [] := by
    constructor
    · intro hmem hnil
      exact absurd (List.dropWhile_eq_nil_iff.mp hnil '?' hmem) (by decide)
    · intro hne
      have hmark : params.head? = some '?' := (dropWhile_marked '?' basePtr).resolve_left hne
      exact (List.dropWhile_suffix _).subset (List.mem_of_head? hmark)
  unfold appendParams
  rw [strchr_eq '?' basePtr]
  by_cases hprop : bPropagateUriParams = true ∧ '?' ∉ uri
  · rw [if_pos (hprop.imp_right strchr_eq_none.mpr)]
    by_cases hparams : '?' ∈ basePtr
    · rw [if_pos hparams, if_pos (by simpa [hprop] using hmem.mp hparams)]
    · have hnil : params = [] := not_not.mp (mt hmem.mpr hparams)
      rw [if_neg hparams, if_neg (by simp [hnil])]
  · rw [if_neg fun h => hprop (h.imp_right strchr_eq_none.mp), if_neg (by simp; tauto)]

/-- The base in front of what the scan has left, when the scan went on behind a prefix. -/
theorem take_scanned {base path dir rest : List Char} (h : ∃ front, cStr base = front ++ path)
    (hpath : path = dir ++ rest) : base.take ((cStr base).length - rest.length) =
      base.take ((cStr base).length - path.length) ++ dir := by
  rcases h with ⟨front, hfront⟩
  have hbase : base = front ++ (dir ++ (rest ++ base.dropWhile fun c => c != '\x00')) := by
    have hsplit : cStr base ++ (base.dropWhile fun c => c != '\x00') = base :=
      List.takeWhile_append_dropWhile
    rw [hfront, hpath] at hsplit
    simpa using hsplit.symm
  have hlong : (cStr base).length - rest.length = (front ++ dir).length := by
    rw [hfront, hpath]
    simp only [List.length_append]
    omega
  have hshort : (cStr base).length - path.length = front.length := by
    rw [hfront, List.length_append, Nat.add_sub_cancel]
  rw [hlong, hshort, hbase, List.take_left, ← List.append_assoc, List.take_left]

theorem dropWhile_dropWhile (p : Char → Bool) (s : List Char) :
    (s.dropWhile p).dropWhile p = s.dropWhile p := by
  induction s with
  | nil => rfl
  | cons c s ih =>
      rw [List.dropWhile_cons]
      cases hc : p c with
      | true => simpa using ih
      | false => simp [hc]

/-- `ResolveURL` is what the key acquisition resolves its URL with. -/
theorem ResolveURL_eq (dst base uri : List Char) (bPropagateUriParams : Bool) :
    ResolveURL dst base uri bPropagateUriParams =
      Aes.ResolveURL dst base uri bPropagateUriParams := by
  unfold ResolveURL Aes.ResolveURL
  by_cases habs : (ParseUriProtocol uri).isSome = true
  · rw [if_pos habs, if_pos habs]
  · rw [if_neg habs, if_neg habs]
    by_cases hbase : base = []
    · rw [if_pos hbase, if_pos hbase]
    · rw [if_neg hbase, if_neg hbase]
      cases hparse : ParseUriProtocol (cStr base) with
      | none => rfl
      | some authority =>
          have hfront : ∃ front, cStr base =
              front ++ authority.dropWhile fun c => c != '/' && c != '?' := by
            rcases ParseUriProtocol_suffix hparse with ⟨front, hfront⟩
            rcases List.dropWhile_suffix (fun c => c != '/' && c != '?') (l := authority) with
              ⟨skipped, hskipped⟩
            exact ⟨front ++ skipped, by rw [List.append_assoc, hskipped, hfront]⟩
          simp only [scanAuthority_eq, appendParams_eq]
          generalize (authority.dropWhile fun c => c != '/' && c != '?') = path at hfront
          by_cases hrooted : uri.head? = some '/'
          · simp [hrooted, apply_ite some]
          · by_cases hempty : uri = []
            · simp [hempty, apply_ite some]
            · have hprefix : directory (path.takeWhile fun c => c != '?') <+: path :=
                (path_starts_directory _).trans (List.takeWhile_prefix _)
              have hpath := (List.prefix_iff_eq_append.mp hprefix).symm
              simp only [ne_eq, hrooted, hempty, not_false_eq_true, and_self, if_true, scanPath_self,
                take_scanned hfront hpath]
              simp [dropWhile_dropWhile, directory_eq, apply_ite some]

end PlayerInterface.PlayerUtils
