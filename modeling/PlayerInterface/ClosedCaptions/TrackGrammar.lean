import PlayerInterface.ClosedCaptions.Manager

/-!
# The names of caption tracks

`SetTrack` looks at the start of a name and at one character or number behind it. It has no
use for the rest of the name, and for none that starts with a 7, an 8 or a 9.
-/

namespace PlayerInterface.ClosedCaptions

/-! ## The names there are -/

/-- The names with their number and the format they imply. -/
def trackNames : List (List Char × Nat × CCFormat) :=
  (List.range' 1 63).map (fun n => (Nat.toDigits 10 n, n, .eCLOSEDCAPTION_FORMAT_DEFAULT)) ++
    (List.range' 1 4).map (fun n =>
      ("CC".toList ++ Nat.toDigits 10 n, n, .eCLOSEDCAPTION_FORMAT_608)) ++
    (List.range' 1 4).map (fun n =>
      ("TXT".toList ++ Nat.toDigits 10 n, n + 4, .eCLOSEDCAPTION_FORMAT_608)) ++
    (List.range' 1 4).map (fun n =>
      ("TEXT".toList ++ Nat.toDigits 10 n, n + 4, .eCLOSEDCAPTION_FORMAT_608)) ++
    (List.range' 1 63).map (fun n =>
      ("SERVICE".toList ++ Nat.toDigits 10 n, n, .eCLOSEDCAPTION_FORMAT_708))

/-- The format argument, where it says one. -/
def chosenFormat (inferred format : CCFormat) : CCFormat :=
  if format = .eCLOSEDCAPTION_FORMAT_DEFAULT then inferred else format

/-- The channel of a number in a format. -/
def channelOf (trackNum : Nat) : CCFormat → Option Channel
  | .eCLOSEDCAPTION_FORMAT_608 =>
      if 0 < trackNum ∧ trackNum ≤ 8 then some (.analog (GSW_CC_ANALOG_SERVICE_CC1 + (trackNum - 1)))
      else none
  | .eCLOSEDCAPTION_FORMAT_708 =>
      if 0 < trackNum ∧ trackNum ≤ 63 then some (.digital trackNum) else none
  | .eCLOSEDCAPTION_FORMAT_DEFAULT => none

/-- The channel a track is to select. -/
def dueChannel (track : List Char) (format : CCFormat) : Option Channel :=
  (trackNames.find? (·.1 = track)).bind fun name =>
    channelOf name.2.1 (chosenFormat name.2.2 format)

/-- The channel due is selected, and the result says whether there is one. -/
structure SelectsDue (track : List Char) (format : CCFormat) : Prop where
  channel : selectedChannel track format = .ok (dueChannel track format)
  result : ∀ m : CCManager,
    (m.SetTrack track format).2 = some (if (dueChannel track format).isSome then 0 else -1)

/-! ## The condition -/

/-- What is read behind the start of a name is no channel: the leading digits, one character, or the
number behind `SERVICE`, which has to be one that `std::stoul` converts. -/
structure ReadsNone (track : List Char) (format : CCFormat) : Prop where
  digits : ∀ c rest, track = c :: rest → 49 ≤ c.toNat → c.toNat ≤ 54 →
    ∃ n, stoul track = .ok n ∧ channelOf (unsignedInt n) format = none
  cc : ∀ c rest, track = "CC".toList ++ c :: rest →
    channelOf (charNum (some c)) (chosenFormat .eCLOSEDCAPTION_FORMAT_608 format) = none
  txt : ∀ c rest, track = "TXT".toList ++ c :: rest →
    channelOf (unsignedInt (charNum (some c) + 4))
      (chosenFormat .eCLOSEDCAPTION_FORMAT_608 format) = none
  text : ∀ c rest, track = "TEXT".toList ++ c :: rest →
    channelOf (unsignedInt (charNum (some c) + 4))
      (chosenFormat .eCLOSEDCAPTION_FORMAT_608 format) = none
  service : ∀ c rest, track = "SERVICE".toList ++ c :: rest → ∃ n, stoul (c :: rest) = .ok n ∧
    channelOf (unsignedInt n) (chosenFormat .eCLOSEDCAPTION_FORMAT_708 format) = none

/-- A name of the list is not one of the three the first test misses, unless no channel is due;
another name reads as none. -/
def NamesTrack (track : List Char) (format : CCFormat) : Prop :=
  if (trackNames.find? (·.1 = track)).isSome then
    track ∈ [['7'], ['8'], ['9']] → dueChannel track format = none
  else ReadsNone track format

/-! ## The override -/

/-- What the override and the range tests make of a number. -/
theorem selectedChannel_eq (track : List Char) (format : CCFormat) :
    selectedChannel track format =
      (inferTrack track).map fun inferred => channelOf inferred.1 (chosenFormat inferred.2 format) := by
  rw [selectedChannel]
  congr 1
  funext ⟨n, inferred⟩
  cases format <;> cases inferred <;> try rfl
  all_goals
    -- the numbers forced to 0 are those the range test refuses
    by_cases hbig : 8 < n
    · have hno : ¬ (0 < n ∧ n ≤ 8) := by omega
      simp [forceFormat, chosenFormat, channelOf, hbig, hno]
    · simp [forceFormat, chosenFormat, channelOf, hbig]

theorem selectsDue_iff_channel (track : List Char) (format : CCFormat) :
    SelectsDue track format ↔ selectedChannel track format = .ok (dueChannel track format) := by
  constructor
  · exact fun h => h.channel
  · intro h
    refine ⟨h, fun m => ?_⟩
    unfold CCManager.SetTrack
    rw [h]
    cases dueChannel track format <;> rfl

/-! ## The names of the list -/

theorem inferTrack_name : ∀ name ∈ trackNames, name.1 ∉ [['7'], ['8'], ['9']] →
    inferTrack name.1 = .ok name.2 := by
  decide +kernel

theorem inferTrack_missed : ∀ track ∈ [['7'], ['8'], ['9']],
    inferTrack track = .ok (0, .eCLOSEDCAPTION_FORMAT_DEFAULT) := by
  decide

theorem channelOf_zero (format : CCFormat) : channelOf 0 format = none := by
  cases format <;> rfl

/-! ## Other names -/

/-- A start that a name has, read off the test for it. -/
theorem startsWith_iff (start track : List Char) :
    (start.length < track.length && start.isPrefixOf track) = true ↔
      ∃ c rest, track = start ++ c :: rest := by
  rw [Bool.and_eq_true, decide_eq_true_eq, List.isPrefixOf_iff_prefix]
  constructor
  · intro ⟨hlt, rest, hrest⟩
    subst hrest
    cases rest with
    | nil => simp at hlt
    | cons c rest => exact ⟨c, rest, rfl⟩
  · intro ⟨c, rest, htrack⟩
    subst htrack
    exact ⟨by simp, List.prefix_append _ _⟩

theorem map_eq_ok_none {ε α β γ : Type} {x : Except ε α} {f : α → β} {g : β → Option γ} :
    (x.map f).map g = .ok none ↔ ∃ a, x = .ok a ∧ g (f a) = none := by
  cases x with
  | error e =>
      constructor
      · intro h
        cases h
      · intro ⟨a, h, _⟩
        cases h
  | ok a => simp only [Except.map, Except.ok.injEq, exists_eq_left']

theorem chosenFormat_default (format : CCFormat) :
    chosenFormat .eCLOSEDCAPTION_FORMAT_DEFAULT format = format := by
  cases format <;> rfl

/-- Names that start with different letters are different. -/
theorem first_ne {c d : Char} {s t : List Char} (h : c ≠ d) : c :: s ≠ d :: t :=
  fun heq => h (List.cons.inj heq).1

/-- A name that starts with a letter does not start with one of the digits. -/
theorem letter_first {c d : Char} {s t : List Char} (hletter : 54 < c.toNat)
    (h : c :: s = d :: t) : ¬ d.toNat ≤ 54 := by
  obtain ⟨rfl, _⟩ := List.cons.inj h
  omega

/-! ### What is read behind each start -/

theorem inferTrack_digits {c : Char} (rest : List Char) (hlo : 49 ≤ c.toNat) (hhi : c.toNat ≤ 54) :
    inferTrack (c :: rest) =
      (stoul (c :: rest)).map fun n => (unsignedInt n, .eCLOSEDCAPTION_FORMAT_DEFAULT) := by
  rw [inferTrack, if_pos]
  exact decide_eq_true ⟨hlo, hhi⟩

theorem inferTrack_cc (c : Char) (rest : List Char) :
    inferTrack ("CC".toList ++ c :: rest) = .ok (charNum (some c), .eCLOSEDCAPTION_FORMAT_608) := by
  rw [inferTrack, if_neg (by simp), if_pos (by simp)]
  rfl

theorem inferTrack_txt (c : Char) (rest : List Char) :
    inferTrack ("TXT".toList ++ c :: rest) =
      .ok (unsignedInt (charNum (some c) + 4), .eCLOSEDCAPTION_FORMAT_608) := by
  rw [inferTrack, if_neg (by simp), if_neg (by simp), if_pos (by simp)]
  rfl

theorem inferTrack_text (c : Char) (rest : List Char) :
    inferTrack ("TEXT".toList ++ c :: rest) =
      .ok (unsignedInt (charNum (some c) + 4), .eCLOSEDCAPTION_FORMAT_608) := by
  rw [inferTrack, if_neg (by simp), if_neg (by simp), if_neg (by simp), if_pos (by simp)]
  rfl

theorem inferTrack_service (c : Char) (rest : List Char) :
    inferTrack ("SERVICE".toList ++ c :: rest) =
      (stoul (c :: rest)).map fun n => (unsignedInt n, .eCLOSEDCAPTION_FORMAT_708) := by
  rw [inferTrack, if_neg (by simp), if_neg (by simp), if_neg (by simp), if_neg (by simp), if_pos (by simp)]
  rfl

/-- The names that start in one of the five ways, and the others, in which nothing is read. -/
inductive Start : List Char → Prop where
  | digits (c : Char) (rest : List Char) : 49 ≤ c.toNat → c.toNat ≤ 54 → Start (c :: rest)
  | cc (c : Char) (rest : List Char) : Start ("CC".toList ++ c :: rest)
  | txt (c : Char) (rest : List Char) : Start ("TXT".toList ++ c :: rest)
  | text (c : Char) (rest : List Char) : Start ("TEXT".toList ++ c :: rest)
  | service (c : Char) (rest : List Char) : Start ("SERVICE".toList ++ c :: rest)
  | other (track : List Char) :
      (∀ c rest, track = c :: rest → 49 ≤ c.toNat → ¬ c.toNat ≤ 54) →
      (∀ c rest, track ≠ "CC".toList ++ c :: rest) →
      (∀ c rest, track ≠ "TXT".toList ++ c :: rest) →
      (∀ c rest, track ≠ "TEXT".toList ++ c :: rest) →
      (∀ c rest, track ≠ "SERVICE".toList ++ c :: rest) →
      inferTrack track = .ok (0, .eCLOSEDCAPTION_FORMAT_DEFAULT) → Start track

theorem start_cases (track : List Char) : Start track := by
  by_cases h₁ : (track.head?.any fun c => decide (49 ≤ c.toNat ∧ c.toNat ≤ 54)) = true
  · cases track with
    | nil => cases h₁
    | cons c rest =>
        have hc : 49 ≤ c.toNat ∧ c.toNat ≤ 54 := of_decide_eq_true h₁
        exact .digits c rest hc.1 hc.2
  by_cases h₂ : (2 < track.length && "CC".toList.isPrefixOf track) = true
  · obtain ⟨c, rest, rfl⟩ := (startsWith_iff "CC".toList track).mp h₂
    exact .cc c rest
  by_cases h₃ : (3 < track.length && "TXT".toList.isPrefixOf track) = true
  · obtain ⟨c, rest, rfl⟩ := (startsWith_iff "TXT".toList track).mp h₃
    exact .txt c rest
  by_cases h₄ : (4 < track.length && "TEXT".toList.isPrefixOf track) = true
  · obtain ⟨c, rest, rfl⟩ := (startsWith_iff "TEXT".toList track).mp h₄
    exact .text c rest
  by_cases h₅ : (7 < track.length && "SERVICE".toList.isPrefixOf track) = true
  · obtain ⟨c, rest, rfl⟩ := (startsWith_iff "SERVICE".toList track).mp h₅
    exact .service c rest
  have hread : inferTrack track = .ok (0, .eCLOSEDCAPTION_FORMAT_DEFAULT) := by
    rw [inferTrack, if_neg h₁, if_neg h₂, if_neg h₃, if_neg h₄, if_neg h₅]
  have hdigits : ∀ c rest, track = c :: rest → 49 ≤ c.toNat → ¬ c.toNat ≤ 54 := by
    intro c rest htrack hlo hhi
    subst htrack
    exact h₁ (decide_eq_true ⟨hlo, hhi⟩)
  exact .other track hdigits
    (fun c rest heq => h₂ ((startsWith_iff "CC".toList track).mpr ⟨c, rest, heq⟩))
    (fun c rest heq => h₃ ((startsWith_iff "TXT".toList track).mpr ⟨c, rest, heq⟩))
    (fun c rest heq => h₄ ((startsWith_iff "TEXT".toList track).mpr ⟨c, rest, heq⟩))
    (fun c rest heq => h₅ ((startsWith_iff "SERVICE".toList track).mpr ⟨c, rest, heq⟩)) hread

/-- The number read is no channel, for each way to read one. -/
theorem readsNone_iff (track : List Char) (format : CCFormat) :
    ReadsNone track format ↔ selectedChannel track format = .ok none := by
  rw [selectedChannel_eq]
  cases start_cases track with
  | digits c rest hlo hhi =>
      have hletter : ∀ d : Char, 54 < d.toNat → c ≠ d := by
        intro d hd heq
        rw [← heq] at hd
        omega
      have hC : c ≠ 'C' := hletter 'C' (by decide)
      have hT : c ≠ 'T' := hletter 'T' (by decide)
      have hS : c ≠ 'S' := hletter 'S' (by decide)
      rw [inferTrack_digits rest hlo hhi, map_eq_ok_none]
      simp only [chosenFormat_default]
      constructor
      · exact fun h => h.digits c rest rfl hlo hhi
      · intro h
        exact ⟨fun _ _ _ _ _ => h, fun _ _ heq => absurd heq (first_ne hC),
          fun _ _ heq => absurd heq (first_ne hT), fun _ _ heq => absurd heq (first_ne hT),
          fun _ _ heq => absurd heq (first_ne hS)⟩
  | cc c rest =>
      rw [inferTrack_cc]
      constructor
      · exact fun h => congrArg Except.ok (h.cc c rest rfl)
      · intro h
        refine ⟨fun _ _ heq _ hhi => absurd hhi (letter_first (by decide) heq), ?_,
          fun _ _ heq => absurd heq (first_ne (by decide)),
          fun _ _ heq => absurd heq (first_ne (by decide)),
          fun _ _ heq => absurd heq (first_ne (by decide))⟩
        intro d rest' heq
        obtain ⟨rfl, _⟩ := List.cons.inj (List.append_cancel_left heq)
        exact Except.ok.inj h
  | txt c rest =>
      rw [inferTrack_txt]
      constructor
      · exact fun h => congrArg Except.ok (h.txt c rest rfl)
      · intro h
        refine ⟨fun _ _ heq _ hhi => absurd hhi (letter_first (by decide) heq),
          fun _ _ heq => absurd heq (first_ne (by decide)), ?_,
          fun _ _ heq => absurd (List.cons.inj heq).2 (first_ne (by decide)),
          fun _ _ heq => absurd heq (first_ne (by decide))⟩
        intro d rest' heq
        obtain ⟨rfl, _⟩ := List.cons.inj (List.append_cancel_left heq)
        exact Except.ok.inj h
  | text c rest =>
      rw [inferTrack_text]
      constructor
      · exact fun h => congrArg Except.ok (h.text c rest rfl)
      · intro h
        refine ⟨fun _ _ heq _ hhi => absurd hhi (letter_first (by decide) heq),
          fun _ _ heq => absurd heq (first_ne (by decide)),
          fun _ _ heq => absurd (List.cons.inj heq).2 (first_ne (by decide)), ?_,
          fun _ _ heq => absurd heq (first_ne (by decide))⟩
        intro d rest' heq
        obtain ⟨rfl, _⟩ := List.cons.inj (List.append_cancel_left heq)
        exact Except.ok.inj h
  | service c rest =>
      rw [inferTrack_service, map_eq_ok_none]
      constructor
      · exact fun h => h.service c rest rfl
      · intro h
        refine ⟨fun _ _ heq _ hhi => absurd hhi (letter_first (by decide) heq),
          fun _ _ heq => absurd heq (first_ne (by decide)),
          fun _ _ heq => absurd heq (first_ne (by decide)),
          fun _ _ heq => absurd heq (first_ne (by decide)), ?_⟩
        intro d rest' heq
        obtain ⟨rfl, rfl⟩ := List.cons.inj (List.append_cancel_left heq)
        exact h
  | other track hdigits hcc htxt htext hservice hread =>
      rw [hread]
      constructor
      · exact fun _ => congrArg Except.ok (channelOf_zero _)
      · intro _
        exact ⟨fun c rest heq hlo hhi => absurd hhi (hdigits c rest heq hlo),
          fun c rest heq => absurd heq (hcc c rest), fun c rest heq => absurd heq (htxt c rest),
          fun c rest heq => absurd heq (htext c rest),
          fun c rest heq => absurd heq (hservice c rest)⟩

/-- The channel due is selected exactly for these names. -/
theorem selectsDue_iff (track : List Char) (format : CCFormat) :
    SelectsDue track format ↔ NamesTrack track format := by
  rw [selectsDue_iff_channel, NamesTrack]
  cases hname : trackNames.find? (·.1 = track) with
  | none =>
      have hdue : dueChannel track format = none := by rw [dueChannel, hname]; rfl
      rw [hdue, ← readsNone_iff]
      rfl
  | some name =>
      have hmem := List.mem_of_find?_eq_some hname
      have htrack : name.1 = track := by simpa using List.find?_some hname
      have hdue : dueChannel track format =
          channelOf name.2.1 (chosenFormat name.2.2 format) := by rw [dueChannel, hname]; rfl
      rw [Option.isSome_some, if_pos rfl, selectedChannel_eq]
      by_cases hmissed : track ∈ [['7'], ['8'], ['9']]
      · rw [inferTrack_missed track hmissed]
        simp only [Except.map, channelOf_zero, Except.ok.injEq, hmissed, true_implies, eq_comm]
      · have hread := inferTrack_name name hmem (by rw [htrack]; exact hmissed)
        rw [htrack] at hread
        rw [hread, hdue]
        simp only [Except.map, hmissed, false_implies]

/-- `CC5` is no name, yet selects a channel of the text services. -/
theorem CC5_selected :
    ¬ SelectsDue "CC5".toList .eCLOSEDCAPTION_FORMAT_DEFAULT := by
  rw [selectsDue_iff_channel]
  decide

end PlayerInterface.ClosedCaptions
