import PlayerInterface.Player.TrackCount

/-!
# When the number of tracks is right

What a call of `ConfigurePipeline` does with one track is known from the state before
it and from the call: whether the track is counted, whether its stream is closed for
trick play, and whether its set-up is reached.
-/

namespace PlayerInterface.Player

open PlayerInterface.Core

namespace TrackState

def isOpen (s : TrackState) (i : GstMediaType) : Bool := decide (s.format i ≠ .invalid)

def openStreams (s : TrackState) : Nat := GstMediaType.tracks.countP s.isOpen

def SingleTrack (s : TrackState) : Prop := ∃ i, ∀ j, s.isOpen j = true ↔ j = i

/-- The count is that of the streams with a format, and the first audio frame alone
completes a tune exactly with a single one of them. -/
structure CountAgrees (s : TrackState) : Prop where
  count : s.NumberOfTracks = s.openStreams
  audioOnly : s.notifyFirstBuffer false false true = true ↔ s.SingleTrack

/-! ### What a call does with one track -/

def counted (s : TrackState) (call : ConfigureCall) (i : GstMediaType) : Bool :=
  decide (s.format i ≠ call.newFormat i) && decide (call.newFormat i ≠ .invalid)

def closed (s : TrackState) (call : ConfigureCall) (i : GstMediaType) : Bool :=
  call.forTrickplay (s.playRate call) && decide (i ≠ .video)

/-- `configureStream` after the first loop. -/
def configured (s : TrackState) (call : ConfigureCall) (i : GstMediaType) : Bool :=
  (if call.forTrickplay (s.playRate call) then decide (i = .video) else s.counted call i) ||
    call.bESChangeStatus && decide (i = .audio)

/-- The stream is to be set up with a format. -/
def refilled (s : TrackState) (call : ConfigureCall) (i : GstMediaType) : Bool :=
  s.configured call i && decide (call.newFormat i ≠ .invalid)

end TrackState

/-- The tracks of a loop before this one. -/
def GstMediaType.before (l : List GstMediaType) (i : GstMediaType) : List GstMediaType :=
  l.takeWhile fun j => decide (j ≠ i)

/-- The second loop sets the stream up: it is to be refilled, or it is the audio stream
of a trick teardown that no earlier set-up has used up. -/
def rebuilt (refilled : GstMediaType → Bool) (trickTeardown : Bool) (l : List GstMediaType)
    (i : GstMediaType) : Bool :=
  refilled i || trickTeardown && decide (i = .audio) &&
    (GstMediaType.before l .audio).all fun j => !refilled j

/-- No earlier set-up has ended the second loop. -/
def reached (setUp refilled : GstMediaType → Bool) (trickTeardown : Bool)
    (l : List GstMediaType) (i : GstMediaType) : Bool :=
  (GstMediaType.before l i).all fun j =>
    !(rebuilt refilled trickTeardown l j && !setUp j && decide (j ≠ .subtitle))

namespace TrackState

/-- The call sets the stream up. -/
def setsUp (s : TrackState) (call : ConfigureCall) (i : GstMediaType) : Bool :=
  rebuilt (s.refilled call) s.trickTeardown GstMediaType.tracks i &&
    reached call.setUp (s.refilled call) s.trickTeardown GstMediaType.tracks i

/-- The stream has a format after the call. -/
def endsOpen (s : TrackState) (call : ConfigureCall) (i : GstMediaType) : Bool :=
  if s.setsUp call i then decide (call.newFormat i ≠ .invalid)
  else !s.closed call i && s.isOpen i

/-- A track that is counted had no stream and gets one; one that is not counted keeps
the stream it has. -/
structure KeepsTrack (s : TrackState) (call : ConfigureCall) (i : GstMediaType) : Prop where
  counted : s.counted call i = true → s.format i = .invalid ∧ s.setsUp call i = true
  uncounted : s.counted call i = false → s.format i ≠ .invalid →
    if s.setsUp call i then call.newFormat i ≠ .invalid else s.closed call i = false

instance (s : TrackState) (call : ConfigureCall) (i : GstMediaType) :
    Decidable (s.KeepsTrack call i) :=
  decidable_of_iff
    ((s.counted call i = true → s.format i = .invalid ∧ s.setsUp call i = true) ∧
      (s.counted call i = false → s.format i ≠ .invalid →
        if s.setsUp call i then call.newFormat i ≠ .invalid else s.closed call i = false))
    ⟨fun h => ⟨h.1, h.2⟩, fun h => ⟨h.counted, h.uncounted⟩⟩

/-- A call that makes a new pipeline out of half of an old one counts from 0. -/
def KeepsCount (s : TrackState) : TrackAct → Prop
  | .ConfigurePipeline call =>
      if s.pipeline = s.bus then ∀ i ∈ GstMediaType.tracks, s.KeepsTrack call i
      else GstMediaType.tracks.countP (s.counted call) =
        GstMediaType.tracks.countP (s.endsOpen call)
  | .TearDownStream type => s.format type = .invalid
  | _ => True

instance (s : TrackState) (a : TrackAct) : Decidable (s.KeepsCount a) :=
  match a with
  | .ConfigurePipeline call =>
      inferInstanceAs (Decidable (if s.pipeline = s.bus then
        ∀ i ∈ GstMediaType.tracks, s.KeepsTrack call i
        else GstMediaType.tracks.countP (s.counted call) =
          GstMediaType.tracks.countP (s.endsOpen call)))
  | .TearDownStream type => inferInstanceAs (Decidable (s.format type = .invalid))
  | .Stop => inferInstanceAs (Decidable True)
  | .SetTrickTearDown _ => inferInstanceAs (Decidable True)
  | .setRate _ => inferInstanceAs (Decidable True)

end TrackState

namespace TrackState

/-! ### The first loop -/

theorem TearDownStream_eq (s : TrackState) (i : GstMediaType) :
    s.TearDownStream i = { s with format := Function.update s.format i .invalid } := by
  unfold TearDownStream
  split
  case isTrue => rfl
  case isFalse h =>
      have hsame : Function.update s.format i .invalid = s.format := by
        rw [← not_not.mp h]
        exact Function.update_eq_self i s.format
      rw [hsame]

/-- The first loop for one track. -/
structure Decides (call : ConfigureCall) (s : TrackState) (f : GstMediaType → Bool)
    (i : GstMediaType) (r : TrackState × (GstMediaType → Bool)) : Prop where
  count : r.1.NumberOfTracks = s.NumberOfTracks + if s.counted call i then 1 else 0
  format : r.1.format =
    if s.closed call i then Function.update s.format i .invalid else s.format
  rate : r.1.rate = s.rate
  trickTeardown : r.1.trickTeardown = s.trickTeardown
  configured : r.2 = Function.update f i (s.configured call i)

theorem decideStream_decides (call : ConfigureCall) (s : TrackState) (f : GstMediaType → Bool)
    (i : GstMediaType) (hrate : s.playRate call = s.rate) (hf : f i = false) :
    Decides call s f i (decideStream call (s, f) i) := by
  have hcount : (if s.counted call i = true then
      ({ s with NumberOfTracks := s.NumberOfTracks + 1 }, Function.update f i true)
      else (s, f)) =
      ({ s with NumberOfTracks := s.NumberOfTracks + if s.counted call i then 1 else 0 },
        Function.update f i (s.counted call i)) := by
    cases s.counted call i with
    | true => rfl
    | false =>
        have hsame : Function.update f i false = f := by
          rw [← hf]
          exact Function.update_eq_self i f
        simp [hsame]
  -- the forced reconfiguration of the audio stream
  have hforce : ∀ (u : TrackState) (g : GstMediaType → Bool),
      (if (!g i && call.bESChangeStatus && decide (i = .audio)) = true then
        (u, Function.update g i true) else (u, g)) =
      (u, Function.update g i (g i || call.bESChangeStatus && decide (i = .audio))) := by
    intro u g
    have hsame : Function.update g i (g i) = g := Function.update_eq_self i g
    rw [Bool.and_assoc]
    generalize (call.bESChangeStatus && decide (i = .audio)) = forced
    cases hg : g i with
    | true =>
        rw [hg] at hsame
        simp [hsame]
    | false =>
        rw [hg] at hsame
        cases forced <;> simp [hsame]
  unfold decideStream
  have hcounted : (decide (s.format i ≠ call.newFormat i) &&
      decide (call.newFormat i ≠ .invalid)) = s.counted call i := rfl
  simp only [hcounted, hcount]
  cases htrick : call.forTrickplay s.rate with
  | false =>
      simp only [Bool.false_eq_true, if_false, hforce]
      constructor <;> simp [closed, configured, hrate, htrick]
  | true =>
      by_cases hvideo : i = .video
      · simp only [if_true, if_pos hvideo, hforce]
        constructor <;> simp [closed, configured, hrate, htrick, hvideo]
      · simp only [if_true, if_neg hvideo, hforce, TearDownStream_eq]
        constructor <;> simp [closed, configured, hrate, htrick, hvideo]

/-- The first loop for a list of tracks. -/
structure DecidesAll (call : ConfigureCall) (s : TrackState) (f : GstMediaType → Bool)
    (l : List GstMediaType) (r : TrackState × (GstMediaType → Bool)) : Prop where
  count : r.1.NumberOfTracks = s.NumberOfTracks + l.countP (s.counted call)
  format : ∀ i, r.1.format i =
    if i ∈ l ∧ s.closed call i = true then .invalid else s.format i
  trickTeardown : r.1.trickTeardown = s.trickTeardown
  configured : ∀ i ∈ l, r.2 i = s.configured call i
  others : ∀ i, i ∉ l → r.2 i = f i

theorem decideStreams_decides (call : ConfigureCall) (l : List GstMediaType) (hl : l.Nodup)
    (s : TrackState) (f : GstMediaType → Bool) (hrate : s.playRate call = s.rate)
    (hf : ∀ i ∈ l, f i = false) :
    DecidesAll call s f l (l.foldl (decideStream call) (s, f)) := by
  induction l generalizing s f with
  | nil => exact ⟨rfl, fun i => by simp, rfl, by simp, fun _ _ => rfl⟩
  | cons i l ih =>
      rw [List.nodup_cons] at hl
      have hone := decideStream_decides call s f i hrate (hf i List.mem_cons_self)
      rw [List.foldl_cons]
      generalize decideStream call (s, f) i = r at hone
      rcases r with ⟨u, g⟩
      have hconfig : g = Function.update f i (s.configured call i) := hone.configured
      have hne : ∀ {j}, j ∈ l → j ≠ i := fun hj heq => hl.1 (heq ▸ hj)
      have hformat : ∀ j, j ≠ i → u.format j = s.format j := by
        intro j hj
        rw [hone.format]
        split
        · exact Function.update_of_ne hj _ _
        · rfl
      have hplay : u.playRate call = s.playRate call := by
        unfold playRate
        rw [hone.rate]
      have hcounted : ∀ j, j ≠ i → u.counted call j = s.counted call j := by
        intro j hj
        unfold counted
        rw [hformat j hj]
      have hclosed : ∀ j, u.closed call j = s.closed call j := by
        intro j
        unfold closed
        rw [hplay]
      have hconfigured : ∀ j, j ≠ i → u.configured call j = s.configured call j := by
        intro j hj
        unfold configured
        rw [hplay, hcounted j hj]
      have hg : ∀ j, j ≠ i → g j = f j := by
        intro j hj
        rw [hconfig]
        exact Function.update_of_ne hj _ _
      have hrest := ih hl.2 u g (hplay.trans (hrate.trans hone.rate.symm)) fun j hj =>
        (hg j (hne hj)).trans (hf j (List.mem_cons_of_mem i hj))
      constructor
      · have hsame : l.countP (u.counted call) = l.countP (s.counted call) :=
          List.countP_congr fun j hj => by rw [hcounted j (hne hj)]
        rw [hrest.count, hone.count, hsame, List.countP_cons]
        omega
      · intro j
        rw [hrest.format, hclosed]
        by_cases hj : j = i
        · subst hj
          rw [if_neg fun h => hl.1 h.1, hone.format]
          cases s.closed call j <;> simp
        · rw [hformat j hj]
          simp [hj]
      · exact hrest.trickTeardown.trans hone.trickTeardown
      · intro j hj
        rcases List.mem_cons.mp hj with rfl | hj
        · rw [hrest.others j hl.1, hconfig]
          exact Function.update_self _ _ _
        · exact (hrest.configured j hj).trans (hconfigured j (hne hj))
      · intro j hj
        rw [List.mem_cons, not_or] at hj
        exact (hrest.others j hj.2).trans (hg j hj.1)

/-! ### The second loop -/

theorem setupStreams_count (call : ConfigureCall) (configureStream : GstMediaType → Bool)
    (l : List GstMediaType) (s : TrackState) :
    (setupStreams call configureStream l s).NumberOfTracks = s.NumberOfTracks := by
  induction l generalizing s with
  | nil => rfl
  | cons i l ih =>
      unfold setupStreams
      rw [TearDownStream_eq]
      split
      · split
        · rfl
        · exact ih _
      · exact ih s

/-- What a track of the loop does to the decision about a later one. -/
theorem rebuilt_cons {refilled : GstMediaType → Bool} {trickTeardown : Bool}
    {l : List GstMediaType} {i j : GstMediaType} (hij : i ≠ j) :
    rebuilt refilled trickTeardown (j :: l) i =
      rebuilt refilled (trickTeardown && !rebuilt refilled trickTeardown (j :: l) j) l i := by
  unfold rebuilt GstMediaType.before
  by_cases hi : i = .audio
  · subst hi
    have hj : j ≠ .audio := fun h => hij h.symm
    simp [hj]
    cases refilled j <;> simp
  · simp [hi]

theorem reached_self {setUp refilled : GstMediaType → Bool} {trickTeardown : Bool}
    {l : List GstMediaType} {i : GstMediaType} :
    reached setUp refilled trickTeardown (i :: l) i = true := by
  unfold reached GstMediaType.before
  simp

theorem reached_cons {setUp refilled : GstMediaType → Bool} {trickTeardown : Bool}
    {l : List GstMediaType} {i j : GstMediaType} (hij : i ≠ j) (hj : j ∉ l) :
    reached setUp refilled trickTeardown (j :: l) i =
      (!(rebuilt refilled trickTeardown (j :: l) j && !setUp j && decide (j ≠ .subtitle)) &&
        reached setUp refilled (trickTeardown && !rebuilt refilled trickTeardown (j :: l) j) l i) := by
  unfold reached
  have hbefore : GstMediaType.before (j :: l) i = j :: GstMediaType.before l i := by
    unfold GstMediaType.before
    simp [Ne.symm hij]
  rw [hbefore, List.all_cons]
  congr 1
  have hlater : ∀ k ∈ GstMediaType.before l i, rebuilt refilled trickTeardown (j :: l) k =
      rebuilt refilled (trickTeardown && !rebuilt refilled trickTeardown (j :: l) j) l k := by
    intro k hk
    have hkl : k ∈ l := (List.takeWhile_sublist _).subset hk
    exact rebuilt_cons fun h => hj (h ▸ hkl)
  rw [Bool.eq_iff_iff, List.all_eq_true, List.all_eq_true]
  exact forall₂_congr fun k hk => by rw [hlater k hk]

/-- The formats that the second loop leaves. -/
theorem setupStreams_format (call : ConfigureCall) (configureStream : GstMediaType → Bool)
    (refilled : GstMediaType → Bool) (l : List GstMediaType) (hl : l.Nodup) (s : TrackState)
    (hrefilled : ∀ i ∈ l, refilled i = (configureStream i && decide (call.newFormat i ≠ .invalid)))
    (i : GstMediaType) :
    (setupStreams call configureStream l s).format i =
      if i ∈ l ∧ rebuilt refilled s.trickTeardown l i = true ∧
          reached call.setUp refilled s.trickTeardown l i = true then call.newFormat i
      else s.format i := by
  induction l generalizing s with
  | nil => simp [setupStreams]
  | cons j l ih =>
      rw [List.nodup_cons] at hl
      have ih := fun s => ih hl.2 s fun i hi => hrefilled i (List.mem_cons_of_mem j hi)
      have hself : rebuilt refilled s.trickTeardown (j :: l) j =
          (configureStream j && decide (call.newFormat j ≠ .invalid) ||
            s.trickTeardown && decide (j = .audio)) := by
        unfold rebuilt GstMediaType.before
        rw [hrefilled j List.mem_cons_self]
        by_cases ha : j = .audio
        · subst ha
          simp
        · simp [ha]
      unfold setupStreams
      rw [← hself, TearDownStream_eq]
      cases hre : rebuilt refilled s.trickTeardown (j :: l) j with
      | false =>
          simp only [Bool.false_eq_true, if_false]
          rw [ih s]
          by_cases hij : i = j
          · subst hij
            rw [if_neg fun h => hl.1 h.1, if_neg fun h => by rw [hre] at h; cases h.2.1]
          · rw [rebuilt_cons hij, reached_cons hij hl.1, hre]
            simp [hij]
      | true =>
          simp only [if_true]
          cases hfails : !call.setUp j && decide (j ≠ .subtitle) with
          | true =>
              simp only [if_true]
              by_cases hij : i = j
              · subst hij
                rw [if_pos ⟨List.mem_cons_self, hre, reached_self⟩]
                exact Function.update_self _ _ _
              · rw [reached_cons hij hl.1, hre, Bool.true_and, hfails]
                simp [hij]
          | false =>
              simp only [Bool.false_eq_true, if_false]
              rw [ih]
              by_cases hij : i = j
              · subst hij
                rw [if_neg fun h => hl.1 h.1, if_pos ⟨List.mem_cons_self, hre, reached_self⟩]
                exact Function.update_self _ _ _
              · rw [rebuilt_cons hij, reached_cons hij hl.1, hre, Bool.true_and, hfails]
                simp [hij]

end TrackState

/-! ### Counting -/

theorem countP_le_add {α : Type} {p q r : α → Bool} {l : List α}
    (h : ∀ i ∈ l, p i = true → q i = true ∨ r i = true) :
    l.countP p ≤ l.countP q + l.countP r := by
  induction l with
  | nil => exact Nat.le_refl 0
  | cons i l ih =>
      have hrest := ih fun j hj => h j (List.mem_cons_of_mem i hj)
      have hi := h i List.mem_cons_self
      simp only [List.countP_cons]
      cases hp : p i with
      | false => simp only [Bool.false_eq_true, if_false]; omega
      | true =>
          rcases hi hp with hq | hr
          · simp only [hq, if_true]; omega
          · simp only [hr, if_true]; omega

/-- Where each member counted on the left is counted on the right, the counts are equal
exactly when each one is counted as often on both sides. -/
theorem countP_add_eq_iff {α : Type} {p q r : α → Bool} {l : List α}
    (h : ∀ i ∈ l, p i = true → q i = true ∨ r i = true) :
    l.countP q + l.countP r = l.countP p ↔
      ∀ i ∈ l, (q i = true ∨ r i = true → p i = true) ∧ ¬ (q i = true ∧ r i = true) := by
  induction l with
  | nil => simp
  | cons i l ih =>
      have hrest : ∀ j ∈ l, p j = true → q j = true ∨ r j = true :=
        fun j hj => h j (List.mem_cons_of_mem i hj)
      have hle := countP_le_add hrest
      have hi := h i List.mem_cons_self
      rw [List.forall_mem_cons, ← ih hrest]
      clear ih hrest h
      simp only [List.countP_cons]
      cases hp : p i <;> cases hq : q i <;> cases hr : r i <;>
        simp [hp, hq, hr] at hi ⊢ <;> omega

theorem GstMediaType.mem_tracks (i : GstMediaType) : i ∈ GstMediaType.tracks := by
  cases i <;> decide

theorem GstMediaType.tracks_nodup : GstMediaType.tracks.Nodup := by decide

namespace TrackState

/-! ### A whole call -/

/-- The state the first loop starts from. -/
structure Begins (s u : TrackState) (call : ConfigureCall) : Prop where
  format : u.format = s.format
  trickTeardown : u.trickTeardown = s.trickTeardown
  rate : u.rate = s.playRate call
  count : u.NumberOfTracks = if s.pipeline = s.bus then s.NumberOfTracks else 0

theorem CreatePipeline_begins (s : TrackState) (call : ConfigureCall) :
    Begins s (if !s.pipeline || !s.bus then
      CreatePipeline { s with rate := s.playRate call } call
      else { s with rate := s.playRate call }) call := by
  unfold CreatePipeline DestroyPipeline
  cases hp : s.pipeline <;> cases hb : s.bus <;>
    exact ⟨rfl, rfl, rfl, by simp [hp, hb]⟩

theorem Begins.playRate {s u : TrackState} {call : ConfigureCall} (h : Begins s u call) :
    u.playRate call = s.playRate call := by
  have hrate := h.rate
  unfold TrackState.playRate at hrate ⊢
  rw [hrate]
  split <;> rfl

theorem ConfigurePipeline_spec (s : TrackState) (call : ConfigureCall) :
    (∀ i, (s.ConfigurePipeline call).format i =
      if s.setsUp call i then call.newFormat i
      else if s.closed call i then .invalid else s.format i) ∧
    (s.ConfigurePipeline call).NumberOfTracks =
      (if s.pipeline = s.bus then s.NumberOfTracks else 0) +
        GstMediaType.tracks.countP (s.counted call) := by
  have hbegins := CreatePipeline_begins s call
  have hunfold : s.ConfigurePipeline call =
      (fun u => (fun r => setupStreams call r.2 GstMediaType.tracks r.1)
        (GstMediaType.tracks.foldl (decideStream call) (u, fun _ => false)))
      (if !s.pipeline || !s.bus then CreatePipeline { s with rate := s.playRate call } call
        else { s with rate := s.playRate call }) := rfl
  rw [hunfold]
  generalize (if !s.pipeline || !s.bus then CreatePipeline { s with rate := s.playRate call } call
    else { s with rate := s.playRate call }) = u at hbegins
  dsimp only
  have hdecides := decideStreams_decides call GstMediaType.tracks GstMediaType.tracks_nodup u
    (fun _ => false) (hbegins.playRate.trans hbegins.rate.symm) fun _ _ => rfl
  generalize GstMediaType.tracks.foldl (decideStream call) (u, fun _ => false) = r at hdecides
  have hcounted : u.counted call = s.counted call := by
    funext i
    unfold counted
    rw [hbegins.format]
  have hclosed : ∀ i, u.closed call i = s.closed call i := by
    intro i
    unfold closed
    rw [hbegins.playRate]
  have hconfigured : ∀ i, u.configured call i = s.configured call i := by
    intro i
    unfold configured
    rw [hbegins.playRate, hcounted]
  constructor
  · intro i
    rw [setupStreams_format call r.2 (s.refilled call) _ GstMediaType.tracks_nodup r.1]
    · rw [hdecides.format, hdecides.trickTeardown, hbegins.trickTeardown, hclosed, hbegins.format]
      simp only [GstMediaType.mem_tracks, true_and, setsUp, Bool.and_eq_true]
    · intro j hj
      unfold refilled
      rw [hdecides.configured j hj, hconfigured]
  · rw [setupStreams_count, hdecides.count, hbegins.count, hcounted]

theorem ConfigurePipeline_isOpen (s : TrackState) (call : ConfigureCall) :
    (s.ConfigurePipeline call).isOpen = s.endsOpen call := by
  funext i
  unfold isOpen endsOpen
  rw [(ConfigurePipeline_spec s call).1 i]
  cases s.setsUp call i <;> cases s.closed call i <;> simp [isOpen]

/-- A stream that ends with a format had one or was counted. -/
theorem endsOpen_cases {s : TrackState} {call : ConfigureCall} {i : GstMediaType}
    (h : s.endsOpen call i = true) : s.isOpen i = true ∨ s.counted call i = true := by
  by_cases hopen : s.isOpen i = true
  · exact .inl hopen
  · unfold endsOpen at h
    have hnone : s.format i = .invalid := by simpa [isOpen] using hopen
    split at h
    · refine .inr ?_
      have hnew := of_decide_eq_true h
      simp [counted, hnone, hnew, Ne.symm hnew]
    · simp [hopen] at h

theorem keepsTrack_iff (s : TrackState) (call : ConfigureCall) (i : GstMediaType) :
    s.KeepsTrack call i ↔
      (s.isOpen i = true ∨ s.counted call i = true → s.endsOpen call i = true) ∧
        ¬ (s.isOpen i = true ∧ s.counted call i = true) := by
  have hopen : s.isOpen i = true ↔ s.format i ≠ .invalid := decide_eq_true_iff
  constructor
  · intro h
    have hboth : ¬ (s.isOpen i = true ∧ s.counted call i = true) := fun hboth =>
      hopen.mp hboth.1 (h.counted hboth.2).1
    refine ⟨fun heither => ?_, hboth⟩
    unfold endsOpen
    cases hc : s.counted call i with
    | true =>
        rw [if_pos (h.counted hc).2]
        exact (Bool.and_eq_true_iff.mp hc).2
    | false =>
        have hwas := heither.resolve_right (by simp [hc])
        have hkept := h.uncounted hc (hopen.mp hwas)
        split at hkept
        case isTrue hset =>
            rw [if_pos hset]
            exact decide_eq_true hkept
        case isFalse hset =>
            rw [if_neg hset, hkept, hwas]
            rfl
  · intro h
    constructor
    · intro hc
      have hnone : s.format i = .invalid := by
        by_contra hwas
        exact h.2 ⟨hopen.mpr hwas, hc⟩
      refine ⟨hnone, ?_⟩
      have hends := h.1 (.inr hc)
      unfold endsOpen at hends
      by_contra hset
      rw [if_neg hset] at hends
      exact hopen.mp (Bool.and_eq_true_iff.mp hends).2 hnone
    · intro _ hwas
      have hends := h.1 (.inl (hopen.mpr hwas))
      unfold endsOpen at hends
      split at hends
      case isTrue hset =>
          rw [if_pos hset]
          exact of_decide_eq_true hends
      case isFalse hset =>
          rw [if_neg hset]
          simpa using (Bool.and_eq_true_iff.mp hends).1

/-! ### A step -/

theorem singleTrack_iff (s : TrackState) : s.openStreams = 1 ↔ s.SingleTrack := by
  unfold openStreams
  rw [List.countP_eq_length_filter, List.length_eq_one_iff]
  have hmem : ∀ j, j ∈ GstMediaType.tracks.filter s.isOpen ↔ s.isOpen j = true := by
    intro j
    rw [List.mem_filter]
    exact and_iff_right (GstMediaType.mem_tracks j)
  constructor
  · intro h
    rcases h with ⟨i, hi⟩
    refine ⟨i, fun j => ?_⟩
    rw [← hmem j, hi, List.mem_singleton]
  · intro h
    rcases h with ⟨i, hi⟩
    refine ⟨i, ?_⟩
    have hnodup : (GstMediaType.tracks.filter s.isOpen).Nodup :=
      GstMediaType.tracks_nodup.filter _
    apply List.Perm.eq_singleton
    rw [List.perm_ext_iff_of_nodup hnodup (by simp)]
    intro j
    rw [hmem j, hi j, List.mem_singleton]

theorem countAgrees_iff (s : TrackState) :
    s.CountAgrees ↔ s.NumberOfTracks = s.openStreams := by
  constructor
  · exact fun h => h.count
  · intro h
    refine ⟨h, ?_⟩
    rw [← singleTrack_iff, ← h]
    simp [notifyFirstBuffer]

theorem openStreams_eq_zero {s : TrackState} (h : ∀ i, s.format i = .invalid) :
    s.openStreams = 0 := by
  unfold openStreams
  rw [List.countP_eq_zero]
  exact fun i _ => by simp [isOpen, h i]

/-- A stream with a format is one stream less when it is torn down. -/
theorem TearDownStream_openStreams {s : TrackState} {type : GstMediaType}
    (h : s.format type ≠ .invalid) :
    (s.TearDownStream type).openStreams + 1 = s.openStreams := by
  have hone : GstMediaType.tracks.countP (fun i => decide (i = type)) = 1 := by
    cases type <;> decide
  have hafter : ∀ i, (s.TearDownStream type).isOpen i = (s.isOpen i && decide (i ≠ type)) := by
    intro i
    unfold isOpen
    rw [TearDownStream_eq]
    by_cases hi : i = type
    · subst hi
      simp
    · simp [hi]
  unfold openStreams
  rw [← hone]
  apply (countP_add_eq_iff _).mpr
  · intro i _
    rw [hafter i]
    by_cases hi : i = type
    · subst hi
      simp [isOpen, h]
    · simp [hi]
  · intro i _ hopen
    rw [hafter i, hopen]
    by_cases hi : i = type <;> simp [hi]

theorem Stop_spec (s : TrackState) :
    (∀ i, s.Stop.format i = .invalid) ∧ s.Stop.NumberOfTracks = 0 := by
  refine ⟨fun i => ?_, rfl⟩
  show (GstMediaType.tracks.foldl TearDownStream s).format i = .invalid
  simp only [GstMediaType.tracks, List.foldl_cons, List.foldl_nil, TearDownStream_eq]
  cases i <;> simp

theorem step_agrees_iff {s t : TrackState} {a : TrackAct} (h : s.CountAgrees)
    (hstep : s.step a = some t) : t.CountAgrees ↔ s.KeepsCount a := by
  have hcount := (countAgrees_iff s).mp h
  cases a with
  | ConfigurePipeline call =>
      cases hstep
      have hspec := (ConfigurePipeline_spec s call).2
      rw [countAgrees_iff, openStreams, ConfigurePipeline_isOpen, hspec]
      unfold KeepsCount
      by_cases hpipeline : s.pipeline = s.bus
      · simp only [if_pos hpipeline]
        rw [hcount, openStreams, countP_add_eq_iff fun i _ => endsOpen_cases]
        exact forall₂_congr fun i _ => (keepsTrack_iff s call i).symm
      · simp only [if_neg hpipeline, Nat.zero_add]
  | TearDownStream type =>
      cases hstep
      rw [countAgrees_iff]
      by_cases hnone : s.format type = .invalid
      · have hsame : s.TearDownStream type = s := by
          unfold TearDownStream
          rw [if_neg (not_not.mpr hnone)]
        rw [hsame]
        exact iff_of_true hcount hnone
      · have hless := TearDownStream_openStreams hnone
        refine iff_of_false (fun hagrees => ?_) hnone
        have hsame : (s.TearDownStream type).NumberOfTracks = s.NumberOfTracks := by
          rw [TearDownStream_eq]
        omega
  | Stop =>
      cases hstep
      rw [countAgrees_iff]
      exact iff_of_true ((Stop_spec s).2.trans (openStreams_eq_zero (Stop_spec s).1).symm) trivial
  | SetTrickTearDown state =>
      cases hstep
      rw [countAgrees_iff]
      exact iff_of_true hcount trivial
  | setRate rate =>
      cases hstep
      rw [countAgrees_iff]
      exact iff_of_true hcount trivial

end TrackState

open TrackState

/-- The count is right after every operation of a run exactly when each call of
`ConfigurePipeline` counts the tracks it gives a stream, and `TearDownStream` alone is
called for streams without a format. -/
theorem trackCount_agrees_iff {s : TrackState} (h : s.Initial) (as : List TrackAct) :
    trackSystem.RunAll CountAgrees s as ↔ trackSystem.RunOk KeepsCount s as := by
  apply System.runAll_iff_runOk
  · exact fun _ _ _ hs hstep => step_agrees_iff hs hstep
  · rw [countAgrees_iff, h.count]
    exact (openStreams_eq_zero h.format).symm

/-- A tune with video and audio, the same formats again after a seek, and a tune with
audio alone. -/
def tuneTwice : List TrackAct :=
  let call : ConfigureCall :=
    { format := .videoEsH264, audioFormat := .audioEsAac, auxFormat := .invalid,
      subFormat := .invalid }
  [.ConfigurePipeline call, .setRate 1, .ConfigurePipeline call, .Stop,
    .ConfigurePipeline { call with format := .invalid }]

theorem initial_default : TrackState.Initial {} := ⟨fun _ => rfl, rfl, rfl, rfl, rfl⟩

theorem tuneTwice_agrees : trackSystem.RunAll CountAgrees {} tuneTwice := by
  apply (trackCount_agrees_iff initial_default tuneTwice).mpr
  exact System.runOk_of_checkRun (fun s a h => of_decide_eq_true (p := s.KeepsCount a) h)
    (by decide)

/-- An audio stream is given another codec. -/
def changeCodec : List TrackAct :=
  let call : ConfigureCall :=
    { format := .invalid, audioFormat := .audioEsAac, auxFormat := .invalid,
      subFormat := .invalid }
  [.ConfigurePipeline call, .ConfigurePipeline { call with audioFormat := .audioEsEc3 }]

/-- The one stream is counted twice, and its first frame no longer completes a tune. -/
theorem changeCodec_miscounts :
    ¬ ∀ s : TrackState, s.Initial → ∀ as, trackSystem.RunAll CountAgrees s as := by
  intro hclaim
  have hend : ∃ s, trackSystem.run {} changeCodec = some s ∧ s.NumberOfTracks = 2 ∧
      s.openStreams = 1 := ⟨_, rfl, rfl, rfl⟩
  rcases hend with ⟨s, hrun, hcount, hopen⟩
  have hagrees := ((hclaim {} initial_default changeCodec).run hrun).count
  rw [hcount, hopen] at hagrees
  cases hagrees

end PlayerInterface.Player
