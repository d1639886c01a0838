import PlayerInterface.Player.Injection
import PlayerInterface.Player.TrackCountAgreement

/-!
# Buffers come behind the events that announce them

Behind each reset of a stream the rate is told before the next buffer, and it is the rate in force
when the buffer comes: unless the reset falls into the wait of a call that had seen no reset, or
the rate is changed by a `Flush` that is refused.
-/

namespace PlayerInterface.Player

open PlayerInterface.Core

namespace Injected

variable {ε : Type}

/-- What a source knows about the rate of its section. -/
def tell (rate : Option Int) : Injected ε → Option Int
  | .reset => none
  | .events r => some r
  | _ => rate

def told (xs : List (Injected ε)) : Option Int := xs.foldl tell none

/-- A buffer comes while its rate is what the source was told. -/
def Right (before : List (Injected ε)) (x : Injected ε) : Prop :=
  ∀ rate, x = .buffer rate → told before = some rate

/-- No mark and no buffer. -/
def Plain (x : Injected ε) : Prop := (∀ rate, x.tell rate = rate) ∧ ∀ rate, x ≠ .buffer rate

theorem told_append (xs ys : List (Injected ε)) : told (xs ++ ys) = ys.foldl tell (told xs) :=
  List.foldl_append

theorem told_plain (xs : List (Injected ε)) {ys : List (Injected ε)} (h : ∀ y ∈ ys, y.Plain) :
    told (xs ++ ys) = told xs := by
  rw [told_append]
  generalize told xs = rate
  induction ys with
  | nil => rfl
  | cons y ys ih =>
      rw [List.forall_mem_cons] at h
      rw [List.foldl_cons, h.1.1, ih h.2]

/-- Where no buffer is added, nothing can be wrong. -/
theorem right_append {xs ys : List (Injected ε)} (hxs : EachAfter Right xs)
    (hys : ∀ y ∈ ys, ∀ rate, y ≠ .buffer rate) : EachAfter Right (xs ++ ys) := by
  apply hxs.append
  intro before y after h rate hy
  have hmem : y ∈ ys := by
    rw [h]
    exact List.mem_append_right _ List.mem_cons_self
  exact absurd hy (hys y hmem rate)

theorem right_buffer_iff (xs : List (Injected ε)) (rate : Int) :
    EachAfter Right (xs ++ [.buffer rate]) ↔ EachAfter Right xs ∧ told xs = some rate := by
  constructor
  · intro h
    refine ⟨?_, h xs (.buffer rate) [] rfl rate rfl⟩
    intro before x after hsplit
    apply h before x (after ++ [.buffer rate])
    rw [hsplit, List.append_assoc, List.cons_append]
  · intro ⟨hxs, htold⟩
    apply hxs.concat
    intro r hr
    cases hr
    exact htold

end Injected

namespace InjectionState

variable {ι ε : Type}

open Injected

/-- Every buffer came rightly, and the next one does where it comes without events. -/
def Announced (s : InjectionState ι ε) : Prop :=
  ∀ i, EachAfter Right (s.injected i) ∧
    (s.format i ≠ .invalid → s.resetPosition i = false → told (s.injected i) = some s.rate)

/-- A reset that is pending has not been told. -/
def Pending (s : InjectionState ι ε) : Prop :=
  ∀ i, s.resetPosition i = true → told (s.injected i) = none

theorem inject_self (s : InjectionState ι ε) (type : GstMediaType) (xs : List (Injected ε)) :
    (s.inject type xs).injected type = s.injected type ++ xs :=
  Function.update_self _ _ _

theorem inject_of_ne (s : InjectionState ι ε) {type i : GstMediaType} (xs : List (Injected ε))
    (h : i ≠ type) : (s.inject type xs).injected i = s.injected i :=
  Function.update_of_ne h _ _

/-! ## The events of a first buffer -/

theorem SendGstEvents_others (s : InjectionState ι ε) {type i : GstMediaType} (args : SendArgs)
    (h : i ≠ type) : (s.SendGstEvents type args).injected i = s.injected i ∧
      (s.SendGstEvents type args).resetPosition i = s.resetPosition i :=
  ⟨Function.update_of_ne h _ _, Function.update_of_ne h _ _⟩

theorem SendGstEvents_resetPosition (s : InjectionState ι ε) (type : GstMediaType)
    (args : SendArgs) : (s.SendGstEvents type args).resetPosition type = false :=
  Function.update_self _ _ _

theorem SendGstEvents_injected (s : InjectionState ι ε) (type : GstMediaType) (args : SendArgs) :
    ∃ ys : List (Injected ε), (∀ y ∈ ys, y.Plain) ∧
      (s.SendGstEvents type args).injected type = s.injected type ++ .events s.rate :: ys := by
  refine ⟨_, ?_, Function.update_self _ _ _⟩
  intro y hy
  rw [List.mem_append, List.mem_append] at hy
  rcases hy with (hseek | hoverride) | hprotection
  · split at hseek
    · rw [List.mem_singleton.mp hseek]
      exact ⟨fun _ => rfl, nofun⟩
    · cases hseek
  · simp only [overrideEvent] at hoverride
    split at hoverride
    · rw [List.mem_singleton.mp hoverride]
      exact ⟨fun _ => rfl, nofun⟩
    · cases hoverride
  · split at hprotection
    · obtain ⟨event, -, rfl⟩ := List.mem_map.mp hprotection
      exact ⟨fun _ => rfl, nofun⟩
    · cases hprotection

theorem SendGstEvents_told (s : InjectionState ι ε) (type : GstMediaType) (args : SendArgs) :
    told ((s.SendGstEvents type args).injected type) = some s.rate := by
  obtain ⟨ys, hplain, hys⟩ := s.SendGstEvents_injected type args
  rw [hys, List.append_cons, told_plain _ hplain, told_append]
  rfl

theorem announced_SendGstEvents {s : InjectionState ι ε} (h : s.Announced) (type : GstMediaType)
    (args : SendArgs) : (s.SendGstEvents type args).Announced := by
  intro i
  by_cases hi : i = type
  · subst hi
    refine ⟨?_, fun _ _ => s.SendGstEvents_told i args⟩
    obtain ⟨ys, hplain, hys⟩ := s.SendGstEvents_injected i args
    rw [hys]
    apply right_append (h i).1
    intro y hy
    rcases List.mem_cons.mp hy with rfl | hy
    · exact nofun
    · exact (hplain y hy).2
  · obtain ⟨hinjected, hreset⟩ := s.SendGstEvents_others args hi
    rw [hinjected, hreset]
    exact h i

theorem pending_SendGstEvents {s : InjectionState ι ε} (h : s.Pending) (type : GstMediaType)
    (args : SendArgs) : (s.SendGstEvents type args).Pending := by
  intro i hreset
  by_cases hi : i = type
  · subst hi
    rw [SendGstEvents_resetPosition] at hreset
    cases hreset
  · obtain ⟨hinjected, hsame⟩ := s.SendGstEvents_others args hi
    rw [hinjected]
    exact h i (hsame ▸ hreset)

theorem SendNewSegmentEvent_eq (s : InjectionState ι ε) (type : GstMediaType) (args : SendArgs) :
    ∃ ys : List (Injected ε), (∀ y ∈ ys, y.Plain) ∧
      s.SendNewSegmentEvent type args = s.inject type ys := by
  simp only [SendNewSegmentEvent]
  split
  · refine ⟨_, ?_, rfl⟩
    intro y hy
    rw [List.mem_singleton.mp hy]
    exact ⟨fun _ => rfl, nofun⟩
  · refine ⟨[], nofun, ?_⟩
    rw [inject, List.append_nil, Function.update_eq_self]

/-- `t` differs in what was pushed, but for the marks. -/
structure Alike (s t : InjectionState ι ε) : Prop where
  tracks : t.toTrackState = s.toTrackState
  forward : t.forwardAudioBuffers = s.forwardAudioBuffers
  mPauseInjector : t.mPauseInjector = s.mPauseInjector
  resetPosition : t.resetPosition = s.resetPosition
  told : ∀ i, told (t.injected i) = Injected.told (s.injected i)

theorem Alike.format {s t : InjectionState ι ε} (h : Alike s t) : t.format = s.format :=
  congrArg TrackState.format h.tracks

theorem Alike.rate {s t : InjectionState ι ε} (h : Alike s t) : t.rate = s.rate :=
  congrArg TrackState.rate h.tracks

theorem Alike.ForwardAudioBuffersToAux {s t : InjectionState ι ε} (h : Alike s t) :
    t.ForwardAudioBuffersToAux = s.ForwardAudioBuffersToAux := by
  rw [InjectionState.ForwardAudioBuffersToAux, InjectionState.ForwardAudioBuffersToAux, h.forward,
    h.format]

theorem Alike.pending {s t : InjectionState ι ε} (h : Alike s t) (hpending : s.Pending) :
    t.Pending := by
  intro i hreset
  rw [h.told]
  exact hpending i (h.resetPosition ▸ hreset)

/-- Plain items leave everything as it is. -/
theorem alike_SendNewSegmentEvent (s : InjectionState ι ε) (type : GstMediaType)
    (args : SendArgs) : Alike s (s.SendNewSegmentEvent type args) ∧
      (s.Announced → (s.SendNewSegmentEvent type args).Announced) := by
  obtain ⟨ys, hplain, heq⟩ := s.SendNewSegmentEvent_eq type args
  rw [heq]
  have htold : ∀ i, told ((s.inject type ys).injected i) = told (s.injected i) := by
    intro i
    by_cases hi : i = type
    · subst hi
      rw [inject_self, told_plain _ hplain]
    · rw [inject_of_ne s ys hi]
  refine ⟨⟨rfl, rfl, rfl, rfl, htold⟩, ?_⟩
  intro h i
  rw [htold]
  refine ⟨?_, (h i).2⟩
  by_cases hi : i = type
  · subst hi
    rw [inject_self]
    exact right_append (h i).1 fun y hy => (hplain y hy).2
  · rw [inject_of_ne s ys hi]
    exact (h i).1

/-- The first buffer of the audio stream is one of the auxiliary stream too. -/
structure Announces (type : GstMediaType) (s t : InjectionState ι ε) : Prop where
  tracks : t.toTrackState = s.toTrackState
  forward : t.forwardAudioBuffers = s.forwardAudioBuffers
  announced : s.Announced → t.Announced
  pending : s.Pending → t.Pending
  told : told (t.injected type) = some s.rate
  toldAux : type = .audio → s.ForwardAudioBuffersToAux = true →
    Injected.told (t.injected .auxAudio) = some s.rate

theorem Announces.alike {type : GstMediaType} {s t u : InjectionState ι ε}
    (h : Announces type s t) (halike : Alike t u) (hannounced : t.Announced → u.Announced) :
    Announces type s u where
  tracks := halike.tracks.trans h.tracks
  forward := halike.forward.trans h.forward
  announced ha := hannounced (h.announced ha)
  pending hp := halike.pending (h.pending hp)
  told := (halike.told type).trans h.told
  toldAux haudio hforward := (halike.told .auxAudio).trans (h.toldAux haudio hforward)

theorem announces_announce (s : InjectionState ι ε) (type : GstMediaType) (args : SendArgs) :
    Announces type s (s.announce type args) := by
  have hfirst : Announces type s
      (if decide (type = .audio) && (s.SendGstEvents type args).ForwardAudioBuffersToAux then
        (s.SendGstEvents type args).SendGstEvents .auxAudio args
      else s.SendGstEvents type args) := by
    split
    case isTrue haux =>
        have haudio : type = .audio := of_decide_eq_true (Bool.and_eq_true_iff.mp haux).1
        have hne : type ≠ .auxAudio := by
          rw [haudio]
          exact nofun
        refine ⟨rfl, rfl, ?_, ?_, ?_, ?_⟩
        · exact fun h => announced_SendGstEvents (announced_SendGstEvents h type args) _ args
        · exact fun h => pending_SendGstEvents (pending_SendGstEvents h type args) _ args
        · rw [(SendGstEvents_others _ args hne).1]
          exact s.SendGstEvents_told type args
        · exact fun _ _ => SendGstEvents_told _ .auxAudio args
    case isFalse haux =>
        refine ⟨rfl, rfl, ?_, ?_, s.SendGstEvents_told type args, ?_⟩
        · exact fun h => announced_SendGstEvents h type args
        · exact fun h => pending_SendGstEvents h type args
        · intro haudio hforward
          have hforward' : (s.SendGstEvents type args).ForwardAudioBuffersToAux = true := hforward
          exact absurd (Bool.and_eq_true_iff.mpr ⟨decide_eq_true haudio, hforward'⟩) haux
  rw [announce]
  split
  · obtain ⟨halike, hannounced⟩ := alike_SendNewSegmentEvent _ type args
    exact hfirst.alike halike hannounced
  · exact hfirst

/-! ## The buffers -/

theorem push_announced_iff (s : InjectionState ι ε) (type : GstMediaType) :
    (s.push type).Announced ↔ s.Announced ∧
      (s.format type ≠ .invalid → told (s.injected type) = some s.rate) := by
  rw [push]
  split
  case isFalse hformat => exact ⟨fun h => ⟨h, fun hne => absurd hne hformat⟩, fun h => h.1⟩
  case isTrue hformat =>
      constructor
      · intro h
        have hlast := (h type).1
        rw [inject_self, right_buffer_iff] at hlast
        refine ⟨?_, fun _ => hlast.2⟩
        intro i
        by_cases hi : i = type
        · subst hi
          exact ⟨hlast.1, fun _ _ => hlast.2⟩
        · have hhere := h i
          rw [inject_of_ne s _ hi] at hhere
          exact hhere
      · intro ⟨h, htold⟩ i
        by_cases hi : i = type
        · subst hi
          rw [inject_self, right_buffer_iff, told_append]
          exact ⟨⟨(h i).1, htold hformat⟩, fun _ _ => htold hformat⟩
        · rw [inject_of_ne s _ hi]
          exact h i

theorem alike_push (s : InjectionState ι ε) (type : GstMediaType) : Alike s (s.push type) := by
  rw [push]
  split
  case isFalse => exact ⟨rfl, rfl, rfl, rfl, fun _ => rfl⟩
  case isTrue =>
      refine ⟨rfl, rfl, rfl, rfl, ?_⟩
      intro i
      by_cases hi : i = type
      · subst hi
        rw [inject_self, told_append]
        rfl
      · rw [inject_of_ne s _ hi]

/-- A copy of the buffer for the auxiliary stream, in front of the buffer. -/
theorem pushes_announced_iff (s : InjectionState ι ε) (type : GstMediaType) (copy : Bool) :
    ((if copy then s.push .auxAudio else s).push type).Announced ↔ s.Announced ∧
      (copy = true → s.format .auxAudio ≠ .invalid →
        told (s.injected .auxAudio) = some s.rate) ∧
      (s.format type ≠ .invalid → told (s.injected type) = some s.rate) := by
  rw [push_announced_iff]
  cases copy with
  | false => simp
  | true =>
      have halike := s.alike_push .auxAudio
      rw [if_pos rfl, push_announced_iff, halike.format, halike.rate, halike.told]
      simp [and_assoc]

theorem sendBuffer_pending {s : InjectionState ι ε} (h : s.Pending) (type : GstMediaType)
    (isFirstBuffer : Bool) (args : SendArgs) :
    (s.sendBuffer type isFirstBuffer args).Pending := by
  have hfirst : (if isFirstBuffer then s.announce type args else s).Pending := by
    split
    · exact (s.announces_announce type args).pending h
    · exact h
  rw [sendBuffer]
  dsimp only
  generalize (if isFirstBuffer then s.announce type args else s) = u at hfirst ⊢
  split
  · refine (alike_push _ type).pending ?_
    split
    · exact (alike_push _ .auxAudio).pending hfirst
    · exact hfirst
  · exact hfirst

/-- Of a stream with a format, the flag tells whether the rate in force has been told. -/
theorem told_iff {s : InjectionState ι ε} (h : s.Announced) (hpending : s.Pending)
    {type : GstMediaType} (hformat : s.format type ≠ .invalid) :
    told (s.injected type) = some s.rate ↔ s.resetPosition type = false := by
  constructor
  · intro htold
    rw [← Bool.not_eq_true]
    intro hreset
    cases (hpending type hreset).symm.trans htold
  · exact (h type).2 hformat

/-- What is sent without events finds no reset. -/
def FindsNoReset (s : InjectionState ι ε) (type : GstMediaType) (args : SendArgs) : Prop :=
  s.mPauseInjector = false → args.allocated = true →
    (type = .audio → s.ForwardAudioBuffersToAux = true → args.copied = true →
      s.resetPosition .auxAudio = false) ∧
    (s.format type ≠ .invalid → s.resetPosition type = false)

theorem sendBuffer_announced_iff {s : InjectionState ι ε} (h : s.Announced)
    (hpending : s.Pending) (type : GstMediaType) (isFirstBuffer : Bool) (args : SendArgs) :
    (s.sendBuffer type isFirstBuffer args).Announced ↔
      (isFirstBuffer = false → s.FindsNoReset type args) := by
  rw [sendBuffer]
  dsimp only
  cases isFirstBuffer with
  | true =>
      have hfirst := s.announces_announce type args
      have hrate : (s.announce type args).rate = s.rate := congrArg TrackState.rate hfirst.tracks
      rw [if_pos rfl]
      refine iff_of_true ?_ nofun
      split
      · rw [pushes_announced_iff, hrate]
        refine ⟨hfirst.announced h, ?_, fun _ => hfirst.told⟩
        intro hcopy _
        simp only [Bool.and_eq_true, decide_eq_true_eq] at hcopy
        have hforward : s.ForwardAudioBuffersToAux = true := by
          have hformat : (s.announce type args).format = s.format :=
            congrArg TrackState.format hfirst.tracks
          have hcopied := hcopy.1.2
          rw [ForwardAudioBuffersToAux, hfirst.forward, hformat] at hcopied
          exact hcopied
        exact hfirst.toldAux hcopy.1.1 hforward
      · exact hfirst.announced h
  | false =>
      rw [if_neg Bool.false_ne_true]
      simp only [forall_const]
      rw [FindsNoReset]
      split
      case isFalse hquiet =>
          refine iff_of_true h ?_
          intro hpause hallocated
          simp [hpause, hallocated] at hquiet
      case isTrue hpush =>
          simp only [Bool.and_eq_true, Bool.not_eq_true'] at hpush
          rw [pushes_announced_iff]
          have haux : (decide (type = .audio) && s.ForwardAudioBuffersToAux && args.copied) =
              true → s.format .auxAudio ≠ .invalid := by
            intro hcopy
            simp only [Bool.and_eq_true, ForwardAudioBuffersToAux, decide_eq_true_eq] at hcopy
            exact hcopy.1.2.2
          constructor
          · intro ⟨_, hcopied, hown⟩ _ _
            refine ⟨?_, fun hformat => (told_iff h hpending hformat).mp (hown hformat)⟩
            intro haudio hforward hcopy
            have hboth : (decide (type = .audio) && s.ForwardAudioBuffersToAux && args.copied) =
                true := by simp [haudio, hforward, hcopy]
            exact (told_iff h hpending (haux hboth)).mp (hcopied hboth (haux hboth))
          · intro hnone
            obtain ⟨hcopied, hown⟩ := hnone hpush.1 hpush.2
            refine ⟨h, ?_, fun hformat => (told_iff h hpending hformat).mpr (hown hformat)⟩
            intro hcopy hformat
            simp only [Bool.and_eq_true, decide_eq_true_eq] at hcopy
            exact (told_iff h hpending hformat).mpr (hcopied hcopy.1.1 hcopy.1.2 hcopy.2)

/-! ## Resets and rates -/

theorem resetPositions_announced {s : InjectionState ι ε} (h : s.Announced) :
    s.resetPositions.Announced := by
  intro i
  refine ⟨right_append (h i).1 ?_, nofun⟩
  intro y hy
  rw [List.mem_singleton.mp hy]
  exact nofun

theorem resetPositions_pending (s : InjectionState ι ε) : s.resetPositions.Pending := by
  intro i _
  have hreset : s.resetPositions.injected i = s.injected i ++ [.reset] := rfl
  rw [hreset, told_append]
  rfl

theorem Stop_invalid (s : TrackState) (i : GstMediaType) : s.Stop.format i = .invalid := by
  rw [TrackState.Stop]
  simp only [GstMediaType.tracks, List.foldl, TrackState.TearDownStream_eq]
  cases i <;> rfl

/-- Without streams nothing is owed. -/
theorem announced_of_invalid {s t : InjectionState ι ε} (h : s.Announced)
    (hinjected : t.injected = s.injected) (hformat : ∀ i, t.format i = .invalid) :
    t.Announced := by
  intro i
  rw [hinjected]
  exact ⟨(h i).1, fun hne => absurd (hformat i) hne⟩

/-- A rate that is set without a reset. -/
theorem rate_announced_iff {s t : InjectionState ι ε} (h : s.Announced)
    (hinjected : t.injected = s.injected) (hformat : t.format = s.format)
    (hreset : t.resetPosition = s.resetPosition) :
    t.Announced ↔ t.rate = s.rate ∨
      ∀ i, s.format i ≠ .invalid → s.resetPosition i = true := by
  constructor
  · intro ht
    by_cases hrate : t.rate = s.rate
    · exact .inl hrate
    · right
      intro i hi
      rw [← Bool.not_eq_false]
      intro hflag
      have htold := (ht i).2 (hformat ▸ hi) (hreset ▸ hflag)
      rw [hinjected, (h i).2 hi hflag] at htold
      exact hrate (Option.some.inj htold).symm
  · intro hrate i
    rw [hinjected, hformat, hreset]
    refine ⟨(h i).1, ?_⟩
    intro hi hflag
    rcases hrate with hrate | hall
    · rw [hrate]
      exact (h i).2 hi hflag
    · cases hflag.symm.trans (hall i hi)

/-- A `Flush` that is refused sets the rate that the sources were told, or one that all of them are
going to be told. -/
def TellsRate (s : InjectionState ι ε) (rate : Int) (outcome : FlushOutcome) : Prop :=
  s.pipeline = false ∨ outcome = .refused →
    rate = s.rate ∨ ∀ i, s.format i ≠ .invalid → s.resetPosition i = true

theorem Flush_announced_iff {s : InjectionState ι ε} (h : s.Announced) (position : Rat)
    (rate : Int) (outcome : FlushOutcome) :
    (s.Flush position rate outcome).Announced ↔ s.TellsRate rate outcome := by
  simp only [Flush, TellsRate]
  have hkeep : (({ s with rate } : InjectionState ι ε).SetSeekPosition position).injected =
      s.injected := rfl
  have hrefused : (({ s with rate } : InjectionState ι ε).SetSeekPosition position).Announced ↔
      rate = s.rate ∨ ∀ i, s.format i ≠ .invalid → s.resetPosition i = true :=
    rate_announced_iff h rfl rfl rfl
  have hsame : (({ s with rate } : InjectionState ι ε).SetSeekPosition position).pipeline =
      s.pipeline := rfl
  generalize ({ s with rate } : InjectionState ι ε).SetSeekPosition position = u at *
  cases hpipe : s.pipeline with
  | false =>
      rw [hsame, hpipe]
      simpa using hrefused
  | true =>
      rw [hsame, hpipe]
      cases outcome with
      | refused => simpa using hrefused
      | stopped decoder =>
          refine iff_of_true ?_ (by simp)
          have hstop : (u.recoveryStop rate decoder).Announced :=
            announced_of_invalid h hkeep fun i => Stop_invalid _ i
          simpa using hstop
      | flushed seeked =>
          refine iff_of_true ?_ (by simp)
          have hreset : ∀ i, EachAfter Right (u.injected i ++ [.reset]) := by
            intro i
            rw [hkeep]
            exact (resetPositions_announced h i).1
          cases seeked with
          | true => exact fun i => ⟨hreset i, nofun⟩
          | false => exact fun i => ⟨hreset i, nofun⟩

theorem Flush_pending {s : InjectionState ι ε} (h : s.Pending) (position : Rat) (rate : Int)
    (outcome : FlushOutcome) : (s.Flush position rate outcome).Pending := by
  simp only [Flush]
  split
  · exact h
  · cases outcome with
    | refused => exact h
    | stopped decoder => exact h
    | flushed seeked =>
        cases seeked with
        | true => exact s.resetPositions_pending
        | false => exact s.resetPositions_pending

/-- A call that saw no reset finds none when it sends its buffer, and a `Flush` that is refused
leaves the sources with the rate they know. -/
def KeepsAnnounced (s : InjectionState ι ε) : InjectionAct ι ε → Prop
  | .goOn j args => ∀ type, s.calls j = some (type, false) → s.FindsNoReset type args
  | .Flush _ rate outcome => s.TellsRate rate outcome
  | _ => True

end InjectionState

section

variable {ι ε : Type} [DecidableEq ι] {s t : InjectionState ι ε} {a : InjectionAct ι ε}

theorem pending_step (h : s.Pending) (hstep : injectionStep s a = some t) : t.Pending := by
  cases a with
  | SendHelper j type =>
      simp only [injectionStep] at hstep
      split at hstep
      · cases hstep
        exact h
      · cases hstep
  | goOn j args =>
      simp only [injectionStep] at hstep
      split at hstep
      · cases hstep
      · cases hstep
        exact InjectionState.sendBuffer_pending h _ _ args
  | ConfigurePipeline call =>
      cases hstep
      exact s.resetPositions_pending
  | Flush position rate outcome =>
      cases hstep
      exact InjectionState.Flush_pending h position rate outcome
  | giveUp | TearDownStream | Stop | SetTrickTearDown | SetPendingSeek | QueueProtectionEvent
  | ClearProtectionEvent | setInjector =>
      cases hstep
      exact h

theorem announced_step_iff (hpending : s.Pending) (h : s.Announced)
    (hstep : injectionStep s a = some t) : t.Announced ↔ s.KeepsAnnounced a := by
  cases a with
  | SendHelper j type =>
      simp only [injectionStep] at hstep
      split at hstep
      · cases hstep
        exact iff_of_true h trivial
      · cases hstep
  | goOn j args =>
      simp only [injectionStep] at hstep
      split at hstep
      · cases hstep
      · rename_i type isFirstBuffer hcall
        cases hstep
        refine Iff.trans
          (InjectionState.sendBuffer_announced_iff h hpending type isFirstBuffer args) ?_
        constructor
        · intro hfinds type' hcall'
          cases hcall.symm.trans hcall'
          exact hfinds rfl
        · intro hkeeps hfirst
          rw [hfirst] at hcall
          exact hkeeps type hcall
  | ConfigurePipeline call =>
      cases hstep
      exact iff_of_true
        (fun i => ⟨(InjectionState.resetPositions_announced h i).1, nofun⟩) trivial
  | TearDownStream type =>
      cases hstep
      refine iff_of_true ?_ trivial
      intro i
      refine ⟨(h i).1, ?_⟩
      have htracks : s.toTrackState.TearDownStream type =
          { s.toTrackState with format := Function.update s.format type .invalid } :=
        TrackState.TearDownStream_eq s.toTrackState type
      simp only [htracks]
      intro hformat hreset
      by_cases hi : i = type
      · subst hi
        exact absurd (Function.update_self _ _ _) hformat
      · rw [Function.update_of_ne hi] at hformat
        exact (h i).2 hformat hreset
  | Stop =>
      cases hstep
      exact iff_of_true
        (InjectionState.announced_of_invalid h rfl fun i => InjectionState.Stop_invalid _ i) trivial
  | Flush position rate outcome =>
      cases hstep
      exact InjectionState.Flush_announced_iff h position rate outcome
  | giveUp | SetTrickTearDown | SetPendingSeek | QueueProtectionEvent
  | ClearProtectionEvent | setInjector =>
      cases hstep
      exact iff_of_true h trivial

end

def sampleCall : ConfigureCall where
  format := .isoBmff
  audioFormat := .invalid
  auxFormat := .invalid
  subFormat := .invalid

def sampleArgs : SendArgs where
  pts := 0
  sendNewSegmentEvent := true
  enablePTSReStamp := false
  vodTrickModeFPS := 4
  IsPlatformSegmentReady := true
  IsVideoMaster := true
  allocated := true
  copied := false

/-- The pipeline is set up anew while the second call waits, and its buffer comes untold. -/
example : ((injectionSystem Unit Unit).run {} [.ConfigurePipeline sampleCall,
    .SendHelper () .video, .goOn () sampleArgs, .SendHelper () .video,
    .ConfigurePipeline sampleCall, .goOn () sampleArgs]).map
      (fun s => Injected.told (s.injected .video)) = some none := by
  decide +kernel

end PlayerInterface.Player
