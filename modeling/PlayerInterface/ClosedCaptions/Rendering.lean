import PlayerInterface.ClosedCaptions.Manager

/-!
# When captions are rendered

`SetStatus` looks at all three flags before it starts the renderer; the other
operations look at the enable flag and, at most, at the flag they change.
-/

namespace PlayerInterface.ClosedCaptions

open PlayerInterface.Core

/-- Neither trick play nor the parental lock is on. -/
def CCManager.Unobstructed (m : CCManager) : Prop :=
  m.mTrickplayStarted = false ∧ m.mParentalCtrlLocked = false

/-- Captions are rendered only where they may be. -/
def RendersOnlyEnabled (m : CCManager) : Prop :=
  m.rendering = some .StartRendering → m.mEnabled = true ∧ m.Unobstructed

/-- An operation on enabled captions starts the renderer only if the flags it
does not clear itself are off. -/
def StartsUnobstructed (m : CCManager) (a : Act) : Prop :=
  m.mEnabled = true →
    match a with
    | .Init handle => handle = true → m.Unobstructed
    | .SetTrack track format =>
        (∃ channel, selectedChannel track format = .ok (some channel)) → m.Unobstructed
    | .RestoreCC =>
        (∃ channel, selectedChannel m.restoredTrack .eCLOSEDCAPTION_FORMAT_DEFAULT =
          .ok (some channel)) → m.Unobstructed
    | .SetTrickplayStatus on => on = false → m.mParentalCtrlLocked = false
    | .SetParentalControlStatus locked => locked = false → m.mTrickplayStarted = false
    | _ => True

namespace CCManager

theorem start_iff (m : CCManager) :
    RendersOnlyEnabled m.Start ↔ m.mEnabled = true ∧ m.Unobstructed :=
  ⟨fun h => h rfl, fun h _ => h⟩

theorem stop_rendersOnlyEnabled (m : CCManager) : RendersOnlyEnabled m.Stop := by
  intro h
  cases h

/-- The renderer is brought in line with the enable flag. -/
theorem consistent_iff (m : CCManager) :
    RendersOnlyEnabled (if m.mEnabled then m.Start else m.Stop) ↔
      (m.mEnabled = true → m.Unobstructed) := by
  cases hen : m.mEnabled with
  | true =>
      rw [if_pos rfl, start_iff]
      exact ⟨fun h _ => h.2, fun h => ⟨hen, h rfl⟩⟩
  | false =>
      rw [if_neg Bool.false_ne_true]
      constructor
      · intro _ hf
        cases hf
      · exact fun _ => m.stop_rendersOnlyEnabled

/-- `SetStyle` changes the stored options alone. -/
theorem SetStyle_flags (m : CCManager) (options : List Char) (parses : Bool) :
    ∃ o, (m.SetStyle options parses).1 = { m with mOptions := o } := by
  unfold SetStyle
  split_ifs
  · exact ⟨options, rfl⟩
  · exact ⟨m.mOptions, rfl⟩
  · exact ⟨m.mOptions, rfl⟩
  · exact ⟨m.mOptions, rfl⟩

theorem SetStyle_iff (m : CCManager) (options : List Char) (parses : Bool) :
    RendersOnlyEnabled (m.SetStyle options parses).1 ↔ RendersOnlyEnabled m := by
  rcases m.SetStyle_flags options parses with ⟨o, ho⟩
  rw [ho]
  exact Iff.rfl

theorem EnsureRendererStateConsistency_iff (m : CCManager) :
    RendersOnlyEnabled m.EnsureRendererStateConsistency ↔ (m.mEnabled = true → m.Unobstructed) := by
  unfold EnsureRendererStateConsistency
  rw [SetStyle_iff]
  exact m.consistent_iff

/-- `SetTrack` starts the renderer when it selects a channel and not otherwise. -/
theorem SetTrack_iff {m : CCManager} (h : RendersOnlyEnabled m) (track : List Char)
    (format : CCFormat) :
    RendersOnlyEnabled (m.SetTrack track format).1 ↔
      (m.mEnabled = true → (∃ channel, selectedChannel track format = .ok (some channel)) →
        m.Unobstructed) := by
  unfold SetTrack
  cases hsel : selectedChannel track format with
  | error e =>
      constructor
      · rintro - - ⟨channel, hc⟩
        cases hc
      · exact fun _ => h
  | ok selected =>
      cases selected with
      | none =>
          constructor
          · rintro - - ⟨channel, hc⟩
            cases hc
          · exact fun _ => h
      | some channel =>
          dsimp only
          rw [EnsureRendererStateConsistency_iff]
          exact ⟨fun hu hen _ => hu hen, fun hu hen => hu hen ⟨channel, rfl⟩⟩

end CCManager

/-- Where the renderer is obstructed, the property says that it is stopped. -/
theorem RendersOnlyEnabled.stopped {m : CCManager} (h : RendersOnlyEnabled m)
    (hm : ¬ (m.mEnabled = true ∧ m.Unobstructed)) : m.rendering ≠ some .StartRendering :=
  fun hr => hm (h hr)

theorem RendersOnlyEnabled.stopped_of_disabled {m : CCManager} (h : RendersOnlyEnabled m)
    (hen : m.mEnabled = false) : m.rendering ≠ some .StartRendering := by
  apply h.stopped
  intro hm
  rw [hen] at hm
  cases hm.1

theorem SetStatus_obstructed {m : CCManager} (hm : ¬ m.Unobstructed) (enable : Bool) :
    (m.SetStatus enable).1 = { m with mEnabled := enable } := by
  have hguard : (!m.mTrickplayStarted && !m.mParentalCtrlLocked) = false := by
    apply Bool.eq_false_iff.mpr
    intro hboth
    rw [Bool.and_eq_true, Bool.not_eq_true', Bool.not_eq_true'] at hboth
    exact hm hboth
  simp only [CCManager.SetStatus, CCManager.CheckCCHandle, hguard, Bool.false_and,
    Bool.false_eq_true, if_false]

theorem SetStatus_unobstructed {m : CCManager} (hm : m.Unobstructed) (enable : Bool) :
    (m.SetStatus enable).1 = if enable then ({ m with mEnabled := enable } : CCManager).Start
      else ({ m with mEnabled := enable } : CCManager).Stop := by
  simp only [CCManager.SetStatus, CCManager.CheckCCHandle, hm.1, hm.2, Bool.not_false,
    Bool.and_self, if_true]

theorem SetStatus_rendersOnlyEnabled {m : CCManager} (h : RendersOnlyEnabled m) (enable : Bool) :
    RendersOnlyEnabled (m.SetStatus enable).1 := by
  by_cases hm : m.Unobstructed
  · rw [SetStatus_unobstructed hm]
    exact ({ m with mEnabled := enable } : CCManager).consistent_iff.mpr fun _ => hm
  · rw [SetStatus_obstructed hm]
    exact fun hr => absurd hr (h.stopped fun hboth => hm hboth.2)

theorem SetTrickplayStatus_iff {m : CCManager} (h : RendersOnlyEnabled m) (on : Bool) :
    RendersOnlyEnabled (m.SetTrickplayStatus on) ↔
      (m.mEnabled = true → on = false → m.mParentalCtrlLocked = false) := by
  unfold CCManager.SetTrickplayStatus
  cases on with
  | true =>
      constructor
      · intro _ _ hf
        cases hf
      · intro _ hr
        cases hr
  | false =>
      cases hen : m.mEnabled with
      | true =>
          constructor
          · exact fun hr _ _ => (hr rfl).2.2
          · exact fun hu _ => ⟨hen, rfl, hu rfl rfl⟩
      | false =>
          have hstopped := h.stopped_of_disabled hen
          constructor
          · intro _ hf
            cases hf
          · exact fun _ hr => absurd hr hstopped

theorem SetParentalControlStatus_iff {m : CCManager} (h : RendersOnlyEnabled m) (locked : Bool) :
    RendersOnlyEnabled (m.SetParentalControlStatus locked) ↔
      (m.mEnabled = true → locked = false → m.mTrickplayStarted = false) := by
  unfold CCManager.SetParentalControlStatus
  cases locked with
  | true =>
      constructor
      · intro _ _ hf
        cases hf
      · intro _ hr
        cases hr
  | false =>
      cases hen : m.mEnabled with
      | true =>
          constructor
          · exact fun hr _ _ => (hr rfl).2.1
          · exact fun hu _ => ⟨hen, hu rfl rfl, rfl⟩
      | false =>
          have hstopped := h.stopped_of_disabled hen
          constructor
          · intro _ hf
            cases hf
          · exact fun _ hr => absurd hr hstopped

theorem rendersOnlyEnabled_step_iff (m : CCManager) (a : Act) (t : CCManager)
    (h : RendersOnlyEnabled m) (hstep : ccSystem.step m a = some t) :
    RendersOnlyEnabled t ↔ StartsUnobstructed m a := by
  cases hstep
  cases a with
  | Init handle =>
      show RendersOnlyEnabled (m.Init handle).1 ↔ (m.mEnabled = true → handle = true → _)
      unfold CCManager.Init
      cases handle with
      | true =>
          rw [if_pos rfl, m.consistent_iff]
          exact ⟨fun hu hen _ => hu hen, fun hu hen => hu hen rfl⟩
      | false =>
          rw [if_neg Bool.false_ne_true]
          constructor
          · intro _ _ hf
            cases hf
          · exact fun _ => h
  | SetStatus enable =>
      exact ⟨fun _ _ => trivial, fun _ => SetStatus_rendersOnlyEnabled h enable⟩
  | SetTrack track format => exact CCManager.SetTrack_iff h track format
  | SetStyle options parses =>
      exact ⟨fun _ _ => trivial, fun _ => (m.SetStyle_iff options parses).mpr h⟩
  | RestoreCC => exact CCManager.SetTrack_iff h m.restoredTrack .eCLOSEDCAPTION_FORMAT_DEFAULT
  | SetTrickplayStatus on => exact SetTrickplayStatus_iff h on
  | SetParentalControlStatus locked => exact SetParentalControlStatus_iff h locked
  | updateLastTextTracks tracks => exact ⟨fun _ _ => trivial, fun _ => h⟩

/-- In a run after construction captions are rendered only while they are enabled
and nothing obstructs them, if and only if every operation that starts the
renderer finds the flags off that it does not clear itself. -/
theorem rendering_run_iff (as : List Act) :
    ccSystem.RunAll RendersOnlyEnabled .PlayerSubtecCCManager as ↔
      ccSystem.RunOk StartsUnobstructed .PlayerSubtecCCManager as := by
  have hinit : RendersOnlyEnabled .PlayerSubtecCCManager := by
    intro hr
    cases hr
  exact System.runAll_iff_runOk rendersOnlyEnabled_step_iff hinit as

/-- The parental lock is set during trick play, and trick play ends first. -/
theorem lockedTrickplay_renders : ¬ ∀ m, ccSystem.Reachable m → RendersOnlyEnabled m := by
  intro hall
  have hrun : (ccSystem.run .PlayerSubtecCCManager [.SetStatus true, .SetTrickplayStatus true,
      .SetParentalControlStatus true, .SetTrickplayStatus false]).map
      (fun m => (m.rendering, m.mParentalCtrlLocked)) = some (some .StartRendering, true) := by
    decide
  rcases Option.map_eq_some_iff.mp hrun with ⟨m, hm, hpair⟩
  rcases Prod.mk.inj hpair with ⟨hrendering, hlocked⟩
  have hinit : ccSystem.init .PlayerSubtecCCManager := rfl
  have hfree := (hall m (System.reachable_of_run hinit hm) hrendering).2.2
  rw [hlocked] at hfree
  cases hfree

end PlayerInterface.ClosedCaptions
