import PlayerInterface.Player.PlayState

/-!
# When the pipeline ends up in the state asked for

The set-up of the tracks leaves the buffering alone or ends it. What is left is to see which steps
end it before its timer has set the state, and which set a state that nobody asked for.
-/

namespace PlayerInterface.Player

open PlayerInterface.Core

def playSystem : System PlayState PlayAct where
  init s := ∃ trickTeardown, s = { trickTeardown }
  step := PlayState.step

namespace PlayState

/-! ## What the functions leave alone -/

theorem SetStateWithWarnings_eq (s : PlayState) (targetState : GstState) :
    s.SetStateWithWarnings targetState =
      { s with current := if s.pipeline then targetState else s.current } := by
  rw [SetStateWithWarnings]
  split
  · rfl
  · rfl

/-! ### The tracks -/

@[simp] theorem SetStateWithWarnings_tracks (s : PlayState) (targetState : GstState) :
    (s.SetStateWithWarnings targetState).toTrackState = s.toTrackState := by
  rw [SetStateWithWarnings_eq]

@[simp] theorem TearDownStream_tracks (s : PlayState) (type : GstMediaType) :
    (s.TearDownStream type).toTrackState = s.toTrackState.TearDownStream type := by
  rw [TearDownStream]
  split
  · rfl
  · rw [TrackState.TearDownStream, if_neg ‹_›]

@[simp] theorem CreatePipeline_tracks (s : PlayState) (call : StartCall) :
    (s.CreatePipeline call).toTrackState =
      s.toTrackState.CreatePipeline call.toConfigureCall := by
  rw [CreatePipeline]
  split
  · rfl
  · rfl

theorem decideStreams_tracks (call : StartCall) (l : List GstMediaType)
    (r : PlayState × (GstMediaType → Bool)) :
    ((l.foldl (decideStream call) r).1.toTrackState, (l.foldl (decideStream call) r).2) =
      l.foldl (TrackState.decideStream call.toConfigureCall) (r.1.toTrackState, r.2) := by
  induction l generalizing r with
  | nil => rfl
  | cons i l ih => exact ih (decideStream call r i)

theorem setupStreams_tracks (call : StartCall) (configureStream : GstMediaType → Bool)
    (l : List GstMediaType) (s : PlayState) :
    (setupStreams call configureStream l s).1.toTrackState =
      TrackState.setupStreams call.toConfigureCall configureStream l s.toTrackState := by
  induction l generalizing s with
  | nil => rfl
  | cons i l ih =>
      rw [setupStreams, TrackState.setupStreams]
      split
      · split
        · simp
        · rw [ih]
          simp
      · exact ih s

/-- Both loops. -/
theorem loops_tracks (call : StartCall) (u : PlayState) :
    (setupStreams call (GstMediaType.tracks.foldl (decideStream call) (u, fun _ => false)).2
      GstMediaType.tracks
      (GstMediaType.tracks.foldl (decideStream call) (u, fun _ => false)).1).1.toTrackState =
      TrackState.setupStreams call.toConfigureCall
        (GstMediaType.tracks.foldl (TrackState.decideStream call.toConfigureCall)
          (u.toTrackState, fun _ => false)).2
        GstMediaType.tracks
        (GstMediaType.tracks.foldl (TrackState.decideStream call.toConfigureCall)
          (u.toTrackState, fun _ => false)).1 := by
  rw [setupStreams_tracks, ← decideStreams_tracks call GstMediaType.tracks (u, fun _ => false)]

theorem prepare_tracks (s : PlayState) (call : StartCall) :
    (s.prepare call).1.toTrackState = s.toTrackState.ConfigurePipeline call.toConfigureCall := by
  rw [prepare, TrackState.ConfigurePipeline]
  refine (loops_tracks call _).trans ?_
  have hready : ∀ u : PlayState,
      (if call.setReadyAfterPipelineCreation then u.SetStateWithWarnings .ready
        else u).toTrackState = u.toTrackState := by
    intro u
    split
    · simp
    · rfl
  have hcreate : ∀ u : PlayState,
      (if !u.pipeline || !u.bus then u.CreatePipeline call else u).toTrackState =
        if !u.pipeline || !u.bus then u.toTrackState.CreatePipeline call.toConfigureCall
        else u.toTrackState := by
    intro u
    split
    · simp
    · rfl
  rw [hready, hcreate]

theorem ConfigurePipeline_tracks (s : PlayState) (call : StartCall) :
    (s.ConfigurePipeline call).toTrackState =
      s.toTrackState.ConfigurePipeline call.toConfigureCall := by
  have hstart : ∀ u : PlayState, (u.start call.format).toTrackState = u.toTrackState := by
    intro u
    rw [start]
    split
    · simp
    · split
      · simp
      · simp
  rw [ConfigurePipeline]
  split
  · rw [hstart, prepare_tracks]
  · exact s.prepare_tracks call

theorem NotifyFragmentCachingComplete_tracks (s : PlayState) :
    s.NotifyFragmentCachingComplete.toTrackState = s.toTrackState := by
  rw [NotifyFragmentCachingComplete]
  split
  · simp
  · rfl

theorem Stop_tracks (s : PlayState) : s.Stop.toTrackState = s.toTrackState.Stop := by
  have hloop : ∀ (l : List GstMediaType) (u : PlayState),
      (l.foldl TearDownStream u).toTrackState =
        l.foldl TrackState.TearDownStream u.toTrackState := by
    intro l
    induction l with
    | nil => exact fun _ => rfl
    | cons i l ih =>
        intro u
        rw [List.foldl_cons, List.foldl_cons, ih, TearDownStream_tracks]
  rw [Stop, TrackState.Stop]
  dsimp only
  rw [hloop]
  split
  · rw [SetStateWithWarnings_tracks]
  · rfl

/-! ### The buffering -/

/-- `t` is buffering only if `s` is, for the same state and with as many firings to come. -/
def Continues (s t : PlayState) : Prop :=
  t.buffering_in_progress = true → s.buffering_in_progress = true ∧
    t.buffering_target_state = s.buffering_target_state ∧
    t.buffering_timeout_cnt = s.buffering_timeout_cnt

theorem Continues.trans {s t u : PlayState} (h : s.Continues t) (h' : t.Continues u) :
    s.Continues u := by
  intro hu
  obtain ⟨ht, htarget, hcount⟩ := h' hu
  obtain ⟨hs, htarget', hcount'⟩ := h ht
  exact ⟨hs, htarget.trans htarget', hcount.trans hcount'⟩

theorem continues_TearDownStream (s : PlayState) (type : GstMediaType) :
    s.Continues (s.TearDownStream type) := by
  rw [TearDownStream]
  split
  · intro ht
    exact ⟨(Bool.and_eq_true_iff.mp ht).1, rfl, rfl⟩
  · exact fun ht => ⟨ht, rfl, rfl⟩

theorem continues_decideStreams (call : StartCall) (l : List GstMediaType)
    (r : PlayState × (GstMediaType → Bool)) :
    r.1.Continues (l.foldl (decideStream call) r).1 := by
  induction l generalizing r with
  | nil => exact fun ht => ⟨ht, rfl, rfl⟩
  | cons i l ih =>
      have hone : r.1.Continues (decideStream call r i).1 := by
        rw [decideStream]
        split
        · exact continues_TearDownStream r.1 i
        · exact fun ht => ⟨ht, rfl, rfl⟩
      exact hone.trans (ih _)

theorem continues_setupStreams (call : StartCall) (configureStream : GstMediaType → Bool)
    (l : List GstMediaType) (s : PlayState) :
    s.Continues (setupStreams call configureStream l s).1 := by
  induction l generalizing s with
  | nil => exact fun ht => ⟨ht, rfl, rfl⟩
  | cons i l ih =>
      have hone : s.Continues ({ s with trickTeardown := false }.TearDownStream i) :=
        continues_TearDownStream { s with trickTeardown := false } i
      rw [setupStreams]
      split
      · split
        · exact hone
        · exact hone.trans (ih _)
      · exact ih s

/-- A new pipeline is not buffering. -/
theorem continues_prepare (s : PlayState) (call : StartCall) :
    s.Continues (s.prepare call).1 := by
  have hcreate : ∀ u : PlayState, u.Continues
      (if !u.pipeline || !u.bus then u.CreatePipeline call else u) := by
    intro u
    split
    · rw [CreatePipeline]
      split
      · exact nofun
      · exact fun ht => ⟨ht, rfl, rfl⟩
    · exact fun ht => ⟨ht, rfl, rfl⟩
  have hready : ∀ u : PlayState, u.Continues
      (if call.setReadyAfterPipelineCreation then u.SetStateWithWarnings .ready else u) := by
    intro u
    rw [SetStateWithWarnings_eq]
    split
    · exact fun ht => ⟨ht, rfl, rfl⟩
    · exact fun ht => ⟨ht, rfl, rfl⟩
  have hrate : s.Continues { s with rate := s.playRate call.toConfigureCall } :=
    fun ht => ⟨ht, rfl, rfl⟩
  rw [prepare]
  exact (((hrate.trans (hcreate _)).trans (hready _)).trans
    (continues_decideStreams call _ _)).trans (continues_setupStreams call _ _ _)

theorem continues_Stop (s : PlayState) : s.Continues s.Stop := by
  have hloop : ∀ (l : List GstMediaType) (u : PlayState),
      u.Continues (l.foldl TearDownStream u) := by
    intro l
    induction l with
    | nil => exact fun u ht => ⟨ht, rfl, rfl⟩
    | cons i l ih => exact fun u => (continues_TearDownStream u i).trans (ih _)
  have hfirst : s.Continues (if s.pipeline then
      { s with buffering_in_progress := false }.SetStateWithWarnings .null else s) := by
    rw [SetStateWithWarnings_eq]
    split
    · exact nofun
    · exact fun ht => ⟨ht, rfl, rfl⟩
  rw [Stop]
  exact hfirst.trans (hloop _ _)

/-! ## The state asked for -/

/-- The state of the pipeline, or the one the buffering is for. -/
def due (s : PlayState) : GstState :=
  if s.buffering_in_progress then s.buffering_target_state else s.current

/-- What the application asked for last is what it has or is going to have. -/
def Settled (s : PlayState) : Prop :=
  s.pipeline = true → ∀ state, s.wanted = some state → s.due = state

/-- What `ConfigurePipeline` asks for. -/
def startState (s : PlayState) : GstState := if s.startsPaused then .paused else .playing

/-- A call that does not start the buffering finds none that is for another state; a stream is
torn down by itself while no buffering is left behind; and the clock is lost, for other media than
DASH, while the pipeline is buffering or meant to play. -/
def KeepsSettled (s : PlayState) : PlayAct → Prop
  | .ConfigurePipeline call =>
      let r := s.prepare call
      r.2 = true → r.1.pipeline = true → r.1.buffering_in_progress = true →
        r.1.startsBuffering call.format = false → s.buffering_target_state = r.1.startState
  | .TearDownStream type =>
      s.format type ≠ .invalid → s.pipeline = true → s.buffering_in_progress = true →
        ∀ state, s.wanted = some state → s.current = state
  | .GST_MESSAGE_CLOCK_LOST media =>
      media ≠ .dash → s.pipeline = true → s.buffering_in_progress = false →
        ∀ state, s.wanted = some state → state = .playing
  | _ => True

theorem start_settled_iff (s : PlayState) (format : GstStreamOutputFormat) :
    (s.start format).Settled ↔ (s.pipeline = true → s.buffering_in_progress = true →
      s.startsBuffering format = false → s.buffering_target_state = s.startState) := by
  rw [start, startState]
  simp only [SetStateWithWarnings_eq]
  cases hpaused : s.startsPaused with
  | true =>
      have hbuffering : s.startsBuffering format = false := by simp [startsBuffering, hpaused]
      cases s.buffering_in_progress <;> simp +contextual [Settled, due, hbuffering]
  | false =>
      cases hbuffering : s.startsBuffering format with
      | true => simp [Settled, due]
      | false =>
          cases s.buffering_in_progress <;> simp +contextual [Settled, due]

theorem settled_ConfigurePipeline_iff (s : PlayState) (call : StartCall) :
    (s.ConfigurePipeline call).Settled ↔ s.KeepsSettled (.ConfigurePipeline call) := by
  rw [ConfigurePipeline, KeepsSettled]
  cases hend : (s.prepare call).2 with
  | false => exact iff_of_true nofun nofun
  | true =>
      rw [if_pos rfl, start_settled_iff]
      simp only [forall_const]
      constructor
      · intro h hpipe hprogress hbuffering
        rw [← (continues_prepare s call hprogress).2.1]
        exact h hpipe hprogress hbuffering
      · intro h hpipe hprogress hbuffering
        rw [(continues_prepare s call hprogress).2.1]
        exact h hpipe hprogress hbuffering

theorem settled_TearDownStream_iff {s : PlayState} (h : s.Settled) (type : GstMediaType) :
    (s.TearDownStream type).Settled ↔ s.KeepsSettled (.TearDownStream type) := by
  rw [TearDownStream, KeepsSettled]
  split
  case isFalse hformat => exact iff_of_true h fun hne => absurd hne hformat
  case isTrue hformat =>
      have hpipe : (s.toTrackState.TearDownStream type).pipeline = s.pipeline := by
        rw [TrackState.TearDownStream]
        split
        · rfl
        · rfl
      cases hprogress : s.buffering_in_progress with
      | false =>
          refine iff_of_true ?_ nofun
          intro hp state hwanted
          have hdue := h (hpipe ▸ hp) state hwanted
          rw [due, hprogress] at hdue
          exact hdue
      | true =>
          have hleft : ({ s with
              toTrackState := s.toTrackState.TearDownStream type
              buffering_in_progress := true && !s.pipeline } : PlayState).Settled ↔
              (s.pipeline = true → ∀ state, s.wanted = some state → s.current = state) := by
            simp +contextual [Settled, due, hpipe]
          rw [hleft]
          exact ⟨fun hcur _ hp _ => hcur hp, fun hcur hp => hcur hformat hp rfl⟩

theorem settled_GST_MESSAGE_CLOCK_LOST_iff {s : PlayState} (h : s.Settled)
    (media : GstMediaFormat) :
    (s.GST_MESSAGE_CLOCK_LOST media).Settled ↔ s.KeepsSettled (.GST_MESSAGE_CLOCK_LOST media) := by
  rw [GST_MESSAGE_CLOCK_LOST, KeepsSettled]
  split
  case isFalse hdash => exact iff_of_true h fun hne => absurd hne hdash
  case isTrue hdash =>
      simp only [SetStateWithWarnings_eq]
      cases hprogress : s.buffering_in_progress with
      | true =>
          refine iff_of_true ?_ nofun
          intro hp state hwanted
          have hdue := h hp state hwanted
          rw [due, hprogress] at hdue
          rw [due]
          exact hdue
      | false =>
          constructor
          · intro hlost _ hp _ state hwanted
            have hdue := hlost hp state hwanted
            simp only [due, hp, if_true] at hdue
            exact hdue.symm
          · intro hplay hp state hwanted
            have hp : s.pipeline = true := hp
            rw [hplay hdash hp rfl state hwanted]
            simp [due, hp]

theorem settled_NotifyFragmentCachingComplete {s : PlayState} (h : s.Settled) :
    s.NotifyFragmentCachingComplete.Settled := by
  rw [NotifyFragmentCachingComplete, SetStateWithWarnings_eq]
  split
  · intro hp state hwanted
    cases hwanted
    have hp : s.pipeline = true := hp
    simp [due, hp]
  · exact h

theorem settled_Pause {s : PlayState} (h : s.Settled) (pause forceStop : Bool) :
    (s.Pause pause forceStop).Settled := by
  simp only [Pause, SetStateWithWarnings_eq]
  split
  case isTrue hpipe =>
      intro _ state hwanted
      cases hwanted
      simp [due]
  case isFalse => exact h

theorem settled_finishBuffering {s : PlayState} (h : s.Settled)
    (hprogress : s.buffering_in_progress = true) : s.finishBuffering.Settled := by
  rw [finishBuffering, SetStateWithWarnings_eq]
  intro hp state hwanted
  have hp : s.pipeline = true := hp
  have hdue := h hp state hwanted
  rw [due, hprogress] at hdue
  simpa [due, hp] using hdue

theorem settled_buffering_timeout {s : PlayState} (h : s.Settled) (media : GstMediaFormat)
    (framesToQueue : Int) (queued_frames : Option Int) :
    (s.buffering_timeout media framesToQueue queued_frames).Settled := by
  rw [buffering_timeout]
  split
  case isFalse => exact h
  case isTrue hprogress =>
      dsimp only
      split
      · exact nofun
      · split
        · exact settled_finishBuffering h hprogress
        · split
          · exact settled_finishBuffering (s := { s with
              buffering_timeout_cnt := s.buffering_timeout_cnt - 1 }) h hprogress
          · exact h

end PlayState

theorem settled_step_iff {s t : PlayState} {a : PlayAct} (h : s.Settled)
    (hstep : s.step a = some t) : t.Settled ↔ s.KeepsSettled a := by
  cases a with
  | ConfigurePipeline call =>
      cases hstep
      exact s.settled_ConfigurePipeline_iff call
  | TearDownStream type =>
      cases hstep
      exact PlayState.settled_TearDownStream_iff h type
  | GST_MESSAGE_CLOCK_LOST media =>
      cases hstep
      exact PlayState.settled_GST_MESSAGE_CLOCK_LOST_iff h media
  | Stop =>
      cases hstep
      exact iff_of_true nofun trivial
  | SetTrickTearDown | SetPauseOnStartPlayback | EnablePendingPlayState | SendHelper =>
      cases hstep
      exact iff_of_true h trivial
  | Flush rate flushed =>
      cases hstep
      refine iff_of_true ?_ trivial
      rw [PlayState.Flush]
      split
      · exact h
      · exact h
  | Pause pause forceStop =>
      cases hstep
      exact iff_of_true (PlayState.settled_Pause h pause forceStop) trivial
  | NotifyFragmentCachingComplete =>
      cases hstep
      exact iff_of_true (PlayState.settled_NotifyFragmentCachingComplete h) trivial
  | EndOfStreamReached type firstBufferProcessed =>
      cases hstep
      refine iff_of_true ?_ trivial
      rw [PlayState.EndOfStreamReached]
      split
      · exact h
      · exact PlayState.settled_NotifyFragmentCachingComplete h
  | buffering_timeout media framesToQueue queued_frames =>
      cases hstep
      exact iff_of_true
        (PlayState.settled_buffering_timeout h media framesToQueue queued_frames) trivial
  | GST_MESSAGE_STATE_CHANGED new_state =>
      cases hstep
      refine iff_of_true ?_ trivial
      rw [PlayState.GST_MESSAGE_STATE_CHANGED]
      split
      · exact h
      · exact h

/-- What a step is for the tracks. -/
def PlayAct.track? : PlayAct → Option TrackAct
  | .ConfigurePipeline call => some (.ConfigurePipeline call.toConfigureCall)
  | .TearDownStream type => some (.TearDownStream type)
  | .Stop => some .Stop
  | .SetTrickTearDown state => some (.SetTrickTearDown state)
  | .Flush rate _ => some (.setRate rate)
  | _ => none

theorem tracks_step {s t : PlayState} {a : PlayAct} (hstep : s.step a = some t) :
    match a.track? with
    | some b => s.toTrackState.step b = some t.toTrackState
    | none => t.toTrackState = s.toTrackState := by
  cases a with
  | ConfigurePipeline call =>
      cases hstep
      exact congrArg some (s.ConfigurePipeline_tracks call).symm
  | TearDownStream type =>
      cases hstep
      exact congrArg some (s.TearDownStream_tracks type).symm
  | Stop =>
      cases hstep
      exact congrArg some s.Stop_tracks.symm
  | Flush rate flushed =>
      cases hstep
      refine congrArg some ?_
      rw [PlayState.Flush]
      split
      · rfl
      · rfl
  | SetTrickTearDown | SetPauseOnStartPlayback | EnablePendingPlayState | SendHelper =>
      cases hstep
      rfl
  | Pause pause forceStop =>
      cases hstep
      simp only [PlayAct.track?, PlayState.Pause]
      split
      · simp
      · rfl
  | NotifyFragmentCachingComplete =>
      cases hstep
      exact s.NotifyFragmentCachingComplete_tracks
  | EndOfStreamReached type firstBufferProcessed =>
      cases hstep
      simp only [PlayAct.track?, PlayState.EndOfStreamReached]
      split
      · rfl
      · exact s.NotifyFragmentCachingComplete_tracks
  | buffering_timeout media framesToQueue queued_frames =>
      cases hstep
      simp only [PlayAct.track?, PlayState.buffering_timeout, PlayState.finishBuffering]
      split
      · split
        · rfl
        · split
          · simp
          · split
            · simp
            · rfl
      · rfl
  | GST_MESSAGE_CLOCK_LOST media =>
      cases hstep
      simp only [PlayAct.track?, PlayState.GST_MESSAGE_CLOCK_LOST]
      split
      · simp
      · rfl
  | GST_MESSAGE_STATE_CHANGED new_state =>
      cases hstep
      simp only [PlayAct.track?, PlayState.GST_MESSAGE_STATE_CHANGED]
      split
      · rfl
      · rfl

/-- What holds of the tracks in every run of theirs holds of them here. -/
theorem tracks_reachable {s : PlayState} (h : playSystem.Reachable s) :
    trackSystem.Reachable s.toTrackState := by
  have hinit : ∀ s, playSystem.init s → trackSystem.Reachable s.toTrackState := by
    intro s ⟨trickTeardown, hs⟩
    subst hs
    exact .init ⟨fun _ => rfl, rfl, rfl, rfl, rfl⟩
  have hnext : ∀ s a t, trackSystem.Reachable s.toTrackState → True →
      playSystem.step s a = some t → trackSystem.Reachable t.toTrackState := by
    intro s a t hs _ hstep
    have htracks := tracks_step hstep
    cases hact : a.track? with
    | some b =>
        rw [hact] at htracks
        exact .step hs trivial htracks
    | none =>
        rw [hact] at htracks
        have hsame : t.toTrackState = s.toTrackState := htracks
        exact hsame ▸ hs
  exact h.invariant hinit hnext

/-- Over a run, the pipeline is in the state last asked for, or buffering for it, exactly when no
start without buffering meets a buffering for another state, no stream torn down by itself ends one
that has not set its state, and no clock is lost while something else than playing is wanted. -/
theorem settled_iff (trickTeardown : Bool) (acts : List PlayAct) :
    playSystem.RunAll PlayState.Settled { trickTeardown } acts ↔
      playSystem.RunOk PlayState.KeepsSettled { trickTeardown } acts :=
  System.runAll_iff_runOk (fun _ _ _ => settled_step_iff) nofun acts

/-- A tune that buffers before it plays. -/
def sampleTune : StartCall where
  format := .mpegts
  audioFormat := .mpegts
  auxFormat := .invalid
  subFormat := .invalid
  gstreamerBufferingBeforePlay := true

/-- The clock of a paused pipeline is lost, and it plays. -/
example : (playSystem.run {} [.ConfigurePipeline sampleTune, .buffering_timeout .hls 10 none,
    .Pause true false, .GST_MESSAGE_CLOCK_LOST .hls]).map
      (fun s => (s.wanted, s.current, s.paused)) = some (some .paused, .playing, true) := by
  decide +kernel

/-! ## How long the buffering goes on -/

def PlayAct.fires : PlayAct → Bool
  | .buffering_timeout _ _ _ => true
  | _ => false

/-- A call of `ConfigurePipeline` that starts the buffering. -/
def PlayState.Starts (s : PlayState) : PlayAct → Prop
  | .ConfigurePipeline call =>
      (s.prepare call).2 = true ∧ (s.prepare call).1.startsBuffering call.format = true
  | _ => False

namespace PlayState

/-- A firing that leaves the buffering in progress has counted down. -/
theorem buffering_timeout_counts (s : PlayState) (media : GstMediaFormat) (framesToQueue : Int)
    (queued_frames : Option Int)
    (ht : (s.buffering_timeout media framesToQueue queued_frames).buffering_in_progress = true) :
    s.buffering_in_progress = true ∧
      (s.buffering_timeout media framesToQueue queued_frames).buffering_timeout_cnt.toNat + 1 =
        s.buffering_timeout_cnt.toNat := by
  have hfinish : ∀ u : PlayState, u.finishBuffering.buffering_in_progress = false := fun _ => rfl
  revert ht
  rw [buffering_timeout]
  split
  case isFalse hprogress => exact fun ht => absurd ht hprogress
  case isTrue hprogress =>
      dsimp only
      split
      · exact nofun
      · split
        · exact fun ht => absurd ht (by rw [hfinish]; exact nofun)
        · split
          case isTrue => exact fun ht => absurd ht (by rw [hfinish]; exact nofun)
          case isFalse hcount =>
              intro _
              refine ⟨hprogress, ?_⟩
              have hpos : 1 ≤ s.buffering_timeout_cnt := by
                rw [UInt32.le_iff_toNat_le]
                have hne : s.buffering_timeout_cnt.toNat ≠ 0 :=
                  fun h => hcount (UInt32.toNat_inj.mp h)
                exact Nat.one_le_iff_ne_zero.mpr hne
              have hsub := UInt32.toNat_sub_of_le _ _ hpos
              have hle := UInt32.le_iff_toNat_le.mp hpos
              rw [hsub]
              exact Nat.sub_add_cancel hle

theorem continues_ConfigurePipeline {s : PlayState} {call : StartCall}
    (h : ¬ s.Starts (.ConfigurePipeline call)) : s.Continues (s.ConfigurePipeline call) := by
  refine (continues_prepare s call).trans ?_
  rw [ConfigurePipeline]
  split
  case isFalse => exact fun ht => ⟨ht, rfl, rfl⟩
  case isTrue hend =>
      have hbuffering : (s.prepare call).1.startsBuffering call.format = false := by
        rw [← Bool.not_eq_true]
        exact fun hstart => h ⟨hend, hstart⟩
      simp only [start, SetStateWithWarnings_eq, hbuffering]
      split
      · exact fun ht => ⟨ht, rfl, rfl⟩
      · exact fun ht => ⟨ht, rfl, rfl⟩

theorem ConfigurePipeline_starts {s : PlayState} {call : StartCall}
    (h : s.Starts (.ConfigurePipeline call)) :
    (s.ConfigurePipeline call).buffering_timeout_cnt = DEFAULT_BUFFERING_MAX_CNT := by
  obtain ⟨hend, hstart⟩ := h
  have hpaused : (s.prepare call).1.startsPaused = false := by
    simp only [startsBuffering, Bool.and_eq_true, Bool.not_eq_true'] at hstart
    exact hstart.1.1.1
  rw [ConfigurePipeline, if_pos hend, start]
  simp [SetStateWithWarnings_eq, hpaused, hstart]

end PlayState

/-- Only a call of `ConfigurePipeline` starts the buffering, and only the timer counts. -/
theorem firings_step {s t : PlayState} {a : PlayAct} (hact : ¬ s.Starts a)
    (hstep : s.step a = some t) (ht : t.buffering_in_progress = true) :
    s.buffering_in_progress = true ∧
      t.buffering_timeout_cnt.toNat + (if a.fires then 1 else 0) =
        s.buffering_timeout_cnt.toNat := by
  have hnotify : ∀ u : PlayState,
      u.NotifyFragmentCachingComplete.buffering_in_progress = u.buffering_in_progress ∧
        u.NotifyFragmentCachingComplete.buffering_timeout_cnt = u.buffering_timeout_cnt := by
    intro u
    rw [PlayState.NotifyFragmentCachingComplete, PlayState.SetStateWithWarnings_eq]
    split
    · exact ⟨rfl, rfl⟩
    · exact ⟨rfl, rfl⟩
  cases a with
  | ConfigurePipeline call =>
      cases hstep
      obtain ⟨hs, -, hcount⟩ := PlayState.continues_ConfigurePipeline hact ht
      exact ⟨hs, congrArg UInt32.toNat hcount⟩
  | TearDownStream type =>
      cases hstep
      obtain ⟨hs, -, hcount⟩ := s.continues_TearDownStream type ht
      exact ⟨hs, congrArg UInt32.toNat hcount⟩
  | Stop =>
      cases hstep
      obtain ⟨hs, -, hcount⟩ := s.continues_Stop ht
      exact ⟨hs, congrArg UInt32.toNat hcount⟩
  | SetTrickTearDown | SetPauseOnStartPlayback | EnablePendingPlayState | SendHelper =>
      cases hstep
      exact ⟨ht, rfl⟩
  | Flush rate flushed =>
      cases hstep
      revert ht
      rw [PlayState.Flush]
      split
      · exact fun ht => ⟨ht, rfl⟩
      · exact fun ht => ⟨ht, rfl⟩
  | Pause pause forceStop =>
      cases hstep
      revert ht
      simp only [PlayState.Pause, PlayState.SetStateWithWarnings_eq]
      split
      · exact fun ht => ⟨(Bool.and_eq_true_iff.mp ht).1, rfl⟩
      · exact fun ht => ⟨ht, rfl⟩
  | NotifyFragmentCachingComplete =>
      cases hstep
      exact ⟨(hnotify s).1 ▸ ht, congrArg UInt32.toNat (hnotify s).2⟩
  | EndOfStreamReached type firstBufferProcessed =>
      cases hstep
      revert ht
      rw [PlayState.EndOfStreamReached]
      split
      · exact fun ht => ⟨ht, rfl⟩
      · exact fun ht => ⟨(hnotify s).1 ▸ ht, congrArg UInt32.toNat (hnotify s).2⟩
  | buffering_timeout media framesToQueue queued_frames =>
      cases hstep
      exact s.buffering_timeout_counts media framesToQueue queued_frames ht
  | GST_MESSAGE_CLOCK_LOST media =>
      cases hstep
      revert ht
      simp only [PlayState.GST_MESSAGE_CLOCK_LOST, PlayState.SetStateWithWarnings_eq]
      split
      · exact fun ht => ⟨ht, rfl⟩
      · exact fun ht => ⟨ht, rfl⟩
  | GST_MESSAGE_STATE_CHANGED new_state =>
      cases hstep
      revert ht
      rw [PlayState.GST_MESSAGE_STATE_CHANGED]
      split
      · exact fun ht => ⟨ht, rfl⟩
      · exact fun ht => ⟨ht, rfl⟩

/-- Either nothing in the run starts the buffering, or a last call does. -/
theorem firings_split {s t : PlayState} {acts : List PlayAct}
    (hrun : playSystem.run s acts = some t) (ht : t.buffering_in_progress = true) :
    (playSystem.RunOk (fun s a => ¬ s.Starts a) s acts ∧ s.buffering_in_progress = true ∧
      t.buffering_timeout_cnt.toNat + acts.countP PlayAct.fires =
        s.buffering_timeout_cnt.toNat) ∨
    ∃ before call after u, acts = before ++ .ConfigurePipeline call :: after ∧
      playSystem.run s before = some u ∧ u.Starts (.ConfigurePipeline call) ∧
      playSystem.RunOk (fun s a => ¬ s.Starts a) (u.ConfigurePipeline call) after ∧
      t.buffering_timeout_cnt.toNat + after.countP PlayAct.fires =
        DEFAULT_BUFFERING_MAX_CNT.toNat := by
  induction acts generalizing s with
  | nil =>
      cases hrun
      exact .inl ⟨trivial, ht, rfl⟩
  | cons a acts ih =>
      obtain ⟨u, hstep, hrest⟩ := Option.bind_eq_some_iff.mp hrun
      rcases ih hrest with ⟨hquiet, hu, hcount⟩ | ⟨before, call, after, v, hacts, hbefore, hv⟩
      · by_cases hact : s.Starts a
        · right
          cases a with
          | ConfigurePipeline call =>
              cases hstep
              refine ⟨[], call, acts, s, rfl, rfl, hact, hquiet, ?_⟩
              rw [hcount, PlayState.ConfigurePipeline_starts hact]
          | _ => exact hact.elim
        · left
          obtain ⟨hs, hfirst⟩ := firings_step hact hstep hu
          refine ⟨?_, hs, ?_⟩
          · intro u' hstep'
            cases hstep.symm.trans hstep'
            exact ⟨hact, hquiet⟩
          · rw [List.countP_cons]
            omega
      · right
        refine ⟨a :: before, call, after, v, ?_, ?_, hv⟩
        · rw [hacts]
          rfl
        · rw [System.run_cons hstep, hbefore]

/-- While the pipeline is buffering, the timer has counted its firings down from 100 since the last
call that started the buffering: 100 at most leave it in progress. -/
theorem buffering_counted {trickTeardown : Bool} {acts : List PlayAct} {t : PlayState}
    (hrun : playSystem.run { trickTeardown } acts = some t)
    (ht : t.buffering_in_progress = true) :
    ∃ before call after s, acts = before ++ .ConfigurePipeline call :: after ∧
      playSystem.run { trickTeardown } before = some s ∧ s.Starts (.ConfigurePipeline call) ∧
      playSystem.RunOk (fun s a => ¬ s.Starts a) (s.ConfigurePipeline call) after ∧
      t.buffering_timeout_cnt.toNat + after.countP PlayAct.fires = 100 := by
  rcases firings_split hrun ht with ⟨-, hinit, -⟩ | hstarted
  · cases hinit
  · exact hstarted

theorem oneFiring_counted : ∃ t, playSystem.run {}
      [.ConfigurePipeline sampleTune, .buffering_timeout .hls 10 (some 3)] = some t ∧
    ∃ before call after s, [.ConfigurePipeline sampleTune, .buffering_timeout .hls 10 (some 3)] =
        before ++ .ConfigurePipeline call :: after ∧
      playSystem.run {} before = some s ∧ s.Starts (.ConfigurePipeline call) ∧
      playSystem.RunOk (fun s a => ¬ s.Starts a) (s.ConfigurePipeline call) after ∧
      t.buffering_timeout_cnt.toNat + after.countP PlayAct.fires = 100 := by
  have hbuffering : (playSystem.run {}
      [.ConfigurePipeline sampleTune, .buffering_timeout .hls 10 (some 3)]).map
        (fun t => t.buffering_in_progress) = some true := by decide +kernel
  obtain ⟨t, hrun, ht⟩ := Option.map_eq_some_iff.mp hbuffering
  exact ⟨t, hrun, buffering_counted hrun ht⟩

end PlayerInterface.Player
