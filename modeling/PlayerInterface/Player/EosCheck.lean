import PlayerInterface.Player.TrackCount

/-!
# The end of a stream behind an underflow

A decoder that runs dry behind the end of its stream is looked at again half a second later: when
the video has not moved, the end is told. Whether it has moved is read off a variable that the test
for an empty cache writes too. A call or a callback is one step.
-/

namespace PlayerInterface.Player

open PlayerInterface.Core

def GST_MIN_PTS_UPDATE_INTERVAL : Int := 4000

/-- An underflow: its stream and the position of the video. -/
structure Underflow where
  type : GstMediaType
  pts : Int
deriving DecidableEq, Repr

/-- The second look: whether the stream has reached its end by then, where the video is, and
whether the end is told. -/
structure SecondLook where
  underflow : Underflow
  eosReached : Bool
  pts : Int
  notified : Bool
deriving DecidableEq, Repr

/-- `NotifyEOS` is called exactly for a stream at its end whose video stands still. -/
def SecondLook.Right (l : SecondLook) : Prop :=
  l.notified = true ↔ l.eosReached = true ∧ l.pts = l.underflow.pts

structure EosState where
  bufferUnderrun : GstMediaType → Bool := fun _ => false
  eosReached : GstMediaType → Bool := fun _ => false
  rate : Int := GST_NORMAL_PLAY_RATE
  lastKnownPTS : Int := 0
  ptsUpdatedTimeMS : Int := 0
  /-- the underflow of the task `ptsCheckForEosOnUnderflowIdleTaskId`, when there is one -/
  check : Option Underflow := none
  looks : List SecondLook := []

inductive EosAct where
  /-- the tests of the element's name, the position of the video and the clock -/
  | OnGstBufferUnderflow (disableUnderflow isVideo isAudio : Bool) (pts now : Int)
  | VideoDecoderPtsCheckerForEOS (pts : Int)
  /-- the bytes queued, when there is a source -/
  | IsCacheEmpty (level : Option Nat) (pts now : Int)
  /-- a buffer is pushed -/
  | SendHelper (type : GstMediaType)
  /-- `first` tells that no buffer came before the end -/
  | EndOfStreamReached (type : GstMediaType) (first subtitleSource : Bool)
  | ConfigurePipeline (rate : Int) (tornDown : GstMediaType → Bool)
  | TearDownStream (type : GstMediaType)
  /-- `flushed` tells that the pipeline could be flushed -/
  | Flush (rate : Int) (flushed : Bool)
  | Stop

namespace EosState

def OnGstBufferUnderflow (s : EosState) (disableUnderflow isVideo isAudio : Bool)
    (pts now : Int) : EosState :=
  if disableUnderflow || !isVideo && !isAudio then s
  else
    let type : GstMediaType := if isVideo then .video else .audio
    let s := { s with bufferUnderrun := Function.update s.bufferUnderrun type true }
    if s.eosReached type ∧ 0 < s.rate ∧ s.check = none then
      { s with lastKnownPTS := pts, ptsUpdatedTimeMS := now, check := some { type, pts } }
    else s

def VideoDecoderPtsCheckerForEOS (s : EosState) (pts : Int) (underflow : Underflow) : EosState :=
  let eosReached := s.eosReached underflow.type
  { s with
    check := none
    looks := s.looks ++ [{ underflow, eosReached, pts, notified := pts = s.lastKnownPTS }] }

def CheckForPTSChangeWithTimeout (s : EosState) (timeout currentPTS now : Int) :
    Bool × EosState :=
  if currentPTS ≠ 0 then
    if currentPTS ≠ s.lastKnownPTS then
      (true, { s with ptsUpdatedTimeMS := now, lastKnownPTS := currentPTS })
    else (decide (now - s.ptsUpdatedTimeMS ≤ timeout), s)
  else (true, s)

def IsCacheEmpty (s : EosState) (level : Option Nat) (pts now : Int) : Bool × EosState :=
  match level with
  | none => (true, s)
  | some cacheLevel =>
      if cacheLevel ≠ 0 then (false, s)
      else if s.bufferUnderrun .video || s.bufferUnderrun .audio then (true, s)
      else
        let (ptsChanged, s) := s.CheckForPTSChangeWithTimeout GST_MIN_PTS_UPDATE_INTERVAL pts now
        (!ptsChanged, s)

def EndOfStreamReached (s : EosState) (type : GstMediaType) (first subtitleSource : Bool) :
    EosState :=
  let s := { s with eosReached := Function.update s.eosReached type true }
  if !first && decide (s.rate = GST_NORMAL_PLAY_RATE) && s.eosReached .audio &&
      !s.eosReached .subtitle && subtitleSource then
    { s with eosReached := Function.update s.eosReached .subtitle true }
  else s

def TearDownStream (s : EosState) (type : GstMediaType) : EosState :=
  { s with
    bufferUnderrun := Function.update s.bufferUnderrun type false
    eosReached := Function.update s.eosReached type false }

def ConfigurePipeline (s : EosState) (rate : Int) (tornDown : GstMediaType → Bool) : EosState :=
  { s with
    rate := if rate ≠ INVALID_RATE then rate else s.rate
    eosReached := fun _ => false
    bufferUnderrun := fun type => s.bufferUnderrun type && !tornDown type }

def Flush (s : EosState) (rate : Int) (flushed : Bool) : EosState :=
  let s := { s with
    rate
    bufferUnderrun :=
      Function.update (Function.update s.bufferUnderrun .video false) .audio false
    check := none }
  if flushed then { s with eosReached := fun _ => false } else s

def Stop (s : EosState) : EosState :=
  { GstMediaType.tracks.foldl TearDownStream { s with check := none } with
    rate := GST_NORMAL_PLAY_RATE
    lastKnownPTS := 0 }

def step (s : EosState) : EosAct → Option EosState
  | .OnGstBufferUnderflow disableUnderflow isVideo isAudio pts now =>
      some (s.OnGstBufferUnderflow disableUnderflow isVideo isAudio pts now)
  | .VideoDecoderPtsCheckerForEOS pts => s.check.map (s.VideoDecoderPtsCheckerForEOS pts)
  | .IsCacheEmpty level pts now => some (s.IsCacheEmpty level pts now).2
  | .SendHelper type =>
      some { s with bufferUnderrun := Function.update s.bufferUnderrun type false }
  | .EndOfStreamReached type first subtitleSource =>
      some (s.EndOfStreamReached type first subtitleSource)
  | .ConfigurePipeline rate tornDown => some (s.ConfigurePipeline rate tornDown)
  | .TearDownStream type => some (s.TearDownStream type)
  | .Flush rate flushed => some (s.Flush rate flushed)
  | .Stop => some s.Stop

end EosState

def eosSystem : System EosState EosAct where
  init s := s = {}
  step := EosState.step

namespace EosState

/-- What a second look that is due will go by is what the underflow left. -/
def Intact (s : EosState) : Prop :=
  ∀ underflow, s.check = some underflow →
    s.lastKnownPTS = underflow.pts ∧ s.eosReached underflow.type = true

/-- Every second look was right, and the one that is due is going to be. -/
def Sound (s : EosState) : Prop := s.Intact ∧ ∀ l ∈ s.looks, l.Right

/-- While a second look is due, no test for an empty cache finds that the video has moved on with
both underruns forgotten, and neither the pipeline nor the stream is set up anew. -/
def LeavesCheck (s : EosState) : EosAct → Prop
  | .IsCacheEmpty level pts _ => s.check ≠ none → level = some 0 →
      s.bufferUnderrun .video = false → s.bufferUnderrun .audio = false →
      pts = 0 ∨ pts = s.lastKnownPTS
  | .ConfigurePipeline _ _ => s.check = none
  | .TearDownStream type => ∀ underflow, s.check = some underflow → underflow.type ≠ type
  | _ => True

/-- A step that keeps the looks. -/
theorem sound_iff_intact {s t : EosState} (h : s.Sound) (hlooks : t.looks = s.looks) :
    t.Sound ↔ t.Intact := by
  rw [Sound, hlooks]
  exact and_iff_left h.2

theorem intact_OnGstBufferUnderflow {s : EosState} (h : s.Intact)
    (disableUnderflow isVideo isAudio : Bool) (pts now : Int) :
    (s.OnGstBufferUnderflow disableUnderflow isVideo isAudio pts now).Intact := by
  rw [OnGstBufferUnderflow]
  split
  · exact h
  · dsimp only
    generalize (if isVideo = true then GstMediaType.video else .audio) = type
    split
    case isTrue hend =>
        intro underflow hcheck
        cases hcheck
        exact ⟨rfl, hend.1⟩
    case isFalse => exact h

theorem looks_OnGstBufferUnderflow (s : EosState) (disableUnderflow isVideo isAudio : Bool)
    (pts now : Int) :
    (s.OnGstBufferUnderflow disableUnderflow isVideo isAudio pts now).looks = s.looks := by
  rw [OnGstBufferUnderflow]
  split
  · rfl
  · dsimp only
    generalize (if isVideo = true then GstMediaType.video else .audio) = type
    split
    · rfl
    · rfl

theorem IsCacheEmpty_eq (s : EosState) (level : Option Nat) (pts now : Int) :
    (s.IsCacheEmpty level pts now).2 =
      if level = some 0 ∧ s.bufferUnderrun .video = false ∧ s.bufferUnderrun .audio = false ∧
          pts ≠ 0 ∧ pts ≠ s.lastKnownPTS then
        { s with ptsUpdatedTimeMS := now, lastKnownPTS := pts }
      else s := by
  cases level with
  | none => simp [IsCacheEmpty]
  | some cacheLevel =>
      by_cases hlevel : cacheLevel = 0
      · cases hvideo : s.bufferUnderrun .video with
        | true => simp [IsCacheEmpty, hlevel, hvideo]
        | false =>
            cases haudio : s.bufferUnderrun .audio with
            | true => simp [IsCacheEmpty, hlevel, hvideo, haudio]
            | false =>
                by_cases hpts : pts = 0
                · simp [IsCacheEmpty, hlevel, hvideo, haudio, CheckForPTSChangeWithTimeout, hpts]
                · by_cases hsame : pts = s.lastKnownPTS
                  · subst hsame
                    simp [IsCacheEmpty, hlevel, hvideo, haudio, CheckForPTSChangeWithTimeout, hpts]
                  · simp [IsCacheEmpty, hlevel, hvideo, haudio, CheckForPTSChangeWithTimeout,
                      hpts, hsame]
      · simp [IsCacheEmpty, hlevel]

theorem sound_IsCacheEmpty_iff {s : EosState} (h : s.Sound) (level : Option Nat)
    (pts now : Int) :
    (s.IsCacheEmpty level pts now).2.Sound ↔ s.LeavesCheck (.IsCacheEmpty level pts now) := by
  rw [IsCacheEmpty_eq, LeavesCheck]
  split
  case isFalse hquiet =>
      refine iff_of_true h fun _ hlevel hvideo haudio => ?_
      by_contra hmoved
      rw [not_or] at hmoved
      exact hquiet ⟨hlevel, hvideo, haudio, hmoved.1, hmoved.2⟩
  case isTrue hmoved =>
      obtain ⟨hlevel, hvideo, haudio, hpts, hsame⟩ := hmoved
      refine Iff.trans (sound_iff_intact h rfl) ?_
      constructor
      · intro hintact hcheck
        obtain ⟨underflow, hunderflow⟩ := Option.ne_none_iff_exists'.mp hcheck
        have hkept : pts = underflow.pts := (hintact underflow hunderflow).1
        exact absurd (hkept.trans (h.1 underflow hunderflow).1.symm) hsame
      · intro hleaves underflow hunderflow
        have hcheck : s.check ≠ none := by
          rw [hunderflow]
          exact nofun
        rcases hleaves hcheck hlevel hvideo haudio with hzero | hlast
        · exact absurd hzero hpts
        · exact absurd hlast hsame

theorem sound_VideoDecoderPtsCheckerForEOS {s : EosState} (h : s.Sound) (pts : Int)
    {underflow : Underflow} (hcheck : s.check = some underflow) :
    (s.VideoDecoderPtsCheckerForEOS pts underflow).Sound := by
  obtain ⟨hlast, hend⟩ := h.1 underflow hcheck
  refine ⟨nofun, ?_⟩
  intro l hl
  rcases List.mem_append.mp hl with hold | hnew
  · exact h.2 l hold
  · rw [List.mem_singleton.mp hnew]
    simp [SecondLook.Right, hlast, hend]

theorem intact_EndOfStreamReached {s : EosState} (h : s.Intact) (type : GstMediaType)
    (first subtitleSource : Bool) :
    (s.EndOfStreamReached type first subtitleSource).Intact := by
  have hset : ∀ (u : EosState) (i : GstMediaType), u.Intact →
      { u with eosReached := Function.update u.eosReached i true }.Intact := by
    intro u i hu underflow hcheck
    obtain ⟨hlast, hend⟩ := hu underflow hcheck
    refine ⟨hlast, ?_⟩
    by_cases hi : underflow.type = i
    · rw [hi]
      exact Function.update_self _ _ _
    · exact (Function.update_of_ne hi _ _).trans hend
  rw [EndOfStreamReached]
  dsimp only
  split
  · exact hset _ .subtitle (hset s type h)
  · exact hset s type h

/-- A stream of a second look has reached its end, so that setting it up anew breaks the look. -/
theorem sound_ConfigurePipeline_iff {s : EosState} (h : s.Sound) (rate : Int)
    (tornDown : GstMediaType → Bool) :
    (s.ConfigurePipeline rate tornDown).Sound ↔ s.check = none := by
  refine Iff.trans (sound_iff_intact h rfl) ?_
  constructor
  · intro hintact
    rw [Option.eq_none_iff_forall_ne_some]
    intro underflow hcheck
    exact absurd (hintact underflow hcheck).2 Bool.false_ne_true
  · intro hnone underflow hcheck
    cases hnone.symm.trans hcheck

theorem sound_TearDownStream_iff {s : EosState} (h : s.Sound) (type : GstMediaType) :
    (s.TearDownStream type).Sound ↔ s.LeavesCheck (.TearDownStream type) := by
  refine Iff.trans (sound_iff_intact h rfl) ?_
  refine forall₂_congr fun underflow hcheck => ?_
  obtain ⟨hlast, hend⟩ := h.1 underflow hcheck
  constructor
  · intro ⟨_, hleft⟩ htype
    rw [htype] at hleft
    exact absurd ((Function.update_self _ _ _).symm.trans hleft) Bool.false_ne_true
  · intro hne
    exact ⟨hlast, (Function.update_of_ne hne _ _).trans hend⟩

theorem sound_Stop {s : EosState} (h : s.Sound) : s.Stop.Sound := by
  have hloop : ∀ (l : List GstMediaType) (u : EosState), u.check = none → u.looks = s.looks →
      (l.foldl TearDownStream u).check = none ∧ (l.foldl TearDownStream u).looks = s.looks := by
    intro l
    induction l with
    | nil => exact fun _ hcheck hlooks => ⟨hcheck, hlooks⟩
    | cons i l ih => exact fun u hcheck hlooks => ih (u.TearDownStream i) hcheck hlooks
  obtain ⟨hcheck, hlooks⟩ := hloop GstMediaType.tracks { s with check := none } rfl rfl
  refine (sound_iff_intact (t := s.Stop) h hlooks).mpr ?_
  intro underflow hsome
  cases hcheck.symm.trans hsome

theorem sound_step_iff {s t : EosState} {a : EosAct} (h : s.Sound) (hstep : s.step a = some t) :
    t.Sound ↔ s.LeavesCheck a := by
  cases a with
  | OnGstBufferUnderflow disableUnderflow isVideo isAudio pts now =>
      cases hstep
      refine iff_of_true ?_ trivial
      rw [sound_iff_intact h (s.looks_OnGstBufferUnderflow _ _ _ _ _)]
      exact intact_OnGstBufferUnderflow h.1 _ _ _ _ _
  | VideoDecoderPtsCheckerForEOS pts =>
      obtain ⟨underflow, hcheck, rfl⟩ := Option.map_eq_some_iff.mp hstep
      exact iff_of_true (sound_VideoDecoderPtsCheckerForEOS h pts hcheck) trivial
  | IsCacheEmpty level pts now =>
      cases hstep
      exact sound_IsCacheEmpty_iff h level pts now
  | SendHelper type =>
      cases hstep
      exact iff_of_true h trivial
  | EndOfStreamReached type first subtitleSource =>
      cases hstep
      have hlooks : (s.EndOfStreamReached type first subtitleSource).looks = s.looks := by
        rw [EndOfStreamReached]
        dsimp only
        split
        · rfl
        · rfl
      refine iff_of_true ?_ trivial
      rw [sound_iff_intact h hlooks]
      exact intact_EndOfStreamReached h.1 _ _ _
  | ConfigurePipeline rate tornDown =>
      cases hstep
      exact sound_ConfigurePipeline_iff h rate tornDown
  | TearDownStream type =>
      cases hstep
      exact sound_TearDownStream_iff h type
  | Flush rate flushed =>
      cases hstep
      refine iff_of_true ?_ trivial
      rw [Flush]
      dsimp only
      split
      · exact ⟨nofun, h.2⟩
      · exact ⟨nofun, h.2⟩
  | Stop =>
      cases hstep
      exact iff_of_true (sound_Stop h) trivial

end EosState

/-- Over a run, the end behind an underflow is told exactly for streams at their end whose video
stands still, exactly when, while a second look is due, no test for an empty cache takes note of a
moved video and neither the pipeline nor the stream is set up anew. -/
theorem eos_sound_iff (acts : List EosAct) :
    eosSystem.RunAll EosState.Sound {} acts ↔ eosSystem.RunOk EosState.LeavesCheck {} acts :=
  System.runAll_iff_runOk (fun _ _ _ => EosState.sound_step_iff) ⟨nofun, nofun⟩ acts

/-- A buffer more, a test for an empty cache, and the end is told of a video that goes on. -/
example : (eosSystem.run {} [.EndOfStreamReached .video false false,
    .OnGstBufferUnderflow false true false 90 0, .SendHelper .video, .IsCacheEmpty (some 0) 180 100,
    .VideoDecoderPtsCheckerForEOS 180]).map EosState.looks =
      some [⟨⟨.video, 90⟩, true, 180, true⟩] := by
  decide

end PlayerInterface.Player
