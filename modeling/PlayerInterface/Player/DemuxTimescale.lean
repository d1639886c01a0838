import Mathlib.Data.List.Induction
import PlayerInterface.Mp4Demux.Rescaling
import PlayerInterface.Player.SourceSetup

/-!
# The timescale `SendHelper` remembers

One static array of two elements, for all players of the process, keeps the timescale of the last
init segment of a media type for the segments that do not say their own.
-/

namespace PlayerInterface.Player

open PlayerInterface.Core
open PlayerInterface.Mp4Demux (Demuxer construct construct_alike Rescaled)

/-! ## Segments -/

/-- The bytes at `ptr`, the memory the demuxer is allocated in, and the passes of its loops. -/
structure Segment where
  heap : Mem
  ptr : Nat
  len : Nat
  memory : Demuxer
  fuel : Nat

def Segment.demux (segment : Segment) (timescale : Nat) : Except Mp4Demux.Stop Demuxer :=
  construct segment.fuel segment.heap segment.ptr segment.len timescale segment.memory

/-- `count`, an `int`. -/
def sampleCount (d : Demuxer) : Int := (d.samples.length : Int).bmod (2 ^ 32)

/-- The timescale the last `mvhd` or `mdhd` of a segment says: the one that is left whatever the
demuxer starts with. -/
def Segment.headerTimescale (segment : Segment) : Option Nat :=
  match segment.demux 0, segment.demux 1 with
  | .ok d, .ok d' => if d.timescale = d'.timescale then some d.timescale else none
  | _, _ => none

/-- The timescale of an init segment, which has a header and no samples. -/
def Segment.initTimescale (segment : Segment) : Option Nat :=
  match segment.demux 0 with
  | .ok d => if sampleCount d > 0 then none else segment.headerTimescale
  | .error _ => none

/-- A segment without `mvhd` and `mdhd` that can be demultiplexed. -/
def Segment.IsMedia (segment : Segment) : Prop :=
  (∃ d, segment.demux 0 = .ok d) ∧ segment.headerTimescale = none

/-! ## Calls -/

variable {ι : Type}

/-- `pushed` is `bPushBuffer`; nothing is sent without it. -/
structure DemuxCall (ι : Type) where
  player : ι
  mediaType : GstMediaType
  segment : Segment
  pushed : Bool

/-- The number of the media type. -/
def GstMediaType.index : GstMediaType → Nat
  | .video => 0
  | .audio => 1
  | .subtitle => 2
  | .auxAudio => 3

/-- What `SendHelper` does to the static array; `none` is an access outside. A demuxer that does not
return leaves the array alone. -/
def SendHelper (timescale : List Nat) (call : DemuxCall ι) : Option (List Nat) :=
  if call.pushed then do
    let start ← timescale[call.mediaType.index]?
    match call.segment.demux start with
    | .error _ => some timescale
    | .ok mp4Demux =>
        if sampleCount mp4Demux > 0 then some timescale
        else some (timescale.set call.mediaType.index mp4Demux.timescale)
  else some timescale

/-- The array behind a sequence of calls. -/
def sendAll (calls : List (DemuxCall ι)) : Option (List Nat) := calls.foldlM SendHelper [0, 0]

/-- The last init segment sent by one of the calls that count. -/
def lastInit (counts : DemuxCall ι → Bool) (calls : List (DemuxCall ι)) : Option Nat :=
  calls.reverse.findSome? fun call =>
    if call.pushed && counts call then call.segment.initTimescale else none

/-- Calls of one media type. -/
def ofType (type : GstMediaType) (call : DemuxCall ι) : Bool := call.mediaType = type

/-- Calls of one player and one media type. -/
def ofTrack [DecidableEq ι] (player : ι) (type : GstMediaType) (call : DemuxCall ι) : Bool :=
  call.player = player && ofType type call

/-- No access is outside the array, and a media segment is demultiplexed with the timescale of the
last init segment of its player and media type. -/
def TimescaleFollows [DecidableEq ι] (calls : List (DemuxCall ι)) : Prop :=
  ∀ before call after, calls = before ++ call :: after → call.pushed = true →
    ∃ timescale start, sendAll before = some timescale ∧
      timescale[call.mediaType.index]? = some start ∧
      (call.segment.IsMedia →
        ∀ v, lastInit (ofTrack call.player call.mediaType) before = some v → start = v)

/-- All segments are video or audio, and the last init segment of the type by any player has the
timescale of the last one of the track. -/
def OneTimescale [DecidableEq ι] (calls : List (DemuxCall ι)) : Prop :=
  ∀ before call after, calls = before ++ call :: after → call.pushed = true →
    (call.mediaType = .video ∨ call.mediaType = .audio) ∧
      (call.segment.IsMedia →
        ∀ v, lastInit (ofTrack call.player call.mediaType) before = some v →
          lastInit (ofType call.mediaType) before = some v)

/-! ## What a segment leaves -/

theorem Segment.demux_alike {segment : Segment} {timescale : Nat} {d : Demuxer}
    (h : segment.demux timescale = .ok d) (timescale' : Nat) :
    ∃ d', segment.demux timescale' = .ok d' ∧ Rescaled timescale timescale' d d' := by
  rcases construct_alike segment.fuel segment.heap segment.ptr segment.len timescale timescale'
    segment.memory with ⟨e, he, _⟩ | ⟨_, d', hd, hd', hrel⟩
  · cases h.symm.trans he
  · cases h.symm.trans hd
    exact ⟨d', hd', hrel⟩

/-- Whatever a demuxer starts with, it leaves the timescale of the header if there is one. -/
theorem Segment.demux_timescale {segment : Segment} {timescale : Nat} {d : Demuxer}
    (h : segment.demux timescale = .ok d) :
    d.timescale = segment.headerTimescale.getD timescale := by
  obtain ⟨d₀, hd₀, h₀⟩ := demux_alike h 0
  obtain ⟨d₁, hd₁, h₁⟩ := demux_alike h 1
  have hscale₀ := h₀.scale
  have hscale₁ := h₁.scale
  rw [headerTimescale, hd₀, hd₁]
  dsimp only
  split
  case isTrue hsame =>
    rw [Option.getD_some]
    omega
  case isFalse hother =>
    rw [Option.getD_none]
    omega

theorem Segment.demux_count {segment : Segment} {timescale : Nat} {d : Demuxer}
    (h : segment.demux timescale = .ok d) :
    ∃ d₀, segment.demux 0 = .ok d₀ ∧ sampleCount d = sampleCount d₀ := by
  obtain ⟨d₀, hd₀, h₀⟩ := demux_alike h 0
  have hcount := congrArg (fun n : Nat => (n : Int).bmod (2 ^ 32)) h₀.samples_length
  exact ⟨d₀, hd₀, hcount⟩

theorem Segment.initTimescale_of_ok {segment : Segment} {timescale : Nat} {d : Demuxer}
    (h : segment.demux timescale = .ok d) :
    segment.initTimescale = if sampleCount d > 0 then none else segment.headerTimescale := by
  obtain ⟨d₀, hd₀, hcount⟩ := demux_count h
  rw [initTimescale, hd₀, hcount]

theorem Segment.initTimescale_of_error {segment : Segment} {timescale : Nat} {e : Mp4Demux.Stop}
    (h : segment.demux timescale = .error e) : segment.initTimescale = none := by
  rw [initTimescale]
  cases hd : segment.demux 0 with
  | error => rfl
  | ok d =>
      obtain ⟨d', hd', _⟩ := demux_alike hd timescale
      cases h.symm.trans hd'

/-- The array takes over what the segment says itself, if it is an init segment. -/
theorem SendHelper_eq {timescale : List Nat} {call : DemuxCall ι} {start : Nat}
    (hpushed : call.pushed = true) (hstart : timescale[call.mediaType.index]? = some start) :
    SendHelper timescale call =
      some (timescale.set call.mediaType.index (call.segment.initTimescale.getD start)) := by
  have hsame : timescale.set call.mediaType.index start = timescale := by
    obtain ⟨_, hget⟩ := List.getElem?_eq_some_iff.mp hstart
    rw [← hget, List.set_getElem_self]
  rw [SendHelper, if_pos hpushed, hstart, Option.bind_eq_bind, Option.bind_some]
  cases hd : call.segment.demux start with
  | error e => rw [Segment.initTimescale_of_error hd, Option.getD_none, hsame]
  | ok d =>
      rw [Segment.initTimescale_of_ok hd]
      dsimp only
      split
      case isTrue => rw [Option.getD_none, hsame]
      case isFalse => rw [Segment.demux_timescale hd]

/-! ## What the array holds -/

theorem sendAll_append (calls : List (DemuxCall ι)) (call : DemuxCall ι) :
    sendAll (calls ++ [call]) =
      (sendAll calls).bind fun timescale => SendHelper timescale call := by
  rw [sendAll, List.foldlM_append]
  simp only [List.foldlM_cons, List.foldlM_nil, Option.bind_eq_bind, sendAll, Option.pure_def,
    Option.bind_fun_some]

theorem lastInit_append (counts : DemuxCall ι → Bool) (calls : List (DemuxCall ι))
    (call : DemuxCall ι) :
    lastInit counts (calls ++ [call]) =
      (if call.pushed && counts call then call.segment.initTimescale else none).or
        (lastInit counts calls) := by
  rw [lastInit, List.reverse_append, List.reverse_singleton, List.singleton_append,
    List.findSome?_cons]
  cases (if call.pushed && counts call then call.segment.initTimescale else none) <;> rfl

/-- The array of two elements keeps the last init segment of each type, by any player. -/
structure KeepsTimescales (calls : List (DemuxCall ι)) (timescale : List Nat) : Prop where
  size : timescale.length = 2
  kept : ∀ type : GstMediaType, type.index < 2 →
    timescale[type.index]? = some ((lastInit (ofType type) calls).getD 0)

theorem GstMediaType.index_inj {type type' : GstMediaType} (h : type.index = type'.index) :
    type = type' := by
  cases type <;> cases type' <;> first | rfl | cases h

theorem KeepsTimescales.step {calls : List (DemuxCall ι)} {timescale : List Nat}
    {call : DemuxCall ι} (h : KeepsTimescales calls timescale)
    (hin : call.pushed = true → call.mediaType.index < 2) :
    ∃ timescale', SendHelper timescale call = some timescale' ∧
      KeepsTimescales (calls ++ [call]) timescale' := by
  cases hpushed : call.pushed with
  | false =>
      refine ⟨timescale, by rw [SendHelper, hpushed]; rfl, h.size, ?_⟩
      intro type htype
      rw [lastInit_append, hpushed]
      exact h.kept type htype
  | true =>
      have hkept := h.kept call.mediaType (hin hpushed)
      refine ⟨_, SendHelper_eq hpushed hkept, ?_, ?_⟩
      · rw [List.length_set, h.size]
      · intro type htype
        rw [lastInit_append, hpushed, Bool.true_and]
        by_cases hsame : call.mediaType = type
        · subst hsame
          have hlt : call.mediaType.index < timescale.length := by
            rw [h.size]
            exact htype
          rw [ofType, decide_eq_true rfl, if_pos rfl, List.getElem?_set_self hlt]
          cases call.segment.initTimescale <;> rfl
        · have hne : call.mediaType.index ≠ type.index :=
            fun hindex => hsame (GstMediaType.index_inj hindex)
          rw [ofType, decide_eq_false hsame, if_neg Bool.false_ne_true, List.getElem?_set_ne hne,
            h.kept type htype]
          rfl

theorem KeepsTimescales.start : KeepsTimescales ([] : List (DemuxCall ι)) [0, 0] := by
  constructor
  · rfl
  · intro type htype
    cases type with
    | video => rfl
    | audio => rfl
    | subtitle => exact absurd htype (by decide)
    | auxAudio => exact absurd htype (by decide)

/-- As long as all accesses are inside, the array is there and keeps what it should. -/
theorem sendAll_keeps {calls : List (DemuxCall ι)}
    (h : ∀ call ∈ calls, call.pushed = true → call.mediaType.index < 2) :
    ∃ timescale, sendAll calls = some timescale ∧ KeepsTimescales calls timescale := by
  induction calls using List.reverseRecOn with
  | nil => exact ⟨[0, 0], rfl, KeepsTimescales.start⟩
  | append_singleton calls call ih =>
      obtain ⟨timescale, hall, hkept⟩ := ih fun c hc => h c (List.mem_append_left _ hc)
      obtain ⟨timescale', hcall, hkept'⟩ :=
        hkept.step (h call (List.mem_append_right _ List.mem_cons_self))
      refine ⟨timescale', ?_, hkept'⟩
      rw [sendAll_append, hall]
      exact hcall

theorem index_lt_two_iff (type : GstMediaType) :
    type.index < 2 ↔ type = .video ∨ type = .audio := by
  cases type <;> decide

variable [DecidableEq ι]

theorem TimescaleFollows.before {calls before after : List (DemuxCall ι)}
    (h : TimescaleFollows calls) (hcalls : calls = before ++ after) : TimescaleFollows before := by
  intro first call rest hbefore
  have hsplit : calls = first ++ call :: (rest ++ after) := by
    rw [hcalls, hbefore, List.append_assoc, List.cons_append]
  exact h first call (rest ++ after) hsplit

/-- Where the timescale follows, all accesses are inside. -/
theorem TimescaleFollows.inside {calls : List (DemuxCall ι)} (h : TimescaleFollows calls) :
    ∀ call ∈ calls, call.pushed = true → call.mediaType.index < 2 := by
  induction calls using List.reverseRecOn with
  | nil =>
      intro call hcall
      cases hcall
  | append_singleton calls last ih =>
      intro call hcall hpushed
      have hinside := ih (h.before rfl)
      rcases List.mem_append.mp hcall with hmem | hmem
      · exact hinside call hmem hpushed
      · obtain ⟨timescale, start, hall, hstart, _⟩ :=
          h calls last [] rfl (List.mem_singleton.mp hmem ▸ hpushed)
        obtain ⟨timescale', hall', hkept⟩ := sendAll_keeps hinside
        cases hall.symm.trans hall'
        obtain ⟨hlt, _⟩ := List.getElem?_eq_some_iff.mp hstart
        rw [List.mem_singleton.mp hmem, ← hkept.size]
        exact hlt

/-- An init segment of a track is one of its type. -/
theorem lastInit_ofType_isSome {player : ι} {type : GstMediaType} {calls : List (DemuxCall ι)}
    {v : Nat} (h : lastInit (ofTrack player type) calls = some v) :
    ∃ w, lastInit (ofType type) calls = some w := by
  obtain ⟨call, hcall, hv⟩ := List.exists_of_findSome?_eq_some h
  apply Option.isSome_iff_exists.mp
  rw [lastInit, List.findSome?_isSome_iff]
  refine ⟨call, hcall, ?_⟩
  split at hv
  case isTrue hcounts =>
    rw [ofTrack, Bool.and_eq_true, Bool.and_eq_true] at hcounts
    rw [hcounts.1, hcounts.2.2, Bool.and_self, if_pos rfl, hv]
    rfl
  case isFalse => cases hv

/-- Segments come out with the timescale of their track exactly when only video and audio is sent,
and no other player sends an init segment of another timescale in between. -/
theorem timescaleFollows_iff (calls : List (DemuxCall ι)) :
    TimescaleFollows calls ↔ OneTimescale calls := by
  constructor
  · intro h before call after hcalls hpushed
    have hinside := h.inside
    have hbefore : ∀ c ∈ before, c.pushed = true → c.mediaType.index < 2 := by
      intro c hc
      exact hinside c (hcalls ▸ List.mem_append_left _ hc)
    have hindex := hinside call (hcalls ▸ List.mem_append_right _ List.mem_cons_self) hpushed
    obtain ⟨timescale, start, hall, hstart, hfollows⟩ := h before call after hcalls hpushed
    obtain ⟨timescale', hall', hkept⟩ := sendAll_keeps hbefore
    cases hall.symm.trans hall'
    refine ⟨(index_lt_two_iff _).mp hindex, ?_⟩
    intro hmedia v hv
    obtain ⟨w, hw⟩ := lastInit_ofType_isSome hv
    have hread := hkept.kept call.mediaType hindex
    rw [hw, hstart] at hread
    have hvw : v = w := (hfollows hmedia v hv).symm.trans (Option.some.inj hread)
    rw [hvw, hw]
  · intro h before call after hcalls hpushed
    have hbefore : ∀ c ∈ before, c.pushed = true → c.mediaType.index < 2 := by
      intro c hc hp
      obtain ⟨first, rest, hsplit⟩ := List.append_of_mem hc
      have hall : calls = first ++ c :: (rest ++ call :: after) := by
        rw [hcalls, hsplit, List.append_assoc, List.cons_append]
      exact (index_lt_two_iff _).mpr (h first c _ hall hp).1
    obtain ⟨htype, hsame⟩ := h before call after hcalls hpushed
    obtain ⟨timescale, hall, hkept⟩ := sendAll_keeps hbefore
    have hread := hkept.kept call.mediaType ((index_lt_two_iff _).mpr htype)
    refine ⟨timescale, _, hall, hread, ?_⟩
    intro hmedia v hv
    rw [hsame hmedia v hv, Option.getD_some]

/-! ## Two players -/

def Segment.ofBytes (bs : Bytes) : Segment where
  heap := Mem.ofBytes bs fun _ => 0
  ptr := 0
  len := bs.length
  memory := default
  fuel := 6

/-- An `mdhd` box. -/
def initSegment (timescale : Nat) : Segment :=
  .ofBytes ([0, 0, 0, 30, 0x6D, 0x64, 0x68, 0x64, 0, 0, 0, 0, 0, 0, 0, 0, 0, 0, 0, 0] ++
    beBytes 4 timescale ++ [0, 0, 0, 0, 0, 0])

/-- One sample: a `trun` box in `moof` and `traf`. -/
def mediaSegment : Segment :=
  .ofBytes [0, 0, 0, 36, 0x6D, 0x6F, 0x6F, 0x66, 0, 0, 0, 28, 0x74, 0x72, 0x61, 0x66,
    0, 0, 0, 20, 0x74, 0x72, 0x75, 0x6E, 0, 0, 0, 1, 0, 0, 0, 1, 0, 0, 0, 0]

theorem mediaSegment_isMedia : mediaSegment.IsMedia := by
  have hreturns : (mediaSegment.demux 0).isOk = true := by decide +kernel
  constructor
  · cases hd : mediaSegment.demux 0 with
    | ok d => exact ⟨d, rfl⟩
    | error e =>
        rw [hd] at hreturns
        cases hreturns
  · decide +kernel

/-- The init segments of the first and of a second player. -/
def twoInits : List (DemuxCall Nat) :=
  [⟨0, .video, initSegment 90000, true⟩, ⟨1, .video, initSegment 1000, true⟩]

theorem twoInits_run : sendAll twoInits = some [1000, 0] := by decide +kernel

/-- The second player changes the timescale of the first one, and a subtitle segment reads behind
the array. -/
theorem twoInits_not_follows :
    ¬ TimescaleFollows (twoInits ++ [⟨0, .video, mediaSegment, true⟩]) ∧
      ¬ TimescaleFollows [(⟨0, .subtitle, mediaSegment, true⟩ : DemuxCall Nat)] := by
  constructor
  · intro h
    obtain ⟨timescale, start, hall, hstart, hfollows⟩ := h twoInits _ [] rfl rfl
    cases hall.symm.trans twoInits_run
    have hown : lastInit (ofTrack 0 .video) twoInits = some 90000 := by decide +kernel
    have hused : start = 90000 := hfollows mediaSegment_isMedia 90000 hown
    rw [hused] at hstart
    exact absurd hstart (by decide)
  · intro h
    obtain ⟨timescale, start, hall, hstart, _⟩ := h [] _ [] rfl rfl
    cases hall
    cases hstart

end PlayerInterface.Player
