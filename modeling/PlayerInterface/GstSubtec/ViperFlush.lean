import PlayerInterface.Core.Transition
import PlayerInterface.GstSubtec.ViperTransform
import PlayerInterface.Json.PlayerJsonObject

/-!
# The viper transform behind a flush

The first cue of a stream decides between an offset and passthrough. A flush takes back the decision
and the offset, but passthrough is a mode of the base class and stays on.
-/

namespace PlayerInterface.GstSubtec

open PlayerInterface.Core
open PlayerInterface.Json (isspace leadingNumber isdigit)

/-! ## The first begin time -/

/-- `"begin"`. -/
def beginTag : Bytes := [0x62, 0x65, 0x67, 0x69, 0x6E]

def npos : Nat := 2 ^ 64 - 1

/-- The contents of a tag with their position and length. -/
def findTag (instring tag : Bytes) (start_pos : Nat) : Option (Bytes × Nat × Nat) := do
  let tag_start := tag ++ [0x3D, 0x22]
  let pos ← findFrom tag_start instring start_pos
  let pos := pos + tag_start.length
  let endpos := (findFrom [0x22] instring pos).getD npos
  let len := endpos - pos
  some (substr instring pos (some len), pos, len)

/-- The result of a `gint64` operation, which is undefined out of range. -/
def inInt64 (n : Int) : Option Int64 :=
  if -2 ^ 63 ≤ n ∧ n < 2 ^ 63 then some (Int64.ofInt n) else none

/-- `%d`, with the text behind the number. -/
def scanInt (text : Bytes) : Option (Int × Bytes) :=
  let text := text.dropWhile isspace
  let negative : Bool := text.head? = some 0x2D
  let digits := if negative || text.head? = some 0x2B then text.drop 1 else text
  (leadingNumber digits).map fun n =>
    (if negative then -(n : Int) else n, digits.dropWhile isdigit)

/-- The colon of the format. -/
def scanColon : Bytes → Option Bytes
  | 0x3A :: text => some text
  | _ => none

/-- `secondsMs` is what `%f`, times 1000, gives for a text. `none` is undefined: a number is read
unset, also where the text ends before the first one, since `EOF` counts as true. -/
def convertTime (secondsMs : Bytes → Option Int64) (timeString : Bytes) : Option Int64 :=
  let text := cText timeString
  if text.dropWhile isspace = [] then none
  else
    match scanInt text with
    | none => some 0
    | some (hours, text) => do
        let hours ← inInt hours
        let (mins, text) ← (scanColon text).bind scanInt
        let mins ← inInt mins
        let secs ← (scanColon text).bind secondsMs
        let minuteSeconds ← inInt (mins * 60)
        inInt64 ((hours * 3600 + minuteSeconds) * 1000 + secs.toInt)

/-- The inner `none` is a text without a begin tag. -/
def findFirstBegin (secondsMs : Bytes → Option Int64) (ttml : Bytes) : Option (Option Int64) :=
  match findTag ttml beginTag 0 with
  | none => some none
  | some (tag_contents, _, _) => (convertTime secondsMs tag_contents).map some

/-! ## The element -/

/-- The element, and the mode of its base class. -/
structure ViperElement where
  vipertransform : GstViperTransform
  passthrough : Bool
deriving DecidableEq, Repr

inductive GstEventType where
  | FLUSH_START
  | FLUSH_STOP
  | other
deriving DecidableEq, Repr

/-- A buffer, the output buffer allocated for it, and which of them can be mapped where. -/
structure Arrival where
  inbuf : GstBuffer
  outbuf : GstBuffer
  readable : Bool
  mapped : Bool
deriving DecidableEq, Repr

/-- What goes on: the buffer itself, or what the transform makes of it. -/
inductive Handed where
  | passed (inbuf : GstBuffer)
  | transformed (result : Transformed)
deriving DecidableEq, Repr

structure Treatment where
  m_content_type : ViperContentType
  m_linear_begin_offset : Int64
  handed : Handed
deriving DecidableEq, Repr

/-- The first document of several, else the whole text. -/
def firstDocument (ttml : Bytes) : Bytes :=
  if is_harmonic_uhd ttml then (split_buffer ttml).head?.getD ttml else ttml

/-- Whether the cue is off the time of the buffer by more than the duration. -/
def misaligned (buf : GstBuffer) (offset_from_pts_ms : Int64) : Option Bool := do
  let difference ← inInt64 (offset_from_pts_ms.toInt - (GetRestampPTSOffsetMS buf).toInt)
  let distance ← inInt64 |difference.toInt|
  some (distance.toUInt64 > buf.duration / UInt64.ofNat GST_MSECOND)

def offsetFromPts (buf : GstBuffer) (first_begin_ms : Int64) : Int64 :=
  first_begin_ms - (buf.pts / UInt64.ofNat GST_MSECOND).toInt64

namespace ViperElement

/-- `gst_vipertransform_init` on cleared memory. -/
def created : ViperElement := ⟨⟨.UNKNOWN, 0, false⟩, false⟩

def gst_base_transform_set_passthrough (trans : ViperElement) (passthrough : Bool) :
    ViperElement :=
  { trans with passthrough }

def setType (trans : ViperElement) (m_content_type : ViperContentType) : ViperElement :=
  { trans with vipertransform := { trans.vipertransform with m_content_type } }

def setOffset (trans : ViperElement) (m_linear_begin_offset : Int64) : ViperElement :=
  { trans with vipertransform := { trans.vipertransform with m_linear_begin_offset } }

/-- `gst_vipertransform_set_caps`. -/
def set_caps (trans : ViperElement) (caps_name : String) : ViperElement :=
  let trans :=
    if caps_name ≠ "application/ttml+xml" then trans.gst_base_transform_set_passthrough true
    else trans
  { trans with vipertransform :=
      { trans.vipertransform with m_search_first_begin := true, m_linear_begin_offset := 0 } }

/-- `gst_vipertransform_event`; the handler of the base class leaves the mode as it is. -/
def event (trans : ViperElement) : GstEventType → ViperElement
  | .FLUSH_START => (trans.setType .UNKNOWN).setOffset 0
  | .FLUSH_STOP => (trans.setType .UNKNOWN).setOffset 0
  | .other => trans

/-- What the first begin time found in a buffer does to the element. -/
def update (trans : ViperElement) (buf : GstBuffer) (first_begin_ms : Int64) :
    Option ViperElement := do
  let restamp_pts_offset_ms := GetRestampPTSOffsetMS buf
  let offset_from_pts_ms := offsetFromPts buf first_begin_ms
  let m_linear_begin_offset := trans.vipertransform.m_linear_begin_offset
  match trans.vipertransform.m_content_type with
  | .UNKNOWN =>
      if ← misaligned buf offset_from_pts_ms then
        let trans := trans.setType .LINEAR_OFFSET
        if m_linear_begin_offset = 0 then some (trans.setOffset offset_from_pts_ms)
        else
          let distance ← inInt64 |offset_from_pts_ms.toInt|
          if distance < m_linear_begin_offset then some (trans.setOffset offset_from_pts_ms)
          else some trans
      else if restamp_pts_offset_ms ≠ 0 then
        some ((trans.setOffset restamp_pts_offset_ms).setType .LINEAR_OFFSET)
      else some ((trans.setType .PASSTHROUGH).gst_base_transform_set_passthrough true)
  | .LINEAR_OFFSET =>
      if ← misaligned buf offset_from_pts_ms then some (trans.setOffset offset_from_pts_ms)
      else some (trans.setOffset restamp_pts_offset_ms)
  | _ => some trans

/-- `gst_vipertransform_before_transform`. -/
def before_transform (secondsMs : Bytes → Option Int64) (trans : ViperElement) (buf : GstBuffer)
    (readable : Bool) : Option ViperElement :=
  if trans.passthrough then some trans
  else if readable = false then some trans
  else do
    match ← findFirstBegin secondsMs (firstDocument buf.data) with
    | none => some trans
    | some first_begin_ms => trans.update buf first_begin_ms

/-- The base class calls the transform unless the mode is on. -/
def hand (trans : ViperElement) (a : Arrival) : Option Handed :=
  if trans.passthrough then some (.passed a.inbuf)
  else
    (gst_vipertransform_transform trans.vipertransform a.inbuf a.outbuf a.mapped).map .transformed

/-- It looks at the mode behind `before_transform`. -/
def treat (secondsMs : Bytes → Option Int64) (trans : ViperElement) (a : Arrival) :
    Option (ViperElement × Treatment) := do
  let trans ← trans.before_transform secondsMs a.inbuf a.readable
  let handed ← trans.hand a
  some (trans, ⟨trans.vipertransform.m_content_type,
    trans.vipertransform.m_linear_begin_offset, handed⟩)

def treatments (secondsMs : Bytes → Option Int64) (trans : ViperElement) :
    List Arrival → Option (List Treatment)
  | [] => some []
  | a :: continuation => do
      let (trans, treatment) ← trans.treat secondsMs a
      let rest ← treatments secondsMs trans continuation
      some (treatment :: rest)

/-- A new element with TTML caps. -/
def fresh : ViperElement := created.set_caps "application/ttml+xml"

def flushed (trans : ViperElement) : ViperElement := (trans.event .FLUSH_START).event .FLUSH_STOP

end ViperElement

open ViperElement

/-- The element as the buffers of a history come in. -/
def viperSystem (secondsMs : Bytes → Option Int64) : System ViperElement Arrival where
  init trans := trans = fresh
  step trans a := (trans.treat secondsMs a).map Prod.fst

/-- No continuation shows a difference between the flushed element and a new one. -/
def FlushedLikeFresh (secondsMs : Bytes → Option Int64) (trans : ViperElement) : Prop :=
  ∀ continuation, trans.flushed.treatments secondsMs continuation =
    fresh.treatments secondsMs continuation

/-! ## The condition -/

/-- The first document can be read and has a begin tag. -/
def hasCue (a : Arrival) : Bool :=
  a.readable && (findTag (firstDocument a.inbuf.data) beginTag 0).isSome

/-- The first begin time is that of the buffer, up to its duration, and no offset is asked for. -/
def LinesUp (secondsMs : Bytes → Option Int64) (a : Arrival) : Prop :=
  ∃ first_begin_ms,
    findFirstBegin secondsMs (firstDocument a.inbuf.data) = some (some first_begin_ms) ∧
    misaligned a.inbuf (offsetFromPts a.inbuf first_begin_ms) = some false ∧
    GetRestampPTSOffsetMS a.inbuf = 0

/-- The first buffer with a cue lines up. -/
def FirstCueLinesUp (secondsMs : Bytes → Option Int64) (history : List Arrival) : Prop :=
  ∃ a, history.find? hasCue = some a ∧ LinesUp secondsMs a

/-! ## One buffer -/

section Steps

variable {secondsMs : Bytes → Option Int64}

theorem before_transform_of_passthrough {trans : ViperElement} (h : trans.passthrough = true)
    (buf : GstBuffer) (readable : Bool) :
    trans.before_transform secondsMs buf readable = some trans := by
  rw [before_transform, if_pos h]

theorem findFirstBegin_isNone {ttml : Bytes} (h : findTag ttml beginTag 0 = none) :
    findFirstBegin secondsMs ttml = some none := by
  rw [findFirstBegin, h]

theorem findFirstBegin_ne_none {ttml : Bytes} (h : (findTag ttml beginTag 0).isSome = true) :
    findFirstBegin secondsMs ttml ≠ some none := by
  obtain ⟨found, hfound⟩ := Option.isSome_iff_exists.mp h
  rw [findFirstBegin, hfound]
  cases convertTime secondsMs found.1 <;> simp

/-- Nothing changes before the first cue. -/
theorem before_transform_of_no_cue (trans : ViperElement) {a : Arrival} (h : hasCue a = false) :
    trans.before_transform secondsMs a.inbuf a.readable = some trans := by
  rw [before_transform]
  split
  case isTrue => rfl
  case isFalse =>
    split
    case isTrue => rfl
    case isFalse hreadable =>
      have hnone : findTag (firstDocument a.inbuf.data) beginTag 0 = none := by
        rw [hasCue, Bool.eq_true_of_not_eq_false hreadable, Bool.true_and] at h
        exact Option.isNone_iff_eq_none.mp (Option.isSome_eq_false_iff.mp h)
      rw [findFirstBegin_isNone hnone]
      rfl

/-- A cue is found and updates the element. -/
theorem before_transform_of_cue {trans t : ViperElement} (hmode : trans.passthrough = false)
    {a : Arrival} (h : hasCue a = true)
    (ht : trans.before_transform secondsMs a.inbuf a.readable = some t) :
    ∃ first_begin_ms,
      findFirstBegin secondsMs (firstDocument a.inbuf.data) = some (some first_begin_ms) ∧
      trans.update a.inbuf first_begin_ms = some t := by
  obtain ⟨hreadable, hfound⟩ := Bool.and_eq_true_iff.mp h
  rw [before_transform, if_neg (by rw [hmode]; exact Bool.false_ne_true), hreadable,
    if_neg Bool.noConfusion] at ht
  obtain ⟨found, hbegin, hupdate⟩ := Option.bind_eq_some_iff.mp ht
  cases found with
  | none => exact absurd hbegin (findFirstBegin_ne_none hfound)
  | some first_begin_ms => exact ⟨first_begin_ms, hbegin, hupdate⟩

/-- The step of the element is its inspection of the buffer. -/
theorem before_transform_of_step {trans t : ViperElement} {a : Arrival}
    (h : (viperSystem secondsMs).step trans a = some t) :
    trans.before_transform secondsMs a.inbuf a.readable = some t := by
  obtain ⟨⟨u, treatment⟩, htreat, hfst⟩ := Option.map_eq_some_iff.mp h
  obtain ⟨v, hbefore, hrest⟩ := Option.bind_eq_some_iff.mp htreat
  obtain ⟨handed, _, hpair⟩ := Option.bind_eq_some_iff.mp hrest
  have hu : v = u := congrArg Prod.fst (Option.some.inj hpair)
  rw [hbefore, hu]
  exact congrArg some hfst

/-- The first cue decides: it switches passthrough on, or asks for offsets from then on. -/
theorem update_fresh {t : ViperElement} {buf : GstBuffer} {first_begin_ms : Int64}
    (h : fresh.update buf first_begin_ms = some t) :
    (t.passthrough = true ∧ misaligned buf (offsetFromPts buf first_begin_ms) = some false ∧
        GetRestampPTSOffsetMS buf = 0) ∨
      (t.passthrough = false ∧ t.vipertransform.m_content_type = .LINEAR_OFFSET ∧
        ¬ (misaligned buf (offsetFromPts buf first_begin_ms) = some false ∧
          GetRestampPTSOffsetMS buf = 0)) := by
  obtain ⟨off, hoff, hdecide⟩ := Option.bind_eq_some_iff.mp h
  cases off with
  | true =>
      cases hdecide
      exact Or.inr ⟨rfl, rfl, fun hline => absurd (hoff.symm.trans hline.1) (by decide)⟩
  | false =>
      by_cases hrestamp : GetRestampPTSOffsetMS buf = 0
      · rw [if_neg Bool.false_ne_true, if_neg (not_not.mpr hrestamp)] at hdecide
        cases hdecide
        exact Or.inl ⟨rfl, hoff, hrestamp⟩
      · rw [if_neg Bool.false_ne_true, if_pos hrestamp] at hdecide
        cases hdecide
        exact Or.inr ⟨rfl, rfl, fun hline => hrestamp hline.2⟩

/-- Offsets are asked for to the end. -/
theorem update_linear {trans t : ViperElement} {buf : GstBuffer} {first_begin_ms : Int64}
    (hmode : trans.passthrough = false)
    (htype : trans.vipertransform.m_content_type = .LINEAR_OFFSET)
    (h : trans.update buf first_begin_ms = some t) :
    t.passthrough = false ∧ t.vipertransform.m_content_type = .LINEAR_OFFSET := by
  rw [update] at h
  simp only [htype] at h
  obtain ⟨off, _, hdecide⟩ := Option.bind_eq_some_iff.mp h
  cases off with
  | true =>
      cases hdecide
      exact ⟨hmode, htype⟩
  | false =>
      cases hdecide
      exact ⟨hmode, htype⟩

/-- Nothing writes the search flag. -/
theorem update_search {trans t : ViperElement} {buf : GstBuffer} {first_begin_ms : Int64}
    (h : trans.update buf first_begin_ms = some t) :
    t.vipertransform.m_search_first_begin = trans.vipertransform.m_search_first_begin := by
  rw [update] at h
  split at h
  · obtain ⟨off, _, hdecide⟩ := Option.bind_eq_some_iff.mp h
    cases off with
    | true =>
        rw [if_pos rfl] at hdecide
        split at hdecide
        · cases hdecide
          rfl
        · obtain ⟨distance, _, hcloser⟩ := Option.bind_eq_some_iff.mp hdecide
          split at hcloser <;> cases hcloser <;> rfl
    | false =>
        rw [if_neg Bool.false_ne_true] at hdecide
        split at hdecide <;> cases hdecide <;> rfl
  · obtain ⟨off, _, hdecide⟩ := Option.bind_eq_some_iff.mp h
    cases off <;> cases hdecide <;> rfl
  · cases h
    rfl

/-! ## The history -/

/-- The mode does not change once it is on, or offsets are asked for. -/
def Decided (passthrough : Bool) (trans : ViperElement) : Prop :=
  trans.passthrough = passthrough ∧
    (passthrough = false → trans.vipertransform.m_content_type = .LINEAR_OFFSET)

theorem Decided.step {passthrough : Bool} {trans t : ViperElement} {a : Arrival}
    (h : Decided passthrough trans) (ht : (viperSystem secondsMs).step trans a = some t) :
    Decided passthrough t := by
  have hbefore := before_transform_of_step ht
  cases passthrough with
  | true =>
      rw [before_transform_of_passthrough h.1] at hbefore
      cases hbefore
      exact h
  | false =>
      cases hcue : hasCue a with
      | false =>
          rw [before_transform_of_no_cue trans hcue] at hbefore
          cases hbefore
          exact h
      | true =>
          obtain ⟨_, _, hupdate⟩ := before_transform_of_cue h.1 hcue hbefore
          obtain ⟨hmode, htype⟩ := update_linear h.1 (h.2 rfl) hupdate
          exact ⟨hmode, fun _ => htype⟩

theorem Decided.run {passthrough : Bool} {trans t : ViperElement} {history : List Arrival}
    (h : Decided passthrough trans) (ht : (viperSystem secondsMs).run trans history = some t) :
    Decided passthrough t := by
  induction history generalizing trans with
  | nil =>
      cases ht
      exact h
  | cons a history ih =>
      obtain ⟨u, hu, hrest⟩ := Option.bind_eq_some_iff.mp ht
      exact ih (h.step hu) hrest

/-- The first cue decides whether the mode is on in the end. -/
theorem run_passthrough_iff {history : List Arrival} {t : ViperElement}
    (ht : (viperSystem secondsMs).run fresh history = some t) :
    t.passthrough = true ↔ FirstCueLinesUp secondsMs history := by
  induction history with
  | nil =>
      cases ht
      constructor
      · exact fun h => absurd h (by decide)
      · intro ⟨_, hfind, _⟩
        cases hfind
  | cons a history ih =>
      obtain ⟨u, hu, hrest⟩ := Option.bind_eq_some_iff.mp ht
      have hbefore := before_transform_of_step hu
      rw [FirstCueLinesUp, List.find?_cons]
      cases hcue : hasCue a with
      | false =>
          rw [before_transform_of_no_cue fresh hcue] at hbefore
          cases hbefore
          exact ih hrest
      | true =>
          obtain ⟨first_begin_ms, hbegin, hupdate⟩ := before_transform_of_cue rfl hcue hbefore
          constructor
          · intro hmode
            rcases update_fresh hupdate with ⟨_, hline⟩ | ⟨hoff, htype, _⟩
            · exact ⟨a, rfl, first_begin_ms, hbegin, hline⟩
            · have hdecided : Decided false u := ⟨hoff, fun _ => htype⟩
              exact absurd ((hdecided.run hrest).1.symm.trans hmode) Bool.false_ne_true
          · intro ⟨_, ha, begin_ms, hbegin', hline⟩
            cases ha
            cases hbegin.symm.trans hbegin'
            rcases update_fresh hupdate with ⟨hon, _⟩ | ⟨_, _, hoff⟩
            · have hdecided : Decided true u := ⟨hon, Bool.noConfusion⟩
              exact (hdecided.run hrest).1
            · exact absurd hline hoff

theorem step_search {trans t : ViperElement} {a : Arrival}
    (h : (viperSystem secondsMs).step trans a = some t) :
    t.vipertransform.m_search_first_begin = trans.vipertransform.m_search_first_begin := by
  have hbefore := before_transform_of_step h
  rw [before_transform] at hbefore
  split at hbefore
  · cases hbefore
    rfl
  · split at hbefore
    · cases hbefore
      rfl
    · obtain ⟨found, _, hupdate⟩ := Option.bind_eq_some_iff.mp hbefore
      cases found with
      | none =>
          cases hupdate
          rfl
      | some first_begin_ms => exact update_search hupdate

/-- A flush takes everything back but the mode of the base class. -/
theorem flushed_eq {history : List Arrival} {t : ViperElement}
    (ht : (viperSystem secondsMs).run fresh history = some t) :
    t.flushed = { fresh with passthrough := t.passthrough } := by
  have hsearch : t.vipertransform.m_search_first_begin = true := by
    have hreach : (viperSystem secondsMs).Reachable t := System.reachable_of_run rfl ht
    have hinit : ∀ s, (viperSystem secondsMs).init s →
        s.vipertransform.m_search_first_begin = true := by
      intro s hs
      rw [hs]
      rfl
    exact hreach.invariant hinit fun s a u hs _ hstep => (step_search hstep).trans hs
  calc
    t.flushed = ⟨⟨.UNKNOWN, 0, t.vipertransform.m_search_first_begin⟩, t.passthrough⟩ := rfl
    _ = { fresh with passthrough := t.passthrough } := by
      rw [hsearch]
      rfl

end Steps

/-! ## The continuation -/

/-- Two documents in one buffer. -/
def twoInOne : Arrival :=
  { inbuf := ⟨0, 0, 0, 0, XmlStart ++ XmlStart⟩
    outbuf := ⟨0, 0, 0, 0, []⟩
    readable := true
    mapped := true }

/-- They are split in a new element. -/
theorem fresh_splits (secondsMs : Bytes → Option Int64) :
    ∃ result, fresh.treatments secondsMs [twoInOne] =
      some [⟨.UNKNOWN, 0, .transformed result⟩] := by
  have hbefore : fresh.before_transform secondsMs twoInOne.inbuf twoInOne.readable =
      some fresh := before_transform_of_no_cue fresh (by decide)
  have hdefined : (gst_vipertransform_transform fresh.vipertransform twoInOne.inbuf
      twoInOne.outbuf twoInOne.mapped).isSome = true := by decide
  obtain ⟨result, hresult⟩ := Option.isSome_iff_exists.mp hdefined
  have hhand : fresh.hand twoInOne = some (.transformed result) := by
    rw [hand, if_neg (by decide), hresult]
    rfl
  have htreat : fresh.treat secondsMs twoInOne =
      some (fresh, ⟨.UNKNOWN, 0, .transformed result⟩) := by
    rw [treat, hbefore]
    simp only [Option.bind_eq_bind, Option.bind_some, hhand]
    rfl
  refine ⟨result, ?_⟩
  rw [treatments, htreat]
  rfl

/-- In passthrough they stay together. -/
theorem passthrough_passes (secondsMs : Bytes → Option Int64) :
    ({ fresh with passthrough := true } : ViperElement).treatments secondsMs [twoInOne] =
      some [⟨.UNKNOWN, 0, .passed twoInOne.inbuf⟩] := rfl

/-- The element is like a new one behind a flush exactly when no first cue has lined up. -/
theorem viperFlush_iff (secondsMs : Bytes → Option Int64) (history : List Arrival)
    {t : ViperElement} (ht : (viperSystem secondsMs).run fresh history = some t) :
    FlushedLikeFresh secondsMs t ↔ ¬ FirstCueLinesUp secondsMs history := by
  rw [← run_passthrough_iff ht, FlushedLikeFresh, flushed_eq ht]
  cases hmode : t.passthrough with
  | false => exact iff_of_true (fun _ => rfl) Bool.false_ne_true
  | true =>
      refine iff_of_false ?_ (not_not.mpr rfl)
      intro hlike
      obtain ⟨result, hresult⟩ := fresh_splits secondsMs
      have hsame := hlike [twoInOne]
      rw [passthrough_passes, hresult] at hsame
      cases hsame

/-- Seconds without a fraction. -/
def wholeSeconds (text : Bytes) : Option Int64 :=
  (leadingNumber text).map fun n => Int64.ofNat (1000 * n)

/-- A document that begins with its buffer: `begin="0:0:0"`. -/
def linedUp : Arrival :=
  { inbuf := ⟨0, 0, 0, 0, beginTag ++ [0x3D, 0x22, 0x30, 0x3A, 0x30, 0x3A, 0x30, 0x22]⟩
    outbuf := ⟨0, 0, 0, 0, List.replicate 13 0⟩
    readable := true
    mapped := true }

theorem linedUp_run : (viperSystem wholeSeconds).run fresh [linedUp] =
    some ⟨⟨.PASSTHROUGH, 0, true⟩, true⟩ := by
  decide

theorem viperFlush_linedUp :
    FlushedLikeFresh wholeSeconds ⟨⟨.PASSTHROUGH, 0, true⟩, true⟩ ↔
      ¬ FirstCueLinesUp wholeSeconds [linedUp] :=
  viperFlush_iff wholeSeconds [linedUp] linedUp_run

/-- Behind one document that has begun with its buffer, two documents are not split. -/
theorem linedUp_not_flushed :
    ∃ t, (viperSystem wholeSeconds).run fresh [linedUp] = some t ∧
      ¬ FlushedLikeFresh wholeSeconds t := by
  refine ⟨_, linedUp_run, ?_⟩
  intro hlike
  obtain ⟨result, hresult⟩ := fresh_splits wholeSeconds
  have hsame := hlike [twoInOne]
  rw [flushed_eq linedUp_run, passthrough_passes, hresult] at hsame
  cases hsame

end PlayerInterface.GstSubtec
