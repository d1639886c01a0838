import PlayerInterface.Core.Bytes
import PlayerInterface.Core.Occurrences

/-!
# The viper transform of TTML buffers

A buffer of several concatenated documents is split, and each document goes out in a
buffer of its own with a share of the duration.
-/

namespace PlayerInterface.GstSubtec

open PlayerInterface.Core

/-- `"<?xml"`. -/
def XmlStart : Bytes := [0x3C, 0x3F, 0x78, 0x6D, 0x6C]

def GST_SECOND : Nat := 1000000000

def GST_MSECOND : Nat := 1000000

inductive ViperContentType where
  | UNKNOWN
  | PASSTHROUGH
  | LINEAR_OFFSET
  | LINEAR_OFFSET_PRELIM
  | HARMONIC_UHD
deriving DecidableEq, Repr

structure GstViperTransform where
  m_content_type : ViperContentType
  m_linear_begin_offset : Int64
  m_search_first_begin : Bool
deriving DecidableEq, Repr

structure GstBuffer where
  pts : UInt64
  dts : UInt64
  duration : UInt64
  offset : UInt64
  data : Bytes
deriving DecidableEq, Repr

inductive GstFlowReturn where
  | ok
  | error
  | dropped
deriving DecidableEq, Repr

/-! ## `int` arithmetic -/

/-- The `int` a wider number is stored as. -/
def toInt (n : Nat) : Int := (n : Int).bmod (2 ^ 32)

/-- The result of an `int` operation, which is undefined out of range. -/
def inInt (n : Int) : Option Int := if -2 ^ 31 ≤ n ∧ n < 2 ^ 31 then some n else none

/-- The `guint64` a signed operand is converted to. -/
def toGuint64 (n : Int) : UInt64 := UInt64.ofInt n

/-! ## The documents of a buffer -/

/-- Without a first marker the second search starts at `npos + 1`, which is 0. -/
def is_harmonic_uhd (ttml : Bytes) : Bool :=
  let first_marker := findFrom XmlStart ttml 0
  let second_marker := findFrom XmlStart ttml (first_marker.elim 0 (· + 1))
  second_marker.isSome

/-- The loop from `pos` on, `none` for `npos`. Its `substr` takes the end for a count. -/
def split_bufferLoop (ttml : Bytes) : Nat → Option Nat → List Bytes
  | 0, _ => []
  | fuel + 1, pos =>
      match pos.bind (findFrom XmlStart ttml) with
      | none => []
      | some start_pos =>
          let end_pos := findFrom XmlStart ttml (start_pos + 1)
          substr ttml start_pos end_pos :: split_bufferLoop ttml fuel end_pos

def split_buffer (ttml : Bytes) : List Bytes := split_bufferLoop ttml (ttml.length + 1) (some 0)

/-! ## The transform -/

/-- The field is read back as a signed one. -/
def GetRestampPTSOffsetMS (buf : GstBuffer) : Int64 := buf.offset.toInt64

/-- What the loop makes of one document; the product is an `int` one. -/
def segmentBuffer (vipertransform : GstViperTransform) (pts : UInt64)
    (segment_duration segment_count : Int) (item : Bytes) : Option GstBuffer := do
  let pts_ms := pts / UInt64.ofNat GST_MSECOND
  let duration_ms := toGuint64 (segment_duration.tdiv GST_MSECOND)
  let elapsed ← inInt (segment_count * segment_duration)
  some
    { pts := pts + toGuint64 elapsed
      dts := pts + toGuint64 elapsed
      duration := toGuint64 segment_duration
      offset :=
        if vipertransform.m_linear_begin_offset ≠ 0 then
          vipertransform.m_linear_begin_offset.toUInt64
        else 0 - (pts_ms + duration_ms * toGuint64 segment_count)
      data := item }

/-- The buffers pushed for the documents, from index `segment_count` on. -/
def pushSegments (vipertransform : GstViperTransform) (pts : UInt64) (segment_duration : Int) :
    Int → List Bytes → Option (List GstBuffer)
  | _, [] => some []
  | segment_count, item :: items => do
      let buf ← segmentBuffer vipertransform pts segment_duration segment_count item
      let segment_count ← inInt (segment_count + 1)
      let pushed ← pushSegments vipertransform pts segment_duration segment_count items
      some (buf :: pushed)

structure Transformed where
  flow : GstFlowReturn
  outbuf : GstBuffer
  pushed : List GstBuffer
deriving DecidableEq, Repr

/-- `mapped` says whether both buffers can be mapped; `none` is undefined behaviour. A duration
of -1 is the one of buffers from a file. -/
def gst_vipertransform_transform (vipertransform : GstViperTransform) (inbuf outbuf : GstBuffer)
    (mapped : Bool) : Option Transformed :=
  if mapped = false then some ⟨.error, outbuf, []⟩
  else
    let ttml := inbuf.data
    let outbuf := { outbuf with data := inbuf.data ++ outbuf.data.drop inbuf.data.length }
    if is_harmonic_uhd ttml then
      let ttml_vec := split_buffer ttml
      if ttml_vec = [] then some ⟨.ok, outbuf, []⟩
      else do
        let unset := inbuf.duration.toInt64 = -1
        let pts := if unset then 0 else inbuf.pts
        let segment_duration :=
          if unset then toInt (ttml_vec.length * GST_SECOND % 2 ^ 64)
          else toInt (inbuf.duration.toNat / ttml_vec.length)
        let pushed ← pushSegments vipertransform pts segment_duration 0 ttml_vec
        some ⟨.dropped, outbuf, pushed⟩
    else if vipertransform.m_linear_begin_offset ≠ 0 then
      some ⟨.ok, { outbuf with offset := vipertransform.m_linear_begin_offset.toUInt64 }, []⟩
    else some ⟨.ok, outbuf, []⟩

/-! ## The markers -/

/-- The places of the marker. -/
def markers (ttml : Bytes) : List Nat := occurrences XmlStart ttml

theorem XmlStart_ne_nil : XmlStart ≠ [] := List.cons_ne_nil _ _

/-- The pieces the loop cuts: each runs from a marker for as many bytes as lie before the next. -/
def cutForward (ttml : Bytes) : List Nat → List Bytes
  | [] => []
  | p :: rest => substr ttml p rest.head? :: cutForward ttml rest

theorem split_bufferLoop_eq {ttml : Bytes} {fuel : Nat} {pos : Nat}
    (hfuel : (occurrencesFrom XmlStart ttml pos).length < fuel) :
    split_bufferLoop ttml fuel (some pos) =
      cutForward ttml (occurrencesFrom XmlStart ttml pos) := by
  generalize hplaces : occurrencesFrom XmlStart ttml pos = places at hfuel
  induction places generalizing fuel pos with
  | nil =>
      cases fuel with
      | zero => exact absurd hfuel (Nat.not_lt_zero _)
      | succ fuel =>
          simp only [split_bufferLoop, Option.bind_some, findFrom_eq XmlStart_ne_nil, hplaces,
            List.head?_nil, cutForward]
  | cons p rest ih =>
      obtain ⟨_, _, _, hrest⟩ := occurrencesFrom_cons hplaces
      cases fuel with
      | zero => exact absurd hfuel (Nat.not_lt_zero _)
      | succ fuel =>
          rw [List.length_cons] at hfuel
          simp only [split_bufferLoop, Option.bind_some, findFrom_eq XmlStart_ne_nil, hplaces,
            List.head?_cons, cutForward, ← hrest]
          cases rest with
          | nil =>
              -- the loop ends at `npos`
              cases fuel <;> rfl
          | cons q rest =>
              rw [List.head?_cons, ih (occurrencesFrom_place hrest.symm) (by omega)]

theorem cutForward_length (ttml : Bytes) (places : List Nat) :
    (cutForward ttml places).length = places.length := by
  induction places with
  | nil => rfl
  | cons p rest ih => rw [cutForward, List.length_cons, List.length_cons, ih]

theorem markers_length_le (ttml : Bytes) : (markers ttml).length ≤ ttml.length := by
  rw [markers, occurrences]
  generalize 0 = k
  induction ttml generalizing k with
  | nil => exact Nat.le_refl 0
  | cons b bs ih =>
      rw [occurrencesAt, List.length_cons]
      split
      · exact Nat.succ_le_succ (ih (k + 1))
      · exact Nat.le_succ_of_le (ih (k + 1))

theorem split_buffer_eq (ttml : Bytes) : split_buffer ttml = cutForward ttml (markers ttml) :=
  split_bufferLoop_eq (Nat.lt_succ_of_le (markers_length_le ttml))

theorem split_buffer_length (ttml : Bytes) :
    (split_buffer ttml).length = (markers ttml).length := by
  rw [split_buffer_eq, cutForward_length]

theorem is_harmonic_uhd_iff (ttml : Bytes) :
    is_harmonic_uhd ttml = true ↔ 2 ≤ (markers ttml).length := by
  rw [is_harmonic_uhd, findFrom_eq XmlStart_ne_nil, findFrom_eq XmlStart_ne_nil,
    occurrencesFrom_zero, ← markers]
  cases hplaces : markers ttml with
  | nil =>
      rw [List.head?_nil, Option.elim_none, occurrencesFrom_zero, ← markers, hplaces]
      simp
  | cons p rest =>
      obtain ⟨_, _, _, hrest⟩ := occurrencesFrom_cons hplaces
      rw [List.head?_cons, Option.elim_some, ← hrest, List.length_cons]
      cases rest <;> simp

end PlayerInterface.GstSubtec
