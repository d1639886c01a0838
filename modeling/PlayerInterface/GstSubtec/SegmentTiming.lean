import PlayerInterface.GstSubtec.ViperTransform
import Mathlib.Tactic.Ring

/-!
# The times of the documents of a buffer

Each document gets an equal share of the duration. The share, and its multiples, are kept
in an `int`: shares from 2^31 nanoseconds on, or multiples of a smaller one, do not fit.
-/

namespace PlayerInterface.GstSubtec

open PlayerInterface.Core

/-! ## The share of a document -/

/-- The exact share of each document, in nanoseconds. -/
def share (inbuf : GstBuffer) : Nat := inbuf.duration.toNat / (split_buffer inbuf.data).length

/-- The buffer of document `k`. The offset is minus the milliseconds of its own time, up to one
millisecond for each document before it. -/
structure Timed (vipertransform : GstViperTransform) (inbuf : GstBuffer) (k : Nat)
    (buf : GstBuffer) : Prop where
  data : (split_buffer inbuf.data)[k]? = some buf.data
  pts : buf.pts.toNat = inbuf.pts.toNat + k * share inbuf
  dts : buf.dts.toNat = inbuf.pts.toNat + k * share inbuf
  duration : buf.duration.toNat = share inbuf
  offset : vipertransform.m_linear_begin_offset = 0 →
    -((buf.pts.toNat / GST_MSECOND : Nat) : Int) ≤ (GetRestampPTSOffsetMS buf).toInt ∧
      (GetRestampPTSOffsetMS buf).toInt ≤ -((buf.pts.toNat / GST_MSECOND : Nat) : Int) + k

/-- One buffer for each document in their order, with times inside the one of the input. -/
structure SegmentsTimed (vipertransform : GstViperTransform) (inbuf : GstBuffer)
    (pushed : List GstBuffer) : Prop where
  count : pushed.length = (split_buffer inbuf.data).length
  timed : ∀ (k : Nat) (buf : GstBuffer), pushed[k]? = some buf → Timed vipertransform inbuf k buf
  ascending : pushed.Pairwise fun buf later => buf.pts ≤ later.pts
  inside : ∀ buf ∈ pushed, inbuf.pts.toNat ≤ buf.pts.toNat ∧
    buf.pts.toNat ≤ inbuf.pts.toNat + inbuf.duration.toNat

/-- The transform has a defined result, drops the input and pushes the documents at their
times. -/
def TransformsTimed (vipertransform : GstViperTransform) (inbuf outbuf : GstBuffer) : Prop :=
  ∃ out, gst_vipertransform_transform vipertransform inbuf outbuf true = some out ∧
    out.flow = .dropped ∧ SegmentsTimed vipertransform inbuf out.pushed

/-- The number of documents is an `int`, and so is the start of the last one. -/
def FitsInt (inbuf : GstBuffer) : Prop :=
  (split_buffer inbuf.data).length < 2 ^ 31 ∧
    ((split_buffer inbuf.data).length - 1) * share inbuf < 2 ^ 31

instance (inbuf : GstBuffer) : Decidable (FitsInt inbuf) :=
  inferInstanceAs (Decidable (_ ∧ _))

/-! ## Machine arithmetic -/

theorem toInt_of_lt {n : Nat} (h : n < 2 ^ 31) : toInt n = n := by
  unfold toInt
  rw [Int.bmod_def]
  omega

theorem toInt_bounds (n : Nat) : -2 ^ 31 ≤ toInt n ∧ toInt n < 2 ^ 31 := by
  unfold toInt
  rw [Int.bmod_def]
  omega

theorem inInt_of_lt {n : Nat} (h : n < 2 ^ 31) : inInt n = some (n : Int) := by
  rw [inInt, if_pos (by omega)]

theorem lt_of_inInt {n : Nat} {m : Int} (h : inInt n = some m) : n < 2 ^ 31 := by
  by_contra hle
  rw [inInt, if_neg (by omega)] at h
  cases h

theorem toGuint64_toNat {n : Nat} (h : n < 2 ^ 64) : (toGuint64 n).toNat = n := by
  have hmod : ((n : Int) % 2 ^ 64).toNat = n := by omega
  unfold toGuint64 UInt64.ofInt
  rw [hmod, UInt64.toNat_ofNat']
  exact Nat.mod_eq_of_lt h

/-- A negative `int` becomes a number from 2^63 on. -/
theorem le_toGuint64_of_neg {n : Int} (hlo : -2 ^ 31 ≤ n) (hneg : n < 0) :
    2 ^ 63 ≤ (toGuint64 n).toNat := by
  have hmod : 2 ^ 63 ≤ (n % 2 ^ 64).toNat ∧ (n % 2 ^ 64).toNat < 2 ^ 64 := by omega
  unfold toGuint64 UInt64.ofInt
  rw [UInt64.toNat_ofNat', Nat.mod_eq_of_lt hmod.2]
  exact hmod.1

theorem toInt64_zero_sub {x : UInt64} (h : x.toNat < 2 ^ 63) :
    (0 - x).toInt64.toInt = -(x.toNat : Int) := by
  have hsigned : (0 - x).toInt64.toInt = ((0 - x).toNat : Int).bmod (2 ^ 64) := by
    rw [UInt64.toNat, ← BitVec.toInt_eq_toNat_bmod]
    rfl
  rw [hsigned, UInt64.toNat_sub, Int.bmod_def]
  have hzero : (0 : UInt64).toNat = 0 := rfl
  omega

/-- The milliseconds of a sum are the sums of the milliseconds, up to one for each share. -/
theorem milliseconds_add (p k d : Nat) :
    p / GST_MSECOND + d / GST_MSECOND * k ≤ (p + k * d) / GST_MSECOND ∧
      (p + k * d) / GST_MSECOND ≤ p / GST_MSECOND + d / GST_MSECOND * k + k := by
  have hpos : 0 < GST_MSECOND := by decide
  have hp := Nat.div_add_mod p GST_MSECOND
  have hd := Nat.div_add_mod d GST_MSECOND
  have hrest : p % GST_MSECOND + k * (d % GST_MSECOND) < GST_MSECOND * (k + 1) := by
    have hpm := Nat.mod_lt p hpos
    have hdm := Nat.mul_le_mul_left k (Nat.le_of_lt (Nat.mod_lt d hpos))
    rw [Nat.mul_succ, Nat.mul_comm GST_MSECOND k]
    omega
  have hsum : p + k * d = GST_MSECOND * (p / GST_MSECOND + d / GST_MSECOND * k) +
      (p % GST_MSECOND + k * (d % GST_MSECOND)) := by
    calc p + k * d
        = (GST_MSECOND * (p / GST_MSECOND) + p % GST_MSECOND) +
            k * (GST_MSECOND * (d / GST_MSECOND) + d % GST_MSECOND) := by rw [hp, hd]
      _ = _ := by ring
  rw [hsum, Nat.mul_add_div hpos]
  have hlast := Nat.div_lt_of_lt_mul hrest
  exact ⟨Nat.le_add_right _ _, Nat.add_le_add_left (Nat.lt_succ_iff.mp hlast) _⟩

/-! ## The loop -/

variable {vipertransform : GstViperTransform}

theorem segmentBuffer_inv {pts : UInt64} {d k : Int} {item : Bytes} {buf : GstBuffer}
    (h : segmentBuffer vipertransform pts d k item = some buf) :
    (∃ elapsed, inInt (k * d) = some elapsed) ∧ buf.data = item ∧ buf.duration = toGuint64 d := by
  unfold segmentBuffer at h
  obtain ⟨elapsed, helapsed, hbuf⟩ := Option.bind_eq_some_iff.mp h
  obtain rfl := Option.some.inj hbuf
  exact ⟨⟨elapsed, helapsed⟩, rfl, rfl⟩

/-- Every buffer pushed is the one of its document. -/
theorem pushSegments_get {pts : UInt64} {d k : Int} {items : List Bytes} {pushed : List GstBuffer}
    (h : pushSegments vipertransform pts d k items = some pushed) :
    pushed.length = items.length ∧ ∀ (i : Nat) (buf : GstBuffer), pushed[i]? = some buf →
      ∃ item, items[i]? = some item ∧
        segmentBuffer vipertransform pts d (k + i) item = some buf ∧
        ∃ next, inInt (k + i + 1) = some next := by
  induction items generalizing k pushed with
  | nil =>
      obtain rfl := Option.some.inj h
      exact ⟨rfl, fun i buf hbuf => absurd hbuf (by simp)⟩
  | cons item items ih =>
      unfold pushSegments at h
      obtain ⟨first, hfirst, h⟩ := Option.bind_eq_some_iff.mp h
      obtain ⟨next, hnext, h⟩ := Option.bind_eq_some_iff.mp h
      obtain ⟨later, hlater, h⟩ := Option.bind_eq_some_iff.mp h
      obtain rfl := Option.some.inj h
      have hsucc : next = k + 1 := by
        unfold inInt at hnext
        split at hnext
        · exact (Option.some.inj hnext).symm
        · cases hnext
      obtain ⟨hlen, hget⟩ := ih hlater
      constructor
      · rw [List.length_cons, List.length_cons, hlen]
      · intro i buf hbuf
        cases i with
        | zero =>
            obtain rfl := Option.some.inj hbuf
            exact ⟨item, rfl, by simpa using hfirst, next, by simpa using hnext⟩
        | succ i =>
            have hindex : k + ((i + 1 : Nat) : Int) = next + i := by omega
            rw [List.getElem?_cons_succ] at hbuf ⊢
            rw [hindex]
            exact hget i buf hbuf

/-- A loop that stays inside `int` comes to its end. -/
theorem pushSegments_of_fits {pts : UInt64} {d k : Nat} {items : List Bytes}
    (hcount : k + items.length < 2 ^ 31)
    (hlast : (k + items.length - 1) * d < 2 ^ 31) :
    ∃ pushed, pushSegments vipertransform pts d k items = some pushed := by
  induction items generalizing k with
  | nil => exact ⟨[], rfl⟩
  | cons item items ih =>
      rw [List.length_cons] at hcount hlast
      have helapsed : k * d < 2 ^ 31 :=
        Nat.lt_of_le_of_lt (Nat.mul_le_mul_right d (by omega)) hlast
      have hindex : k + 1 + items.length = k + (items.length + 1) := by omega
      obtain ⟨pushed, hpushed⟩ := ih (k := k + 1) (by omega) (by rw [hindex]; exact hlast)
      have hproduct : inInt ((k : Int) * d) = some ((k : Int) * d) := by
        exact_mod_cast inInt_of_lt helapsed
      have hnext : inInt ((k : Int) + 1) = some ((k + 1 : Nat) : Int) := by
        exact_mod_cast inInt_of_lt (n := k + 1) (by omega)
      simp only [pushSegments, segmentBuffer, hproduct, hnext, Option.bind_eq_bind,
        Option.bind_some, hpushed]
      exact ⟨_, rfl⟩

/-! ## The times -/

/-- With everything inside `int` the buffer of document `k` is the exact one. -/
theorem segmentBuffer_timed {inbuf buf : GstBuffer} {k : Nat} {item : Bytes}
    (hitem : (split_buffer inbuf.data)[k]? = some item)
    (hend : inbuf.pts.toNat + k * share inbuf < 2 ^ 63)
    (hshare : share inbuf < 2 ^ 31) (helapsed : k * share inbuf < 2 ^ 31) (hk : k < 2 ^ 31)
    (hbuf : segmentBuffer vipertransform inbuf.pts (share inbuf) k item = some buf) :
    Timed vipertransform inbuf k buf := by
  have hproduct : inInt ((k : Int) * (share inbuf : Nat)) = some ((k * share inbuf : Nat) : Int) := by
    exact_mod_cast inInt_of_lt helapsed
  simp only [segmentBuffer, hproduct, Option.bind_eq_bind, Option.bind_some,
    Option.some.injEq] at hbuf
  have htime : (inbuf.pts + toGuint64 ((k * share inbuf : Nat) : Int)).toNat =
      inbuf.pts.toNat + k * share inbuf := by
    rw [UInt64.toNat_add, toGuint64_toNat (by omega), Nat.mod_eq_of_lt (by omega)]
  subst hbuf
  constructor
  · exact hitem
  · exact htime
  · exact htime
  · exact toGuint64_toNat (by omega)
  · intro hoffset
    have hms := milliseconds_add inbuf.pts.toNat k (share inbuf)
    have hbound : (inbuf.pts.toNat + k * share inbuf) / GST_MSECOND < 2 ^ 63 :=
      Nat.lt_of_le_of_lt (Nat.div_le_self _ _) hend
    have hdiv : (share inbuf : Int).tdiv GST_MSECOND = ((share inbuf / GST_MSECOND : Nat) : Int) :=
      (Int.ofNat_tdiv _ _).symm
    have hduration : share inbuf / GST_MSECOND < 2 ^ 64 :=
      Nat.lt_of_le_of_lt (Nat.div_le_self _ _) (by omega)
    have htotal : inbuf.pts.toNat / GST_MSECOND + share inbuf / GST_MSECOND * k < 2 ^ 63 :=
      Nat.lt_of_le_of_lt hms.1 hbound
    have hproduct : share inbuf / GST_MSECOND * k < 2 ^ 63 :=
      Nat.lt_of_le_of_lt (Nat.le_add_left _ _) htotal
    -- what the loop adds up, as a number
    have hsum : (inbuf.pts / UInt64.ofNat GST_MSECOND +
        toGuint64 ((share inbuf : Int).tdiv GST_MSECOND) * toGuint64 (k : Int)).toNat =
        inbuf.pts.toNat / GST_MSECOND + share inbuf / GST_MSECOND * k := by
      have hmsecond : (UInt64.ofNat GST_MSECOND).toNat = GST_MSECOND := by decide
      rw [hdiv, UInt64.toNat_add, UInt64.toNat_mul, UInt64.toNat_div, hmsecond,
        toGuint64_toNat hduration, toGuint64_toNat (by omega),
        Nat.mod_eq_of_lt (Nat.lt_trans hproduct (by decide)),
        Nat.mod_eq_of_lt (Nat.lt_trans htotal (by decide))]
    rw [htime, GetRestampPTSOffsetMS]
    simp only [hoffset, ne_eq, not_true_eq_false, if_false]
    rw [toInt64_zero_sub (by rw [hsum]; omega), hsum]
    omega

theorem transform_harmonic {inbuf outbuf : GstBuffer} (hvalid : inbuf.duration.toNat < 2 ^ 63)
    (hmany : 2 ≤ (split_buffer inbuf.data).length) :
    gst_vipertransform_transform vipertransform inbuf outbuf true =
      (pushSegments vipertransform inbuf.pts (toInt (share inbuf)) 0
        (split_buffer inbuf.data)).map fun pushed =>
          ⟨.dropped,
            { outbuf with data := inbuf.data ++ outbuf.data.drop inbuf.data.length }, pushed⟩ := by
  have huhd : is_harmonic_uhd inbuf.data = true :=
    (is_harmonic_uhd_iff inbuf.data).mpr (by rw [← split_buffer_length]; exact hmany)
  have hsplit : split_buffer inbuf.data ≠ [] := by
    intro hnil
    rw [hnil] at hmany
    exact absurd hmany (by decide)
  have hset : inbuf.duration.toInt64 ≠ -1 := by
    intro hunset
    have hall : inbuf.duration = (-1 : Int64).toUInt64 := by rw [← hunset]; rfl
    have hnat : inbuf.duration.toNat = 2 ^ 64 - 1 := by rw [hall]; rfl
    omega
  unfold gst_vipertransform_transform
  simp only [Bool.true_eq_false, if_false, huhd, if_true, hsplit, hset]
  rw [← share]
  cases pushSegments vipertransform inbuf.pts (toInt (share inbuf)) 0 (split_buffer inbuf.data)
    <;> rfl

theorem timed_of_fits {inbuf outbuf : GstBuffer}
    (hend : inbuf.pts.toNat + inbuf.duration.toNat < 2 ^ 63)
    (hmany : 2 ≤ (split_buffer inbuf.data).length) (h : FitsInt inbuf) :
    TransformsTimed vipertransform inbuf outbuf := by
  obtain ⟨hcount, hlast⟩ := h
  have hshare : share inbuf < 2 ^ 31 :=
    Nat.lt_of_le_of_lt (Nat.le_mul_of_pos_left _ (by omega)) hlast
  have hwhole : (split_buffer inbuf.data).length * share inbuf ≤ inbuf.duration.toNat :=
    Nat.mul_div_le _ _
  have hrun : ∃ pushed, pushSegments vipertransform inbuf.pts (share inbuf) 0
      (split_buffer inbuf.data) = some pushed :=
    pushSegments_of_fits (k := 0) (by omega) (by rw [Nat.zero_add]; exact hlast)
  obtain ⟨pushed, hpushed⟩ := hrun
  obtain ⟨hlen, hget⟩ := pushSegments_get hpushed
  have htimed : ∀ (k : Nat) (buf : GstBuffer), pushed[k]? = some buf →
      k * share inbuf ≤ inbuf.duration.toNat ∧ Timed vipertransform inbuf k buf := by
    intro k buf hk
    obtain ⟨item, hitem, hbuf, _⟩ := hget k buf hk
    have hkn : k < (split_buffer inbuf.data).length := (List.getElem?_eq_some_iff.mp hitem).1
    have hmul : k * share inbuf ≤ ((split_buffer inbuf.data).length - 1) * share inbuf :=
      Nat.mul_le_mul_right _ (by omega)
    have hmul' : k * share inbuf ≤ (split_buffer inbuf.data).length * share inbuf :=
      Nat.mul_le_mul_right _ (by omega)
    rw [Int.zero_add] at hbuf
    exact ⟨by omega, segmentBuffer_timed hitem (by omega) hshare (by omega) (by omega) hbuf⟩
  have hsegments : SegmentsTimed vipertransform inbuf pushed := by
    constructor
    · exact hlen
    · exact fun k buf hk => (htimed k buf hk).2
    · rw [List.pairwise_iff_getElem]
      intro i j hi hj hij
      have hpts := (htimed i pushed[i] (List.getElem?_eq_getElem hi)).2.pts
      have hpts' := (htimed j pushed[j] (List.getElem?_eq_getElem hj)).2.pts
      have hmul : i * share inbuf ≤ j * share inbuf := Nat.mul_le_mul_right _ (by omega)
      exact UInt64.le_iff_toNat_le.mpr (by omega)
    · intro buf hbuf
      obtain ⟨k, hk⟩ := List.mem_iff_getElem?.mp hbuf
      obtain ⟨hle, ht⟩ := htimed k buf hk
      rw [ht.pts]
      omega
  exact ⟨_, by rw [transform_harmonic (by omega) hmany, toInt_of_lt hshare, hpushed]; rfl, rfl,
    hsegments⟩

theorem fits_of_timed {inbuf outbuf : GstBuffer}
    (hend : inbuf.pts.toNat + inbuf.duration.toNat < 2 ^ 63)
    (hmany : 2 ≤ (split_buffer inbuf.data).length)
    (h : TransformsTimed vipertransform inbuf outbuf) : FitsInt inbuf := by
  obtain ⟨out, hout, _, htimed⟩ := h
  rw [transform_harmonic (by omega) hmany] at hout
  obtain ⟨pushed, hpushed, rfl⟩ := Option.map_eq_some_iff.mp hout
  obtain ⟨hlen, hget⟩ := pushSegments_get hpushed
  -- the last document, whose index and start are the largest
  have hlast : (split_buffer inbuf.data).length - 1 < pushed.length := by omega
  have hat := List.getElem?_eq_getElem hlast
  obtain ⟨item, _, hbuf, next, hnext⟩ := hget _ _ hat
  obtain ⟨⟨elapsed, helapsed⟩, _, hduration⟩ := segmentBuffer_inv hbuf
  have hshare := (htimed.timed _ _ hat).duration
  rw [hduration] at hshare
  have hle : share inbuf ≤ inbuf.duration.toNat := Nat.div_le_self _ _
  obtain ⟨hlo, hhi⟩ := toInt_bounds (share inbuf)
  have hnonneg : 0 ≤ toInt (share inbuf) := by
    by_contra hneg
    have := le_toGuint64_of_neg hlo (by omega)
    omega
  obtain ⟨d, hd⟩ := Int.eq_ofNat_of_zero_le hnonneg
  rw [hd] at hhi hshare helapsed
  rw [toGuint64_toNat (by omega)] at hshare
  subst hshare
  constructor
  · have hcount := lt_of_inInt (n := (split_buffer inbuf.data).length - 1 + 1)
      (by exact_mod_cast (by simpa using hnext))
    omega
  · exact lt_of_inInt (by exact_mod_cast (by simpa using helapsed))

/-- The documents go out at their exact times exactly when the last start fits an `int`. -/
theorem transform_timed_iff (vipertransform : GstViperTransform) (inbuf outbuf : GstBuffer)
    (hend : inbuf.pts.toNat + inbuf.duration.toNat < 2 ^ 63)
    (hmany : 2 ≤ (split_buffer inbuf.data).length) :
    TransformsTimed vipertransform inbuf outbuf ↔ FitsInt inbuf :=
  ⟨fits_of_timed hend hmany, timed_of_fits hend hmany⟩

/-- Two documents that share eight seconds. -/
def twoDocuments : GstBuffer :=
  { pts := 0, dts := 0, duration := 8000000000, offset := 0, data := XmlStart ++ XmlStart }

/-- Two documents that share four seconds. -/
def twoShortDocuments : GstBuffer := { twoDocuments with duration := 4000000000 }

def freshTransform : GstViperTransform :=
  { m_content_type := .UNKNOWN, m_linear_begin_offset := 0, m_search_first_begin := true }

theorem twoShortDocuments_timed :
    TransformsTimed freshTransform twoShortDocuments twoShortDocuments ↔
      FitsInt twoShortDocuments :=
  transform_timed_iff freshTransform twoShortDocuments twoShortDocuments (by decide) (by decide)

/-- Four seconds are too long for the share of a document. -/
theorem twoDocuments_late : ¬ TransformsTimed freshTransform twoDocuments twoDocuments :=
  fun h => absurd (fits_of_timed (by decide) (by decide) h) (by decide)

end PlayerInterface.GstSubtec
