import PlayerInterface.GstSubtec.ViperTransform

/-!
# The documents a buffer is split into

The right cut ends each document where the next one starts. The loop takes this end for
the number of bytes, so a document that does not start the buffer and is not its last one
also carries bytes of the next.
-/

namespace PlayerInterface.GstSubtec

open PlayerInterface.Core

/-- A split in one document per marker. -/
structure Splits (ttml : Bytes) (pieces : List Bytes) : Prop where
  count : pieces.length = (markers ttml).length
  marked : ∀ piece ∈ pieces, XmlStart <+: piece ∧ (markers piece).length = 1
  joined : ∀ first, (markers ttml).head? = some first → pieces.flatten = ttml.drop first

/-- Split where there is a marker; nothing from outside the text where there is none. -/
def SplitRight (ttml : Bytes) (pieces : List Bytes) : Prop :=
  if markers ttml = [] then ∀ piece ∈ pieces, piece <:+: ttml else Splits ttml pieces

/-- The documents, each from its marker to the next one. -/
def documents (ttml : Bytes) : List Bytes := cutAt ttml (markers ttml)

theorem cutAt_length {α : Type} (s : List α) (places : List Nat) :
    (cutAt s places).length = places.length := by
  induction places with
  | nil => rfl
  | cons p rest ih => rw [cutAt, List.length_cons, List.length_cons, ih]

theorem markers_pairwise (ttml : Bytes) : (markers ttml).Pairwise (· < ·) :=
  occurrencesAt_pairwise XmlStart 0 ttml

theorem documents_split (ttml : Bytes) : Splits ttml (documents ttml) where
  count := cutAt_length ttml (markers ttml)
  marked := by
    intro piece hpiece
    have hplace : markers piece = [0] :=
      cutAt_occurrences (x := 0x3C) (by decide) ttml 0 piece hpiece
    have hstart : 0 ∈ markers piece := by rw [hplace]; exact List.mem_cons_self
    exact ⟨(mem_occurrences.mp hstart).2, by rw [hplace, List.length_singleton]⟩
  joined := by
    intro first hfirst
    have hasc := markers_pairwise ttml
    rw [documents]
    cases hplaces : markers ttml with
    | nil => rw [hplaces] at hfirst; cases hfirst
    | cons p rest =>
        rw [hplaces] at hfirst hasc
        obtain rfl : p = first := Option.some.inj hfirst
        exact cutAt_flatten ttml hasc

/-! ## When the loop cuts too much -/

/-- The pieces together are at least as long as the text they are cut from. -/
theorem cutForward_covers {ttml : Bytes} {p : Nat} {rest : List Nat}
    (hasc : (p :: rest).Pairwise (· < ·)) (hin : ∀ q ∈ p :: rest, q < ttml.length) :
    ttml.length - p ≤ (cutForward ttml (p :: rest)).flatten.length := by
  induction rest generalizing p with
  | nil => simp [cutForward, substr]
  | cons q rest ih =>
      have hpq : p < q := List.rel_of_pairwise_cons hasc List.mem_cons_self
      have hq : q < ttml.length := hin q (by simp)
      have hrest := ih (List.Pairwise.of_cons hasc) fun r hr => hin r (List.mem_cons_of_mem p hr)
      rw [cutForward, List.flatten_cons, List.length_append, List.head?_cons, substr,
        List.length_take, List.length_drop]
      omega

/-- They are longer where a document starts late and is followed by another. -/
theorem cutForward_overlong {ttml : Bytes} {p q : Nat} {rest : List Nat}
    (hasc : (p :: q :: rest).Pairwise (· < ·)) (hin : ∀ r ∈ p :: q :: rest, r < ttml.length)
    (hp : 0 < p) :
    ttml.length - p < (cutForward ttml (p :: q :: rest)).flatten.length := by
  have hpq : p < q := List.rel_of_pairwise_cons hasc List.mem_cons_self
  have hq : q < ttml.length := hin q (by simp)
  have hrest := cutForward_covers (List.Pairwise.of_cons hasc) fun r hr =>
    hin r (List.mem_cons_of_mem p hr)
  rw [cutForward, List.flatten_cons, List.length_append, List.head?_cons, substr,
    List.length_take, List.length_drop]
  omega

/-- At most one document, or two of which the first starts the text. -/
def OneCut (ttml : Bytes) : Prop :=
  (markers ttml).length ≤ 1 ∨ ((markers ttml).length = 2 ∧ XmlStart <+: ttml)

instance (ttml : Bytes) : Decidable (OneCut ttml) :=
  inferInstanceAs (Decidable (_ ∨ _))

theorem marker_zero_of_start {ttml : Bytes} {p : Nat} {rest : List Nat}
    (hplaces : markers ttml = p :: rest) (hstart : XmlStart <+: ttml) : p = 0 := by
  have hlen : 5 ≤ ttml.length := hstart.length_le
  have hmem : 0 ∈ markers ttml := mem_occurrences.mpr ⟨by omega, hstart⟩
  have hasc := markers_pairwise ttml
  rw [hplaces] at hmem hasc
  rcases List.mem_cons.mp hmem with hzero | hmem
  · exact hzero.symm
  · exact absurd (List.rel_of_pairwise_cons hasc hmem) (Nat.not_lt_zero p)

theorem split_buffer_eq_documents {ttml : Bytes} (h : OneCut ttml) :
    split_buffer ttml = documents ttml := by
  rw [split_buffer_eq, documents]
  rcases hplaces : markers ttml with _ | ⟨p, _ | ⟨q, _ | ⟨r, rest⟩⟩⟩
  · rfl
  · rfl
  · rcases h with hlen | ⟨_, hstart⟩
    · rw [hplaces] at hlen
      exact absurd hlen (by simp)
    · obtain rfl := marker_zero_of_start hplaces hstart
      rfl
  · rcases h with hlen | ⟨hlen, _⟩ <;> rw [hplaces] at hlen <;> simp at hlen

theorem oneCut_of_splits {ttml : Bytes} (h : Splits ttml (split_buffer ttml)) : OneCut ttml := by
  have hin : ∀ p ∈ markers ttml, p < ttml.length := fun p hp => (mem_occurrences.mp hp).1
  have hasc := markers_pairwise ttml
  have hjoined := h.joined
  rw [split_buffer_eq] at hjoined
  rcases hplaces : markers ttml with _ | ⟨p, _ | ⟨q, rest⟩⟩
  · exact Or.inl (by rw [hplaces]; exact Nat.zero_le 1)
  · exact Or.inl (by rw [hplaces]; exact Nat.le_refl 1)
  · rw [hplaces] at hin hasc hjoined
    have hlen := congrArg List.length (hjoined p rfl)
    rw [List.length_drop] at hlen
    have hp : p = 0 := by
      by_contra hp
      have := cutForward_overlong hasc hin (Nat.pos_of_ne_zero hp)
      omega
    subst hp
    have hstart : XmlStart <+: ttml := by
      have hmem : 0 ∈ markers ttml := by rw [hplaces]; exact List.mem_cons_self
      exact (mem_occurrences.mp hmem).2
    cases rest with
    | nil => exact Or.inr ⟨by rw [hplaces]; rfl, hstart⟩
    | cons r rest =>
        have hpq : 0 < q := List.rel_of_pairwise_cons hasc List.mem_cons_self
        have hq : q < ttml.length := hin q (by simp)
        have hover := cutForward_overlong (List.Pairwise.of_cons hasc)
          (fun m hm => hin m (List.mem_cons_of_mem 0 hm)) hpq
        rw [cutForward, List.flatten_cons, List.length_append, List.head?_cons, substr,
          List.length_take, List.length_drop] at hlen
        omega

/-- The buffer is split in its documents exactly when no document but the last starts behind
the first byte. -/
theorem split_buffer_right_iff (ttml : Bytes) :
    SplitRight ttml (split_buffer ttml) ↔ OneCut ttml := by
  rw [SplitRight]
  split
  case isTrue hnone =>
    rw [split_buffer_eq, hnone]
    constructor
    · intro _
      exact Or.inl (by rw [hnone]; exact Nat.zero_le 1)
    · intro _ piece hpiece
      cases hpiece
  case isFalse =>
    constructor
    · exact oneCut_of_splits
    · intro h
      rw [split_buffer_eq_documents h]
      exact documents_split ttml

/-- Of three documents the second one comes out with the third in it. -/
theorem split_buffer_three :
    ¬ SplitRight (XmlStart ++ XmlStart ++ XmlStart)
      (split_buffer (XmlStart ++ XmlStart ++ XmlStart)) := by
  intro h
  rw [SplitRight, if_neg (by decide)] at h
  exact absurd (h.joined 0 (by decide)) (by decide)

end PlayerInterface.GstSubtec
