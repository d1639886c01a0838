import PlayerInterface.IsoBmff.RoundTrip

/-!
# The duration of a segment index

`constructSidxBox` walks the references of a `sidx` and adds up their durations
in a 32-bit word, although the box object keeps 64 bits. The duration it shows is
the sum exactly while the sum fits that word.
-/

namespace PlayerInterface.IsoBmff

open PlayerInterface.Core Reader

/-- One reference: type and size, duration, and the stream access point. -/
structure SidxReference where
  referenced_size : Word 4
  subsegment_duration : Word 4
  sap : Word 4

def SidxReference.bytes (r : SidxReference) : Bytes :=
  r.referenced_size.bytes ++ (r.subsegment_duration.bytes ++ r.sap.bytes)

def referencesBytes : List SidxReference → Bytes
  | [] => []
  | r :: references => r.bytes ++ referencesBytes references

/-- A segment index whose number of references fits its 16-bit word. -/
structure SidxFields where
  version1 : Bool
  flags : Word 3
  reference_ID : Word 4
  timescale : Word 4
  earliest_presentation_time : Word (timeWidth version1)
  first_offset : Word (timeWidth version1)
  reserved : Word 2
  references : List SidxReference
  count_lt : references.length < 256 ^ 2

namespace SidxFields

def bytes (b : SidxFields) : Bytes :=
  versionByte b.version1 ++ (b.flags.bytes ++ (b.reference_ID.bytes ++ (b.timescale.bytes ++
    (b.earliest_presentation_time.bytes ++ (b.first_offset.bytes ++ (b.reserved.bytes ++
      (beBytes 2 b.references.length ++ referencesBytes b.references)))))))

/-- The sum of the subsegment durations. -/
def duration (b : SidxFields) : Nat :=
  (b.references.map fun r => r.subsegment_duration.toNat).sum

/-- The object with the stored timescale and this duration. -/
def box (b : SidxFields) (sz duration : Nat) : IsoBmffBox :=
  .full { size := sz, type := SIDX } (if b.version1 then 1 else 0) b.flags.toNat
    (.sidx b.timescale.toNat duration)

end SidxFields

/-! ## The references -/

@[simp] theorem SidxReference.bytes_length (r : SidxReference) : r.bytes.length = 12 := by
  simp [bytes]

/-- The reference loop passes every reference and keeps the low 32 bits of the sum. -/
theorem sidxReferences_stored {references : List SidxReference} {m : Mem} {p duration : Nat}
    (h : Holds m p (referencesBytes references)) (hd : duration < 2 ^ 32) :
    (sidxReferences references.length duration).val m p =
        (duration + (references.map fun r => r.subsegment_duration.toNat).sum) % 2 ^ 32 ∧
      (sidxReferences references.length duration).next m p =
        p + (referencesBytes references).length := by
  induction references generalizing p duration with
  | nil => exact ⟨(Nat.mod_eq_of_lt hd).symm, rfl⟩
  | cons r references ih =>
      rw [referencesBytes, holds_append, SidxReference.bytes_length] at h
      obtain ⟨hr, hrest⟩ := h
      simp only [SidxReference.bytes, holds_append, Word.bytes_length] at hr
      have hduration : m.be (p + 4) 4 = r.subsegment_duration.toNat := hr.2.1.word
      have hnext : p + 4 + 4 + 4 = p + 12 := rfl
      have hloop := ih hrest (Nat.mod_lt (duration + r.subsegment_duration.toNat) (by decide))
      simp only [List.length_cons, sidxReferences, val_bind, next_bind, val_readBe, next_readBe,
        hduration, hnext, hloop.1, hloop.2]
      refine ⟨?_, ?_⟩
      · rw [Nat.mod_add_mod, Nat.add_assoc, List.map_cons, List.sum_cons]
      · rw [referencesBytes, List.length_append, SidxReference.bytes_length, Nat.add_assoc]

/-! ## The box -/

theorem ifVersion_zero_time (v : Bool) :
    ifVersion (if v then 1 else 0) 0 4 8 = timeWidth v := by
  cases v <;> rfl

namespace SidxFields

/-- The parser ends behind the box, with the low 32 bits of the sum as its duration. -/
theorem constructSidxBox_stored {b : SidxFields} {m : Mem} {p : Nat} (h : Holds m p b.bytes)
    (sz : Nat) :
    (constructSidxBox sz).val m p = b.box sz (b.duration % 2 ^ 32) ∧
      (constructSidxBox sz).next m p = p + b.bytes.length := by
  have hlength : b.bytes.length = 1 + (3 + (4 + (4 + (timeWidth b.version1 +
      (timeWidth b.version1 + (2 + (2 + (referencesBytes b.references).length))))))) := by
    simp only [bytes, List.length_append, versionByte_length, Word.bytes_length, beBytes_length]
  simp only [bytes, holds_append, versionByte_length, Word.bytes_length, beBytes_length] at h
  obtain ⟨hv, hf, -, ht, -, -, -, hcount, hrefs⟩ := h
  have hloop := sidxReferences_stored hrefs (by decide : 0 < 2 ^ 32)
  rw [Nat.zero_add] at hloop
  simp only [constructSidxBox, val_bind, next_bind, val_readBe, next_readBe, val_pure, next_pure,
    version_stored hv, ifVersion_zero_time, hf.word, ht.word, hcount.be b.count_lt, hloop.1,
    hloop.2, hlength]
  exact ⟨rfl, by omega⟩

/-- A `sidx` is consumed to its end, and its object shows the stored timescale and the
sum of the durations exactly when the sum is below 2^32. -/
theorem constructSidxBox_iff (b : SidxFields) (m : Mem) (p : Nat) (h : Holds m p b.bytes)
    (sz : Nat) :
    (constructSidxBox sz).next m p = p + b.bytes.length ∧
      ((constructSidxBox sz).val m p = b.box sz b.duration ↔ b.duration < 2 ^ 32) := by
  obtain ⟨hval, hnext⟩ := constructSidxBox_stored h sz
  refine ⟨hnext, ?_⟩
  rw [hval]
  constructor
  · intro he
    simp only [box, IsoBmffBox.full.injEq, FullBody.sidx.injEq, true_and] at he
    omega
  · intro hlt
    rw [Nat.mod_eq_of_lt hlt]

/-- Two references of half the range each. -/
def coarse : SidxFields where
  version1 := false
  flags := .zero
  reference_ID := .zero
  timescale := .ofNat 90000
  earliest_presentation_time := .zero
  first_offset := .zero
  reserved := .zero
  references := [⟨.zero, .ofNat (2 ^ 31), .zero⟩, ⟨.zero, .ofNat (2 ^ 31), .zero⟩]
  count_lt := by decide

theorem coarse_constructSidxBox_iff :
    (constructSidxBox 56).next (Mem.ofBytes coarse.bytes fun _ => 0) 0 = 0 + coarse.bytes.length ∧
      ((constructSidxBox 56).val (Mem.ofBytes coarse.bytes fun _ => 0) 0 =
        coarse.box 56 coarse.duration ↔ coarse.duration < 2 ^ 32) :=
  coarse.constructSidxBox_iff _ 0 (holds_ofBytes coarse.bytes fun _ => 0) 56

/-- The two durations add up to 2^32 and are shown as 0. -/
theorem coarse_wraps : ¬ ∀ (b : SidxFields) (m : Mem) (p : Nat), Holds m p b.bytes → ∀ sz,
    (constructSidxBox sz).next m p = p + b.bytes.length ∧
      (constructSidxBox sz).val m p = b.box sz b.duration := by
  intro hall
  have hm := holds_ofBytes coarse.bytes fun _ => 0
  have hbox := (hall coarse _ 0 hm 56).2
  rw [(constructSidxBox_stored hm 56).1] at hbox
  simp only [box, IsoBmffBox.full.injEq, FullBody.sidx.injEq, true_and] at hbox
  exact absurd hbox (by decide)

end SidxFields
end PlayerInterface.IsoBmff
