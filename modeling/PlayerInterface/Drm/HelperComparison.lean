import PlayerInterface.Drm.ClearKeyHelper
import PlayerInterface.Drm.SessionManager

/-!
# Comparison of two DRM helpers

The key asked for by one helper is searched in the key ids of the other only, so the
answer depends on which of the two is asked.
-/

namespace PlayerInterface.Drm

/-- A helper with what else its comparison looks at. -/
structure ContentHelper extends DrmHelper where
  systemUUID : String
  mediaFormat : MediaFormat
  getDrmMetaData : String

namespace ContentHelper

/-- `none` is the null pointer. -/
def compare (self : ContentHelper) : Option ContentHelper → Bool
  | none => false
  | some other =>
      if self.systemUUID ≠ other.systemUUID then false
      else if self.mediaFormat ≠ other.mediaFormat then false
      else if self.ocdmSystemId ≠ other.ocdmSystemId then false
      else if self.getDrmMetaData ≠ other.getDrmMetaData then false
      else
        let keyIdVector := if other.getKeys = [] then [other.getKey] else other.getKeys
        if keyIdVector ≠ [] ∧ ¬ keyIdVector.contains self.getKey then false else true

/-- Helpers for the same content on the same system. -/
def SameContent (a b : ContentHelper) : Prop :=
  a.systemUUID = b.systemUUID ∧ a.mediaFormat = b.mediaFormat ∧
    a.ocdmSystemId = b.ocdmSystemId ∧ a.getDrmMetaData = b.getDrmMetaData

instance (a b : ContentHelper) : Decidable (a.SameContent b) :=
  inferInstanceAs (Decidable (_ ∧ _))

theorem SameContent.symm {a b : ContentHelper} (h : a.SameContent b) : b.SameContent a :=
  ⟨h.1.symm, h.2.1.symm, h.2.2.1.symm, h.2.2.2.symm⟩

/-- The key ids of both helpers. -/
def sharedKeys (a b : ContentHelper) : List KeyIdBytes :=
  a.keyIdArrays.filter b.keyIdArrays.contains

theorem compare_eq_true_iff (a b : ContentHelper) :
    a.compare (some b) = true ↔ a.SameContent b ∧ a.getKey ∈ b.keyIdArrays := by
  have hne : b.keyIdArrays ≠ [] := List.ne_nil_of_mem b.getKey_mem
  have hvector : (if b.getKeys = [] then [b.getKey] else b.getKeys) = b.keyIdArrays := rfl
  unfold compare SameContent
  simp only [hvector, ne_eq, hne, not_false_eq_true, true_and, List.contains_iff_mem]
  split_ifs <;> simp_all

/-- The key of a helper is always one of its own. -/
theorem getKey_mem_sharedKeys (a b : ContentHelper) :
    (a.getKey ∈ a.sharedKeys b ↔ a.getKey ∈ b.keyIdArrays) ∧
      (b.getKey ∈ a.sharedKeys b ↔ b.getKey ∈ a.keyIdArrays) := by
  have ha := a.getKey_mem
  have hb := b.getKey_mem
  unfold sharedKeys
  simp only [List.mem_filter, List.contains_iff_mem, ha, hb, true_and, and_true]

theorem compare_self (a : ContentHelper) : a.compare (some a) = true :=
  (compare_eq_true_iff a a).mpr ⟨⟨rfl, rfl, rfl, rfl⟩, a.getKey_mem⟩

/-- The comparison is reflexive, and it is symmetric exactly between helpers of different content
and those where both keys asked for are shared or none is. -/
theorem compare_symm_iff (a b : ContentHelper) :
    (a.compare (some a) = true ∧ a.compare (some b) = b.compare (some a)) ↔
      ¬ a.SameContent b ∨ (a.getKey ∈ a.sharedKeys b ↔ b.getKey ∈ a.sharedKeys b) := by
  obtain ⟨hkeyA, hkeyB⟩ := getKey_mem_sharedKeys a b
  rw [and_iff_right (compare_self a), Bool.eq_iff_iff, compare_eq_true_iff, compare_eq_true_iff,
    hkeyA, hkeyB]
  by_cases hsame : a.SameContent b
  · have hsame' := hsame.symm
    simp only [hsame, hsame', true_and, not_true_eq_false, false_or]
  · have hsame' : ¬ b.SameContent a := fun h => hsame h.symm
    simp only [hsame, hsame', false_and, not_false_eq_true, true_or]

/-- A helper for two keys, the first of which is asked for. -/
def twoKeys : ContentHelper where
  ocdmSystemId := "com.widevine.alpha"
  getKey := [1]
  getKeys := [[1], [2]]
  key_mem := Or.inr (by decide)
  systemUUID := "edef8ba9-79d6-4ace-a3c8-27dcd51d21ed"
  mediaFormat := .eMEDIAFORMAT_DASH
  getDrmMetaData := ""

/-- A helper of the same content for the second key alone. -/
def secondKey : ContentHelper :=
  { twoKeys with getKey := [2], getKeys := [[2]], key_mem := Or.inr (by decide) }

theorem twoKeys_secondKey :
    ¬ (twoKeys.compare (some twoKeys) = true ∧
      twoKeys.compare (some secondKey) = secondKey.compare (some twoKeys)) := by
  decide

end ContentHelper

end PlayerInterface.Drm
