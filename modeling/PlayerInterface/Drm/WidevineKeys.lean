import PlayerInterface.Drm.WidevinePssh

/-!
# The keys of a Widevine box

What the helper has after `parsePssh` is what the fields left over what it had before:
empty ids leave nothing, and ids of an earlier box stay behind the new ones.
-/

namespace PlayerInterface.Drm

open PlayerInterface.Core

namespace WidevineDrmHelper

/-! ## All fields -/

theorem after_psshData (fields : List PsshField) (s : FieldLoop) :
    (fields.foldl FieldLoop.after s).psshData =
      s.psshData + (fields.flatMap PsshField.octets).length := by
  induction fields generalizing s with
  | nil => rfl
  | cons f fields ih =>
      rw [List.foldl_cons, ih, List.flatMap_cons, List.length_append]
      exact Nat.add_assoc _ _ _

theorem after_rc (fields : List PsshField) (s : FieldLoop) :
    (fields.foldl FieldLoop.after s).rc = true ↔
      s.rc = true ∨ fields.filterMap PsshField.storedId? ≠ [] := by
  induction fields generalizing s with
  | nil => simp
  | cons f fields ih =>
      rw [List.foldl_cons, ih, List.filterMap_cons]
      cases hid : f.storedId? with
      | none => simp [FieldLoop.after, hid]
      | some keyId => simp [FieldLoop.after, hid]

/-- The stored ids lie over what the helper had. -/
theorem after_mKeyIDs (fields : List PsshField) (s : FieldLoop) (i : Nat) :
    (fields.foldl FieldLoop.after s).helper.mKeyIDs i =
      if i < s.kidCount then s.helper.mKeyIDs i
      else (fields.filterMap PsshField.storedId?)[i - s.kidCount]?.or (s.helper.mKeyIDs i) := by
  induction fields generalizing s with
  | nil => simp
  | cons f fields ih =>
      rw [List.foldl_cons, ih, List.filterMap_cons]
      cases hid : f.storedId? with
      | none => simp [FieldLoop.after, hid]
      | some keyId =>
          simp only [FieldLoop.after, hid, Option.isSome_some, if_true]
          by_cases hbelow : i < s.kidCount
          · rw [if_pos (by omega), if_pos hbelow, Function.update_of_ne (by omega)]
          · rw [if_neg hbelow]
            by_cases hhere : i = s.kidCount
            · subst hhere
              rw [if_pos (Nat.lt_succ_self _), Function.update_self, Nat.sub_self]
              rfl
            · obtain ⟨k, hk⟩ : ∃ k, i - s.kidCount = k + 1 := ⟨i - s.kidCount - 1, by omega⟩
              rw [if_neg (by omega), Function.update_of_ne hhere, hk, List.getElem?_cons_succ,
                show i - (s.kidCount + 1) = k by omega]

theorem after_protectionScheme (fields : List PsshField) (s : FieldLoop) :
    (fields.foldl FieldLoop.after s).helper.protectionScheme =
      match (fields.filterMap PsshField.scheme?).getLast? with
      | some value => BitVec.ofNat 32 value
      | none => s.helper.protectionScheme := by
  induction fields generalizing s with
  | nil => rfl
  | cons f fields ih =>
      rw [List.foldl_cons, ih, List.filterMap_cons]
      cases hscheme : f.scheme? with
      | none => simp [FieldLoop.after, hscheme]
      | some value =>
          dsimp only
          rw [List.getLast?_cons]
          cases (fields.filterMap PsshField.scheme?).getLast? with
          | none => simp [FieldLoop.after, hscheme]
          | some last => rfl

/-! ## The box -/

/-- The key and content ids in order and nothing else, and the protection scheme. -/
structure Extracts (box : WidevinePssh) (rc : Bool) (h : WidevineDrmHelper) : Prop where
  returned : rc = true
  keyIds : ∀ i, (h.mKeyIDs i).map Subtype.val = box.ids[i]?
  scheme : ∀ value, box.protectionScheme = some value → h.protectionScheme.toNat = value

/-- The loop in front of the first field. -/
def firstField (h : WidevineDrmHelper) (m : Mem) (psshSize : Nat) : FieldLoop where
  psshData := 32
  kidCount := 0
  rc := false
  helper := { h with mInitData := m.slice 0 psshSize }

structure BoxHeader (m : Mem) (box : WidevinePssh) : Prop where
  boxSize : m.be 0 4 = box.bytes.length
  boxType : m.slice 4 4 = ascii "pssh"
  version : m.be 8 4 / 2 ^ 24 = 0
  systemID : m.slice 12 16 = systemID_WideVine
  payload : Holds m 32 box.payload

theorem boxHeader {m : Mem} {box : WidevinePssh} (hholds : Holds m 0 box.bytes) :
    BoxHeader m box := by
  have hlen := box.bytes_length
  unfold WidevinePssh.bytes at hholds
  simp only [holds_append, List.length_append, List.length_cons, beBytes_length,
    Word.bytes_length] at hholds
  obtain ⟨⟨⟨⟨⟨hsize, htype⟩, hversion⟩, hsystem⟩, -⟩, hpayload⟩ := hholds
  refine ⟨?_, htype.slice, ?_, hsystem.slice, hpayload⟩
  · rw [hlen]
    exact hsize.be box.fits
  · have hword : m.be 8 4 = be (0 :: box.flags.bytes) := by
      have hslice := hversion.slice
      rw [List.length_cons, Word.bytes_length] at hslice
      exact congrArg be hslice
    have hflags : be box.flags.bytes < 256 ^ 3 := by
      simpa using be_lt box.flags.bytes
    rw [hword, be]
    exact Nat.div_eq_of_lt (by simpa using hflags)

/-- The header of a box lets the loop begin. -/
theorem parsePssh_box (h : WidevineDrmHelper) {m : Mem} {box : WidevinePssh}
    (hheader : BoxHeader m box) :
    h.parsePssh m box.bytes.length =
      (runFields m box.bytes.length (firstField h m box.bytes.length)).map
        fun s => (s.rc, s.helper) := by
  have hboxSize : ¬ m.be 0 4 ≠ box.bytes.length := not_not_intro hheader.boxSize
  have hboxType : ¬ m.slice 4 4 ≠ ascii "pssh" := not_not_intro hheader.boxType
  have hsystemID : ¬ m.slice 12 16 ≠ systemID_WideVine := not_not_intro hheader.systemID
  unfold parsePssh
  dsimp only
  rw [if_neg hboxSize, if_neg hboxType, if_neg hsystemID, if_pos hheader.version]
  unfold runFields firstField
  cases readFields m box.bytes.length (box.bytes.length - 32) _ <;> rfl

/-- What the helper is left with when every field is followed. -/
theorem parsePssh_inStep (h : WidevineDrmHelper) (box : WidevinePssh) (beyond : Mem)
    (hstep : ∀ f ∈ box.fields, f.InStep) (hfits : ∀ f ∈ box.fields, f.Fits) :
    ∃ s, h.parsePssh (Mem.ofBytes box.bytes beyond) box.bytes.length = some (s.rc, s.helper) ∧
      s = box.fields.foldl FieldLoop.after
        (firstField h (Mem.ofBytes box.bytes beyond) box.bytes.length) := by
  have hheader := boxHeader (holds_ofBytes box.bytes beyond)
  have hlen := box.bytes_length
  refine ⟨_, ?_, rfl⟩
  rw [parsePssh_box h hheader, runFields_fields hheader.payload (Nat.le_of_eq hlen.symm) hstep hfits,
    runFields_end, Option.map_some]
  rw [after_psshData, hlen]
  exact Nat.le_refl _

theorem storedIds_eq {fields : List PsshField}
    (h : ∀ id ∈ fields.filterMap PsshField.id?, id ≠ []) :
    (fields.filterMap PsshField.storedId?).map Subtype.val = fields.filterMap PsshField.id? := by
  induction fields with
  | nil => rfl
  | cons f fields ih =>
      rw [List.filterMap_cons, List.filterMap_cons]
      rw [List.filterMap_cons] at h
      cases f with
      | number | unknown => exact ih h
      | string tag len bs hlen =>
          cases hstored : tag.stored with
          | false =>
              simp only [PsshField.id?, PsshField.storedId?, hstored] at h ⊢
              exact ih h
          | true =>
              simp only [PsshField.id?, PsshField.storedId?, hstored, if_true, true_and] at h ⊢
              have hne : bs ≠ [] := h bs List.mem_cons_self
              rw [dif_pos hne, List.map_cons, ih fun id hid => h id (List.mem_cons_of_mem bs hid)]

theorem parsePssh_undefined (h : WidevineDrmHelper) (box : WidevinePssh) (beyond : Mem)
    (hstep : ∀ f ∈ box.fields, f.InStep) (hfits : ¬ ∀ f ∈ box.fields, f.Fits) :
    h.parsePssh (Mem.ofBytes box.bytes beyond) box.bytes.length = none := by
  have hheader := boxHeader (holds_ofBytes box.bytes beyond)
  rw [parsePssh_box h hheader, runFields_undefined hheader.payload
    (Nat.le_of_eq box.bytes_length.symm) hstep hfits]
  rfl

/-- The three results in terms of the fields. -/
theorem extracts_iff (h : WidevineDrmHelper) (box : WidevinePssh) (m : Mem)
    (hfits : ∀ f ∈ box.fields, f.Fits) {s : FieldLoop}
    (hs : s = box.fields.foldl FieldLoop.after (firstField h m box.bytes.length)) :
    Extracts box s.rc s.helper ↔
      box.fields.filterMap PsshField.storedId? ≠ [] ∧
        ∀ i, ((box.fields.filterMap PsshField.storedId?)[i]?.or (h.mKeyIDs i)).map Subtype.val =
          box.ids[i]? := by
  have hrc : s.rc = true ↔ box.fields.filterMap PsshField.storedId? ≠ [] := by
    rw [hs, after_rc]
    exact or_iff_right nofun
  have hkeys : ∀ i, s.helper.mKeyIDs i =
      (box.fields.filterMap PsshField.storedId?)[i]?.or (h.mKeyIDs i) := by
    intro i
    rw [hs, after_mKeyIDs]
    exact if_neg (Nat.not_lt_zero i)
  have hscheme : ∀ value, box.protectionScheme = some value →
      s.helper.protectionScheme.toNat = value := by
    intro value hvalue
    obtain ⟨f, hf, hscheme⟩ := List.mem_filterMap.mp (List.mem_of_getLast? hvalue)
    have hlt : value < 2 ^ 32 := by
      cases f with
      | number tag v =>
          cases tag <;> cases hscheme
          exact (hfits _ hf).2
      | string | unknown => cases hscheme
    rw [hs, after_protectionScheme, show (box.fields.filterMap PsshField.scheme?).getLast? = some value
      from hvalue]
    exact (BitVec.toNat_ofNat value 32).trans (Nat.mod_eq_of_lt hlt)
  simp only [← hkeys]
  exact ⟨fun hx => ⟨hrc.mp hx.returned, hx.keyIds⟩, fun hx => ⟨hrc.mpr hx.1, hx.2, hscheme⟩⟩

/-- Stored ids over earlier ones show the ids exactly when none is empty and none is left. -/
theorem keyIds_iff (h : WidevineDrmHelper) (box : WidevinePssh) :
    (∀ i, ((box.fields.filterMap PsshField.storedId?)[i]?.or (h.mKeyIDs i)).map Subtype.val =
        box.ids[i]?) ↔
      (∀ id ∈ box.ids, id ≠ []) ∧ ∀ i, box.ids.length ≤ i → h.mKeyIDs i = none := by
  constructor
  · intro hkeys
    have hne : ∀ id ∈ box.ids, id ≠ [] := by
      intro id hid
      obtain ⟨i, hi⟩ := List.mem_iff_getElem?.mp hid
      obtain ⟨keyId, -, hkeyId⟩ := Option.map_eq_some_iff.mp ((hkeys i).trans hi)
      exact hkeyId ▸ keyId.2
    refine ⟨hne, fun i hi => ?_⟩
    have hlen : (box.fields.filterMap PsshField.storedId?).length ≤ i := by
      rwa [WidevinePssh.ids, ← storedIds_eq hne, List.length_map] at hi
    have hnone := hkeys i
    rw [List.getElem?_eq_none hi, List.getElem?_eq_none hlen, Option.map_eq_none_iff] at hnone
    exact hnone
  · rintro ⟨hne, hold⟩ i
    rw [WidevinePssh.ids, ← storedIds_eq hne, List.getElem?_map]
    cases hi : (box.fields.filterMap PsshField.storedId?)[i]? with
    | some keyId => rfl
    | none =>
        have hlen : box.ids.length ≤ i := by
          rw [WidevinePssh.ids, ← storedIds_eq hne, List.length_map]
          exact List.getElem?_eq_none_iff.mp hi
        rw [hold i hlen]
        rfl

/-- A box whose fields the loop can follow is read right exactly when all its numbers fit,
it has ids, none of them empty, and the helper has no id from before behind them. -/
theorem parsePssh_iff (h : WidevineDrmHelper) (box : WidevinePssh) (beyond : Mem)
    (hstep : ∀ f ∈ box.fields, f.InStep) :
    (∃ rc h', h.parsePssh (Mem.ofBytes box.bytes beyond) box.bytes.length = some (rc, h') ∧
        Extracts box rc h') ↔
      (∀ f ∈ box.fields, f.Fits) ∧ box.ids ≠ [] ∧ (∀ id ∈ box.ids, id ≠ []) ∧
        ∀ i, box.ids.length ≤ i → h.mKeyIDs i = none := by
  by_cases hfits : ∀ f ∈ box.fields, f.Fits
  · obtain ⟨s, hs, hfold⟩ := parsePssh_inStep h box beyond hstep hfits
    have hresult : (∃ rc h', h.parsePssh (Mem.ofBytes box.bytes beyond) box.bytes.length =
        some (rc, h') ∧ Extracts box rc h') ↔ Extracts box s.rc s.helper := by
      rw [hs]
      constructor
      · rintro ⟨rc, h', heq, hx⟩
        cases heq
        exact hx
      · exact fun hx => ⟨_, _, rfl, hx⟩
    rw [hresult, extracts_iff h box _ hfits hfold, keyIds_iff, and_iff_right hfits]
    refine and_congr_left fun hrest => ?_
    rw [WidevinePssh.ids, ← storedIds_eq hrest.1, ne_eq, ne_eq, List.map_eq_nil_iff]
  · rw [parsePssh_undefined h box beyond hstep hfits]
    exact iff_of_false (by rintro ⟨rc, h', heq, -⟩; cases heq) fun hall => hfits hall.1

/-- A content id, a key id and the scheme `cenc`. -/
def twoIds : WidevinePssh where
  flags := .zero
  fields :=
    [.string .ContentId ⟨[], 2, by decide⟩ [0xaa, 0xbb] rfl,
      .string .KeyId ⟨[], 1, by decide⟩ [0xcc] rfl,
      .number .ProtectionScheme ⟨[0x63, 0x5c, 0x15, 0x1b], 0x06, by decide⟩]
  fits := by decide

theorem twoIds_extracted : ∃ rc h',
    WidevineDrmHelper.new.parsePssh (Mem.ofBytes twoIds.bytes fun _ => 0) twoIds.bytes.length =
      some (rc, h') ∧ Extracts twoIds rc h' := by
  refine (parsePssh_iff .new twoIds (fun _ => 0) ?_).mpr ⟨?_, nofun, ?_, fun _ _ => rfl⟩
  · intro f hf
    simp only [twoIds, List.mem_cons, List.not_mem_nil, or_false] at hf
    rcases hf with rfl | rfl | rfl
    · rfl
    · rfl
    · trivial
  · intro f hf
    simp only [twoIds, List.mem_cons, List.not_mem_nil, or_false] at hf
    rcases hf with rfl | rfl | rfl
    · trivial
    · trivial
    · exact ⟨by decide, by decide⟩
  · decide

/-- A content id of 128 bytes, whose length takes two octets. -/
def longId : WidevinePssh where
  flags := ⟨0, by decide⟩
  fields := [.string .ContentId ⟨[0], 1, by decide⟩ (List.replicate 128 0xaa)
    List.length_replicate.symm]
  fits := by decide +kernel

/-- The first octet of the length, with its high bit, is taken for the length: the second one
goes into the id. -/
theorem longId_misread : ¬ ∀ (h : WidevineDrmHelper) (box : WidevinePssh) (beyond : Mem),
    ∃ rc h', h.parsePssh (Mem.ofBytes box.bytes beyond) box.bytes.length = some (rc, h') ∧
      Extracts box rc h' := by
  intro hclaim
  obtain ⟨rc, h', hparse, hextracts⟩ := hclaim .new longId fun _ => 0
  have hkey := hextracts.keyIds 0
  have hread : (WidevineDrmHelper.new.parsePssh (Mem.ofBytes longId.bytes fun _ => 0)
      longId.bytes.length).map (fun r => (r.2.mKeyIDs 0).map Subtype.val) =
        some (some (1 :: List.replicate 127 0xaa)) := by
    decide +kernel
  rw [hparse, Option.map_some, Option.some.injEq] at hread
  rw [hread] at hkey
  revert hkey
  decide +kernel

end WidevineDrmHelper
end PlayerInterface.Drm
