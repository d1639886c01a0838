import PlayerInterface.Core.Reader
import PlayerInterface.Drm.WidevineHelper

/-!
# What the Widevine helper reads of a PSSH box

Every header field is read before any length is compared, and so is the length octet
of a field. Numbers stop at the end of the box, a key id is compared with it, and the
log of a text and the keys of version 1 are not.
-/

namespace PlayerInterface.Drm.WidevineBounds

open PlayerInterface.Core

/-! ## Fields -/

/-- The branches of the `switch`. -/
inductive FieldKind where
  | number
  | id
  | text
  | unknown
deriving DecidableEq, Repr

def fieldKind (fieldType : UInt8) : FieldKind :=
  match fieldType.toNat with
  | 0x38 | 0x50 | 0x08 | 0x48 => .number
  | 0x22 | 0x12 => .id
  | 0x32 | 0x2a | 0x1a => .text
  | _ => .unknown

/-- Where `ParseMultiInt` leaves the cursor, with `left` bytes before the end. -/
def behindMultiInt (m : Mem) : Nat → Nat → Nat
  | 0, psshData => psshData
  | left + 1, psshData =>
      if (m psshData).toNat < 128 then psshData + 1 else behindMultiInt m left (psshData + 1)

/-- `ParseMultiInt` without its value, on which neither cursor nor reads depend. -/
def ParseMultiInt (fin : Nat) : Reader Unit where
  val _ _ := ()
  next m p := behindMultiInt m (fin - p) p
  reads m p := List.range' p (behindMultiInt m (fin - p) p - p)

/-- What `%.*s` reads: at most `fieldSize` bytes, and none behind a zero one. -/
def loggedLength (m : Mem) (p : Nat) : Nat → Nat
  | 0 => 0
  | fieldSize + 1 => if m p = 0 then 1 else loggedLength m (p + 1) fieldSize + 1

def logText (fieldSize : Nat) : Reader Unit :=
  ⟨fun _ _ => (), fun _ p => p, fun m p => List.range' p (loggedLength m p fieldSize)⟩

/-- Content ID and Key ID: what is stored in `mKeyIDs`, with `rc` set. -/
def readKeyID (fin : Nat) : Reader (Option Bytes) := do
  let fieldSize ← Reader.readBe 1
  let psshData ← Reader.tell
  if 0 < fieldSize ∧ psshData + fieldSize ≤ fin then do
    let keyId ← Reader.readBytes fieldSize
    pure (some keyId)
  else do
    Reader.skip fieldSize
    pure none

/-- `warn` tells whether warnings are logged. -/
def readText (warn : Bool) : Reader (Option Bytes) := do
  let fieldSize ← Reader.readBe 1
  Reader.readIf warn () (logText fieldSize)
  Reader.skip fieldSize
  pure none

/-- One turn of the loop, behind the tag. -/
def readField (warn : Bool) (fin : Nat) (fieldType : UInt8) : Reader (Option Bytes) :=
  match fieldKind fieldType with
  | .number => do
      ParseMultiInt fin
      pure none
  | .id => readKeyID fin
  | .text => readText warn
  | .unknown => pure none

theorem behindMultiInt_le (m : Mem) (left psshData : Nat) :
    psshData ≤ behindMultiInt m left psshData := by
  induction left generalizing psshData with
  | zero => exact Nat.le_refl psshData
  | succ left ih =>
      rw [behindMultiInt]
      split
      · exact Nat.le_succ psshData
      · exact Nat.le_of_succ_le (ih (psshData + 1))

theorem readField_next_le (warn : Bool) (fin : Nat) (fieldType : UInt8) (m : Mem) (p : Nat) :
    p ≤ (readField warn fin fieldType).next m p := by
  unfold readField
  cases fieldKind fieldType with
  | number => exact behindMultiInt_le m (fin - p) p
  | id =>
      simp only [readKeyID, Reader.next_bind, Reader.next_readBe, Reader.next_tell, Reader.next_ite]
      split <;> simp [Nat.add_assoc]
  | text =>
      simp only [readText, Reader.next_bind, Reader.next_readBe, Reader.next_skip, Reader.next_pure]
      cases warn <;> simp [Reader.next_readIf, logText, Nat.add_assoc]
  | unknown => exact Nat.le_refl p

/-- What a loop has read and stored, and what it has made of `rc`. -/
structure Trace where
  reads : List Nat
  rc : Bool
  keyIDs : List Bytes

/-- What one turn adds, `field` behind the tag. -/
def Trace.turn (t : Trace) (field : Reader (Option Bytes)) (m : Mem) (psshData : Nat) : Trace :=
  let keyID := field.val m (psshData + 1)
  { reads := t.reads ++ psshData :: field.reads m (psshData + 1)
    rc := t.rc || keyID.isSome
    keyIDs := t.keyIDs ++ keyID.toList }

/-- The loop `while( psshData<fin )`. -/
def readFields (warn : Bool) (fin : Nat) (m : Mem) (psshData : Nat) (t : Trace) : Trace :=
  if psshData < fin then
    let field := readField warn fin (m psshData)
    have : psshData + 1 ≤ (readField warn fin (m psshData)).next m (psshData + 1) :=
      readField_next_le _ _ _ _ _
    readFields warn fin m (field.next m (psshData + 1)) (t.turn field m psshData)
  else t
  termination_by fin - psshData

/-- The loop over the keys of version 1. -/
def assignKeyIDs (m : Mem) : Nat → Nat → Trace → Trace
  | 0, _, t => t
  | left + 1, psshData, t =>
      assignKeyIDs m left (psshData + 16)
        { reads := t.reads ++ List.range' psshData 16
          rc := true
          keyIDs := t.keyIDs ++ [m.slice psshData 16] }

/-- Every stage reads on from what the ones before it have read. -/
def parsePssh (warn : Bool) (psshData : Mem) (psshSize : Nat) : Trace :=
  let reads := List.range' 0 psshSize ++ List.range' 0 4
  if psshData.be 0 4 ≠ psshSize then ⟨reads, false, []⟩
  else
    let reads := reads ++ List.range' 4 4
    if psshData.slice 4 4 ≠ ascii "pssh" then ⟨reads, false, []⟩
    else
      let reads := reads ++ List.range' 8 4 ++ List.range' 12 16
      if psshData.slice 12 16 ≠ WidevineDrmHelper.systemID_WideVine then ⟨reads, false, []⟩
      else
        let psshDataVer := psshData.be 8 4 / 2 ^ 24
        if psshDataVer = 0 then
          readFields warn psshSize psshData 32 ⟨reads ++ List.range' 28 4, false, []⟩
        else if psshDataVer = 1 then
          assignKeyIDs psshData (psshData.be 28 4) 32 ⟨reads ++ List.range' 28 4, false, []⟩
        else ⟨reads, false, []⟩

/-- Nothing but the box is read, and success means that a key id was stored. -/
structure ParsesWithin (warn : Bool) (psshData : Mem) (psshSize : Nat) : Prop where
  reads : ∀ i ∈ (parsePssh warn psshData psshSize).reads, i < psshSize
  stored : (parsePssh warn psshData psshSize).rc = true →
    (parsePssh warn psshData psshSize).keyIDs ≠ []

/-! ## Boxes that are long enough -/

/-- What is left behind a number. -/
def behindNumber : Bytes → Bytes
  | [] => []
  | code :: bs => if code.toNat < 128 then bs else behindNumber bs

theorem behindNumber_length_le (bs : Bytes) : (behindNumber bs).length ≤ bs.length := by
  induction bs with
  | nil => exact Nat.le_refl 0
  | cons code bs ih =>
      rw [behindNumber]
      split
      · exact Nat.le_succ _
      · exact Nat.le_succ_of_le ih

/-- No field ends before its length octet, and a text that is logged ends in the box, by its
length or by a zero byte. -/
def FieldsWithin (warn : Bool) : Bytes → Prop
  | [] => True
  | fieldType :: bs =>
      have := behindNumber_length_le bs
      match fieldKind fieldType, bs with
      | .number, bs => FieldsWithin warn (behindNumber bs)
      | .id, [] => False
      | .id, fieldSize :: bs => FieldsWithin warn (bs.drop fieldSize.toNat)
      | .text, [] => False
      | .text, fieldSize :: bs =>
          (warn = true → fieldSize.toNat ≤ bs.length ∨ 0 ∈ bs) ∧
            FieldsWithin warn (bs.drop fieldSize.toNat)
      | .unknown, bs => FieldsWithin warn bs
  termination_by bs => bs.length
  decreasing_by
    all_goals
      simp only [List.length_cons, List.length_drop]
      omega

section

variable {warn : Bool} {fieldType : UInt8} {bs : Bytes}

theorem fieldsWithin_number (h : fieldKind fieldType = .number) :
    FieldsWithin warn (fieldType :: bs) ↔ FieldsWithin warn (behindNumber bs) := by
  rw [FieldsWithin.eq_def]
  simp only [h]

theorem fieldsWithin_unknown (h : fieldKind fieldType = .unknown) :
    FieldsWithin warn (fieldType :: bs) ↔ FieldsWithin warn bs := by
  rw [FieldsWithin.eq_def]
  simp only [h]

theorem fieldsWithin_id_nil (h : fieldKind fieldType = .id) : ¬ FieldsWithin warn [fieldType] := by
  rw [FieldsWithin.eq_def]
  simp only [h, not_false_eq_true]

theorem fieldsWithin_id (h : fieldKind fieldType = .id) (fieldSize : UInt8) :
    FieldsWithin warn (fieldType :: fieldSize :: bs) ↔
      FieldsWithin warn (bs.drop fieldSize.toNat) := by
  rw [FieldsWithin.eq_def]
  simp only [h]

theorem fieldsWithin_text_nil (h : fieldKind fieldType = .text) :
    ¬ FieldsWithin warn [fieldType] := by
  rw [FieldsWithin.eq_def]
  simp only [h, not_false_eq_true]

theorem fieldsWithin_text (h : fieldKind fieldType = .text) (fieldSize : UInt8) :
    FieldsWithin warn (fieldType :: fieldSize :: bs) ↔
      (warn = true → fieldSize.toNat ≤ bs.length ∨ 0 ∈ bs) ∧
        FieldsWithin warn (bs.drop fieldSize.toNat) := by
  rw [FieldsWithin.eq_def]
  simp only [h]

end

/-- The bytes from the cursor to the end of the box; none when the cursor is past it. -/
def Left (m : Mem) (fin p : Nat) (bs : Bytes) : Prop := Holds m p bs ∧ bs.length = fin - p

section

variable {m : Mem} {fin p : Nat} {bs : Bytes}

theorem Left.cons {b : UInt8} (h : Left m fin p (b :: bs)) :
    p < fin ∧ m p = b ∧ Left m fin (p + 1) bs := by
  rcases h with ⟨⟨hb, hbs⟩, hlength⟩
  rw [List.length_cons] at hlength
  exact ⟨by omega, hb, hbs, by omega⟩

theorem Left.nil (h : Left m fin p []) : fin ≤ p := by
  have hlength := h.2
  rw [List.length_nil] at hlength
  omega

theorem Left.drop (h : Left m fin p bs) (count : Nat) : Left m fin (p + count) (bs.drop count) := by
  constructor
  · rcases Nat.le_total count bs.length with hle | hle
    · have hsplit := h.1
      rw [← List.take_append_drop count bs, holds_append, List.length_take,
        Nat.min_eq_left hle] at hsplit
      exact hsplit.2
    · rw [List.drop_eq_nil_iff.mpr hle]
      trivial
  · have hlength := h.2
    rw [List.length_drop]
    omega

theorem behindMultiInt_left (h : Left m fin p bs) :
    Left m fin (behindMultiInt m bs.length p) (behindNumber bs) ∧
      behindMultiInt m bs.length p ≤ max p fin := by
  induction bs generalizing p with
  | nil => exact ⟨h, Nat.le_max_left p fin⟩
  | cons code bs ih =>
      rcases h.cons with ⟨hlt, hcode, hrest⟩
      rw [List.length_cons, behindMultiInt, behindNumber, hcode]
      by_cases hlast : code.toNat < 128
      · rw [if_pos hlast, if_pos hlast]
        exact ⟨hrest, by omega⟩
      · rw [if_neg hlast, if_neg hlast]
        rcases ih hrest with ⟨hleft, hle⟩
        exact ⟨hleft, by omega⟩

theorem loggedLength_le (h : Left m fin p bs) (fieldSize : Nat) :
    loggedLength m p fieldSize ≤ bs.length ↔ fieldSize ≤ bs.length ∨ 0 ∈ bs := by
  induction fieldSize generalizing p bs with
  | zero => exact iff_of_true (Nat.zero_le _) (Or.inl (Nat.zero_le _))
  | succ fieldSize ih =>
      rw [loggedLength]
      cases bs with
      | nil =>
          refine iff_of_false ?_ (by simp)
          split <;> simp
      | cons b bs =>
          rcases h.cons with ⟨hlt, hb, hrest⟩
          rw [hb, List.length_cons, List.mem_cons]
          by_cases hzero : b = 0
          · rw [if_pos hzero]
            exact iff_of_true (by omega) (Or.inr (Or.inl hzero.symm))
          · rw [if_neg hzero, Nat.add_le_add_iff_right, Nat.add_le_add_iff_right, ih hrest]
            have hne : (0 : UInt8) ≠ b := Ne.symm hzero
            tauto

/-- A bound on what is read from a cursor in the box on. -/
theorem range'_lt_left (h : Left m fin p bs) (hp : p ≤ fin) (count : Nat) :
    (∀ i ∈ List.range' p count, i < fin) ↔ count ≤ bs.length := by
  have hlength := h.2
  rw [Reader.range'_lt_iff]
  omega

end

/-! ## The fields of version 0 -/

section

variable {m : Mem} {fin q : Nat} {bs : Bytes}

theorem readKeyID_next (m : Mem) (fin q : Nat) :
    (readKeyID fin).next m q = q + 1 + (m q).toNat := by
  simp only [readKeyID, Reader.next_bind, Reader.next_ite]
  simp only [Reader.val_readBe, Reader.next_readBe, Reader.next_tell, Reader.next_readBytes,
    Reader.next_skip, Reader.next_pure, Mem.be_one, ite_self]

theorem readKeyID_val (m : Mem) (fin q : Nat) :
    (readKeyID fin).val m q =
      if 0 < (m q).toNat ∧ q + 1 + (m q).toNat ≤ fin then some (m.slice (q + 1) (m q).toNat)
      else none := by
  simp only [readKeyID, Reader.val_bind, Reader.val_ite]
  simp only [Reader.val_readBe, Reader.next_readBe, Reader.next_tell, Reader.val_readBytes,
    Reader.val_tell, Reader.val_pure, Mem.be_one]

theorem readKeyID_within (m : Mem) (fin q : Nat) :
    Reader.Within fin (readKeyID fin) m q ↔ q + 1 ≤ fin := by
  simp only [readKeyID, Reader.within_bind, Reader.within_ite]
  simp only [Reader.within_readBe, Reader.val_readBe, Reader.next_readBe, Reader.within_tell,
    Reader.val_tell, Reader.next_tell, Reader.within_readBytes, Reader.within_pure,
    Reader.within_skip, Mem.be_one]
  split
  next hfits =>
    rcases hfits with ⟨hpos, hle⟩
    exact ⟨fun _ => by omega, fun _ => ⟨Or.inr (by omega), trivial, Or.inr hle, trivial⟩⟩
  · simp

theorem readText_next (warn : Bool) (m : Mem) (q : Nat) :
    (readText warn).next m q = q + 1 + (m q).toNat := by
  simp only [readText, Reader.next_bind, Reader.val_readBe, Reader.next_readBe, Reader.next_readIf,
    Reader.next_skip, Reader.next_pure, Mem.be_one, logText, ite_self]

theorem readText_within (warn : Bool) (m : Mem) (fin q : Nat) :
    Reader.Within fin (readText warn) m q ↔ q + 1 ≤ fin ∧
      (warn = true →
        ∀ i ∈ List.range' (q + 1) (loggedLength m (q + 1) (m q).toNat), i < fin) := by
  simp only [readText, Reader.within_bind, Reader.within_readBe, Reader.val_readBe,
    Reader.next_readBe, Reader.within_readIf, Reader.within_skip, Reader.within_pure, Mem.be_one,
    and_true]
  have hone : (1 = 0 ∨ q + 1 ≤ fin) ↔ q + 1 ≤ fin := by omega
  rw [hone]
  rfl

/-- A field is read in the box exactly when it does not go wrong itself, and the loop goes on
behind it. -/
theorem readField_left (warn : Bool) (fieldType : UInt8) (h : Left m fin q bs) (hq : q ≤ fin) :
    ∃ rest, Left m fin ((readField warn fin fieldType).next m q) rest ∧
      (FieldsWithin warn (fieldType :: bs) ↔
        Reader.Within fin (readField warn fin fieldType) m q ∧ FieldsWithin warn rest) := by
  unfold readField
  cases hkind : fieldKind fieldType with
  | number =>
      rcases behindMultiInt_left h with ⟨hleft, hle⟩
      have hlength := h.2
      have hwithin : Reader.Within fin (ParseMultiInt fin >>= fun _ => pure (none : Option Bytes))
          m q := by
        rw [Reader.within_bind]
        refine ⟨?_, fun i hi => by cases hi⟩
        rw [hlength] at hle
        intro i hi
        have hmem := List.mem_range'_1.mp hi
        omega
      rw [hlength] at hleft
      exact ⟨behindNumber bs, hleft, (fieldsWithin_number hkind).trans (and_iff_right hwithin).symm⟩
  | id =>
      cases bs with
      | nil =>
          have hend := h.nil
          refine ⟨[], ⟨trivial, ?_⟩, iff_of_false (fieldsWithin_id_nil hkind) fun hread => ?_⟩
          · rw [readKeyID_next, List.length_nil]
            omega
          · have hfirst := (readKeyID_within m fin q).mp hread.1
            omega
      | cons fieldSize bs =>
          rcases h.cons with ⟨hlt, hsize, hrest⟩
          refine ⟨bs.drop fieldSize.toNat, ?_, ?_⟩
          · rw [readKeyID_next, hsize]
            exact hrest.drop _
          · rw [readKeyID_within]
            exact (fieldsWithin_id hkind fieldSize).trans (and_iff_right hlt).symm
  | text =>
      cases bs with
      | nil =>
          have hend := h.nil
          refine ⟨[], ⟨trivial, ?_⟩, iff_of_false (fieldsWithin_text_nil hkind) fun hread => ?_⟩
          · rw [readText_next, List.length_nil]
            omega
          · have hfirst := ((readText_within warn m fin q).mp hread.1).1
            omega
      | cons fieldSize bs =>
          rcases h.cons with ⟨hlt, hsize, hrest⟩
          refine ⟨bs.drop fieldSize.toNat, ?_, ?_⟩
          · rw [readText_next, hsize]
            exact hrest.drop _
          · rw [readText_within, hsize, range'_lt_left hrest hlt, loggedLength_le hrest,
              fieldsWithin_text hkind]
            exact and_congr_left' (and_iff_right hlt).symm
  | unknown =>
      exact ⟨bs, h, (fieldsWithin_unknown hkind).trans
        (and_iff_right ((Reader.within_pure fin none m q).mpr trivial)).symm⟩

end

section

variable {warn : Bool} {fin : Nat} {m : Mem}

theorem readFields_turn {p : Nat} (t : Trace) (h : p < fin) :
    readFields warn fin m p t =
      readFields warn fin m ((readField warn fin (m p)).next m (p + 1))
        (t.turn (readField warn fin (m p)) m p) := by
  rw [readFields, if_pos h]

theorem readFields_end {p : Nat} (t : Trace) (h : fin ≤ p) : readFields warn fin m p t = t := by
  rw [readFields, if_neg (Nat.not_lt.mpr h)]

theorem readFields_within {p : Nat} {bs : Bytes} (h : Left m fin p bs) (t : Trace) :
    (∀ i ∈ (readFields warn fin m p t).reads, i < fin) ↔
      (∀ i ∈ t.reads, i < fin) ∧ FieldsWithin warn bs := by
  induction p, t using readFields.induct warn fin m generalizing bs with
  | case1 p t hlt field hle =>
      rename_i ih
      cases bs with
      | nil => exact absurd h.nil (Nat.not_le.mpr hlt)
      | cons fieldType bs =>
          rcases h.cons with ⟨-, hb, hrest⟩
          subst hb
          rcases readField_left warn (m p) hrest hlt with ⟨rest, hleft, hiff⟩
          rw [readFields_turn t hlt, ih hleft, hiff]
          simp only [Trace.turn, List.forall_mem_append, List.forall_mem_cons, hlt, true_and,
            Reader.Within, field, and_assoc]
  | case2 p t hend =>
      have hle := Nat.not_lt.mp hend
      cases bs with
      | nil =>
          rw [readFields_end t hle, FieldsWithin.eq_def]
          exact (and_iff_left trivial).symm
      | cons fieldType bs => exact absurd h.cons.1 hend

/-- Success goes with a stored key id. -/
theorem readFields_stored (p : Nat) {t : Trace} (h : t.rc = true → t.keyIDs ≠ []) :
    (readFields warn fin m p t).rc = true → (readFields warn fin m p t).keyIDs ≠ [] := by
  induction p, t using readFields.induct warn fin m with
  | case1 p t hlt field hle =>
      rename_i ih
      rw [readFields_turn t hlt]
      apply ih
      unfold Trace.turn
      cases field.val m (p + 1) with
      | none => simpa using h
      | some keyID => simp
  | case2 p t hend => rwa [readFields_end t (Nat.not_lt.mp hend)]

end

/-! ## The keys of version 1 -/

theorem assignKeyIDs_within (m : Mem) (fin p count : Nat) (t : Trace) :
    (∀ i ∈ (assignKeyIDs m count p t).reads, i < fin) ↔
      (∀ i ∈ t.reads, i < fin) ∧ (count = 0 ∨ p + 16 * count ≤ fin) := by
  induction count generalizing p t with
  | zero => exact (and_iff_left (Or.inl rfl)).symm
  | succ count ih =>
      rw [assignKeyIDs, ih, List.forall_mem_append, Reader.range'_lt_iff, and_assoc]
      exact and_congr_right fun _ => by omega

theorem assignKeyIDs_stored {m : Mem} {p count : Nat} {t : Trace}
    (h : t.rc = true → t.keyIDs ≠ []) :
    (assignKeyIDs m count p t).rc = true → (assignKeyIDs m count p t).keyIDs ≠ [] := by
  induction count generalizing p t with
  | zero => exact h
  | succ count ih => exact ih (by simp)

/-! ## The box -/

/-- The box is as long as what is read of it by its head, its fields or its number of keys. -/
def PsshWithin (warn : Bool) (data : Bytes) : Prop :=
  4 ≤ data.length ∧ (be (data.take 4) = data.length →
    8 ≤ data.length ∧ ((data.drop 4).take 4 = ascii "pssh" →
      28 ≤ data.length ∧ ((data.drop 12).take 16 = WidevineDrmHelper.systemID_WideVine →
        (be ((data.drop 8).take 4) / 2 ^ 24 = 0 →
          32 ≤ data.length ∧ FieldsWithin warn (data.drop 32)) ∧
        (be ((data.drop 8).take 4) / 2 ^ 24 = 1 →
          32 + 16 * be ((data.drop 28).take 4) ≤ data.length))))

theorem reads_within (reads : List Nat) (p count fin : Nat) :
    (∀ i ∈ reads ++ List.range' p (count + 1), i < fin) ↔
      (∀ i ∈ reads, i < fin) ∧ p + (count + 1) ≤ fin := by
  rw [List.forall_mem_append, Reader.range'_lt_iff, or_iff_right (Nat.succ_ne_zero count)]

section

variable {warn : Bool} {data : Bytes} {beyond : Mem}

theorem left_ofBytes (data : Bytes) (beyond : Mem) (p : Nat) :
    Left (Mem.ofBytes data beyond) data.length p (data.drop p) := by
  have hstart : Left (Mem.ofBytes data beyond) data.length 0 data :=
    ⟨holds_ofBytes data beyond, rfl⟩
  simpa using hstart.drop p

/-- One comparison of the header: what is read without it, and what is read when it holds. -/
theorem stage_within {fin : Nat} {c c' : Prop} [Decidable (¬c)] {stop go : Trace}
    {room rest : Prop} (hstop : (∀ i ∈ stop.reads, i < fin) ↔ room) (hc : room → (c ↔ c'))
    (hgo : (∀ i ∈ go.reads, i < fin) ↔ room ∧ rest) :
    (∀ i ∈ (if ¬c then stop else go).reads, i < fin) ↔ room ∧ (c' → rest) := by
  by_cases h : c
  · rw [if_neg (not_not_intro h), hgo]
    exact and_congr_right fun hroom => (imp_iff_right ((hc hroom).mp h)).symm
  · rw [if_pos h, hstop]
    exact (and_iff_left_of_imp fun hroom h' => absurd ((hc hroom).mpr h') h).symm

/-- Each stage reads in the box when it is long enough for it and for the stages before. -/
theorem parsePssh_reads :
    (∀ i ∈ (parsePssh warn (Mem.ofBytes data beyond) data.length).reads, i < data.length) ↔
      PsshWithin warn data := by
  have hall : ∀ i ∈ List.range' 0 data.length, i < data.length :=
    (Reader.range'_lt_iff _ _ _).mpr (Or.inr (Nat.zero_add _).le)
  have hbe : ∀ p, p + 4 ≤ data.length →
      (Mem.ofBytes data beyond).be p 4 = be ((data.drop p).take 4) :=
    fun p h => congrArg be (Mem.slice_ofBytes h beyond)
  have hsize : (∀ i ∈ List.range' 0 data.length ++ List.range' 0 4, i < data.length) ↔
      4 ≤ data.length := by
    rw [reads_within]
    exact and_iff_right hall
  have htype : (∀ i ∈ List.range' 0 data.length ++ List.range' 0 4 ++ List.range' 4 4,
      i < data.length) ↔ 8 ≤ data.length := by
    rw [reads_within, hsize]
    omega
  have hsystem : (∀ i ∈ List.range' 0 data.length ++ List.range' 0 4 ++ List.range' 4 4 ++
      List.range' 8 4 ++ List.range' 12 16, i < data.length) ↔ 28 ≤ data.length := by
    rw [reads_within, reads_within, htype]
    omega
  have hlonger : ∀ {a b : Nat} {rest : Prop}, a ≤ b →
      (a ≤ data.length ∧ b ≤ data.length ∧ rest ↔ b ≤ data.length ∧ rest) :=
    fun hab => and_iff_right_of_imp fun h => Nat.le_trans hab h.1
  apply stage_within hsize
  · intro h4
    rw [hbe 0 h4, List.drop_zero]
  rw [hlonger (by decide)]
  apply stage_within htype
  · intro h8
    rw [Mem.slice_ofBytes h8]
  rw [hlonger (by decide)]
  apply stage_within hsystem
  · intro h28
    rw [Mem.slice_ofBytes h28]
  by_cases h28 : 28 ≤ data.length
  · rw [and_iff_right h28, ← hbe 8 (by omega)]
    generalize (Mem.ofBytes data beyond).be 8 4 / 2 ^ 24 = psshDataVer
    by_cases hzero : psshDataVer = 0
    · subst hzero
      rw [if_pos rfl, readFields_within (left_ofBytes data beyond 32), reads_within, hsystem,
        and_iff_right h28, imp_iff_right rfl]
      exact (and_iff_left fun h => absurd h Nat.zero_ne_one).symm
    · rw [if_neg hzero]
      by_cases hone : psshDataVer = 1
      · subst hone
        rw [if_pos rfl, assignKeyIDs_within, reads_within, hsystem, and_iff_right h28,
          imp_iff_right rfl, and_iff_right fun h => absurd h hzero]
        by_cases h32 : 32 ≤ data.length
        · rw [hbe 28 h32]
          omega
        · omega
      · rw [if_neg hone, hsystem]
        exact iff_of_true h28 ⟨fun h => absurd h hzero, fun h => absurd h hone⟩
  · refine iff_of_false (fun h => ?_) fun h => h28 h.1
    dsimp only at h
    split at h
    · rw [readFields_within (left_ofBytes data beyond 32), reads_within, hsystem] at h
      exact h28 h.1.1
    · split at h
      · rw [assignKeyIDs_within, reads_within, hsystem] at h
        exact h28 h.1.1
      · exact h28 (hsystem.mp h)

/-- Success goes with a stored key id. -/
theorem parsePssh_stored (warn : Bool) (m : Mem) (psshSize : Nat) :
    (parsePssh warn m psshSize).rc = true → (parsePssh warn m psshSize).keyIDs ≠ [] := by
  have hnone : false = true → ([] : List Bytes) ≠ [] := fun h => absurd h Bool.false_ne_true
  unfold parsePssh
  dsimp only
  split
  · exact hnone
  split
  · exact hnone
  split
  · exact hnone
  split
  · exact readFields_stored 32 hnone
  split
  · exact assignKeyIDs_stored hnone
  · exact hnone

/-- A call keeps to the init data, whatever is stored behind it, exactly when the box is long
enough. -/
theorem parsesWithin_iff (warn : Bool) (data : Bytes) (beyond : Mem) :
    ParsesWithin warn (Mem.ofBytes data beyond) data.length ↔ PsshWithin warn data :=
  ⟨fun h => parsePssh_reads.mp h.reads, fun h =>
    ⟨parsePssh_reads.mpr h, parsePssh_stored warn (Mem.ofBytes data beyond) data.length⟩⟩

/-- A box of version 0 whose last byte is the tag of a key id. -/
def tagAtEnd : Bytes :=
  [0, 0, 0, 33] ++ ascii "pssh" ++ [0, 0, 0, 0] ++ WidevineDrmHelper.systemID_WideVine ++
    [0, 0, 0, 1, 0x12]

theorem tagAtEnd_not_within : ¬ ∀ (warn : Bool) (data : Bytes) (beyond : Mem),
    ParsesWithin warn (Mem.ofBytes data beyond) data.length := by
  intro h
  have hwithin := parsePssh_reads.mp (h true tagAtEnd fun _ => 0).reads
  have hversion := (((hwithin.2 rfl).2 rfl).2 rfl).1 rfl
  exact fieldsWithin_id_nil rfl hversion.2

end

/-! ## The helper's own call -/

section

open WidevineDrmHelper (FieldLoop runFields)

/-- The helper in a loop has stored what the trace says. -/
structure Stored (s : FieldLoop) (t : Trace) : Prop where
  rc : s.rc = t.rc
  kidCount : s.kidCount = t.keyIDs.length
  keyIDs : ∀ i < t.keyIDs.length, (s.helper.mKeyIDs i).map Subtype.val = t.keyIDs[i]?

variable {m : Mem} {fin : Nat}

theorem ParseMultiInt_next {left psshData shift next : Nat} {iVal iVal' : BitVec 64}
    (h : WidevineDrmHelper.ParseMultiInt m left psshData iVal shift = some (iVal', next)) :
    next = behindMultiInt m left psshData := by
  induction left generalizing psshData iVal shift with
  | zero =>
      cases h
      rfl
  | succ left ih =>
      obtain ⟨group, -, h⟩ := Option.bind_eq_some_iff.mp h
      dsimp only at h
      rw [behindMultiInt]
      split at h
      next hlast =>
        cases h
        exact (if_pos hlast).symm
      next hlast =>
        rw [if_neg hlast]
        exact ih h

theorem Stored.append {s : FieldLoop} {t : Trace} (h : Stored s t) (reads : List Nat)
    (keyId : KeyId) (psshData : Nat) :
    Stored ⟨psshData, s.kidCount + 1, true, s.helper.setKeyID s.kidCount keyId⟩
      ⟨reads, true, t.keyIDs ++ [keyId.val]⟩ := by
  refine ⟨rfl, ?_, fun i hi => ?_⟩
  · rw [h.kidCount, List.length_append, List.length_singleton]
  · rw [List.length_append, List.length_singleton] at hi
    dsimp only [WidevineDrmHelper.setKeyID]
    rcases Nat.lt_succ_iff_lt_or_eq.mp hi with hlt | heq
    · rw [Function.update_of_ne (by rw [h.kidCount]; exact Nat.ne_of_lt hlt), h.keyIDs i hlt,
        List.getElem?_append_left hlt]
    · rw [heq, ← h.kidCount, Function.update_self, h.kidCount, List.getElem?_concat_length]
      rfl

theorem Stored.turn_none {s s' : FieldLoop} {t : Trace} {field : Reader (Option Bytes)}
    (h : Stored s t) (hval : field.val m (s.psshData + 1) = none) (hrc : s'.rc = s.rc)
    (hcount : s'.kidCount = s.kidCount) (hids : s'.helper.mKeyIDs = s.helper.mKeyIDs) :
    Stored s' (t.turn field m s.psshData) := by
  unfold Trace.turn
  rw [hval]
  constructor
  · simpa [hrc] using h.rc
  · simpa [hcount] using h.kidCount
  · simpa [hids] using h.keyIDs

theorem readKeyID_psshData (psshData : Nat) (s : FieldLoop) :
    (WidevineDrmHelper.readKeyID m fin psshData s).psshData =
      psshData + 1 + (m psshData).toNat := by
  unfold WidevineDrmHelper.readKeyID
  dsimp only
  split <;> rfl

theorem Stored.readKeyID {s : FieldLoop} {t : Trace} (h : Stored s t) (fin : Nat) :
    Stored (WidevineDrmHelper.readKeyID m fin (s.psshData + 1) s)
      (t.turn (readKeyID fin) m s.psshData) := by
  have hval := readKeyID_val m fin (s.psshData + 1)
  unfold WidevineDrmHelper.readKeyID
  dsimp only
  split
  next hfits =>
    rw [if_pos hfits] at hval
    unfold Trace.turn
    rw [hval]
    simpa using h.append _ ⟨m.slice _ _, WidevineDrmHelper.slice_ne_nil m _ hfits.1⟩ _
  next hfits =>
    rw [if_neg hfits] at hval
    exact h.turn_none hval rfl rfl rfl

theorem readField_stored {s s' : FieldLoop} {t : Trace} (warn : Bool) (h : Stored s t)
    (hstep : WidevineDrmHelper.readField m fin s = some s') :
    s'.psshData = (readField warn fin (m s.psshData)).next m (s.psshData + 1) ∧
      Stored s' (t.turn (readField warn fin (m s.psshData)) m s.psshData) := by
  unfold WidevineDrmHelper.readField at hstep
  dsimp only at hstep
  split at hstep
  case h_1 heq | h_2 heq | h_3 heq | h_4 heq =>
    have hkind : fieldKind (m s.psshData) = .number := by
      unfold fieldKind
      rw [heq]
      rfl
    obtain ⟨⟨iVal, next⟩, hint, hstep⟩ := Option.bind_eq_some_iff.mp hstep
    cases hstep
    unfold readField
    rw [hkind]
    exact ⟨ParseMultiInt_next hint, h.turn_none rfl rfl rfl rfl⟩
  case h_5 heq | h_6 heq =>
    have hkind : fieldKind (m s.psshData) = .id := by
      unfold fieldKind
      rw [heq]
      rfl
    cases hstep
    unfold readField
    rw [hkind]
    exact ⟨by rw [readKeyID_next, readKeyID_psshData], h.readKeyID fin⟩
  case h_7 heq | h_8 heq | h_9 heq =>
    have hkind : fieldKind (m s.psshData) = .text := by
      unfold fieldKind
      rw [heq]
      rfl
    cases hstep
    unfold readField
    rw [hkind]
    exact ⟨(readText_next warn m (s.psshData + 1)).symm, h.turn_none rfl rfl rfl rfl⟩
  case h_10 =>
    have hkind : fieldKind (m s.psshData) = .unknown := by
      unfold fieldKind
      split <;> first | contradiction | rfl
    cases hstep
    unfold readField
    rw [hkind]
    exact ⟨rfl, h.turn_none rfl rfl rfl rfl⟩

theorem readFields_agrees {s s' : FieldLoop} {t : Trace} (warn : Bool) (h : Stored s t)
    (hrun : runFields m fin s = some s') :
    Stored s' (readFields warn fin m s.psshData t) := by
  generalize hp : s.psshData = p
  induction p, t using readFields.induct warn fin m generalizing s with
  | case1 p t hlt field hle =>
      rename_i ih
      subst hp
      rw [WidevineDrmHelper.runFields_step hlt] at hrun
      obtain ⟨s₁, hstep, hrun⟩ := Option.bind_eq_some_iff.mp hrun
      obtain ⟨hnext, hstored⟩ := readField_stored warn h hstep
      rw [readFields_turn t hlt]
      exact ih hstored hrun hnext
  | case2 p t hend =>
      have hle := Nat.not_lt.mp hend
      rw [WidevineDrmHelper.runFields_end (hp ▸ hle)] at hrun
      cases hrun
      rwa [readFields_end t hle]

theorem assignKeyIDs_agrees {s : FieldLoop} {t : Trace} (h : Stored s t) (count p : Nat) :
    Stored ⟨s.psshData, s.kidCount + count, s.rc || decide (0 < count),
        WidevineDrmHelper.assignKeyIDs m count s.kidCount p s.helper⟩ (assignKeyIDs m count p t) := by
  induction count generalizing p s t with
  | zero => simpa [assignKeyIDs, WidevineDrmHelper.assignKeyIDs] using h
  | succ count ih =>
      have hkey := h.append (t.reads ++ List.range' p 16)
        ⟨m.slice p 16, WidevineDrmHelper.slice_ne_nil m p (by decide)⟩ s.psshData
      simpa [assignKeyIDs, WidevineDrmHelper.assignKeyIDs, Nat.add_assoc, Nat.add_comm 1]
        using ih hkey (p + 16)

/-- A call of the helper that is defined returns and stores what its reads are traced with. -/
theorem parsePssh_agrees (warn : Bool) {h h' : WidevineDrmHelper} {psshSize : Nat} {rc : Bool}
    (hcall : h.parsePssh m psshSize = some (rc, h')) :
    rc = (parsePssh warn m psshSize).rc ∧ ∀ i < (parsePssh warn m psshSize).keyIDs.length,
      (h'.mKeyIDs i).map Subtype.val = (parsePssh warn m psshSize).keyIDs[i]? := by
  have hstart : ∀ (reads : List Nat) (h : WidevineDrmHelper),
      Stored ⟨32, 0, false, h⟩ ⟨reads, false, []⟩ :=
    fun _ _ => ⟨rfl, rfl, fun i hi => absurd hi (Nat.not_lt_zero i)⟩
  have hnothing : ∀ i < ([] : List Bytes).length, (h'.mKeyIDs i).map Subtype.val = [][i]? :=
    fun i hi => absurd hi (Nat.not_lt_zero i)
  unfold WidevineDrmHelper.parsePssh at hcall
  unfold parsePssh
  dsimp only at hcall ⊢
  split at hcall
  next hsize =>
    cases hcall
    rw [if_pos hsize]
    exact ⟨rfl, hnothing⟩
  next hsize =>
    rw [if_neg hsize]
    split at hcall
    next htype =>
      cases hcall
      rw [if_pos htype]
      exact ⟨rfl, hnothing⟩
    next htype =>
      rw [if_neg htype]
      split at hcall
      next hsystem =>
        cases hcall
        rw [if_pos hsystem]
        exact ⟨rfl, hnothing⟩
      next hsystem =>
        rw [if_neg hsystem]
        split at hcall
        next hzero =>
          rw [if_pos hzero]
          obtain ⟨s, hrun, hcall⟩ := Option.bind_eq_some_iff.mp hcall
          cases hcall
          have hstored := fun reads => readFields_agrees warn (hstart reads _) hrun
          exact ⟨(hstored _).rc, (hstored _).keyIDs⟩
        next hzero =>
          rw [if_neg hzero]
          split at hcall
          next hone =>
            cases hcall
            rw [if_pos hone]
            have hstored := fun reads => assignKeyIDs_agrees (m := m)
              (hstart reads { h with mInitData := m.slice 0 psshSize }) (m.be 28 4) 32
            exact ⟨(Bool.false_or _).symm.trans (hstored _).rc, (hstored _).keyIDs⟩
          next hone =>
            cases hcall
            rw [if_neg hone]
            exact ⟨rfl, hnothing⟩

end

end PlayerInterface.Drm.WidevineBounds
