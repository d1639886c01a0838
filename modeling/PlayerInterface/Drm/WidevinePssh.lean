import PlayerInterface.Drm.WidevineHelper
import Mathlib.Tactic.Ring

/-!
# Widevine PSSH boxes

The loop follows the fields of a box as long as it meets every tag where a field starts:
lengths must be in one octet, and the octets of a field it does not know must not look
like tags it knows.
-/

namespace PlayerInterface.Drm

open PlayerInterface.Core

/-! ## Fields -/

inductive NumberTag where
  | Algorithm
  | CryptoPeriodIndex
  | ProtectionScheme
  | CryptoPeriodDuration
deriving DecidableEq

def NumberTag.octet : NumberTag → UInt8
  | Algorithm => 0x08
  | CryptoPeriodIndex => 0x38
  | ProtectionScheme => 0x48
  | CryptoPeriodDuration => 0x50

inductive StringTag where
  | KeyId
  | Provider
  | ContentId
  | TrackType
  | Policy
deriving DecidableEq

def StringTag.octet : StringTag → UInt8
  | KeyId => 0x12
  | Provider => 0x1a
  | ContentId => 0x22
  | TrackType => 0x2a
  | Policy => 0x32

/-- Key ids and content ids are what is stored. -/
def StringTag.stored : StringTag → Bool
  | KeyId | ContentId => true
  | _ => false

def knownTags : List Nat := [0x38, 0x50, 0x08, 0x48, 0x22, 0x12, 0x32, 0x2a, 0x1a]

/-- A field of `WidevinePsshData`. An unknown one is any field of the wire format under another
key, groups included. -/
inductive PsshField where
  | number (tag : NumberTag) (v : Varint)
  | string (tag : StringTag) (len : Varint) (bs : Bytes) (h : len.value = bs.length)
  | unknown (key : Nat) (bs : Bytes) (h : IsField key bs) (hkey : key ∉ knownTags)

namespace PsshField

def key : PsshField → Nat
  | number tag _ => tag.octet.toNat
  | string tag _ _ _ => tag.octet.toNat
  | unknown key _ _ _ => key

def octets : PsshField → Bytes
  | number tag v => tag.octet :: v.octets
  | string tag len bs _ => tag.octet :: (len.octets ++ bs)
  | unknown _ bs _ _ => bs

theorem isField (f : PsshField) : IsField f.key f.octets := by
  cases f with
  | number tag v =>
      have hoctet : tag.octet.toNat < 128 := by cases tag <;> decide
      have hwire : tag.octet.toNat % 8 = 0 := by cases tag <;> decide
      have hfield := IsField.varint (.ofOctet tag.octet hoctet) v hwire
      rwa [Varint.ofOctet_octets] at hfield
  | string tag len bs h =>
      have hoctet : tag.octet.toNat < 128 := by cases tag <;> decide
      have hwire : tag.octet.toNat % 8 = 2 := by cases tag <;> decide
      have hfield := IsField.bytes (.ofOctet tag.octet hoctet) len bs hwire h
      rwa [Varint.ofOctet_octets] at hfield
  | unknown key bs h hkey => exact h

theorem isFields (fields : List PsshField) : IsFields (fields.flatMap octets) := by
  induction fields with
  | nil => exact .nil
  | cons f fields ih => exact .cons f.key f.octets _ f.isField ih

/-- The value of a key id or a content id. -/
def id? : PsshField → Option Bytes
  | string tag _ bs _ => if tag.stored then some bs else none
  | _ => none

/-- As it is stored, which an empty one is not. -/
def storedId? : PsshField → Option KeyId
  | string tag _ bs _ => if h : tag.stored = true ∧ bs ≠ [] then some ⟨bs, h.2⟩ else none
  | _ => none

def scheme? : PsshField → Option Nat
  | number .ProtectionScheme v => some v.value
  | _ => none

/-- The loop comes out of the field where the next one starts. -/
def InStep : PsshField → Prop
  | number _ _ => True
  | string _ len _ _ => len.more = []
  | unknown _ bs _ _ => ∀ b ∈ bs, b.toNat ∉ knownTags

/-- A number of 32 bits in at most five octets. -/
def Fits : PsshField → Prop
  | number _ v => v.more.length ≤ 4 ∧ v.value < 2 ^ 32
  | _ => True

end PsshField

/-- A PSSH box of version 0 for Widevine. -/
structure WidevinePssh where
  flags : Word 3
  fields : List PsshField
  fits : 32 + (fields.flatMap PsshField.octets).length < 2 ^ 32

namespace WidevinePssh

def payload (box : WidevinePssh) : Bytes := box.fields.flatMap PsshField.octets

def bytes (box : WidevinePssh) : Bytes :=
  beBytes 4 (32 + box.payload.length) ++ ascii "pssh" ++ (0 :: box.flags.bytes) ++
    WidevineDrmHelper.systemID_WideVine ++ beBytes 4 box.payload.length ++ box.payload

/-- Key ids and content ids in order of occurrence. -/
def ids (box : WidevinePssh) : List Bytes := box.fields.filterMap PsshField.id?

/-- The last one counts. -/
def protectionScheme (box : WidevinePssh) : Option Nat :=
  (box.fields.filterMap PsshField.scheme?).getLast?

@[simp] theorem bytes_length (box : WidevinePssh) : box.bytes.length = 32 + box.payload.length := by
  have hpssh : (ascii "pssh").length = 4 := rfl
  have hsystem : WidevineDrmHelper.systemID_WideVine.length = 16 := rfl
  simp only [bytes, List.length_append, List.length_cons, beBytes_length, Word.bytes_length, hpssh,
    hsystem]

end WidevinePssh

namespace WidevineDrmHelper

/-! ## Numbers -/

theorem shiftLeft_fits {a shift : Nat} (h : shift < 32 ∧ a * 2 ^ shift < 2 ^ 32) :
    shiftLeft a shift = some (BitVec.ofNat 32 (a * 2 ^ shift)) := if_pos h

/-- Bits above those that are there are added. -/
theorem or_shifted {iVal : BitVec 64} {acc a shift : Nat}
    (hacc : (iVal.setWidth 32).toNat = acc) (hlt : acc < 2 ^ shift)
    (hfit : a * 2 ^ shift < 2 ^ 32) :
    ((iVal ||| (BitVec.ofNat 32 (a * 2 ^ shift)).signExtend 64).setWidth 32).toNat =
      acc + a * 2 ^ shift := by
  have hsame : ((BitVec.ofNat 32 (a * 2 ^ shift)).signExtend 64).setWidth 32 =
      BitVec.ofNat 32 (a * 2 ^ shift) := by
    apply BitVec.eq_of_getElem_eq
    intro i hi
    rw [BitVec.getElem_setWidth, BitVec.getLsbD_signExtend, if_pos hi, BitVec.getLsbD_eq_getElem hi,
      decide_eq_true (by omega : i < 64), Bool.true_and]
  rw [BitVec.setWidth_or, BitVec.toNat_or, hsame, hacc, BitVec.toNat_ofNat, Nat.mod_eq_of_lt hfit,
    Nat.or_comm, Nat.mul_comm, ← Nat.two_pow_add_eq_or_of_lt hlt]
  exact Nat.add_comm _ _

/-- The groups from a shift on all find room in 32 bits. -/
def Room (shift : Nat) (more : List (Fin 128)) (last : Fin 128) : Prop :=
  shift + 7 * more.length < 32 ∧ Varint.groupValue more last * 2 ^ shift < 2 ^ 32

theorem room_nil (shift : Nat) (last : Fin 128) :
    Room shift [] last ↔ shift < 32 ∧ last.val * 2 ^ shift < 2 ^ 32 := Iff.rfl

theorem room_cons (shift : Nat) (group : Fin 128) (more : List (Fin 128)) (last : Fin 128) :
    Room shift (group :: more) last ↔
      (shift < 32 ∧ group.val * 2 ^ shift < 2 ^ 32) ∧ Room (shift + 7) more last := by
  have hgroup := group.isLt
  unfold Room
  rw [List.length_cons, Varint.groupValue, Nat.add_mul]
  generalize Varint.groupValue more last = n
  have hnext : n * 2 ^ (shift + 7) = 128 * n * 2 ^ shift := by ring
  rw [hnext]
  constructor
  · omega
  · rintro ⟨⟨hshift, -⟩, hrest, hn⟩
    obtain ⟨k, hk⟩ : ∃ k, 32 = shift + (k + 7) := ⟨32 - shift - 7, by omega⟩
    have hpow : 2 ^ 32 = 2 ^ shift * 2 ^ (k + 7) := by rw [← Nat.pow_add, ← hk]
    have hsmall : n < 2 ^ k := by
      rw [← hnext, hk, Nat.add_comm k, ← Nat.add_assoc, Nat.pow_add _ _ k, Nat.mul_comm] at hn
      exact Nat.lt_of_mul_lt_mul_left hn
    refine ⟨by omega, ?_⟩
    rw [← Nat.add_mul, hpow, Nat.mul_comm]
    exact Nat.mul_lt_mul_of_pos_left ((Varint.groupValue_lt group n k).mpr hsmall)
      (Nat.two_pow_pos shift)

section

variable {m : Mem} {psshData left shift : Nat} {iVal : BitVec 64}

theorem ParseMultiInt_final {last : Fin 128} (hcode : m psshData = Varint.final last)
    (hfits : shift < 32 ∧ last.val * 2 ^ shift < 2 ^ 32) :
    ParseMultiInt m (left + 1) psshData iVal shift =
      some (iVal ||| (BitVec.ofNat 32 (last.val * 2 ^ shift)).signExtend 64, psshData + 1) := by
  have hlast := last.isLt
  rw [ParseMultiInt, hcode, Varint.final_toNat, Nat.mod_eq_of_lt hlast, shiftLeft_fits hfits]
  exact if_pos hlast

theorem ParseMultiInt_continued {group : Fin 128} (hcode : m psshData = Varint.continued group)
    (hfits : shift < 32 ∧ group.val * 2 ^ shift < 2 ^ 32) :
    ParseMultiInt m (left + 1) psshData iVal shift = ParseMultiInt m left (psshData + 1)
      (iVal ||| (BitVec.ofNat 32 (group.val * 2 ^ shift)).signExtend 64) (shift + 7) := by
  have hgroup := group.isLt
  have hlow : (group.val + 128) % 128 = group.val := by omega
  rw [ParseMultiInt, hcode, Varint.continued_toNat, hlow, shiftLeft_fits hfits,
    Option.bind_eq_bind, Option.bind_some, if_neg (Nat.not_lt.mpr (Nat.le_add_left 128 group.val))]

/-- A shift that is too far, or one that loses bits, has no result. -/
theorem ParseMultiInt_undefined {group : Nat} (hcode : (m psshData).toNat % 128 = group)
    (hfits : ¬ (shift < 32 ∧ group * 2 ^ shift < 2 ^ 32)) :
    ParseMultiInt m (left + 1) psshData iVal shift = none := by
  rw [ParseMultiInt, hcode, show shiftLeft group shift = none from if_neg hfits]
  rfl

theorem ParseMultiInt_room {more : List (Fin 128)} {last : Fin 128} {acc : Nat}
    (hholds : Holds m psshData (more.map Varint.continued ++ [Varint.final last]))
    (hleft : more.length < left) (hacc : (iVal.setWidth 32).toNat = acc)
    (hlt : acc < 2 ^ shift) (hroom : Room shift more last) :
    ∃ iVal', ParseMultiInt m left psshData iVal shift =
        some (iVal', psshData + (more.length + 1)) ∧
      (iVal'.setWidth 32).toNat = acc + Varint.groupValue more last * 2 ^ shift := by
  induction more generalizing psshData left shift acc iVal with
  | nil =>
      obtain ⟨left, rfl⟩ := Nat.exists_eq_add_one_of_ne_zero (Nat.ne_of_gt hleft)
      exact ⟨_, ParseMultiInt_final hholds.1 ((room_nil shift last).mp hroom),
        or_shifted hacc hlt hroom.2⟩
  | cons group more ih =>
      obtain ⟨left, rfl⟩ := Nat.exists_eq_add_one_of_ne_zero (Nat.ne_of_gt (Nat.zero_lt_of_lt hleft))
      obtain ⟨hhere, hrest⟩ := (room_cons shift group more last).mp hroom
      have hnext : acc + group.val * 2 ^ shift < 2 ^ (shift + 7) := by
        have hle := Nat.mul_le_mul_right (2 ^ shift) (Nat.le_of_lt_succ group.isLt)
        rw [Nat.pow_add]
        omega
      obtain ⟨iVal', hparse, hvalue⟩ := ih hholds.2 (Nat.lt_of_succ_lt_succ hleft)
        (or_shifted hacc hlt hhere.2) hnext hrest
      refine ⟨iVal', ?_, ?_⟩
      · rw [ParseMultiInt_continued hholds.1 hhere, hparse, List.length_cons, Nat.add_assoc,
          Nat.add_comm 1]
      · rw [hvalue, Varint.groupValue]
        ring

theorem ParseMultiInt_noRoom {more : List (Fin 128)} {last : Fin 128}
    (hholds : Holds m psshData (more.map Varint.continued ++ [Varint.final last]))
    (hleft : more.length < left) (hroom : ¬ Room shift more last) :
    ParseMultiInt m left psshData iVal shift = none := by
  induction more generalizing psshData left shift iVal with
  | nil =>
      obtain ⟨left, rfl⟩ := Nat.exists_eq_add_one_of_ne_zero (Nat.ne_of_gt hleft)
      have hcode : (m psshData).toNat % 128 = last.val := by
        rw [hholds.1, Varint.final_toNat, Nat.mod_eq_of_lt last.isLt]
      exact ParseMultiInt_undefined hcode (mt (room_nil shift last).mpr hroom)
  | cons group more ih =>
      obtain ⟨left, rfl⟩ := Nat.exists_eq_add_one_of_ne_zero (Nat.ne_of_gt (Nat.zero_lt_of_lt hleft))
      by_cases hhere : shift < 32 ∧ group.val * 2 ^ shift < 2 ^ 32
      · have hrest : ¬ Room (shift + 7) more last :=
          fun h => hroom ((room_cons shift group more last).mpr ⟨hhere, h⟩)
        rw [ParseMultiInt_continued hholds.1 hhere]
        exact ih hholds.2 (Nat.lt_of_succ_lt_succ hleft) hrest
      · have hcode : (m psshData).toNat % 128 = group.val := by
          have hgroup := group.isLt
          rw [hholds.1, Varint.continued_toNat]
          omega
        exact ParseMultiInt_undefined hcode hhere

end

/-! ## One field -/

/-- The loop behind a field. -/
def FieldLoop.after (s : FieldLoop) (f : PsshField) : FieldLoop where
  psshData := s.psshData + f.octets.length
  kidCount := s.kidCount + if f.storedId?.isSome then 1 else 0
  rc := s.rc || f.storedId?.isSome
  helper :=
    { s.helper with
      mKeyIDs := match f.storedId? with
        | some keyId => Function.update s.helper.mKeyIDs s.kidCount (some keyId)
        | none => s.helper.mKeyIDs
      protectionScheme := match f.scheme? with
        | some value => BitVec.ofNat 32 value
        | none => s.helper.protectionScheme }

theorem room_zero (v : Varint) : Room 0 v.more v.last ↔ v.more.length ≤ 4 ∧ v.value < 2 ^ 32 := by
  rw [Room, Varint.value, Nat.pow_zero, Nat.mul_one]
  omega

section

variable {m : Mem} {fin : Nat} {s : FieldLoop}

theorem readField_number {tag : NumberTag} {v : Varint}
    (hholds : Holds m s.psshData (PsshField.number tag v).octets)
    (hfin : s.psshData + (PsshField.number tag v).octets.length ≤ fin)
    (hfits : (PsshField.number tag v).Fits) :
    readField m fin s = some (s.after (.number tag v)) := by
  have htag : (m s.psshData).toNat = tag.octet.toNat := congrArg UInt8.toNat hholds.1
  have hlen : (PsshField.number tag v).octets.length = v.more.length + 2 := by
    rw [PsshField.octets, List.length_cons, Varint.octets_length]
  obtain ⟨iVal, hparse, hvalue⟩ : ∃ iVal,
      ParseMultiInt m (fin - (s.psshData + 1)) (s.psshData + 1) 0#64 0 =
        some (iVal, s.psshData + 1 + (v.more.length + 1)) ∧
      (iVal.setWidth 32).toNat = 0 + Varint.groupValue v.more v.last * 2 ^ 0 :=
    ParseMultiInt_room hholds.2 (by omega) rfl (by decide) ((room_zero v).mpr hfits)
  have hscheme : iVal.setWidth 32 = BitVec.ofNat 32 v.value := by
    apply BitVec.eq_of_toNat_eq
    rw [hvalue, BitVec.toNat_ofNat, Nat.mod_eq_of_lt hfits.2]
    simp [Varint.value]
  have hnext : s.psshData + 1 + (v.more.length + 1) = s.psshData + (v.more.length + 2) := by omega
  rw [hnext] at hparse
  cases tag <;>
    simp [readField, htag, NumberTag.octet, hparse, FieldLoop.after, hlen, hscheme,
      PsshField.storedId?, PsshField.scheme?]

theorem readField_undefined {tag : NumberTag} {v : Varint}
    (hholds : Holds m s.psshData (PsshField.number tag v).octets)
    (hfin : s.psshData + (PsshField.number tag v).octets.length ≤ fin)
    (hfits : ¬ (PsshField.number tag v).Fits) : readField m fin s = none := by
  have htag : (m s.psshData).toNat = tag.octet.toNat := congrArg UInt8.toNat hholds.1
  have hlen : (PsshField.number tag v).octets.length = v.more.length + 2 := by
    rw [PsshField.octets, List.length_cons, Varint.octets_length]
  have hparse : ParseMultiInt m (fin - (s.psshData + 1)) (s.psshData + 1) 0#64 0 = none :=
    ParseMultiInt_noRoom hholds.2 (by omega) (mt (room_zero v).mp hfits)
  cases tag <;> simp [readField, htag, NumberTag.octet, hparse]

theorem readField_string {tag : StringTag} {len : Varint} {bs : Bytes}
    {h : len.value = bs.length}
    (hholds : Holds m s.psshData (PsshField.string tag len bs h).octets)
    (hfin : s.psshData + (PsshField.string tag len bs h).octets.length ≤ fin)
    (hone : len.more = []) :
    readField m fin s = some (s.after (.string tag len bs h)) := by
  have htag : (m s.psshData).toNat = tag.octet.toNat := congrArg UInt8.toNat hholds.1
  obtain ⟨octet, hoctets, hoctet⟩ := Varint.octets_of_one hone
  have hrest : Holds m (s.psshData + 1) (octet :: bs) := by
    have hrest := hholds.2
    rwa [hoctets] at hrest
  have hsize : (m (s.psshData + 1)).toNat = bs.length := by rw [hrest.1, hoctet, h]
  have hslice : m.slice (s.psshData + 1 + 1) bs.length = bs := hrest.2.slice
  have hlen : (PsshField.string tag len bs h).octets.length = bs.length + 2 := by
    rw [PsshField.octets, hoctets]
    rfl
  rw [hlen] at hfin
  have hnext : s.psshData + 1 + 1 + bs.length = s.psshData + (bs.length + 2) := by omega
  have hkeyID : readKeyID m fin (s.psshData + 1) s =
      if hne : bs ≠ [] then
        { psshData := s.psshData + (bs.length + 2), kidCount := s.kidCount + 1, rc := true,
          helper := s.helper.setKeyID s.kidCount ⟨bs, hne⟩ }
      else { s with psshData := s.psshData + (bs.length + 2) } := by
    simp only [readKeyID, hsize, hslice, hnext, hfin, and_true, List.length_pos_iff]
  by_cases hne : bs = []
  · subst hne
    cases tag <;>
      simp [readField, htag, StringTag.octet, hkeyID, FieldLoop.after, hlen, hsize,
        PsshField.storedId?, PsshField.scheme?, StringTag.stored]
  · cases tag <;>
      simp [readField, htag, StringTag.octet, hkeyID, FieldLoop.after, hlen, hsize, hnext,
        PsshField.storedId?, PsshField.scheme?, StringTag.stored, hne, setKeyID]

theorem readField_unknown (h : (m s.psshData).toNat ∉ knownTags) :
    readField m fin s = some { s with psshData := s.psshData + 1 } := by
  simp only [knownTags, List.mem_cons, List.not_mem_nil, not_or] at h
  unfold readField
  dsimp only
  split <;> simp_all

/-- Octets that look like no tag it knows are stepped over one by one. -/
theorem runFields_unknown {bs : Bytes} (hholds : Holds m s.psshData bs)
    (hfin : s.psshData + bs.length ≤ fin) (h : ∀ b ∈ bs, b.toNat ∉ knownTags) :
    runFields m fin s = runFields m fin { s with psshData := s.psshData + bs.length } := by
  induction bs generalizing s with
  | nil => rfl
  | cons b bs ih =>
      have htag : (m s.psshData).toNat ∉ knownTags := hholds.1 ▸ h b List.mem_cons_self
      rw [List.length_cons] at hfin ⊢
      rw [runFields_step (by omega), readField_unknown htag, Option.bind_some]
      have hrest := ih (s := { s with psshData := s.psshData + 1 }) hholds.2
        (by dsimp only; omega) fun c hc => h c (List.mem_cons_of_mem b hc)
      rw [hrest]
      congr 2
      dsimp only
      omega

theorem octets_length_pos (f : PsshField) : 0 < f.octets.length := f.isField.length_pos

theorem runFields_field {f : PsshField} (hholds : Holds m s.psshData f.octets)
    (hfin : s.psshData + f.octets.length ≤ fin) (hstep : f.InStep) (hfits : f.Fits) :
    runFields m fin s = runFields m fin (s.after f) := by
  have hpos := octets_length_pos f
  cases f with
  | number tag v =>
      rw [runFields_step (by omega), readField_number hholds hfin hfits, Option.bind_some]
  | string tag len bs h =>
      rw [runFields_step (by omega), readField_string hholds hfin hstep, Option.bind_some]
  | unknown key bs h hkey =>
      rw [runFields_unknown hholds hfin hstep]
      simp [FieldLoop.after, PsshField.storedId?, PsshField.scheme?, PsshField.octets]

theorem runFields_fields {fields : List PsshField}
    (hholds : Holds m s.psshData (fields.flatMap PsshField.octets))
    (hfin : s.psshData + (fields.flatMap PsshField.octets).length ≤ fin)
    (hstep : ∀ f ∈ fields, f.InStep) (hfits : ∀ f ∈ fields, f.Fits) :
    runFields m fin s = runFields m fin (fields.foldl FieldLoop.after s) := by
  induction fields generalizing s with
  | nil => rfl
  | cons f fields ih =>
      rw [List.flatMap_cons] at hholds hfin
      rw [List.length_append] at hfin
      obtain ⟨hhere, hrest⟩ := holds_append.mp hholds
      rw [runFields_field hhere (by omega) (hstep f List.mem_cons_self) (hfits f List.mem_cons_self),
        List.foldl_cons]
      refine ih hrest ?_ (fun g hg => hstep g (List.mem_cons_of_mem f hg))
        fun g hg => hfits g (List.mem_cons_of_mem f hg)
      dsimp only [FieldLoop.after]
      omega

theorem runFields_undefined {fields : List PsshField}
    (hholds : Holds m s.psshData (fields.flatMap PsshField.octets))
    (hfin : s.psshData + (fields.flatMap PsshField.octets).length ≤ fin)
    (hstep : ∀ f ∈ fields, f.InStep) (hfits : ¬ ∀ f ∈ fields, f.Fits) :
    runFields m fin s = none := by
  induction fields generalizing s with
  | nil => exact absurd (fun _ => nofun) hfits
  | cons f fields ih =>
      rw [List.flatMap_cons] at hholds hfin
      rw [List.length_append] at hfin
      obtain ⟨hhere, hrest⟩ := holds_append.mp hholds
      by_cases hf : f.Fits
      · rw [runFields_field hhere (by omega) (hstep f List.mem_cons_self) hf]
        refine ih hrest ?_ (fun g hg => hstep g (List.mem_cons_of_mem f hg)) ?_
        · dsimp only [FieldLoop.after]
          omega
        · exact fun h => hfits (List.forall_mem_cons.mpr ⟨hf, h⟩)
      · have hpos := octets_length_pos f
        rw [runFields_step (by omega)]
        cases f with
        | number tag v =>
            rw [readField_undefined hhere (by omega) hf]
            rfl
        | string | unknown => exact absurd trivial hf

end

end WidevineDrmHelper
end PlayerInterface.Drm
