import PlayerInterface.Core.Reader

/-!
# Content metadata of a Widevine PSSH box

The embedded size is read before any length is compared, and the comparison adds the
header to it in 32 bits.
-/

namespace PlayerInterface.Drm.WidevineMetadata

open PlayerInterface.Core

/-- Size, type, version and flags, system id: where the data size stands. -/
def header : Nat := 28

/-- Behind the size. The sum is of 32 bits, and so is the `int` length compared with it. -/
def readMetadata (dataLength : Int) (content_id_size : Nat) : Reader Bytes :=
  if (header + 4 + content_id_size) % 2 ^ 32 ≤ (dataLength % 2 ^ 32).toNat then
    Reader.readBytes content_id_size
  else pure []

def extractWVContentMetadataFromPssh (dataLength : Int) : Reader Bytes := do
  Reader.skip header
  let content_id_size ← Reader.readBe 4
  readMetadata dataLength content_id_size

/-- The metadata where it lies inside the string, nothing elsewhere. -/
def contentMetadata (psshData : Mem) (dataLength : Nat) : Bytes :=
  if header + 4 ≤ dataLength ∧ header + 4 + psshData.be header 4 ≤ dataLength then
    psshData.slice (header + 4) (psshData.be header 4)
  else []

/-- Only the string is read, and the metadata is the one inside it. -/
structure Extracts (psshData : Mem) (dataLength : Nat) : Prop where
  within : Reader.Within dataLength (extractWVContentMetadataFromPssh dataLength) psshData 0
  metadata : (extractWVContentMetadataFromPssh dataLength).val psshData 0 =
    contentMetadata psshData dataLength

theorem readMetadata_eq {dataLength : Nat} (hint : dataLength < 2 ^ 31) (content_id_size : Nat) :
    readMetadata dataLength content_id_size =
      if (header + 4 + content_id_size) % 2 ^ 32 ≤ dataLength then
        Reader.readBytes content_id_size
      else pure [] := by
  have hlength : ((dataLength : Int) % 2 ^ 32).toNat = dataLength := by omega
  rw [readMetadata, hlength]

theorem within_readMetadata (psshData : Mem) {dataLength : Nat} (hint : dataLength < 2 ^ 31)
    (content_id_size p : Nat) :
    Reader.Within dataLength (readMetadata dataLength content_id_size) psshData p ↔
      ((header + 4 + content_id_size) % 2 ^ 32 ≤ dataLength →
        content_id_size = 0 ∨ p + content_id_size ≤ dataLength) := by
  rw [readMetadata_eq hint, Reader.within_ite]
  split
  case isTrue hle => rw [Reader.within_readBytes, forall_prop_of_true hle]
  case isFalse hle => simp only [Reader.within_pure, hle, false_implies]

theorem readMetadata_val (psshData : Mem) {dataLength : Nat} (hint : dataLength < 2 ^ 31)
    (content_id_size p : Nat) :
    (readMetadata dataLength content_id_size).val psshData p =
      if (header + 4 + content_id_size) % 2 ^ 32 ≤ dataLength then
        psshData.slice p content_id_size
      else [] := by
  rw [readMetadata_eq hint, Reader.val_ite, Reader.val_readBytes, Reader.val_pure]

theorem within_extract (psshData : Mem) {dataLength : Nat} (hint : dataLength < 2 ^ 31) :
    Reader.Within dataLength (extractWVContentMetadataFromPssh dataLength) psshData 0 ↔
      header + 4 ≤ dataLength ∧
        ((header + 4 + psshData.be header 4) % 2 ^ 32 ≤ dataLength →
          psshData.be header 4 = 0 ∨ header + 4 + psshData.be header 4 ≤ dataLength) := by
  simp only [extractWVContentMetadataFromPssh, Reader.within_bind, Reader.within_skip,
    Reader.within_readBe, Reader.val_readBe, Reader.next_skip, Reader.next_readBe, Nat.zero_add,
    within_readMetadata psshData hint, true_and]
  simp

theorem extract_val (psshData : Mem) {dataLength : Nat} (hint : dataLength < 2 ^ 31) :
    (extractWVContentMetadataFromPssh dataLength).val psshData 0 =
      if (header + 4 + psshData.be header 4) % 2 ^ 32 ≤ dataLength then
        psshData.slice (header + 4) (psshData.be header 4)
      else [] := by
  simp only [extractWVContentMetadataFromPssh, Reader.val_bind, Reader.next_skip,
    Reader.next_readBe, Reader.val_readBe, Nat.zero_add, readMetadata_val psshData hint]

/-- The extraction is right exactly for the strings that hold the size, where the size added to
the header stays in 32 bits. -/
theorem extract_iff (psshData : Mem) (dataLength : Nat) (hint : dataLength < 2 ^ 31) :
    Extracts psshData dataLength ↔
      header + 4 ≤ dataLength ∧ header + 4 + psshData.be header 4 < 2 ^ 32 := by
  have hsize : psshData.be header 4 < 2 ^ 32 := psshData.be_lt header 4
  constructor
  · intro h
    obtain ⟨hheader, hinside⟩ := (within_extract psshData hint).mp h.within
    constructor
    · exact hheader
    · by_contra hwrap
      -- the wrapped sum is less than the header, so the whole size is read
      have hsum : (header + 4 + psshData.be header 4) % 2 ^ 32 ≤ dataLength := by
        unfold header at *
        omega
      have := hinside hsum
      omega
  · intro ⟨hheader, hfits⟩
    constructor
    · rw [within_extract psshData hint, Nat.mod_eq_of_lt hfits]
      exact ⟨hheader, Or.inr⟩
    · rw [extract_val psshData hint, Nat.mod_eq_of_lt hfits, contentMetadata]
      simp only [hheader, true_and]

/-- A box without data. -/
def emptyBox : Mem := fun _ => 0

theorem emptyBox_extracts : Extracts emptyBox 32 ↔ header + 4 ≤ 32 ∧
    header + 4 + emptyBox.be header 4 < 2 ^ 32 :=
  extract_iff emptyBox 32 (by decide)

/-- A box of 32 bytes that gives its data 2^32 - 1 bytes. -/
def hugeBox : Mem := fun i => if 28 ≤ i then 255 else 0

theorem hugeBox_overread : ¬ Extracts hugeBox 32 := by
  intro h
  obtain ⟨_, hinside⟩ := (within_extract hugeBox (by decide)).mp h.within
  exact absurd (hinside (by decide)) (by decide)

end PlayerInterface.Drm.WidevineMetadata
