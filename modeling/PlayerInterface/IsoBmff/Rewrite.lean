import PlayerInterface.IsoBmff.Passing

/-!
# Rewriting a parsed box in place

The setters and truncations of the box classes: each changes a member of the object
and the bytes it was read from. A box that gets smaller leaves a `skip` box behind it
when there is room for one.
-/

namespace PlayerInterface.IsoBmff

open PlayerInterface.Core Reader

def SKIP : FourCC := fourcc 's' 'k' 'i' 'p'

def PLAYER_SIZEOF_SIZE_AND_TAG : Nat := 8

/-! ## Writes -/

/-- The low 32 bits of `val`. -/
def PLAYER_WRITE_U32 (m : Mem) (loc val : Nat) : Mem := m.write loc (beBytes 4 val)

def WriteUint64ToBuffer (m : Mem) (dst val : Nat) : Mem :=
  PLAYER_WRITE_U32 (PLAYER_WRITE_U32 m dst (val / 2 ^ 32)) (dst + 4) val

/-- The constructor of `SkipIsoBmffBox` only writes the header of the box. -/
def SkipIsoBmffBox (m : Mem) (sz locn : Nat) : Mem :=
  (PLAYER_WRITE_U32 m locn sz).write (locn + 4) SKIP.bytes

/-- `none` when the base was never set. -/
def BoxHeader.setSize (hdr : BoxHeader) (newSize : Nat) (m : Mem) : Option (BoxHeader × Mem) :=
  hdr.base.map fun base => ({ hdr with size := newSize }, PLAYER_WRITE_U32 m base newSize)

namespace IsoBmffBox

/-! ## Setters -/

def setTimeScale (tScale : Nat) : IsoBmffBox → Mem → IsoBmffBox × Mem
  | full hdr version flags (.mvhd _ loc), m =>
      (full hdr version flags (.mvhd tScale loc), PLAYER_WRITE_U32 m loc tScale)
  | full hdr version flags (.mdhd _ loc), m =>
      (full hdr version flags (.mdhd tScale loc), PLAYER_WRITE_U32 m loc tScale)
  | full hdr version flags (.sidx _ duration), m =>
      (full hdr version flags (.sidx tScale duration), m)
  | box, m => (box, m)

def setBaseMDT (mdt : Nat) : IsoBmffBox → Mem → IsoBmffBox × Mem
  | full hdr version flags (.tfdt _ loc), m =>
      (full hdr version flags (.tfdt mdt loc),
        if version = 1 then WriteUint64ToBuffer m loc mdt else PLAYER_WRITE_U32 m loc mdt)
  | box, m => (box, m)

def setDefaultSampleDuration (default_duration : Nat) : IsoBmffBox → Mem → IsoBmffBox × Mem
  | full hdr version flags (.tfhd _ loc size mFlags), m =>
      (full hdr version flags (.tfhd default_duration loc size mFlags),
        match loc with
        | some loc => PLAYER_WRITE_U32 m loc default_duration
        | none => m)
  | box, m => (box, m)

def setFirstSampleDuration (sampleDuration : Nat) : IsoBmffBox → Mem → IsoBmffBox × Mem
  | full hdr version flags (.trun _ count countLoc loc firstSampleSize mFlags), m =>
      (full hdr version flags (.trun sampleDuration count countLoc loc firstSampleSize mFlags),
        match loc with
        | some loc => PLAYER_WRITE_U32 m loc sampleDuration
        | none => m)
  | box, m => (box, m)

/-! ## Truncation -/

/-- `TrunIsoBmffBox::truncate`. -/
def truncateTrun (hdr : BoxHeader) (version flags duration sample_count sample_count_loc : Nat)
    (loc : Option Nat) (firstSampleSize mFlags : Nat) (m : Mem) : Option (IsoBmffBox × Mem) :=
  let box hdr count :=
    full hdr version flags (.trun duration count sample_count_loc loc firstSampleSize mFlags)
  if sample_count > 1 then
    let bytesPerSample := trunRecordWidth flags
    let tableSize := sample_count * bytesPerSample % 2 ^ 32
    let oldTrunSize := hdr.size
    let newTrunSize := (sub32 hdr.size tableSize + bytesPerSample) % 2 ^ 32
    let m := PLAYER_WRITE_U32 m sample_count_loc 1
    if sub32 oldTrunSize newTrunSize ≥ PLAYER_SIZEOF_SIZE_AND_TAG then do
      let base ← hdr.base
      let (hdr, m) ← hdr.setSize newTrunSize m
      pure (box hdr 1, SkipIsoBmffBox m (sub32 tableSize bytesPerSample) (base + hdr.size))
    else some (box hdr 1, m)
  else some (box hdr sample_count, m)

/-- A size word and the header of a `skip` box for the bytes behind `newEnd`, which both sample
tables write without telling the object its new size. -/
def shrink (base oldSize newSize newEnd : Nat) (m : Mem) : Mem :=
  SkipIsoBmffBox (PLAYER_WRITE_U32 m base newSize) (sub32 oldSize newSize) newEnd

/-- `SaizIsoBmffBox::truncate`. -/
def truncateSaiz (hdr : BoxHeader) (version flags sampleCountLoc numSamples : Nat)
    (firstSampleInfoSize : Nat) (m : Mem) : Option (IsoBmffBox × Mem) :=
  let oldSize := hdr.size
  let newSize := sub32 oldSize (sub32 numSamples 1)
  let shrunk :=
    if sub32 oldSize newSize ≥ PLAYER_SIZEOF_SIZE_AND_TAG then
      hdr.base.map fun base => shrink base oldSize newSize (base + newSize) m
    else some m
  shrunk.map fun m =>
    (full hdr version flags (.saiz sampleCountLoc 1 firstSampleInfoSize),
      PLAYER_WRITE_U32 m sampleCountLoc 1)

/-- `truncate(void)`; what does not override it does nothing. -/
def truncate : IsoBmffBox → Mem → Option (IsoBmffBox × Mem)
  | full hdr version flags (.trun duration count countLoc loc firstSampleSize mFlags), m =>
      truncateTrun hdr version flags duration count countLoc loc firstSampleSize mFlags m
  | full hdr version flags (.saiz countLoc numSamples firstSampleInfoSize), m =>
      truncateSaiz hdr version flags countLoc numSamples firstSampleInfoSize m
  | box, m => some (box, m)

/-- `SencIsoBmffBox::truncate`. -/
def truncateSenc (hdr : BoxHeader) (version flags sampleCountLoc numSamples : Nat)
    (firstSampleSize : Nat) (m : Mem) : Option (IsoBmffBox × Mem) :=
  if numSamples > 1 then
    let newEnd := sampleCountLoc + 4 + firstSampleSize
    let shrunk :=
      if firstSampleSize ≠ 0 then
        hdr.base.map fun base =>
          let newSize := (newEnd - base) % 2 ^ 32
          if sub32 hdr.size newSize ≥ PLAYER_SIZEOF_SIZE_AND_TAG then
            shrink base hdr.size newSize newEnd m
          else m
      else some m
    shrunk.map fun m =>
      (full hdr version flags (.senc sampleCountLoc 1), PLAYER_WRITE_U32 m sampleCountLoc 1)
  else some (full hdr version flags (.senc sampleCountLoc numSamples), m)

/-- `truncate(uint32_t)`. -/
def truncateTo (param : Nat) : IsoBmffBox → Mem → Option (IsoBmffBox × Mem)
  | full hdr version flags (.senc countLoc numSamples), m =>
      truncateSenc hdr version flags countLoc numSamples param m
  | mdat hdr, m => (hdr.setSize param m).map fun r => (mdat r.1, r.2)
  | box, m => some (box, m)

/-- The sample count member of the boxes that have one. -/
def sampleCount : IsoBmffBox → Option Nat
  | full _ _ _ (.trun _ count _ _ _ _) => some count
  | full _ _ _ (.senc _ numSamples) => some numSamples
  | full _ _ _ (.saiz _ numSamples _) => some numSamples
  | _ => none

def getFirstSampleSize : IsoBmffBox → Option Nat
  | full _ _ _ (.trun _ _ _ _ firstSampleSize _) => some firstSampleSize
  | _ => none

@[simp] theorem sampleCount_setOffset (box : IsoBmffBox) (os : Nat) :
    (box.setOffset os).sampleCount = box.sampleCount := by
  cases box with
  | full hdr version flags body => cases body <;> rfl
  | plain hdr => rfl
  | mdat hdr => rfl
  | container hdr children => rfl
  | trak hdr children track_id => rfl

@[simp] theorem getFirstSampleSize_setOffset (box : IsoBmffBox) (os : Nat) :
    (box.setOffset os).getFirstSampleSize = box.getFirstSampleSize := by
  cases box with
  | full hdr version flags body => cases body <;> rfl
  | plain hdr => rfl
  | mdat hdr => rfl
  | container hdr children => rfl
  | trak hdr children track_id => rfl

end IsoBmffBox

/-! ## What is written -/

theorem WriteUint64ToBuffer_eq (m : Mem) (dst val : Nat) :
    WriteUint64ToBuffer m dst val = m.write dst (beBytes 8 val) := by
  have hsplit : beBytes 8 val = beBytes 4 (val / 2 ^ 32) ++ beBytes 4 val := beBytes_add 4 4 val
  have hdisjoint : dst + (beBytes 4 (val / 2 ^ 32)).length ≤ dst + 4 :=
    Nat.le_of_eq (by rw [beBytes_length])
  rw [WriteUint64ToBuffer, PLAYER_WRITE_U32, PLAYER_WRITE_U32, hsplit, Mem.write_append,
    beBytes_length, m.write_comm (Or.inl hdisjoint)]

theorem SkipIsoBmffBox_eq (m : Mem) (sz locn : Nat) :
    SkipIsoBmffBox m sz locn = m.write locn (beBytes 4 sz ++ SKIP.bytes) := by
  have hdisjoint : locn + (beBytes 4 sz).length ≤ locn + 4 :=
    Nat.le_of_eq (by rw [beBytes_length])
  rw [SkipIsoBmffBox, PLAYER_WRITE_U32, Mem.write_append, beBytes_length,
    m.write_comm (Or.inl hdisjoint)]

end PlayerInterface.IsoBmff
