import PlayerInterface.Mp4Demux.Fragments

/-!
# The header boxes of a movie, a media and a track

The parsers of `mvhd`, `mdhd` and `tkhd` are run on every value of the fields in
both versions. All three read the duration of the movie and of the media as four
bytes, whatever the version is, and the volume with the reserved bytes behind it.
-/

namespace PlayerInterface.Mp4Demux

open PlayerInterface.Core Program
open PlayerInterface.IsoBmff (timeWidth versionByte)

/-! ## Serialised headers -/

/-- What the three boxes begin with. -/
structure HeaderTimes where
  version1 : Bool
  flags : Word 3
  creation_time : Word (timeWidth version1)
  modification_time : Word (timeWidth version1)

def HeaderTimes.bytes (b : HeaderTimes) : Bytes :=
  versionByte b.version1 ++ (b.flags.bytes ++ (b.creation_time.bytes ++ b.modification_time.bytes))

/-- Nine signed words. -/
abbrev Matrix := { words : List (Word 4) // words.length = 9 }

def matrixBytes (words : List (Word 4)) : Bytes := words.flatMap Word.bytes

def matrixValues (words : List (Word 4)) : List Int :=
  words.map fun w => Int.bmod w.toNat (2 ^ 32)

def reserved (width : Nat) : Bytes := beBytes width 0

structure MovieHeader extends HeaderTimes where
  timescale : Word 4
  duration : Word (timeWidth version1)
  rate : Word 4
  volume : Word 2
  matrix : Matrix
  next_track_ID : Word 4

def MovieHeader.bytes (b : MovieHeader) : Bytes :=
  b.toHeaderTimes.bytes ++ (b.timescale.bytes ++ (b.duration.bytes ++ (b.rate.bytes ++
    (b.volume.bytes ++ (reserved 10 ++ (matrixBytes b.matrix ++ (reserved 24 ++
      b.next_track_ID.bytes)))))))

structure MediaHeader extends HeaderTimes where
  timescale : Word 4
  duration : Word (timeWidth version1)
  language : Word 2

def MediaHeader.bytes (b : MediaHeader) : Bytes :=
  b.toHeaderTimes.bytes ++ (b.timescale.bytes ++ (b.duration.bytes ++ (b.language.bytes ++
    reserved 2)))

structure TrackHeader extends HeaderTimes where
  track_ID : Word 4
  duration : Word (timeWidth version1)
  layer : Word 2
  alternate_group : Word 2
  volume : Word 2
  matrix : Matrix
  width : Word 4
  height : Word 4

def TrackHeader.bytes (b : TrackHeader) : Bytes :=
  b.toHeaderTimes.bytes ++ (b.track_ID.bytes ++ (reserved 4 ++ (b.duration.bytes ++
    (reserved 8 ++ (b.layer.bytes ++ (b.alternate_group.bytes ++ (b.volume.bytes ++
      (reserved 2 ++ (matrixBytes b.matrix ++ (b.width.bytes ++ b.height.bytes))))))))))

/-! ## Runs of the parsers -/

section
variable {m : Mem} {d : Demuxer}

theorem parseMovieHeaderBox_run :
    let sz := timeSize (m.be d.ptr 1)
    let q := behindTimes m d.ptr
    Returns parseMovieHeaderBox m d fun _ d' =>
      d'.creation_time = m.be (d.ptr + 4) sz ∧ d'.modification_time = m.be (d.ptr + 4 + sz) sz ∧
      d'.timescale = m.be q 4 ∧ d'.duration = m.be (q + 4) 4 ∧ d'.rate = m.be (q + 8) 4 ∧
      d'.volume = m.be (q + 12) 4 ∧ d'.matrix = matrixAt m 9 (q + 24) := by
  refine .step (readHeader_run m d) (.get ?_)
  refine .step (assign_run (readBytes_run m _ (timeSize_le _)) _) ?_
  refine .step (assign_run (readBytes_run m _ (timeSize_le _)) _) ?_
  refine .step (assign_run (readU32_run m _) _) ?_
  refine .step (assign_run (readU32_run m _) _) ?_
  refine .step (assign_run (readU32_run m _) _) ?_
  refine .step (assign_run (readU32_run m _) _) ?_
  refine .step rfl (.step (readMatrix_run m _ 9) ?_)
  exact ⟨(), _, rfl, rfl, rfl, rfl, rfl, rfl, rfl, rfl⟩

theorem parseMediaHeaderBox_run :
    let sz := timeSize (m.be d.ptr 1)
    let q := behindTimes m d.ptr
    Returns parseMediaHeaderBox m d fun _ d' =>
      d'.creation_time = m.be (d.ptr + 4) sz ∧ d'.modification_time = m.be (d.ptr + 4 + sz) sz ∧
      d'.timescale = m.be q 4 ∧ d'.duration = m.be (q + 4) 4 ∧ d'.language = m.be (q + 8) 2 := by
  refine .step (readHeader_run m d) (.get ?_)
  refine .step (assign_run (readBytes_run m _ (timeSize_le _)) _) ?_
  refine .step (assign_run (readBytes_run m _ (timeSize_le _)) _) ?_
  refine .step (assign_run (readU32_run m _) _) ?_
  refine .step (assign_run (readU32_run m _) _) ?_
  exact ⟨(), _, assign_run (readU16_run m _) _, rfl, rfl, rfl, rfl, rfl⟩

theorem parseTrackHeader_run :
    let sz := timeSize (m.be d.ptr 1)
    let q := behindTimes m d.ptr
    Returns parseTrackHeader m d fun _ d' =>
      d'.creation_time = m.be (d.ptr + 4) sz ∧ d'.modification_time = m.be (d.ptr + 4 + sz) sz ∧
      d'.track_id = m.be q 4 ∧ d'.matrix = matrixAt m 9 (q + 4 + (20 + sz)) ∧
      d'.width = m.be (q + 4 + (20 + sz) + 36) 4 ∧ d'.height = m.be (q + 4 + (20 + sz) + 40) 4 := by
  refine .step (readHeader_run m d) (.get ?_)
  refine .step (assign_run (readBytes_run m _ (timeSize_le _)) _) ?_
  refine .step (assign_run (readBytes_run m _ (timeSize_le _)) _) ?_
  refine .step (assign_run (readU32_run m _) _) ?_
  refine .step rfl (.step (readMatrix_run m _ 9) ?_)
  refine .step rfl (.step (assign_run (readU32_run m _) _) ?_)
  exact ⟨(), _, assign_run (readU32_run m _) _, rfl, rfl, rfl, rfl, rfl, rfl⟩

end

/-! ## Stored fields -/

theorem reserved_add (a b : Nat) : reserved (a + b) = reserved a ++ reserved b := by
  rw [reserved, beBytes_add, Nat.zero_div]
  rfl

theorem be_reserved (width : Nat) : be (reserved width) = 0 := by
  rw [reserved, be_beBytes, Nat.zero_mod]

@[simp] theorem reserved_length (width : Nat) : (reserved width).length = width :=
  beBytes_length width 0

@[simp] theorem matrixBytes_length (words : List (Word 4)) :
    (matrixBytes words).length = 4 * words.length := by
  induction words with
  | nil => rfl
  | cons w words ih =>
      have hcons : matrixBytes (w :: words) = w.bytes ++ matrixBytes words := rfl
      rw [hcons, List.length_append, Word.bytes_length, ih, List.length_cons]
      omega

section
variable {m : Mem} {p : Nat}

/-- A word of eight bytes, read as two words of four. -/
theorem halves_of_word {w : Word 8} (h : Holds m p w.bytes) :
    m.be p 4 = w.toNat / 2 ^ 32 ∧ m.be (p + 4) 4 = w.toNat % 2 ^ 32 := by
  have hlt : w.toNat / 2 ^ 32 < 256 ^ 4 := by
    have := w.lt
    omega
  rw [Word.bytes, beBytes_add 4 4, holds_append, beBytes_length] at h
  refine ⟨Holds.be h.1 hlt, ?_⟩
  have hlow := h.2.be_eq
  rw [beBytes_length, be_beBytes] at hlow
  exact hlow

/-- The first quarter of its lower half. -/
theorem upper_of_word {w : Word 8} (h : Holds m p w.bytes) :
    m.be (p + 4) 2 = w.toNat % 2 ^ 32 / 2 ^ 16 := by
  rw [Word.bytes, beBytes_add 4 4, beBytes_add 2 2 w.toNat, holds_append, holds_append,
    beBytes_length] at h
  have hbe := h.2.1.be_eq
  rw [beBytes_length, be_beBytes] at hbe
  omega

/-- A word of two bytes, read together with the reserved bytes behind it. -/
theorem be_word_reserved {w : Word 2} (h : Holds m p (w.bytes ++ reserved 2)) :
    m.be p 4 = 2 ^ 16 * w.toNat := by
  have hbe := h.be_eq
  rw [be_append, be_reserved, Word.bytes, be_beBytes_of_lt w.lt] at hbe
  simpa using hbe

theorem matrixAt_words {words : List (Word 4)} (h : Holds m p (matrixBytes words)) :
    matrixAt m words.length p = matrixValues words := by
  induction words generalizing p with
  | nil => rfl
  | cons w words ih =>
      obtain ⟨hw, hwords⟩ := holds_append.mp h
      rw [Word.bytes_length] at hwords
      rw [List.length_cons, matrixAt, hw.word, ih hwords]
      rfl

theorem HeaderTimes.stored {b : HeaderTimes} {rest : Bytes} (h : Holds m p (b.bytes ++ rest)) :
    timeSize (m.be p 1) = timeWidth b.version1 ∧
      m.be (p + 4) (timeWidth b.version1) = b.creation_time.toNat ∧
      m.be (p + 4 + timeWidth b.version1) (timeWidth b.version1) = b.modification_time.toNat ∧
      Holds m (behindTimes m p) rest := by
  obtain ⟨htimes, hrest⟩ := holds_append.mp h
  simp only [bytes, holds_append, Word.bytes_length] at htimes
  obtain ⟨hversion, -, hcreation, hmodification⟩ := htimes
  have hsize := versionByte_timeSize hversion
  refine ⟨hsize, Holds.word hcreation, Holds.word hmodification, ?_⟩
  have hlength : p + b.bytes.length = behindTimes m p := by
    rw [behindTimes, hsize]
    simp only [bytes, List.length_append, Word.bytes_length, versionByte, List.length_singleton]
    omega
  rw [← hlength]
  exact hrest

end

/-! ## Which headers are decoded -/

/-- The members hold the fields; the member for the duration has four bytes. -/
structure MovieHeader.Decoded (b : MovieHeader) (d : Demuxer) : Prop where
  creation_time : d.creation_time = b.creation_time.toNat
  modification_time : d.modification_time = b.modification_time.toNat
  timescale : d.timescale = b.timescale.toNat
  duration : d.duration = b.duration.toNat % 2 ^ 32
  rate : d.rate = b.rate.toNat
  volume : d.volume = b.volume.toNat
  matrix : d.matrix = matrixValues b.matrix

structure MediaHeader.Decoded (b : MediaHeader) (d : Demuxer) : Prop where
  creation_time : d.creation_time = b.creation_time.toNat
  modification_time : d.modification_time = b.modification_time.toNat
  timescale : d.timescale = b.timescale.toNat
  duration : d.duration = b.duration.toNat % 2 ^ 32
  language : d.language = b.language.toNat

/-- Duration, layer, alternate group and volume of a track are skipped. -/
structure TrackHeader.Decoded (b : TrackHeader) (d : Demuxer) : Prop where
  creation_time : d.creation_time = b.creation_time.toNat
  modification_time : d.modification_time = b.modification_time.toNat
  track_id : d.track_id = b.track_ID.toNat
  matrix : d.matrix = matrixValues b.matrix
  width : d.width = b.width.toNat
  height : d.height = b.height.toNat

/-- In version 1 every field from the duration on is read four bytes too early, so
each has to be what stands before it; in version 0 only the volume is misread. -/
def MovieHeader.Survives (b : MovieHeader) : Prop :=
  if b.version1 then
    b.duration.toNat / 2 ^ 32 = b.rate.toNat ∧ b.duration.toNat % 2 ^ 32 = b.rate.toNat ∧
      b.volume.toNat = b.rate.toNat ∧ ∀ w ∈ b.matrix.val, w.toNat = 0
  else b.volume.toNat = 0

def MediaHeader.Survives (b : MediaHeader) : Prop :=
  if b.version1 then
    b.duration.toNat / 2 ^ 32 = b.duration.toNat % 2 ^ 32 ∧
      b.language.toNat = b.duration.toNat % 2 ^ 32 / 2 ^ 16
  else True

/-- A list that is itself shifted by one place behind a value holds that value only. -/
theorem eq_shift_iff {α : Type} {a : α} {n : Nat} {xs : List α} (hlen : xs.length = n + 1) :
    a :: xs.take n = xs ↔ ∀ x ∈ xs, x = a := by
  induction n generalizing xs with
  | zero =>
      obtain ⟨x, rfl⟩ := List.length_eq_one_iff.mp hlen
      simp [eq_comm]
  | succ n ih =>
      obtain ⟨x, ys, rfl⟩ := List.exists_cons_of_length_eq_add_one hlen
      rw [List.take_succ_cons, List.cons.injEq, List.forall_mem_cons]
      have hlen' : ys.length = n + 1 := Nat.succ.inj hlen
      constructor
      · rintro ⟨rfl, hshift⟩
        exact ⟨rfl, (ih hlen').mp hshift⟩
      · rintro ⟨rfl, hall⟩
        exact ⟨rfl, (ih hlen').mpr hall⟩

theorem bmod_word_eq_zero_iff (w : Word 4) : Int.bmod w.toNat (2 ^ 32) = 0 ↔ w.toNat = 0 := by
  have := w.lt
  rw [Int.bmod_def]
  omega

/-- The matrix read four bytes too early is the stored one when both are zero. -/
theorem shifted_matrix_iff (words : Matrix) :
    0 :: matrixValues (words.val.take 8) = matrixValues words ↔ ∀ w ∈ words.val, w.toNat = 0 := by
  have hlen : (matrixValues words).length = 8 + 1 := by
    rw [matrixValues, List.length_map, words.property]
  have htake : matrixValues (words.val.take 8) = (matrixValues words).take 8 := List.map_take
  rw [htake, eq_shift_iff hlen, matrixValues, List.forall_mem_map]
  exact forall₂_congr fun w _ => bmod_word_eq_zero_iff w

section
variable {m : Mem} {q : Nat} {timescale rate : Word 4} {volume : Word 2} {matrix : Matrix}
  {rest : Bytes}

/-- What the parser of `mvhd` reads from the fields of version 0. -/
theorem movieWords_version0 {duration : Word 4}
    (h : Holds m q (timescale.bytes ++ (duration.bytes ++ (rate.bytes ++ (volume.bytes ++
      (reserved 10 ++ (matrixBytes matrix ++ rest))))))) :
    m.be q 4 = timescale.toNat ∧ m.be (q + 4) 4 = duration.toNat ∧ m.be (q + 8) 4 = rate.toNat ∧
      m.be (q + 12) 4 = 2 ^ 16 * volume.toNat ∧ matrixAt m 9 (q + 24) = matrixValues matrix := by
  rw [reserved_add 2 8] at h
  simp only [holds_append, Word.bytes_length, reserved_length, List.append_assoc,
    Nat.add_assoc, Nat.reduceAdd] at h
  obtain ⟨htimescale, hduration, hrate, hvolume, hzero, -, hmatrix, -⟩ := h
  have hwords := matrixAt_words hmatrix
  rw [matrix.property] at hwords
  have hpadded : Holds m (q + 12) (volume.bytes ++ reserved 2) :=
    holds_append.mpr ⟨hvolume, by rw [Word.bytes_length]; exact hzero⟩
  exact ⟨htimescale.word, hduration.word, hrate.word, be_word_reserved hpadded, hwords⟩

/-- What it reads from those of version 1, where the duration has eight bytes. -/
theorem movieWords_version1 {duration : Word 8}
    (h : Holds m q (timescale.bytes ++ (duration.bytes ++ (rate.bytes ++ (volume.bytes ++
      (reserved 10 ++ (matrixBytes matrix ++ rest))))))) :
    m.be q 4 = timescale.toNat ∧ m.be (q + 4) 4 = duration.toNat / 2 ^ 32 ∧
      m.be (q + 8) 4 = duration.toNat % 2 ^ 32 ∧ m.be (q + 12) 4 = rate.toNat ∧
      matrixAt m 9 (q + 24) = 0 :: matrixValues (matrix.val.take 8) := by
  rw [reserved_add 6 4] at h
  simp only [holds_append, Word.bytes_length, reserved_length, List.append_assoc,
    Nat.add_assoc, Nat.reduceAdd] at h
  obtain ⟨htimescale, hduration, hrate, -, -, hzero, hmatrix, -⟩ := h
  have hhalves := halves_of_word hduration
  have hfirst : m.be (q + 24) 4 = 0 := by
    have hbe := hzero.be_eq
    rw [reserved_length, be_reserved] at hbe
    exact hbe
  have height : (matrix.val.take 8).length = 8 := by
    rw [List.length_take, matrix.property]
    rfl
  have hlead : Holds m (q + 28) (matrixBytes (matrix.val.take 8)) := by
    rw [← List.take_append_drop 8 matrix.val, matrixBytes, List.flatMap_append, holds_append]
      at hmatrix
    exact hmatrix.1
  have hwords := matrixAt_words hlead
  rw [height] at hwords
  refine ⟨htimescale.word, hhalves.1, hhalves.2, hrate.word, ?_⟩
  rw [matrixAt, hfirst, hwords]
  rfl

end

section
variable {m : Mem} {d : Demuxer}

theorem MovieHeader.fields_iff {b : MovieHeader} (h : Holds m d.ptr b.bytes) :
    Returns parseMovieHeaderBox m d fun _ d' => b.Decoded d' ↔ b.Survives := by
  obtain ⟨hsize, hcreation, hmodification, hrest⟩ := HeaderTimes.stored h
  obtain ⟨_, d', hd', hcreation', hmodification', htimescale, hduration, hrate, hvolume,
    hmatrix⟩ := parseMovieHeaderBox_run (m := m) (d := d)
  rw [hsize, hcreation] at hcreation'
  rw [hsize, hmodification] at hmodification'
  refine ⟨(), d', hd', ?_⟩
  obtain ⟨⟨version1, flags, creation_time, modification_time⟩, timescale, duration, rate, volume,
    matrix, next_track_ID⟩ := b
  cases version1 with
  | false =>
      obtain ⟨ht, hD, hR, hV, hM⟩ := movieWords_version0 hrest
      have hread : d'.volume = 2 ^ 16 * volume.toNat := hvolume.trans hV
      have hfit : duration.toNat % 2 ^ 32 = duration.toNat := Nat.mod_eq_of_lt duration.lt
      constructor
      · rintro ⟨-, -, -, -, -, hkept, -⟩
        have hkept' : d'.volume = volume.toNat := hkept
        show volume.toNat = 0
        omega
      · intro hzero
        have hzero' : volume.toNat = 0 := hzero
        exact ⟨hcreation', hmodification', htimescale.trans ht,
          hduration.trans (hD.trans hfit.symm), hrate.trans hR,
          by rw [hread]; show 2 ^ 16 * volume.toNat = volume.toNat; omega, hmatrix.trans hM⟩
  | true =>
      obtain ⟨ht, hD, hR, hV, hM⟩ := movieWords_version1 hrest
      constructor
      · rintro ⟨-, -, -, hduration', hrate', hvolume', hmatrix'⟩
        have hhigh := (hduration.trans hD).symm.trans hduration'
        have hlow := (hrate.trans hR).symm.trans hrate'
        have hsame := (hvolume.trans hV).symm.trans hvolume'
        have hshift := (hmatrix.trans hM).symm.trans hmatrix'
        exact ⟨hhigh.trans hlow, hlow, hsame.symm, (shifted_matrix_iff matrix).mp hshift⟩
      · rintro ⟨hhigh, hlow, hsame, hzero⟩
        exact ⟨hcreation', hmodification', htimescale.trans ht,
          hduration.trans (hD.trans (hhigh.trans hlow.symm)), hrate.trans (hR.trans hlow),
          hvolume.trans (hV.trans hsame.symm),
          hmatrix.trans (hM.trans ((shifted_matrix_iff matrix).mpr hzero))⟩

theorem MediaHeader.fields_iff {b : MediaHeader} (h : Holds m d.ptr b.bytes) :
    Returns parseMediaHeaderBox m d fun _ d' => b.Decoded d' ↔ b.Survives := by
  obtain ⟨hsize, hcreation, hmodification, hrest⟩ := HeaderTimes.stored h
  obtain ⟨_, d', hd', hcreation', hmodification', htimescale, hduration, hlanguage⟩ :=
    parseMediaHeaderBox_run (m := m) (d := d)
  rw [hsize, hcreation] at hcreation'
  rw [hsize, hmodification] at hmodification'
  refine ⟨(), d', hd', ?_⟩
  obtain ⟨⟨version1, flags, creation_time, modification_time⟩, timescale, duration, language⟩ := b
  simp only [holds_append, Word.bytes_length] at hrest
  obtain ⟨hT, hD, hL, -⟩ := hrest
  cases version1 with
  | false =>
      have hfit : duration.toNat % 2 ^ 32 = duration.toNat := Nat.mod_eq_of_lt duration.lt
      exact iff_of_true ⟨hcreation', hmodification', htimescale.trans hT.word,
        hduration.trans ((Holds.word hD).trans hfit.symm), hlanguage.trans (Holds.word hL)⟩ trivial
  | true =>
      have hhalves := halves_of_word (w := duration) hD
      have hupper := upper_of_word (w := duration) hD
      constructor
      · rintro ⟨-, -, -, hduration', hlanguage'⟩
        have hkept := (hduration.trans hhalves.1).symm.trans hduration'
        exact ⟨hkept, ((hlanguage.trans hupper).symm.trans hlanguage').symm⟩
      · rintro ⟨hkept, hsame⟩
        exact ⟨hcreation', hmodification', htimescale.trans hT.word,
          hduration.trans (hhalves.1.trans hkept), hlanguage.trans (hupper.trans hsame.symm)⟩

theorem TrackHeader.decoded {b : TrackHeader} (h : Holds m d.ptr b.bytes) :
    Returns parseTrackHeader m d fun _ d' => b.Decoded d' := by
  obtain ⟨hsize, hcreation, hmodification, hrest⟩ := HeaderTimes.stored h
  obtain ⟨_, d', hd', hcreation', hmodification', htrack, hmatrix, hwidth, hheight⟩ :=
    parseTrackHeader_run (m := m) (d := d)
  rw [hsize] at hmatrix hwidth hheight
  rw [hsize, hcreation] at hcreation'
  rw [hsize, hmodification] at hmodification'
  simp only [holds_append, Word.bytes_length, reserved_length, matrixBytes_length,
    b.matrix.property] at hrest
  obtain ⟨hT, -, -, -, -, -, -, -, hM, hW, hH⟩ := hrest
  have hwords := matrixAt_words hM
  rw [b.matrix.property] at hwords
  have hbehind : behindTimes m d.ptr + 4 + 4 + timeWidth b.version1 + 8 + 2 + 2 + 2 + 2 =
      behindTimes m d.ptr + 4 + (20 + timeWidth b.version1) := by omega
  rw [hbehind] at hwords hW hH
  exact ⟨(), d', hd', hcreation', hmodification', htrack.trans hT.word, hmatrix.trans hwords,
    hwidth.trans hW.word, hheight.trans hH.word⟩

end

/-! ## All three boxes -/

inductive HeaderBox where
  | mvhd (b : MovieHeader)
  | mdhd (b : MediaHeader)
  | tkhd (b : TrackHeader)

namespace HeaderBox

def bytes : HeaderBox → Bytes
  | mvhd b => b.bytes
  | mdhd b => b.bytes
  | tkhd b => b.bytes

def parse : HeaderBox → Demux Unit
  | mvhd _ => parseMovieHeaderBox
  | mdhd _ => parseMediaHeaderBox
  | tkhd _ => parseTrackHeader

def Decoded : HeaderBox → Demuxer → Prop
  | mvhd b => b.Decoded
  | mdhd b => b.Decoded
  | tkhd b => b.Decoded

def Survives : HeaderBox → Prop
  | mvhd b => b.Survives
  | mdhd b => b.Survives
  | tkhd _ => True

/-- Every header box is parsed, and its fields are in the members exactly when it
survives what is misread of it. -/
theorem decoded_iff (h : HeaderBox) (m : Mem) (d : Demuxer) (hm : Holds m d.ptr h.bytes) :
    Returns h.parse m d fun _ d' => h.Decoded d' ↔ h.Survives := by
  cases h with
  | mvhd b => exact b.fields_iff hm
  | mdhd b => exact b.fields_iff hm
  | tkhd b =>
      obtain ⟨_, d', hd', hdecoded⟩ := b.decoded hm
      exact ⟨(), d', hd', iff_of_true hdecoded trivial⟩

end HeaderBox

namespace LongMovie

def matrix : Matrix := ⟨List.replicate 9 .zero, rfl⟩

/-- A media header of version 1 with a duration of 3600. -/
def media : MediaHeader where
  version1 := true
  flags := .zero
  creation_time := .zero
  modification_time := .zero
  timescale := .ofNat 1
  duration := .ofNat 3600
  language := .zero

/-- A movie header of version 0 without a volume. -/
def movie : MovieHeader where
  version1 := false
  flags := .zero
  creation_time := .zero
  modification_time := .zero
  timescale := .ofNat 1
  duration := .ofNat 3600
  rate := .zero
  volume := .zero
  matrix := matrix
  next_track_ID := .zero

def memory (h : HeaderBox) : Mem := Mem.ofBytes h.bytes fun _ => 0

end LongMovie

theorem movie_decoded_iff :
    Returns parseMovieHeaderBox (LongMovie.memory (.mvhd LongMovie.movie)) default fun _ d' =>
      LongMovie.movie.Decoded d' ↔ 0 = 0 :=
  (HeaderBox.mvhd LongMovie.movie).decoded_iff _ default (holds_ofBytes _ fun _ => 0)

/-- The duration of a media header of version 1 is read from its upper half. -/
theorem media_not_decoded :
    ¬ ∀ (h : HeaderBox) (m : Mem) (d : Demuxer), Holds m d.ptr h.bytes →
      Returns h.parse m d fun _ d' => h.Decoded d' := by
  intro h
  have hm : Holds (LongMovie.memory (.mdhd LongMovie.media)) (default : Demuxer).ptr
      LongMovie.media.bytes := holds_ofBytes _ fun _ => 0
  obtain ⟨_, d', hd', hdecoded⟩ := h (.mdhd LongMovie.media) _ default hm
  obtain ⟨_, e, he, hiff⟩ := MediaHeader.fields_iff hm
  obtain rfl : e = d' := congrArg Prod.snd (Except.ok.inj (he.symm.trans hd'))
  exact absurd (hiff.mp hdecoded).1 (by decide)

end PlayerInterface.Mp4Demux
