import PlayerInterface.IsoBmff.Retiling

/-!
# Truncating the sample tables of a fragment

`saiz` and `senc` write a new size word without `setSize`, so the object keeps the old
size; `saiz` takes one byte away for each further sample, stored or not, also when
there is no sample at all. Their range is tiled again exactly when nothing is freed.
-/

namespace PlayerInterface.IsoBmff

open PlayerInterface.Core Reader

/-! ## The boxes -/

/-- The table has a byte for each sample when there is no default size. -/
structure SaizFields where
  version : Word 1
  flags : Word 3
  aux_info_type : Word 4
  aux_info_type_parameter : Word 4
  default_sample_info_size : Word 1
  sample_count : Word 4
  sample_info_sizes : Bytes
  table : sample_info_sizes.length =
    if default_sample_info_size.toNat = 0 then sample_count.toNat else 0

/-- The fields in front of the sample count. -/
def SaizFields.front (b : SaizFields) : Bytes :=
  b.version.bytes ++ (b.flags.bytes ++
    (field b.flags SAIZ_FLAG_AUX_INFO_TYPE_PRESENT b.aux_info_type ++
      (field b.flags SAIZ_FLAG_AUX_INFO_TYPE_PRESENT b.aux_info_type_parameter ++
        b.default_sample_info_size.bytes)))

def SaizFields.bytes (b : SaizFields) : Bytes :=
  b.front ++ (b.sample_count.bytes ++ b.sample_info_sizes)

/-- An entry is the vector of a sample with its subsample counts. -/
structure SencFields where
  version : Word 1
  flags : Word 3
  entries : List Bytes
  count_lt : entries.length < 256 ^ 4

def SencFields.front (b : SencFields) : Bytes := b.version.bytes ++ b.flags.bytes

def SencFields.bytes (b : SencFields) : Bytes :=
  b.front ++ (beBytes 4 b.entries.length ++ b.entries.flatten)

theorem SaizFields.front_length (b : SaizFields) :
    b.front.length = 5 + ifFlag b.flags.toNat SAIZ_FLAG_AUX_INFO_TYPE_PRESENT 8 := by
  simp only [front, List.length_append, Word.bytes_length, field_length]
  rcases ifFlag_cases b.flags.toNat SAIZ_FLAG_AUX_INFO_TYPE_PRESENT 8 with ⟨hf, h8⟩ | ⟨hf, h8⟩
  · rw [h8, ifFlag, if_neg (by simpa using hf)]
  · rw [h8, ifFlag, if_pos hf]

theorem SencFields.front_length (b : SencFields) : b.front.length = 4 := by
  rw [front, List.length_append, Word.bytes_length, Word.bytes_length]

/-- A box of `8 + body.length` bytes lies at `p`; its size is a 32-bit word. -/
structure Stored (type : FourCC) (body : Bytes) (m : Mem) (p : Nat) : Prop where
  size_lt : 8 + body.length < 2 ^ 32
  holds : Holds m p (boxBytes type body)

section
variable {m m' : Mem} {p q sz count : Nat} {found box : IsoBmffBox} {rest : List IsoBmffBox}

/-! ## What is parsed of them -/

/-- The table is not read, but for its first byte. -/
theorem constructSaizBox_front {b : SaizFields} (hcount : count < 2 ^ 32) (sz : Nat)
    (h : Holds m p (b.front ++ beBytes 4 count)) :
    ∃ info, (constructSaizBox sz).val m p =
      .full { base := some (p - 8), size := sz, type := SAIZ } b.version.toNat b.flags.toNat
        (.saiz (p + b.front.length) count info) := by
  rcases holds_append.mp h with ⟨hfront, hn⟩
  rw [b.front_length] at hn ⊢
  simp only [SaizFields.front, holds_append, Word.bytes_length] at hfront
  rcases hfront with ⟨hv, hf, -⟩
  have hcursor : p + 1 + 3 + ifFlag b.flags.toNat SAIZ_FLAG_AUX_INFO_TYPE_PRESENT 8 + 1 =
      p + (5 + ifFlag b.flags.toNat SAIZ_FLAG_AUX_INFO_TYPE_PRESENT 8) := by omega
  simp only [constructSaizBox, val_bind, val_tell, next_tell, val_readBe, next_readBe, next_skip,
    val_pure, hv.word, hf.word, hcursor, hn.be hcount]
  exact ⟨_, rfl⟩

theorem constructSencBox_front {b : SencFields} (hcount : count < 2 ^ 32) (sz : Nat)
    (h : Holds m p (b.front ++ beBytes 4 count)) :
    (constructSencBox sz).val m p =
      .full { base := some (p - 8), size := sz, type := SENC } b.version.toNat b.flags.toNat
        (.senc (p + 4) count) := by
  rcases holds_append.mp h with ⟨hfront, hn⟩
  rw [b.front_length] at hn
  simp only [SencFields.front, holds_append, Word.bytes_length] at hfront
  rcases hfront with ⟨hv, hf⟩
  simp only [constructSencBox, val_bind, val_tell, next_tell, val_readBe, next_readBe,
    val_pure, hv.word, hf.word, hn.be hcount]

/-! ## Truncation -/

/-- What a truncation should do to the `size` bytes at `p`: one sample is left, or none. -/
def Retiles (type : FourCC) (count p size : Nat) (m : Mem)
    (result : Option (IsoBmffBox × Mem)) : Prop :=
  ∃ box m' found rest, result = some (box, m') ∧ Retiled type p size m m' box found rest ∧
    found.sampleCount = some (min count 1)

/-- Nothing is freed: the sample count is all that is written. -/
theorem Retiles.of_count {type : FourCC} {front counted table : Bytes} (count : Nat)
    (box : IsoBmffBox) (hflat : Flat type)
    (hstored : Stored type (front ++ (counted ++ table)) m p) (hword : counted.length = 4)
    (hsize : box.getSize = 8 + (front ++ (counted ++ table)).length)
    (hparsed : ∀ m, Holds m (p + 8) (front ++ beBytes 4 (min count 1)) →
      (flatBox type (8 + (front ++ (counted ++ table)).length) m (p + 8)).sampleCount =
        some (min count 1)) :
    Retiles type count p (8 + (front ++ (counted ++ table)).length) m
      (some (box, PLAYER_WRITE_U32 m (p + 8 + front.length) (min count 1))) := by
  have hsame : (front ++ (beBytes 4 (min count 1) ++ table)).length =
      (front ++ (counted ++ table)).length := by
    simp only [List.length_append, beBytes_length, hword]
  have hlead : (beBytes 4 (8 + (front ++ (counted ++ table)).length) ++
      (type.bytes ++ front)).length = 8 + front.length := by
    simp only [List.length_append, beBytes_length, FourCC.bytes, List.length_cons, List.length_nil]
    omega
  have hcut : Holds m p ((beBytes 4 (8 + (front ++ (counted ++ table)).length) ++
      (type.bytes ++ front)) ++ (counted ++ table)) := by
    simpa only [boxBytes, List.append_assoc] using hstored.holds
  have hwritten := hcut.replace (q := p + 8 + front.length)
    (by rw [hlead, Nat.add_assoc]) ((beBytes_length 4 (min count 1)).trans hword.symm)
  have hbox : Holds (PLAYER_WRITE_U32 m (p + 8 + front.length) (min count 1)) p
      (boxBytes type (front ++ (beBytes 4 (min count 1) ++ table))) := by
    rw [boxBytes, hsame, PLAYER_WRITE_U32]
    simpa only [List.append_assoc] using hwritten
  have hlt := hstored.size_lt
  rw [← hsame] at hlt hsize hparsed ⊢
  refine ⟨box, _, _, _, rfl, Retiled.alone hflat hbox hlt hsize ?_, ?_⟩
  · intro i hi
    rw [List.length_append, List.length_append, beBytes_length] at hi
    exact PLAYER_WRITE_U32_outside (by omega)
  · have hbody := (headerWords_stored hbox hlt).2
    rw [← List.append_assoc] at hbody
    rw [IsoBmffBox.sampleCount_setOffset]
    exact hparsed _ (holds_append.mp hbody).1

/-- The object keeps the old size, so the size word of the range has to be the old one too. -/
theorem Retiled.words {type : FourCC} (hr : Retiled type p sz m m' box found rest)
    (hbox : box.getSize = sz) (h8 : 8 ≤ sz) (hlt : sz < 2 ^ 32) :
    m'.be p 4 = sz ∧ (headerWords m' p).type = type := by
  rcases hr.reparsed.words h8 hlt with ⟨hsize, htype⟩
  constructor
  · have hword : (headerWords m' p).size = m'.be p 4 := rfl
    rw [← hword, ← hsize, ← hr.getSize, hbox]
  · rw [← htype, hr.type_eq]

/-! ## The sizes of `saiz` -/

/-- Taking a difference away leaves what was subtracted. -/
theorem sub32_sub32 {a b : Nat} (ha : a < 2 ^ 32) (hb : b < 2 ^ 32) : sub32 a (sub32 a b) = b := by
  have hb' : b % 2 ^ 32 = b := Nat.mod_eq_of_lt hb
  simp only [sub32, hb']
  omega

theorem sub32_self {a : Nat} (ha : a < 2 ^ 32) : sub32 a a = 0 := by
  rw [sub32_of_le ha (Nat.le_refl a), Nat.sub_self]

theorem truncateSaiz_eq {version flags loc info : Nat} (hsz : sz < 2 ^ 32) :
    IsoBmffBox.truncateSaiz { base := some p, size := sz, type := SAIZ } version flags loc count
        info m =
      some (.full { base := some p, size := sz, type := SAIZ } version flags (.saiz loc 1 info),
        PLAYER_WRITE_U32
          (if 8 ≤ sub32 count 1 then
            SkipIsoBmffBox (PLAYER_WRITE_U32 m p (sub32 sz (sub32 count 1))) (sub32 count 1)
              (p + sub32 sz (sub32 count 1))
          else m) loc 1) := by
  have hback := sub32_sub32 hsz (sub32_lt count 1)
  simp only [IsoBmffBox.truncateSaiz, IsoBmffBox.shrink, hback, PLAYER_SIZEOF_SIZE_AND_TAG,
    ge_iff_le]
  by_cases h8 : 8 ≤ sub32 count 1
  · rw [if_pos h8, if_pos h8, Option.map_some, Option.map_some]
  · rw [if_neg h8, if_neg h8, Option.map_some]

/-- The count minus one takes no word below eight but from a count of one to eight. -/
theorem sub32_one_lt {n : Nat} (hn : n < 2 ^ 32) : sub32 n 1 < 8 ↔ 1 ≤ n ∧ n ≤ 8 := by
  rcases Nat.eq_zero_or_pos n with rfl | hpos
  · decide
  · rw [sub32_of_le hn hpos]
    omega

theorem SaizFields.size_eq (b : SaizFields) :
    8 + b.bytes.length = 17 + ifFlag b.flags.toNat SAIZ_FLAG_AUX_INFO_TYPE_PRESENT 8 +
      if b.default_sample_info_size.toNat = 0 then b.sample_count.toNat else 0 := by
  rw [bytes, List.length_append, List.length_append, b.front_length, Word.bytes_length, b.table]
  omega

/-- Only a table of a default size, in a box of 17 or 25 bytes, gets a new size below eight. -/
theorem SaizFields.newSize (b : SaizFields) (hlt : 8 + b.bytes.length < 2 ^ 32)
    (hnew : sub32 (8 + b.bytes.length) (sub32 b.sample_count.toNat 1) < 8) :
    sub32 b.sample_count.toNat 1 < 26 := by
  have hsize := b.size_eq
  have hcount := b.sample_count.lt
  have haux : ifFlag b.flags.toNat SAIZ_FLAG_AUX_INFO_TYPE_PRESENT 8 ≤ 8 := by
    unfold ifFlag
    split <;> omega
  have htable : (if b.default_sample_info_size.toNat = 0 then b.sample_count.toNat else 0) = 0 ∨
      (if b.default_sample_info_size.toNat = 0 then b.sample_count.toNat else 0) =
        b.sample_count.toNat := by
    split
    · exact Or.inr rfl
    · exact Or.inl rfl
  have hfreed := sub32_lt b.sample_count.toNat 1
  have hone : sub32 b.sample_count.toNat 1 = 2 ^ 32 - 1 ∧ b.sample_count.toNat = 0 ∨
      sub32 b.sample_count.toNat 1 = b.sample_count.toNat - 1 ∧ 0 < b.sample_count.toNat := by
    rcases Nat.eq_zero_or_pos b.sample_count.toNat with hzero | hpos
    · exact Or.inl ⟨by rw [hzero]; decide, hzero⟩
    · exact Or.inr ⟨sub32_of_le hcount hpos, hpos⟩
  rcases Nat.lt_or_ge (8 + b.bytes.length) (sub32 b.sample_count.toNat 1) with hborrow | hle
  · rw [sub32_of_lt hborrow hfreed] at hnew
    omega
  · rw [sub32_of_le hlt hle] at hnew
    omega

/-- The last byte of the type is not a `z` when a `skip` header of a short box lies over it. -/
theorem skip_byte {k new : Nat} (hk : k < 26) (hnew : new < 8) :
    (beBytes 4 k ++ SKIP.bytes).getD (7 - new) 0 ≠ 122 := by
  have hall : ∀ k < 26, ∀ new < 8, (beBytes 4 k ++ SKIP.bytes).getD (7 - new) 0 ≠ 122 := by decide
  exact hall k hk new hnew

/-- Freed bytes change the size word, or the type when the `skip` header lies over it. -/
theorem freed_words {k new loc : Nat} (hk : 8 ≤ k) (hnew : new < 2 ^ 32) (hfreed : sub32 sz new = k)
    (hshort : new < 8 → k < 26) (hloc : p + 8 ≤ loc)
    (hm : m' = PLAYER_WRITE_U32 (SkipIsoBmffBox (PLAYER_WRITE_U32 m p new) k (p + new)) loc 1)
    (hsize : m'.be p 4 = sz) : (headerWords m' p).type ≠ SAIZ := by
  rcases Nat.lt_or_ge new 8 with hover | hbehind
  · have hskip := boxHeader_length k SKIP
    have hbyte : m' (p + 7) = (beBytes 4 k ++ SKIP.bytes).getD (7 - new) 0 := by
      rw [hm, PLAYER_WRITE_U32_outside (by omega), SkipIsoBmffBox_eq, Mem.write,
        if_pos (by rw [hskip]; omega), show p + 7 - (p + new) = 7 - new by omega]
    intro htype
    rw [headerWords_eq, hbyte] at htype
    exact skip_byte (hshort hover) hover (congrArg FourCC.b3 htype)
  · have hword : m'.be p 4 = new := by
      rw [hm, PLAYER_WRITE_U32, Mem.be_write_outside (by omega), SkipIsoBmffBox_eq,
        Mem.be_write_outside (by omega), PLAYER_WRITE_U32, Mem.be_write hnew]
    rw [← hsize, hword, sub32_self hnew] at hfreed
    omega

theorem flat_saiz : Flat SAIZ := ⟨by decide, by decide⟩

theorem flat_senc : Flat SENC := ⟨by decide, by decide⟩

/-- The range of a `saiz` is tiled again exactly for one to eight samples. -/
theorem SaizFields.retiles_iff (b : SaizFields) (hstored : Stored SAIZ b.bytes m p) :
    Retiles SAIZ b.sample_count.toNat p (8 + b.bytes.length) m
        (((constructSaizBox (8 + b.bytes.length)).val m (p + 8)).truncate m) ↔
      1 ≤ b.sample_count.toNat ∧ b.sample_count.toNat ≤ 8 := by
  have hlt := hstored.size_lt
  have hbody := (headerWords_stored hstored.holds hlt).2
  rw [bytes, ← List.append_assoc] at hbody
  have hcount : b.sample_count.toNat < 2 ^ 32 := b.sample_count.lt
  rcases constructSaizBox_front hcount (8 + b.bytes.length) (holds_append.mp hbody).1 with
    ⟨info, hbox⟩
  rw [hbox, Nat.add_sub_cancel, IsoBmffBox.truncate, truncateSaiz_eq hlt, ← sub32_one_lt hcount]
  constructor
  · intro hretiles
    rcases hretiles with ⟨box, m', found, rest, hresult, hretiled, -⟩
    obtain ⟨rfl, rfl⟩ := Prod.mk.inj (Option.some.inj hresult)
    rcases hretiled.words rfl (by omega) hlt with ⟨hsize, htype⟩
    by_contra h8
    rw [if_pos (by omega)] at hsize htype
    exact freed_words (by omega) (sub32_lt _ _) (sub32_sub32 hlt (sub32_lt _ _))
      (b.newSize hlt) (by omega) rfl hsize htype
  · intro h8
    rw [if_neg (by omega)]
    have hone : min b.sample_count.toNat 1 = 1 := by
      have hrange := (sub32_one_lt hcount).mp h8
      omega
    have hretiles := Retiles.of_count b.sample_count.toNat
      (.full { base := some p, size := 8 + b.bytes.length, type := SAIZ } b.version.toNat
        b.flags.toNat (.saiz (p + 8 + b.front.length) 1 info))
      flat_saiz hstored (Word.bytes_length _) rfl fun m' hm' => by
        rcases constructSaizBox_front (by omega) (8 + b.bytes.length) hm' with ⟨info', hbox'⟩
        exact congrArg IsoBmffBox.sampleCount hbox'
    rw [hone] at hretiles
    exact hretiles

/-! ## `senc` -/

/-- The object and the memory behind the truncation of a `senc` at `p`. -/
theorem truncateSenc_one {version flags size : Nat} (hone : count ≤ 1) :
    IsoBmffBox.truncateSenc { base := some p, size := sz, type := SENC } version flags (p + 12) count
        size m =
      some (.full { base := some p, size := sz, type := SENC } version flags (.senc (p + 12) count),
        m) := by
  rw [IsoBmffBox.truncateSenc, if_neg (by omega)]

theorem truncateSenc_kept {version flags size : Nat} (hone : 1 < count)
    (hkept : size = 0 ∨ sub32 sz ((16 + size) % 2 ^ 32) < 8) :
    IsoBmffBox.truncateSenc { base := some p, size := sz, type := SENC } version flags (p + 12) count
        size m =
      some (.full { base := some p, size := sz, type := SENC } version flags (.senc (p + 12) 1),
        PLAYER_WRITE_U32 m (p + 12) 1) := by
  have hend : p + 12 + 4 + size - p = 16 + size := by omega
  rw [IsoBmffBox.truncateSenc, if_pos hone]
  dsimp only
  by_cases hsize : size = 0
  · rw [if_neg (not_not_intro hsize), Option.map_some]
  · have hless : ¬ sub32 sz ((16 + size) % 2 ^ 32) ≥ PLAYER_SIZEOF_SIZE_AND_TAG := by
      rw [PLAYER_SIZEOF_SIZE_AND_TAG]
      omega
    rw [if_pos hsize, Option.map_some, Option.map_some, hend, if_neg hless]

theorem truncateSenc_shrunk {version flags size : Nat} (hone : 1 < count) (hsize : size ≠ 0)
    (h8 : 8 ≤ sub32 sz ((16 + size) % 2 ^ 32)) :
    IsoBmffBox.truncateSenc { base := some p, size := sz, type := SENC } version flags (p + 12) count
        size m =
      some (.full { base := some p, size := sz, type := SENC } version flags (.senc (p + 12) 1),
        PLAYER_WRITE_U32
          (SkipIsoBmffBox (PLAYER_WRITE_U32 m p ((16 + size) % 2 ^ 32))
            (sub32 sz ((16 + size) % 2 ^ 32)) (p + 12 + 4 + size)) (p + 12) 1) := by
  have hend : p + 12 + 4 + size - p = 16 + size := by omega
  have hroom : sub32 sz ((16 + size) % 2 ^ 32) ≥ PLAYER_SIZEOF_SIZE_AND_TAG := h8
  rw [IsoBmffBox.truncateSenc, if_pos hone]
  dsimp only
  rw [if_pos hsize, Option.map_some, Option.map_some, hend, if_pos hroom, IsoBmffBox.shrink]

/-- The entries of a `senc` are tiled again exactly when none is dropped, the caller knows no
entry size, or too little is freed for a `skip` box. -/
theorem SencFields.retiles_iff (b : SencFields) (size : UInt32)
    (hstored : Stored SENC b.bytes m p) :
    Retiles SENC b.entries.length p (8 + b.bytes.length) m
        (((constructSencBox (8 + b.bytes.length)).val m (p + 8)).truncateTo size.toNat m) ↔
      b.entries.length ≤ 1 ∨ size.toNat = 0 ∨
        sub32 (8 + b.bytes.length) ((16 + size.toNat) % 2 ^ 32) < 8 := by
  have hlt := hstored.size_lt
  have hbody := (headerWords_stored hstored.holds hlt).2
  rw [bytes, ← List.append_assoc] at hbody
  have hcount : b.entries.length < 2 ^ 32 := b.count_lt
  have hbox := constructSencBox_front hcount (8 + b.bytes.length) (holds_append.mp hbody).1
  rw [hbox, Nat.add_sub_cancel, Nat.add_assoc p 8 4, IsoBmffBox.truncateTo]
  constructor
  · intro hretiles
    rcases hretiles with ⟨box, m', found, rest, hresult, hretiled, -⟩
    by_contra hfreed
    simp only [not_or, Nat.not_le, Nat.not_lt] at hfreed
    rcases hfreed with ⟨hone, hknown, hfreed⟩
    rw [truncateSenc_shrunk hone hknown hfreed] at hresult
    obtain ⟨rfl, rfl⟩ := Prod.mk.inj (Option.some.inj hresult)
    rcases hretiled.words rfl (by omega) hlt with ⟨hsize, -⟩
    have hnew : (16 + size.toNat) % 2 ^ 32 < 2 ^ 32 := Nat.mod_lt _ (by decide)
    rw [PLAYER_WRITE_U32,
      Mem.be_write_outside (by omega), SkipIsoBmffBox_eq, Mem.be_write_outside (by omega),
      PLAYER_WRITE_U32, Mem.be_write hnew] at hsize
    rw [hsize, sub32_self hlt] at hfreed
    omega
  · intro hfreed
    have hretiles := Retiles.of_count b.entries.length
      (.full { base := some p, size := 8 + b.bytes.length, type := SENC } b.version.toNat
        b.flags.toNat (.senc (p + 12) (min b.entries.length 1)))
      flat_senc hstored (beBytes_length _ _) rfl fun m' hm' => by
        have hbox' := constructSencBox_front (by omega) (8 + b.bytes.length) hm'
        exact congrArg IsoBmffBox.sampleCount hbox'
    rw [b.front_length, Nat.add_assoc] at hretiles
    rcases Nat.lt_or_ge 1 b.entries.length with hone | hone
    · rw [truncateSenc_kept hone (hfreed.resolve_left (by omega))]
      rw [Nat.min_eq_right (by omega)] at hretiles
      exact hretiles
    · have hword : Holds m (p + (8 + 4)) (beBytes 4 (min b.entries.length 1)) := by
        have hcountWord := (holds_append.mp (holds_append.mp hbody).1).2
        rw [b.front_length, Nat.add_assoc] at hcountWord
        rwa [Nat.min_eq_left hone]
      rw [PLAYER_WRITE_U32_same hword, Nat.min_eq_left hone] at hretiles
      rw [truncateSenc_one hone]
      exact hretiles

end

/-! ## Both boxes -/

/-- A truncation frees nothing: one to eight samples of a `saiz`; at most one sample of a
`senc`, no known entry size, or a new size at most seven bytes below the old one. -/
theorem truncate_retiles_iff (b : SaizFields) (c : SencFields) (size : UInt32) (m m' : Mem)
    (p q : Nat) (hb : Stored SAIZ b.bytes m p) (hc : Stored SENC c.bytes m' q) :
    (Retiles SAIZ b.sample_count.toNat p (8 + b.bytes.length) m
        (((constructSaizBox (8 + b.bytes.length)).val m (p + 8)).truncate m) ↔
      1 ≤ b.sample_count.toNat ∧ b.sample_count.toNat ≤ 8) ∧
    (Retiles SENC c.entries.length q (8 + c.bytes.length) m'
        (((constructSencBox (8 + c.bytes.length)).val m' (q + 8)).truncateTo size.toNat m') ↔
      c.entries.length ≤ 1 ∨ size.toNat = 0 ∨
        sub32 (8 + c.bytes.length) ((16 + size.toNat) % 2 ^ 32) < 8) :=
  ⟨b.retiles_iff hb, c.retiles_iff size hc⟩

/-- Nine samples with a byte each. -/
def nineSizes : SaizFields :=
  ⟨.zero, .zero, .zero, .zero, .zero, .ofNat 9, [1, 2, 3, 4, 5, 6, 7, 8, 9], by decide⟩

/-- Two samples of ten bytes. -/
def twoEntries : SencFields :=
  ⟨.zero, .zero, [List.replicate 10 1, List.replicate 10 2], by decide⟩

theorem nineSizes_stored :
    Stored SAIZ nineSizes.bytes (Mem.ofBytes (boxBytes SAIZ nineSizes.bytes) fun _ => 0) 0 :=
  ⟨by decide, holds_ofBytes _ _⟩

theorem twoEntries_stored :
    Stored SENC twoEntries.bytes (Mem.ofBytes (boxBytes SENC twoEntries.bytes) fun _ => 0) 0 :=
  ⟨by decide, holds_ofBytes _ _⟩

theorem nineSizes_twoEntries_iff :
    (Retiles SAIZ nineSizes.sample_count.toNat 0 (8 + nineSizes.bytes.length)
        (Mem.ofBytes (boxBytes SAIZ nineSizes.bytes) fun _ => 0)
        (((constructSaizBox (8 + nineSizes.bytes.length)).val
          (Mem.ofBytes (boxBytes SAIZ nineSizes.bytes) fun _ => 0) (0 + 8)).truncate
            (Mem.ofBytes (boxBytes SAIZ nineSizes.bytes) fun _ => 0)) ↔
      1 ≤ nineSizes.sample_count.toNat ∧ nineSizes.sample_count.toNat ≤ 8) ∧
    (Retiles SENC twoEntries.entries.length 0 (8 + twoEntries.bytes.length)
        (Mem.ofBytes (boxBytes SENC twoEntries.bytes) fun _ => 0)
        (((constructSencBox (8 + twoEntries.bytes.length)).val
          (Mem.ofBytes (boxBytes SENC twoEntries.bytes) fun _ => 0) (0 + 8)).truncateTo
            (UInt32.toNat 10) (Mem.ofBytes (boxBytes SENC twoEntries.bytes) fun _ => 0)) ↔
      twoEntries.entries.length ≤ 1 ∨ UInt32.toNat 10 = 0 ∨
        sub32 (8 + twoEntries.bytes.length) ((16 + UInt32.toNat 10) % 2 ^ 32) < 8) :=
  truncate_retiles_iff nineSizes twoEntries 10 _ _ 0 0 nineSizes_stored twoEntries_stored

/-- The object of nine samples still has the old size. -/
theorem nineSizes_not_retiled :
    ¬ ∀ (b : SaizFields) (m : Mem) (p : Nat), Stored SAIZ b.bytes m p →
      Retiles SAIZ b.sample_count.toNat p (8 + b.bytes.length) m
        (((constructSaizBox (8 + b.bytes.length)).val m (p + 8)).truncate m) := by
  intro hall
  have hrange := (nineSizes.retiles_iff nineSizes_stored).mp (hall _ _ _ nineSizes_stored)
  exact absurd hrange.2 (by decide)

end PlayerInterface.IsoBmff
