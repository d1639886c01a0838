import PlayerInterface.Drm.ClearKeyDecrypt

/-!
# Sub-sample decryption

A map of sub-samples cuts the sample into clear and encrypted ranges. The two loops agree on
them as long as positions and sums fit their 32 bits, and a map without encrypted bytes is
an error.
-/

namespace PlayerInterface.Drm

open PlayerInterface.Core PlayerInterface.Json

/-! ## Maps -/

structure SubSample where
  nBytesClear : Word 2
  nBytesEncrypted : Word 4

def SubSample.bytes (e : SubSample) : Bytes := e.nBytesClear.bytes ++ e.nBytesEncrypted.bytes

def SubSample.counts (e : SubSample) : Nat × Nat := (e.nBytesClear.toNat, e.nBytesEncrypted.toNat)

/-- The buffer that holds a map. -/
def mapBytes (map : List SubSample) : Bytes := map.flatMap SubSample.bytes

def encryptedTotal : List (Nat × Nat) → Nat
  | [] => 0
  | (_, encrypted) :: ranges => encrypted + encryptedTotal ranges

def rangesTotal : List (Nat × Nat) → Nat
  | [] => 0
  | (clear, encrypted) :: ranges => clear + encrypted + rangesTotal ranges

/-- The encrypted ranges, one behind the other. -/
def encryptedBytes : List (Nat × Nat) → Bytes → Bytes
  | [], _ => []
  | (clear, encrypted) :: ranges, bs =>
      (bs.drop clear).take encrypted ++ encryptedBytes ranges (bs.drop (clear + encrypted))

/-- The sample with its encrypted ranges replaced, in order, by `decrypted`. -/
def replaced : List (Nat × Nat) → Bytes → Bytes → Bytes
  | [], bs, _ => bs
  | (clear, encrypted) :: ranges, bs, decrypted =>
      bs.take clear ++ (decrypted.take encrypted ++
        replaced ranges (bs.drop (clear + encrypted)) (decrypted.drop encrypted))

@[simp] theorem encryptedTotal_cons (r : Nat × Nat) (ranges : List (Nat × Nat)) :
    encryptedTotal (r :: ranges) = r.2 + encryptedTotal ranges := rfl

@[simp] theorem rangesTotal_cons (r : Nat × Nat) (ranges : List (Nat × Nat)) :
    rangesTotal (r :: ranges) = r.1 + r.2 + rangesTotal ranges := rfl

theorem encryptedBytes_length {ranges : List (Nat × Nat)} {bs : Bytes}
    (h : rangesTotal ranges ≤ bs.length) :
    (encryptedBytes ranges bs).length = encryptedTotal ranges := by
  induction ranges generalizing bs with
  | nil => rfl
  | cons r ranges ih =>
      rw [rangesTotal_cons] at h
      rw [encryptedBytes, List.length_append, ih (by rw [List.length_drop]; omega),
        List.length_take, List.length_drop, encryptedTotal_cons]
      omega

/-- Different bytes in the encrypted ranges make different samples. -/
theorem replaced_injective {ranges : List (Nat × Nat)} {bs xs ys : Bytes}
    (hx : xs.length = encryptedTotal ranges) (hy : ys.length = encryptedTotal ranges)
    (heq : replaced ranges bs xs = replaced ranges bs ys) : xs = ys := by
  induction ranges generalizing bs xs ys with
  | nil => rw [List.eq_nil_of_length_eq_zero hx, List.eq_nil_of_length_eq_zero hy]
  | cons r ranges ih =>
      rw [encryptedTotal_cons] at hx hy
      have hbehind := List.append_cancel_left heq
      have htake : (xs.take r.2).length = (ys.take r.2).length := by
        rw [List.length_take, List.length_take, hx, hy]
      rcases List.append_inj hbehind htake with ⟨hfirst, hrest⟩
      have htail := ih (by rw [List.length_drop]; omega) (by rw [List.length_drop]; omega) hrest
      rw [← List.take_append_drop r.2 xs, ← List.take_append_drop r.2 ys, hfirst, htail]

/-! ## Reading a map -/

/-- The counts the loops see, and whether these are as many as they ask for. -/
def countsRead : Nat → Bytes → List (Nat × Nat) × Bool
  | 0, _ => ([], true)
  | left + 1, reader =>
      match readSubSample reader with
      | some (counts, reader) =>
          (counts :: (countsRead left reader).1, (countsRead left reader).2)
      | none => ([], false)

theorem gatherLoop_eq (sample : Bytes) (left : Nat) (reader : Bytes) (g : Gather) :
    gatherLoop sample left reader g =
      if (countsRead left reader).2 then (countsRead left reader).1.foldl (gatherTurn sample) g
      else { (countsRead left reader).1.foldl (gatherTurn sample) g with cbData := 0 } := by
  induction left generalizing reader g with
  | zero => rfl
  | succ left ih =>
      rw [gatherLoop, countsRead]
      cases readSubSample reader with
      | none => rfl
      | some r => exact ih r.2 (gatherTurn sample g r.1)

theorem scatterLoop_eq (pbData : Bytes) (left : Nat) (reader : Bytes) (t : Scatter) :
    scatterLoop pbData left reader t =
      if (countsRead left reader).2 then (countsRead left reader).1.foldl (scatterTurn pbData) t
      else { (countsRead left reader).1.foldl (scatterTurn pbData) t with retVal := 1 } := by
  induction left generalizing reader t with
  | zero => rfl
  | succ left ih =>
      rw [scatterLoop, countsRead]
      cases readSubSample reader with
      | none => rfl
      | some r => exact ih r.2 (scatterTurn pbData t r.1)

theorem readSubSample_length {reader rest : Bytes} {counts : Nat × Nat}
    (h : readSubSample reader = some (counts, rest)) : reader.length = rest.length + 6 := by
  unfold readSubSample at h
  split at h
  · cases h
    rfl
  · cases h

theorem readSubSample_isSome {reader : Bytes} (h : 6 ≤ reader.length) :
    (readSubSample reader).isSome = true := by
  rcases reader with _ | ⟨a, _ | ⟨b, _ | ⟨c, _ | ⟨d, _ | ⟨e, _ | ⟨f, reader⟩⟩⟩⟩⟩⟩
  case cons.cons.cons.cons.cons.cons => rfl
  all_goals
    simp only [List.length_cons, List.length_nil] at h
    omega

theorem countsRead_complete (left : Nat) (reader : Bytes) :
    (countsRead left reader).2 = true ↔ 6 * left ≤ reader.length := by
  induction left generalizing reader with
  | zero => exact iff_of_true rfl (Nat.zero_le _)
  | succ left ih =>
      rw [countsRead]
      cases hread : readSubSample reader with
      | none =>
          refine iff_of_false Bool.false_ne_true fun h => ?_
          have hsome : (readSubSample reader).isSome = true := readSubSample_isSome (by omega)
          rw [hread] at hsome
          cases hsome
      | some r =>
          have hlength := readSubSample_length hread
          dsimp only
          rw [ih]
          omega

theorem SubSample.bytes_length (e : SubSample) : e.bytes.length = 6 := by
  rw [SubSample.bytes, List.length_append, Word.bytes_length, Word.bytes_length]

theorem mapBytes_length (map : List SubSample) : (mapBytes map).length = 6 * map.length := by
  induction map with
  | nil => rfl
  | cons e map ih =>
      rw [mapBytes, List.flatMap_cons, List.length_append, e.bytes_length, ← mapBytes, ih,
        List.length_cons]
      omega

theorem readSubSample_bytes (e : SubSample) (reader : Bytes) :
    readSubSample (e.bytes ++ reader) = some (e.counts, reader) := by
  have hsix : readSubSample (e.bytes ++ reader) =
      some ((be e.nBytesClear.bytes, be e.nBytesEncrypted.bytes), reader) := rfl
  have hclear : be e.nBytesClear.bytes = e.nBytesClear.toNat := be_beBytes_of_lt e.nBytesClear.lt
  have hencrypted : be e.nBytesEncrypted.bytes = e.nBytesEncrypted.toNat :=
    be_beBytes_of_lt e.nBytesEncrypted.lt
  rw [hsix, hclear, hencrypted]
  rfl

theorem countsRead_mapBytes (map : List SubSample) :
    countsRead map.length (mapBytes map) = (map.map SubSample.counts, true) := by
  induction map with
  | nil => rfl
  | cons e map ih =>
      rw [List.length_cons, countsRead, mapBytes, List.flatMap_cons, readSubSample_bytes]
      dsimp only
      rw [← mapBytes, ih]
      rfl

/-! ## Collecting and putting back -/

/-- The collected bytes, from the position `source` of 32 bits on. -/
def collectedAt (sample : Bytes) : List (Nat × Nat) → Nat → Bytes
  | [], _ => []
  | (clear, encrypted) :: ranges, source =>
      let start := (source + clear) % 2 ^ 32
      (sample.drop start).take encrypted ++ collectedAt sample ranges ((start + encrypted) % 2 ^ 32)

theorem gather_pbData (sample : Bytes) (ranges : List (Nat × Nat)) (g : Gather) :
    (ranges.foldl (gatherTurn sample) g).pbData =
      g.pbData ++ collectedAt sample ranges g.iCurrSource := by
  induction ranges generalizing g with
  | nil => exact (List.append_nil _).symm
  | cons r ranges ih =>
      rw [List.foldl_cons, ih, collectedAt, ← List.append_assoc]
      rfl

theorem gather_pbCurrTarget (sample : Bytes) (ranges : List (Nat × Nat)) (g : Gather) :
    (ranges.foldl (gatherTurn sample) g).pbCurrTarget =
      g.pbCurrTarget + encryptedTotal ranges := by
  induction ranges generalizing g with
  | nil => rfl
  | cons r ranges ih =>
      rw [List.foldl_cons, ih, encryptedTotal_cons, ← Nat.add_assoc]
      rfl

theorem gather_cbData (sample : Bytes) (ranges : List (Nat × Nat)) (g : Gather)
    (h : g.cbData < 2 ^ 32) :
    (ranges.foldl (gatherTurn sample) g).cbData = (g.cbData + encryptedTotal ranges) % 2 ^ 32 := by
  induction ranges generalizing g with
  | nil => exact (Nat.mod_eq_of_lt h).symm
  | cons r ranges ih =>
      rw [List.foldl_cons, ih _ (Nat.mod_lt _ (by decide)), encryptedTotal_cons]
      dsimp only [gatherTurn]
      omega

/-- As many bytes are collected as there are to decrypt: a position of 32 bits is never behind
the true one. -/
theorem collectedAt_length {sample : Bytes} {ranges : List (Nat × Nat)} {source : Nat}
    (h : source + rangesTotal ranges ≤ sample.length) :
    (collectedAt sample ranges source).length = encryptedTotal ranges := by
  induction ranges generalizing source with
  | nil => rfl
  | cons r ranges ih =>
      rw [rangesTotal_cons] at h
      have hstart := Nat.mod_le (source + r.1) (2 ^ 32)
      have hnext := Nat.mod_le ((source + r.1) % 2 ^ 32 + r.2) (2 ^ 32)
      rw [collectedAt, List.length_append, ih (by omega), List.length_take, List.length_drop,
        encryptedTotal_cons]
      omega

/-- A copy behind `front`, over the next bytes of `bs`. -/
theorem copyAt_behind (front bs src : Bytes) (clear : Nat) :
    copyAt (front ++ bs) (front.length + clear) src =
      (front ++ (bs.take clear ++ src)) ++ bs.drop (clear + src.length) := by
  rw [copyAt, List.take_length_add_append, Nat.add_assoc, List.drop_length_add_append]
  simp only [List.append_assoc]

theorem scatter_sample {pbData : Bytes} {ranges : List (Nat × Nat)} {t : Scatter} {front bs : Bytes}
    (hsample : t.sample = front ++ bs) (hfront : front.length = t.pbCurrTarget)
    (hbs : rangesTotal ranges ≤ bs.length) (hdata : t.iCurrSource + encryptedTotal ranges ≤ pbData.length)
    (hsize : pbData.length < 2 ^ 32) :
    (ranges.foldl (scatterTurn pbData) t).sample =
        front ++ replaced ranges bs (pbData.drop t.iCurrSource) ∧
      (ranges.foldl (scatterTurn pbData) t).retVal = t.retVal := by
  induction ranges generalizing t front bs with
  | nil => exact ⟨hsample, rfl⟩
  | cons r ranges ih =>
      rw [rangesTotal_cons] at hbs
      rw [encryptedTotal_cons] at hdata
      have htaken : ((pbData.drop t.iCurrSource).take r.2).length = r.2 := by
        rw [List.length_take, List.length_drop]
        omega
      have hcopied := copyAt_behind front bs ((pbData.drop t.iCurrSource).take r.2) r.1
      rw [htaken, hfront, ← hsample] at hcopied
      have hnext : (t.iCurrSource + r.2) % 2 ^ 32 = t.iCurrSource + r.2 := Nat.mod_eq_of_lt (by omega)
      have hrest : rangesTotal ranges ≤ (bs.drop (r.1 + r.2)).length := by
        rw [List.length_drop]
        omega
      have hbehind : (front ++ (bs.take r.1 ++ (pbData.drop t.iCurrSource).take r.2)).length =
          (scatterTurn pbData t r).pbCurrTarget := by
        rw [List.length_append, List.length_append, htaken, List.length_take, hfront]
        dsimp only [scatterTurn]
        omega
      have hturn : (scatterTurn pbData t r).iCurrSource = t.iCurrSource + r.2 := hnext
      rcases ih hcopied hbehind hrest (by omega) with ⟨hdone, hret⟩
      refine ⟨?_, hret⟩
      rw [List.foldl_cons, hdone, hturn, replaced, List.drop_drop]
      simp only [List.append_assoc]

/-! ## Counter mode -/

def counterMode (keystream : Nat → UInt8) (bs : Bytes) : Bytes :=
  bs.mapIdx fun i b => b ^^^ keystream i

@[simp] theorem counterMode_length (keystream : Nat → UInt8) (bs : Bytes) :
    (counterMode keystream bs).length = bs.length := List.length_mapIdx

theorem counterMode_zero (bs : Bytes) : counterMode (fun _ => 0) bs = bs := by
  apply List.ext_getElem (counterMode_length _ bs)
  intro i hi _
  simp only [counterMode, List.getElem_mapIdx, UInt8.xor_zero]

theorem counterMode_congr {f g : Nat → UInt8} {bs : Bytes} (h : ∀ i < bs.length, f i = g i) :
    counterMode f bs = counterMode g bs := by
  apply List.ext_getElem (by rw [counterMode_length, counterMode_length])
  intro i hi _
  rw [counterMode_length] at hi
  simp only [counterMode, List.getElem_mapIdx, h i hi]

/-- A key stream that changes the last byte alone. -/
def lastByte (length : Nat) (i : Nat) : UInt8 := if i = length - 1 then 1 else 0

theorem counterMode_lastByte {bs : Bytes} (h : 0 < bs.length) :
    counterMode (lastByte bs.length) bs ≠ bs := by
  intro heq
  have hlt : bs.length - 1 < bs.length := by omega
  have hbyte := List.getElem_of_eq heq (i := bs.length - 1) (by rw [counterMode_length]; exact hlt)
  simp only [counterMode, List.getElem_mapIdx, lastByte, if_true] at hbyte
  have hone : bs[bs.length - 1] ^^^ (bs[bs.length - 1] ^^^ 1) = bs[bs.length - 1] ^^^ bs[bs.length - 1] :=
    congrArg _ hbyte
  rw [← UInt8.xor_assoc, UInt8.xor_self, UInt8.zero_xor] at hone
  exact absurd hone (by decide)

/-- The cipher with any key stream for a key and an initialisation vector. -/
def aes_128_ctr (keystream : Bytes → Bytes → Nat → UInt8) : Evp (Option Bytes) where
  DecryptInit_ex _ _ := true
  DecryptUpdate key iv input inl :=
    if 0 ≤ inl then (true, counterMode (keystream (key.getD []) iv) input) else (false, [])
  DecryptFinal_ex _ _ _ _ := (true, [])
  fits key iv input inl := by
    split
    · exact (counterMode_length _ input).le
    · exact Nat.zero_le _

theorem toInt32_nonneg {length : Nat} (h : length < 2 ^ 32) : 0 ≤ toInt32 length ↔ length < 2 ^ 31 := by
  rw [toInt32, BitVec.toInt_eq_toNat_cond, BitVec.toNat_ofNat, Nat.mod_eq_of_lt h]
  split <;> omega

theorem aes_128_ctr_decrypt (keystream : Bytes → Bytes → Nat → UInt8) (key : Option Bytes)
    (iv input : Bytes) (inl : Int) :
    (aes_128_ctr keystream).decrypt key iv input inl =
      if 0 ≤ inl then (true, counterMode (keystream (key.getD []) iv) input)
      else (false, zeroFilled input.length []) := by
  unfold Evp.decrypt aes_128_ctr
  dsimp only
  rw [if_pos rfl]
  by_cases h : 0 ≤ inl
  · simp only [if_pos h, List.append_nil, zeroFilled, counterMode_length, Nat.sub_self,
      List.replicate_zero]
    rfl
  · simp only [if_neg h]
    rfl

/-! ## A call that succeeds -/

/-- What the first loop has collected of the ranges it has read. -/
def gathered (sample : Bytes) (ranges : List (Nat × Nat)) : Gather :=
  ranges.foldl (gatherTurn sample) ⟨[], 0, 0, 0, []⟩

/-- What the second loop makes of the sample. -/
def putBack (sample decrypted : Bytes) (ranges : List (Nat × Nat)) : Scatter :=
  let g := gathered sample ranges
  ranges.foldl (scatterTurn (decrypted ++ g.pbData.drop g.cbData))
    ⟨sample, 0, 0, 0, g.log ++ [.pbData 0 g.cbData]⟩

theorem gathered_pbData (sample : Bytes) (ranges : List (Nat × Nat)) :
    (gathered sample ranges).pbData = collectedAt sample ranges 0 := gather_pbData sample ranges _

theorem gathered_pbCurrTarget (sample : Bytes) (ranges : List (Nat × Nat)) :
    (gathered sample ranges).pbCurrTarget = encryptedTotal ranges :=
  (gather_pbCurrTarget sample ranges _).trans (Nat.zero_add _)

theorem gathered_cbData (sample : Bytes) (ranges : List (Nat × Nat)) :
    (gathered sample ranges).cbData = encryptedTotal ranges % 2 ^ 32 :=
  (gather_cbData sample ranges _ (by decide)).trans (by rw [Nat.zero_add])

theorem scatter_retVal (pbData : Bytes) (ranges : List (Nat × Nat)) (t : Scatter) :
    (ranges.foldl (scatterTurn pbData) t).retVal = t.retVal := by
  induction ranges generalizing t with
  | nil => rfl
  | cons r ranges ih => exact ih (scatterTurn pbData t r)

/-- The loops taken apart from the reading of the map. -/
theorem decryptSubSamples_eq (s : ClearKeySession) (evp : Evp (Option Bytes)) (mem : DecryptMemory)
    (iv sample : Bytes) (subSampleCount : Nat) (reader : Bytes) :
    s.decryptSubSamples evp mem iv sample subSampleCount reader =
      let ranges := (countsRead subSampleCount reader).1
      let g := gathered sample ranges
      if mem.pbData = false ∧ 0 < g.pbCurrTarget then (g.log, none)
      else if (countsRead subSampleCount reader).2 = false ∨ g.cbData = 0 then
        (g.log, some (1, sample))
      else
        match s.decryptBytes evp mem iv (g.pbData.take g.cbData) with
        | none => (g.log ++ [.pbData 0 g.cbData], none)
        | some (retVal, decrypted) =>
            if retVal = 0 then
              ((putBack sample decrypted ranges).log, some (0, (putBack sample decrypted ranges).sample))
            else (g.log ++ [.pbData 0 g.cbData], some (retVal, sample)) := by
  unfold ClearKeySession.decryptSubSamples
  rw [gatherLoop_eq]
  cases hcomplete : (countsRead subSampleCount reader).2 with
  | false =>
      dsimp only
      rw [if_neg Bool.false_ne_true, if_pos rfl, if_pos (Or.inl rfl)]
      rfl
  | true =>
      simp only [if_pos, scatterLoop_eq, hcomplete, Bool.true_eq_false, false_or, scatter_retVal]
      rfl

section

variable {s : ClearKeySession} {evp : Evp (Option Bytes)} {mem : DecryptMemory} {iv sample : Bytes}

theorem decryptSubSamples_zero_iff {subSampleCount : Nat} {reader out : Bytes} :
    (s.decryptSubSamples evp mem iv sample subSampleCount reader).2 = some (0, out) ↔
      (mem.pbData = true ∨ encryptedTotal (countsRead subSampleCount reader).1 = 0) ∧
      (countsRead subSampleCount reader).2 = true ∧
      (gathered sample (countsRead subSampleCount reader).1).cbData ≠ 0 ∧
      ∃ decrypted, s.decryptBytes evp mem iv
          ((gathered sample (countsRead subSampleCount reader).1).pbData.take
            (gathered sample (countsRead subSampleCount reader).1).cbData) = some (0, decrypted) ∧
        out = (putBack sample decrypted (countsRead subSampleCount reader).1).sample := by
  rw [decryptSubSamples_eq]
  generalize (countsRead subSampleCount reader).2 = complete
  generalize (countsRead subSampleCount reader).1 = ranges
  dsimp only
  rw [gathered_pbCurrTarget]
  by_cases hbuffer : mem.pbData = true ∨ encryptedTotal ranges = 0
  · have hpresent : ¬ (mem.pbData = false ∧ 0 < encryptedTotal ranges) := by
      rintro ⟨hnull, hsome⟩
      rw [hnull] at hbuffer
      exact Nat.ne_of_gt hsome (hbuffer.resolve_left Bool.false_ne_true)
    rw [if_neg hpresent, and_iff_right hbuffer]
    by_cases hmap : complete = false ∨ (gathered sample ranges).cbData = 0
    · rw [if_pos hmap]
      refine iff_of_false (fun h => nomatch h) fun h => ?_
      rcases hmap with hmap | hmap
      · rw [hmap] at h
        exact Bool.false_ne_true h.1
      · exact h.2.1 hmap
    · rw [if_neg hmap]
      rcases not_or.mp hmap with ⟨hcomplete, hcb⟩
      rw [and_iff_right (eq_true_of_ne_false hcomplete), and_iff_right hcb]
      cases hrun : s.decryptBytes evp mem iv
          ((gathered sample ranges).pbData.take (gathered sample ranges).cbData) with
      | none => exact iff_of_false (fun h => nomatch h) fun ⟨_, h, _⟩ => nomatch h
      | some run =>
          rcases run with ⟨retVal, decrypted⟩
          dsimp only
          by_cases hret : retVal = 0
          · subst hret
            rw [if_pos rfl]
            constructor
            · intro h
              cases h
              exact ⟨decrypted, rfl, rfl⟩
            · rintro ⟨other, hother, rfl⟩
              cases hother
              rfl
          · rw [if_neg hret]
            refine iff_of_false (fun h => ?_) fun ⟨_, h, _⟩ => ?_
            · cases h
              exact hret rfl
            · cases h
              exact hret rfl
  · rw [if_pos]
    · exact iff_of_false (fun h => nomatch h) fun h => hbuffer h.1
    · rcases not_or.mp hbuffer with ⟨hnull, hsome⟩
      exact ⟨eq_false_of_ne_true hnull, Nat.pos_of_ne_zero hsome⟩

theorem decryptBytes_ctr {keystream : Bytes → Bytes → Nat → UInt8} {payloadData out : Bytes} :
    s.decryptBytes (aes_128_ctr keystream) mem iv payloadData = some (0, out) ↔
      ∃ padded, s.CallsCipher mem iv padded ∧ 0 ≤ toInt32 payloadData.length ∧
        out = counterMode (keystream (s.m_keyStr.getD []) padded) payloadData := by
  by_cases hcalls : ∃ padded, s.CallsCipher mem iv padded
  · rcases hcalls with ⟨padded, hpadded⟩
    rw [ClearKeySession.decryptBytes_calls hpadded, aes_128_ctr_decrypt]
    by_cases hlength : 0 ≤ toInt32 payloadData.length
    · rw [if_pos hlength]
      constructor
      · intro h
        cases h
        exact ⟨padded, hpadded, hlength, rfl⟩
      · rintro ⟨other, hother, -, rfl⟩
        cases hpadded.ivBuff.symm.trans hother.ivBuff
        rfl
    · rw [if_neg hlength]
      exact iff_of_false (fun h => nomatch h) fun ⟨_, _, h, _⟩ => hlength h
  · refine iff_of_false (fun h => ?_) fun ⟨padded, hpadded, _⟩ => hcalls ⟨padded, hpadded⟩
    rcases ClearKeySession.decryptBytes_refuses (aes_128_ctr keystream) payloadData
      (not_exists.mp hcalls) with hrun | hrun
    · rw [hrun] at h
      cases h
    · rw [hrun] at h
      cases h

theorem callsCipher_iff (hiv : iv.length = 8 ∨ iv.length = 16) {padded : Bytes} :
    s.CallsCipher mem iv padded ↔ s.m_eKeyState = .KEY_READY ∧ mem.decryptedDataBuf = true ∧
      mem.ivBuff = true ∧ s.mOpensslCtx = true ∧ padded = ClearKeySession.paddedIV iv := by
  constructor
  · intro h
    have hbuff := h.ivBuff
    cases halloc : mem.ivBuff with
    | false =>
        rw [halloc] at hbuff
        unfold ClearKeySession.ivBuff at hbuff
        split at hbuff
        · cases hbuff
        · split at hbuff <;> cases hbuff
    | true =>
        rw [halloc, ClearKeySession.ivBuff_padded hiv] at hbuff
        cases hbuff
        exact ⟨h.ready, h.decryptedDataBuf, rfl, h.ctx, rfl⟩
  · rintro ⟨hready, hbuf, halloc, hctx, rfl⟩
    exact ⟨hready, hbuf, by rw [halloc, ClearKeySession.ivBuff_padded hiv], hctx⟩

theorem decryptBuffer_zero_iff {subSampleCount : Nat} {subSamples out : Bytes} :
    (s.decryptBuffer evp mem (some iv) (some sample) subSampleCount (some subSamples)).2 =
        some (0, some out) ↔
      (mem.bufferMapped = true ∧ mem.ivMapped = true ∧ mem.reader = true) ∧
      if subSampleCount = 0 then (s.decryptWhole evp mem iv sample).2 = some (0, out)
      else mem.subSampleMapped = true ∧
        (s.decryptSubSamples evp mem iv sample subSampleCount
          (subSamples.take (subSamples.length % 2 ^ 32))).2 = some (0, out) := by
  have hresult : ∀ result : Option (Nat × Bytes),
      result.map (fun r => (r.1, some r.2)) = some (0, some out) ↔ result = some (0, out) := by
    intro result
    cases result with
    | none => exact iff_of_false (fun h => nomatch h) (fun h => nomatch h)
    | some r =>
        rcases r with ⟨retVal, after⟩
        simp
  have herror : ((some (1, sample)).map fun r : Nat × Bytes => (r.1, some r.2)) ≠
      some (0, some out) := fun h => nomatch h
  unfold ClearKeySession.decryptBuffer
  dsimp only
  by_cases hmapped : mem.bufferMapped = true ∧ mem.ivMapped = true ∧ mem.reader = true
  · rw [if_pos hmapped, and_iff_right hmapped]
    by_cases hcount : subSampleCount = 0
    · rw [if_pos hcount, if_pos hcount]
      exact hresult _
    · rw [if_neg hcount, if_neg hcount]
      by_cases hsub : mem.subSampleMapped = true
      · rw [if_pos hsub, and_iff_right hsub]
        exact hresult _
      · rw [if_neg hsub]
        exact iff_of_false herror fun h => hsub h.1
  · rw [if_neg hmapped]
    exact iff_of_false herror fun h => hmapped h.1

end

/-! ## Maps that fill the sample -/

/-- The whole sample is right behind the call, whatever the key stream is. -/
def MapDecrypted (s : ClearKeySession) (mem : DecryptMemory) (iv sample : Bytes)
    (map : List SubSample) : Prop :=
  ∀ keystream : Bytes → Bytes → Nat → UInt8, ∃ key, s.m_keyStr = some key ∧
    (s.decryptBuffer (aes_128_ctr keystream) mem (some iv) (some sample) map.length
      (some (mapBytes map))).2 =
        some (0, some (replaced (map.map SubSample.counts) sample
          (counterMode (keystream key (ClearKeySession.paddedIV iv))
            (encryptedBytes (map.map SubSample.counts) sample))))

/-- There is memory and a context, something to decrypt, and all sums that are kept in 32 bits
fit them, or the bytes are the same ones all the same. -/
structure MapFits (s : ClearKeySession) (mem : DecryptMemory) (sample : Bytes)
    (map : List SubSample) : Prop where
  mapped : mem.bufferMapped = true ∧ mem.ivMapped = true ∧ mem.reader = true ∧
    mem.subSampleMapped = true
  allocated : mem.pbData = true ∧ mem.decryptedDataBuf = true ∧ mem.ivBuff = true
  ctx : s.mOpensslCtx = true
  encrypted : 0 < encryptedTotal (map.map SubSample.counts)
  small : encryptedTotal (map.map SubSample.counts) < 2 ^ 31
  mapSize : 6 * map.length < 2 ^ 32
  collected : collectedAt sample (map.map SubSample.counts) 0 =
    encryptedBytes (map.map SubSample.counts) sample

/-- What a map brings is read in full exactly when its size fits the reader. -/
theorem countsRead_reader (map : List SubSample) :
    ((countsRead map.length ((mapBytes map).take ((mapBytes map).length % 2 ^ 32))).2 = true ↔
      6 * map.length < 2 ^ 32) ∧
    (6 * map.length < 2 ^ 32 →
      (countsRead map.length ((mapBytes map).take ((mapBytes map).length % 2 ^ 32))).1 =
        map.map SubSample.counts) := by
  have hlength := mapBytes_length map
  constructor
  · rw [countsRead_complete, List.length_take, hlength]
    omega
  · intro hsmall
    rw [hlength, Nat.mod_eq_of_lt hsmall, ← hlength, List.take_length, countsRead_mapBytes]

theorem replaced_putBack {sample decrypted : Bytes} {ranges : List (Nat × Nat)}
    (htotal : rangesTotal ranges = sample.length) (hsmall : encryptedTotal ranges < 2 ^ 32)
    (hlength : decrypted.length = encryptedTotal ranges) :
    (putBack sample decrypted ranges).sample = replaced ranges sample decrypted := by
  have hcb : (gathered sample ranges).cbData = encryptedTotal ranges := by
    rw [gathered_cbData, Nat.mod_eq_of_lt hsmall]
  have hdata : (gathered sample ranges).pbData.length = encryptedTotal ranges := by
    rw [gathered_pbData, collectedAt_length (by omega)]
  have hrest : (gathered sample ranges).pbData.drop (gathered sample ranges).cbData = [] := by
    rw [hcb, ← hdata, List.drop_length]
  unfold putBack
  dsimp only
  rw [hrest, List.append_nil]
  have hstart : sample = [] ++ sample := rfl
  have hroom : 0 + encryptedTotal ranges ≤ decrypted.length := by omega
  have hsize : decrypted.length < 2 ^ 32 := by omega
  exact (scatter_sample (t := ⟨sample, 0, 0, 0, _⟩) hstart rfl htotal.le hroom hsize).1

section

variable {s : ClearKeySession} {mem : DecryptMemory} {key iv sample : Bytes} {map : List SubSample}

/-- Everything a call that succeeds goes with. -/
theorem decryptMap_zero_iff (hready : s.m_eKeyState = .KEY_READY) (hkey : s.m_keyStr = some key)
    (hiv : iv.length = 8 ∨ iv.length = 16)
    (htotal : rangesTotal (map.map SubSample.counts) = sample.length)
    {keystream : Bytes → Bytes → Nat → UInt8} {out : Bytes} :
    (s.decryptBuffer (aes_128_ctr keystream) mem (some iv) (some sample) map.length
        (some (mapBytes map))).2 = some (0, some out) ↔
      (mem.bufferMapped = true ∧ mem.ivMapped = true ∧ mem.reader = true ∧
        mem.subSampleMapped = true) ∧
      (mem.pbData = true ∧ mem.decryptedDataBuf = true ∧ mem.ivBuff = true) ∧
      s.mOpensslCtx = true ∧ 6 * map.length < 2 ^ 32 ∧
      encryptedTotal (map.map SubSample.counts) % 2 ^ 32 ≠ 0 ∧
      encryptedTotal (map.map SubSample.counts) % 2 ^ 32 < 2 ^ 31 ∧
      out = (putBack sample (counterMode (keystream key (ClearKeySession.paddedIV iv))
        ((collectedAt sample (map.map SubSample.counts) 0).take
          (encryptedTotal (map.map SubSample.counts) % 2 ^ 32))) (map.map SubSample.counts)).sample := by
  have hcut : ((collectedAt sample (map.map SubSample.counts) 0).take
      (encryptedTotal (map.map SubSample.counts) % 2 ^ 32)).length =
        encryptedTotal (map.map SubSample.counts) % 2 ^ 32 := by
    rw [List.length_take, collectedAt_length (by omega)]
    exact Nat.min_eq_left (Nat.mod_le _ _)
  have hsign := toInt32_nonneg (Nat.mod_lt (encryptedTotal (map.map SubSample.counts))
    (show 0 < 2 ^ 32 by decide))
  rcases countsRead_reader map with ⟨hcomplete, hranges⟩
  rw [decryptBuffer_zero_iff]
  by_cases hcount : map.length = 0
  · rw [if_pos hcount]
    have hnil := List.eq_nil_of_length_eq_zero hcount
    subst hnil
    have hempty := List.eq_nil_of_length_eq_zero htotal.symm
    subst hempty
    exact iff_of_false (fun h => nomatch h.2) fun h => h.2.2.2.2.1 rfl
  · rw [if_neg hcount, decryptSubSamples_zero_iff, hcomplete]
    constructor
    · rintro ⟨hmapped, hsub, hbuffer, hsmall, hcb, decrypted, hrun, rfl⟩
      rw [hranges hsmall, gathered_cbData] at hcb
      rw [hranges hsmall] at hbuffer
      rw [hranges hsmall, gathered_pbData, gathered_cbData, decryptBytes_ctr] at hrun
      rcases hrun with ⟨padded, hcalls, hinl, rfl⟩
      rcases (callsCipher_iff hiv).mp hcalls with ⟨-, hbuf, hivBuff, hctx, rfl⟩
      rw [hcut, hsign] at hinl
      refine ⟨⟨hmapped.1, hmapped.2.1, hmapped.2.2, hsub⟩, ⟨hbuffer.resolve_right ?_, hbuf, hivBuff⟩,
        hctx, hsmall, hcb, hinl, ?_⟩
      · intro hnone
        rw [hnone] at hcb
        exact hcb rfl
      · rw [hranges hsmall, hkey]
        rfl
    · rintro ⟨⟨hbuffer, hivMapped, hreader, hsub⟩, ⟨hpbData, hbuf, hivBuff⟩, hctx, hsmall, hcb, hinl, rfl⟩
      have hcalls := (callsCipher_iff hiv).mpr ⟨hready, hbuf, hivBuff, hctx, rfl⟩
      rw [hranges hsmall, gathered_cbData, gathered_pbData]
      refine ⟨⟨hbuffer, hivMapped, hreader⟩, hsub, .inl hpbData, hsmall, hcb, _,
        decryptBytes_ctr.mpr ⟨_, hcalls, ?_, rfl⟩, ?_⟩
      · rw [hcut, hsign]
        exact hinl
      · rw [hkey]
        rfl

theorem mapFits_decrypted (hready : s.m_eKeyState = .KEY_READY) (hkey : s.m_keyStr = some key)
    (hiv : iv.length = 8 ∨ iv.length = 16)
    (htotal : rangesTotal (map.map SubSample.counts) = sample.length)
    (h : MapFits s mem sample map) : MapDecrypted s mem iv sample map := by
  intro keystream
  have hsum : encryptedTotal (map.map SubSample.counts) % 2 ^ 32 =
      encryptedTotal (map.map SubSample.counts) :=
    Nat.mod_eq_of_lt (Nat.lt_trans h.small (by decide))
  have hlength := encryptedBytes_length htotal.le
  refine ⟨key, hkey, (decryptMap_zero_iff hready hkey hiv htotal).mpr
    ⟨h.mapped, h.allocated, h.ctx, h.mapSize, ?_, ?_, ?_⟩⟩
  · rw [hsum]
    exact Nat.ne_of_gt h.encrypted
  · rw [hsum]
    exact h.small
  · rw [hsum, h.collected, ← hlength, List.take_length]
    refine (replaced_putBack htotal (Nat.lt_trans h.small (by decide)) ?_).symm
    rw [counterMode_length, hlength]

/-- The plain key stream shows what was collected, and one that changes the last byte alone
that no byte is left out. -/
theorem mapFits_of_decrypted (hready : s.m_eKeyState = .KEY_READY)
    (hiv : iv.length = 8 ∨ iv.length = 16)
    (htotal : rangesTotal (map.map SubSample.counts) = sample.length)
    (h : MapDecrypted s mem iv sample map) : MapFits s mem sample map := by
  rcases h fun _ _ _ => 0 with ⟨key, hkey, hplain⟩
  rcases h fun _ _ => lastByte (encryptedTotal (map.map SubSample.counts)) with ⟨_, _, hlast⟩
  rcases (decryptMap_zero_iff hready hkey hiv htotal).mp hplain with
    ⟨hmapped, hallocated, hctx, hmap, hcb, hinl, hplainOut⟩
  have hlastOut := ((decryptMap_zero_iff hready hkey hiv htotal).mp hlast).2.2.2.2.2.2
  have hlength := encryptedBytes_length htotal.le
  have hcollected : (collectedAt sample (map.map SubSample.counts) 0).length =
      encryptedTotal (map.map SubSample.counts) := collectedAt_length (by omega)
  have hsome : 0 < encryptedTotal (map.map SubSample.counts) := by
    refine Nat.pos_of_ne_zero fun hnone => hcb ?_
    rw [hnone, Nat.zero_mod]
  have hsum : encryptedTotal (map.map SubSample.counts) < 2 ^ 32 := by
    by_contra hlarge
    have hsame : replaced (map.map SubSample.counts) sample
          (counterMode (lastByte (encryptedTotal (map.map SubSample.counts)))
            (encryptedBytes (map.map SubSample.counts) sample)) =
        replaced (map.map SubSample.counts) sample
          (counterMode (fun _ => 0) (encryptedBytes (map.map SubSample.counts) sample)) := by
      rw [hlastOut, hplainOut]
      congr 2
      apply counterMode_congr
      intro i hi
      rw [List.length_take, hcollected] at hi
      exact if_neg (by omega)
    have hbytes := replaced_injective (by rw [counterMode_length, hlength])
      (by rw [counterMode_length, hlength]) hsame
    rw [counterMode_zero, ← hlength] at hbytes
    exact counterMode_lastByte (by rw [hlength]; exact hsome) hbytes
  have hwhole : encryptedTotal (map.map SubSample.counts) % 2 ^ 32 =
      encryptedTotal (map.map SubSample.counts) := Nat.mod_eq_of_lt hsum
  refine ⟨hmapped, hallocated, hctx, hsome, hwhole ▸ hinl, hmap, ?_⟩
  rw [hwhole, ← hcollected, List.take_length,
    replaced_putBack htotal hsum (by rw [counterMode_length, hcollected])] at hplainOut
  have hbytes := replaced_injective (by rw [counterMode_length, hlength])
    (by rw [counterMode_length, hcollected]) hplainOut
  rw [counterMode_zero, counterMode_zero] at hbytes
  exact hbytes.symm

end

/-! ## Ready sessions -/

/-- A ready session has a key of sixteen bytes. -/
def ClearKeySession.ReadyKey (s : ClearKeySession) : Prop :=
  s.m_eKeyState = .KEY_READY → ∃ key, s.m_keyStr = some key ∧ key.length = 16

theorem readyKey_of_state {s : ClearKeySession} {state : KeyState} (h : s.m_eKeyState = state)
    (hne : state ≠ .KEY_READY) : s.ReadyKey :=
  fun hready => absurd (h.symm.trans hready) hne

theorem readyKey_step {cJSON_Parse : Bytes → Option cJSON} {s t : LicensedSession}
    {a : ClearKeyCall} (hs : s.session.Shaped) (h : s.session.ReadyKey)
    (hstep : clearKeyStep cJSON_Parse s a = some t) : t.session.ReadyKey := by
  cases a with
  | generateDRMSession f_pbInitData f_cbInitData =>
      cases hstep
      rcases generateDRMSession_session s.session f_pbInitData f_cbInitData with
        ⟨initData, -, -, heq⟩ | ⟨-, heq⟩
      · simp only [heq]
        exact h
      · simp only [heq]
        exact readyKey_of_state (rfl : _ = KeyState.KEY_ERROR) (by decide)
  | generateKeyRequest allocated =>
      cases hstep
      rcases generateKeyRequest_session s.session allocated with heq | ⟨-, heq⟩
      · simp only [heq]
        exact h
      · simp only [heq]
        exact readyKey_of_state (rfl : _ = KeyState.KEY_PENDING) (by decide)
  | processDRMKey key =>
      obtain ⟨ret, session, hrun, rfl⟩ := clearKeyStep_processDRMKey hstep
      rcases processDRMKey_cases hs hrun with
        ⟨-, -, rfl⟩ | ⟨data, -, -, ⟨-, hlen⟩ | - | ⟨-, hstate, -, -⟩⟩
      · exact h
      · exact fun _ => ⟨_, rfl, hlen⟩
      · exact h
      · exact readyKey_of_state hstate (by decide)
  | decrypt f_cbIV evp =>
      cases hstep
      exact h
  | clearDecryptContext =>
      cases hstep
      exact readyKey_of_state (rfl : _ = KeyState.KEY_INIT) (by decide)

theorem readyKey_of_reachable {cJSON_Parse : Bytes → Option cJSON} {s : LicensedSession}
    (h : (clearKeySystem cJSON_Parse).Reachable s) : s.session.ReadyKey := by
  let inv (s : LicensedSession) : Prop := s.session.Shaped ∧ s.session.ReadyKey
  have hinit : ∀ s, (clearKeySystem cJSON_Parse).init s → inv s := by
    rintro s ⟨allocated, rfl⟩
    exact ⟨shaped_new allocated, nofun⟩
  have hstep : ∀ s a t, inv s → True → (clearKeySystem cJSON_Parse).step s a = some t → inv t :=
    fun _ _ _ hs _ hstep => ⟨shaped_step hs.1 hstep, readyKey_step hs.1 hs.2 hstep⟩
  exact (h.invariant hinit hstep).2

/-- A ready session decrypts a map that fills the sample exactly when the map has encrypted
bytes, memory and context are there, and no sum of 32 bits makes a difference. -/
theorem mapDecrypted_iff {cJSON_Parse : Bytes → Option cJSON} {s : LicensedSession}
    (hs : (clearKeySystem cJSON_Parse).Reachable s) (hready : s.session.m_eKeyState = .KEY_READY)
    (mem : DecryptMemory) (iv : Bytes) (hiv : iv.length = 8 ∨ iv.length = 16) (sample : Bytes)
    (map : List SubSample) (htotal : rangesTotal (map.map SubSample.counts) = sample.length) :
    MapDecrypted s.session mem iv sample map ↔ MapFits s.session mem sample map := by
  rcases readyKey_of_reachable hs hready with ⟨key, hkey, -⟩
  exact ⟨mapFits_of_decrypted hready hiv htotal, mapFits_decrypted hready hkey hiv htotal⟩

/-- Everything is mapped and allocated. -/
def enoughMemory : DecryptMemory := ⟨true, true, true, true, true, true, true⟩

theorem bindOnes_ready : ∃ s, (clearKeySystem parseOnes).Reachable s ∧
    s.session.m_eKeyState = .KEY_READY ∧ s.session.mOpensslCtx = true := by
  have hrun : ∃ s, (clearKeySystem parseOnes).run ⟨.new true, none⟩ bindOnes = some s ∧
      s.session.m_eKeyState = .KEY_READY ∧ s.session.mOpensslCtx = true := ⟨_, rfl, rfl, rfl⟩
  rcases hrun with ⟨s, hrun, hready, hctx⟩
  exact ⟨s, System.reachable_of_run ⟨true, rfl⟩ hrun, hready, hctx⟩

/-- One clear byte and two encrypted ones. -/
theorem threeBytes_decrypted : ∃ s, (clearKeySystem parseOnes).Reachable s ∧
    MapDecrypted s.session enoughMemory (List.replicate 8 7) [1, 2, 3]
      [⟨Word.ofNat 1, Word.ofNat 2⟩] := by
  rcases bindOnes_ready with ⟨s, hs, hready, hctx⟩
  refine ⟨s, hs, (mapDecrypted_iff hs hready enoughMemory _ (.inl rfl) _ _ rfl).mpr ?_⟩
  exact ⟨⟨rfl, rfl, rfl, rfl⟩, ⟨rfl, rfl, rfl⟩, hctx, by decide, by decide, by decide, rfl⟩

/-- A sample that is clear throughout is refused. -/
theorem clearSample_refused : ¬ ∀ (cJSON_Parse : Bytes → Option cJSON) (s : LicensedSession)
    (iv sample : Bytes) (map : List SubSample), (clearKeySystem cJSON_Parse).Reachable s →
      s.session.m_eKeyState = .KEY_READY → s.session.mOpensslCtx = true →
      (iv.length = 8 ∨ iv.length = 16) → rangesTotal (map.map SubSample.counts) = sample.length →
      MapDecrypted s.session enoughMemory iv sample map := by
  intro hclaim
  rcases bindOnes_ready with ⟨s, hs, hready, hctx⟩
  have hdecrypted := hclaim parseOnes s (List.replicate 8 7) [1] [⟨Word.ofNat 1, Word.ofNat 0⟩]
    hs hready hctx (.inl rfl) rfl
  have hfits := mapFits_of_decrypted hready (.inl rfl) rfl hdecrypted
  exact absurd hfits.encrypted (by decide)

end PlayerInterface.Drm
