import PlayerInterface.Drm.SubSamples

/-!
# Sub-samples that do not fit their sample

Neither loop compares a range with its buffer. A map that asks for more than there is stays
harmless when all it takes is there, at the positions of 32 bits, and it is not put back.
-/

namespace PlayerInterface.Drm

open PlayerInterface.Core

/-- The size of the collecting buffer. -/
def pbDataSize (mem : DecryptMemory) (sample : Bytes) : Nat :=
  if mem.pbData then sample.length else 0

/-- The map has as many sub-samples as it should, and these are not more than the sample. -/
def FitsSample (subSampleCount : Nat) (subSamples sample : Bytes) : Prop :=
  (countsRead subSampleCount subSamples).2 = true ∧
    rangesTotal (countsRead subSampleCount subSamples).1 ≤ sample.length

/-- No access leaves its buffer, and a map that does not fit changes nothing. -/
structure MapHarmless (mem : DecryptMemory) (subSampleCount : Nat) (subSamples sample : Bytes)
    (run : List Access × Option (Nat × Option Bytes)) : Prop where
  bounds : ∀ a ∈ run.1, a.Within sample.length (pbDataSize mem sample)
  unfit : ¬ FitsSample subSampleCount subSamples sample →
    ∃ status, run.2 = some (status, some sample) ∧ status ≠ 0

/-- The encrypted ranges are in the sample, at positions of 32 bits from `source` on. -/
def SourcesWithin (size : Nat) : List (Nat × Nat) → Nat → Prop
  | [], _ => True
  | (clear, encrypted) :: ranges, source =>
      let start := (source + clear) % 2 ^ 32
      (encrypted = 0 ∨ start + encrypted ≤ size) ∧
        SourcesWithin size ranges ((start + encrypted) % 2 ^ 32)

/-- What is decrypted is refused, so that nothing is put back. -/
inductive RefusesBytes (s : ClearKeySession) (evp : Evp (Option Bytes)) (mem : DecryptMemory)
    (f_pbIV payloadData : Bytes) : Prop
  | notReady (h : s.m_eKeyState ≠ .KEY_READY)
  | noBuffer (h : mem.decryptedDataBuf = false)
  | invalidIV (h : ClearKeySession.ivBuff mem.ivBuff f_pbIV = some none)
  | failed {iv : Bytes} (hcalls : s.CallsCipher mem f_pbIV iv)
      (h : (evp.decrypt s.m_keyStr iv payloadData (toInt32 payloadData.length)).1 = false)

/-- All that is collected is there, and it is put back only for a map that fits. -/
structure GathersWithin (s : ClearKeySession) (evp : Evp (Option Bytes)) (mem : DecryptMemory)
    (iv sample : Bytes) (subSampleCount : Nat) (subSamples reader : Bytes) : Prop where
  sources : SourcesWithin sample.length (countsRead subSampleCount reader).1 0
  room : encryptedTotal (countsRead subSampleCount reader).1 ≤ pbDataSize mem sample
  fits : FitsSample subSampleCount subSamples sample ∨
    (countsRead subSampleCount reader).2 = false ∨
    encryptedTotal (countsRead subSampleCount reader).1 % 2 ^ 32 = 0 ∨
    RefusesBytes s evp mem iv ((collectedAt sample (countsRead subSampleCount reader).1 0).take
      (encryptedTotal (countsRead subSampleCount reader).1 % 2 ^ 32))

/-! ## Logs -/

theorem gather_within (size dataSize : Nat) (sample : Bytes) (ranges : List (Nat × Nat)) (g : Gather) :
    (∀ a ∈ (ranges.foldl (gatherTurn sample) g).log, a.Within size dataSize) ↔
      (∀ a ∈ g.log, a.Within size dataSize) ∧ SourcesWithin size ranges g.iCurrSource ∧
        (encryptedTotal ranges = 0 ∨ g.pbCurrTarget + encryptedTotal ranges ≤ dataSize) := by
  induction ranges generalizing g with
  | nil => exact (and_iff_left ⟨trivial, .inl rfl⟩).symm
  | cons r ranges ih =>
      rw [List.foldl_cons, ih, encryptedTotal_cons, SourcesWithin]
      dsimp only [gatherTurn]
      rw [List.forall_mem_append, List.forall_mem_cons, List.forall_mem_singleton]
      dsimp only [Access.Within]
      constructor
      · rintro ⟨⟨hlog, hsource, htarget⟩, hsources, htargets⟩
        exact ⟨hlog, ⟨hsource, hsources⟩, by omega⟩
      · rintro ⟨hlog, ⟨hsource, hsources⟩, htargets⟩
        exact ⟨⟨hlog, hsource, by omega⟩, hsources, by omega⟩

theorem gathered_within (size dataSize : Nat) (sample : Bytes) (ranges : List (Nat × Nat)) :
    (∀ a ∈ (gathered sample ranges).log, a.Within size dataSize) ↔
      SourcesWithin size ranges 0 ∧ encryptedTotal ranges ≤ dataSize := by
  have hnone : ∀ a ∈ ([] : List Access), a.Within size dataSize := nofun
  refine (gather_within size dataSize sample ranges _).trans ?_
  rw [and_iff_right hnone]
  refine and_congr_right fun _ => ?_
  dsimp only
  omega

theorem scatter_log_keeps (pbData : Bytes) (ranges : List (Nat × Nat)) (t : Scatter) {a : Access}
    (ha : a ∈ t.log) : a ∈ (ranges.foldl (scatterTurn pbData) t).log := by
  induction ranges generalizing t with
  | nil => exact ha
  | cons r ranges ih => exact ih _ (List.mem_append_left _ ha)

theorem scatter_within {size dataSize : Nat} {pbData : Bytes} (ranges : List (Nat × Nat)) (t : Scatter)
    (hlog : ∀ a ∈ t.log, a.Within size dataSize)
    (hsample : t.pbCurrTarget + rangesTotal ranges ≤ size)
    (hdata : t.iCurrSource + encryptedTotal ranges ≤ dataSize) :
    ∀ a ∈ (ranges.foldl (scatterTurn pbData) t).log, a.Within size dataSize := by
  induction ranges generalizing t with
  | nil => exact hlog
  | cons r ranges ih =>
      rw [rangesTotal_cons] at hsample
      rw [encryptedTotal_cons] at hdata
      have hnext := Nat.mod_le (t.iCurrSource + r.2) (2 ^ 32)
      rw [List.foldl_cons]
      apply ih
      · dsimp only [scatterTurn]
        rw [List.forall_mem_append, List.forall_mem_cons, List.forall_mem_singleton]
        exact ⟨hlog, .inr (by omega), .inr (by omega)⟩
      · dsimp only [scatterTurn]
        omega
      · dsimp only [scatterTurn]
        omega

/-! ## The parts of a call -/

theorem readSubSample_take (reader : Bytes) (size : Nat) :
    readSubSample (reader.take (size + 6)) =
      (readSubSample reader).map fun r => (r.1, r.2.take size) := by
  rcases reader with _ | ⟨a, _ | ⟨b, _ | ⟨c, _ | ⟨d, _ | ⟨e, _ | ⟨f, reader⟩⟩⟩⟩⟩⟩ <;> rfl

/-- A reader that is cut behind what is asked for makes no difference. -/
theorem countsRead_take {left size : Nat} {subSamples : Bytes} (h : 6 * left ≤ size) :
    countsRead left (subSamples.take size) = countsRead left subSamples := by
  induction left generalizing size subSamples with
  | zero => rfl
  | succ left ih =>
      obtain ⟨rest, rfl⟩ := Nat.exists_eq_add_of_le (show 6 ≤ size by omega)
      rw [countsRead, countsRead, Nat.add_comm 6, readSubSample_take]
      cases readSubSample subSamples with
      | none => rfl
      | some r =>
          rw [Option.map_some]
          dsimp only
          rw [ih (by omega)]

section

variable {s : ClearKeySession} {evp : Evp (Option Bytes)} {mem : DecryptMemory}
  {f_pbIV payloadData : Bytes}

theorem decryptBytes_status_le {status : Nat} {after : Bytes}
    (h : s.decryptBytes evp mem f_pbIV payloadData = some (status, after)) :
    status = 0 ∨ status = 1 := by
  by_cases hcalls : ∃ iv, s.CallsCipher mem f_pbIV iv
  · rcases hcalls with ⟨iv, hiv⟩
    rw [ClearKeySession.decryptBytes_calls hiv] at h
    cases h
    split
    · exact .inl rfl
    · exact .inr rfl
  · rcases ClearKeySession.decryptBytes_refuses evp payloadData (not_exists.mp hcalls)
      with hrun | hrun
    · rw [hrun] at h
      cases h
    · rw [hrun] at h
      cases h
      exact .inr rfl

theorem refusesBytes_iff :
    RefusesBytes s evp mem f_pbIV payloadData ↔
      ∃ after, s.decryptBytes evp mem f_pbIV payloadData = some (1, after) := by
  constructor
  · intro h
    cases h with
    | notReady h => exact ⟨payloadData, if_neg h⟩
    | noBuffer h =>
        unfold ClearKeySession.decryptBytes
        rw [h]
        exact ⟨payloadData, by split <;> rfl⟩
    | invalidIV h =>
        unfold ClearKeySession.decryptBytes
        rw [h]
        exact ⟨payloadData, by split <;> (try split) <;> rfl⟩
    | failed hcalls h =>
        rw [ClearKeySession.decryptBytes_calls hcalls, h]
        exact ⟨_, rfl⟩
  · rintro ⟨after, hrun⟩
    by_cases hready : s.m_eKeyState = .KEY_READY
    · cases hbuf : mem.decryptedDataBuf with
      | false => exact .noBuffer hbuf
      | true =>
          cases hiv : ClearKeySession.ivBuff mem.ivBuff f_pbIV with
          | none =>
              unfold ClearKeySession.decryptBytes at hrun
              rw [if_pos hready, if_pos hbuf, hiv] at hrun
              cases hrun
          | some padded =>
              cases padded with
              | none => exact .invalidIV hiv
              | some iv =>
                  cases hctx : s.mOpensslCtx with
                  | false =>
                      unfold ClearKeySession.decryptBytes at hrun
                      rw [if_pos hready, if_pos hbuf, hiv, hctx] at hrun
                      cases hrun
                  | true =>
                      have hcalls : s.CallsCipher mem f_pbIV iv := ⟨hready, hbuf, hiv, hctx⟩
                      rw [ClearKeySession.decryptBytes_calls hcalls] at hrun
                      refine .failed hcalls (Bool.eq_false_iff.mpr fun hok => ?_)
                      rw [if_pos hok] at hrun
                      cases hrun
    · exact .notReady hready

end

/-! ## The call -/

section

variable {s : ClearKeySession} {evp : Evp (Option Bytes)} {mem : DecryptMemory}
  {iv sample : Bytes} {subSampleCount : Nat} {subSamples : Bytes}

/-- A result that is an error and leaves the sample is harmless as far as it is in bounds. -/
theorem harmless_untouched {log : List Access} {status : Nat} (hstatus : status ≠ 0) :
    MapHarmless mem subSampleCount subSamples sample (log, some (status, some sample)) ↔
      ∀ a ∈ log, a.Within sample.length (pbDataSize mem sample) :=
  ⟨fun h => h.bounds, fun h => ⟨h, fun _ => ⟨status, rfl, hstatus⟩⟩⟩

/-- Any other result is harmless for a map that fits only. -/
theorem harmless_other {log : List Access} {result : Option (Nat × Option Bytes)}
    (h : ∀ status, result = some (status, some sample) → status = 0) :
    MapHarmless mem subSampleCount subSamples sample (log, result) ↔
      (∀ a ∈ log, a.Within sample.length (pbDataSize mem sample)) ∧
        FitsSample subSampleCount subSamples sample := by
  constructor
  · intro hharmless
    refine ⟨hharmless.bounds, ?_⟩
    by_contra hunfit
    rcases hharmless.unfit hunfit with ⟨status, hresult, hne⟩
    exact hne (h status hresult)
  · exact fun ⟨hbounds, hfits⟩ => ⟨hbounds, fun hunfit => absurd hfits hunfit⟩

/-- The collected bytes that are decrypted are in bounds with the ranges they come from. -/
theorem gathered_last_within (size dataSize : Nat) (sample : Bytes) (ranges : List (Nat × Nat)) :
    (∀ a ∈ (gathered sample ranges).log ++ [.pbData 0 (gathered sample ranges).cbData],
        a.Within size dataSize) ↔
      SourcesWithin size ranges 0 ∧ encryptedTotal ranges ≤ dataSize := by
  rw [List.forall_mem_append, gathered_within, List.forall_mem_singleton, gathered_cbData]
  refine and_iff_left_of_imp fun h => .inr ?_
  have hle := Nat.mod_le (encryptedTotal ranges) (2 ^ 32)
  omega

/-- Putting back a map that fits stays in both buffers. -/
theorem putBack_within {size : Nat} {sample decrypted : Bytes} {ranges : List (Nat × Nat)}
    (h : SourcesWithin size ranges 0 ∧ encryptedTotal ranges ≤ size)
    (hfits : rangesTotal ranges ≤ size) :
    ∀ a ∈ (putBack sample decrypted ranges).log, a.Within size size := by
  have hlog := (gathered_last_within size size sample ranges).mpr h
  exact scatter_within ranges _ hlog (by dsimp only; omega) (by dsimp only; omega)

/-- With a reader for the map: what is collected is in bounds, and what does not fit is not put
back. -/
theorem decryptSubSamples_harmless {reader : Bytes}
    (hreader : reader = subSamples.take (subSamples.length % 2 ^ 32)) :
    MapHarmless mem subSampleCount subSamples sample
        ((s.decryptSubSamples evp mem iv sample subSampleCount reader).1,
          (s.decryptSubSamples evp mem iv sample subSampleCount reader).2.map
            fun r => (r.1, some r.2)) ↔
      GathersWithin s evp mem iv sample subSampleCount subSamples reader := by
  have hcut : (countsRead subSampleCount reader).2 = true →
      countsRead subSampleCount subSamples = countsRead subSampleCount reader := by
    intro hcomplete
    rw [countsRead_complete, hreader, List.length_take] at hcomplete
    rw [hreader, countsRead_take (by omega)]
  have hstart := gathered_within sample.length (pbDataSize mem sample) sample
    (countsRead subSampleCount reader).1
  have hlast := gathered_last_within sample.length (pbDataSize mem sample) sample
    (countsRead subSampleCount reader).1
  rw [decryptSubSamples_eq]
  dsimp only
  rw [gathered_pbCurrTarget]
  by_cases hnull : mem.pbData = false ∧ 0 < encryptedTotal (countsRead subSampleCount reader).1
  · have hsize : pbDataSize mem sample = 0 := if_neg (by rw [hnull.1]; exact Bool.false_ne_true)
    rw [if_pos hnull]
    refine iff_of_false (fun h => ?_) fun h => ?_
    · have hroom := (hstart.mp h.bounds).2
      omega
    · have hroom := h.room
      omega
  · rw [if_neg hnull]
    by_cases hnothing : (countsRead subSampleCount reader).2 = false ∨
        (gathered sample (countsRead subSampleCount reader).1).cbData = 0
    · rw [if_pos hnothing, Option.map_some, harmless_untouched Nat.one_ne_zero, hstart]
      rw [gathered_cbData] at hnothing
      constructor
      · exact fun h => ⟨h.1, h.2, .inr (hnothing.imp_right .inl)⟩
      · exact fun h => ⟨h.sources, h.room⟩
    · rw [if_neg hnothing]
      rcases not_or.mp hnothing with ⟨hcomplete, hcb⟩
      have hsame := hcut (eq_true_of_ne_false hcomplete)
      rw [gathered_cbData] at hcb
      have hputBack : GathersWithin s evp mem iv sample subSampleCount subSamples reader ↔
          (SourcesWithin sample.length (countsRead subSampleCount reader).1 0 ∧
            encryptedTotal (countsRead subSampleCount reader).1 ≤ pbDataSize mem sample) ∧
          (FitsSample subSampleCount subSamples sample ∨ RefusesBytes s evp mem iv
            ((gathered sample (countsRead subSampleCount reader).1).pbData.take
              (gathered sample (countsRead subSampleCount reader).1).cbData)) := by
        rw [gathered_pbData, gathered_cbData]
        constructor
        · intro h
          exact ⟨⟨h.sources, h.room⟩,
            h.fits.imp_right fun h => (h.resolve_left hcomplete).resolve_left hcb⟩
        · exact fun ⟨h, hfits⟩ => ⟨h.1, h.2, hfits.imp_right fun h => .inr (.inr h)⟩
      rw [hputBack, refusesBytes_iff]
      cases hrun : s.decryptBytes evp mem iv
          ((gathered sample (countsRead subSampleCount reader).1).pbData.take
            (gathered sample (countsRead subSampleCount reader).1).cbData) with
      | none =>
          refine (harmless_other (by nofun)).trans (and_congr hlast ?_)
          exact (or_iff_left fun ⟨_, h⟩ => nomatch h).symm
      | some run =>
          rcases run with ⟨retVal, decrypted⟩
          dsimp only
          rcases decryptBytes_status_le hrun with rfl | rfl
          · rw [if_pos rfl]
            have hzero : ∀ status, ((some (0, (putBack sample decrypted
                (countsRead subSampleCount reader).1).sample)).map fun r : Nat × Bytes =>
                  (r.1, some r.2)) = some (status, some sample) → status = 0 := by
              intro status h
              exact (congrArg Prod.fst (Option.some.inj h)).symm
            rw [harmless_other hzero, or_iff_left fun ⟨_, h⟩ => nomatch h]
            refine and_congr_left fun hfits => ⟨fun h => ?_, fun h => ?_⟩
            · exact hlast.mp fun a ha => h a (scatter_log_keeps _ _ _ ha)
            · have hbuffer : mem.pbData = true := by
                refine eq_true_of_ne_false fun hfalse => hcb ?_
                rw [Nat.eq_zero_of_not_pos fun hpos => hnull ⟨hfalse, hpos⟩, Nat.zero_mod]
              have hsize : pbDataSize mem sample = sample.length := if_pos hbuffer
              rw [hsize] at h ⊢
              exact putBack_within h (hsame ▸ hfits.2)
          · rw [if_neg Nat.one_ne_zero, Option.map_some, harmless_untouched Nat.one_ne_zero, hlast]
            exact (and_iff_left (.inr ⟨decrypted, rfl⟩)).symm

end

theorem decryptWhole_within (s : ClearKeySession) (evp : Evp (Option Bytes)) (mem : DecryptMemory)
    (iv sample : Bytes) (dataSize : Nat) :
    ∀ a ∈ (s.decryptWhole evp mem iv sample).1, a.Within sample.length dataSize := by
  unfold ClearKeySession.decryptWhole
  dsimp only
  split
  · exact nofun
  · rw [List.forall_mem_singleton]
    refine .inr ?_
    rw [Nat.zero_add]
    exact Nat.mod_le _ _

/-- A call is harmless, for every map, exactly when the sample is taken as a whole or not at all,
or when what it collects is there and only a map that fits is put back. -/
theorem decryptBuffer_harmless_iff (s : ClearKeySession) (evp : Evp (Option Bytes))
    (mem : DecryptMemory) (iv sample : Bytes) (subSampleCount : Nat) (subSamples : Bytes) :
    MapHarmless mem subSampleCount subSamples sample
        (s.decryptBuffer evp mem (some iv) (some sample) subSampleCount (some subSamples)) ↔
      (mem.bufferMapped = true ∧ mem.ivMapped = true ∧ mem.reader = true → subSampleCount ≠ 0 →
        mem.subSampleMapped = true → GathersWithin s evp mem iv sample subSampleCount subSamples
          (subSamples.take (subSamples.length % 2 ^ 32))) := by
  have huntouched : MapHarmless mem subSampleCount subSamples sample ([], some (1, some sample)) :=
    (harmless_untouched Nat.one_ne_zero).mpr nofun
  unfold ClearKeySession.decryptBuffer
  dsimp only
  by_cases hmapped : mem.bufferMapped = true ∧ mem.ivMapped = true ∧ mem.reader = true
  · rw [if_pos hmapped, imp_iff_right hmapped]
    by_cases hcount : subSampleCount = 0
    · subst hcount
      rw [if_pos rfl]
      have hfits : FitsSample 0 subSamples sample := ⟨rfl, Nat.zero_le _⟩
      refine iff_of_true ⟨?_, fun hunfit => absurd hfits hunfit⟩ fun h => absurd rfl h
      exact decryptWhole_within s evp mem iv sample _
    · rw [if_neg hcount, imp_iff_right hcount]
      by_cases hsub : mem.subSampleMapped = true
      · rw [if_pos hsub, imp_iff_right hsub]
        exact decryptSubSamples_harmless rfl
      · rw [if_neg hsub]
        exact iff_of_true huntouched fun h => absurd h hsub
  · rw [if_neg hmapped]
    exact iff_of_true huntouched fun h => absurd h hmapped

/-- Two bytes are asked for where there is one. -/
theorem longMap_not_harmless : ¬ ∀ (s : ClearKeySession) (evp : Evp (Option Bytes))
    (iv sample : Bytes) (map : List SubSample), MapHarmless enoughMemory map.length (mapBytes map)
      sample (s.decryptBuffer evp enoughMemory (some iv) (some sample) map.length
        (some (mapBytes map))) := by
  intro hclaim
  have hharmless := hclaim (.new true) (badPadding _) (List.replicate 8 7) [1]
    [⟨Word.ofNat 0, Word.ofNat 2⟩]
  have hgathers := (decryptBuffer_harmless_iff _ _ _ _ _ _ _).mp hharmless ⟨rfl, rfl, rfl⟩
    (by decide) rfl
  exact absurd hgathers.room (by decide)

end PlayerInterface.Drm
