import PlayerInterface.Aes.Threads
import PlayerInterface.Core.Cipher
import PlayerInterface.Drm.ClearKeyReady

/-!
# Decryption with a ClearKey session

The encrypted ranges of a sample are collected in one buffer, decrypted there at once and
put back. Positions in the sample, while collecting, and in the buffer, while putting back,
are counted in 32 bits, and no range is compared with the buffers.
-/

namespace PlayerInterface.Drm

open PlayerInterface.Core

def AES_CTR_IV_LEN : Nat := 16

/-- What mapping and allocating answer. -/
structure DecryptMemory where
  bufferMapped : Bool
  ivMapped : Bool
  subSampleMapped : Bool
  reader : Bool
  pbData : Bool
  decryptedDataBuf : Bool
  ivBuff : Bool
deriving DecidableEq, Repr

/-- A range of the sample or of the collecting buffer that is read or written. -/
inductive Access where
  | sample (start count : Nat)
  | pbData (start count : Nat)
deriving DecidableEq, Repr

/-- No byte at all is in the bounds of any buffer. -/
def Access.Within (sampleSize pbDataSize : Nat) : Access → Prop
  | .sample start count => count = 0 ∨ start + count ≤ sampleSize
  | .pbData start count => count = 0 ∨ start + count ≤ pbDataSize

/-! ## The sub-samples -/

/-- The counts of clear and of encrypted bytes, or `none` at the end of the reader. -/
def readSubSample : Bytes → Option ((Nat × Nat) × Bytes)
  | c₁ :: c₀ :: e₃ :: e₂ :: e₁ :: e₀ :: reader => some ((be [c₁, c₀], be [e₃, e₂, e₁, e₀]), reader)
  | _ => none

/-- The locals of the first loop, with `pbData` as far as it is filled. -/
structure Gather where
  pbData : Bytes
  pbCurrTarget : Nat
  iCurrSource : Nat
  cbData : Nat
  log : List Access

def gatherTurn (sample : Bytes) (g : Gather) (counts : Nat × Nat) : Gather :=
  let (nBytesClear, nBytesEncrypted) := counts
  let iCurrSource := (g.iCurrSource + nBytesClear) % 2 ^ 32
  { pbData := g.pbData ++ (sample.drop iCurrSource).take nBytesEncrypted
    pbCurrTarget := g.pbCurrTarget + nBytesEncrypted
    iCurrSource := (iCurrSource + nBytesEncrypted) % 2 ^ 32
    cbData := (g.cbData + nBytesEncrypted) % 2 ^ 32
    log := g.log ++ [.sample iCurrSource nBytesEncrypted, .pbData g.pbCurrTarget nBytesEncrypted] }

def gatherLoop (sample : Bytes) : Nat → Bytes → Gather → Gather
  | 0, _, g => g
  | left + 1, reader, g =>
      match readSubSample reader with
      | some (counts, reader) => gatherLoop sample left reader (gatherTurn sample g counts)
      | none => { g with cbData := 0 }

/-- The locals of the second loop. -/
structure Scatter where
  sample : Bytes
  pbCurrTarget : Nat
  iCurrSource : Nat
  retVal : Nat
  log : List Access

/-- `memcpy` into a part of `dst`. -/
def copyAt (dst : Bytes) (start : Nat) (src : Bytes) : Bytes :=
  dst.take start ++ src ++ dst.drop (start + src.length)

def scatterTurn (pbData : Bytes) (t : Scatter) (counts : Nat × Nat) : Scatter :=
  let (nBytesClear, nBytesEncrypted) := counts
  let pbCurrTarget := t.pbCurrTarget + nBytesClear
  { sample := copyAt t.sample pbCurrTarget ((pbData.drop t.iCurrSource).take nBytesEncrypted)
    pbCurrTarget := pbCurrTarget + nBytesEncrypted
    iCurrSource := (t.iCurrSource + nBytesEncrypted) % 2 ^ 32
    retVal := t.retVal
    log := t.log ++
      [.sample pbCurrTarget nBytesEncrypted, .pbData t.iCurrSource nBytesEncrypted] }

def scatterLoop (pbData : Bytes) : Nat → Bytes → Scatter → Scatter
  | 0, _, t => t
  | left + 1, reader, t =>
      match readSubSample reader with
      | some (counts, reader) => scatterLoop pbData left reader (scatterTurn pbData t counts)
      | none => { t with retVal := 1 }

namespace ClearKeySession

/-! ## On bytes -/

/-- The padded initialisation vector, `none` for a null pointer; sixteen bytes are copied
without a look at the pointer. -/
def ivBuff (allocated : Bool) (f_pbIV : Bytes) : Option (Option Bytes) :=
  if f_pbIV.length = 8 then
    some (if allocated then some (f_pbIV ++ List.replicate 8 0) else none)
  else if f_pbIV.length = AES_CTR_IV_LEN then
    if allocated then some (some f_pbIV) else none
  else some none

/-- The status and the payload; what is undefined has no result. -/
def decryptBytes (s : ClearKeySession) (evp : Evp (Option Bytes)) (mem : DecryptMemory)
    (f_pbIV payloadData : Bytes) : Option (Nat × Bytes) :=
  if s.m_eKeyState = .KEY_READY then
    if mem.decryptedDataBuf then
      match ivBuff mem.ivBuff f_pbIV with
      | none => none
      | some none => some (1, payloadData)
      | some (some ivBuff) =>
          if s.mOpensslCtx then
            let run := evp.decrypt s.m_keyStr ivBuff payloadData (toInt32 payloadData.length)
            -- copied back after success and failure alike
            some (if run.1 then 0 else 1, run.2)
          else none
    else some (1, payloadData)
  else some (1, payloadData)

/-! ## On a sample -/

/-- With sub-samples: the bytes in between stay where they are. -/
def decryptSubSamples (s : ClearKeySession) (evp : Evp (Option Bytes)) (mem : DecryptMemory)
    (iv sample : Bytes) (subSampleCount : Nat) (reader : Bytes) :
    List Access × Option (Nat × Bytes) :=
  let g := gatherLoop sample subSampleCount reader ⟨[], 0, 0, 0, []⟩
  if mem.pbData = false ∧ 0 < g.pbCurrTarget then (g.log, none)
  else if g.cbData = 0 then (g.log, some (1, sample))
  else
    let log := g.log ++ [.pbData 0 g.cbData]
    match s.decryptBytes evp mem iv (g.pbData.take g.cbData) with
    | none => (log, none)
    | some (retVal, decrypted) =>
        if retVal = 0 then
          let t := scatterLoop (decrypted ++ g.pbData.drop g.cbData) subSampleCount reader
            ⟨sample, 0, 0, 0, log⟩
          (t.log, some (t.retVal, t.sample))
        else (log, some (retVal, sample))

/-- Without sub-samples: the sample is decrypted where it is. -/
def decryptWhole (s : ClearKeySession) (evp : Evp (Option Bytes)) (mem : DecryptMemory)
    (iv sample : Bytes) : List Access × Option (Nat × Bytes) :=
  let cbData := sample.length % 2 ^ 32
  if cbData = 0 then ([], some (1, sample))
  else ([.sample 0 cbData], (s.decryptBytes evp mem iv (sample.take cbData)).map
    fun (retVal, decrypted) => (retVal, decrypted ++ sample.drop cbData))

/-- What is accessed, the status and the sample. The size of the reader has 32 bits. -/
def decryptBuffer (s : ClearKeySession) (evp : Evp (Option Bytes)) (mem : DecryptMemory)
    (ivBuffer buffer : Option Bytes) (subSampleCount : Nat) (subSamplesBuffer : Option Bytes) :
    List Access × Option (Nat × Option Bytes) :=
  match ivBuffer, buffer with
  | some iv, some sample =>
      let (log, result) :=
        if mem.bufferMapped ∧ mem.ivMapped ∧ mem.reader then
          if subSampleCount = 0 then s.decryptWhole evp mem iv sample
          else
            match subSamplesBuffer with
            | some subSamples =>
                if mem.subSampleMapped then
                  s.decryptSubSamples evp mem iv sample subSampleCount
                    (subSamples.take (subSamples.length % 2 ^ 32))
                else ([], some (1, sample))
            | none => ([], some (1, sample))
        else ([], some (1, sample))
      (log, result.map fun (retVal, sample) => (retVal, some sample))
  | _, _ => ([], some (1, buffer))

/-! ## The call of the cipher -/

/-- The session gets as far as the cipher, with `iv` as the initialisation vector. -/
structure CallsCipher (s : ClearKeySession) (mem : DecryptMemory) (f_pbIV iv : Bytes) : Prop where
  ready : s.m_eKeyState = .KEY_READY
  decryptedDataBuf : mem.decryptedDataBuf = true
  ivBuff : ivBuff mem.ivBuff f_pbIV = some (some iv)
  ctx : s.mOpensslCtx = true

section

variable {s : ClearKeySession} {evp : Evp (Option Bytes)} {mem : DecryptMemory}
  {f_pbIV iv payloadData : Bytes}

theorem decryptBytes_calls (h : s.CallsCipher mem f_pbIV iv) :
    s.decryptBytes evp mem f_pbIV payloadData =
      some (if (evp.decrypt s.m_keyStr iv payloadData (toInt32 payloadData.length)).1 then 0 else 1,
        (evp.decrypt s.m_keyStr iv payloadData (toInt32 payloadData.length)).2) := by
  unfold decryptBytes
  rw [if_pos h.ready, if_pos h.decryptedDataBuf, h.ivBuff]
  exact if_pos h.ctx

/-- Short of the cipher the payload is not touched. -/
theorem decryptBytes_refuses (evp : Evp (Option Bytes)) (payloadData : Bytes)
    (h : ∀ iv, ¬ s.CallsCipher mem f_pbIV iv) :
    s.decryptBytes evp mem f_pbIV payloadData = none ∨
      s.decryptBytes evp mem f_pbIV payloadData = some (1, payloadData) := by
  unfold decryptBytes
  by_cases hready : s.m_eKeyState = .KEY_READY
  · rw [if_pos hready]
    by_cases hbuf : mem.decryptedDataBuf = true
    · rw [if_pos hbuf]
      cases hiv : ivBuff mem.ivBuff f_pbIV with
      | none => exact .inl rfl
      | some padded =>
          cases padded with
          | none => exact .inr rfl
          | some iv => exact .inl (if_neg fun hctx => h iv ⟨hready, hbuf, hiv, hctx⟩)
    · exact .inr (if_neg hbuf)
  · exact .inr (if_neg hready)

/-- The initialisation vector of eight or sixteen bytes as the cipher gets it. -/
def paddedIV (f_pbIV : Bytes) : Bytes :=
  if f_pbIV.length = 8 then f_pbIV ++ List.replicate 8 0 else f_pbIV

theorem ivBuff_padded (h : f_pbIV.length = 8 ∨ f_pbIV.length = 16) :
    ivBuff true f_pbIV = some (some (paddedIV f_pbIV)) := by
  unfold ivBuff paddedIV
  by_cases height : f_pbIV.length = 8
  · rw [if_pos height, if_pos height]
    rfl
  · rw [if_neg height, if_neg height, if_pos (show _ = AES_CTR_IV_LEN from h.resolve_left height)]
    rfl

theorem ivBuff_invalid (h : ¬ (f_pbIV.length = 8 ∨ f_pbIV.length = 16)) (allocated : Bool) :
    ivBuff allocated f_pbIV = some none := by
  unfold ivBuff
  have hsixteen : f_pbIV.length ≠ AES_CTR_IV_LEN := fun hlength => h (.inr hlength)
  rw [if_neg fun height => h (.inl height), if_neg hsixteen]

/-- A call that has its memory and its context answers as the session does. -/
theorem decryptBytes_status (hbuf : mem.decryptedDataBuf = true) (hivBuff : mem.ivBuff = true)
    (hctx : s.mOpensslCtx = true) :
    ∃ evpOk, (s.decryptBytes evp mem f_pbIV payloadData).map Prod.fst =
      some (s.decrypt f_pbIV.length evpOk) := by
  unfold decrypt
  by_cases hready : s.m_eKeyState = .KEY_READY
  · simp only [if_pos hready]
    by_cases hlength : f_pbIV.length = 8 ∨ f_pbIV.length = 16
    · have hcalls : s.CallsCipher mem f_pbIV (paddedIV f_pbIV) :=
        ⟨hready, hbuf, by rw [hivBuff, ivBuff_padded hlength], hctx⟩
      rw [decryptBytes_calls hcalls]
      simp only [hlength, true_and]
      exact ⟨_, rfl⟩
    · unfold decryptBytes
      rw [if_pos hready, if_pos hbuf, ivBuff_invalid hlength]
      simp only [hlength, false_and]
      exact ⟨false, rfl⟩
  · unfold decryptBytes
    simp only [if_neg hready]
    exact ⟨false, rfl⟩

end

end ClearKeySession

/-! ## The payload of a call that fails -/

/-- What an error status goes with. -/
def KeepsOnFailure {ρ : Type} (success : ρ) (payload : Bytes) (result : Option (ρ × Bytes)) : Prop :=
  ∀ status after, result = some (status, after) → status ≠ success → after = payload

/-- A run of the cipher that is copied back keeps the payload as it fails intact. -/
theorem keepsOnFailure_run {ρ κ : Type} {success failure : ρ} (hne : failure ≠ success)
    {evp : Evp κ} {key : κ} {iv payload : Bytes} {inl : Int} :
    KeepsOnFailure success payload
        (some (if (evp.decrypt key iv payload inl).1 then success else failure,
          (evp.decrypt key iv payload inl).2)) ↔ evp.FailsIntact key iv payload inl := by
  rw [← Evp.failsIntact_iff]
  constructor
  · intro h hfailed
    refine h failure _ ?_ hne
    rw [hfailed]
    rfl
  · intro h status after hrun hstatus
    cases hrun
    apply h
    exact Bool.eq_false_iff.mpr fun hok => hstatus (if_pos hok)

theorem keepsOnFailure_untouched {ρ : Type} {success failure : ρ} {payload : Bytes} :
    KeepsOnFailure success payload (some (failure, payload)) := by
  intro status after hrun _
  cases hrun
  rfl

/-- Both functions keep the payload of a call that fails exactly when the cipher is not reached
or the failing call finds the payload in the buffer that is copied back. -/
theorem failedDecrypt_keeps_iff (evp : Evp (Option Bytes)) (mem : DecryptMemory)
    (s : ClearKeySession) (f_pbIV payloadData : Bytes) (cbc : Evp (Option (List Char)))
    (d : Aes.AesDec) (ctx allocated timedOut : Bool) (encryptedData : Bytes) :
    (KeepsOnFailure 0 payloadData (s.decryptBytes evp mem f_pbIV payloadData) ↔
      ∀ iv, s.CallsCipher mem f_pbIV iv →
        evp.FailsIntact s.m_keyStr iv payloadData (toInt32 payloadData.length)) ∧
    (KeepsOnFailure .eDRM_SUCCESS encryptedData
        (d.decryptPayload cbc ctx allocated (Aes.waitResult timedOut) encryptedData) ↔
      (d.mDrmState = .eDRM_KEY_ACQUIRED → allocated = true → ctx = true →
        cbc.FailsIntact d.m_ptr d.mDrmInfo.iv encryptedData (toInt32 encryptedData.length))) := by
  constructor
  · by_cases hcalls : ∃ iv, s.CallsCipher mem f_pbIV iv
    · rcases hcalls with ⟨iv, hiv⟩
      rw [ClearKeySession.decryptBytes_calls hiv, keepsOnFailure_run Nat.one_ne_zero]
      constructor
      · intro h other hother
        cases hiv.ivBuff.symm.trans hother.ivBuff
        exact h
      · exact fun h => h iv hiv
    · have hnone := not_exists.mp hcalls
      refine iff_of_true ?_ fun iv hiv => absurd hiv (hnone iv)
      rcases ClearKeySession.decryptBytes_refuses evp payloadData hnone with hrun | hrun
      · rw [hrun]
        exact fun _ _ h => nomatch h
      · rw [hrun]
        exact keepsOnFailure_untouched
  · have herr : Aes.waitResult timedOut ≠ .eDRM_SUCCESS := by
      cases timedOut <;> decide
    unfold Aes.AesDec.decryptPayload Aes.AesDec.decryptWith
    by_cases hacquired : d.mDrmState = .eDRM_KEY_ACQUIRED
    · rw [if_pos hacquired, imp_iff_right hacquired]
      cases allocated with
      | false => exact iff_of_true keepsOnFailure_untouched nofun
      | true =>
          cases ctx with
          | false => exact iff_of_true (fun _ _ h => nomatch h) nofun
          | true =>
              rw [imp_iff_right rfl, imp_iff_right rfl]
              exact keepsOnFailure_run herr
    · rw [if_neg hacquired]
      exact iff_of_true keepsOnFailure_untouched fun h => absurd h hacquired

/-- A cipher that holds the last block back and finds its padding wrong. -/
def badPadding (κ : Type) : Evp κ where
  DecryptInit_ex _ _ := true
  DecryptUpdate _ _ _ _ := (true, [])
  DecryptFinal_ex _ _ _ _ := (false, [])
  fits _ _ _ _ := Nat.zero_le _

/-- A decryptor with the key of its URL. -/
def acquiredDec : Aes.AesDec where
  mDrmInfo := { keyURI := "http://h/k".toList }
  m_ptr := some "http://h/k".toList
  mDrmState := .eDRM_KEY_ACQUIRED
  mDrmUrl := "http://h/k".toList

/-- One block with a wrong padding comes back zeroed. -/
theorem badPadding_overwrites : ¬ ((∀ (evp : Evp (Option Bytes)) (mem : DecryptMemory)
      (s : ClearKeySession) (f_pbIV payloadData : Bytes),
      KeepsOnFailure 0 payloadData (s.decryptBytes evp mem f_pbIV payloadData)) ∧
    ∀ (cbc : Evp (Option (List Char))) (d : Aes.AesDec) (ctx allocated timedOut : Bool)
      (encryptedData : Bytes), KeepsOnFailure .eDRM_SUCCESS encryptedData
        (d.decryptPayload cbc ctx allocated (Aes.waitResult timedOut) encryptedData)) := by
  intro hclaim
  have hkept := hclaim.2 (badPadding _) acquiredDec true true false (List.replicate 16 1)
    .eDRM_ERROR (List.replicate 16 0) (by decide) (by decide)
  cases hkept

end PlayerInterface.Drm
