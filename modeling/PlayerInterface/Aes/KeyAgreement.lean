import PlayerInterface.Aes.Threads

/-!
# Key and parameters agree

The fast path of `SetDecryptInfo` keeps the key when the new key URI is the text
of the last one; the URL a key is fetched from depends on the manifest too.
-/

namespace PlayerInterface.Aes

open PlayerInterface.Core

variable {ι : Type}

/-- A decrypt uses the key of the URL of the parameters whose vector it uses. -/
def AesDec.DecryptsWithItsKey (d : AesDec) : Prop :=
  ∀ key iv, d.decryptWith = some (key, iv) → key = d.mDrmInfo.keyUrl ∧ iv = d.mDrmInfo.iv

/-- Whenever `SetDecryptInfo`, at its call or behind its wait, finds the key
acquired and the key URI unchanged, the key URL is unchanged too. -/
def KeepsKeyUrl (s : State ι) (a : Act ι) : Prop :=
  ∀ i drmInfo, (∃ created, a = .SetDecryptInfo i drmInfo created) ∨
      s.caller i = .setWait drmInfo ∧ (∃ timedOut created evpOk, a = .wake i timedOut created evpOk) →
    s.dec.sameUrl drmInfo = true →
    (s.dec.mDrmInfo.assign drmInfo).keyUrl = s.dec.mDrmInfo.keyUrl

/-! ## The invariant -/

/-- The key is acquired, or will be again after `RestoreKeyState`. -/
def AesDec.Acquired (d : AesDec) : Prop :=
  d.mDrmState = .eDRM_KEY_ACQUIRED ∨
    d.mDrmState = .eDRM_KEY_FLUSH ∧ d.mPrevDrmState = .eDRM_KEY_ACQUIRED

/-- `SetDecryptInfo` is in its join. -/
def State.Acquiring (s : State ι) : Prop := ∃ i err, s.joining = some (i, .SetDecryptInfo err)

structure AgreeInv (s : State ι) : Prop where
  agrees : s.dec.Acquired → s.dec.m_ptr = s.dec.mDrmInfo.keyUrl
  /-- a key under way is not acquired yet, and its thread is going to be joined -/
  under : s.thread.beforeLock = true →
    ¬ s.dec.Acquired ∧ s.dec.licenseAcquisitionThreadStarted = true
  joining : s.Acquiring → ¬ s.dec.Acquired
  resolved : ∀ keyURI, s.thread = .resolved keyURI → ¬ s.Acquiring →
    some keyURI = s.dec.mDrmInfo.keyUrl
  fetched : ∀ status, s.thread = .fetched status → ¬ s.Acquiring →
    s.dec.m_ptr = s.dec.mDrmInfo.keyUrl

theorem beginAcquire_not_acquired (d : AesDec) (drmInfo : DrmInfo) :
    ¬ (d.beginAcquire drmInfo).Acquired := by
  rintro (h | ⟨h, -⟩) <;> cases h

theorem not_acquiring_of_free {s : State ι} (h : s.joining = none) : ¬ s.Acquiring := by
  rintro ⟨i, err, hj⟩
  rw [h] at hj
  cases hj

/-- A step that leaves the parameters, the key and the threads. -/
theorem AgreeInv.congr {s t : State ι} (h : AgreeInv s) (hthread : t.thread = s.thread)
    (hptr : t.dec.m_ptr = s.dec.m_ptr) (hinfo : t.dec.mDrmInfo = s.dec.mDrmInfo)
    (hacq : t.dec.Acquired → s.dec.Acquired)
    (hstarted : t.dec.licenseAcquisitionThreadStarted = s.dec.licenseAcquisitionThreadStarted)
    (hjoin : t.Acquiring ↔ s.Acquiring) : AgreeInv t where
  agrees ha := by
    rw [hptr, hinfo]
    exact h.agrees (hacq ha)
  under hb := by
    rw [hthread] at hb
    rw [hstarted]
    exact ⟨fun ha => (h.under hb).1 (hacq ha), (h.under hb).2⟩
  joining hj ha := h.joining (hjoin.mp hj) (hacq ha)
  resolved keyURI ht hno := by
    rw [hthread] at ht
    rw [hinfo]
    exact h.resolved keyURI ht fun hj => hno (hjoin.mpr hj)
  fetched status ht hno := by
    rw [hthread] at ht
    rw [hptr, hinfo]
    exact h.fetched status ht fun hj => hno (hjoin.mpr hj)

theorem AgreeInv.decryptsWithItsKey {s : State ι} (h : AgreeInv s) : s.dec.DecryptsWithItsKey := by
  intro key iv hd
  unfold AesDec.decryptWith at hd
  split at hd
  · rename_i hacq
    cases hd
    exact ⟨h.agrees (Or.inl hacq), rfl⟩
  · cases hd

variable [DecidableEq ι]

/-- A new thread has resolved nothing yet, and no key is acquired without one. -/
theorem AgreeInv.createThread {s : State ι} (hnew : s.thread.beforeLock = false)
    (hnot : ¬ s.dec.Acquired) (hfree : s.joining = none) (i : ι) (err : DrmReturn) (created : Bool) :
    AgreeInv (s.createThread i err created) := by
  have hfree' : (s.createThread i err created).joining = none := hfree
  have hnot' : ¬ (s.createThread i err created).dec.Acquired := by
    cases created with
    | true => exact hnot
    | false => rintro (h | ⟨h, -⟩) <;> cases h
  refine ⟨fun h => absurd h hnot', fun hb => ⟨hnot', ?_⟩, fun _ => hnot', ?_, ?_⟩
  · cases created with
    | true => rfl
    | false =>
        have hb' : s.thread.beforeLock = true := hb
        rw [hnew] at hb'
        cases hb'
  · intro keyURI ht
    cases created with
    | true => cases ht
    | false =>
        have ht' : s.thread = .resolved keyURI := ht
        rw [ht'] at hnew
        cases hnew
  · intro status ht
    cases created with
    | true => cases ht
    | false =>
        have ht' : s.thread = .fetched status := ht
        rw [ht'] at hnew
        cases hnew

theorem AgreeInv.setInfo {s : State ι} (h : AgreeInv s) (hfree : s.joining = none) (i : ι)
    {drmInfo : DrmInfo} (err : DrmReturn) (created : Bool)
    (hk : s.dec.sameUrl drmInfo = true →
      (s.dec.mDrmInfo.assign drmInfo).keyUrl = s.dec.mDrmInfo.keyUrl) :
    AgreeInv (s.setInfo i drmInfo err created) := by
  unfold State.setInfo
  by_cases hsame : (s.dec.storeInfo drmInfo).sameUrl drmInfo = true
  · rw [if_pos hsame]
    have hsame' : s.dec.sameUrl drmInfo = true := hsame
    have hacq : s.dec.Acquired := by
      simp only [AesDec.sameUrl, Bool.and_eq_true, beq_iff_eq] at hsame'
      exact Or.inl hsame'.1.2
    have hlate : ¬ s.thread.beforeLock = true := fun hb => (h.under hb).1 hacq
    refine ⟨fun _ => ?_, fun hb => absurd hb hlate, h.joining, ?_, ?_⟩
    · exact (h.agrees hacq).trans (hk hsame').symm
    · intro keyURI ht
      have ht' : s.thread = .resolved keyURI := ht
      rw [ht'] at hlate
      exact absurd rfl hlate
    · intro status ht
      have ht' : s.thread = .fetched status := ht
      rw [ht'] at hlate
      exact absurd rfl hlate
  · rw [if_neg hsame]
    by_cases hstarted : s.dec.licenseAcquisitionThreadStarted = true
    · rw [if_pos hstarted]
      have hnot := beginAcquire_not_acquired s.dec drmInfo
      refine ⟨fun hacq => absurd hacq hnot, fun _ => ⟨hnot, hstarted⟩, fun _ => hnot, ?_, ?_⟩
      · exact fun _ _ hno => absurd ⟨i, err, rfl⟩ hno
      · exact fun _ _ hno => absurd ⟨i, err, rfl⟩ hno
    · rw [if_neg hstarted]
      apply AgreeInv.createThread
      · cases hb : s.thread.beforeLock with
        | false => rfl
        | true => exact absurd (h.under hb).2 hstarted
      · exact beginAcquire_not_acquired s.dec drmInfo
      · exact hfree

theorem CancelKeyWait_acquired {d : AesDec} (h : d.CancelKeyWait.Acquired) : d.Acquired := by
  unfold AesDec.CancelKeyWait at h
  by_cases hf : d.mDrmState = .eDRM_KEY_FLUSH
  · rcases h with h | ⟨-, h⟩
    · cases h
    · exact Or.inr ⟨hf, by simpa [hf] using h⟩
  · rcases h with h | ⟨-, h⟩
    · cases h
    · exact Or.inl (by simpa [hf] using h)

theorem RestoreKeyState_acquired {d : AesDec} (h : d.RestoreKeyState.Acquired) : d.Acquired := by
  unfold AesDec.RestoreKeyState at h
  by_cases hf : d.mDrmState = .eDRM_KEY_FLUSH
  · rw [if_pos hf] at h
    rcases h with h | ⟨-, h⟩
    · exact Or.inr ⟨hf, h⟩
    · exact Or.inr ⟨hf, h⟩
  · rw [if_neg hf] at h
    exact h

theorem agreeInv_step {s t : State ι} {a : Act ι} (h : AgreeInv s) (hk : KeepsKeyUrl s a)
    (hstep : aesStep s a = some t) : AgreeInv t := by
  cases aesStep_cases hstep with
  | calls i c hfree => exact h.congr rfl rfl rfl id rfl Iff.rfl
  | setInfo i drmInfo err created hfree hcall =>
      apply h.setInfo hfree
      apply hk i drmInfo
      rcases hcall with ⟨-, ha, -⟩ | ⟨hc, timedOut, evpOk, ha⟩
      · exact Or.inl ⟨created, ha⟩
      · exact Or.inr ⟨hc, timedOut, created, evpOk, ha⟩
  | release i hfree hcall =>
      have hno := not_acquiring_of_free hfree
      unfold State.release
      split
      · refine h.congr rfl rfl rfl id rfl ⟨?_, fun hj => absurd hj hno⟩
        rintro ⟨j, err, hj⟩
        cases hj
      · exact h.congr rfl rfl rfl id rfl Iff.rfl
  | CancelKeyWait i hfree => exact h.congr rfl rfl rfl CancelKeyWait_acquired rfl Iff.rfl
  | RestoreKeyState i hfree =>
      refine h.congr rfl ?_ ?_ RestoreKeyState_acquired ?_ Iff.rfl <;>
        · simp only [State.setCaller_dec, AesDec.RestoreKeyState]
          split <;> rfl
  | @signal status hfree ht =>
      have hno := not_acquiring_of_free hfree
      refine ⟨fun _ => h.fetched status ht hno, fun hb => ?_, fun hj => absurd hj hno, ?_, ?_⟩
      · cases hb
      · intro keyURI ht'
        cases ht'
      · intro status' ht'
        cases ht'
  | @resolve keyURI ht hurl =>
      have hb : s.thread.beforeLock = true := by
        rw [ht]
        rfl
      refine ⟨h.agrees, fun _ => h.under hb, h.joining, ?_, ?_⟩
      · intro keyURI' ht' _
        cases ht'
        exact hurl.symm
      · intro status ht'
        cases ht'
  | @fetch keyURI status ht =>
      have hb : s.thread.beforeLock = true := by
        rw [ht]
        rfl
      refine ⟨fun ha => absurd ha (h.under hb).1, fun _ => h.under hb, h.joining, ?_, ?_⟩
      · intro keyURI' ht'
        cases ht'
      · exact fun _ _ hno => h.resolved keyURI ht hno
  | @recreated i err created hj hb =>
      have hnot : ¬ s.dec.threadJoined.Acquired := h.joining ⟨i, err, hj⟩
      have hnew : ({ s with dec := s.dec.threadJoined, joining := none } :
        State ι).thread.beforeLock = false := hb
      exact AgreeInv.createThread hnew hnot rfl i err created
  | @released i created hj hb =>
      have hno : ¬ s.Acquiring := by
        rintro ⟨j, err, hj'⟩
        rw [hj] at hj'
        cases hj'
      refine ⟨h.agrees, fun hb' => ?_, ?_, ?_, ?_⟩
      · rw [State.setCaller_thread] at hb'
        rw [hb] at hb'
        cases hb'
      · rintro ⟨j, err, hj'⟩
        cases hj'
      · exact fun keyURI ht _ => h.resolved keyURI ht hno
      · exact fun status ht _ => h.fetched status ht hno

/-- In every run in which an unchanged key URI means an unchanged key URL, each
decrypt uses the key of the parameters it takes its vector from. -/
theorem decryptsWithItsKey_of_keepsKeyUrl {s : State ι}
    (h : (aesSystem ι).Reaches KeepsKeyUrl s) : s.dec.DecryptsWithItsKey := by
  have hinv : AgreeInv s := by
    refine h.invariant (fun s hs => ?_) (fun _ _ _ hi hk hstep => agreeInv_step hi hk hstep)
    rcases hs with rfl
    refine ⟨?_, ?_, ?_, ?_, ?_⟩
    · rintro (ha | ⟨ha, -⟩) <;> cases ha
    · intro hb
      cases hb
    · rintro ⟨i, err, hj⟩
      cases hj
    · intro keyURI ht
      cases ht
    · intro status ht
      cases ht
  exact hinv.decryptsWithItsKey

def firstInfo : DrmInfo where
  manifestURL := "http://a/1/m.m3u8".toList
  keyURI := "k.key".toList

/-- The first key of a session, up to its acquisition. -/
def firstKeyRun : List (Act Unit) :=
  [.SetDecryptInfo () firstInfo true, .resolve, .fetch true, .signal]

theorem firstKeyRun_ok : (aesSystem Unit).RunOk KeepsKeyUrl {} firstKeyRun := by
  have hthread : ∀ (s : State Unit) (a : Act Unit), a = .resolve ∨ a = .fetch true ∨ a = .signal →
      KeepsKeyUrl s a := by
    intro s a ha i drmInfo hcall
    rcases hcall with ⟨created, h⟩ | ⟨-, timedOut, created, evpOk, h⟩ <;>
      rw [h] at ha <;> simp at ha
  intro t _
  constructor
  · intro i drmInfo _ hsame
    cases hsame
  · intro t _
    exact ⟨hthread _ _ (Or.inl rfl), fun t _ => ⟨hthread _ _ (Or.inr (Or.inl rfl)),
      fun t _ => ⟨hthread _ _ (Or.inr (Or.inr rfl)), trivial⟩⟩⟩

theorem firstKey_decryptsWithItsKey : ∃ s : State Unit,
    (aesSystem Unit).run {} firstKeyRun = some s ∧ s.dec.mDrmState = .eDRM_KEY_ACQUIRED ∧
      s.dec.DecryptsWithItsKey := by
  have hinit : (aesSystem Unit).init {} := rfl
  exact ⟨_, rfl, rfl, decryptsWithItsKey_of_keepsKeyUrl
    (System.Reaches.run (.init hinit) firstKeyRun_ok rfl)⟩

/-- Two manifests of different directories name their keys alike. -/
def sharedNameRun : List (Act Unit) :=
  [.SetDecryptInfo () firstInfo true, .resolve, .fetch true, .signal,
    .SetDecryptInfo () { firstInfo with manifestURL := "http://a/2/m.m3u8".toList } true]

theorem sharedName_decryptsWrong : ¬ ∀ s : State Unit,
    (aesSystem Unit).Reachable s → s.dec.DecryptsWithItsKey := by
  intro hall
  have hrun : ((aesSystem Unit).run {} sharedNameRun).map (fun s => (s.dec.decryptWith.map Prod.fst,
      s.dec.mDrmInfo.keyUrl)) =
      some (some (some "http://a/1/k.key".toList), some "http://a/2/k.key".toList) := by
    decide
  rcases Option.map_eq_some_iff.mp hrun with ⟨s, hs, hpair⟩
  have hinit : (aesSystem Unit).init {} := rfl
  rcases Prod.mk.inj hpair with ⟨hkey, hurl⟩
  rcases Option.map_eq_some_iff.mp hkey with ⟨⟨key, iv⟩, hd, hfst⟩
  have hright := (hall s (System.reachable_of_run hinit hs) key iv hd).1
  rw [hurl] at hright
  exact absurd (hfst.symm.trans hright) (by decide)

end PlayerInterface.Aes
