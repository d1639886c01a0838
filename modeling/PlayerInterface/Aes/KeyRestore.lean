import PlayerInterface.Aes.Threads

/-!
# The key state over a cancelled wait

`CancelKeyWait` hides the state behind `eDRM_KEY_FLUSH` and `RestoreKeyState` brings
it back, unless one of the other functions has written a newer one. Each of them is a
section under `mMutex`; the sections of all threads may follow one another in any
order.
-/

namespace PlayerInterface.Aes

open PlayerInterface.Core

/-- `SetDecryptInfo` has two: the one that decides whether the key is fetched anew, and the end of
it once the last key thread is joined. `fetched` is no section but the write of `m_ptr`. -/
inductive KeySection where
  | SetDecryptInfo (drmInfo : DrmInfo)
  | threadJoined
  | threadCreated (created : Bool)
  | SignalKeyAcquired
  | SignalDrmError
  | CancelKeyWait
  | RestoreKeyState
  | fetched (keyURI : List Char)
deriving DecidableEq, Repr

namespace AesDec

def setDecryptInfo (d : AesDec) (drmInfo : DrmInfo) : AesDec :=
  if (d.storeInfo drmInfo).sameUrl drmInfo then d.storeInfo drmInfo else d.beginAcquire drmInfo

def runSection (d : AesDec) : KeySection → AesDec
  | .SetDecryptInfo drmInfo => d.setDecryptInfo drmInfo
  | .threadJoined => d.threadJoined
  | .threadCreated created => d.threadCreated created
  | .SignalKeyAcquired => d.signal true
  | .SignalDrmError => d.signal false
  | .CancelKeyWait => d.CancelKeyWait
  | .RestoreKeyState => d.RestoreKeyState
  | .fetched keyURI => { d with m_ptr := some keyURI }

def runSections (d : AesDec) (as : List KeySection) : AesDec := as.foldl runSection d

/-- The outcome that a section sets: the key is acquired, has failed, or is being fetched. -/
def outcome (d : AesDec) : KeySection → Option DRMState
  | .SetDecryptInfo drmInfo =>
      if (d.storeInfo drmInfo).sameUrl drmInfo then none else some .eDRM_ACQUIRING_KEY
  | .threadCreated created => if created then none else some .eDRM_KEY_FAILED
  | .SignalKeyAcquired => some .eDRM_KEY_ACQUIRED
  | .SignalDrmError => some .eDRM_KEY_FAILED
  | _ => none

/-- The last outcome of a sequence of sections. -/
def lastOutcome (d : AesDec) : List KeySection → Option DRMState
  | [] => none
  | a :: as => (lastOutcome (d.runSection a) as).or (d.outcome a)

/-- The state as `RestoreKeyState` would leave it. -/
def restored (d : AesDec) : DRMState :=
  if d.mDrmState = .eDRM_KEY_FLUSH then d.mPrevDrmState else d.mDrmState

/-! ## One section -/

theorem RestoreKeyState_state (d : AesDec) : d.RestoreKeyState.mDrmState = d.restored := by
  unfold RestoreKeyState restored
  split <;> rfl

/-- `SetDecryptInfo` keeps the key it has, or has it fetched. -/
theorem setDecryptInfo_cases (d : AesDec) (drmInfo : DrmInfo) :
    d.runSection (.SetDecryptInfo drmInfo) = d.storeInfo drmInfo ∧
        d.outcome (.SetDecryptInfo drmInfo) = none ∨
      d.runSection (.SetDecryptInfo drmInfo) = d.beginAcquire drmInfo ∧
        d.outcome (.SetDecryptInfo drmInfo) = some .eDRM_ACQUIRING_KEY := by
  by_cases hsame : (d.storeInfo drmInfo).sameUrl drmInfo = true
  · exact Or.inl ⟨if_pos hsame, if_pos hsame⟩
  · exact Or.inr ⟨if_neg hsame, if_neg hsame⟩

/-- A section shows its outcome through a restore, and hides nothing else. -/
theorem runSection_restored (d : AesDec) (a : KeySection) :
    (d.runSection a).restored = (d.outcome a).getD d.restored := by
  cases a with
  | SetDecryptInfo drmInfo =>
      rcases d.setDecryptInfo_cases drmInfo with ⟨hrun, hout⟩ | ⟨hrun, hout⟩ <;>
        rw [hrun, hout] <;> rfl
  | threadCreated created => cases created <;> rfl
  | CancelKeyWait =>
      by_cases hflush : d.mDrmState = .eDRM_KEY_FLUSH <;>
        simp [runSection, AesDec.CancelKeyWait, outcome, restored, hflush]
  | RestoreKeyState =>
      by_cases hflush : d.mDrmState = .eDRM_KEY_FLUSH
      · by_cases hprev : d.mPrevDrmState = .eDRM_KEY_FLUSH <;>
          simp [runSection, AesDec.RestoreKeyState, outcome, restored, hflush, hprev]
      · simp [runSection, AesDec.RestoreKeyState, outcome, restored, hflush]
  | _ => rfl

theorem outcome_ne_flush {d : AesDec} {a : KeySection} {state : DRMState}
    (h : d.outcome a = some state) : state ≠ .eDRM_KEY_FLUSH := by
  cases a with
  | SetDecryptInfo drmInfo =>
      rcases d.setDecryptInfo_cases drmInfo with ⟨-, hout⟩ | ⟨-, hout⟩ <;> rw [hout] at h <;> cases h
      nofun
  | threadCreated created =>
      cases created <;> cases h
      nofun
  | SignalKeyAcquired | SignalDrmError => cases h; nofun
  | _ => cases h

/-- A state that no restore would leave flushed stays one. -/
theorem runSection_restored_ne_flush {d : AesDec} (h : d.restored ≠ .eDRM_KEY_FLUSH)
    (a : KeySection) : (d.runSection a).restored ≠ .eDRM_KEY_FLUSH := by
  rw [runSection_restored]
  cases hout : d.outcome a with
  | none => exact h
  | some state => exact outcome_ne_flush hout

theorem runSection_not_flush {d : AesDec} (h : d.mDrmState ≠ .eDRM_KEY_FLUSH) {a : KeySection}
    (ha : a ≠ .CancelKeyWait) : (d.runSection a).mDrmState ≠ .eDRM_KEY_FLUSH := by
  cases a with
  | SetDecryptInfo drmInfo =>
      rcases d.setDecryptInfo_cases drmInfo with ⟨hrun, -⟩ | ⟨hrun, -⟩ <;> rw [hrun]
      · exact h
      · nofun
  | threadCreated created =>
      cases created with
      | true => exact h
      | false => nofun
  | SignalKeyAcquired | SignalDrmError => nofun
  | CancelKeyWait => exact absurd rfl ha
  | RestoreKeyState =>
      have hsame : (d.runSection .RestoreKeyState) = d := if_neg h
      rwa [hsame]
  | _ => exact h

/-! ## Sequences of sections -/

theorem runSections_restored (d : AesDec) (as : List KeySection) :
    (d.runSections as).restored = (d.lastOutcome as).getD d.restored := by
  induction as generalizing d with
  | nil => rfl
  | cons a as ih =>
      have htail : (d.runSections (a :: as)).restored = ((d.runSection a).runSections as).restored := rfl
      rw [htail, ih, runSection_restored, lastOutcome]
      cases (d.runSection a).lastOutcome as <;> rfl

theorem runSections_restored_ne_flush {d : AesDec} (h : d.restored ≠ .eDRM_KEY_FLUSH)
    (as : List KeySection) : (d.runSections as).restored ≠ .eDRM_KEY_FLUSH := by
  induction as generalizing d with
  | nil => exact h
  | cons a as ih => exact ih (runSection_restored_ne_flush h a)

/-- Nothing but a cancel flushes the state. -/
theorem runSections_not_flush {d : AesDec} (h : d.mDrmState ≠ .eDRM_KEY_FLUSH)
    {as : List KeySection} (has : .CancelKeyWait ∉ as) :
    (d.runSections as).mDrmState ≠ .eDRM_KEY_FLUSH := by
  induction as generalizing d with
  | nil => exact h
  | cons a as ih =>
      rw [List.mem_cons, not_or] at has
      exact ih (runSection_not_flush h (Ne.symm has.1)) has.2

theorem restored_of_not_flush {d : AesDec} (h : d.mDrmState ≠ .eDRM_KEY_FLUSH) :
    d.restored = d.mDrmState := if_neg h

end AesDec

/-- After a restore the state is the last outcome since the first cancel, or else the state before
that cancel, whatever other cancels, restores and outcomes come between; it is never flushed. -/
theorem RestoreKeyState_restores (before since : List KeySection)
    (hfirst : .CancelKeyWait ∉ before) :
    let d := ({} : AesDec).runSections before
    let d' := d.runSections (.CancelKeyWait :: since ++ [.RestoreKeyState])
    d'.mDrmState = (d.lastOutcome (.CancelKeyWait :: since)).getD d.mDrmState ∧
      d'.mDrmState ≠ .eDRM_KEY_FLUSH := by
  intro d d'
  have hbefore : d.mDrmState ≠ .eDRM_KEY_FLUSH := AesDec.runSections_not_flush (by decide) hfirst
  have hd : d.restored = d.mDrmState := AesDec.restored_of_not_flush hbefore
  have hlast : d'.mDrmState = (d.runSections (.CancelKeyWait :: since)).restored := by
    have happend : d' = (d.runSections (.CancelKeyWait :: since)).RestoreKeyState :=
      List.foldl_append
    rw [happend, AesDec.RestoreKeyState_state]
  constructor
  · rw [hlast, AesDec.runSections_restored, hd]
  · rw [hlast]
    exact AesDec.runSections_restored_ne_flush (hd ▸ hbefore) _

/-- A key arrives between two cancels. -/
theorem RestoreKeyState_restores_acquired :
    .CancelKeyWait ∉ [KeySection.SetDecryptInfo {}, .threadCreated true] ∧
      (({} : AesDec).runSections ([.SetDecryptInfo {}, .threadCreated true] ++
        [.CancelKeyWait, .SignalKeyAcquired, .CancelKeyWait, .RestoreKeyState])).mDrmState =
          .eDRM_KEY_ACQUIRED := by
  have hfirst : .CancelKeyWait ∉ [KeySection.SetDecryptInfo {}, .threadCreated true] := by decide
  exact ⟨hfirst,
    (RestoreKeyState_restores _ [.SignalKeyAcquired, .CancelKeyWait] hfirst).1.trans (by decide)⟩

/-! ## The threads run in sections -/

variable {ι : Type} [DecidableEq ι]

/-- What one step of the callers and the key thread does to the decryptor; only a cancel cancels. -/
theorem aesStep_sections {s t : State ι} {a : Act ι} (h : aesStep s a = some t) :
    ∃ as, t.dec = s.dec.runSections as ∧ (.CancelKeyWait ∈ as → ∃ i, a = .CancelKeyWait i) := by
  cases aesStep_cases h with
  | calls i c _ => exact ⟨[], rfl, nofun⟩
  | setInfo i drmInfo err created _ _ =>
      unfold State.setInfo
      by_cases hsame : (s.dec.storeInfo drmInfo).sameUrl drmInfo = true
      · refine ⟨[.SetDecryptInfo drmInfo], ?_, by simp⟩
        rw [if_pos hsame]
        exact (if_pos hsame).symm
      · have hbegin : s.dec.runSection (.SetDecryptInfo drmInfo) = s.dec.beginAcquire drmInfo :=
          if_neg hsame
        rw [if_neg hsame]
        split
        · exact ⟨[.SetDecryptInfo drmInfo], hbegin.symm, by simp⟩
        · refine ⟨[.SetDecryptInfo drmInfo, .threadCreated created], ?_, by simp⟩
          exact (congrArg (AesDec.threadCreated · created) hbegin).symm
  | release i _ _ =>
      refine ⟨[], ?_, nofun⟩
      unfold State.release
      split <;> rfl
  | CancelKeyWait i _ => exact ⟨[.CancelKeyWait], rfl, fun _ => ⟨i, rfl⟩⟩
  | RestoreKeyState i _ => exact ⟨[.RestoreKeyState], rfl, by simp⟩
  | @signal status _ _ =>
      cases status with
      | true => exact ⟨[.SignalKeyAcquired], rfl, by simp⟩
      | false => exact ⟨[.SignalDrmError], rfl, by simp⟩
  | resolve _ _ => exact ⟨[], rfl, nofun⟩
  | @fetch keyURI status _ => exact ⟨[.fetched keyURI], rfl, by simp⟩
  | @recreated i err created _ _ => exact ⟨[.threadJoined, .threadCreated created], rfl, by simp⟩
  | released _ _ => exact ⟨[.threadJoined], rfl, by simp⟩

/-- A run of callers and key thread without a cancel is a sequence of sections without one. -/
theorem aesRun_sections {s t : State ι} {acts : List (Act ι)}
    (hcancel : ∀ i, .CancelKeyWait i ∉ acts) (h : (aesSystem ι).run s acts = some t) :
    ∃ as, t.dec = s.dec.runSections as ∧ .CancelKeyWait ∉ as := by
  induction acts generalizing s with
  | nil =>
      cases h
      exact ⟨[], rfl, nofun⟩
  | cons a acts ih =>
      rcases Option.bind_eq_some_iff.mp h with ⟨u, hu, hrest⟩
      rcases aesStep_sections hu with ⟨as, hdec, honly⟩
      have htail : ∀ i, .CancelKeyWait i ∉ acts :=
        fun i hi => hcancel i (List.mem_cons_of_mem a hi)
      rcases ih htail hrest with ⟨bs, hbs, hnone⟩
      refine ⟨as ++ bs, ?_, ?_⟩
      · rw [hbs, hdec]
        exact List.foldl_append.symm
      · rw [List.mem_append, not_or]
        refine ⟨fun hmem => ?_, hnone⟩
        rcases honly hmem with ⟨i, rfl⟩
        exact hcancel i List.mem_cons_self

end PlayerInterface.Aes
