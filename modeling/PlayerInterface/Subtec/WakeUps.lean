import PlayerInterface.Subtec.PacketSender

/-!
# Lost wake-ups of the packet sender

After its first round the sender keeps `mPktMutex` from the end of the drain to
its wait, so it waits with an empty queue and every later push is followed by a
notification. Only the first wait has no such section in front of it.
-/

namespace PlayerInterface.Subtec

open PlayerInterface.Core

theorem ClientPc.idle_holds {α : Type} (m : SenderMutex) :
    (ClientPc.idle : ClientPc α).holds m = false := by
  cases m <;> rfl

/-- After the drain of a round and before the wait of the next. -/
def SenderPc.drained : SenderPc → Bool
  | entering false | atWait false | testing => true
  | _ => false

theorem SenderPc.inPkt_of_drained {pc : SenderPc} (h : pc.drained = true) : pc.inPkt = true := by
  cases pc with
  | entering first | atWait first => rfl
  | testing => rfl
  | _ => cases h

namespace PacketSender

variable {ι α : Type}

/-! ## Who holds the mutexes -/

def holds (s : PacketSender ι α) : Party ι → SenderMutex → Prop
  | .sender, .mPktMutex => s.sender.inPkt = true
  | .sender, .mStartMutex => False
  | .client c, m => (s.client c).holds m = true

abbrev Agree (s : PacketSender ι α) : Prop := HoldersAgree s.holder s.holds

theorem atSender_agree {s : PacketSender ι α} (h : s.Agree) {pc : SenderPc}
    (hpc : pc.inPkt = s.sender.inPkt) : (s.atSender pc).Agree := by
  apply HoldersAgree.keep h rfl
  intro p m
  cases p with
  | client c => rfl
  | sender =>
      cases m with
      | mStartMutex => rfl
      | mPktMutex => simp [holds, atSender, hpc]

theorem lockBySender_agree {s t : PacketSender ι α} (h : s.Agree) {pc : SenderPc}
    (hout : s.sender.inPkt = false) (hin : pc.inPkt = true)
    (ht : s.lockBySender pc = some t) : t.Agree := by
  unfold lockBySender at ht
  split at ht
  case isFalse hheld => cases ht
  case isTrue hfree =>
    cases ht
    apply HoldersAgree.acquire h hfree (p := .sender) rfl
    rintro (_ | c) (_ | _) <;> simp [holds, atSender, setHolder, hout, hin]

theorem unlockBySender_agree {s : PacketSender ι α} (h : s.Agree) {pc : SenderPc}
    (hin : s.sender.inPkt = true) (hout : pc.inPkt = false) : (s.unlockBySender pc).Agree := by
  apply HoldersAgree.release h (p := .sender) (l := .mPktMutex) hin rfl
  rintro (_ | c) (_ | _) <;> simp [holds, unlockBySender, atSender, setHolder, hout]

section

variable [DecidableEq ι]

theorem atClient_holds (s : PacketSender ι α) (c : ι) (pc : ClientPc α) (p : Party ι)
    (m : SenderMutex) :
    (s.atClient c pc).holds p m ↔ if p = .client c then pc.holds m = true else s.holds p m := by
  cases p with
  | sender => cases m <;> simp [holds, atClient]
  | client d =>
      by_cases hd : d = c
      · subst hd
        simp [holds, atClient]
      · simp [holds, atClient, hd]

theorem atClient_agree {s : PacketSender ι α} (h : s.Agree) {c : ι} {pc : ClientPc α}
    (hpc : pc.holds = (s.client c).holds) : (s.atClient c pc).Agree := by
  apply HoldersAgree.keep h rfl
  intro p m
  rw [atClient_holds]
  split
  case isTrue hp => rw [hp, holds, hpc]
  case isFalse hp => rfl

theorem lockByClient_agree {s t : PacketSender ι α} (h : s.Agree) {c : ι} {m : SenderMutex}
    {pc : ClientPc α} (hout : ∀ l, (s.client c).holds l = false)
    (hin : ∀ l, pc.holds l = true ↔ l = m) (ht : s.lockByClient c m pc = some t) : t.Agree := by
  unfold lockByClient at ht
  split at ht
  case isFalse hheld => cases ht
  case isTrue hfree =>
    cases ht
    apply HoldersAgree.acquire h hfree (p := .client c) rfl
    intro q l
    refine (atClient_holds s c pc q l).trans ?_
    split
    case isTrue hq => simp [hq, holds, hout l, hin l]
    case isFalse hq => simp [hq]

theorem unlockByClient_agree {s : PacketSender ι α} (h : s.Agree) {c : ι} {m : SenderMutex}
    (hin : ∀ l, (s.client c).holds l = true ↔ l = m) : (s.unlockByClient c m).Agree := by
  apply HoldersAgree.release h (p := .client c) (l := m) ((hin m).mpr rfl) rfl
  intro q l
  refine (atClient_holds s c .idle q l).trans ?_
  split
  case isTrue hq => simp [hq, holds, hin l, ClientPc.idle_holds]
  case isFalse hq => simp [hq]

end

/-! ## The invariant -/

structure Consistent (s : PacketSender ι α) : Prop where
  holders : s.Agree
  drained : s.sender.drained = true → s.mPacketQueue = []
  thread : s.joinable = false → s.sender = .absent

theorem Consistent.joinable {s : PacketSender ι α} (h : s.Consistent) {pc : SenderPc}
    (hpc : s.sender = pc) (hne : pc ≠ .absent) : s.joinable = true := by
  by_contra hj
  exact hne (hpc.symm.trans (h.thread (Bool.eq_false_iff.mpr hj)))

/-- A client between its lock of `mPktMutex` and its unlock keeps the sender out. -/
theorem Consistent.sender_outside {s : PacketSender ι α} (h : s.Consistent) {c : ι}
    (hc : (s.client c).holds .mPktMutex = true) : s.sender.drained = false := by
  by_contra hd
  have hin := SenderPc.inPkt_of_drained ((Bool.not_eq_false _).mp hd)
  have hsender := (h.holders .sender .mPktMutex).mpr hin
  have hclient := (h.holders (.client c) .mPktMutex).mpr hc
  rw [hsender] at hclient
  cases hclient

theorem consistent_start : ({} : PacketSender ι α).Consistent where
  holders p m := by cases p <;> cases m <;> simp [holds, SenderPc.inPkt, ClientPc.idle_holds]
  drained h := by cases h
  thread _ := rfl

theorem atSender_consistent {s : PacketSender ι α} (h : s.Consistent) (pc : SenderPc)
    (hj : s.joinable = true) (hpc : pc.inPkt = s.sender.inPkt)
    (hd : pc.drained = true → s.mPacketQueue = []) : (s.atSender pc).Consistent where
  holders := atSender_agree h.holders hpc
  drained := hd
  thread hf := absurd hj (Bool.eq_false_iff.mp hf)

theorem lockBySender_consistent {s t : PacketSender ι α} (h : s.Consistent) {pc : SenderPc}
    (hj : s.joinable = true) (hout : s.sender.inPkt = false) (hin : pc.inPkt = true)
    (hd : pc.drained = false) (ht : s.lockBySender pc = some t) : t.Consistent := by
  have hagree := lockBySender_agree h.holders hout hin ht
  unfold lockBySender at ht
  split at ht
  case isFalse hheld => cases ht
  case isTrue hfree =>
    cases ht
    exact ⟨hagree, fun hdrained => absurd hdrained (Bool.eq_false_iff.mp hd),
      fun hf => absurd hj (Bool.eq_false_iff.mp hf)⟩

theorem unlockBySender_consistent {s : PacketSender ι α} (h : s.Consistent) {pc : SenderPc}
    (hj : s.joinable = true) (hin : s.sender.inPkt = true) (hout : pc.inPkt = false) :
    (s.unlockBySender pc).Consistent where
  holders := unlockBySender_agree h.holders hin hout
  drained hd := absurd (SenderPc.inPkt_of_drained hd) (Bool.eq_false_iff.mp hout)
  thread hf := absurd hj (Bool.eq_false_iff.mp hf)

theorem notifyAll_consistent {s : PacketSender ι α} (h : s.Consistent) :
    s.notifyAll.Consistent := by
  unfold notifyAll
  split
  case isTrue hw =>
    apply atSender_consistent h _ (h.joinable hw nofun)
    · rw [hw]
      rfl
    · intro hd
      cases hd
  case isFalse hw => exact h

theorem senderStep_consistent {s t : PacketSender ι α} (h : s.Consistent)
    (ht : s.senderStep = some t) : t.Consistent := by
  unfold senderStep at ht
  cases hpc : s.sender with
  | absent | waiting | exited =>
      rw [hpc] at ht
      cases ht
  | starting | relocking =>
      have hj := h.joinable hpc nofun
      rw [hpc] at ht
      exact lockBySender_consistent h hj (by rw [hpc]; rfl) rfl rfl ht
  | entering first =>
      have hj := h.joinable hpc nofun
      have hround := atSender_consistent h (.atWait first) hj (by rw [hpc]; rfl)
      rw [hpc] at ht
      cases ht
      have hd : (SenderPc.atWait first).drained = true → s.mPacketQueue = [] := by
        cases first with
        | true => exact nofun
        | false => exact fun _ => h.drained (by rw [hpc]; rfl)
      exact ⟨(hround hd).holders, hd, (hround hd).thread⟩
  | atWait first =>
      have hj := h.joinable hpc nofun
      rw [hpc] at ht
      cases ht
      exact unlockBySender_consistent h hj (by rw [hpc]; rfl) rfl
  | draining =>
      have hj := h.joinable hpc nofun
      rw [hpc] at ht
      cases ht
      split
      case isTrue hq =>
        exact atSender_consistent h _ hj (by rw [hpc]; rfl) fun _ => List.isEmpty_iff.mp hq
      case isFalse hq =>
        refine ⟨h.holders, fun hd => ?_, h.thread⟩
        have hdrain : s.sender.drained = true := hd
        rw [hpc] at hdrain
        cases hdrain
  | testing =>
      have hj := h.joinable hpc nofun
      rw [hpc] at ht
      cases ht
      split
      · exact atSender_consistent h _ hj (by rw [hpc]; rfl) fun _ => h.drained (by rw [hpc]; rfl)
      · exact unlockBySender_consistent h hj (by rw [hpc]; rfl) rfl

variable [DecidableEq ι]

theorem atClient_consistent {s : PacketSender ι α} (h : s.Consistent) {c : ι} (pc : ClientPc α)
    (hpc : ∀ m, pc.holds m = (s.client c).holds m) : (s.atClient c pc).Consistent :=
  ⟨atClient_agree h.holders (funext hpc), h.drained, h.thread⟩

theorem lockByClient_consistent {s t : PacketSender ι α} (h : s.Consistent) {c : ι}
    {m : SenderMutex} {pc : ClientPc α} (hout : ∀ l, (s.client c).holds l = false)
    (hin : ∀ l, pc.holds l = true ↔ l = m) (ht : s.lockByClient c m pc = some t) :
    t.Consistent := by
  have hagree := lockByClient_agree h.holders hout hin ht
  unfold lockByClient at ht
  split at ht
  case isFalse hheld => cases ht
  case isTrue hfree =>
    cases ht
    exact ⟨hagree, h.drained, h.thread⟩

theorem unlockByClient_consistent {s : PacketSender ι α} (h : s.Consistent) {c : ι}
    {m : SenderMutex} (hin : ∀ l, (s.client c).holds l = true ↔ l = m) :
    (s.unlockByClient c m).Consistent :=
  ⟨unlockByClient_agree h.holders hin, h.drained, h.thread⟩

theorem createThread_consistent {s : PacketSender ι α} (h : s.Consistent) {c : ι}
    (hc : s.client c = .initSenderTask) : (s.createThread c).Consistent := by
  unfold createThread
  split
  case isTrue hj => exact ⟨h.holders, h.drained, h.thread⟩
  case isFalse hj =>
    have habsent := h.thread (Bool.eq_false_iff.mpr hj)
    have hclient := atClient_consistent h (.initReturn true) fun m => by
      rw [hc]
      cases m <;> rfl
    refine ⟨atSender_agree hclient.holders ?_, nofun, nofun⟩
    exact (congrArg SenderPc.inPkt habsent).symm

theorem join_consistent {s t : PacketSender ι α} (h : s.Consistent) {c : ι}
    (hc : s.client c = .closeJoin) (ht : s.join c = some t) : t.Consistent := by
  unfold join at ht
  split at ht
  case isFalse hj =>
    cases ht
    exact ⟨h.holders, h.drained, h.thread⟩
  case isTrue hj =>
    split at ht
    case isFalse hs => cases ht
    case isTrue hs =>
      cases ht
      have hclient := atClient_consistent h .idle fun m => by
        rw [hc]
        cases m <;> rfl
      refine ⟨atSender_agree hclient.holders ?_, nofun, fun _ => rfl⟩
      exact (congrArg SenderPc.inPkt hs).symm

theorem clientStep_consistent {s t : PacketSender ι α} (h : s.Consistent) {c : ι} {ok : Bool}
    (ht : s.clientStep c ok = some t) : t.Consistent := by
  unfold clientStep at ht
  cases hpc : s.client c with
  | idle =>
      rw [hpc] at ht
      cases ht
  | initLock | sendLock packet | flushLock =>
      rw [hpc] at ht
      apply lockByClient_consistent h _ _ ht
      · intro l
        rw [hpc]
        rfl
      · intro l
        cases l <;> simp [ClientPc.holds]
  | initReturn ret | sendReturn | flushReturn =>
      rw [hpc] at ht
      cases ht
      apply unlockByClient_consistent h
      intro l
      rw [hpc]
      cases l <;> simp [ClientPc.holds]
  | initTest | initSocket | closeTest | closeJoinable =>
      rw [hpc] at ht
      cases ht
      apply atClient_consistent h _
      intro m
      rw [hpc]
      split <;> cases m <;> rfl
  | initSenderTask =>
      rw [hpc] at ht
      cases ht
      split
      · exact createThread_consistent h hpc
      · apply atClient_consistent h _
        intro m
        rw [hpc]
        cases m <;> rfl
  | sendNotify | closeNotify =>
      rw [hpc] at ht
      cases ht
      apply notifyAll_consistent
      apply atClient_consistent h _
      intro m
      rw [hpc]
      cases m <;> rfl
  | sendPush packet =>
      have hout := h.sender_outside (c := c) (by rw [hpc]; rfl)
      have hclient := atClient_consistent h .sendNotify fun m => by
        rw [hpc]
        cases m <;> rfl
      rw [hpc] at ht
      cases ht
      exact ⟨hclient.holders, fun hd => absurd hd (Bool.eq_false_iff.mp hout), h.thread⟩
  | flushSwap =>
      have hclient := atClient_consistent h .flushReturn fun m => by
        rw [hpc]
        cases m <;> rfl
      rw [hpc] at ht
      cases ht
      exact ⟨hclient.holders, fun _ => rfl, h.thread⟩
  | closeStore =>
      have hclient := atClient_consistent h .closeNotify fun m => by
        rw [hpc]
        cases m <;> rfl
      rw [hpc] at ht
      cases ht
      exact ⟨hclient.holders, h.drained, h.thread⟩
  | closeJoin =>
      rw [hpc] at ht
      exact join_consistent h hpc ht

theorem step_consistent {s t : PacketSender ι α} {a : SenderAct ι α} (h : s.Consistent)
    (ht : s.step a = some t) : t.Consistent := by
  unfold step at ht
  split at ht
  case isTrue hterm => cases ht
  case isFalse hterm =>
    cases a with
    | call c f =>
        simp only [startCall] at ht
        cases hpc : s.client c with
        | idle =>
            simp only [hpc] at ht
            cases ht
            apply atClient_consistent h _
            intro m
            rw [hpc]
            cases f <;> cases m <;> rfl
        | _ => simp [hpc] at ht
    | client c ok => exact clientStep_consistent h ht
    | sender => exact senderStep_consistent h ht
    | spuriousWakeup =>
        simp only at ht
        split at ht
        case isFalse hw => cases ht
        case isTrue hw =>
          cases ht
          exact atSender_consistent h _ (h.joinable hw nofun) (by rw [hw]; rfl) nofun

/-! ## One step -/

omit [DecidableEq ι] in
theorem not_lostWakeup_of_sender {s : PacketSender ι α} (h : s.sender ≠ .waiting) :
    ¬ s.LostWakeup := fun hl => h hl.1

omit [DecidableEq ι] in
theorem not_lostWakeup_notifyAll (s : PacketSender ι α) : ¬ s.notifyAll.LostWakeup := by
  apply not_lostWakeup_of_sender
  unfold notifyAll
  split
  case isTrue hw => exact nofun
  case isFalse hw => exact hw

omit [DecidableEq ι] in
theorem lockBySender_not_lostWakeup {s t : PacketSender ι α} (pc : SenderPc)
    (hpc : pc ≠ .waiting) (ht : s.lockBySender pc = some t) : ¬ t.LostWakeup := by
  unfold lockBySender at ht
  split at ht
  case isFalse hheld => cases ht
  case isTrue hfree =>
    cases ht
    exact not_lostWakeup_of_sender hpc

/-- A client that is not about to notify changes nothing by moving on. -/
theorem not_lostWakeup_atClient {s : PacketSender ι α} (h : ¬ s.LostWakeup) {c : ι}
    (hc : (s.client c).notifies = false) (pc : ClientPc α) : ¬ (s.atClient c pc).LostWakeup := by
  rintro ⟨hw, hr, hq, hn⟩
  apply h
  refine ⟨hw, hr, hq, ?_⟩
  rintro ⟨d, hd⟩
  have hne : d ≠ c := by
    rintro rfl
    rw [hc] at hd
    cases hd
  apply hn
  exact ⟨d, by simpa [atClient, hne] using hd⟩

theorem lockByClient_not_lostWakeup {s t : PacketSender ι α} (h : ¬ s.LostWakeup) {c : ι}
    (hc : (s.client c).notifies = false) {m : SenderMutex} {pc : ClientPc α}
    (ht : s.lockByClient c m pc = some t) : ¬ t.LostWakeup := by
  unfold lockByClient at ht
  split at ht
  case isFalse hheld => cases ht
  case isTrue hfree =>
    cases ht
    exact not_lostWakeup_atClient h hc pc

theorem join_not_lostWakeup {s t : PacketSender ι α} (h : ¬ s.LostWakeup) {c : ι}
    (ht : s.join c = some t) : ¬ t.LostWakeup := by
  unfold join at ht
  split at ht
  case isFalse hj =>
    cases ht
    exact h
  case isTrue hj =>
    split at ht
    case isFalse hs => cases ht
    case isTrue hs =>
      cases ht
      exact not_lostWakeup_of_sender nofun

/-- No client loses a wake-up: a push comes before a notification, and the flag and
the queue only change towards nothing to wake up for. -/
theorem clientStep_not_lostWakeup {s t : PacketSender ι α} (h : ¬ s.LostWakeup) {c : ι}
    {ok : Bool} (ht : s.clientStep c ok = some t) : ¬ t.LostWakeup := by
  unfold clientStep at ht
  cases hpc : s.client c with
  | idle =>
      rw [hpc] at ht
      cases ht
  | initLock | sendLock packet | flushLock =>
      rw [hpc] at ht
      exact lockByClient_not_lostWakeup h (by rw [hpc]; rfl) ht
  | initReturn ret | sendReturn | flushReturn | initTest | initSocket | closeTest
  | closeJoinable =>
      rw [hpc] at ht
      cases ht
      exact not_lostWakeup_atClient h (by rw [hpc]; rfl) _
  | initSenderTask =>
      rw [hpc] at ht
      cases ht
      unfold createThread
      split
      · split
        · exact h
        · exact not_lostWakeup_of_sender nofun
      · exact not_lostWakeup_atClient h (by rw [hpc]; rfl) _
  | sendPush packet =>
      rw [hpc] at ht
      cases ht
      rintro ⟨-, -, -, hn⟩
      exact hn ⟨c, by simp [atClient, ClientPc.notifies]⟩
  | sendNotify | closeNotify =>
      rw [hpc] at ht
      cases ht
      exact not_lostWakeup_notifyAll _
  | flushSwap =>
      rw [hpc] at ht
      cases ht
      exact fun hl => hl.2.2.1 rfl
  | closeStore =>
      rw [hpc] at ht
      cases ht
      exact fun hl => Bool.false_ne_true hl.2.1
  | closeJoin =>
      rw [hpc] at ht
      exact join_not_lostWakeup h ht

omit [DecidableEq ι] in
/-- The sender comes to a later wait with an empty queue, so only its first wait can
lose a wake-up. -/
theorem senderStep_lostWakeup_iff {s t : PacketSender ι α} (h : s.Consistent)
    (ht : s.senderStep = some t) : ¬ t.LostWakeup ↔ s.FirstWaitReady .sender := by
  have hother : s.sender ≠ .atWait true → s.FirstWaitReady .sender := fun hne hpc =>
    absurd hpc hne
  unfold senderStep at ht
  cases hpc : s.sender with
  | absent | waiting | exited =>
      rw [hpc] at ht
      cases ht
  | starting =>
      rw [hpc] at ht
      have hwake := lockBySender_not_lostWakeup (.entering true) nofun ht
      exact iff_of_true hwake (hother (by rw [hpc]; exact nofun))
  | relocking =>
      rw [hpc] at ht
      have hwake := lockBySender_not_lostWakeup .draining nofun ht
      exact iff_of_true hwake (hother (by rw [hpc]; exact nofun))
  | entering first =>
      rw [hpc] at ht
      cases ht
      exact iff_of_true (not_lostWakeup_of_sender nofun) (hother (by rw [hpc]; exact nofun))
  | atWait first =>
      rw [hpc] at ht
      cases ht
      cases first with
      | true =>
          have hlost : (s.unlockBySender .waiting).LostWakeup ↔
              s.running = true ∧ s.mPacketQueue ≠ [] ∧ ¬ s.Notifying := and_iff_right rfl
          rw [hlost]
          simp only [FirstWaitReady, hpc, forall_const, not_and, not_not]
          cases s.running <;> simp [or_iff_not_imp_left]
      | false =>
          have hq := h.drained (by rw [hpc]; rfl)
          exact iff_of_true (fun hlost => hlost.2.2.1 hq) (hother (by rw [hpc]; exact nofun))
  | draining =>
      rw [hpc] at ht
      cases ht
      refine iff_of_true (not_lostWakeup_of_sender ?_) (hother (by rw [hpc]; exact nofun))
      split
      · exact nofun
      · exact fun hw => SenderPc.noConfusion (hpc.symm.trans hw)
  | testing =>
      rw [hpc] at ht
      cases ht
      refine iff_of_true (not_lostWakeup_of_sender ?_) (hother (by rw [hpc]; exact nofun))
      split <;> exact nofun

theorem step_lostWakeup_iff {s t : PacketSender ι α} {a : SenderAct ι α} (h : s.Consistent)
    (hl : ¬ s.LostWakeup) (ht : s.step a = some t) : ¬ t.LostWakeup ↔ s.FirstWaitReady a := by
  unfold step at ht
  split at ht
  case isTrue hterm => cases ht
  case isFalse hterm =>
    cases a with
    | call c f =>
        refine iff_of_true ?_ trivial
        simp only [startCall] at ht
        cases hpc : s.client c with
        | idle =>
            simp only [hpc] at ht
            cases ht
            exact not_lostWakeup_atClient hl (by rw [hpc]; rfl) _
        | _ => simp [hpc] at ht
    | client c ok => exact iff_of_true (clientStep_not_lostWakeup hl ht) trivial
    | sender => exact senderStep_lostWakeup_iff h ht
    | spuriousWakeup =>
        refine iff_of_true ?_ trivial
        simp only at ht
        split at ht
        case isFalse hw => cases ht
        case isTrue hw =>
          cases ht
          exact not_lostWakeup_of_sender nofun

/-! ## Runs -/

/-- A run of the sender and its clients loses no wake-up exactly when every
`senderTask` is ready for its first wait. -/
theorem noLostWakeup_run_iff (acts : List (SenderAct ι α)) :
    system.RunAll (fun s => ¬ s.LostWakeup) ({} : PacketSender ι α) acts ↔
      system.RunOk FirstWaitReady {} acts := by
  apply System.runAll_iff_runOk_of_invariant
  · exact fun s a t (h : s.Consistent) ht => step_consistent h ht
  · exact fun s a t h hl ht => step_lostWakeup_iff h hl ht
  · exact consistent_start
  · exact not_lostWakeup_of_sender nofun

/-- `Init` returns true and a packet is sent before the new thread has locked
`mPktMutex` for the first time. -/
def sendBeforeFirstWait : List (SenderAct Unit Nat) :=
  .call () .Init :: List.replicate 5 (.client () true) ++
    .call () (.SendPacket 7) :: List.replicate 4 (.client () true) ++
    List.replicate 3 .sender

theorem sendBeforeFirstWait_lost :
    ∃ s : PacketSender Unit Nat, system.Reachable s ∧ s.LostWakeup := by
  have hrun : (system.run {} sendBeforeFirstWait).map (fun s : PacketSender Unit Nat =>
      (s.sender, s.running, s.mPacketQueue, s.client ())) = some (.waiting, true, [7], .idle) := by
    decide
  rcases Option.map_eq_some_iff.mp hrun with ⟨s, hs, hs'⟩
  obtain ⟨hsender, hrunning, hqueue, hclient⟩ :
      s.sender = .waiting ∧ s.running = true ∧ s.mPacketQueue = [7] ∧ s.client () = .idle := by
    simpa using hs'
  refine ⟨s, System.reachable_of_run rfl hs, hsender, hrunning, by simp [hqueue], ?_⟩
  rintro ⟨_, hn⟩
  rw [hclient] at hn
  cases hn

end PacketSender
end PlayerInterface.Subtec
