import PlayerInterface.Subtec.WakeUps

/-!
# One sender thread, and a `Close` that ends it

`running` is stored by the sender itself, once it has come to run, and `Close` clears
it and notifies without `mPktMutex`. A second `Init` can come before the store, and
the notification of a `Close` before the wait it is meant to end.
-/

namespace PlayerInterface.Subtec

open PlayerInterface.Core

/-- Between the test of `running` and the new thread. -/
def ClientPc.creating {α : Type} : ClientPc α → Bool
  | initSocket | initSenderTask => true
  | _ => false

/-- Behind the notification of `Close`. -/
def ClientPc.joining {α : Type} : ClientPc α → Bool
  | closeJoinable | closeJoin => true
  | _ => false

namespace PacketSender

variable {ι α : Type}

/-- A client is about to assign a new thread while there is one. -/
def SecondThread (s : PacketSender ι α) : Prop :=
  ∃ c, s.client c = .initSenderTask ∧ (s.joinable = true ∨ s.sender ≠ .absent)

/-- A `Close` waits for a sender that nobody is about to wake. -/
def JoinDeadlock (s : PacketSender ι α) : Prop :=
  (∃ c, s.client c = .closeJoin) ∧ s.sender = .waiting ∧ ¬ s.Notifying

/-- `Init` finds no thread when `running` is false, and the sender does not begin to wait
between the notification of a `Close` and its join, unless another notification is due. -/
def Orderly (s : PacketSender ι α) : SenderAct ι α → Prop
  | .client c _ => s.client c = .initTest → s.running = false → s.joinable = false
  | .sender => (∃ first, s.sender = .atWait first) →
      s.Notifying ∨ ∀ c, (s.client c).joining = false
  | _ => True

/-! ## The invariant -/

structure Closable (s : PacketSender ι α) : Prop where
  creating : ∀ c, (s.client c).creating = true → s.joinable = false
  waiting : s.sender = .waiting → s.Notifying ∨ ∀ c, (s.client c).joining = false

theorem Closable.not_secondThread {s : PacketSender ι α} (h : s.Closable) (hs : s.Consistent) :
    ¬ s.SecondThread := by
  rintro ⟨c, hc, hthread⟩
  have hfree := h.creating c (by rw [hc]; rfl)
  rcases hthread with hj | hsender
  · rw [hfree] at hj
    cases hj
  · exact hsender (hs.thread hfree)

theorem Closable.not_joinDeadlock {s : PacketSender ι α} (h : s.Closable) : ¬ s.JoinDeadlock := by
  rintro ⟨⟨c, hc⟩, hwaiting, hnone⟩
  have hjoining := (h.waiting hwaiting).resolve_left hnone c
  rw [hc] at hjoining
  cases hjoining

section

variable [DecidableEq ι]

omit [DecidableEq ι] in
/-- Nobody waits: only the creators of threads matter. -/
theorem Closable.awake {t : PacketSender ι α} (hsender : t.sender ≠ .waiting)
    (hcreating : ∀ c, (t.client c).creating = true → t.joinable = false) : t.Closable :=
  ⟨hcreating, fun hw => absurd hw hsender⟩

theorem creating_of_update {s t : PacketSender ι α} {c : ι} {pc : ClientPc α}
    (hclient : t.client = Function.update s.client c pc) (hjoinable : t.joinable = s.joinable)
    (h : ∀ d, (s.client d).creating = true → s.joinable = false)
    (hpc : pc.creating = true → s.joinable = false) (d : ι)
    (hd : (t.client d).creating = true) : t.joinable = false := by
  rw [hjoinable]
  rw [hclient] at hd
  by_cases heq : d = c
  · subst heq
    rw [Function.update_self] at hd
    exact hpc hd
  · rw [Function.update_of_ne heq] at hd
    exact h d hd

/-- A client that was not about to notify goes on, and neither creates nor joins anew. -/
theorem Closable.follow {s t : PacketSender ι α} (h : s.Closable) {c : ι} {pc : ClientPc α}
    (hclient : t.client = Function.update s.client c pc) (hsender : t.sender = s.sender)
    (hjoinable : t.joinable = s.joinable) (hnotifies : (s.client c).notifies = false)
    (hcreating : pc.creating = true → s.joinable = false)
    (hjoining : pc.joining = true → (s.client c).joining = true) : t.Closable where
  creating := creating_of_update hclient hjoinable h.creating hcreating
  waiting hw := by
    rcases h.waiting (hsender ▸ hw) with ⟨d, hd⟩ | hnone
    · have hne : d ≠ c := by
        rintro rfl
        rw [hnotifies] at hd
        cases hd
      exact .inl ⟨d, by rw [hclient, Function.update_of_ne hne]; exact hd⟩
    · refine .inr fun d => ?_
      rw [hclient]
      by_cases hd : d = c
      · subst hd
        rw [Function.update_self]
        by_contra hpc
        exact Bool.eq_false_iff.mp (hnone d) (hjoining ((Bool.not_eq_false _).mp hpc))
      · rw [Function.update_of_ne hd]
        exact hnone d

omit [DecidableEq ι] in
/-- The sender goes on to a place where it does not wait. -/
theorem Closable.atSender {s : PacketSender ι α} (h : s.Closable) {t : PacketSender ι α}
    (hsender : t.sender ≠ .waiting) (hclient : t.client = s.client)
    (hjoinable : t.joinable = s.joinable) : t.Closable :=
  .awake hsender fun c hc => by
    rw [hjoinable]
    exact h.creating c (hclient ▸ hc)

omit [DecidableEq ι] in
theorem notifyAll_awake (s : PacketSender ι α) : s.notifyAll.sender ≠ .waiting := by
  unfold notifyAll
  split
  · nofun
  · assumption

/-- Behind its notification a client leaves the sender awake. -/
theorem notify_closable {s : PacketSender ι α} (h : s.Closable) {c : ι} {pc : ClientPc α}
    (hcreating : pc.creating = false) : (s.atClient c pc).notifyAll.Closable := by
  have hrest : (s.atClient c pc).notifyAll.client = Function.update s.client c pc ∧
      (s.atClient c pc).notifyAll.joinable = s.joinable := by
    unfold notifyAll
    split <;> exact ⟨rfl, rfl⟩
  refine .awake (notifyAll_awake _) (creating_of_update hrest.1 hrest.2 h.creating ?_)
  rw [hcreating]
  nofun

omit [DecidableEq ι] in
/-- The one creator holds `mStartMutex`. -/
theorem Consistent.creator {s : PacketSender ι α} (h : s.Consistent) {c d : ι}
    (hc : (s.client c).creating = true) (hd : (s.client d).creating = true) : c = d := by
  have hholds : ∀ k, (s.client k).creating = true →
      s.holder .mStartMutex = some (.client k) := by
    intro k hk
    refine (h.holders (.client k) .mStartMutex).mpr ?_
    show (s.client k).holds .mStartMutex = true
    cases hpc : s.client k with
    | initSocket | initSenderTask => rfl
    | _ =>
        rw [hpc] at hk
        cases hk
  have hsame := (hholds c hc).symm.trans (hholds d hd)
  cases hsame
  rfl

theorem createThread_closable {s : PacketSender ι α} (hs : s.Consistent) (h : s.Closable) {c : ι}
    (hc : s.client c = .initSenderTask) : (s.createThread c).Closable := by
  unfold createThread
  split
  · exact ⟨h.creating, h.waiting⟩
  · refine .awake nofun fun d hd => ?_
    have hother : d ≠ c := by
      rintro rfl
      have hhere : ((Function.update s.client d (.initReturn true)) d).creating = true := hd
      rw [Function.update_self] at hhere
      cases hhere
    have hcreating : ((Function.update s.client c (.initReturn true)) d).creating = true := hd
    rw [Function.update_of_ne hother] at hcreating
    exact absurd (hs.creator hcreating (by rw [hc]; rfl)) hother

theorem join_closable {s t : PacketSender ι α} (h : s.Closable) {c : ι}
    (ht : s.join c = some t) : t.Closable := by
  unfold join at ht
  split at ht
  · rcases Option.ite_none_right_eq_some.mp ht with ⟨-, ht⟩
    cases ht
    exact .awake nofun fun _ _ => rfl
  · cases ht
    exact ⟨h.creating, h.waiting⟩

theorem lockByClient_closable {s t : PacketSender ι α} (h : s.Closable) {c : ι} {m : SenderMutex}
    {pc : ClientPc α} (ht : s.lockByClient c m pc = some t)
    (hnotifies : (s.client c).notifies = false) (hcreating : pc.creating = false)
    (hjoining : pc.joining = false) : t.Closable := by
  rcases Option.ite_none_right_eq_some.mp ht with ⟨-, ht⟩
  cases ht
  refine h.follow rfl rfl rfl hnotifies ?_ ?_
  · rw [hcreating]
    nofun
  · rw [hjoining]
    nofun

theorem clientStep_closable {s t : PacketSender ι α} (hs : s.Consistent) (h : s.Closable) {c : ι}
    {ok : Bool} (hok : s.Orderly (.client c ok)) (ht : s.clientStep c ok = some t) :
    t.Closable := by
  unfold clientStep at ht
  cases hpc : s.client c with
  | idle =>
      rw [hpc] at ht
      cases ht
  | initLock | sendLock packet | flushLock =>
      rw [hpc] at ht
      exact lockByClient_closable h ht (by rw [hpc]; rfl) rfl rfl
  | initTest =>
      rw [hpc] at ht
      cases ht
      refine h.follow rfl rfl rfl (by rw [hpc]; rfl) ?_ ?_
      · split
        · nofun
        · rename_i hrunning
          exact fun _ => hok hpc ((Bool.not_eq_true _).mp hrunning)
      · split <;> nofun
  | initSocket =>
      rw [hpc] at ht
      cases ht
      refine h.follow rfl rfl rfl (by rw [hpc]; rfl) ?_ ?_
      · exact fun _ => h.creating c (by rw [hpc]; rfl)
      · split <;> nofun
  | initSenderTask =>
      rw [hpc] at ht
      cases ht
      split
      · exact createThread_closable hs h hpc
      · exact h.follow rfl rfl rfl (by rw [hpc]; rfl) nofun nofun
  | initReturn ret | sendReturn | flushReturn | sendPush packet | flushSwap | closeStore =>
      rw [hpc] at ht
      cases ht
      exact h.follow rfl rfl rfl (by rw [hpc]; rfl) nofun nofun
  | sendNotify | closeNotify =>
      rw [hpc] at ht
      cases ht
      exact notify_closable h rfl
  | closeTest =>
      rw [hpc] at ht
      cases ht
      refine h.follow rfl rfl rfl (by rw [hpc]; rfl) ?_ ?_ <;> split <;> nofun
  | closeJoinable =>
      rw [hpc] at ht
      cases ht
      refine h.follow rfl rfl rfl (by rw [hpc]; rfl) ?_ fun _ => by rw [hpc]; rfl
      split <;> nofun
  | closeJoin =>
      rw [hpc] at ht
      exact join_closable h ht

omit [DecidableEq ι] in
theorem senderStep_closable {s t : PacketSender ι α} (h : s.Closable) (hok : s.Orderly .sender)
    (ht : s.senderStep = some t) : t.Closable := by
  unfold senderStep at ht
  cases hpc : s.sender with
  | absent | waiting | exited =>
      rw [hpc] at ht
      cases ht
  | starting | relocking =>
      rw [hpc] at ht
      rcases Option.ite_none_right_eq_some.mp ht with ⟨-, ht⟩
      cases ht
      exact h.atSender nofun rfl rfl
  | entering first =>
      rw [hpc] at ht
      cases ht
      exact h.atSender nofun rfl rfl
  | atWait first =>
      rw [hpc] at ht
      cases ht
      exact ⟨h.creating, fun _ => hok ⟨first, hpc⟩⟩
  | draining =>
      rw [hpc] at ht
      cases ht
      split
      · exact h.atSender nofun rfl rfl
      · exact h.atSender (by rw [show (sendFront s).sender = s.sender from rfl, hpc]; nofun) rfl rfl
  | testing =>
      rw [hpc] at ht
      cases ht
      split <;> exact h.atSender nofun rfl rfl

theorem step_closable {s t : PacketSender ι α} {a : SenderAct ι α} (hs : s.Consistent)
    (h : s.Closable) (hok : s.Orderly a) (ht : s.step a = some t) : t.Closable := by
  unfold step at ht
  split at ht
  · cases ht
  · cases a with
    | call c f =>
        simp only [startCall] at ht
        split at ht
        · rename_i hidle
          cases ht
          refine h.follow rfl rfl rfl (by rw [hidle]; rfl) ?_ ?_ <;> cases f <;> exact fun hyes => by cases hyes
        · cases ht
    | client c ok => exact clientStep_closable hs h hok ht
    | sender => exact senderStep_closable h hok ht
    | spuriousWakeup =>
        rcases Option.ite_none_right_eq_some.mp ht with ⟨-, ht⟩
        cases ht
        exact h.atSender (fun hw => by cases hw) rfl rfl

/-- In an orderly run no second thread is ever made, and no `Close` waits for a sender that is
not about to be woken. -/
theorem orderly_oneThread {s : PacketSender ι α}
    (h : (system : System (PacketSender ι α) (SenderAct ι α)).Reaches Orderly s) :
    ¬ s.SecondThread ∧ ¬ s.JoinDeadlock := by
  have hinit : ∀ s : PacketSender ι α, system.init s → s.Consistent ∧ s.Closable := by
    rintro s rfl
    exact ⟨consistent_start, nofun, nofun⟩
  have hstep : ∀ (s : PacketSender ι α) (a : SenderAct ι α) (t : PacketSender ι α),
      s.Consistent ∧ s.Closable → s.Orderly a → system.step s a = some t →
        t.Consistent ∧ t.Closable :=
    fun _ _ _ hs hok ht => ⟨step_consistent hs.1 ht, step_closable hs.1 hs.2 hok ht⟩
  have hinv := h.invariant hinit hstep
  exact ⟨hinv.2.not_secondThread hinv.1, hinv.2.not_joinDeadlock⟩

end

/-! ## Runs of one client -/

/-- `Init` up to its return. -/
def initCall : List (SenderAct Unit Nat) :=
  .call () .Init :: List.replicate 5 (.client () true)

def orderlyTest (s : PacketSender Unit Nat) : SenderAct Unit Nat → Bool
  | .client _ _ => s.client () ≠ .initTest || s.running || !s.joinable
  | .sender => match s.sender with
      | .atWait _ => (s.client ()).notifies || !(s.client ()).joining
      | _ => true
  | _ => true

theorem orderlyTest_orderly (s : PacketSender Unit Nat) (a : SenderAct Unit Nat)
    (h : orderlyTest s a = true) : s.Orderly a := by
  cases a with
  | client c ok =>
      intro hpc hrunning
      simpa [orderlyTest, hpc, hrunning] using h
  | sender =>
      rintro ⟨first, hwait⟩
      simp only [orderlyTest, hwait, Bool.or_eq_true, Bool.not_eq_true'] at h
      rcases h with h | h
      · exact .inl ⟨(), h⟩
      · exact .inr fun _ => h
  | call c f => trivial
  | spuriousWakeup => trivial

/-- `Close` after the sender has come to its wait, up to the join. -/
def closeWaiting : List (SenderAct Unit Nat) :=
  initCall ++ [.sender, .sender, .sender, .call () .Close] ++ List.replicate 4 (.client () true)

theorem closeWaiting_oneThread : ∃ s : PacketSender Unit Nat,
    s.client () = .closeJoin ∧ ¬ s.SecondThread ∧ ¬ s.JoinDeadlock := by
  have hend : ∃ s, (system : System (PacketSender Unit Nat) _).run {} closeWaiting = some s ∧
      s.client () = .closeJoin := ⟨_, rfl, rfl⟩
  rcases hend with ⟨s, hrun, hclient⟩
  have hok : (system : System (PacketSender Unit Nat) _).RunOk Orderly {} closeWaiting :=
    System.runOk_of_checkRun orderlyTest_orderly rfl
  exact ⟨s, hclient, orderly_oneThread (System.Reaches.run (.init rfl) hok hrun)⟩

/-- A second `Init` before the sender has run, up to the new thread. -/
def initTwice : List (SenderAct Unit Nat) :=
  initCall ++ .call () .Init :: List.replicate 3 (.client () true)

/-- `Close` while the sender is between its store of `running` and its wait. -/
def closeBeforeWait : List (SenderAct Unit Nat) :=
  initCall ++ [.sender, .sender, .call () .Close] ++ List.replicate 4 (.client () true) ++ [.sender]

theorem initTwice_closeBeforeWait :
    (¬ ∀ s, (system : System (PacketSender Unit Nat) _).Reachable s → ¬ s.SecondThread) ∧
    ¬ ∀ s, (system : System (PacketSender Unit Nat) _).Reachable s → ¬ s.JoinDeadlock := by
  constructor
  · intro hclaim
    have hend : ∃ s, (system : System (PacketSender Unit Nat) _).run {} initTwice = some s ∧
        s.client () = .initSenderTask ∧ s.joinable = true := ⟨_, rfl, rfl, rfl⟩
    rcases hend with ⟨s, hrun, hclient, hjoinable⟩
    exact hclaim s (System.reachable_of_run rfl hrun) ⟨(), hclient, .inl hjoinable⟩
  · intro hclaim
    have hend : ∃ s, (system : System (PacketSender Unit Nat) _).run {} closeBeforeWait = some s ∧
        s.client () = .closeJoin ∧ s.sender = .waiting := ⟨_, rfl, rfl, rfl⟩
    rcases hend with ⟨s, hrun, hclient, hsender⟩
    refine hclaim s (System.reachable_of_run rfl hrun) ⟨⟨(), hclient⟩, hsender, ?_⟩
    rintro ⟨c, hc⟩
    rw [show s.client c = .closeJoin from hclient] at hc
    cases hc

end PacketSender
end PlayerInterface.Subtec
