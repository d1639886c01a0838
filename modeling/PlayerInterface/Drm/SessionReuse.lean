import PlayerInterface.Drm.Calls

/-!
# Reuse of sessions

`getDrmSession` overwrites the cached ids of a slot before it compares them with
the key of the session that is still there, and it returns that session for any
key in the new list. The session was made for the requested key when the ids a
slot holds never grow past those its session was made for.
-/

namespace PlayerInterface.Drm

open PlayerInterface.Core

/-! ## The session section -/

/-- A session object that stays, possibly in another state. -/
structure SameSession (c c' : DrmSessionContext) : Prop where
  data : c'.data = c.data
  session : ∀ session', c'.drmSession = some session' →
    ∃ session, c.drmSession = some session ∧ session'.keys = session.keys ∧
      session'.keySystem = session.keySystem

theorem SameSession.refl (c : DrmSessionContext) : SameSession c c :=
  ⟨rfl, fun session' h => ⟨session', h, rfl, rfl⟩⟩

theorem sameSession_setState (m : DrmSessionManager) (slot : Nat) (st : KeyState) (i : Nat) :
    SameSession (m.drmSessionContexts i) ((m.setState slot st).drmSessionContexts i) := by
  by_cases hi : i = slot
  · subst hi
    refine ⟨by simp [DrmSessionManager.setState], fun session' h => ?_⟩
    rw [m.setState_drmSession, if_pos rfl] at h
    rcases Option.map_eq_some_iff.mp h with ⟨session, hs, rfl⟩
    exact ⟨session, hs, rfl, rfl⟩
  · have hsame : (m.setState slot st).drmSessionContexts i = m.drmSessionContexts i := by
      simp [DrmSessionManager.setState, hi]
    rw [hsame]
    exact .refl _

theorem createSession_context (build : BuildConfig) (m : DrmSessionManager) (helper : DrmHelper)
    (slot : Nat) (fresh : KeyState) {session : DrmSession}
    (h : ((m.createSession build helper slot fresh).2.drmSessionContexts slot).drmSession =
      some session) : session.keys = helper.keyIdArrays := by
  unfold DrmSessionManager.createSession at h
  cases hg : DrmSessionFactory.GetDrmSession build helper fresh with
  | none => simp [hg] at h
  | some made =>
      simp only [hg, DrmSessionManager.setContext_drmSessionContexts, if_true,
        Option.some.injEq] at h
      subst h
      simp only [DrmSessionFactory.GetDrmSession] at hg
      split_ifs at hg <;> cases hg <;> rfl

theorem createSession_other (build : BuildConfig) (m : DrmSessionManager) (helper : DrmHelper)
    {slot i : Nat} (fresh : KeyState) (hi : i ≠ slot) :
    (m.createSession build helper slot fresh).2.drmSessionContexts i = m.drmSessionContexts i := by
  unfold DrmSessionManager.createSession
  cases DrmSessionFactory.GetDrmSession build helper fresh <;> simp [hi]

/-- The session section makes a session, or keeps one of the helper's key
system whose key the slot still caches. -/
theorem openSession_cases (build : BuildConfig) (m : DrmSessionManager) (helper : DrmHelper)
    (slot : Nat) (fresh : KeyState) (wait : DrmSessionManager.WaitResult) :
    (m.Builds helper slot ∧
      m.openSession build helper slot fresh wait = m.createSession build helper slot fresh) ∨
    (∃ session, (m.drmSessionContexts slot).drmSession = some session ∧
      helper.ocdmSystemId = session.keySystem ∧
      (m.drmSessionContexts slot).data ∈ (m.cachedKeyIDs slot).data ∧
      ((m.openSession build helper slot fresh wait).2.drmSessionContexts slot).drmSession ≠ none ∧
      ∀ i, SameSession (m.drmSessionContexts i)
        ((m.openSession build helper slot fresh wait).2.drmSessionContexts i)) := by
  have hopens := m.openSession_opens build helper slot fresh wait
  generalize m.openSession build helper slot fresh wait = r at hopens
  cases hopens with
  | builds hbuilds => exact Or.inl ⟨hbuilds, rfl⟩
  | keeps session r hd hsys hkey hkeeps =>
      refine Or.inr ⟨session, hd, hsys, hkey, ?_⟩
      have hhere : (m.drmSessionContexts slot).drmSession ≠ none := by
        rw [hd]
        exact Option.some_ne_none session
      have hset : ∀ st, ((m.setState slot st).drmSessionContexts slot).drmSession ≠ none :=
        fun st hnone => hhere ((setState_eq_none m slot st).mp hnone)
      cases hkeeps with
      | reached => exact ⟨hset _, fun i => sameSession_setState m slot _ i⟩
      | missed state => exact ⟨hset _, fun i => sameSession_setState m slot state i⟩
      | _ => exact ⟨hhere, fun i => .refl _⟩

/-! ## Runs that keep the keys of a session -/

/-- A helper that fills a slot brings no key its session was not made for, when
the session stays; and a session is made for all ids its slot caches. -/
structure KeepsKeys (s : State) (a : Act) : Prop where
  fill : ∀ helper slot, Fills s a helper slot →
    ∀ session, (s.manager.drmSessionContexts slot).drmSession = some session →
      helper.ocdmSystemId = session.keySystem →
      (s.manager.drmSessionContexts slot).data ∈ helper.keyIdArrays →
      helper.keyIdArrays ⊆ session.keys
  build : ∀ helper slot create, s.point = .selected helper slot create →
    (∃ fresh wait, a = .openSession fresh wait) → s.manager.Builds helper slot →
    (s.manager.cachedKeyIDs slot).data ⊆ helper.keyIdArrays

/-- A session whose key its slot caches was made for every key the slot caches,
but for the moment between the two sections of a call that will replace it. -/
structure ReuseInv (s : State) : Prop where
  kept : ∀ i session, (s.manager.drmSessionContexts i).drmSession = some session →
    (s.manager.drmSessionContexts i).data ∈ (s.manager.cachedKeyIDs i).data →
    (s.manager.cachedKeyIDs i).data ⊆ session.keys ∨
      ∃ helper create, s.point = .selected helper i create ∧
        helper.ocdmSystemId ≠ session.keySystem
  requested : ∀ helper slot create, s.point = .selected helper slot create →
    (s.manager.cachedKeyIDs slot).data = [] ∨
      helper.getKey ∈ (s.manager.cachedKeyIDs slot).data

/-- Outside the two sections of a call. -/
def State.Settled (s : State) : Prop := ∀ helper slot create, s.point ≠ .selected helper slot create

/-- Sessions that stay and slots that lose ids keep the invariant. -/
theorem ReuseInv.keep {s t : State} (h : ReuseInv s) (hs : s.Settled ∨ t.point = s.point)
    (ht : t.Settled ∨ t.point = s.point)
    (hcontext : ∀ i, SameSession (s.manager.drmSessionContexts i) (t.manager.drmSessionContexts i) ∨
      (t.manager.drmSessionContexts i).drmSession = none)
    (hdata : ∀ i, (t.manager.cachedKeyIDs i).data = (s.manager.cachedKeyIDs i).data ∨
      (t.manager.cachedKeyIDs i).data = []) : ReuseInv t where
  kept i session' hsession' hmem := by
    rcases hcontext i with hsame | hnone
    · rcases hsame.session session' hsession' with ⟨session, hsession, hkeys, hsystem⟩
      rcases hdata i with hd | hd
      · rw [hd, hsame.data] at hmem
        rw [hd, hkeys, hsystem]
        rcases h.kept i session hsession hmem with hsub | ⟨helper, create, hp, hne⟩
        · exact Or.inl hsub
        · rcases hs with hs | hs
          · exact absurd hp (hs helper i create)
          · exact Or.inr ⟨helper, create, hs ▸ hp, hne⟩
      · rw [hd] at hmem
        exact absurd hmem List.not_mem_nil
    · rw [hnone] at hsession'
      cases hsession'
  requested helper slot create hp := by
    rcases ht with ht | ht
    · exact absurd hp (ht helper slot create)
    · rcases hdata slot with hd | hd
      · rw [hd]
        exact h.requested helper slot create (ht ▸ hp)
      · exact Or.inl hd

theorem cleared_keep {m m' : DrmSessionManager} {a : Act} (h : m.cleared a = some m') (i : Nat) :
    (SameSession (m.drmSessionContexts i) (m'.drmSessionContexts i) ∨
      (m'.drmSessionContexts i).drmSession = none) ∧
    ((m'.cachedKeyIDs i).data = (m.cachedKeyIDs i).data ∨ (m'.cachedKeyIDs i).data = []) := by
  cases a with
  | setSessionMgrState state =>
      cases h
      exact ⟨Or.inl (.refl _), Or.inl rfl⟩
  | clearFailedKeyIds =>
      cases h
      refine ⟨Or.inl (.refl _), ?_⟩
      simp only [DrmSessionManager.clearFailedKeyIds]
      split_ifs
      · exact Or.inr rfl
      · exact Or.inl rfl
      · exact Or.inl rfl
  | clearSessionData =>
      cases h
      simp only [DrmSessionManager.clearSessionData]
      refine ⟨?_, ?_⟩
      · split_ifs
        · exact Or.inr rfl
        · exact Or.inl (.refl _)
      · split_ifs
        · exact Or.inr rfl
        · exact Or.inl rfl
  | clearDrmSession force =>
      cases h
      refine ⟨?_, Or.inl rfl⟩
      simp only [DrmSessionManager.clearDrmSession]
      split_ifs
      · exact Or.inr rfl
      · exact Or.inl (.refl _)
  | UpdateMaxDRMSessions n =>
      cases h
      simp only [DrmSessionManager.UpdateMaxDRMSessions]
      split_ifs
      · exact ⟨Or.inr rfl, Or.inr rfl⟩
      · exact ⟨Or.inl (.refl _), Or.inl rfl⟩
  | _ => cases h

theorem clear_point (s : State) (m : DrmSessionManager) :
    (s.clear m).point = s.point ∨ (s.Settled ∧ (s.clear m).Settled) := by
  unfold State.clear State.Settled
  cases s.point with
  | idle r => exact Or.inr ⟨fun _ _ _ => Point.noConfusion, fun _ _ _ => Point.noConfusion⟩
  | _ => exact Or.inl rfl

theorem behind_settled (helper : DrmHelper) (slot : Nat) (create : Bool) (code : KeyState)
    (m : DrmSessionManager) :
    ({ manager := m, point := .behind helper slot create code } : State).Settled := by
  intro helper' slot' create'
  unfold Point.behind
  cases create with
  | true => cases code <;> exact Point.noConfusion
  | false => exact Point.noConfusion

/-- A call keeps the invariant over its first section. -/
theorem ReuseInv.select {s : State} (h : ReuseInv s) (hs : s.Settled) {a : Act}
    {helper : DrmHelper} {create : Bool} (hcall : a.call = some (helper, create))
    (hactive : create = true → s.manager.sessionMgrState = .eSESSIONMGR_ACTIVE)
    (hk : KeepsKeys s a) (now : Int) (p : Bool) : ReuseInv (s.select helper now p create) := by
  have hleft : ∀ i session, (s.manager.drmSessionContexts i).drmSession = some session →
      (s.manager.drmSessionContexts i).data ∈ (s.manager.cachedKeyIDs i).data →
      (s.manager.cachedKeyIDs i).data ⊆ session.keys := by
    intro i session hsession hmem
    rcases h.kept i session hsession hmem with hsub | ⟨helper', create', hp, -⟩
    · exact hsub
    · exact absurd hp (hs helper' i create')
  unfold State.select
  rcases s.manager.selectSlot_cases helper now p with hnone | ⟨slot, hc, -, hsel⟩ |
    ⟨slot, hkey, hc, ho, hsel⟩
  · rw [hnone]
    exact ⟨fun i session hsession hmem => Or.inl (hleft i session hsession hmem),
      fun _ _ _ => Point.noConfusion⟩
  · rw [hsel]
    refine ⟨fun i session hsession hmem => Or.inl ?_, fun helper' slot' create' hp => Or.inr ?_⟩
    · rw [DrmSessionManager.touch_data] at hmem ⊢
      exact hleft i session hsession hmem
    · cases hp
      rw [DrmSessionManager.touch_data]
      exact (DrmSessionManager.cachedSlot_some hc).2
  · rw [hsel]
    have hf : Fills s a helper slot := ⟨⟨create, hcall, hactive⟩, hkey, hc, ho⟩
    refine ⟨fun i session hsession hmem => ?_, fun helper' slot' create' hp => Or.inr ?_⟩
    · rw [DrmSessionManager.touch_data, DrmSessionManager.fill_data] at hmem ⊢
      by_cases hi : i = slot
      · subst hi
        rw [if_pos rfl] at hmem ⊢
        by_cases hsystem : helper.ocdmSystemId = session.keySystem
        · exact Or.inl (hk.fill helper i hf session hsession hsystem hmem)
        · exact Or.inr ⟨helper, create, rfl, hsystem⟩
      · rw [if_neg hi] at hmem ⊢
        exact Or.inl (hleft i session hsession hmem)
    · cases hp
      rw [DrmSessionManager.touch_data, DrmSessionManager.fill_data, if_pos rfl]
      exact helper.getKey_mem

/-- And over its second. -/
theorem ReuseInv.opened {build : BuildConfig} {s : State} (h : ReuseInv s) {helper : DrmHelper}
    {slot : Nat} {create : Bool} (hp : s.point = .selected helper slot create)
    {fresh : KeyState} {wait : DrmSessionManager.WaitResult}
    (hk : KeepsKeys s (.openSession fresh wait)) :
    ReuseInv { manager := (s.manager.openSession build helper slot fresh wait).2
               point := .behind helper slot create
                 (s.manager.openSession build helper slot fresh wait).1 } := by
  have hother : ∀ i session, i ≠ slot →
      (s.manager.drmSessionContexts i).drmSession = some session →
      (s.manager.drmSessionContexts i).data ∈ (s.manager.cachedKeyIDs i).data →
      (s.manager.cachedKeyIDs i).data ⊆ session.keys := by
    intro i session hi hsession hmem
    rcases h.kept i session hsession hmem with hsub | ⟨helper', create', hp', -⟩
    · exact hsub
    · rw [hp] at hp'
      cases hp'
      exact absurd rfl hi
  have hdata := (s.manager.openSession_data build helper slot fresh wait).1
  refine ⟨fun i session hsession hmem => Or.inl ?_, fun helper' slot' create' hp' => ?_⟩
  · dsimp only at hsession hmem ⊢
    rw [hdata i] at hmem ⊢
    rcases openSession_cases build s.manager helper slot fresh wait with ⟨hbuilds, hnew⟩ |
      ⟨session₀, hsession₀, hsystem, hkey, -, hsame⟩
    · rw [hnew] at hsession hmem
      by_cases hi : i = slot
      · subst hi
        rw [createSession_context build s.manager helper i fresh hsession]
        exact hk.build helper i create hp ⟨fresh, wait, rfl⟩ hbuilds
      · rw [createSession_other build s.manager helper fresh hi] at hsession hmem
        exact hother i session hi hsession hmem
    · rcases (hsame i).session session hsession with ⟨session₁, hsession₁, hkeys, -⟩
      rw [(hsame i).data] at hmem
      rw [hkeys]
      by_cases hi : i = slot
      · subst hi
        cases hsession₀.symm.trans hsession₁
        rcases h.kept i session₀ hsession₀ hmem with hsub | ⟨helper', create', hp', hne⟩
        · exact hsub
        · rw [hp] at hp'
          cases hp'
          exact absurd hsystem hne
      · exact hother i session₁ hi hsession₁ hmem
  · exact absurd hp' (behind_settled helper slot create _ _ helper' slot' create')

theorem reuseInv_step {build : BuildConfig} {s t : State} {a : Act} (h : ReuseInv s)
    (hk : KeepsKeys s a) (hstep : sessionStep build s a = some t) : ReuseInv t := by
  -- the steps behind the two sections change states and failure marks only
  have hlater : ∀ (t : State) (slot : Nat) (st : KeyState), s.Settled → t.Settled →
      t.manager.drmSessionContexts = (s.manager.setState slot st).drmSessionContexts →
      (∀ i, (t.manager.cachedKeyIDs i).data = (s.manager.cachedKeyIDs i).data) → ReuseInv t := by
    intro t slot st hs ht hcontext hdata
    refine h.keep (Or.inl hs) (Or.inl ht) (fun i => Or.inl ?_) (fun i => Or.inl (hdata i))
    rw [hcontext]
    exact sameSession_setState s.manager slot st i
  have hkeep : ∀ m, (∀ i, (SameSession (s.manager.drmSessionContexts i) (m.drmSessionContexts i) ∨
        (m.drmSessionContexts i).drmSession = none) ∧
      ((m.cachedKeyIDs i).data = (s.manager.cachedKeyIDs i).data ∨
        (m.cachedKeyIDs i).data = [])) → ReuseInv (s.clear m) := by
    intro m hm
    rcases clear_point s m with hp | ⟨hs, ht⟩
    · exact h.keep (Or.inr hp) (Or.inr hp) (fun i => (hm i).1) (fun i => (hm i).2)
    · exact h.keep (Or.inl hs) (Or.inl ht) (fun i => (hm i).1) (fun i => (hm i).2)
  cases sessionStep_cases hstep with
  | refused _ => exact hkeep s.manager fun i => ⟨Or.inl (.refl _), Or.inl rfl⟩
  | @started _ helper now p create r hp hcall hactive =>
      have hs : s.Settled := fun _ _ _ hp' => by
        rw [hp] at hp'
        cases hp'
      exact h.select hs hcall hactive hk now p
  | opened hp => exact h.opened hp hk
  | nullInit hp _ =>
      have hs : s.Settled := fun _ _ _ hp' => by
        rw [hp] at hp'
        cases hp'
      exact h.keep (Or.inl hs) (Or.inl fun _ _ _ => Point.noConfusion)
        (fun i => Or.inl (.refl _)) (fun i => Or.inl rfl)
  | @initFailed state fake helper slot hp =>
      refine hlater _ slot state (fun _ _ _ hp' => ?_) (fun _ _ _ => Point.noConfusion) rfl
        fun i => by simp [State.fail]
      rw [hp] at hp'
      cases hp'
  | @initialised fake helper slot hp _ =>
      refine hlater _ slot .KEY_INIT (fun _ _ _ hp' => ?_) (fun _ _ _ => Point.noConfusion) rfl
        fun i => rfl
      rw [hp] at hp'
      cases hp'
  | @licenseFailed code valid helper slot hp =>
      refine hlater _ slot code (fun _ _ _ hp' => ?_) (fun _ _ _ => Point.noConfusion) rfl
        fun i => by simp [State.fail]
      rw [hp] at hp'
      cases hp'
  | @nullLicense helper slot hp _ =>
      refine hlater _ slot .KEY_READY (fun _ _ _ hp' => ?_) (fun _ _ _ => Point.noConfusion) rfl
        fun i => rfl
      rw [hp] at hp'
      cases hp'
  | @licensedNull helper slot hp _ =>
      refine hlater _ slot .KEY_READY (fun _ _ _ hp' => ?_) (fun _ _ _ => Point.noConfusion) rfl
        fun i => rfl
      rw [hp] at hp'
      cases hp'
  | @licensed valid helper slot hp _ =>
      refine hlater _ slot .KEY_READY (fun _ _ _ hp' => ?_) (fun _ _ _ => Point.noConfusion) rfl
        fun i => rfl
      rw [hp] at hp'
      cases hp'
  | cleared hm _ => exact hkeep _ fun i => cleared_keep hm i

/-! ## What `getDrmSession` returns -/

/-- Whenever `getDrmSession` returns `KEY_READY`, the session in the selected
slot was made for the requested key. -/
def ReusesRight (build : BuildConfig) (s : State) : Prop :=
  ∀ helper slot create fresh wait, s.point = .selected helper slot create →
    (s.manager.openSession build helper slot fresh wait).1 = .KEY_READY →
    ∃ session, ((s.manager.openSession build helper slot fresh wait).2.drmSessionContexts
        slot).drmSession = some session ∧ helper.getKey ∈ session.keys

theorem createSession_ready {build : BuildConfig} {m : DrmSessionManager} {helper : DrmHelper}
    {slot : Nat} {fresh : KeyState}
    (h : (m.createSession build helper slot fresh).1 = .KEY_READY) :
    ∃ session, ((m.createSession build helper slot fresh).2.drmSessionContexts slot).drmSession =
      some session := by
  unfold DrmSessionManager.createSession at h ⊢
  cases hg : DrmSessionFactory.GetDrmSession build helper fresh with
  | none => simp [hg] at h
  | some session => exact ⟨session, by simp⟩

theorem ReuseInv.reusesRight {build : BuildConfig} {s : State} (h : ReuseInv s) :
    ReusesRight build s := by
  intro helper slot create fresh wait hp hready
  rcases openSession_cases build s.manager helper slot fresh wait with ⟨_, hnew⟩ |
    ⟨session, hsession, hsystem, hkey, hsome, hsame⟩
  · rw [hnew] at hready ⊢
    rcases createSession_ready hready with ⟨session, hsession⟩
    refine ⟨session, hsession, ?_⟩
    rw [createSession_context build s.manager helper slot fresh hsession]
    exact helper.getKey_mem
  · rcases Option.ne_none_iff_exists'.mp hsome with ⟨session', hsession'⟩
    rcases (hsame slot).session session' hsession' with ⟨session₁, hsession₁, hkeys, -⟩
    cases hsession.symm.trans hsession₁
    refine ⟨session', hsession', ?_⟩
    rw [hkeys]
    have hrequested : helper.getKey ∈ (s.manager.cachedKeyIDs slot).data := by
      rcases h.requested helper slot create hp with hnil | hmem
      · rw [hnil] at hkey
        exact absurd hkey List.not_mem_nil
      · exact hmem
    rcases h.kept slot session hsession hkey with hsub | ⟨helper', create', hp', hne⟩
    · exact hsub hrequested
    · rw [hp] at hp'
      cases hp'
      exact absurd hsystem hne

/-- A helper with one key. -/
def singleKeyHelper : DrmHelper where
  ocdmSystemId := CLEAR_KEY_SYSTEM_STRING
  getKey := [1]
  getKeys := []
  key_mem := Or.inl rfl

/-- A slot with a licensed session for one key is taken over by a helper for
another key that lists the first one too. -/
def takenOverRun : List Act :=
  let second : DrmHelper :=
    { ocdmSystemId := CLEAR_KEY_SYSTEM_STRING, getKey := [2], getKeys := [[1], [2]],
      key_mem := by simp }
  [.createDrmSession singleKeyHelper 10, .openSession .KEY_INIT .reached,
    .initializeDrmSession .KEY_INIT false, .AcquireLicenseCb .KEY_READY false,
    .createDrmSession second 20]

/-- The key state `getDrmSession` returns next, with the requested key and the
keys of the session in the slot. -/
def reuseAnswer (build : BuildConfig) (s : State) :
    Option (KeyIdBytes × KeyState × Option (List KeyIdBytes)) :=
  match s.point with
  | .selected helper slot _ =>
      let r := s.manager.openSession build helper slot .KEY_INIT .reached
      some (helper.getKey, r.1, (r.2.drmSessionContexts slot).drmSession.map DrmSession.keys)
  | _ => none

theorem ReusesRight.answer {build : BuildConfig} {s : State} (h : ReusesRight build s)
    {key : KeyIdBytes} {keys : List KeyIdBytes}
    (ha : reuseAnswer build s = some (key, .KEY_READY, some keys)) : key ∈ keys := by
  unfold reuseAnswer at ha
  cases hp : s.point with
  | selected helper slot create =>
      simp only [hp, Option.some.injEq, Prod.mk.injEq] at ha
      rcases ha with ⟨rfl, hready, hkeys⟩
      rcases h helper slot create _ _ hp hready with ⟨session, hsession, hmem⟩
      rw [hsession] at hkeys
      cases hkeys
      exact hmem
  | _ => simp [hp] at ha

end PlayerInterface.Drm
