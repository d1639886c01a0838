import PlayerInterface.SecManager.Ownership

/-!
# What the registry says of the managers in use

Every manager some handle shares is the one the registry has for its session, in every
reachable state and whether or not managers of closed sessions still wait for their release.
-/

namespace PlayerInterface.SecManager

open PlayerInterface.Core

variable {η : Type}

namespace State

def idOf (s : State η) (object : Nat) : Option Int := (s.objects object).map SessionManager.mID

/-- The session a handle stands for. -/
def sessionID (s : State η) (h : η) : Option Int := (s.mpSessionManager h).bind s.idOf

/-- Some handle stands for the session. -/
def Shares (s : State η) (id : Int) : Prop := ∃ h, s.sessionID h = some id

end State

structure Registered (s : State η) : Prop where
  held : ∀ g n, s.mpSessionManager g = some n →
    g ∈ s.handles ∧ ∃ id, s.idOf n = some id ∧ s.instances id = some n
  keyed : ∀ id n, s.instances id = some n → s.idOf n = some id
  fresh : ∀ n, s.next ≤ n → s.idOf n = none

theorem registered_initial : Registered ({} : State η) := ⟨nofun, nofun, fun _ _ => rfl⟩

theorem Registered.live_iff {s : State η} (h : Registered s) (n : Nat) :
    s.Live n ↔ ∃ g, s.mpSessionManager g = some n :=
  ⟨fun ⟨g, _, hp⟩ => ⟨g, hp⟩, fun ⟨g, hp⟩ => ⟨g, (h.held g n hp).1, hp⟩⟩

/-- Pointers move between handles; managers keep their sessions and the registry its entries. -/
theorem Registered.keep {s t : State η} (h : Registered s) (hids : t.idOf = s.idOf)
    (hinstances : t.instances = s.instances) (hnext : t.next = s.next)
    (hpointers : ∀ g n, t.mpSessionManager g = some n →
      g ∈ t.handles ∧ ∃ k, s.mpSessionManager k = some n) : Registered t where
  held g n hp := by
    obtain ⟨hmem, k, hk⟩ := hpointers g n hp
    rw [hids, hinstances]
    exact ⟨hmem, (h.held k n hk).2⟩
  keyed id n hn := by
    rw [hids]
    exact h.keyed id n (hinstances ▸ hn)
  fresh n hn := by
    rw [hids]
    exact h.fresh n (hnext ▸ hn)

/-! ## The parts of a step -/

theorem setObject_idOf {s : State η} {n : Nat} {o o' : SessionManager} (ho : s.objects n = some o)
    (hid : o'.mID = o.mID) : (s.setObject n o').idOf = s.idOf := by
  funext m
  unfold State.idOf
  rw [State.setObject_objects]
  by_cases hm : m = n
  · rw [if_pos hm, hm, ho, Option.map_some, Option.map_some, hid]
  · rw [if_neg hm]

theorem dropped_idOf (s : State η) (p : Option Nat) : (s.dropped p).idOf = s.idOf := by
  unfold State.dropped
  split
  · rfl
  · split
    · rfl
    · rename_i ho
      split
      · exact setObject_idOf ho rfl
      · rfl

theorem dropped_rest (s : State η) (p : Option Nat) :
    (s.dropped p).handles = s.handles ∧ (s.dropped p).mpSessionManager = s.mpSessionManager ∧
      (s.dropped p).next = s.next ∧ (s.dropped p).instances = s.instances := by
  unfold State.dropped
  split
  · exact ⟨rfl, rfl, rfl, rfl⟩
  · split
    · exact ⟨rfl, rfl, rfl, rfl⟩
    · split <;> exact ⟨rfl, rfl, rfl, rfl⟩

theorem setInputSummaryHash_idOf (s : State η) (n hash : Nat) :
    (s.setInputSummaryHash n hash).idOf = s.idOf := by
  unfold State.setInputSummaryHash
  split
  · rfl
  · rename_i ho
    split
    · exact setObject_idOf ho rfl
    · rfl

/-- The registry drops its expired entries. -/
theorem Registered.removeExpired {s : State η} (h : Registered s) : Registered s.removeExpired where
  held g n hp := by
    obtain ⟨hmem, id, hid, hinstance⟩ := h.held g n hp
    exact ⟨hmem, id, hid, removeExpired_instances.mpr ⟨hinstance, g, hmem, hp⟩⟩
  keyed id n hn := h.keyed id n (removeExpired_instances.mp hn).1
  fresh := h.fresh

/-- What `getInstance` gives for a session: the manager some handle shares, or a new one. -/
structure Instance (s t : State η) (id : Int) (n : Nat) : Prop where
  handles : t.handles = s.handles
  pointers : t.mpSessionManager = s.mpSessionManager
  registered : Registered t
  idOf : t.idOf n = some id
  keeps : ∀ m id', s.idOf m = some id' → t.idOf m = some id'
  registers : t.instances id = some n
  shared : s.Shares id ↔ ∃ g, s.mpSessionManager g = some n

theorem Registered.newInstance {s : State η} (h : Registered s) {id : Int} (hash : Nat)
    (hnone : s.instances id = none) : Instance s (s.newInstance id hash) id s.next := by
  have hids : ∀ m, (s.newInstance id hash).idOf m = if m = s.next then some id else s.idOf m := by
    intro m
    unfold State.idOf State.newInstance
    dsimp only
    rw [State.setObject_objects]
    split <;> rfl
  have hold : ∀ m id', s.idOf m = some id' → m ≠ s.next := by
    rintro m id' hm rfl
    rw [h.fresh s.next (Nat.le_refl _)] at hm
    cases hm
  have hkeeps : ∀ m id', s.idOf m = some id' → (s.newInstance id hash).idOf m = some id' := by
    intro m id' hm
    rw [hids, if_neg (hold m id' hm)]
    exact hm
  have hinstances : ∀ id', (s.newInstance id hash).instances id' =
      if id' = id then some s.next else s.instances id' := fun _ => rfl
  refine ⟨rfl, rfl, ⟨?_, ?_, ?_⟩, by rw [hids, if_pos rfl], hkeeps, by rw [hinstances, if_pos rfl], ?_⟩
  · intro g n hp
    obtain ⟨hmem, id', hid, hinstance⟩ := h.held g n hp
    refine ⟨hmem, id', hkeeps n id' hid, ?_⟩
    rw [hinstances, if_neg ?_]
    · exact hinstance
    · rintro rfl
      rw [hnone] at hinstance
      cases hinstance
  · intro id' n hn
    rw [hinstances] at hn
    by_cases hid : id' = id
    · rw [if_pos hid] at hn
      cases hn
      rw [hids, if_pos rfl, hid]
    · rw [if_neg hid] at hn
      exact hkeeps n id' (h.keyed id' n hn)
  · intro n hn
    have hlt : s.next + 1 ≤ n := hn
    rw [hids, if_neg (by omega)]
    exact h.fresh n (by omega)
  · refine iff_of_false ?_ ?_
    · rintro ⟨g, hg⟩
      obtain ⟨n, hp, hid⟩ := Option.bind_eq_some_iff.mp hg
      obtain ⟨-, id', hid', hinstance⟩ := h.held g n hp
      rw [hid] at hid'
      cases hid'
      rw [hnone] at hinstance
      cases hinstance
    · rintro ⟨g, hp⟩
      obtain ⟨-, id', hid, -⟩ := h.held g s.next hp
      exact hold s.next id' hid rfl

theorem Registered.getInstance {s : State η} (h : Registered s) {id : Int} (hpos : 0 < id)
    (hash : Nat) : ∃ n, (s.getInstance id hash).1 = some n ∧
      Instance s (s.getInstance id hash).2 id n := by
  have hclean := h.removeExpired
  unfold State.getInstance
  rw [if_pos hpos]
  cases hreg : s.removeExpired.instances id with
  | none =>
      have hnew := hclean.newInstance hash hreg
      exact ⟨s.next, rfl, hnew.handles, hnew.pointers, hnew.registered, hnew.idOf, hnew.keeps,
        hnew.registers, hnew.shared⟩
  | some n =>
      obtain ⟨hinstance, g, -, hp⟩ := removeExpired_instances.mp hreg
      have hid := h.keyed id n hinstance
      obtain ⟨hhandles, hpointers, hnext, hinstances, -⟩ :=
        setInputSummaryHash_rest s.removeExpired n hash
      have hids := setInputSummaryHash_idOf s.removeExpired n hash
      refine ⟨n, rfl, hhandles, hpointers, ?_, ?_, ?_, ?_, ?_⟩
      · refine hclean.keep hids hinstances hnext fun k m hk => ?_
        rw [hpointers] at hk
        rw [hhandles]
        exact ⟨(hclean.held k m hk).1, k, hk⟩
      · rw [hids]
        exact hid
      · intro m id' hm
        rw [hids]
        exact hm
      · rw [hinstances]
        exact hreg
      · exact iff_of_true ⟨g, Option.bind_eq_some_iff.mpr ⟨n, hp, hid⟩⟩ ⟨g, hp⟩

/-! ## Steps -/

/-- The handle an act is on. -/
def Act.target : Act η → Option η
  | construct h _ _ | constructInvalid h | copy h _ | assign h _ | setSessionInvalid h
  | destroy h => some h
  | ReleaseSession _ => none

/-- What other handles see of a step. -/
structure Keeps (s t : State η) (a : Act η) : Prop where
  registered : Registered t
  others : ∀ g, a.target ≠ some g →
    t.mpSessionManager g = s.mpSessionManager g ∧ (g ∈ t.handles ↔ g ∈ s.handles)
  idOf : ∀ m id, s.idOf m = some id → t.idOf m = some id

variable [DecidableEq η]

/-- A handle gets a pointer that another one has, or none, and its old manager is dropped. -/
theorem Registered.moved {s t : State η} (h : Registered s) {a : Act η} {g : η} {p q : Option Nat}
    (htarget : a.target = some g) (hobjects : t.objects = s.objects)
    (hinstances : t.instances = s.instances) (hnext : t.next = s.next)
    (hpointer : t.mpSessionManager = fun k => if k = g then p else s.mpSessionManager k)
    (hothers : ∀ k, k ≠ g → (k ∈ t.handles ↔ k ∈ s.handles))
    (hp : ∀ n, p = some n → g ∈ t.handles ∧ ∃ k, s.mpSessionManager k = some n) :
    Keeps s (t.dropped q) a := by
  obtain ⟨hdhandles, hdpointers, hdnext, hdinstances⟩ := dropped_rest t q
  have hids : (t.dropped q).idOf = s.idOf := by
    rw [dropped_idOf]
    unfold State.idOf
    rw [hobjects]
  have hne : ∀ k, a.target ≠ some k → k ≠ g := by
    rintro k hk rfl
    exact hk htarget
  refine ⟨h.keep hids (hdinstances.trans hinstances) (hdnext.trans hnext) ?_, ?_, ?_⟩
  · intro k n hk
    rw [hdpointers, hpointer] at hk
    rw [hdhandles]
    dsimp only at hk
    by_cases hkg : k = g
    · rw [if_pos hkg] at hk
      exact hkg ▸ hp n hk
    · rw [if_neg hkg] at hk
      exact ⟨(hothers k hkg).mpr (h.held k n hk).1, k, hk⟩
  · intro k hk
    rw [hdpointers, hdhandles, hpointer]
    exact ⟨if_neg (hne k hk), hothers k (hne k hk)⟩
  · rw [hids]
    exact fun _ _ hid => hid

theorem Registered.addHandle {s : State η} (h : Registered s) {a : Act η} {g : η} {p : Option Nat}
    (htarget : a.target = some g) (hp : ∀ n, p = some n → ∃ k, s.mpSessionManager k = some n) :
    Keeps s (s.addHandle g p) a := by
  refine h.moved (t := s.addHandle g p) (q := none) htarget rfl rfl rfl rfl ?_ ?_
  · exact fun k hk => Finset.mem_insert.trans (or_iff_right hk)
  · exact fun n hn => ⟨Finset.mem_insert_self g _, hp n hn⟩

theorem Registered.construct {s : State η} (h : Registered s) (g : η) (id : Int) (hash : Nat) :
    Keeps s ((s.getInstance id hash).2.addHandle g (s.getInstance id hash).1)
      (.construct g id hash) := by
  by_cases hpos : 0 < id
  · obtain ⟨n, hn, hinst⟩ := h.getInstance hpos hash
    rw [hn]
    refine ⟨⟨?_, hinst.registered.keyed, hinst.registered.fresh⟩, ?_, hinst.keeps⟩
    · intro k m hk
      rw [State.addHandle_mpSessionManager] at hk
      rw [State.addHandle_handles]
      by_cases hkg : k = g
      · rw [if_pos hkg] at hk
        cases hk
        exact ⟨hkg ▸ Finset.mem_insert_self k _, id, hinst.idOf, hinst.registers⟩
      · rw [if_neg hkg] at hk
        have hheld := hinst.registered.held k m hk
        exact ⟨Finset.mem_insert_of_mem hheld.1, hheld.2⟩
    · intro k hk
      have hkg : k ≠ g := by
        rintro rfl
        exact hk rfl
      rw [State.addHandle_mpSessionManager, if_neg hkg, hinst.pointers, State.addHandle_handles,
        hinst.handles]
      exact ⟨rfl, Finset.mem_insert.trans (or_iff_right hkg)⟩
  · have hnone : s.getInstance id hash = (none, s.removeExpired) := if_neg hpos
    rw [hnone]
    have hadd := h.removeExpired.addHandle (a := .construct g id hash) (p := none) rfl nofun
    exact ⟨hadd.registered, hadd.others, hadd.idOf⟩

theorem Registered.step {s t : State η} (h : Registered s) {a : Act η}
    (hstep : sessionStep s a = some t) : Keeps s t a := by
  cases a with
  | construct g id hash =>
      simp only [sessionStep] at hstep
      split at hstep <;> cases hstep
      exact h.construct g id hash
  | constructInvalid g =>
      simp only [sessionStep] at hstep
      split at hstep <;> cases hstep
      exact h.addHandle rfl fun n hn => by cases hn
  | copy g other =>
      simp only [sessionStep] at hstep
      split at hstep <;> cases hstep
      exact h.addHandle rfl fun n hn => ⟨other, hn⟩
  | assign g other =>
      simp only [sessionStep] at hstep
      split at hstep
      · rename_i hmem
        cases hstep
        exact h.moved rfl rfl rfl rfl rfl (fun _ _ => Iff.rfl) fun n hn => ⟨hmem.1, other, hn⟩
      · cases hstep
  | setSessionInvalid g =>
      simp only [sessionStep] at hstep
      split at hstep <;> cases hstep
      exact h.moved rfl rfl rfl rfl rfl (fun _ _ => Iff.rfl) fun n hn => by cases hn
  | destroy g =>
      simp only [sessionStep] at hstep
      split at hstep <;> cases hstep
      refine h.moved rfl rfl rfl rfl rfl (fun k hk => ?_) fun n hn => by cases hn
      exact Finset.mem_erase.trans (and_iff_right hk)
  | ReleaseSession object =>
      simp only [sessionStep] at hstep
      split at hstep
      · cases hstep
      · rename_i o ho
        split at hstep <;> cases hstep
        have hids : (s.setObject object { o with stage := .destroyed }).idOf = s.idOf :=
          setObject_idOf ho rfl
        refine ⟨h.keep hids rfl rfl fun g n hp => ⟨(h.held g n hp).1, g, hp⟩,
          fun _ _ => ⟨rfl, Iff.rfl⟩, fun m id hid => ?_⟩
        exact (congrFun hids m).trans hid

theorem registered_of_reachable {s : State η} (h : (sessionSystem η).Reachable s) :
    Registered s := by
  refine h.invariant ?_ fun _ _ _ hi _ hstep => (hi.step hstep).registered
  rintro s rfl
  exact registered_initial

end PlayerInterface.SecManager
