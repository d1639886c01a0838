import PlayerInterface.SecManager.Sessions

/-!
# Ownership of sessions

A manager is registered as long as a handle shares it, so two managers of one
session are never shared at once. The destructor of the old one runs outside the
lock of the registry; until it has run, a new manager for the session may be made.
-/

namespace PlayerInterface.SecManager

open PlayerInterface.Core

variable {η : Type}

/-- Some handle shares the manager. -/
def State.Live (s : State η) (object : Nat) : Prop :=
  ∃ h ∈ s.handles, s.mpSessionManager h = some object

/-! ## The invariant -/

/-- How often a manager in this stage has been released. -/
def Stage.released : Stage → Nat
  | alive | destructing => 0
  | destroyed => 1

structure OwnInv (s : State η) : Prop where
  held : ∀ h n, s.mpSessionManager h = some n → h ∈ s.handles ∧
    ∃ o, s.objects n = some o ∧ o.stage = .alive
  alive : ∀ n o, s.objects n = some o → o.stage = .alive →
    s.Live n ∧ s.instances o.mID = some n
  fresh : ∀ n, s.next ≤ n → s.objects n = none
  positive : ∀ n o, s.objects n = some o → 0 < o.mID
  released : ∀ n, s.releases.count n = (s.objects n).elim 0 fun o => o.stage.released
  /-- a manager whose release is due is the last of its session -/
  alone : ∀ n m o o', s.objects n = some o → o.stage = .destructing →
    s.objects m = some o' → o'.stage = .alive → o'.mID ≠ o.mID

theorem State.expired_iff {s : State η} {n : Nat} : s.expired n = true ↔ ¬ s.Live n := by
  simp [State.expired, State.Live]

theorem OwnInv.live_iff {s : State η} (h : OwnInv s) {n : Nat} {o : SessionManager}
    (ho : s.objects n = some o) : s.Live n ↔ o.stage = .alive := by
  constructor
  · rintro ⟨g, hg, hp⟩
    rcases (h.held g n hp).2 with ⟨o', ho', halive⟩
    rw [ho] at ho'
    cases ho'
    exact halive
  · exact fun halive => (h.alive n o ho halive).1

theorem OwnInv.oneAlive {s : State η} (h : OwnInv s) {n m : Nat} {o o' : SessionManager}
    (hn : s.objects n = some o) (hm : s.objects m = some o') (ho : o.stage = .alive)
    (ho' : o'.stage = .alive) (hid : o.mID = o'.mID) : n = m := by
  have hregistered := (h.alive n o hn ho).2
  rw [hid, (h.alive m o' hm ho').2] at hregistered
  exact (Option.some.inj hregistered).symm

/-- A pointer that may be given to a handle. -/
def State.Shareable (s : State η) (p : Option Nat) : Prop :=
  ∀ n, p = some n → ∃ o, s.objects n = some o ∧ o.stage = .alive

theorem OwnInv.shareable {s : State η} (h : OwnInv s) (g : η) :
    s.Shareable (s.mpSessionManager g) := fun n hp => (h.held g n hp).2

/-! ## The registry -/

theorem removeExpired_instances {s : State η} {key : Int} {n : Nat} :
    s.removeExpired.instances key = some n ↔ s.instances key = some n ∧ s.Live n := by
  show (s.instances key).filter (fun n => !s.expired n) = some n ↔ _
  rw [Option.filter_eq_some_iff, Bool.not_eq_true', ← Bool.not_eq_true, State.expired_iff,
    not_not]

theorem OwnInv.removeExpired {s : State η} (h : OwnInv s) : OwnInv s.removeExpired where
  held := h.held
  alive n o ho halive := by
    have hbefore := h.alive n o ho halive
    exact ⟨hbefore.1, removeExpired_instances.mpr ⟨hbefore.2, hbefore.1⟩⟩
  fresh := h.fresh
  positive := h.positive
  released := h.released
  alone := h.alone

/-- The stage and the session of a manager do not depend on its hash. -/
theorem setInputSummaryHash_objects (s : State η) (n hash i : Nat) :
    (∀ o', (s.setInputSummaryHash n hash).objects i = some o' → ∃ o, s.objects i = some o ∧
      o'.mID = o.mID ∧ o'.stage = o.stage) ∧
    ∀ o, s.objects i = some o → ∃ o', (s.setInputSummaryHash n hash).objects i = some o' ∧
      o'.mID = o.mID ∧ o'.stage = o.stage := by
  have hsame : (∀ o', s.objects i = some o' → ∃ o, s.objects i = some o ∧
      o'.mID = o.mID ∧ o'.stage = o.stage) ∧
      ∀ o, s.objects i = some o → ∃ o', s.objects i = some o' ∧
        o'.mID = o.mID ∧ o'.stage = o.stage :=
    ⟨fun o' ho' => ⟨o', ho', rfl, rfl⟩, fun o ho => ⟨o, ho, rfl, rfl⟩⟩
  unfold State.setInputSummaryHash
  cases hn : s.objects n with
  | none => exact hsame
  | some o =>
      dsimp only
      split
      · by_cases hi : i = n
        · subst hi
          simp only [State.setObject_objects, if_true]
          exact ⟨fun o' ho' => by cases ho'; exact ⟨o, hn, rfl, rfl⟩,
            fun o₁ ho₁ => by rw [hn] at ho₁; cases ho₁; exact ⟨_, rfl, rfl, rfl⟩⟩
        · simp only [State.setObject_objects, if_neg hi]
          exact hsame
      · exact hsame

theorem setInputSummaryHash_rest (s : State η) (n hash : Nat) :
    (s.setInputSummaryHash n hash).handles = s.handles ∧
    (s.setInputSummaryHash n hash).mpSessionManager = s.mpSessionManager ∧
    (s.setInputSummaryHash n hash).next = s.next ∧
    (s.setInputSummaryHash n hash).instances = s.instances ∧
    (s.setInputSummaryHash n hash).releases = s.releases := by
  unfold State.setInputSummaryHash
  split
  · exact ⟨rfl, rfl, rfl, rfl, rfl⟩
  · split <;> exact ⟨rfl, rfl, rfl, rfl, rfl⟩

theorem OwnInv.setInputSummaryHash {s : State η} (h : OwnInv s) (m hash : Nat) :
    OwnInv (s.setInputSummaryHash m hash) := by
  rcases setInputSummaryHash_rest s m hash with ⟨hhandles, hpointer, hnext, hinstances, hreleases⟩
  have hobjects := setInputSummaryHash_objects s m hash
  refine ⟨?_, ?_, ?_, ?_, ?_, ?_⟩
  · intro k n hk
    rw [hpointer] at hk
    rw [hhandles]
    rcases h.held k n hk with ⟨hmem, o, ho, halive⟩
    rcases (hobjects n).2 o ho with ⟨o', ho', -, hstage⟩
    exact ⟨hmem, o', ho', hstage.trans halive⟩
  · intro n o' ho' halive
    rcases (hobjects n).1 o' ho' with ⟨o, ho, hid, hstage⟩
    rcases h.alive n o ho (hstage ▸ halive) with ⟨hlive, hreg⟩
    unfold State.Live
    rw [hhandles, hpointer, hinstances, hid]
    exact ⟨hlive, hreg⟩
  · intro n hn
    rw [hnext] at hn
    cases ho' : (s.setInputSummaryHash m hash).objects n with
    | none => rfl
    | some o' =>
        rcases (hobjects n).1 o' ho' with ⟨o, ho, -, -⟩
        rw [h.fresh n hn] at ho
        cases ho
  · intro n o' ho'
    rcases (hobjects n).1 o' ho' with ⟨o, ho, hid, -⟩
    rw [hid]
    exact h.positive n o ho
  · intro n
    rw [hreleases, h.released n]
    cases ho : s.objects n with
    | none =>
        cases ho' : (s.setInputSummaryHash m hash).objects n with
        | none => rfl
        | some o' =>
            rcases (hobjects n).1 o' ho' with ⟨o, hbefore, -, -⟩
            rw [ho] at hbefore
            cases hbefore
    | some o =>
        rcases (hobjects n).2 o ho with ⟨o', ho', -, hstage⟩
        rw [ho']
        show o.stage.released = o'.stage.released
        rw [hstage]
  · intro n k o₁' o₂' ho₁' hs₁ ho₂' hs₂
    rcases (hobjects n).1 o₁' ho₁' with ⟨o₁, ho₁, hid₁, hstage₁⟩
    rcases (hobjects k).1 o₂' ho₂' with ⟨o₂, ho₂, hid₂, hstage₂⟩
    rw [hid₁, hid₂]
    exact h.alone n k o₁ o₂ ho₁ (hstage₁ ▸ hs₁) ho₂ (hstage₂ ▸ hs₂)

/-! ## What is claimed of a run -/

variable [DecidableEq η]

/-- Sessions are released by their last manager alone, once, and after its last handle. -/
structure OwnsSessions (s : State η) : Prop where
  releasedAlone : ∀ n o t, s.objects n = some o → sessionStep s (.ReleaseSession n) = some t →
    ∀ m o', s.objects m = some o' → s.Live m → o'.mID ≠ o.mID
  oneLive : ∀ n m o o', s.objects n = some o → s.objects m = some o' → s.Live n → s.Live m →
    o.mID = o'.mID → n = m
  releasedOnce : ∀ n o, s.objects n = some o →
    (s.Live n → s.releases.count n = 0 ∧ sessionStep s (.ReleaseSession n) = none) ∧
    (¬ s.Live n → s.releases.count n = 0 ∧ sessionStep s (.ReleaseSession n) ≠ none ∨
      s.releases.count n = 1 ∧ sessionStep s (.ReleaseSession n) = none)

/-- No session is asked for between the end of its last handle and its release. -/
def ConstructsLate (s : State η) (a : Act η) : Prop :=
  ∀ h sessionID hash, a = .construct h sessionID hash →
    ∀ n o, s.objects n = some o → o.stage = .destructing → o.mID ≠ sessionID

/-! ## Handles come and go -/

theorem OwnInv.addHandle {s : State η} (h : OwnInv s) {g : η} (hg : g ∉ s.handles) {p : Option Nat}
    (hp : s.Shareable p) : OwnInv (s.addHandle g p) where
  held k n hk := by
    rw [State.addHandle_mpSessionManager] at hk
    rw [State.addHandle_handles]
    by_cases hkg : k = g
    · rw [if_pos hkg] at hk
      exact ⟨hkg ▸ Finset.mem_insert_self k s.handles, hp n hk⟩
    · rw [if_neg hkg] at hk
      exact ⟨Finset.mem_insert_of_mem (h.held k n hk).1, (h.held k n hk).2⟩
  alive n o ho halive := by
    rcases h.alive n o ho halive with ⟨⟨k, hk, hpk⟩, hreg⟩
    have hkg : k ≠ g := fun heq => hg (heq ▸ hk)
    refine ⟨⟨k, Finset.mem_insert_of_mem hk, ?_⟩, hreg⟩
    rw [State.addHandle_mpSessionManager, if_neg hkg]
    exact hpk
  fresh := h.fresh
  positive := h.positive
  released := h.released
  alone := h.alone

/-- A handle with pointer `p` in place of its old one, or none left of it. -/
structure Moved (s t : State η) (g : η) (p : Option Nat) : Prop where
  pointer : ∀ k, t.mpSessionManager k = if k = g then p else s.mpSessionManager k
  handles : ∀ k, t.mpSessionManager k ≠ none → (k ∈ t.handles ↔ k ∈ s.handles)
  objects : t.objects = s.objects
  next : t.next = s.next
  instances : t.instances = s.instances
  releases : t.releases = s.releases

/-- Managers other than the one the handle leaves stay shared. -/
theorem Moved.live {s t : State η} {g : η} {p : Option Nat} (hm : Moved s t g p) {n : Nat}
    (hn : s.Live n) (hold : s.mpSessionManager g ≠ some n) : t.Live n := by
  rcases hn with ⟨k, hk, hpk⟩
  have hkg : k ≠ g := fun heq => hold (heq ▸ hpk)
  have hpt : t.mpSessionManager k = some n := by
    rw [hm.pointer, if_neg hkg]
    exact hpk
  exact ⟨k, (hm.handles k (by rw [hpt]; exact Option.some_ne_none n)).mpr hk, hpt⟩

theorem Moved.held {s t : State η} {g : η} {p : Option Nat} (hm : Moved s t g p) (h : OwnInv s)
    (hp : s.Shareable p) (hg : g ∈ s.handles) {k : η} {n : Nat}
    (hk : t.mpSessionManager k = some n) :
    k ∈ t.handles ∧ ∃ o, t.objects n = some o ∧ o.stage = .alive := by
  have hiff := hm.handles k (by rw [hk]; exact Option.some_ne_none n)
  rw [hm.pointer] at hk
  rw [hm.objects]
  by_cases hkg : k = g
  · rw [if_pos hkg] at hk
    exact ⟨hiff.mpr (hkg ▸ hg), hp n hk⟩
  · rw [if_neg hkg] at hk
    exact ⟨hiff.mpr (h.held k n hk).1, (h.held k n hk).2⟩

/-- When every manager in use is still shared, the move is all that happened. -/
theorem OwnInv.moved {s t : State η} (h : OwnInv s) {g : η} {p : Option Nat} (hm : Moved s t g p)
    (hp : s.Shareable p) (hg : g ∈ s.handles)
    (hold : ∀ n, s.mpSessionManager g = some n → t.Live n) : OwnInv t where
  held k n hk := hm.held h hp hg hk
  alive n o ho halive := by
    rw [hm.objects] at ho
    rw [hm.instances]
    refine ⟨?_, (h.alive n o ho halive).2⟩
    by_cases hn : s.mpSessionManager g = some n
    · exact hold n hn
    · exact hm.live (h.alive n o ho halive).1 hn
  fresh n hn := by
    rw [hm.objects]
    exact h.fresh n (hm.next ▸ hn)
  positive n o ho := h.positive n o (hm.objects ▸ ho)
  released n := by
    rw [hm.releases, hm.objects]
    exact h.released n
  alone n m o o' ho hstage ho' hstage' := by
    rw [hm.objects] at ho ho'
    exact h.alone n m o o' ho hstage ho' hstage'

/-- The last handle leaves its manager. -/
theorem OwnInv.left {s t : State η} (h : OwnInv s) {g : η} {p : Option Nat} (hm : Moved s t g p)
    (hp : s.Shareable p) (hg : g ∈ s.handles) {m : Nat} {o : SessionManager}
    (hold : s.mpSessionManager g = some m) (hlast : ¬ t.Live m) (ho : s.objects m = some o)
    (halive : o.stage = .alive) : OwnInv (t.setObject m { o with stage := .destructing }) where
  held k n hk := by
    rcases hm.held h hp hg hk with ⟨hmem, o', ho', halive'⟩
    have hne : n ≠ m := fun heq => hlast (heq ▸ ⟨k, hmem, hk⟩)
    exact ⟨hmem, o', by rw [State.setObject_objects, if_neg hne]; exact ho', halive'⟩
  alive n o' ho' halive' := by
    rw [State.setObject_objects] at ho'
    by_cases hne : n = m
    · rw [if_pos hne] at ho'
      cases ho'
      cases halive'
    · rw [if_neg hne, hm.objects] at ho'
      have hbefore := h.alive n o' ho' halive'
      refine ⟨hm.live hbefore.1 fun heq => hne ?_, ?_⟩
      · exact (Option.some.inj (hold.symm.trans heq)).symm
      · show t.instances o'.mID = some n
        rw [hm.instances]
        exact hbefore.2
  fresh n hn := by
    have hn' : s.next ≤ n := hm.next ▸ hn
    have hne : n ≠ m := by
      rintro rfl
      rw [h.fresh n hn'] at ho
      cases ho
    rw [State.setObject_objects, if_neg hne, hm.objects]
    exact h.fresh n hn'
  positive n o' ho' := by
    rw [State.setObject_objects] at ho'
    by_cases hne : n = m
    · rw [if_pos hne] at ho'
      cases ho'
      exact h.positive m o ho
    · rw [if_neg hne, hm.objects] at ho'
      exact h.positive n o' ho'
  released n := by
    show t.releases.count n = _
    rw [hm.releases, h.released n, State.setObject_objects, hm.objects]
    by_cases hne : n = m
    · rw [if_pos hne, hne, ho]
      show o.stage.released = Stage.destructing.released
      rw [halive]
      rfl
    · rw [if_neg hne]
  alone n k o₁ o₂ ho₁ hstage₁ ho₂ hstage₂ := by
    rw [State.setObject_objects] at ho₁ ho₂
    by_cases hk : k = m
    · rw [if_pos hk] at ho₂
      cases ho₂
      cases hstage₂
    · rw [if_neg hk, hm.objects] at ho₂
      by_cases hn : n = m
      · rw [if_pos hn] at ho₁
        cases ho₁
        exact fun hid => hk (h.oneAlive ho₂ ho hstage₂ halive hid)
      · rw [if_neg hn, hm.objects] at ho₁
        exact h.alone n k o₁ o₂ ho₁ hstage₁ ho₂ hstage₂

/-- A handle leaves its manager for another pointer. -/
theorem OwnInv.dropped {s t : State η} (h : OwnInv s) {g : η} {p : Option Nat} (hm : Moved s t g p)
    (hp : s.Shareable p) (hg : g ∈ s.handles) : OwnInv (t.dropped (s.mpSessionManager g)) := by
  cases hold : s.mpSessionManager g with
  | none =>
      apply h.moved hm hp hg
      intro n hn
      rw [hold] at hn
      cases hn
  | some m =>
      rcases (h.held g m hold).2 with ⟨o, ho, halive⟩
      have ho' : t.objects m = some o := by
        rw [hm.objects]
        exact ho
      simp only [State.dropped, ho']
      by_cases hexp : t.expired m = true
      · rw [if_pos hexp]
        exact h.left hm hp hg hold (State.expired_iff.mp hexp) ho halive
      · rw [if_neg hexp]
        apply h.moved hm hp hg
        intro n hn
        cases hold.symm.trans hn
        exact Classical.byContradiction fun hno => hexp (State.expired_iff.mpr hno)

/-! ## New managers -/

/-- A manager made for a session of which none is in use or about to be released. -/
theorem OwnInv.newInstance {s : State η} (h : OwnInv s) {g : η} (hg : g ∉ s.handles)
    {sessionID : Int} (hpos : 0 < sessionID) (hnone : s.instances sessionID = none)
    (hlate : ∀ n o, s.objects n = some o → o.stage = .destructing → o.mID ≠ sessionID)
    (hash : Nat) : OwnInv ((s.newInstance sessionID hash).addHandle g (some s.next)) := by
  have hold : ∀ n o, s.objects n = some o → n ≠ s.next := by
    rintro n o ho rfl
    rw [h.fresh s.next (Nat.le_refl s.next)] at ho
    cases ho
  have hother : ∀ n o, s.objects n = some o → o.stage = .alive → o.mID ≠ sessionID := by
    intro n o ho halive hid
    have hreg := (h.alive n o ho halive).2
    rw [hid, hnone] at hreg
    cases hreg
  have hobjects : ∀ n, ((s.newInstance sessionID hash).addHandle g (some s.next)).objects n =
      if n = s.next then some { mID := sessionID, mInputSummaryHash := hash }
      else s.objects n := fun _ => rfl
  have hpointer : ∀ k, ((s.newInstance sessionID hash).addHandle g
      (some s.next)).mpSessionManager k = if k = g then some s.next else s.mpSessionManager k :=
    fun _ => rfl
  refine ⟨?_, ?_, ?_, ?_, ?_, ?_⟩
  · intro k n hk
    rw [hpointer] at hk
    rw [State.addHandle_handles]
    by_cases hkg : k = g
    · rw [if_pos hkg] at hk
      cases hk
      exact ⟨hkg ▸ Finset.mem_insert_self k _, _, by rw [hobjects, if_pos rfl], rfl⟩
    · rw [if_neg hkg] at hk
      rcases h.held k n hk with ⟨hmem, o, ho, halive⟩
      exact ⟨Finset.mem_insert_of_mem hmem, o, by rw [hobjects, if_neg (hold n o ho)]; exact ho,
        halive⟩
  · intro n o ho halive
    rw [hobjects] at ho
    by_cases hn : n = s.next
    · rw [if_pos hn] at ho
      cases ho
      subst hn
      refine ⟨⟨g, Finset.mem_insert_self g _, by rw [hpointer, if_pos rfl]⟩, ?_⟩
      exact if_pos rfl
    · rw [if_neg hn] at ho
      rcases h.alive n o ho halive with ⟨⟨k, hk, hpk⟩, hreg⟩
      have hkg : k ≠ g := fun heq => hg (heq ▸ hk)
      refine ⟨⟨k, Finset.mem_insert_of_mem hk, by rw [hpointer, if_neg hkg]; exact hpk⟩, ?_⟩
      exact (if_neg (hother n o ho halive)).trans hreg
  · intro n hn
    have hn' : s.next + 1 ≤ n := hn
    rw [hobjects, if_neg (by omega)]
    exact h.fresh n (by omega)
  · intro n o ho
    rw [hobjects] at ho
    by_cases hn : n = s.next
    · rw [if_pos hn] at ho
      cases ho
      exact hpos
    · rw [if_neg hn] at ho
      exact h.positive n o ho
  · intro n
    show s.releases.count n = _
    rw [h.released n, hobjects]
    by_cases hn : n = s.next
    · rw [if_pos hn, hn, h.fresh s.next (Nat.le_refl s.next)]
      rfl
    · rw [if_neg hn]
  · intro n k o₁ o₂ ho₁ hs₁ ho₂ hs₂
    rw [hobjects] at ho₁ ho₂
    by_cases hn : n = s.next
    · rw [if_pos hn] at ho₁
      cases ho₁
      cases hs₁
    · rw [if_neg hn] at ho₁
      by_cases hk : k = s.next
      · rw [if_pos hk] at ho₂
        cases ho₂
        exact (hlate n o₁ ho₁ hs₁).symm
      · rw [if_neg hk] at ho₂
        exact h.alone n k o₁ o₂ ho₁ hs₁ ho₂ hs₂

theorem OwnInv.construct {s : State η} (h : OwnInv s) {g : η} (hg : g ∉ s.handles)
    {sessionID : Int} {hash : Nat} (hk : ConstructsLate s (.construct g sessionID hash)) :
    OwnInv ((s.getInstance sessionID hash).2.addHandle g (s.getInstance sessionID hash).1) := by
  have hclean := h.removeExpired
  unfold State.getInstance
  by_cases hpos : 0 < sessionID
  · rw [if_pos hpos]
    cases hreg : s.removeExpired.instances sessionID with
    | none => exact hclean.newInstance hg hpos hreg (hk g sessionID hash rfl) hash
    | some n =>
        have hlive := (removeExpired_instances.mp hreg).2
        rcases hlive with ⟨k, hmem, hpk⟩
        rcases (h.held k n hpk).2 with ⟨o, ho, halive⟩
        rcases (setInputSummaryHash_objects s.removeExpired n hash n).2 o ho with
          ⟨o', ho', -, hstage⟩
        apply OwnInv.addHandle (hclean.setInputSummaryHash n hash)
        · rw [(setInputSummaryHash_rest s.removeExpired n hash).1]
          exact hg
        · intro m hm
          cases hm
          exact ⟨o', ho', hstage.trans halive⟩
  · rw [if_neg hpos]
    exact hclean.addHandle hg fun _ hn => by cases hn

/-! ## Runs -/

theorem ReleaseSession_eq {s : State η} {n : Nat} {o : SessionManager} (ho : s.objects n = some o) :
    sessionStep s (.ReleaseSession n) =
      if o.stage = .destructing then
        some { s.setObject n { o with stage := .destroyed } with
          releases := if 0 < o.mID then s.releases ++ [n] else s.releases }
      else none := by
  simp only [sessionStep, ho]

theorem OwnInv.release {s t : State η} (h : OwnInv s) {n : Nat}
    (hstep : sessionStep s (.ReleaseSession n) = some t) : OwnInv t := by
  cases ho : s.objects n with
  | none => simp [sessionStep, ho] at hstep
  | some o =>
      rw [ReleaseSession_eq ho] at hstep
      by_cases hstage : o.stage = .destructing
      · rw [if_pos hstage, if_pos (h.positive n o ho)] at hstep
        cases hstep
        refine ⟨?_, ?_, ?_, ?_, ?_, ?_⟩
        · intro k m hk
          rcases h.held k m hk with ⟨hmem, o', ho', halive⟩
          have hm : m ≠ n := by
            rintro rfl
            rw [ho] at ho'
            cases ho'
            rw [hstage] at halive
            cases halive
          exact ⟨hmem, o', by rw [State.setObject_objects, if_neg hm]; exact ho', halive⟩
        · intro m o' ho' halive
          rw [State.setObject_objects] at ho'
          by_cases hm : m = n
          · rw [if_pos hm] at ho'
            cases ho'
            cases halive
          · rw [if_neg hm] at ho'
            exact h.alive m o' ho' halive
        · intro m hm
          have hne : m ≠ n := by
            rintro rfl
            rw [h.fresh m hm] at ho
            cases ho
          rw [State.setObject_objects, if_neg hne]
          exact h.fresh m hm
        · intro m o' ho'
          rw [State.setObject_objects] at ho'
          by_cases hm : m = n
          · rw [if_pos hm] at ho'
            cases ho'
            exact h.positive n o ho
          · rw [if_neg hm] at ho'
            exact h.positive m o' ho'
        · intro m
          show (s.releases ++ [n]).count m = _
          rw [List.count_append, h.released m, State.setObject_objects]
          by_cases hm : m = n
          · rw [if_pos hm, hm, ho, List.count_singleton_self]
            show o.stage.released + 1 = 1
            rw [hstage]
            rfl
          · rw [if_neg hm, List.count_eq_zero_of_not_mem (by simpa using hm), Nat.add_zero]
        · intro m k o₁ o₂ ho₁ hs₁ ho₂ hs₂
          rw [State.setObject_objects] at ho₁ ho₂
          by_cases hm : m = n
          · rw [if_pos hm] at ho₁
            cases ho₁
            cases hs₁
          · by_cases hk : k = n
            · rw [if_pos hk] at ho₂
              cases ho₂
              cases hs₂
            · rw [if_neg hm] at ho₁
              rw [if_neg hk] at ho₂
              exact h.alone m k o₁ o₂ ho₁ hs₁ ho₂ hs₂
      · rw [if_neg hstage] at hstep
        cases hstep

theorem ownInv_step {s t : State η} {a : Act η} (h : OwnInv s) (hk : ConstructsLate s a)
    (hstep : sessionStep s a = some t) : OwnInv t := by
  have hsame : ∀ g p, Moved s (s.setPointer g p) g p :=
    fun g p => ⟨fun _ => rfl, fun _ _ => Iff.rfl, rfl, rfl, rfl, rfl⟩
  have hnone : s.Shareable none := fun _ hn => by cases hn
  cases a with
  | construct g sessionID hash =>
      simp only [sessionStep] at hstep
      split at hstep
      · cases hstep
      · rename_i hg
        cases hstep
        exact h.construct hg hk
  | constructInvalid g =>
      simp only [sessionStep] at hstep
      split at hstep
      · cases hstep
      · rename_i hg
        cases hstep
        exact h.addHandle hg hnone
  | copy g other =>
      simp only [sessionStep] at hstep
      split at hstep
      · rename_i hg
        cases hstep
        exact h.addHandle hg.1 (h.shareable other)
      · cases hstep
  | assign g other =>
      simp only [sessionStep] at hstep
      split at hstep
      · rename_i hg
        cases hstep
        exact h.dropped (hsame g _) (h.shareable other) hg.1
      · cases hstep
  | setSessionInvalid g =>
      simp only [sessionStep] at hstep
      split at hstep
      · rename_i hg
        cases hstep
        exact h.dropped (hsame g none) hnone hg
      · cases hstep
  | destroy g =>
      simp only [sessionStep] at hstep
      split at hstep
      · rename_i hg
        cases hstep
        refine h.dropped ⟨fun _ => rfl, fun k hk => ?_, rfl, rfl, rfl, rfl⟩ hnone hg
        have hkg : k ≠ g := by
          rintro rfl
          exact hk (if_pos rfl)
        exact Finset.mem_erase.trans (and_iff_right hkg)
      · cases hstep
  | ReleaseSession n => exact h.release hstep

theorem OwnInv.ownsSessions {s : State η} (h : OwnInv s) : OwnsSessions s where
  releasedAlone n o t ho hstep m o' ho' hlive := by
    rw [ReleaseSession_eq ho] at hstep
    split at hstep
    · rename_i hstage
      exact h.alone n m o o' ho hstage ho' ((h.live_iff ho').mp hlive)
    · cases hstep
  oneLive n m o o' ho ho' hn hm hid :=
    h.oneAlive ho ho' ((h.live_iff ho).mp hn) ((h.live_iff ho').mp hm) hid
  releasedOnce n o ho := by
    have hcount := h.released n
    rw [ho] at hcount
    rw [h.live_iff ho, ReleaseSession_eq ho, hcount]
    cases hstage : o.stage with
    | alive => simp [Stage.released, hstage]
    | destructing => simp [Stage.released, hstage]
    | destroyed => simp [Stage.released, hstage]

/-- In every run in which no session is asked for between the end of its last
handle and its release, each manager releases its session alone and once. -/
theorem ownsSessions_of_constructsLate {s : State η}
    (h : (sessionSystem η).Reaches ConstructsLate s) : OwnsSessions s := by
  have hinv : OwnInv s := by
    refine h.invariant (fun s hs => ?_) (fun _ _ _ hi hk hstep => ownInv_step hi hk hstep)
    rcases hs with rfl
    refine ⟨?_, ?_, fun _ _ => rfl, ?_, fun _ => rfl, ?_⟩
    · intro g n hn
      cases hn
    · intro n o ho
      cases ho
    · intro n o ho
      cases ho
    · intro n m o o' ho
      cases ho
  exact hinv.ownsSessions

/-- Two handles of one session, gone one after the other before the release. -/
def sharedRun : List (Act Nat) :=
  [.construct 0 7 1, .copy 1 0, .destroy 0, .destroy 1, .ReleaseSession 0]

theorem sharedRun_ownsSessions : ∃ s : State Nat, (sessionSystem Nat).run {} sharedRun = some s ∧
    s.releases = [0] ∧ OwnsSessions s := by
  have hinit : (sessionSystem Nat).init {} := rfl
  have hok : (sessionSystem Nat).RunOk ConstructsLate {} sharedRun := by
    intro t _
    constructor
    · intro _ _ _ _ n o ho
      cases ho
    · apply System.runOk_of_forall
      intro a ha s h sessionID hash heq
      rw [heq] at ha
      simp at ha
  exact ⟨_, rfl, rfl, ownsSessions_of_constructsLate (System.Reaches.run (.init hinit) hok rfl)⟩

/-- The session is asked for again before the destructor of its manager has run. -/
def reusedRun : List (Act Nat) :=
  [.construct 0 7 1, .destroy 0, .construct 1 7 1]

theorem reused_releasedInUse : ¬ ∀ s : State Nat,
    (sessionSystem Nat).Reachable s → OwnsSessions s := by
  intro hall
  have hrun : ((sessionSystem Nat).run {} reusedRun).map (fun s =>
      (s.objects 0, s.objects 1, s.mpSessionManager 1, decide (1 ∈ s.handles),
        (sessionStep s (.ReleaseSession 0)).isSome)) =
      some (some ⟨7, 1, .destructing⟩, some ⟨7, 1, .alive⟩, some 1, true, true) := by
    decide
  rcases Option.map_eq_some_iff.mp hrun with ⟨s, hs, hparts⟩
  have hinit : (sessionSystem Nat).init {} := rfl
  have howns := hall s (System.reachable_of_run hinit hs)
  simp only [Prod.mk.injEq, decide_eq_true_eq] at hparts
  rcases hparts with ⟨hold, hnew, hpointer, hhandle, hrelease⟩
  rcases Option.isSome_iff_exists.mp hrelease with ⟨t, ht⟩
  exact howns.releasedAlone 0 _ t hold ht 1 _ hnew ⟨1, hhandle, hpointer⟩ rfl

end PlayerInterface.SecManager
