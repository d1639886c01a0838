import PlayerInterface.Core.Keyed
import PlayerInterface.Player.Timers

/-!
# Which timers are live

A live progress timer always is the recorded one. For the buffering timer this
needs that no message creates a second one and that nobody clears the id of a later
one; after `Stop` none is left if nothing is created behind its removals.
-/

namespace PlayerInterface.Player

open PlayerInterface.Core

namespace TimerStopPc

def pastDisable : TimerStopPc → Bool
  | idle | disable => false
  | _ => true

def pastTimerRemove : TimerStopPc → Bool
  | idle | disable | timerRemove => false
  | _ => true

/-- `Stop` has found no buffering timer or removed the one it found. -/
def pastBuffering : TimerStopPc → Bool
  | clearBuffering | waitSync | waitOthers | endBuffering | returning => true
  | _ => false

def pastWait : TimerStopPc → Bool
  | waitOthers | endBuffering | returning => true
  | _ => false

end TimerStopPc

namespace TimerState

variable {ι : Type} {s t : TimerState ι}

/-- At most one timer of each kind is live, under the recorded id, and none once a
`Stop` whose waits succeeded has returned. -/
structure Accounted (s : TimerState ι) : Prop where
  bufferingOnce : s.bufferingTimers.length ≤ 1
  bufferingId : ∀ id ∈ s.bufferingTimers, id = s.bufferingTimeoutTimerId
  progressOnce : s.progressTimers.length ≤ 1
  progressId : ∀ id ∈ s.progressTimers, id = s.periodicProgressCallbackIdleTaskId
  stopped : s.stopped = true → s.bufferingTimers = [] ∧ s.progressTimers = []

/-- A message creates a timer while none is live and `Stop` has not removed it yet;
`IdleCallback` creates one only before `TimerRemove` or after the next
`ConfigurePipeline`; the recorded id is cleared while no other timer carries it. -/
def KeepsAccount (s : TimerState ι) : TimerAct ι → Prop
  | .handler i => s.handlers[i]? = some .creating →
      s.bufferingTimers = [] ∧ s.stop.pastBuffering = false
  | .returnBuffering again => ∀ id, s.mainLoop = some id → s.buffering_in_progress = false →
      (∀ b ∈ s.bufferingTimers, b = id) ∧ (again = true → s.bufferingTimers = [])
  | .IdleCallback => s.idleCallback = .adding → s.periodicProgressCallbackIdleTaskId = 0 →
      s.stop.pastTimerRemove = false ∧ s.stopped = false
  | .Flush j => s.flushes j = .clearing → s.bufferingTimers = []
  | .ConfigurePipeline create => create = true → s.stop = .idle
  | _ => True

structure Inv (s : TimerState ι) : Prop where
  count : s.syncControl.mInstanceCount = s.handlers.length
  disabled : s.stop.pastDisable = true ∨ s.stopped = true → s.syncControl.mEnabled = false
  body : (s.stop.pastWait = true ∧ s.waitsOk = true) ∨ s.stopped = true →
    ∀ pc ∈ s.handlers, pc.inBody = false
  buffering : s.bufferingTimers = [] ∨ s.bufferingTimers = [s.bufferingTimeoutTimerId]
  progress : s.progressTimers = if s.periodicProgressCallbackIdleTaskId = 0 then []
    else [s.periodicProgressCallbackIdleTaskId]
  nonzero : 0 ∉ s.bufferingTimers
  fresh : s.bufferingTimeoutTimerId < s.nextSource
  apart : s.bufferingTimeoutTimerId ∉ s.progressTimers
  known : ∀ id ∈ s.progressTimers, id < s.nextSource
  running : ∀ id, s.mainLoop = some id → id < s.nextSource ∧ id ∉ s.progressTimers
  quietBuffering : s.stop.pastBuffering = true ∨ s.stopped = true → s.bufferingTimers = []
  quietProgress : s.stop.pastTimerRemove = true ∨ s.stopped = true → s.progressTimers = []

theorem Inv.accounted (h : s.Inv) : s.Accounted where
  bufferingOnce := by
    rcases h.buffering with hb | hb <;> simp [hb]
  bufferingId id hid := by
    rcases h.buffering with hb | hb <;> rw [hb] at hid
    · cases hid
    · exact List.mem_singleton.mp hid
  progressOnce := by
    rw [h.progress]
    split <;> simp
  progressId id hid := by
    rw [h.progress] at hid
    split at hid
    · cases hid
    · exact List.mem_singleton.mp hid
  stopped hs := ⟨h.quietBuffering (.inr hs), h.quietProgress (.inr hs)⟩

theorem inv_init : Inv ({} : TimerState ι) := by
  constructor <;> simp [TimerStopPc.pastDisable, TimerStopPc.pastBuffering,
    TimerStopPc.pastTimerRemove]

/-! ### Statements on the timers -/

/-- A buffering timer is created while none is live. -/
theorem inv_addBuffering (h : s.Inv) (hnone : s.bufferingTimers = [])
    (hquiet : s.stop.pastBuffering = false) (hstopped : s.stopped = false) :
    s.addBuffering.Inv := { h with
  buffering := by
    right
    show s.bufferingTimers ++ [s.nextSource] = _
    rw [hnone]
    rfl
  nonzero := by
    show 0 ∉ s.bufferingTimers ++ [s.nextSource]
    rw [hnone]
    have hpos := h.fresh
    simp only [List.nil_append, List.mem_singleton]
    omega
  fresh := Nat.lt_succ_self s.nextSource
  apart := fun hmem => Nat.lt_irrefl _ (h.known _ hmem)
  known := fun id hid => Nat.lt_succ_of_lt (h.known id hid)
  running := fun id hid => ⟨Nat.lt_succ_of_lt (h.running id hid).1, (h.running id hid).2⟩
  quietBuffering := by
    intro hq
    rcases hq with hq | hq
    · exact absurd hq (by rw [show s.addBuffering.stop = s.stop from rfl, hquiet]; simp)
    · exact absurd hq (by rw [show s.addBuffering.stopped = s.stopped from rfl, hstopped]; simp) }

/-- `TimerAdd`, which tests for a timer itself. -/
theorem inv_TimerAdd (h : s.Inv) (hok : s.periodicProgressCallbackIdleTaskId = 0 →
    s.stop.pastTimerRemove = false ∧ s.stopped = false) : s.TimerAdd.Inv := by
  unfold TimerAdd
  split
  case isFalse => exact h
  case isTrue hid =>
      rcases hok hid with ⟨hstop, hstopped⟩
      have hnone : s.progressTimers = [] := by rw [h.progress, if_pos hid]
      have hne : s.nextSource ≠ 0 := Nat.ne_of_gt (Nat.lt_of_le_of_lt (Nat.zero_le _) h.fresh)
      exact { h with
        progress := by
          show s.progressTimers ++ [s.nextSource] = if s.nextSource = 0 then _ else _
          rw [hnone, if_neg hne]
          rfl
        fresh := Nat.lt_succ_of_lt h.fresh
        apart := by
          show s.bufferingTimeoutTimerId ∉ s.progressTimers ++ [s.nextSource]
          rw [hnone]
          simp only [List.nil_append, List.mem_singleton]
          exact Nat.ne_of_lt h.fresh
        known := by
          intro id hid
          have hmem : id ∈ s.progressTimers ++ [s.nextSource] := hid
          rw [hnone] at hmem
          have heq := List.mem_singleton.mp hmem
          exact heq ▸ Nat.lt_succ_self _
        running := by
          intro id hid
          have hlt := (h.running id hid).1
          have hnew : id ∉ s.progressTimers ++ [s.nextSource] := by
            rw [hnone]
            simp only [List.nil_append, List.mem_singleton]
            exact Nat.ne_of_lt hlt
          exact ⟨Nat.lt_succ_of_lt hlt, hnew⟩
        quietProgress := by
          intro hq
          rcases hq with hq | hq
          · exact absurd (hstop.symm.trans hq) (by simp)
          · exact absurd (hstopped.symm.trans hq) (by simp) }

theorem filter_ne_of_notMem {id : Nat} {xs : List Nat} (h : id ∉ xs) :
    xs.filter (· ≠ id) = xs := by
  apply List.filter_eq_self.mpr
  intro x hx
  exact decide_eq_true fun heq => h (heq ▸ hx)

theorem filter_ne_sub_singleton {id : Nat} {xs : List Nat} (h : xs = [] ∨ xs = [id]) :
    xs.filter (· ≠ id) = [] := by
  rcases h with rfl | rfl <;> simp

theorem inv_TimerRemove (h : s.Inv) : s.TimerRemove.Inv ∧ s.TimerRemove.progressTimers = [] := by
  unfold TimerRemove
  split
  case isFalse hid =>
      refine ⟨h, ?_⟩
      rw [h.progress, if_pos (not_not.mp hid)]
  case isTrue hid =>
      have hp := h.progress
      rw [if_neg hid] at hp
      -- the recorded id belongs to no buffering timer
      have hb : s.periodicProgressCallbackIdleTaskId ∉ s.bufferingTimers := by
        intro hmem
        have heq := h.accounted.bufferingId _ hmem
        exact h.apart (by rw [hp, heq]; exact List.mem_singleton_self _)
      have hbuffering : (s.bufferingTimers.filter (· ≠ s.periodicProgressCallbackIdleTaskId)) =
          s.bufferingTimers := filter_ne_of_notMem hb
      have hprogress : (s.progressTimers.filter (· ≠ s.periodicProgressCallbackIdleTaskId)) = [] :=
        filter_ne_sub_singleton (.inr hp)
      refine ⟨?_, hprogress⟩
      exact { h with
        buffering := by
          show s.bufferingTimers.filter _ = [] ∨ s.bufferingTimers.filter _ = _
          rw [hbuffering]
          exact h.buffering
        progress := hprogress
        nonzero := fun hmem => h.nonzero (List.mem_filter.mp hmem).1
        apart := fun hmem => h.apart (List.mem_filter.mp hmem).1
        known := fun id hmem => h.known id (List.mem_filter.mp hmem).1
        running := fun id hid => ⟨(h.running id hid).1,
          fun hmem => (h.running id hid).2 (List.mem_filter.mp hmem).1⟩
        quietBuffering := fun hq => by
          show s.bufferingTimers.filter _ = []
          rw [hbuffering]
          exact h.quietBuffering hq
        quietProgress := fun _ => hprogress }

/-- A source that is no progress timer is removed. -/
theorem inv_g_source_remove (h : s.Inv) {id : Nat} (hid : id ∉ s.progressTimers) :
    (s.g_source_remove id).Inv := by
  have hprogress : s.progressTimers.filter (· ≠ id) = s.progressTimers := filter_ne_of_notMem hid
  exact { h with
    buffering := by
      show s.bufferingTimers.filter _ = [] ∨ s.bufferingTimers.filter _ = _
      rcases h.buffering with hb | hb <;> rw [hb]
      · exact .inl rfl
      · by_cases hx : s.bufferingTimeoutTimerId = id
        · exact .inl (by simp [hx])
        · exact .inr (by simp [hx, g_source_remove])
    progress := by
      show s.progressTimers.filter _ = _
      rw [hprogress]
      exact h.progress
    nonzero := fun hmem => h.nonzero (List.mem_filter.mp hmem).1
    apart := fun hmem => h.apart (List.mem_filter.mp hmem).1
    known := fun x hmem => h.known x (List.mem_filter.mp hmem).1
    running := fun x hx => ⟨(h.running x hx).1,
      fun hmem => (h.running x hx).2 (List.mem_filter.mp hmem).1⟩
    quietBuffering := fun hq => by
      show s.bufferingTimers.filter _ = []
      rw [h.quietBuffering hq]
      rfl
    quietProgress := fun hq => by
      show s.progressTimers.filter _ = []
      rw [h.quietProgress hq]
      rfl }

theorem Inv.remove_recorded (h : s.Inv) :
    (s.g_source_remove s.bufferingTimeoutTimerId).bufferingTimers = [] :=
  filter_ne_sub_singleton h.buffering

/-- The recorded id is cleared while no buffering timer is live. -/
theorem inv_clearId (h : s.Inv) (hnone : s.bufferingTimers = []) :
    Inv { s with bufferingTimeoutTimerId := 0 } := { h with
  buffering := .inl hnone
  fresh := Nat.lt_of_le_of_lt (Nat.zero_le _) h.fresh
  apart := by
    show 0 ∉ s.progressTimers
    rw [h.progress]
    split
    · exact List.not_mem_nil
    case isFalse hid => exact fun hmem => hid (List.mem_singleton.mp hmem).symm }

/-! ### The steps -/

theorem inv_handlerStep (h : s.Inv) {i : Nat} (hok : s.handlers[i]? = some .creating →
    s.bufferingTimers = [] ∧ s.stop.pastBuffering = false) (hstep : s.handlerStep i = some t) :
    t.Inv := by
  rcases Option.map_eq_some_iff.mp hstep with ⟨pc, hpc, rfl⟩
  rcases split_at_getElem hpc with ⟨pre, post, hlist, herase, hset⟩
  have hlength : ∀ x, (s.handlers.set i x).length = s.handlers.length := fun x => by simp
  -- the list of handlers changes in one place
  have hbody : ∀ x : AsyncDonePc, (s.syncControl.mEnabled = false → x.inBody = false) →
      (s.stop.pastWait = true ∧ s.waitsOk = true) ∨ s.stopped = true →
      ∀ y ∈ s.handlers.set i x, y.inBody = false := by
    intro x hx hq y hy
    have hdis : s.syncControl.mEnabled = false := by
      apply h.disabled
      rcases hq with ⟨hw, _⟩ | hq
      · left
        cases hs : s.stop <;> simp [hs, TimerStopPc.pastWait, TimerStopPc.pastDisable] at hw ⊢
      · exact .inr hq
    rcases List.mem_or_eq_of_mem_set hy with hold | rfl
    · exact h.body hq y hold
    · exact hx hdis
  have hmem : pc ∈ s.handlers := List.mem_of_getElem? hpc
  cases pc with
  | entered =>
      exact { h with
        count := h.count.trans (hlength _).symm
        body := hbody _ fun hdis => by simp [hdis, AsyncDonePc.inBody] }
  | testing =>
      have hout : ¬ ((s.stop.pastWait = true ∧ s.waitsOk = true) ∨ s.stopped = true) := fun hq => by
        cases h.body hq _ hmem
      exact { h with
        count := h.count.trans (hlength _).symm
        body := fun hq => absurd hq hout }
  | creating =>
      rcases hok hpc with ⟨hnone, hquiet⟩
      have hstopped : s.stopped = false := by
        by_contra hne
        cases h.body (.inr (by simpa using hne)) _ hmem
      have hadd := inv_addBuffering h hnone hquiet hstopped
      exact { hadd with
        count := h.count.trans (hlength _).symm
        body := hbody _ fun _ => rfl }
  | leaving =>
      exact { h with
        count := by
          show s.syncControl.mInstanceCount - 1 = (s.handlers.eraseIdx i).length
          rw [h.count, herase, hlist]
          simp only [List.length_append, List.length_cons]
          omega
        body := fun hq y hy => h.body hq y (List.mem_of_mem_eraseIdx hy) }

theorem inv_fireBuffering (h : s.Inv) {id : Nat} {completes : Bool}
    (hstep : s.fireBuffering id completes = some t) : t.Inv := by
  unfold fireBuffering at hstep
  split at hstep
  case isFalse => cases hstep
  case isTrue hfire =>
      cases hstep
      have hid := h.accounted.bufferingId id hfire.2
      exact { h with
        running := by
          intro x hx
          cases hx
          rw [hid]
          exact ⟨h.fresh, h.apart⟩ }

theorem inv_returnBuffering (h : s.Inv) {again : Bool}
    (hok : s.KeepsAccount (.returnBuffering again))
    (hstep : s.returnBuffering again = some t) : t.Inv := by
  rcases Option.map_eq_some_iff.mp hstep with ⟨id, hid, rfl⟩
  cases hp : s.buffering_in_progress with
  | true => exact { h with running := nofun }
  | false =>
      rcases hok id hid hp with ⟨hown, hagain⟩
      cases again with
      | true => exact { inv_clearId h (hagain rfl) with running := nofun }
      | false =>
          have hremoved := inv_g_source_remove h (h.running id hid).2
          have hnone : (s.g_source_remove id).bufferingTimers = [] := by
            apply List.filter_eq_nil_iff.mpr
            intro b hb
            simp [hown b hb]
          exact { inv_clearId hremoved hnone with running := nofun }

theorem inv_idleCallbackStep (h : s.Inv) (hok : s.idleCallback = .adding →
    s.periodicProgressCallbackIdleTaskId = 0 →
    s.stop.pastTimerRemove = false ∧ s.stopped = false) : s.idleCallbackStep.Inv := by
  unfold idleCallbackStep
  cases hpc : s.idleCallback with
  | idle => exact { h with }
  | testing =>
      dsimp only
      split
      · exact { h with }
      · exact { h with }
  | adding => exact { inv_TimerAdd h (hok hpc) with }

theorem inv_flushStep [DecidableEq ι] (h : s.Inv) {j : ι}
    (hok : s.flushes j = .clearing → s.bufferingTimers = []) : (s.flushStep j).Inv := by
  unfold flushStep
  cases hpc : s.flushes j with
  | idle => exact { h with }
  | testing => exact { h with }
  | removing => exact { inv_g_source_remove h h.apart with }
  | clearing => exact { inv_clearId h (hok hpc) with }

/-- `Stop` moves on to a position, when what its passed statements promise there holds. -/
theorem Inv.moveStop (h : s.Inv) {pc : TimerStopPc} {waitsOk : Bool}
    (hdisabled : pc.pastDisable = true → s.syncControl.mEnabled = false)
    (hbody : pc.pastWait = true ∧ waitsOk = true → ∀ pc ∈ s.handlers, pc.inBody = false)
    (hbuffering : pc.pastBuffering = true → s.bufferingTimers = [])
    (hprogress : pc.pastTimerRemove = true → s.progressTimers = []) :
    Inv { s with stop := pc, waitsOk := waitsOk } := { h with
  disabled := fun hq => hq.elim hdisabled fun hs => h.disabled (.inr hs)
  body := fun hq => hq.elim hbody fun hs => h.body (.inr hs)
  quietBuffering := fun hq => hq.elim hbuffering fun hs => h.quietBuffering (.inr hs)
  quietProgress := fun hq => hq.elim hprogress fun hs => h.quietProgress (.inr hs) }

theorem inv_disable (h : s.Inv) : Inv { s with syncControl := s.syncControl.disable } :=
  { h with
    count := h.count
    disabled := fun _ => rfl }

/-- No timer has the id 0. -/
theorem Inv.noneRecorded (h : s.Inv) (hid : s.bufferingTimeoutTimerId = 0) :
    s.bufferingTimers = [] := by
  rcases h.buffering with hb | hb
  · exact hb
  · exact absurd (by rw [hb, hid]; exact List.mem_singleton_self 0) h.nonzero

theorem TimerRemove_syncControl (s : TimerState ι) : s.TimerRemove.syncControl = s.syncControl := by
  unfold TimerRemove
  split <;> rfl

theorem inv_stopStep (h : s.Inv) {ok : Bool} (hstep : s.stopStep ok = some t) : t.Inv := by
  -- what `Stop` has passed, once its position is known
  have hdisabled : s.stop.pastDisable = true → s.syncControl.mEnabled = false := fun hq =>
    h.disabled (.inl hq)
  have hbuffering : s.stop.pastBuffering = true → s.bufferingTimers = [] := fun hq =>
    h.quietBuffering (.inl hq)
  have hprogress : s.stop.pastTimerRemove = true → s.progressTimers = [] := fun hq =>
    h.quietProgress (.inl hq)
  cases hpc : s.stop with
  | idle =>
      simp only [stopStep, hpc] at hstep
      cases hstep
      exact h.moveStop (fun hq => by cases hq) (fun hw => by cases hw.1) (fun hq => by cases hq)
        fun hq => by cases hq
  | disable =>
      simp only [stopStep, hpc] at hstep
      cases hstep
      exact (inv_disable h).moveStop (fun _ => rfl) (fun hw => by cases hw.1)
        (fun hq => by cases hq) fun hq => by cases hq
  | timerRemove =>
      simp only [stopStep, hpc] at hstep
      cases hstep
      rcases inv_TimerRemove h with ⟨hinv, hnone⟩
      have hdis : s.TimerRemove.syncControl.mEnabled = false := by
        rw [TimerRemove_syncControl]
        exact hdisabled (by rw [hpc]; rfl)
      exact hinv.moveStop (fun _ => hdis) (fun hw => by cases hw.1) (fun hq => by cases hq)
        fun _ => hnone
  | testBuffering =>
      simp only [stopStep, hpc] at hstep
      cases hstep
      have hdis := hdisabled (by rw [hpc]; rfl)
      have hnoneP := hprogress (by rw [hpc]; rfl)
      by_cases hid : s.bufferingTimeoutTimerId = 0
      · rw [if_neg (not_not.mpr hid)]
        exact h.moveStop (fun _ => hdis) (fun hw => by cases hw.1) (fun _ => h.noneRecorded hid)
          fun _ => hnoneP
      · rw [if_pos hid]
        exact h.moveStop (fun _ => hdis) (fun hw => by cases hw.1) (fun hq => by cases hq)
          fun _ => hnoneP
  | removeBuffering =>
      simp only [stopStep, hpc] at hstep
      cases hstep
      have hinv := inv_g_source_remove h h.apart
      have hnoneP := hinv.quietProgress (.inl (by
        show s.stop.pastTimerRemove = true
        rw [hpc]
        rfl))
      exact hinv.moveStop (fun _ => hdisabled (by rw [hpc]; rfl)) (fun hw => by cases hw.1)
        (fun _ => h.remove_recorded) fun _ => hnoneP
  | clearBuffering =>
      simp only [stopStep, hpc] at hstep
      cases hstep
      have hnone := hbuffering (by rw [hpc]; rfl)
      exact (inv_clearId h hnone).moveStop (fun _ => hdisabled (by rw [hpc]; rfl))
        (fun hw => by cases hw.1) (fun _ => hnone) fun _ => hprogress (by rw [hpc]; rfl)
  | waitSync =>
      simp only [stopStep, hpc] at hstep
      have hnone := hbuffering (by rw [hpc]; rfl)
      have hnoneP := hprogress (by rw [hpc]; rfl)
      split at hstep
      case isTrue hcount =>
          cases hstep
          have hnil : s.handlers = [] := List.length_eq_zero_iff.mp (h.count.symm.trans hcount)
          refine (inv_disable h).moveStop (fun _ => rfl) (fun _ pc hmem => ?_) (fun _ => hnone)
            fun _ => hnoneP
          have hmem' : pc ∈ s.handlers := hmem
          rw [hnil] at hmem'
          cases hmem'
      case isFalse hcount =>
          split at hstep <;> cases hstep
          exact (inv_disable h).moveStop (fun _ => rfl) (fun hw => by cases hw.2)
            (fun _ => hnone) fun _ => hnoneP
  | waitOthers =>
      simp only [stopStep, hpc] at hstep
      cases hstep
      exact h.moveStop (fun _ => hdisabled (by rw [hpc]; rfl))
        (fun hw => h.body (.inl ⟨by rw [hpc]; rfl, (Bool.and_eq_true_iff.mp hw.2).1⟩))
        (fun _ => hbuffering (by rw [hpc]; rfl)) fun _ => hprogress (by rw [hpc]; rfl)
  | endBuffering =>
      simp only [stopStep, hpc] at hstep
      cases hstep
      exact { h.moveStop (fun _ => hdisabled (by rw [hpc]; rfl))
        (fun hw => h.body (.inl ⟨by rw [hpc]; rfl, hw.2⟩))
        (fun _ => hbuffering (by rw [hpc]; rfl)) (fun _ => hprogress (by rw [hpc]; rfl)) with }
  | returning =>
      simp only [stopStep, hpc] at hstep
      cases hstep
      exact { h with
        disabled := fun _ => hdisabled (by rw [hpc]; rfl)
        body := by
          intro hq
          have hdone := hq.resolve_left fun hw => by cases hw.1
          rcases Bool.or_eq_true_iff.mp hdone with hs | hw
          · exact h.body (.inr hs)
          · exact h.body (.inl ⟨by rw [hpc]; rfl, hw⟩)
        quietBuffering := fun _ => hbuffering (by rw [hpc]; rfl)
        quietProgress := fun _ => hprogress (by rw [hpc]; rfl) }

theorem inv_step [DecidableEq ι] (h : s.Inv) {a : TimerAct ι} (hok : s.KeepsAccount a)
    (hstep : timerStep s a = some t) : t.Inv := by
  cases a with
  | handler i => exact inv_handlerStep h hok hstep
  | fireBuffering id completes => exact inv_fireBuffering h hstep
  | returnBuffering again => exact inv_returnBuffering h hok hstep
  | Stop ok => exact inv_stopStep h hstep
  | asyncDone =>
      cases hstep
      exact { h with
        count := by
          show s.syncControl.mInstanceCount + 1 = (s.handlers ++ [_]).length
          rw [h.count, List.length_append]
          rfl
        body := fun hq pc hmem => by
          rcases List.mem_append.mp hmem with hold | hnew
          · exact h.body hq pc hold
          · cases List.mem_singleton.mp hnew
            rfl }
  | fireProgress id =>
      simp only [timerStep] at hstep
      split at hstep <;> cases hstep
      exact h
  | IdleCallback =>
      cases hstep
      exact inv_idleCallbackStep h hok
  | Flush j =>
      cases hstep
      exact inv_flushStep h hok
  | ConfigurePipeline create =>
      cases create with
      | true =>
          cases hstep
          have hidle : s.stop = .idle := hok rfl
          exact { h with
            disabled := fun hq => by
              rcases hq with hq | hq
              · rw [show TimerState.stop _ = s.stop from rfl, hidle] at hq
                cases hq
              · cases hq
            body := fun hq => by
              rcases hq with hq | hq
              · exact h.body (.inl hq)
              · cases hq
            quietBuffering := fun hq => h.quietBuffering (.inl (hq.resolve_right nofun))
            quietProgress := fun hq => h.quietProgress (.inl (hq.resolve_right nofun)) }
      | false =>
          cases hstep
          exact { h with
            disabled := fun hq => h.disabled (.inl (hq.resolve_right nofun))
            body := fun hq => h.body (.inl (hq.resolve_right nofun))
            quietBuffering := fun hq => h.quietBuffering (.inl (hq.resolve_right nofun))
            quietProgress := fun hq => h.quietProgress (.inl (hq.resolve_right nofun)) }
  | setBuffering inProgress =>
      cases hstep
      exact { h with }

end TimerState

variable {ι : Type} [DecidableEq ι]

open TimerState

/-- In a run in which no message adds to a live buffering timer or comes behind the
removals of `Stop`, nor `IdleCallback` behind its `TimerRemove`, and no recorded id of
a live timer is cleared, all live timers are accounted for. -/
theorem accounted_of_reaches {s : TimerState ι}
    (h : (timerSystem ι).Reaches KeepsAccount s) : s.Accounted := by
  have hinv : s.Inv := by
    apply h.invariant
    · rintro s rfl
      exact inv_init
    · exact fun s a t hs hok hstep => inv_step hs hok hstep
  exact hinv.accounted

/-- Enough for a step to keep the account. -/
def clearlyKeepsAccount (s : TimerState ι) : TimerAct ι → Bool
  | .handler i => decide (s.handlers[i]? ≠ some .creating) ||
      s.bufferingTimers.isEmpty && !s.stop.pastBuffering
  | .returnBuffering again => !again && s.bufferingTimers.all fun b => some b = s.mainLoop
  | .IdleCallback => !s.stop.pastTimerRemove && !s.stopped
  | .Flush j => decide (s.flushes j ≠ .clearing) || s.bufferingTimers.isEmpty
  | .ConfigurePipeline _ => decide (s.stop = .idle)
  | _ => true

omit [DecidableEq ι] in
theorem keepsAccount_of_clearly (s : TimerState ι) (a : TimerAct ι)
    (h : clearlyKeepsAccount s a = true) : s.KeepsAccount a := by
  cases a with
  | handler i =>
      intro hpc
      simpa [clearlyKeepsAccount, hpc] using h
  | returnBuffering again =>
      intro id hid _
      simp only [clearlyKeepsAccount, Bool.and_eq_true, Bool.not_eq_true', List.all_eq_true,
        decide_eq_true_eq, hid, Option.some.injEq] at h
      constructor
      · exact h.2
      · intro hagain
        cases h.1.symm.trans hagain
  | IdleCallback =>
      intro _ _
      simpa [clearlyKeepsAccount] using h
  | Flush j =>
      intro hpc
      simpa [clearlyKeepsAccount, hpc] using h
  | ConfigurePipeline create =>
      intro _
      simpa [clearlyKeepsAccount] using h
  | _ => trivial

/-- A stream is buffered and played, then the player stops. -/
def bufferThenStop : List (TimerAct Unit) :=
  [.ConfigurePipeline true, .setBuffering true, .asyncDone, .handler 0, .handler 0, .handler 0,
    .handler 0, .fireBuffering 1 true, .returnBuffering false, .IdleCallback, .IdleCallback,
    .IdleCallback, .fireProgress 2, .Flush (), .Flush ()] ++ List.replicate 8 (.Stop true)

theorem bufferThenStop_accounted :
    ∃ s, (timerSystem Unit).run {} bufferThenStop = some s ∧ s.Accounted := by
  have hrun : ((timerSystem Unit).run {} bufferThenStop).isSome = true := by decide
  rcases Option.isSome_iff_exists.mp hrun with ⟨s, hs⟩
  have hstart : (timerSystem Unit).Reaches KeepsAccount {} := .init rfl
  have hok : (timerSystem Unit).RunOk KeepsAccount {} bufferThenStop := by
    apply System.runOk_of_checkRun keepsAccount_of_clearly
    decide
  exact ⟨s, hs, accounted_of_reaches (hstart.run hok hs)⟩

/-- Two ASYNC_DONE messages arrive while the stream is buffered. -/
theorem asyncDone_twice_two_timers :
    ¬ ∀ s, (timerSystem Unit).Reachable s → s.Accounted := by
  intro hall
  have hrun : ((timerSystem Unit).run {} [.ConfigurePipeline true, .setBuffering true, .asyncDone,
      .handler 0, .handler 0, .handler 0, .handler 0, .asyncDone, .handler 0, .handler 0,
      .handler 0]).map (fun s => (s.bufferingTimers, s.bufferingTimeoutTimerId)) =
      some ([1, 2], 2) := by
    decide
  rcases Option.map_eq_some_iff.mp hrun with ⟨s, hs, hat⟩
  have hlive : s.bufferingTimers = [1, 2] := congrArg Prod.fst hat
  have honce := (hall s (System.reachable_of_run rfl hs)).bufferingOnce
  rw [hlive] at honce
  exact absurd honce (by decide)

end PlayerInterface.Player
