import Mathlib.Data.List.Infix
import PlayerInterface.Core.Keyed
import PlayerInterface.Player.HandlerControl

/-!
# What `Stop` has quiesced once its waits are over

The message handlers of the bus are awaited. The signal callbacks are not: the last
wait looks at `aSyncControl` a second time, so a callback that had entered before
the signals were disconnected may run on while the streams are torn down.
-/

namespace PlayerInterface.Player

open PlayerInterface.Core

/-- No invocation under the control executes its body. -/
def NoneExecuting (active : List Invocation) (c : ControlName) : Prop :=
  ∀ v ∈ active, v.control = c → v.executing = false

theorem noneExecuting_append {xs ys : List Invocation} {c : ControlName} :
    NoneExecuting (xs ++ ys) c ↔ NoneExecuting xs c ∧ NoneExecuting ys c := by
  simp [NoneExecuting, or_imp, forall_and]

theorem noneExecuting_cons {v : Invocation} {xs : List Invocation} {c : ControlName} :
    NoneExecuting (v :: xs) c ↔ (v.control = c → v.executing = false) ∧ NoneExecuting xs c := by
  simp [NoneExecuting]

theorem noneExecuting_entered (h : Handler) (c : ControlName) :
    NoneExecuting [{ handler := h }] c := by
  intro v hv _
  cases List.mem_singleton.mp hv
  rfl

namespace HandlerState

variable {s t : HandlerState}

/-- From the return of the last wait until `Stop` returns, when all waits returned true. -/
def InWindow (s : HandlerState) : Prop :=
  s.allDone = true ∧ ∃ rest, s.stop = some rest ∧ ∀ c, .wait c ∉ rest

def Quiesced (s : HandlerState) : Prop :=
  s.InWindow → NoneExecuting s.active .syncControl ∧ NoneExecuting s.active .callbackControl

structure Inv (s : HandlerState) : Prop where
  count : ∀ c, (s.control c).mInstanceCount = s.active.countP fun v => v.control = c
  suffix : ∀ rest, s.stop = some rest → rest <:+ Stop
  disabled : ∀ rest, s.stop = some rest → .disable .syncControl ∉ rest →
    (s.control .syncControl).mEnabled = false
  quiet : ∀ rest, s.stop = some rest → .wait .syncControl ∉ rest → s.allDone = true →
    NoneExecuting s.active .syncControl

theorem Inv.noInstance (h : s.Inv) {c : ControlName} (hc : (s.control c).mInstanceCount = 0) :
    NoneExecuting s.active c := by
  intro v hv hcontrol
  rw [h.count c, List.countP_eq_zero] at hc
  exact absurd (decide_eq_true hcontrol) (hc v hv)

/-- The step of an invocation that has not left yet: the list changes in one place,
the counts stay. -/
inductive Advances (s : HandlerState) (v : Invocation) : HandlerState → InvocationPc → Prop where
  | leave : v.pc = .entered → v.handler.returnsStraightAway = true →
      (s.control v.control).mEnabled = false → Advances s v s .leaving
  | start : v.pc = .entered →
      (v.handler.returnsStraightAway = true → (s.control v.control).mEnabled = true) →
      Advances s v s .body
  | finish : v.pc = .body → Advances s v s .leaving
  | enable : v.pc = .connecting →
      Advances s v (s.setControl .callbackControl (s.control .callbackControl).enable) .body

/-- What one step of a handler does. -/
theorem handlerStep_spec {i : Nat} (hstep : s.handlerStep i = some t) :
    ∃ v, s.active[i]? = some v ∧
      ((∃ u pc, s.Advances v u pc ∧ t = { u with active := s.active.set i { v with pc := pc } }) ∨
        v.pc = .leaving ∧
          t = { s.setControl v.control (s.control v.control).handlerEnd with
            active := s.active.eraseIdx i }) := by
  rcases Option.map_eq_some_iff.mp hstep with ⟨v, hv, rfl⟩
  refine ⟨v, hv, ?_⟩
  cases hpc : v.pc with
  | entered =>
      left
      simp only
      split
      case isTrue hret =>
          simp only [Bool.and_eq_true, Bool.not_eq_true'] at hret
          exact ⟨s, .leaving, .leave hpc hret.1 hret.2, rfl⟩
      case isFalse hret =>
          simp only [Bool.and_eq_true, Bool.not_eq_true', not_and, Bool.not_eq_false] at hret
          exact ⟨s, .body, .start hpc hret, rfl⟩
  | body => exact .inl ⟨s, .leaving, .finish hpc, rfl⟩
  | connecting => exact .inl ⟨_, .body, .enable hpc, rfl⟩
  | leaving => exact .inr ⟨rfl, rfl⟩

theorem Advances.frame {v : Invocation} {u : HandlerState} {pc : InvocationPc}
    (h : s.Advances v u pc) : u.stop = s.stop ∧ u.allDone = s.allDone ∧
      (∀ c, (u.control c).mInstanceCount = (s.control c).mInstanceCount) ∧
      (u.control .syncControl).mEnabled = (s.control .syncControl).mEnabled := by
  cases h
  case enable hpc =>
      refine ⟨rfl, rfl, fun c => ?_, rfl⟩
      cases c <;> rfl
  all_goals exact ⟨rfl, rfl, fun _ => rfl, rfl⟩

/-- An invocation comes to execute its body only by passing its entry. -/
theorem Advances.executing {v : Invocation} {u : HandlerState} {pc : InvocationPc}
    (h : s.Advances v u pc) (hv : v.executing = false)
    (hx : Invocation.executing { v with pc := pc } = true) : v.pc = .entered ∧
      (v.handler.returnsStraightAway = true → (s.control v.control).mEnabled = true) := by
  cases h with
  | leave _ _ _ => cases hx
  | start hpc hen => exact ⟨hpc, hen⟩
  | finish _ => cases hx
  | enable hpc => simp [Invocation.executing, hpc] at hv

theorem returnsStraightAway_of_sync {v : Invocation} (h : v.control = .syncControl) :
    v.handler.returnsStraightAway = true := by
  unfold Invocation.control at h
  cases hv : v.handler <;> rw [hv] at h <;> first | rfl | cases h

/-- Past its wait `syncControl` stays disabled. -/
theorem Inv.disabled_of_waited (h : s.Inv) {rest : List StopOp} (hs : s.stop = some rest)
    (hw : .wait .syncControl ∉ rest) : (s.control .syncControl).mEnabled = false := by
  apply h.disabled rest hs
  have hall : ∀ r ∈ Stop.tails, StopOp.wait .syncControl ∉ r → StopOp.disable .syncControl ∉ r := by
    decide
  exact hall rest ((List.mem_tails rest Stop).mpr (h.suffix rest hs)) hw

theorem inv_handlerStep (h : s.Inv) {i : Nat} (hstep : s.handlerStep i = some t) : t.Inv := by
  rcases handlerStep_spec hstep with ⟨v, hv, ⟨u, pc, hadv, rfl⟩ | ⟨_, rfl⟩⟩
  · rcases hadv.frame with ⟨hstop, hdone, hcount, hsync⟩
    rcases split_at_getElem hv with ⟨pre, post, hactive, _, hset⟩
    refine ⟨?_, ?_, ?_, ?_⟩
    · intro c
      show (u.control c).mInstanceCount = _
      rw [hcount c, h.count c, hactive]
      simp only [← hactive, hset, List.countP_append, List.countP_cons]
      rw [hactive, List.countP_append, List.countP_cons]
      rfl
    · intro rest hs
      exact h.suffix rest (hstop ▸ hs)
    · intro rest hs hd
      show (u.control .syncControl).mEnabled = false
      rw [hsync]
      exact h.disabled rest (hstop ▸ hs) hd
    · intro rest hs hw hd
      have hs' : s.stop = some rest := hstop ▸ hs
      have hquiet := h.quiet rest hs' hw (hdone ▸ hd)
      rw [hactive, noneExecuting_append, noneExecuting_cons] at hquiet
      show NoneExecuting (s.active.set i _) _
      rw [hset, noneExecuting_append, noneExecuting_cons]
      refine ⟨hquiet.1, fun hc => ?_, hquiet.2.2⟩
      -- `syncControl` is disabled, so the handler does not pass its entry
      by_contra hx
      have hen := (hadv.executing (hquiet.2.1 hc) (by simpa using hx)).2
        (returnsStraightAway_of_sync hc)
      have hcv : v.control = .syncControl := hc
      rw [hcv, h.disabled_of_waited hs' hw] at hen
      cases hen
  · rcases split_at_getElem hv with ⟨pre, post, hactive, herase, _⟩
    refine ⟨?_, h.suffix, ?_, ?_⟩
    · intro c
      show (Function.update s.control v.control _ c).mInstanceCount = List.countP _ (s.active.eraseIdx i)
      have hc := h.count c
      rw [hactive, List.countP_append, List.countP_cons] at hc
      rw [herase, List.countP_append]
      by_cases hcv : c = v.control
      · subst hcv
        rw [Function.update_self]
        simp only [decide_true, if_true] at hc
        show (s.control v.control).mInstanceCount - 1 = _
        omega
      · rw [Function.update_of_ne hcv]
        simp only [eq_comm, hcv, decide_false] at hc
        simpa [eq_comm] using hc
    · intro rest hs hd
      have hdis := h.disabled rest hs hd
      show (Function.update s.control v.control _ .syncControl).mEnabled = false
      by_cases hcv : ControlName.syncControl = v.control
      · rw [← hcv, Function.update_self]
        exact hdis
      · rw [Function.update_of_ne hcv]
        exact hdis
    · intro rest hs hw hd
      have hquiet := h.quiet rest hs hw hd
      rw [hactive, noneExecuting_append, noneExecuting_cons] at hquiet
      show NoneExecuting (s.active.eraseIdx i) _
      rw [herase, noneExecuting_append]
      exact ⟨hquiet.1, hquiet.2.2⟩

/-- What one operation of `Stop` does: it is taken off the list, the invocations stay. -/
structure StopMoves (s : HandlerState) (op : StopOp) (rest : List StopOp) (t : HandlerState) :
    Prop where
  stop : t.stop = some rest
  active : t.active = s.active
  count : ∀ c, (t.control c).mInstanceCount = (s.control c).mInstanceCount
  enabled : (s.control .syncControl).mEnabled = false → (t.control .syncControl).mEnabled = false
  disabled : op = .disable .syncControl → (t.control .syncControl).mEnabled = false
  allDone : t.allDone = true ↔
    s.allDone = true ∧ ∀ c, op = .wait c → (s.control c).mInstanceCount = 0

theorem stopMoves_of_rest (op : StopOp) (rest : List StopOp) (u : HandlerState)
    (hcontrol : u.control = s.control) (hactive : u.active = s.active)
    (hdone : u.allDone = s.allDone) (hdis : op ≠ .disable .syncControl) (hop : ∀ c, op ≠ .wait c) :
    s.StopMoves op rest { u with stop := some rest } where
  stop := rfl
  active := hactive
  count := fun c => congrArg (fun k => (k c).mInstanceCount) hcontrol
  enabled := fun h => by
    show (u.control _).mEnabled = false
    rw [hcontrol]
    exact h
  disabled := fun h => absurd h hdis
  allDone := by
    show u.allDone = true ↔ _
    rw [hdone]
    exact (and_iff_left fun c hc => absurd hc (hop c)).symm

theorem stopStep_spec {timeout : Bool} (hstep : s.stopStep timeout = some t) :
    (s.stop = some [] ∧ t = { s with stop := none }) ∨
      ∃ op rest, s.stop = some (op :: rest) ∧ s.StopMoves op rest t := by
  unfold stopStep at hstep
  cases hs : s.stop with
  | none => simp [hs] at hstep
  | some ops =>
      cases ops with
      | nil =>
          simp only [hs] at hstep
          cases hstep
          exact .inl ⟨rfl, rfl⟩
      | cons op rest =>
          right
          refine ⟨op, rest, rfl, ?_⟩
          cases op <;> simp only [hs] at hstep
          case disable c =>
              cases hstep
              have hother : ∀ d, ((s.setControl c (s.control c).disable).control d).mInstanceCount =
                  (s.control d).mInstanceCount := fun d => by
                show (Function.update s.control c _ d).mInstanceCount = _
                by_cases hd : d = c
                · subst hd
                  rw [Function.update_self]
                  rfl
                · rw [Function.update_of_ne hd]
              refine ⟨rfl, rfl, hother, fun h => ?_, fun h => ?_, ?_⟩
              · show (Function.update s.control c _ _).mEnabled = false
                by_cases hc : ControlName.syncControl = c
                · rw [← hc, Function.update_self]
                  rfl
                · rw [Function.update_of_ne hc]
                  exact h
              · cases h
                show (Function.update s.control _ _ _).mEnabled = false
                rw [Function.update_self]
                rfl
              · exact (and_iff_left fun d hd => by cases hd).symm
          case wait c =>
              split at hstep
              case isTrue hcount =>
                  cases hstep
                  refine ⟨rfl, rfl, fun _ => rfl, id, nofun, ?_⟩
                  exact (and_iff_left fun d hd => StopOp.wait.inj hd ▸ hcount).symm
              case isFalse hcount =>
                  split at hstep <;> cases hstep
                  refine ⟨rfl, rfl, fun _ => rfl, id, nofun, ?_⟩
                  exact iff_of_false Bool.false_ne_true fun h => hcount (h.2 c rfl)
          case gst_bus_remove_watch =>
              cases hstep
              exact stopMoves_of_rest _ rest { s with busWatch := false } rfl rfl rfl
                nofun nofun
          case DisconnectSignals =>
              cases hstep
              exact stopMoves_of_rest _ rest { s with
                connected := if s.enableDisconnectSignals then fun _ => false else s.connected }
                rfl rfl rfl nofun nofun
          all_goals
            cases hstep
            exact stopMoves_of_rest _ rest s rfl rfl rfl nofun nofun

theorem inv_of_idle (hs : s.stop = none)
    (hcount : ∀ c, (s.control c).mInstanceCount = s.active.countP fun v => v.control = c) :
    s.Inv := by
  have hno : ∀ rest, s.stop ≠ some rest := by
    intro rest hr
    cases hs.symm.trans hr
  exact ⟨hcount, fun rest hr => absurd hr (hno rest), fun rest hr => absurd hr (hno rest),
    fun rest hr => absurd hr (hno rest)⟩

theorem inv_stopStep (h : s.Inv) {timeout : Bool} (hstep : s.stopStep timeout = some t) :
    t.Inv := by
  rcases stopStep_spec hstep with ⟨_, rfl⟩ | ⟨op, rest, hs, hm⟩
  · exact inv_of_idle rfl h.count
  · have hsuffix := h.suffix _ hs
    refine ⟨?_, ?_, ?_, ?_⟩
    · intro c
      rw [hm.count c, hm.active, h.count c]
    · intro r hr
      cases hm.stop.symm.trans hr
      exact (List.suffix_cons op rest).trans hsuffix
    · intro r hr hd
      cases hm.stop.symm.trans hr
      by_cases hop : op = .disable .syncControl
      · exact hm.disabled hop
      · exact hm.enabled (h.disabled _ hs (by simp [hd, Ne.symm hop]))
    · intro r hr hw hdone
      cases hm.stop.symm.trans hr
      rw [hm.active]
      have hd := hm.allDone.mp hdone
      by_cases hop : op = .wait .syncControl
      · exact h.noInstance (hd.2 _ hop)
      · exact h.quiet _ hs (by simp [hw, Ne.symm hop]) hd.1

theorem inv_step (h : s.Inv) {a : HandlerAct} (hstep : handlerControlStep s a = some t) :
    t.Inv := by
  cases a with
  | handler i => exact inv_handlerStep h hstep
  | stop timeout => exact inv_stopStep h hstep
  | enter hd =>
      simp only [handlerControlStep] at hstep
      split at hstep <;> cases hstep
      refine ⟨?_, h.suffix, ?_, ?_⟩
      · intro c
        show (Function.update s.control hd.control _ c).mInstanceCount =
          List.countP _ (s.active ++ [_])
        rw [List.countP_append, List.countP_singleton, ← h.count c]
        by_cases hc : c = hd.control
        · subst hc
          simp [GstHandlerControl.getScopeHelper, Invocation.control]
        · simp [hc, Invocation.control, eq_comm]
      · intro rest hs hdis
        show (Function.update s.control hd.control _ .syncControl).mEnabled = false
        by_cases hc : ControlName.syncControl = hd.control
        · rw [← hc, Function.update_self]
          exact h.disabled rest hs hdis
        · rw [Function.update_of_ne hc]
          exact h.disabled rest hs hdis
      · intro rest hs hw hdone
        exact noneExecuting_append.mpr ⟨h.quiet rest hs hw hdone, noneExecuting_entered hd _⟩
  | connect i hd =>
      simp only [handlerControlStep, connectStep] at hstep
      split at hstep
      case h_2 => cases hstep
      case h_1 v hv =>
          split at hstep <;> cases hstep
          case isTrue hbody =>
          rcases split_at_getElem hv with ⟨pre, post, hactive, _, hset⟩
          refine ⟨?_, h.suffix, h.disabled, ?_⟩
          · intro c
            show _ = List.countP _ (s.active.set i _)
            rw [h.count c, hset, hactive]
            simp only [List.countP_append, List.countP_cons]
            rfl
          · intro rest hs hw hdone
            have hquiet := h.quiet rest hs hw hdone
            rw [hactive, noneExecuting_append, noneExecuting_cons] at hquiet
            show NoneExecuting (s.active.set i _) _
            rw [hset, noneExecuting_append, noneExecuting_cons]
            refine ⟨hquiet.1, fun hc => ?_, hquiet.2.2⟩
            have hv := hquiet.2.1 hc
            simp [Invocation.executing, hbody.1] at hv
  | callStop =>
      simp only [handlerControlStep] at hstep
      split at hstep <;> cases hstep
      have hall : Stop <:+ Stop := List.suffix_refl Stop
      refine ⟨h.count, ?_, ?_, ?_⟩
      · intro rest hs
        cases hs
        exact hall
      · intro rest hs hd
        cases hs
        exact absurd (by decide) hd
      · intro rest hs hw
        cases hs
        exact absurd (by decide) hw
  | CreatePipeline =>
      simp only [handlerControlStep] at hstep
      split at hstep
      case isFalse => cases hstep
      case isTrue hs =>
          cases hstep
          apply inv_of_idle
          · exact hs
          · intro c
            cases c <;> exact h.count _
  | SignalConnect hd =>
      simp only [handlerControlStep] at hstep
      split at hstep
      case isFalse => cases hstep
      case isTrue hs =>
          cases hstep
          apply inv_of_idle
          · exact hs
          · intro c
            cases c <;> exact h.count _

theorem inv_init (h : s.Initial) : s.Inv := by
  apply inv_of_idle h.stop
  intro c
  rw [h.control c, h.active]
  rfl

/-! ### The steps after which a callback runs beside the tear-down -/

/-- The bus is quiet in the window; what is left are the signal callbacks. -/
theorem Inv.quiesced_iff (h : s.Inv) :
    s.Quiesced ↔ (s.InWindow → NoneExecuting s.active .callbackControl) := by
  constructor
  · exact fun hq hw => (hq hw).2
  · intro hq hw
    rcases hw.2 with ⟨rest, hs, hrest⟩
    exact ⟨h.quiet rest hs (hrest _) hw.1, hq hw⟩

/-- The last wait returns while a callback executes its body, or a callback that has
entered comes to its body before `Stop` has returned. -/
def CallbackEscapes (s : HandlerState) : HandlerAct → Prop
  | .stop _ => s.allDone = true ∧
      (∃ c rest, s.stop = some (.wait c :: rest) ∧ (s.control c).mInstanceCount = 0 ∧
        ∀ d, .wait d ∉ rest) ∧
      ∃ v ∈ s.active, v.control = .callbackControl ∧ v.executing = true
  | .handler i => s.InWindow ∧ ∃ v, s.active[i]? = some v ∧ v.control = .callbackControl ∧
      v.pc = .entered ∧
      (v.handler.returnsStraightAway = true → (s.control .callbackControl).mEnabled = true)
  | _ => False

theorem not_noneExecuting {active : List Invocation} {c : ControlName} :
    ¬ NoneExecuting active c ↔ ∃ v ∈ active, v.control = c ∧ v.executing = true := by
  simp [NoneExecuting]

theorem quiesced_stopStep_iff (h : s.Inv) (hq : s.Quiesced) {timeout : Bool}
    (hstep : s.stopStep timeout = some t) : t.Quiesced ↔ ¬ s.CallbackEscapes (.stop timeout) := by
  rw [(inv_stopStep h hstep).quiesced_iff]
  rcases stopStep_spec hstep with ⟨hs, rfl⟩ | ⟨op, rest, hs, hm⟩
  · apply iff_of_true
    · intro ⟨_, rest, hr, _⟩
      cases hr
    · intro ⟨_, ⟨c, rest, hr, _⟩, _⟩
      cases hs.symm.trans hr
  · have hwindow : t.InWindow ↔ t.allDone = true ∧ ∀ c, StopOp.wait c ∉ rest := by
      constructor
      · intro ⟨hd, r, hr, hw⟩
        cases hm.stop.symm.trans hr
        exact ⟨hd, hw⟩
      · exact fun ⟨hd, hw⟩ => ⟨hd, rest, hm.stop, hw⟩
    rw [hwindow, hm.active, hm.allDone]
    by_cases hop : ∃ c, op = .wait c
    · rcases hop with ⟨c, rfl⟩
      constructor
      · intro hgood ⟨hdone, ⟨d, r, hr, hcount, hrest⟩, hbad⟩
        cases hs.symm.trans hr
        exact not_noneExecuting.mpr hbad
          (hgood ⟨⟨hdone, fun d hd => StopOp.wait.inj hd ▸ hcount⟩, hrest⟩)
      · intro hok ⟨⟨hdone, hcount⟩, hrest⟩
        by_contra hbad
        exact hok ⟨hdone, ⟨c, rest, hs, hcount c rfl, hrest⟩, not_noneExecuting.mp hbad⟩
    · -- the window was open before this operation
      apply iff_of_true
      · intro ⟨⟨hdone, _⟩, hrest⟩
        refine (hq ⟨hdone, op :: rest, hs, fun c hc => ?_⟩).2
        cases List.mem_cons.mp hc with
        | inl heq => exact hop ⟨c, heq.symm⟩
        | inr hmem => exact hrest c hmem
      · intro ⟨_, ⟨c, r, hr, _⟩, _⟩
        cases hs.symm.trans hr
        exact hop ⟨c, rfl⟩

theorem quiesced_handlerStep_iff (h : s.Inv) (hq : s.Quiesced) {i : Nat}
    (hstep : s.handlerStep i = some t) : t.Quiesced ↔ ¬ s.CallbackEscapes (.handler i) := by
  rw [(inv_handlerStep h hstep).quiesced_iff]
  rcases handlerStep_spec hstep with ⟨v, hv, ⟨u, pc, hadv, rfl⟩ | ⟨hpc, rfl⟩⟩
  · rcases split_at_getElem hv with ⟨pre, post, hactive, _, hset⟩
    have hwindow : InWindow { u with active := s.active.set i { v with pc := pc } } ↔
        s.InWindow := by
      show (u.allDone = true ∧ ∃ rest, u.stop = some rest ∧ _) ↔ _
      rw [hadv.frame.1, hadv.frame.2.1]
      exact Iff.rfl
    rw [hwindow]
    show (_ → NoneExecuting (s.active.set i _) _) ↔ _
    rw [hset, noneExecuting_append, noneExecuting_cons]
    constructor
    · intro hgood ⟨hw, w, hw', hcontrol, hentered, hen⟩
      cases hv.symm.trans hw'
      have hno := (hgood hw).2.1 hcontrol
      cases hadv with
      | leave _ hret hdis =>
          rw [hcontrol] at hdis
          exact absurd (hen hret) (by rw [hdis]; exact Bool.false_ne_true)
      | start _ _ => cases hno
      | finish hpc => cases hentered.symm.trans hpc
      | enable hpc => cases hentered.symm.trans hpc
    · intro hok hw
      have hbefore := (hq hw).2
      rw [hactive, noneExecuting_append, noneExecuting_cons] at hbefore
      refine ⟨hbefore.1, fun hc => ?_, hbefore.2.2⟩
      by_contra hx
      have hcv : v.control = .callbackControl := hc
      rcases hadv.executing (hbefore.2.1 hcv) (by simpa using hx) with ⟨hentered, hen⟩
      exact hok ⟨hw, v, hv, hcv, hentered, hcv ▸ hen⟩
  · rcases split_at_getElem hv with ⟨pre, post, hactive, herase, _⟩
    apply iff_of_true
    · intro hw
      have hbefore := (hq hw).2
      rw [hactive, noneExecuting_append, noneExecuting_cons] at hbefore
      show NoneExecuting (s.active.eraseIdx i) _
      rw [herase, noneExecuting_append]
      exact ⟨hbefore.1, hbefore.2.2⟩
    · intro ⟨_, w, hw, _, hentered, _⟩
      cases hv.symm.trans hw
      cases hentered.symm.trans hpc

/-- A step leaves the handlers quiesced exactly when no callback escapes by it. -/
theorem quiesced_step_iff (h : s.Inv) (hq : s.Quiesced) {a : HandlerAct}
    (hstep : handlerControlStep s a = some t) : t.Quiesced ↔ ¬ s.CallbackEscapes a := by
  cases a with
  | handler i => exact quiesced_handlerStep_iff h hq hstep
  | stop timeout => exact quiesced_stopStep_iff h hq hstep
  | enter hd =>
      simp only [handlerControlStep] at hstep
      split at hstep <;> cases hstep
      refine iff_of_true (fun hw => ?_) id
      exact ⟨noneExecuting_append.mpr ⟨(hq hw).1, noneExecuting_entered hd _⟩,
        noneExecuting_append.mpr ⟨(hq hw).2, noneExecuting_entered hd _⟩⟩
  | connect i hd =>
      refine iff_of_true ?_ id
      rw [(inv_step h hstep).quiesced_iff]
      simp only [handlerControlStep, connectStep] at hstep
      split at hstep
      case h_2 => cases hstep
      case h_1 v hv =>
          split at hstep
          case isFalse => cases hstep
          case isTrue hbody =>
              cases hstep
              intro hw
              rcases split_at_getElem hv with ⟨pre, post, hactive, _, hset⟩
              have hbefore := (hq hw).2
              rw [hactive, noneExecuting_append, noneExecuting_cons] at hbefore
              show NoneExecuting (s.active.set i _) _
              rw [hset, noneExecuting_append, noneExecuting_cons]
              refine ⟨hbefore.1, fun hc => ?_, hbefore.2.2⟩
              have hx := hbefore.2.1 hc
              simp [Invocation.executing, hbody.1] at hx
  | callStop =>
      simp only [handlerControlStep] at hstep
      split at hstep <;> cases hstep
      refine iff_of_true (fun ⟨_, rest, hr, hw⟩ => ?_) id
      cases hr
      exact absurd (by decide) (hw .syncControl)
  | CreatePipeline =>
      simp only [handlerControlStep] at hstep
      split at hstep <;> cases hstep
      exact iff_of_true hq id
  | SignalConnect hd =>
      simp only [handlerControlStep] at hstep
      split at hstep <;> cases hstep
      exact iff_of_true hq id

end HandlerState

open HandlerState

/-- Throughout a run no message handler of the bus and no signal callback executes
between the last successful wait of `Stop` and its return, if and only if no
callback executes when that wait returns and none comes to its body afterwards. -/
theorem quiesced_run_iff {s : HandlerState} (hs : handlerSystem.init s) (as : List HandlerAct) :
    handlerSystem.RunAll Quiesced s as ↔
      handlerSystem.RunOk (fun s a => ¬ s.CallbackEscapes a) s as := by
  apply System.runAll_iff_runOk_of_invariant
  · exact fun _ _ _ h hstep => inv_step h hstep
  · exact fun _ _ _ h hq hstep => quiesced_step_iff h hq hstep
  · exact inv_init hs
  · intro ⟨_, rest, hr, _⟩
    cases hs.stop.symm.trans hr

/-- No `Stop` runs, or no callback has entered. -/
def noCallback (s : HandlerState) (_ : HandlerAct) : Bool :=
  s.stop.isNone || s.active.all fun v => v.control ≠ .callbackControl

theorem not_escapes_of_noCallback (s : HandlerState) (a : HandlerAct)
    (h : noCallback s a = true) : ¬ s.CallbackEscapes a := by
  have hno : ∀ rest, s.stop = some rest → ∀ v ∈ s.active, v.control ≠ .callbackControl := by
    intro rest hs v hv
    simp only [noCallback, hs, Option.isNone_some, Bool.false_or, List.all_eq_true] at h
    exact of_decide_eq_true (h v hv)
  intro hesc
  cases a with
  | stop timeout =>
      rcases hesc with ⟨_, ⟨c, rest, hs, _⟩, v, hv, hcontrol, _⟩
      exact hno _ hs v hv hcontrol
  | handler i =>
      rcases hesc with ⟨⟨_, rest, hs, _⟩, v, hv, hcontrol, _⟩
      exact hno rest hs v (List.mem_of_getElem? hv) hcontrol
  | _ => exact hesc

theorem newHandlers_initial : handlerSystem.init {} := ⟨fun _ => rfl, rfl, fun _ => rfl, rfl⟩

/-- A bus message and a callback are handled, then the player stops. -/
def handleThenStop : List HandlerAct :=
  [.CreatePipeline, .SignalConnect .gst_need_data, .enter .gst_need_data, .handler 0, .handler 0,
    .handler 0, .enter .bus_sync_handler, .callStop, .handler 0, .handler 0, .handler 0] ++
    List.replicate 15 (.stop false)

theorem handleThenStop_quiesced : handlerSystem.RunAll Quiesced {} handleThenStop := by
  apply (quiesced_run_iff newHandlers_initial handleThenStop).mpr
  apply System.runOk_of_checkRun not_escapes_of_noCallback
  decide

/-- `gst_need_data` has entered before the signals are disconnected; all waits
return true and it still executes its body. -/
theorem needData_outlives_waits : ¬ ∀ s, handlerSystem.Reachable s → s.Quiesced := by
  intro hall
  have hrun : (handlerSystem.run {}
      ([.CreatePipeline, .SignalConnect .gst_need_data, .enter .gst_need_data, .handler 0,
        .callStop] ++ List.replicate 11 (.stop false))).map (fun s => (s.allDone, s.stop, s.active)) =
      some (true, some [.RemoveProbes, .TearDownStream, .DestroyPipeline],
        [{ handler := .gst_need_data, pc := .body }]) := by
    decide
  rcases Option.map_eq_some_iff.mp hrun with ⟨s, hs, hat⟩
  rcases Prod.mk.inj hat with ⟨hdone, hrest⟩
  rcases Prod.mk.inj hrest with ⟨hstop, hactive⟩
  have hwindow : s.InWindow := ⟨hdone, _, hstop, by simp⟩
  have hquiet := (hall s (System.reachable_of_run newHandlers_initial hs) hwindow).2
  rw [hactive] at hquiet
  cases hquiet _ List.mem_cons_self rfl

end PlayerInterface.Player
