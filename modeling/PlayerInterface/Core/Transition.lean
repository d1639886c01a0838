import Mathlib.Tactic.Common

/-!
# Labelled transition systems

A step takes a state and a label to at most one next state; everything the
environment decides is in the label. Runs may be restricted to steps that meet a
condition on the state they leave and their label.
-/

namespace PlayerInterface.Core

structure System (σ α : Type) where
  init : σ → Prop
  step : σ → α → Option σ

namespace System

variable {σ α : Type} {M : System σ α}

/-- States reached by runs all of whose steps meet `ok`. -/
inductive Reaches (M : System σ α) (ok : σ → α → Prop) : σ → Prop where
  | init {s : σ} : M.init s → Reaches M ok s
  | step {s : σ} {a : α} {t : σ} : Reaches M ok s → ok s a → M.step s a = some t →
      Reaches M ok t

/-- No condition on the steps. -/
abbrev Reachable (M : System σ α) : σ → Prop := M.Reaches fun _ _ => True

/-- What holds at the start and is kept by every admitted step holds throughout. -/
theorem Reaches.invariant {ok : σ → α → Prop} {inv : σ → Prop} {s : σ} (h : M.Reaches ok s)
    (hinit : ∀ s, M.init s → inv s)
    (hstep : ∀ s a t, inv s → ok s a → M.step s a = some t → inv t) : inv s := by
  induction h with
  | init hs => exact hinit _ hs
  | step _ hok hs ih => exact hstep _ _ _ ih hok hs

theorem Reaches.weaken {ok ok' : σ → α → Prop} {s : σ} (h : M.Reaches ok s)
    (hw : ∀ s a, ok s a → ok' s a) : M.Reaches ok' s := by
  induction h with
  | init hs => exact .init hs
  | step _ hok hs ih => exact .step ih (hw _ _ hok) hs

theorem Reaches.reachable {ok : σ → α → Prop} {s : σ} (h : M.Reaches ok s) : M.Reachable s :=
  h.weaken fun _ _ _ => trivial

/-- The state behind a sequence of labels, when every one of them is enabled. -/
def run (M : System σ α) (s : σ) : List α → Option σ
  | [] => some s
  | a :: as => (M.step s a).bind fun t => M.run t as

theorem run_cons {s t : σ} {a : α} (h : M.step s a = some t) (as : List α) :
    M.run s (a :: as) = M.run t as := by
  rw [run, h]
  rfl

theorem run_append {s t : σ} {as : List α} (h : M.run s as = some t) (bs : List α) :
    M.run s (as ++ bs) = M.run t bs := by
  induction as generalizing s with
  | nil =>
      cases h
      rfl
  | cons a as ih =>
      obtain ⟨u, hu, hrest⟩ := Option.bind_eq_some_iff.mp h
      rw [List.cons_append, run_cons hu]
      exact ih hrest

/-- The labels of a run meet the condition in the states they are taken in. -/
def RunOk (M : System σ α) (ok : σ → α → Prop) (s : σ) : List α → Prop
  | [] => True
  | a :: as => ∀ t, M.step s a = some t → ok s a ∧ M.RunOk ok t as

/-- Every state of a run has the property, the first and the last included. -/
def RunAll (M : System σ α) (inv : σ → Prop) (s : σ) : List α → Prop
  | [] => inv s
  | a :: as => inv s ∧ ∀ t, M.step s a = some t → M.RunAll inv t as

theorem RunAll.start {inv : σ → Prop} {s : σ} {as : List α} (h : M.RunAll inv s as) : inv s := by
  cases as with
  | nil => exact h
  | cons a as => exact h.1

theorem RunAll.run {inv : σ → Prop} {s t : σ} {as : List α} (h : M.RunAll inv s as)
    (hr : M.run s as = some t) : inv t := by
  induction as generalizing s with
  | nil =>
      cases hr
      exact h
  | cons a as ih =>
      rcases Option.bind_eq_some_iff.mp hr with ⟨u, hu, hrest⟩
      exact ih (h.2 u hu) hrest

theorem runAll_of_invariant {inv good : σ → Prop}
    (hinv : ∀ s a t, inv s → M.step s a = some t → inv t) (hgood : ∀ s, inv s → good s) {s : σ}
    (hs : inv s) (as : List α) : M.RunAll good s as := by
  induction as generalizing s with
  | nil => exact hgood s hs
  | cons a as ih => exact ⟨hgood s hs, fun t ht => ih (hinv s a t hs ht)⟩

/-- When a step keeps a property exactly under a condition, a run keeps it
exactly when its steps meet the condition. -/
theorem runAll_iff_runOk {ok : σ → α → Prop} {inv : σ → Prop}
    (hstep : ∀ s a t, inv s → M.step s a = some t → (inv t ↔ ok s a)) {s : σ} (hs : inv s)
    (as : List α) : M.RunAll inv s as ↔ M.RunOk ok s as := by
  induction as generalizing s with
  | nil => exact ⟨fun _ => trivial, fun _ => hs⟩
  | cons a as ih =>
      constructor
      · intro h t ht
        have hinv := (h.2 t ht).start
        exact ⟨(hstep s a t hs ht).mp hinv, (ih hinv).mp (h.2 t ht)⟩
      · intro h
        refine ⟨hs, fun t ht => ?_⟩
        have hinv := (hstep s a t hs ht).mpr (h t ht).1
        exact (ih hinv).mpr (h t ht).2

/-- The same for a property whose step lemma needs an invariant. -/
theorem runAll_iff_runOk_of_invariant {ok : σ → α → Prop} {inv good : σ → Prop}
    (hinv : ∀ s a t, inv s → M.step s a = some t → inv t)
    (hstep : ∀ s a t, inv s → good s → M.step s a = some t → (good t ↔ ok s a)) {s : σ}
    (hs : inv s) (hgood : good s) (as : List α) : M.RunAll good s as ↔ M.RunOk ok s as := by
  have hpair : ∀ s a t, inv s ∧ good s → M.step s a = some t → (inv t ∧ good t ↔ ok s a) :=
    fun s a t h ht => (and_iff_right (hinv s a t h.1 ht)).trans (hstep s a t h.1 h.2 ht)
  have hboth := runAll_iff_runOk hpair ⟨hs, hgood⟩ as
  refine Iff.trans ?_ hboth
  clear hboth hgood
  induction as generalizing s with
  | nil => exact (and_iff_right hs).symm
  | cons a as ih =>
      constructor
      · exact fun h => ⟨⟨hs, h.1⟩, fun t ht => (ih (hinv s a t hs ht)).mp (h.2 t ht)⟩
      · exact fun h => ⟨h.1.2, fun t ht => (ih (hinv s a t hs ht)).mpr (h.2 t ht)⟩

theorem Reaches.run {ok : σ → α → Prop} {s t : σ} {as : List α} (h : M.Reaches ok s)
    (hok : M.RunOk ok s as) (hr : M.run s as = some t) : M.Reaches ok t := by
  induction as generalizing s with
  | nil =>
      cases hr
      exact h
  | cons a as ih =>
      rcases Option.bind_eq_some_iff.mp hr with ⟨u, hu, hrest⟩
      have hstep := hok u hu
      exact ih (.step h hstep.1 hu) hstep.2 hrest

/-- When every label is enabled in the states of an invariant, and kept by it, a run returns. -/
theorem run_of_enabled {inv : σ → Prop}
    (hstep : ∀ s a, inv s → ∃ t, M.step s a = some t ∧ inv t) {s : σ} (hs : inv s)
    (as : List α) : ∃ t, M.run s as = some t ∧ inv t := by
  induction as generalizing s with
  | nil => exact ⟨s, rfl, hs⟩
  | cons a as ih =>
      rcases hstep s a hs with ⟨t, ht, hinv⟩
      rcases ih hinv with ⟨u, hu, hlast⟩
      exact ⟨u, Option.bind_eq_some_iff.mpr ⟨t, ht, hu⟩, hlast⟩

/-- Labels that meet the condition in the states of an invariant. -/
theorem runOk_of_invariant {ok : σ → α → Prop} {inv : σ → Prop}
    (hinv : ∀ s a t, inv s → M.step s a = some t → inv t) (hok : ∀ s a, inv s → ok s a) {s : σ}
    (hs : inv s) (as : List α) : M.RunOk ok s as := by
  induction as generalizing s with
  | nil => trivial
  | cons a as ih => exact fun t ht => ⟨hok s a hs, ih (hinv s a t hs ht)⟩

/-- Labels that meet the condition in every state. -/
theorem runOk_of_forall {ok : σ → α → Prop} {s : σ} {as : List α}
    (h : ∀ a ∈ as, ∀ s, ok s a) : M.RunOk ok s as := by
  induction as generalizing s with
  | nil => trivial
  | cons a as ih =>
      intro t _
      exact ⟨h a List.mem_cons_self s, ih fun b hb => h b (List.mem_cons_of_mem a hb)⟩

/-- The last label of a run meets the condition. -/
theorem RunOk.last {ok : σ → α → Prop} {s t u : σ} {as : List α} {a : α}
    (h : M.RunOk ok s (as ++ [a])) (hr : M.run s as = some t) (hstep : M.step t a = some u) :
    ok t a := by
  induction as generalizing s with
  | nil =>
      cases hr
      exact (h u hstep).1
  | cons b as ih =>
      rcases Option.bind_eq_some_iff.mp hr with ⟨v, hv, hrest⟩
      exact ih (h v hv).2 hrest

/-- Two conditions that agree in the states of an invariant, which the first one keeps. -/
theorem runOk_iff_of_invariant {ok ok' : σ → α → Prop} {inv : σ → Prop}
    (hok : ∀ s a, inv s → (ok s a ↔ ok' s a))
    (hinv : ∀ s a t, inv s → ok s a → M.step s a = some t → inv t) {s : σ} (hs : inv s)
    (as : List α) : M.RunOk ok s as ↔ M.RunOk ok' s as := by
  induction as generalizing s with
  | nil => exact Iff.rfl
  | cons a as ih =>
      refine forall₂_congr fun t ht => ?_
      constructor
      · rintro ⟨ha, hrest⟩
        exact ⟨(hok s a hs).mp ha, (ih (hinv s a t hs ha ht)).mp hrest⟩
      · rintro ⟨ha, hrest⟩
        have ha := (hok s a hs).mpr ha
        exact ⟨ha, (ih (hinv s a t hs ha ht)).mpr hrest⟩

/-- A test of the steps of a computed run. -/
def checkRun (M : System σ α) (test : σ → α → Bool) (s : σ) : List α → Bool
  | [] => true
  | a :: as =>
      match M.step s a with
      | none => true
      | some t => test s a && M.checkRun test t as

theorem runOk_of_checkRun {ok : σ → α → Prop} {test : σ → α → Bool}
    (htest : ∀ s a, test s a = true → ok s a) {s : σ} {as : List α}
    (h : M.checkRun test s as = true) : M.RunOk ok s as := by
  induction as generalizing s with
  | nil => trivial
  | cons a as ih =>
      intro t ht
      simp only [checkRun, ht, Bool.and_eq_true] at h
      exact ⟨htest s a h.1, ih h.2⟩

/-- A computed run from an initial state reaches the state it computes. -/
theorem reachable_of_run {s t : σ} {as : List α} (hs : M.init s) (hr : M.run s as = some t) :
    M.Reachable t :=
  Reaches.run (.init hs) (runOk_of_forall fun _ _ _ => trivial) hr

end System
end PlayerInterface.Core
