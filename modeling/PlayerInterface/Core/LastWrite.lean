import Mathlib.Data.List.Induction
import Mathlib.Tactic.Common

/-!
# The last item that writes

A loop whose steps either replace what is read of the state by a value of their own or leave it
alone ends with the value of the last step that wrote.
-/

namespace PlayerInterface.Core

variable {α β σ : Type} {writes : α → Bool} {value : α → β}

/-- The value of the last item that writes, and the initial one where none does. -/
def lastWritten (writes : α → Bool) (value : α → β) (initial : β) (items : List α) : β :=
  match (items.filter writes).getLast? with
  | some item => value item
  | none => initial

@[simp] theorem lastWritten_nil (initial : β) : lastWritten writes value initial [] = initial := rfl

theorem lastWritten_append (initial : β) (items : List α) (item : α) :
    lastWritten writes value initial (items ++ [item]) =
      if writes item then value item else lastWritten writes value initial items := by
  cases hw : writes item with
  | true => simp [lastWritten, hw]
  | false => simp [lastWritten, hw]

/-- What is read after a loop over the items. -/
theorem read_foldl {step : σ → α → σ} (read : σ → β)
    (hstep : ∀ s item, read (step s item) = if writes item then value item else read s)
    (s : σ) (items : List α) :
    read (items.foldl step s) = lastWritten writes value (read s) items := by
  induction items using List.reverseRecOn with
  | nil => rfl
  | append_singleton items item ih =>
      rw [List.foldl_append, List.foldl_cons, List.foldl_nil, hstep, lastWritten_append, ih]

theorem lastWritten_none (initial : β) {items : List α} (h : items.any writes = false) :
    lastWritten writes value initial items = initial := by
  have hnone : items.filter writes = [] := by
    rw [List.filter_eq_nil_iff]
    intro item hitem
    simpa using List.any_eq_false.mp h item hitem
  rw [lastWritten, hnone]
  rfl

/-- Items that write one value. -/
theorem lastWritten_const {b : β} (initial : β) (items : List α)
    (h : ∀ item ∈ items, writes item = true → value item = b) :
    lastWritten writes value initial items = if items.any writes then b else initial := by
  induction items using List.reverseRecOn with
  | nil => rfl
  | append_singleton items item ih =>
      have hrest := ih fun x hx => h x (List.mem_append_left _ hx)
      rw [lastWritten_append, hrest, List.any_append, List.any_cons, List.any_nil, Bool.or_false]
      cases hw : writes item with
      | true => rw [if_pos rfl, Bool.or_true, if_pos rfl, h item (by simp) hw]
      | false => rw [if_neg Bool.false_ne_true, Bool.or_false]

end PlayerInterface.Core
