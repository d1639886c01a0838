import PlayerInterface.Core.Bytes

/-!
# Cursor readers that log what they read

A reader walks one cursor over a memory: the value it reads, where the cursor
stops, and the indices it read. Every primitive logs its indices, so a bound on
the log is a bound on the computation itself and no reader can look at a cell
without being seen.
-/

namespace PlayerInterface.Core

structure Reader (α : Type) where
  val : Mem → Nat → α
  next : Mem → Nat → Nat
  reads : Mem → Nat → List Nat

namespace Reader

variable {α β : Type}

instance : Monad Reader where
  pure a := ⟨fun _ _ => a, fun _ p => p, fun _ _ => []⟩
  bind r f :=
    { val := fun m p => (f (r.val m p)).val m (r.next m p)
      next := fun m p => (f (r.val m p)).next m (r.next m p)
      reads := fun m p => r.reads m p ++ (f (r.val m p)).reads m (r.next m p) }

def tell : Reader Nat := ⟨fun _ p => p, fun _ p => p, fun _ _ => []⟩

def skip (count : Nat) : Reader Unit := ⟨fun _ _ => (), fun _ p => p + count, fun _ _ => []⟩

def readBytes (count : Nat) : Reader Bytes :=
  ⟨fun m p => m.slice p count, fun _ p => p + count, fun _ p => List.range' p count⟩

/-- A big-endian word of `width` bytes. -/
def readBe (width : Nat) : Reader Nat :=
  ⟨fun m p => m.be p width, fun _ p => p + width, fun _ p => List.range' p width⟩

/-- One byte, leaving the cursor where it is. -/
def peek : Reader Nat := ⟨fun m p => (m p).toNat, fun _ p => p, fun _ p => [p]⟩

/-- Length of the string at the cursor with its terminator, or `-1` when none
of the next `len` bytes is zero. The cursor stays. -/
def cstringLen (len : Nat) : Reader Int where
  val m p := match m.scanNul p len with
    | some i => i + 1
    | none => -1
  next _ p := p
  reads m p := List.range' p (match m.scanNul p len with
    | some i => i + 1
    | none => len)

/-- An optional field: `r` when the condition holds, else the default and no read. -/
def readIf (c : Bool) (default : α) (r : Reader α) : Reader α :=
  if c then r else pure default

/-! ## Values and cursor -/

@[simp] theorem val_pure (a : α) (m : Mem) (p : Nat) : (pure a : Reader α).val m p = a := rfl

@[simp] theorem next_pure (a : α) (m : Mem) (p : Nat) : (pure a : Reader α).next m p = p := rfl

@[simp] theorem val_bind (r : Reader α) (f : α → Reader β) (m : Mem) (p : Nat) :
    (r >>= f).val m p = (f (r.val m p)).val m (r.next m p) := rfl

@[simp] theorem next_bind (r : Reader α) (f : α → Reader β) (m : Mem) (p : Nat) :
    (r >>= f).next m p = (f (r.val m p)).next m (r.next m p) := rfl

@[simp] theorem val_tell (m : Mem) (p : Nat) : tell.val m p = p := rfl

@[simp] theorem next_tell (m : Mem) (p : Nat) : tell.next m p = p := rfl

@[simp] theorem next_skip (count : Nat) (m : Mem) (p : Nat) :
    (skip count).next m p = p + count := rfl

@[simp] theorem val_readBytes (count : Nat) (m : Mem) (p : Nat) :
    (readBytes count).val m p = m.slice p count := rfl

@[simp] theorem next_readBytes (count : Nat) (m : Mem) (p : Nat) :
    (readBytes count).next m p = p + count := rfl

@[simp] theorem val_readBe (width : Nat) (m : Mem) (p : Nat) :
    (readBe width).val m p = m.be p width := rfl

@[simp] theorem next_readBe (width : Nat) (m : Mem) (p : Nat) :
    (readBe width).next m p = p + width := rfl

@[simp] theorem val_peek (m : Mem) (p : Nat) : peek.val m p = (m p).toNat := rfl

@[simp] theorem next_peek (m : Mem) (p : Nat) : peek.next m p = p := rfl

@[simp] theorem val_ite (c : Prop) [Decidable c] (r s : Reader α) (m : Mem) (p : Nat) :
    (if c then r else s).val m p = if c then r.val m p else s.val m p := by
  split <;> rfl

@[simp] theorem next_ite (c : Prop) [Decidable c] (r s : Reader α) (m : Mem) (p : Nat) :
    (if c then r else s).next m p = if c then r.next m p else s.next m p := by
  split <;> rfl

@[simp] theorem val_readIf (c : Bool) (d : α) (r : Reader α) (m : Mem) (p : Nat) :
    (readIf c d r).val m p = if c then r.val m p else d := by
  unfold readIf
  split <;> rfl

@[simp] theorem next_readIf (c : Bool) (d : α) (r : Reader α) (m : Mem) (p : Nat) :
    (readIf c d r).next m p = if c then r.next m p else p := by
  unfold readIf
  split <;> rfl

/-! ## Bounded reading -/

/-- Every index read from cursor `p` on lies below `n`. -/
def Within (n : Nat) (r : Reader α) (m : Mem) (p : Nat) : Prop :=
  ∀ i ∈ r.reads m p, i < n

theorem range'_lt_iff (p count n : Nat) :
    (∀ i ∈ List.range' p count, i < n) ↔ count = 0 ∨ p + count ≤ n := by
  constructor
  · intro h
    rcases Nat.eq_zero_or_pos count with hz | hp
    · exact Or.inl hz
    · have := h (p + count - 1) (List.mem_range'_1.mpr (by omega))
      omega
  · intro h i hi
    have := List.mem_range'_1.mp hi
    omega

@[simp] theorem within_pure (n : Nat) (a : α) (m : Mem) (p : Nat) :
    Within n (pure a) m p ↔ True :=
  ⟨fun _ => trivial, fun _ i hi => by cases hi⟩

@[simp] theorem within_bind (n : Nat) (r : Reader α) (f : α → Reader β) (m : Mem) (p : Nat) :
    Within n (r >>= f) m p ↔ Within n r m p ∧ Within n (f (r.val m p)) m (r.next m p) := by
  have hreads : (r >>= f).reads m p = r.reads m p ++ (f (r.val m p)).reads m (r.next m p) := rfl
  simp only [Within, hreads, List.mem_append]
  constructor
  · exact fun h => ⟨fun i hi => h i (Or.inl hi), fun i hi => h i (Or.inr hi)⟩
  · rintro ⟨hr, hf⟩ i (hi | hi)
    · exact hr i hi
    · exact hf i hi

@[simp] theorem within_tell (n : Nat) (m : Mem) (p : Nat) : Within n tell m p ↔ True :=
  ⟨fun _ => trivial, fun _ i hi => by cases hi⟩

@[simp] theorem within_skip (n count : Nat) (m : Mem) (p : Nat) :
    Within n (skip count) m p ↔ True :=
  ⟨fun _ => trivial, fun _ i hi => by cases hi⟩

@[simp] theorem within_readBytes (n count : Nat) (m : Mem) (p : Nat) :
    Within n (readBytes count) m p ↔ count = 0 ∨ p + count ≤ n :=
  range'_lt_iff p count n

@[simp] theorem within_readBe (n width : Nat) (m : Mem) (p : Nat) :
    Within n (readBe width) m p ↔ width = 0 ∨ p + width ≤ n :=
  range'_lt_iff p width n

@[simp] theorem within_peek (n : Nat) (m : Mem) (p : Nat) : Within n peek m p ↔ p < n := by
  simp [Within, peek]

@[simp] theorem within_ite (n : Nat) (c : Prop) [Decidable c] (r s : Reader α) (m : Mem)
    (p : Nat) : Within n (if c then r else s) m p ↔ if c then Within n r m p else Within n s m p := by
  split <;> rfl

@[simp] theorem within_readIf (n : Nat) (c : Bool) (d : α) (r : Reader α) (m : Mem) (p : Nat) :
    Within n (readIf c d r) m p ↔ (c → Within n r m p) := by
  unfold readIf
  split <;> simp_all

/-! ## Strings -/

@[simp] theorem next_cstringLen (len : Nat) (m : Mem) (p : Nat) :
    (cstringLen len).next m p = p := rfl

theorem val_cstringLen_some {m : Mem} {p len i : Nat} (h : m.scanNul p len = some i) :
    (cstringLen len).val m p = i + 1 := by
  simp [cstringLen, h]

theorem val_cstringLen_none {m : Mem} {p len : Nat} (h : m.scanNul p len = none) :
    (cstringLen len).val m p = -1 := by
  simp [cstringLen, h]

theorem within_cstringLen_some {m : Mem} {p len i : Nat} (h : m.scanNul p len = some i) (n : Nat) :
    Within n (cstringLen len) m p ↔ p + (i + 1) ≤ n := by
  simp only [Within, cstringLen, h, range'_lt_iff]
  omega

theorem within_cstringLen_none {m : Mem} {p len : Nat} (h : m.scanNul p len = none) (n : Nat) :
    Within n (cstringLen len) m p ↔ len = 0 ∨ p + len ≤ n := by
  simp only [Within, cstringLen, h, range'_lt_iff]

end Reader
end PlayerInterface.Core
