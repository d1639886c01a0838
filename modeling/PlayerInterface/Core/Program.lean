import PlayerInterface.Core.Bytes

/-!
# Programs over a memory

A program reads a memory, changes a state and either returns or stops for a
reason. A rule runs one statement as far as a view of the state shows it: what
the view shows behind a statement is where the next one starts.
-/

namespace PlayerInterface.Core

abbrev Program (σ ε : Type) := ReaderT Mem (StateT σ (Except ε))

namespace Program

variable {σ ε ρ ρ' α β : Type} {m : Mem}

/-- A statement that is left out when its condition fails. -/
def when (c : Prop) [Decidable c] (x : Program σ ε Unit) : Program σ ε Unit :=
  if c then x else pure ()

/-- A value that keeps its default when its condition fails. -/
def orDefault (c : Prop) [Decidable c] (default : α) (x : Program σ ε α) : Program σ ε α :=
  if c then x else pure default

theorem bind_apply (x : Program σ ε α) (f : α → Program σ ε β) (m : Mem) (s : σ) :
    (x >>= f) m s = (x m s).bind fun r => f r.1 m r.2 := rfl

theorem bind_ok {x : Program σ ε α} {s s' : σ} {a : α} (h : x m s = .ok (a, s'))
    (f : α → Program σ ε β) : (x >>= f) m s = f a m s' := by
  rw [bind_apply, h]
  rfl

theorem bind_error {x : Program σ ε α} {s : σ} {e : ε} (h : x m s = .error e)
    (f : α → Program σ ε β) : (x >>= f) m s = .error e := by
  rw [bind_apply, h]
  rfl

/-- What follows depends on a run only through its result. -/
theorem bind_congr {x y : Program σ ε α} {s s' : σ} (h : x m s = y m s')
    (f : α → Program σ ε β) : (x >>= f) m s = (y >>= f) m s' := by
  rw [bind_apply, bind_apply, h]

theorem get_bind (f : σ → Program σ ε β) (m : Mem) (s : σ) :
    (MonadState.get >>= f) m s = f s m s := rfl

theorem modify_bind (f : σ → σ) (g : Unit → Program σ ε β) (m : Mem) (s : σ) :
    (modify f >>= g) m s = g () m (f s) := rfl

/-- `x` returns from `s`, and what it returns and leaves satisfies `Q`. -/
def Returns (x : Program σ ε α) (m : Mem) (s : σ) (Q : α → σ → Prop) : Prop :=
  ∃ a s', x m s = .ok (a, s') ∧ Q a s'

namespace Returns

variable {s s' : σ} {a : α} {Q : β → σ → Prop}

theorem step {x : Program σ ε α} {f : α → Program σ ε β} (hx : x m s = .ok (a, s'))
    (hf : Returns (f a) m s' Q) : Returns (x >>= f) m s Q := by
  obtain ⟨b, s'', hb, hQ⟩ := hf
  exact ⟨b, s'', by rw [bind_ok hx, hb], hQ⟩

theorem get {f : σ → Program σ ε β} (h : Returns (f s) m s Q) :
    Returns (MonadState.get >>= f) m s Q := step rfl h

end Returns

/-- From every state the view shows as `r`, `x` returns `a` and the view then shows `r'`. -/
def Yields (view : σ → ρ) (x : Program σ ε α) (m : Mem) (r : ρ) (a : α) (r' : ρ) : Prop :=
  ∀ s, view s = r → ∃ s', x m s = .ok (a, s') ∧ view s' = r'

namespace Yields

variable {view : σ → ρ} {r r' r'' : ρ} {a : α} {b : β}

theorem pure (a : α) : Yields view (pure a : Program σ ε α) m r a r := fun s hs => ⟨s, rfl, hs⟩

theorem bind {x : Program σ ε α} {f : α → Program σ ε β} (hx : Yields view x m r a r')
    (hf : Yields view (f a) m r' b r'') : Yields view (x >>= f) m r b r'' := by
  intro s hs
  obtain ⟨s', hs', hr'⟩ := hx s hs
  obtain ⟨s'', hs'', hr''⟩ := hf s' hr'
  exact ⟨s'', by rw [bind_ok hs', hs''], hr''⟩

/-- A statement after reading the state may use what the view shows of it. -/
theorem get {f : σ → Program σ ε β} (h : ∀ s, view s = r → Yields view (f s) m r b r') :
    Yields view (MonadState.get >>= f) m r b r' :=
  fun s hs => h s hs s hs

theorem modify {f : σ → σ} (g : ρ → ρ) (h : ∀ s, view (f s) = g (view s)) :
    Yields view (modify f : Program σ ε Unit) m r () (g r) := by
  rintro s rfl
  exact ⟨f s, rfl, h s⟩

end Yields

/-! ## Two runs -/

/-- Both runs return the same value, in related states, or stop for the same reason. -/
inductive SameEnd (rel : σ → σ → Prop) :
    Except ε (α × σ) → Except ε (α × σ) → Prop where
  | ok {a : α} {s s' : σ} : rel s s' → SameEnd rel (.ok (a, s)) (.ok (a, s'))
  | error {e : ε} : SameEnd rel (.error e) (.error e)

theorem SameEnd.elim {rel : σ → σ → Prop} {r r' : Except ε (α × σ)} (h : SameEnd rel r r') :
    (∃ e, r = .error e ∧ r' = .error e) ∨
      ∃ a s s', r = .ok (a, s) ∧ r' = .ok (a, s') ∧ rel s s' := by
  cases h with
  | ok hrel => exact Or.inr ⟨_, _, _, rfl, rfl, hrel⟩
  | error => exact Or.inl ⟨_, rfl, rfl⟩

/-- From related states, `x` and `y` end in the same way. -/
def Agree (rel : σ → σ → Prop) (m : Mem) (x y : Program σ ε α) : Prop :=
  ∀ s s', rel s s' → SameEnd rel (x m s) (y m s')

namespace Agree

variable {rel : σ → σ → Prop}

theorem pure (a : α) : Agree rel m (pure a : Program σ ε α) (pure a) :=
  fun _ _ h => .ok h

theorem throw (e : ε) : Agree rel m (throw e : Program σ ε α) (throw e) :=
  fun _ _ _ => .error

theorem bind {x y : Program σ ε α} {f g : α → Program σ ε β} (hx : Agree rel m x y)
    (hf : ∀ a, Agree rel m (f a) (g a)) : Agree rel m (x >>= f) (y >>= g) := by
  intro s s' h
  have hfirst := hx s s' h
  rw [bind_apply, bind_apply]
  generalize x m s = r at hfirst
  generalize y m s' = r' at hfirst
  cases hfirst with
  | ok hrel => exact hf _ _ _ hrel
  | error => exact .error

theorem get {f g : σ → Program σ ε β} (hf : ∀ s s', rel s s' → Agree rel m (f s) (g s')) :
    Agree rel m (MonadState.get >>= f) (MonadState.get >>= g) :=
  fun s s' h => hf s s' h s s' h

theorem modify {f g : σ → σ} (hf : ∀ s s', rel s s' → rel (f s) (g s')) :
    Agree rel m (modify f : Program σ ε Unit) (modify g) :=
  fun s s' h => .ok (hf s s' h)

theorem read : Agree rel m (MonadReader.read : Program σ ε Mem) MonadReader.read :=
  fun _ _ h => .ok h

theorem ite {c : Prop} [Decidable c] {x y x' y' : Program σ ε α} (hx : Agree rel m x y)
    (hx' : Agree rel m x' y') : Agree rel m (if c then x else x') (if c then y else y') := by
  split
  · exact hx
  · exact hx'

theorem when {c : Prop} [Decidable c] {x y : Program σ ε Unit} (h : Agree rel m x y) :
    Agree rel m (Program.when c x) (Program.when c y) :=
  ite h (pure ())

theorem orDefault {c : Prop} [Decidable c] {x y : Program σ ε α} (default : α)
    (h : Agree rel m x y) :
    Agree rel m (Program.orDefault c default x) (Program.orDefault c default y) :=
  ite h (pure default)

end Agree
end Program
end PlayerInterface.Core
