import Mathlib.Tactic.Common

/-!
# Transactions

Computations with a state and an error, where the state stays as it was left when an error is thrown.
A transaction that reads and checks first and writes only when nothing can fail any more is atomic: an
error leaves the state as it was (`ReadOnly.bind`, `Infallible.atomic`). The `_ok` lemmas take a
successful outcome apart, step by step.
-/

/-- A computation over the state `σ` that may fail with an `ε`. -/
abbrev Transaction (ε σ : Type) := ExceptT ε (StateM σ)

namespace Transaction

variable {ε σ α β : Type}

/-- The result of a transaction and the state it leaves. -/
def outcome (op : Transaction ε σ α) (s : σ) : Except ε α × σ := StateT.run (ExceptT.run op) s

/-- A computation that does not touch the state. -/
def of (x : Except ε α) : Transaction ε σ α := ExceptT.mk (pure x)

@[simp] theorem outcome_of (x : Except ε α) (s : σ) : outcome (of x) s = (x, s) := rfl

@[simp] theorem outcome_pure (a : α) (s : σ) : outcome (pure a : Transaction ε σ α) s = (.ok a, s) := rfl

@[simp] theorem outcome_get (s : σ) : outcome (get : Transaction ε σ σ) s = (.ok s, s) := rfl

@[simp] theorem outcome_modify (f : σ → σ) (s : σ) :
    outcome (modify f : Transaction ε σ Unit) s = (.ok (), f s) := rfl

theorem outcome_bind (x : Transaction ε σ α) (f : α → Transaction ε σ β) (s : σ) :
    outcome (x >>= f) s =
      match outcome x s with
      | (.ok a, t) => outcome (f a) t
      | (.error e, t) => (.error e, t) := by
  show StateT.run (ExceptT.run (x >>= f)) s = _
  rw [ExceptT.run_bind, StateT.run_bind]
  unfold outcome
  rcases h : StateT.run (ExceptT.run x) s with ⟨r, t⟩
  cases r with
  | ok a => rfl
  | error e => rfl

theorem outcome_bind_ok {x : Transaction ε σ α} {f : α → Transaction ε σ β} {s u : σ} {b : β}
    (h : outcome (x >>= f) s = (.ok b, u)) :
    ∃ a t, outcome x s = (.ok a, t) ∧ outcome (f a) t = (.ok b, u) := by
  rw [outcome_bind] at h
  rcases hx : outcome x s with ⟨r, t⟩
  rw [hx] at h
  cases r with
  | ok a => exact ⟨a, t, rfl, h⟩
  | error e => cases h

theorem outcome_get_bind_ok {f : σ → Transaction ε σ β} {s u : σ} {b : β}
    (h : outcome (get >>= f) s = (.ok b, u)) : outcome (f s) s = (.ok b, u) := by
  obtain ⟨_, _, hg, h⟩ := outcome_bind_ok h
  cases hg
  exact h

theorem outcome_of_bind_ok {x : Except ε α} {f : α → Transaction ε σ β} {s u : σ} {b : β}
    (h : outcome (of x >>= f) s = (.ok b, u)) :
    ∃ a, x = .ok a ∧ outcome (f a) s = (.ok b, u) := by
  obtain ⟨a, _, hx, h⟩ := outcome_bind_ok h
  cases hx
  exact ⟨a, rfl, h⟩

theorem outcome_modify_bind {g : σ → σ} {f : Unit → Transaction ε σ β} {s : σ} :
    outcome (modify g >>= f) s = outcome (f ()) (g s) := by
  rw [outcome_bind, outcome_modify]

/-! ## Atomicity -/

/-- The state is not changed. -/
def ReadOnly (op : Transaction ε σ α) : Prop := ∀ s, (outcome op s).2 = s

/-- No error is thrown. -/
def Infallible (op : Transaction ε σ α) : Prop := ∀ s e, (outcome op s).1 ≠ .error e

/-- An error leaves the state as it was. -/
def Atomic (op : Transaction ε σ α) : Prop := ∀ s e, (outcome op s).1 = .error e → (outcome op s).2 = s

theorem readOnly_of (x : Except ε α) : ReadOnly (of x : Transaction ε σ α) := fun _ => rfl

theorem readOnly_get : ReadOnly (get : Transaction ε σ σ) := fun _ => rfl

theorem infallible_pure (a : α) : Infallible (pure a : Transaction ε σ α) := by
  intro s e h
  cases h

theorem Infallible.atomic {op : Transaction ε σ α} (h : Infallible op) : Atomic op :=
  fun s e he => absurd he (h s e)

theorem ReadOnly.atomic {op : Transaction ε σ α} (h : ReadOnly op) : Atomic op := fun s _ _ => h s

/-- A write may be followed by what cannot fail. -/
theorem Infallible.modify_bind {g : σ → σ} {f : Unit → Transaction ε σ β} (h : Infallible (f ())) :
    Infallible (modify g >>= f) := by
  intro s e
  rw [outcome_modify_bind]
  exact h (g s) e

theorem infallible_modify (g : σ → σ) : Infallible (modify g : Transaction ε σ Unit) := by
  intro s e h
  cases h

/-- An atomic transaction whose answer is replaced is atomic. -/
theorem Atomic.bind_pure {x : Transaction ε σ α} (hx : Atomic x) (g : α → β) :
    Atomic (x >>= fun a => pure (g a)) := by
  intro s e h
  rw [outcome_bind] at h ⊢
  rcases hr : outcome x s with ⟨r, t⟩
  rw [hr] at h
  cases r with
  | ok a => cases h
  | error e' =>
    have := hx s e'
    rw [hr] at this
    exact this rfl

/-- Checks before an atomic transaction keep it atomic. -/
theorem ReadOnly.bind {x : Transaction ε σ α} {f : α → Transaction ε σ β} (hx : ReadOnly x)
    (hf : ∀ a, Atomic (f a)) : Atomic (x >>= f) := by
  intro s e h
  rw [outcome_bind] at h ⊢
  have hs := hx s
  rcases hr : outcome x s with ⟨r, t⟩
  rw [hr] at h hs
  simp only at hs
  subst hs
  cases r with
  | ok a => exact hf a t e h
  | error e' => rfl

end Transaction
