import Mathlib.Logic.Basic

/-!
# Methods: computations that change a state and may raise

A method of an object changes the object's fields one after the other and may
raise in between. `Foundation.Stateful σ ε` is the monad of such computations:
the changes made before an exception stay made. A method's code is written in
its `do` notation; what it does to an object is its `Foundation.Stateful.outcome`,
the answer or exception together with the object it leaves.

The equations below run a method one statement at a time, and
`Foundation.Stateful.outcome_bind_eq_ok` takes a run that raised nothing apart.
-/

namespace Foundation

/-- Computations over a state `σ` that may raise an `ε`. -/
abbrev Stateful (σ ε : Type) := ExceptT ε (StateM σ)

namespace Stateful

variable {σ ε α β : Type}

/-- What a computation answers or raises, and the state it leaves. -/
def outcome (x : Stateful σ ε α) (s : σ) : Except ε α × σ := x.run.run s

variable {s t u : σ} {a : α} {b : β} {x : Stateful σ ε α} {f : α → Stateful σ ε β}

theorem outcome_bind : outcome (x >>= f) s = match outcome x s with
    | (.ok a, t) => outcome (f a) t
    | (.error e, t) => (.error e, t) := by
  simp only [outcome, ExceptT.run_bind, StateT.run_bind]
  rcases x.run.run s with ⟨_ | a, t⟩ <;> rfl

/-- A first part that raises nothing. -/
theorem outcome_bind_of_ok (h : outcome x s = (.ok a, t)) :
    outcome (x >>= f) s = outcome (f a) t := by
  rw [outcome_bind, h]

/-- A first part that raises. -/
theorem outcome_bind_of_error {e : ε} (h : outcome x s = (.error e, t)) :
    outcome (x >>= f) s = (.error e, t) := by
  rw [outcome_bind, h]

/-- A run that raises nothing is made of runs that raise nothing. -/
theorem outcome_bind_eq_ok :
    outcome (x >>= f) s = (.ok b, u) ↔
      ∃ a t, outcome x s = (.ok a, t) ∧ outcome (f a) t = (.ok b, u) := by
  rw [outcome_bind]
  rcases outcome x s with ⟨e | a, t⟩
  · refine ⟨fun h => ?_, fun ⟨a, t', h, _⟩ => ?_⟩
    · cases h
    · cases h
  · refine ⟨fun h => ⟨a, t, rfl, h⟩, fun ⟨a', t', h, h'⟩ => ?_⟩
    cases h
    exact h'

/-- Changing what a run answers. -/
theorem outcome_map {γ : Type} (g : α → γ) :
    outcome (g <$> x) s = ((outcome x s).1.map g, (outcome x s).2) := by
  rw [← bind_pure_comp, outcome_bind]
  rcases outcome x s with ⟨_ | a, t⟩ <;> rfl

@[simp] theorem outcome_pure : outcome (pure a : Stateful σ ε α) s = (.ok a, s) := rfl

@[simp] theorem outcome_get : outcome (getThe σ : Stateful σ ε σ) s = (.ok s, s) := rfl

@[simp] theorem outcome_modify (g : σ → σ) :
    outcome (modify g : Stateful σ ε Unit) s = (.ok (), g s) := rfl

@[simp] theorem outcome_throw (e : ε) :
    outcome (throw e : Stateful σ ε α) s = (.error e, s) := rfl

@[simp] theorem outcome_lift (y : Except ε α) :
    outcome (liftM y : Stateful σ ε α) s = (y, s) := by
  cases y <;> rfl

/-- Reading the state first. -/
@[simp] theorem outcome_get_bind (g : σ → Stateful σ ε β) :
    outcome (getThe σ >>= g) s = outcome (g s) s := rfl

/-- Changing the state first. -/
@[simp] theorem outcome_modify_bind (g : σ → σ) (k : Unit → Stateful σ ε β) :
    outcome (modify g >>= k) s = outcome (k ()) (g s) := rfl

/-- Raising first. -/
@[simp] theorem outcome_throw_bind (e : ε) :
    outcome (throw e >>= f) s = (.error e, s) := rfl

end Stateful

end Foundation
