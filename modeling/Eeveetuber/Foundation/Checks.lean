import Mathlib.Logic.Basic

/-!
# Checks that raise

A constructor that validates its arguments is a sequence of checks in `Except`,
each `if p: raise error`. This file is about such sequences: when all of them
pass, what passed before a result was returned
(`Foundation.except_bind_eq_ok`), and what the errors among them are
(`Foundation.Raises`). Two computations may return and raise alike, each in terms of its
own (`Foundation.Corresponds`).
-/

namespace Foundation

variable {ε ε' α β : Type}

/-- `if p: raise error`. -/
def raiseIf (p : Prop) [Decidable p] (error : ε) : Except ε Unit :=
  if p then .error error else .ok ()

/-- A check of a value that may be absent. -/
def requireIfPresent (check : α → Except ε Unit) : Option α → Except ε Unit
  | none => .ok ()
  | some a => check a

/-- What is there, or an error. -/
def orRaise (error : ε) : Option α → Except ε α
  | none => .error error
  | some a => .ok a

/-! ### Passing -/

section Passing

variable {p : Prop} [Decidable p] {error : ε} {check : Except ε Unit}
  {rest : Unit → Except ε Unit} {x : Except ε α} {f : α → Except ε β} {b : β}

theorem raiseIf_eq_ok : raiseIf p error = .ok () ↔ ¬p := by
  rw [raiseIf]
  split
  · rename_i h
    exact iff_of_false (fun he => by cases he) (not_not.mpr h)
  · rename_i h
    exact iff_of_true rfl h

theorem ok_bind {a : α} : ((.ok a : Except ε α) >>= f) = f a := rfl

theorem except_bind_eq_ok : (x >>= f) = .ok b ↔ ∃ a, x = .ok a ∧ f a = .ok b := by
  rcases x with e | a
  · constructor
    · intro h
      cases h
    · rintro ⟨_, h, -⟩
      cases h
  · constructor
    · intro h
      exact ⟨a, rfl, h⟩
    · rintro ⟨_, h, hf⟩
      obtain rfl := Except.ok.inj h
      exact hf

/-- A check in a sequence of checks passes if it and the rest of the sequence do. -/
theorem check_bind_eq_ok : (check >>= rest) = .ok () ↔ check = .ok () ∧ rest () = .ok () := by
  rw [except_bind_eq_ok]
  exact ⟨fun ⟨_, h⟩ => h, fun h => ⟨(), h⟩⟩

/-- A check in front of a computation. -/
theorem raiseIf_bind_eq_ok {f : Unit → Except ε β} :
    (raiseIf p error >>= f) = .ok b ↔ ¬p ∧ f () = .ok b := by
  rw [except_bind_eq_ok]
  constructor
  · rintro ⟨_, hp, h⟩
    exact ⟨raiseIf_eq_ok.mp hp, h⟩
  · rintro ⟨hp, h⟩
    exact ⟨(), raiseIf_eq_ok.mpr hp, h⟩

theorem orRaise_eq_ok {value : Option α} {a : α} :
    orRaise error value = .ok a ↔ value = some a := by
  rcases value with _ | a'
  · exact iff_of_false (fun h => by cases h) fun h => by cases h
  · rw [orRaise, Except.ok.injEq, Option.some.injEq]

theorem requireIfPresent_eq_ok {test : α → Except ε Unit} {value : Option α} :
    requireIfPresent test value = .ok () ↔ ∀ a ∈ value, test a = .ok () := by
  rcases value with _ | a
  · exact iff_of_true rfl (by simp)
  · simp [requireIfPresent]

theorem forM_eq_ok {test : α → Except ε Unit} {values : List α} :
    values.forM test = .ok () ↔ ∀ a ∈ values, test a = .ok () := by
  induction values with
  | nil => exact iff_of_true rfl (by simp)
  | cons a rest ih =>
    change (test a >>= fun _ => rest.forM test) = .ok () ↔ _
    rw [check_bind_eq_ok, ih, List.forall_mem_cons]

theorem mapError_ok {g : ε → ε'} {a : α} : (Except.ok a).mapError g = .ok a := rfl

theorem mapError_eq_ok {g : ε → ε'} {a : α} : x.mapError g = .ok a ↔ x = .ok a := by
  rcases x with e | b
  · exact iff_of_false (fun h => by cases h) fun h => by cases h
  · rw [mapError_ok, Except.ok.injEq, Except.ok.injEq]

end Passing

/-! ### Raising -/

/-- All that a computation may raise has a property. -/
def Raises (P : ε → Prop) (x : Except ε α) : Prop := ∀ e, x = .error e → P e

section Raising

variable {P : ε → Prop} {x : Except ε α} {f : α → Except ε β} {p : Prop} [Decidable p] {error : ε}

theorem Raises.pure (a : α) : Raises P (.ok a) := fun _ h => by cases h

theorem Raises.throw (h : P error) : Raises P (.error error : Except ε α) := by
  intro e he
  cases he
  exact h

/-- What comes second only runs if the first raises nothing. -/
theorem Raises.bind (hx : Raises P x) (hf : ∀ a, x = .ok a → Raises P (f a)) :
    Raises P (x >>= f) := by
  intro e h
  rcases x with e' | a
  · obtain rfl := Except.error.inj h
    exact hx e' rfl
  · exact hf a rfl e h

theorem Raises.raiseIf (h : p → P error) : Raises P (raiseIf p error) := by
  intro e he
  rw [Foundation.raiseIf] at he
  split at he
  · rename_i hp
    obtain rfl := Except.error.inj he
    exact h hp
  · cases he

theorem Raises.orRaise {value : Option α} (h : value = none → P error) :
    Raises P (orRaise error value) := by
  rcases value with _ | a
  · exact .throw (h rfl)
  · exact .pure a

theorem Raises.mapError {g : ε' → ε} {x : Except ε' α} (h : ∀ e, x = .error e → P (g e)) :
    Raises P (x.mapError g) := by
  rcases x with e | a
  · exact .throw (h e rfl)
  · exact .pure a

end Raising

/-! ### Two computations that correspond -/

/-- Both return, with values that are related, or both raise, with errors that are. -/
inductive Corresponds (errors : ε → ε' → Prop) (values : α → β → Prop) :
    Except ε α → Except ε' β → Prop
  | ok {a : α} {b : β} (h : values a b) : Corresponds errors values (.ok a) (.ok b)
  | error {e : ε} {e' : ε'} (h : errors e e') : Corresponds errors values (.error e) (.error e')

namespace Corresponds

variable {ε₁ α' β' : Type} {errors : ε → ε' → Prop} {values : α → β → Prop}
  {values' : α' → β' → Prop} {x : Except ε α} {y : Except ε' β}

/-- What comes second corresponds if it does on values that are related. -/
theorem bind {f : α → Except ε α'} {g : β → Except ε' β'} (h : Corresponds errors values x y)
    (hnext : ∀ a b, values a b → Corresponds errors values' (f a) (g b)) :
    Corresponds errors values' (x >>= f) (y >>= g) := by
  cases h with
  | ok h => exact hnext _ _ h
  | error h => exact .error h

theorem map {f : α → α'} {g : β → β'} (h : Corresponds errors values x y)
    (hmap : ∀ a b, values a b → values' (f a) (g b)) :
    Corresponds errors values' (f <$> x) (g <$> y) := by
  cases h with
  | ok h => exact .ok (hmap _ _ h)
  | error h => exact .error h

/-- One of the two may go on with what it returns. -/
theorem bind_ok {f : α → α'} {values' : α' → β → Prop} (h : Corresponds errors values x y)
    (hnext : ∀ a b, values a b → values' (f a) b) :
    Corresponds errors values' (x >>= fun a => .ok (f a)) y := by
  cases h with
  | ok h => exact .ok (hnext _ _ h)
  | error h => exact .error h

/-- An error may be wrapped. -/
theorem mapError {wrap : ε → ε₁} {errors' : ε₁ → ε' → Prop} (h : Corresponds errors values x y)
    (hwrap : ∀ e e', errors e e' → errors' (wrap e) e') :
    Corresponds errors' values (x.mapError wrap) y := by
  cases h with
  | ok h => exact .ok h
  | error h => exact .error (hwrap _ _ h)

end Corresponds

end Foundation
