import Mathlib.Data.List.Basic
import Eeveetuber.Foundation.Stateful

/-!
# Pre- and postconditions of methods

`Foundation.Stateful.Triple P x Q E` says what a method does: started on an
object with `P` it either answers `a` and leaves an object with `Q a`, or raises
and leaves one with `E`. Since what a method changed before it raised stays
changed, `E` is usually an invariant, and it is the same in every part of a
method.

The rules follow the `do` notation: one for each statement, and
`Foundation.Stateful.Triple.mapM` for a loop, whose invariant may speak of the
answers so far and of the elements still to come.
-/

namespace Foundation.Stateful

variable {σ ε α β : Type}

/-- From an object with `P`, the method answers with `Q` or raises with `E`. -/
def Triple (P : σ → Prop) (x : Stateful σ ε α) (Q : α → σ → Prop) (E : σ → Prop) : Prop :=
  ∀ s, P s → match outcome x s with
    | (.ok a, t) => Q a t
    | (.error _, t) => E t

namespace Triple

variable {P P' : σ → Prop} {Q Q' : α → σ → Prop} {R : β → σ → Prop} {E E' : σ → Prop}
  {x : Stateful σ ε α} {f : α → Stateful σ ε β}

/-- What the triple says of a run that answers. -/
theorem ok (h : Triple P x Q E) {s t : σ} {a : α} (hs : P s) (hx : outcome x s = (.ok a, t)) :
    Q a t := by
  have := h s hs
  rwa [hx] at this

/-- What the triple says of a run that raises. -/
theorem raised (h : Triple P x Q E) {s t : σ} {e : ε} (hs : P s)
    (hx : outcome x s = (.error e, t)) : E t := by
  have := h s hs
  rwa [hx] at this

/-- What holds of an object however the run ends. -/
theorem state (h : Triple P x (fun _ => E) E) {s : σ} (hs : P s) : E (outcome x s).2 := by
  have := h s hs
  rcases hx : outcome x s with ⟨_ | _, t⟩
  · exact h.raised hs hx
  · exact h.ok hs hx

theorem bind (hx : Triple P x Q E) (hf : ∀ a, Triple (Q a) (f a) R E) :
    Triple P (x >>= f) R E := by
  intro s hs
  rw [outcome_bind]
  rcases h : outcome x s with ⟨_ | a, t⟩
  · exact hx.raised hs h
  · exact hf a t (hx.ok hs h)

theorem weaken (hx : Triple P x Q E) (hP : ∀ s, P' s → P s) (hQ : ∀ a s, Q a s → Q' a s)
    (hE : ∀ s, E s → E' s) : Triple P' x Q' E' := by
  intro s hs
  rcases h : outcome x s with ⟨_ | a, t⟩
  · exact hE t (hx.raised (hP s hs) h)
  · exact hQ a t (hx.ok (hP s hs) h)

/-- A stronger precondition. -/
theorem pre (hx : Triple P x Q E) (hP : ∀ s, P' s → P s) : Triple P' x Q E :=
  hx.weaken hP (fun _ _ => id) fun _ => id

/-- A weaker postcondition. -/
theorem post (hx : Triple P x Q E) (hQ : ∀ a s, Q a s → Q' a s) : Triple P x Q' E :=
  hx.weaken (fun _ => id) hQ fun _ => id

/-- A method that raises nothing. -/
theorem never (hx : Triple P x Q fun _ => False) : Triple P x Q E :=
  hx.weaken (fun _ => id) (fun _ _ => id) fun _ => False.elim

/-- A method that raises nothing answers. -/
theorem answers (hx : Triple P x Q fun _ => False) {s : σ} (hs : P s) :
    ∃ a t, outcome x s = (.ok a, t) ∧ Q a t := by
  rcases h : outcome x s with ⟨_ | a, t⟩
  · exact (hx.raised hs h).elim
  · exact ⟨a, t, rfl, hx.ok hs h⟩

/-- Two triples of one method. -/
theorem and (hx : Triple P x Q E) (hx' : Triple P x Q' E') :
    Triple P x (fun a s => Q a s ∧ Q' a s) fun s => E s ∧ E' s := by
  intro s hs
  rcases h : outcome x s with ⟨_ | a, t⟩
  · exact ⟨hx.raised hs h, hx'.raised hs h⟩
  · exact ⟨hx.ok hs h, hx'.ok hs h⟩

theorem answer {a : α} (h : ∀ s, P s → Q a s) : Triple P (pure a : Stateful σ ε α) Q E :=
  fun s hs => h s hs

theorem raise {e : ε} (h : ∀ s, P s → E s) : Triple P (throw e : Stateful σ ε α) Q E :=
  fun s hs => h s hs

/-- A statement that raises, and the rest that is not run. -/
theorem fail {e : ε} (h : ∀ s, P s → E s) : Triple P ((throw e : Stateful σ ε α) >>= f) R E :=
  fun s hs => h s hs

/-- A statement that reads the object. -/
theorem read {g : σ → Stateful σ ε β} {s : σ} (h : Triple (fun t => s = t) (g s) R E) :
    Triple (fun t => s = t) (getThe σ >>= g) R E := by
  rintro _ rfl
  exact h s rfl

/-- A statement that changes the object. -/
theorem change {g : σ → σ} {k : Unit → Stateful σ ε β} {s : σ}
    (h : Triple (fun t => g s = t) (k ()) R E) :
    Triple (fun t => s = t) (modify g >>= k) R E := by
  rintro _ rfl
  exact h (g s) rfl

/-- A statement that asks code which does not touch the object. -/
theorem ask {y : Except ε α} (hok : ∀ a, y = .ok a → ∀ s, P s → Q a s) (hE : ∀ s, P s → E s) :
    Triple P (liftM y : Stateful σ ε α) Q E := by
  intro s hs
  rw [outcome_lift]
  rcases y with e | a
  · exact hE s hs
  · exact hok a rfl s hs

/-- A triple is a triple for each object it starts from. -/
theorem each (h : ∀ s, P s → Triple (fun t => s = t) x Q E) : Triple P x Q E :=
  fun s hs => h s hs s rfl

/-- A loop over a list: `I rest answers` holds while `rest` is still to come. -/
theorem mapM {g : α → Stateful σ ε β} {I : List α → List β → σ → Prop}
    (h : ∀ a rest answers, Triple (I (a :: rest) answers) (g a)
      (fun b => I rest (answers ++ [b])) E) (l : List α) :
    Triple (I l []) (l.mapM g) (fun answers => I [] answers) E := by
  suffices hall : ∀ l answers, Triple (I l answers) (l.mapM g)
      (fun more => I [] (answers ++ more)) E from hall l []
  intro l
  induction l with
  | nil =>
    intro answers
    rw [List.mapM_nil]
    exact answer fun s hs => by rwa [List.append_nil]
  | cons a rest ih =>
    intro answers
    rw [List.mapM_cons]
    refine (h a rest answers).bind fun b => (ih (answers ++ [b])).bind fun more => answer ?_
    intro s hs
    rwa [List.append_assoc] at hs

end Triple

end Foundation.Stateful
