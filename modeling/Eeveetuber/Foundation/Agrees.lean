import Mathlib.Data.List.Basic
import Eeveetuber.Foundation.Stateful

/-!
# Two runs of a method

Where an object is replaced by another that differs from it in nothing a method looks at, the
method answers the same and leaves objects that again do not differ in that.
`Foundation.Stateful.Agrees R f` says so of two outcomes: the objects are related by `R`, and
the second answer is the image of the first under `f`, or both raise the same.

The rules follow the `do` notation, as those of `Foundation.Stateful.Triple` do. A statement
that reads or changes the object is first run, by `Foundation.Stateful.outcome_get_bind` and
`Foundation.Stateful.outcome_modify_bind`, on both sides.
-/

namespace Foundation.Stateful

variable {σ τ ε α α' β β' : Type}

/-- Two outcomes agree. -/
structure Agrees (R : σ → τ → Prop) (f : α → β) (p : Except ε α × σ) (q : Except ε β × τ) :
    Prop where
  state : R p.2 q.2
  answer : q.1 = p.1.map f

namespace Agrees

variable {R : σ → τ → Prop} {f : α → β} {g : α' → β'} {s : σ} {t : τ}

theorem done {a : α} (h : R s t) : Agrees R f (outcome (pure a : Stateful σ ε α) s)
    (outcome (pure (f a) : Stateful τ ε β) t) := ⟨h, rfl⟩

theorem raise (e : ε) (h : R s t) : Agrees R f (outcome (throw e : Stateful σ ε α) s)
    (outcome (throw e : Stateful τ ε β) t) := ⟨h, rfl⟩

/-- A first part that agrees, and a rest that agrees wherever it is run from. -/
theorem bind {x : Stateful σ ε α} {y : Stateful τ ε β} {k : α → Stateful σ ε α'}
    {k' : β → Stateful τ ε β'} (hx : Agrees R f (outcome x s) (outcome y t))
    (hk : ∀ a u v, R u v → Agrees R g (outcome (k a) u) (outcome (k' (f a)) v)) :
    Agrees R g (outcome (x >>= k) s) (outcome (y >>= k') t) := by
  rw [outcome_bind, outcome_bind]
  obtain ⟨hstate, hanswer⟩ := hx
  rcases hp : outcome x s with ⟨e | a, u⟩
  · rcases hq : outcome y t with ⟨e' | b, v⟩
    · rw [hp, hq] at hstate hanswer
      cases hanswer
      exact ⟨hstate, rfl⟩
    · rw [hp, hq] at hanswer
      cases hanswer
  · rcases hq : outcome y t with ⟨e' | b, v⟩
    · rw [hp, hq] at hanswer
      cases hanswer
    · rw [hp, hq] at hstate hanswer
      cases hanswer
      exact hk a u v hstate

/-- A loop that agrees round by round. -/
theorem mapM {ι κ : Type} {body : ι → Stateful σ ε α} {body' : κ → Stateful τ ε β} {h : ι → κ}
    {l : List ι}
    (hbody : ∀ i ∈ l, ∀ u v, R u v → Agrees R f (outcome (body i) u) (outcome (body' (h i)) v))
    (hst : R s t) :
    Agrees R (List.map f) (outcome (l.mapM body) s) (outcome ((l.map h).mapM body') t) := by
  induction l generalizing s t with
  | nil => exact ⟨hst, rfl⟩
  | cons i rest ih =>
    rw [List.map_cons, List.mapM_cons, List.mapM_cons]
    refine (hbody i List.mem_cons_self s t hst).bind fun a u v huv => ?_
    refine (ih (fun j hj => hbody j (List.mem_cons_of_mem _ hj)) huv).bind fun as u v huv => ?_
    exact ⟨huv, rfl⟩

/-- If the one answers, so does the other. -/
theorem of_ok {x : Stateful σ ε α} {y : Stateful τ ε β} {a : α} {u : σ}
    (h : Agrees R f (outcome x s) (outcome y t)) (hx : outcome x s = (.ok a, u)) :
    ∃ v, outcome y t = (.ok (f a), v) ∧ R u v := by
  obtain ⟨hstate, hanswer⟩ := h
  rw [hx] at hstate hanswer
  exact ⟨(outcome y t).2, Prod.ext hanswer rfl, hstate⟩

end Agrees

end Foundation.Stateful
