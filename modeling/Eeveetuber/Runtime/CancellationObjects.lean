import Eeveetuber.Foundation.Machine
import Eeveetuber.Foundation.Stateful
import Eeveetuber.Runtime.Cancellation

/-!
# The state objects behind a cancellation source

`Eeveetuber.CancellationSource` names the state of a generation by the
generation. The code has no such table: a source holds a reference to *one*
state object, `advance` replaces the reference, and a token keeps the reference
it was made with, to an object the source has long forgotten. This module runs
the calls over those objects, which are allocated in
`Eeveetuber.SourceObjects.heap` and never freed.

Whether a token is cancelled is then read off its own object, and whether its
generation is accepted off the object the source holds and the source's closed
flag, so that the two agree only because of how the objects came about. What
carries it is `Eeveetuber.CancellationHistory.Coherent`: the source holds the
object allocated last, every earlier one is cancelled, a closed source has
cancelled its own, and a token's generation counts the objects allocated before
its object.

`Eeveetuber.SourceObjects.toSource` forgets the references; each call does there
what it does to the table.
-/

namespace Eeveetuber

open Foundation Stateful

/-- `_CancellationState`. -/
structure StateObject where
  /-- Whether the event is set. -/
  event : Bool
  /-- The reason given by the call that set it. -/
  reason : Option Text
  /-- When it was set. -/
  cancelledAtMonotonicMs : Option ℤ
deriving DecidableEq, Repr

namespace StateObject

/-- A new object. -/
def fresh : StateObject := ⟨false, none, none⟩

/-- Set the event at the time `now`, unless it is set; tell whether this call did. -/
def cancel (s : StateObject) (reason : Text) (now : ℤ) : StateObject × Bool :=
  if s.event then (s, false) else (⟨true, some reason, some now⟩, true)

variable {s : StateObject} {reason : Text} {now : ℤ}

@[simp] theorem event_cancel : (s.cancel reason now).1.event = true := by
  unfold cancel
  split
  · assumption
  · rfl

/-- An event that is set is left as it is. -/
theorem cancel_of_event (h : s.event = true) : s.cancel reason now = (s, false) := if_pos h

/-- An event that is not set is set, with the reason and the time of this call. -/
theorem cancel_of_not_event (h : s.event = false) :
    s.cancel reason now = (⟨true, some reason, some now⟩, true) :=
  if_neg (by simp [h])

/-- The state the table of generations keeps of an object. -/
def toState (s : StateObject) : CancellationState := ⟨s.event, s.reason⟩

theorem toState_cancel :
    ((s.cancel reason now).1.toState, (s.cancel reason now).2) = s.toState.cancel reason := by
  rcases h : s.event with _ | _
  · rw [cancel_of_not_event h, CancellationState.cancel, if_neg (by simp [toState, h])]
    rfl
  · rw [cancel_of_event h, CancellationState.cancel, if_pos (by simp [toState, h])]

end StateObject

/-- A token: the generation it was made for, and the object it refers to. -/
structure TokenObject where
  /-- The generation it was made for. -/
  generation : CancellationGeneration
  /-- The reference to its state object. -/
  state : ℕ
deriving DecidableEq, Repr

/-- A source, with every state object allocated so far. -/
structure SourceObjects where
  /-- The state objects, in the order of their allocation. -/
  heap : List StateObject
  /-- The current generation. -/
  generation : CancellationGeneration
  /-- The reference to the state object of the current generation. -/
  state : ℕ
  /-- Whether the source is closed. -/
  closed : Bool
deriving DecidableEq, Repr

namespace SourceObjects

/-- A source whose first generation is `initial`. -/
def create (initial : CancellationGeneration) : SourceObjects where
  heap := [.fresh]
  generation := initial
  state := 0
  closed := false

/-- The object a reference refers to. -/
def object (w : SourceObjects) (ref : ℕ) : StateObject := w.heap.getD ref .fresh

/-- The object of the current generation. -/
def current (w : SourceObjects) : StateObject := w.object w.state

/-- Whether results of a generation are still wanted. -/
def accepts (w : SourceObjects) (g : CancellationGeneration) : Bool :=
  !w.closed && g == w.generation && !w.current.event

theorem accepts_iff {w : SourceObjects} {g : CancellationGeneration} :
    w.accepts g = true ↔ w.closed = false ∧ g = w.generation ∧ w.current.event = false := by
  simp [accepts, and_assoc]

/-- Methods of a source. -/
abbrev Method := Stateful SourceObjects CancellationError

/-- Allocate a new state object. -/
def allocate : Method ℕ := do
  let w ← getThe SourceObjects
  modify fun w => { w with heap := w.heap ++ [.fresh] }
  return w.heap.length

/-- `self._state.cancel(reason)`. -/
def cancelState (reason : Text) (now : ℤ) : Method Bool := do
  let w ← getThe SourceObjects
  modify fun w => { w with heap := w.heap.set w.state (w.current.cancel reason now).1 }
  return (w.current.cancel reason now).2

/-- The token of the current generation. -/
def token : Method TokenObject := do
  let w ← getThe SourceObjects
  return ⟨w.generation, w.state⟩

/-- Cancel the current generation, then start the next one. -/
def advance (reason : Text) (now : ℤ) : Method TokenObject := do
  if isBlank reason then
    throw .blankReason
  let w ← getThe SourceObjects
  if w.closed then
    throw .closed
  let _ ← cancelState reason now
  modify fun w => { w with generation := w.generation + 1 }
  let state ← allocate
  modify fun w => { w with state := state }
  token

/-- Cancel the current generation without starting another. -/
def cancelCurrent (reason : Text) (now : ℤ) : Method Bool := do
  if isBlank reason then
    throw .blankReason
  cancelState reason now

/-- Cancel the current generation and admit no further one. -/
def close (reason : Text) (now : ℤ) : Method Bool := do
  if isBlank reason then
    throw .blankReason
  let changed ← cancelState reason now
  modify fun w => { w with closed := true }
  return changed

/-- The token of a generation, provided it is the current one and not cancelled. -/
def ensureCurrent (g : CancellationGeneration) : Method TokenObject := do
  let w ← getThe SourceObjects
  let cancelled := w.closed || w.current.event
  if g != w.generation || cancelled then
    throw (.stale g w.generation cancelled)
  token

/-! ### What each method does -/

/-- A source whose current object has been cancelled. -/
def cancelled (w : SourceObjects) (reason : Text) (now : ℤ) : SourceObjects :=
  { w with heap := w.heap.set w.state (w.current.cancel reason now).1 }

/-- A source that has moved on to a new object. -/
def advanced (w : SourceObjects) : SourceObjects :=
  { w with
    heap := w.heap ++ [.fresh]
    generation := w.generation + 1
    state := w.heap.length }

variable {w : SourceObjects} {reason : Text} {now : ℤ} {g : CancellationGeneration}

@[simp] theorem outcome_token :
    outcome token w = (.ok ⟨w.generation, w.state⟩, w) := rfl

@[simp] theorem outcome_cancelState :
    outcome (cancelState reason now) w =
      (.ok (w.current.cancel reason now).2, w.cancelled reason now) := rfl

/-- `advance` raises, or cancels the current object and moves on to a new one. -/
theorem outcome_advance :
    outcome (advance reason now) w =
      if isBlank reason then (.error .blankReason, w)
      else if w.closed then (.error .closed, w)
      else (.ok ⟨w.generation + 1, w.heap.length⟩, (w.cancelled reason now).advanced) := by
  rw [advance]
  split
  · rfl
  · rw [outcome_get_bind]
    split
    · rfl
    · show (_, (w.cancelled reason now).advanced) = _
      rw [← show (w.cancelled reason now).heap.length = w.heap.length from List.length_set ..]
      rfl

theorem outcome_cancelCurrent :
    outcome (cancelCurrent reason now) w =
      if isBlank reason then (.error .blankReason, w)
      else (.ok (w.current.cancel reason now).2, w.cancelled reason now) := by
  rw [cancelCurrent]
  split
  · rfl
  · rfl

theorem outcome_close :
    outcome (close reason now) w =
      if isBlank reason then (.error .blankReason, w)
      else (.ok (w.current.cancel reason now).2,
        { w.cancelled reason now with closed := true }) := by
  rw [close]
  split
  · rfl
  · rfl

/-- The raising check answers exactly when the test does. -/
theorem outcome_ensureCurrent :
    outcome (ensureCurrent g) w =
      if w.accepts g then (.ok ⟨w.generation, w.state⟩, w)
      else (.error (.stale g w.generation (w.closed || w.current.event)), w) := by
  have htest : (g != w.generation || (w.closed || w.current.event)) = !w.accepts g := by
    rw [accepts, Bool.not_and, Bool.not_and, Bool.not_not, Bool.not_not, ← Bool.or_assoc, bne,
      Bool.or_comm _ w.closed]
  rw [ensureCurrent, outcome_get_bind]
  dsimp only
  rw [htest]
  rcases w.accepts g with _ | _
  · rfl
  · rfl

/-! ### The objects after a method

Allocating changes no object that a reference can refer to, and cancelling
changes the current one at most, and that only when its event was not set. -/

theorem object_advanced {ref : ℕ} : w.advanced.object ref = w.object ref := by
  rw [object, object, advanced, List.getD_eq_getElem?_getD, List.getD_eq_getElem?_getD,
    List.getElem?_append]
  split
  · rfl
  · rename_i h
    rw [List.getElem?_eq_none (Nat.le_of_not_lt h)]
    rcases ref - w.heap.length with _ | n <;> rfl

theorem object_cancelled_self (h : w.state < w.heap.length) :
    (w.cancelled reason now).object w.state = (w.current.cancel reason now).1 := by
  rw [object, cancelled, List.getD_eq_getElem?_getD, List.getElem?_set_self h, Option.getD_some]

theorem object_cancelled_of_ne {ref : ℕ} (h : ref ≠ w.state) :
    (w.cancelled reason now).object ref = w.object ref := by
  rw [object, object, cancelled, List.getD_eq_getElem?_getD, List.getD_eq_getElem?_getD,
    List.getElem?_set_ne (Ne.symm h)]

/-- An event that cancelling has set carries the reason and the time of that call. -/
theorem object_cancelled_of_sets {ref : ℕ} (hf : (w.object ref).event = false)
    (ht : ((w.cancelled reason now).object ref).event = true) :
    (w.cancelled reason now).object ref = ⟨true, some reason, some now⟩ := by
  have href : ref = w.state := by
    by_contra hne
    rw [object_cancelled_of_ne hne, hf] at ht
    cases ht
  subst href
  rcases Nat.lt_or_ge w.state w.heap.length with hlt | hge
  · rw [object_cancelled_self hlt]
    exact congrArg Prod.fst (StateObject.cancel_of_not_event hf)
  · rw [object, cancelled, List.set_eq_of_length_le hge, ← object, hf] at ht
    cases ht

/-- What every later source keeps of an earlier one: the generations and the
objects allocated, being closed, and the objects whose event is set as they are. -/
structure Later (w w' : SourceObjects) : Prop where
  generation : w.generation ≤ w'.generation
  allocated : w.heap.length ≤ w'.heap.length
  closed : w.closed = true → w'.closed = true
  settled : ∀ ref, (w.object ref).event = true → w'.object ref = w.object ref

theorem Later.refl (w : SourceObjects) : w.Later w := ⟨le_rfl, le_rfl, id, fun _ _ => rfl⟩

theorem Later.trans {w₁ w₂ w₃ : SourceObjects} (h : w₁.Later w₂) (h' : w₂.Later w₃) :
    w₁.Later w₃ where
  generation := h.generation.trans h'.generation
  allocated := h.allocated.trans h'.allocated
  closed := h'.closed ∘ h.closed
  settled := by
    intro ref he
    have hsame := h.settled ref he
    rw [h'.settled ref (hsame ▸ he), hsame]

/-- Cancelling an object whose event is set writes back what is there. -/
theorem heap_cancelled_of_event (he : w.current.event = true) :
    (w.cancelled reason now).heap = w.heap := by
  rw [cancelled, StateObject.cancel_of_event he, current, object, List.getD_eq_getElem?_getD]
  rcases Nat.lt_or_ge w.state w.heap.length with hlt | hge
  · rw [List.getElem?_eq_getElem hlt, Option.getD_some, List.set_getElem_self]
  · exact List.set_eq_of_length_le hge

theorem later_cancelled : w.Later (w.cancelled reason now) where
  generation := le_rfl
  allocated := (List.length_set ..).ge
  closed := id
  settled := by
    intro ref he
    by_cases href : ref = w.state
    · subst href
      rw [object, heap_cancelled_of_event he, ← object]
    · exact object_cancelled_of_ne href

theorem later_advanced : w.Later w.advanced where
  generation := Nat.le_succ _
  allocated := by
    rw [advanced, List.length_append]
    exact Nat.le_add_right _ _
  closed := id
  settled _ _ := object_advanced

end SourceObjects

end Eeveetuber
