import Mathlib.Data.List.Basic
import Eeveetuber.Foundation.Text

/-!
# The interaction states of a session

A session is in one of seven interaction states, and moves between them only
along the edges of `Eeveetuber.InteractionState.allowedFrom`. The machine counts
its transitions; a request for an edge that is not in the table, or without a
reason, raises and leaves the machine as it was.
-/

namespace Eeveetuber

open Foundation

/-- The interaction states. -/
inductive InteractionState where
  | idle
  | listening
  | processing
  | speaking
  | waitingApproval
  | interrupting
  | degraded
deriving DecidableEq, Repr

/-- The states a state may be left for. -/
def InteractionState.allowedFrom : InteractionState → List InteractionState
  | .idle => [.listening, .processing, .degraded]
  | .listening => [.idle, .processing, .interrupting, .degraded]
  | .processing => [.idle, .speaking, .waitingApproval, .interrupting, .degraded]
  | .speaking => [.idle, .interrupting, .degraded]
  | .waitingApproval => [.idle, .processing, .interrupting, .degraded]
  | .interrupting => [.idle, .listening, .processing, .degraded]
  | .degraded => [.idle, .listening]

/-- What a transition raises. -/
inductive InteractionError where
  /-- `ValueError`: the reason is blank. -/
  | blankReason
  /-- `InvalidInteractionTransition`. -/
  | invalid (previous requested : InteractionState)
deriving DecidableEq, Repr

/-- A transition that was made. -/
structure InteractionTransition where
  previous : InteractionState
  current : InteractionState
  revision : ℕ
  reason : Text
deriving DecidableEq, Repr

/-- The state of a session, and how many transitions led to it. -/
structure InteractionStateMachine where
  state : InteractionState
  revision : ℕ
deriving DecidableEq, Repr

namespace InteractionStateMachine

/-- A machine that has made no transition. -/
def create (initial : InteractionState) : InteractionStateMachine := ⟨initial, 0⟩

/-- Whether the table allows a transition now. -/
def canTransition (m : InteractionStateMachine) (requested : InteractionState) : Bool :=
  decide (requested ∈ m.state.allowedFrom)

/-- Make a transition, or raise. -/
def transition (m : InteractionStateMachine) (requested : InteractionState) (reason : Text) :
    Except InteractionError (InteractionStateMachine × InteractionTransition) :=
  if isBlank reason then .error .blankReason
  else if requested ∉ m.state.allowedFrom then .error (.invalid m.state requested)
  else
    .ok (⟨requested, m.revision + 1⟩, ⟨m.state, requested, m.revision + 1, reason⟩)

/-- **A transition is made exactly when the table allows it**, given a reason. -/
theorem transition_isOk {m : InteractionStateMachine} {requested : InteractionState}
    {reason : Text} (hr : isBlank reason = false) :
    (∃ p, m.transition requested reason = .ok p) ↔ requested ∈ m.state.allowedFrom := by
  unfold transition
  rw [if_neg (by simp [hr])]
  by_cases h : requested ∈ m.state.allowedFrom <;> simp [h]

theorem transition_state {m m' : InteractionStateMachine} {requested : InteractionState}
    {reason : Text} {tr : InteractionTransition}
    (h : m.transition requested reason = .ok (m', tr)) :
    m'.state = requested ∧ m'.revision = m.revision + 1 ∧ requested ∈ m.state.allowedFrom := by
  unfold transition at h
  split at h
  · cases h
  · split at h
    · cases h
    · rename_i hmem
      simp only [Except.ok.injEq, Prod.mk.injEq] at h
      obtain ⟨rfl, -⟩ := h
      exact ⟨rfl, rfl, by simpa using hmem⟩

end InteractionStateMachine

end Eeveetuber
