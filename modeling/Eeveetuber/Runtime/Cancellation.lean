import Mathlib.Logic.Function.Basic
import Eeveetuber.Foundation.Text

/-!
# Cancellation generations

A session numbers its foreground turns by *generations*. One
`Eeveetuber.CancellationSource` owns the current generation and the state of
every generation it has issued; work started for a turn carries the
`Eeveetuber.CancellationToken` of its generation, a read-only view of that
state. Starting the next turn cancels the current generation for good, and
closing the source cancels it and admits no further one.

The source keeps one state object per generation, shared by the tokens of that
generation. Here the objects are the values of the function
`Eeveetuber.CancellationSource.states`, and a token names its object by the
generation.
-/

namespace Eeveetuber

open Foundation

/-- A generation, a non-negative integer. -/
abbrev CancellationGeneration := ℕ

/-- The state shared by the tokens of one generation: its event, and the reason
given when the event was set. -/
structure CancellationState where
  /-- Whether the event is set. -/
  cancelled : Bool
  /-- The reason given by the call that set it. -/
  reason : Option Text
deriving DecidableEq, Repr

/-- The state of a generation that has just been issued. -/
def CancellationState.fresh : CancellationState := ⟨false, none⟩

/-- Set the event, unless it is set; tell whether this call did. -/
def CancellationState.cancel (s : CancellationState) (reason : Text) : CancellationState × Bool :=
  if s.cancelled then (s, false) else (⟨true, some reason⟩, true)

/-- A read-only view of one generation. -/
structure CancellationToken where
  /-- The generation the token was issued for. -/
  generation : CancellationGeneration
deriving DecidableEq, Repr

/-- What the operations of a source raise. -/
inductive CancellationError where
  /-- `ValueError`: the reason is blank. -/
  | blankReason
  /-- `RuntimeError`: the source is closed. -/
  | closed
  /-- `StaleGenerationError`: the generation is not the current one, or that one is cancelled. -/
  | stale (received current : CancellationGeneration) (currentCancelled : Bool)
deriving DecidableEq, Repr

/-- The single owner of a session's generations. -/
structure CancellationSource where
  /-- The current generation. -/
  generation : CancellationGeneration
  /-- The state object of every generation issued so far. -/
  states : CancellationGeneration → CancellationState
  /-- Whether the source is closed. -/
  closed : Bool

namespace CancellationSource

/-- A source whose first generation is `initial`. -/
def create (initial : CancellationGeneration) : CancellationSource where
  generation := initial
  states := fun _ => .fresh
  closed := false

/-- The state object of the current generation. -/
def state (s : CancellationSource) : CancellationState := s.states s.generation

/-- The token of the current generation. -/
def token (s : CancellationSource) : CancellationToken := ⟨s.generation⟩

/-- Cancel the current generation and start the next one. -/
def advance (s : CancellationSource) (reason : Text) :
    Except CancellationError (CancellationSource × CancellationToken) :=
  if isBlank reason then .error .blankReason
  else if s.closed then .error .closed
  else
    let cancelled := Function.update s.states s.generation (s.state.cancel reason).1
    let s' : CancellationSource :=
      { s with
        generation := s.generation + 1
        states := Function.update cancelled (s.generation + 1) .fresh }
    .ok (s', s'.token)

/-- Cancel the current generation without starting another. -/
def cancelCurrent (s : CancellationSource) (reason : Text) :
    Except CancellationError (CancellationSource × Bool) :=
  if isBlank reason then .error .blankReason
  else
    let (state, changed) := s.state.cancel reason
    .ok ({ s with states := Function.update s.states s.generation state }, changed)

/-- What `close` does under the source's lock. -/
def shutDown (s : CancellationSource) (reason : Text) : CancellationSource × Bool :=
  let (state, changed) := s.state.cancel reason
  ({ s with states := Function.update s.states s.generation state, closed := true }, changed)

/-- Cancel the current generation and admit no further one. -/
def close (s : CancellationSource) (reason : Text) :
    Except CancellationError (CancellationSource × Bool) :=
  if isBlank reason then .error .blankReason else .ok (s.shutDown reason)

/-- Whether results of a generation are still wanted. -/
def accepts (s : CancellationSource) (g : CancellationGeneration) : Bool :=
  !s.closed && g == s.generation && !s.state.cancelled

/-- The token of a generation, provided it is the current one and not cancelled. -/
def ensureCurrent (s : CancellationSource) (g : CancellationGeneration) :
    Except CancellationError CancellationToken :=
  let cancelled := s.closed || s.state.cancelled
  if g != s.generation || cancelled then .error (.stale g s.generation cancelled)
  else .ok s.token

variable {s s' : CancellationSource} {g : CancellationGeneration} {reason : Text}

theorem accepts_iff :
    s.accepts g = true ↔ s.closed = false ∧ g = s.generation ∧ s.state.cancelled = false := by
  simp [accepts, and_assoc]

/-- The test and the raising check agree. -/
theorem ensureCurrent_eq :
    s.ensureCurrent g = if s.accepts g then .ok s.token
      else .error (.stale g s.generation (s.closed || s.state.cancelled)) := by
  unfold ensureCurrent accepts
  cases s.closed <;> cases s.state.cancelled <;> by_cases h : g = s.generation <;> simp [h]

/-- What a successful `advance` does. -/
theorem advance_eq_ok {t : CancellationToken} (h : s.advance reason = .ok (s', t)) :
    s.closed = false ∧ s'.closed = false ∧ s'.generation = s.generation + 1 ∧
      t = ⟨s.generation + 1⟩ ∧ s'.accepts (s.generation + 1) = true := by
  unfold advance at h
  split at h
  · cases h
  · split at h
    · cases h
    · simp only [Except.ok.injEq, Prod.mk.injEq] at h
      obtain ⟨rfl, rfl⟩ := h
      simp_all [accepts, state, token, CancellationState.fresh]

/-- An `advance` succeeds on an open source for every reason that is not blank. -/
theorem advance_isOk (hc : s.closed = false) (hr : isBlank reason = false) :
    ∃ s' t, s.advance reason = .ok (s', t) := by
  simp [advance, hc, hr]

/-- After an `advance` only the new generation is accepted. -/
theorem accepts_advance {t : CancellationToken} (h : s.advance reason = .ok (s', t)) :
    s'.accepts g = true ↔ g = s.generation + 1 := by
  obtain ⟨-, -, hgen, -, hacc⟩ := advance_eq_ok h
  refine ⟨fun hg => ?_, fun hg => hg ▸ hacc⟩
  exact (accepts_iff.mp hg).2.1.trans hgen

@[simp] theorem shutDown_closed : (s.shutDown reason).1.closed = true := rfl

@[simp] theorem shutDown_generation : (s.shutDown reason).1.generation = s.generation := rfl

/-- A closed source accepts nothing. -/
theorem accepts_of_closed (h : s.closed = true) : s.accepts g = false := by
  simp [accepts, h]

@[simp] theorem accepts_shutDown : (s.shutDown reason).1.accepts g = false :=
  accepts_of_closed rfl

/-- A later state of a source: what it accepts of the generations issued by then,
the earlier state accepted. -/
structure Narrows (s s' : CancellationSource) : Prop where
  generation : s.generation ≤ s'.generation
  accepts : ∀ g ≤ s.generation, s'.accepts g = true → s.accepts g = true

theorem Narrows.refl (s : CancellationSource) : s.Narrows s := ⟨le_refl _, fun _ _ h => h⟩

theorem narrows_shutDown : s.Narrows (s.shutDown reason).1 :=
  ⟨le_refl _, fun _ _ h => by simp at h⟩

theorem narrows_advance {t : CancellationToken} (h : s.advance reason = .ok (s', t)) :
    s.Narrows s' := by
  obtain ⟨-, -, hgen, -, -⟩ := advance_eq_ok h
  refine ⟨hgen ▸ Nat.le_succ _, fun g hg hacc => ?_⟩
  rw [(accepts_advance h).mp hacc] at hg
  exact absurd hg (Nat.not_succ_le_self _)

end CancellationSource

/-- Whether the event of a token's generation is set. -/
def CancellationToken.cancelled (t : CancellationToken) (s : CancellationSource) : Bool :=
  (s.states t.generation).cancelled

/-- A generation whose event is set is not accepted. -/
theorem CancellationSource.accepts_of_cancelled {s : CancellationSource} {t : CancellationToken}
    (h : t.cancelled s = true) : s.accepts t.generation = false := by
  cases hacc : s.accepts t.generation with
  | false => rfl
  | true =>
    obtain ⟨-, hg, hc⟩ := CancellationSource.accepts_iff.mp hacc
    rw [CancellationToken.cancelled, hg] at h
    exact absurd h (by simpa [CancellationSource.state] using hc)

end Eeveetuber
