import Mathlib.Order.Basic

/-!
# A worker before a queue that nobody empties

A worker puts items into a bounded queue. Once those who took them out are gone,
the worker can still be ended from outside, but only until it has caught that;
from then on it goes its own way: it is given items to put, puts them one by one
while there is room, and is given the next ones when it has put the last.

What it was given at once decides what becomes of it. If there is room for all
of it (`Foundation.Backlog.Fits`), the worker can always go on; if there is not,
it gets stuck and stays so (`Foundation.Backlog.Step.stuck`).
-/

namespace Foundation

/-- Where a worker before a queue is. -/
structure Backlog where
  /-- The items in the queue. -/
  queued : ℕ
  /-- The items the worker has still to put. -/
  owed : ℕ
  /-- Whether the worker has caught its end. -/
  caught : Bool

namespace Backlog

/-- What a worker has still to put, if anything, has room in its queue. -/
def Fits (b : Backlog) (capacity : ℕ) : Prop := 0 < b.owed → b.queued + b.owed ≤ capacity

/-- A worker that has nothing in its way to its own end, or that may still be ended. -/
def Free (b : Backlog) (capacity : ℕ) : Prop := b.caught = true → b.Fits capacity

/-- A worker that cannot come to its end. -/
def Stuck (b : Backlog) (capacity : ℕ) : Prop := b.caught = true ∧ ¬b.Fits capacity

/-- What a step of a worker may do, which gives it as many items to put as `answer`
says, if any. -/
inductive Step (capacity : ℕ) (answer : Option ℕ) : Backlog → Backlog → Prop
  | idle (b : Backlog) : Step capacity answer b b
  | answered {queued n : ℕ} {caught : Bool} (h : answer = some n) :
    Step capacity answer ⟨queued, 0, caught⟩ ⟨queued, n, true⟩
  | put {queued owed : ℕ} (h : queued < capacity) :
    Step capacity answer ⟨queued, owed + 1, true⟩ ⟨queued + 1, owed, true⟩
  | ended {queued owed : ℕ} : Step capacity answer ⟨queued, owed, false⟩ ⟨queued, 0, false⟩

variable {capacity : ℕ} {answer : Option ℕ} {b b' : Backlog}

theorem fits_of_owed_eq_zero (h : b.owed = 0) : b.Fits capacity := fun hpos => by omega

theorem Stuck.owed_pos (h : b.Stuck capacity) : 0 < b.owed :=
  Nat.pos_of_ne_zero fun hzero => h.2 (fits_of_owed_eq_zero hzero)

/-- **A worker whose answers fit stays free.** -/
theorem Step.free (h : Step capacity answer b b') (hb : b.Free capacity)
    (hfits : ∀ n, answer = some n → Fits ⟨b.queued, n, true⟩ capacity) : b'.Free capacity := by
  cases h with
  | idle => exact hb
  | answered hn => exact fun _ => hfits _ hn
  | put =>
    intro _ hpos
    have hle := hb rfl (Nat.succ_pos _)
    dsimp only at hle hpos ⊢
    omega
  | ended =>
    intro hcaught
    cases hcaught

/-- **A stuck worker stays stuck.** -/
theorem Step.stuck (h : Step capacity answer b b') (hb : b.Stuck capacity) :
    b'.Stuck capacity := by
  have hpos := hb.owed_pos
  obtain ⟨hcaught, hfits⟩ := hb
  cases h with
  | idle => exact ⟨hcaught, hfits⟩
  | answered => cases hpos
  | put hroom =>
    -- the room is used up before the items are
    refine ⟨rfl, fun hfits' => hfits fun _ => ?_⟩
    simp only [Fits] at hfits' ⊢
    omega
  | ended => cases hcaught

end Backlog

end Foundation
