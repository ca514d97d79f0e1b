import Mathlib.Algebra.Order.Group.Defs
import Mathlib.Algebra.Order.Sub.Basic
import Mathlib.Algebra.Order.Group.Unbundled.Basic
import Mathlib.Data.List.TakeWhile

/-!
# Rate limits over a sliding window

A limiter admits at most `m` events in any window of length `w`. It keeps the
times of the events it admitted, drops those that have left the window when it
is next asked, and admits an event if fewer than `m` are left. What the limiter
promises is a statement about *every* half-open window `(t - w, t]` of the
whole history, `Foundation.RateBounded`, of which the kept times are only the end.

The link between the two is `Foundation.Keeps`: the kept times are the history
less some times that had left the window. It survives dropping, admitting and
the passage of time, and `Foundation.Keeps.rateBounded` is the step of the
argument – an event admitted at `now` can only crowd windows that reach back no
further than `now - w`, and there the kept times miss nothing.
-/

namespace Foundation

variable {α : Type} [AddCommGroup α] [LinearOrder α]

/-- Every window `(t - w, t]` holds at most `m` of the times. -/
def RateBounded (w : α) (m : ℕ) (times : List α) : Prop :=
  ∀ t, (times.countP fun x => t - w < x ∧ x ≤ t) ≤ m

/-- Drop the leading times that have left the window by `now`. -/
def prune (w now : α) (kept : List α) : List α := kept.dropWhile fun x => x ≤ now - w

/-- The kept times are the history less some times that had left the window by `last`. -/
def Keeps (w last : α) (times kept : List α) : Prop :=
  ∃ dropped, times = dropped ++ kept ∧ ∀ x ∈ dropped, x ≤ last - w

variable {w last now : α} {m : ℕ} {times kept : List α}

theorem rateBounded_nil : RateBounded w m ([] : List α) := fun _ => Nat.zero_le _

theorem Keeps.nil : Keeps w last ([] : List α) [] := ⟨[], rfl, by simp⟩

/-- An event is admitted and recorded. -/
theorem Keeps.concat (h : Keeps w last times kept) :
    Keeps w last (times ++ [now]) (kept ++ [now]) := by
  obtain ⟨dropped, htimes, hdropped⟩ := h
  exact ⟨dropped, by rw [htimes, List.append_assoc], hdropped⟩

/-- Fewer events are within the limit too. -/
theorem RateBounded.sublist {fewer : List α} (h : RateBounded w m times)
    (hsub : fewer.Sublist times) : RateBounded w m fewer :=
  fun t => (hsub.countP_le).trans (h t)

/-- A limiter at work: its kept times are the end of a history within the limit. -/
structure Limiting (w last : α) (m : ℕ) (times kept : List α) : Prop where
  keeps : Keeps w last times kept
  bounded : RateBounded w m times

theorem Limiting.nil : Limiting w last m ([] : List α) [] := ⟨.nil, rateBounded_nil⟩

variable [IsOrderedAddMonoid α]

/-- Time passes. -/
theorem Keeps.mono (h : Keeps w last times kept) (hle : last ≤ now) : Keeps w now times kept := by
  obtain ⟨dropped, htimes, hdropped⟩ := h
  exact ⟨dropped, htimes, fun x hx => (hdropped x hx).trans (sub_le_sub_right hle w)⟩

/-- Times that have left the window are dropped. -/
theorem Keeps.prune (h : Keeps w last times kept) (hle : last ≤ now) :
    Keeps w now times (prune w now kept) := by
  obtain ⟨dropped, htimes, hdropped⟩ := h.mono hle
  refine ⟨dropped ++ kept.takeWhile fun x => x ≤ now - w, ?_, ?_⟩
  · rw [htimes, List.append_assoc, Foundation.prune, List.takeWhile_append_dropWhile]
  · intro x hx
    rcases List.mem_append.mp hx with hx | hx
    · exact hdropped x hx
    · simpa using List.mem_takeWhile_imp hx

/-- What has left the window stays outside: dropping it earlier makes no difference later. -/
theorem prune_prune (hle : last ≤ now) : prune w now (prune w last kept) = prune w now kept := by
  induction kept with
  | nil => rfl
  | cons x rest ih =>
    by_cases hx : x ≤ last - w
    · have hx' : x ≤ now - w := hx.trans (sub_le_sub_right hle w)
      rw [Foundation.prune, Foundation.prune, Foundation.prune,
        List.dropWhile_cons_of_pos (by simpa using hx),
        List.dropWhile_cons_of_pos (by simpa using hx')]
      exact ih
    · rw [Foundation.prune, Foundation.prune, List.dropWhile_cons_of_neg (by simpa using hx)]
      rfl

/-- **A limiter that admits an event only while fewer than `m` times are kept
never has more than `m` events in a window.** -/
theorem Keeps.rateBounded (h : Keeps w now times kept) (hlt : kept.length < m)
    (hb : RateBounded w m times) : RateBounded w m (times ++ [now]) := by
  intro t
  rw [List.countP_append]
  rcases lt_or_ge t now with ht | ht
  · -- the window ends before the new event
    have hnew : List.countP (fun x => decide (t - w < x ∧ x ≤ t)) [now] = 0 := by
      simp [not_le.mpr ht]
    rw [hnew]
    exact hb t
  · -- the window reaches back no further than the kept times
    obtain ⟨dropped, rfl, hdropped⟩ := h
    have hold : dropped.countP (fun x => decide (t - w < x ∧ x ≤ t)) = 0 := by
      rw [List.countP_eq_zero]
      intro x hx hwin
      have hxt : t - w < x := (of_decide_eq_true hwin).1
      have hle : x ≤ t - w := (hdropped x hx).trans (sub_le_sub_right ht w)
      exact absurd hxt (not_lt.mpr hle)
    have hkept := List.countP_le_length (p := fun x => decide (t - w < x ∧ x ≤ t)) (l := kept)
    have hnew := List.countP_le_length (p := fun x => decide (t - w < x ∧ x ≤ t)) (l := [now])
    rw [List.countP_append, hold]
    rw [List.length_singleton] at hnew
    omega

theorem Limiting.mono (h : Limiting w last m times kept) (hle : last ≤ now) :
    Limiting w now m times kept :=
  ⟨h.keeps.mono hle, h.bounded⟩

theorem Limiting.prune (h : Limiting w now m times kept) :
    Limiting w now m times (prune w now kept) :=
  ⟨h.keeps.prune le_rfl, h.bounded⟩

/-- An event that the limiter admits. -/
theorem Limiting.concat (h : Limiting w now m times kept) (hlt : kept.length < m) :
    Limiting w now m (times ++ [now]) (kept ++ [now]) :=
  ⟨h.keeps.concat, h.keeps.rateBounded hlt h.bounded⟩

end Foundation
