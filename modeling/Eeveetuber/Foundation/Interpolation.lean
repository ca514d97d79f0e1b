import Mathlib.Algebra.Order.Floor.Ring
import Mathlib.Data.List.GetD
import Mathlib.Tactic.Linarith
import Mathlib.Tactic.Ring

/-!
# Linear interpolation

A signal is a list of samples at the positions `0, 1, 2, …`, and
`Foundation.interpolate` is its value between them. At a position that has a sample behind it the
value does not depend on what is appended to the signal (`Foundation.interpolate_append`), and when
samples in front are dropped the position moves with them (`Foundation.interpolate_drop`).

The positions `0, r, 2r, …` that lie inside a signal are the first `Foundation.countInside`.
-/

namespace Foundation

variable {K : Type} [Field K] [LinearOrder K] [IsStrictOrderedRing K] [FloorRing K]
  {x y : List K} {p r : K} {n : ℕ}

/-- The value of a signal at a position. -/
def interpolate (x : List K) (p : K) : K :=
  let left := x.getD ⌊p⌋.toNat 0
  let right := x.getD (⌊p⌋.toNat + 1) 0
  left + (right - left) * (p - ⌊p⌋)

/-- A position inside a signal has both its neighbours there. -/
theorem floor_add_one_lt (hp : 0 ≤ p) (h : p + 1 < x.length) : ⌊p⌋.toNat + 1 < x.length := by
  have hfloor : (0 : ℤ) ≤ ⌊p⌋ := Int.floor_nonneg.mpr hp
  have hlt : ((⌊p⌋ + 1 : ℤ) : K) < (x.length : ℤ) := by
    push_cast
    exact lt_of_le_of_lt (by linarith [Int.floor_le p]) h
  have hint := Int.cast_lt.mp hlt
  omega

/-- **What is appended does not matter** to a position inside. -/
theorem interpolate_append (hp : 0 ≤ p) (h : p + 1 < x.length) (y : List K) :
    interpolate (x ++ y) p = interpolate x p := by
  have hlt := floor_add_one_lt hp h
  rw [interpolate, interpolate, List.getD_append _ _ _ _ (Nat.lt_of_succ_lt hlt),
    List.getD_append _ _ _ _ hlt]

/-- **Samples in front may be dropped.** -/
theorem interpolate_drop (hp : 0 ≤ p) (b : ℕ) (x : List K) :
    interpolate (x.drop b) p = interpolate x (b + p) := by
  have hfloor : (0 : ℤ) ≤ ⌊p⌋ := Int.floor_nonneg.mpr hp
  have hindex : ⌊(b : K) + p⌋.toNat = b + ⌊p⌋.toNat := by
    rw [Int.floor_natCast_add]
    omega
  have hget (i : ℕ) : (x.drop b).getD i 0 = x.getD (b + i) 0 := by
    rw [List.getD_eq_getElem?_getD, List.getD_eq_getElem?_getD, List.getElem?_drop]
  have hfraction : (b : K) + p - ⌊(b : K) + p⌋ = p - ⌊p⌋ := by
    rw [Int.floor_natCast_add]
    push_cast
    ring
  rw [interpolate, interpolate, hindex, hfraction, hget, hget, Nat.add_assoc]

/-- How many of the positions `0, r, 2r, …` lie inside a signal of this length. -/
def countInside (length : ℕ) (r : K) : ℕ := ⌈((length : K) - 1) / r⌉₊

theorem lt_countInside (hr : 0 < r) (length : ℕ) :
    n < countInside length r ↔ n * r + 1 < length := by
  rw [countInside, Nat.lt_ceil, lt_div_iff₀ hr, lt_sub_iff_add_lt]

end Foundation
