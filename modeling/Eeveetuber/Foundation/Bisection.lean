import Mathlib.Data.Int.Order.Basic

/-!
# Bisection

The loop that looks for the greatest number with a property between two bounds, halving what is
left. What it returns has the property (`Foundation.bisect_accepts`), whatever the property is;
and nothing above it has, if what is below a number with the property has it too
(`Foundation.le_of_bisect`).
-/

namespace Foundation

variable {accepts : ℤ → Bool} {low high : ℤ} {best : Option ℤ} {m k : ℤ}

/-- The greatest number accepted between `low` and `high`, if any, and `best` otherwise. -/
def bisect (accepts : ℤ → Bool) (low high : ℤ) (best : Option ℤ) : Option ℤ :=
  if low ≤ high then
    let midpoint := (low + high) / 2
    if accepts midpoint then bisect accepts (midpoint + 1) high (some midpoint)
    else bisect accepts low (midpoint - 1) best
  else best
termination_by (high + 1 - low).toNat

/-- **What is found is accepted**, and it is between the bounds. -/
theorem bisect_accepts (h : bisect accepts low high none = some m) :
    accepts m = true ∧ low ≤ m ∧ m ≤ high := by
  -- a number found on the way was accepted, and it was between the first bounds
  suffices hgen : ∀ low' high' best, low ≤ low' → high' ≤ high →
      (∀ b ∈ best, accepts b = true ∧ low ≤ b ∧ b ≤ high) →
      bisect accepts low' high' best = some m → accepts m = true ∧ low ≤ m ∧ m ≤ high from
    hgen low high none le_rfl le_rfl nofun h
  intro low' high' best hlow hhigh hbest hm
  fun_induction bisect accepts low' high' best with
  | case1 low' high' best hle midpoint haccepts ih =>
    have hmid : midpoint = (low' + high') / 2 := rfl
    refine ih (by omega) hhigh ?_ hm
    intro b hb
    rw [← Option.some.inj hb]
    exact ⟨haccepts, by omega, by omega⟩
  | case2 low' high' best hle midpoint hrejects ih =>
    have hmid : midpoint = (low' + high') / 2 := rfl
    exact ih hlow (by omega) hbest hm
  | case3 low' high' best hgt => exact hbest m hm

/-- **Nothing greater would have been accepted**, of the numbers from two on, if a number below
an accepted one is accepted, too. One itself may be missed: the bounds zero and one are halved
to zero, and when that is rejected nothing is left. -/
theorem le_of_bisect (hdown : ∀ i j, 0 < i → i ≤ j → accepts j = true → accepts i = true)
    (hlow : 0 ≤ low) (hk : accepts k = true) (htwo : 2 ≤ k) (hlk : low ≤ k) (hkh : k ≤ high) :
    ∃ m, bisect accepts low high none = some m ∧ k ≤ m := by
  -- either the number is still between the bounds, or one that is not less was found below them
  suffices hgen : ∀ low' high' best, 0 ≤ low' → (∀ b ∈ best, b < low') →
      (low' ≤ k ∧ k ≤ high' ∨ ∃ b ∈ best, k ≤ b) →
      ∃ m, bisect accepts low' high' best = some m ∧ k ≤ m from
    hgen low high none hlow nofun (.inl ⟨hlk, hkh⟩)
  intro low' high' best hlow' hbelow hor
  fun_induction bisect accepts low' high' best with
  | case1 low' high' best hle midpoint haccepts ih =>
    have hmid : midpoint = (low' + high') / 2 := rfl
    refine ih (by omega) ?_ ?_
    · intro b hb
      rw [← Option.some.inj hb]
      exact Int.lt_succ midpoint
    · obtain ⟨_, hk'⟩ | ⟨b, hb, hkb⟩ := hor
      · obtain hlt | hge := lt_or_ge midpoint k
        · exact .inl ⟨hlt, hk'⟩
        · exact .inr ⟨midpoint, rfl, hge⟩
      · have hlt := hbelow b hb
        exact .inr ⟨midpoint, rfl, by omega⟩
  | case2 low' high' best hle midpoint hrejects ih =>
    have hmid : midpoint = (low' + high') / 2 := rfl
    refine ih hlow' hbelow (hor.imp_left fun ⟨hlk', hkh'⟩ => ⟨hlk', ?_⟩)
    by_contra hgt
    exact hrejects (hdown midpoint k (by omega) (by omega) hk)
  | case3 low' high' best hgt =>
    obtain ⟨hlk', hkh'⟩ | ⟨b, hb, hkb⟩ := hor
    · exact absurd (le_trans hlk' hkh') hgt
    · exact ⟨b, hb, hkb⟩

/-- What was found stays found. -/
theorem isSome_bisect (h : best.isSome = true) : (bisect accepts low high best).isSome = true := by
  fun_induction bisect accepts low high best with
  | case1 low high best hle midpoint haccepts ih => exact ih rfl
  | case2 low high best hle midpoint hrejects ih => exact ih h
  | case3 low high best hgt => exact h

/-- Whether the numbers up to a bound are halved to one, when nothing is accepted before. -/
def halvesToOne (n : ℕ) : Bool :=
  if n < 2 then false else if n < 4 then true else halvesToOne (n / 2 - 1)
termination_by n

/-- **When one is the only number accepted**, it is found exactly if the numbers are halved
to it. -/
theorem isSome_bisect_of_only_one (hzero : accepts 0 = false) (hone : accepts 1 = true) (n : ℕ)
    (habove : ∀ i : ℤ, 2 ≤ i → i ≤ n → accepts i = false) :
    (bisect accepts 0 n none).isSome = halvesToOne n := by
  induction n using Nat.strongRecOn with
  | ind n ih =>
    rw [bisect, halvesToOne, if_pos (Int.natCast_nonneg n)]
    dsimp only
    obtain hsmall | hlarge := Nat.lt_or_ge n 4
    · obtain hnone | htwo := Nat.lt_or_ge n 2
      · have hmid : (0 + (n : ℤ)) / 2 = 0 := by omega
        rw [hmid, hzero, if_neg Bool.false_ne_true, if_pos hnone, bisect, if_neg (by omega)]
        rfl
      · have hmid : (0 + (n : ℤ)) / 2 = 1 := by omega
        rw [hmid, if_pos hone, if_neg (by omega), if_pos hsmall, isSome_bisect rfl]
    · have hmid : (0 + (n : ℤ)) / 2 - 1 = ((n / 2 - 1 : ℕ) : ℤ) := by omega
      have hrejects : accepts ((0 + (n : ℤ)) / 2) = false := habove _ (by omega) (by omega)
      rw [hrejects, if_neg Bool.false_ne_true, hmid, if_neg (by omega), if_neg (by omega)]
      exact ih (n / 2 - 1) (by omega) fun i hi hle => habove i hi (by omega)

end Foundation
