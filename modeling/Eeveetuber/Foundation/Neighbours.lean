import Mathlib.Data.List.DropRight
import Mathlib.Data.List.Perm.Subperm
import Mathlib.Data.List.Range

/-!
# Neighbours in a list

A list in strict order of a number has, beside a place, the elements whose numbers are near and
the elements that are near in the list. The first are always among the second
(`Foundation.within_isSuffix` below a place and `Foundation.within_isPrefix` above one), since
so many numbers are had by at most so many elements; **they are the same exactly when no gap in
the numbers is in the way** (`Foundation.within_eq_rtake_iff`, `Foundation.within_eq_take_iff`).
-/

namespace Foundation

variable {α : Type*} {key : α → ℕ} {p : α → Bool} {l : List α} {n : ℕ}

/-- What has a property that is kept on the way up stands at the end. -/
theorem filter_isSuffix (h : l.Pairwise fun a b => p a = true → p b = true) : l.filter p <:+ l := by
  induction l with
  | nil => exact List.suffix_rfl
  | cons a l ih =>
    obtain ⟨ha, hl⟩ := List.pairwise_cons.mp h
    by_cases hp : p a = true
    · refine ⟨[], ?_⟩
      rw [List.nil_append, List.filter_cons_of_pos hp,
        List.filter_eq_self.mpr fun b hb => ha b hb hp]
    · rw [List.filter_cons_of_neg hp]
      exact (ih hl).trans (List.suffix_cons a l)

/-- What has a property that is kept on the way down stands at the beginning. -/
theorem filter_isPrefix (h : l.Pairwise fun a b => p b = true → p a = true) : l.filter p <+: l := by
  induction l with
  | nil => exact List.prefix_rfl
  | cons a l ih =>
    obtain ⟨ha, hl⟩ := List.pairwise_cons.mp h
    by_cases hp : p a = true
    · rw [List.filter_cons_of_pos hp]
      exact List.cons_prefix_cons.mpr ⟨rfl, ih hl⟩
    · rw [List.filter_cons_of_neg hp,
        List.filter_eq_nil_iff.mpr fun b hb hpb => hp (ha b hb hpb)]
      exact List.nil_prefix

/-- **So many numbers are had by at most so many elements.** -/
theorem length_le_of_pairwise_key (low count : ℕ) (hl : l.Pairwise fun a b => key a < key b)
    (h : ∀ a ∈ l, low ≤ key a ∧ key a < low + count) : l.length ≤ count := by
  have hnodup : (l.map key).Nodup := List.pairwise_map.mpr (hl.imp fun hab => hab.ne)
  have hsubset : l.map key ⊆ List.range' low count := by
    intro k hk
    obtain ⟨a, ha, rfl⟩ := List.mem_map.mp hk
    exact List.mem_range'_1.mpr (h a ha)
  have hle := (List.Nodup.subperm hnodup hsubset).length_le
  rwa [List.length_map, List.length_range'] at hle

section Below

/-- What is near a number below it is at the end, and not more than so many. -/
theorem within_isSuffix (count : ℕ) (hl : l.Pairwise fun a b => key a < key b)
    (hbelow : ∀ a ∈ l, key a < n) :
    l.filter (fun a => decide (n ≤ key a + count)) <:+ l.rtake count := by
  have hsuffix : l.filter (fun a => decide (n ≤ key a + count)) <:+ l := by
    refine filter_isSuffix (hl.imp fun hab ha => ?_)
    rw [decide_eq_true_eq] at ha ⊢
    omega
  have hlength : (l.filter fun a => decide (n ≤ key a + count)).length ≤ count := by
    refine length_le_of_pairwise_key (n - count) count (hl.filter _) fun a ha => ?_
    obtain ⟨hmem, hnear⟩ := List.mem_filter.mp ha
    rw [decide_eq_true_eq] at hnear
    have hlt := hbelow a hmem
    omega
  refine List.suffix_of_suffix_length_le hsuffix (List.drop_suffix _ _) ?_
  have hle := hsuffix.length_le
  rw [List.rtake, List.length_drop]
  omega

/-- **What is near below a number is what is next before it**, exactly when all of that is near. -/
theorem within_eq_rtake_iff (count : ℕ) (hl : l.Pairwise fun a b => key a < key b)
    (hbelow : ∀ a ∈ l, key a < n) :
    l.filter (fun a => decide (n ≤ key a + count)) = l.rtake count ↔
      ∀ a ∈ l.rtake count, n ≤ key a + count := by
  constructor
  · intro heq a ha
    rw [← heq] at ha
    exact of_decide_eq_true (List.mem_filter.mp ha).2
  · intro hnear
    have hsuffix : l.rtake count <:+ l := List.drop_suffix _ _
    have hfilter := hsuffix.filter fun a => decide (n ≤ key a + count)
    rw [List.filter_eq_self.mpr fun a ha => decide_eq_true (hnear a ha)] at hfilter
    exact (within_isSuffix count hl hbelow).eq_of_length_le hfilter.length_le

end Below

section Above

/-- What is near a number above it is at the beginning, and not more than so many. -/
theorem within_isPrefix (count : ℕ) (hl : l.Pairwise fun a b => key a < key b)
    (habove : ∀ a ∈ l, n < key a) :
    l.filter (fun a => decide (key a ≤ n + count)) <+: l.take count := by
  have hstarts : l.filter (fun a => decide (key a ≤ n + count)) <+: l := by
    refine filter_isPrefix (hl.imp fun hab hb => ?_)
    rw [decide_eq_true_eq] at hb ⊢
    omega
  have hlength : (l.filter fun a => decide (key a ≤ n + count)).length ≤ count := by
    refine length_le_of_pairwise_key (n + 1) count (hl.filter _) fun a ha => ?_
    obtain ⟨hmem, hnear⟩ := List.mem_filter.mp ha
    rw [decide_eq_true_eq] at hnear
    have hlt := habove a hmem
    omega
  refine List.prefix_of_prefix_length_le hstarts (List.take_prefix _ _) ?_
  rw [List.length_take]
  exact le_min hlength hstarts.length_le

/-- **What is near above a number is what is next after it**, exactly when all of that is near. -/
theorem within_eq_take_iff (count : ℕ) (hl : l.Pairwise fun a b => key a < key b)
    (habove : ∀ a ∈ l, n < key a) :
    l.filter (fun a => decide (key a ≤ n + count)) = l.take count ↔
      ∀ a ∈ l.take count, key a ≤ n + count := by
  constructor
  · intro heq a ha
    rw [← heq] at ha
    exact of_decide_eq_true (List.mem_filter.mp ha).2
  · intro hnear
    have hfilter := (List.take_prefix count l).filter fun a => decide (key a ≤ n + count)
    rw [List.filter_eq_self.mpr fun a ha => decide_eq_true (hnear a ha)] at hfilter
    exact (within_isPrefix count hl habove).eq_of_length_le hfilter.length_le

end Above

end Foundation
