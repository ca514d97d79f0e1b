import Mathlib.Data.List.Sort

/-!
# Sorting by a key

Python's `sorted(…, key=…)` is a stable sort by the values of a key. It puts the values in
order (`Foundation.pairwise_mergeSort_key`), and when no two elements have the same value it
does not matter in which order they were given (`Foundation.mergeSort_key_eq_of_perm`).
-/

namespace Foundation

variable {α κ : Type*} [LinearOrder κ] {l l' : List α}

/-- **What is sorted by a key is in the order of the key.** -/
theorem pairwise_mergeSort_key (key : α → κ) (l : List α) :
    (l.mergeSort fun a b => decide (key a ≤ key b)).Pairwise fun a b => key a ≤ key b := by
  have h := List.pairwise_mergeSort
    (fun a b c (hab : decide (key a ≤ key b) = true) (hbc : decide (key b ≤ key c) = true) =>
      decide_eq_true ((of_decide_eq_true hab).trans (of_decide_eq_true hbc)))
    (fun a b => by simpa using le_total (key a) (key b)) l
  exact h.imp fun hab => of_decide_eq_true hab

/-- **Elements of distinct keys are sorted alike**, however they were given. -/
theorem mergeSort_key_eq_of_perm (key : α → κ) (hperm : l.Perm l')
    (hinj : ∀ a ∈ l, ∀ b ∈ l, key a = key b → a = b) :
    (l.mergeSort fun a b => decide (key a ≤ key b)) =
      l'.mergeSort fun a b => decide (key a ≤ key b) := by
  have hl := List.mergeSort_perm l fun a b => decide (key a ≤ key b)
  have hl' := List.mergeSort_perm l' fun a b => decide (key a ≤ key b)
  refine List.Perm.eq_of_pairwise ?_ (pairwise_mergeSort_key key l)
    (pairwise_mergeSort_key key l') (hl.trans (hperm.trans hl'.symm))
  intro a b ha hb hab hba
  exact hinj a (hl.mem_iff.mp ha) b (hperm.mem_iff.mpr (hl'.mem_iff.mp hb)) (le_antisymm hab hba)

/-- Elements of distinct keys are in strict order. -/
theorem pairwise_lt_mergeSort_key (key : α → κ) (hnodup : (l.map key).Nodup) :
    (l.mergeSort fun a b => decide (key a ≤ key b)).Pairwise fun a b => key a < key b := by
  have hperm := List.mergeSort_perm l fun a b => decide (key a ≤ key b)
  have hne := List.pairwise_map.mp ((hperm.map key).nodup_iff.mpr hnodup)
  exact (pairwise_mergeSort_key key l).imp₂ (fun _ _ hle hne => lt_of_le_of_ne hle hne) hne

/-- What is left of a list is sorted as what is left of the sorted list. -/
theorem mergeSort_key_filter (key : α → κ) (p : α → Bool) (hnodup : (l.map key).Nodup) :
    (l.filter p).mergeSort (fun a b => decide (key a ≤ key b)) =
      (l.mergeSort fun a b => decide (key a ≤ key b)).filter p := by
  have hperm := List.mergeSort_perm l fun a b => decide (key a ≤ key b)
  have hsorted := pairwise_mergeSort_key key l
  refine List.Perm.eq_of_pairwise ?_ (pairwise_mergeSort_key key _) (hsorted.filter p)
    ((List.mergeSort_perm _ _).trans (hperm.filter p).symm)
  intro a b ha hb hab hba
  have hmem := (List.mergeSort_perm (l.filter p) _).mem_iff.mp ha
  exact List.inj_on_of_nodup_map hnodup (List.mem_filter.mp hmem).1
    (hperm.mem_iff.mp (List.mem_filter.mp hb).1) (le_antisymm hab hba)

end Foundation
