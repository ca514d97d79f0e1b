import Mathlib.Data.List.DropRight
import Mathlib.Data.List.Infix

/-!
# Runs at the end of a list

Of a list that grows at its end, the last so many entries may all pass a test.
`Foundation.Completes` says so, and `Foundation.completes_iff` that it is asked of the longest
run at the end whose entries all pass, `List.rtakeWhile`. As an entry is added that run grows by
one or is gone, so it is what a program has to remember.
-/

namespace Foundation

variable {α : Type} {test : α → Bool} {n : ℕ} {l s : List α} {x : α}

/-- The last so many entries are there, and they all pass. -/
def Completes (test : α → Bool) (n : ℕ) (l : List α) : Prop :=
  n ≤ l.length ∧ ∀ x ∈ l.rtake n, test x = true

instance : Decidable (Completes test n l) := by
  unfold Completes
  infer_instance

theorem rtake_suffix (n : ℕ) (l : List α) : l.rtake n <:+ l := List.drop_suffix _ _

theorem length_rtake (n : ℕ) (l : List α) : (l.rtake n).length = min n l.length := by
  rw [List.rtake, List.length_drop]
  omega

/-- An end of a list is its last entries. -/
theorem eq_rtake_of_suffix (h : s <:+ l) : s = l.rtake s.length := by
  obtain ⟨t, rfl⟩ := h
  rw [List.rtake, List.length_append, Nat.add_sub_cancel, List.drop_left]

/-- An end all of whose entries pass is part of the longest one. -/
theorem suffix_rtakeWhile (h : s <:+ l) (hs : ∀ x ∈ s, test x = true) :
    s <:+ l.rtakeWhile test := by
  induction l using List.reverseRecOn generalizing s with
  | nil =>
    obtain rfl := List.suffix_nil.mp h
    exact List.nil_suffix
  | append_singleton l x ih =>
    obtain rfl | ⟨t, rfl, ht⟩ := List.suffix_concat_iff.mp h
    · exact List.nil_suffix
    · rw [List.rtakeWhile_concat_pos test l x (hs x (by simp))]
      obtain ⟨u, hu⟩ := ih ht fun y hy => hs y (List.mem_append_left _ hy)
      exact ⟨u, by rw [← hu, List.append_assoc]⟩

/-- **A run is completed** when the longest one at the end is long enough. -/
theorem completes_iff : Completes test n l ↔ n ≤ (l.rtakeWhile test).length := by
  have hsuffix : l.rtakeWhile test <:+ l := List.rtakeWhile_suffix test l
  constructor
  · rintro ⟨hle, hall⟩
    have hlength := (suffix_rtakeWhile (rtake_suffix n l) hall).length_le
    rw [length_rtake] at hlength
    omega
  · intro hle
    refine ⟨hle.trans hsuffix.length_le, fun x hx => ?_⟩
    have hshort : l.rtake n <:+ l.rtakeWhile test := by
      refine List.suffix_of_suffix_length_le (rtake_suffix n l) hsuffix ?_
      rw [length_rtake]
      exact (min_le_left _ _).trans hle
    exact List.mem_rtakeWhile_imp (hshort.subset hx)

/-- When a run is completed by an entry, it is the longest one, and no longer. -/
theorem rtakeWhile_eq_rtake (hshort : (l.rtakeWhile test).length < n)
    (h : Completes test n (l ++ [x])) :
    (l ++ [x]).rtakeWhile test = (l ++ [x]).rtake n := by
  have hle := completes_iff.mp h
  have hlength : ((l ++ [x]).rtakeWhile test).length ≤ (l.rtakeWhile test).length + 1 := by
    rw [List.rtakeWhile_concat]
    split_ifs
    · rw [List.length_append, List.length_singleton]
    · exact Nat.zero_le _
  rw [eq_rtake_of_suffix (List.rtakeWhile_suffix test (l ++ [x]))]
  congr 1
  omega

end Foundation
