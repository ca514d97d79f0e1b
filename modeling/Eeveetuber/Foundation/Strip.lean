import Eeveetuber.Foundation.Text

/-!
# White space at the ends

Stripping a text takes away white space and nothing else: what is left of the text when all white
space is taken out, its `Foundation.ink`, is the same before and after. What is stripped does not
depend on white space that is added at an end.
-/

namespace Foundation

variable {s t : Text} {c : Char}

/-- A text without its white space. -/
def ink (t : Text) : Text := t.filter fun c => !isSpace c

@[simp] theorem ink_nil : ink [] = [] := rfl

@[simp] theorem ink_append : ink (s ++ t) = ink s ++ ink t := List.filter_append _ _

theorem ink_cons_of_isSpace (h : isSpace c = true) : ink (c :: t) = ink t :=
  List.filter_cons_of_neg (by simp [h])

theorem ink_eq_nil_iff : ink t = [] ↔ isBlank t = true := by
  rw [ink, List.filter_eq_nil_iff, isBlank, List.all_eq_true]
  refine forall₂_congr fun c _ => ?_
  rw [Bool.not_eq_true', Bool.not_eq_false]

@[simp] theorem ink_reverse : ink t.reverse = (ink t).reverse := List.filter_reverse

/-- What is dropped from the beginning is white space. -/
theorem ink_lstrip (t : Text) : ink (lstrip t) = ink t := by
  induction t with
  | nil => rfl
  | cons c t ih =>
    rcases hc : isSpace c with _ | _
    · rw [lstrip, List.dropWhile_cons_of_neg (by simp [hc])]
    · rw [lstrip, List.dropWhile_cons_of_pos hc, ink_cons_of_isSpace hc]
      exact ih

theorem ink_rstrip (t : Text) : ink (rstrip t) = ink t := by
  rw [rstrip, ink_reverse]
  have h := ink_lstrip t.reverse
  rw [lstrip] at h
  rw [h, ink_reverse, List.reverse_reverse]

/-- **Stripping loses white space only.** -/
theorem ink_strip (t : Text) : ink (strip t) = ink t := by rw [strip, ink_rstrip, ink_lstrip]

theorem strip_cons_of_isSpace (h : isSpace c = true) : strip (c :: t) = strip t := by
  rw [strip, strip, lstrip, lstrip, List.dropWhile_cons_of_pos h]

theorem strip_append_of_isBlank (h : isBlank s = true) : strip (s ++ t) = strip t := by
  induction s with
  | nil => rfl
  | cons c s ih =>
    rw [isBlank, List.all_cons, Bool.and_eq_true] at h
    rw [List.cons_append, strip_cons_of_isSpace h.1, ih h.2]

theorem strip_concat_of_isSpace (h : isSpace c = true) : strip (t ++ [c]) = strip t := by
  rcases hblank : isBlank t with _ | _
  · have hmem : ¬∀ d ∈ t, isSpace d = true := by
      rw [← List.all_eq_true, ← isBlank, hblank]
      exact Bool.false_ne_true
    have hdrop : lstrip (t ++ [c]) = lstrip t ++ [c] := by
      rw [lstrip, List.dropWhile_append, if_neg]
      · rfl
      · rw [List.isEmpty_iff, List.dropWhile_eq_nil_iff]
        exact hmem
    rw [strip, hdrop, rstrip, List.reverse_append, List.reverse_singleton, List.singleton_append,
      List.dropWhile_cons_of_pos h]
    rfl
  · rw [strip_append_of_isBlank hblank, isBlank_iff.mp hblank, ← isBlank_iff]
    rw [isBlank, List.all_cons, h]
    rfl

theorem length_strip_le (t : Text) : (strip t).length ≤ t.length := (strip_isInfix t).length_le

end Foundation
