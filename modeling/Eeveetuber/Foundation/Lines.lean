import Mathlib.Data.List.Basic

/-!
# Lines

A stream is cut into lines at a separator. What has come in so far consists of the lines that are
terminated and of one that is not, `Foundation.terminated` and `Foundation.unterminated`; when more
comes in, the unterminated line goes on. So a reader that keeps only the unterminated line sees the
same lines however the stream comes in: `Foundation.terminated_append` and
`Foundation.unterminated_append`.
-/

namespace Foundation

/-- **All lines when more comes in**: those that are terminated stay as they are. -/
theorem exists_splitOn_append {β : Type} [BEq β] (sep : β) (l l' : List β) :
    ∃ more, (l ++ l').splitOn sep = (l.splitOn sep).dropLast ++ more := by
  induction l with
  | nil => exact ⟨_, rfl⟩
  | cons x l ih =>
    obtain ⟨more, hmore⟩ := ih
    rw [List.cons_append, List.splitOn_cons_eq_if_modifyHead, List.splitOn_cons_eq_if_modifyHead,
      hmore]
    obtain ⟨line, lines, hlines⟩ := List.exists_cons_of_ne_nil (List.splitOn_ne_nil sep l)
    rw [hlines]
    split
    · exact ⟨more, rfl⟩
    · cases lines with
      | nil => exact ⟨_, rfl⟩
      | cons line' lines => exact ⟨more, rfl⟩

variable {α : Type} [DecidableEq α] {sep : α} {l l' s : List α}

/-- The lines of a stream that are terminated, without their separators. -/
def terminated (sep : α) (l : List α) : List (List α) := (l.splitOn sep).dropLast

/-- What stands behind the last separator. -/
def unterminated (sep : α) (l : List α) : List α :=
  (l.splitOn sep).getLast (List.splitOn_ne_nil sep l)

theorem terminated_of_not_mem (h : sep ∉ l) : terminated sep l = [] := by
  rw [terminated, List.splitOn_eq_singleton h]
  rfl

theorem unterminated_of_not_mem (h : sep ∉ l) : unterminated sep l = l := by
  simp only [unterminated, List.splitOn_eq_singleton h, List.getLast_singleton]

@[simp] theorem terminated_nil : terminated sep [] = [] :=
  terminated_of_not_mem List.not_mem_nil

@[simp] theorem unterminated_nil : unterminated sep [] = [] :=
  unterminated_of_not_mem List.not_mem_nil

/-- The first line. -/
theorem terminated_append_cons (h : sep ∉ s) :
    terminated sep (s ++ sep :: l) = s :: terminated sep l := by
  rw [terminated, List.splitOn_append_cons_self_of_not_mem h,
    List.dropLast_cons_of_ne_nil (List.splitOn_ne_nil sep l)]
  rfl

theorem unterminated_append_cons (h : sep ∉ s) :
    unterminated sep (s ++ sep :: l) = unterminated sep l := by
  simp only [unterminated, List.splitOn_append_cons_self_of_not_mem h,
    List.getLast_cons (List.splitOn_ne_nil sep l)]

/-- **A stream line by line.** -/
theorem lines_induction (sep : α) {P : List α → Prop} (hrest : ∀ l, sep ∉ l → P l)
    (hline : ∀ s l, sep ∉ s → P l → P (s ++ sep :: l)) (l : List α) : P l := by
  induction hn : l.length using Nat.strongRecOn generalizing l with
  | ind n ih =>
    by_cases h : sep ∈ l
    · obtain ⟨s, t, rfl, hs⟩ := List.eq_append_cons_of_mem h
      refine hline s t hs (ih t.length ?_ t rfl)
      rw [← hn, List.length_append, List.length_cons]
      omega
    · exact hrest l h

theorem not_mem_unterminated (l : List α) : sep ∉ unterminated sep l := by
  induction l using lines_induction sep with
  | hrest l h => rwa [unterminated_of_not_mem h]
  | hline s l hs ih => rwa [unterminated_append_cons hs]

/-- **More comes in**: the unterminated line goes on. -/
theorem terminated_append (l l' : List α) :
    terminated sep (l ++ l') = terminated sep l ++ terminated sep (unterminated sep l ++ l') := by
  induction l using lines_induction sep with
  | hrest l h => rw [terminated_of_not_mem h, unterminated_of_not_mem h, List.nil_append]
  | hline s l hs ih =>
    rw [List.append_assoc, List.cons_append, terminated_append_cons hs, terminated_append_cons hs,
      unterminated_append_cons hs, ih, List.cons_append]

theorem unterminated_append (l l' : List α) :
    unterminated sep (l ++ l') = unterminated sep (unterminated sep l ++ l') := by
  induction l using lines_induction sep with
  | hrest l h => rw [unterminated_of_not_mem h]
  | hline s l hs ih =>
    rw [List.append_assoc, List.cons_append, unterminated_append_cons hs,
      unterminated_append_cons hs, ih]

/-- The first line, terminated or not, goes on with what follows. -/
theorem exists_prefix_line (h : sep ∉ s) (l : List α) :
    ∃ t ∈ terminated sep (s ++ l) ++ [unterminated sep (s ++ l)], s <+: t := by
  by_cases hl : sep ∈ l
  · obtain ⟨u, v, rfl, hu⟩ := List.eq_append_cons_of_mem hl
    have hsu : sep ∉ s ++ u := fun hmem => (List.mem_append.mp hmem).elim h hu
    refine ⟨s ++ u, ?_, List.prefix_append s u⟩
    rw [← List.append_assoc, terminated_append_cons hsu]
    exact List.mem_append_left _ List.mem_cons_self
  · have hsl : sep ∉ s ++ l := fun hmem => (List.mem_append.mp hmem).elim h hl
    refine ⟨s ++ l, ?_, List.prefix_append s l⟩
    rw [unterminated_of_not_mem hsl]
    exact List.mem_append_right _ List.mem_cons_self

/-- **What is unterminated at some point** is the beginning of a line of the whole stream. -/
theorem exists_prefix_unterminated (l l' : List α) :
    ∃ t ∈ terminated sep (l ++ l') ++ [unterminated sep (l ++ l')], unterminated sep l <+: t := by
  obtain ⟨t, ht, hbegins⟩ := exists_prefix_line (not_mem_unterminated l) l'
  refine ⟨t, ?_, hbegins⟩
  rw [terminated_append, unterminated_append, List.append_assoc]
  exact List.mem_append_right _ ht

/-- A line that is terminated was unterminated just before. -/
theorem exists_unterminated_eq {l : List α} (h : s ∈ terminated sep l) :
    ∃ l₁ l₂, l = l₁ ++ sep :: l₂ ∧ unterminated sep l₁ = s := by
  induction l using lines_induction sep with
  | hrest l hl =>
    rw [terminated_of_not_mem hl] at h
    cases h
  | hline t l ht ih =>
    rw [terminated_append_cons ht] at h
    rcases List.mem_cons.mp h with rfl | h
    · exact ⟨s, l, rfl, unterminated_of_not_mem ht⟩
    · obtain ⟨l₁, l₂, rfl, rfl⟩ := ih h
      refine ⟨t ++ sep :: l₁, l₂, by simp, ?_⟩
      rw [unterminated_append_cons ht]

end Foundation
