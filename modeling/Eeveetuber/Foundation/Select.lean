import Mathlib.Algebra.GroupWithZero.Nat
import Mathlib.Data.List.Basic

/-!
# Taking the best element out of a list

A queue kept as an unsorted list is served by looking for its best element and
removing it, leaving the others in their order. `Foundation.extract` does both
at once for a strict order `better`: it takes the *first* element that no other
one beats, as a scan that replaces its candidate only by a strictly better one
does.

The one fact its users need is `Foundation.extract_eq_some`: where the element
was, that nothing in the list beats it, and that it beats all that stood before
it.
-/

namespace Foundation

variable {α : Type}

/-- A strict weak order on the elements of a list, as a test: beating and not
being beaten are both transitive, and no element beats itself. -/
structure StrictWeak (better : α → α → Bool) : Prop where
  /-- No element beats itself. -/
  irrefl : ∀ a, better a a = false
  /-- Beating is transitive. -/
  trans : ∀ a b c, better a b = true → better b c = true → better a c = true
  /-- Not beating is transitive. -/
  weak : ∀ a b c, better a b = false → better b c = false → better a c = false

/-- The first element of `l` that no other element beats, and the list without it. -/
def extract (better : α → α → Bool) : List α → Option (α × List α)
  | [] => none
  | a :: l => match extract better l with
    | none => some (a, [])
    | some (b, rest) => if better b a then some (b, a :: rest) else some (a, l)

variable {better : α → α → Bool}

@[simp] theorem extract_nil : extract better ([] : List α) = none := rfl

theorem extract_eq_none {l : List α} : extract better l = none ↔ l = [] := by
  cases l with
  | nil => simp only [extract_nil]
  | cons a l =>
    simp only [extract, reduceCtorEq, iff_false]
    cases extract better l with
    | none => simp
    | some p => dsimp only; split <;> simp

theorem StrictWeak.asymm (hb : StrictWeak better) {a b : α} (h : better a b = true) :
    better b a = false := by
  rcases hba : better b a with _ | _
  · rfl
  · rw [← hb.irrefl a, hb.trans a b a h hba]

/-- **What is taken out**: an element that splits the list, that nothing in the
list beats, and that beats everything standing before it. -/
theorem extract_eq_some (hb : StrictWeak better) : ∀ {l rest : List α} {a : α},
    extract better l = some (a, rest) →
    ∃ l₁ l₂, l = l₁ ++ a :: l₂ ∧ rest = l₁ ++ l₂ ∧ (∀ x ∈ l, better x a = false) ∧
      ∀ x ∈ l₁, better a x = true
  | [], _, _, h => by simp at h
  | b :: l, rest, a, h => by
    rw [extract] at h
    cases hl : extract better l with
    | none =>
      simp only [hl, Option.some.injEq, Prod.mk.injEq] at h
      obtain ⟨rfl, rfl⟩ := h
      obtain rfl := extract_eq_none.mp hl
      exact ⟨[], [], rfl, rfl, by simp [hb.irrefl], by simp⟩
    | some p =>
      obtain ⟨c, rest'⟩ := p
      obtain ⟨l₁, l₂, rfl, rfl, hbest, hlt⟩ := extract_eq_some hb hl
      simp only [hl] at h
      split at h
      · -- the best of the tail beats the head
        rename_i hcb
        simp only [Option.some.injEq, Prod.mk.injEq] at h
        obtain ⟨rfl, rfl⟩ := h
        refine ⟨b :: l₁, l₂, rfl, rfl, fun x hx => ?_, fun x hx => ?_⟩
        · rcases List.mem_cons.mp hx with rfl | hx
          · exact hb.asymm hcb
          · exact hbest x hx
        · rcases List.mem_cons.mp hx with rfl | hx
          · exact hcb
          · exact hlt x hx
      · -- the head stays the candidate
        rename_i hcb
        simp only [Option.some.injEq, Prod.mk.injEq] at h
        obtain ⟨rfl, rfl⟩ := h
        refine ⟨[], l₁ ++ c :: l₂, rfl, rfl, fun x hx => ?_, by simp⟩
        rcases List.mem_cons.mp hx with rfl | hx
        · exact hb.irrefl _
        · exact hb.weak _ _ _ (hbest x hx) (by simpa using hcb)

/-! ### An element in its place -/

/-- A list split at one of its elements, and what replacing that element makes of it. -/
theorem exists_split : ∀ {l : List α} {i : ℕ} {a : α}, l[i]? = some a →
    ∃ l₁ l₂, l = l₁ ++ a :: l₂ ∧ ∀ b, l.set i b = l₁ ++ b :: l₂
  | b :: l, 0, a, h => by
    obtain rfl : b = a := by simpa using h
    exact ⟨[], l, rfl, fun _ => rfl⟩
  | b :: l, i + 1, a, h => by
    obtain ⟨l₁, l₂, rfl, hset⟩ := exists_split (l := l) (i := i) (by simpa using h)
    exact ⟨b :: l₁, l₂, rfl, fun c => by simp [hset c]⟩

/-- Replacing an element by one with the same image keeps the images. -/
theorem map_set_of_eq {β : Type} {f : α → β} {l : List α} {i : ℕ} {a b : α} (hi : l[i]? = some a)
    (hf : f b = f a) : (l.set i b).map f = l.map f := by
  obtain ⟨l₁, l₂, rfl, hset⟩ := exists_split hi
  simp [hset, hf]

/-- Replacing an element moves a count by what the two elements count. -/
theorem countP_set_add {p : α → Bool} {l : List α} {i : ℕ} {a b : α} (hi : l[i]? = some a) :
    (l.set i b).countP p + (if p a then 1 else 0) = l.countP p + (if p b then 1 else 0) := by
  obtain ⟨l₁, l₂, rfl, hset⟩ := exists_split hi
  rw [hset]
  simp only [List.countP_append, List.countP_cons]
  omega

/-- Replacing an element moves a sum by what the two elements add to it. -/
theorem sum_map_set {f : α → ℕ} {l : List α} {i : ℕ} {a b : α} (hi : l[i]? = some a) :
    ((l.set i b).map f).sum + f a = (l.map f).sum + f b := by
  obtain ⟨l₁, l₂, rfl, hset⟩ := exists_split hi
  rw [hset]
  simp only [List.map_append, List.map_cons, List.sum_append, List.sum_cons]
  omega

/-- Where an element of a list ends it: nothing before it is like it, and at most one
element is. -/
theorem append_cons_eq_append {xs ys as bs : List α} {y : α} (h : xs ++ y :: ys = as ++ bs)
    (hy : y ∉ as) (hb : bs.length ≤ 1) : xs = as ∧ bs = [y] ∧ ys = [] := by
  rcases bs with _ | ⟨b, _ | ⟨c, bs⟩⟩
  · rw [List.append_nil] at h
    exact absurd (h ▸ by simp) hy
  · rcases List.eq_nil_or_concat ys with rfl | ⟨ys, d, rfl⟩
    · obtain ⟨rfl, hyb⟩ := List.append_inj' h rfl
      exact ⟨rfl, hyb.symm, rfl⟩
    · rw [List.concat_eq_append, ← List.cons_append, ← List.append_assoc] at h
      obtain ⟨rfl, -⟩ := List.append_inj' h rfl
      exact absurd (by simp) hy
  · simp at hb

/-- Replacing one element keeps the others. -/
theorem mem_set_of_ne {l : List α} {i : ℕ} {a b c : α} (hi : l[i]? = some a) (hb : b ∈ l)
    (hne : b ≠ a) : b ∈ l.set i c := by
  obtain ⟨l₁, l₂, rfl, hset⟩ := exists_split hi
  rw [hset]
  simp only [List.mem_append, List.mem_cons] at hb ⊢
  rcases hb with hb | rfl | hb
  · exact Or.inl hb
  · exact absurd rfl hne
  · exact Or.inr (Or.inr hb)

end Foundation
