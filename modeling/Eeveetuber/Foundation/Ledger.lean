import Mathlib.Data.List.Pairwise
import Mathlib.Logic.Relation
import Mathlib.Tactic.Tauto

/-!
# Ledgers

Entries are *issued* in an order `lt`, and after an unbounded delay each of them
is admitted and then observed, or withdrawn. Nothing so far makes the order of
observation the order of issue. A `Foundation.Ledger` is the discipline that
does: an entry is admitted only while it is the earliest of those pending, so
that the pending entries form a single file and at most the first of them is
between its admission and its observation.

Admitted entries may also be queued for delivery. The queue serves classes of
entries – within a class first come, first served, across classes in any order –
and may lose entries.

`Foundation.Ledger.Sound` is the invariant of the discipline. Its two
consequences are `Foundation.Ledger.Sound.observed`, that entries are observed in
the order of issue, and `Foundation.Ledger.Sound.delivered`, that those of one
class are delivered in it.
-/

namespace Foundation

/-- The books of a service that issues, admits, observes and delivers entries. -/
structure Ledger (α : Type) where
  /-- The entries issued and not yet observed or withdrawn, with whether they are admitted. -/
  pending : List (α × Bool)
  /-- The entries queued for delivery. -/
  queue : List α
  /-- The entries observed so far. -/
  observed : List α
  /-- The entries delivered so far. -/
  delivered : List α

namespace Ledger

variable {α γ : Type} (lt : α → α → Prop) (cls : α → γ) (may : α → Prop)

/-- Everything in the books. -/
def entries (L : Ledger α) : List α :=
  L.pending.map Prod.fst ++ (L.queue ++ (L.observed ++ L.delivered))

/-- **The discipline**, where the entries that may be issued are those which meet `may`. -/
inductive Step : Ledger α → Ledger α → Prop
  /-- Pending entries are withdrawn, and queued ones lost. -/
  | withdraw {L : Ledger α} {pending : List (α × Bool)} {queue : List α} :
      pending.Sublist L.pending → queue.Sublist L.queue →
      Step L { L with pending := pending, queue := queue }
  /-- An entry is issued, later than everything in the books. -/
  | issue {L : Ledger α} {a : α} : may a → (∀ x ∈ L.entries, lt x a) →
      Step L { L with pending := L.pending ++ [(a, false)] }
  /-- The earliest pending entry is admitted. -/
  | accept {L : Ledger α} {a : α} {rest : List (α × Bool)} :
      L.pending = (a, false) :: rest → Step L { L with pending := (a, true) :: rest }
  /-- The earliest pending entry is admitted and queued for delivery. -/
  | enqueue {L : Ledger α} {a : α} {rest : List (α × Bool)} :
      L.pending = (a, false) :: rest →
      Step L { L with pending := (a, true) :: rest, queue := L.queue ++ [a] }
  /-- The entry that was admitted is observed. -/
  | observe {L : Ledger α} {a : α} {rest : List (α × Bool)} :
      L.pending = (a, true) :: rest →
      Step L { L with pending := rest, observed := L.observed ++ [a] }
  /-- A queued entry is delivered, the first of its class. -/
  | deliver {L : Ledger α} {a : α} {l₁ l₂ : List α} :
      L.queue = l₁ ++ a :: l₂ → (∀ x ∈ l₁, cls x ≠ cls a) →
      Step L { L with queue := l₁ ++ l₂, delivered := L.delivered ++ [a] }

/-- Any number of steps. -/
abbrev Steps : Ledger α → Ledger α → Prop :=
  Relation.ReflTransGen (Step lt cls may)

/-- **The invariant of the discipline.** -/
structure Sound (L : Ledger α) : Prop where
  /-- The pending entries stand in the order of issue. -/
  pending : L.pending.Pairwise fun p q => lt p.1 q.1
  /-- Only the first of them may be admitted. -/
  first : ∀ p ∈ L.pending.tail, p.2 = false
  /-- Entries are observed in the order of issue. -/
  observed : L.observed.Pairwise lt
  /-- What is observed was issued before what is pending. -/
  observed_pending : ∀ x ∈ L.observed, ∀ p ∈ L.pending, lt x p.1
  /-- Entries are queued in the order of issue. -/
  queue : L.queue.Pairwise lt
  /-- What is queued or delivered was issued before what is not yet admitted. -/
  admitted_pending : ∀ x ∈ L.queue ++ L.delivered, ∀ p ∈ L.pending, p.2 = false → lt x p.1
  /-- The entries of one class are delivered in the order of issue. -/
  delivered : L.delivered.Pairwise fun x y => cls x = cls y → lt x y
  /-- What is delivered was issued before what is queued, within a class. -/
  delivered_queue : ∀ x ∈ L.delivered, ∀ y ∈ L.queue, cls x = cls y → lt x y

variable {lt cls may} {may' : α → Prop} {L L' : Ledger α}

theorem sound_nil : (⟨[], [], [], []⟩ : Ledger α).Sound lt cls := by
  constructor <;> simp

/-- The entries pending behind the first one have not been admitted, and come after it. -/
theorem Sound.of_pending_cons (h : L.Sound lt cls) {p : α × Bool} {rest : List (α × Bool)}
    (hp : L.pending = p :: rest) :
    (∀ q ∈ rest, lt p.1 q.1) ∧ rest.Pairwise (fun p q => lt p.1 q.1) ∧ ∀ q ∈ rest, q.2 = false := by
  have hpair := h.pending
  rw [hp, List.pairwise_cons] at hpair
  refine ⟨hpair.1, hpair.2, fun q hq => h.first q ?_⟩
  rwa [hp, List.tail_cons]

/-- A pending entry that no other one precedes is the first. -/
theorem Sound.eq_nil_of_first (h : L.Sound lt cls) {p : α × Bool} {l₁ l₂ : List (α × Bool)}
    (hp : L.pending = l₁ ++ p :: l₂) (hfirst : ∀ q ∈ L.pending, ¬lt q.1 p.1) : l₁ = [] := by
  have hpair := h.pending
  rw [hp, List.pairwise_append] at hpair
  refine List.eq_nil_iff_forall_not_mem.mpr fun q hq => ?_
  exact hfirst q (by simp [hp, hq]) (hpair.2.2 q hq p (by simp))

/-- An admitted entry is the first. -/
theorem Sound.eq_nil_of_admitted (h : L.Sound lt cls) {a : α} {l₁ l₂ : List (α × Bool)}
    (hp : L.pending = l₁ ++ (a, true) :: l₂) : l₁ = [] := by
  cases l₁ with
  | nil => rfl
  | cons q l₁ => exact absurd (h.first (a, true) (by simp [hp])) (by simp)

theorem Sound.withdraw (h : L.Sound lt cls) {pending : List (α × Bool)} {queue : List α}
    (hp : pending.Sublist L.pending) (hq : queue.Sublist L.queue) :
    Sound lt cls { L with pending := pending, queue := queue } where
  pending := h.pending.sublist hp
  first p hmem := h.first p (hp.tail.subset hmem)
  observed := h.observed
  observed_pending x hx p hmem := h.observed_pending x hx p (hp.subset hmem)
  queue := h.queue.sublist hq
  admitted_pending x hx p hmem := by
    refine h.admitted_pending x ?_ p (hp.subset hmem)
    exact (hq.append_right _).subset hx
  delivered := h.delivered
  delivered_queue x hx y hy := h.delivered_queue x hx y (hq.subset hy)

theorem mem_entries {x : α} : x ∈ L.entries ↔
    (∃ p ∈ L.pending, p.1 = x) ∨ x ∈ L.queue ∨ x ∈ L.observed ∨ x ∈ L.delivered := by
  simp [entries]

theorem Sound.issue (h : L.Sound lt cls) {a : α} (ha : ∀ x ∈ L.entries, lt x a) :
    Sound lt cls { L with pending := L.pending ++ [(a, false)] } where
  pending := by
    refine List.pairwise_append.mpr ⟨h.pending, List.pairwise_singleton _ _, ?_⟩
    rintro p hp q hq
    obtain rfl := List.mem_singleton.mp hq
    exact ha p.1 (mem_entries.mpr (Or.inl ⟨p, hp, rfl⟩))
  first p hmem := by
    cases hL : L.pending with
    | nil => simp [hL] at hmem
    | cons q rest =>
      simp only [hL, List.cons_append, List.tail_cons, List.mem_append, List.mem_singleton] at hmem
      rcases hmem with hmem | rfl
      · exact h.first p (by rwa [hL, List.tail_cons])
      · rfl
  observed := h.observed
  observed_pending x hx p hmem := by
    rcases List.mem_append.mp hmem with hmem | hmem
    · exact h.observed_pending x hx p hmem
    · obtain rfl := List.mem_singleton.mp hmem
      exact ha x (mem_entries.mpr (Or.inr (Or.inr (Or.inl hx))))
  queue := h.queue
  admitted_pending x hx p hmem hfalse := by
    rcases List.mem_append.mp hmem with hmem | hmem
    · exact h.admitted_pending x hx p hmem hfalse
    · obtain rfl := List.mem_singleton.mp hmem
      refine ha x (mem_entries.mpr ?_)
      rcases List.mem_append.mp hx with hx | hx
      · exact Or.inr (Or.inl hx)
      · exact Or.inr (Or.inr (Or.inr hx))
  delivered := h.delivered
  delivered_queue := h.delivered_queue

theorem Sound.accept (h : L.Sound lt cls) {a : α} {rest : List (α × Bool)}
    (hp : L.pending = (a, false) :: rest) :
    Sound lt cls { L with pending := (a, true) :: rest } := by
  obtain ⟨hlt, hrest, hfalse⟩ := h.of_pending_cons hp
  refine ⟨List.pairwise_cons.mpr ⟨hlt, hrest⟩, hfalse, h.observed, fun x hx p hmem => ?_, h.queue,
    fun x hx p hmem hpf => ?_, h.delivered, h.delivered_queue⟩
  · rcases List.mem_cons.mp hmem with rfl | hmem
    · exact h.observed_pending x hx (a, false) (by simp [hp])
    · exact h.observed_pending x hx p (by simp [hp, hmem])
  · rcases List.mem_cons.mp hmem with rfl | hmem
    · cases hpf
    · exact h.admitted_pending x hx p (by simp [hp, hmem]) hpf

theorem Sound.enqueue (h : L.Sound lt cls) {a : α} {rest : List (α × Bool)}
    (hp : L.pending = (a, false) :: rest) :
    Sound lt cls { L with pending := (a, true) :: rest, queue := L.queue ++ [a] } := by
  obtain ⟨hlt, -, -⟩ := h.of_pending_cons hp
  have hadm : ∀ x ∈ L.queue ++ L.delivered, lt x a := fun x hx =>
    h.admitted_pending x hx (a, false) (by simp [hp]) rfl
  have h' := h.accept hp
  refine ⟨h'.pending, h'.first, h'.observed, h'.observed_pending, ?_, fun x hx p hmem hpf => ?_,
    h'.delivered, fun x hx y hy hc => ?_⟩
  · refine List.pairwise_append.mpr ⟨h.queue, List.pairwise_singleton _ _, fun x hx y hy => ?_⟩
    obtain rfl := List.mem_singleton.mp hy
    exact hadm x (List.mem_append_left _ hx)
  · simp only [List.mem_append, List.mem_singleton] at hx
    rcases hx with (hx | rfl) | hx
    · exact h'.admitted_pending x (List.mem_append_left _ hx) p hmem hpf
    · -- the admitted entry comes before all that is still to be admitted
      rcases List.mem_cons.mp hmem with rfl | hmem
      · cases hpf
      · exact hlt p hmem
    · exact h'.admitted_pending x (List.mem_append_right _ hx) p hmem hpf
  · rcases List.mem_append.mp hy with hy | hy
    · exact h.delivered_queue x hx y hy hc
    · obtain rfl := List.mem_singleton.mp hy
      exact hadm x (List.mem_append_right _ hx)

theorem Sound.observe (h : L.Sound lt cls) {a : α} {rest : List (α × Bool)}
    (hp : L.pending = (a, true) :: rest) :
    Sound lt cls { L with pending := rest, observed := L.observed ++ [a] } := by
  obtain ⟨hlt, hrest, hfalse⟩ := h.of_pending_cons hp
  refine ⟨hrest, fun p hmem => hfalse p (List.mem_of_mem_tail hmem), ?_, fun x hx p hmem => ?_,
    h.queue, fun x hx p hmem => ?_, h.delivered, h.delivered_queue⟩
  · refine List.pairwise_append.mpr ⟨h.observed, List.pairwise_singleton _ _, fun x hx y hy => ?_⟩
    obtain rfl := List.mem_singleton.mp hy
    exact h.observed_pending x hx (y, true) (by simp [hp])
  · rcases List.mem_append.mp hx with hx | hx
    · exact h.observed_pending x hx p (by simp [hp, hmem])
    · obtain rfl := List.mem_singleton.mp hx
      exact hlt p hmem
  · exact h.admitted_pending x hx p (by simp [hp, hmem])

theorem Sound.deliver (h : L.Sound lt cls) {a : α} {l₁ l₂ : List α}
    (hq : L.queue = l₁ ++ a :: l₂) (hfirst : ∀ x ∈ l₁, cls x ≠ cls a) :
    Sound lt cls { L with queue := l₁ ++ l₂, delivered := L.delivered ++ [a] } := by
  have hpair := h.queue
  rw [hq, List.pairwise_append, List.pairwise_cons] at hpair
  obtain ⟨h₁, ⟨ha, h₂⟩, h₁₂⟩ := hpair
  refine ⟨h.pending, h.first, h.observed, h.observed_pending, ?_, fun x hx => ?_, ?_,
    fun x hx y hy hc => ?_⟩
  · exact List.pairwise_append.mpr
      ⟨h₁, h₂, fun x hx y hy => h₁₂ x hx y (List.mem_cons_of_mem _ hy)⟩
  · refine h.admitted_pending x ?_
    simp only [hq, List.mem_append, List.mem_cons, List.not_mem_nil, or_false] at hx ⊢
    tauto
  · refine List.pairwise_append.mpr ⟨h.delivered, List.pairwise_singleton _ _, fun x hx y hy => ?_⟩
    obtain rfl := List.mem_singleton.mp hy
    exact h.delivered_queue x hx y (by simp [hq])
  · rcases List.mem_append.mp hx with hx | hx
    · refine h.delivered_queue x hx y ?_ hc
      simp only [hq, List.mem_append, List.mem_cons] at hy ⊢
      tauto
    · obtain rfl := List.mem_singleton.mp hx
      rcases List.mem_append.mp hy with hy | hy
      · exact absurd hc.symm (hfirst y hy)
      · exact ha y hy

/-- **The discipline keeps its invariant.** -/
theorem Sound.step (h : L.Sound lt cls) (hs : Step lt cls may L L') : L'.Sound lt cls := by
  cases hs with
  | withdraw hp hq => exact h.withdraw hp hq
  | issue _ ha => exact h.issue ha
  | accept hp => exact h.accept hp
  | enqueue hp => exact h.enqueue hp
  | observe hp => exact h.observe hp
  | deliver hq hfirst => exact h.deliver hq hfirst

theorem Sound.steps (h : L.Sound lt cls) (hs : Steps lt cls may L L') : L'.Sound lt cls := by
  induction hs with
  | refl => exact h
  | tail _ hstep ih => exact ih.step hstep

/-- The discipline loosens with what may be issued. -/
theorem Steps.mono (hs : Steps lt cls may L L') (hmay : ∀ a, may a → may' a) :
    Steps lt cls may' L L' := by
  refine Relation.ReflTransGen.mono (fun L L' h => ?_) _ _ hs
  cases h with
  | withdraw hp hq => exact .withdraw hp hq
  | issue hm ha => exact .issue (hmay _ hm) ha
  | accept hp => exact .accept hp
  | enqueue hp => exact .enqueue hp
  | observe hp => exact .observe hp
  | deliver hq hfirst => exact .deliver hq hfirst

/-- An entry that is admitted and observed as soon as it is issued. -/
theorem Steps.at_once {a : α} (hp : L.pending = []) (hm : may a) (ha : ∀ x ∈ L.entries, lt x a) :
    Steps lt cls may L { L with observed := L.observed ++ [a] } := by
  have hissue : Step lt cls may L { L with pending := L.pending ++ [(a, false)] } := .issue hm ha
  have haccept : Step lt cls may { L with pending := L.pending ++ [(a, false)] }
      { L with pending := [(a, true)] } := .accept (by simp [hp])
  have hobserve : Step lt cls may { L with pending := [(a, true)] }
      { L with pending := [], observed := L.observed ++ [a] } := .observe rfl
  rw [hp] at hissue haccept
  have hsteps := ((Relation.ReflTransGen.single hissue).tail haccept).tail hobserve
  cases L
  cases hp
  exact hsteps

/-- What is in the books was there before, or has been issued. -/
theorem Step.entries (hs : Step lt cls may L L') :
    ∀ x ∈ L'.entries, x ∈ L.entries ∨ may x := by
  cases hs with
  | withdraw hp hq =>
    intro x hx
    refine Or.inl (mem_entries.mpr ?_)
    rcases mem_entries.mp hx with ⟨p, hmem, hpx⟩ | hx | hx
    · exact Or.inl ⟨p, hp.subset hmem, hpx⟩
    · exact Or.inr (Or.inl (hq.subset hx))
    · exact Or.inr (Or.inr hx)
  | issue hm =>
    intro x hx
    rcases mem_entries.mp hx with ⟨p, hmem, rfl⟩ | hx
    · rcases List.mem_append.mp hmem with hmem | hmem
      · exact Or.inl (mem_entries.mpr (Or.inl ⟨p, hmem, rfl⟩))
      · obtain rfl := List.mem_singleton.mp hmem
        exact Or.inr hm
    · exact Or.inl (mem_entries.mpr (Or.inr hx))
  | accept hp | enqueue hp | observe hp =>
    intro x hx
    refine Or.inl ?_
    simp only [Ledger.entries, hp, List.map_cons, List.mem_append, List.mem_cons,
      List.not_mem_nil, or_false] at hx ⊢
    tauto
  | deliver hq =>
    intro x hx
    refine Or.inl ?_
    simp only [Ledger.entries, hq, List.mem_append, List.mem_cons, List.not_mem_nil, or_false]
      at hx ⊢
    tauto

theorem Steps.entries (hs : Steps lt cls may L L') :
    ∀ x ∈ L'.entries, x ∈ L.entries ∨ may x := by
  induction hs with
  | refl => exact fun x hx => Or.inl hx
  | tail _ hstep ih => exact fun x hx => (hstep.entries x hx).elim (ih x) Or.inr

end Ledger

end Foundation
