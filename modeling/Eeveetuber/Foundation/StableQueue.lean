import Mathlib.Data.Int.Notation
import Mathlib.Data.List.Sort

/-!
# The bounded stable queue

What a bounded priority queue is for, without saying how it is kept: a list of
tickets, the highest priority first and, within a priority, the earliest arrival
first. `Foundation.StableQueue.put` inserts a ticket where it belongs and then cuts
the list off at the capacity; whatever falls off is what the put reports.
`Foundation.StableQueue.get` takes the head.

`Foundation.StableQueue.put_of_lt` and `Foundation.StableQueue.put_of_eq` say what
that comes to: a put appends while there is room, and a put into a full queue
exchanges the last ticket for the new one if the last one's priority is lower.
-/

namespace Foundation

variable {α β : Type}

/-! ### Inserting into an ordered list -/

section OrderedInsert

variable {r : α → α → Prop} [DecidableRel r] {s : β → β → Prop} [DecidableRel s]

/-- Where an element is inserted depends only on how it compares with those it may precede. -/
theorem map_orderedInsert_of_iff {f : α → β} {a : α} : ∀ {l : List α},
    (∀ b ∈ l, r a b ↔ s (f a) (f b)) → (l.orderedInsert r a).map f = (l.map f).orderedInsert s (f a)
  | [], _ => rfl
  | b :: l, h => by
    have hb := h b List.mem_cons_self
    rw [List.orderedInsert_cons, List.map_cons, List.orderedInsert_cons]
    by_cases hab : r a b
    · rw [if_pos hab, if_pos (hb.mp hab), List.map_cons, List.map_cons]
    · rw [if_neg hab, if_neg (mt hb.mpr hab), List.map_cons,
        map_orderedInsert_of_iff fun c hc => h c (List.mem_cons_of_mem _ hc)]

/-- An element that precedes nothing is inserted last. -/
theorem orderedInsert_eq_concat {a : α} : ∀ {l : List α}, (∀ b ∈ l, ¬r a b) →
    l.orderedInsert r a = l ++ [a]
  | [], _ => rfl
  | b :: l, h => by
    rw [List.orderedInsert_cons, if_neg (h b List.mem_cons_self),
      orderedInsert_eq_concat fun c hc => h c (List.mem_cons_of_mem _ hc), List.cons_append]

/-- An element that precedes the last one is inserted before it. -/
theorem orderedInsert_concat {a z : α} (h : r a z) : ∀ l : List α,
    (l ++ [z]).orderedInsert r a = l.orderedInsert r a ++ [z]
  | [] => by simp [h]
  | b :: l => by
    rw [List.cons_append, List.orderedInsert_cons, List.orderedInsert_cons]
    by_cases hab : r a b
    · rw [if_pos hab, if_pos hab, List.cons_append, List.cons_append]
    · rw [if_neg hab, if_neg hab, orderedInsert_concat h l, List.cons_append]

/-- An element comparable to all others is inserted in its place. -/
theorem pairwise_orderedInsert {a : α} (ht : ∀ x y z, r x y → r y z → r x z) : ∀ {l : List α},
    (∀ b ∈ l, r a b ∨ r b a) → l.Pairwise r → (l.orderedInsert r a).Pairwise r
  | [], _, _ => List.pairwise_singleton r a
  | b :: l, hc, hl => by
    obtain ⟨hb, hl⟩ := List.pairwise_cons.mp hl
    rw [List.orderedInsert_cons]
    by_cases hab : r a b
    · rw [if_pos hab]
      refine List.pairwise_cons.mpr ⟨fun c hcl => ?_, List.pairwise_cons.mpr ⟨hb, hl⟩⟩
      rcases List.mem_cons.mp hcl with rfl | hcl
      · exact hab
      · exact ht _ _ _ hab (hb c hcl)
    · rw [if_neg hab]
      have hba : r b a := (hc b List.mem_cons_self).resolve_left hab
      refine List.pairwise_cons.mpr ⟨fun c hcl => ?_, pairwise_orderedInsert ht
        (fun c hcl => hc c (List.mem_cons_of_mem _ hcl)) hl⟩
      rcases (List.mem_orderedInsert r).mp hcl with rfl | hcl
      · exact hba
      · exact hb c hcl

end OrderedInsert

/-! ### The queue -/

/-- An item in a queue, with its priority and the number of its arrival. -/
structure Ticket (α : Type) where
  item : α
  priority : ℤ
  arrival : ℕ
deriving DecidableEq, Repr

/-- Whether a ticket comes before another. -/
def Ticket.Before (a b : Ticket α) : Prop :=
  b.priority < a.priority ∨ b.priority = a.priority ∧ a.arrival < b.arrival

instance : DecidableRel (Ticket.Before (α := α)) := fun a b =>
  inferInstanceAs (Decidable (b.priority < a.priority ∨
    b.priority = a.priority ∧ a.arrival < b.arrival))

theorem Ticket.Before.trans {a b c : Ticket α} (hab : a.Before b) (hbc : b.Before c) :
    a.Before c := by
  unfold Before at *
  omega

/-- What became of a put. -/
inductive Verdict (α : Type) where
  | accepted
  | evicted (displaced : α)
  | rejected
deriving DecidableEq, Repr

/-- A bounded stable queue. -/
structure StableQueue (α : Type) where
  capacity : ℕ
  tickets : List (Ticket α)
  /-- How many items have arrived. -/
  arrivals : ℕ
deriving DecidableEq, Repr

namespace StableQueue

/-- An empty queue. -/
def empty (capacity : ℕ) : StableQueue α := ⟨capacity, [], 0⟩

/-- Insert an item where it belongs, cut off at the capacity, and report what fell off. -/
def put (q : StableQueue α) (item : α) (priority : ℤ) : StableQueue α × Verdict α :=
  let ticket : Ticket α := ⟨item, priority, q.arrivals⟩
  let inserted := q.tickets.orderedInsert Ticket.Before ticket
  ({ q with tickets := inserted.take q.capacity, arrivals := q.arrivals + 1 },
    match inserted.drop q.capacity with
    | [] => .accepted
    | last :: _ => if last.arrival = ticket.arrival then .rejected else .evicted last.item)

/-- Take the head. -/
def get (q : StableQueue α) : Option (StableQueue α × α) :=
  match q.tickets with
  | [] => none
  | ticket :: rest => some ({ q with tickets := rest }, ticket.item)

/-- The tickets stand in their order, within the capacity. -/
structure Ordered (q : StableQueue α) : Prop where
  length : q.tickets.length ≤ q.capacity
  pairwise : q.tickets.Pairwise Ticket.Before
  arrival : ∀ t ∈ q.tickets, t.arrival < q.arrivals

variable {q : StableQueue α} {item : α} {priority : ℤ}

theorem empty_ordered (capacity : ℕ) : (empty (α := α) capacity).Ordered :=
  ⟨Nat.zero_le _, .nil, by simp [empty]⟩

/-- The newest ticket comes before those of lower priority only. -/
theorem Ordered.before_newest (h : q.Ordered) (item : α) (priority : ℤ) {t : Ticket α}
    (ht : t ∈ q.tickets) :
    Ticket.Before ⟨item, priority, q.arrivals⟩ t ↔ t.priority < priority := by
  have := h.arrival t ht
  simp only [Ticket.Before]
  omega

theorem Ordered.insert (h : q.Ordered) (item : α) (priority : ℤ) {front : List (Ticket α)}
    (hf : front.Sublist q.tickets) :
    (front.orderedInsert Ticket.Before ⟨item, priority, q.arrivals⟩).Pairwise Ticket.Before ∧
      ∀ t ∈ front.orderedInsert Ticket.Before ⟨item, priority, q.arrivals⟩,
        t.arrival < q.arrivals + 1 := by
  refine ⟨pairwise_orderedInsert (r := Ticket.Before) (fun _ _ _ hab hbc => hab.trans hbc)
    (fun t ht => ?_) (h.pairwise.sublist hf), fun t ht => ?_⟩
  · have := h.arrival t (hf.subset ht)
    simp only [Ticket.Before]
    omega
  · rcases (List.mem_orderedInsert _).mp ht with rfl | ht
    · exact Nat.lt_succ_self _
    · exact Nat.lt_succ_of_lt (h.arrival t (hf.subset ht))

/-- **A put while there is room.** -/
theorem put_of_lt (hlt : q.tickets.length < q.capacity) : q.put item priority =
    ({ q with
      tickets := q.tickets.orderedInsert Ticket.Before ⟨item, priority, q.arrivals⟩
      arrivals := q.arrivals + 1 }, .accepted) := by
  have hlen : (q.tickets.orderedInsert Ticket.Before ⟨item, priority, q.arrivals⟩).length ≤
      q.capacity := by
    rw [List.orderedInsert_length]
    exact hlt
  simp only [put, List.take_of_length_le hlen, List.drop_eq_nil_of_le hlen]

/-- **A put into a full queue**: the new ticket takes the place of the last one if that
one's priority is lower, and falls off otherwise. -/
theorem put_of_eq (h : q.Ordered) {front : List (Ticket α)} {last : Ticket α}
    (hq : q.tickets = front ++ [last]) (hlen : q.tickets.length = q.capacity) :
    q.put item priority = if last.priority < priority then
      ({ q with
        tickets := front.orderedInsert Ticket.Before ⟨item, priority, q.arrivals⟩
        arrivals := q.arrivals + 1 }, .evicted last.item)
    else ({ q with arrivals := q.arrivals + 1 }, .rejected) := by
  have hlast : last ∈ q.tickets := by simp [hq]
  have hbefore := h.before_newest item priority hlast
  by_cases hlt : last.priority < priority
  · rw [if_pos hlt]
    have hfront : (front.orderedInsert Ticket.Before ⟨item, priority, q.arrivals⟩).length =
        q.capacity := by
      rw [List.orderedInsert_length, ← hlen, hq, List.length_append, List.length_singleton]
    have hne : last.arrival ≠ q.arrivals := (h.arrival last hlast).ne
    simp only [put, hq, orderedInsert_concat (hbefore.mpr hlt), List.take_left' hfront,
      List.drop_left' hfront, if_neg hne]
  · rw [if_neg hlt]
    -- nothing before the last ticket has a lower priority either
    have hnone : ∀ t ∈ q.tickets, ¬Ticket.Before ⟨item, priority, q.arrivals⟩ t := by
      intro t ht hbef
      rw [h.before_newest item priority ht] at hbef
      rw [hq] at ht
      rcases List.mem_append.mp ht with ht | ht
      · have hp := h.pairwise
        rw [hq] at hp
        have := (List.pairwise_append.mp hp).2.2 t ht last (by simp)
        simp only [Ticket.Before] at this
        omega
      · rw [List.mem_singleton.mp ht] at hbef
        exact hlt hbef
    simp only [put, orderedInsert_eq_concat hnone, List.take_left' hlen, List.drop_left' hlen,
      if_true]

theorem get_ordered (h : q.Ordered) {q' : StableQueue α} {x : α} (hg : q.get = some (q', x)) :
    q'.Ordered := by
  unfold get at hg
  split at hg
  · cases hg
  · rename_i ticket rest hq
    cases hg
    have hs : rest.Sublist q.tickets := hq ▸ List.sublist_cons_self _ _
    exact ⟨hs.length_le.trans h.length, h.pairwise.sublist hs,
      fun t ht => h.arrival t (hs.subset ht)⟩

end StableQueue

end Foundation
