import Eeveetuber.Foundation.StableQueue
import Eeveetuber.Runtime.Mailbox

/-!
# The mailbox is a bounded stable queue

A mailbox keeps its entries unsorted and looks for the extremes when it needs them:
`get` for the oldest entry of the highest priority, a put into a full mailbox for the
newest entry of the lowest one. **Under `DROP_LOWEST` that is the bounded stable
queue** of `Foundation.StableQueue`, by `Eeveetuber.PriorityMailbox.perform_refines`
for one operation and `Eeveetuber.PriorityMailbox.refines` for all.

The two are related by `Eeveetuber.PriorityMailbox.Represents`: the entries, put in
delivery order, are the tickets of the queue, arrival numbers aside – a mailbox
gives an item it turns away no number.
-/

namespace Eeveetuber

open Foundation

/-- An operation that does not wait. -/
inductive MailboxOperation (α : Type) where
  | put (item : α)
  | get
deriving Repr

/-- What an operation answers. -/
inductive MailboxReply (α : Type) where
  | put (result : PutResult α)
  | raised (error : MailboxError)
  /-- The item a `get` returned; `none` where it waits for one. -/
  | got (item : Option α)
deriving Repr

namespace PriorityMailbox

variable {α κ : Type} [DecidableEq κ]

/-- Perform an operation on a mailbox. -/
def perform (m : PriorityMailbox α κ) : MailboxOperation α → PriorityMailbox α κ × MailboxReply α
  | .put item => match m.put item with
    | .ok (m', some r) => (m', .put r)
    | .ok (m', none) => (m', .raised .value)  -- an immediate put always resolves
    | .error e => (m, .raised e)
  | .get => match m.get with
    | some (m', x) => (m', .got (some x.item))
    | none => (m, .got none)

/-- Perform operations one after the other. -/
def performAll (m : PriorityMailbox α κ) :
    List (MailboxOperation α) → PriorityMailbox α κ × List (MailboxReply α)
  | [] => (m, [])
  | op :: ops =>
    let p := m.perform op
    let rest := p.1.performAll ops
    (rest.1, p.2 :: rest.2)

end PriorityMailbox

/-- The result of a put, by what fell off the queue. -/
def PutResult.ofVerdict {α : Type} (item : α) : Verdict α → PutResult α
  | .accepted => ⟨.accepted, item, none⟩
  | .evicted displaced => ⟨.evictedLowest, item, some displaced⟩
  | .rejected => ⟨.rejectedFull, item, none⟩

namespace Reference

variable {α : Type} (priority : α → ℤ)

/-- Perform an operation on the reference queue. -/
def perform (q : StableQueue α) : MailboxOperation α → StableQueue α × MailboxReply α
  | .put item =>
    ((q.put item (priority item)).1, .put (.ofVerdict item (q.put item (priority item)).2))
  | .get => match q.get with
    | some (q', x) => (q', .got (some x))
    | none => (q, .got none)

/-- Perform operations one after the other. -/
def performAll (q : StableQueue α) :
    List (MailboxOperation α) → StableQueue α × List (MailboxReply α)
  | [] => (q, [])
  | op :: ops =>
    let p := perform priority q op
    let rest := performAll p.1 ops
    (rest.1, p.2 :: rest.2)

end Reference

namespace PriorityMailbox

variable {α κ : Type}

/-- An entry, arrival order aside. -/
def Entry.face (e : Entry α) : α × ℤ := (e.item, e.priority)

/-- A ticket, arrival number aside. -/
def Ticket.face (t : Ticket α) : α × ℤ := (t.item, t.priority)

/-- Delivery order. -/
abbrev Delivered (a b : Entry α) : Prop := deliveredBefore a b = true

/-- The mailbox holds what the queue holds. -/
structure Represents (priority : α → ℤ) (m : PriorityMailbox α κ) (q : StableQueue α) : Prop where
  overflow : m.config.overflow = .dropLowest
  priorityOf : m.config.priorityOf = fun a => .ok (priority a)
  closed : m.closed = false
  capacity : q.capacity = m.config.capacity
  ordered : q.Ordered
  priorities : ∀ t ∈ q.tickets, t.priority = priority t.item
  orders : ∀ e ∈ m.items, e.order < m.nextOrder
  sorted : ∃ es : List (Entry α), es.Perm m.items ∧ es.Pairwise Delivered ∧
    es.map Entry.face = q.tickets.map Ticket.face

variable {priority : α → ℤ} {m m' : PriorityMailbox α κ} {q : StableQueue α} {item : α}
  {es : List (Entry α)}

theorem Represents.length (h : Represents priority m q) :
    m.items.length = q.tickets.length := by
  obtain ⟨es, hperm, -, hface⟩ := h.sorted
  rw [← hperm.length_eq]
  simpa using congrArg List.length hface

theorem Represents.one_le (h : Represents priority m q) : 1 ≤ q.capacity :=
  h.capacity ▸ m.config.one_le_capacity

/-- An immediate put into an open mailbox that does not coalesce only ever appends. -/
theorem Represents.put_eq [DecidableEq κ] (h : Represents priority m q) :
    m.put item = .ok (m.tryAppendLocked item (priority item) true true) := by
  have hover : m.config.overflow ≠ .coalesce := by simp [h.overflow]
  simp [put, h.priorityOf, tryPutLocked, h.closed, tryCoalesceLocked, hover, bind, Except.bind,
    pure, Except.pure]

/-! ### The extremes stand at the ends -/

/-- `get` takes the head. -/
theorem get_eq_head {x y : Entry α} {rest : List (Entry α)} (hperm : (x :: rest).Perm m.items)
    (hsorted : (x :: rest).Pairwise Delivered) (hget : m.get = some (m', y)) :
    y = x ∧ rest.Perm m'.items ∧ m'.config = m.config ∧ m'.closed = m.closed ∧
      m'.nextOrder = m.nextOrder := by
  obtain ⟨l₁, l₂, hl, hl', hcfg, hclosed, hnext, hmax, holdest, -⟩ := get_eq_some hget
  have hy : y ∈ x :: rest := hperm.mem_iff.mpr (by simp [hl])
  have hx : x ∈ m.items := hperm.mem_iff.mp List.mem_cons_self
  obtain rfl : y = x := by
    rcases List.mem_cons.mp hy with rfl | hy
    · rfl
    · -- then the head is delivered before the entry that was taken
      have hbef := (List.pairwise_cons.mp hsorted).1 y hy
      have h₁ := hmax x hx
      simp only [Delivered, deliveredBefore, Bool.or_eq_true, decide_eq_true_eq,
        Bool.and_eq_true, beq_iff_eq] at hbef
      rcases hbef with hlt | ⟨heq, hlt⟩
      · omega
      · have h₂ := holdest x hx heq
        omega
  refine ⟨rfl, ?_, hcfg, hclosed, hnext⟩
  rw [hl']
  exact List.Perm.cons_inv (hperm.trans (hl ▸ List.perm_middle))

/-- Eviction takes the last one. -/
theorem lowest_eq_last {front : List (Entry α)} {last : Entry α}
    (hperm : (front ++ [last]).Perm m.items) (hsorted : (front ++ [last]).Pairwise Delivered) :
    ∃ rest, lowest m.items = some (last, rest) ∧ front.Perm rest := by
  have hlast : last ∈ m.items := hperm.mem_iff.mp (by simp)
  cases hlow : lowest m.items with
  | none =>
    rw [extract_eq_none.mp hlow] at hlast
    cases hlast
  | some p =>
    obtain ⟨dropped, rest⟩ := p
    obtain ⟨l₁, l₂, hl, hrest, hbest, -⟩ := extract_eq_some strictWeak_evictedBefore hlow
    have hd : dropped ∈ front ++ [last] := hperm.mem_iff.mpr (by simp [hl])
    obtain rfl : dropped = last := by
      rcases List.mem_append.mp hd with hd | hd
      · -- then the last entry would be evicted before it
        have hbef := (List.pairwise_append.mp hsorted).2.2 dropped hd last (by simp)
        have hnot := hbest last hlast
        simp only [Delivered, deliveredBefore, evictedBefore, Bool.or_eq_true, Bool.or_eq_false_iff,
          decide_eq_true_eq, decide_eq_false_iff_not, Bool.and_eq_true, Bool.and_eq_false_iff,
          beq_iff_eq, beq_eq_false_iff_ne] at hbef hnot
        omega
      · exact List.mem_singleton.mp hd
    refine ⟨rest, rfl, ?_⟩
    have hperm' : (dropped :: front).Perm (dropped :: (l₁ ++ l₂)) :=
      (List.perm_append_singleton dropped front).symm.trans
        (hperm.trans (hl ▸ List.perm_middle))
    exact hrest ▸ hperm'.cons_inv

/-! ### Appending inserts -/

/-- The newest entry is delivered before those of lower priority only. -/
theorem delivered_newest {order : ℕ} {p : ℤ} {e : Entry α} (he : e.order < order) :
    Delivered ⟨item, p, order⟩ e ↔ e.priority < p := by
  simp only [Delivered, deliveredBefore, Bool.or_eq_true, decide_eq_true_eq, Bool.and_eq_true,
    beq_iff_eq]
  omega

/-- Where the entry goes is where the ticket goes. -/
theorem face_insert {tickets : List (Ticket α)} {order arrival : ℕ} {p : ℤ}
    (horders : ∀ e ∈ es, e.order < order) (harrivals : ∀ t ∈ tickets, t.arrival < arrival)
    (hface : es.map Entry.face = tickets.map Ticket.face) :
    (es.orderedInsert Delivered ⟨item, p, order⟩).map Entry.face =
      (tickets.orderedInsert Ticket.Before ⟨item, p, arrival⟩).map Ticket.face := by
  let higher : α × ℤ → α × ℤ → Prop := fun a b => b.2 < a.2
  have : DecidableRel higher := fun a b => inferInstanceAs (Decidable (b.2 < a.2))
  rw [map_orderedInsert_of_iff (s := higher) fun e he => delivered_newest (horders e he),
    map_orderedInsert_of_iff (s := higher) fun t ht => ?_, hface]
  · rfl
  · have := harrivals t ht
    simp only [Ticket.Before, higher, Ticket.face]
    omega

theorem pairwise_insert {order : ℕ} {p : ℤ} (horders : ∀ e ∈ es, e.order < order)
    (hsorted : es.Pairwise Delivered) :
    (es.orderedInsert Delivered ⟨item, p, order⟩).Pairwise Delivered := by
  refine pairwise_orderedInsert (r := Delivered)
    (fun a b c => strictWeak_deliveredBefore.trans a b c) (fun e he => ?_) hsorted
  have := horders e he
  simp only [Delivered, deliveredBefore, Bool.or_eq_true, decide_eq_true_eq, Bool.and_eq_true,
    beq_iff_eq]
  omega

/-- The state after an entry was appended behind some of the earlier ones. -/
theorem Represents.appended (h : Represents priority m q) {tickets : List (Ticket α)}
    {items : List (Entry α)} {stats : MailboxStats} {space : Bool} (hperm : es.Perm items)
    (hsorted : es.Pairwise Delivered) (hface : es.map Entry.face = tickets.map Ticket.face)
    (hitems : items.Sublist m.items) (htickets : tickets.Sublist q.tickets)
    (hroom : tickets.length < q.capacity) :
    Represents priority
      { m with
        items := items ++ [⟨item, priority item, m.nextOrder⟩]
        nextOrder := m.nextOrder + 1
        spaceAvailable := space
        stats := stats }
      { q with
        tickets := tickets.orderedInsert Ticket.Before ⟨item, priority item, q.arrivals⟩
        arrivals := q.arrivals + 1 } := by
  have horders : ∀ e ∈ es, e.order < m.nextOrder := fun e he =>
    h.orders e (hitems.subset (hperm.mem_iff.mp he))
  obtain ⟨hp, ha⟩ := h.ordered.insert item (priority item) htickets
  refine ⟨h.overflow, h.priorityOf, h.closed, h.capacity, ⟨?_, hp, ha⟩, fun t ht => ?_,
    fun e he => ?_, _, ?_, pairwise_insert horders hsorted,
    face_insert horders (fun t ht => h.ordered.arrival t (htickets.subset ht)) hface⟩
  · rw [List.orderedInsert_length]
    exact hroom
  · rcases (List.mem_orderedInsert _).mp ht with rfl | ht
    · rfl
    · exact h.priorities t (htickets.subset ht)
  · rcases List.mem_append.mp he with he | he
    · exact Nat.lt_succ_of_lt (h.orders e (hitems.subset he))
    · rw [List.mem_singleton.mp he]
      exact Nat.lt_succ_self _
  · exact (List.perm_orderedInsert _ _ _).trans
      ((hperm.cons _).trans (List.perm_append_singleton _ _).symm)

/-! ### The simulation -/

/-- **One operation**: the mailbox answers what the queue answers, and still holds what it holds. -/
theorem perform_refines [DecidableEq κ] (h : Represents priority m q) (op : MailboxOperation α) :
    (m.perform op).2 = (Reference.perform priority q op).2 ∧
      Represents priority (m.perform op).1 (Reference.perform priority q op).1 := by
  have hlen := h.length
  obtain ⟨es, hperm, hsorted, hface⟩ := h.sorted
  cases op with
  | get =>
    cases hget : m.get with
    | none =>
      have hnil : q.tickets = [] := by
        rw [← List.length_eq_zero_iff, ← hlen, get_eq_none.mp hget]
        rfl
      have href : q.get = none := by simp [StableQueue.get, hnil]
      simp only [perform, hget, Reference.perform, href]
      exact ⟨trivial, h⟩
    | some p =>
      obtain ⟨m', y⟩ := p
      cases htickets : q.tickets with
      | nil =>
        have hitems : m.items = [] := by
          rw [← List.length_eq_zero_iff, hlen, htickets]
          rfl
        rw [get_eq_none.mpr hitems] at hget
        cases hget
      | cons ticket rest =>
        obtain ⟨x, es, rfl⟩ : ∃ x es', es = x :: es' := by
          cases es with
          | nil => simp [htickets] at hface
          | cons x es => exact ⟨x, es, rfl⟩
        obtain ⟨rfl, hrest, hcfg, hclosed, hnext⟩ := get_eq_head hperm hsorted hget
        have hq : q.get = some ({ q with tickets := rest }, ticket.item) := by
          simp [StableQueue.get, htickets]
        rw [htickets, List.map_cons, List.map_cons, List.cons.injEq] at hface
        obtain ⟨hhead, hface⟩ := hface
        simp only [perform, hget, Reference.perform, hq]
        refine ⟨by rw [show y.item = ticket.item from congrArg Prod.fst hhead], ?_⟩
        refine ⟨hcfg ▸ h.overflow, hcfg ▸ h.priorityOf, hclosed ▸ h.closed, hcfg ▸ h.capacity,
          StableQueue.get_ordered h.ordered hq, fun t ht => h.priorities t ?_, fun e he => ?_,
          es, hrest, (List.pairwise_cons.mp hsorted).2, hface⟩
        · rw [htickets]
          exact List.mem_cons_of_mem _ ht
        · rw [hnext]
          exact h.orders e (hperm.mem_iff.mp (List.mem_cons_of_mem _ (hrest.mem_iff.mpr he)))
  | put item =>
    have hcap := h.capacity
    simp only [perform, h.put_eq, Reference.perform]
    by_cases hfull : m.full
    · have hlenq : q.tickets.length = q.capacity := by
        refine le_antisymm h.ordered.length ?_
        rw [hcap, ← hlen]
        simpa [full] using hfull
      rcases List.eq_nil_or_concat q.tickets with hnil | ⟨front, last, hq⟩
      · have := h.one_le
        rw [hnil, List.length_nil] at hlenq
        omega
      · rw [List.concat_eq_append] at hq
        -- the entries end where the tickets end
        obtain ⟨front', last', rfl⟩ : ∃ front' last', es = front' ++ [last'] := by
          rcases List.eq_nil_or_concat es with rfl | ⟨front', last', hes⟩
          · simp [hq] at hface
          · exact ⟨front', last', by rw [hes, List.concat_eq_append]⟩
        obtain ⟨rest, hlow, hrest⟩ := lowest_eq_last hperm hsorted
        rw [hq, List.map_append, List.map_append] at hface
        obtain ⟨hfront, hlast⟩ := List.append_inj' hface rfl
        have hface' : last'.item = last.item ∧ last'.priority = last.priority := by
          simpa [Entry.face, Ticket.face] using hlast
        rw [StableQueue.put_of_eq h.ordered hq hlenq]
        by_cases hlt : last.priority < priority item
        · rw [if_pos hlt]
          have hcond : last'.priority < priority item := by rw [hface'.2]; exact hlt
          simp only [tryAppendLocked, hfull, if_true, h.overflow, and_self, hlow, hcond]
          refine ⟨by rw [PutResult.ofVerdict, hface'.1], ?_⟩
          have hlenf : front.length < q.capacity := by
            rw [← hlenq, hq, List.length_append, List.length_singleton]
            exact Nat.lt_succ_self _
          obtain ⟨l₁, l₂, hitems, hrest', -⟩ := lowest_eq_some hlow
          have hsorted' := (List.pairwise_append.mp hsorted).1
          refine Represents.appended h hrest hsorted' hfront ?_ ?_ hlenf
          · rw [hitems, hrest']
            exact (List.Sublist.refl l₁).append (List.sublist_cons_self _ _)
          · rw [hq]
            exact List.sublist_append_left _ _
        · rw [if_neg hlt]
          have hcond : ¬last'.priority < priority item := by rw [hface'.2]; exact hlt
          simp only [tryAppendLocked, hfull, if_true, h.overflow, and_self, hlow, hcond, if_false]
          refine ⟨rfl, h.overflow, h.priorityOf, h.closed, h.capacity, ?_, h.priorities, h.orders,
            _, hperm, hsorted, ?_⟩
          · exact ⟨h.ordered.length, h.ordered.pairwise,
              fun t ht => Nat.lt_succ_of_lt (h.ordered.arrival t ht)⟩
          · rw [List.map_append, hfront, hlast, hq, List.map_append]
    · have hroom : q.tickets.length < q.capacity := by
        rw [hcap, ← hlen]
        simpa [full] using hfull
      rw [StableQueue.put_of_lt hroom]
      simp only [tryAppendLocked, hfull, if_false, Bool.false_eq_true]
      exact ⟨rfl, Represents.appended h hperm hsorted hface (List.Sublist.refl _)
        (List.Sublist.refl _) hroom⟩

/-- An item is displaced only by one of higher priority. -/
theorem Represents.displaced (h : Represents priority m q) {op : MailboxOperation α}
    {r : PutResult α} {d : α} (hr : (Reference.perform priority q op).2 = .put r)
    (hd : r.displaced = some d) : priority d < priority r.item := by
  cases op with
  | get =>
    simp only [Reference.perform] at hr
    split at hr <;> cases hr
  | put item =>
    obtain rfl : PutResult.ofVerdict item (q.put item (priority item)).2 = r := by
      simpa [Reference.perform] using hr
    rcases Nat.lt_or_ge q.tickets.length q.capacity with hlt | hge
    · rw [StableQueue.put_of_lt hlt] at hd
      cases hd
    · have hlenq : q.tickets.length = q.capacity := le_antisymm h.ordered.length hge
      rcases List.eq_nil_or_concat q.tickets with hnil | ⟨front, last, hq⟩
      · have := h.one_le
        rw [hnil, List.length_nil] at hlenq
        omega
      · rw [List.concat_eq_append] at hq
        rw [StableQueue.put_of_eq h.ordered hq hlenq] at hd ⊢
        by_cases hlt : last.priority < priority item
        · rw [if_pos hlt] at hd ⊢
          obtain rfl : last.item = d := by simpa [PutResult.ofVerdict] using hd
          rw [← h.priorities last (by simp [hq])]
          exact hlt
        · rw [if_neg hlt] at hd
          cases hd

theorem create_represents {capacity : ℕ}
    {coalesceKey : Option (α → Except MailboxError (Option κ))}
    {coalescer : Option (α → α → Except MailboxError α)}
    (h : create capacity .dropLowest (fun a => .ok (priority a)) coalesceKey coalescer = .ok m) :
    Represents priority m (.empty capacity) := by
  unfold create at h
  split_ifs at h
  cases h
  exact ⟨rfl, rfl, rfl, rfl, StableQueue.empty_ordered _, by simp [StableQueue.empty],
    by simp [make], [], .refl _, .nil, rfl⟩

/-- **A mailbox that drops its lowest is a bounded stable queue.** Whatever is put into it
and taken out of it, every operation answers what the queue answers; the mailbox holds what
the queue holds, and the queue stands in its order within the capacity; and an item is
displaced only by one of higher priority. -/
theorem refines [DecidableEq κ] {capacity : ℕ}
    {coalesceKey : Option (α → Except MailboxError (Option κ))}
    {coalescer : Option (α → α → Except MailboxError α)}
    (h : create capacity .dropLowest (fun a => .ok (priority a)) coalesceKey coalescer = .ok m)
    (ops : List (MailboxOperation α)) :
    (m.performAll ops).2 = (Reference.performAll priority (.empty capacity) ops).2 ∧
      ((m.performAll ops).1.items.map Entry.face).Perm
        ((Reference.performAll priority (.empty capacity) ops).1.tickets.map Ticket.face) ∧
      (Reference.performAll priority (.empty capacity) ops).1.Ordered ∧
      ∀ r d, .put r ∈ (m.performAll ops).2 → r.displaced = some d →
        priority d < priority r.item := by
  have hrep := create_represents h
  clear h
  generalize StableQueue.empty capacity = q at hrep ⊢
  induction ops generalizing m q with
  | nil =>
    obtain ⟨es, hperm, -, hface⟩ := hrep.sorted
    refine ⟨rfl, ?_, hrep.ordered, by simp [performAll]⟩
    change (m.items.map Entry.face).Perm (q.tickets.map Ticket.face)
    rw [← hface]
    exact (hperm.map _).symm
  | cons op ops ih =>
    obtain ⟨hreply, hnext⟩ := perform_refines hrep op
    obtain ⟨hreplies, hitems, hordered, hdisplaced⟩ := ih _ hnext
    refine ⟨?_, hitems, hordered, fun r d hr hd => ?_⟩
    · rw [performAll, Reference.performAll]
      dsimp only
      rw [hreply, hreplies]
    · rcases List.mem_cons.mp hr with hr | hr
      · exact hrep.displaced (hreply.symm.trans hr.symm) hd
      · exact hdisplaced r d hr hd

/-- A full mailbox turns an item of equal priority away, and displaces for a higher one. -/
theorem refines_evicting : ((make (κ := ℕ) ⟨1, .dropLowest, fun a : ℤ => .ok a, none,
      fun _ new => .ok new, by decide, by decide⟩).performAll
        [.put 5, .put 5, .put 7, .get]).2 =
    [.put ⟨.accepted, 5, none⟩, .put ⟨.rejectedFull, 5, none⟩,
      .put ⟨.evictedLowest, 7, some 5⟩, .got (some 7)] := by
  have hmake : create (κ := ℕ) 1 .dropLowest (fun a : ℤ => .ok (id a)) none none =
      .ok (make ⟨1, .dropLowest, fun a => .ok a, none, fun _ new => .ok new, by decide,
        by decide⟩) := rfl
  exact (refines hmake [.put 5, .put 5, .put 7, .get]).1.trans rfl

end PriorityMailbox

end Eeveetuber
