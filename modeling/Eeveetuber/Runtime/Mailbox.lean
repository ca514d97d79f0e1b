import Mathlib.Data.List.Sort
import Mathlib.Tactic.SplitIfs
import Eeveetuber.Foundation.Select

/-!
# The bounded priority mailbox

A session receives its commands and sends its outputs through two
`Eeveetuber.PriorityMailbox`es: bounded, unsorted lists of entries, each with its
priority and its arrival order. `Eeveetuber.PriorityMailbox.get` takes the oldest
entry of the highest priority; a full mailbox overflows by the policy it was
made with.

Everything here runs under the mailbox's lock and does not wait. The waiting
calls – `put_wait`, and `get` on an empty mailbox – are these functions, tried
again each time their caller is woken; where a caller waits is part of the
machine that uses the mailbox. `Eeveetuber.PriorityMailbox.tryPutLocked` answers
`none` where `put_wait` has to wait.

What a put can do is said once, by `Eeveetuber.PriorityMailbox.PutStep`, and what
a get can do by `Eeveetuber.PriorityMailbox.get_eq_some`.
-/

namespace Eeveetuber

open Foundation

/-- A computation that raises nothing is made of steps that raise nothing. -/
theorem bind_eq_ok {ε β γ : Type} {x : Except ε β} {f : β → Except ε γ} {c : γ}
    (h : (x >>= f) = .ok c) : ∃ b, x = .ok b ∧ f b = .ok c := by
  cases x with
  | error e => cases h
  | ok b => exact ⟨b, rfl, h⟩

/-- What a full mailbox does with the next item. -/
inductive OverflowPolicy where
  | reject
  | dropLowest
  | coalesce
deriving DecidableEq, Repr

/-- How a put ended. -/
inductive PutOutcome where
  | accepted
  | coalesced
  | evictedLowest
  | rejectedFull
  | cancelled
deriving DecidableEq, Repr

/-- What the operations of a mailbox raise. -/
inductive MailboxError where
  /-- `MailboxClosed`. -/
  | closed
  /-- `TypeError`: a priority is not an integer. -/
  | priorityType
  /-- Any exception of the mailbox's priority, key or coalescing function. -/
  | callback
  /-- `ValueError`: the constructor's arguments do not fit. -/
  | value
deriving DecidableEq, Repr

/-- The result of a put: what became of the item, and the item it displaced. -/
structure PutResult (α : Type) where
  outcome : PutOutcome
  item : α
  displaced : Option α
deriving Repr

/-- The outcomes by which the item is in the mailbox. -/
def PutOutcome.isAccepted : PutOutcome → Bool
  | .accepted | .coalesced | .evictedLowest => true
  | .rejectedFull | .cancelled => false

/-- Whether the item is in the mailbox. -/
def PutResult.accepted {α : Type} (r : PutResult α) : Bool := r.outcome.isAccepted

/-- The counters of a mailbox. -/
structure MailboxStats where
  accepted : ℕ
  dequeued : ℕ
  coalesced : ℕ
  rejected : ℕ
  cancelled : ℕ
  evicted : ℕ
  discardedOnClose : ℕ
  highWatermark : ℕ
deriving DecidableEq, Repr

/-- A queued item. -/
structure Entry (α : Type) where
  item : α
  priority : ℤ
  order : ℕ
deriving Repr

/-- The arguments a mailbox is made with, checked as its constructor checks them. -/
structure MailboxConfig (α κ : Type) where
  capacity : ℕ
  overflow : OverflowPolicy
  priorityOf : α → Except MailboxError ℤ
  coalesceKey : Option (α → Except MailboxError (Option κ))
  coalescer : α → α → Except MailboxError α
  /-- A mailbox holds at least one item. -/
  one_le_capacity : 1 ≤ capacity
  /-- A coalescing mailbox has keys. -/
  key_of_coalesce : overflow = .coalesce → coalesceKey.isSome = true

/-- A mailbox. -/
structure PriorityMailbox (α κ : Type) where
  config : MailboxConfig α κ
  items : List (Entry α)
  nextOrder : ℕ
  closed : Bool
  spaceAvailable : Bool
  stats : MailboxStats

namespace PriorityMailbox

variable {α κ : Type}

/-- A new mailbox. -/
def make (config : MailboxConfig α κ) : PriorityMailbox α κ where
  config := config
  items := []
  nextOrder := 0
  closed := false
  spaceAvailable := true
  stats := ⟨0, 0, 0, 0, 0, 0, 0, 0⟩

/-- The constructor. Without a coalescer the newer item stands for both. -/
def create (capacity : ℕ) (overflow : OverflowPolicy) (priorityOf : α → Except MailboxError ℤ)
    (coalesceKey : Option (α → Except MailboxError (Option κ)))
    (coalescer : Option (α → α → Except MailboxError α)) :
    Except MailboxError (PriorityMailbox α κ) :=
  if hc : 1 ≤ capacity then
    if hk : overflow = .coalesce → coalesceKey.isSome = true then
      .ok (make ⟨capacity, overflow, priorityOf, coalesceKey,
        coalescer.getD fun _ new => .ok new, hc, hk⟩)
    else .error .value
  else .error .value

/-! ### Putting -/

/-- Count a put that was given up: its item is no longer wanted in, or its
waiting caller was woken by its cancellation. -/
def putCancelled (m : PriorityMailbox α κ) : PriorityMailbox α κ :=
  { m with stats := { m.stats with cancelled := m.stats.cancelled + 1 } }

/-- Whether the mailbox is at its capacity. -/
def full (m : PriorityMailbox α κ) : Bool := decide (m.config.capacity ≤ m.items.length)

/-- Append an item behind the others. -/
def append (m : PriorityMailbox α κ) (item : α) (priority : ℤ) : PriorityMailbox α κ :=
  let items := m.items ++ [⟨item, priority, m.nextOrder⟩]
  { m with
    items := items
    nextOrder := m.nextOrder + 1
    spaceAvailable := if m.config.capacity ≤ items.length then false else m.spaceAvailable
    stats := { m.stats with
      accepted := m.stats.accepted + 1
      highWatermark := max m.stats.highWatermark items.length } }

/-- The position of the first entry with the given key. -/
def findKey [DecidableEq κ] (keyOf : α → Except MailboxError (Option κ)) (key : κ) :
    List (Entry α) → Except MailboxError (Option ℕ)
  | [] => .ok none
  | e :: es => do
    if (← keyOf e.item) = some key then return some 0
    return (← findKey keyOf key es).map (· + 1)

/-- The position of the entry a put item is combined with, if any. -/
def matchingEntry [DecidableEq κ] (keyOf : α → Except MailboxError (Option κ))
    (items : List (Entry α)) (item : α) : Except MailboxError (Option ℕ) := do
  match ← keyOf item with
  | none => return none
  | some key => findKey keyOf key items

/-- Eviction prefers the lowest priority and, among its entries, the newest. -/
def evictedBefore (a b : Entry α) : Bool :=
  decide (a.priority < b.priority) || (a.priority == b.priority && decide (b.order < a.order))

/-- The entry that eviction takes out, and the entries without it. -/
def lowest (items : List (Entry α)) : Option (Entry α × List (Entry α)) :=
  extract evictedBefore items

/-- What a put that found no entry to combine with does: append while there is
room, else displace a strictly less important entry if the policy and the caller
allow it, else reject or wait. -/
def tryAppendLocked (m : PriorityMailbox α κ) (item : α) (priority : ℤ)
    (rejectWhenFull allowPriorityDisplacement : Bool) :
    PriorityMailbox α κ × Option (PutResult α) :=
  let refuse : PriorityMailbox α κ × Option (PutResult α) :=
    if rejectWhenFull then
      ({ m with stats := { m.stats with rejected := m.stats.rejected + 1 } },
        some ⟨.rejectedFull, item, none⟩)
    else (m, none)
  if m.full then
    if m.config.overflow = .dropLowest ∧ allowPriorityDisplacement then
      match lowest m.items with
      | none => refuse
      | some (dropped, rest) =>
        if dropped.priority < priority then
          let m' : PriorityMailbox α κ :=
            { m with
              items := rest
              stats := { m.stats with evicted := m.stats.evicted + 1 } }
          (m'.append item priority, some ⟨.evictedLowest, item, some dropped.item⟩)
        else refuse
    else refuse
  else (m.append item priority, some ⟨.accepted, item, none⟩)

/-- Combine an item with the entry of its key, if the policy asks for it. -/
def tryCoalesceLocked [DecidableEq κ] (m : PriorityMailbox α κ) (item : α) :
    Except MailboxError (Option (PriorityMailbox α κ × PutResult α)) := do
  if m.config.overflow ≠ .coalesce then return none
  let some keyOf := m.config.coalesceKey | return none
  let some i ← matchingEntry keyOf m.items item | return none
  let some previous := m.items[i]? | return none
  let combined ← m.config.coalescer previous.item item
  let priority ← m.config.priorityOf combined
  let m' : PriorityMailbox α κ :=
    { m with
      items := m.items.set i { previous with item := combined, priority := priority }
      stats := { m.stats with
        accepted := m.stats.accepted + 1
        coalesced := m.stats.coalesced + 1 } }
  return some (m', ⟨.coalesced, combined, some previous.item⟩)

/-- One attempt to put an item. `acceptIf` is what the caller's `accept_if`
answers at this moment, `none` where it gave none. The result is `none` where a
waiting caller has to wait. -/
def tryPutLocked [DecidableEq κ] (m : PriorityMailbox α κ) (item : α) (priority : ℤ)
    (rejectWhenFull : Bool) (acceptIf : Option Bool) (allowPriorityDisplacement : Bool) :
    Except MailboxError (PriorityMailbox α κ × Option (PutResult α)) := do
  if m.closed then throw .closed
  if acceptIf = some false then
    return (m.putCancelled, some ⟨.cancelled, item, none⟩)
  match ← m.tryCoalesceLocked item with
  | some (m', r) => return (m', some r)
  | none => return m.tryAppendLocked item priority rejectWhenFull allowPriorityDisplacement

/-- One immediate put. -/
def put [DecidableEq κ] (m : PriorityMailbox α κ) (item : α) :
    Except MailboxError (PriorityMailbox α κ × Option (PutResult α)) := do
  let priority ← m.config.priorityOf item
  m.tryPutLocked item priority true none true

/-- One attempt of a waiting put. -/
def putWait [DecidableEq κ] (m : PriorityMailbox α κ) (item : α) (acceptIf : Bool)
    (allowPriorityDisplacement : Bool) :
    Except MailboxError (PriorityMailbox α κ × Option (PutResult α)) := do
  let priority ← m.config.priorityOf item
  m.tryPutLocked item priority false (some acceptIf) allowPriorityDisplacement

/-- Whether an attempt to put an item would get it in now. -/
def admits [DecidableEq κ] (m : PriorityMailbox α κ) (item : α) (priority : ℤ)
    (allowPriorityDisplacement : Bool) : Bool :=
  match m.tryPutLocked item priority true none allowPriorityDisplacement with
  | .ok (_, some r) => r.accepted
  | _ => false

/-! ### Getting and closing -/

/-- Delivery prefers the highest priority and, among its entries, the oldest. -/
def deliveredBefore (a b : Entry α) : Bool :=
  decide (b.priority < a.priority) || (a.priority == b.priority && decide (a.order < b.order))

/-- Take the next entry, if there is one. -/
def get (m : PriorityMailbox α κ) : Option (PriorityMailbox α κ × Entry α) :=
  match extract deliveredBefore m.items with
  | none => none
  | some (entry, rest) =>
    some ({ m with
      items := rest
      spaceAvailable := true
      stats := { m.stats with dequeued := m.stats.dequeued + 1 } }, entry)

/-- Whether `get` raises `MailboxClosed` rather than wait. -/
def drained (m : PriorityMailbox α κ) : Bool := m.closed && m.items.isEmpty

/-- Close the mailbox to further puts; the discarded items are returned in delivery order. -/
def close (m : PriorityMailbox α κ) (discard : Bool) : PriorityMailbox α κ × List α :=
  if discard then
    let ordered := m.items.insertionSort fun a b => deliveredBefore b a = false
    ({ m with
      items := []
      closed := true
      spaceAvailable := true
      stats := { m.stats with
        discardedOnClose := m.stats.discardedOnClose + m.items.length } },
      ordered.map (·.item))
  else ({ m with closed := true, spaceAvailable := true }, [])

/-! ### What a put does -/

/-- **What an attempt to put can do** to an open mailbox: one case for each way
through `_try_put_locked`. -/
inductive PutStep [DecidableEq κ] (m : PriorityMailbox α κ) (item : α) (priority : ℤ)
    (rejectWhenFull : Bool) (acceptIf : Option Bool) (allowPriorityDisplacement : Bool) :
    PriorityMailbox α κ → Option (PutResult α) → Prop
  /-- The caller no longer wants the item in. -/
  | cancelled : acceptIf = some false →
      PutStep m item priority rejectWhenFull acceptIf allowPriorityDisplacement
        m.putCancelled (some ⟨.cancelled, item, none⟩)
  /-- The item is combined with a queued one. -/
  | coalesced {m' : PriorityMailbox α κ} {r : PutResult α} : acceptIf ≠ some false →
      m.tryCoalesceLocked item = .ok (some (m', r)) →
      PutStep m item priority rejectWhenFull acceptIf allowPriorityDisplacement m' (some r)
  /-- There is room. -/
  | appended : acceptIf ≠ some false → m.full = false →
      PutStep m item priority rejectWhenFull acceptIf allowPriorityDisplacement
        (m.append item priority) (some ⟨.accepted, item, none⟩)
  /-- A less important item makes room. -/
  | evicted {dropped : Entry α} {rest : List (Entry α)} : acceptIf ≠ some false →
      m.full = true → m.config.overflow = .dropLowest → allowPriorityDisplacement = true →
      lowest m.items = some (dropped, rest) → dropped.priority < priority →
      PutStep m item priority rejectWhenFull acceptIf allowPriorityDisplacement
        (append { m with
          items := rest
          stats := { m.stats with evicted := m.stats.evicted + 1 } } item priority)
        (some ⟨.evictedLowest, item, some dropped.item⟩)
  /-- There is no room, and the caller does not wait for it. -/
  | rejected : acceptIf ≠ some false → m.full = true → rejectWhenFull = true →
      PutStep m item priority rejectWhenFull acceptIf allowPriorityDisplacement
        { m with stats := { m.stats with rejected := m.stats.rejected + 1 } }
        (some ⟨.rejectedFull, item, none⟩)
  /-- There is no room, and the caller waits. -/
  | waits : acceptIf ≠ some false → m.full = true → rejectWhenFull = false →
      PutStep m item priority rejectWhenFull acceptIf allowPriorityDisplacement m none

/-- Two states of a mailbox with the same queue. -/
structure SameQueue (m m' : PriorityMailbox α κ) : Prop where
  config : m'.config = m.config
  items : m'.items = m.items
  nextOrder : m'.nextOrder = m.nextOrder

/-- An item was put last into the queue. The entries before it are the earlier
ones, less the one that was displaced if the mailbox was full. -/
structure Appended (m : PriorityMailbox α κ) (item : α) (priority : ℤ)
    (m' : PriorityMailbox α κ) : Prop where
  config : m'.config = m.config
  nextOrder : m'.nextOrder = m.nextOrder + 1
  items : ∃ kept, m'.items = kept ++ [⟨item, priority, m.nextOrder⟩] ∧
    (kept = m.items ∨ m.full = true ∧
      ∃ dropped, lowest m.items = some (dropped, kept) ∧ dropped.priority < priority)

section PutStep

variable [DecidableEq κ] {m m' : PriorityMailbox α κ} {item : α} {priority : ℤ}
  {rejectWhenFull allow : Bool} {acceptIf : Option Bool} {r : Option (PutResult α)}

theorem tryAppendLocked_putStep (hacc : acceptIf ≠ some false) :
    PutStep m item priority rejectWhenFull acceptIf allow
      (m.tryAppendLocked item priority rejectWhenFull allow).1
      (m.tryAppendLocked item priority rejectWhenFull allow).2 := by
  have hrefuse : m.full = true → PutStep m item priority rejectWhenFull acceptIf allow
      (if rejectWhenFull then
        ({ m with stats := { m.stats with rejected := m.stats.rejected + 1 } },
          some (⟨.rejectedFull, item, none⟩ : PutResult α)) else (m, none)).1
      (if rejectWhenFull then
        ({ m with stats := { m.stats with rejected := m.stats.rejected + 1 } },
          some (⟨.rejectedFull, item, none⟩ : PutResult α)) else (m, none)).2 := by
    intro hfull
    split
    · exact .rejected hacc hfull ‹_›
    · rename_i hwait
      exact .waits hacc hfull (by simpa using hwait)
  unfold tryAppendLocked
  by_cases hfull : m.full = true
  · rw [if_pos hfull]
    -- a full mailbox may still drop the lowest entry
    split
    · rename_i hdrop
      cases hlow : lowest m.items with
      | none => exact hrefuse hfull
      | some p =>
        obtain ⟨dropped, rest⟩ := p
        by_cases hlt : dropped.priority < priority
        · simp only [hlt, if_true]
          exact .evicted hacc hfull hdrop.1 hdrop.2 hlow hlt
        · simp only [hlt, if_false]
          exact hrefuse hfull
    · exact hrefuse hfull
  · rw [if_neg hfull]
    exact .appended hacc (by simpa using hfull)

omit [DecidableEq κ] in
/-- What is decided without waiting does not depend on whether the caller would have waited. -/
theorem tryAppendLocked_of_eq_some {r : PutResult α}
    (h : (m.tryAppendLocked item priority rejectWhenFull allow).2 = some r) :
    m.tryAppendLocked item priority true allow =
      ((m.tryAppendLocked item priority rejectWhenFull allow).1, some r) := by
  cases rejectWhenFull with
  | true => rw [← h]
  | false =>
    unfold tryAppendLocked at h ⊢
    simp only [Bool.false_eq_true, if_false, if_true] at h ⊢
    split_ifs at h ⊢ with hfull hdrop
    · cases hlow : lowest m.items with
      | none => simp [hlow] at h
      | some p =>
        simp only [hlow] at h ⊢
        split_ifs at h ⊢
        rw [← h]
    · rw [← h]

/-- **Every attempt that does not raise is one of these steps**, on an open mailbox. -/
theorem tryPutLocked_putStep
    (h : m.tryPutLocked item priority rejectWhenFull acceptIf allow = .ok (m', r)) :
    m.closed = false ∧ PutStep m item priority rejectWhenFull acceptIf allow m' r := by
  unfold tryPutLocked at h
  cases hclosed : m.closed with
  | true => simp [hclosed, throw, throwThe, MonadExceptOf.throw, bind, Except.bind] at h
  | false =>
    refine ⟨rfl, ?_⟩
    simp only [hclosed, Bool.false_eq_true, if_false] at h
    by_cases hacc : acceptIf = some false
    · simp only [hacc, if_true, pure, Except.pure, Except.ok.injEq, Prod.mk.injEq] at h
      obtain ⟨rfl, rfl⟩ := h
      exact .cancelled hacc
    · simp only [hacc, if_false] at h
      obtain ⟨c, hc, h⟩ := bind_eq_ok h
      cases c with
      | some p =>
        simp only [pure, Except.pure, Except.ok.injEq, Prod.mk.injEq] at h
        obtain ⟨rfl, rfl⟩ := h
        exact .coalesced hacc hc
      | none =>
        simp only [pure, Except.pure, Except.ok.injEq] at h
        have happ : PutStep m item priority rejectWhenFull acceptIf allow
            (m.tryAppendLocked item priority rejectWhenFull allow).1
            (m.tryAppendLocked item priority rejectWhenFull allow).2 :=
          tryAppendLocked_putStep hacc
        rwa [h] at happ

/-- A mailbox that does not coalesce raises only because it is closed. -/
theorem tryPutLocked_eq_error {e : MailboxError} (hover : m.config.overflow ≠ .coalesce)
    (h : m.tryPutLocked item priority rejectWhenFull acceptIf allow = .error e) :
    e = .closed := by
  unfold tryPutLocked tryCoalesceLocked at h
  cases hclosed : m.closed with
  | true =>
    simp only [hclosed, if_true, throw, throwThe, MonadExceptOf.throw, bind, Except.bind] at h
    cases h
    rfl
  | false =>
    by_cases hacc : acceptIf = some false <;>
      simp [hclosed, hacc, hover, pure, Except.pure, bind, Except.bind] at h

/-- **What combining does**: one entry gets a new item and a new priority, and
keeps its place and its order. It happens only under the coalescing policy. -/
theorem tryCoalesceLocked_step {r : PutResult α}
    (h : m.tryCoalesceLocked item = .ok (some (m', r))) :
    m.config.overflow = .coalesce ∧ ∃ i previous combined priority,
      m.items[i]? = some previous ∧
      m' = { m with
        items := m.items.set i { previous with item := combined, priority := priority }
        stats := { m.stats with
          accepted := m.stats.accepted + 1
          coalesced := m.stats.coalesced + 1 } } ∧
      r = ⟨.coalesced, combined, some previous.item⟩ := by
  unfold tryCoalesceLocked at h
  by_cases hover : m.config.overflow = .coalesce
  · simp only [hover, ne_eq, not_true_eq_false, if_false] at h
    split at h
    · rename_i keyOf _
      obtain ⟨i, -, h⟩ := bind_eq_ok h
      split at h
      · rename_i i
        split at h
        · rename_i previous hprev
          obtain ⟨combined, -, h⟩ := bind_eq_ok h
          obtain ⟨priority, -, h⟩ := bind_eq_ok h
          simp only [pure, Except.pure, Except.ok.injEq, Option.some.injEq, Prod.mk.injEq] at h
          exact ⟨hover, i, previous, combined, priority, hprev, h.1.symm, h.2.symm⟩
        · cases h
      · cases h
    · cases h
  · simp [hover, pure, Except.pure] at h

/-- Combining items leaves the mailbox's configuration and openness alone. -/
theorem tryCoalesceLocked_eq_some {r : PutResult α}
    (h : m.tryCoalesceLocked item = .ok (some (m', r))) :
    m.config.overflow = .coalesce ∧ m'.config = m.config ∧ m'.closed = m.closed ∧
      m'.nextOrder = m.nextOrder ∧ r.outcome = .coalesced := by
  obtain ⟨hover, i, previous, combined, priority, -, rfl, rfl⟩ := tryCoalesceLocked_step h
  exact ⟨hover, rfl, rfl, rfl, rfl⟩

/-- A put changes neither the configuration of the mailbox nor whether it is closed. -/
theorem PutStep.frame (h : PutStep m item priority rejectWhenFull acceptIf allow m' r) :
    m'.config = m.config ∧ m'.closed = m.closed := by
  cases h with
  | coalesced _ hc =>
    obtain ⟨-, hcfg, hcl, -, -⟩ := tryCoalesceLocked_eq_some hc
    exact ⟨hcfg, hcl⟩
  | cancelled | appended | evicted | rejected | waits => exact ⟨rfl, rfl⟩

/-- **What a put does to the queue** of a mailbox that does not coalesce: either
the item is refused or waits and the queue is as it was, or the item stands last
in it, behind entries that keep their order. -/
theorem PutStep.queue (h : PutStep m item priority rejectWhenFull acceptIf allow m' r)
    (hover : m.config.overflow ≠ .coalesce) :
    (m.SameQueue m' ∧ (r.map PutResult.accepted).getD false = false) ∨
      (m.Appended item priority m' ∧ (r.map PutResult.accepted).getD false = true ∧
        acceptIf ≠ some false) := by
  cases h with
  | cancelled | rejected | waits => exact Or.inl ⟨⟨rfl, rfl, rfl⟩, rfl⟩
  | coalesced _ hc => exact absurd (tryCoalesceLocked_eq_some hc).1 hover
  | appended hacc hfull => exact Or.inr ⟨⟨rfl, rfl, m.items, rfl, Or.inl rfl⟩, rfl, hacc⟩
  | @evicted dropped rest hacc hfull _ _ hlow hlt =>
    exact Or.inr ⟨⟨rfl, rfl, rest, rfl, Or.inr ⟨hfull, dropped, hlow, hlt⟩⟩, rfl, hacc⟩

/-- A put that does not get its item in leaves the queue alone, under every policy. -/
theorem PutStep.sameQueue (h : PutStep m item priority rejectWhenFull acceptIf allow m' r)
    (hr : (r.map PutResult.accepted).getD false = false) : m.SameQueue m' := by
  cases h with
  | cancelled | rejected | waits => exact ⟨rfl, rfl, rfl⟩
  | @coalesced _ r' _ hc =>
    have hout := (tryCoalesceLocked_eq_some hc).2.2.2.2
    simp [PutResult.accepted, hout, PutOutcome.isAccepted] at hr
  | appended | evicted => simp [PutResult.accepted, PutOutcome.isAccepted] at hr

/-- A put whose caller no longer wants the item in leaves the queue alone. -/
theorem PutStep.of_acceptIf_false
    (h : PutStep m item priority rejectWhenFull (some false) allow m' r) :
    m' = m.putCancelled ∧ r = some ⟨.cancelled, item, none⟩ := by
  cases h with
  | cancelled => exact ⟨rfl, rfl⟩
  | coalesced hacc | appended hacc | evicted hacc | rejected hacc | waits hacc =>
    exact absurd rfl hacc

/-- A put that got its item in was admitted. -/
theorem admits_of_accepted {r : PutResult α}
    (h : m.tryPutLocked item priority rejectWhenFull acceptIf allow = .ok (m', some r))
    (hr : r.accepted = true) : m.admits item priority allow = true := by
  obtain ⟨hclosed, hstep⟩ := tryPutLocked_putStep h
  have hacc : acceptIf ≠ some false := by
    rintro rfl
    obtain ⟨-, hr'⟩ := hstep.of_acceptIf_false
    obtain rfl : r = _ := by simpa using hr'
    simp [PutResult.accepted, PutOutcome.isAccepted] at hr
  have hcases : (∃ p, m.tryCoalesceLocked item = .ok (some p) ∧ p.2 = r) ∨
      m.tryCoalesceLocked item = .ok none ∧
        (m.tryAppendLocked item priority rejectWhenFull allow).2 = some r := by
    simp only [tryPutLocked, hclosed, Bool.false_eq_true, if_false, hacc] at h
    obtain ⟨c, hc, h⟩ := bind_eq_ok h
    cases c with
    | some p =>
      simp only [pure, Except.pure, Except.ok.injEq, Prod.mk.injEq, Option.some.injEq] at h
      exact Or.inl ⟨p, hc, h.2⟩
    | none =>
      simp only [pure, Except.pure, Except.ok.injEq] at h
      exact Or.inr ⟨hc, by rw [h]⟩
  simp only [admits, tryPutLocked, hclosed, Bool.false_eq_true, if_false, reduceCtorEq]
  rcases hcases with ⟨p, hc, rfl⟩ | ⟨hc, happ⟩
  · simpa [hc, bind, Except.bind, pure, Except.pure] using hr
  · simp only [hc, bind, Except.bind, pure, Except.pure]
    rw [tryAppendLocked_of_eq_some happ]
    exact hr

end PutStep

/-! ### The order of the queue -/

theorem strictWeak_deliveredBefore : StrictWeak (deliveredBefore (α := α)) where
  irrefl a := by simp [deliveredBefore]
  trans a b c := by
    simp only [deliveredBefore, Bool.or_eq_true, decide_eq_true_eq, Bool.and_eq_true,
      beq_iff_eq]
    omega
  weak a b c := by
    simp only [deliveredBefore, Bool.or_eq_false_iff, decide_eq_false_iff_not,
      Bool.and_eq_false_iff, beq_eq_false_iff_ne]
    omega

theorem strictWeak_evictedBefore : StrictWeak (evictedBefore (α := α)) where
  irrefl a := by simp [evictedBefore]
  trans a b c := by
    simp only [evictedBefore, Bool.or_eq_true, decide_eq_true_eq, Bool.and_eq_true,
      beq_iff_eq]
    omega
  weak a b c := by
    simp only [evictedBefore, Bool.or_eq_false_iff, decide_eq_false_iff_not,
      Bool.and_eq_false_iff, beq_eq_false_iff_ne]
    omega

/-- The evicted entry is one of the queue, and the others keep their order. -/
theorem lowest_eq_some {items rest : List (Entry α)} {dropped : Entry α}
    (h : lowest items = some (dropped, rest)) :
    ∃ l₁ l₂, items = l₁ ++ dropped :: l₂ ∧ rest = l₁ ++ l₂ ∧
      ∀ x ∈ items, dropped.priority ≤ x.priority := by
  obtain ⟨l₁, l₂, hl, hr, hbest, -⟩ := extract_eq_some strictWeak_evictedBefore h
  refine ⟨l₁, l₂, hl, hr, fun x hx => ?_⟩
  have := hbest x hx
  simp only [evictedBefore, Bool.or_eq_false_iff, decide_eq_false_iff_not] at this
  exact not_lt.mp this.1

/-- **What `get` takes**: an entry of the highest priority, older than every other
of that priority; the others keep their order. -/
theorem get_eq_some {m m' : PriorityMailbox α κ} {x : Entry α} (h : m.get = some (m', x)) :
    ∃ l₁ l₂, m.items = l₁ ++ x :: l₂ ∧ m'.items = l₁ ++ l₂ ∧ m'.config = m.config ∧
      m'.closed = m.closed ∧ m'.nextOrder = m.nextOrder ∧
      (∀ y ∈ m.items, y.priority ≤ x.priority) ∧
      (∀ y ∈ m.items, y.priority = x.priority → x.order ≤ y.order) ∧
      ∀ y ∈ l₁, y.priority = x.priority → x.order < y.order := by
  unfold get at h
  split at h
  · cases h
  · rename_i x' rest hex
    simp only [Option.some.injEq, Prod.mk.injEq] at h
    obtain ⟨rfl, rfl⟩ := h
    obtain ⟨l₁, l₂, hl, hr, hbest, hfirst⟩ := extract_eq_some strictWeak_deliveredBefore hex
    refine ⟨l₁, l₂, hl, hr, rfl, rfl, rfl, fun y hy => ?_, fun y hy hp => ?_, fun y hy hp => ?_⟩
    · have := hbest y hy
      simp only [deliveredBefore, Bool.or_eq_false_iff, decide_eq_false_iff_not] at this
      exact not_lt.mp this.1
    · have := hbest y hy
      simp only [deliveredBefore, Bool.or_eq_false_iff, decide_eq_false_iff_not,
        Bool.and_eq_false_iff, beq_eq_false_iff_ne] at this
      omega
    · have := hfirst y hy
      simp only [deliveredBefore, Bool.or_eq_true, decide_eq_true_eq, Bool.and_eq_true,
        beq_iff_eq] at this
      omega

theorem get_eq_none {m : PriorityMailbox α κ} : m.get = none ↔ m.items = [] := by
  unfold get
  rw [← @extract_eq_none _ deliveredBefore]
  split <;> simp_all

/-- A closed mailbox, with its queue kept or discarded. -/
theorem close_frame (m : PriorityMailbox α κ) (discard : Bool) :
    (m.close discard).1.config = m.config ∧ (m.close discard).1.closed = true ∧
      (m.close discard).1.nextOrder = m.nextOrder ∧
      (m.close discard).1.items = if discard then [] else m.items := by
  cases discard <;> exact ⟨rfl, rfl, rfl, rfl⟩

end PriorityMailbox

end Eeveetuber
