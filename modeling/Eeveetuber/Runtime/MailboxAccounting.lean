import Eeveetuber.Foundation.Machine
import Eeveetuber.Foundation.Stateful
import Eeveetuber.Runtime.Mailbox

/-!
# The accounts of a mailbox

A mailbox counts what happens to its items, and keeps an event that is set while
there is room. This file follows its methods statement by statement, in
`Eeveetuber.MailboxM`: a computation there keeps the mailbox it has changed so
far where it raises, so that **an operation that raises changes nothing** is
something to prove (`Eeveetuber.MailboxCall.sound`). The methods compute what the
functions of `Runtime.Mailbox` compute (`Eeveetuber.MailboxM.outcome_tryPutLocked`).

`Eeveetuber.mailboxMachine` makes any calls in any order on a mailbox of any
configuration, and `Eeveetuber.PriorityMailbox.Accounts` is what holds of the
mailbox throughout (`Eeveetuber.mailbox_accounting`).
-/

namespace Eeveetuber

open Foundation Stateful

/-- The methods of a mailbox. -/
abbrev MailboxM (α κ : Type) := Stateful (PriorityMailbox α κ) MailboxError

namespace MailboxM

variable {α κ : Type}

/-- `_append`. -/
def append (item : α) (priority : ℤ) : MailboxM α κ Unit := do
  modify fun m => { m with items := m.items ++ [⟨item, priority, m.nextOrder⟩] }
  modify fun m => { m with nextOrder := m.nextOrder + 1 }
  modify fun m => { m with stats.accepted := m.stats.accepted + 1 }
  modify fun m => { m with stats.highWatermark := max m.stats.highWatermark m.items.length }
  let m ← getThe (PriorityMailbox α κ)
  if m.config.capacity ≤ m.items.length then
    modify fun m => { m with spaceAvailable := false }

/-- `_matching_entry`: the position of the entry that an item is combined with. -/
def matchingEntry [DecidableEq κ] (item : α) : MailboxM α κ (Option ℕ) := do
  let m ← getThe (PriorityMailbox α κ)
  match m.config.coalesceKey with
  | none => return none
  | some keyOf => PriorityMailbox.matchingEntry keyOf m.items item

/-- The coalescing part of `_try_put_locked`. -/
def tryCoalesceLocked [DecidableEq κ] (item : α) : MailboxM α κ (Option (PutResult α)) := do
  let m ← getThe (PriorityMailbox α κ)
  if m.config.overflow ≠ .coalesce then return none
  let some i ← matchingEntry item | return none
  let some previous := m.items[i]? | return none
  let combined ← m.config.coalescer previous.item item
  let priority ← m.config.priorityOf combined
  modify fun m => { m with items := m.items.modify i ({ · with item := combined }) }
  modify fun m => { m with items := m.items.modify i ({ · with priority := priority }) }
  modify fun m => { m with stats.accepted := m.stats.accepted + 1 }
  modify fun m => { m with stats.coalesced := m.stats.coalesced + 1 }
  return some ⟨.coalesced, combined, some previous.item⟩

/-- The appending part of `_try_put_locked`. -/
def tryAppendLocked (item : α) (priority : ℤ) (rejectWhenFull allowPriorityDisplacement : Bool) :
    MailboxM α κ (Option (PutResult α)) := do
  let m ← getThe (PriorityMailbox α κ)
  if m.items.length < m.config.capacity then
    append item priority
    return some ⟨.accepted, item, none⟩
  if m.config.overflow = .dropLowest ∧ allowPriorityDisplacement then
    if let some (dropped, rest) := PriorityMailbox.lowest m.items then
      if dropped.priority < priority then
        modify fun m => { m with items := rest }
        modify fun m => { m with stats.evicted := m.stats.evicted + 1 }
        append item priority
        return some ⟨.evictedLowest, item, some dropped.item⟩
  if rejectWhenFull then
    modify fun m => { m with stats.rejected := m.stats.rejected + 1 }
    return some ⟨.rejectedFull, item, none⟩
  return none

/-- `_try_put_locked`. `acceptIf` is what the caller's `accept_if` does when it
is called, `none` where it gave none. -/
def tryPutLocked [DecidableEq κ] (item : α) (priority : ℤ) (rejectWhenFull : Bool)
    (acceptIf : Option (Except MailboxError Bool)) (allowPriorityDisplacement : Bool) :
    MailboxM α κ (Option (PutResult α)) := do
  if (← getThe (PriorityMailbox α κ)).closed then throw .closed
  if let some answer := acceptIf then
    if !(← answer) then
      modify fun m => { m with stats.cancelled := m.stats.cancelled + 1 }
      return some ⟨.cancelled, item, none⟩
  if let some r ← tryCoalesceLocked item then return some r
  tryAppendLocked item priority rejectWhenFull allowPriorityDisplacement

/-- `put`. -/
def put [DecidableEq κ] (item : α) : MailboxM α κ (Option (PutResult α)) := do
  let priority ← (← getThe (PriorityMailbox α κ)).config.priorityOf item
  tryPutLocked item priority true none true

/-- One attempt of `put_wait`; it is `none` where the caller goes on to wait. -/
def putWait [DecidableEq κ] (item : α) (acceptIf : Option (Except MailboxError Bool))
    (allowPriorityDisplacement : Bool) : MailboxM α κ (Option (PutResult α)) := do
  let priority ← (← getThe (PriorityMailbox α κ)).config.priorityOf item
  tryPutLocked item priority false acceptIf allowPriorityDisplacement

/-- `put_wait`, called off while it waits. -/
def putCancelled : MailboxM α κ Unit :=
  modify fun m => { m with stats.cancelled := m.stats.cancelled + 1 }

/-- `get`; it is `none` where the caller goes on to wait. -/
def get : MailboxM α κ (Option α) := do
  let m ← getThe (PriorityMailbox α κ)
  match extract PriorityMailbox.deliveredBefore m.items with
  | none =>
    if m.closed then throw .closed
    return none
  | some (entry, rest) =>
    modify fun m => { m with items := rest }
    modify fun m => { m with stats.dequeued := m.stats.dequeued + 1 }
    modify fun m => { m with spaceAvailable := true }
    return some entry.item

/-- `close`. -/
def close (discard : Bool) : MailboxM α κ (List α) := do
  let m ← getThe (PriorityMailbox α κ)
  let mut discarded := []
  if discard ∧ m.items ≠ [] then
    let ordered := m.items.insertionSort fun a b => PriorityMailbox.deliveredBefore b a = false
    discarded := ordered.map (·.item)
    modify fun m =>
      { m with stats.discardedOnClose := m.stats.discardedOnClose + m.items.length }
    modify fun m => { m with items := [] }
  modify fun m => { m with closed := true }
  modify fun m => { m with spaceAvailable := true }
  return discarded

/-! ### What a computation leaves -/

variable {β : Type}

/-- A computation that keeps the mailbox as it was where it raises. -/
def settle (m : PriorityMailbox α κ) :
    Except MailboxError (PriorityMailbox α κ × β) → Except MailboxError β × PriorityMailbox α κ
  | .ok (m', b) => (.ok b, m')
  | .error e => (.error e, m)

/-! ### The methods compute the functions -/

variable {m : PriorityMailbox α κ} {item : α} {priority : ℤ} {rejectWhenFull allow : Bool}
  {acceptIf : Option (Except MailboxError Bool)}

theorem outcome_append : outcome (append item priority) m = (.ok (), m.append item priority) := by
  simp only [append, outcome_bind, outcome_modify, outcome_get, PriorityMailbox.append]
  split_ifs with h <;> rfl

theorem outcome_matchingEntry [DecidableEq κ] {keyOf : α → Except MailboxError (Option κ)}
    (hk : m.config.coalesceKey = some keyOf) :
    outcome (matchingEntry item) m = (PriorityMailbox.matchingEntry keyOf m.items item, m) := by
  simp only [matchingEntry, outcome_bind, outcome_get, hk, outcome_lift]

/-- The entry is changed in two steps, its item before its priority. -/
theorem outcome_tryCoalesceLocked [DecidableEq κ] :
    outcome (tryCoalesceLocked item) m =
      match m.tryCoalesceLocked item with
      | .ok (some (m', r)) => (.ok (some r), m')
      | .ok none => (.ok none, m)
      | .error e => (.error e, m) := by
  unfold tryCoalesceLocked PriorityMailbox.tryCoalesceLocked
  rw [outcome_bind, outcome_get]
  dsimp only
  by_cases hover : m.config.overflow ≠ .coalesce
  · rw [if_pos hover, if_pos hover]
    rfl
  · rw [if_neg hover, if_neg hover]
    cases hk : m.config.coalesceKey with
    | none =>
      simp only [matchingEntry, outcome_bind, outcome_get, hk, outcome_pure]
      rfl
    | some keyOf =>
      rw [outcome_bind, outcome_matchingEntry hk]
      dsimp only
      rcases PriorityMailbox.matchingEntry keyOf m.items item with e | _ | i
      · rfl
      · rfl
      · cases hi : m.items[i]? with
        | none => simp only [hi, bind, Except.bind]; rfl
        | some previous =>
          -- the two changes of the entry are one
          have hset (combined : α) (priority : ℤ) :
              (m.items.modify i ({ · with item := combined })).modify i
                  ({ · with priority := priority }) =
                m.items.set i { previous with item := combined, priority := priority } := by
            rw [List.modify_modify_eq, List.modify_eq_set_getElem?, hi]
            rfl
          simp only [hi, outcome_bind, outcome_lift]
          cases hc : m.config.coalescer previous.item item with
          | error e => simp [hi, hc, bind, Except.bind]
          | ok combined =>
            cases hp : m.config.priorityOf combined with
            | error e => simp [hi, hc, hp, bind, Except.bind]
            | ok priority =>
              simp only [hi, hc, hp, bind, Except.bind, hset, outcome_modify]
              rfl

theorem outcome_tryAppendLocked :
    outcome (tryAppendLocked item priority rejectWhenFull allow) m =
      (.ok (m.tryAppendLocked item priority rejectWhenFull allow).2,
        (m.tryAppendLocked item priority rejectWhenFull allow).1) := by
  unfold tryAppendLocked PriorityMailbox.tryAppendLocked
  rw [outcome_bind, outcome_get]
  dsimp only
  by_cases hroom : m.items.length < m.config.capacity
  · have hfull : ¬ m.full = true := by simpa [PriorityMailbox.full] using hroom
    rw [if_pos hroom, if_neg hfull, outcome_bind, outcome_append]
    rfl
  · have hfull : m.full = true := by simpa [PriorityMailbox.full] using hroom
    rw [if_neg hroom, if_pos hfull]
    by_cases hdrop : m.config.overflow = .dropLowest ∧ allow = true
    · rw [if_pos hdrop, if_pos hdrop]
      cases hlow : PriorityMailbox.lowest m.items with
      | none => cases rejectWhenFull <;> rfl
      | some p =>
        by_cases hlt : p.1.priority < priority
        · simp only [hlt, if_true, outcome_bind, outcome_modify, outcome_append, outcome_pure]
        · simp only [hlt, if_false]
          cases rejectWhenFull <;> rfl
    · rw [if_neg hdrop, if_neg hdrop]
      cases rejectWhenFull <;> rfl

/-- An item is coalesced or appended. -/
theorem outcome_tryPlaceLocked [DecidableEq κ] :
    outcome (do
        if let some r ← tryCoalesceLocked item then return some r
        tryAppendLocked item priority rejectWhenFull allow) m =
      settle m (do match ← m.tryCoalesceLocked item with
        | some (m', r) => return (m', some r)
        | none => return m.tryAppendLocked item priority rejectWhenFull allow) := by
  rw [outcome_bind, outcome_tryCoalesceLocked]
  rcases m.tryCoalesceLocked item with e | _ | p
  · rfl
  · simp only [outcome_tryAppendLocked]; rfl
  · rfl

/-- **An attempt to put computes the function of that name**, and keeps the mailbox
as it was where it raises. -/
theorem outcome_tryPutLocked [DecidableEq κ] :
    outcome (tryPutLocked item priority rejectWhenFull acceptIf allow) m =
      settle m (if m.closed then .error .closed else
        (match acceptIf with
          | none => .ok none
          | some answer => answer.map some) >>= fun accept =>
            m.tryPutLocked item priority rejectWhenFull accept allow) := by
  unfold tryPutLocked PriorityMailbox.tryPutLocked
  rw [outcome_bind, outcome_get]
  dsimp only
  cases hclosed : m.closed with
  | true => rfl
  | false =>
    rcases acceptIf with _ | e | _ | _
    · exact outcome_tryPlaceLocked
    · rfl
    · rfl
    · exact outcome_tryPlaceLocked

theorem outcome_put [DecidableEq κ] : outcome (put item) m = settle m (m.put item) := by
  rw [put, outcome_bind, outcome_get]
  dsimp only
  rw [outcome_bind, outcome_lift, PriorityMailbox.put]
  rcases m.config.priorityOf item with e | priority
  · rfl
  · dsimp only
    rw [outcome_tryPutLocked]
    by_cases hclosed : m.closed = true
    · rw [if_pos hclosed]
      simp [PriorityMailbox.tryPutLocked, hclosed, bind, Except.bind, throw, throwThe,
        MonadExceptOf.throw]
    · rw [if_neg hclosed]
      rfl

end MailboxM

/-! ### The accounts -/

namespace PriorityMailbox

variable {α κ : Type}

/-- What holds of a mailbox whatever was done with it. -/
structure Accounts (m : PriorityMailbox α κ) : Prop where
  length : m.items.length ≤ m.config.capacity
  /-- Every item accepted is accounted for. -/
  balance : m.stats.accepted = m.stats.coalesced + m.stats.evicted + m.stats.dequeued +
    m.stats.discardedOnClose + m.items.length
  /-- The event is set while there is room, and for good once the mailbox is closed. -/
  spaceAvailable : m.spaceAvailable = true ↔
    m.closed = true ∨ m.items.length < m.config.capacity
  orders : (m.items.map Entry.order).Pairwise (· < ·)
  fresh : ∀ order ∈ m.items.map Entry.order, order < m.nextOrder
  watermark : m.items.length ≤ m.stats.highWatermark

/-- A step that keeps the accounts. -/
structure Advance (m m' : PriorityMailbox α κ) : Prop where
  config : m'.config = m.config
  accounts : m'.Accounts
  highWatermark : m'.stats.highWatermark = max m.stats.highWatermark m'.items.length

variable {m m' : PriorityMailbox α κ} {item : α} {priority : ℤ} {rejectWhenFull allow : Bool}
  {acceptIf : Option Bool} {r : Option (PutResult α)}

theorem make_accounts (config : MailboxConfig α κ) : (make config).Accounts := by
  have := config.one_le_capacity
  refine ⟨Nat.zero_le _, rfl, ?_, .nil, by simp [make], le_rfl⟩
  simp only [make, true_iff, Bool.false_eq_true, false_or, List.length_nil]
  omega

/-- Only counters that the accounts do not mention have changed. -/
theorem Accounts.advance_self (h : m.Accounts) : Advance m m :=
  ⟨rfl, h, (max_eq_left h.watermark).symm⟩

/-- Appending to entries that leave room. -/
theorem append_accounts {kept : List (Entry α)} (evicted : ℕ) (h : m.Accounts)
    (hclosed : m.closed = false) (hkept : kept.Sublist m.items)
    (hlen : kept.length + (evicted - m.stats.evicted) = m.items.length)
    (hle : m.stats.evicted ≤ evicted) (hroom : kept.length < m.config.capacity)
    (hspace : kept.length + 1 < m.config.capacity → m.spaceAvailable = true) :
    Advance m (append { m with
      items := kept
      stats := { m.stats with evicted := evicted } } item priority) := by
  have hmap : (kept.map Entry.order).Sublist (m.items.map Entry.order) := hkept.map _
  have hwater := h.watermark
  have hbalance := h.balance
  have hkeptlen := hkept.length_le
  refine ⟨rfl, ⟨?_, ?_, ?_, ?_, ?_, ?_⟩, ?_⟩
  · simp only [append, List.length_append, List.length_singleton]
    omega
  · simp only [append, List.length_append, List.length_singleton]
    omega
  · simp only [append, List.length_append, List.length_singleton, hclosed, Bool.false_eq_true,
      false_or]
    split_ifs with hfull
    · simp only [false_iff]
      omega
    · have hlt : kept.length + 1 < m.config.capacity := by omega
      simp [hspace hlt, hlt]
  -- the entry gets the next number
  · simp only [append, List.map_append, List.map_cons, List.map_nil]
    rw [List.pairwise_append]
    refine ⟨h.orders.sublist hmap, List.pairwise_singleton _ _, fun a ha b hb => ?_⟩
    rw [List.mem_singleton.mp hb]
    exact h.fresh a (hmap.subset ha)
  · intro order ho
    simp only [append, List.map_append, List.map_cons, List.map_nil, List.mem_append,
      List.mem_singleton] at ho ⊢
    rcases ho with ho | rfl
    · exact Nat.lt_succ_of_lt (h.fresh order (hmap.subset ho))
    · exact Nat.lt_succ_self _
  · simp only [append, List.length_append, List.length_singleton]
    exact le_max_right _ _
  · rfl

/-- **A put keeps the accounts**, whichever way it goes. -/
theorem PutStep.advance [DecidableEq κ] (h : m.Accounts) (hclosed : m.closed = false)
    (hput : PutStep m item priority rejectWhenFull acceptIf allow m' r) : Advance m m' := by
  have hwater := h.watermark
  cases hput with
  | cancelled | rejected => exact ⟨rfl, ⟨h.1, h.2, h.3, h.4, h.5, h.6⟩, (max_eq_left h.6).symm⟩
  | waits => exact h.advance_self
  | appended _ hfull =>
    have hroom : m.items.length < m.config.capacity := by simpa [full] using hfull
    have hspace := h.spaceAvailable.mpr (Or.inr hroom)
    exact append_accounts m.stats.evicted h hclosed (List.Sublist.refl _)
      (by omega) le_rfl hroom fun _ => hspace
  | evicted _ hfull _ _ hlow =>
    -- the event is clear, and stays so: the new item takes the room at once
    obtain ⟨l₁, l₂, hitems, rfl, -⟩ := lowest_eq_some hlow
    have hlen : m.items.length = (l₁ ++ l₂).length + 1 := by
      rw [hitems]
      simp only [List.length_append, List.length_cons]
      omega
    have hcap := h.length
    have hfull' : m.config.capacity ≤ m.items.length := by simpa [full] using hfull
    refine append_accounts (m.stats.evicted + 1) h hclosed ?_ (by omega) (Nat.le_succ _) (by omega)
      (by omega)
    rw [hitems]
    exact (List.Sublist.refl l₁).append (List.sublist_cons_self _ _)
  | coalesced _ hc =>
    obtain ⟨-, i, previous, combined, priority, hi, rfl, rfl⟩ := tryCoalesceLocked_step hc
    have hmap : (m.items.set i { previous with item := combined, priority := priority }).map
        Entry.order = m.items.map Entry.order := by
      obtain ⟨hlt, rfl⟩ := List.getElem?_eq_some_iff.mp hi
      have hlt' : i < (m.items.map Entry.order).length := by rwa [List.length_map]
      have hself := List.set_getElem_self hlt'
      rw [List.getElem_map] at hself
      rw [List.map_set]
      exact hself
    have hbalance := h.balance
    refine ⟨rfl, ⟨?_, ?_, ?_, ?_, ?_, ?_⟩, ?_⟩
    · simpa using h.length
    · simp only [List.length_set]
      omega
    · simpa using h.spaceAvailable
    · simpa only [hmap] using h.orders
    · simpa only [hmap] using h.fresh
    · simpa using hwater
    · simpa using hwater

/-- Getting keeps the accounts. -/
theorem get_advance {x : Entry α} (h : m.Accounts) (hget : m.get = some (m', x)) :
    Advance m m' ∧ m'.stats = { m.stats with dequeued := m.stats.dequeued + 1 } ∧
      m'.spaceAvailable = true := by
  obtain ⟨l₁, l₂, hitems, hitems', hcfg, hclosed, hnext, -⟩ := get_eq_some hget
  obtain ⟨hstats, hspace⟩ : m'.stats = { m.stats with dequeued := m.stats.dequeued + 1 } ∧
      m'.spaceAvailable = true := by
    unfold get at hget
    split at hget <;> cases hget
    exact ⟨rfl, rfl⟩
  have hlen : m.items.length = m'.items.length + 1 := by
    rw [hitems, hitems']
    simp only [List.length_append, List.length_cons]
    omega
  have hmap : (m'.items.map Entry.order).Sublist (m.items.map Entry.order) := by
    rw [hitems, hitems']
    exact ((List.Sublist.refl l₁).append (List.sublist_cons_self _ _)).map _
  have hcap := h.length
  have hbalance := h.balance
  have hwater := h.watermark
  refine ⟨⟨hcfg, ⟨?_, ?_, ?_, h.orders.sublist hmap, ?_, ?_⟩, ?_⟩, hstats, hspace⟩
  · rw [hcfg]
    omega
  · rw [hstats]
    dsimp only
    omega
  · rw [hspace, hcfg]
    simp only [true_iff]
    exact Or.inr (by omega)
  · rw [hnext]
    exact fun order ho => h.fresh order (hmap.subset ho)
  · rw [hstats]
    dsimp only
    omega
  · rw [hstats]
    dsimp only
    omega

/-- Closing keeps the accounts. -/
theorem close_advance (h : m.Accounts) (discard : Bool) : Advance m (m.close discard).1 := by
  have hbalance := h.balance
  cases discard with
  | false =>
    exact ⟨rfl, ⟨h.length, h.balance, by simp [close], h.orders, h.fresh, h.watermark⟩,
      (max_eq_left h.watermark).symm⟩
  | true =>
    refine ⟨rfl, ⟨Nat.zero_le _, ?_, by simp [close], .nil, by simp [close], Nat.zero_le _⟩,
      (max_eq_left (Nat.zero_le _)).symm⟩
    simp only [close, if_true, List.length_nil]
    omega

end PriorityMailbox

namespace MailboxM

variable {α κ β γ : Type} {m : PriorityMailbox α κ}

/-- **A sound computation** keeps the accounts, and changes nothing where it raises. -/
def Sound (x : MailboxM α κ β) : Prop :=
  ∀ m : PriorityMailbox α κ, m.Accounts →
    m.Advance (outcome x m).2 ∧ ∀ e, (outcome x m).1 = .error e → (outcome x m).2 = m

/-- Reading the mailbox, and asking one of its functions, comes first. -/
theorem sound_ask {f : PriorityMailbox α κ → Except MailboxError β}
    {g : β → MailboxM α κ γ} (h : ∀ b, Sound (g b)) :
    Sound (do
      let m ← getThe (PriorityMailbox α κ)
      let b ← f m
      g b) := by
  intro m hm
  rw [outcome_bind, outcome_get]
  dsimp only
  rw [outcome_bind, outcome_lift]
  rcases f m with e | b
  · exact ⟨hm.advance_self, fun _ _ => rfl⟩
  · exact h b m hm

/-- Dropping the answer. -/
theorem Sound.drop {x : MailboxM α κ β} (h : Sound x) : Sound (do let _ ← x) := by
  intro m hm
  obtain ⟨hadv, herr⟩ := h m hm
  rw [outcome_bind]
  rcases hx : outcome x m with ⟨e | b, m'⟩
  · rw [hx] at hadv herr
    exact ⟨hadv, fun _ _ => herr e rfl⟩
  · rw [hx] at hadv
    exact ⟨hadv, fun _ he => by cases he⟩

theorem sound_tryPutLocked [DecidableEq κ] {item : α} {priority : ℤ} {rejectWhenFull allow : Bool}
    {acceptIf : Option (Except MailboxError Bool)} :
    Sound (tryPutLocked (κ := κ) item priority rejectWhenFull acceptIf allow) := by
  intro m hm
  rw [outcome_tryPutLocked]
  by_cases hclosed : m.closed = true
  · rw [if_pos hclosed]
    exact ⟨hm.advance_self, fun _ _ => rfl⟩
  · rw [if_neg hclosed]
    generalize hx : ((match acceptIf with
      | none => Except.ok none
      | some answer => answer.map some) >>= fun accept =>
        m.tryPutLocked item priority rejectWhenFull accept allow) = x
    rcases x with e | ⟨m', r⟩
    · exact ⟨hm.advance_self, fun _ _ => rfl⟩
    · obtain ⟨accept, -, hput⟩ := bind_eq_ok hx
      obtain ⟨hopen, hstep⟩ := PriorityMailbox.tryPutLocked_putStep hput
      exact ⟨hstep.advance hm hopen, fun _ he => by cases he⟩

theorem sound_get : Sound (get : MailboxM α κ (Option α)) := by
  intro m hm
  rw [get, outcome_bind, outcome_get]
  dsimp only
  cases hex : extract PriorityMailbox.deliveredBefore m.items with
  | none =>
    by_cases hclosed : m.closed = true
    · rw [if_pos hclosed]
      exact ⟨hm.advance_self, fun _ _ => rfl⟩
    · rw [if_neg hclosed]
      exact ⟨hm.advance_self, fun _ _ => rfl⟩
  | some p =>
    have hget : m.get = some ({ m with
        items := p.2
        spaceAvailable := true
        stats := { m.stats with dequeued := m.stats.dequeued + 1 } }, p.1) := by
      rw [PriorityMailbox.get, hex]
    simp only [outcome_bind, outcome_modify, outcome_pure]
    exact ⟨(PriorityMailbox.get_advance hm hget).1, fun _ he => by cases he⟩

theorem sound_close (discard : Bool) : Sound (close discard : MailboxM α κ (List α)) := by
  intro m hm
  have hclose : outcome (close discard) m =
      (.ok (m.close discard).2, (m.close discard).1) := by
    rw [close, outcome_bind, outcome_get]
    dsimp only
    by_cases hdiscard : discard = true ∧ m.items ≠ []
    · rw [if_pos hdiscard, PriorityMailbox.close, if_pos hdiscard.1]
      rfl
    · rw [if_neg hdiscard]
      cases discard with
      | false => rfl
      | true =>
        have hnil : m.items = [] := by simpa using hdiscard
        have hcopy : m = { m with items := [] } := by rw [← hnil]
        rw [PriorityMailbox.close, if_pos rfl, hcopy]
        rfl
  rw [hclose]
  exact ⟨PriorityMailbox.close_advance hm discard, fun _ he => by cases he⟩

theorem sound_putCancelled : Sound (putCancelled : MailboxM α κ Unit) := by
  intro m hm
  refine ⟨⟨rfl, ⟨hm.1, hm.2, hm.3, hm.4, hm.5, hm.6⟩, (max_eq_left hm.6).symm⟩, fun _ he => ?_⟩
  cases he

end MailboxM

/-! ### Calls in any order -/

/-- A call of one of the methods of a mailbox. -/
inductive MailboxCall (α : Type) where
  | put (item : α)
  /-- One attempt of a waiting put. -/
  | putWait (item : α) (acceptIf : Option (Except MailboxError Bool))
      (allowPriorityDisplacement : Bool)
  /-- A waiting put is called off. -/
  | putCancelled
  | get
  | close (discard : Bool)

section Calls

variable {α κ : Type} [DecidableEq κ]

/-- Make a call; what it answers is dropped. -/
def MailboxCall.perform : MailboxCall α → MailboxM α κ Unit
  | .put item => do let _ ← MailboxM.put item
  | .putWait item acceptIf allow => do let _ ← MailboxM.putWait item acceptIf allow
  | .putCancelled => MailboxM.putCancelled
  | .get => do let _ ← MailboxM.get
  | .close discard => do let _ ← MailboxM.close discard

/-- **Every call is sound.** -/
theorem MailboxCall.sound (c : MailboxCall α) : (c.perform (κ := κ)).Sound := by
  cases c with
  | put | putWait => exact (MailboxM.sound_ask fun _ => MailboxM.sound_tryPutLocked).drop
  | putCancelled => exact MailboxM.sound_putCancelled
  | get => exact MailboxM.sound_get.drop
  | close discard => exact (MailboxM.sound_close discard).drop

/-- A mailbox in use. -/
structure MailboxRun (α κ : Type) where
  mailbox : PriorityMailbox α κ
  /-- The waiting puts that sleep until the space-available event is set. -/
  sleepers : ℕ
  /-- The greatest length the mailbox has had. -/
  peak : ℕ

/-- What happens next to a mailbox. -/
inductive MailboxLabel (α : Type) where
  | call (c : MailboxCall α)
  /-- A put that found no room waits for the event. -/
  | sleep
  /-- A put that slept is woken by something else. -/
  | wake

/-- One step. A put that waits on the event while it is set goes on at once, and
setting it wakes every put that sleeps. -/
def MailboxRun.next (r : MailboxRun α κ) : MailboxLabel α → Option (MailboxRun α κ)
  | .call c =>
    let m := (outcome c.perform r.mailbox).2
    some ⟨m, if m.spaceAvailable then 0 else r.sleepers, max r.peak m.items.length⟩
  | .sleep => some (if r.mailbox.spaceAvailable then r else { r with sleepers := r.sleepers + 1 })
  | .wake => if 0 < r.sleepers then some { r with sleepers := r.sleepers - 1 } else none

variable (α κ) in
/-- Any calls in any order, on a mailbox made with any arguments. -/
def mailboxMachine : Machine (MailboxRun α κ) (MailboxLabel α) where
  start r := ∃ config, r = ⟨.make config, 0, 0⟩
  next := MailboxRun.next

/-- What holds of a mailbox in use. -/
structure MailboxRun.Kept (r : MailboxRun α κ) : Prop where
  accounts : r.mailbox.Accounts
  sleepers : r.mailbox.spaceAvailable = true → r.sleepers = 0
  peak : r.mailbox.stats.highWatermark = r.peak

variable {r r' : MailboxRun α κ} {l : MailboxLabel α}

theorem MailboxRun.Kept.next (h : r.Kept) (hn : r.next l = some r') : r'.Kept := by
  cases l with
  | call c =>
    obtain rfl := Option.some.inj hn
    obtain ⟨⟨-, haccounts, hwater⟩, -⟩ := c.sound r.mailbox h.accounts
    exact ⟨haccounts, fun hs => if_pos hs, by rw [hwater, h.peak]⟩
  | sleep =>
    obtain rfl := Option.some.inj hn
    by_cases hs : r.mailbox.spaceAvailable = true
    · rw [if_pos hs]
      exact h
    · rw [if_neg hs]
      exact ⟨h.accounts, fun hs' => absurd hs' hs, h.peak⟩
  | wake =>
    simp only [MailboxRun.next] at hn
    split_ifs at hn with hpos
    obtain rfl := Option.some.inj hn
    exact ⟨h.accounts, fun hs => by rw [h.sleepers hs], h.peak⟩

theorem mailboxMachine_kept (h : (mailboxMachine α κ).Reachable r) : r.Kept := by
  refine h.invariant (fun r hs => ?_) fun r l r' _ hr _ hn => hr.next hn
  obtain ⟨config, rfl⟩ := hs
  exact ⟨PriorityMailbox.make_accounts config, fun _ => rfl, rfl⟩

/-- **The accounts of a mailbox** add up, whatever was done with it: it holds at most its
capacity, every item it accepted is accounted for, the event of an open mailbox is set
exactly while there is room and no put sleeps while there is any, its entries are told
apart by their orders, its high watermark is the greatest length it has had, and a call
that raises changes nothing. -/
theorem mailbox_accounting (h : (mailboxMachine α κ).Reachable r) :
    r.mailbox.items.length ≤ r.mailbox.config.capacity ∧
      r.mailbox.stats.accepted = r.mailbox.stats.coalesced + r.mailbox.stats.evicted +
        r.mailbox.stats.dequeued + r.mailbox.stats.discardedOnClose + r.mailbox.items.length ∧
      (r.mailbox.closed = false → (r.mailbox.spaceAvailable = true ↔
        r.mailbox.items.length < r.mailbox.config.capacity)) ∧
      (r.mailbox.items.length < r.mailbox.config.capacity → r.sleepers = 0) ∧
      (r.mailbox.items.map Entry.order).Nodup ∧
      (∀ e ∈ r.mailbox.items, e.order < r.mailbox.nextOrder) ∧
      r.mailbox.stats.highWatermark = r.peak ∧
      ∀ (c : MailboxCall α) (e : MailboxError),
        (outcome c.perform r.mailbox).1 = .error e →
        (outcome c.perform r.mailbox).2 = r.mailbox := by
  have hr := mailboxMachine_kept h
  refine ⟨hr.accounts.length, hr.accounts.balance, fun hopen => ?_, fun hroom => ?_,
    hr.accounts.orders.imp fun hlt => hlt.ne, fun e he => ?_, hr.peak,
    fun c => (c.sound r.mailbox hr.accounts).2⟩
  · simpa [hopen] using hr.accounts.spaceAvailable
  · exact hr.sleepers (hr.accounts.spaceAvailable.mpr (Or.inr hroom))
  · exact hr.accounts.fresh e.order (List.mem_map_of_mem he)

end Calls

/-- A waiting put sleeps on a mailbox that is full, and is woken by the next get. -/
theorem mailbox_accounting_waking : ∃ r : MailboxRun ℤ ℕ,
    (r.mailbox.items.length, r.sleepers, r.mailbox.stats) = (1, 0, ⟨3, 1, 0, 0, 0, 1, 0, 1⟩) ∧
      r.mailbox.stats.highWatermark = r.peak := by
  have h : ((mailboxMachine ℤ ℕ).run
      ⟨.make ⟨1, .dropLowest, fun a => .ok a, none, fun _ new => .ok new, by decide, by decide⟩,
        0, 0⟩
      [.call (.put 5), .call (.put 7), .call (.putWait 6 none true), .sleep, .call .get,
        .call (.putWait 6 none true)]).map
        (fun r => (r.mailbox.items.length, r.sleepers, r.mailbox.stats)) =
      some (1, 0, ⟨3, 1, 0, 0, 0, 1, 0, 1⟩) := by
    decide +kernel
  obtain ⟨r, hr, hstats⟩ := Option.map_eq_some_iff.mp h
  have hreach := Machine.reachable_of_run (M := mailboxMachine ℤ ℕ) ⟨_, rfl⟩ hr
  exact ⟨r, hstats, (mailbox_accounting hreach).2.2.2.2.2.2.1⟩

end Eeveetuber
