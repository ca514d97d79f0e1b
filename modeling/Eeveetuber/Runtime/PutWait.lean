import Eeveetuber.Foundation.Machine
import Eeveetuber.Runtime.Mailbox

/-!
# Waiting puts, await by await

`put_wait` gives up the event loop at several awaits, and at each of them its task may be
cancelled. `Eeveetuber.PutWaitCall` is a call of it that stands at one of these awaits,
`Eeveetuber.PutWaitCall.wake` what it does when the await is over, and
`Eeveetuber.PutWaitCall.cancel` what it does when `CancelledError` is raised there. Two helper
tasks belong to a call: one waits for space in the mailbox, one for the cancellation that the
caller has passed. A `finally` block ends a helper that still runs and awaits its end.

A call that has waited still has such an await in front of it when its item is in the mailbox: the
last one, for the end of the task that watches the cancellation. If the calling task is cancelled
there, `put_wait` ends with `CancelledError` although its item was enqueued.
`Eeveetuber.sameQueue_of_cancelledError` says that there is no other such case: in every run that
is not cancelled there, a call that ends with `CancelledError` has left the queue alone.
-/

namespace Eeveetuber

open Foundation

/-- A helper task: not created or forgotten again, running, or done. -/
inductive HelperTask where
  | none
  | running
  | done
deriving DecidableEq

/-- How `put_wait` ends. -/
inductive PutWaitEnding (α : Type) where
  | returned (result : PutResult α)
  | raised (error : MailboxError)
  /-- `CancelledError` comes out of it. -/
  | cancelledError

/-- The awaits of `put_wait`. -/
inductive PutWaitPoint (α : Type) where
  /-- `async with self._condition`. -/
  | condition
  /-- `await space_task`, where there is no cancellation to wait for. -/
  | space
  /-- The `finally` block of that await, on its way out with `CancelledError`. -/
  | spaceReaped
  /-- `asyncio.wait` for either helper. -/
  | either
  /-- The `finally` block of that await, which was interrupted by `CancelledError` or not. -/
  | eitherReaped (interrupted : Bool)
  /-- The last `finally` block: the end of the task that waits for space. -/
  | spaceCleanUp (ending : PutWaitEnding α)
  /-- The last `finally` block: the end of the task that watches the cancellation. -/
  | cancellationCleanUp (ending : PutWaitEnding α)
  | over (ending : PutWaitEnding α)

/-- How a call is about to end, once it is in its last `finally` block. -/
def PutWaitPoint.ending? {α : Type} : PutWaitPoint α → Option (PutWaitEnding α)
  | .condition | .space | .spaceReaped | .either | .eitherReaped _ => none
  | .spaceCleanUp ending | .cancellationCleanUp ending | .over ending => some ending

/-- A call of `put_wait`: its arguments, its helper tasks and where it stands. -/
structure PutWaitCall (α : Type) where
  item : α
  priority : ℤ
  hasCancelWaiter : Bool
  allowPriorityDisplacement : Bool
  spaceTask : HelperTask
  cancellationTask : HelperTask
  point : PutWaitPoint α

namespace PutWaitCall

variable {α κ : Type}

/-- The call at its first await. -/
def begin (item : α) (priority : ℤ) (hasCancelWaiter allowPriorityDisplacement : Bool) :
    PutWaitCall α :=
  { item, priority, hasCancelWaiter, allowPriorityDisplacement
    spaceTask := .none
    cancellationTask := .none
    point := .condition }

/-- The second half of the last `finally` block. -/
def cleanUpCancellation (c : PutWaitCall α) (ending : PutWaitEnding α) : PutWaitCall α :=
  { c with
    point := if c.cancellationTask = .running then .cancellationCleanUp ending else .over ending }

/-- The last `finally` block. -/
def cleanUp (c : PutWaitCall α) (ending : PutWaitEnding α) : PutWaitCall α :=
  if c.spaceTask = .running then { c with point := .spaceCleanUp ending }
  else c.cleanUpCancellation ending

/-- The cancellation came first. -/
def giveUp (c : PutWaitCall α) (m : PriorityMailbox α κ) : PriorityMailbox α κ × PutWaitCall α :=
  (m.putCancelled, c.cleanUp (.returned ⟨.cancelled, c.item, none⟩))

/-- The top of the loop. -/
def loop (c : PutWaitCall α) (m : PriorityMailbox α κ) : PriorityMailbox α κ × PutWaitCall α :=
  if c.cancellationTask = .done then c.giveUp m else (m, { c with point := .condition })

/-- The attempt under the lock, and the helper tasks of a call that has to wait. -/
def tryPut [DecidableEq κ] (c : PutWaitCall α) (m : PriorityMailbox α κ) (acceptIf : Option Bool) :
    PriorityMailbox α κ × PutWaitCall α :=
  match m.tryPutLocked c.item c.priority false acceptIf c.allowPriorityDisplacement with
  | .error e => (m, c.cleanUp (.raised e))
  | .ok (m', some result) => (m', c.cleanUp (.returned result))
  | .ok (m', none) =>
    let cancellationTask := if c.cancellationTask = .none ∧ c.hasCancelWaiter = true then .running
      else c.cancellationTask
    (m', { c with
      spaceTask := .running
      cancellationTask
      point := if cancellationTask = .none then .space else .either })

/-- **The await is over**, and the call goes on to its next one. `acceptIf` is what the caller's
`accept_if` answers if it is asked. -/
def wake [DecidableEq κ] (c : PutWaitCall α) (m : PriorityMailbox α κ) (acceptIf : Option Bool) :
    Option (PriorityMailbox α κ × PutWaitCall α) :=
  match c.point with
  | .condition => some (c.tryPut m acceptIf)
  | .space =>
    if c.spaceTask = .done then some ({ c with spaceTask := .none }.loop m) else none
  | .spaceReaped => some (m, { c with spaceTask := .none }.cleanUp .cancelledError)
  | .either =>
    if c.spaceTask = .running then
      if c.cancellationTask = .done then some (m, { c with point := .eitherReaped false })
      else none
    else if c.cancellationTask = .done then some (c.giveUp m)
    else some ({ c with spaceTask := .none }.loop m)
  | .eitherReaped interrupted =>
    let c := { c with spaceTask := .done }
    if interrupted then some (m, c.cleanUp .cancelledError) else some (c.giveUp m)
  | .spaceCleanUp ending => some (m, { c with spaceTask := .done }.cleanUpCancellation ending)
  | .cancellationCleanUp ending =>
    some (m, { c with cancellationTask := .done, point := .over ending })
  | .over _ => none

/-- **`CancelledError` is raised at the await.** A task that is awaited directly is cancelled with
the one that awaits it; `ended` tells whether it is done by then. -/
def cancel (c : PutWaitCall α) (ended : Bool) : Option (PutWaitCall α) :=
  match c.point with
  | .condition => some (c.cleanUp .cancelledError)
  | .space =>
    if c.spaceTask = .running ∧ ended = false then some { c with point := .spaceReaped }
    else some ({ c with spaceTask := .none }.cleanUp .cancelledError)
  | .either =>
    if c.spaceTask = .running then some { c with point := .eitherReaped true }
    else some (c.cleanUp .cancelledError)
  | .spaceReaped | .eitherReaped _ =>
    some ({ c with spaceTask := .done }.cleanUp .cancelledError)
  | .spaceCleanUp _ | .cancellationCleanUp _ => some { c with point := .over .cancelledError }
  | .over _ => none

/-! ### What a step does to the queue -/

variable {c c' : PutWaitCall α} {m m' : PriorityMailbox α κ} {acceptIf : Option Bool} {ended : Bool}
  {ending : PutWaitEnding α}

theorem cleanUpCancellation_ending :
    (c.cleanUpCancellation ending).point.ending? = some ending := by
  rw [cleanUpCancellation]
  dsimp only
  split_ifs
  · rfl
  · rfl

theorem cleanUp_ending : (c.cleanUp ending).point.ending? = some ending := by
  rw [cleanUp]
  split_ifs
  · rfl
  · exact cleanUpCancellation_ending

theorem sameQueue_putCancelled (m : PriorityMailbox α κ) : m.SameQueue m.putCancelled :=
  ⟨rfl, rfl, rfl⟩

theorem sameQueue_loop : m.SameQueue (c.loop m).1 := by
  rw [loop]
  split_ifs
  · exact sameQueue_putCancelled m
  · exact ⟨rfl, rfl, rfl⟩

/-- **A step of the call** leaves the queue alone and stays with the ending it is on its way to,
or it gets the item in and is on its way to return that. -/
theorem wake_queue [DecidableEq κ] (h : c.wake m acceptIf = some (m', c')) :
    (m.SameQueue m' ∧ ∀ ending, c.point.ending? = some ending → c'.point.ending? = some ending) ∨
      (c.point.ending? = none ∧ ∃ result, c'.point.ending? = some (.returned result) ∧
        result.accepted = true) := by
  have hself : m.SameQueue m := ⟨rfl, rfl, rfl⟩
  rw [wake] at h
  rcases hpoint : c.point with _ | _ | _ | _ | interrupted | ending | ending | ending
  case condition =>
    rw [hpoint] at h
    obtain ⟨rfl, rfl⟩ : (c.tryPut m acceptIf).1 = m' ∧ (c.tryPut m acceptIf).2 = c' :=
      Prod.ext_iff.mp (Option.some.inj h)
    rw [tryPut]
    -- the only step that may get the item in
    rcases hput : m.tryPutLocked c.item c.priority false acceptIf c.allowPriorityDisplacement with
      e | ⟨m', _ | result⟩
    · exact .inl ⟨hself, fun _ hending => by cases hending⟩
    · obtain ⟨-, hstep⟩ := PriorityMailbox.tryPutLocked_putStep hput
      exact .inl ⟨hstep.sameQueue rfl, fun _ hending => by cases hending⟩
    · obtain ⟨-, hstep⟩ := PriorityMailbox.tryPutLocked_putStep hput
      rcases haccepted : result.accepted with _ | _
      · exact .inl ⟨hstep.sameQueue haccepted, fun _ hending => by cases hending⟩
      · exact .inr ⟨rfl, result, cleanUp_ending, haccepted⟩
  case space =>
    rw [hpoint] at h
    dsimp only at h
    -- the loop comes around, for another attempt
    split_ifs at h
    obtain ⟨rfl, -⟩ := Prod.ext_iff.mp (Option.some.inj h)
    exact .inl ⟨sameQueue_loop, fun _ hending => by cases hending⟩
  case spaceReaped =>
    rw [hpoint] at h
    obtain ⟨rfl, -⟩ := Prod.ext_iff.mp (Option.some.inj h)
    exact .inl ⟨hself, fun _ hending => by cases hending⟩
  case either =>
    rw [hpoint] at h
    dsimp only at h
    split_ifs at h
    · obtain ⟨rfl, -⟩ := Prod.ext_iff.mp (Option.some.inj h)
      exact .inl ⟨hself, fun _ hending => by cases hending⟩
    · obtain ⟨rfl, -⟩ := Prod.ext_iff.mp (Option.some.inj h)
      exact .inl ⟨sameQueue_putCancelled m, fun _ hending => by cases hending⟩
    · obtain ⟨rfl, -⟩ := Prod.ext_iff.mp (Option.some.inj h)
      exact .inl ⟨sameQueue_loop, fun _ hending => by cases hending⟩
  case eitherReaped =>
    rw [hpoint] at h
    dsimp only at h
    split_ifs at h
    · obtain ⟨rfl, -⟩ := Prod.ext_iff.mp (Option.some.inj h)
      exact .inl ⟨hself, fun _ hending => by cases hending⟩
    · obtain ⟨rfl, -⟩ := Prod.ext_iff.mp (Option.some.inj h)
      exact .inl ⟨sameQueue_putCancelled m, fun _ hending => by cases hending⟩
  case spaceCleanUp =>
    rw [hpoint] at h
    obtain ⟨rfl, rfl⟩ := Prod.ext_iff.mp (Option.some.inj h)
    refine .inl ⟨hself, ?_⟩
    rintro _ ⟨⟩
    exact cleanUpCancellation_ending
  case cancellationCleanUp =>
    rw [hpoint] at h
    obtain ⟨rfl, rfl⟩ := Prod.ext_iff.mp (Option.some.inj h)
    exact .inl ⟨hself, fun _ hending => hending⟩
  case «over» =>
    rw [hpoint] at h
    cases h

end PutWaitCall

/-! ### Runs of one call -/

/-- A call of `put_wait`, the mailbox, and what the mailbox was before and after each step of the
call. -/
structure PutWaitRun (α κ : Type) where
  call : PutWaitCall α
  mailbox : PriorityMailbox α κ
  own : List (PriorityMailbox α κ × PriorityMailbox α κ)

/-- What happens around a call. -/
inductive PutWaitLabel (α κ : Type) where
  /-- The await of the call is over. -/
  | wake (acceptIf : Option Bool)
  /-- The calling task is cancelled. -/
  | cancel (ended : Bool)
  /-- There is space in the mailbox, or was. -/
  | spaceDone
  /-- The cancellation that the caller has passed comes. -/
  | cancellationDone
  /-- The other tasks leave the mailbox like this. -/
  | others (mailbox : PriorityMailbox α κ)

section Runs

variable {α κ : Type} [DecidableEq κ] {r r' : PutWaitRun α κ} {l : PutWaitLabel α κ}

/-- What the run does at a label: the call goes on or is cancelled at its await, one of its helpers
is done, or other tasks have changed the mailbox. -/
def PutWaitRun.next (r : PutWaitRun α κ) : PutWaitLabel α κ → Option (PutWaitRun α κ)
  | .wake acceptIf => (r.call.wake r.mailbox acceptIf).map fun p =>
    { call := p.2, mailbox := p.1, own := r.own ++ [(r.mailbox, p.1)] }
  | .cancel ended => (r.call.cancel ended).map fun call =>
    { r with call, own := r.own ++ [(r.mailbox, r.mailbox)] }
  | .spaceDone =>
    if r.call.spaceTask = .running then some { r with call := { r.call with spaceTask := .done } }
    else none
  | .cancellationDone =>
    if r.call.cancellationTask = .running then
      some { r with call := { r.call with cancellationTask := .done } }
    else none
  | .others mailbox => some { r with mailbox }

variable (α κ) in
/-- A call of `put_wait` with any arguments, on any mailbox, among any other tasks. -/
def putWaitMachine : Machine (PutWaitRun α κ) (PutWaitLabel α κ) where
  start r := r.own = [] ∧ ∃ item priority hasCancelWaiter allowPriorityDisplacement,
    r.call = .begin item priority hasCancelWaiter allowPriorityDisplacement
  next := PutWaitRun.next

/-- The calling task is not cancelled between the moment its item is in and the end of the call. -/
def PutWaitRun.Spares (r : PutWaitRun α κ) (l : PutWaitLabel α κ) : Prop :=
  ∀ ended result, l = .cancel ended → r.call.point.ending? = some (.returned result) →
    result.accepted = false

/-- The call has left the queue alone, or is on its way to return that its item is in. -/
def PutWaitRun.Clean (r : PutWaitRun α κ) : Prop :=
  (∀ p ∈ r.own, p.1.SameQueue p.2) ∨
    ∃ result, r.call.point.ending? = some (.returned result) ∧ result.accepted = true

theorem PutWaitRun.Clean.next (h : r.Clean) (hok : r.Spares l) (hn : r.next l = some r') :
    r'.Clean := by
  have hconcat {p : PriorityMailbox α κ × PriorityMailbox α κ}
      (hown : ∀ p ∈ r.own, p.1.SameQueue p.2) (hp : p.1.SameQueue p.2) :
      ∀ q ∈ r.own ++ [p], q.1.SameQueue q.2 := by
    intro q hq
    rcases List.mem_append.mp hq with hq | hq
    · exact hown q hq
    · rw [List.mem_singleton.mp hq]
      exact hp
  cases l with
  | wake acceptIf =>
    obtain ⟨⟨m', c'⟩, hwake, rfl⟩ := Option.map_eq_some_iff.mp hn
    rcases PutWaitCall.wake_queue hwake with ⟨hsame, hstays⟩ | ⟨-, hcommits⟩
    · rcases h with hown | ⟨result, hending, haccepted⟩
      · exact .inl (hconcat hown hsame)
      · exact .inr ⟨result, hstays _ hending, haccepted⟩
    · exact .inr hcommits
  | cancel ended =>
    obtain ⟨c', hcancel, rfl⟩ := Option.map_eq_some_iff.mp hn
    rcases h with hown | ⟨result, hending, haccepted⟩
    · exact .inl (hconcat hown ⟨rfl, rfl, rfl⟩)
    -- a step that is spared does not cancel a call whose item is in
    · rw [hok ended result rfl hending] at haccepted
      cases haccepted
  | spaceDone =>
    rw [PutWaitRun.next] at hn
    split_ifs at hn
    cases hn
    exact h
  | cancellationDone =>
    rw [PutWaitRun.next] at hn
    split_ifs at hn
    cases hn
    exact h
  | others mailbox =>
    cases hn
    exact h

/-- **A call that ends with `CancelledError`** has left the queue alone, unless it was cancelled
when its item was in already. -/
theorem sameQueue_of_cancelledError (h : (putWaitMachine α κ).ReachableBy PutWaitRun.Spares r)
    (hover : r.call.point = .over .cancelledError) : ∀ p ∈ r.own, p.1.SameQueue p.2 := by
  have hclean : r.Clean := by
    refine h.invariant ?_ fun r l r' _ hr hok hn => hr.next hok hn
    rintro r ⟨hown, -⟩
    refine .inl fun p hp => ?_
    rw [hown] at hp
    cases hp
  rcases hclean with hown | ⟨result, hending, -⟩
  · exact hown
  · rw [hover] at hending
    cases hending

end Runs

end Eeveetuber
