import Eeveetuber.Domain.Envelope
import Eeveetuber.Foundation.Machine

/-!
# The event recorder

The events of a session are persisted behind its back. `observe` puts an event into a bounded
queue without waiting, and a background loop takes events from its head and hands them to a sink,
one at a time, in a thread. When the queue is full a queued trace gives way to an event that is
to be retained, and any other event is dropped.

`Eeveetuber.AsyncEventRecorder` is what the recorder keeps, and
`Eeveetuber.recorderMachine` its runs: the loop moves from one suspension to the next, the sink
answers or fails, and observers and callers of `close` come at any time between. Beside the
recorder a run keeps what was observed, handed over, settled and dropped, to speak about it.

Everything follows from where the events are: **an event that was observed is settled, in the
sink, in the queue or dropped, and only there** (`Eeveetuber.RecorderRun.Invariant.observed`), and
**what was handed over is, with the queue behind it, in the order of observation**
(`Eeveetuber.RecorderRun.Invariant.order`).
-/

namespace Eeveetuber

open Foundation

variable {δ : Type} {calendar : IsoCalendar δ}

/-! ### The recorder -/

/-- Ephemeral media and operational traces give way to other events. -/
def RetentionClass.displaceable : RetentionClass → Bool
  | .ephemeralMedia | .operationalTrace => true
  | .transcript | .audit | .durableDomain => false

/-- An event of a class that gives way. -/
def Event.displaceable (event : Event calendar) : Bool := event.body.retention.displaceable

/-- An event that may be persisted: partial transcripts never are. -/
def Event.recordable (event : Event calendar) : Bool :=
  event.body.type ≠ "voice.transcript_partial".toList

/-- Where the background loop is. -/
inductive RecorderTask (calendar : IsoCalendar δ) where
  | notStarted
  /-- It goes on at `while self._pending`. -/
  | ready
  /-- The sink has this event. -/
  | persisting (event : Event calendar)
  /-- In `self._wake.wait()`. -/
  | waiting
  | finished

/-- The event that the sink has. -/
def RecorderTask.inFlight : RecorderTask calendar → List (Event calendar)
  | persisting event => [event]
  | notStarted | ready | waiting | finished => []

structure AsyncEventRecorder (calendar : IsoCalendar δ) where
  capacity : ℕ
  pending : List (Event calendar) := []
  wake : Bool := false
  task : RecorderTask calendar := .notStarted
  closed : Bool := false
  persisted : ℕ := 0
  dropped : ℕ := 0
  failures : ℕ := 0
  capacity_pos : 1 ≤ capacity

namespace AsyncEventRecorder

variable {s t : AsyncEventRecorder calendar} {event incoming : Event calendar}

/-- `stats.queued`. -/
def queued (s : AsyncEventRecorder calendar) : ℕ := s.pending.length

def start (s : AsyncEventRecorder calendar) : Except String (AsyncEventRecorder calendar) :=
  match s.task with
  | .notStarted =>
    if s.closed then .error "event recorder is closed" else .ok { s with task := .ready }
  | _ => .error "event recorder is already started"

/-- `_make_room`: the recorder without the oldest event that gives way, if there is one and the
incoming event does not give way itself. -/
def makeRoom (s : AsyncEventRecorder calendar) (incoming : Event calendar) :
    Option (AsyncEventRecorder calendar) :=
  if incoming.displaceable then none
  else if s.pending.any Event.displaceable then some { s with
    pending := s.pending.eraseP Event.displaceable
    dropped := s.dropped + 1 }
  else none

def enqueue (s : AsyncEventRecorder calendar) (event : Event calendar) :
    AsyncEventRecorder calendar :=
  { s with pending := s.pending ++ [event], wake := true }

def observe (s : AsyncEventRecorder calendar) (event : Event calendar) :
    AsyncEventRecorder calendar :=
  if event.recordable = false then s
  else if s.closed then { s with dropped := s.dropped + 1 }
  else if s.capacity ≤ s.pending.length then
    match s.makeRoom event with
    | some roomy => roomy.enqueue event
    | none => { s with dropped := s.dropped + 1 }
  else s.enqueue event

/-- `close`, up to where it waits for the loop. -/
def close (s : AsyncEventRecorder calendar) : AsyncEventRecorder calendar :=
  if s.closed then s else { s with closed := true, wake := true }

/-- The loop from the top, to where it is suspended or persists an event. A thread that takes no
more work refuses it, which counts as a failure of the sink. -/
def turn (s : AsyncEventRecorder calendar) (accepted : Bool) : AsyncEventRecorder calendar :=
  match s.pending with
  | event :: pending =>
    if accepted then { s with pending, task := .persisting event }
    else { s with pending, failures := s.failures + 1 }
  | [] =>
    if s.closed then { s with task := .finished }
    -- nothing is put into the queue between its last look and this one
    else { s with wake := false, task := .waiting }

/-- The sink has persisted its event, or failed. -/
def settle (s : AsyncEventRecorder calendar) (succeeded : Bool) : AsyncEventRecorder calendar :=
  if succeeded then { s with persisted := s.persisted + 1, task := .ready }
  else { s with failures := s.failures + 1, task := .ready }

end AsyncEventRecorder

/-! ### Runs -/

/-- An event that was dropped, with what was queued then. -/
structure DroppedEvent (calendar : IsoCalendar δ) where
  event : Event calendar
  queued : List (Event calendar)
  closed : Bool

/-- A recorder in use, with what became of the events. -/
structure RecorderRun (calendar : IsoCalendar δ) where
  recorder : AsyncEventRecorder calendar
  /-- All events, in the order in which they were observed. -/
  observed : List (Event calendar) := []
  /-- The events that the sink was given. -/
  handed : List (Event calendar) := []
  /-- The events that were persisted, or failed to be. -/
  settled : List (Event calendar) := []
  drops : List (DroppedEvent calendar) := []
  /-- A call of `close` has returned. -/
  closeReturned : Bool := false

inductive RecorderStep (calendar : IsoCalendar δ) where
  | start
  | observe (event : Event calendar)
  | close
  | closeReturns
  | turn (accepted : Bool)
  | wakeUp
  | settle (succeeded : Bool)

namespace RecorderRun

variable {s t : RecorderRun calendar} {event : Event calendar}

/-- The event that is dropped when there is no room: a queued one that gives way, or itself. -/
def victim (s : AsyncEventRecorder calendar) (event : Event calendar) : Event calendar :=
  if event.displaceable then event else (s.pending.find? Event.displaceable).getD event

/-- What is dropped when an event is observed. -/
def dropsFor (s : AsyncEventRecorder calendar) (event : Event calendar) :
    List (DroppedEvent calendar) :=
  if event.recordable = false then []
  else if s.closed then [⟨event, s.pending, s.closed⟩]
  else if s.capacity ≤ s.pending.length then
    [⟨victim s event, s.pending, s.closed⟩]
  else []

end RecorderRun

/-- The runs of a recorder. -/
def recorderMachine (calendar : IsoCalendar δ) :
    Machine (RecorderRun calendar) (RecorderStep calendar) where
  start s := ∃ capacity hpos, s = { recorder := { capacity, capacity_pos := hpos } }
  next s
    | .start =>
      match s.recorder.start with
      | .ok recorder => some { s with recorder }
      | .error _ => none
    | .observe event => some { s with
        recorder := s.recorder.observe event
        observed := s.observed ++ [event]
        drops := s.drops ++ RecorderRun.dropsFor s.recorder event }
    | .close => some { s with recorder := s.recorder.close }
    | .closeReturns =>
      match s.recorder.task with
      | .notStarted | .finished =>
        if s.recorder.closed then some { s with closeReturned := true } else none
      | _ => none
    | .turn accepted =>
      match s.recorder.task with
      | .ready => some { s with
          recorder := s.recorder.turn accepted
          handed := s.handed ++ if accepted then s.recorder.pending.head?.toList else []
          settled := s.settled ++ if accepted then [] else s.recorder.pending.head?.toList }
      | _ => none
    | .wakeUp =>
      match s.recorder.task with
      | .waiting =>
        if s.recorder.wake then some { s with recorder := { s.recorder with task := .ready } }
        else none
      | _ => none
    | .settle succeeded =>
      match s.recorder.task with
      | .persisting event => some { s with
          recorder := s.recorder.settle succeeded
          settled := s.settled ++ [event] }
      | _ => none

namespace RecorderRun

/-! ### What observing an event does -/

/-- **An event that may be persisted is enqueued, or something is dropped**: itself or, to make
room for it, the oldest queued event that gives way. -/
theorem observe_cases (s : AsyncEventRecorder calendar) (h : event.recordable = true) :
    (s.closed = false ∧ s.pending.length < s.capacity ∧ s.observe event = s.enqueue event ∧
      dropsFor s event = []) ∨
    (∃ victim before after, s.closed = false ∧ s.pending = before ++ victim :: after ∧
      victim.displaceable = true ∧ s.observe event = { s with
        pending := before ++ after ++ [event], wake := true, dropped := s.dropped + 1 } ∧
      dropsFor s event = [⟨victim, s.pending, s.closed⟩]) ∨
    ((s.closed = false → event.displaceable = false →
        ∀ queued ∈ s.pending, queued.displaceable = false) ∧
      s.observe event = { s with dropped := s.dropped + 1 } ∧
      dropsFor s event = [⟨event, s.pending, s.closed⟩]) := by
  have hrecordable : ¬event.recordable = false := Bool.not_eq_false _ ▸ h
  rw [AsyncEventRecorder.observe, if_neg hrecordable, dropsFor, if_neg hrecordable]
  by_cases hclosed : s.closed = true
  · rw [if_pos hclosed, if_pos hclosed]
    exact .inr (.inr ⟨fun hopen => absurd (hopen.symm.trans hclosed) Bool.false_ne_true, rfl, rfl⟩)
  rw [if_neg hclosed, if_neg hclosed]
  by_cases hfull : s.capacity ≤ s.pending.length
  swap
  · rw [if_neg hfull, if_neg hfull]
    exact .inl ⟨Bool.not_eq_true _ ▸ hclosed, not_le.mp hfull, rfl, rfl⟩
  rw [if_pos hfull, if_pos hfull, AsyncEventRecorder.makeRoom, victim]
  -- room is made only for an event that does not itself give way
  by_cases hgives : event.displaceable = true
  · rw [if_pos hgives, if_pos hgives]
    refine .inr (.inr ⟨fun _ hkeeps => ?_, rfl, rfl⟩)
    exact absurd (hkeeps.symm.trans hgives) Bool.false_ne_true
  rw [if_neg hgives, if_neg hgives]
  by_cases hany : s.pending.any Event.displaceable = true
  -- the oldest queued event that gives way is dropped
  · obtain ⟨queued, hmem, hqueued⟩ := List.any_eq_true.mp hany
    obtain ⟨victim, before, after, hbefore, hvictim, hpending, herase⟩ :=
      List.exists_of_eraseP hmem hqueued
    have hfind : s.pending.find? Event.displaceable = some victim := by
      rw [hpending, List.find?_append, List.find?_eq_none.mpr hbefore, Option.none_or,
        List.find?_cons_of_pos hvictim]
    refine .inr (.inl ⟨victim, before, after, Bool.not_eq_true _ ▸ hclosed, hpending, hvictim,
      ?_, ?_⟩)
    · rw [if_pos hany, herase]
      rfl
    · rw [hfind, Option.getD_some]
  -- nothing that is queued gives way
  · have hkept : ∀ queued ∈ s.pending, queued.displaceable = false := by
      intro queued hmem
      rw [← Bool.not_eq_true]
      exact fun hgives => hany (List.any_eq_true.mpr ⟨queued, hmem, hgives⟩)
    refine .inr (.inr ⟨fun _ _ => hkept, ?_, ?_⟩)
    · rw [if_neg hany]
    · rw [List.find?_eq_none.mpr fun queued hmem => Bool.not_eq_true _ ▸ hkept queued hmem,
        Option.getD_none]

theorem observe_of_not_recordable (s : AsyncEventRecorder calendar)
    (h : event.recordable = false) : s.observe event = s ∧ dropsFor s event = [] :=
  ⟨if_pos h, if_pos h⟩

/-! ### The invariant -/

/-- **What holds in every state of a run.** -/
structure Invariant (s : RecorderRun calendar) : Prop where
  /-- What was handed over and what is queued is in the order of observation. -/
  order : (s.handed ++ s.recorder.pending).Sublist s.observed
  recordable : ∀ event ∈ s.handed ++ s.recorder.pending, event.recordable = true
  /-- Where the events are. -/
  observed : (s.observed.filter Event.recordable).Perm
    (s.settled ++ s.recorder.task.inFlight ++ s.recorder.pending ++ s.drops.map (·.event))
  settled : s.settled.length = s.recorder.persisted + s.recorder.failures
  dropped : s.drops.length = s.recorder.dropped
  bounded : s.recorder.pending.length ≤ s.recorder.capacity
  retained : ∀ drop ∈ s.drops, drop.closed = false → drop.event.displaceable = false →
    ∀ queued ∈ drop.queued, queued.displaceable = false
  finished : s.recorder.task = .finished → s.recorder.closed = true ∧ s.recorder.pending = []
  closeReturned : s.closeReturned = true → s.recorder.closed = true ∧
    (s.recorder.task = .notStarted ∨ s.recorder.task = .finished)

theorem Invariant.start {capacity : ℕ} (hpos : 1 ≤ capacity) :
    Invariant ({ recorder := { capacity, capacity_pos := hpos } } : RecorderRun calendar) where
  order := List.Sublist.refl _
  recordable _ h := absurd h List.not_mem_nil
  observed := List.Perm.refl _
  settled := rfl
  dropped := rfl
  bounded := Nat.zero_le _
  retained _ h := absurd h List.not_mem_nil
  finished := nofun
  closeReturned := nofun

/-- An event is put into the queue, behind what is left of it. -/
theorem Invariant.observe (h : Invariant s) (event : Event calendar) : Invariant { s with
    recorder := s.recorder.observe event
    observed := s.observed ++ [event]
    drops := s.drops ++ dropsFor s.recorder event } := by
  have hsub := h.order
  have hrec := h.recordable
  rcases hrecordable : event.recordable
  · obtain ⟨hsame, hdrops⟩ := observe_of_not_recordable s.recorder hrecordable
    rw [hsame, hdrops, List.append_nil]
    exact { h with
      order := hsub.trans (List.sublist_append_left _ _)
      observed := by
        rw [List.filter_append, List.filter_cons_of_neg (by simp [hrecordable]), List.filter_nil,
          List.append_nil]
        exact h.observed }
  have hfilter : (s.observed ++ [event]).filter Event.recordable =
      s.observed.filter Event.recordable ++ [event] := by
    rw [List.filter_append, List.filter_cons_of_pos hrecordable, List.filter_nil]
  obtain ⟨hopen, hroom, hobserve, hdrops⟩ |
    ⟨victim, before, after, hopen, hpending, hvictim, hobserve, hdrops⟩ |
    ⟨hkept, hobserve, hdrops⟩ := observe_cases s.recorder hrecordable
  -- there is room
  · rw [hobserve, hdrops, List.append_nil, AsyncEventRecorder.enqueue]
    exact {
      order := by
        rw [← List.append_assoc]
        exact hsub.append (List.Sublist.refl [event])
      recordable := by
        intro e he
        rw [← List.append_assoc, List.mem_append, List.mem_singleton] at he
        obtain he | rfl := he
        · exact hrec e he
        · exact hrecordable
      observed := by
        classical
        refine List.perm_iff_count.mpr fun e => ?_
        have hcount := List.perm_iff_count.mp h.observed e
        simp only [hfilter, List.count_append] at hcount ⊢
        omega
      settled := h.settled
      dropped := h.dropped
      bounded := by
        rw [List.length_append]
        exact hroom
      retained := h.retained
      finished := fun htask => absurd ((h.finished htask).1.symm.trans hopen) (by decide)
      closeReturned := h.closeReturned }
  -- the event is queued in the place of the oldest one that gives way
  · rw [hobserve, hdrops]
    rw [hpending] at hsub hrec
    exact {
      order := by
        rw [← List.append_assoc]
        refine List.Sublist.append (List.Sublist.trans ?_ hsub) (List.Sublist.refl [event])
        exact (List.Sublist.refl _).append ((List.Sublist.refl before).append
          (List.sublist_cons_self victim after))
      recordable := by
        intro e he
        simp only [List.mem_append, List.mem_cons, List.not_mem_nil, or_false] at he hrec
        obtain he | (he | he) | rfl := he
        · exact hrec e (.inl he)
        · exact hrec e (.inr (.inl he))
        · exact hrec e (.inr (.inr (.inr he)))
        · exact hrecordable
      observed := by
        classical
        refine List.perm_iff_count.mpr fun e => ?_
        have hcount := List.perm_iff_count.mp h.observed e
        simp only [hfilter, hpending, List.count_append, List.count_cons, List.count_nil,
          List.map_append, List.map_cons, List.map_nil] at hcount ⊢
        omega
      settled := h.settled
      dropped := by rw [List.length_append, h.dropped, List.length_singleton]
      bounded := by
        have hbounded := h.bounded
        rw [hpending] at hbounded
        simp only [List.length_append, List.length_cons, List.length_nil] at hbounded ⊢
        omega
      retained := by
        intro drop hdrop
        rw [List.mem_append, List.mem_singleton] at hdrop
        obtain hdrop | rfl := hdrop
        · exact h.retained drop hdrop
        · exact fun _ hkeeps => absurd (hkeeps.symm.trans hvictim) (by decide)
      finished := fun htask => absurd ((h.finished htask).1.symm.trans hopen) (by decide)
      closeReturned := h.closeReturned }
  -- the event is dropped
  · rw [hobserve, hdrops]
    exact { h with
      order := hsub.trans (List.sublist_append_left _ _)
      observed := by
        classical
        refine List.perm_iff_count.mpr fun e => ?_
        have hcount := List.perm_iff_count.mp h.observed e
        simp only [hfilter, List.count_append, List.map_append, List.map_cons,
          List.map_nil] at hcount ⊢
        omega
      dropped := by rw [List.length_append, h.dropped, List.length_singleton]
      retained := by
        intro drop hdrop
        rw [List.mem_append, List.mem_singleton] at hdrop
        obtain hdrop | rfl := hdrop
        · exact h.retained drop hdrop
        · exact hkept }

/-- The loop takes the event at the head of the queue, or comes to its end. -/
theorem Invariant.turn (h : Invariant s) (hready : s.recorder.task = .ready) (accepted : Bool) :
    Invariant { s with
      recorder := s.recorder.turn accepted
      handed := s.handed ++ if accepted then s.recorder.pending.head?.toList else []
      settled := s.settled ++ if accepted then [] else s.recorder.pending.head?.toList } := by
  -- the task is not done, so that no call of `close` has returned
  have hopen : s.closeReturned = false := by
    rw [← Bool.not_eq_true]
    intro hreturned
    obtain ⟨-, htask | htask⟩ := h.closeReturned hreturned
    · exact nomatch hready.symm.trans htask
    · exact nomatch hready.symm.trans htask
  have hcloseReturned : ∀ {P : Prop}, s.closeReturned = true → P :=
    fun hreturned => absurd (hopen.symm.trans hreturned) Bool.false_ne_true
  have horder := h.order
  have hrec := h.recordable
  have hobserved := h.observed
  have hbounded := h.bounded
  have hsettled := h.settled
  rcases hpending : s.recorder.pending with _ | ⟨event, pending⟩
  -- the queue is empty: the task waits, or ends if the recorder is closed
  · rw [AsyncEventRecorder.turn, hpending, List.head?_nil, Option.toList_none, ite_self,
      List.append_nil, List.append_nil]
    dsimp only
    rw [hpending] at horder hrec hobserved hbounded
    rw [hready] at hobserved
    split_ifs with hclosed
    · exact { h with
        order := horder
        recordable := hrec
        observed := hobserved
        bounded := hbounded
        finished := fun _ => ⟨hclosed, rfl⟩
        closeReturned := hcloseReturned }
    · exact { h with
        order := horder
        recordable := hrec
        observed := hobserved
        bounded := hbounded
        finished := nofun
        closeReturned := hcloseReturned }
  · rw [hpending] at horder hrec hobserved hbounded
    rw [hready] at hobserved
    rw [AsyncEventRecorder.turn, hpending, List.head?_cons, Option.toList_some]
    dsimp only
    cases accepted with
    | true =>
      rw [if_pos rfl, if_pos rfl, if_pos rfl, List.append_nil]
      exact { h with
        order := by
          rw [List.append_assoc]
          exact horder
        recordable := by
          rw [List.append_assoc]
          exact hrec
        observed := by
          classical
          refine List.perm_iff_count.mpr fun e => ?_
          have hcount := List.perm_iff_count.mp hobserved e
          simp only [RecorderTask.inFlight, List.count_append, List.count_cons,
            List.count_nil] at hcount ⊢
          omega
        bounded := Nat.le_of_succ_le hbounded
        finished := nofun
        closeReturned := hcloseReturned }
    | false =>
      rw [if_neg Bool.false_ne_true, if_neg Bool.false_ne_true, if_neg Bool.false_ne_true,
        List.append_nil]
      exact { h with
        order := ((List.Sublist.refl _).append (List.sublist_cons_self event pending)).trans horder
        recordable := fun e he => hrec e
          ((List.mem_append.mp he).elim (List.mem_append_left _)
            fun he => List.mem_append_right _ (List.mem_cons_of_mem _ he))
        observed := by
          classical
          refine List.perm_iff_count.mpr fun e => ?_
          have hcount := List.perm_iff_count.mp hobserved e
          simp only [hready, RecorderTask.inFlight, List.count_append, List.count_cons,
            List.count_nil] at hcount ⊢
          omega
        settled := by
          rw [List.length_append, hsettled, List.length_singleton]
          rfl
        bounded := Nat.le_of_succ_le hbounded
        finished := fun htask => nomatch hready.symm.trans htask
        closeReturned := hcloseReturned }

/-- The event that the sink had is settled. -/
theorem Invariant.settle (h : Invariant s) (htask : s.recorder.task = .persisting event)
    (succeeded : Bool) : Invariant { s with
      recorder := s.recorder.settle succeeded
      settled := s.settled ++ [event] } := by
  have hobserved := h.observed
  rw [htask] at hobserved
  have hperm : (s.observed.filter Event.recordable).Perm ((s.settled ++ [event]) ++ [] ++
      s.recorder.pending ++ s.drops.map (·.event)) := by
    rw [List.append_nil]
    exact hobserved
  have hlength :
      (s.settled ++ [event]).length = s.recorder.persisted + s.recorder.failures + 1 := by
    rw [List.length_append, h.settled, List.length_singleton]
  have hopen : ∀ {P : Prop}, s.closeReturned = true → P := by
    intro P hreturned
    obtain ⟨-, hidle | hidle⟩ := h.closeReturned hreturned
    · exact nomatch htask.symm.trans hidle
    · exact nomatch htask.symm.trans hidle
  rw [AsyncEventRecorder.settle]
  split_ifs
  · exact { h with
      observed := hperm
      settled := by rw [hlength]; exact Nat.add_right_comm _ _ _
      finished := nofun
      closeReturned := hopen }
  · exact { h with
      observed := hperm
      settled := hlength
      finished := nofun
      closeReturned := hopen }

/-- **Every step keeps the invariant.** -/
theorem Invariant.next {step : RecorderStep calendar} (h : Invariant s)
    (hstep : (recorderMachine calendar).next s step = some t) : Invariant t := by
  cases step with
  | observe event =>
    obtain rfl := Option.some.inj hstep
    exact h.observe event
  | turn accepted =>
    dsimp only [recorderMachine] at hstep
    split at hstep
    · rename_i hready
      obtain rfl := Option.some.inj hstep
      exact h.turn hready accepted
    · exact nomatch hstep
  | settle succeeded =>
    dsimp only [recorderMachine] at hstep
    split at hstep
    · rename_i event htask
      obtain rfl := Option.some.inj hstep
      exact h.settle htask succeeded
    · exact nomatch hstep
  | start =>
    dsimp only [recorderMachine] at hstep
    rcases hstart : s.recorder.start with e | recorder
    · rw [hstart] at hstep
      exact nomatch hstep
    · rw [hstart] at hstep
      obtain rfl := Option.some.inj hstep
      rw [AsyncEventRecorder.start] at hstart
      split at hstart
      · rename_i htask
        split_ifs at hstart with hclosed
        obtain rfl := Except.ok.inj hstart
        have hobserved := h.observed
        rw [htask] at hobserved
        exact { h with
          observed := hobserved
          finished := nofun
          closeReturned := fun hreturned => absurd (h.closeReturned hreturned).1 hclosed }
      · exact nomatch hstart
  | close =>
    obtain rfl := Option.some.inj hstep
    rw [AsyncEventRecorder.close]
    split_ifs
    · exact h
    · exact { h with
        finished := fun htask => ⟨rfl, (h.finished htask).2⟩
        closeReturned := fun hreturned => ⟨rfl, (h.closeReturned hreturned).2⟩ }
  | closeReturns =>
    dsimp only [recorderMachine] at hstep
    split at hstep
    · rename_i htask
      split_ifs at hstep with hclosed
      obtain rfl := Option.some.inj hstep
      exact { h with closeReturned := fun _ => ⟨hclosed, .inl htask⟩ }
    · rename_i htask
      split_ifs at hstep with hclosed
      obtain rfl := Option.some.inj hstep
      exact { h with closeReturned := fun _ => ⟨hclosed, .inr htask⟩ }
    · exact nomatch hstep
  | wakeUp =>
    dsimp only [recorderMachine] at hstep
    split at hstep
    · rename_i htask
      split_ifs at hstep
      obtain rfl := Option.some.inj hstep
      have hobserved := h.observed
      rw [htask] at hobserved
      refine { h with
        observed := hobserved
        finished := nofun
        closeReturned := fun hreturned => ?_ }
      obtain ⟨-, hidle | hidle⟩ := h.closeReturned hreturned
      · exact nomatch htask.symm.trans hidle
      · exact nomatch htask.symm.trans hidle
    · exact nomatch hstep

theorem invariant_of_reachable (h : (recorderMachine calendar).Reachable s) : Invariant s := by
  refine h.invariant ?_ fun _ _ _ _ hs _ hnext => hs.next hnext
  rintro _ ⟨capacity, hpos, rfl⟩
  exact .start hpos

/-- **What a recorder promises**, of any state of a run. -/
structure Recorded (s : RecorderRun calendar) : Prop where
  /-- The sink gets the events in the order of observation, each once at most. -/
  order : s.handed.Sublist s.observed
  /-- Every event that may be persisted is somewhere, and in one place. -/
  places : (s.observed.filter Event.recordable).Perm (s.settled ++ s.recorder.task.inFlight ++
    s.recorder.pending ++ s.drops.map (·.event))
  /-- No event is lost count of. -/
  counts : (s.observed.filter Event.recordable).length = s.recorder.persisted +
    s.recorder.failures + s.recorder.dropped + s.recorder.queued + s.recorder.task.inFlight.length
  bounded : s.recorder.queued ≤ s.recorder.capacity
  /-- No partial transcript gets to the sink. -/
  recordable : ∀ event ∈ s.handed, event.recordable = true
  /-- The events that were dropped are those that are counted. -/
  dropped : s.drops.length = s.recorder.dropped
  /-- While the recorder is open, an event that is to be retained is dropped only if all that is
  queued is. -/
  retained : ∀ drop ∈ s.drops, drop.closed = false → drop.event.displaceable = false →
    ∀ queued ∈ drop.queued, queued.displaceable = false
  /-- When `close` has returned, nothing is left in the queue of a loop that was started. -/
  drained : s.closeReturned = true → s.recorder.task ≠ .notStarted → s.recorder.pending = []

/-- **The event recorder keeps its promises.** -/
theorem recorded_of_reachable (h : (recorderMachine calendar).Reachable s) : Recorded s where
  order := (List.sublist_append_left _ _).trans (invariant_of_reachable h).order
  places := (invariant_of_reachable h).observed
  counts := by
    have hlength := (invariant_of_reachable h).observed.length_eq
    have hsettled := (invariant_of_reachable h).settled
    have hdropped := (invariant_of_reachable h).dropped
    simp only [List.length_append, List.length_map] at hlength
    rw [AsyncEventRecorder.queued]
    omega
  bounded := (invariant_of_reachable h).bounded
  recordable event hevent :=
    (invariant_of_reachable h).recordable event (List.mem_append_left _ hevent)
  dropped := (invariant_of_reachable h).dropped
  retained := (invariant_of_reachable h).retained
  drained hreturned hstarted := by
    obtain ⟨-, hidle | hfinished⟩ := (invariant_of_reachable h).closeReturned hreturned
    · exact absurd hidle hstarted
    · exact ((invariant_of_reachable h).finished hfinished).2

/-- The remark at noon, as a trace. -/
def noonTrace : Event noonCalendar :=
  { noonRemark with body := { noonRemark.body with retention := .operationalTrace } }

/-- A recorder with room for two events. -/
def smallRun : RecorderRun noonCalendar :=
  { recorder := { capacity := 2, capacity_pos := Nat.two_pos } }

/-- A trace gives way to a remark, and the sink fails once. -/
def smallSteps : List (RecorderStep noonCalendar) :=
  [.observe noonTrace, .observe noonTrace, .observe noonRemark, .start, .close, .turn true,
    .settle true, .turn true, .settle false, .turn true, .closeReturns]

theorem recorded_smallRun :
    ∃ t, (recorderMachine noonCalendar).run smallRun smallSteps = some t ∧ Recorded t := by
  obtain ⟨t, ht⟩ := Option.isSome_iff_exists.mp
    (by decide +kernel : ((recorderMachine noonCalendar).run smallRun smallSteps).isSome = true)
  exact ⟨t, ht, recorded_of_reachable (Machine.reachable_of_run ⟨2, by decide, rfl⟩ ht)⟩

end RecorderRun

end Eeveetuber
