import Eeveetuber.Foundation.Ledger
import Eeveetuber.Runtime.Traffic

/-!
# Sequence numbers and acceptance

A session stamps an event when the call that brings it begins, and accepts it
when the put commits; in between the call may wait for capacity without bound.
The envelope's sequence is said to *order accepted events*, and
`Eeveetuber.Traffic.observed_out_of_order` shows that it does not: what is
stamped later may be accepted, observed and delivered earlier.

What the sequence does give is `Eeveetuber.Traffic.inOrder_observed`: along every
run in which no event is admitted while a call with an earlier stamp can still
be accepted or observed (`Eeveetuber.Traffic.InOrder`), the observer is notified
in the order of the stamps, and the outputs of one priority are delivered in it.

The argument is that of `Foundation.Ledger`: such a run keeps the calls in
single file. `Eeveetuber.Traffic.book` reads the books off a state, and
`Eeveetuber.Traffic.next_refines` shows that every step in order is made of steps
of the ledger.
-/

namespace Eeveetuber

open Foundation Machine

variable {β κ : Type}

/-- Whether an event was stamped before another. -/
def EventEnvelope.precedes (a b : EventEnvelope β) : Bool :=
  match a.sequence, b.sequence with
  | some m, some n => decide (m < n)
  | _, _ => false

/-- Whether an event was stamped before the sequence reached `n`. -/
def EventEnvelope.StampedBefore (e : EventEnvelope β) (n : ℕ) : Prop :=
  ∃ m, e.sequence = some m ∧ m < n

/-- Whether an event was stamped while the sequence went from `m` to `n`. -/
def EventEnvelope.StampedIn (m n : ℕ) (e : EventEnvelope β) : Prop :=
  ∃ k, e.sequence = some k ∧ m ≤ k ∧ k < n

theorem EventEnvelope.StampedBefore.mono {e : EventEnvelope β} {m n : ℕ} (h : e.StampedBefore m)
    (hmn : m ≤ n) : e.StampedBefore n := by
  obtain ⟨k, hk, hlt⟩ := h
  exact ⟨k, hk, lt_of_lt_of_le hlt hmn⟩

theorem EventEnvelope.StampedBefore.precedes {a b : EventEnvelope β} {n : ℕ}
    (ha : a.StampedBefore n) (hb : b.sequence = some n) : a.precedes b = true := by
  obtain ⟨m, hm, hlt⟩ := ha
  simp [EventEnvelope.precedes, hm, hb, hlt]

theorem EventEnvelope.precedes_self (e : EventEnvelope β) : e.precedes e = false := by
  cases hs : e.sequence <;> simp [EventEnvelope.precedes, hs]

namespace Traffic

/-! ### The books of a session -/

/-- The event of a call that may still be, or is, accepted and has not been
observed, with whether it is accepted already. -/
def ticket (source : CancellationSource) (c : Call β) : Option (EventEnvelope β × Bool) :=
  match c.phase with
  | .waiting => if source.accepts c.generation then some (c.event, false) else none
  | .settling r => if accepted r then some (c.event, true) else none
  | .returned _ | .refused | .abandoned => none

/-- The events in progress, in the order of their calls. -/
def pending (s : Traffic β κ) (source : CancellationSource) : List (EventEnvelope β × Bool) :=
  s.calls.filterMap (ticket source)

/-- The books of a session. -/
def book (s : Traffic β κ) : Ledger (EventEnvelope β) where
  pending := s.pending s.actor.cancellation
  queue := s.actor.outbox.items.map (·.item)
  observed := s.actor.observed
  delivered := s.delivered

section Order

variable [DecidableEq κ]

/-- The message that a submission would get admitted to the inbox. -/
def offersMessage (a : SessionActor β κ) (e : EventEnvelope β) (g : CancellationGeneration)
    (allowPriorityDisplacement : Bool) : Option (EventEnvelope β) :=
  match a.stamp e with
  | .error _ => none
  | .ok (_, stamped) =>
    if a.lifecycle = .running ∧
        a.inbox.admits ⟨stamped, ⟨g⟩⟩ stamped.priority allowPriorityDisplacement then
      some stamped
    else none

/-- The event that a publication would get admitted to the outbox. -/
def offersOutput (a : SessionActor β κ) (e : EventEnvelope β) (g : CancellationGeneration) :
    Option (EventEnvelope β) :=
  match a.stamp e with
  | .error _ => none
  | .ok (_, stamped) =>
    if a.cancellation.accepts g ∧ a.outbox.admits stamped stamped.priority true then some stamped
    else none

/-- The event that another attempt of a call would get admitted. -/
def offersAgain (a : SessionActor β κ) (c : Call β) : Option (EventEnvelope β) :=
  let admits : Bool := match c.kind with
    | .submission => a.inbox.admits ⟨c.event, ⟨c.generation⟩⟩ c.event.priority false
    | .publication => a.outbox.admits c.event c.event.priority true
  if a.cancellation.accepts c.generation ∧ admits then some c.event else none

/-- The event that a step would get admitted now, with the source of generations as
it is at that moment. -/
def offers (s : Traffic β κ) : Label β → Option (EventEnvelope β × CancellationSource)
  | .submit e =>
    (offersMessage s.actor e s.actor.cancellation.generation true).map (·, s.actor.cancellation)
  | .submitWait e =>
    (offersMessage s.actor e s.actor.cancellation.generation false).map (·, s.actor.cancellation)
  | .submitForegroundTurn e reason => match s.actor.cancellation.advance reason with
    | .ok (source, token) => (offersMessage s.actor e token.generation true).map (·, source)
    | .error _ => none
  | .submitForegroundTurnWait e reason => match s.actor.cancellation.advance reason with
    | .ok (source, token) => (offersMessage s.actor e token.generation false).map (·, source)
    | .error _ => none
  | .publishResult e g => (offersOutput s.actor e g).map (·, s.actor.cancellation)
  | .attempt i => (s.calls[i]?).bind fun c =>
    (offersAgain s.actor c).map (·, s.actor.cancellation)
  | _ => none

/-- **The condition**: no event is admitted while a call with an earlier stamp may
still be accepted or observed. -/
def InOrder (s : Traffic β κ) (l : Label β) : Prop :=
  ∀ o ∈ s.offers l, ∀ p ∈ s.pending o.2, p.1.precedes o.1 = false

instance (s : Traffic β κ) (l : Label β) : Decidable (s.InOrder l) :=
  inferInstanceAs (Decidable (∀ o ∈ s.offers l, ∀ p ∈ s.pending o.2, p.1.precedes o.1 = false))

end Order

/-! ### The invariant -/

/-- The order in which events are stamped, as the ledger's order. -/
abbrev Earlier (a b : EventEnvelope β) : Prop := a.precedes b = true

/-- The entries of an outbox stand in the order they came in, under the priorities
of their events. -/
structure OrderedQueue (m : PriorityMailbox (EventEnvelope β) κ) : Prop where
  priority : ∀ x ∈ m.items, x.priority = x.item.priority
  order_lt : ∀ x ∈ m.items, x.order < m.nextOrder
  pairwise : m.items.Pairwise fun x y => x.order < y.order

/-- The generations of waiting calls have been issued. -/
def Issued (s : Traffic β κ) : Prop :=
  ∀ c ∈ s.calls, c.phase = .waiting → c.generation ≤ s.actor.cancellation.generation

/-- The steps of the ledger in which the sequence goes from `m` to `n`. -/
abbrev BookStep (m n : ℕ) : Ledger (EventEnvelope β) → Ledger (EventEnvelope β) → Prop :=
  Ledger.Step Earlier EventEnvelope.priority (EventEnvelope.StampedIn m n)

/-- **The invariant of the runs in order.** -/
structure Booked (s : Traffic β κ) : Prop where
  wellFormed : s.actor.WellFormed
  queue : OrderedQueue s.actor.outbox
  issued : s.Issued
  stamps : ∀ e ∈ (book s).entries, e.StampedBefore s.actor.sequence
  sound : (book s).Sound Earlier EventEnvelope.priority

/-- **What a step in order is**: steps of the ledger which issue no event but those
stamped in it. -/
structure Refines (s t : Traffic β κ) : Prop where
  wellFormed : t.actor.WellFormed
  queue : OrderedQueue t.actor.outbox
  issued : t.Issued
  sequence : s.actor.sequence ≤ t.actor.sequence
  steps : Ledger.Steps Earlier EventEnvelope.priority
    (EventEnvelope.StampedIn s.actor.sequence t.actor.sequence) (book s) (book t)

theorem Booked.of_refines {s t : Traffic β κ} (h : s.Booked) (hst : s.Refines t) : t.Booked where
  wellFormed := hst.wellFormed
  queue := hst.queue
  issued := hst.issued
  stamps e he := by
    rcases hst.steps.entries e he with he | ⟨n, hn, -, hlt⟩
    · exact (h.stamps e he).mono hst.sequence
    · exact ⟨n, hn, hlt⟩
  sound := h.sound.steps hst.steps

theorem Refines.trans {s t u : Traffic β κ} (hst : s.Refines t) (htu : t.Refines u) :
    s.Refines u where
  wellFormed := htu.wellFormed
  queue := htu.queue
  issued := htu.issued
  sequence := hst.sequence.trans htu.sequence
  steps := by
    refine Relation.ReflTransGen.trans (hst.steps.mono ?_) (htu.steps.mono ?_)
    · rintro e ⟨n, hn, hle, hlt⟩
      exact ⟨n, hn, hle, lt_of_lt_of_le hlt htu.sequence⟩
    · rintro e ⟨n, hn, hle, hlt⟩
      exact ⟨n, hn, hst.sequence.trans hle, hlt⟩

/-! ### The pending events -/

section Pending

variable {source source' : CancellationSource} {c c' : Call β} {calls : List (Call β)}

/-- What a later source accepts of the calls of a session, the earlier one did. -/
theorem ticket_of_narrows (h : source.Narrows source')
    (hc : c.phase = .waiting → c.generation ≤ source.generation) :
    ticket source' c = none ∨ ticket source' c = ticket source c := by
  unfold ticket
  cases hp : c.phase with
  | waiting =>
    dsimp only
    cases hacc : source'.accepts c.generation with
    | false => exact Or.inl rfl
    | true => exact Or.inr (by rw [h.accepts _ (hc hp) hacc])
  | settling | returned | refused | abandoned => exact Or.inr rfl

theorem filterMap_ticket_sublist (h : source.Narrows source')
    (hc : ∀ c ∈ calls, c.phase = .waiting → c.generation ≤ source.generation) :
    (calls.filterMap (ticket source')).Sublist (calls.filterMap (ticket source)) := by
  induction calls with
  | nil => exact .slnil
  | cons c calls ih =>
    have ih := ih fun d hd => hc d (List.mem_cons_of_mem _ hd)
    rw [List.filterMap_cons, List.filterMap_cons]
    rcases ticket_of_narrows h (hc c List.mem_cons_self) with hn | he
    · rw [hn]
      cases ticket source c with
      | none => exact ih
      | some p => exact ih.cons p
    · rw [he]
      cases ticket source c with
      | none => exact ih
      | some p => exact ih.cons_cons p

/-- A call that moves on: the pending events with its own in its place. -/
theorem exists_pending_split {s : Traffic β κ} {i : ℕ} (hc : s.calls[i]? = some c) :
    ∃ l₁ l₂ : List (Call β), ∀ source, s.pending source = l₁.filterMap (ticket source) ++
        ((ticket source c).toList ++ l₂.filterMap (ticket source)) ∧
      ∀ c', (s.calls.set i c').filterMap (ticket source) = l₁.filterMap (ticket source) ++
        ((ticket source c').toList ++ l₂.filterMap (ticket source)) := by
  obtain ⟨l₁, l₂, hl, hset⟩ := exists_split hc
  have hsplit : ∀ source (d : Call β), (l₁ ++ d :: l₂).filterMap (ticket source) =
      l₁.filterMap (ticket source) ++
        ((ticket source d).toList ++ l₂.filterMap (ticket source)) := fun source d => by
    rw [List.filterMap_append, List.filterMap_cons]
    cases ticket source d <;> rfl
  refine ⟨l₁, l₂, fun source => ⟨by rw [pending, hl, hsplit], fun c' => by rw [hset, hsplit]⟩⟩

end Pending

/-! ### Steps that put nothing -/

section Quiet

variable {s t : Traffic β κ}

theorem OrderedQueue.of_sameQueue {m m' : PriorityMailbox (EventEnvelope β) κ}
    (h : OrderedQueue m) (hs : m.SameQueue m') : OrderedQueue m' := by
  refine ⟨?_, ?_, ?_⟩
  · rw [hs.items]; exact h.priority
  · rw [hs.items, hs.nextOrder]; exact h.order_lt
  · rw [hs.items]; exact h.pairwise

/-- The actor takes a step by itself. -/
theorem refines_quiet {a : SessionActor β κ} (h : s.Booked) (ha : s.actor.Quiet a) :
    s.Refines { s with actor := a } where
  wellFormed := ha.wellFormed h.wellFormed
  queue := h.queue.of_sameQueue ha.outbox
  issued c hc hw := (h.issued c hc hw).trans ha.cancellation.generation
  sequence := ha.sequence.symm.le
  steps := by
    refine .single ?_
    have hp := filterMap_ticket_sublist ha.cancellation h.issued
    have hstep : BookStep s.actor.sequence a.sequence (book s)
        { book s with pending := s.calls.filterMap (ticket a.cancellation) } :=
      .withdraw hp (List.Sublist.refl _)
    simpa only [book, pending, ha.outbox.items, ha.observed] using hstep

/-- A call moves on without an acceptance of its event. -/
theorem refines_withdrawn {a : SessionActor β κ} {c c' : Call β} {i : ℕ} (h : s.Booked)
    (hc : s.calls[i]? = some c) (hc' : c'.phase ≠ .waiting)
    (hticket : ∀ source, ticket source c' = none) (ha : s.actor.Quiet a) :
    s.Refines { s with actor := a, calls := s.calls.set i c' } := by
  have hmid : s.Refines { s with calls := s.calls.set i c' } := by
    refine ⟨h.wellFormed, h.queue, fun d hd hw => ?_, le_refl _, .single ?_⟩
    · rcases List.mem_or_eq_of_mem_set hd with hd | rfl
      · exact h.issued d hd hw
      · exact absurd hw hc'
    · obtain ⟨l₁, l₂, hsplit⟩ := exists_pending_split hc
      obtain ⟨hs, hset⟩ := hsplit s.actor.cancellation
      refine Ledger.Step.withdraw (L := book s) ?_ (List.Sublist.refl _)
      change List.Sublist _ (s.pending s.actor.cancellation)
      rw [pending, hset, hs, hticket]
      exact (List.sublist_append_right _ _).append_left _
  exact hmid.trans (refines_quiet (h.of_refines hmid) ha)

end Quiet

/-! ### Stamping, admitting, observing, delivering -/

section Steps

variable {s t : Traffic β κ} {c : Call β} {i : ℕ} {e stamped : EventEnvelope β}
  {g : CancellationGeneration} {l : Label β}

/-- The state in which a call has stamped its event and not yet tried to put it. -/
def stampedCall (s : Traffic β κ) (c : Call β) : Traffic β κ :=
  { s with actor := s.actor.stampedActor, calls := s.calls ++ [c] }

theorem refines_stampedCall (kind : CallKind) (h : s.Booked)
    (hs : s.actor.stamp e = .ok (s.actor.stampedActor, stamped))
    (hacc : s.actor.cancellation.accepts g = true) :
    s.Refines (s.stampedCall ⟨kind, g, stamped, .waiting⟩) where
  wellFormed := h.wellFormed.stampedActor
  queue := h.queue
  issued d hd hw := by
    rcases List.mem_append.mp hd with hd | hd
    · exact h.issued d hd hw
    · obtain rfl := List.mem_singleton.mp hd
      exact le_of_eq (CancellationSource.accepts_iff.mp hacc).2.1
  sequence := Nat.le_succ _
  steps := by
    obtain ⟨-, hseq, -, -⟩ := SessionActor.stamp_eq_ok hs
    refine .single ?_
    have hstep : BookStep s.actor.sequence (s.actor.sequence + 1) (book s)
        { book s with pending := s.pending s.actor.cancellation ++ [(stamped, false)] } :=
      .issue ⟨_, hseq, le_refl _, Nat.lt_succ_self _⟩ fun x hx => (h.stamps x hx).precedes hseq
    have hp : (s.calls ++ [(⟨kind, g, stamped, .waiting⟩ : Call β)]).filterMap
        (ticket s.actor.cancellation) = s.pending s.actor.cancellation ++ [(stamped, false)] := by
      simp [pending, ticket, hacc]
    simpa only [book, stampedCall, SessionActor.stampedActor, pending, hp] using hstep

theorem OrderedQueue.appended {m m' : PriorityMailbox (EventEnvelope β) κ} (h : OrderedQueue m)
    (happ : m.Appended e e.priority m') :
    OrderedQueue m' ∧ ∃ kept : List (Entry (EventEnvelope β)),
      (kept.map (·.item)).Sublist (m.items.map (·.item)) ∧
      m'.items.map (·.item) = kept.map (·.item) ++ [e] := by
  obtain ⟨kept, hitems, hkept⟩ := happ.items
  have hsub : kept.Sublist m.items := by
    rcases hkept with rfl | ⟨-, dropped, hlow, -⟩
    · exact List.Sublist.refl _
    · obtain ⟨l₁, l₂, hl, rfl, -⟩ := PriorityMailbox.lowest_eq_some hlow
      rw [hl]
      exact (List.sublist_cons_self _ _).append_left _
  refine ⟨⟨?_, ?_, ?_⟩, kept, hsub.map _, by simp [hitems]⟩
  · intro x hx
    rw [hitems] at hx
    rcases List.mem_append.mp hx with hx | hx
    · exact h.priority x (hsub.subset hx)
    · obtain rfl := List.mem_singleton.mp hx
      rfl
  · intro x hx
    rw [hitems] at hx
    rw [happ.nextOrder]
    rcases List.mem_append.mp hx with hx | hx
    · exact Nat.lt_succ_of_lt (h.order_lt x (hsub.subset hx))
    · obtain rfl := List.mem_singleton.mp hx
      exact Nat.lt_succ_self _
  · rw [hitems]
    refine List.pairwise_append.mpr ⟨h.pairwise.sublist hsub, List.pairwise_singleton _ _, ?_⟩
    intro x hx y hy
    obtain rfl := List.mem_singleton.mp hy
    exact h.order_lt x (hsub.subset hx)

/-- A waiting call that is admitted in its turn is the first of those pending. -/
theorem pending_of_first (h : s.Booked) (hc : s.calls[i]? = some c) (hw : c.phase = .waiting)
    (hacc : s.actor.cancellation.accepts c.generation = true)
    (hfirst : ∀ p ∈ s.pending s.actor.cancellation, p.1.precedes c.event = false) :
    ∃ rest, s.pending s.actor.cancellation = (c.event, false) :: rest ∧
      ∀ r, accepted r = true →
        (s.calls.set i { c with phase := .settling r }).filterMap (ticket s.actor.cancellation) =
          (c.event, true) :: rest := by
  obtain ⟨l₁, l₂, hsplit⟩ := exists_pending_split hc
  obtain ⟨hs, hset⟩ := hsplit s.actor.cancellation
  have hticket : ticket s.actor.cancellation c = some (c.event, false) := by
    simp [ticket, hw, hacc]
  rw [hticket] at hs
  have hnil := h.sound.eq_nil_of_first hs fun q hq => by
    have := hfirst q hq
    simpa [Earlier] using this
  rw [hnil] at hs hset
  refine ⟨_, hs, fun r hr => ?_⟩
  rw [hset]
  simp [ticket, hr]

theorem issued_set (c' : Call β) (h : s.Issued) (hc' : c'.phase ≠ .waiting) :
    ∀ d ∈ s.calls.set i c', d.phase = .waiting →
      d.generation ≤ s.actor.cancellation.generation := by
  intro d hd hw
  rcases List.mem_or_eq_of_mem_set hd with hd | rfl
  · exact h d hd hw
  · exact absurd hw hc'

theorem refines_attempt [DecidableEq κ] (h : s.Booked) (hok : s.InOrder (.attempt i))
    (hn : s.next (.attempt i) = some t) : s.Refines t := by
  obtain ⟨c, a, c', hc, hatt, rfl⟩ := resume_eq_some.mp hn
  obtain ⟨hw, rfl, hc'⟩ := attempting_eq_some hatt
  have hput := SessionActor.tryPut_attempted (c := c) h.wellFormed
  have hwf := hput.wellFormed h.wellFormed
  generalize hp : s.actor.tryPut c = p at hput hc' hwf ⊢
  obtain ⟨a, r⟩ := p
  dsimp only at hput hc' hwf ⊢
  cases hput with
  | @refused inbox outbox r hi ho _ _ hacc _ =>
    have hquiet : s.actor.Quiet { s.actor with inbox := inbox, outbox := outbox } :=
      ⟨hi.config, ho, .refl _, rfl, rfl⟩
    rcases hc' with ⟨-, rfl⟩ | ⟨x, hx, rfl⟩
    · obtain ⟨l₁, l₂, hl, hset⟩ := exists_split hc
      rw [hset c', ← hl]
      exact refines_quiet h hquiet
    · exact refines_withdrawn h hc (by simp) (fun source => by simp [ticket, hacc x hx]) hquiet
  | @message inbox x hk hacc hx hadmits hcfg hclosed _ =>
    rcases hc' with ⟨hnone, -⟩ | ⟨r, hr, rfl⟩
    · cases hnone
    · cases hr
      have hoffer : s.offers (.attempt i) = some (c.event, s.actor.cancellation) := by
        simp [offers, hc, offersAgain, hk, hacc, hadmits]
      obtain ⟨rest, hpending, hset⟩ := pending_of_first h hc hw hacc (hok _ hoffer)
      refine ⟨hwf, h.queue, issued_set _ h.issued (by simp), le_refl _, .single ?_⟩
      have hstep : BookStep s.actor.sequence s.actor.sequence (book s)
          { book s with pending := (c.event, true) :: rest } := .accept hpending
      simpa only [book, pending, hset x hx] using hstep
  | @output outbox x hk hacc hx hadmits hclosed happ =>
    rcases hc' with ⟨hnone, -⟩ | ⟨r, hr, rfl⟩
    · cases hnone
    · cases hr
      have hoffer : s.offers (.attempt i) = some (c.event, s.actor.cancellation) := by
        simp [offers, hc, offersAgain, hk, hacc, hadmits]
      obtain ⟨rest, hpending, hset⟩ := pending_of_first h hc hw hacc (hok _ hoffer)
      obtain ⟨hqueue, kept, hsub, hitems⟩ := h.queue.appended happ
      refine ⟨hwf, hqueue, issued_set _ h.issued (by simp), le_refl _, ?_⟩
      -- the displaced output is lost first
      have hlost : BookStep s.actor.sequence s.actor.sequence (book s)
          { book s with queue := kept.map (·.item) } := .withdraw (List.Sublist.refl _) hsub
      have hstep : BookStep s.actor.sequence s.actor.sequence
          { book s with queue := kept.map (·.item) }
          { book s with
            pending := (c.event, true) :: rest
            queue := kept.map (·.item) ++ [c.event] } := .enqueue hpending
      refine Relation.ReflTransGen.tail (.single hlost) ?_
      simpa only [book, pending, hset x hx, hitems] using hstep

theorem observeEvent_observed (a : SessionActor β κ) (e : EventEnvelope β) :
    (a.observeEvent e).observed = a.observed ∨
      (a.observeEvent e).observed = a.observed ++ [e] := by
  unfold SessionActor.observeEvent
  split
  · exact Or.inl rfl
  · exact Or.inr rfl

theorem refines_settle [DecidableEq κ] (h : s.Booked) (hn : s.next (.settle i) = some t) :
    s.Refines t := by
  obtain ⟨c, a, c', hc, hsettle, rfl⟩ := resume_eq_some.mp hn
  obtain ⟨r, hr, hac⟩ := settling_eq_some hsettle
  cases hacc : accepted r with
  | false =>
    -- a refused event is withdrawn: no part of the ledger but the pending one changes
    obtain ⟨n, hn⟩ := SessionActor.settle_of_not_accepted (a := s.actor) (c := c) hacc
    rw [hn] at hac
    cases hac
    exact refines_withdrawn h hc (by simp) (fun _ => rfl)
      ⟨rfl, ⟨rfl, rfl, rfl⟩, .refl _, rfl, rfl⟩
  | true =>
    rw [SessionActor.settle_of_accepted hacc] at hac
    cases hac
    obtain ⟨l₁, l₂, hsplit⟩ := exists_pending_split hc
    obtain ⟨hs, hset⟩ := hsplit s.actor.cancellation
    have hticket : ticket s.actor.cancellation c = some (c.event, true) := by
      simp [ticket, hr, hacc]
    rw [hticket] at hs
    -- what is admitted first is the first of what is pending
    have hnil := h.sound.eq_nil_of_admitted hs
    rw [hnil] at hs hset
    have hrest : (s.calls.set i { c with phase := .returned r }).filterMap
        (ticket s.actor.cancellation) = l₂.filterMap (ticket s.actor.cancellation) :=
      hset { c with phase := .returned r }
    refine ⟨h.wellFormed.observeEvent _, ?_, ?_, ?_, .single ?_⟩
    · rw [SessionActor.observeEvent_outbox]
      exact h.queue
    · have := issued_set (i := i) { c with phase := .returned r } h.issued (by simp)
      intro d hd hw
      rw [SessionActor.observeEvent_cancellation]
      exact this d hd hw
    · rw [SessionActor.observeEvent_sequence]
    · simp only [book, pending, SessionActor.observeEvent_outbox,
        SessionActor.observeEvent_cancellation, hrest]
      -- the observer has the event, or there is none and it is only withdrawn
      rcases observeEvent_observed s.actor c.event with ho | ho
      · have hstep : BookStep s.actor.sequence (s.actor.observeEvent c.event).sequence (book s)
            { book s with pending := l₂.filterMap (ticket s.actor.cancellation) } :=
          .withdraw (by rw [book, hs]; exact List.sublist_append_right _ _) (List.Sublist.refl _)
        simpa only [book, pending, ho] using hstep
      · have hstep : BookStep s.actor.sequence (s.actor.observeEvent c.event).sequence (book s)
            { book s with
              pending := l₂.filterMap (ticket s.actor.cancellation)
              observed := s.actor.observed ++ [c.event] } := .observe hs
        simpa only [book, pending, ho] using hstep

theorem refines_receiveOutput [DecidableEq κ] (h : s.Booked)
    (hn : s.next .receiveOutput = some t) : s.Refines t := by
  simp only [next, Option.map_eq_some_iff, Prod.exists] at hn
  obtain ⟨outbox, x, hget, rfl⟩ := hn
  obtain ⟨l₁, l₂, hitems, hrest, hcfg, -, hnext, -, -, hfirst⟩ :=
    PriorityMailbox.get_eq_some hget
  have hsub : outbox.items.Sublist s.actor.outbox.items := by
    rw [hitems, hrest]
    exact (List.sublist_cons_self _ _).append_left _
  refine ⟨h.wellFormed.congr rfl hcfg, ⟨?_, ?_, ?_⟩, h.issued, le_refl _, .single ?_⟩
  · exact fun y hy => h.queue.priority y (hsub.subset hy)
  · intro y hy
    rw [hnext]
    exact h.queue.order_lt y (hsub.subset hy)
  · exact h.queue.pairwise.sublist hsub
  · have hpair := h.queue.pairwise
    rw [hitems, List.pairwise_append] at hpair
    have hprio : ∀ y ∈ s.actor.outbox.items, y.priority = y.item.priority := h.queue.priority
    have hstep : BookStep s.actor.sequence s.actor.sequence (book s)
        { book s with
          queue := l₁.map (·.item) ++ l₂.map (·.item)
          delivered := s.delivered ++ [x.item] } :=
      .deliver (by simp [book, hitems]) (fun y hy => by
        -- an entry of the same class before the one taken would be older than it
        obtain ⟨z, hz, rfl⟩ := List.mem_map.mp hy
        intro hc
        rw [← hprio z (by simp [hitems, hz]), ← hprio x (by simp [hitems])] at hc
        exact absurd (hpair.2.2 z hz x (by simp)) (Nat.lt_asymm (hfirst z hz hc)))
    simpa only [book, pending, hrest, List.map_append] using hstep

/-! ### Calls and submissions as they begin -/

theorem pending_stampedCall (kind : CallKind)
    (hacc : s.actor.cancellation.accepts g = true) :
    (s.stampedCall ⟨kind, g, stamped, .waiting⟩).pending s.actor.cancellation =
      s.pending s.actor.cancellation ++ [(stamped, false)] := by
  simp [pending, stampedCall, ticket, hacc]

theorem eq_of_mem_offersAgain [DecidableEq κ] {a : SessionActor β κ}
    (h : e ∈ offersAgain a c) : e = c.event := by
  simp only [offersAgain, Option.mem_def, Option.ite_none_right_eq_some, Option.some.injEq] at h
  exact h.2.symm

/-- A call that begins stamps its event, and then tries and settles like any other. -/
theorem refines_begin [DecidableEq κ] {kind : CallKind} (h : s.Booked)
    (hs : s.actor.stamp e = .ok (s.actor.stampedActor, stamped))
    (hacc : s.actor.cancellation.accepts g = true)
    (hok : ∀ o ∈ offersAgain s.actor ⟨kind, g, stamped, .waiting⟩,
      ∀ p ∈ s.pending s.actor.cancellation, p.1.precedes o = false) :
    s.Refines (s.begin
      ((s.actor.stampedActor.firstAttempt ⟨kind, g, stamped, .waiting⟩).1,
        .ok (s.actor.stampedActor.firstAttempt ⟨kind, g, stamped, .waiting⟩).2)) := by
  have hstamp := refines_stampedCall kind h hs hacc
  have h₁ := h.of_refines hstamp
  set c : Call β := ⟨kind, g, stamped, .waiting⟩ with hcdef
  set s₁ := s.stampedCall c with hs₁
  have hc : s₁.calls[s.calls.length]? = some c := by simp [hs₁, stampedCall]
  have hset : ∀ d, s₁.calls.set s.calls.length d = s.calls ++ [d] := fun d => by
    simp [hs₁, stampedCall]
  -- the attempt
  have hok₁ : s₁.InOrder (.attempt s.calls.length) := by
    intro o ho p hp
    simp only [offers, hc, Option.bind_some] at ho
    obtain ⟨o', ho', rfl⟩ := Option.mem_map.mp ho
    have ho'' : o' ∈ offersAgain s.actor c := ho'
    have hp' : p ∈ s.pending s.actor.cancellation ++ [(stamped, false)] := by
      rw [← pending_stampedCall kind hacc]
      exact hp
    rcases List.mem_append.mp hp' with hp' | hp'
    · exact hok o' ho'' p hp'
    · obtain rfl := List.mem_singleton.mp hp'
      rw [show o' = stamped from eq_of_mem_offersAgain ho'']
      exact EventEnvelope.precedes_self _
  have hn : s₁.next (.attempt s.calls.length) = some
      { s₁ with
        actor := (s₁.actor.attempt c).1
        calls := s.calls ++ [(s₁.actor.attempt c).2] } :=
    resume_eq_some.mpr ⟨c, (s₁.actor.attempt c).1, (s₁.actor.attempt c).2, hc, rfl, by rw [hset]⟩
  have hatt := refines_attempt h₁ hok₁ hn
  rw [SessionActor.attempt_eq] at hatt
  have hfirst := SessionActor.firstAttempt_eq (a := s.actor.stampedActor) (c := c) rfl
  rw [hfirst]
  cases hr : (s.actor.stampedActor.tryPut c).2 with
  | none =>
    have hr₁ : (s₁.actor.tryPut c).2 = none := hr
    rw [hr₁] at hatt
    exact hstamp.trans hatt
  | some r =>
    -- a call that is decided at once settles at once
    have hr₁ : (s₁.actor.tryPut c).2 = some r := hr
    rw [hr₁] at hatt
    have h₂ := h₁.of_refines hatt
    refine hstamp.trans (hatt.trans (refines_settle (i := s.calls.length) h₂ ?_))
    refine resume_eq_some.mpr ⟨{ c with phase := .settling r }, _, _, by simp, rfl, ?_⟩
    simp only [List.set_append_right, le_refl, Nat.sub_self, List.set_cons_zero]
    rfl

/-- An immediate submission that is admitted finds nothing pending. -/
theorem refines_submitWithToken [DecidableEq κ] {token : CancellationToken} (h : s.Booked)
    (hrun : s.actor.lifecycle = .running)
    (hok : ∀ o ∈ offersMessage s.actor e token.generation true,
      ∀ p ∈ s.pending s.actor.cancellation, p.1.precedes o = false) :
    s.Refines { s with actor := (s.actor.submitWithToken e token).1 } := by
  have hwf := SessionActor.submitWithToken_wellFormed h.wellFormed e token
  have hsub := SessionActor.submitWithToken_submitted h.wellFormed e token
  generalize s.actor.submitWithToken e token = p at hsub hwf ⊢
  cases hsub with
  | foreign => exact refines_quiet h (.refl _)
  | refused => exact ⟨hwf, h.queue, h.issued, Nat.le_succ _, .refl⟩
  | @admitted stamped inbox report hs hadmits hcfg hclosed _ hacc =>
    obtain ⟨-, hseq, -, -⟩ := SessionActor.stamp_eq_ok hs
    have hoffer : offersMessage s.actor e token.generation true = some stamped := by
      rw [offersMessage, hs]
      exact if_pos ⟨hrun, hadmits⟩
    -- nothing is pending, for all of it would have to come before
    have hnil : s.pending s.actor.cancellation = [] := by
      refine List.eq_nil_iff_forall_not_mem.mpr fun p hp => ?_
      have hlate := (h.stamps p.1 (Ledger.mem_entries.mpr (Or.inl ⟨p, hp, rfl⟩))).precedes hseq
      rw [hok stamped hoffer p hp] at hlate
      cases hlate
    refine ⟨hwf, ?_, ?_, ?_, ?_⟩
    · rw [SessionActor.observeEvent_outbox]
      exact h.queue
    · intro d hd hw
      rw [SessionActor.observeEvent_cancellation]
      exact h.issued d hd hw
    · rw [SessionActor.observeEvent_sequence]
      exact Nat.le_succ _
    · have hbook : ∀ a : SessionActor β κ, a.cancellation = s.actor.cancellation →
          a.outbox = s.actor.outbox →
          book { s with actor := a } = { book s with observed := a.observed } :=
        fun a hc ho => by simp only [book, hc, ho, pending]
      set a : SessionActor β κ := { s.actor.stampedActor with inbox := inbox }
      change Ledger.Steps Earlier EventEnvelope.priority
        (EventEnvelope.StampedIn s.actor.sequence (a.observeEvent stamped).sequence) (book s)
        (book { s with actor := a.observeEvent stamped })
      rw [hbook _ (SessionActor.observeEvent_cancellation a stamped)
        (SessionActor.observeEvent_outbox a stamped), SessionActor.observeEvent_sequence]
      rcases observeEvent_observed a stamped with ho | ho
      · rw [ho]
        exact .refl
      · rw [ho]
        exact .at_once hnil ⟨_, hseq, le_refl _, Nat.lt_succ_self _⟩
          fun x hx => (h.stamps x hx).precedes hseq

theorem offersMessage_source [DecidableEq κ] (a : SessionActor β κ) (source : CancellationSource)
    (allow : Bool) :
    offersMessage { a with cancellation := source } e g allow = offersMessage a e g allow := by
  unfold offersMessage SessionActor.stamp
  dsimp only
  cases e.forSession a.sessionId <;> rfl

/-- The next generation starts. -/
theorem refines_advance {source : CancellationSource} {token : CancellationToken} {reason : Text}
    (h : s.Booked) (hadv : s.actor.cancellation.advance reason = .ok (source, token)) :
    s.Refines { s with actor := { s.actor with cancellation := source } } :=
  refines_quiet h
    ⟨rfl, ⟨rfl, rfl, rfl⟩, CancellationSource.narrows_advance hadv, rfl, rfl⟩

/-- What a waiting submission would get admitted at once, it offers. -/
theorem offersMessage_of_offersAgain [DecidableEq κ] {a : SessionActor β κ}
    (hrun : a.lifecycle = .running) (hs : a.stamp e = .ok (a.stampedActor, stamped)) :
    ∀ o ∈ offersAgain a ⟨.submission, g, stamped, .waiting⟩,
      o ∈ offersMessage a e g false := by
  intro o ho
  simp only [offersAgain, Option.mem_def, Option.ite_none_right_eq_some, Option.some.injEq] at ho
  obtain ⟨⟨-, hadmits⟩, rfl⟩ := ho
  rw [offersMessage, hs]
  exact if_pos ⟨hrun, hadmits⟩

/-- **Every step in order is made of steps of the ledger.** -/
theorem next_refines [DecidableEq κ] (h : s.Booked) (hok : s.InOrder l) (hn : s.next l = some t) :
    s.Refines t := by
  cases l with
  | start =>
    simp only [next] at hn
    split at hn
    · rename_i hstart
      cases hn
      exact refines_quiet h (SessionActor.quiet_start hstart)
    · cases hn
  | submit e =>
    cases hn
    rcases s.actor.submit_cases e with ⟨err, he⟩ | ⟨hrun, -, he⟩
    · rw [he]
      exact refines_quiet h (.refl _)
    · rw [he]
      exact refines_submitWithToken h hrun fun o ho =>
        hok (o, _) (Option.mem_map.mpr ⟨o, ho, rfl⟩)
  | submitForegroundTurn e reason =>
    cases hn
    rcases s.actor.submitForegroundTurn_cases e reason with
      ⟨err, he⟩ | ⟨source, token, hrun, hadv, he⟩
    · rw [he]
      exact refines_quiet h (.refl _)
    · rw [he]
      have hst := refines_advance h hadv
      refine hst.trans (refines_submitWithToken (h.of_refines hst) hrun fun o ho => ?_)
      rw [offersMessage_source] at ho
      refine hok (o, source) ?_
      rw [offers, hadv]
      exact Option.mem_map.mpr ⟨o, ho, rfl⟩
  | submitWait e =>
    cases hn
    rcases s.actor.submitWait_cases e with ⟨err, he⟩ | ⟨stamped, hrun, hacc, hs, he⟩
    · rw [he]
      exact refines_quiet h (.refl _)
    · rw [he]
      refine refines_begin h hs hacc fun o ho => ?_
      exact hok (o, _) (Option.mem_map.mpr ⟨o, offersMessage_of_offersAgain hrun hs o ho, rfl⟩)
  | submitForegroundTurnWait e reason =>
    cases hn
    rcases s.actor.submitForegroundTurnWait_cases e reason with
      ⟨err, he⟩ | ⟨source, token, hrun, hadv, ⟨err, he⟩ | ⟨stamped, hs, he⟩⟩
    · rw [he]
      exact refines_quiet h (.refl _)
    · rw [he]
      exact refines_advance h hadv
    · rw [he]
      have hst := refines_advance h hadv
      obtain ⟨-, -, -, htok, hacc⟩ := CancellationSource.advance_eq_ok hadv
      have hacc' : source.accepts token.generation = true := by rw [htok]; exact hacc
      refine hst.trans (refines_begin (h.of_refines hst) hs hacc' fun o ho => ?_)
      have ho' := offersMessage_of_offersAgain
        (a := { s.actor with cancellation := source }) hrun hs o ho
      rw [offersMessage_source] at ho'
      refine hok (o, source) ?_
      rw [offers, hadv]
      exact Option.mem_map.mpr ⟨o, ho', rfl⟩
  | publishResult e g =>
    cases hn
    rcases s.actor.publishResult_cases e g with
      ⟨-, he⟩ | ⟨hacc, ⟨err, he⟩ | ⟨stamped, hs, he⟩⟩
    · -- a call that is refused at once is not pending
      rw [he]
      refine ⟨h.wellFormed.congr rfl rfl, h.queue, fun d hd hw => ?_, le_refl _, ?_⟩
      · rcases List.mem_append.mp hd with hd | hd
        · exact h.issued d hd hw
        · obtain rfl := List.mem_singleton.mp hd
          cases hw
      · have hbook : book (s.begin ({ s.actor with staleResults := s.actor.staleResults + 1 },
            .ok ⟨.publication, g, e, .refused⟩)) = book s := by
          simp [book, begin, pending, ticket]
        rw [hbook]
    · rw [he]
      exact refines_quiet h (.refl _)
    · rw [he]
      refine refines_begin h hs hacc fun o ho => hok (o, _) (Option.mem_map.mpr ⟨o, ?_, rfl⟩)
      simp only [offersAgain, Option.mem_def, Option.ite_none_right_eq_some,
        Option.some.injEq] at ho
      obtain ⟨⟨-, hadmits⟩, rfl⟩ := ho
      rw [offersOutput, hs]
      exact if_pos ⟨hacc, hadmits⟩
  | attempt i => exact refines_attempt h hok hn
  | giveUp i =>
    obtain ⟨c, a, c', hc, hgive, rfl⟩ := resume_eq_some.mp hn
    obtain ⟨-, -, rfl, rfl | rfl⟩ := givingUp_eq_some hgive <;>
      exact refines_withdrawn h hc (by simp) (fun _ => rfl)
        ⟨rfl, ⟨rfl, rfl, rfl⟩, .refl _, rfl, rfl⟩
  | settle i => exact refines_settle h hn
  | abandon i =>
    obtain ⟨c, a, c', hc, habandon, rfl⟩ := resume_eq_some.mp hn
    obtain ⟨-, rfl, rfl⟩ := abandoning_eq_some habandon
    exact refines_withdrawn h hc (by simp) (fun _ => rfl) (.refl _)
  | receiveOutput => exact refines_receiveOutput h hn
  | receiveMessage =>
    simp only [next, Option.map_eq_some_iff, Prod.exists] at hn
    obtain ⟨inbox, x, hget, rfl⟩ := hn
    obtain ⟨_, _, -, -, hcfg, -⟩ := PriorityMailbox.get_eq_some hget
    exact refines_quiet h ⟨hcfg, ⟨rfl, rfl, rfl⟩, .refl _, rfl, rfl⟩
  | stop graceful =>
    cases hn
    exact refines_quiet h (SessionActor.quiet_stop _ _)
  | enterFinally =>
    cases hn
    exact refines_quiet h (SessionActor.quiet_enterFinally _)
  | leaveFinally terminal =>
    cases hn
    exact refines_quiet h (SessionActor.quiet_leaveFinally _ _)
  | finalizeCancelled =>
    cases hn
    exact refines_quiet h (SessionActor.quiet_finalizeCancelled _)

theorem booked_start [DecidableEq κ] (h : machine.start s) : s.Booked := by
  obtain ⟨hcalls, hdelivered, _, _, _, _, _, _, _, hcreate⟩ := h
  obtain ⟨hwf, -, hobserved, hitems, -⟩ := SessionActor.create_wellFormed hcreate
  have hbook : book s = ⟨[], [], [], []⟩ := by
    simp [book, pending, hcalls, hdelivered, hobserved, hitems]
  refine ⟨hwf, ⟨by simp [hitems], by simp [hitems], by simp [hitems]⟩, by simp [Issued, hcalls], ?_,
    ?_⟩
  · simp [hbook, Ledger.entries]
  · rw [hbook]
    exact Ledger.sound_nil

end Steps

/-! ### Acceptance in the order of the stamps -/

section Results

variable [DecidableEq κ] {s : Traffic β κ}

theorem booked_of_reachableBy (h : machine.ReachableBy InOrder s) : s.Booked :=
  h.invariant (fun _ hs => booked_start hs) fun _ _ _ _ hs hok hn =>
    hs.of_refines (next_refines hs hok hn)

/-- **Along every run in order, sequence order is acceptance order**: the observer is
notified in strictly increasing sequence, and so are the outputs of one priority
delivered. -/
theorem inOrder_observed (h : machine.ReachableBy InOrder s) :
    s.actor.observed.Pairwise (fun a b => a.precedes b = true) ∧
      s.delivered.Pairwise (fun a b => a.priority = b.priority → a.precedes b = true) :=
  ⟨(booked_of_reachableBy h).sound.observed, (booked_of_reachableBy h).sound.delivered⟩

end Results

/-- The outbox is full while a second publication waits; it is served before a third begins. -/
def waiting : List (Label ℕ) :=
  [.start, .publishResult note 0, .publishResult note 0, .receiveOutput, .attempt 1, .settle 1,
    .receiveOutput, .publishResult note 0, .receiveOutput]

theorem inOrder_observed_waiting : ∃ s : Traffic ℕ ℕ, machine.ReachableBy InOrder s ∧
    s.delivered.map (·.sequence) = [some 0, some 1, some 2] ∧
    s.actor.observed.Pairwise (fun a b => a.precedes b = true) ∧
    s.delivered.Pairwise (fun a b => a.priority = b.priority → a.precedes b = true) := by
  have h : (machine.restrict InOrder).run narrow waiting =
    some (((machine.restrict InOrder).run narrow waiting).getD narrow) := rfl
  have hreach := reachableBy_of_run (.start narrow_start) h
  exact ⟨_, hreach, by decide, inOrder_observed hreach⟩

/-- The same calls, the second of them served after the third. -/
def overtaking : List (Label ℕ) :=
  [.start, .publishResult note 0, .publishResult note 0, .receiveOutput, .publishResult note 0,
    .receiveOutput, .attempt 1, .settle 1, .receiveOutput]

/-- **Sequence order is not acceptance order**: the publication stamped second is
observed and delivered third. -/
theorem observed_out_of_order : ∃ s : Traffic ℕ ℕ, machine.Reachable s ∧
    s.actor.observed.map (·.sequence) = [some 0, some 2, some 1] ∧
    s.delivered.map (·.sequence) = [some 0, some 2, some 1] ∧
    ¬s.actor.observed.Pairwise (fun a b => a.precedes b = true) ∧
    ¬s.delivered.Pairwise (fun a b => a.priority = b.priority → a.precedes b = true) := by
  have h : machine.run narrow overtaking = some ((machine.run narrow overtaking).getD narrow) := rfl
  exact ⟨_, reachable_of_run narrow_start h, by decide, by decide, by decide, by decide⟩

end Traffic

end Eeveetuber
