import Eeveetuber.Runtime.Traffic

/-!
# The answers of the publications

`publish_result` returns `False` where its generation is not accepted when it is called, where
that is so when it would commit, and where the outbox is closed. The last is the same as the
others as long as an outbox is closed only after the generations are
(`Eeveetuber.SessionActor.Onward`): then a publication that is decided against is of a generation
that is not accepted any more, which is `Eeveetuber.Traffic.Truthful`.
-/

namespace Eeveetuber

open Foundation

/-- Whether a put was decided against. -/
def CallPhase.refuses : CallPhase → Bool
  | .settling r | .returned r => !accepted r
  | .refused => true
  | .waiting | .abandoned => false

theorem CallPhase.refuses_of_publishReturns {phase : CallPhase}
    (h : phase.publishReturns = some false) : phase.refuses = true := by
  cases phase with
  | refused => rfl
  | returned r =>
    cases r with
    | ok report =>
      have hrefused : report.accepted = false := Option.some.inj h
      rw [refuses, accepted, hrefused]
      rfl
    | error e => rfl
  | waiting | settling | abandoned => cases h

namespace SessionActor

variable {β κ : Type} {a a' a'' : SessionActor β κ} {c c' : Call β}

/-- A later state of an actor: its generations are narrowed at most, and its outbox is closed
only after them. -/
structure Onward (a a' : SessionActor β κ) : Prop where
  inboxConfig : a'.inbox.config = a.inbox.config
  outboxConfig : a'.outbox.config = a.outbox.config
  narrows : a.cancellation.Narrows a'.cancellation
  closing : a.cancellation.closed = true → a'.cancellation.closed = true
  outbox : a'.outbox.closed = true → a.outbox.closed = true ∨ a'.cancellation.closed = true

/-- The actors differ at most in what does not bear on the answers. -/
theorem Onward.of_eq (hi : a'.inbox.config = a.inbox.config)
    (ho : a'.outbox.config = a.outbox.config) (hc : a'.cancellation = a.cancellation)
    (hclosed : a'.outbox.closed = a.outbox.closed) : a.Onward a' := by
  refine ⟨hi, ho, hc ▸ .refl _, fun h => hc ▸ h, fun h => Or.inl (hclosed ▸ h)⟩

theorem Onward.trans (h : a.Onward a') (h' : a'.Onward a'') : a.Onward a'' := by
  refine ⟨h'.inboxConfig.trans h.inboxConfig, h'.outboxConfig.trans h.outboxConfig,
    ⟨h.narrows.generation.trans h'.narrows.generation, fun g hg hacc => ?_⟩,
    fun hc => h'.closing (h.closing hc), fun ho => ?_⟩
  · exact h.narrows.accepts g hg (h'.narrows.accepts g (hg.trans h.narrows.generation) hacc)
  · rcases h'.outbox ho with ho | hc
    · exact (h.outbox ho).imp_right h'.closing
    · exact Or.inr hc

theorem onward_observeEvent (e : EventEnvelope β) : a.Onward (a.observeEvent e) := by
  rw [observeEvent]
  split
  · exact .of_eq rfl rfl rfl rfl
  · exact .of_eq rfl rfl rfl rfl

theorem onward_settle (r : Except MailboxError PutReport) :
    a.Onward (a.settle c r).1 ∧ (a.settle c r).1.cancellation = a.cancellation := by
  rcases hr : accepted r with _ | _
  · obtain ⟨n, hn⟩ := settle_of_not_accepted (a := a) (c := c) hr
    rw [hn]
    exact ⟨.of_eq rfl rfl rfl rfl, rfl⟩
  · rw [settle_of_accepted hr]
    exact ⟨onward_observeEvent _, observeEvent_cancellation _ _⟩

section Calls

variable [DecidableEq κ]

theorem Attempted.onward {r : Option (Except MailboxError PutReport)}
    (h : Attempted a c a' r) : a.Onward a' ∧ a'.cancellation = a.cancellation := by
  cases h with
  | refused hi ho _ hclosed => exact ⟨.of_eq hi.config ho.config rfl hclosed, rfl⟩
  | message _ _ _ _ hcfg _ => exact ⟨.of_eq hcfg rfl rfl rfl, rfl⟩
  | output _ _ _ _ hclosed happ => exact ⟨.of_eq rfl happ.config rfl hclosed, rfl⟩

/-- **A publication is decided against only under a generation that is not accepted**, or
because the outbox is closed. -/
theorem tryPut_refused {r : Except MailboxError PutReport} (hw : a.WellFormed)
    (hk : c.kind = .publication) (h : (a.tryPut c).2 = some r) (hr : accepted r = false) :
    a.cancellation.accepts c.generation = false ∨ a.outbox.closed = true := by
  have hover : a.outbox.config.overflow ≠ .coalesce :=
    hw.outbox_overflow ▸ OverflowPolicy.noConfusion
  rw [tryPut, hk] at h
  dsimp only at h
  rcases hput : a.outbox.putWait c.event (a.cancellation.accepts c.generation) true with
    e | ⟨outbox, result⟩
  · refine Or.inr (Bool.not_eq_false _ ▸ fun hopen => ?_)
    rw [PriorityMailbox.putWait, hw.outbox_priorityOf] at hput
    -- an open outbox raises nothing
    have hput' : a.outbox.tryPutLocked c.event c.event.priority false
        (some (a.cancellation.accepts c.generation)) true = .error e := hput
    rw [PriorityMailbox.tryPutLocked, hopen] at hput'
    rw [if_neg Bool.false_ne_true, PriorityMailbox.tryCoalesceLocked, if_pos hover] at hput'
    split at hput' <;> cases hput'
  · rw [hput] at h
    obtain ⟨result, rfl, rfl⟩ := Option.map_eq_some_iff.mp h
    rw [PriorityMailbox.putWait, hw.outbox_priorityOf] at hput
    obtain ⟨-, hstep⟩ := PriorityMailbox.tryPutLocked_putStep hput
    cases hstep with
    | cancelled hacc => exact Or.inl (Option.some.inj hacc)
    | coalesced _ hc => exact absurd (PriorityMailbox.tryCoalesceLocked_eq_some hc).1 hover
    | appended => cases hr
    | evicted => cases hr
    | rejected _ _ hreject => cases hreject

/-- A call that is decided without waiting is decided against only as it should be. -/
theorem firstAttempt_answers (hw : a.WellFormed) (hphase : c.phase = .waiting)
    (hclosed : a.outbox.closed = true → a.cancellation.closed = true) :
    a.Onward (a.firstAttempt c).1 ∧ (a.firstAttempt c).1.cancellation = a.cancellation ∧
      (a.firstAttempt c).2.kind = c.kind ∧ (a.firstAttempt c).2.generation = c.generation ∧
      (c.kind = .publication → (a.firstAttempt c).2.phase.refuses = true →
        a.cancellation.accepts c.generation = false) := by
  obtain ⟨honward, hsource⟩ := (tryPut_attempted (c := c) hw).onward
  rw [firstAttempt_eq hphase]
  rcases hr : (a.tryPut c).2 with _ | r
  · refine ⟨honward, hsource, rfl, rfl, fun _ h => ?_⟩
    dsimp only at h
    rw [hphase] at h
    cases h
  · obtain ⟨hsettle, hsource'⟩ := onward_settle (a := (a.tryPut c).1) (c := c) r
    refine ⟨honward.trans hsettle, hsource'.trans hsource, rfl, rfl, fun hk h => ?_⟩
    have hrefused : accepted r = false := (Bool.not_eq_true' _).mp h
    rcases tryPut_refused hw hk hr hrefused with hacc | hout
    · exact hacc
    · exact CancellationSource.accepts_of_closed (hclosed hout)

/-! ### What is queued -/

omit [DecidableEq κ] in
/-- What is queued behind the others is the only thing that is new. -/
theorem queued_of_appended {inbox inbox' : PriorityMailbox (SessionMessage β) κ}
    {item : SessionMessage β} {priority : ℤ} (h : inbox.Appended item priority inbox') :
    ∀ x ∈ inbox'.items, x ∈ inbox.items ∨ x.item = item := by
  intro x hx
  obtain ⟨kept, hitems, hkept⟩ := h.items
  rw [hitems] at hx
  rcases List.mem_append.mp hx with hx | hx
  · rcases hkept with rfl | ⟨-, dropped, hlow, -⟩
    · exact Or.inl hx
    · obtain ⟨l₁, l₂, hl, rfl, -⟩ := PriorityMailbox.lowest_eq_some hlow
      exact Or.inl (hl ▸ ((List.sublist_cons_self _ _).append_left _).subset hx)
  · rw [List.mem_singleton.mp hx]
    exact Or.inr rfl

theorem Attempted.queued {r : Option (Except MailboxError PutReport)} (h : Attempted a c a' r)
    (hover : a.inbox.config.overflow ≠ .coalesce) :
    ∀ x ∈ a'.inbox.items, x ∈ a.inbox.items ∨ x.item.generation = c.generation := by
  cases h with
  | refused hi => exact fun x hx => Or.inl (hi.items ▸ hx)
  | message _ _ _ _ _ _ happ =>
    intro x hx
    exact (queued_of_appended (happ hover) x hx).imp_right (congrArg SessionMessage.generation)
  | output => exact fun x hx => Or.inl hx

theorem firstAttempt_queued (hw : a.WellFormed) (hphase : c.phase = .waiting)
    (hover : a.inbox.config.overflow ≠ .coalesce) :
    ∀ x ∈ (a.firstAttempt c).1.inbox.items,
      x ∈ a.inbox.items ∨ x.item.generation = c.generation := by
  have hbegun := firstAttempt_begun hw hphase
  generalize a.firstAttempt c = p at hbegun ⊢
  cases hbegun with
  | waits hatt | rejected hatt => exact hatt.queued hover
  | admitted hatt =>
    rw [observeEvent_inbox]
    exact hatt.queued hover

/-- **A command is queued under the generation it was submitted with.** -/
theorem submitWithToken_queued (hw : a.WellFormed) (hover : a.inbox.config.overflow ≠ .coalesce)
    (e : EventEnvelope β) (token : CancellationToken) :
    a.Onward (a.submitWithToken e token).1 ∧
      (a.submitWithToken e token).1.cancellation = a.cancellation ∧
      ∀ x ∈ (a.submitWithToken e token).1.inbox.items,
        x ∈ a.inbox.items ∨ x.item.generation = token.generation := by
  have hsubmitted := submitWithToken_submitted hw e token
  generalize a.submitWithToken e token = p at hsubmitted ⊢
  cases hsubmitted with
  | foreign => exact ⟨.of_eq rfl rfl rfl rfl, rfl, fun _ hx => Or.inl hx⟩
  | refused _ hqueue =>
    exact ⟨.of_eq hqueue.config rfl rfl rfl, rfl, fun _ hx => Or.inl (hqueue.items ▸ hx)⟩
  | admitted _ _ hcfg _ happ =>
    refine ⟨(Onward.of_eq hcfg rfl rfl rfl : a.Onward { a.stampedActor with
      inbox := _ }).trans (onward_observeEvent _), observeEvent_cancellation _ _, ?_⟩
    rw [observeEvent_inbox]
    intro x hx
    exact (queued_of_appended (happ hover) x hx).imp_right (congrArg SessionMessage.generation)

end Calls

end SessionActor

namespace Traffic

variable {β κ : Type} {s t : Traffic β κ} {i : ℕ} {c c' : Call β}

/-- **The answers of the publications are truthful**: what is decided against is of a generation
that was issued, and is not accepted any more. -/
structure Truthful (s : Traffic β κ) : Prop where
  closed : s.actor.outbox.closed = true → s.actor.cancellation.closed = true
  issued : ∀ c ∈ s.calls, c.generation ≤ s.actor.cancellation.generation
  refusals : ∀ c ∈ s.calls, c.kind = .publication → c.phase.refuses = true →
    s.actor.cancellation.accepts c.generation = false

/-- The traffic goes on: the earlier calls are as truthful as they were. -/
theorem Truthful.onward (h : s.Truthful) (ha : s.actor.Onward t.actor)
    (hcalls : ∀ c ∈ t.calls, c ∈ s.calls ∨ c.generation ≤ t.actor.cancellation.generation ∧
      (c.kind = .publication → c.phase.refuses = true →
        t.actor.cancellation.accepts c.generation = false)) : t.Truthful := by
  refine ⟨fun ho => ?_, fun c hc => ?_, fun c hc hk hrefuses => ?_⟩
  · exact (ha.outbox ho).elim (fun ho => ha.closing (h.closed ho)) id
  · rcases hcalls c hc with hc | ⟨hg, -⟩
    · exact (h.issued c hc).trans ha.narrows.generation
    · exact hg
  · rcases hcalls c hc with hc | ⟨-, hanswer⟩
    · refine Bool.eq_false_iff.mpr fun hacc => Bool.false_ne_true ?_
      rw [← h.refusals c hc hk hrefuses]
      exact ha.narrows.accepts _ (h.issued c hc) hacc
    · exact hanswer hk hrefuses

end Traffic

end Eeveetuber
