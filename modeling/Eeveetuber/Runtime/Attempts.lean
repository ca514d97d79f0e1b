import Eeveetuber.Runtime.Session

/-!
# What the methods of a session do to its queues

One inductive statement for each method that puts: `Eeveetuber.SessionActor.Attempted`
for an attempt of a call that uses `put_wait`, `Eeveetuber.SessionActor.Begun` for
such a call up to its first wait, and `Eeveetuber.SessionActor.Submitted` for an
immediate submission. Each lists what the method can do, and what is then known of
the mailboxes and of the generation. The lemmas `submit_cases` to
`publishResult_cases` say what the methods check before they come to that.
-/

namespace Eeveetuber

open Foundation

namespace SessionActor

variable {β κ : Type}

/-- What the constructor fixes about the mailboxes: they order by the priority of
the event, and the outbox displaces. -/
structure WellFormed (a : SessionActor β κ) : Prop where
  inbox_priorityOf : a.inbox.config.priorityOf = fun m => .ok m.event.priority
  outbox_priorityOf : a.outbox.config.priorityOf = fun e => .ok e.priority
  outbox_overflow : a.outbox.config.overflow = .dropLowest

theorem WellFormed.congr {a a' : SessionActor β κ} (h : a.WellFormed)
    (hi : a'.inbox.config = a.inbox.config) (ho : a'.outbox.config = a.outbox.config) :
    a'.WellFormed := by
  refine ⟨?_, ?_, ?_⟩
  · rw [hi]; exact h.inbox_priorityOf
  · rw [ho]; exact h.outbox_priorityOf
  · rw [ho]; exact h.outbox_overflow

/-- The actor after it has stamped an event. -/
def stampedActor (a : SessionActor β κ) : SessionActor β κ := { a with sequence := a.sequence + 1 }

theorem stamp_eq_ok {a a' : SessionActor β κ} {e stamped : EventEnvelope β}
    (h : a.stamp e = .ok (a', stamped)) :
    a' = a.stampedActor ∧ stamped.sequence = some a.sequence ∧
      stamped.priority = e.priority ∧ stamped.body = e.body := by
  unfold stamp EventEnvelope.forSession at h
  cases hs : e.sessionId with
  | none =>
    simp only [hs, Except.ok.injEq, Prod.mk.injEq] at h
    obtain ⟨rfl, rfl⟩ := h
    exact ⟨rfl, rfl, rfl, rfl⟩
  | some owner =>
    simp only [hs] at h
    by_cases howner : owner = a.sessionId
    · simp only [howner, if_true, Except.ok.injEq, Prod.mk.injEq] at h
      obtain ⟨rfl, rfl⟩ := h
      exact ⟨rfl, rfl, rfl, rfl⟩
    · simp [howner] at h

section Queues

variable [DecidableEq κ] {a a' : SessionActor β κ} {c : Call β}

/-- **What an attempt of a waiting call can do**: nothing to the queues, or admit
its event while its generation is accepted. -/
inductive Attempted (a : SessionActor β κ) (c : Call β) :
    SessionActor β κ → Option (Except MailboxError PutReport) → Prop
  /-- The event is not admitted, or not yet. -/
  | refused {inbox : PriorityMailbox (SessionMessage β) κ}
      {outbox : PriorityMailbox (EventEnvelope β) κ}
      {r : Option (Except MailboxError PutReport)} :
      a.inbox.SameQueue inbox → a.outbox.SameQueue outbox → inbox.closed = a.inbox.closed →
      outbox.closed = a.outbox.closed → (∀ x, r = some x → accepted x = false) →
      (c.kind = .publication → ∀ e, r = some (.error e) → e = .closed) →
      Attempted a c { a with inbox := inbox, outbox := outbox } r
  /-- A command is admitted to the inbox. -/
  | message {inbox : PriorityMailbox (SessionMessage β) κ} {x : Except MailboxError PutReport} :
      c.kind = .submission → a.cancellation.accepts c.generation = true → accepted x = true →
      a.inbox.admits ⟨c.event, ⟨c.generation⟩⟩ c.event.priority false = true →
      inbox.config = a.inbox.config → inbox.closed = a.inbox.closed →
      (a.inbox.config.overflow ≠ .coalesce →
        a.inbox.Appended ⟨c.event, ⟨c.generation⟩⟩ c.event.priority inbox) →
      Attempted a c { a with inbox := inbox } (some x)
  /-- An output is admitted to the outbox. -/
  | output {outbox : PriorityMailbox (EventEnvelope β) κ} {x : Except MailboxError PutReport} :
      c.kind = .publication → a.cancellation.accepts c.generation = true → accepted x = true →
      a.outbox.admits c.event c.event.priority true = true → outbox.closed = a.outbox.closed →
      a.outbox.Appended c.event c.event.priority outbox →
      Attempted a c { a with outbox := outbox } (some x)

theorem tryPut_attempted (hw : a.WellFormed) : Attempted a c (a.tryPut c).1 (a.tryPut c).2 := by
  unfold tryPut
  cases hk : c.kind with
  | submission =>
    dsimp only
    cases hput : a.inbox.putWait ⟨c.event, ⟨c.generation⟩⟩ (a.cancellation.accepts c.generation)
        false with
    | error err =>
      change Attempted a c { a with inbox := a.inbox, outbox := a.outbox } _
      refine .refused ⟨rfl, rfl, rfl⟩ ⟨rfl, rfl, rfl⟩ rfl rfl ?_ (fun h => by simp [hk] at h)
      rintro x ⟨⟩
      rfl
    | ok p =>
      obtain ⟨inbox, r⟩ := p
      rw [PriorityMailbox.putWait, hw.inbox_priorityOf] at hput
      obtain ⟨-, hstep⟩ := PriorityMailbox.tryPutLocked_putStep hput
      obtain ⟨hcfg, hclosed⟩ := hstep.frame
      cases hr : (r.map PutResult.accepted).getD false with
      | false =>
        change Attempted a c { a with inbox := inbox, outbox := a.outbox } _
        refine .refused (hstep.sameQueue hr) ⟨rfl, rfl, rfl⟩ hclosed rfl ?_
          (fun h => by simp [hk] at h)
        intro x hx
        cases r with
        | none => simp at hx
        | some r =>
          obtain rfl : _ = x := by simpa using hx
          simpa [accepted, PutReport.accepted, PutResult.accepted] using hr
      | true =>
        cases r with
        | none => simp at hr
        | some r =>
          -- whatever is accepted was of an accepted generation
          have hacc : a.cancellation.accepts c.generation = true := by
            cases hg : a.cancellation.accepts c.generation with
            | true => rfl
            | false =>
              rw [hg] at hstep
              obtain ⟨-, hr'⟩ := hstep.of_acceptIf_false
              obtain rfl : r = _ := by simpa using hr'
              simp [PutResult.accepted, PutOutcome.isAccepted] at hr
          have hr : r.accepted = true := by simpa using hr
          refine .message hk hacc hr (PriorityMailbox.admits_of_accepted hput hr) hcfg hclosed
            fun hover => ?_
          rcases hstep.queue hover with ⟨-, hr'⟩ | ⟨happ, -, -⟩
          · simp [hr] at hr'
          · exact happ
  | publication =>
    dsimp only
    -- an outbox never coalesces
    have hover : a.outbox.config.overflow ≠ .coalesce := by simp [hw.outbox_overflow]
    cases hput : a.outbox.putWait c.event (a.cancellation.accepts c.generation) true with
    | error err =>
      change Attempted a c { a with inbox := a.inbox, outbox := a.outbox } _
      refine .refused ⟨rfl, rfl, rfl⟩ ⟨rfl, rfl, rfl⟩ rfl rfl (fun x hx => ?_) (fun _ e he => ?_)
      · obtain rfl : _ = x := by simpa using hx
        rfl
      · obtain rfl : err = e := by simpa using he
        rw [PriorityMailbox.putWait, hw.outbox_priorityOf] at hput
        exact PriorityMailbox.tryPutLocked_eq_error hover hput
    | ok p =>
      obtain ⟨outbox, r⟩ := p
      rw [PriorityMailbox.putWait, hw.outbox_priorityOf] at hput
      obtain ⟨-, hstep⟩ := PriorityMailbox.tryPutLocked_putStep hput
      obtain ⟨-, hclosed⟩ := hstep.frame
      rcases hstep.queue hover with ⟨hsame, hr⟩ | ⟨happ, hr, hacc⟩
      · change Attempted a c { a with inbox := a.inbox, outbox := outbox } _
        refine .refused ⟨rfl, rfl, rfl⟩ hsame rfl hclosed (fun x hx => ?_) (fun _ e he => ?_)
        · cases r with
          | none => simp at hx
          | some r =>
            obtain rfl : _ = x := by simpa using hx
            simpa [accepted, PutReport.accepted, PutResult.accepted] using hr
        · cases r <;> simp at he
      · cases r with
        | none => simp at hr
        | some r =>
          have hr : r.accepted = true := by simpa using hr
          exact .output hk (by simpa using hacc) hr (PriorityMailbox.admits_of_accepted hput hr)
            hclosed happ

theorem attempt_eq : a.attempt c = ((a.tryPut c).1,
    { c with phase := (a.tryPut c).2.elim .waiting .settling }) := by
  unfold attempt
  rcases a.tryPut c with ⟨a', _ | r⟩ <;> rfl

/-- The first attempt of a call is an attempt after which a decided call returns at once. -/
theorem firstAttempt_eq (hc : c.phase = .waiting) : a.firstAttempt c =
    match (a.tryPut c).2 with
    | none => ((a.tryPut c).1, c)
    | some r => (a.tryPut c).1.settle c r := by
  unfold firstAttempt
  rcases a.tryPut c with ⟨a', _ | r⟩
  · cases c
    cases hc
    rfl
  · rfl

omit [DecidableEq κ] in
theorem settle_of_accepted {r : Except MailboxError PutReport} (h : accepted r = true) :
    a.settle c r = (a.observeEvent c.event, { c with phase := .returned r }) := by
  simp [settle, h]

omit [DecidableEq κ] in
/-- A call whose put was not accepted has at most counted a stale result. -/
theorem settle_of_not_accepted {r : Except MailboxError PutReport} (h : accepted r = false) :
    ∃ n, a.settle c r = ({ a with staleResults := n }, { c with phase := .returned r }) := by
  simp only [settle, h, Bool.false_eq_true, if_false]
  split
  · exact ⟨_, rfl⟩
  · exact ⟨a.staleResults, rfl⟩

/-- **What an immediate submission can do.** -/
inductive Submitted (a : SessionActor β κ) (e : EventEnvelope β) (token : CancellationToken) :
    SessionActor β κ × Except SessionError (SessionSubmission β) → Prop
  /-- The event belongs to another session. -/
  | foreign {err : SessionError} : a.stamp e = .error err → Submitted a e token (a, .error err)
  /-- The event is stamped and not admitted. -/
  | refused {stamped : EventEnvelope β} {inbox : PriorityMailbox (SessionMessage β) κ}
      {r : Except SessionError (SessionSubmission β)} :
      a.stamp e = .ok (a.stampedActor, stamped) →
      a.inbox.SameQueue inbox → inbox.closed = a.inbox.closed →
      (∀ x, r = .ok x → x.report.accepted = false) →
      Submitted a e token ({ a.stampedActor with inbox := inbox }, r)
  /-- The event is stamped and admitted. -/
  | admitted {stamped : EventEnvelope β} {inbox : PriorityMailbox (SessionMessage β) κ}
      {report : PutReport} :
      a.stamp e = .ok (a.stampedActor, stamped) →
      a.inbox.admits ⟨stamped, token⟩ stamped.priority true = true →
      inbox.config = a.inbox.config → inbox.closed = a.inbox.closed →
      (a.inbox.config.overflow ≠ .coalesce →
        a.inbox.Appended ⟨stamped, token⟩ stamped.priority inbox) →
      report.accepted = true →
      Submitted a e token
        (observeEvent { a.stampedActor with inbox := inbox } stamped,
          .ok ⟨token.generation, stamped, report⟩)

theorem submitWithToken_submitted (hw : a.WellFormed) (e : EventEnvelope β)
    (token : CancellationToken) : Submitted a e token (a.submitWithToken e token) := by
  unfold submitWithToken
  cases hs : a.stamp e with
  | error err => exact .foreign hs
  | ok p =>
    obtain ⟨a', stamped⟩ := p
    obtain ⟨rfl, -, -, -⟩ := stamp_eq_ok hs
    dsimp only
    cases hput : a.stampedActor.inbox.put ⟨stamped, token⟩ with
    | error err =>
      exact .refused hs ⟨rfl, rfl, rfl⟩ rfl (by rintro x ⟨⟩)
    | ok p =>
      obtain ⟨inbox, r⟩ := p
      change a.inbox.put _ = _ at hput
      rw [PriorityMailbox.put, hw.inbox_priorityOf] at hput
      obtain ⟨-, hstep⟩ := PriorityMailbox.tryPutLocked_putStep hput
      obtain ⟨hcfg, hclosed⟩ := hstep.frame
      cases r with
      | none => exact .refused hs ⟨rfl, rfl, rfl⟩ rfl (by rintro x ⟨⟩)
      | some r =>
        cases hr : r.accepted with
        | false =>
          dsimp only
          rw [if_neg (by simp [hr])]
          refine .refused hs (hstep.sameQueue (by simpa using hr)) hclosed ?_
          rintro x ⟨⟩
          exact hr
        | true =>
          dsimp only
          rw [if_pos hr]
          have hreport : (⟨r.outcome, r.displaced.map (·.event.eventId)⟩ : PutReport).accepted
              = true := hr
          refine .admitted hs (PriorityMailbox.admits_of_accepted hput hr) hcfg hclosed
            (fun hover => ?_) hreport
          rcases hstep.queue hover with ⟨-, hr'⟩ | ⟨happ, -, -⟩
          · simp [hr] at hr'
          · exact happ

/-- **What a call does up to its first wait**, or up to its return where it does not wait. -/
inductive Begun (a : SessionActor β κ) (c : Call β) : SessionActor β κ × Call β → Prop
  | waits {a' : SessionActor β κ} : Attempted a c a' none → Begun a c (a', c)
  | rejected {a' : SessionActor β κ} {r : Except MailboxError PutReport} {n : ℕ} :
      Attempted a c a' (some r) → accepted r = false →
      Begun a c ({ a' with staleResults := n }, { c with phase := .returned r })
  | admitted {a' : SessionActor β κ} {r : Except MailboxError PutReport} :
      Attempted a c a' (some r) → accepted r = true →
      Begun a c (a'.observeEvent c.event, { c with phase := .returned r })

theorem firstAttempt_begun (hw : a.WellFormed) (hc : c.phase = .waiting) :
    Begun a c (a.firstAttempt c) := by
  rw [firstAttempt_eq hc]
  have hatt := tryPut_attempted (c := c) hw
  cases hr : (a.tryPut c).2 with
  | none => exact .waits (by rwa [hr] at hatt)
  | some r =>
    rw [hr] at hatt
    dsimp only
    cases hacc : accepted r with
    | true =>
      rw [settle_of_accepted hacc]
      exact .admitted hatt hacc
    | false =>
      obtain ⟨n, hn⟩ := settle_of_not_accepted (a := (a.tryPut c).1) (c := c) hacc
      rw [hn]
      exact .rejected hatt hacc

section Cases

variable (a : SessionActor β κ) (e : EventEnvelope β) (g : CancellationGeneration) (reason : Text)

/-- `submit` raises before it does anything, or goes on under the current generation. -/
theorem submit_cases : (∃ err, a.submit e = (a, .error err)) ∨
    (a.lifecycle = .running ∧ a.cancellation.accepts a.cancellation.generation = true ∧
      a.submit e = a.submitWithToken e a.cancellation.token) := by
  unfold submit
  split
  · rename_i hrun
    rw [CancellationSource.ensureCurrent_eq]
    cases hacc : a.cancellation.accepts a.cancellation.generation with
    | false => exact Or.inl ⟨_, rfl⟩
    | true => exact Or.inr ⟨hrun, rfl, rfl⟩
  · exact Or.inl ⟨_, rfl⟩

/-- `submit_foreground_turn` raises before it does anything, or goes on under the next
generation. -/
theorem submitForegroundTurn_cases : (∃ err, a.submitForegroundTurn e reason = (a, .error err)) ∨
    ∃ source token, a.lifecycle = .running ∧
      a.cancellation.advance reason = .ok (source, token) ∧
      a.submitForegroundTurn e reason =
        ({ a with cancellation := source } : SessionActor β κ).submitWithToken e token := by
  unfold submitForegroundTurn
  split
  · rename_i hrun
    split
    · exact Or.inl ⟨_, rfl⟩
    · rename_i source token hadv
      exact Or.inr ⟨source, token, hrun, hadv, rfl⟩
  · exact Or.inl ⟨_, rfl⟩

/-- `submit_wait` raises before it does anything, or stamps its event and tries to put it. -/
theorem submitWait_cases : (∃ err, a.submitWait e = (a, .error err)) ∨
    ∃ stamped, a.lifecycle = .running ∧
      a.cancellation.accepts a.cancellation.generation = true ∧
      a.stamp e = .ok (a.stampedActor, stamped) ∧
      a.submitWait e =
        ((a.stampedActor.firstAttempt
          ⟨.submission, a.cancellation.generation, stamped, .waiting⟩).1,
        .ok (a.stampedActor.firstAttempt
          ⟨.submission, a.cancellation.generation, stamped, .waiting⟩).2) := by
  unfold submitWait
  split
  · rename_i hrun
    rw [CancellationSource.ensureCurrent_eq]
    cases hacc : a.cancellation.accepts a.cancellation.generation with
    | false => exact Or.inl ⟨_, rfl⟩
    | true =>
      dsimp only [if_true]
      cases hs : a.stamp e with
      | error err => exact Or.inl ⟨_, rfl⟩
      | ok p =>
        obtain ⟨a', stamped⟩ := p
        obtain ⟨rfl, -⟩ := stamp_eq_ok hs
        exact Or.inr ⟨stamped, hrun, rfl, rfl, rfl⟩
  · exact Or.inl ⟨_, rfl⟩

/-- `submit_foreground_turn_wait` raises before it does anything, or starts the next
generation; then it raises, or stamps its event and tries to put it. -/
theorem submitForegroundTurnWait_cases :
    (∃ err, a.submitForegroundTurnWait e reason = (a, .error err)) ∨
    ∃ source token, a.lifecycle = .running ∧
      a.cancellation.advance reason = .ok (source, token) ∧
      ((∃ err, a.submitForegroundTurnWait e reason =
          ({ a with cancellation := source }, .error err)) ∨
        ∃ stamped, ({ a with cancellation := source } : SessionActor β κ).stamp e =
            .ok (stampedActor { a with cancellation := source }, stamped) ∧
          a.submitForegroundTurnWait e reason =
            (((stampedActor { a with cancellation := source }).firstAttempt
              ⟨.submission, token.generation, stamped, .waiting⟩).1,
            .ok ((stampedActor { a with cancellation := source }).firstAttempt
              ⟨.submission, token.generation, stamped, .waiting⟩).2)) := by
  unfold submitForegroundTurnWait
  split
  · rename_i hrun
    split
    · exact Or.inl ⟨_, rfl⟩
    · rename_i source token hadv
      refine Or.inr ⟨source, token, hrun, hadv, ?_⟩
      dsimp only
      cases hs : ({ a with cancellation := source } : SessionActor β κ).stamp e with
      | error err => exact Or.inl ⟨_, rfl⟩
      | ok p =>
        obtain ⟨a', stamped⟩ := p
        obtain ⟨rfl, -⟩ := stamp_eq_ok hs
        exact Or.inr ⟨stamped, rfl, rfl⟩
  · exact Or.inl ⟨_, rfl⟩

/-- `publish_result` refuses at once, raises, or stamps its event and tries to put it. -/
theorem publishResult_cases :
    (a.cancellation.accepts g = false ∧ a.publishResult e g =
        ({ a with staleResults := a.staleResults + 1 }, .ok ⟨.publication, g, e, .refused⟩)) ∨
    (a.cancellation.accepts g = true ∧
      ((∃ err, a.publishResult e g = (a, .error err)) ∨
        ∃ stamped, a.stamp e = .ok (a.stampedActor, stamped) ∧
          a.publishResult e g =
            ((a.stampedActor.firstAttempt ⟨.publication, g, stamped, .waiting⟩).1,
            .ok (a.stampedActor.firstAttempt ⟨.publication, g, stamped, .waiting⟩).2))) := by
  unfold publishResult
  rw [CancellationSource.ensureCurrent_eq]
  cases hacc : a.cancellation.accepts g with
  | false => exact Or.inl ⟨rfl, rfl⟩
  | true =>
    refine Or.inr ⟨rfl, ?_⟩
    dsimp only [if_true]
    cases hs : a.stamp e with
    | error err => exact Or.inl ⟨_, rfl⟩
    | ok p =>
      obtain ⟨a', stamped⟩ := p
      obtain ⟨rfl, -⟩ := stamp_eq_ok hs
      exact Or.inr ⟨stamped, rfl, rfl⟩

end Cases

end Queues

/-! ### Methods that put nothing -/

/-- A method that neither stamps nor observes an event and leaves the outbox's queue alone. -/
structure Quiet (a a' : SessionActor β κ) : Prop where
  inbox : a'.inbox.config = a.inbox.config
  outbox : a.outbox.SameQueue a'.outbox
  cancellation : a.cancellation.Narrows a'.cancellation
  sequence : a'.sequence = a.sequence
  observed : a'.observed = a.observed

theorem Quiet.wellFormed {a a' : SessionActor β κ} (h : a.Quiet a') (hw : a.WellFormed) :
    a'.WellFormed := hw.congr h.inbox h.outbox.config

theorem Quiet.refl (a : SessionActor β κ) : a.Quiet a :=
  ⟨rfl, ⟨rfl, rfl, rfl⟩, .refl _, rfl, rfl⟩

theorem sameQueue_close (m : PriorityMailbox (EventEnvelope β) κ) :
    m.SameQueue (m.close false).1 := ⟨rfl, rfl, rfl⟩

theorem quiet_start {a a' : SessionActor β κ} (h : a.start = .ok a') : a.Quiet a' := by
  unfold start at h
  split at h
  · cases h
    exact ⟨rfl, ⟨rfl, rfl, rfl⟩, .refl _, rfl, rfl⟩
  · cases h

theorem quiet_stop (a : SessionActor β κ) (graceful : Bool) : a.Quiet (a.stop graceful) := by
  unfold stop
  split
  · exact .refl a
  · exact .refl a
  · exact ⟨(PriorityMailbox.close_frame _ _).1, sameQueue_close _,
      CancellationSource.narrows_shutDown, rfl, rfl⟩
  all_goals
    exact ⟨(PriorityMailbox.close_frame _ _).1, ⟨rfl, rfl, rfl⟩,
      CancellationSource.narrows_shutDown, rfl, rfl⟩

theorem quiet_enterFinally (a : SessionActor β κ) : a.Quiet a.enterFinally :=
  ⟨(PriorityMailbox.close_frame _ _).1, ⟨rfl, rfl, rfl⟩, CancellationSource.narrows_shutDown,
    rfl, rfl⟩

theorem quiet_leaveFinally (a : SessionActor β κ) (terminal : SessionLifecycle) :
    a.Quiet (a.leaveFinally terminal) :=
  ⟨rfl, sameQueue_close _, .refl _, rfl, rfl⟩

theorem quiet_finalizeCancelled (a : SessionActor β κ) : a.Quiet a.finalizeCancelled :=
  ⟨rfl, sameQueue_close _, .refl _, rfl, rfl⟩

/-- A done callback cancels the actor's task only for a failure of a running session. -/
theorem childDone_cancels {a : SessionActor β κ} {i : ℕ} {e : Option SessionError}
    (h : (a.childDone i e).2 = true) : ∃ x, e = some x ∧ a.lifecycle = .running := by
  unfold childDone at h
  cases e with
  | none => cases h
  | some x =>
    dsimp only at h
    split at h
    · exact ⟨x, rfl, ‹_›⟩
    · cases h

/-! ### Well-formed actors stay so -/

theorem create_wellFormed {sessionId : UUID} {inboxCapacity outboxCapacity : ℕ}
    {inboxOverflow : OverflowPolicy}
    {coalesceKey : Option (SessionMessage β → Except MailboxError (Option κ))}
    {coalescer : Option (SessionMessage β → SessionMessage β →
      Except MailboxError (SessionMessage β))}
    {observer : Option (EventEnvelope β → Bool)} {a : SessionActor β κ}
    (h : create sessionId inboxCapacity outboxCapacity inboxOverflow coalesceKey coalescer
      observer = .ok a) :
    a.WellFormed ∧ a.sequence = 0 ∧ a.observed = [] ∧ a.outbox.items = [] ∧
      a.outbox.nextOrder = 0 := by
  unfold create PriorityMailbox.create at h
  split_ifs at h <;> cases h
  exact ⟨⟨rfl, rfl, rfl⟩, rfl, rfl, rfl, rfl⟩

/-- A new session. -/
theorem create_new {sessionId : UUID} {inboxCapacity outboxCapacity : ℕ}
    {inboxOverflow : OverflowPolicy}
    {coalesceKey : Option (SessionMessage β → Except MailboxError (Option κ))}
    {coalescer : Option (SessionMessage β → SessionMessage β →
      Except MailboxError (SessionMessage β))}
    {observer : Option (EventEnvelope β → Bool)} {a : SessionActor β κ}
    (h : create sessionId inboxCapacity outboxCapacity inboxOverflow coalesceKey coalescer
      observer = .ok a) : a.lifecycle = .new ∧ a.stopped = false ∧ a.children = [] := by
  unfold create PriorityMailbox.create at h
  split_ifs at h <;> cases h
  exact ⟨rfl, rfl, rfl⟩

theorem WellFormed.observeEvent {a : SessionActor β κ} (hw : a.WellFormed) (e : EventEnvelope β) :
    (a.observeEvent e).WellFormed := by
  unfold SessionActor.observeEvent
  split <;> exact hw.congr rfl rfl

theorem WellFormed.stampedActor {a : SessionActor β κ} (hw : a.WellFormed) :
    a.stampedActor.WellFormed := hw.congr rfl rfl

section WellFormed

variable [DecidableEq κ] {a a' : SessionActor β κ} {c c' : Call β}

theorem Attempted.wellFormed {r : Option (Except MailboxError PutReport)}
    (h : Attempted a c a' r) (hw : a.WellFormed) : a'.WellFormed := by
  cases h with
  | refused hi ho => exact hw.congr hi.config ho.config
  | message _ _ _ _ hcfg => exact hw.congr hcfg rfl
  | output _ _ _ _ _ happ => exact hw.congr rfl happ.config

omit [DecidableEq κ] in
theorem settle_wellFormed (hw : a.WellFormed) (r : Except MailboxError PutReport) :
    (a.settle c r).1.WellFormed := by
  cases hr : accepted r with
  | true =>
    rw [settle_of_accepted hr]
    exact hw.observeEvent _
  | false =>
    obtain ⟨n, hn⟩ := settle_of_not_accepted (a := a) (c := c) hr
    rw [hn]
    exact hw.congr rfl rfl

theorem firstAttempt_wellFormed (hw : a.WellFormed) (hc : c.phase = .waiting) :
    (a.firstAttempt c).1.WellFormed := by
  have hbegun := firstAttempt_begun hw hc
  generalize a.firstAttempt c = p at hbegun ⊢
  cases hbegun with
  | waits hatt => exact hatt.wellFormed hw
  | rejected hatt => exact (hatt.wellFormed hw).congr rfl rfl
  | admitted hatt => exact (hatt.wellFormed hw).observeEvent _

theorem submitWithToken_wellFormed (hw : a.WellFormed) (e : EventEnvelope β)
    (token : CancellationToken) : (a.submitWithToken e token).1.WellFormed := by
  have hsub := submitWithToken_submitted hw e token
  generalize a.submitWithToken e token = p at hsub ⊢
  cases hsub with
  | foreign => exact hw
  | refused _ hi => exact hw.congr hi.config rfl
  | admitted _ _ hcfg =>
    refine WellFormed.observeEvent ?_ _
    exact hw.congr hcfg rfl

end WellFormed

/-! ### What reaches the outbox -/

@[simp] theorem observeEvent_outbox (a : SessionActor β κ) (e : EventEnvelope β) :
    (a.observeEvent e).outbox = a.outbox := by
  unfold observeEvent
  split <;> rfl

@[simp] theorem observeEvent_inbox (a : SessionActor β κ) (e : EventEnvelope β) :
    (a.observeEvent e).inbox = a.inbox := by
  unfold observeEvent
  split <;> rfl

@[simp] theorem observeEvent_cancellation (a : SessionActor β κ) (e : EventEnvelope β) :
    (a.observeEvent e).cancellation = a.cancellation := by
  unfold observeEvent
  split <;> rfl

@[simp] theorem observeEvent_sequence (a : SessionActor β κ) (e : EventEnvelope β) :
    (a.observeEvent e).sequence = a.sequence := by
  unfold observeEvent
  split <;> rfl

section Outbox

variable [DecidableEq κ] {a a' : SessionActor β κ} {c c' : Call β}

/-- **Only a publication reaches the outbox**, and only while its generation is accepted. -/
theorem Attempted.outbox {r : Option (Except MailboxError PutReport)}
    (h : Attempted a c a' r) : a.outbox.SameQueue a'.outbox ∨
      (c.kind = .publication ∧ a.cancellation.accepts c.generation = true ∧
        a.outbox.Appended c.event c.event.priority a'.outbox) := by
  cases h with
  | refused _ ho => exact Or.inl ho
  | message => exact Or.inl ⟨rfl, rfl, rfl⟩
  | output hk hacc _ _ _ happ => exact Or.inr ⟨hk, hacc, happ⟩

theorem Begun.outbox {p : SessionActor β κ × Call β} (h : Begun a c p) :
    a.outbox.SameQueue p.1.outbox ∨
      (c.kind = .publication ∧ a.cancellation.accepts c.generation = true ∧
        a.outbox.Appended c.event c.event.priority p.1.outbox) := by
  cases h with
  | waits hatt | rejected hatt => exact hatt.outbox
  | admitted hatt =>
    rw [observeEvent_outbox]
    exact hatt.outbox

omit [DecidableEq κ] in
theorem settle_outbox (a : SessionActor β κ) (c : Call β) (r : Except MailboxError PutReport) :
    (a.settle c r).1.outbox = a.outbox := by
  cases hr : accepted r with
  | true => rw [settle_of_accepted hr, observeEvent_outbox]
  | false =>
    obtain ⟨n, hn⟩ := settle_of_not_accepted (a := a) (c := c) hr
    rw [hn]

theorem Submitted.outbox {e : EventEnvelope β} {token : CancellationToken}
    {p : SessionActor β κ × Except SessionError (SessionSubmission β)}
    (h : Submitted a e token p) : p.1.outbox = a.outbox := by
  cases h with
  | foreign | refused => rfl
  | admitted => exact observeEvent_outbox _ _

end Outbox

end SessionActor

end Eeveetuber
