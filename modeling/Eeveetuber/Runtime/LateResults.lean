import Eeveetuber.Runtime.Traffic

/-!
# Late results never get in

Work outlives the generation it was started for: a publication or a submission
may wait for capacity while a foreground turn replaces the generation it belongs
to. The check that decides is therefore the one made at the commit, under the
mailbox's lock. `Eeveetuber.Traffic.late_result_gate` is what this gives, for
every interleaving: an output is admitted only by a publication whose generation
is accepted at that moment, and a call whose generation is not accepted when it
would commit changes no queue and ends without an acceptance, whatever follows.
-/

namespace Eeveetuber

open Foundation Machine

variable {β κ : Type}

/-- A call whose event was not admitted and never will be. A publication among
them returns `False` when it returns. -/
def Call.Rejected (c : Call β) : Prop :=
  match c.phase with
  | .waiting => False
  | .settling r | .returned r =>
    accepted r = false ∧
      (c.kind = .publication → (CallPhase.returned r).publishReturns = some false)
  | .refused | .abandoned => True

namespace Traffic

variable [DecidableEq κ] {s t u : Traffic β κ} {l : Label β} {i : ℕ} {c c' : Call β}
  {g : CancellationGeneration} {kind : CallKind}

/-- The call that a step lets put its event or give it up, with its kind and generation. -/
def tries (s : Traffic β κ) : Label β → Option (ℕ × CallKind × CancellationGeneration)
  | .publishResult _ g => some (s.calls.length, .publication, g)
  | .attempt i | .giveUp i => (s.calls[i]?).map fun c => (i, c.kind, c.generation)
  | _ => none

/-- A publication returns `False` unless its put was accepted or raised something
other than the closing of the outbox. -/
theorem publishReturns_returned {r : Except MailboxError PutReport} (hr : accepted r = false)
    (hclosed : ∀ e, r = .error e → e = .closed) :
    (CallPhase.returned r).publishReturns = some false := by
  cases r with
  | ok report => exact congrArg some hr
  | error e =>
    obtain rfl := hclosed e rfl
    rfl

theorem Forward.rejected (h : Forward c c') (hc : c.Rejected) :
    c'.Rejected ∧ c'.kind = c.kind ∧ c'.generation = c.generation := by
  cases h with
  | refl => exact ⟨hc, rfl, rfl⟩
  | decided hw => simp [Call.Rejected, hw] at hc
  | returned hr =>
    simp only [Call.Rejected, hr] at hc
    exact ⟨hc, rfl, rfl⟩
  | abandoned => exact ⟨trivial, rfl, rfl⟩

/-- A rejected call stays rejected. -/
theorem Leads.rejected (h : machine.Leads t u)
    (ht : ∃ c, t.calls[i]? = some c ∧ c.kind = kind ∧ c.generation = g ∧ c.Rejected) :
    ∃ c, u.calls[i]? = some c ∧ c.kind = kind ∧ c.generation = g ∧ c.Rejected := by
  refine h.invariant (I := fun v : Traffic β κ => ∃ c, v.calls[i]? = some c ∧ c.kind = kind ∧
    c.generation = g ∧ c.Rejected) ht ?_
  rintro v l w ⟨c, hc, rfl, rfl, hrej⟩ hn
  obtain ⟨c', hc', hfwd⟩ := next_calls hn hc
  obtain ⟨hrej', hkind, hgen⟩ := hfwd.rejected hrej
  exact ⟨c', hc', hkind, hgen, hrej'⟩

/-! ### What an attempt does under a generation that is not accepted -/

/-- An attempt under a generation that is not accepted is decided, and leaves both queues alone. -/
theorem attempted_of_not_accepts {a a' : SessionActor β κ}
    {r : Option (Except MailboxError PutReport)} (h : SessionActor.Attempted a c a' r)
    (hg : a.cancellation.accepts c.generation = false) :
    a'.inbox.items = a.inbox.items ∧ a'.outbox.items = a.outbox.items ∧
      (∀ x, r = some x → accepted x = false) ∧
      (c.kind = .publication → ∀ e, r = some (.error e) → e = .closed) := by
  cases h with
  | refused hi ho _ _ hacc hclosed => exact ⟨hi.items, ho.items, hacc, hclosed⟩
  | message _ hacc | output _ hacc => rw [hg] at hacc; cases hacc

/-- Under a generation that is not accepted a put does not wait. -/
theorem tryPut_ne_none_of_not_accepts {a : SessionActor β κ} (hw : a.WellFormed)
    (hg : a.cancellation.accepts c.generation = false) : (a.tryPut c).2 ≠ none := by
  unfold SessionActor.tryPut
  cases c.kind with
  | submission =>
    dsimp only
    rw [PriorityMailbox.putWait, hw.inbox_priorityOf, hg]
    cases hput : (do
        let priority ← (.ok c.event.priority : Except MailboxError ℤ)
        a.inbox.tryPutLocked ⟨c.event, ⟨c.generation⟩⟩ priority false (some false) false) with
    | error err => simp
    | ok p =>
      obtain ⟨inbox, r⟩ := p
      obtain ⟨-, hstep⟩ := PriorityMailbox.tryPutLocked_putStep hput
      obtain ⟨-, rfl⟩ := hstep.of_acceptIf_false
      simp
  | publication =>
    dsimp only
    rw [PriorityMailbox.putWait, hw.outbox_priorityOf, hg]
    cases hput : (do
        let priority ← (.ok c.event.priority : Except MailboxError ℤ)
        a.outbox.tryPutLocked c.event priority false (some false) true) with
    | error err => simp
    | ok p =>
      obtain ⟨outbox, r⟩ := p
      obtain ⟨-, hstep⟩ := PriorityMailbox.tryPutLocked_putStep hput
      obtain ⟨-, rfl⟩ := hstep.of_acceptIf_false
      simp

/-! ### What reaches the outbox -/

/-- A step that has the outbox's queue as it was, or shorter, or one entry longer
by a publication whose generation is accepted. -/
def Gated (s : Traffic β κ) (l : Label β) (t : Traffic β κ) : Prop :=
  t.actor.outbox.items.Sublist s.actor.outbox.items ∨
    ∃ i g c, s.tries l = some (i, .publication, g) ∧ s.actor.cancellation.accepts g = true ∧
      t.calls[i]? = some c ∧ c.generation = g ∧
      s.actor.outbox.Appended c.event c.event.priority t.actor.outbox

omit [DecidableEq κ] in
theorem gated_of_sameQueue (h : s.actor.outbox.SameQueue t.actor.outbox) : Gated s l t :=
  Or.inl (by rw [h.items])

omit [DecidableEq κ] in
theorem gated_of_eq (h : t.actor.outbox = s.actor.outbox) : Gated s l t :=
  Or.inl (by rw [h])

/-- A submission does not reach the outbox. -/
theorem sameQueue_of_begun_submission {a : SessionActor β κ} {e : EventEnvelope β}
    {p : SessionActor β κ × Call β} {phase : CallPhase}
    (h : SessionActor.Begun a ⟨.submission, g, e, phase⟩ p) : a.outbox.SameQueue p.1.outbox := by
  rcases h.outbox with h | ⟨hk, -, -⟩
  · exact h
  · cases hk

theorem begun_event {a : SessionActor β κ} {p : SessionActor β κ × Call β}
    (h : SessionActor.Begun a c p) :
    p.2.event = c.event ∧ p.2.kind = c.kind ∧ p.2.generation = c.generation := by
  cases h <;> exact ⟨rfl, rfl, rfl⟩

/-- **Every admission to the outbox is gated.** -/
theorem next_gated (hw : s.actor.WellFormed) (h : s.next l = some t) : Gated s l t := by
  cases l with
  | start =>
    simp only [next] at h
    split at h
    · rename_i hstart
      cases h
      exact gated_of_sameQueue (SessionActor.quiet_start hstart).outbox
    · cases h
  | submit e =>
    cases h
    rcases s.actor.submit_cases e with ⟨err, he⟩ | ⟨-, -, he⟩
    · exact gated_of_eq (by simp only [he])
    · refine gated_of_eq ?_
      simp only [he]
      exact (SessionActor.submitWithToken_submitted hw _ _).outbox
  | submitForegroundTurn e reason =>
    cases h
    rcases s.actor.submitForegroundTurn_cases e reason with
      ⟨err, he⟩ | ⟨source, token, -, -, he⟩
    · exact gated_of_eq (by simp only [he])
    · refine gated_of_eq ?_
      simp only [he]
      exact (SessionActor.submitWithToken_submitted (a := { s.actor with cancellation := source })
        (hw.congr rfl rfl) e token).outbox
  | submitWait e =>
    cases h
    rcases s.actor.submitWait_cases e with ⟨err, he⟩ | ⟨stamped, -, -, -, he⟩
    · exact gated_of_eq (by simp only [he, begin])
    · have hbegun := SessionActor.firstAttempt_begun
        (c := ⟨.submission, s.actor.cancellation.generation, stamped, .waiting⟩)
        hw.stampedActor rfl
      have hq := sameQueue_of_begun_submission hbegun
      refine gated_of_sameQueue ?_
      simp only [he, begin]
      exact hq
  | submitForegroundTurnWait e reason =>
    cases h
    rcases s.actor.submitForegroundTurnWait_cases e reason with
      ⟨err, he⟩ | ⟨source, token, -, -, ⟨err, he⟩ | ⟨stamped, -, he⟩⟩
    · exact gated_of_eq (by simp only [he, begin])
    · exact gated_of_eq (by simp only [he, begin])
    · have hbegun := SessionActor.firstAttempt_begun
        (a := SessionActor.stampedActor { s.actor with cancellation := source })
        (c := ⟨.submission, token.generation, stamped, .waiting⟩) (hw.congr rfl rfl) rfl
      have hq := sameQueue_of_begun_submission hbegun
      refine gated_of_sameQueue ?_
      simp only [he, begin]
      exact hq
  | publishResult e g =>
    cases h
    rcases s.actor.publishResult_cases e g with
      ⟨-, he⟩ | ⟨hacc, ⟨err, he⟩ | ⟨stamped, -, he⟩⟩
    · exact gated_of_eq (by simp only [he, begin])
    · exact gated_of_eq (by simp only [he, begin])
    · have hbegun := SessionActor.firstAttempt_begun
        (c := ⟨.publication, g, stamped, .waiting⟩) hw.stampedActor rfl
      obtain ⟨hevent, -, hgen⟩ := begun_event hbegun
      -- the first attempt may already get the event in
      rcases hbegun.outbox with hq | ⟨-, -, happ⟩
      · refine gated_of_sameQueue ?_
        simp only [he, begin]
        exact hq
      · rw [← hevent] at happ
        refine Or.inr ⟨_, g, _, rfl, hacc, ?_, hgen, ?_⟩
        · simp only [he, begin, List.getElem?_concat_length]
        · simp only [he, begin]
          exact happ
  | attempt i =>
    obtain ⟨c, a, c', hc, hatt, rfl⟩ := resume_eq_some.mp h
    obtain ⟨-, rfl, hc'⟩ := attempting_eq_some hatt
    rcases (SessionActor.tryPut_attempted (c := c) hw).outbox with hq | ⟨hk, hacc, happ⟩
    · exact gated_of_sameQueue hq
    · obtain ⟨hlt, -⟩ := List.getElem?_eq_some_iff.mp hc
      refine Or.inr ⟨i, c.generation, c', by simp [tries, hc, hk], hacc, by simp [hlt], ?_, ?_⟩
      · rcases hc' with ⟨-, rfl⟩ | ⟨r, -, rfl⟩ <;> rfl
      · rcases hc' with ⟨-, rfl⟩ | ⟨r, -, rfl⟩ <;> exact happ
  | giveUp i =>
    obtain ⟨c, a, c', -, hgive, rfl⟩ := resume_eq_some.mp h
    obtain ⟨-, -, -, rfl | rfl⟩ := givingUp_eq_some hgive
    · exact gated_of_eq rfl
    · exact gated_of_sameQueue ⟨rfl, rfl, rfl⟩
  | settle i =>
    obtain ⟨c, a, c', -, hsettle, rfl⟩ := resume_eq_some.mp h
    obtain ⟨r, -, hr⟩ := settling_eq_some hsettle
    refine gated_of_eq ?_
    have := s.actor.settle_outbox c r
    rwa [← hr] at this
  | abandon i =>
    obtain ⟨c, a, c', -, habandon, rfl⟩ := resume_eq_some.mp h
    obtain ⟨-, rfl, -⟩ := abandoning_eq_some habandon
    exact gated_of_eq rfl
  | receiveOutput =>
    simp only [next, Option.map_eq_some_iff, Prod.exists] at h
    obtain ⟨outbox, x, hget, rfl⟩ := h
    obtain ⟨l₁, l₂, hitems, hrest, -⟩ := PriorityMailbox.get_eq_some hget
    refine Or.inl ?_
    simp only [hitems, hrest]
    exact (List.sublist_cons_self x l₂).append_left l₁
  | receiveMessage =>
    simp only [next, Option.map_eq_some_iff] at h
    obtain ⟨p, -, rfl⟩ := h
    exact gated_of_eq rfl
  | stop graceful =>
    cases h
    exact gated_of_sameQueue (SessionActor.quiet_stop _ _).outbox
  | enterFinally =>
    cases h
    exact gated_of_sameQueue (SessionActor.quiet_enterFinally _).outbox
  | leaveFinally terminal =>
    cases h
    exact gated_of_sameQueue (SessionActor.quiet_leaveFinally _ _).outbox
  | finalizeCancelled =>
    cases h
    exact gated_of_sameQueue (SessionActor.quiet_finalizeCancelled _).outbox

/-! ### What becomes of a call that comes too late -/

/-- **A call that comes too late** changes neither queue, and is rejected. -/
theorem next_rejected (hw : s.actor.WellFormed) (h : s.next l = some t)
    (htries : s.tries l = some (i, kind, g)) (hg : s.actor.cancellation.accepts g = false) :
    t.actor.outbox.items = s.actor.outbox.items ∧ t.actor.inbox.items = s.actor.inbox.items ∧
      ∃ c, t.calls[i]? = some c ∧ c.kind = kind ∧ c.generation = g ∧ c.Rejected := by
  cases l with
  | publishResult e g' =>
    cases h
    cases htries
    -- a publication of another generation is refused as it is made
    rcases s.actor.publishResult_cases e g with ⟨-, he⟩ | ⟨hacc, -⟩
    · refine ⟨by simp only [he, begin], by simp only [he, begin], ?_⟩
      exact ⟨⟨.publication, g, e, .refused⟩, by simp only [he, begin, List.getElem?_concat_length],
        rfl, rfl, trivial⟩
    · rw [hg] at hacc
      cases hacc
  | attempt j =>
    obtain ⟨c, a, c', hc, hatt, rfl⟩ := resume_eq_some.mp h
    obtain ⟨hlt, -⟩ := List.getElem?_eq_some_iff.mp hc
    simp only [tries, hc, Option.map_some, Option.some.injEq, Prod.mk.injEq] at htries
    obtain ⟨rfl, rfl, rfl⟩ := htries
    obtain ⟨-, rfl, ⟨hnone, -⟩ | ⟨r, hr, rfl⟩⟩ := attempting_eq_some hatt
    -- the attempt is not made to wait
    · exact absurd hnone (tryPut_ne_none_of_not_accepts hw hg)
    · obtain ⟨hin, hout, hacc, hclosed⟩ :=
        attempted_of_not_accepts (SessionActor.tryPut_attempted hw) hg
      refine ⟨hout, hin, { c with phase := .settling r }, by simp [hlt], rfl, rfl, hacc r hr, ?_⟩
      intro hk
      exact publishReturns_returned (hacc r hr) fun e he => hclosed hk e (by rw [hr, he])
  | giveUp j =>
    obtain ⟨c, a, c', hc, hgive, rfl⟩ := resume_eq_some.mp h
    obtain ⟨hlt, -⟩ := List.getElem?_eq_some_iff.mp hc
    simp only [tries, hc, Option.map_some, Option.some.injEq, Prod.mk.injEq] at htries
    obtain ⟨rfl, rfl, rfl⟩ := htries
    obtain ⟨-, -, rfl, ha⟩ := givingUp_eq_some hgive
    refine ⟨?_, ?_, { c with phase := .settling (.ok ⟨.cancelled, none⟩) }, by simp [hlt], rfl, rfl,
      rfl, fun _ => rfl⟩ <;> rcases ha with rfl | rfl <;> rfl
  | _ => cases htries

/-- **The late-result gate.** In every step of every run an output is admitted only
by a publication whose generation is accepted at that moment; and a publication or
a waiting submission whose generation is not accepted when it would commit leaves
both queues as they are, and in no later state is it anything but rejected. -/
theorem late_result_gate (hs : machine.Reachable s) (h : s.next l = some t) :
    Gated s l t ∧
      ∀ i kind g, s.tries l = some (i, kind, g) → s.actor.cancellation.accepts g = false →
        t.actor.outbox.items = s.actor.outbox.items ∧
          t.actor.inbox.items = s.actor.inbox.items ∧
          ∀ u, machine.Leads t u →
            ∃ c, u.calls[i]? = some c ∧ c.kind = kind ∧ c.generation = g ∧ c.Rejected := by
  have hw := reachable_wellFormed hs
  refine ⟨next_gated hw h, fun i kind g htries hg => ?_⟩
  obtain ⟨hout, hin, hrej⟩ := next_rejected hw h htries hg
  exact ⟨hout, hin, fun u hu => Leads.rejected hu hrej⟩

/-- A publication waits for room while a foreground turn replaces its generation. -/
def overtake : List (Label ℕ) :=
  [.start, .publishResult note 0, .publishResult note 0,
    .submitForegroundTurn note "replaced".toList]

/-- The state they lead to. -/
def overtaken : Traffic ℕ ℕ := (machine.run narrow overtake).getD narrow

/-- The state after that publication has tried again. -/
def overtakenNext : Traffic ℕ ℕ := (overtaken.next (.attempt 1)).getD narrow

theorem overtaken_reachable : machine.Reachable overtaken :=
  reachable_of_run narrow_start (show machine.run narrow overtake = some overtaken from rfl)

theorem late_result_gate_overtaken :
    overtakenNext.actor.outbox.items = overtaken.actor.outbox.items ∧
      ∀ u, machine.Leads overtakenNext u → ∃ c, u.calls[1]? = some c ∧ c.Rejected := by
  have h : overtaken.next (.attempt 1) = some overtakenNext := rfl
  obtain ⟨hout, -, hrej⟩ := (late_result_gate overtaken_reachable h).2 1 .publication 0 rfl rfl
  refine ⟨hout, fun u hu => ?_⟩
  obtain ⟨c, hc, -, -, hc'⟩ := hrej u hu
  exact ⟨c, hc, hc'⟩

end Traffic

end Eeveetuber
