import Eeveetuber.Runtime.PutWait
import Eeveetuber.Runtime.Sequence

/-!
# Every admitted event is reported

Whatever enters a mailbox of a session is to be reported to the event observer. An immediate
submission reports its event before it gives up the event loop; a call that has waited reports it
when `put_wait` returns, which is one await after the event went in. So the observer is always
behind by the calls that stand at this await, and by nothing else:
`Eeveetuber.Traffic.reported_of_reachable`. The exception is a caller that is cancelled there, and
with it the report is lost (`Eeveetuber.Traffic.put_wait_not_atomic`).
`Eeveetuber.Traffic.put_wait_atomic` has both halves of what holds without such cancellations:
that of one call of `put_wait`, await by await, and that of a whole session.
-/

namespace Eeveetuber

open Foundation

variable {β κ : Type}

/-- The event of a call that got it in. -/
def Call.admission (c : Call β) : List (EventEnvelope β) :=
  match c.phase with
  | .settling r | .returned r => if accepted r then [c.event] else []
  | .waiting | .refused | .abandoned => []

/-- The event of a call that got it in and has not reported it. -/
def Call.unreported (c : Call β) : List (EventEnvelope β) :=
  match c.phase with
  | .settling r => if accepted r then [c.event] else []
  | .returned _ | .waiting | .refused | .abandoned => []

theorem Call.unreported_of_settling {c : Call β} {r : Except MailboxError PutReport}
    (h : c.phase = .settling r) : c.unreported = if accepted r then [c.event] else [] := by
  rw [unreported, h]

namespace Traffic

/-- The event of an immediate submission that got it in. -/
def submitted : Except SessionError (SessionSubmission β) → List (EventEnvelope β)
  | .ok submission => if submission.report.accepted then [submission.event] else []
  | .error _ => []

/-- The event of a call that got it in at its first attempt. -/
def begun : Except SessionError (Call β) → List (EventEnvelope β)
  | .ok c => c.admission
  | .error _ => []

/-- The events that a step admits to the inbox or the outbox. -/
def admissions [DecidableEq κ] (s : Traffic β κ) : Label β → List (EventEnvelope β)
  | .submit e => submitted (s.actor.submit e).2
  | .submitForegroundTurn e reason => submitted (s.actor.submitForegroundTurn e reason).2
  | .submitWait e => begun (s.actor.submitWait e).2
  | .submitForegroundTurnWait e reason => begun (s.actor.submitForegroundTurnWait e reason).2
  | .publishResult e generation => begun (s.actor.publishResult e generation).2
  | .attempt i => (s.calls[i]?).toList.flatMap fun c => (s.actor.attempt c).2.admission
  | _ => []

/-- A session, and the events ever admitted to its mailboxes. -/
def admissionMachine [DecidableEq κ] :
    Machine (Traffic β κ × List (EventEnvelope β)) (Label β) where
  start d := machine.start d.1 ∧ d.2 = []
  next d l := (d.1.next l).map fun t => (t, d.2 ++ d.1.admissions l)

/-- The events that are in and still to be reported. -/
def unreported (s : Traffic β κ) : List (EventEnvelope β) := s.calls.flatMap (·.unreported)

/-- No caller is cancelled when its event is in already. -/
def Spares (d : Traffic β κ × List (EventEnvelope β)) (l : Label β) : Prop :=
  ∀ i c r, l = .abandon i → d.1.calls[i]? = some c → c.phase = .settling r → accepted r = false

/-! ### What the methods report -/

/-- What a method reports to an observer that is there. -/
structure Observes (a a' : SessionActor β κ) (es : List (EventEnvelope β)) : Prop where
  observer : a'.observer = a.observer
  observed : a.observer.isSome = true → a'.observed = a.observed ++ es

section Observes

variable [DecidableEq κ] {a a' : SessionActor β κ} {c : Call β} {e : EventEnvelope β}

omit [DecidableEq κ] in
theorem Observes.silent (hobserver : a'.observer = a.observer)
    (hobserved : a'.observed = a.observed) : Observes a a' [] :=
  ⟨hobserver, fun _ => hobserved.trans (List.append_nil _).symm⟩

omit [DecidableEq κ] in
theorem observes_observeEvent (hobserver : a'.observer = a.observer)
    (hobserved : a'.observed = a.observed) : Observes a (a'.observeEvent e) [e] := by
  rw [SessionActor.observeEvent]
  rcases ho : a'.observer with _ | raises
  · refine ⟨hobserver, fun hsome => ?_⟩
    rw [← hobserver, ho] at hsome
    cases hsome
  · constructor
    · exact ho.symm.trans hobserver
    · intro _
      show a'.observed ++ [e] = a.observed ++ [e]
      rw [hobserved]

theorem observes_attempted {r : Option (Except MailboxError PutReport)}
    (h : SessionActor.Attempted a c a' r) :
    a'.observer = a.observer ∧ a'.observed = a.observed := by
  cases h with
  | refused | message | output => exact ⟨rfl, rfl⟩

/-- A call reports what it admits if it does not have to wait. -/
theorem observes_firstAttempt (hw : a.WellFormed) (hc : c.phase = .waiting) :
    Observes a (a.firstAttempt c).1 (a.firstAttempt c).2.admission ∧
      (a.firstAttempt c).2.unreported = [] := by
  have hbegun := SessionActor.firstAttempt_begun hw hc
  generalize a.firstAttempt c = p at hbegun ⊢
  cases hbegun with
  | waits h =>
    obtain ⟨hobserver, hobserved⟩ := observes_attempted h
    rw [Call.admission, Call.unreported, hc]
    exact ⟨.silent hobserver hobserved, rfl⟩
  | rejected h hr =>
    obtain ⟨hobserver, hobserved⟩ := observes_attempted h
    rw [Call.admission]
    dsimp only
    rw [hr]
    exact ⟨.silent hobserver hobserved, rfl⟩
  | admitted h hr =>
    obtain ⟨hobserver, hobserved⟩ := observes_attempted h
    rw [Call.admission]
    dsimp only
    rw [hr]
    exact ⟨observes_observeEvent hobserver hobserved, rfl⟩

/-- An immediate submission reports what it admits. -/
theorem observes_submitWithToken (hw : a.WellFormed) (e : EventEnvelope β)
    (token : CancellationToken) :
    Observes a (a.submitWithToken e token).1 (submitted (a.submitWithToken e token).2) := by
  have hsubmitted := SessionActor.submitWithToken_submitted hw e token
  generalize a.submitWithToken e token = p at hsubmitted ⊢
  cases hsubmitted with
  | foreign => exact .silent rfl rfl
  | @refused _ _ r _ _ _ hr =>
    rcases r with err | submission
    · exact .silent rfl rfl
    · rw [submitted, hr submission rfl]
      exact .silent rfl rfl
  | admitted _ _ _ _ _ hreport =>
    rw [submitted]
    dsimp only
    rw [hreport]
    exact observes_observeEvent rfl rfl

end Observes

/-! ### What a step reports -/

/-- A step that reports what it admits, or keeps it for a call that is still to report it. -/
structure Reports (s t : Traffic β κ) (es : List (EventEnvelope β)) : Prop where
  observer : t.actor.observer = s.actor.observer
  perm : s.actor.observer.isSome = true →
    (t.actor.observed ++ t.unreported).Perm (s.actor.observed ++ s.unreported ++ es)

section Steps

variable {s t : Traffic β κ} {a : SessionActor β κ} {c c' : Call β} {i : ℕ}
  {es fs : List (EventEnvelope β)}

/-- A step that concerns no call. -/
theorem reports_actor (h : Observes s.actor a es) : s.Reports { s with actor := a } es := by
  refine ⟨h.observer, fun hsome => ?_⟩
  show (a.observed ++ s.unreported).Perm _
  rw [h.observed hsome, List.append_assoc, List.append_assoc]
  exact List.perm_append_comm.append_left _

/-- A step that begins a call. -/
theorem reports_begin {p : SessionActor β κ × Except SessionError (Call β)}
    (h : Observes s.actor p.1 (begun p.2)) (hp : ∀ c, p.2 = .ok c → c.unreported = []) :
    s.Reports (s.begin p) (begun p.2) := by
  obtain ⟨a, _ | c⟩ := p
  · exact reports_actor h
  · have hactor := reports_actor h
    refine ⟨hactor.observer, fun hsome => ?_⟩
    have hcalls : (s.begin (a, .ok c)).unreported = s.unreported := by
      show (s.calls ++ [c]).flatMap _ = s.calls.flatMap _
      rw [List.flatMap_append, List.flatMap_singleton, hp c rfl, List.append_nil]
    rw [hcalls]
    exact hactor.perm hsome

open scoped List in
/-- A step that moves a call on: what the call had to report before it, and what the step
admits, is what it reports and what the call still has to report. -/
theorem reports_resume (hc : s.calls[i]? = some c) (h : Observes s.actor a es)
    (hcall : es ++ c'.unreported = c.unreported ++ fs) :
    s.Reports { s with actor := a, calls := s.calls.set i c' } fs := by
  refine ⟨h.observer, fun hsome => ?_⟩
  obtain ⟨l₁, l₂, hl, hset⟩ := exists_split hc
  show (a.observed ++ (s.calls.set i c').flatMap _).Perm
    (s.actor.observed ++ s.calls.flatMap _ ++ fs)
  rw [h.observed hsome, hset, hl, List.flatMap_append, List.flatMap_append, List.flatMap_cons,
    List.flatMap_cons]
  generalize l₁.flatMap (·.unreported) = before
  generalize l₂.flatMap (·.unreported) = after
  calc s.actor.observed ++ es ++ (before ++ (c'.unreported ++ after))
      = s.actor.observed ++ (es ++ (before ++ (c'.unreported ++ after))) :=
        List.append_assoc _ _ _
    _ = s.actor.observed ++ ((es ++ before) ++ (c'.unreported ++ after)) := by
        rw [List.append_assoc es]
    _ ~ s.actor.observed ++ ((before ++ es) ++ (c'.unreported ++ after)) :=
        (List.perm_append_comm.append_right _).append_left _
    _ = s.actor.observed ++ (before ++ ((es ++ c'.unreported) ++ after)) := by
        rw [List.append_assoc, List.append_assoc]
    _ = s.actor.observed ++ (before ++ (c.unreported ++ (fs ++ after))) := by
        rw [hcall, List.append_assoc]
    _ ~ s.actor.observed ++ (before ++ (c.unreported ++ (after ++ fs))) :=
        (((List.perm_append_comm.append_left _).append_left _).append_left _)
    _ = s.actor.observed ++ (before ++ (c.unreported ++ after)) ++ fs := by
        rw [List.append_assoc, List.append_assoc, List.append_assoc]

end Steps

section Next

variable [DecidableEq κ] {s t : Traffic β κ} {l : Label β}

omit [DecidableEq κ] in
/-- Stopping a session reports nothing. -/
theorem Observes.stop (a : SessionActor β κ) (graceful : Bool) :
    Observes a (a.stop graceful) [] := by
  refine .silent ?_ (SessionActor.quiet_stop a graceful).observed
  rw [SessionActor.stop]
  split <;> rfl

/-- **A step reports what it admits**, or leaves it to the call that got it in. -/
theorem reports_next {log : List (EventEnvelope β)} (hw : s.actor.WellFormed)
    (hok : Spares (s, log) l) (hn : s.next l = some t) : s.Reports t (s.admissions l) := by
  cases l with
  | start =>
    rw [next] at hn
    rcases hstart : s.actor.start with err | a
    · rw [hstart] at hn
      cases hn
    · rw [hstart] at hn
      cases hn
      rw [SessionActor.start] at hstart
      split_ifs at hstart
      cases hstart
      exact reports_actor (.silent rfl rfl)
  | submit e =>
    cases hn
    rw [admissions]
    refine reports_actor ?_
    rcases s.actor.submit_cases e with ⟨err, he⟩ | ⟨-, -, he⟩
    · rw [he]
      exact .silent rfl rfl
    · rw [he]
      exact observes_submitWithToken hw _ _
  | submitForegroundTurn e reason =>
    cases hn
    rw [admissions]
    refine reports_actor ?_
    rcases s.actor.submitForegroundTurn_cases e reason with ⟨err, he⟩ | ⟨source, token, -, -, he⟩
    · rw [he]
      exact .silent rfl rfl
    · rw [he]
      have hw' : SessionActor.WellFormed { s.actor with cancellation := source } :=
        hw.congr rfl rfl
      obtain ⟨hobserver, hobserved⟩ := observes_submitWithToken hw' e token
      exact ⟨hobserver, hobserved⟩
  | submitWait e =>
    cases hn
    rcases s.actor.submitWait_cases e with ⟨err, he⟩ | ⟨stamped, -, -, -, he⟩
    · refine reports_begin ?_ ?_
      · rw [he]
        exact .silent rfl rfl
      · rw [he]
        rintro c ⟨⟩
    · obtain ⟨⟨hobserver, hobserved⟩, hunreported⟩ := observes_firstAttempt hw.stampedActor
        (c := ⟨.submission, s.actor.cancellation.generation, stamped, .waiting⟩) rfl
      refine reports_begin ?_ ?_
      · rw [he]
        exact ⟨hobserver, hobserved⟩
      · rw [he]
        rintro c ⟨⟩
        exact hunreported
  | submitForegroundTurnWait e reason =>
    cases hn
    rcases s.actor.submitForegroundTurnWait_cases e reason with
      ⟨err, he⟩ | ⟨source, token, -, -, ⟨err, he⟩ | ⟨stamped, -, he⟩⟩
    · refine reports_begin ?_ ?_
      · rw [he]
        exact .silent rfl rfl
      · rw [he]
        rintro c ⟨⟩
    · refine reports_begin ?_ ?_
      · rw [he]
        exact .silent rfl rfl
      · rw [he]
        rintro c ⟨⟩
    · obtain ⟨⟨hobserver, hobserved⟩, hunreported⟩ := observes_firstAttempt
        (a := SessionActor.stampedActor { s.actor with cancellation := source })
        (c := ⟨.submission, token.generation, stamped, .waiting⟩) (hw.congr rfl rfl) rfl
      refine reports_begin ?_ ?_
      · rw [he]
        exact ⟨hobserver, hobserved⟩
      · rw [he]
        rintro c ⟨⟩
        exact hunreported
  | publishResult e g =>
    cases hn
    rcases s.actor.publishResult_cases e g with ⟨-, he⟩ | ⟨-, ⟨err, he⟩ | ⟨stamped, -, he⟩⟩
    · refine reports_begin ?_ ?_
      · rw [he]
        exact .silent rfl rfl
      · rw [he]
        rintro c ⟨⟩
        rfl
    · refine reports_begin ?_ ?_
      · rw [he]
        exact .silent rfl rfl
      · rw [he]
        rintro c ⟨⟩
    · obtain ⟨⟨hobserver, hobserved⟩, hunreported⟩ := observes_firstAttempt hw.stampedActor
        (c := ⟨.publication, g, stamped, .waiting⟩) rfl
      refine reports_begin ?_ ?_
      · rw [he]
        exact ⟨hobserver, hobserved⟩
      · rw [he]
        rintro c ⟨⟩
        exact hunreported
  | attempt i =>
    obtain ⟨c, a, c', hc, hattempt, rfl⟩ := resume_eq_some.mp hn
    obtain ⟨hwaiting, ha, hphase⟩ := attempting_eq_some hattempt
    obtain ⟨hobserver, hobserved⟩ := observes_attempted (SessionActor.tryPut_attempted (c := c) hw)
    -- what the attempt gets in is left to the call to report
    have hadmissions : s.admissions (.attempt i) = c'.admission := by
      rw [attempting, hwaiting] at hattempt
      have hc' : (s.actor.attempt c).2 = c' := congrArg Prod.snd (Option.some.inj hattempt)
      rw [admissions, hc, ← hc']
      exact List.flatMap_singleton _ _
    rw [hadmissions]
    have hsilent : Observes s.actor a [] := by
      rw [ha]
      exact .silent hobserver hobserved
    refine reports_resume hc hsilent ?_
    rcases hphase with ⟨-, rfl⟩ | ⟨r, -, rfl⟩
    · rw [Call.unreported, Call.admission, hwaiting]
    · rw [Call.unreported, Call.unreported, Call.admission, hwaiting]
  | giveUp i =>
    obtain ⟨c, a, c', hc, hgiveUp, rfl⟩ := resume_eq_some.mp hn
    obtain ⟨hwaiting, -, rfl, ha⟩ := givingUp_eq_some hgiveUp
    have hsilent : Observes s.actor a [] := by
      rcases ha with rfl | rfl
      · exact .silent rfl rfl
      · exact .silent rfl rfl
    refine reports_resume hc hsilent ?_
    rw [Call.unreported, Call.unreported, hwaiting]
    rfl
  | settle i =>
    obtain ⟨c, a, c', hc, hsettle, rfl⟩ := resume_eq_some.mp hn
    obtain ⟨r, hphase, hr⟩ := settling_eq_some hsettle
    rcases haccepted : accepted r with _ | _
    · obtain ⟨n, hn⟩ := SessionActor.settle_of_not_accepted (a := s.actor) (c := c) haccepted
      rw [hn] at hr
      cases hr
      refine reports_resume hc (.silent rfl rfl) ?_
      rw [Call.unreported_of_settling hphase, haccepted]
      rfl
    -- the call reports it now
    · rw [SessionActor.settle_of_accepted haccepted] at hr
      cases hr
      refine reports_resume hc (observes_observeEvent rfl rfl) ?_
      rw [Call.unreported_of_settling hphase, haccepted]
      rfl
  | abandon i =>
    obtain ⟨c, a, c', hc, habandon, rfl⟩ := resume_eq_some.mp hn
    obtain ⟨hphase, rfl, rfl⟩ := abandoning_eq_some habandon
    refine reports_resume hc (.silent rfl rfl) ?_
    rcases hphase with hwaiting | ⟨r, hsettling⟩
    · rw [Call.unreported, Call.unreported, hwaiting]
      rfl
    -- a call that is spared has nothing to report when it is abandoned
    · rw [Call.unreported_of_settling hsettling, hok i c r rfl hc hsettling]
      rfl
  | receiveOutput =>
    obtain ⟨p, -, rfl⟩ := Option.map_eq_some_iff.mp hn
    obtain ⟨hobserver, hperm⟩ := reports_actor (s := s)
      (a := { s.actor with outbox := p.1 }) (.silent rfl rfl)
    exact ⟨hobserver, hperm⟩
  | receiveMessage =>
    obtain ⟨p, -, rfl⟩ := Option.map_eq_some_iff.mp hn
    exact reports_actor (.silent rfl rfl)
  | stop graceful =>
    cases hn
    exact reports_actor (.stop _ _)
  | enterFinally | leaveFinally | finalizeCancelled =>
    cases hn
    exact reports_actor (.silent rfl rfl)

/-- **What has been admitted** has been reported, or a call stands at its last await with it. -/
theorem reported_of_reachable {d : Traffic β κ × List (EventEnvelope β)}
    (h : admissionMachine.ReachableBy Spares d) (hsome : d.1.actor.observer.isSome = true) :
    (d.1.actor.observed ++ d.1.unreported).Perm d.2 := by
  have hinvariant : d.1.actor.WellFormed ∧ (d.1.actor.observer.isSome = true →
      (d.1.actor.observed ++ d.1.unreported).Perm d.2) := by
    refine h.invariant (I := fun d => d.1.actor.WellFormed ∧ (d.1.actor.observer.isSome = true →
      (d.1.actor.observed ++ d.1.unreported).Perm d.2)) ?_ fun d l d' _ hd hok hn => ?_
    · rintro ⟨s, log⟩ ⟨⟨hcalls, -, _, _, _, _, _, _, _, hcreate⟩, hlog⟩
      obtain ⟨hw, -, hobserved, -, -⟩ := SessionActor.create_wellFormed hcreate
      refine ⟨hw, fun _ => ?_⟩
      show (s.actor.observed ++ s.calls.flatMap _).Perm log
      dsimp only at hcalls hlog
      rw [hcalls, hlog, hobserved]
      exact List.Perm.refl _
    · obtain ⟨hw, hperm⟩ := hd
      obtain ⟨t, hstep, rfl⟩ := Option.map_eq_some_iff.mp hn
      have hspares : Spares (d.1, d.2) l := hok
      obtain ⟨hobserver, hreports⟩ := reports_next hw hspares hstep
      refine ⟨next_wellFormed hw hstep, fun hsome => ?_⟩
      rw [hobserver] at hsome
      exact (hreports hsome).trans ((hperm hsome).append_right _)
  exact hinvariant.2 hsome

end Next

/-! ### Cancelled at the last await -/

/-- A mailbox for one item, with one in it. -/
def crowded : PriorityMailbox ℕ ℕ :=
  (PriorityMailbox.make ⟨1, .reject, fun _ => .ok 0, none, fun _ new => .ok new, Nat.zero_lt_one,
    by decide⟩).append 1 0

/-- A call that waits for space, gets its item in, and is cancelled while it awaits the end of the
task that watches its cancellation. -/
def lateCancellation : List (PutWaitLabel ℕ ℕ) :=
  [.wake none, .others (crowded.get.elim crowded Prod.fst), .spaceDone, .wake none, .wake none,
    .cancel false]

/-- The call before its first await. -/
def crowdedOut : PutWaitRun ℕ ℕ := ⟨.begin 2 0 true true, crowded, []⟩

theorem crowdedOut_start : (putWaitMachine ℕ ℕ).start crowdedOut := ⟨rfl, 2, 0, true, true, rfl⟩

/-- The same in a session: the second publication waits and its task is cancelled too late. -/
def abandoned : List (Label ℕ) :=
  [.start, .publishResult note 0, .publishResult note 0, .receiveOutput, .attempt 1, .abandon 1]

/-- The same publication, which returns. -/
def settled : List (Label ℕ) :=
  [.start, .publishResult note 0, .publishResult note 0, .receiveOutput, .attempt 1, .settle 1]

theorem narrow_admission_start : admissionMachine.start (narrow, []) := ⟨narrow_start, rfl⟩

/-- **`put_wait` is not atomic**: it may end with `CancelledError` although its item is in, and the
session then never reports the event. -/
theorem put_wait_not_atomic :
    (∃ r, (putWaitMachine ℕ ℕ).Reachable r ∧ r.call.point = .over .cancelledError ∧
      ∃ p ∈ r.own, p.1.items.map (·.item) = [] ∧ p.2.items.map (·.item) = [r.call.item]) ∧
    ∃ d : Traffic ℕ ℕ × List (EventEnvelope ℕ), admissionMachine.Reachable d ∧
      d.1.actor.observer.isSome = true ∧ (∀ c ∈ d.1.calls, c.unreported = []) ∧
      d.1.actor.observed.map (·.sequence) = [some 0] ∧ d.2.map (·.sequence) = [some 0, some 1] := by
  constructor
  · have h : (putWaitMachine ℕ ℕ).run crowdedOut lateCancellation =
      some (((putWaitMachine ℕ ℕ).run crowdedOut lateCancellation).getD crowdedOut) := rfl
    exact ⟨_, Machine.reachable_of_run crowdedOut_start h, rfl, _,
      List.mem_of_getElem? (i := 2) rfl, rfl, rfl⟩
  · have h : admissionMachine.run (narrow, []) abandoned =
      some ((admissionMachine.run (narrow, []) abandoned).getD (narrow, [])) := rfl
    exact ⟨_, Machine.reachable_of_run narrow_admission_start h, rfl, by decide, by decide,
      by decide⟩

/-- **`put_wait` and task cancellation.** In every run whose calling tasks are not cancelled when
their items are in already, a call that ends with `CancelledError` has left the queue alone, and
every event admitted to a session is reported exactly once: at once, or by the call that still
stands at its last await with it. -/
theorem put_wait_atomic {α ι : Type} [DecidableEq ι] [DecidableEq κ] {r : PutWaitRun α ι}
    {d : Traffic β κ × List (EventEnvelope β)}
    (hr : (putWaitMachine α ι).ReachableBy PutWaitRun.Spares r)
    (hd : admissionMachine.ReachableBy Spares d) (hsome : d.1.actor.observer.isSome = true) :
    (r.call.point = .over .cancelledError → ∀ p ∈ r.own, p.1.SameQueue p.2) ∧
      (d.1.actor.observed ++ d.1.unreported).Perm d.2 :=
  ⟨sameQueue_of_cancelledError hr, reported_of_reachable hd hsome⟩

/-- A call that is cancelled while it waits, and a session whose second publication waits and is
reported. -/
theorem put_wait_atomic_waiting :
    (∃ r, (putWaitMachine ℕ ℕ).ReachableBy PutWaitRun.Spares r ∧
      r.call.point = .over .cancelledError ∧ ∀ p ∈ r.own, p.1.SameQueue p.2) ∧
    ∃ d : Traffic ℕ ℕ × List (EventEnvelope ℕ), admissionMachine.ReachableBy Spares d ∧
      d.2.map (·.sequence) = [some 0, some 1] ∧
      (d.1.actor.observed ++ d.1.unreported).Perm d.2 := by
  have hr : (putWaitMachine ℕ ℕ).ReachableBy PutWaitRun.Spares
      (((putWaitMachine ℕ ℕ).run crowdedOut [.cancel false]).getD crowdedOut) := by
    refine .step (l := .cancel false) (.start crowdedOut_start) ?_ rfl
    rintro ended result - ⟨⟩
  have hd : admissionMachine.ReachableBy Spares
      ((admissionMachine.run (narrow, []) settled).getD (narrow, [])) := by
    have h : admissionMachine.run (narrow, []) settled =
      some ((admissionMachine.run (narrow, []) settled).getD (narrow, [])) := rfl
    refine Machine.reachableBy_of_labels (I := fun _ => True) (fun _ _ _ _ _ => trivial) ?_
      (.start narrow_admission_start) trivial h
    rintro s l - hl i c r rfl
    simp [settled] at hl
  obtain ⟨hqueue, hperm⟩ := put_wait_atomic hr hd rfl
  exact ⟨⟨_, hr, rfl, hqueue rfl⟩, _, hd, by decide, hperm⟩

end Traffic

end Eeveetuber
