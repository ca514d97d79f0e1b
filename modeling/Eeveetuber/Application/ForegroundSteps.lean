import Eeveetuber.Application.ForegroundTurns

/-!
# Every step of a foreground session

The submissions of the clients, and with them all steps
(`Eeveetuber.ForegroundSession.moves_of_next`). A submission without a generation of its own
only queues its command; one that starts a generation queues it, waits for room or loses it.
-/

namespace Eeveetuber

open Foundation Relation

namespace SessionActor

variable {β κ : Type} [DecidableEq κ] {a a' : SessionActor β κ} {c : Call β}

/-- **What an attempt of a submission does**: nothing to the inbox, or its command is queued. -/
theorem Attempted.submission {r : Option (Except MailboxError PutReport)}
    (h : Attempted a c a' r) (hk : c.kind = .submission)
    (hover : a.inbox.config.overflow = .dropLowest) :
    (a.SameFloor a' ∧ ∀ x, r = some x → accepted x = false) ∨
      ∃ inbox x, a' = { a with inbox := inbox } ∧ r = some x ∧ accepted x = true ∧
        a.cancellation.accepts c.generation = true ∧ a.inbox.full = false ∧
        inbox.config = a.inbox.config ∧ inbox.closed = a.inbox.closed ∧
        a.inbox.Appended ⟨c.event, ⟨c.generation⟩⟩ c.event.priority inbox := by
  have hover' : a.inbox.config.overflow ≠ .coalesce := hover ▸ OverflowPolicy.noConfusion
  cases h with
  | refused hi ho hic _ hr _ =>
    exact Or.inl ⟨⟨rfl, hi.config, hic, hi.items, hi.nextOrder, ho.config, rfl, rfl, rfl⟩, hr⟩
  | @message inbox x _ hacc hx hadmits hcfg hclosed happ =>
    exact Or.inr ⟨inbox, x, rfl, rfl, hx, hacc, PriorityMailbox.full_of_admits hover' hadmits, hcfg,
      hclosed, happ hover'⟩
  | output hk' => exact absurd (hk.symm.trans hk') CallKind.noConfusion

/-- A submission that finds room is accepted. -/
theorem submitWithToken_of_hasRoom {e : EventEnvelope β} (token : CancellationToken)
    (hw : a.WellFormed) (hover : a.inbox.config.overflow = .dropLowest)
    (hopen : a.inbox.closed = false) (hown : e.sessionId = some a.sessionId)
    (hroom : a.inbox.hasRoom e.priority true = true) :
    ∃ x, (a.submitWithToken e token).2 = .ok x ∧ x.report.accepted = true := by
  obtain ⟨stamped, hstamp, -, hpriority⟩ := stamp_own hown
  rw [← hpriority] at hroom
  obtain ⟨inbox, r, hput, hr⟩ := PriorityMailbox.tryPutLocked_of_hasRoom
    (⟨stamped, token⟩ : SessionMessage β) true none hover hopen (by decide) hroom
  have hput' : a.stampedActor.inbox.put ⟨stamped, token⟩ = .ok (inbox, some r) := by
    change a.inbox.put _ = _
    rw [PriorityMailbox.put, hw.inbox_priorityOf]
    exact hput
  rw [submitWithToken, hstamp]
  dsimp only
  rw [hput']
  exact ⟨_, rfl, hr⟩

/-- A call that finds room does not wait. -/
theorem firstAttempt_of_hasRoom (hw : a.WellFormed)
    (hover : a.inbox.config.overflow = .dropLowest) (hopen : a.inbox.closed = false)
    (hk : c.kind = .submission)
    (hacc : a.cancellation.accepts c.generation = true)
    (hroom : a.inbox.hasRoom c.event.priority false = true) :
    ∃ r, accepted r = true ∧ (a.tryPut c).2 = some r := by
  obtain ⟨inbox, r, hput, hr⟩ := PriorityMailbox.tryPutLocked_of_hasRoom
    (⟨c.event, ⟨c.generation⟩⟩ : SessionMessage β) false (some true) hover hopen (by decide) hroom
  have hput' : a.inbox.putWait ⟨c.event, ⟨c.generation⟩⟩ true false = .ok (inbox, some r) := by
    rw [PriorityMailbox.putWait, hw.inbox_priorityOf]
    exact hput
  refine ⟨.ok ⟨r.outcome, r.displaced.map (·.event.eventId)⟩, hr, ?_⟩
  rw [tryPut, hk]
  dsimp only
  rw [hacc, hput']
  rfl

/-- **What a submission does up to its first wait.** -/
theorem firstAttempt_submission (hw : a.WellFormed)
    (hover : a.inbox.config.overflow = .dropLowest) (hk : c.kind = .submission)
    (hphase : c.phase = .waiting) :
    (∃ a' c', a.firstAttempt c = (a', c') ∧ a.SameFloor a' ∧ (c' = c ∨
        c'.phase.isWaiting = false ∧ c'.event = c.event ∧ c'.kind = c.kind) ∧
      ∀ r, (a.tryPut c).2 = some r → accepted r = false) ∨
    ∃ inbox r, a.firstAttempt c =
        (observeEvent { a with inbox := inbox } c.event, { c with phase := .returned r }) ∧
      a.inbox.full = false ∧ inbox.config = a.inbox.config ∧ inbox.closed = a.inbox.closed ∧
      a.inbox.Appended ⟨c.event, ⟨c.generation⟩⟩ c.event.priority inbox := by
  have hatt := (tryPut_attempted (c := c) hw).submission hk hover
  rw [firstAttempt_eq hphase]
  rcases hatt with ⟨hsame, hrefused⟩ | ⟨inbox, r, ha, hr, haccepted, -, hfull, hcfg, hclosed, happ⟩
  · refine Or.inl ?_
    rcases hr : (a.tryPut c).2 with _ | r
    · exact ⟨_, _, rfl, hsame, Or.inl rfl, hr ▸ hrefused⟩
    · exact ⟨_, _, rfl, hsame.trans (sameFloor_settle r), Or.inr ⟨rfl, rfl, rfl⟩, hr ▸ hrefused⟩
  · refine Or.inr ⟨inbox, r, ?_, hfull, hcfg, hclosed, happ⟩
    rw [hr]
    dsimp only
    rw [settle_of_accepted haccepted, ha]

end SessionActor

namespace ForegroundSession

variable {steady : Bool} {s t u : ForegroundSession} {i : ℕ} {task : TurnTask}
  {c : SessionCommand}

/-- **The conditions on a steady step**: a foreground command finds room at once and no other
displaces the current one; a turn is of the current generation when the actor takes it, no
command having overtaken it in the inbox; and the pipeline reports a cancellation only of an
earlier generation. -/
def isSteady (s : ForegroundSession) : Label → Bool
  | .request request _ => request.command.all fun (c, m) =>
    if c.isForeground then s.actor.inbox.hasRoom c.priority.toInt m.displaces
    else !m.displaces || !s.actor.inbox.full ||
      (PriorityMailbox.lowest s.actor.inbox.items).all fun p =>
        !p.1.isForeground || decide (p.1.generation ≠ s.actor.cancellation.generation)
  | .receiveMessage => s.actor.inbox.get.all fun p =>
    !p.2.item.event.body.command?.any SessionCommand.isTurn ||
      decide (p.2.generation = s.actor.cancellation.generation)
  | .turn i label => (s.turns[i]?).all fun task => TurnLabel.isSteady s task label
  | .start | .attempt _ | .giveUp _ | .settle _ | .abandon _ | .receiveOutput | .resumeHandler
  | .drained | .interrupt | .leaveFinally | .workerDone _ _ | .stop _ | .stopTimesOut => true

theorem hasRoom_of_isSteady {request : ClientRequest} {eventId : UUID} {m : SubmissionMethod}
    (h : s.isSteady (.request request eventId) = true) (hcommand : request.command = some (c, m))
    (hforeground : c.isForeground = true) :
    s.actor.inbox.hasRoom c.priority.toInt m.displaces = true := by
  have hall := (Option.all_eq_true _ _).mp h (c, m) hcommand
  dsimp only at hall
  rwa [if_pos hforeground] at hall

theorem lowest_of_isSteady {request : ClientRequest} {eventId : UUID} {m : SubmissionMethod}
    (h : s.isSteady (.request request eventId) = true) (hcommand : request.command = some (c, m))
    (hforeground : c.isForeground = false) (hdisplaces : m.displaces = true)
    (hfull : s.actor.inbox.full = true) : ∀ dropped rest,
      PriorityMailbox.lowest s.actor.inbox.items = some (dropped, rest) →
        dropped.isForeground = true → dropped.generation ≠ s.actor.cancellation.generation := by
  intro dropped rest hlow hdropped
  have hall := (Option.all_eq_true _ _).mp h (c, m) hcommand
  dsimp only at hall
  rw [hforeground, if_neg Bool.false_ne_true, hdisplaces, hfull] at hall
  have hne := (Option.all_eq_true _ _).mp hall (dropped, rest) hlow
  rw [hdropped, Bool.not_true, Bool.false_or] at hne
  exact of_decide_eq_true hne

theorem generation_of_isSteady {inbox : PriorityMailbox (SessionMessage SessionEvent) Empty}
    {x : QueuedCommand} {turn : TurnRequest} (h : s.isSteady .receiveMessage = true)
    (hget : s.actor.inbox.get = some (inbox, x))
    (hbody : x.item.event.body = .command (.turnRequested turn)) :
    x.generation = s.actor.cancellation.generation := by
  have hall := (Option.all_eq_true _ _).mp h (inbox, x) hget
  dsimp only at hall
  rw [hbody] at hall
  exact of_decide_eq_true hall

/-! ### Queued commands -/

/-- A command stands last in the inbox, behind what was kept of it; the rest of the actor is as
it was, but for what it has sent, observed and counted. -/
structure Queues (a a' : SessionActor SessionEvent Empty) (kept : List QueuedCommand)
    (x : QueuedCommand) : Prop where
  inboxConfig : a'.inbox.config = a.inbox.config
  inboxClosed : a'.inbox.closed = a.inbox.closed
  items : a'.inbox.items = kept ++ [x]
  nextOrder : a'.inbox.nextOrder = a.inbox.nextOrder + 1
  outboxConfig : a'.outbox.config = a.outbox.config
  cancellation : a'.cancellation = a.cancellation
  interaction : a'.interaction = a.interaction
  lifecycle : a'.lifecycle = a.lifecycle
  keeps : kept = a.inbox.items ∨ a.inbox.full = true ∧
    ∃ dropped, PriorityMailbox.lowest a.inbox.items = some (dropped, kept)

theorem Queues.trans {a a' a'' : SessionActor SessionEvent Empty} {kept : List QueuedCommand}
    {x : QueuedCommand} (h : Queues a a' kept x) (h' : a'.SameFloor a'') : Queues a a'' kept x :=
  ⟨h'.inboxConfig.trans h.inboxConfig, h'.inboxClosed.trans h.inboxClosed,
    h'.inboxItems.trans h.items, h'.nextOrder.trans h.nextOrder,
    h'.outboxConfig.trans h.outboxConfig, h'.cancellation.trans h.cancellation,
    h'.interaction.trans h.interaction, h'.lifecycle.trans h.lifecycle, h.keeps⟩

theorem Queues.sublist {a a' : SessionActor SessionEvent Empty} {kept : List QueuedCommand}
    {x : QueuedCommand} (h : Queues a a' kept x) : kept.Sublist a.inbox.items := by
  rcases h.keeps with rfl | ⟨-, dropped, hlow⟩
  · exact .refl _
  · obtain ⟨l₁, l₂, hl, rfl, -⟩ := PriorityMailbox.lowest_eq_some hlow
    exact hl ▸ (List.sublist_cons_self _ _).append_left _

/-- An event put last into the inbox. -/
theorem exists_queues {a : SessionActor SessionEvent Empty}
    {inbox : PriorityMailbox (SessionMessage SessionEvent) Empty}
    {e : EventEnvelope SessionEvent} {token : CancellationToken}
    (hcfg : inbox.config = a.inbox.config) (hclosed : inbox.closed = a.inbox.closed)
    (happ : a.inbox.Appended ⟨e, token⟩ e.priority inbox) :
    ∃ kept, Queues a { a with inbox := inbox } kept
      ⟨⟨e, token⟩, e.priority, a.inbox.nextOrder⟩ := by
  obtain ⟨kept, hitems, hkept⟩ := happ.items
  refine ⟨kept, hcfg, hclosed, hitems, happ.nextOrder, rfl, rfl, rfl, rfl, hkept.imp_right ?_⟩
  exact fun h => ⟨h.1, h.2.imp fun _ => And.left⟩

/-- The same, for an event that was stamped before, and is observed then. -/
theorem exists_queues_observed {a : SessionActor SessionEvent Empty}
    {inbox : PriorityMailbox (SessionMessage SessionEvent) Empty}
    {e : EventEnvelope SessionEvent} {token : CancellationToken} (e' : EventEnvelope SessionEvent)
    (hcfg : inbox.config = a.inbox.config) (hclosed : inbox.closed = a.inbox.closed)
    (happ : a.inbox.Appended ⟨e, token⟩ e.priority inbox) :
    ∃ kept, Queues a (SessionActor.observeEvent { a.stampedActor with inbox := inbox } e') kept
      ⟨⟨e, token⟩, e.priority, a.inbox.nextOrder⟩ := by
  obtain ⟨kept, hqueues⟩ := exists_queues hcfg hclosed happ
  have hstamped : SessionActor.SameFloor { a with inbox := inbox }
      { a.stampedActor with inbox := inbox } := ⟨rfl, rfl, rfl, rfl, rfl, rfl, rfl, rfl, rfl⟩
  exact ⟨kept, hqueues.trans (hstamped.trans (SessionActor.sameFloor_observeEvent e'))⟩

section Queues

variable {source : CancellationSource} {traffic : Traffic SessionEvent Empty}
  {kept : List QueuedCommand} {x : QueuedCommand}

theorem Queues.floor
    (h : Queues { s.actor with cancellation := source } traffic.actor kept x) :
    ForegroundSession.floor { s with traffic := traffic } = { s.floor with
      generation := source.generation
      closed := source.closed
      inbox := kept ++ [x]
      nextOrder := s.actor.inbox.nextOrder + 1
      waiting := traffic.calls.filterMap Call.waits? } :=
  Floor.ext (congrArg CancellationSource.generation h.cancellation)
    (congrArg CancellationSource.closed h.cancellation) h.items h.nextOrder rfl rfl
    (congrArg InteractionStateMachine.state h.interaction) rfl

theorem Queues.live (h : Queues { s.actor with cancellation := source } traffic.actor kept x)
    (hs : s.Live) (hsource : source.closed = s.actor.cancellation.closed)
    (hcancelled : source.closed = false → source.state.cancelled = false)
    (hcommands : ∀ c ∈ traffic.calls, c.kind = .submission → ∃ command : SessionCommand,
      c.event.body = .command command ∧ c.event.priority = command.priority.toInt) :
    Live { s with traffic := traffic } := by
  refine hs.traffic h.inboxConfig h.inboxClosed h.outboxConfig h.lifecycle
    ((congrArg CancellationSource.closed h.cancellation).trans hsource) ?_ hcommands
  rw [h.cancellation]
  exact hcancelled

/-- **A command without a generation of its own is queued.** -/
theorem Queues.moves_put (h : Queues s.actor traffic.actor kept x) (hs : s.Live)
    (hbody : x.item.event.body = .command c) (hpriority : x.priority = c.priority.toInt)
    (horder : x.order = s.actor.inbox.nextOrder) (hforeground : c.isForeground = false)
    (hwaiting : traffic.calls.filterMap Call.waits? = s.traffic.calls.filterMap Call.waits?)
    (hcommands : ∀ c ∈ traffic.calls, c.kind = .submission → ∃ command : SessionCommand,
      c.event.body = .command command ∧ c.event.priority = command.priority.toInt)
    (hsteady : steady = true → s.actor.inbox.full = true → ∀ dropped rest,
      PriorityMailbox.lowest s.actor.inbox.items = some (dropped, rest) →
        dropped.isForeground = true → dropped.generation ≠ s.actor.cancellation.generation) :
    Moves steady s { s with traffic := traffic } := by
  have h' : Queues { s.actor with cancellation := s.actor.cancellation } traffic.actor kept x := h
  refine .single (h'.live hs rfl (fun hopen => (hs.opened hopen).1) hcommands) ?_
  rw [h'.floor, hwaiting]
  refine .put ?_ ⟨hbody, hpriority, horder⟩ hforeground
  rcases h.keeps with rfl | ⟨hfull, dropped, hlow⟩
  · exact .all
  · obtain ⟨l₁, l₂, hl, rfl, -⟩ := PriorityMailbox.lowest_eq_some hlow
    exact .less hl fun hst _ => hsteady hst hfull dropped _ hlow

/-- **A foreground command is queued under the next generation.** -/
theorem Queues.moves_queue
    (h : Queues { s.actor with cancellation := source } traffic.actor kept x) (hs : s.Live)
    (hopen : s.actor.cancellation.closed = false) (hsource : source.closed = false)
    (hcancelled : source.state.cancelled = false)
    (hgeneration : source.generation = s.actor.cancellation.generation + 1)
    (hbody : x.item.event.body = .command c) (hpriority : x.priority = c.priority.toInt)
    (horder : x.order = s.actor.inbox.nextOrder) (hforeground : c.isForeground = true)
    (hx : x.generation = s.actor.cancellation.generation + 1)
    (hwaiting : traffic.calls.filterMap Call.waits? = s.traffic.calls.filterMap Call.waits?)
    (hcommands : ∀ c ∈ traffic.calls, c.kind = .submission → ∃ command : SessionCommand,
      c.event.body = .command command ∧ c.event.priority = command.priority.toInt) :
    Moves steady s { s with traffic := traffic } := by
  refine .single (h.live hs (hsource.trans hopen.symm) (fun _ => hcancelled) hcommands) ?_
  rw [h.floor, hwaiting, hgeneration, hsource]
  have hstep : FloorStep steady s.floor { s.floor with
      generation := s.floor.generation + 1
      inbox := kept ++ [x]
      nextOrder := s.floor.nextOrder + 1 } :=
    .queue hopen h.sublist ⟨hbody, hpriority, horder⟩ hforeground hx
  have hclosed : s.floor.closed = false := hopen
  rw [show ({ s.floor with
      generation := s.actor.cancellation.generation + 1
      closed := false
      inbox := kept ++ [x]
      nextOrder := s.actor.inbox.nextOrder + 1
      waiting := s.traffic.calls.filterMap Call.waits? } : Floor) = { s.floor with
        generation := s.floor.generation + 1
        inbox := kept ++ [x]
        nextOrder := s.floor.nextOrder + 1 } from
          Floor.ext rfl hclosed.symm rfl rfl rfl rfl rfl rfl]
  exact hstep

end Queues

/-! ### Submissions -/

/-- **`submit`**: the command is queued, or nothing happens. -/
theorem moves_submit (hs : s.Live) (hforeground : c.isForeground = false) (eventId : UUID)
    (hsteady : steady = true → s.actor.inbox.full = true → ∀ dropped rest,
      PriorityMailbox.lowest s.actor.inbox.items = some (dropped, rest) →
        dropped.isForeground = true → dropped.generation ≠ s.actor.cancellation.generation) :
    Moves steady s (s.withActor (s.actor.submit (s.commandEvent c eventId)).1) := by
  rcases s.actor.submit_cases (s.commandEvent c eventId) with ⟨err, he⟩ | ⟨-, -, he⟩
  · rw [he]
    exact .refl hs
  · rw [he]
    have hsubmitted := SessionActor.submitWithToken_submitted hs.wellFormed
      (s.commandEvent c eventId) s.actor.cancellation.token
    generalize s.actor.submitWithToken _ _ = p at hsubmitted ⊢
    cases hsubmitted with
    | foreign => exact .refl hs
    | @refused stamped inbox r _ hqueue hclosed _ =>
      exact Still.moves
        ⟨⟨rfl, hqueue.config, hclosed, hqueue.items, hqueue.nextOrder, rfl, rfl, rfl, rfl⟩,
          rfl, fun _ hc => Or.inl hc, rfl, rfl, rfl, rfl⟩ hs
    | @admitted stamped inbox report hstamp _ hcfg hclosed happ _ =>
      obtain ⟨-, -, hpriority, hbody⟩ := SessionActor.stamp_eq_ok hstamp
      obtain ⟨kept, hqueues⟩ := exists_queues_observed (a := s.actor) stamped hcfg hclosed
        (happ (hs.overflow ▸ OverflowPolicy.noConfusion))
      exact Queues.moves_put hqueues hs hbody hpriority rfl hforeground rfl hs.commands hsteady

section Advance

variable {source : CancellationSource} {traffic : Traffic SessionEvent Empty}

/-- A foreground command is not queued: its generation is started all the same. -/
theorem moves_not_queued (hs : s.Live) (hsteady : steady = false)
    (hopen : s.actor.cancellation.closed = false) (hsource : source.closed = false)
    (hcancelled : source.state.cancelled = false)
    (hgeneration : source.generation = s.actor.cancellation.generation + 1)
    (ha : SessionActor.SameFloor { s.actor with cancellation := source } traffic.actor)
    (hwaiting : traffic.calls.filterMap Call.waits? = s.traffic.calls.filterMap Call.waits? ∨
      traffic.calls.filterMap Call.waits? =
        s.traffic.calls.filterMap Call.waits? ++ [s.actor.cancellation.generation + 1])
    (hcommands : ∀ c ∈ traffic.calls, c.kind = .submission → ∃ command : SessionCommand,
      c.event.body = .command command ∧ c.event.priority = command.priority.toInt) :
    Moves steady s { s with traffic := traffic } := by
  have hlive : Live { s with traffic := traffic } := by
    refine hs.traffic ha.inboxConfig ha.inboxClosed ha.outboxConfig ha.lifecycle
      ((congrArg CancellationSource.closed ha.cancellation).trans (hsource.trans hopen.symm)) ?_
      hcommands
    rw [ha.cancellation]
    exact fun _ => hcancelled
  have hfloor : ForegroundSession.floor { s with traffic := traffic } = { s.floor with
      generation := s.floor.generation + 1
      waiting := traffic.calls.filterMap Call.waits? } :=
    Floor.ext ((congrArg CancellationSource.generation ha.cancellation).trans hgeneration)
      ((congrArg CancellationSource.closed ha.cancellation).trans (hsource.trans hopen.symm))
      ha.inboxItems ha.nextOrder rfl rfl
      (congrArg InteractionStateMachine.state ha.interaction) rfl
  refine .single hlive ?_
  rw [hfloor]
  rcases hwaiting with hwaiting | hwaiting
  · rw [hwaiting]
    exact .lose hsteady hopen
  · rw [hwaiting]
    exact .wait hsteady hopen

end Advance

/-- **`submit_foreground_turn`**: a generation is started, and the command queued or lost. -/
theorem moves_submitForegroundTurn (hs : s.Live) (hforeground : c.isForeground = true)
    (eventId : UUID) (reason : Text)
    (hroom : steady = true → s.actor.inbox.hasRoom c.priority.toInt true = true) :
    Moves steady s
      (s.withActor (s.actor.submitForegroundTurn (s.commandEvent c eventId) reason).1) := by
  rcases s.actor.submitForegroundTurn_cases (s.commandEvent c eventId) reason with
    ⟨err, he⟩ | ⟨source, token, -, hadvance, he⟩
  · rw [he]
    exact .refl hs
  · obtain ⟨hopen, hsource, hgeneration, rfl, hacc⟩ := CancellationSource.advance_eq_ok hadvance
    obtain ⟨-, -, hcancelled⟩ := CancellationSource.accepts_iff.mp hacc
    have hw : SessionActor.WellFormed { s.actor with cancellation := source } :=
      hs.wellFormed.congr rfl rfl
    rw [he]
    have hsubmitted := SessionActor.submitWithToken_submitted hw (s.commandEvent c eventId)
      ⟨s.actor.cancellation.generation + 1⟩
    generalize hp : SessionActor.submitWithToken { s.actor with cancellation := source }
      (s.commandEvent c eventId) ⟨s.actor.cancellation.generation + 1⟩ = p at hsubmitted ⊢
    cases hsubmitted with
    | foreign hstamp =>
      -- the event is of this session, so that it is stamped
      obtain ⟨stamped, hown, -⟩ := SessionActor.stamp_own
        (a := { s.actor with cancellation := source }) (e := s.commandEvent c eventId) rfl
      cases hstamp.symm.trans hown
    | @refused stamped inbox r _ hqueue hclosed hrefused =>
      -- a steady step finds room
      have hsteady : steady = false := Bool.eq_false_iff.mpr fun hst => by
        obtain ⟨x, hx, haccepted⟩ := SessionActor.submitWithToken_of_hasRoom
          ⟨s.actor.cancellation.generation + 1⟩ hw hs.overflow (hs.opened hopen).2.1
          (e := s.commandEvent c eventId) rfl (hroom hst)
        rw [hp] at hx
        exact Bool.false_ne_true ((hrefused x hx).symm.trans haccepted)
      exact moves_not_queued hs hsteady hopen hsource hcancelled hgeneration
        ⟨rfl, hqueue.config, hclosed, hqueue.items, hqueue.nextOrder, rfl, rfl, rfl, rfl⟩
        (Or.inl rfl) hs.commands
    | @admitted stamped inbox report hstamp _ hcfg hclosed happ _ =>
      obtain ⟨-, -, hpriority, hbody⟩ := SessionActor.stamp_eq_ok hstamp
      have hover : s.actor.inbox.config.overflow ≠ .coalesce :=
        hs.overflow ▸ OverflowPolicy.noConfusion
      obtain ⟨kept, hqueues⟩ := exists_queues_observed
        (a := { s.actor with cancellation := source }) stamped hcfg hclosed (happ hover)
      exact Queues.moves_queue hqueues hs hopen hsource hcancelled hgeneration hbody hpriority rfl
        hforeground rfl rfl hs.commands

theorem waits?_waiting {g : CancellationGeneration} {e : EventEnvelope SessionEvent}
    (hbody : e.body = .command c) (hforeground : c.isForeground = true) :
    (⟨.submission, g, e, .waiting⟩ : Call SessionEvent).waits? = some g := by
  refine if_pos ⟨rfl, rfl, ?_⟩
  change e.body.command?.any _ = true
  rw [hbody]
  exact hforeground

/-- The calls of a session, with a submission of a command added. -/
theorem commands_append (hs : s.Live) {d : Call SessionEvent} (hbody : d.event.body = .command c)
    (hpriority : d.event.priority = c.priority.toInt) :
    ∀ e ∈ s.traffic.calls ++ [d], e.kind = .submission → ∃ command : SessionCommand,
      e.event.body = .command command ∧ e.event.priority = command.priority.toInt := by
  intro e he hk
  rcases List.mem_append.mp he with he | he
  · exact hs.commands e he hk
  · rw [List.mem_singleton.mp he]
    exact ⟨c, hbody, hpriority⟩

theorem waiting_append {d : Call SessionEvent} (h : d.waits? = none) :
    (s.traffic.calls ++ [d]).filterMap Call.waits? = s.traffic.calls.filterMap Call.waits? := by
  rw [List.filterMap_append, List.filterMap_cons_none h, List.filterMap_nil, List.append_nil]

/-- **`submit_wait`**: the command is queued, now or later, or nothing happens. -/
theorem moves_submitWait (hs : s.Live) (hforeground : c.isForeground = false) (eventId : UUID) :
    Moves steady s
      { s with traffic := s.traffic.begin (s.actor.submitWait (s.commandEvent c eventId)) } := by
  rcases s.actor.submitWait_cases (s.commandEvent c eventId) with ⟨err, he⟩ |
    ⟨stamped, -, -, hstamp, he⟩
  · rw [he]
    exact .refl hs
  · obtain ⟨-, -, hpriority, hbody⟩ := SessionActor.stamp_eq_ok hstamp
    rw [he]
    rcases SessionActor.firstAttempt_submission (a := s.actor.stampedActor)
      (c := ⟨.submission, s.actor.cancellation.generation, stamped, .waiting⟩)
      hs.wellFormed.stampedActor hs.overflow rfl rfl with
      ⟨a, c', hattempt, hsame, hc', -⟩ | ⟨inbox, r, hattempt, hfull, hcfg, hclosed, happ⟩
    -- the command is not queued yet
    · rw [hattempt]
      have hevent : c'.event.body = .command c ∧ c'.event.priority = c.priority.toInt := by
        rcases hc' with rfl | ⟨-, hevent, -⟩
        · exact ⟨hbody, hpriority⟩
        · exact hevent ▸ ⟨hbody, hpriority⟩
      have hsame' : s.actor.SameFloor a := SessionActor.sameFloor_stampedActor.trans hsame
      have hwaits : c'.waits? = none := waits?_of_not_isForeground hevent.1 hforeground
      refine .of_floor_eq (hs.traffic hsame'.inboxConfig hsame'.inboxClosed hsame'.outboxConfig
        hsame'.lifecycle (congrArg _ hsame'.cancellation) ?_
        (commands_append hs hevent.1 hevent.2)) ?_
      · change a.cancellation.closed = false → a.cancellation.state.cancelled = false
        rw [hsame'.cancellation]
        exact fun hopen => (hs.opened hopen).1
      · exact Floor.ext (congrArg CancellationSource.generation hsame'.cancellation)
          (congrArg CancellationSource.closed hsame'.cancellation) hsame'.inboxItems
          hsame'.nextOrder (waiting_append hwaits) rfl
          (congrArg InteractionStateMachine.state hsame'.interaction) rfl
    -- it is queued at once
    · rw [hattempt]
      obtain ⟨kept, hqueues⟩ := exists_queues_observed (a := s.actor) stamped hcfg hclosed happ
      refine Queues.moves_put hqueues hs hbody hpriority rfl hforeground (waiting_append ?_)
        (commands_append hs hbody hpriority) fun _ h =>
          absurd (h.symm.trans hfull) (Bool.false_ne_true ∘ Eq.symm)
      exact waits?_of_not_isWaiting rfl

/-- **`submit_foreground_turn_wait`**: a generation is started, and the command queued, now or
later, or lost. -/
theorem moves_submitForegroundTurnWait (hs : s.Live) (hforeground : c.isForeground = true)
    (eventId : UUID) (reason : Text)
    (hroom : steady = true → s.actor.inbox.hasRoom c.priority.toInt false = true) :
    Moves steady s { s with
      traffic := s.traffic.begin
        (s.actor.submitForegroundTurnWait (s.commandEvent c eventId) reason) } := by
  rcases s.actor.submitForegroundTurnWait_cases (s.commandEvent c eventId) reason with
    ⟨err, he⟩ | ⟨source, token, hrun, hadvance, hrest⟩
  · rw [he]
    exact .refl hs
  · obtain ⟨hopen, hsource, hgeneration, rfl, hacc⟩ := CancellationSource.advance_eq_ok hadvance
    obtain ⟨-, -, hcancelled⟩ := CancellationSource.accepts_iff.mp hacc
    let a : SessionActor SessionEvent Empty := { s.actor with cancellation := source }
    have hw : a.WellFormed := hs.wellFormed.congr rfl rfl
    obtain ⟨stamped, hstamp, hbody, hpriority⟩ := SessionActor.stamp_own
      (a := a) (e := s.commandEvent c eventId) rfl
    rcases hrest with ⟨err, he⟩ | ⟨stamped', hstamp', he⟩
    · -- the event is the session's own
      rw [SessionActor.submitForegroundTurnWait, if_pos hrun, hadvance] at he
      dsimp only at he
      rw [show SessionActor.stamp { s.actor with cancellation := source } _ = _ from hstamp] at he
      cases congrArg Prod.snd he
    · obtain rfl : stamped' = stamped :=
        congrArg Prod.snd (Except.ok.inj (hstamp'.symm.trans hstamp))
      rw [he]
      rcases SessionActor.firstAttempt_submission (a := a.stampedActor)
        (c := ⟨.submission, s.actor.cancellation.generation + 1, stamped', .waiting⟩)
        hw.stampedActor hs.overflow rfl rfl with
        ⟨b, c', hattempt, hsame, hc', hrefused⟩ | ⟨inbox, r, hattempt, -, hcfg, hclosed, happ⟩
      · have hsteady : steady = false := Bool.eq_false_iff.mpr fun hst => by
          have hroom' : a.stampedActor.inbox.hasRoom stamped'.priority false = true := by
            rw [hpriority]
            exact hroom hst
          obtain ⟨r, hr, htry⟩ := SessionActor.firstAttempt_of_hasRoom
            (c := ⟨.submission, s.actor.cancellation.generation + 1, stamped', .waiting⟩)
            hw.stampedActor hs.overflow (hs.opened hopen).2.1 rfl hacc hroom'
          exact Bool.false_ne_true ((hrefused r htry).symm.trans hr)
        have hsame' : a.SameFloor b := SessionActor.sameFloor_stampedActor.trans hsame
        rw [hattempt]
        have hevent : c'.event.body = .command c ∧ c'.event.priority = c.priority.toInt := by
          rcases hc' with rfl | ⟨-, hevent, -⟩
          · exact ⟨hbody, hpriority⟩
          · exact hevent ▸ ⟨hbody, hpriority⟩
        refine moves_not_queued hs hsteady hopen hsource hcancelled hgeneration hsame' ?_
          (commands_append hs hevent.1 hevent.2)
        rcases hc' with rfl | ⟨hphase, -⟩
        · refine Or.inr ?_
          change (s.traffic.calls ++ [_]).filterMap Call.waits? = _
          rw [List.filterMap_append, List.filterMap_cons_some (waits?_waiting hbody hforeground)]
          rfl
        · exact Or.inl (waiting_append (waits?_of_not_isWaiting hphase))
      · rw [hattempt]
        obtain ⟨kept, hqueues⟩ := exists_queues_observed (a := a) stamped' hcfg hclosed happ
        exact Queues.moves_queue hqueues hs hopen hsource hcancelled hgeneration hbody hpriority rfl
          hforeground rfl (waiting_append (waits?_of_not_isWaiting rfl))
          (commands_append hs hbody hpriority)

/-! ### Waiting calls -/

/-- **A waiting command is queued**, while its generation is the current one. -/
theorem Queues.moves_admit {traffic : Traffic SessionEvent Empty} {kept : List QueuedCommand}
    {x : QueuedCommand} (h : Queues s.actor traffic.actor kept x) (hs : s.Live)
    (hopen : s.actor.cancellation.closed = false) {l₁ l₂ : List CancellationGeneration}
    (hbefore : s.traffic.calls.filterMap Call.waits? =
      l₁ ++ s.actor.cancellation.generation :: l₂)
    (hafter : traffic.calls.filterMap Call.waits? = l₁ ++ l₂)
    (hbody : x.item.event.body = .command c) (hpriority : x.priority = c.priority.toInt)
    (horder : x.order = s.actor.inbox.nextOrder) (hforeground : c.isForeground = true)
    (hx : x.generation = s.actor.cancellation.generation)
    (hcommands : ∀ c ∈ traffic.calls, c.kind = .submission → ∃ command : SessionCommand,
      c.event.body = .command command ∧ c.event.priority = command.priority.toInt) :
    Moves steady s { s with traffic := traffic } := by
  have h' : Queues { s.actor with cancellation := s.actor.cancellation } traffic.actor kept x := h
  refine .single (h'.live hs rfl (fun hopen => (hs.opened hopen).1) hcommands) ?_
  rw [h'.floor, hafter]
  exact .enter hopen h.sublist hbefore ⟨hbody, hpriority, horder⟩ hforeground hx

/-- **A waiting call tries again.** -/
theorem moves_attempt (hs : s.Live) {traffic : Traffic SessionEvent Empty}
    (hn : s.traffic.next (.attempt i) = some traffic) :
    Moves steady s { s with traffic := traffic } := by
  obtain ⟨d, a, d', hd, hattempt, rfl⟩ := Traffic.resume_eq_some.mp hn
  obtain ⟨hphase, rfl, hd'⟩ := Traffic.attempting_eq_some hattempt
  have htry := SessionActor.tryPut_attempted (c := d) hs.wellFormed
  -- an attempt that leaves the inbox as it was
  have hsame (ha : s.actor.SameFloor (s.actor.tryPut d).1) : Moves steady s { s with traffic :=
      { s.traffic with
        actor := (s.actor.tryPut d).1
        calls := s.traffic.calls.set i d' } } := by
    rcases hd' with ⟨-, rfl⟩ | ⟨r, -, rfl⟩
    · exact moves_call hs hd ha rfl rfl (Or.inr rfl)
    · exact moves_call hs hd ha rfl rfl (Or.inl (waits?_of_not_isWaiting rfl))
  rcases hk : d.kind with _ | _
  · rcases htry.submission hk hs.overflow with
      ⟨ha, -⟩ | ⟨inbox, r, ha, hr, -, hacc, hfull, hcfg, hclosed, happ⟩
    · exact hsame ha
    · obtain ⟨c, hbody, hpriority⟩ := hs.commands d (List.mem_of_getElem? hd) hk
      obtain ⟨l₁, l₂, hbefore, hset⟩ := exists_filterMap_set hd Call.waits?
      obtain ⟨kept, hqueues⟩ := exists_queues hcfg hclosed happ
      have hnone : d'.waits? = none := by
        rcases hd' with ⟨hnone, -⟩ | ⟨r', -, rfl⟩
        · cases hr.symm.trans hnone
        · exact waits?_of_not_isWaiting rfl
      have hafter : (s.traffic.calls.set i d').filterMap Call.waits? = l₁ ++ l₂ := by
        rw [hset, hnone]
        rfl
      have hcommands : ∀ e ∈ s.traffic.calls.set i d', e.kind = .submission →
          ∃ command : SessionCommand, e.event.body = .command command ∧
            e.event.priority = command.priority.toInt := by
        intro e he hke
        rcases List.mem_or_eq_of_mem_set he with he | rfl
        · exact hs.commands e he hke
        · rcases hd' with ⟨-, rfl⟩ | ⟨r', -, rfl⟩
          · exact ⟨c, hbody, hpriority⟩
          · exact ⟨c, hbody, hpriority⟩
      rw [show (s.traffic.actor.tryPut d).1 = _ from ha]
      -- a command that starts no turn carries no generation
      rcases hforeground : c.isForeground with _ | _
      · refine Queues.moves_put hqueues hs hbody hpriority rfl hforeground ?_ hcommands
          fun _ h => absurd (h.symm.trans hfull) (Bool.false_ne_true ∘ Eq.symm)
        rw [hbefore, waits?_of_not_isForeground hbody hforeground]
        exact hafter
      · obtain ⟨hopen, hg⟩ := hs.accepts_iff.mp hacc
        -- one that does was waiting for its own
        have hwaits : d.waits? = some s.actor.cancellation.generation := by
          obtain ⟨kind, g, e, phase⟩ := d
          cases hk
          cases hphase
          cases hg
          exact waits?_waiting hbody hforeground
        rw [hwaits] at hbefore
        exact Queues.moves_admit hqueues hs hopen hbefore hafter hbody hpriority rfl hforeground hg
          hcommands
  · exact hsame (htry.sameFloor hk)

/-- **A waiting call is given up**, or one whose put is decided returns. -/
theorem moves_giveUp (hs : s.Live) {traffic : Traffic SessionEvent Empty}
    (hn : s.traffic.next (.giveUp i) = some traffic) :
    Moves steady s { s with traffic := traffic } := by
  obtain ⟨d, a, d', hd, hgive, rfl⟩ := Traffic.resume_eq_some.mp hn
  obtain ⟨-, -, rfl, rfl | rfl⟩ := Traffic.givingUp_eq_some hgive
  · exact moves_call hs hd ⟨rfl, rfl, rfl, rfl, rfl, rfl, rfl, rfl, rfl⟩ rfl rfl
      (Or.inl (waits?_of_not_isWaiting rfl))
  · exact moves_call hs hd ⟨rfl, rfl, rfl, rfl, rfl, rfl, rfl, rfl, rfl⟩ rfl rfl
      (Or.inl (waits?_of_not_isWaiting rfl))

theorem moves_settle (hs : s.Live) {traffic : Traffic SessionEvent Empty}
    (hn : s.traffic.next (.settle i) = some traffic) :
    Moves steady s { s with traffic := traffic } := by
  obtain ⟨d, a, d', hd, hsettle, rfl⟩ := Traffic.resume_eq_some.mp hn
  obtain ⟨r, -, hr⟩ := Traffic.settling_eq_some hsettle
  have ha : a = (s.actor.settle d r).1 := congrArg Prod.fst hr
  have hd' : d' = { d with phase := .returned r } := congrArg Prod.snd hr
  rw [ha, hd']
  exact moves_call hs hd (SessionActor.sameFloor_settle r) rfl rfl
    (Or.inl (waits?_of_not_isWaiting rfl))

theorem moves_abandon (hs : s.Live) {traffic : Traffic SessionEvent Empty}
    (hn : s.traffic.next (.abandon i) = some traffic) :
    Moves steady s { s with traffic := traffic } := by
  obtain ⟨d, a, d', hd, habandon, rfl⟩ := Traffic.resume_eq_some.mp hn
  obtain ⟨-, rfl, rfl⟩ := Traffic.abandoning_eq_some habandon
  exact moves_call hs hd (.refl _) rfl rfl (Or.inl (waits?_of_not_isWaiting rfl))

/-! ### All steps -/

theorem turn?_of_not_serves {actorTask : ActorTask} (h : actorTask.serves = false) :
    actorTask.turn? = none := by
  cases actorTask with
  | handling => cases h
  | unborn | receiving | finishing | ended => rfl

/-- A session starts. -/
theorem moves_start (hs : s.Live) {a : SessionActor SessionEvent Empty}
    (hstart : s.actor.start = .ok a) : Moves steady s ({ s.withActor a with
      actorTask := .receiving }.publish a.cancellation.generation (.sessionReady 0 .idle)).1 := by
  rw [SessionActor.start] at hstart
  split at hstart
  · rename_i hnew
    cases hstart
    obtain ⟨hopen, hturns⟩ := hs.new hnew
    have hserves : s.actorTask.serves = false := Bool.eq_false_iff.mpr fun h => by
      rcases hs.lifecycle h with h | h
      · exact SessionLifecycle.noConfusion (hnew.symm.trans h)
      · exact SessionLifecycle.noConfusion (hnew.symm.trans h)
    let u : ForegroundSession :=
      { s.withActor { s.actor with lifecycle := .running } with actorTask := .receiving }
    have hu : u.Live := by
      refine ⟨hs.wellFormed.congr rfl rfl, hs.overflow, fun h => SessionLifecycle.noConfusion h,
        fun h => ?_, fun _ => Or.inl ⟨rfl, hopen⟩, fun h => Bool.noConfusion h, hs.commands⟩
      obtain ⟨hcancelled, hinbox, -⟩ := hs.opened h
      exact ⟨hcancelled, hinbox, Or.inr rfl⟩
    have hfloor : u.floor = s.floor := by
      refine Floor.ext rfl rfl rfl rfl rfl ?_ rfl rfl
      change [] ++ s.aliveTurns = s.openTurns
      rw [openTurns, turn?_of_not_serves hserves]
      rfl
    have hmoves : Moves steady s u := .of_floor_eq hu hfloor
    obtain ⟨v, call, hpublish, hstill⟩ :=
      publish_ok hu.wellFormed u.actor.cancellation.generation (.sessionReady 0 .idle)
    change Moves steady s (u.publish u.actor.cancellation.generation (.sessionReady 0 .idle)).1
    rw [hpublish]
    exact hmoves.trans (hstill.moves hu)
  · cases hstart

/-- A session is being stopped, or has been: its generations are closed. -/
theorem moves_closed (hs : s.Live) {a : SessionActor SessionEvent Empty} (cancelRequested : Bool)
    (hi : a.inbox.config = s.actor.inbox.config) (ho : a.outbox.config = s.actor.outbox.config)
    (hitems : a.inbox.items.Sublist s.actor.inbox.items)
    (hnext : a.inbox.nextOrder = s.actor.inbox.nextOrder)
    (hclosed : a.cancellation.closed = true)
    (hgeneration : a.cancellation.generation = s.actor.cancellation.generation)
    (hinteraction : a.interaction = s.actor.interaction) (hnew : a.lifecycle ≠ .new)
    (hserving : s.actorTask.serves = true → a.lifecycle = .stopping) :
    Moves steady s { s.withActor a with cancelRequested := cancelRequested } := by
  refine .single ⟨hs.wellFormed.congr hi ho, ?_, fun h => absurd h hnew,
    fun h => absurd (hclosed.symm.trans h) (Bool.false_ne_true ∘ Eq.symm),
    fun h => Or.inr (hserving h), fun _ => hclosed, hs.commands⟩ ?_
  · change a.inbox.config.overflow = _
    rw [hi]
    exact hs.overflow
  · have hfloor :
        ForegroundSession.floor { s.withActor a with cancelRequested := cancelRequested } =
        { s.floor with closed := true, inbox := a.inbox.items } :=
      Floor.ext hgeneration hclosed rfl hnext rfl rfl
        (congrArg InteractionStateMachine.state hinteraction) rfl
    rw [hfloor]
    exact .shut hitems

/-- **`stop`**, up to the wait for the task of the actor. -/
theorem moves_stop (hs : s.Live) (graceful cancelRequested : Bool) :
    Moves steady s { s.withActor (s.actor.stop graceful) with
      cancelRequested := cancelRequested } := by
  have hcloses (discard : Bool) :
      (s.actor.inbox.close discard).1.items.Sublist s.actor.inbox.items := by
    rw [(PriorityMailbox.close_frame s.actor.inbox discard).2.2.2]
    split
    · exact List.nil_sublist _
    · exact .refl _
  have hsame : Moves steady s { s.withActor s.actor with cancelRequested := cancelRequested } :=
    Still.moves ⟨.refl _, rfl, fun _ hc => Or.inl hc, rfl, rfl, rfl, rfl⟩ hs
  have hstarted : Moves steady s { s.withActor (s.actor.stopStarted graceful) with
      cancelRequested := cancelRequested } :=
    moves_closed hs cancelRequested (PriorityMailbox.close_frame _ _).1 rfl (hcloses _)
      (PriorityMailbox.close_frame _ _).2.2.1 rfl rfl rfl SessionLifecycle.noConfusion fun _ => rfl
  rw [SessionActor.stop]
  rcases hlifecycle : s.actor.lifecycle with _ | _ | _ | _ | _ | _
  · refine moves_closed hs cancelRequested (PriorityMailbox.close_frame _ _).1
      (PriorityMailbox.close_frame _ _).1 (hcloses _) (PriorityMailbox.close_frame _ _).2.2.1 rfl
      rfl rfl SessionLifecycle.noConfusion fun hserves => ?_
    -- a task that serves has been started
    rcases hs.lifecycle hserves with h | h
    · exact SessionLifecycle.noConfusion (hlifecycle.symm.trans h)
    · exact SessionLifecycle.noConfusion (hlifecycle.symm.trans h)
  · exact hstarted
  · exact hstarted
  · exact hstarted
  · exact hsame
  · exact hsame

/-- The session has ended. -/
theorem moves_leaveFinally (hs : s.Live) {terminal : Ending}
    (htask : s.actorTask = .finishing terminal) :
    Moves steady s
      { s.withActor (s.actor.leaveFinally terminal) with actorTask := .ended } := by
  have hclosed : s.actor.cancellation.closed = true := hs.finishing (by rw [isFinishing, htask])
  refine .single ⟨hs.wellFormed.congr rfl rfl, hs.overflow, fun h => ?_,
    fun h => absurd (hclosed.symm.trans h) (Bool.false_ne_true ∘ Eq.symm),
    fun h => Bool.noConfusion h, fun h => Bool.noConfusion h, hs.commands⟩ ?_
  · have hnew : terminal.1 = .new := h
    rcases terminal.2 with h | h
    · exact SessionLifecycle.noConfusion (hnew.symm.trans h)
    · exact SessionLifecycle.noConfusion (hnew.symm.trans h)
  · have hfloor : ForegroundSession.floor
        { s.withActor (s.actor.leaveFinally terminal) with actorTask := .ended } =
          { s.floor with
            state := (SessionActor.finalInteraction s.actor.interaction terminal).state } := by
      refine Floor.ext rfl rfl rfl rfl rfl ?_ rfl rfl
      change [] ++ s.aliveTurns = s.openTurns
      rw [openTurns, htask]
      rfl
    rw [hfloor]
    exact .settle _ hclosed

/-- `CancelledError` is raised in the task of the actor. -/
theorem moves_interruptActor (hs : s.Live) (hn : s.interruptActor = some t) :
    Moves steady s t := by
  rw [interruptActor] at hn
  rcases htask : s.actorTask with _ | _ | frame | terminal | _
  · rw [htask] at hn
    cases hn
  · rw [htask] at hn
    cases hn
    exact moves_enterFinally hs (htask ▸ rfl) _
  · rw [htask] at hn
    cases hn
    obtain ⟨-, htask', -⟩ := abandonCall_frame (s := s) frame.call
    have hmoves : Moves steady s (s.abandonCall frame.call) := moves_abandonCall hs frame.call
    refine hmoves.trans (moves_enterFinally hmoves.1 ?_ _)
    rw [htask', htask]
    rfl
  · rw [htask] at hn
    cases hn
    have hlive := hs.at .ended (fun h => Bool.noConfusion h) fun _ h => ActorTask.noConfusion h
    refine .of_floor_eq ⟨hlive.wellFormed, hlive.overflow, hlive.new, hlive.opened, hlive.serving,
      hlive.finishing, hlive.commands⟩ (Floor.ext rfl rfl rfl rfl rfl ?_ rfl rfl)
    change [] ++ s.aliveTurns = s.openTurns
    rw [openTurns, htask]
    rfl
  · rw [htask] at hn
    cases hn

/-- **Every step changes the floor by changes of a floor**; a steady step by steady ones. -/
theorem moves_of_next {l : Label} (hs : s.Live)
    (hsteady : steady = true → s.Truthful ∧ s.isSteady l = true) (hn : s.next l = some t) :
    Moves steady s t := by
  cases l with
  | start =>
    rw [next] at hn
    split at hn
    · rename_i a hstart
      cases hn
      exact moves_start hs hstart
    · cases hn
  | request request eventId =>
    obtain ⟨⟨c, method⟩, hcommand, rfl⟩ := Option.map_eq_some_iff.mp hn
    have hadvances := ClientRequest.advances_of_command hcommand
    cases method with
    | submit =>
      exact moves_submit hs hadvances.symm eventId fun hst =>
        lowest_of_isSteady (hsteady hst).2 hcommand hadvances.symm rfl
    | submitWait => exact moves_submitWait hs hadvances.symm eventId
    | submitForegroundTurn reason =>
      exact moves_submitForegroundTurn hs hadvances.symm eventId reason fun hst =>
        hasRoom_of_isSteady (hsteady hst).2 hcommand hadvances.symm
    | submitForegroundTurnWait reason =>
      exact moves_submitForegroundTurnWait hs hadvances.symm eventId reason fun hst =>
        hasRoom_of_isSteady (hsteady hst).2 hcommand hadvances.symm
  | attempt i =>
    obtain ⟨traffic, htraffic, rfl⟩ := Option.map_eq_some_iff.mp hn
    exact moves_attempt hs htraffic
  | giveUp i =>
    obtain ⟨traffic, htraffic, rfl⟩ := Option.map_eq_some_iff.mp hn
    exact moves_giveUp hs htraffic
  | settle i =>
    obtain ⟨traffic, htraffic, rfl⟩ := Option.map_eq_some_iff.mp hn
    exact moves_settle hs htraffic
  | abandon i =>
    rw [next] at hn
    split at hn
    · obtain ⟨traffic, htraffic, rfl⟩ := Option.map_eq_some_iff.mp hn
      exact moves_abandon hs htraffic
    · cases hn
  | receiveOutput =>
    obtain ⟨traffic, htraffic, rfl⟩ := Option.map_eq_some_iff.mp hn
    obtain ⟨p, hget, rfl⟩ := Option.map_eq_some_iff.mp htraffic
    obtain ⟨_, _, -, -, hcfg, -⟩ := PriorityMailbox.get_eq_some (x := p.2) hget
    exact Still.moves ⟨⟨rfl, rfl, rfl, rfl, rfl, hcfg, rfl, rfl, rfl⟩, rfl, fun _ hc => Or.inl hc,
      rfl, rfl, rfl, rfl⟩ hs
  | receiveMessage =>
    rw [next] at hn
    split at hn
    · rename_i htask
      obtain ⟨⟨inbox, x⟩, hget, rfl⟩ := Option.map_eq_some_iff.mp hn
      exact moves_handleMessage hs htask.1 hget fun hst _ turn =>
        generation_of_isSteady (hsteady hst).2 hget
    · cases hn
  | resumeHandler =>
    rw [next] at hn
    rcases htask : s.actorTask with _ | _ | frame | terminal | _
    · rw [htask] at hn
      cases hn
    · rw [htask] at hn
      cases hn
    · rw [htask] at hn
      dsimp only at hn
      split at hn
      · cases hn
      · obtain ⟨b, -, rfl⟩ := Option.map_eq_some_iff.mp hn
        exact moves_continueHandler hs htask
    · rw [htask] at hn
      cases hn
    · rw [htask] at hn
      cases hn
  | drained =>
    rw [next] at hn
    split at hn
    · rename_i htask
      cases hn
      exact moves_enterFinally hs (htask.1 ▸ rfl) .stopped
    · cases hn
  | interrupt =>
    rw [next] at hn
    split at hn
    · exact moves_interruptActor hs hn
    · cases hn
  | leaveFinally =>
    rw [next] at hn
    rcases htask : s.actorTask with _ | _ | frame | terminal | _
    · rw [htask] at hn
      cases hn
    · rw [htask] at hn
      cases hn
    · rw [htask] at hn
      cases hn
    · rw [htask] at hn
      dsimp only at hn
      split at hn
      · cases hn
        exact moves_leaveFinally hs htask
      · cases hn
    · rw [htask] at hn
      cases hn
  | turn i label =>
    obtain ⟨task, htask, hstep⟩ := Option.bind_eq_some_iff.mp hn
    exact moves_stepTurn hs htask (fun hst =>
      ⟨(hsteady hst).1, (Option.all_eq_true _ _).mp (hsteady hst).2 task htask⟩) hstep
  | workerDone child exception =>
    rw [next] at hn
    split at hn
    · cases hn
      exact (still_childDone child _).moves hs
    · cases hn
  | stop graceful =>
    cases hn
    exact moves_stop hs graceful _
  | stopTimesOut =>
    rw [next] at hn
    split at hn
    · cases hn
      exact Still.moves ⟨.refl _, rfl, fun _ hc => Or.inl hc, rfl, rfl, rfl, rfl⟩ hs
    · cases hn

end ForegroundSession

end Eeveetuber
