import Eeveetuber.Application.Events
import Eeveetuber.Runtime.Traffic

/-!
# The websocket sender

A connection has one task that takes the outputs of its session and sends them to
the browser. Between taking an event and beginning to send it nothing else runs,
but the event may have waited in the outbox for long, and the sends themselves
wait; so the sender compares the generation of an event of a realtime type with
the one that is current when it takes it, and drops the event when it is older.

**The sender never begins to send a stale realtime event, and drops no other**:
`Eeveetuber.Sender.sends_fresh`, for every interleaving of its steps with the
traffic of the session (`Eeveetuber.Traffic`), and however it reads the events. How
it reads those of a session is `Eeveetuber.Sender.sessionView`.
-/

namespace Eeveetuber

open Foundation

/-! ### What the sender reads of an event -/

/-- What an event's payload holds under `generation`. -/
inductive RawGeneration where
  | absent
  | integer (value : ℤ)
  | boolean (value : Bool)
  /-- A value of any other type. -/
  | other
deriving DecidableEq, Repr

/-- How the body of an output event is read. -/
structure OutputView (β : Type) where
  type : β → String
  rawGeneration : β → RawGeneration

/-- The types whose events are for one generation only. -/
def generationScopedRealtimeOutputs : List String :=
  ["speech.audio_chunk", "utterance.completed", "utterance.segment_ready",
    "voice.transcript_partial"]

inductive StatusScope where
  | session
  | turn
  | audio
deriving DecidableEq, Repr

inductive StatusCode where
  | ready
  | listening
  | processing
  | speaking
  | error
deriving DecidableEq, Repr

/-- The lifecycle events that are also sent as a status. -/
def statusProjections : List (String × StatusScope × StatusCode) :=
  [("session.ready", .session, .ready),
    ("turn.accepted", .turn, .processing),
    ("utterance.segment_ready", .turn, .speaking),
    ("speech.cancelled", .audio, .ready),
    ("utterance.completed", .turn, .ready),
    ("turn.failed", .turn, .error),
    ("voice.capture_started", .session, .listening),
    ("voice.capture_stopped", .session, .ready),
    ("voice.speech_started", .turn, .listening),
    ("voice.transcript_final", .turn, .processing),
    ("voice.recognition_failed", .turn, .error)]

/-- What goes over the wire, by what it is translated from. -/
inductive WireMessage (β : Type) where
  /-- `event_to_audio_frame`, as bytes. -/
  | audioFrame (event : EventEnvelope β) (generation : ℤ)
  /-- `event_to_server_message`, as text. -/
  | serverMessage (event : EventEnvelope β) (generation : ℤ)
  /-- `event_to_status_message`, as text. -/
  | statusMessage (event : EventEnvelope β) (generation : ℤ) (scope : StatusScope)
      (status : StatusCode)

/-- The event a message carries; a status message carries none. -/
def WireMessage.event? {β : Type} : WireMessage β → Option (EventEnvelope β)
  | .audioFrame e _ | .serverMessage e _ => some e
  | .statusMessage .. => none

/-- The generation a message is labelled with. -/
def WireMessage.generation {β : Type} : WireMessage β → ℤ
  | .audioFrame _ g | .serverMessage _ g | .statusMessage _ g _ _ => g

namespace OutputView

variable {β : Type} (V : OutputView β)

/-- The generation of an event; one that names none is of the current generation. -/
def generation (e : EventEnvelope β) (current : CancellationGeneration) : ℤ :=
  match V.rawGeneration e.body with
  | .integer value => value
  | .absent | .boolean _ | .other => current

/-- Whether an event is for one generation only. -/
def isScoped (e : EventEnvelope β) : Bool :=
  generationScopedRealtimeOutputs.contains (V.type e.body)

/-- Whether the sender drops an event. -/
def isStale (e : EventEnvelope β) (current : CancellationGeneration) : Bool :=
  V.isScoped e && decide (V.generation e current < current)

/-- The first message for an event. -/
def message (binaryAudio : Bool) (e : EventEnvelope β) (generation : ℤ) : WireMessage β :=
  if binaryAudio && V.type e.body == "speech.audio_chunk" then .audioFrame e generation
  else .serverMessage e generation

/-- The status message for an event, if its type has one. -/
def statusMessage (e : EventEnvelope β) (generation : ℤ) : Option (WireMessage β) :=
  (statusProjections.lookup (V.type e.body)).map fun p => .statusMessage e generation p.1 p.2

@[simp] theorem message_event (binaryAudio : Bool) (e : EventEnvelope β) (g : ℤ) :
    (V.message binaryAudio e g).event? = some e := by
  unfold message
  split <;> rfl

@[simp] theorem message_generation (binaryAudio : Bool) (e : EventEnvelope β) (g : ℤ) :
    (V.message binaryAudio e g).generation = g := by
  unfold message
  split <;> rfl

end OutputView

/-! ### The sender -/

/-- Where the sender is. -/
inductive SenderPhase (β : Type) where
  /-- Waiting in `receive_output`. -/
  | receiving
  /-- Sending the message of an event. -/
  | sending (event : EventEnvelope β) (generation : ℤ)
  /-- Sending the status message of an event. -/
  | sendingStatus
  | ended

/-- What the sender did with an event it received. -/
inductive Verdict where
  /-- It began to send its message. -/
  | begun
  | skipped
  /-- The translation raised, which ends the sender. -/
  | untranslated
deriving DecidableEq, Repr

/-- An event the sender received, what it did with it, and the generation then current. -/
structure Reception (β : Type) where
  event : EventEnvelope β
  verdict : Verdict
  current : CancellationGeneration

/-- A message the sender began to send, and the generation then current. -/
structure Dispatch (β : Type) where
  message : WireMessage β
  current : CancellationGeneration

/-- The sender of a connection and the session it serves. -/
structure Sender (β κ : Type) where
  traffic : Traffic β κ
  phase : SenderPhase β
  /-- The events received so far. -/
  received : List (Reception β)
  /-- The messages begun so far. -/
  dispatched : List (Dispatch β)

namespace Sender

/-- The steps of the sender and of the session. -/
inductive Label (β : Type) where
  /-- Anything else that happens in the session. -/
  | traffic (label : Traffic.Label β)
  /-- The sender receives an event, and translates it unless it drops it. -/
  | receive (translates : Bool)
  /-- The outbox is closed and drained. -/
  | mailboxClosed
  /-- The send of an event's message has succeeded. -/
  | sent (translates : Bool)
  /-- The send of a status message has succeeded. -/
  | statusSent
  /-- A send fails, or the sender is cancelled. -/
  | fail

/-- Whether a step takes an event out of the outbox, which is for the sender to do. -/
def receives {β : Type} : Traffic.Label β → Bool
  | .receiveOutput => true
  | .start | .submit _ | .submitForegroundTurn .. | .submitWait _ | .submitForegroundTurnWait ..
  | .publishResult .. | .attempt _ | .giveUp _ | .settle _ | .abandon _ | .receiveMessage
  | .stop _ | .enterFinally | .leaveFinally _ | .finalizeCancelled => false

variable {β κ : Type} (V : OutputView β) (binaryAudio : Bool)

/-- The generation that is current. -/
def currentGeneration (s : Sender β κ) : CancellationGeneration :=
  s.traffic.actor.cancellation.generation

/-- Begin to send a message. -/
def dispatch (s : Sender β κ) (message : WireMessage β) (phase : SenderPhase β) : Sender β κ :=
  { s with
    phase := phase
    dispatched := s.dispatched ++ [⟨message, s.currentGeneration⟩] }

/-- What the sender does with an event it has received, up to its next wait. -/
def onEvent (s : Sender β κ) (e : EventEnvelope β) (translates : Bool) : Sender β κ :=
  let current := s.currentGeneration
  let generation := V.generation e current
  if V.isStale e current then
    { s with received := s.received ++ [⟨e, .skipped, current⟩] }
  else if translates then
    ({ s with received := s.received ++ [⟨e, .begun, current⟩] } : Sender β κ).dispatch
      (V.message binaryAudio e generation) (.sending e generation)
  else
    { s with received := s.received ++ [⟨e, .untranslated, current⟩], phase := .ended }

/-- **One step of a connection.** -/
def next [DecidableEq κ] (s : Sender β κ) : Label β → Option (Sender β κ)
  | .traffic l =>
    if receives l then none
    else (s.traffic.next l).map fun traffic => { s with traffic := traffic }
  | .receive translates => match s.phase with
    | .receiving => s.traffic.actor.outbox.get.map fun p =>
      let traffic := { s.traffic with
        actor := { s.traffic.actor with outbox := p.1 }
        delivered := s.traffic.delivered ++ [p.2.item] }
      ({ s with traffic := traffic } : Sender β κ).onEvent V binaryAudio p.2.item translates
    | .sending .. | .sendingStatus | .ended => none
  | .mailboxClosed => match s.phase with
    | .receiving =>
      if s.traffic.actor.outbox.drained then some { s with phase := .ended } else none
    | .sending .. | .sendingStatus | .ended => none
  | .sent translates => match s.phase with
    | .sending e generation =>
      if binaryAudio then match V.statusMessage e generation with
        | none => some { s with phase := .receiving }
        | some status =>
          if translates then some (s.dispatch status .sendingStatus)
          else some { s with phase := .ended }
      else some { s with phase := .receiving }
    | .receiving | .sendingStatus | .ended => none
  | .statusSent => match s.phase with
    | .sendingStatus => some { s with phase := .receiving }
    | .receiving | .sending .. | .ended => none
  | .fail => match s.phase with
    | .receiving | .sending .. | .sendingStatus => some { s with phase := .ended }
    | .ended => none

/-- The runs of a connection from the moment its sender is started. -/
def machine [DecidableEq κ] : Machine (Sender β κ) (Label β) where
  start s := Traffic.machine.Reachable s.traffic ∧ s.traffic.delivered = [] ∧
    s.phase = .receiving ∧ s.received = [] ∧ s.dispatched = []
  next := next V binaryAudio

/-! ### What the sender has sent -/

/-- What holds of everything the sender has received and sent. -/
structure Fresh (s : Sender β κ) : Prop where
  /-- No realtime event was begun to be sent under a later generation than its own. -/
  fresh : ∀ d ∈ s.dispatched, ∀ e, d.message.event? = some e → V.isScoped e = true →
    (d.current : ℤ) ≤ V.generation e d.current ∧ d.message.generation = V.generation e d.current
  /-- Only realtime events of earlier generations were dropped. -/
  skipped : ∀ r ∈ s.received, r.verdict = .skipped →
    V.isScoped r.event = true ∧ V.generation r.event r.current < r.current
  /-- The events sent are those received and not dropped, in their order. -/
  sent : s.dispatched.filterMap (·.message.event?) =
    (s.received.filter (·.verdict == .begun)).map (·.event)
  /-- Nothing else takes events out of the outbox. -/
  received : s.received.map (·.event) = s.traffic.delivered
  /-- A failed translation ends the sender. -/
  untranslated : ∀ r ∈ s.received, r.verdict = .untranslated → s.phase = .ended

variable {V} {binaryAudio} {s t : Sender β κ}

theorem isStale_eq_false {e : EventEnvelope β} {current : CancellationGeneration}
    (h : V.isStale e current = false) (hs : V.isScoped e = true) :
    (current : ℤ) ≤ V.generation e current := by
  simpa [OutputView.isStale, hs] using h

/-- Going on without sending keeps what was sent. -/
theorem Fresh.withPhase (h : s.Fresh V) (hp : s.phase ≠ .ended) (phase : SenderPhase β) :
    ({ s with phase := phase } : Sender β κ).Fresh V :=
  ⟨h.fresh, h.skipped, h.sent, h.received,
    fun r hr hv => absurd (h.untranslated r hr hv) hp⟩

/-- A status message carries no event. -/
theorem Fresh.dispatchStatus (h : s.Fresh V) (hp : s.phase ≠ .ended) {m : WireMessage β}
    (hm : m.event? = none) (phase : SenderPhase β) : (s.dispatch m phase).Fresh V := by
  refine ⟨fun d hd e he => ?_, h.skipped, ?_, h.received,
    fun r hr hv => absurd (h.untranslated r hr hv) hp⟩
  · rcases List.mem_append.mp hd with hd | hd
    · exact h.fresh d hd e he
    · rw [List.mem_singleton.mp hd, hm] at he
      cases he
  · change (s.dispatched ++ [_]).filterMap _ = _
    rw [List.filterMap_append, h.sent]
    simp [hm, dispatch]

theorem statusMessage_event {e : EventEnvelope β} {g : ℤ} {m : WireMessage β}
    (h : V.statusMessage e g = some m) : m.event? = none := by
  obtain ⟨p, -, rfl⟩ := Option.map_eq_some_iff.mp h
  rfl

/-- **What the sender does with an event it receives** is either right or ends it. -/
theorem Fresh.onEvent (h : s.Fresh V) (hp : s.phase ≠ .ended) {traffic : Traffic β κ}
    {e : EventEnvelope β} (ht : traffic.delivered = s.traffic.delivered ++ [e])
    (translates : Bool) :
    (({ s with traffic := traffic } : Sender β κ).onEvent V binaryAudio e translates).Fresh V := by
  set u : Sender β κ := { s with traffic := traffic } with hu
  have hreceived : (s.received.map (·.event)) ++ [e] = traffic.delivered := by
    rw [h.received, ht]
  have huntranslated : ∀ r ∈ s.received, r.verdict ≠ .untranslated :=
    fun r hr hv => hp (h.untranslated r hr hv)
  unfold Sender.onEvent
  dsimp only
  split
  · -- the event is older than the current generation
    rename_i hstale
    rw [OutputView.isStale, Bool.and_eq_true, decide_eq_true_eq] at hstale
    refine ⟨h.fresh, fun r hr hv => ?_, ?_, ?_, fun r hr hv => ?_⟩
    · rcases List.mem_append.mp hr with hr | hr
      · exact h.skipped r hr hv
      · rw [List.mem_singleton.mp hr]
        exact hstale
    · simpa [hu] using h.sent
    · simpa [hu] using hreceived
    · rcases List.mem_append.mp hr with hr | hr
      · exact absurd hv (huntranslated r hr)
      · rw [List.mem_singleton.mp hr] at hv
        cases hv
  · rename_i hstale
    rw [Bool.not_eq_true] at hstale
    split
    · -- its message is begun at once
      refine ⟨fun d hd e' he hscoped => ?_, fun r hr hv => ?_, ?_, ?_, fun r hr hv => ?_⟩
      · rcases List.mem_append.mp hd with hd | hd
        · exact h.fresh d hd e' he hscoped
        · rw [List.mem_singleton.mp hd] at he ⊢
          obtain rfl : e = e' := by simpa using he
          exact ⟨isStale_eq_false hstale hscoped, V.message_generation ..⟩
      · rcases List.mem_append.mp hr with hr | hr
        · exact h.skipped r hr hv
        · rw [List.mem_singleton.mp hr] at hv
          cases hv
      · simp [hu, dispatch, h.sent]
      · simpa [hu, dispatch] using hreceived
      · rcases List.mem_append.mp hr with hr | hr
        · exact absurd hv (huntranslated r hr)
        · rw [List.mem_singleton.mp hr] at hv
          cases hv
    · -- its translation raises
      refine ⟨h.fresh, fun r hr hv => ?_, ?_, ?_, fun _ _ _ => rfl⟩
      · rcases List.mem_append.mp hr with hr | hr
        · exact h.skipped r hr hv
        · rw [List.mem_singleton.mp hr] at hv
          cases hv
      · simpa [hu] using h.sent
      · simpa [hu] using hreceived

theorem next_traffic [DecidableEq κ] {l : Traffic.Label β}
    (hn : s.next V binaryAudio (.traffic l) = some t) : ∃ traffic,
      traffic.delivered = s.traffic.delivered ∧ t = { s with traffic := traffic } := by
  simp only [Sender.next, Option.ite_none_left_eq_some, Option.map_eq_some_iff] at hn
  obtain ⟨hl, traffic, ht, rfl⟩ := hn
  refine ⟨traffic, Traffic.next_delivered ht ?_, rfl⟩
  rintro rfl
  exact hl rfl

theorem Fresh.next [DecidableEq κ] (h : s.Fresh V) {l : Label β}
    (hn : s.next V binaryAudio l = some t) : t.Fresh V := by
  cases l with
  | traffic l =>
    obtain ⟨traffic, ht, rfl⟩ := next_traffic hn
    exact ⟨h.fresh, h.skipped, h.sent, h.received.trans ht.symm, h.untranslated⟩
  | receive translates =>
    simp only [Sender.next] at hn
    split at hn
    · rename_i hp
      obtain ⟨p, -, rfl⟩ := Option.map_eq_some_iff.mp hn
      exact h.onEvent (by rw [hp]; nofun) rfl translates
    all_goals cases hn
  | mailboxClosed =>
    simp only [Sender.next] at hn
    split at hn
    · rename_i hp
      simp only [Option.ite_none_right_eq_some, Option.some.injEq] at hn
      obtain ⟨-, rfl⟩ := hn
      exact h.withPhase (by rw [hp]; nofun) _
    all_goals cases hn
  | sent translates =>
    simp only [Sender.next] at hn
    split at hn
    · rename_i hp
      have hp' : s.phase ≠ .ended := by rw [hp]; nofun
      split at hn
      · split at hn
        · cases hn
          exact h.withPhase hp' _
        · rename_i status hstatus
          split at hn <;> cases hn
          · exact h.dispatchStatus hp' (statusMessage_event hstatus) _
          · exact h.withPhase hp' _
      · cases hn
        exact h.withPhase hp' _
    all_goals cases hn
  | statusSent =>
    simp only [Sender.next] at hn
    split at hn
    · rename_i hp
      cases hn
      exact h.withPhase (by rw [hp]; nofun) _
    all_goals cases hn
  | fail =>
    simp only [Sender.next] at hn
    split at hn
    · rename_i hp
      cases hn
      exact h.withPhase (by rw [hp]; nofun) _
    · rename_i hp
      cases hn
      exact h.withPhase (by rw [hp]; nofun) _
    · rename_i hp
      cases hn
      exact h.withPhase (by rw [hp]; nofun) _
    · cases hn

/-- What a step records is recorded under the generation current in it. -/
def Records (s t : Sender β κ) : Prop :=
  (t.dispatched = s.dispatched ∨
    ∃ message, t.dispatched = s.dispatched ++ [⟨message, s.currentGeneration⟩]) ∧
  (t.received = s.received ∨
    ∃ event verdict, t.received = s.received ++ [⟨event, verdict, s.currentGeneration⟩])

theorem next_records [DecidableEq κ] {l : Label β} (hn : s.next V binaryAudio l = some t) :
    s.Records t := by
  cases l with
  | traffic l =>
    obtain ⟨traffic, -, rfl⟩ := next_traffic hn
    exact ⟨Or.inl rfl, Or.inl rfl⟩
  | receive translates =>
    simp only [Sender.next] at hn
    split at hn
    · obtain ⟨p, -, rfl⟩ := Option.map_eq_some_iff.mp hn
      unfold Sender.onEvent
      dsimp only
      split
      · exact ⟨Or.inl rfl, Or.inr ⟨_, _, rfl⟩⟩
      · split
        · exact ⟨Or.inr ⟨_, rfl⟩, Or.inr ⟨_, _, rfl⟩⟩
        · exact ⟨Or.inl rfl, Or.inr ⟨_, _, rfl⟩⟩
    all_goals cases hn
  | sent translates =>
    simp only [Sender.next] at hn
    split at hn
    · split at hn
      · split at hn
        · cases hn
          exact ⟨Or.inl rfl, Or.inl rfl⟩
        · split at hn <;> cases hn
          · exact ⟨Or.inr ⟨_, rfl⟩, Or.inl rfl⟩
          · exact ⟨Or.inl rfl, Or.inl rfl⟩
      · cases hn
        exact ⟨Or.inl rfl, Or.inl rfl⟩
    all_goals cases hn
  | mailboxClosed =>
    simp only [Sender.next] at hn
    split at hn
    · simp only [Option.ite_none_right_eq_some, Option.some.injEq] at hn
      obtain ⟨-, rfl⟩ := hn
      exact ⟨Or.inl rfl, Or.inl rfl⟩
    all_goals cases hn
  | statusSent | fail =>
    simp only [Sender.next] at hn
    split at hn <;> cases hn <;> exact ⟨Or.inl rfl, Or.inl rfl⟩

theorem Fresh.of_reachable [DecidableEq κ] (h : (machine V binaryAudio).Reachable s) :
    s.Fresh V := by
  refine h.invariant (I := fun s => s.Fresh V) ?_ fun s l t _ hs _ hn => hs.next hn
  rintro s ⟨-, hdelivered, -, hreceived, hdispatched⟩
  exact ⟨by simp [hdispatched], by simp [hreceived], by simp [hdispatched, hreceived],
    by simp [hdelivered, hreceived], by simp [hreceived]⟩

/-- **No stale realtime output reaches the wire**, and nothing else is kept from it: in
every state of every run of a connection what was received and sent is fresh, and every
step records the generation that is current when it begins to send. -/
theorem sends_fresh [DecidableEq κ] (h : (machine V binaryAudio).Reachable s) :
    s.Fresh V ∧ ∀ l t, s.next V binaryAudio l = some t → s.Records t := by
  exact ⟨.of_reachable h, fun l t hn => next_records hn⟩

/-- Events of two types, all of the first generation. -/
def narrowView : OutputView ℕ where
  type n := if n = 0 then "utterance.segment_ready" else "transport.pong"
  rawGeneration _ := .integer 0

/-- An event is overtaken by the next turn while it waits in the outbox. -/
def overtaking : List (Label ℕ) :=
  [.traffic .start, .traffic (.publishResult Traffic.note 0),
    .traffic (.submitForegroundTurn Traffic.note "next turn".toList), .receive true,
    .traffic (.publishResult { Traffic.note with body := 1 } 1), .receive true]

/-- The overtaken event is dropped, and one of the same generation that is not of a
realtime type is sent. -/
theorem sends_fresh_overtaking : ∃ s : Sender ℕ ℕ, (machine narrowView true).Reachable s ∧
    s.received.map (·.verdict) = [.skipped, .begun] ∧ s.Fresh narrowView := by
  have h : ((machine narrowView true).run ⟨Traffic.narrow, .receiving, [], []⟩ overtaking).map
      (fun s => s.received.map (·.verdict)) = some [.skipped, .begun] := by decide +kernel
  obtain ⟨s, hs, hverdicts⟩ := Option.map_eq_some_iff.mp h
  have hr : (machine narrowView true).Reachable s :=
    Machine.reachable_of_run ⟨.start Traffic.narrow_start, rfl, rfl, rfl, rfl⟩ hs
  exact ⟨s, hr, hverdicts, (sends_fresh hr).1⟩

/-! ### The outputs of a session -/

/-- How the sender reads what a session publishes. Of the commands only an acknowledgement has
something under `generation`. -/
def sessionView : OutputView SessionEvent where
  type
    | .command c => c.type
    | .output o => o.type
  rawGeneration
    | .command (.playbackAckReceived ack) => .integer ack.generation
    | .command _ => .absent
    | .output o => .integer o.generation

theorem sessionView_isScoped {e : EventEnvelope SessionEvent} {o : SessionOutput}
    (h : e.body = .output o) :
    sessionView.isScoped e = generationScopedRealtimeOutputs.contains o.type := by
  rw [OutputView.isScoped, h]
  rfl

theorem sessionView_generation {e : EventEnvelope SessionEvent} {o : SessionOutput}
    (h : e.body = .output o) (current : CancellationGeneration) :
    sessionView.generation e current = o.generation := by
  rw [OutputView.generation, h]
  rfl

/-- **The outputs of a session that are sent are fresh**: none of a realtime type is begun while a
later generation than its own is current, and it is labelled with its own. -/
theorem sent_output_fresh [DecidableEq κ] {s : Sender SessionEvent κ}
    (h : (machine sessionView binaryAudio).Reachable s) {d : Dispatch SessionEvent}
    (hd : d ∈ s.dispatched) {e : EventEnvelope SessionEvent} {o : SessionOutput}
    (he : d.message.event? = some e) (ho : e.body = .output o)
    (hscoped : o.type ∈ generationScopedRealtimeOutputs) :
    d.current ≤ o.generation ∧ d.message.generation = o.generation := by
  obtain ⟨hcurrent, hlabel⟩ := (Fresh.of_reachable h).fresh d hd e he <| by
    rwa [sessionView_isScoped ho, List.contains_iff_mem]
  rw [sessionView_generation ho] at hcurrent hlabel
  exact ⟨Int.ofNat_le.mp hcurrent, hlabel⟩

/-- **The outputs of a session that are dropped** are of a realtime type and of an earlier
generation. -/
theorem skipped_output_stale [DecidableEq κ] {s : Sender SessionEvent κ}
    (h : (machine sessionView binaryAudio).Reachable s) {r : Reception SessionEvent}
    (hr : r ∈ s.received) (hskipped : r.verdict = .skipped) {o : SessionOutput}
    (ho : r.event.body = .output o) :
    o.type ∈ generationScopedRealtimeOutputs ∧ o.generation < r.current := by
  obtain ⟨hscoped, hstale⟩ := (Fresh.of_reachable h).skipped r hr hskipped
  rw [sessionView_isScoped ho, List.contains_iff_mem] at hscoped
  rw [sessionView_generation ho] at hstale
  exact ⟨hscoped, Int.ofNat_lt.mp hstale⟩

end Sender

end Eeveetuber
