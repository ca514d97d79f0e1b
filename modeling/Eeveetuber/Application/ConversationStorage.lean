import Eeveetuber.Application.ConversationHistory
import Eeveetuber.Foundation.Machine

/-!
# The storage of a conversation

The turns of a running session, with what they write and read of the conversation. A message is
written by a worker of its own, which is in a dictionary until it is done; a turn begins by
loading the history before its own message, and ends by publishing its utterance and, if that
is admitted, writing the reply. The registration lock is held by a turn from before it
publishes until its reply is registered, and by a load while it looks which workers are
not done.

`Eeveetuber.ConversationStorage.next` is one step between two suspensions of one of the tasks:
the inbox, the handler, a turn, or a worker and its thread. Any of them may go next; how long a
publication waits for room, and when a deadline expires, is left open. A transaction of a
worker that fails is not a step.
-/

namespace Eeveetuber

open Foundation Storage

/-! ### Turns -/

/-- A turn that is requested, with the generation of its submission. -/
structure RequestedTurn where
  generation : ℕ
  turnId : Text
  text : Text
  inputModality : Text
  utteranceId : Option Text
  eventId : Text
  actorId : Option Text
  occurredAt : Datetime
  /-- A blank text is not submitted. -/
  text_not_blank : strip text ≠ []

/-- What a history was read from: the store as it was, and the messages that had been registered
before the load's own message when the lock was taken. It is kept to speak about; no step reads
it. -/
structure HistorySource where
  store : Conversations
  registered : List MessageRecord

/-- Where the load of a turn's history stands. -/
inductive HistoryLoad where
  /-- The handler has not spawned the turn. -/
  | accepted
  /-- The turn has not taken the lock. -/
  | spawned
  /-- It waits for the writes that were not done. -/
  | waiting (priorWrites : List ℕ) (registered : List MessageRecord)
  | reading (registered : List MessageRecord)
  /-- The reader's thread is done. -/
  | fetched (records : List MessageRecord) (source : HistorySource)
  /-- The history is there, and what it was read from, if it was read. -/
  | loaded (history : RecentConversationHistory) (source : Option HistorySource)

/-- What had been registered, once the lock was taken. -/
def HistoryLoad.registered? : HistoryLoad → Option (List MessageRecord)
  | .accepted | .spawned | .loaded _ none => none
  | .waiting _ registered | .reading registered => some registered
  | .fetched _ source | .loaded _ (some source) => some source.registered

/-- Whether the history is there, and was read. -/
def HistoryLoad.isRead : HistoryLoad → Bool
  | .loaded _ (some _) => true
  | _ => false

theorem HistoryLoad.isRead_iff {load : HistoryLoad} :
    load.isRead = true ↔ ∃ history source, load = .loaded history (some source) := by
  constructor
  · intro h
    rcases load with _ | _ | _ | _ | _ | ⟨history, _ | source⟩
    all_goals first
      | exact ⟨history, source, rfl⟩
      | cases h
  · rintro ⟨history, source, rfl⟩
    rfl

/-- Where the completion of a turn stands, with the text that it displays. -/
inductive Completion where
  | running
  /-- The lock is held, and `utterance.completed` is being published. -/
  | publishing (displayText : Text)
  /-- It is in the outbox. -/
  | admitted (displayText : Text)
  /-- The reply is registered, unless it is blank, and the lock is released. -/
  | completed (displayText : Text)
  /-- The publication returned `False`. -/
  | refused

/-- The text of an utterance that was admitted. -/
def Completion.admitted? : Completion → Option Text
  | .running | .publishing _ | .refused => none
  | .admitted displayText | .completed displayText => some displayText

structure ForegroundTurn where
  userSequence : ℕ
  assistantSequence : ℕ
  request : RequestedTurn
  load : HistoryLoad
  completion : Completion
  assistantSequence_pos : 1 ≤ assistantSequence

/-- The generation of a turn. -/
def ForegroundTurn.generation (turn : ForegroundTurn) : ℕ := turn.request.generation

/-! ### Messages -/

/-- The metadata of a message of a turn. -/
def turnMetadata (request : RequestedTurn) : List (Text × MetadataValue) :=
  [("turn_id".toList, .text request.turnId), ("generation".toList, .integer request.generation)]

/-- The message of a request. -/
def userRecord (sessionId messageId : Text) (request : RequestedTurn) (userSequence : ℕ)
    (hpos : 1 ≤ userSequence) : MessageRecord where
  messageId := messageId
  sessionId := sessionId
  sequence := userSequence
  role := .user
  content := request.text
  createdAt := request.occurredAt
  actorId := request.actorId
  sourceEventId := some request.eventId
  metadata := turnMetadata request ++
    [("input_modality".toList, .text request.inputModality)] ++
    request.utteranceId.toList.map fun utteranceId => ("utterance_id".toList, .text utteranceId)
  sequence_pos := hpos
  content_not_blank _ := request.text_not_blank

theorem strip_strip_ne_nil {t : Text} (h : strip t ≠ []) : strip (strip t) ≠ [] := by
  intro hnil
  exact Bool.false_ne_true ((isBlank_strip h).symm.trans (isBlank_iff.mpr hnil))

/-- The reply of a turn. -/
def assistantRecord (sessionId messageId : Text) (createdAt : Datetime) (turn : ForegroundTurn)
    (displayText : Text) (htext : strip displayText ≠ []) : MessageRecord where
  messageId := messageId
  sessionId := sessionId
  sequence := turn.assistantSequence
  role := .assistant
  content := strip displayText
  createdAt := createdAt
  sourceEventId := some turn.request.eventId
  metadata := turnMetadata turn.request
  sequence_pos := turn.assistantSequence_pos
  content_not_blank _ := strip_strip_ne_nil htext

/-! ### Workers -/

/-- Where the write of a message stands. -/
inductive WritePhase where
  | running
  /-- Its transaction is committed. -/
  | committed
  /-- Its task is done. -/
  | done
deriving DecidableEq

structure MessageWrite where
  record : MessageRecord
  phase : WritePhase

structure ConversationStorage where
  /-- The current generation of the session. -/
  generation : ℕ
  /-- Whether the submission that advanced to it has put what it had to put. -/
  placed : Bool
  /-- The turns that are requested, in the inbox. -/
  requests : List RequestedTurn
  messageSequence : ℕ
  turns : Keyed ForegroundTurn.userSequence
  /-- The turn that holds the registration lock while it publishes. -/
  lock : Option ℕ
  /-- The workers, in the order they were created. -/
  workers : List MessageWrite
  /-- `_message_writes`: the workers by the sequences of their messages. -/
  messageWrites : Mapping ℕ ℕ
  store : Conversations

namespace ConversationStorage

variable (s : ConversationStorage)

/-! ### Parts of the steps -/

def setTurn (turn : ForegroundTurn) : ConversationStorage :=
  { s with turns := s.turns.insert turn }

/-- `persist_message`. -/
def persistMessage (record : MessageRecord) : ConversationStorage :=
  { s with
    workers := s.workers ++ [⟨record, .running⟩]
    messageWrites := s.messageWrites.insert (record.sequence, s.workers.length) }

/-- `task.done()`. -/
def isDone (worker : ℕ) : Bool := s.workers[worker]?.any fun w => w.phase = .done

/-- The workers of earlier messages that are not done. -/
def priorWrites (beforeSequence : ℕ) : List ℕ :=
  (s.messageWrites.values.filter fun entry =>
    entry.1 < beforeSequence && !s.isDone entry.2).map Prod.snd

/-- The earlier messages that were registered. -/
def registered (beforeSequence : ℕ) : List MessageRecord :=
  (s.workers.map (·.record)).filter fun record => record.sequence < beforeSequence

/-- Whether the handler is busy. -/
def handling : Bool :=
  s.turns.values.any fun turn => match turn.load with
    | .accepted => true
    | _ => false

/-- `_accept_turn`, until it suspends. -/
def acceptTurn (sessionId messageId : Text) (request : RequestedTurn)
    (requests : List RequestedTurn) : ConversationStorage :=
  { s.persistMessage (userRecord sessionId messageId request (s.messageSequence + 1)
      (Nat.le_add_left 1 _)) with
    requests := requests
    messageSequence := s.messageSequence + 2
    turns := s.turns.insert {
      userSequence := s.messageSequence + 1
      assistantSequence := s.messageSequence + 2
      request := request
      load := .accepted
      completion := .running
      assistantSequence_pos := Nat.le_add_left 1 _ } }

/-! ### Steps -/

/-- The steps of a conversation. -/
inductive Label where
  /-- A submission replaces what is in the foreground. -/
  | advance
  /-- Its request is put into the inbox. -/
  | enqueue (request : RequestedTurn)
  /-- A request is displaced from the inbox. -/
  | displace (index : ℕ)
  | accept (messageId : Text)
  | spawn (userSequence : ℕ)
  /-- `load_recent_history`, until it waits for writes. -/
  | load (userSequence : ℕ)
  /-- The prior writes are done. -/
  | proceed (userSequence : ℕ)
  /-- The reader's thread reads. -/
  | read (userSequence : ℕ)
  | compile (userSequence : ℕ)
  /-- The deadline is over. -/
  | expire (userSequence : ℕ)
  /-- The pipeline is done, and the lock is taken. -/
  | complete (userSequence : ℕ) (displayText : Text)
  /-- `utterance.completed` is put into the outbox. -/
  | publish (userSequence : ℕ)
  /-- The publication returns `False`. -/
  | refuse (userSequence : ℕ)
  | register (userSequence : ℕ) (messageId : Text) (createdAt : Datetime)
  | commit (worker : ℕ)
  | done (worker : ℕ)
  /-- The callback of a worker that is done. -/
  | discard (worker : ℕ)

variable (policy : RecentConversationHistoryPolicy) (sessionId : Text)

/-- A step of the load of a turn. -/
def nextLoad (turn : ForegroundTurn) : Label → Option HistoryLoad
  | .spawn _ =>
    match turn.load with
    | .accepted => some .spawned
    | _ => none
  | .load _ =>
    match turn.load with
    | .spawned =>
      -- a policy without history asks the store nothing
      if policy.enabled = false then some (.loaded {} none)
      else if s.lock = none then
        some (.waiting (s.priorWrites turn.userSequence) (s.registered turn.userSequence))
      else none
    | _ => none
  | .proceed _ =>
    match turn.load with
    | .waiting priorWrites registered =>
      if priorWrites.all s.isDone then some (.reading registered) else none
    | _ => none
  | .read _ =>
    match turn.load with
    | .reading registered =>
      match s.store.listRecentBefore sessionId turn.userSequence policy.fetchLimit with
      | .ok records => some (.fetched records ⟨s.store, registered⟩)
      | .error _ => none
    | _ => none
  | .compile _ =>
    match turn.load with
    | .fetched records source =>
      some (.loaded (policy.compile records sessionId turn.generation) (some source))
    | _ => none
  | .expire _ =>
    -- past its deadline a load ends with an empty history, wherever it was
    match turn.load with
    | .waiting _ _ | .reading _ | .fetched _ _ => some (.loaded {} none)
    | _ => none
  | _ => none

/-- A step of the completion of a turn. -/
def nextCompletion (turn : ForegroundTurn) : Label → Option ConversationStorage
  | .complete _ displayText =>
    match turn.load, turn.completion with
    | .loaded _ _, .running =>
      if s.lock = none then
        some { s.setTurn { turn with completion := .publishing displayText } with
          lock := some turn.userSequence }
      else none
    | _, _ => none
  | .publish _ =>
    match turn.completion with
    | .publishing displayText =>
      -- the outbox accepts nothing of a generation that is not current
      if turn.generation = s.generation then
        some (s.setTurn { turn with completion := .admitted displayText })
      else none
    | _ => none
  | .refuse _ =>
    match turn.completion with
    | .publishing _ => some { s.setTurn { turn with completion := .refused } with lock := none }
    | _ => none
  | .register _ messageId createdAt =>
    match turn.completion with
    | .admitted displayText =>
      let completed := { s.setTurn { turn with completion := .completed displayText } with
        lock := none }
      if htext : strip displayText ≠ [] then
        some (completed.persistMessage
          (assistantRecord sessionId messageId createdAt turn displayText htext))
      else some completed
    | _ => none
  | _ => none

/-- A step of a worker. -/
def nextWrite (worker : ℕ) (write : MessageWrite) : Label → Option ConversationStorage
  | .commit _ =>
    match write.phase, s.store.append write.record with
    | .running, .ok store =>
      some { s with
        workers := s.workers.set worker { write with phase := .committed }
        store := store }
    | _, _ => none
  | .done _ =>
    if write.phase = .committed then
      some { s with workers := s.workers.set worker { write with phase := .done } }
    else none
  | .discard _ =>
    if write.phase = .done then
      if s.messageWrites.get write.record.sequence = some worker then
        some { s with messageWrites := s.messageWrites.erase write.record.sequence }
      else some s
    else none
  | _ => none

/-- One step. -/
def next (l : Label) : Option ConversationStorage :=
  match l with
  | .advance => some { s with generation := s.generation + 1, placed := false }
  | .enqueue request =>
    if s.placed = false ∧ request.generation = s.generation then
      some { s with requests := s.requests ++ [request], placed := true }
    else none
  | .displace index => some { s with requests := s.requests.eraseIdx index }
  | .accept messageId =>
    match s.requests with
    | [] => none
    | request :: requests =>
      if s.handling then none else some (s.acceptTurn sessionId messageId request requests)
  | .spawn userSequence | .load userSequence | .proceed userSequence | .read userSequence
  | .compile userSequence | .expire userSequence =>
    (s.turns.find? userSequence).bind fun turn =>
      (s.nextLoad policy sessionId turn l).map fun load => s.setTurn { turn with load := load }
  | .complete userSequence _ | .publish userSequence | .refuse userSequence
  | .register userSequence _ _ =>
    (s.turns.find? userSequence).bind fun turn => s.nextCompletion sessionId turn l
  | .commit worker | .done worker | .discard worker =>
    s.workers[worker]?.bind fun write => s.nextWrite worker write l

/-- A session that has just started. -/
structure Started : Prop where
  generation : s.generation = 0
  requests : s.requests = []
  messageSequence : s.messageSequence = 0
  turns : s.turns = ∅
  lock : s.lock = none
  workers : s.workers = []
  messageWrites : s.messageWrites = ∅

/-- The conversation of a session. -/
def machine : Machine ConversationStorage Label where
  start := Started
  next s := s.next policy sessionId

end ConversationStorage

end Eeveetuber
