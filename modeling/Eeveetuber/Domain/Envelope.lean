import Eeveetuber.Domain.Identifiers
import Eeveetuber.Domain.Payload
import Eeveetuber.Foundation.Keyed

/-!
# The whole event envelope

The envelope of `Eeveetuber.EventEnvelope` with all that is in it: an event's type and frozen
payload, when it occurred, what caused it, and its labels. An `Eeveetuber.Event` is valid as it
is; `Eeveetuber.EventArguments.create` is the constructor that checks its arguments, and copies of
an event go through it again.

For transport and storage an event is written as a dictionary of primitive values, and read back
from one. **What is written is read back** (`Eeveetuber.Event.fromDict_toDict`), as long as the
texts of points in time are; those are Python's, and an `Eeveetuber.IsoCalendar` stands for them.
The texts of identifiers are read back by `Eeveetuber.UUID.parse_text`.
-/

namespace Eeveetuber

open Foundation

/-! ### Labels -/

/-- Origin classification, deliberately not ordered by implied trust. -/
inductive TrustLabel where
  | system
  | owner
  | trustedOperator
  | localSensor
  | publicViewer
  | retrievedDocument
  | tool
  | plugin
  | unknown
deriving DecidableEq, Repr

def TrustLabel.value : TrustLabel → Text
  | system => "system".toList
  | owner => "owner".toList
  | trustedOperator => "trusted_operator".toList
  | localSensor => "local_sensor".toList
  | publicViewer => "public_viewer".toList
  | retrievedDocument => "retrieved_document".toList
  | tool => "tool".toList
  | plugin => "plugin".toList
  | unknown => "unknown".toList

/-- The labels, by their values. -/
def TrustLabel.members : Keyed TrustLabel.value where
  values := [system, owner, trustedOperator, localSensor, publicViewer, retrievedDocument, tool,
    plugin, unknown]
  nodup := by decide +kernel

/-- `Visibility`: where an event or its content may be exposed. -/
inductive EventVisibility where
  | «private»
  | ownerOnly
  | session
  | streamSafe
  | «public»
deriving DecidableEq, Repr

def EventVisibility.value : EventVisibility → Text
  | «private» => "private".toList
  | ownerOnly => "owner_only".toList
  | session => "session".toList
  | streamSafe => "stream_safe".toList
  | «public» => "public".toList

def EventVisibility.members : Keyed EventVisibility.value where
  values := [«private», ownerOnly, session, streamSafe, «public»]
  nodup := by decide +kernel

/-- Persistence intent; an event bus does not make events durable itself. -/
inductive RetentionClass where
  | ephemeralMedia
  | operationalTrace
  | transcript
  | audit
  | durableDomain
deriving DecidableEq, Repr

def RetentionClass.value : RetentionClass → Text
  | ephemeralMedia => "ephemeral_media".toList
  | operationalTrace => "operational_trace".toList
  | transcript => "transcript".toList
  | audit => "audit".toList
  | durableDomain => "durable_domain".toList

def RetentionClass.members : Keyed RetentionClass.value where
  values := [ephemeralMedia, operationalTrace, transcript, audit, durableDomain]
  nodup := by decide +kernel

theorem TrustLabel.mem_members (label : TrustLabel) : label ∈ members := by
  rw [← Keyed.mem_values]
  cases label <;> decide

theorem EventVisibility.mem_members (visibility : EventVisibility) : visibility ∈ members := by
  rw [← Keyed.mem_values]
  cases visibility <;> decide

theorem RetentionClass.mem_members (retention : RetentionClass) : retention ∈ members := by
  rw [← Keyed.mem_values]
  cases retention <;> decide

/-! ### Types, times and payloads -/

def isLower (c : Char) : Bool := 'a' ≤ c ∧ c ≤ 'z'

/-- `[a-z][a-z0-9]*(?:[._-][a-z0-9]+)*`: words between separators, the first of which begins with
a letter. -/
def isEventType (type : Text) : Bool :=
  let words := type.splitOnP fun c => c = '.' ∨ c = '_' ∨ c = '-'
  (words.all fun word => word ≠ [] ∧ word.all fun c => isLower c ∨ c.isDigit) &&
    (type.head?.any isLower)

/-- The points in time of a program, and their texts. -/
structure IsoCalendar (δ : Type) where
  /-- `utcoffset()` is not `None`. -/
  isAware : δ → Bool
  isoformat : δ → Text
  fromisoformat : Text → Except BoundaryError δ

variable {δ : Type}

/-- **Points in time are read back from their texts**, which have a numeric offset. -/
def IsoCalendar.ReadsBack (calendar : IsoCalendar δ) : Prop :=
  ∀ d, calendar.isAware d = true → 'Z' ∉ calendar.isoformat d ∧
    calendar.fromisoformat (calendar.isoformat d) = .ok d

def PyObject.isMapping : PyObject → Bool
  | mapping _ _ => true
  | _ => false

/-- A frozen JSON object. -/
structure FrozenPayload where
  value : PyObject
  frozen : IsFrozen value
  isMapping : value.isMapping = true

/-- What may be given as a payload: a mapping, or a typed payload that offers one. -/
inductive PayloadInput where
  | raw (value : PyObject)
  | typed (toEventPayload : PyObject)

def PayloadInput.value : PayloadInput → PyObject
  | raw value => value
  | typed value => value

/-- `_freeze_payload`. -/
def freezePayload (payload : PayloadInput) : Except BoundaryError FrozenPayload :=
  match h : freezeJson "payload".toList payload.value with
  | .error e => .error e
  | .ok frozen =>
    if hmapping : frozen.isMapping = true then .ok ⟨frozen, isFrozen_of_freezeJson h, hmapping⟩
    else .error (.typeError "event payload must be a mapping".toList)

theorem freezePayload_of_freezeJson {payload : PayloadInput} {frozen : FrozenPayload}
    (h : freezeJson "payload".toList payload.value = .ok frozen.value) :
    freezePayload payload = .ok frozen := by
  rw [freezePayload]
  split
  · rename_i e herror
    exact nomatch herror.symm.trans h
  · rename_i value hvalue
    obtain rfl := Except.ok.inj (hvalue.symm.trans h)
    rw [dif_pos frozen.isMapping]

/-! ### Events -/

/-- The arguments of the constructor. -/
structure EventArguments (δ : Type) where
  type : Text
  payload : PayloadInput
  eventId : UUID
  schemaVersion : ℤ
  occurredAt : δ
  monotonicAtMs : ℤ
  sessionId : Option UUID
  actorId : Option Text
  correlationId : UUID
  causationId : Option UUID
  sequence : Option ℤ
  priority : ℤ
  trust : TrustLabel
  visibility : EventVisibility
  retention : RetentionClass

/-- What is in an envelope besides its identity, its owner and its place in the owner's order. -/
structure EventDetails (calendar : IsoCalendar δ) where
  type : Text
  payload : FrozenPayload
  schemaVersion : ℤ
  occurredAt : δ
  monotonicAtMs : ℤ
  actorId : Option Text
  correlationId : UUID
  causationId : Option UUID
  trust : TrustLabel
  visibility : EventVisibility
  retention : RetentionClass
  type_valid : isEventType type = true
  schemaVersion_pos : 1 ≤ schemaVersion
  occurredAt_aware : calendar.isAware occurredAt = true
  monotonicAtMs_nonneg : 0 ≤ monotonicAtMs
  actorId_not_blank : ∀ actor ∈ actorId, strip actor ≠ []

/-- Immutable metadata and JSON payload for a cross-component event. -/
abbrev Event (calendar : IsoCalendar δ) := EventEnvelope (EventDetails calendar)

variable {calendar : IsoCalendar δ}

/-- The constructor, with the checks of `__post_init__`. -/
def EventArguments.create (calendar : IsoCalendar δ) (a : EventArguments δ) :
    Except BoundaryError (Event calendar) :=
  if htype : isEventType a.type = false then
    .error (.valueError
      "event type must be lowercase dot/dash/underscore-separated identifiers".toList)
  else if hversion : a.schemaVersion < 1 then
    .error (.valueError "schema_version must be a positive integer".toList)
  else if haware : calendar.isAware a.occurredAt = false then
    .error (.valueError "occurred_at must be timezone-aware".toList)
  else if htime : a.monotonicAtMs < 0 then
    .error (.valueError "monotonic_at_ms must be a non-negative integer".toList)
  else if hactor : ∃ actor ∈ a.actorId, strip actor = [] then
    .error (.valueError "actor_id cannot be blank".toList)
  else if ∃ n ∈ a.sequence, n < 0 then
    .error (.valueError "sequence must be a non-negative integer or None".toList)
  else (freezePayload a.payload).map fun payload => {
    body := {
      type := a.type
      payload
      schemaVersion := a.schemaVersion
      occurredAt := a.occurredAt
      monotonicAtMs := a.monotonicAtMs
      actorId := a.actorId
      correlationId := a.correlationId
      causationId := a.causationId
      trust := a.trust
      visibility := a.visibility
      retention := a.retention
      type_valid := Bool.not_eq_false _ ▸ htype
      schemaVersion_pos := not_lt.mp hversion
      occurredAt_aware := Bool.not_eq_false _ ▸ haware
      monotonicAtMs_nonneg := not_lt.mp htime
      actorId_not_blank := fun actor hmem hblank => hactor ⟨actor, hmem, hblank⟩ }
    eventId := a.eventId
    sessionId := a.sessionId
    sequence := a.sequence.map Int.toNat
    priority := a.priority }

namespace Event

/-- The arguments that an event would be made of again. -/
def arguments (e : Event calendar) : EventArguments δ where
  type := e.body.type
  payload := .raw e.body.payload.value
  eventId := e.eventId
  schemaVersion := e.body.schemaVersion
  occurredAt := e.body.occurredAt
  monotonicAtMs := e.body.monotonicAtMs
  sessionId := e.sessionId
  actorId := e.body.actorId
  correlationId := e.body.correlationId
  causationId := e.body.causationId
  sequence := e.sequence.map Int.ofNat
  priority := e.priority
  trust := e.body.trust
  visibility := e.body.visibility
  retention := e.body.retention

/-- `with_sequence`: a stamped copy. -/
def replaceSequence (e : Event calendar) (sequence : ℤ) :
    Except BoundaryError (Event calendar) :=
  EventArguments.create calendar { e.arguments with sequence := some sequence }

/-- `for_session`: an unscoped event is bound, and another session's is rejected. -/
def bindSession (e : Event calendar) (sessionId : UUID) : Except BoundaryError (Event calendar) :=
  match e.sessionId with
  | some owner =>
    if owner = sessionId then .ok e
    else .error (.valueError ("event belongs to session ".toList ++ owner.text ++
      ", not requested session ".toList ++ sessionId.text))
  | none => EventArguments.create calendar { e.arguments with sessionId := some sessionId }

end Event

/-! ### Dictionaries of primitive values -/

/-- The keys of an event's dictionary. -/
inductive EventField where
  | eventId
  | type
  | schemaVersion
  | occurredAt
  | monotonicAtMs
  | sessionId
  | actorId
  | correlationId
  | causationId
  | sequence
  | priority
  | trust
  | visibility
  | retention
  | payload
deriving DecidableEq, Repr

namespace EventField

def name : EventField → Text
  | eventId => "event_id".toList
  | type => "type".toList
  | schemaVersion => "schema_version".toList
  | occurredAt => "occurred_at".toList
  | monotonicAtMs => "monotonic_at_ms".toList
  | sessionId => "session_id".toList
  | actorId => "actor_id".toList
  | correlationId => "correlation_id".toList
  | causationId => "causation_id".toList
  | sequence => "sequence".toList
  | priority => "priority".toList
  | trust => "trust".toList
  | visibility => "visibility".toList
  | retention => "retention".toList
  | payload => "payload".toList

/-- The keys in their order, each of another name. -/
def members : Keyed name where
  values := [eventId, type, schemaVersion, occurredAt, monotonicAtMs, sessionId, actorId,
    correlationId, causationId, sequence, priority, trust, visibility, retention, payload]
  nodup := by decide +kernel

theorem mem_members (field : EventField) : field ∈ members := by
  rw [← Keyed.mem_values]
  cases field <;> decide

end EventField

/-- A value, or `None`. -/
def PyObject.ofOption : Option PyObject → PyObject
  | some value => value
  | Option.none => .none

namespace Event

/-- What an event's dictionary has under a key. -/
def write (e : Event calendar) : EventField → PyObject
  | .eventId => .str e.eventId.text
  | .type => .str e.body.type
  | .schemaVersion => .int e.body.schemaVersion
  | .occurredAt => .str (calendar.isoformat e.body.occurredAt)
  | .monotonicAtMs => .int e.body.monotonicAtMs
  | .sessionId => .ofOption (e.sessionId.map fun id => .str id.text)
  | .actorId => .ofOption (e.body.actorId.map .str)
  | .correlationId => .str e.body.correlationId.text
  | .causationId => .ofOption (e.body.causationId.map fun id => .str id.text)
  | .sequence => .ofOption (e.sequence.map fun n => .int n)
  | .priority => .int e.priority
  | .trust => .str e.body.trust.value
  | .visibility => .str e.body.visibility.value
  | .retention => .str e.body.retention.value
  | .payload => thawJson e.body.payload.value

/-- `to_dict`. -/
def toDict (e : Event calendar) : Mapping Text PyObject where
  values := EventField.members.values.map fun field => (field.name, e.write field)
  nodup := by
    rw [List.map_map]
    exact EventField.members.nodup

theorem get_toDict (e : Event calendar) (field : EventField) :
    e.toDict.get field.name = some (e.write field) := by
  rw [Mapping.get_eq_some, ← Keyed.mem_values, toDict]
  exact List.mem_map_of_mem field.mem_members

end Event

namespace PyObject

/-- `bool(value)`. -/
def truthy : PyObject → Bool
  | none => false
  | str t => t ≠ []
  | bool b => b
  | int n => n ≠ 0
  | float x => x ≠ .finite 0
  | sequence _ children => !children.isEmpty
  | mapping _ items => !items.isEmpty
  | other _ => true

/-- `str(value)`, of a text, a number or a constant. What it makes of other objects is left
out. -/
def toText : PyObject → Except BoundaryError Text
  | str t => .ok t
  | int n => .ok (toString n).toList
  | bool true => .ok "True".toList
  | bool false => .ok "False".toList
  | none => .ok "None".toList
  | _ => .error (.typeError "not a text".toList)

/-- `int(value)`, of a number. What it makes of texts and floats is left out. -/
def toInt : PyObject → Except BoundaryError ℤ
  | int n => .ok n
  | bool true => .ok 1
  | bool false => .ok 0
  | _ => .error (.typeError "not a number".toList)

/-- `UUID(str(value))`. -/
def toUuid (value : PyObject) : Except BoundaryError UUID := do
  let text ← value.toText
  (UUID.parse text).mapError fun error => .valueError error.toList

/-- `Enum(str(value))`, of an enumeration of this name. -/
def toMember {α : Type} {key : α → Text} (enumName : String) (members : Keyed key)
    (value : PyObject) : Except BoundaryError α := do
  let text ← value.toText
  orRaise (.valueError (text ++ " is not a valid ".toList ++ enumName.toList)) (members.find? text)

/-- What is read if a value is given, and `None` if not. -/
def optional {α : Type} (given : PyObject → Bool) (read : PyObject → Except BoundaryError α) :
    Option PyObject → Except BoundaryError (Option α)
  | some value => if given value then (read value).map some else .ok Option.none
  | Option.none => .ok Option.none

/-- `value is not None`. -/
def isNotNone : PyObject → Bool
  | none => false
  | _ => true

end PyObject

/-- `text.replace("Z", "+00:00")`. -/
def replaceZulu (t : Text) : Text := t.flatMap fun c => if c = 'Z' then "+00:00".toList else [c]

/-- `from_dict`. -/
def Event.fromDict (calendar : IsoCalendar δ) (raw : Mapping Text PyObject) :
    Except BoundaryError (Event calendar) := do
  let item (field : EventField) := orRaise (.keyError field.name) (raw.get field.name)
  let occurredAtRaw ← match ← item .occurredAt with
    | .str t => .ok t
    | _ => .error (.typeError "occurred_at must be an ISO-8601 string".toList)
  let payload := (raw.get EventField.payload.name).getD (.mapping .dict [])
  raiseIf (payload.isMapping = false) (.typeError "payload must be a mapping".toList)
  let eventId ← (← item .eventId).toUuid
  let type ← (← item .type).toText
  let schemaVersion ← (← item .schemaVersion).toInt
  let occurredAt ← calendar.fromisoformat (replaceZulu occurredAtRaw)
  let monotonicAtMs ← (← item .monotonicAtMs).toInt
  let sessionId ← PyObject.optional PyObject.truthy PyObject.toUuid
    (raw.get EventField.sessionId.name)
  let actorId ← PyObject.optional PyObject.isNotNone PyObject.toText
    (raw.get EventField.actorId.name)
  let correlationId ← (← item .correlationId).toUuid
  let causationId ← PyObject.optional PyObject.truthy PyObject.toUuid
    (raw.get EventField.causationId.name)
  let sequence ← PyObject.optional PyObject.isNotNone PyObject.toInt
    (raw.get EventField.sequence.name)
  let priority ← (← item .priority).toInt
  let trust ← (← item .trust).toMember "TrustLabel" TrustLabel.members
  let visibility ← (← item .visibility).toMember "Visibility" EventVisibility.members
  let retention ← (← item .retention).toMember "RetentionClass" RetentionClass.members
  EventArguments.create calendar {
    type, payload := .raw payload, eventId, schemaVersion, occurredAt, monotonicAtMs, sessionId,
    actorId, correlationId, causationId, sequence, priority, trust, visibility, retention }

/-! ### Reading back -/

namespace PyObject

@[simp] theorem toText_str (t : Text) : (str t).toText = .ok t := rfl

@[simp] theorem toInt_int (n : ℤ) : (int n).toInt = .ok n := rfl

@[simp] theorem toUuid_str_text (id : UUID) : (str id.text).toUuid = .ok id := by
  rw [toUuid, toText_str, ok_bind, mapError_eq_ok]
  exact UUID.parse_text id

theorem toMember_str {α : Type} {key : α → Text} {members : Keyed key} {a : α} (enumName : String)
    (h : a ∈ members) : (str (key a)).toMember enumName members = .ok a := by
  rw [toMember, toText_str, ok_bind, Keyed.find?_key h]
  rfl

theorem truthy_str_text (id : UUID) : (str id.text).truthy = true := by
  have hne : id.text ≠ [] := by
    rw [UUID.text, hyphenate]
    simp
  rw [truthy]
  exact decide_eq_true hne

/-- Identifiers that may be absent are read back. -/
@[simp] theorem optional_uuid (id : Option UUID) :
    optional truthy toUuid (some (ofOption (id.map fun id => str id.text))) = .ok id := by
  cases id with
  | none => rfl
  | some id =>
    rw [Option.map_some, ofOption, optional, if_pos (truthy_str_text id), toUuid_str_text]
    rfl

/-- And so are texts, even empty ones. -/
@[simp] theorem optional_text (t : Option Text) :
    optional isNotNone toText (some (ofOption (t.map str))) = .ok t := by
  cases t <;> rfl

@[simp] theorem optional_int (n : Option ℕ) :
    optional isNotNone toInt (some (ofOption (n.map fun n => int n))) = .ok (n.map Int.ofNat) := by
  cases n <;> rfl

end PyObject

theorem replaceZulu_eq_self {t : Text} (h : 'Z' ∉ t) : replaceZulu t = t := by
  induction t with
  | nil => rfl
  | cons c t ih =>
    rw [List.mem_cons, not_or] at h
    rw [replaceZulu, List.flatMap_cons, if_neg (Ne.symm h.1), List.singleton_append]
    exact congrArg _ (ih h.2)

theorem isMapping_thawJson (payload : FrozenPayload) :
    (thawJson payload.value).isMapping = true := by
  have hmapping := payload.isMapping
  rcases hvalue : payload.value with _ | _ | _ | _ | _ | _ | _ | _
  all_goals rw [hvalue] at hmapping
  all_goals first | rfl | exact nomatch hmapping

namespace Event

/-- **A valid event passes the checks again**, with any payload that freezes to its own. -/
theorem create_eq_ok {a : EventArguments δ} {e : Event calendar}
    (ha : a = { e.arguments with payload := a.payload })
    (hpayload : freezePayload a.payload = .ok e.body.payload) :
    EventArguments.create calendar a = .ok e := by
  have hsequence : ¬∃ n ∈ e.sequence.map Int.ofNat, n < 0 := by
    rintro ⟨n, hn, hneg⟩
    obtain ⟨m, -, rfl⟩ := Option.map_eq_some_iff.mp hn
    exact absurd hneg (Int.natCast_nonneg m).not_gt
  have hback : (e.sequence.map Int.ofNat).map Int.toNat = e.sequence := by
    cases e.sequence <;> rfl
  obtain ⟨⟨type, payload, version, time, monotonic, actor, correlation, causation, trust,
    visibility, retention, htype, hversion, haware, htime, hactor⟩, id, session, sequence,
    priority⟩ := e
  obtain ⟨⟩ := a
  rw [arguments] at ha
  simp only [EventArguments.mk.injEq] at ha
  obtain ⟨rfl, -, rfl, rfl, rfl, rfl, rfl, rfl, rfl, rfl, rfl, rfl, rfl, rfl, rfl⟩ := ha
  dsimp only at hpayload hsequence hback
  rw [EventArguments.create]
  dsimp only
  rw [dif_neg (Bool.not_eq_false _ ▸ htype), dif_neg (not_lt.mpr hversion),
    dif_neg (Bool.not_eq_false _ ▸ haware), dif_neg (not_lt.mpr htime),
    dif_neg (fun ⟨actor, hmem, hblank⟩ => hactor actor hmem hblank), if_neg hsequence, hpayload,
    hback]
  rfl

/-- The payload of an event freezes to itself. -/
theorem freezePayload_self (e : Event calendar) :
    freezePayload (.raw e.body.payload.value) = .ok e.body.payload :=
  freezePayload_of_freezeJson (freezeJson_of_isFrozen e.body.payload.frozen _)

/-- **What is written is read back.** -/
theorem fromDict_toDict (h : calendar.ReadsBack) (e : Event calendar) :
    fromDict calendar e.toDict = .ok e := by
  obtain ⟨hzulu, hiso⟩ := h e.body.occurredAt e.body.occurredAt_aware
  have hpayload : freezePayload (.raw (thawJson e.body.payload.value)) = .ok e.body.payload :=
    freezePayload_of_freezeJson (freezeJson_thawJson e.body.payload.frozen _)
  have hmapping : raiseIf ((thawJson e.body.payload.value).isMapping = false)
      (BoundaryError.typeError "payload must be a mapping".toList) = .ok () :=
    raiseIf_eq_ok.mpr (by rw [isMapping_thawJson, Bool.true_eq_false]; exact not_false)
  rw [fromDict]
  simp only [get_toDict, orRaise, write, ok_bind, Option.getD_some, hmapping,
    replaceZulu_eq_self hzulu, hiso, PyObject.toText_str, PyObject.toInt_int,
    PyObject.toUuid_str_text, PyObject.optional_uuid, PyObject.optional_text, PyObject.optional_int,
    PyObject.toMember_str _ (TrustLabel.mem_members _),
    PyObject.toMember_str _ (EventVisibility.mem_members _),
    PyObject.toMember_str _ (RetentionClass.mem_members _)]
  exact create_eq_ok rfl hpayload

/-! ### Copies -/

/-- **A stamped copy** is the event with another sequence number, and that is all. -/
theorem replaceSequence_eq_ok (e : Event calendar) (sequence : ℕ) :
    e.replaceSequence sequence = .ok (e.withSequence sequence) :=
  create_eq_ok rfl (freezePayload_self (e.withSequence sequence))

/-- **An event is bound to a session** just if it belongs to no other. -/
theorem bindSession_eq_ok_iff {e e' : Event calendar} {sessionId : UUID} :
    e.bindSession sessionId = .ok e' ↔ e.forSession sessionId = some e' := by
  rw [bindSession, EventEnvelope.forSession]
  rcases hsession : e.sessionId with _ | owner
  · have hbound : EventArguments.create calendar { e.arguments with sessionId := some sessionId } =
        .ok { e with sessionId := some sessionId } :=
      create_eq_ok rfl (freezePayload_self { e with sessionId := some sessionId })
    rw [hbound]
    exact ⟨fun h => congrArg some (Except.ok.inj h), fun h => congrArg _ (Option.some.inj h)⟩
  · dsimp only
    split_ifs
    · exact ⟨fun h => congrArg some (Except.ok.inj h), fun h => congrArg _ (Option.some.inj h)⟩
    · exact iff_of_false nofun nofun

end Event

/-- **The round trip of an event.** What is written is read back; what is frozen stays as it is
when it is frozen again, and thaws to the value it was, with lists and tuples identified; and a
copy with another sequence number, or for a session, differs in that alone. -/
theorem event_round_trip (h : calendar.ReadsBack) :
    (∀ e : Event calendar, Event.fromDict calendar e.toDict = .ok e) ∧
    (∀ path value, IsFrozen value → freezeJson path value = .ok value) ∧
    (∀ path value, IsJsonLike value → ∃ frozen, freezeJson path value = .ok frozen ∧
      IsFrozen frozen ∧ thawJson frozen = asJson value ∧
      (IsJson value → thawJson frozen = value)) ∧
    (∀ (e : Event calendar) (sequence : ℕ),
      e.replaceSequence sequence = .ok { e with sequence := some sequence }) ∧
    ∀ (e : Event calendar) (sessionId : UUID),
      (e.sessionId = some sessionId → e.bindSession sessionId = .ok e) ∧
      (e.sessionId = none →
        e.bindSession sessionId = .ok { e with sessionId := some sessionId }) := by
  refine ⟨Event.fromDict_toDict h, fun path value hfrozen => freezeJson_of_isFrozen hfrozen path,
    fun path value hjson => ?_, Event.replaceSequence_eq_ok, fun e sessionId => ⟨?_, ?_⟩⟩
  · have hfreeze := freezeJson_eq_ok hjson path
    have hthaw := thawJson_of_freezeJson hfreeze
    exact ⟨_, hfreeze, isFrozen_of_freezeJson hfreeze, hthaw,
      fun hplain => hthaw.trans (rebuild_eq_self hplain)⟩
  · intro hsession
    rw [Event.bindSession_eq_ok_iff, EventEnvelope.forSession, hsession]
    exact if_pos rfl
  · intro hsession
    rw [Event.bindSession_eq_ok_iff, EventEnvelope.forSession, hsession]

/-- A calendar of one noon. -/
def noonCalendar : IsoCalendar Unit where
  isAware _ := true
  isoformat _ := "2026-08-20T12:00:00+00:00".toList
  fromisoformat t :=
    if t = "2026-08-20T12:00:00+00:00".toList then .ok ()
    else .error (.valueError ("Invalid isoformat string: ".toList ++ t))

/-- A remark at noon, with a list in its payload. -/
def noonRemark : Event noonCalendar where
  body := {
    type := "user.text".toList
    payload := {
      value := .mapping .mappingProxy
        [(.str "words".toList, .sequence .tuple [.str "tea".toList, .int 1, .none])]
      frozen := ⟨rfl, ⟨rfl, trivial, trivial, trivial, trivial⟩, trivial⟩
      isMapping := rfl }
    schemaVersion := 1
    occurredAt := ()
    monotonicAtMs := 0
    actorId := none
    correlationId := 1
    causationId := none
    trust := .owner
    visibility := .session
    retention := .transcript
    type_valid := by decide +kernel
    schemaVersion_pos := by decide
    occurredAt_aware := rfl
    monotonicAtMs_nonneg := by decide
    actorId_not_blank := nofun }
  eventId := 1
  sessionId := some 2
  sequence := some 0
  priority := 50

theorem event_round_trip_noonRemark :
    Event.fromDict noonCalendar noonRemark.toDict = .ok noonRemark := by
  refine (event_round_trip fun d _ => ⟨?_, ?_⟩).1 noonRemark
  · exact (by decide +kernel : 'Z' ∉ "2026-08-20T12:00:00+00:00".toList)
  · dsimp only [noonCalendar]
    exact if_pos rfl

end Eeveetuber
