import Eeveetuber.Api.AudioFrames
import Eeveetuber.Dialogue.PipelineTrace
import Eeveetuber.Foundation.Base64

/-!
# From synthesizer to wire

A chunk of audio that the pipeline yields is published as an event with a JSON
payload, which the sender of a connection translates into an audio frame and
encodes. What a chunk may be, what the translation reads and what a frame may be
are not the same, and whatever lies between is an exception of the sender:
`Eeveetuber.audio_survives` says which chunks get through, and that they get
through as they were.
-/

namespace Eeveetuber

open Foundation

/-! ### Payloads -/

/-- A value of a payload; those that are read here are scalars. -/
inductive JsonScalar where
  | null
  | boolean (value : Bool)
  | integer (value : ℤ)
  | text (value : Text)
deriving DecidableEq

/-- A payload: its fields and their values. -/
abbrev Payload := List (String × JsonScalar)

/-- The type and the payload of an event, and what it answers. -/
structure TransportBody where
  type : String
  payload : Payload
  correlationId : UUID
deriving DecidableEq

/-- What the sender raises over an event. -/
inductive TransportError where
  | value (message : String)
  | type (message : String)
  | codec (error : CodecError)
deriving DecidableEq

/-- The name of a field in an error. -/
def fieldError (key problem : String) : TransportError :=
  .type ("audio payload field '" ++ key ++ "' must be " ++ problem)

namespace Payload

/-- `_string`. -/
def string (p : Payload) (key : String) : Except TransportError Text :=
  match p.lookup key with
  | some (.text value) => do
    raiseIf (value = []) (fieldError key "non-blank text")
    return value
  | _ => .error (fieldError key "non-blank text")

/-- `_integer`; a field that is missing has the default. -/
def integer (p : Payload) (key : String) (default : Option ℤ := none) :
    Except TransportError ℤ :=
  match p.lookup key, default with
  | some (.integer value), _ => .ok value
  | none, some value => .ok value
  | _, _ => .error (fieldError key "an integer")

/-- `_optional_integer`. -/
def optionalInteger (p : Payload) (key : String) : Except TransportError (Option ℤ) :=
  match p.lookup key with
  | none | some .null => .ok none
  | some (.integer value) => .ok (some value)
  | some _ => .error (fieldError key "an integer or null")

/-- `_boolean`. -/
def boolean (p : Payload) (key : String) : Except TransportError Bool :=
  match p.lookup key with
  | some (.boolean value) => .ok value
  | _ => .error (fieldError key "a boolean")

end Payload

/-! ### The translation -/

/-- `_transport_identity`. -/
def transportIdentity (event : EventEnvelope TransportBody) :
    Except TransportError (UUID × ℕ) := do
  let sessionId ← orRaise (.value "transport output event must be scoped to a session")
    event.sessionId
  let sequence ← orRaise (.value "transport output event must have an owner-assigned sequence")
    event.sequence
  return (sessionId, sequence)

/-- Translate one synthesized-audio event into the binary contract. -/
def eventToAudioFrame (event : EventEnvelope TransportBody) (generation : ℤ) :
    Except TransportError AudioFrame := do
  raiseIf (event.body.type ≠ "speech.audio_chunk")
    (.value "only speech.audio_chunk events can become audio frames")
  let (sessionId, eventSequence) ← transportIdentity event
  let payload := event.body.payload
  let rawAudio ← payload.string "audio_base64"
  let audio ← orRaise (.value "speech audio payload is not valid base64") (b64decode rawAudio)
  let isFinal ← payload.boolean "is_final"
  let flags := (if isFinal then AudioFrameFlags.finalChunk else 0) |||
    (if payload.lookup "end_utterance" = some (.boolean true) then AudioFrameFlags.endUtterance
      else 0)
  let turnId ← (UUID.parse (← payload.string "turn_id")).mapError .value
  let segmentId ← (UUID.parse (← payload.string "segment_id")).mapError .value
  let segmentSequence ← payload.integer "sequence"
  let chunkIndex ← payload.integer "chunk_index"
  let sampleRateHz ← payload.integer "sample_rate_hz"
  let channels ← payload.integer "channels" (some 1)
  let mediaType ← payload.string "media_type"
  let durationMs ← payload.optionalInteger "duration_ms"
  (AudioFrame.create {
    sessionId
    eventId := event.eventId
    correlationId := event.body.correlationId
    turnId
    segmentId
    generation
    eventSequence
    segmentSequence
    chunkIndex
    sampleRateHz
    channels
    mediaType
    audio
    durationMs
    flags }).mapError .value

/-- The generation that the sender labels an event with. -/
def payloadGeneration (payload : Payload) (current : ℤ) : ℤ :=
  match payload.lookup "generation" with
  | some (.integer value) => value
  | _ => current

/-- What the sender does with an audio event on a connection with binary audio. -/
def sendAudio (event : EventEnvelope TransportBody) (current : ℤ) :
    Except TransportError Bytes := do
  let frame ← eventToAudioFrame event (payloadGeneration event.body.payload current)
  (encodeAudioFrame frame).mapError .codec

/-! ### What a turn publishes -/

/-- The payload that a turn publishes of a chunk. -/
def speechAudioPayload (turnId : UUID) (generation : CancellationGeneration)
    (segment : UtteranceSegment) (chunk : AudioChunk) : Payload :=
  [("turn_id", .text turnId.text), ("generation", .integer generation),
    ("segment_id", .text segment.segmentId.text), ("sequence", .integer chunk.sequence),
    ("chunk_index", .integer chunk.chunkIndex), ("media_type", .text chunk.mediaType),
    ("sample_rate_hz", .integer chunk.sampleRateHz), ("is_final", .boolean chunk.isFinal),
    ("duration_ms", (chunk.durationMs.map JsonScalar.integer).getD .null),
    ("audio_base64", .text (b64encode chunk.audio))]

/-- The event that is published of a chunk, with the identity and the place that its session
gives it. -/
def speechAudioEvent (sessionId eventId correlationId : UUID) (sequence : ℕ) (turnId : UUID)
    (generation : CancellationGeneration) (segment : UtteranceSegment) (chunk : AudioChunk) :
    EventEnvelope TransportBody where
  body := ⟨"speech.audio_chunk", speechAudioPayload turnId generation segment chunk, correlationId⟩
  eventId := eventId
  sessionId := some sessionId
  sequence := some sequence
  priority := EventPriority.normal.toInt

/-! ### What is read of a payload -/

section Reading

variable {payload : Payload} {key : String}

theorem Payload.string_eq_ok {value : Text} :
    payload.string key = .ok value ↔ payload.lookup key = some (.text value) ∧ value ≠ [] := by
  unfold Payload.string
  split
  · rename_i found hfound
    rw [raiseIf_bind_eq_ok, hfound]
    constructor
    · rintro ⟨hne, h⟩
      obtain rfl := Except.ok.inj h
      exact ⟨rfl, hne⟩
    · rintro ⟨h, hne⟩
      obtain rfl := JsonScalar.text.inj (Option.some.inj h)
      exact ⟨hne, rfl⟩
  · rename_i hnone
    exact iff_of_false nofun fun ⟨h, _⟩ => hnone value h

theorem Payload.integer_of_lookup {value : ℤ} {default : Option ℤ}
    (h : payload.lookup key = some (.integer value)) :
    payload.integer key default = .ok value := by
  unfold Payload.integer
  rw [h]

theorem Payload.integer_of_missing {value : ℤ} (h : payload.lookup key = none) :
    payload.integer key (some value) = .ok value := by
  unfold Payload.integer
  rw [h]

theorem Payload.boolean_of_lookup {value : Bool} (h : payload.lookup key = some (.boolean value)) :
    payload.boolean key = .ok value := by
  rw [Payload.boolean, h]

/-- `None` is written as `null`. -/
theorem Payload.optionalInteger_of_lookup {value : Option ℤ}
    (h : payload.lookup key = some ((value.map JsonScalar.integer).getD .null)) :
    payload.optionalInteger key = .ok value := by
  rw [Payload.optionalInteger, h]
  rcases value with _ | value
  · rfl
  · rfl

end Reading

/-! ### Which chunks get through -/

section Through

variable {sessionId eventId correlationId turnId : UUID} {sequence : ℕ}
  {generation : CancellationGeneration} {segment : UtteranceSegment} {chunk : AudioChunk}
  {current : ℤ} {frame : AudioFrame}

theorem UUID.text_ne_nil (id : UUID) : id.text ≠ [] := by
  intro h
  have hparse := UUID.parse_text id
  rw [h] at hparse
  cases hparse

/-- The fields of the frame that a chunk becomes. -/
def speechAudioFields (sessionId eventId correlationId : UUID) (sequence : ℕ) (turnId : UUID)
    (generation : CancellationGeneration) (segment : UtteranceSegment) (chunk : AudioChunk) :
    AudioFrameFields where
  sessionId := sessionId
  eventId := eventId
  correlationId := correlationId
  turnId := turnId
  segmentId := segment.segmentId
  generation := generation
  eventSequence := sequence
  segmentSequence := chunk.sequence
  chunkIndex := chunk.chunkIndex
  sampleRateHz := chunk.sampleRateHz
  channels := 1
  mediaType := chunk.mediaType
  audio := chunk.audio
  durationMs := chunk.durationMs
  flags := if chunk.isFinal then AudioFrameFlags.finalChunk else 0

/-- **The translation of a chunk.** Its payload has to have audio and a media type, since
an empty text is refused, and the fields have to pass the checks of a frame. -/
theorem eventToAudioFrame_speechAudioEvent :
    eventToAudioFrame (speechAudioEvent sessionId eventId correlationId sequence turnId generation
        segment chunk) generation = .ok frame ↔
      chunk.audio ≠ [] ∧ chunk.mediaType ≠ [] ∧
        frame.toAudioFrameFields = speechAudioFields sessionId eventId correlationId sequence
          turnId generation segment chunk := by
  rw [speechAudioEvent, eventToAudioFrame, raiseIf_bind_eq_ok]
  dsimp only [transportIdentity]
  set payload := speechAudioPayload turnId generation segment chunk with hpayload
  have hturn : payload.string "turn_id" = .ok turnId.text :=
    Payload.string_eq_ok.mpr ⟨rfl, turnId.text_ne_nil⟩
  have hsegment : payload.string "segment_id" = .ok segment.segmentId.text :=
    Payload.string_eq_ok.mpr ⟨rfl, segment.segmentId.text_ne_nil⟩
  have hfinal : payload.boolean "is_final" = .ok chunk.isFinal := Payload.boolean_of_lookup rfl
  have hsequence : payload.integer "sequence" = .ok (chunk.sequence : ℤ) :=
    Payload.integer_of_lookup rfl
  have hindex : payload.integer "chunk_index" = .ok (chunk.chunkIndex : ℤ) :=
    Payload.integer_of_lookup rfl
  have hrate : payload.integer "sample_rate_hz" = .ok (chunk.sampleRateHz : ℤ) :=
    Payload.integer_of_lookup rfl
  have hchannels : payload.integer "channels" (some 1) = .ok 1 := Payload.integer_of_missing rfl
  have hduration : payload.optionalInteger "duration_ms" = .ok chunk.durationMs :=
    Payload.optionalInteger_of_lookup rfl
  have haudio : payload.lookup "audio_base64" = some (.text (b64encode chunk.audio)) := rfl
  have hmedia : payload.lookup "media_type" = some (.text chunk.mediaType) := rfl
  have hend : payload.lookup "end_utterance" = none := rfl
  have hflags : (if none = some (JsonScalar.boolean true) then AudioFrameFlags.endUtterance
      else 0) = 0 := if_neg nofun
  -- what is read is what was written, and the two texts must not be empty
  simp only [except_bind_eq_ok, orRaise_eq_ok, Payload.string_eq_ok, mapError_eq_ok, haudio, hmedia,
    hend, hturn, hsegment, hfinal, hsequence, hindex, hrate, hchannels, hduration, hflags,
    Option.some.injEq, Except.ok.injEq, JsonScalar.text.injEq, Nat.or_zero,
    AudioFrame.create_eq_ok]
  constructor
  · rintro ⟨-, _, ⟨_, rfl, _, rfl, h⟩, _, ⟨rfl, haudio⟩, _, hdecode, _, rfl, _, rfl, _, hparse, _,
      rfl, _, hparse', _, rfl, _, rfl, _, rfl, _, rfl, _, ⟨rfl, hmedia⟩, _, rfl, hframe⟩
    obtain rfl := Except.ok.inj h
    obtain rfl := Option.some.inj ((b64decode_b64encode _).symm.trans hdecode)
    obtain rfl := Except.ok.inj ((UUID.parse_text _).symm.trans hparse)
    obtain rfl := Except.ok.inj ((UUID.parse_text _).symm.trans hparse')
    exact ⟨fun hnil => haudio (b64encode_eq_nil.mpr hnil), hmedia, hframe⟩
  · rintro ⟨haudio, hmedia, hframe⟩
    exact ⟨not_not.mpr rfl, _, ⟨_, rfl, _, rfl, rfl⟩, _,
      ⟨rfl, fun hnil => haudio (b64encode_eq_nil.mp hnil)⟩, _, b64decode_b64encode _, _, rfl, _,
      rfl, _, UUID.parse_text _, _, rfl, _, UUID.parse_text _, _, rfl, _, rfl, _, rfl, _, rfl, _,
      ⟨rfl, hmedia⟩, _, rfl, hframe⟩

/-- What has to be so that a chunk gets through. -/
structure Sendable (chunk : AudioChunk) (generation : CancellationGeneration) (sequence : ℕ) :
    Prop where
  audio_ne_nil : chunk.audio ≠ []
  audio_le : (chunk.audio.length : ℤ) ≤ maxAudioPayloadBytes
  mediaType : MediaTypeOk chunk.mediaType
  header_le : (audioHeader.size : ℤ) + chunk.mediaType.length ≤ maxU16
  durationMs : ∀ d ∈ chunk.durationMs, 0 ≤ d ∧ d ≤ maxU32 - 1
  sampleRateHz_le : (chunk.sampleRateHz : ℤ) ≤ maxU32
  chunkIndex_le : (chunk.chunkIndex : ℤ) ≤ maxU32
  segmentSequence_le : (chunk.sequence : ℤ) ≤ maxU32
  generation_le : (generation : ℤ) ≤ maxU32
  eventSequence_le : (sequence : ℤ) ≤ maxU64

theorem MediaTypeOk.ne_nil {mediaType : Text} (h : MediaTypeOk mediaType) : mediaType ≠ [] := by
  rintro rfl
  exact absurd h.starts (by decide)

theorem ldiff_finalChunk : ∀ isFinal : Bool,
    (if isFinal then AudioFrameFlags.finalChunk else 0).ldiff knownFlags = 0 := by
  decide +kernel

theorem speechAudioFields_ok (h : Sendable chunk generation sequence) :
    (speechAudioFields sessionId eventId correlationId sequence turnId generation segment
      chunk).Ok where
  generation := ⟨Int.natCast_nonneg _, h.generation_le⟩
  eventSequence := ⟨Int.natCast_nonneg _, h.eventSequence_le⟩
  segmentSequence := ⟨Int.natCast_nonneg _, h.segmentSequence_le⟩
  chunkIndex := ⟨Int.natCast_nonneg _, h.chunkIndex_le⟩
  sampleRateHz := ⟨Int.natCast_pos.mpr chunk.sampleRate_pos, h.sampleRateHz_le⟩
  channels := (by decide : (1 : ℤ) ≤ 1 ∧ 1 ≤ maxU16)
  durationMs := h.durationMs
  flags := ldiff_finalChunk chunk.isFinal
  mediaType := h.mediaType
  audio := h.audio_le

/-- A frame with these fields that is encoded was made of a sendable chunk. -/
theorem sendable_of_encoded {packet : Bytes} (haudio : chunk.audio ≠ [])
    (hframe : frame.toAudioFrameFields = speechAudioFields sessionId eventId correlationId sequence
      turnId generation segment chunk)
    (h : encodeAudioFrame frame = .ok packet) : Sendable chunk generation sequence := by
  have hheader := encodeAudioFrame_isOk.mp ⟨packet, h⟩
  have hok := frame.ok
  rw [hframe] at hok hheader
  exact ⟨haudio, hok.audio, hok.mediaType, hheader, hok.durationMs, hok.sampleRateHz.2,
    hok.chunkIndex.2, hok.segmentSequence.2, hok.generation.2, hok.eventSequence.2⟩

/-- **What the sender makes of a chunk**: its own frame, of the generation of the event and
not of the current one. -/
theorem sendAudio_speechAudioEvent {packet : Bytes} :
    sendAudio (speechAudioEvent sessionId eventId correlationId sequence turnId generation segment
        chunk) current = .ok packet ↔
      ∃ frame : AudioFrame, (chunk.audio ≠ [] ∧ chunk.mediaType ≠ [] ∧
        frame.toAudioFrameFields = speechAudioFields sessionId eventId correlationId sequence turnId
          generation segment chunk) ∧ encodeAudioFrame frame = .ok packet := by
  rw [sendAudio, except_bind_eq_ok]
  simp only [mapError_eq_ok]
  exact exists_congr fun frame => and_congr_left fun _ => eventToAudioFrame_speechAudioEvent

/-- What a receiver is to get of a chunk, and of the event that it was published in. -/
structure Carries (frame : AudioFrame) (event : EventEnvelope TransportBody) (turnId : UUID)
    (generation : CancellationGeneration) (chunk : AudioChunk) : Prop where
  audio : frame.audio = chunk.audio
  segmentId : frame.segmentId = chunk.segmentId
  segmentSequence : frame.segmentSequence = chunk.sequence
  chunkIndex : frame.chunkIndex = chunk.chunkIndex
  sampleRateHz : frame.sampleRateHz = chunk.sampleRateHz
  mediaType : frame.mediaType = chunk.mediaType
  durationMs : frame.durationMs = chunk.durationMs
  isFinal : frame.flags &&& AudioFrameFlags.finalChunk ≠ 0 ↔ chunk.isFinal = true
  sessionId : some frame.sessionId = event.sessionId
  eventId : frame.eventId = event.eventId
  correlationId : frame.correlationId = event.body.correlationId
  turnId : frame.turnId = turnId
  eventSequence : some frame.eventSequence = event.sequence.map Int.ofNat
  generation : frame.generation = generation

theorem land_finalChunk : ∀ isFinal : Bool,
    (if isFinal then AudioFrameFlags.finalChunk else 0) &&& AudioFrameFlags.finalChunk ≠ 0 ↔
      isFinal = true := by
  decide +kernel

theorem carries_speechAudioFields (hid : chunk.segmentId = segment.segmentId)
    (hframe : frame.toAudioFrameFields = speechAudioFields sessionId eventId correlationId sequence
      turnId generation segment chunk) :
    Carries frame (speechAudioEvent sessionId eventId correlationId sequence turnId generation
      segment chunk) turnId generation chunk := by
  constructor <;> rw [hframe]
  case segmentId => exact hid.symm
  case isFinal => exact land_finalChunk chunk.isFinal
  all_goals rfl

/-- **Which chunks survive.** Of every chunk that a run of the pipeline yields: it is sent, and
what the receiver decodes carries it, just if it is sendable. A chunk without audio is not, and
kills the sender. -/
theorem audio_survives {A : PipelineArguments} {s : PipelineRun}
    (h : (PipelineRun.machine A).Reachable s)
    (hyielded : .segmentAudioReady turnId generation segment chunk ∈ s.yielded)
    (sessionId eventId correlationId : UUID) (sequence : ℕ) (current : ℤ) :
    let event := speechAudioEvent sessionId eventId correlationId sequence turnId generation
      segment chunk
    (∃ packet frame, sendAudio event current = .ok packet ∧
        decodeAudioFrame packet = .ok frame ∧ Carries frame event turnId generation chunk) ↔
      Sendable chunk generation sequence := by
  have hid : chunk.segmentId = segment.segmentId := PipelineRun.segmentId_of_yielded h hyielded
  intro event
  constructor
  · rintro ⟨packet, -, hsent, -⟩
    obtain ⟨frame, ⟨haudio, -, hframe⟩, hencoded⟩ := sendAudio_speechAudioEvent.mp hsent
    exact sendable_of_encoded haudio hframe hencoded
  · intro hsend
    have hok : (speechAudioFields sessionId eventId correlationId sequence turnId generation
        segment chunk).Ok := speechAudioFields_ok hsend
    set frame : AudioFrame := ⟨_, AudioFrameFields.postInit_eq_ok.mpr hok⟩
    have hheader : (audioHeader.size : ℤ) + frame.mediaType.length ≤ maxU16 := hsend.header_le
    obtain ⟨packet, hencoded⟩ := encodeAudioFrame_isOk.mpr hheader
    refine ⟨packet, frame, sendAudio_speechAudioEvent.mpr
      ⟨frame, ⟨hsend.audio_ne_nil, hsend.mediaType.ne_nil, rfl⟩, hencoded⟩,
      decodeAudioFrame_eq_ok.mpr ⟨hsend.audio_le, hencoded⟩, carries_speechAudioFields hid rfl⟩

end Through

/-! ### Two runs -/

/-- The segment that the two runs speak. -/
def spokenSegment : UtteranceSegment :=
  ⟨0, "Hi.".toList, "Hi.".toList, 0, by decide, by decide⟩

theorem wavRate_pos : 0 < 24000 := by decide

/-- Audio in a container. -/
def wavChunk : AudioChunk :=
  ⟨0, 0, 0, [82, 73], "audio/wav".toList, 24000, true, some 80, wavRate_pos⟩

/-- The end of a stream, which has no more audio. -/
def emptyChunk : AudioChunk := { wavChunk with audio := [], durationMs := none }

/-- A run that yields one chunk. -/
def spokenRun (chunk : AudioChunk) : List PipelineRun.Label :=
  [.modelEvent (.textDelta "Hi. ".toList), .producerPut, .dispatch, .dispatch, .dispatch,
    .speechChunk 0 chunk, .audioPut 0, .take, .handle, .resume, .take, .handle]

theorem mediaTypeOk_wavChunk : MediaTypeOk wavChunk.mediaType := by
  have hchar : wavChunk.mediaType.all (fun c => decide (c.toNat < 128 ∧ isSpace c = false)) =
      true := by decide
  have hall : ∀ c ∈ wavChunk.mediaType, c.toNat < 128 ∧ isSpace c = false :=
    fun c hc => of_decide_eq_true (List.all_eq_true.mp hchar c hc)
  exact ⟨fun c hc => (hall c hc).1, by decide, by decide, fun c hc => (hall c hc).2⟩

theorem wavChunk_survives : ∃ s, (PipelineRun.machine PipelineRun.narrow).Reachable s ∧
    .segmentAudioReady 0 3 spokenSegment wavChunk ∈ s.yielded ∧
    ∃ packet frame,
      sendAudio (speechAudioEvent 1 2 3 7 0 3 spokenSegment wavChunk) 3 = .ok packet ∧
        decodeAudioFrame packet = .ok frame ∧
        Carries frame (speechAudioEvent 1 2 3 7 0 3 spokenSegment wavChunk) 0 3 wavChunk := by
  have h : ((PipelineRun.machine PipelineRun.narrow).run
      (PipelineRun.begin PipelineRun.narrow none true) (spokenRun wavChunk)).map
      (·.yielded) = some [.segmentReady 0 3 spokenSegment,
        .segmentAudioReady 0 3 spokenSegment wavChunk] := by decide +kernel
  obtain ⟨s, hs, hyielded⟩ := Option.map_eq_some_iff.mp h
  have hr : (PipelineRun.machine PipelineRun.narrow).Reachable s :=
    Machine.reachable_of_run ⟨none, true, rfl⟩ hs
  have hmem : .segmentAudioReady 0 3 spokenSegment wavChunk ∈ s.yielded := by
    rw [hyielded]
    exact List.mem_cons_of_mem _ List.mem_cons_self
  have hduration : ∀ d ∈ wavChunk.durationMs, 0 ≤ d ∧ d ≤ maxU32 - 1 := by
    intro d hd
    obtain rfl := Option.some.inj hd
    decide
  have hsend : Sendable wavChunk 3 7 :=
    ⟨by decide, by decide, mediaTypeOk_wavChunk, by decide,
      hduration, by decide, by decide, by decide, by decide, by decide⟩
  exact ⟨s, hr, hmem, (audio_survives hr hmem 1 2 3 7 3).mpr hsend⟩

/-- A final chunk without audio is yielded, and the sender raises. -/
theorem emptyChunk_kills_sender : ∃ s,
    (PipelineRun.machine PipelineRun.narrow).Reachable s ∧
    .segmentAudioReady 0 3 spokenSegment emptyChunk ∈ s.yielded ∧
    sendAudio (speechAudioEvent 1 2 3 7 0 3 spokenSegment emptyChunk) 3 =
      .error (.type "audio payload field 'audio_base64' must be non-blank text") := by
  have h : ((PipelineRun.machine PipelineRun.narrow).run
      (PipelineRun.begin PipelineRun.narrow none true) (spokenRun emptyChunk)).map
      (·.yielded) = some [.segmentReady 0 3 spokenSegment,
        .segmentAudioReady 0 3 spokenSegment emptyChunk] := by decide +kernel
  obtain ⟨s, hs, hyielded⟩ := Option.map_eq_some_iff.mp h
  refine ⟨s, Machine.reachable_of_run ⟨none, true, rfl⟩ hs, ?_, by decide +kernel⟩
  rw [hyielded]
  exact List.mem_cons_of_mem _ List.mem_cons_self

end Eeveetuber
