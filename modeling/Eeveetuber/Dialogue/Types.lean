import Eeveetuber.Domain.Events
import Eeveetuber.Foundation.Text
import Eeveetuber.Runtime.Cancellation

/-!
# The values of a dialogue

A model provider answers a `Eeveetuber.DialogueRequest` with a stream of
`Eeveetuber.ModelStreamEvent`s, a speech provider speaks an
`Eeveetuber.UtteranceSegment` in a stream of `Eeveetuber.AudioChunk`s, and the
pipeline between them yields `Eeveetuber.DialogueStreamEvent`s. The checks of the
constructors are fields here, so that no value exists that a constructor would
have refused.
-/

namespace Eeveetuber

open Foundation

/-- Why a model stopped. -/
inductive ModelStopReason where
  | complete
  | length
  | cancelled
  | error
deriving DecidableEq, Repr

/-- What the pipeline reads of a request. -/
structure DialogueRequest where
  turnId : UUID
  generation : CancellationGeneration
deriving DecidableEq, Repr

/-- Normalized model termination and provider-reported token usage. -/
structure ModelCompleted where
  stopReason : ModelStopReason
  inputTokens : Option ℕ
  outputTokens : Option ℕ
deriving DecidableEq, Repr

/-- The termination of a stream that ended without announcing one. -/
def ModelCompleted.silent : ModelCompleted := ⟨.complete, none, none⟩

/-- What a model stream may hand out. -/
inductive ModelStreamEvent where
  | textDelta (text : Text)
  | completed (completion : ModelCompleted)
  /-- A value of any other type, which the contract of the stream forbids. -/
  | unsupported (type : Text)
deriving DecidableEq, Repr

/-- A piece of an utterance that is spoken and shown as a whole. -/
structure UtteranceSegment where
  sequence : ℕ
  speakableText : Text
  displayText : Text
  segmentId : UUID
  speakable_not_blank : isBlank speakableText = false
  display_not_blank : isBlank displayText = false
deriving DecidableEq

/-- The whole of an utterance, as the model stage leaves it. -/
structure UtterancePlan where
  turnId : UUID
  generation : CancellationGeneration
  segments : List UtteranceSegment
  stopReason : ModelStopReason
  inputTokens : Option ℕ
  outputTokens : Option ℕ
deriving DecidableEq

/-- The text of a plan that is shown. -/
def UtterancePlan.displayText (p : UtterancePlan) : Text :=
  [' '].intercalate (p.segments.map (·.displayText))

/-- The text of a plan that is spoken. -/
def UtterancePlan.speakableText (p : UtterancePlan) : Text :=
  [' '].intercalate (p.segments.map (·.speakableText))

/-- A piece of the audio of a segment. -/
structure AudioChunk where
  segmentId : UUID
  sequence : ℕ
  chunkIndex : ℕ
  audio : List UInt8
  mediaType : Text
  sampleRateHz : ℕ
  isFinal : Bool
  durationMs : Option ℤ
  sampleRate_pos : 0 < sampleRateHz
deriving DecidableEq

/-- What the pipeline yields. -/
inductive DialogueStreamEvent where
  | segmentReady (turnId : UUID) (generation : CancellationGeneration)
      (segment : UtteranceSegment)
  | segmentAudioReady (turnId : UUID) (generation : CancellationGeneration)
      (segment : UtteranceSegment) (chunk : AudioChunk)
  | utteranceCompleted (turnId : UUID) (generation : CancellationGeneration)
      (plan : UtterancePlan)
deriving DecidableEq

/-- What a stage of a dialogue raises. -/
inductive DialogueError where
  /-- `asyncio.CancelledError`. -/
  | cancelledError (message : Text)
  /-- `DialogueCancelled`: the generation is no longer current. -/
  | dialogueCancelled (generation : CancellationGeneration)
  /-- `DialogueProtocolError`: a provider violated the normalized stream contract. -/
  | protocolError (message : String)
  /-- An exception of a provider's own. -/
  | provider (message : Text)
deriving DecidableEq, Repr

/-- Whether an error passes the `except Exception` clauses by. -/
def DialogueError.isCancelledError : DialogueError → Bool
  | .cancelledError _ => true
  | .dialogueCancelled _ | .protocolError _ | .provider _ => false

end Eeveetuber
