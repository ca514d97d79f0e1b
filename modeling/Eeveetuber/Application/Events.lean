import Mathlib.Data.Rat.Defs
import Eeveetuber.Dialogue.Types
import Eeveetuber.Domain.Interaction
import Eeveetuber.Runtime.Session

/-!
# The commands and outputs of a foreground session

A client talks to its session through the methods listed in
`Eeveetuber.ClientRequest`. Each makes at most one `Eeveetuber.SessionCommand` and
submits it by one of the four methods of the actor
(`Eeveetuber.ClientRequest.command`). The commands that replace the work in the
foreground – a turn, a cancel request, a barge-in – start a new generation when they
are submitted, and are handled when the actor comes to them.

What the session publishes is a `Eeveetuber.SessionOutput`. Every output names a
generation; for all but the acknowledgement of a playback it is the generation of
the command that led to it.
-/

namespace Eeveetuber

open Foundation

/-! ### Commands -/

/-- How the owner put a turn. -/
inductive InputModality where
  | text
  | voice
deriving DecidableEq, Repr

/-- The payload of `turn.requested`. -/
structure TurnRequest where
  text : Text
  turnId : UUID
  inputModality : InputModality
  utteranceId : Option UUID
  language : Option Text
  confidence : Option ℚ
deriving DecidableEq

/-- The payload of `playback.ack_received`. -/
structure PlaybackAck where
  audioEventId : UUID
  generation : ℕ
  eventSequence : ℕ
  segmentId : UUID
  chunkIndex : ℕ
  state : Text
  clientMonotonicMs : ℕ
  playedMs : Option ℕ
  detail : Option Text
deriving DecidableEq

/-- The payload of `voice.capture_started`. -/
structure CaptureStart where
  streamId : UUID
  sampleRateHz : ℕ
  channels : ℕ
  encoding : Text
deriving DecidableEq

/-- The payload of `voice.capture_stopped`. -/
structure CaptureStop where
  streamId : UUID
  reason : Text
deriving DecidableEq

/-- The payload of `voice.speech_started`. -/
structure SpeechStart where
  streamId : UUID
  utteranceId : UUID
  capturedAtMonotonicNs : ℕ
  triggerSequence : ℕ
  preRollFrameCount : ℕ
  bargeIn : Bool
deriving DecidableEq

/-- The payload of `voice.transcript_partial`. -/
structure PartialTranscript where
  utteranceId : UUID
  revision : ℕ
  text : Text
  language : Option Text
  confidence : Option ℚ
deriving DecidableEq

/-- The payload of `voice.recognition_failed`. -/
structure RecognitionFailure where
  utteranceId : UUID
  errorType : Text
deriving DecidableEq

/-- The commands a session accepts. -/
inductive SessionCommand where
  | turnRequested (turn : TurnRequest)
  | turnCancelRequested (reason : Text)
  | voiceCaptureStarted (capture : CaptureStart)
  | voiceCaptureStopped (capture : CaptureStop)
  | voiceSpeechStarted (speech : SpeechStart)
  | voiceTranscriptPartial (transcript : PartialTranscript)
  | voiceTranscriptEmpty (utteranceId : UUID)
  | voiceRecognitionFailed (failure : RecognitionFailure)
  | transportPing
  | neutralAvatarRequested
  | playbackAckReceived (ack : PlaybackAck)
deriving DecidableEq

/-- The type of the event a command is submitted as. -/
def SessionCommand.type : SessionCommand → String
  | .turnRequested _ => "turn.requested"
  | .turnCancelRequested _ => "turn.cancel_requested"
  | .voiceCaptureStarted _ => "voice.capture_started"
  | .voiceCaptureStopped _ => "voice.capture_stopped"
  | .voiceSpeechStarted _ => "voice.speech_started"
  | .voiceTranscriptPartial _ => "voice.transcript_partial"
  | .voiceTranscriptEmpty _ => "voice.transcript_empty"
  | .voiceRecognitionFailed _ => "voice.recognition_failed"
  | .transportPing => "transport.ping"
  | .neutralAvatarRequested => "operator.neutral_avatar_requested"
  | .playbackAckReceived _ => "playback.ack_received"

/-- The priority a command is made with. -/
def SessionCommand.priority : SessionCommand → EventPriority
  | .turnRequested _ => .high
  | .turnCancelRequested _ => .critical
  | .voiceCaptureStarted _ => .critical
  | .voiceCaptureStopped _ => .critical
  | .voiceSpeechStarted _ => .critical
  | .voiceTranscriptPartial _ => .low
  | .voiceTranscriptEmpty _ => .high
  | .voiceRecognitionFailed _ => .high
  | .transportPing => .low
  | .neutralAvatarRequested => .critical
  | .playbackAckReceived _ => .low

/-- Whether a command replaces the work in the foreground. -/
def SessionCommand.isForeground : SessionCommand → Bool
  | .turnRequested _ | .turnCancelRequested _ => true
  | .voiceSpeechStarted speech => speech.bargeIn
  | .voiceCaptureStarted _ | .voiceCaptureStopped _ | .voiceTranscriptPartial _
  | .voiceTranscriptEmpty _ | .voiceRecognitionFailed _ | .transportPing
  | .neutralAvatarRequested | .playbackAckReceived _ => false

/-- Whether a command is a turn. -/
def SessionCommand.isTurn : SessionCommand → Bool
  | .turnRequested _ => true
  | .turnCancelRequested _ | .voiceSpeechStarted _ | .voiceCaptureStarted _
  | .voiceCaptureStopped _ | .voiceTranscriptPartial _ | .voiceTranscriptEmpty _
  | .voiceRecognitionFailed _ | .transportPing | .neutralAvatarRequested
  | .playbackAckReceived _ => false

theorem SessionCommand.isForeground_of_isTurn {c : SessionCommand} (h : c.isTurn = true) :
    c.isForeground = true := by
  cases c <;> first | rfl | cases h

/-! ### The methods of a session -/

/-- How a command is submitted to the actor. -/
inductive SubmissionMethod where
  | submit
  | submitWait
  | submitForegroundTurn (reason : Text)
  | submitForegroundTurnWait (reason : Text)
deriving DecidableEq

/-- Whether a submission starts a generation. -/
def SubmissionMethod.advances : SubmissionMethod → Bool
  | .submitForegroundTurn _ | .submitForegroundTurnWait _ => true
  | .submit | .submitWait => false

/-- Whether a submission may displace a queued command. -/
def SubmissionMethod.displaces : SubmissionMethod → Bool
  | .submit | .submitForegroundTurn _ => true
  | .submitWait | .submitForegroundTurnWait _ => false

/-- The methods of a session that submit a command. The identifier of a turn is one
that `uuid4` gives. -/
inductive ClientRequest where
  | submitText (text : Text) (turnId : UUID)
  | cancel (reason : Text)
  | ping
  | requestNeutralAvatar
  | acknowledgePlayback (ack : PlaybackAck)
  | voiceCaptureStarted (capture : CaptureStart)
  | voiceCaptureStopped (capture : CaptureStop)
  | voiceSpeechStarted (speech : SpeechStart)
  | voiceTranscriptPartial (transcript : PartialTranscript)
  | voiceTranscriptFinal (text : Text) (turnId utteranceId : UUID) (language : Option Text)
      (confidence : Option ℚ)
  | voiceRecognitionFailed (failure : RecognitionFailure)
deriving DecidableEq

/-- What a method submits, and how; `none` where it raises `ValueError`. -/
def ClientRequest.command : ClientRequest → Option (SessionCommand × SubmissionMethod)
  | .submitText text turnId =>
    if isBlank text then none
    else some (.turnRequested ⟨strip text, turnId, .text, none, none, none⟩,
      .submitForegroundTurn "foreground turn replaced".toList)
  | .cancel reason => some (.turnCancelRequested reason, .submitForegroundTurn reason)
  | .ping => some (.transportPing, .submit)
  | .requestNeutralAvatar => some (.neutralAvatarRequested, .submit)
  | .acknowledgePlayback ack => some (.playbackAckReceived ack, .submit)
  -- these two are submitted anew when a generation replaces the one they wait under
  | .voiceCaptureStarted capture => some (.voiceCaptureStarted capture, .submitWait)
  | .voiceCaptureStopped capture => some (.voiceCaptureStopped capture, .submitWait)
  | .voiceSpeechStarted speech =>
    some (.voiceSpeechStarted speech,
      if speech.bargeIn then .submitForegroundTurnWait "voice_barge_in".toList else .submitWait)
  | .voiceTranscriptPartial transcript => some (.voiceTranscriptPartial transcript, .submit)
  | .voiceTranscriptFinal text turnId utteranceId language confidence =>
    if isBlank text then some (.voiceTranscriptEmpty utteranceId, .submitWait)
    else some (.turnRequested ⟨strip text, turnId, .voice, some utteranceId, language, confidence⟩,
      .submitForegroundTurnWait "voice_transcript_ready".toList)
  | .voiceRecognitionFailed failure => some (.voiceRecognitionFailed failure, .submitWait)

/-- **The foreground commands are the ones that start a generation.** -/
theorem ClientRequest.advances_of_command {r : ClientRequest} {c : SessionCommand}
    {m : SubmissionMethod} (h : r.command = some (c, m)) : m.advances = c.isForeground := by
  cases r with
  | submitText text =>
    simp only [command] at h
    split at h <;> cases h
    rfl
  | voiceTranscriptFinal text =>
    simp only [command] at h
    split at h <;> cases h <;> rfl
  | voiceSpeechStarted speech =>
    cases h
    simp only [SessionCommand.isForeground]
    split <;> simp_all [SubmissionMethod.advances]
  | cancel | ping | requestNeutralAvatar | acknowledgePlayback | voiceCaptureStarted
  | voiceCaptureStopped | voiceTranscriptPartial | voiceRecognitionFailed =>
    cases h
    rfl

/-! ### Outputs -/

/-- What a turn is told of the context it was given. -/
structure ContextSnapshot where
  snapshotId : Text
  memoryGeneration : ℕ
  estimatedTokens : ℕ
deriving DecidableEq

/-- Why a turn failed. -/
inductive TurnFailure where
  /-- The model completed without visible output. -/
  | emptyOutput (plan : UtterancePlan)
  /-- A stage of the turn raised. -/
  | dialogue (error : DialogueError)
  /-- The session refused the turn's work. -/
  | session (error : SessionError)
deriving DecidableEq

/-- `_empty_output_detail`. -/
def emptyOutputDetail : ModelStopReason → String
  | .length => "The model reached its output limit before producing visible text. " ++
    "For realtime chat, use reasoning_effort=none or increase the output limit."
  | .complete | .cancelled | .error =>
    "The model returned no visible text. Please try the turn again."

/-- What the owner is told of a failure. -/
def TurnFailure.detail : TurnFailure → String
  | .emptyOutput plan => emptyOutputDetail plan.stopReason
  | .dialogue _ | .session _ => "The turn failed before a reply could be produced."

/-- The outputs of a session. -/
inductive SessionOutput where
  | sessionReady (generation : ℕ) (state : InteractionState)
  | voiceTranscriptFinal (generation : ℕ) (turn : TurnRequest)
  | turnAccepted (generation : ℕ) (turnId : UUID) (state : InteractionState)
      (inputModality : InputModality)
  | contextSnapshotPublished (generation : ℕ) (turnId : UUID) (snapshot : ContextSnapshot)
  | utteranceSegmentReady (generation : ℕ) (turnId : UUID) (segment : UtteranceSegment)
  | speechAudioChunk (generation : ℕ) (turnId : UUID) (segment : UtteranceSegment)
      (chunk : AudioChunk)
  | utteranceCompleted (generation : ℕ) (turnId : UUID) (plan : UtterancePlan)
  | turnFailed (generation : ℕ) (turnId : UUID) (failure : TurnFailure)
  | speechCancelled (generation : ℕ) (state : InteractionState) (reason : Option Text)
  | voiceCaptureStarted (generation : ℕ) (state : InteractionState) (capture : CaptureStart)
  | voiceCaptureStopped (generation : ℕ) (state : InteractionState) (capture : CaptureStop)
  | voiceSpeechStarted (generation : ℕ) (state : InteractionState) (speech : SpeechStart)
  | voiceTranscriptPartial (generation : ℕ) (transcript : PartialTranscript)
  | voiceTranscriptEmpty (generation : ℕ) (utteranceId : UUID)
  | voiceRecognitionFailed (generation : ℕ) (failure : RecognitionFailure)
  | transportPong (generation : ℕ)
  | avatarNeutralRequested (generation : ℕ)
  | playbackAcknowledged (ack : PlaybackAck) (accepted : Bool) (currentGeneration : ℕ)
deriving DecidableEq

namespace SessionOutput

/-- The type of the event. -/
def type : SessionOutput → String
  | .sessionReady .. => "session.ready"
  | .voiceTranscriptFinal .. => "voice.transcript_final"
  | .turnAccepted .. => "turn.accepted"
  | .contextSnapshotPublished .. => "context.snapshot_published"
  | .utteranceSegmentReady .. => "utterance.segment_ready"
  | .speechAudioChunk .. => "speech.audio_chunk"
  | .utteranceCompleted .. => "utterance.completed"
  | .turnFailed .. => "turn.failed"
  | .speechCancelled .. => "speech.cancelled"
  | .voiceCaptureStarted .. => "voice.capture_started"
  | .voiceCaptureStopped .. => "voice.capture_stopped"
  | .voiceSpeechStarted .. => "voice.speech_started"
  | .voiceTranscriptPartial .. => "voice.transcript_partial"
  | .voiceTranscriptEmpty .. => "voice.transcript_empty"
  | .voiceRecognitionFailed .. => "voice.recognition_failed"
  | .transportPong .. => "transport.pong"
  | .avatarNeutralRequested .. => "avatar.neutral_requested"
  | .playbackAcknowledged .. => "playback.acknowledged"

/-- The priority of the event. -/
def priority : SessionOutput → EventPriority
  | .voiceTranscriptFinal .. | .turnFailed .. | .voiceCaptureStarted .. | .voiceCaptureStopped ..
  | .voiceRecognitionFailed .. => .high
  | .speechCancelled .. | .voiceSpeechStarted .. | .avatarNeutralRequested .. => .critical
  | .voiceTranscriptPartial .. | .voiceTranscriptEmpty .. | .playbackAcknowledged .. => .low
  | .sessionReady .. | .turnAccepted .. | .contextSnapshotPublished .. | .utteranceSegmentReady ..
  | .speechAudioChunk .. | .utteranceCompleted .. | .transportPong .. => .normal

/-- What the payload holds under `generation`; of an acknowledgement it is what the client sent. -/
def generation : SessionOutput → ℕ
  | .sessionReady g _ | .voiceTranscriptFinal g _ | .turnAccepted g _ _ _
  | .contextSnapshotPublished g _ _ | .utteranceSegmentReady g _ _ | .speechAudioChunk g _ _ _
  | .utteranceCompleted g _ _ | .turnFailed g _ _ | .speechCancelled g _ _
  | .voiceCaptureStarted g _ _ | .voiceCaptureStopped g _ _ | .voiceSpeechStarted g _ _
  | .voiceTranscriptPartial g _ | .voiceTranscriptEmpty g _ | .voiceRecognitionFailed g _
  | .transportPong g | .avatarNeutralRequested g => g
  | .playbackAcknowledged ack _ _ => ack.generation

end SessionOutput

/-- The body of an event: a command in the inbox, or an output. -/
inductive SessionEvent where
  | command (command : SessionCommand)
  | output (output : SessionOutput)
deriving DecidableEq

/-- The command in a message. -/
def SessionEvent.command? : SessionEvent → Option SessionCommand
  | .command c => some c
  | .output _ => none

end Eeveetuber
