import Eeveetuber.Foundation.Agrees
import Eeveetuber.Foundation.Backlog
import Eeveetuber.Foundation.Base64
import Eeveetuber.Foundation.Bisection
import Eeveetuber.Foundation.Blocks
import Eeveetuber.Foundation.Buffer
import Eeveetuber.Foundation.Chain
import Eeveetuber.Foundation.Checks
import Eeveetuber.Foundation.Datetime
import Eeveetuber.Foundation.DatetimeParts
import Eeveetuber.Foundation.DictLoops
import Eeveetuber.Foundation.Interpolation
import Eeveetuber.Foundation.JsonText
import Eeveetuber.Foundation.Keyed
import Eeveetuber.Foundation.Layout
import Eeveetuber.Foundation.Ledger
import Eeveetuber.Foundation.Lines
import Eeveetuber.Foundation.Machine
import Eeveetuber.Foundation.Neighbours
import Eeveetuber.Foundation.Riff
import Eeveetuber.Foundation.Runs
import Eeveetuber.Foundation.Select
import Eeveetuber.Foundation.SlidingWindow
import Eeveetuber.Foundation.SortByKey
import Eeveetuber.Foundation.StableQueue
import Eeveetuber.Foundation.Stateful
import Eeveetuber.Foundation.StrEnum
import Eeveetuber.Foundation.Strip
import Eeveetuber.Foundation.Tags
import Eeveetuber.Foundation.Text
import Eeveetuber.Foundation.Timestamps
import Eeveetuber.Foundation.Triple
import Eeveetuber.Foundation.Utf8
import Eeveetuber.Config.Voice
import Eeveetuber.Domain.Envelope
import Eeveetuber.Domain.Events
import Eeveetuber.Domain.Identifiers
import Eeveetuber.Domain.Interaction
import Eeveetuber.Domain.Payload
import Eeveetuber.Runtime.Answers
import Eeveetuber.Runtime.Attempts
import Eeveetuber.Runtime.Cancellation
import Eeveetuber.Runtime.CancellationCoherence
import Eeveetuber.Runtime.CancellationObjects
import Eeveetuber.Runtime.Endings
import Eeveetuber.Runtime.LateResults
import Eeveetuber.Runtime.Lifecycle
import Eeveetuber.Runtime.Mailbox
import Eeveetuber.Runtime.MailboxAccounting
import Eeveetuber.Runtime.MailboxQueue
import Eeveetuber.Runtime.PutWait
import Eeveetuber.Runtime.Reports
import Eeveetuber.Runtime.Sequence
import Eeveetuber.Runtime.Session
import Eeveetuber.Runtime.Supervisor
import Eeveetuber.Runtime.SupervisorAccounts
import Eeveetuber.Runtime.SupervisorShutdown
import Eeveetuber.Runtime.Termination
import Eeveetuber.Runtime.Traffic
import Eeveetuber.Dialogue.Assembler
import Eeveetuber.Dialogue.AssemblerRuns
import Eeveetuber.Dialogue.Framing
import Eeveetuber.Dialogue.Pipeline
import Eeveetuber.Dialogue.PipelineFlow
import Eeveetuber.Dialogue.PipelineProgress
import Eeveetuber.Dialogue.PipelineRoom
import Eeveetuber.Dialogue.PipelineTrace
import Eeveetuber.Dialogue.Sentences
import Eeveetuber.Dialogue.Types
import Eeveetuber.Dialogue.Utterance
import Eeveetuber.Adapters.DataEvents
import Eeveetuber.Adapters.ModelEvents
import Eeveetuber.Adapters.ModelStream
import Eeveetuber.Adapters.Recognizer
import Eeveetuber.Adapters.RecognizerContract
import Eeveetuber.Adapters.RecognizerResources
import Eeveetuber.Adapters.RecognizerRuns
import Eeveetuber.Adapters.Speech
import Eeveetuber.Adapters.SpeechContract
import Eeveetuber.Adapters.SseDecoder
import Eeveetuber.Adapters.SseReference
import Eeveetuber.Adapters.Transcription
import Eeveetuber.Media.Pcm
import Eeveetuber.Media.Vad
import Eeveetuber.Media.VadBounds
import Eeveetuber.Media.VadHysteresis
import Eeveetuber.Media.VadOnset
import Eeveetuber.Media.VadSegments
import Eeveetuber.Media.VadSteps
import Eeveetuber.Media.Wav
import Eeveetuber.Memory.Context
import Eeveetuber.Memory.ContextBudget
import Eeveetuber.Memory.ContextCanon
import Eeveetuber.Memory.ContextEntries
import Eeveetuber.Memory.ContextOrder
import Eeveetuber.Memory.Estimator
import Eeveetuber.Memory.Models
import Eeveetuber.Memory.Promotion
import Eeveetuber.Memory.Submissions
import Eeveetuber.Storage.ConversationRepository
import Eeveetuber.Storage.MemoryAdmission
import Eeveetuber.Storage.MemoryCodecs
import Eeveetuber.Storage.MemoryHistory
import Eeveetuber.Storage.MemoryLifecycle
import Eeveetuber.Storage.MemoryReplay
import Eeveetuber.Storage.MemoryRepository
import Eeveetuber.Storage.MemoryRows
import Eeveetuber.Storage.MemorySearch
import Eeveetuber.Storage.MemorySteps
import Eeveetuber.Storage.RecallWindow
import Eeveetuber.Application.ConversationHistory
import Eeveetuber.Application.ConversationReads
import Eeveetuber.Application.ConversationRecall
import Eeveetuber.Application.ConversationStorage
import Eeveetuber.Application.EventJournal
import Eeveetuber.Application.EventRecorder
import Eeveetuber.Application.Events
import Eeveetuber.Application.Foreground
import Eeveetuber.Application.ForegroundAnswers
import Eeveetuber.Application.ForegroundDrain
import Eeveetuber.Application.ForegroundFloor
import Eeveetuber.Application.ForegroundLegality
import Eeveetuber.Application.ForegroundMoves
import Eeveetuber.Application.ForegroundQuiescence
import Eeveetuber.Application.ForegroundSteps
import Eeveetuber.Application.ForegroundTurns
import Eeveetuber.Application.HistoryFitting
import Eeveetuber.Application.SystemContext
import Eeveetuber.Application.VoiceInput
import Eeveetuber.Application.VoiceInputBacklog
import Eeveetuber.Application.VoiceInputFreshness
import Eeveetuber.Application.VoiceInputLane
import Eeveetuber.Application.VoicePolicy
import Eeveetuber.Api.AudioFrames
import Eeveetuber.Api.InputAudioFrames
import Eeveetuber.Api.Sender
import Eeveetuber.Api.Translation
import Eeveetuber.Api.VoiceIngress
import Eeveetuber.Web.AudioCodecs
import Eeveetuber.Web.Capture
import Eeveetuber.Web.Playback
import Eeveetuber.Web.PlaybackAcks
import Eeveetuber.Web.PlaybackRuns
import Eeveetuber.Web.Resampler
import Eeveetuber.Avatar.Capabilities
import Eeveetuber.Avatar.CapabilityResolution
import Eeveetuber.Avatar.CueIntents
import Eeveetuber.Avatar.Director
import Eeveetuber.Avatar.DirectorLeases
import Eeveetuber.Avatar.Intents
import Eeveetuber.Avatar.Presentation
import Eeveetuber.Avatar.Scheduler
import Eeveetuber.Avatar.SchedulerAlike
import Eeveetuber.Avatar.SchedulerDecisions
import Eeveetuber.Avatar.SchedulerLeases
import Eeveetuber.Avatar.SchedulerLimits
import Eeveetuber.Avatar.SchedulerNeutral
import Eeveetuber.Avatar.SchedulerOperations
import Eeveetuber.Avatar.SchedulerPreemption
import Eeveetuber.Avatar.SchedulerRejection
import Eeveetuber.Avatar.SchedulerReplay
import Eeveetuber.Avatar.SchedulerRuns
import Eeveetuber.Avatar.SchedulerSteps
import Eeveetuber.Avatar.SchedulerTimeliness
import Eeveetuber.Observability.Redaction
