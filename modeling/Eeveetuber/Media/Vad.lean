import Mathlib.Algebra.Ring.Int.Defs
import Eeveetuber.Foundation.Stateful
import Eeveetuber.Media.Pcm

/-!
# The energy voice activity detector

`Eeveetuber.EnergyVoiceActivityDetector` cuts utterances out of a stream of PCM
frames. While nobody speaks it keeps the latest frames as *history*, for the
pre-roll, and counts the *candidate* run of loud frames at its end; a run of
`speech_start_frames` turns the history into an active utterance, which grows
until it is silent for `speech_end_frames` frames, reaches a size limit, or the
stream ends.

The methods are written in `Foundation.Stateful`, in the order of their
statements. Bytes and durations are counted in `ℤ`, as the running counters are
subtracted from. `uuid5` is a parameter, the standard library's function.
-/

namespace Eeveetuber

open Foundation Stateful

/-! ### Configuration -/

/-- All memory and utterance bounds of a detector. -/
structure EnergyVadConfig where
  speechStartThreshold : ℕ
  speechEndThreshold : ℕ
  speechStartFrames : ℕ
  speechEndFrames : ℕ
  preRollFrames : ℕ
  maxUtteranceDurationMs : ℕ
  maxUtteranceBytes : ℕ
  startThreshold_mem : 1 ≤ speechStartThreshold ∧ speechStartThreshold ≤ 32767
  endThreshold_mem : 1 ≤ speechEndThreshold ∧ speechEndThreshold ≤ 32767
  one_le_startFrames : 1 ≤ speechStartFrames
  one_le_endFrames : 1 ≤ speechEndFrames
  one_le_duration : 1 ≤ maxUtteranceDurationMs
  two_le_bytes : 2 ≤ maxUtteranceBytes
  end_le_start : speechEndThreshold ≤ speechStartThreshold

namespace EnergyVadConfig

/-- The text of a range error. -/
def rangeError (name : String) (minimum : ℕ) (maximum : Option ℕ) : String :=
  let suffix := match maximum with
    | none => ""
    | some m => " and " ++ toString m
  name ++ " must be an integer between " ++ toString minimum ++ suffix

/-- The constructor. -/
def create (speechStartThreshold speechEndThreshold speechStartFrames speechEndFrames
    preRollFrames maxUtteranceDurationMs maxUtteranceBytes : ℤ) :
    Except String EnergyVadConfig :=
  if h₁ : 1 ≤ speechStartThreshold ∧ speechStartThreshold ≤ 32767 then
    if h₂ : 1 ≤ speechEndThreshold ∧ speechEndThreshold ≤ 32767 then
      if h₃ : 1 ≤ speechStartFrames then
        if h₄ : 1 ≤ speechEndFrames then
          if 0 ≤ preRollFrames then
            if h₅ : 1 ≤ maxUtteranceDurationMs then
              if h₆ : 2 ≤ maxUtteranceBytes then
                if h₇ : speechEndThreshold ≤ speechStartThreshold then
                  .ok ⟨speechStartThreshold.toNat, speechEndThreshold.toNat,
                    speechStartFrames.toNat, speechEndFrames.toNat, preRollFrames.toNat,
                    maxUtteranceDurationMs.toNat, maxUtteranceBytes.toNat, by omega, by omega,
                    by omega, by omega, by omega, by omega, by omega⟩
                else .error "speech_end_threshold cannot exceed speech_start_threshold"
              else .error (rangeError "max_utterance_bytes" 2 none)
            else .error (rangeError "max_utterance_duration_ms" 1 none)
          else .error (rangeError "pre_roll_frames" 0 none)
        else .error (rangeError "speech_end_frames" 1 none)
      else .error (rangeError "speech_start_frames" 1 none)
    else .error (rangeError "speech_end_threshold" 1 (some 32767))
  else .error (rangeError "speech_start_threshold" 1 (some 32767))

def maxUtteranceDurationNs (c : EnergyVadConfig) : ℕ := c.maxUtteranceDurationMs * 1000000

end EnergyVadConfig

/-! ### Energy -/

/-- A signed 16-bit sample, from its low and its high byte. -/
def sampleOf (lo hi : UInt8) : ℤ :=
  let u : ℤ := lo.toNat + 256 * hi.toNat
  if u < 32768 then u else u - 65536

/-- The samples of little-endian bytes. -/
def samples : List UInt8 → List ℤ
  | lo :: hi :: rest => sampleOf lo hi :: samples rest
  | _ => []

/-- Whether the mean square of a frame's samples reaches that of a threshold. -/
def isAbove (frame : PcmFrame) (threshold : ℕ) : Bool :=
  let sampleCount := frame.pcm.length / 2
  let squareSum := ((samples frame.pcm).map fun sample => sample * sample).sum
  decide (((threshold * threshold * sampleCount : ℕ) : ℤ) ≤ squareSum)

/-! ### Events -/

/-- Normalized transition from idle audio to a confirmed speech utterance. -/
structure VadSpeechStarted where
  streamId : UUID
  utteranceId : UUID
  atMonotonicNs : ℕ
  triggerSequence : ℕ
  preRollFrameCount : ℕ

/-- Normalized terminal VAD event carrying its bounded in-memory utterance. -/
structure VadSpeechEnded where
  streamId : UUID
  utteranceId : UUID
  atMonotonicNs : ℕ
  reason : UtteranceEndReason
  utterance : PcmUtterance

inductive VadEvent where
  | started (event : VadSpeechStarted)
  | ended (event : VadSpeechEnded)

/-! ### The detector -/

/-- Per-session bounded VAD with pre-roll and threshold hysteresis. -/
structure EnergyVoiceActivityDetector where
  config : EnergyVadConfig
  streamId : Option UUID
  format : Option PcmFormat
  lastSequence : Option ℕ
  lastEndNs : Option ℕ
  history : List PcmFrame
  historyBytes : ℤ
  historyDurationNs : ℤ
  candidateCount : ℕ
  candidateBytes : ℤ
  candidateDurationNs : ℤ
  candidateStartNs : Option ℕ
  candidateStartSequence : Option ℕ
  activeFrames : Option (List PcmFrame)
  activeBytes : ℤ
  activeDurationNs : ℤ
  utteranceId : Option UUID
  speechStartedAtNs : Option ℕ
  silenceCount : ℕ
  silenceStartedAtNs : Option ℕ

/-- What the methods of a detector raise. -/
inductive VadError where
  /-- `ValueError`. -/
  | value (message : String)
  /-- `RuntimeError`. -/
  | runtime (message : String)
  /-- `IndexError`: an empty collection has no first or last element. -/
  | index
deriving DecidableEq, Repr

/-- The methods of a detector. -/
abbrev VadM := Stateful EnergyVoiceActivityDetector VadError

namespace EnergyVoiceActivityDetector

/-- The constructor. -/
def make (config : EnergyVadConfig) : EnergyVoiceActivityDetector where
  config := config
  streamId := none
  format := none
  lastSequence := none
  lastEndNs := none
  history := []
  historyBytes := 0
  historyDurationNs := 0
  candidateCount := 0
  candidateBytes := 0
  candidateDurationNs := 0
  candidateStartNs := none
  candidateStartSequence := none
  activeFrames := none
  activeBytes := 0
  activeDurationNs := 0
  utteranceId := none
  speechStartedAtNs := none
  silenceCount := 0
  silenceStartedAtNs := none

def speechActive (d : EnergyVoiceActivityDetector) : Bool := d.activeFrames.isSome

/-- Bytes currently retained. -/
def bufferedBytes (d : EnergyVoiceActivityDetector) : ℤ :=
  if d.speechActive then d.activeBytes else d.historyBytes

/-- A field that must have been set. -/
def require {α : Type} (field : EnergyVoiceActivityDetector → Option α) (message : String) :
    VadM α := do
  match field (← getThe EnergyVoiceActivityDetector) with
  | some a => return a
  | none => throw (.runtime message)

def requireStreamId : VadM UUID := require streamId "VAD has no active stream"

def requireFormat : VadM PcmFormat := require format "VAD has no active PCM format"

def requireActiveFrames : VadM (List PcmFrame) :=
  require activeFrames "VAD has no active utterance"

def requireUtteranceId : VadM UUID :=
  require utteranceId "VAD has no active utterance identity"

def requireSpeechStartedAtNs : VadM ℕ :=
  require speechStartedAtNs "VAD has no speech start timestamp"

def requireCandidateStartNs : VadM ℕ :=
  require candidateStartNs "VAD has no speech candidate timestamp"

def requireCandidateStartSequence : VadM ℕ :=
  require candidateStartSequence "VAD has no speech candidate sequence"

def resetCandidate : VadM Unit :=
  modify fun d => { d with
    candidateCount := 0
    candidateBytes := 0
    candidateDurationNs := 0
    candidateStartNs := none
    candidateStartSequence := none }

def clearUtterance : VadM Unit := do
  modify fun d => { d with
    activeFrames := none
    activeBytes := 0
    activeDurationNs := 0
    utteranceId := none
    speechStartedAtNs := none
    silenceCount := 0
    silenceStartedAtNs := none }
  resetCandidate

def clearStream : VadM Unit := do
  clearUtterance
  modify fun d => { d with
    history := []
    historyBytes := 0
    historyDurationNs := 0
    streamId := none
    format := none
    lastSequence := none
    lastEndNs := none }

def validateStreamFrame (frame : PcmFrame) : VadM Unit := do
  let d ← getThe EnergyVoiceActivityDetector
  if d.config.maxUtteranceBytes < frame.pcm.length then
    throw (.value "one PCM frame exceeds max_utterance_bytes")
  if d.config.maxUtteranceDurationNs < frame.durationNs then
    throw (.value "one PCM frame exceeds max_utterance_duration_ms")
  match d.streamId with
  | none =>
    modify fun d => { d with streamId := some frame.streamId }
    modify fun d => { d with format := some frame.format }
  | some streamId =>
    if frame.streamId ≠ streamId then
      throw (.value "VAD instance cannot mix capture stream identities")
    if some frame.format ≠ d.format then
      throw (.value "PCM format cannot change within a capture stream")
  if let some last := d.lastSequence then
    if frame.sequence ≤ last then
      throw (.value "PCM frame sequence must be strictly increasing")
  if let some last := d.lastEndNs then
    if frame.capturedAtMonotonicNs < last then
      throw (.value "PCM frame timestamps cannot overlap")

/-- Whether the history is over one of its bounds. -/
def historyOver (d : EnergyVoiceActivityDetector) : Prop :=
  d.config.preRollFrames + d.config.speechStartFrames < d.history.length ∨
    (d.config.maxUtteranceBytes : ℤ) < d.historyBytes ∨
    (d.config.maxUtteranceDurationNs : ℤ) < d.historyDurationNs

instance (d : EnergyVoiceActivityDetector) : Decidable d.historyOver := by
  unfold historyOver
  infer_instance

/-- The loop that drops the oldest frames; the list is the history it starts with. -/
def dropOldest : List PcmFrame → VadM Unit
  | [] => do
    if (← getThe EnergyVoiceActivityDetector).historyOver then throw .index
  | removed :: rest => do
    if (← getThe EnergyVoiceActivityDetector).historyOver then
      modify fun d => { d with history := rest }
      modify fun d => { d with historyBytes := d.historyBytes - removed.pcm.length }
      modify fun d => { d with historyDurationNs := d.historyDurationNs - removed.durationNs }
      dropOldest rest

def rememberIdleFrame (frame : PcmFrame) : VadM Unit := do
  modify fun d => { d with history := d.history ++ [frame] }
  modify fun d => { d with historyBytes := d.historyBytes + frame.pcm.length }
  modify fun d => { d with historyDurationNs := d.historyDurationNs + frame.durationNs }
  dropOldest (← getThe EnergyVoiceActivityDetector).history

def reachedLimitReason (d : EnergyVoiceActivityDetector) : Option UtteranceEndReason :=
  if (d.config.maxUtteranceDurationNs : ℤ) ≤ d.activeDurationNs then some .maxDuration
  else if (d.config.maxUtteranceBytes : ℤ) ≤ d.activeBytes then some .maxBytes
  else none

/-- The name an utterance's identifier is derived from. -/
def speechName (candidateStartSequence : ℕ) : String :=
  "speech:" ++ toString candidateStartSequence

section Identified

variable (uuid5 : UUID → String → UUID)

def startUtterance (trigger : PcmFrame) : VadM VadSpeechStarted := do
  let streamId ← requireStreamId
  let candidateStartNs ← requireCandidateStartNs
  let candidateStartSequence ← requireCandidateStartSequence
  let utteranceId := uuid5 streamId (speechName candidateStartSequence)
  let d ← getThe EnergyVoiceActivityDetector
  let preRollCount := d.history.countP fun frame => frame.sequence < candidateStartSequence
  modify fun d => { d with
    activeFrames := some d.history
    activeBytes := d.historyBytes
    activeDurationNs := d.historyDurationNs
    utteranceId := some utteranceId
    speechStartedAtNs := some candidateStartNs }
  modify fun d => { d with history := [], historyBytes := 0, historyDurationNs := 0 }
  resetCandidate
  modify fun d => { d with silenceCount := 0, silenceStartedAtNs := none }
  return ⟨streamId, utteranceId, candidateStartNs, trigger.sequence, preRollCount⟩

/-- `PcmUtterance(…)`, whose `ValueError` is the method's. -/
def createUtterance (u : PcmUtteranceFields) : VadM PcmUtterance :=
  match PcmUtterance.create u with
  | .ok utterance => return utterance
  | .error message => throw (.value message)

/-- Where the speech of an utterance ends: where its silence began, if that ended it. -/
def speechEndNs (reason : UtteranceEndReason) (frames : List PcmFrame) : VadM ℕ := do
  let d ← getThe EnergyVoiceActivityDetector
  match (if reason = .silence then d.silenceStartedAtNs else none) with
  | some since => return since
  | none => match frames.getLast? with
    | some last => return last.endMonotonicNs
    | none => throw .index

def finishUtterance (reason : UtteranceEndReason) : VadM VadSpeechEnded := do
  let frames ← requireActiveFrames
  let streamId ← requireStreamId
  let pcmFormat ← requireFormat
  let utteranceId ← requireUtteranceId
  let speechStart ← requireSpeechStartedAtNs
  let speechEnd ← speechEndNs reason frames
  let utterance ← createUtterance
    { utteranceId := utteranceId
      streamId := streamId
      format := pcmFormat
      frames := frames
      speechStartedAtMonotonicNs := speechStart
      speechEndedAtMonotonicNs := speechEnd
      endReason := reason }
  clearUtterance
  return ⟨streamId, utteranceId, speechEnd, reason, utterance⟩

/-- The update of the candidate run by an idle frame. -/
def countCandidate (frame : PcmFrame) : VadM Unit := do
  let d ← getThe EnergyVoiceActivityDetector
  if isAbove frame d.config.speechStartThreshold then
    let projectedBytes := d.candidateBytes + frame.pcm.length
    let projectedDuration := d.candidateDurationNs + frame.durationNs
    if (d.config.maxUtteranceBytes : ℤ) < projectedBytes ∨
        (d.config.maxUtteranceDurationNs : ℤ) < projectedDuration then
      resetCandidate
    if (← getThe EnergyVoiceActivityDetector).candidateCount = 0 then
      modify fun d => { d with candidateStartNs := some frame.capturedAtMonotonicNs }
      modify fun d => { d with candidateStartSequence := some frame.sequence }
    modify fun d => { d with candidateCount := d.candidateCount + 1 }
    modify fun d => { d with candidateBytes := d.candidateBytes + frame.pcm.length }
    modify fun d => { d with candidateDurationNs := d.candidateDurationNs + frame.durationNs }
  else resetCandidate

def processIdle (frame : PcmFrame) : VadM (List VadEvent) := do
  rememberIdleFrame frame
  countCandidate frame
  let d ← getThe EnergyVoiceActivityDetector
  if d.candidateCount < d.config.speechStartFrames then return []
  let started ← startUtterance uuid5 frame
  match reachedLimitReason (← getThe EnergyVoiceActivityDetector) with
  | none => return [.started started]
  | some reason => return [.started started, .ended (← finishUtterance reason)]

/-- The update of the silence count by a frame of an active utterance. -/
def countSilence (frame : PcmFrame) : VadM Unit := do
  let d ← getThe EnergyVoiceActivityDetector
  if isAbove frame d.config.speechEndThreshold then
    modify fun d => { d with silenceCount := 0, silenceStartedAtNs := none }
  else
    if d.silenceCount = 0 then
      modify fun d => { d with silenceStartedAtNs := some frame.capturedAtMonotonicNs }
    modify fun d => { d with silenceCount := d.silenceCount + 1 }

def processActive (frame : PcmFrame) : VadM (List VadEvent) := do
  let d ← getThe EnergyVoiceActivityDetector
  let projectedBytes := d.activeBytes + frame.pcm.length
  let projectedDuration := d.activeDurationNs + frame.durationNs
  if (d.config.maxUtteranceBytes : ℤ) < projectedBytes then
    let ended ← finishUtterance .maxBytes
    return .ended ended :: (← processIdle uuid5 frame)
  if (d.config.maxUtteranceDurationNs : ℤ) < projectedDuration then
    let ended ← finishUtterance .maxDuration
    return .ended ended :: (← processIdle uuid5 frame)
  let activeFrames ← requireActiveFrames
  modify fun d => { d with activeFrames := some (activeFrames ++ [frame]) }
  modify fun d => { d with activeBytes := projectedBytes }
  modify fun d => { d with activeDurationNs := projectedDuration }
  countSilence frame
  let d ← getThe EnergyVoiceActivityDetector
  if let some reason := reachedLimitReason d then
    return [.ended (← finishUtterance reason)]
  if d.config.speechEndFrames ≤ d.silenceCount then
    return [.ended (← finishUtterance .silence)]
  return []

/-- Consume one ordered frame and return zero or more state transitions. -/
def process (frame : PcmFrame) : VadM (List VadEvent) := do
  validateStreamFrame frame
  modify fun d => { d with lastSequence := some frame.sequence }
  modify fun d => { d with lastEndNs := some frame.endMonotonicNs }
  if (← getThe EnergyVoiceActivityDetector).speechActive then processActive uuid5 frame
  else processIdle uuid5 frame

end Identified

/-- Flush an active utterance, discard idle pre-roll, and release stream state. -/
def finishStream : VadM (Option VadSpeechEnded) := do
  let event ← if (← getThe EnergyVoiceActivityDetector).speechActive then
      some <$> finishUtterance .streamEnded
    else pure none
  clearStream
  return event

end EnergyVoiceActivityDetector

end Eeveetuber
