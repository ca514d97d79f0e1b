import Mathlib.Data.Int.Order.Basic
import Mathlib.Data.List.Basic
import Eeveetuber.Foundation.Checks

/-!
# Settings of the voice input

The bounds of voice capture, of the voice activity detector and of the recognition
of what it cuts out. Every field has a range of its own; what the fields ask of each
other is checked by `Eeveetuber.VoiceInputSettingsFields.validateCrossFieldBounds`.
-/

namespace Eeveetuber

open Foundation

/-- Why settings are refused. -/
inductive SettingsError where
  /-- A field is out of its own range. -/
  | range (field : String)
  /-- The `ValueError` of a validator. -/
  | value (message : String)
deriving DecidableEq, Repr

/-- `Field(ge=…, le=…)`. -/
def requireRange (field : String) (least greatest value : ℤ) : Except SettingsError Unit :=
  raiseIf (¬(least ≤ value ∧ value ≤ greatest)) (.range field)

theorem requireRange_eq_ok {field : String} {least greatest value : ℤ} :
    requireRange field least greatest value = .ok () ↔ least ≤ value ∧ value ≤ greatest :=
  raiseIf_eq_ok.trans not_not

/-- The fields of the settings, with their defaults. -/
structure VoiceInputSettingsFields where
  enabled : Bool := true
  sampleRateHz : ℤ := 16000
  channels : ℤ := 1
  frameDurationMs : ℤ := 20
  maxFrameBytes : ℤ := 8192
  speechStartThreshold : ℤ := 1200
  speechEndThreshold : ℤ := 700
  speechStartFrames : ℤ := 2
  speechEndFrames : ℤ := 5
  preRollFrames : ℤ := 5
  maxUtteranceDurationMs : ℤ := 30000
  maxUtteranceBytes : ℤ := 1024 * 1024
  asrTimeoutMs : ℤ := 30000
  maxPendingUtterances : ℤ := 2
  maxTranscriptChars : ℤ := 32000
  bargeInEnabled : Bool := true
deriving DecidableEq

namespace VoiceInputSettingsFields

/-- The ranges of the fields. -/
def validateFields (s : VoiceInputSettingsFields) : Except SettingsError Unit := do
  requireRange "sample_rate_hz" 8000 48000 s.sampleRateHz
  requireRange "channels" 1 1 s.channels
  requireRange "frame_duration_ms" 10 100 s.frameDurationMs
  requireRange "max_frame_bytes" 2 (1024 * 1024) s.maxFrameBytes
  requireRange "speech_start_threshold" 1 32767 s.speechStartThreshold
  requireRange "speech_end_threshold" 1 32767 s.speechEndThreshold
  requireRange "speech_start_frames" 1 100 s.speechStartFrames
  requireRange "speech_end_frames" 1 500 s.speechEndFrames
  requireRange "pre_roll_frames" 0 500 s.preRollFrames
  requireRange "max_utterance_duration_ms" 100 120000 s.maxUtteranceDurationMs
  requireRange "max_utterance_bytes" 2 (512 * 1024 * 1024) s.maxUtteranceBytes
  requireRange "asr_timeout_ms" 100 600000 s.asrTimeoutMs
  requireRange "max_pending_utterances" 1 8 s.maxPendingUtterances
  requireRange "max_transcript_chars" 1 32000 s.maxTranscriptChars

def validateCrossFieldBounds (s : VoiceInputSettingsFields) : Except SettingsError Unit := do
  let sampleNumerator := s.sampleRateHz * s.frameDurationMs
  raiseIf (sampleNumerator % 1000 ≠ 0)
    (.value "one complete 16-bit PCM frame requires an integral sample count")
  let minimumFrameBytes := sampleNumerator / 1000 * s.channels * 2
  raiseIf (s.maxFrameBytes < minimumFrameBytes)
    (.value ("max_frame_bytes must hold one complete 16-bit PCM frame (" ++
      toString minimumFrameBytes ++ " bytes for the configured format)"))
  raiseIf (s.maxUtteranceBytes < s.maxFrameBytes)
    (.value "max_utterance_bytes must be at least max_frame_bytes")
  let requiredStartBytes := minimumFrameBytes * s.speechStartFrames
  raiseIf (s.maxUtteranceBytes < requiredStartBytes)
    (.value ("max_utterance_bytes must hold the configured speech_start_frames (" ++
      toString requiredStartBytes ++ " bytes)"))
  let requiredStartDurationMs := s.frameDurationMs * s.speechStartFrames
  raiseIf (s.maxUtteranceDurationMs < requiredStartDurationMs)
    (.value ("max_utterance_duration_ms must span the configured speech_start_frames (" ++
      toString requiredStartDurationMs ++ " ms)"))
  raiseIf (s.speechStartThreshold < s.speechEndThreshold)
    (.value "speech_end_threshold must not exceed speech_start_threshold")

def validate (s : VoiceInputSettingsFields) : Except SettingsError Unit := do
  s.validateFields
  s.validateCrossFieldBounds

/-- The default settings pass their own checks. -/
example : ({} : VoiceInputSettingsFields).validate = .ok () := by decide

/-- **What the checks ask for.** -/
structure Ok (s : VoiceInputSettingsFields) : Prop where
  sampleRateHz : 8000 ≤ s.sampleRateHz ∧ s.sampleRateHz ≤ 48000
  channels : s.channels = 1
  frameDurationMs : 10 ≤ s.frameDurationMs ∧ s.frameDurationMs ≤ 100
  maxFrameBytes : 2 ≤ s.maxFrameBytes ∧ s.maxFrameBytes ≤ 1048576
  speechStartThreshold : 1 ≤ s.speechStartThreshold ∧ s.speechStartThreshold ≤ 32767
  speechEndThreshold : 1 ≤ s.speechEndThreshold ∧ s.speechEndThreshold ≤ 32767
  speechStartFrames : 1 ≤ s.speechStartFrames ∧ s.speechStartFrames ≤ 100
  speechEndFrames : 1 ≤ s.speechEndFrames
  preRollFrames : 0 ≤ s.preRollFrames
  maxUtteranceDurationMs : 100 ≤ s.maxUtteranceDurationMs
  maxUtteranceBytes : 2 ≤ s.maxUtteranceBytes
  asrTimeoutMs : 100 ≤ s.asrTimeoutMs
  maxPendingUtterances : 1 ≤ s.maxPendingUtterances
  maxTranscriptChars : 1 ≤ s.maxTranscriptChars
  integral : s.sampleRateHz * s.frameDurationMs % 1000 = 0
  frame_le : s.sampleRateHz * s.frameDurationMs / 1000 * 2 ≤ s.maxFrameBytes
  maxFrameBytes_le : s.maxFrameBytes ≤ s.maxUtteranceBytes
  start_bytes_le :
    s.sampleRateHz * s.frameDurationMs / 1000 * 2 * s.speechStartFrames ≤ s.maxUtteranceBytes
  start_duration_le : s.frameDurationMs * s.speechStartFrames ≤ s.maxUtteranceDurationMs
  end_le_start : s.speechEndThreshold ≤ s.speechStartThreshold

theorem ok_of_validate {s : VoiceInputSettingsFields} (h : s.validate = .ok ()) : s.Ok := by
  simp only [validate, validateFields, validateCrossFieldBounds, check_bind_eq_ok,
    requireRange_eq_ok, raiseIf_eq_ok, not_not, not_lt] at h
  obtain ⟨⟨hrate, hchannels, hduration, hframeBytes, hstart, hend, hstartFrames, hendFrames,
    hpreRoll, huttDuration, huttBytes, htimeout, hpending, hchars⟩, hintegral, hframe, hutterance,
    hstartBytes, hstartDuration, hthresholds⟩ := h
  have hone : s.channels = 1 := le_antisymm hchannels.2 hchannels.1
  rw [hone, Int.mul_one] at hframe hstartBytes
  exact ⟨hrate, hone, hduration, hframeBytes, hstart, hend, hstartFrames, hendFrames.1, hpreRoll.1,
    huttDuration.1, huttBytes.1, htimeout.1, hpending.1, hchars.1, hintegral, hframe, hutterance,
    hstartBytes, hstartDuration, hthresholds⟩

end VoiceInputSettingsFields

/-- Validated bounds of voice capture, detection and recognition. -/
structure VoiceInputSettings extends VoiceInputSettingsFields where
  valid : toVoiceInputSettingsFields.validate = .ok ()
deriving DecidableEq

theorem VoiceInputSettings.ok (s : VoiceInputSettings) : s.Ok :=
  VoiceInputSettingsFields.ok_of_validate s.valid

end Eeveetuber
