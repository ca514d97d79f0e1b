import Mathlib.Tactic.NormNum
import Eeveetuber.Config.Voice
import Eeveetuber.Media.Vad

/-!
# The policy of voice input

The bounds a voice input coordinator works under, compiled from validated settings,
what it tells the operator page about them, and the checks it makes of a frame
before the detector sees it.
-/

namespace Eeveetuber

open Foundation

/-- Application-owned bounds compiled from validated process settings. -/
structure VoiceInputPolicy where
  enabled : Bool
  pcmFormat : PcmFormat
  frameDurationMs : ℤ
  maxFrameBytes : ℤ
  vad : EnergyVadConfig
  asrTimeoutMs : ℤ
  maxPendingUtterances : ℤ
  maxTranscriptChars : ℤ
  bargeInEnabled : Bool

/-- `PcmEncoding.value`. -/
def PcmEncoding.value : PcmEncoding → String
  | .s16Le => "pcm_s16le"

/-- The capture contract advertised to the operator page. -/
structure PublicVoiceConfig where
  enabled : Bool
  sampleRateHz : ℤ
  channels : ℤ
  encoding : String
  frameDurationMs : ℤ
  maxFrameBytes : ℤ
  bargeInEnabled : Bool
deriving DecidableEq, Repr

namespace VoiceInputPolicy

def postInit (p : VoiceInputPolicy) : Except String Unit := do
  raiseIf (p.frameDurationMs < 1) "frame_duration_ms must be positive"
  raiseIf (p.maxFrameBytes < p.pcmFormat.bytesPerSampleFrame)
    "max_frame_bytes cannot be smaller than one PCM sample frame"
  raiseIf (p.asrTimeoutMs < 1) "asr_timeout_ms must be positive"
  raiseIf (p.maxPendingUtterances < 1) "max_pending_utterances must be positive"
  raiseIf (p.maxTranscriptChars < 1) "max_transcript_chars must be positive"

def publicConfig (p : VoiceInputPolicy) : PublicVoiceConfig where
  enabled := p.enabled
  sampleRateHz := p.pcmFormat.sampleRateHz
  channels := p.pcmFormat.channels
  encoding := p.pcmFormat.encoding.value
  frameDurationMs := p.frameDurationMs
  maxFrameBytes := p.maxFrameBytes
  bargeInEnabled := p.bargeInEnabled

def expectedFrameSampleCount (p : VoiceInputPolicy) : ℤ :=
  (p.pcmFormat.sampleRateHz * p.frameDurationMs + 999) / 1000

/-- The checks that `process_frame` makes of a frame, which are `VoiceCaptureStateError`. -/
def checkFrame (p : VoiceInputPolicy) (streamId : Option UUID) (frame : PcmFrame) :
    Except String Unit := do
  raiseIf (some frame.streamId ≠ streamId) "PCM frame belongs to a different capture stream"
  raiseIf (frame.format ≠ p.pcmFormat) "PCM frame format changed during capture"
  raiseIf (p.maxFrameBytes < frame.pcm.length) "PCM frame exceeds the configured byte limit"
  raiseIf (frame.sampleFrameCount ≠ p.expectedFrameSampleCount)
    "PCM frame duration does not match the server contract"

theorem checkFrame_eq_ok {p : VoiceInputPolicy} {streamId : Option UUID} {frame : PcmFrame} :
    p.checkFrame streamId frame = .ok () ↔ some frame.streamId = streamId ∧
      frame.format = p.pcmFormat ∧ frame.pcm.length ≤ p.maxFrameBytes ∧
      frame.sampleFrameCount = p.expectedFrameSampleCount := by
  simp only [checkFrame, check_bind_eq_ok, raiseIf_eq_ok, not_not, not_lt]

end VoiceInputPolicy

/-- `_voice_policy`, of the settings of the process. -/
def voicePolicy (voice : VoiceInputSettings) : Except String VoiceInputPolicy := do
  let policy : VoiceInputPolicy := {
    enabled := voice.enabled
    pcmFormat := ← PcmFormat.create voice.sampleRateHz voice.channels
    frameDurationMs := voice.frameDurationMs
    maxFrameBytes := voice.maxFrameBytes
    vad := ← EnergyVadConfig.create voice.speechStartThreshold voice.speechEndThreshold
      voice.speechStartFrames voice.speechEndFrames voice.preRollFrames
      voice.maxUtteranceDurationMs voice.maxUtteranceBytes
    asrTimeoutMs := voice.asrTimeoutMs
    maxPendingUtterances := voice.maxPendingUtterances
    maxTranscriptChars := voice.maxTranscriptChars
    bargeInEnabled := voice.bargeInEnabled }
  policy.postInit
  return policy

/-! ### What a policy is made of -/

/-- The policy is that of the settings. -/
structure VoiceInputPolicy.Compiled (p : VoiceInputPolicy) (s : VoiceInputSettings) : Prop where
  enabled : p.enabled = s.enabled
  sampleRateHz : (p.pcmFormat.sampleRateHz : ℤ) = s.sampleRateHz
  channels : p.pcmFormat.channels = 1
  frameDurationMs : p.frameDurationMs = s.frameDurationMs
  maxFrameBytes : p.maxFrameBytes = s.maxFrameBytes
  speechStartFrames : (p.vad.speechStartFrames : ℤ) = s.speechStartFrames
  maxUtteranceDurationMs : (p.vad.maxUtteranceDurationMs : ℤ) = s.maxUtteranceDurationMs
  maxUtteranceBytes : (p.vad.maxUtteranceBytes : ℤ) = s.maxUtteranceBytes

/-- **Every settings value that is accepted compiles.** -/
theorem voicePolicy_compiles (s : VoiceInputSettings) :
    ∃ policy, voicePolicy s = .ok policy ∧ policy.Compiled s := by
  have hok := s.ok
  obtain ⟨hrate, hrate'⟩ := hok.sampleRateHz
  have hchannels := hok.channels
  have hformat : PcmFormat.create s.sampleRateHz s.channels =
      .ok ⟨s.sampleRateHz.toNat, s.channels.toNat, .s16Le, by omega, by omega⟩ := by
    rw [PcmFormat.create, dif_pos (by omega), dif_pos (by omega)]
  have hstart := hok.speechStartFrames
  have hduration := hok.maxUtteranceDurationMs
  have hbytes := hok.maxUtteranceBytes
  obtain ⟨vad, hvad, hvadStart, hvadDuration, hvadBytes⟩ : ∃ vad : EnergyVadConfig,
      EnergyVadConfig.create s.speechStartThreshold s.speechEndThreshold s.speechStartFrames
        s.speechEndFrames s.preRollFrames s.maxUtteranceDurationMs s.maxUtteranceBytes = .ok vad ∧
      (vad.speechStartFrames : ℤ) = s.speechStartFrames ∧
      (vad.maxUtteranceDurationMs : ℤ) = s.maxUtteranceDurationMs ∧
      (vad.maxUtteranceBytes : ℤ) = s.maxUtteranceBytes := by
    rw [EnergyVadConfig.create, dif_pos hok.speechStartThreshold, dif_pos hok.speechEndThreshold,
      dif_pos hstart.1, dif_pos hok.speechEndFrames, if_pos hok.preRollFrames,
      dif_pos (by omega), dif_pos hbytes, dif_pos hok.end_le_start]
    exact ⟨_, rfl, Int.toNat_of_nonneg (by omega), Int.toNat_of_nonneg (by omega),
      Int.toNat_of_nonneg (by omega)⟩
  refine ⟨_, except_bind_eq_ok.mpr ⟨_, hformat, except_bind_eq_ok.mpr ⟨_, hvad,
    except_bind_eq_ok.mpr ⟨(), ?_, rfl⟩⟩⟩, rfl, ?_, ?_, rfl, rfl, hvadStart, hvadDuration,
    hvadBytes⟩
  · have hduration := hok.frameDurationMs
    have hframe := hok.maxFrameBytes
    have htimeout := hok.asrTimeoutMs
    have hpending := hok.maxPendingUtterances
    have hchars := hok.maxTranscriptChars
    simp only [VoiceInputPolicy.postInit, check_bind_eq_ok, raiseIf_eq_ok, not_lt,
      PcmFormat.bytesPerSampleFrame, hchannels, Int.toNat_one, Nat.one_mul]
    refine ⟨?_, ?_, ?_, ?_, ?_⟩ <;> omega
  · exact Int.toNat_of_nonneg (by omega)
  · change s.channels.toNat = 1
    omega

/-! ### Frames of the contract -/

section Contract

variable {p : VoiceInputPolicy} {s : VoiceInputSettings} {streamId : Option UUID}
  {frame : PcmFrame}

/-- The samples of one frame. -/
def VoiceInputSettingsFields.frameSamples (s : VoiceInputSettingsFields) : ℕ :=
  (s.sampleRateHz * s.frameDurationMs / 1000).toNat

/-- What a frame lasts. -/
def VoiceInputSettingsFields.frameDurationNs (s : VoiceInputSettingsFields) : ℕ :=
  s.frameDurationMs.toNat * 1000000

/-- The samples of one frame last as long as a frame. -/
theorem VoiceInputSettings.frameSamples_mul (s : VoiceInputSettings) :
    (s.frameSamples * 1000 : ℤ) = s.sampleRateHz * s.frameDurationMs := by
  have hintegral := s.ok.integral
  have hpos : 0 ≤ s.sampleRateHz * s.frameDurationMs :=
    Int.mul_nonneg (by have := s.ok.sampleRateHz; omega) (by have := s.ok.frameDurationMs; omega)
  rw [VoiceInputSettingsFields.frameSamples]
  omega

/-- **All frames of the contract are of one size and last the same.** -/
theorem VoiceInputPolicy.Compiled.size (h : p.Compiled s)
    (hcheck : p.checkFrame streamId frame = .ok ()) :
    frame.pcm.length = s.frameSamples * 2 ∧ frame.durationNs = s.frameDurationNs := by
  obtain ⟨-, hformat, -, hcount⟩ := VoiceInputPolicy.checkFrame_eq_ok.mp hcheck
  have hsamples := s.frameSamples_mul
  have hwidth : frame.format.bytesPerSampleFrame = 2 := by
    rw [hformat, PcmFormat.bytesPerSampleFrame, h.channels]
  have hcomplete := frame.complete
  rw [VoiceInputPolicy.expectedFrameSampleCount, h.sampleRateHz, h.frameDurationMs, ← hsamples]
    at hcount
  have hcount' : frame.sampleFrameCount = s.frameSamples := by omega
  refine ⟨?_, ?_⟩
  · rw [PcmFrame.sampleFrameCount, hwidth] at hcount'
    rw [hwidth] at hcomplete
    omega
  · have hrate : (frame.format.sampleRateHz : ℤ) = s.sampleRateHz := by
      rw [hformat, h.sampleRateHz]
    have hduration := s.ok.frameDurationMs
    have hms : (s.frameDurationMs.toNat : ℤ) = s.frameDurationMs := Int.toNat_of_nonneg (by omega)
    have hnat : s.frameSamples * 1000 = frame.format.sampleRateHz * s.frameDurationMs.toNat := by
      rw [← hrate, ← hms] at hsamples
      exact_mod_cast hsamples
    have hmul : frame.sampleFrameCount * 1000000000 =
        frame.format.sampleRateHz * s.frameDurationNs := by
      rw [hcount', VoiceInputSettingsFields.frameDurationNs, ← Nat.mul_assoc, ← hnat,
        Nat.mul_assoc]
    have hpos : 0 < frame.format.sampleRateHz := by
      have := frame.format.rate_mem
      omega
    rw [PcmFrame.durationNs, hmul, Nat.mul_div_cancel_left _ hpos]

end Contract

end Eeveetuber
