import Eeveetuber.Api.InputAudioFrames
import Eeveetuber.Application.VoicePolicy
import Eeveetuber.Media.VadOnset

/-!
# Binary messages of a connection

What the WebSocket endpoint does with a binary message up to the events of the
detector: it is decoded under the payload limit of the policy, checked by the
coordinator and handed to the detector. Whatever is raised on the way ends the
connection.
-/

namespace Eeveetuber

open Foundation Stateful EnergyVoiceActivityDetector

/-- What ends a connection over a binary message. -/
inductive IngressError where
  /-- The codec's error: closed with 1003. -/
  | frame (error : CodecError)
  /-- `VoiceCaptureStateError`: closed with 1008. -/
  | capture (message : String)
  /-- A `ValueError` of the PCM frame. -/
  | pcm (message : String)
  /-- Any other error of the detector. -/
  | detector (error : VadError)
deriving DecidableEq

/-- One binary message, to a detector of the stream that is being captured. -/
def receiveBinary (uuid5 : UUID → String → UUID) (policy : VoiceInputPolicy)
    (streamId : Option UUID) (detector : EnergyVoiceActivityDetector) (binary : Bytes) :
    Except IngressError (List VadEvent × EnergyVoiceActivityDetector) := do
  let frame ← (decodeVoiceInputFrame binary policy.maxFrameBytes).mapError .frame
  let pcmFrame ← frame.toPcmFrame.mapError .pcm
  (policy.checkFrame streamId pcmFrame).mapError .capture
  match outcome (process uuid5 pcmFrame) detector with
  | (.ok events, detector) => return (events, detector)
  | (.error (.value _), _) => throw (.capture "PCM frame order or timing is invalid")
  | (.error error, _) => throw (.detector error)

/-- The binary messages of a capture, one after the other. -/
def receiveAll (uuid5 : UUID → String → UUID) (policy : VoiceInputPolicy)
    (streamId : Option UUID) (detector : EnergyVoiceActivityDetector) :
    List Bytes → Except IngressError (List VadEvent × EnergyVoiceActivityDetector)
  | [] => return ([], detector)
  | binary :: rest => do
    let (events, detector) ← receiveBinary uuid5 policy streamId detector binary
    let (later, detector) ← receiveAll uuid5 policy streamId detector rest
    return (events ++ later, detector)

/-! ### A stream in step with its clock -/

variable {policy : VoiceInputPolicy} {s : VoiceInputSettings}
  {d : EnergyVoiceActivityDetector} {past : List PcmFrame} {frame : PcmFrame} {id : UUID}
  {n time : ℕ}

/-- A detector that waits for the `n`-th frame of a stream, which is captured at `time`. -/
structure Awaits (policy : VoiceInputPolicy) (id : UUID) (n time : ℕ)
    (d : EnergyVoiceActivityDetector) : Prop where
  config : d.config = policy.vad
  inv : ∃ past, d.Inv past
  streamId : ∀ i ∈ d.streamId, i = id
  format : d.streamId.isSome → d.format = some policy.pcmFormat
  lastSequence : ∀ last ∈ d.lastSequence, last < n
  lastEndNs : ∀ last ∈ d.lastEndNs, last ≤ time

theorem make_awaits : Awaits policy id 0 time (make policy.vad) where
  config := rfl
  inv := ⟨[], make_inv policy.vad⟩
  streamId := by simp [make]
  format := by simp [make]
  lastSequence := by simp [make]
  lastEndNs := by simp [make]

/-- Settings leave room for every frame of the contract, and for those that start an
utterance. -/
theorem VoiceInputPolicy.Compiled.roomy (h : policy.Compiled s) :
    policy.vad.Roomy (s.frameSamples * 2) s.frameDurationNs := by
  have hok := s.ok
  have hsamples := s.frameSamples_mul
  have hrate := hok.sampleRateHz
  have hms := hok.frameDurationMs
  refine ⟨?_, ?_⟩
  · have hbytes := hok.start_bytes_le
    rw [← hsamples, Int.mul_ediv_cancel _ (by decide), ← h.speechStartFrames,
      ← h.maxUtteranceBytes] at hbytes
    exact_mod_cast hbytes
  · have hduration := hok.start_duration_le
    have hnat : (s.frameDurationMs.toNat : ℤ) = s.frameDurationMs := Int.toNat_of_nonneg (by omega)
    rw [← hnat, ← h.speechStartFrames, ← h.maxUtteranceDurationMs] at hduration
    have hduration : s.frameDurationMs.toNat * policy.vad.speechStartFrames ≤
        policy.vad.maxUtteranceDurationMs := by exact_mod_cast hduration
    rw [VoiceInputSettingsFields.frameDurationNs, EnergyVadConfig.maxUtteranceDurationNs,
      Nat.mul_right_comm]
    exact Nat.mul_le_mul_right _ hduration

/-- **The next frame of a stream is accepted**, and the one behind it is awaited. -/
theorem Awaits.process (uuid5 : UUID → String → UUID) (hpolicy : policy.Compiled s)
    (h : Awaits policy id n time d) (hcheck : policy.checkFrame (some id) frame = .ok ())
    (hsequence : frame.sequence = n) (htime : frame.capturedAtMonotonicNs = time) :
    ∃ events d', outcome (process uuid5 frame) d = (.ok events, d') ∧
      Awaits policy id (n + 1) (time + s.frameDurationNs) d' := by
  obtain ⟨past, hinv⟩ := h.inv
  obtain ⟨hstream, hformat, -, -⟩ := VoiceInputPolicy.checkFrame_eq_ok.mp hcheck
  have hid : frame.streamId = id := Option.some.inj hstream
  obtain ⟨hlength, hduration⟩ := hpolicy.size hcheck
  have hwithin : d.config.Within [frame] := by
    rw [h.config]
    refine hpolicy.roomy.within (fun f hf => ?_) policy.vad.one_le_startFrames
    rw [List.mem_singleton.mp hf]
    exact ⟨hlength, hduration⟩
  -- the frame is of the stream, in order and on time, so that the detector takes it
  obtain ⟨d₀, hvalid⟩ := validateStreamFrame_ok hwithin
    (fun i hi => (h.streamId i hi).trans hid.symm) (fun hi => by rw [h.format hi, hformat])
    (fun last hlast => hsequence ▸ h.lastSequence last hlast)
    fun last hlast => htime ▸ h.lastEndNs last hlast
  rcases process_step uuid5 hinv frame with ⟨message, herr, -⟩ | ⟨events, d', hok, hcarries, hstep⟩
  · rw [herr] at hvalid
    cases hvalid
  · obtain ⟨⟨past', hinv', hpast⟩, hconfig⟩ := hstep.inv hcarries
    -- it is then the last of the frames the detector has taken
    have hmem : frame ∈ past' ++ d'.retained := by
      rw [hpast]
      exact List.mem_append_right _ (List.mem_singleton_self _)
    have hlast : (past' ++ d'.retained).getLast? = some frame := by
      rw [hpast, List.getLast?_concat]
    refine ⟨events, d', hok, hconfig.trans h.config, ⟨past', hinv'⟩, fun i hi => ?_, fun _ => ?_,
      fun last h => ?_, fun last h => ?_⟩
    · rw [hinv'.carries.streamId frame hmem] at hi
      exact (Option.some.inj hi).symm.trans hid
    · rw [hinv'.carries.format frame hmem, hformat]
    · rw [hinv'.lastSequence, hlast] at h
      obtain rfl : frame.sequence = last := Option.some.inj h
      rw [hsequence]
      exact Nat.lt_succ_self n
    · rw [hinv'.lastEndNs, hlast] at h
      obtain rfl : frame.endMonotonicNs = last := Option.some.inj h
      rw [PcmFrame.endMonotonicNs, htime, hduration]

end Eeveetuber
