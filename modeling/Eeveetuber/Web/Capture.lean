import Mathlib.Data.Rat.Lemmas
import Eeveetuber.Api.VoiceIngress
import Eeveetuber.Web.AudioCodecs

/-!
# Capture on the operator page

The page is told the capture contract by the server, checks it, and sends frames of
the samples its worklet hands it: the `n`-th carries the sequence number `n` and the
time of the start and `n` frames. Whatever the settings are, the contract is
accepted by the page, and all frames it sends are accepted by the server
(`Eeveetuber.OperatorPage.voice_capture_agrees`).
-/

namespace Eeveetuber

namespace OperatorPage

open Foundation

/-! ### The contract -/

def maxCaptureBufferedAmount : ℕ := 1024 * 1024

/-- What the page knows of the voice input. -/
structure VoiceInput where
  enabled : Bool
  sampleRateHz : ℕ
  frameDurationMs : ℕ
  maxFrameBytes : ℕ
deriving DecidableEq, Repr

def applyVoiceInputCapabilities (capability : PublicVoiceConfig) : Option VoiceInput :=
  let frameSamples : ℚ := (capability.sampleRateHz * capability.frameDurationMs : ℚ) / 1000
  if 0 < capability.sampleRateHz ∧ 0 < capability.frameDurationMs ∧
      0 < capability.maxFrameBytes ∧ capability.channels = voiceInputChannels ∧
      capability.encoding = "pcm_s16le" ∧ frameSamples.isInt = true ∧
      frameSamples * 2 ≤ capability.maxFrameBytes then
    some ⟨capability.enabled, capability.sampleRateHz.toNat, capability.frameDurationMs.toNat,
      capability.maxFrameBytes.toNat⟩
  else none

/-- The state of a capture. -/
structure Mic where
  streamId : Text
  sequence : ℕ
  frameSamples : ℕ
  frameDurationNs : ℕ
  nextCapturedAtNs : ℕ
deriving DecidableEq, Repr

/-- The start of a capture, at the time `now` in nanoseconds; `none` if the page refuses. -/
def startMicrophone (capability : VoiceInput) (streamId : Text) (now : ℕ) : Option Mic :=
  let frameSamples : ℚ := (capability.sampleRateHz * capability.frameDurationMs : ℚ) / 1000
  if capability.enabled = false ∨ frameSamples.isInt = false ∨ frameSamples ≤ 0 ∨
      (capability.maxFrameBytes : ℚ) < frameSamples * 2 then none
  else some ⟨streamId, 0, frameSamples.num.toNat, capability.frameDurationMs * 1000000, now⟩

/-- What becomes of a block of samples. -/
inductive Handled where
  /-- The capture is stopped. -/
  | stopped (status : String)
  /-- A packet is sent. -/
  | sent (packet : Bytes) (mic : Mic)
deriving DecidableEq

/-- A block of samples, at a socket with so many bytes waiting in it. -/
def handleMicrophoneFrame (voiceInput : VoiceInput) (mic : Mic) (bufferedAmount : ℕ)
    (samples : List Number) : Except String Handled := do
  if samples.length ≠ mic.frameSamples then
    return .stopped "Microphone worklet emitted an invalid frame"
  let packet ← encodeVoiceInputFrame mic.streamId mic.sequence mic.nextCapturedAtNs
    voiceInput.sampleRateHz samples
  let bufferedLimit := min maxCaptureBufferedAmount (max (64 * 1024) (voiceInput.maxFrameBytes * 8))
  if bufferedLimit < bufferedAmount + packet.length then
    return .stopped "Microphone stopped: connection is too slow"
  return .sent packet { mic with
    sequence := mic.sequence + 1
    nextCapturedAtNs := mic.nextCapturedAtNs + mic.frameDurationNs }

/-- The packets that are sent of some blocks, each with what waits in the socket before it. -/
def capture (voiceInput : VoiceInput) : Mic → List (ℕ × List Number) → Except String (List Bytes)
  | _, [] => return []
  | mic, (bufferedAmount, samples) :: rest => do
    match ← handleMicrophoneFrame voiceInput mic bufferedAmount samples with
    | .stopped _ => return []
    | .sent packet mic => return packet :: (← capture voiceInput mic rest)

/-! ### The page accepts the contract -/

variable {policy : VoiceInputPolicy} {s : VoiceInputSettings} {voiceInput : VoiceInput}
  {id : UUID}

/-- The page knows of the settings what it needs. -/
structure VoiceInput.Of (voiceInput : VoiceInput) (s : VoiceInputSettings) : Prop where
  enabled : voiceInput.enabled = s.enabled
  sampleRateHz : (voiceInput.sampleRateHz : ℤ) = s.sampleRateHz
  frameDurationMs : (voiceInput.frameDurationMs : ℤ) = s.frameDurationMs
  maxFrameBytes : (voiceInput.maxFrameBytes : ℤ) = s.maxFrameBytes

/-- The page divides by 1000 what is a multiple of it. -/
theorem div_eq_frameSamples (s : VoiceInputSettings) :
    (s.sampleRateHz * s.frameDurationMs : ℚ) / 1000 = s.frameSamples := by
  rw [div_eq_iff (by norm_num)]
  exact_mod_cast s.frameSamples_mul.symm

theorem frameSamples_pos (s : VoiceInputSettings) : 0 < s.frameSamples := by
  have hmul := s.frameSamples_mul
  have hrate := s.ok.sampleRateHz
  have hms := s.ok.frameDurationMs
  have hpos : 0 < s.sampleRateHz * s.frameDurationMs := mul_pos (by omega) (by omega)
  omega

theorem frameSamples_le (s : VoiceInputSettings) :
    (s.frameSamples * 2 : ℤ) ≤ s.maxFrameBytes ∧ s.frameSamples ≤ 4800 := by
  have hmul := s.frameSamples_mul
  have hrate := s.ok.sampleRateHz
  have hms := s.ok.frameDurationMs
  have hle : s.sampleRateHz * s.frameDurationMs ≤ 48000 * 100 :=
    mul_le_mul hrate.2 hms.2 (by omega) (by decide)
  have hframe := s.ok.frame_le
  rw [← hmul, Int.mul_ediv_cancel _ (by decide)] at hframe
  exact ⟨hframe, by omega⟩

theorem applyVoiceInputCapabilities_of (hpolicy : policy.Compiled s) :
    ∃ voiceInput, applyVoiceInputCapabilities policy.publicConfig = some voiceInput ∧
      voiceInput.Of s := by
  have hrate := s.ok.sampleRateHz
  have hms := s.ok.frameDurationMs
  have hbytes := s.ok.maxFrameBytes
  have hsamples := div_eq_frameSamples s
  have hle : (s.frameSamples * 2 : ℚ) ≤ s.maxFrameBytes := by exact_mod_cast (frameSamples_le s).1
  simp only [applyVoiceInputCapabilities, VoiceInputPolicy.publicConfig, hpolicy.sampleRateHz,
    hpolicy.frameDurationMs, hpolicy.maxFrameBytes, hpolicy.channels, hsamples]
  rw [if_pos]
  · refine ⟨_, rfl, hpolicy.enabled, ?_, ?_, ?_⟩
    · exact Int.toNat_of_nonneg (by omega)
    · exact Int.toNat_of_nonneg (by omega)
    · exact Int.toNat_of_nonneg (by omega)
  · refine ⟨by omega, by omega, by omega, rfl, rfl, ?_, hle⟩
    rfl

/-- The start of a capture. -/
def Mic.at (s : VoiceInputSettings) (id : UUID) (sequence time : ℕ) : Mic :=
  ⟨id.text, sequence, s.frameSamples, s.frameDurationNs, time⟩

theorem startMicrophone_of (h : voiceInput.Of s) (henabled : s.enabled = true) (now : ℕ) :
    startMicrophone voiceInput id.text now = some (.at s id 0 now) := by
  have hsamples := div_eq_frameSamples s
  have hpos : (0 : ℚ) < s.frameSamples := by exact_mod_cast frameSamples_pos s
  have hle : (s.frameSamples * 2 : ℚ) ≤ voiceInput.maxFrameBytes := by
    have hle := (frameSamples_le s).1
    rw [← h.maxFrameBytes] at hle
    exact_mod_cast hle
  have hrate : (voiceInput.sampleRateHz : ℚ) = s.sampleRateHz := by exact_mod_cast h.sampleRateHz
  have hms : (voiceInput.frameDurationMs : ℚ) = s.frameDurationMs := by
    exact_mod_cast h.frameDurationMs
  have hduration : voiceInput.frameDurationMs * 1000000 = s.frameDurationNs := by
    rw [VoiceInputSettingsFields.frameDurationNs, ← h.frameDurationMs, Int.toNat_natCast]
  simp only [startMicrophone, hrate, hms, hsamples, hduration]
  rw [if_neg]
  · rfl
  · rintro (hoff | hint | hnonpos | hlarge)
    · rw [h.enabled, henabled] at hoff
      cases hoff
    · cases hint
    · exact absurd hpos (not_lt.mpr hnonpos)
    · exact absurd hle (not_le.mpr hlarge)

/-! ### The packets of a capture -/

variable {sequence time n : ℕ} {d : EnergyVoiceActivityDetector} {packets : List Bytes}
  {messages : List (ℕ × List Number)}

/-- The packets of a capture: each has the number and the time of its frame. -/
inductive Packets (s : VoiceInputSettings) (id : UUID) : ℕ → ℕ → List Bytes → Prop
  | nil {n time : ℕ} : Packets s id n time []
  | cons {n time : ℕ} {packets : List Bytes} {samples : List Number} :
      samples.length = s.frameSamples →
      Packets s id (n + 1) (time + s.frameDurationNs) packets →
      Packets s id n time (voiceInputPacket id n time s.sampleRateHz.toNat (samples.map pcmOf) ::
        packets)

/-- A block of the right size is the next frame, unless the socket is too far behind. -/
theorem handleMicrophoneFrame_of_size (h : voiceInput.Of s) (id : UUID)
    (n time bufferedAmount : ℕ) {samples : List Number} (hsize : samples.length = s.frameSamples) :
    handleMicrophoneFrame voiceInput (.at s id n time) bufferedAmount samples =
      .ok (if min maxCaptureBufferedAmount (max (64 * 1024) (voiceInput.maxFrameBytes * 8)) <
          bufferedAmount + (52 + s.frameSamples * 2) then
        .stopped "Microphone stopped: connection is too slow"
      else .sent (voiceInputPacket id n time s.sampleRateHz.toNat (samples.map pcmOf))
        (.at s id (n + 1) (time + s.frameDurationNs))) := by
  have hrate : voiceInput.sampleRateHz = s.sampleRateHz.toNat := by
    rw [← h.sampleRateHz, Int.toNat_natCast]
  have hencode : encodeVoiceInputFrame (Mic.at s id n time).streamId
      (Mic.at s id n time).sequence (Mic.at s id n time).nextCapturedAtNs voiceInput.sampleRateHz
      samples = .ok (voiceInputPacket id n time s.sampleRateHz.toNat (samples.map pcmOf)) := by
    rw [hrate]
    exact encodeVoiceInputFrame_text id n time _ samples
  have hlength := length_voiceInputPacket id n time s.sampleRateHz.toNat (samples.map pcmOf)
  rw [List.length_map, hsize] at hlength
  have hsize' : ¬samples.length ≠ (Mic.at s id n time).frameSamples := not_not.mpr hsize
  rw [handleMicrophoneFrame, if_neg hsize', hencode, ← hlength]
  dsimp only [bind, Except.bind]
  split_ifs
  · rfl
  · rfl

/-- **What the page sends**: every block in time is the next frame, until one is not of the
right size or the socket is too far behind. -/
theorem capture_packets (h : voiceInput.Of s) (id : UUID)
    (messages : List (ℕ × List Number)) (time n : ℕ) :
    ∃ packets, capture voiceInput (.at s id n time) messages = .ok packets ∧
      Packets s id n time packets ∧
      ((∀ m ∈ messages, m.1 = 0 ∧ m.2.length = s.frameSamples) →
        packets.length = messages.length) := by
  induction messages generalizing n time with
  | nil => exact ⟨[], rfl, .nil, fun _ => rfl⟩
  | cons m messages ih =>
    obtain ⟨bufferedAmount, samples⟩ := m
    by_cases hsize : samples.length = s.frameSamples
    · have hhandle := handleMicrophoneFrame_of_size h id n time bufferedAmount hsize
      split_ifs at hhandle with hslow
      · refine ⟨[], except_bind_eq_ok.mpr ⟨_, hhandle, rfl⟩, .nil, fun hall => ?_⟩
        obtain ⟨rfl, -⟩ := hall _ List.mem_cons_self
        have hsmall := (frameSamples_le s).2
        rw [Nat.zero_add, maxCaptureBufferedAmount] at hslow
        omega
      · obtain ⟨packets, hrest, hpackets, hlength⟩ :=
          ih (time + s.frameDurationNs) (n + 1)
        refine ⟨_, except_bind_eq_ok.mpr ⟨_, hhandle, except_bind_eq_ok.mpr ⟨_, hrest, rfl⟩⟩,
          .cons hsize hpackets, fun hall => ?_⟩
        rw [List.length_cons, List.length_cons,
          hlength fun m hm => hall m (List.mem_cons_of_mem _ hm)]
    · have hhandle : handleMicrophoneFrame voiceInput (.at s id n time) bufferedAmount samples =
          .ok (.stopped "Microphone worklet emitted an invalid frame") := by
        have hsize' : samples.length ≠ (Mic.at s id n time).frameSamples := hsize
        rw [handleMicrophoneFrame, if_pos hsize']
        rfl
      exact ⟨[], except_bind_eq_ok.mpr ⟨_, hhandle, rfl⟩, .nil,
        fun hall => absurd (hall _ List.mem_cons_self).2 hsize⟩

/-- **A packet in time is accepted**: it is decoded under the limit of the policy, passes the
coordinator's checks, and comes next for the detector. -/
theorem receiveBinary_accepts (uuid5 : UUID → String → UUID) (hpolicy : policy.Compiled s)
    (hawaits : Awaits policy id n time d) (hn : n < 2 ^ 64) (htime : time < 2 ^ 64)
    {samples : List Number} (hsize : samples.length = s.frameSamples) :
    ∃ events d', receiveBinary uuid5 policy (some id) d
        (voiceInputPacket id n time s.sampleRateHz.toNat (samples.map pcmOf)) =
          .ok (events, d') ∧
      Awaits policy id (n + 1) (time + s.frameDurationNs) d' := by
  have hrate := s.ok.sampleRateHz
  have hbytes := s.ok.maxFrameBytes
  have hpos := frameSamples_pos s
  have hle := (frameSamples_le s).1
  have hne : samples ≠ [] := List.length_pos_iff.mp (by omega)
  obtain ⟨packet, frame, hencode, hdecode, hid, hsequence, hcaptured, hrate', hchannels, hpcm⟩ :=
    encodeVoiceInputFrame_accepted id n time s.sampleRateHz.toNat samples policy.maxFrameBytes hn
      htime (by omega) hne (by rw [hsize, hpolicy.maxFrameBytes]; exact hle)
      (by rw [hpolicy.maxFrameBytes, maxU32]; omega)
  -- the packet is the one the page writes
  rw [encodeVoiceInputFrame_text] at hencode
  obtain rfl := Except.ok.inj hencode
  obtain ⟨pcmFrame, hto, hid', hsequence', hcaptured', hformat', hpcm'⟩ := frame.toPcmFrame_eq_ok
  have hlength : pcmFrame.pcm.length = s.frameSamples * 2 := by
    rw [hpcm', hpcm, length_pcmBytesOf, List.length_map, hsize]
  have hformat : pcmFrame.format = policy.pcmFormat := by
    have hpolicyRate := hpolicy.sampleRateHz
    refine PcmFormat.eq_of_rate_of_channels ?_ ?_
    · rw [hformat', hrate']
      omega
    · rw [hformat', hchannels, hpolicy.channels]
  -- the four checks of the coordinator: stream, format, size and duration
  have hcheck : policy.checkFrame (some id) pcmFrame = .ok () := by
    refine VoiceInputPolicy.checkFrame_eq_ok.mpr ⟨by rw [hid', hid], hformat, ?_, ?_⟩
    · rw [hlength, hpolicy.maxFrameBytes]
      exact_mod_cast hle
    · have hmul := s.frameSamples_mul
      rw [VoiceInputPolicy.expectedFrameSampleCount, hpolicy.sampleRateHz, hpolicy.frameDurationMs,
        ← hmul, PcmFrame.sampleFrameCount, hlength, hformat, PcmFormat.bytesPerSampleFrame,
        hpolicy.channels]
      omega
  have hn' : pcmFrame.sequence = n := by
    rw [hsequence] at hsequence'
    exact_mod_cast hsequence'
  have htime' : pcmFrame.capturedAtMonotonicNs = time := by
    rw [hcaptured] at hcaptured'
    exact_mod_cast hcaptured'
  obtain ⟨events, d', hprocess, hawaits'⟩ := hawaits.process uuid5 hpolicy hcheck hn' htime'
  refine ⟨events, d', ?_, hawaits'⟩
  -- the three stages of `receive_binary`, none of which fails
  rw [receiveBinary, hdecode]
  refine except_bind_eq_ok.mpr ⟨frame, rfl, ?_⟩
  rw [hto]
  refine except_bind_eq_ok.mpr ⟨pcmFrame, rfl, ?_⟩
  rw [hcheck]
  refine except_bind_eq_ok.mpr ⟨(), rfl, ?_⟩
  rw [hprocess]
  rfl

/-- **All packets of a capture are accepted**, as long as their numbers and times are in
range. -/
theorem receiveAll_accepts (uuid5 : UUID → String → UUID) (hpolicy : policy.Compiled s)
    (hpackets : Packets s id n time packets) (hawaits : Awaits policy id n time d)
    (hrange : ∀ k < packets.length, n + k < 2 ^ 64 ∧ time + k * s.frameDurationNs < 2 ^ 64) :
    ∃ events d', receiveAll uuid5 policy (some id) d packets = .ok (events, d') ∧
      Awaits policy id (n + packets.length) (time + packets.length * s.frameDurationNs) d' := by
  induction hpackets generalizing d with
  | nil => exact ⟨[], d, rfl, by simpa using hawaits⟩
  | @cons n time packets samples hsize hrest ih =>
    obtain ⟨hn, htime⟩ := hrange 0 (Nat.zero_lt_succ _)
    rw [Nat.add_zero] at hn
    rw [Nat.zero_mul, Nat.add_zero] at htime
    obtain ⟨events, d₁, hreceive, hawaits₁⟩ :=
      receiveBinary_accepts uuid5 hpolicy hawaits hn htime hsize
    obtain ⟨later, d₂, hrest, hawaits₂⟩ := ih hawaits₁ fun k hk => by
      have hk' := hrange (k + 1) (Nat.succ_lt_succ hk)
      rw [Nat.succ_mul] at hk'
      omega
    refine ⟨events ++ later, d₂, except_bind_eq_ok.mpr ⟨_, hreceive,
      except_bind_eq_ok.mpr ⟨_, hrest, rfl⟩⟩, ?_⟩
    rw [List.length_cons, Nat.succ_mul]
    convert hawaits₂ using 1 <;> omega

/-- The `n`-th packet has the number `n` and the time of `n` frames. -/
theorem Packets.getElem? (h : Packets s id n time packets) {k : ℕ} {packet : Bytes}
    (hk : packets[k]? = some packet) : ∃ samples : List Number,
      samples.length = s.frameSamples ∧ encodeVoiceInputFrame id.text (n + k)
        (time + k * s.frameDurationNs) s.sampleRateHz.toNat samples = .ok packet := by
  induction h generalizing k with
  | nil => cases hk
  | @cons n time packets samples hsize hrest ih =>
    rcases k with _ | k
    · obtain rfl := Option.some.inj hk
      refine ⟨samples, hsize, ?_⟩
      rw [Nat.zero_mul]
      exact encodeVoiceInputFrame_text id n time _ samples
    · obtain ⟨samples, hsize, hencode⟩ := ih hk
      refine ⟨samples, hsize, ?_⟩
      rw [← hencode, Nat.succ_mul]
      congr 1 <;> omega

/-- **Settings, page and server agree**, whatever the settings. They compile to a policy whose
contract the page accepts. If voice input is enabled, the page captures; its `n`-th packet is
the frame of the number `n` and of the time of `n` frames behind the start, and as long as
these times are in range every packet is decoded under the limit of the policy, passes the
checks of the coordinator and comes next for the detector. And the frames of the contract are
such that in a detector that is idle the limits never reset the candidate, and as many loud
frames as start an utterance start one. -/
theorem voice_capture_agrees (uuid5 : UUID → String → UUID) (s : VoiceInputSettings) :
    ∃ policy voiceInput, voicePolicy s = .ok policy ∧
      applyVoiceInputCapabilities policy.publicConfig = some voiceInput ∧
      (s.enabled = true → ∀ (id : UUID) (start : ℕ) (messages : List (ℕ × List Number)),
        ∃ mic packets, startMicrophone voiceInput id.text start = some mic ∧
          capture voiceInput mic messages = .ok packets ∧
          ((∀ m ∈ messages, m.1 = 0 ∧ m.2.length = s.frameSamples) →
            packets.length = messages.length) ∧
          (∀ n packet, packets[n]? = some packet → ∃ samples : List Number,
            samples.length = s.frameSamples ∧ encodeVoiceInputFrame id.text n
              (start + n * s.frameDurationNs) s.sampleRateHz.toNat samples = .ok packet) ∧
          ((∀ n < packets.length, start + n * s.frameDurationNs < 2 ^ 64) →
            ∃ events d, receiveAll uuid5 policy (some id) (.make policy.vad) packets =
              .ok (events, d))) ∧
      ∀ (streamId : Option UUID) (earlier loud : List PcmFrame) (events later : List VadEvent)
        (d d' : EnergyVoiceActivityDetector),
        (∀ f ∈ earlier ++ loud, policy.checkFrame streamId f = .ok ()) →
        (processAll uuid5 earlier).outcome (.make policy.vad) = (.ok events, d) →
        d.speechActive = false →
        (∀ frame, policy.checkFrame streamId frame = .ok () →
          d.candidateBytes + frame.pcm.length ≤ policy.vad.maxUtteranceBytes ∧
          d.candidateDurationNs + frame.durationNs ≤ policy.vad.maxUtteranceDurationNs) ∧
        (loud.length = s.speechStartFrames →
          (∀ f ∈ loud, isAbove f policy.vad.speechStartThreshold = true) →
          (processAll uuid5 loud).outcome d = (.ok later, d') →
          ∃ started, .started started ∈ later) := by
  obtain ⟨policy, hcompiles, hpolicy⟩ := voicePolicy_compiles s
  obtain ⟨voiceInput, haccepts, hof⟩ := applyVoiceInputCapabilities_of hpolicy
  refine ⟨policy, voiceInput, hcompiles, haccepts, fun henabled id start messages => ?_, ?_⟩
  · obtain ⟨packets, hcapture, hpackets, hall⟩ := capture_packets hof id messages start 0
    refine ⟨_, packets, startMicrophone_of hof henabled start, hcapture, hall,
      fun n packet hn => ?_, fun hrange => ?_⟩
    · obtain ⟨samples, hsize, hencode⟩ := hpackets.getElem? hn
      rw [Nat.zero_add] at hencode
      exact ⟨samples, hsize, hencode⟩
    · have hcount : ∀ k < packets.length, 0 + k < 2 ^ 64 := by
        intro k hk
        -- a frame lasts at least a nanosecond
        have hms := s.ok.frameDurationMs
        have hpos : 0 < s.frameDurationNs := by
          rw [VoiceInputSettingsFields.frameDurationNs]
          omega
        have hle : k ≤ k * s.frameDurationNs := Nat.le_mul_of_pos_right k hpos
        have htime := hrange k hk
        omega
      obtain ⟨events, d, hreceive, -⟩ := receiveAll_accepts uuid5 hpolicy hpackets make_awaits
        fun k hk => ⟨hcount k hk, hrange k hk⟩
      exact ⟨events, d, hreceive⟩
  · intro streamId earlier loud events later d d' hcheck hearlier hidle
    have hsized : ∀ f ∈ earlier ++ loud, f.Sized (s.frameSamples * 2) s.frameDurationNs := by
      intro f hf
      obtain ⟨hlength, hduration⟩ := hpolicy.size (hcheck f hf)
      exact ⟨hlength, hduration⟩
    obtain ⟨past, hinv, -, hpast, hconfig⟩ :=
      processAll_progress (EnergyVoiceActivityDetector.make_inv policy.vad)
        (make_progress policy.vad) hearlier
    have hconfig : d.config = policy.vad := hconfig
    have hroomy : d.config.Roomy (s.frameSamples * 2) s.frameDurationNs :=
      hconfig ▸ hpolicy.roomy
    have hseen : ∀ f ∈ past ++ d.retained, f.Sized (s.frameSamples * 2) s.frameDurationNs := by
      intro f hf
      rw [hpast] at hf
      exact hsized f (List.mem_append_left _ hf)
    refine ⟨fun frame hframe => ?_, fun hlength hloud hout => ?_⟩
    · obtain ⟨hbytes, hduration⟩ := hpolicy.size hframe
      rw [← hconfig]
      exact candidate_room hinv hroomy hseen ⟨hbytes, hduration⟩ hidle
    · have hstart : loud.length = d.config.speechStartFrames := by
        have hframes := hpolicy.speechStartFrames
        rw [hconfig]
        omega
      exact processAll_starts hinv hroomy hseen hidle hstart
        (fun f hf => hsized f (List.mem_append_right _ hf)) (by rwa [hconfig]) hout

end OperatorPage

end Eeveetuber
