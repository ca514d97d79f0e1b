import Eeveetuber.Api.AudioFrames
import Eeveetuber.Media.Pcm

/-!
# Frames of microphone audio

The version-one binary WebSocket frame for live microphone PCM, EVIF: a header of
fixed width (`Eeveetuber.voiceInputHeader`) and the samples. Nothing in it is left
open: the bytes that say nothing have to be zero, and the lengths have to be those
of the packet. So a packet is accepted just if it is the encoding of a valid frame
whose payload is within the limit (`Eeveetuber.voiceInputFrame_round_trip`).
-/

namespace Eeveetuber

open Foundation

def voiceInputFrameMagic : Bytes := [0x45, 0x56, 0x49, 0x46]
def voiceInputFrameVersion : ℤ := 1
def voiceInputFrameFixedHeaderBytes : ℕ := 52
def voiceInputEncodingPcmS16le : ℤ := 1

/-- `Struct("!4sBBH16sQQIHBBI")`: magic, version, flags, header bytes, stream UUID, sequence,
capture time, sample rate, channels, encoding, reserved byte, payload length. -/
def voiceInputHeader : Layout :=
  [.bytes 4, .uint 1, .uint 1, .uint 2, .bytes 16, .uint 8, .uint 8, .uint 4, .uint 2, .uint 1,
    .uint 1, .uint 4]

theorem size_voiceInputHeader : voiceInputHeader.size = voiceInputFrameFixedHeaderBytes := rfl

/-! ### Frames -/

/-- The fields of a microphone frame. -/
structure VoiceInputFrameFields where
  streamId : UUID
  sequence : ℤ
  capturedAtMonotonicNs : ℤ
  format : PcmFormat
  pcm : Bytes
deriving DecidableEq

namespace VoiceInputFrameFields

def postInit (f : VoiceInputFrameFields) : Except String Unit := do
  validateUint "sequence" maxU64 0 f.sequence
  validateUint "captured_at_monotonic_ns" maxU64 0 f.capturedAtMonotonicNs
  raiseIf (f.format.encoding ≠ .s16Le) "voice input encoding is unsupported"
  raiseIf (f.pcm = []) "voice input PCM cannot be empty"
  raiseIf (maxU32 < f.pcm.length) "voice input PCM exceeds the format limit"
  raiseIf (f.pcm.length % f.format.bytesPerSampleFrame ≠ 0)
    "voice input PCM must contain complete sample frames"

/-- What the checks of a microphone frame ask for. -/
structure Ok (f : VoiceInputFrameFields) : Prop where
  sequence : 0 ≤ f.sequence ∧ f.sequence ≤ maxU64
  capturedAt : 0 ≤ f.capturedAtMonotonicNs ∧ f.capturedAtMonotonicNs ≤ maxU64
  pcm_ne_nil : f.pcm ≠ []
  length_le : (f.pcm.length : ℤ) ≤ maxU32
  complete : f.pcm.length % f.format.bytesPerSampleFrame = 0

theorem postInit_eq_ok {f : VoiceInputFrameFields} : f.postInit = .ok () ↔ f.Ok := by
  simp only [postInit, check_bind_eq_ok, validateUint_eq_ok, raiseIf_eq_ok, not_not, not_lt]
  constructor
  · rintro ⟨h₁, h₂, -, h₄, h₅, h₆⟩
    exact ⟨h₁, h₂, h₄, h₅, h₆⟩
  · rintro ⟨h₁, h₂, h₄, h₅, h₆⟩
    exact ⟨h₁, h₂, trivial, h₄, h₅, h₆⟩

end VoiceInputFrameFields

/-- One validated, immutable microphone frame. -/
structure VoiceInputFrame extends VoiceInputFrameFields where
  valid : toVoiceInputFrameFields.postInit = .ok ()
deriving DecidableEq

namespace VoiceInputFrame

/-- The constructor. -/
def create (f : VoiceInputFrameFields) : Except String VoiceInputFrame :=
  match h : f.postInit with
  | .ok () => .ok ⟨f, h⟩
  | .error e => .error e

theorem create_eq_ok {f : VoiceInputFrameFields} {frame : VoiceInputFrame} :
    create f = .ok frame ↔ frame.toVoiceInputFrameFields = f := by
  unfold create
  split
  · rename_i h
    rw [Except.ok.injEq]
    constructor
    · rintro rfl
      rfl
    · rintro rfl
      rfl
  · rename_i e he
    refine iff_of_false (fun h => by cases h) ?_
    rintro rfl
    rw [frame.valid] at he
    cases he

theorem ok (frame : VoiceInputFrame) : frame.Ok :=
  VoiceInputFrameFields.postInit_eq_ok.mp frame.valid

/-- Convert the transport value into the framework-neutral media value. -/
def toPcmFrame (frame : VoiceInputFrame) : Except String PcmFrame :=
  PcmFrame.create frame.streamId frame.sequence frame.capturedAtMonotonicNs frame.format frame.pcm

/-- A valid microphone frame is a valid PCM frame. -/
theorem toPcmFrame_eq_ok (frame : VoiceInputFrame) : ∃ f, frame.toPcmFrame = .ok f ∧
    f.streamId = frame.streamId ∧ f.sequence = frame.sequence ∧
    f.capturedAtMonotonicNs = frame.capturedAtMonotonicNs ∧ f.format = frame.format ∧
    f.pcm = frame.pcm := by
  obtain ⟨⟨hsequence, -⟩, ⟨hcaptured, -⟩, hne, -, hcomplete⟩ := frame.ok
  rw [toPcmFrame, PcmFrame.create, if_neg (not_lt.mpr hsequence), if_neg (not_lt.mpr hcaptured),
    dif_neg hne, dif_pos hcomplete]
  exact ⟨_, rfl, rfl, Int.toNat_of_nonneg hsequence, Int.toNat_of_nonneg hcaptured, rfl, rfl⟩

end VoiceInputFrame

/-! ### The codec -/

/-- The values of a header. -/
def voiceInputHeaderOf (frame : VoiceInputFrame) : voiceInputHeader.Values :=
  (voiceInputFrameMagic, voiceInputFrameVersion, (0 : ℤ), (voiceInputFrameFixedHeaderBytes : ℤ),
    frame.streamId.bytes, frame.sequence, frame.capturedAtMonotonicNs, frame.format.sampleRateHz,
    frame.format.channels, voiceInputEncodingPcmS16le, (0 : ℤ), frame.pcm.length, ())

/-- Serialize one validated microphone frame deterministically. -/
def encodeVoiceInputFrame (frame : VoiceInputFrame) : Except CodecError Bytes := do
  let header ← (voiceInputHeader.pack (voiceInputHeaderOf frame)).mapError .struct
  return header ++ frame.pcm

/-- Validate and decode exactly one binary WebSocket message. -/
def decodeVoiceInputFrame (raw : Bytes) (maxPayloadBytes : ℤ) :
    Except CodecError VoiceInputFrame := do
  (validateUint "max_payload_bytes" maxU32 0 maxPayloadBytes).mapError .value
  raiseIf (raw.length < voiceInputFrameFixedHeaderBytes)
    (.frame "voice input frame is shorter than its fixed header")
  let (magic, version, flags, headerBytes, streamId, sequence, capturedAtMonotonicNs,
      sampleRateHz, channels, encoding, reserved, payloadBytes, ()) ←
    (voiceInputHeader.unpackFrom raw).mapError .struct
  raiseIf (magic ≠ voiceInputFrameMagic) (.frame "invalid voice input frame magic")
  raiseIf (version ≠ voiceInputFrameVersion) (.frame "unsupported voice input frame version")
  raiseIf (flags ≠ 0) (.frame "voice input frame flags must be zero")
  raiseIf (headerBytes ≠ voiceInputFrameFixedHeaderBytes)
    (.frame "voice input frame header length is invalid")
  raiseIf (encoding ≠ voiceInputEncodingPcmS16le)
    (.frame "voice input frame encoding is unsupported")
  raiseIf (reserved ≠ 0) (.frame "voice input frame reserved byte must be zero")
  raiseIf (payloadBytes = 0) (.frame "voice input frame PCM cannot be empty")
  raiseIf (maxPayloadBytes < payloadBytes)
    (.frame "voice input frame payload exceeds the configured limit")
  let expectedBytes := voiceInputFrameFixedHeaderBytes + payloadBytes
  raiseIf (raw.length < expectedBytes) (.frame "voice input frame payload is truncated")
  raiseIf (expectedBytes < raw.length) (.frame "voice input frame contains trailing bytes")
  let frame : Except String VoiceInputFrame := do
    let format ← PcmFormat.create sampleRateHz channels
    VoiceInputFrame.create {
      streamId := ← UUID.ofBytes streamId
      sequence
      capturedAtMonotonicNs
      format
      pcm := raw.drop voiceInputFrameFixedHeaderBytes }
  frame.mapError fun _ => .frame "voice input frame metadata or PCM is invalid"

/-! ### What is encoded and decoded -/

variable {frame : VoiceInputFrame} {raw : Bytes} {limit : ℤ}

theorem PcmFormat.create_eq_ok {sampleRateHz channels : ℤ} {format : PcmFormat} :
    PcmFormat.create sampleRateHz channels = .ok format ↔
      sampleRateHz = format.sampleRateHz ∧ channels = format.channels := by
  unfold PcmFormat.create
  have hrate := format.rate_mem
  have hchannels := format.channels_mem
  split_ifs with hr hc
  · rw [Except.ok.injEq]
    constructor
    · rintro rfl
      exact ⟨(Int.toNat_of_nonneg (by omega)).symm, (Int.toNat_of_nonneg (by omega)).symm⟩
    · rintro ⟨rfl, rfl⟩
      rfl
  · exact iff_of_false (fun h => by cases h) (by omega)
  · exact iff_of_false (fun h => by cases h) (by omega)

theorem fits_voiceInputHeaderOf (frame : VoiceInputFrame) :
    voiceInputHeader.Fits (voiceInputHeaderOf frame) := by
  obtain ⟨hsequence, hcaptured, -, hlength, -⟩ := frame.ok
  have hrate := frame.format.rate_mem
  have hchannels := frame.format.channels_mem
  simp only [maxU32, maxU64] at hsequence hcaptured hlength
  simp only [voiceInputHeader, voiceInputHeaderOf, Layout.Fits, Field.Fits, Field.InWidth,
    UUID.length_bytes, voiceInputFrameVersion, voiceInputFrameFixedHeaderBytes,
    voiceInputEncodingPcmS16le, true_and, and_true]
  refine ⟨rfl, ?_⟩
  omega

/-- The bytes of an encoded frame. -/
theorem encodeVoiceInputFrame_eq_ok : encodeVoiceInputFrame frame = .ok raw ↔
    voiceInputHeader.write (voiceInputHeaderOf frame) ++ frame.pcm = raw := by
  obtain ⟨hpack, -⟩ := Layout.pack_fits (fits_voiceInputHeaderOf frame)
  rw [encodeVoiceInputFrame, hpack]
  constructor
  · intro h
    exact Except.ok.inj h
  · rintro rfl
    rfl

/-- Every frame is encoded. -/
theorem encodeVoiceInputFrame_isOk (frame : VoiceInputFrame) :
    ∃ raw, encodeVoiceInputFrame frame = .ok raw :=
  ⟨_, encodeVoiceInputFrame_eq_ok.mpr rfl⟩

/-- A limit that the length field cannot say is turned away, whatever the packet. -/
theorem decodeVoiceInputFrame_of_not_limit (hlimit : ¬(0 ≤ limit ∧ limit ≤ maxU32))
    (raw : Bytes) : ∃ message, decodeVoiceInputFrame raw limit = .error (.value message) := by
  rw [decodeVoiceInputFrame, validateUint, raiseIf, if_pos hlimit]
  exact ⟨_, rfl⟩

/-- What is decoded is encoded as it was received. -/
theorem encodeVoiceInputFrame_of_decoded (h : decodeVoiceInputFrame raw limit = .ok frame) :
    frame.pcm.length ≤ limit ∧ encodeVoiceInputFrame frame = .ok raw := by
  rw [decodeVoiceInputFrame, except_bind_eq_ok] at h
  obtain ⟨-, -, h⟩ := h
  rw [raiseIf_bind_eq_ok, except_bind_eq_ok] at h
  obtain ⟨hshort, ⟨magic, version, flags, headerBytes, streamId, sequence, captured, sampleRateHz,
    channels, encoding, reserved, payloadBytes, ⟨⟩⟩, hunpack, h⟩ := h
  simp only [raiseIf_bind_eq_ok, not_not, not_lt] at h
  obtain ⟨rfl, rfl, rfl, rfl, rfl, rfl, hpositive, hpayload, hshort', hlong, h⟩ := h
  simp only [mapError_eq_ok, except_bind_eq_ok, PcmFormat.create_eq_ok, UUID.ofBytes_eq_ok,
    VoiceInputFrame.create_eq_ok] at h
  obtain ⟨format, ⟨rfl, rfl⟩, streamId, rfl, hframe⟩ := h
  obtain ⟨hpack, hfits, hsize⟩ := Layout.pack_unpackFrom (mapError_eq_ok.mp hunpack)
  rw [size_voiceInputHeader] at hpack hsize
  have hpcm : (raw.drop voiceInputFrameFixedHeaderBytes).length = (payloadBytes : ℤ) := by
    have hlength : (raw.length : ℤ) = voiceInputFrameFixedHeaderBytes + payloadBytes :=
      le_antisymm hlong hshort'
    rw [List.length_drop, Nat.cast_sub hsize, hlength]
    exact add_sub_cancel_left _ _
  obtain ⟨fields, hvalid⟩ := frame
  subst hframe
  refine ⟨by rwa [hpcm], encodeVoiceInputFrame_eq_ok.mpr ?_⟩
  have hheader : voiceInputHeader.write (voiceInputHeaderOf ⟨_, hvalid⟩) =
      raw.take voiceInputFrameFixedHeaderBytes := by
    rw [voiceInputHeaderOf]
    dsimp only
    rw [hpcm]
    exact Except.ok.inj ((Layout.pack_fits hfits).1.symm.trans hpack)
  rw [hheader]
  exact List.take_append_drop _ _

/-- What is encoded is decoded as it was. -/
theorem decodeVoiceInputFrame_of_encoded (h : encodeVoiceInputFrame frame = .ok raw)
    (hpcm : frame.pcm.length ≤ limit) (hlimit : limit ≤ maxU32) :
    decodeVoiceInputFrame raw limit = .ok frame := by
  obtain rfl := encodeVoiceInputFrame_eq_ok.mp h
  obtain ⟨-, hlen, -⟩ := Layout.pack_fits (fits_voiceInputHeaderOf frame)
  have hunpack := Layout.unpackFrom_append (fits_voiceInputHeaderOf frame) frame.pcm
  rw [size_voiceInputHeader] at hlen
  set header := voiceInputHeader.write (voiceInputHeaderOf frame)
  have hok : validateUint "max_payload_bytes" maxU32 0 limit = .ok () :=
    validateUint_eq_ok.mpr ⟨by omega, hlimit⟩
  have hlength : ((header ++ frame.pcm).length : ℤ) =
      voiceInputFrameFixedHeaderBytes + frame.pcm.length := by
    rw [List.length_append, hlen]
    exact Nat.cast_add _ _
  have hdrop : (header ++ frame.pcm).drop voiceInputFrameFixedHeaderBytes = frame.pcm := by
    rw [← hlen, List.drop_left]
  rw [decodeVoiceInputFrame, hok]
  refine except_bind_eq_ok.mpr ⟨(), rfl, raiseIf_bind_eq_ok.mpr ⟨by omega, ?_⟩⟩
  refine except_bind_eq_ok.mpr ⟨_, mapError_eq_ok.mpr hunpack, ?_⟩
  dsimp only [voiceInputHeaderOf]
  rw [hdrop, hlength]
  simp only [raiseIf_bind_eq_ok, not_not, not_lt]
  refine ⟨trivial, trivial, trivial, trivial, trivial, trivial, ?_, hpcm, le_rfl, le_rfl, ?_⟩
  · simpa using frame.ok.pcm_ne_nil
  · simp only [mapError_eq_ok, except_bind_eq_ok, UUID.ofBytes_eq_ok, PcmFormat.create_eq_ok]
    exact ⟨frame.format, ⟨rfl, rfl⟩, _, rfl, VoiceInputFrame.create_eq_ok.mpr rfl⟩

/-- **What is decoded**, under a limit, is the encodings of the frames within it. -/
theorem decodeVoiceInputFrame_eq_ok (hlimit : limit ≤ maxU32) :
    decodeVoiceInputFrame raw limit = .ok frame ↔
      frame.pcm.length ≤ limit ∧ encodeVoiceInputFrame frame = .ok raw :=
  ⟨encodeVoiceInputFrame_of_decoded, fun h => decodeVoiceInputFrame_of_encoded h.2 h.1 hlimit⟩

/-- All that decoding raises under a limit is the codec's own error. -/
theorem decodeVoiceInputFrame_raises (hlimit : 0 ≤ limit ∧ limit ≤ maxU32) :
    Raises CodecError.IsFrame (decodeVoiceInputFrame raw limit) := by
  have hok : validateUint "max_payload_bytes" maxU32 0 limit = .ok () :=
    validateUint_eq_ok.mpr hlimit
  rw [decodeVoiceInputFrame, hok]
  refine Raises.bind (Raises.pure _) fun _ _ => ?_
  refine (Raises.raiseIf fun _ => ⟨_, rfl⟩).bind fun _ hlong => ?_
  -- the length was checked, so that the header can be read
  have hunpack : voiceInputHeader.unpackFrom raw = _ :=
    Layout.unpackFrom_of_le (not_lt.mp (raiseIf_eq_ok.mp hlong))
  rw [hunpack]
  refine Raises.bind (Raises.pure _) fun values _ => ?_
  refine (Raises.raiseIf fun _ => ⟨_, rfl⟩).bind fun _ _ => ?_
  refine (Raises.raiseIf fun _ => ⟨_, rfl⟩).bind fun _ _ => ?_
  refine (Raises.raiseIf fun _ => ⟨_, rfl⟩).bind fun _ _ => ?_
  refine (Raises.raiseIf fun _ => ⟨_, rfl⟩).bind fun _ _ => ?_
  refine (Raises.raiseIf fun _ => ⟨_, rfl⟩).bind fun _ _ => ?_
  refine (Raises.raiseIf fun _ => ⟨_, rfl⟩).bind fun _ _ => ?_
  refine (Raises.raiseIf fun _ => ⟨_, rfl⟩).bind fun _ _ => ?_
  refine (Raises.raiseIf fun _ => ⟨_, rfl⟩).bind fun _ _ => ?_
  refine (Raises.raiseIf fun _ => ⟨_, rfl⟩).bind fun _ _ => ?_
  refine (Raises.raiseIf fun _ => ⟨_, rfl⟩).bind fun _ _ => ?_
  exact Raises.mapError fun _ _ => ⟨_, rfl⟩

/-- **The codec is exact**, under any limit that is one: a frame within it is encoded, and
decoded as it was; decoding any packet raises the codec's own error, or returns a frame that
is encoded as it was received and is a valid PCM frame; and so the packets accepted are the
encodings of the frames within the limit. Any other limit is turned away. -/
theorem voiceInputFrame_round_trip (limit : ℤ) :
    (¬(0 ≤ limit ∧ limit ≤ maxU32) → ∀ raw, ∃ message,
      decodeVoiceInputFrame raw limit = .error (.value message)) ∧
    (0 ≤ limit ∧ limit ≤ maxU32 →
      (∀ frame : VoiceInputFrame, frame.pcm.length ≤ limit → ∃ raw,
        encodeVoiceInputFrame frame = .ok raw ∧ decodeVoiceInputFrame raw limit = .ok frame) ∧
      ∀ raw, Raises CodecError.IsFrame (decodeVoiceInputFrame raw limit) ∧
        (∀ frame, decodeVoiceInputFrame raw limit = .ok frame →
          encodeVoiceInputFrame frame = .ok raw ∧ ∃ pcmFrame, frame.toPcmFrame = .ok pcmFrame) ∧
        ((∃ frame, decodeVoiceInputFrame raw limit = .ok frame) ↔
          ∃ frame : VoiceInputFrame, frame.pcm.length ≤ limit ∧
            encodeVoiceInputFrame frame = .ok raw)) := by
  refine ⟨decodeVoiceInputFrame_of_not_limit, fun hlimit => ⟨fun frame hpcm => ?_, fun raw =>
    ⟨decodeVoiceInputFrame_raises hlimit, fun frame h => ?_, ?_⟩⟩⟩
  · obtain ⟨raw, h⟩ := encodeVoiceInputFrame_isOk frame
    exact ⟨raw, h, (decodeVoiceInputFrame_eq_ok hlimit.2).mpr ⟨hpcm, h⟩⟩
  · obtain ⟨pcmFrame, hpcmFrame, -⟩ := frame.toPcmFrame_eq_ok
    exact ⟨((decodeVoiceInputFrame_eq_ok hlimit.2).mp h).2, pcmFrame, hpcmFrame⟩
  · exact exists_congr fun frame => decodeVoiceInputFrame_eq_ok hlimit.2

/-- A frame of one sample. -/
def sampleFrame : VoiceInputFrame where
  streamId := 1
  sequence := 0
  capturedAtMonotonicNs := 0
  format := ⟨16000, 1, .s16Le, by decide, by decide⟩
  pcm := [0, 1]
  valid := by decide

/-- A limit that does not fit the length field is turned away with the packet. -/
theorem sampleFrame_not_decoded : sampleFrame.pcm.length ≤ maxU32 + 1 ∧ ∃ raw,
    encodeVoiceInputFrame sampleFrame = .ok raw ∧
      ∃ message, decodeVoiceInputFrame raw (maxU32 + 1) = .error (.value message) := by
  obtain ⟨raw, h⟩ := encodeVoiceInputFrame_isOk sampleFrame
  exact ⟨by decide, raw, h, decodeVoiceInputFrame_of_not_limit (by decide) raw⟩

end Eeveetuber
