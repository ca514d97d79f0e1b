import Mathlib.Data.Nat.Bitwise
import Eeveetuber.Domain.Identifiers
import Eeveetuber.Foundation.Text

/-!
# Frames of synthesized audio

The version-one binary WebSocket frame for synthesized audio, EVAF: a fixed header
in network byte order (`Eeveetuber.audioHeader`), the media type, and the audio.

A decoder either returns a frame or says what is wrong with the packet, and what
it returns is encoded as it was received (`Eeveetuber.decodeAudioFrame_eq_ok`). An
encoder does not take every frame: a media type may be as long as a 16-bit length
can say, but the header length counts the fixed header too. Frames whose whole
header is within the 16 bits are encoded, and decoded as they were, and no others
(`Eeveetuber.audioFrame_round_trip`).
-/

namespace Eeveetuber

open Foundation

def audioFrameMagic : Bytes := [0x45, 0x56, 0x41, 0x46]
def audioFrameVersion : ℤ := 1
def maxAudioPayloadBytes : ℤ := 16 * 1024 * 1024
def unknownDuration : ℤ := 0xFFFFFFFF
def maxU16 : ℤ := 0xFFFF
def maxU32 : ℤ := 0xFFFFFFFF
def maxU64 : ℤ := 0xFFFFFFFFFFFFFFFF

/-- `Struct("!4sBBH16s16s16s16s16sIQIIIHHII")`: magic, version, flags, header bytes, five
UUIDs, generation, event sequence, segment sequence, chunk index, sample rate, channels,
media-type length, duration, payload length. -/
def audioHeader : Layout :=
  [.bytes 4, .uint 1, .uint 1, .uint 2, .bytes 16, .bytes 16, .bytes 16, .bytes 16, .bytes 16,
    .uint 4, .uint 8, .uint 4, .uint 4, .uint 4, .uint 2, .uint 2, .uint 4, .uint 4]

theorem size_audioHeader : audioHeader.size = 124 := rfl

/-- What the codecs raise. -/
inductive CodecError where
  /-- `ValueError`: the arguments are wrong. -/
  | value (message : String)
  /-- The codec's own subclass of `ValueError`: the packet is. -/
  | frame (message : String)
  /-- `struct.error`. -/
  | struct (message : String)
deriving DecidableEq, Repr

/-- The codec's own error. -/
def CodecError.IsFrame (e : CodecError) : Prop := ∃ message, e = .frame message

/-! ### Frames -/

/-- The bits of `AudioFrameFlags`. -/
def AudioFrameFlags.finalChunk : ℕ := 1
def AudioFrameFlags.endUtterance : ℕ := 2
def AudioFrameFlags.discontinuity : ℕ := 4

def knownFlags : ℕ :=
  AudioFrameFlags.finalChunk ||| AudioFrameFlags.endUtterance ||| AudioFrameFlags.discontinuity

def validateUint (name : String) (maximum minimum value : ℤ) : Except String Unit :=
  raiseIf (¬(minimum ≤ value ∧ value ≤ maximum))
    (name ++ " must be between " ++ toString minimum ++ " and " ++ toString maximum)

theorem validateUint_eq_ok {name : String} {maximum minimum value : ℤ} :
    validateUint name maximum minimum value = .ok () ↔ minimum ≤ value ∧ value ≤ maximum :=
  raiseIf_eq_ok.trans not_not

/-- The fields of an audio frame. -/
structure AudioFrameFields where
  sessionId : UUID
  eventId : UUID
  correlationId : UUID
  turnId : UUID
  segmentId : UUID
  generation : ℤ
  eventSequence : ℤ
  segmentSequence : ℤ
  chunkIndex : ℤ
  sampleRateHz : ℤ
  channels : ℤ
  mediaType : Text
  audio : Bytes
  durationMs : Option ℤ := none
  flags : ℕ := 0
deriving DecidableEq

/-- `"audio/"`. -/
def audioMime : Text := ['a', 'u', 'd', 'i', 'o', '/']

/-- The checks of a media type. -/
def validateMediaType (mediaType : Text) : Except String Unit := do
  let mediaBytes ← orRaise "media_type must be ASCII" (encodeAscii mediaType)
  raiseIf (mediaBytes = [] ∨ maxU16 < mediaBytes.length ∨
      audioMime.isPrefixOf mediaType = false ∨ mediaType.any isSpace = true)
    "media_type must be a non-blank audio/* MIME token"

/-- What is asked of a media type. -/
structure MediaTypeOk (mediaType : Text) : Prop where
  ascii : ∀ c ∈ mediaType, c.toNat < 128
  length_le : (mediaType.length : ℤ) ≤ maxU16
  starts : audioMime.isPrefixOf mediaType = true
  unspaced : ∀ c ∈ mediaType, isSpace c = false

theorem validateMediaType_eq_ok {mediaType : Text} :
    validateMediaType mediaType = .ok () ↔ MediaTypeOk mediaType := by
  rw [validateMediaType, except_bind_eq_ok]
  simp only [orRaise_eq_ok, raiseIf_eq_ok]
  constructor
  · rintro ⟨mediaBytes, henc, hnot⟩
    obtain ⟨hascii, -⟩ := encodeAscii_eq_some.mp henc
    simp only [not_or, Bool.not_eq_true, Bool.not_eq_false, not_lt, List.any_eq_false] at hnot
    obtain ⟨-, hlen, hstarts, hspace⟩ := hnot
    rw [length_encodeAscii henc] at hlen
    exact ⟨hascii, hlen, hstarts, hspace⟩
  · intro h
    refine ⟨_, encodeAscii_eq_some.mpr ⟨h.ascii, rfl⟩, ?_⟩
    simp only [not_or, Bool.not_eq_true, Bool.not_eq_false, not_lt, List.any_eq_false,
      List.length_map]
    refine ⟨fun hnil => ?_, h.length_le, h.starts, h.unspaced⟩
    have hstarts := h.starts
    rw [List.map_eq_nil_iff.mp hnil] at hstarts
    cases hstarts

namespace AudioFrameFields

def postInit (f : AudioFrameFields) : Except String Unit := do
  validateUint "generation" maxU32 0 f.generation
  validateUint "event_sequence" maxU64 0 f.eventSequence
  validateUint "segment_sequence" maxU32 0 f.segmentSequence
  validateUint "chunk_index" maxU32 0 f.chunkIndex
  validateUint "sample_rate_hz" maxU32 1 f.sampleRateHz
  validateUint "channels" maxU16 1 f.channels
  requireIfPresent (validateUint "duration_ms" (maxU32 - 1) 0) f.durationMs
  raiseIf (f.flags.ldiff knownFlags ≠ 0) "flags contain unsupported bits"
  validateMediaType f.mediaType
  raiseIf (maxAudioPayloadBytes < f.audio.length) "audio payload exceeds the transport limit"

/-- What the checks of a frame ask for. -/
structure Ok (f : AudioFrameFields) : Prop where
  generation : 0 ≤ f.generation ∧ f.generation ≤ maxU32
  eventSequence : 0 ≤ f.eventSequence ∧ f.eventSequence ≤ maxU64
  segmentSequence : 0 ≤ f.segmentSequence ∧ f.segmentSequence ≤ maxU32
  chunkIndex : 0 ≤ f.chunkIndex ∧ f.chunkIndex ≤ maxU32
  sampleRateHz : 1 ≤ f.sampleRateHz ∧ f.sampleRateHz ≤ maxU32
  channels : 1 ≤ f.channels ∧ f.channels ≤ maxU16
  durationMs : ∀ d ∈ f.durationMs, 0 ≤ d ∧ d ≤ maxU32 - 1
  flags : f.flags.ldiff knownFlags = 0
  mediaType : MediaTypeOk f.mediaType
  audio : (f.audio.length : ℤ) ≤ maxAudioPayloadBytes

/-- **What the checks of a frame come to.** -/
theorem postInit_eq_ok {f : AudioFrameFields} : f.postInit = .ok () ↔ f.Ok := by
  simp only [postInit, check_bind_eq_ok, validateUint_eq_ok, requireIfPresent_eq_ok,
    raiseIf_eq_ok, validateMediaType_eq_ok, not_not, not_lt]
  exact ⟨fun ⟨h₁, h₂, h₃, h₄, h₅, h₆, h₇, h₈, h₉, h₁₀⟩ =>
      ⟨h₁, h₂, h₃, h₄, h₅, h₆, h₇, h₈, h₉, h₁₀⟩,
    fun ⟨h₁, h₂, h₃, h₄, h₅, h₆, h₇, h₈, h₉, h₁₀⟩ =>
      ⟨h₁, h₂, h₃, h₄, h₅, h₆, h₇, h₈, h₉, h₁₀⟩⟩

end AudioFrameFields

/-- One chunk of synthesized audio, with its identity, its order and its media type. -/
structure AudioFrame extends AudioFrameFields where
  valid : toAudioFrameFields.postInit = .ok ()
deriving DecidableEq

namespace AudioFrame

/-- The constructor. -/
def create (f : AudioFrameFields) : Except String AudioFrame :=
  match h : f.postInit with
  | .ok () => .ok ⟨f, h⟩
  | .error e => .error e

theorem create_eq_ok {f : AudioFrameFields} {frame : AudioFrame} :
    create f = .ok frame ↔ frame.toAudioFrameFields = f := by
  unfold create
  split
  · rename_i h
    rw [Except.ok.injEq]
    constructor
    · rintro rfl
      rfl
    · rintro rfl
      rfl
  · rename_i e he
    refine iff_of_false (fun h => by cases h) ?_
    rintro rfl
    rw [frame.valid] at he
    cases he

theorem ok (frame : AudioFrame) : frame.Ok := AudioFrameFields.postInit_eq_ok.mp frame.valid

/-- No duration is the one that stands for none. -/
theorem duration_getD (frame : AudioFrame) :
    (if frame.durationMs.getD unknownDuration = unknownDuration then none
      else some (frame.durationMs.getD unknownDuration)) = frame.durationMs := by
  rcases hd : frame.durationMs with _ | d
  · rfl
  · have hle := (frame.ok.durationMs d hd).2
    refine if_neg fun heq => ?_
    rw [Option.getD_some] at heq
    rw [heq] at hle
    exact absurd hle (by decide)

end AudioFrame

/-! ### The codec -/

/-- The values of a header. -/
def headerOf (frame : AudioFrame) (mediaType : Bytes) : audioHeader.Values :=
  (audioFrameMagic, audioFrameVersion, frame.flags, audioHeader.size + mediaType.length,
    frame.sessionId.bytes, frame.eventId.bytes, frame.correlationId.bytes, frame.turnId.bytes,
    frame.segmentId.bytes, frame.generation, frame.eventSequence, frame.segmentSequence,
    frame.chunkIndex, frame.sampleRateHz, frame.channels, mediaType.length,
    frame.durationMs.getD unknownDuration, frame.audio.length, ())

/-- Serialize a frame deterministically in network byte order. -/
def encodeAudioFrame (frame : AudioFrame) : Except CodecError Bytes := do
  let mediaType ← orRaise (.value "ordinal not in range(128)") (encodeAscii frame.mediaType)
  let header ← (audioHeader.pack (headerOf frame mediaType)).mapError .struct
  return header ++ mediaType ++ frame.audio

/-- Validate and decode exactly one binary WebSocket message. -/
def decodeAudioFrame (packet : Bytes) (maxPayloadBytes : ℤ := maxAudioPayloadBytes) :
    Except CodecError AudioFrame := do
  raiseIf (maxPayloadBytes < 0) (.value "max_payload_bytes cannot be negative")
  raiseIf (packet.length < audioHeader.size)
    (.frame "audio frame is shorter than the fixed header")
  let (magic, version, rawFlags, headerBytes, sessionId, eventId, correlationId, turnId,
      segmentId, generation, eventSequence, segmentSequence, chunkIndex, sampleRateHz, channels,
      mediaTypeBytes, rawDuration, payloadBytes, ()) ←
    (audioHeader.unpackFrom packet).mapError .struct
  raiseIf (magic ≠ audioFrameMagic) (.frame "invalid audio frame magic")
  raiseIf (version ≠ audioFrameVersion)
    (.frame ("unsupported audio frame version: " ++ toString version))
  raiseIf (rawFlags.toNat.ldiff knownFlags ≠ 0) (.frame "audio frame contains unknown flag bits")
  let expectedHeaderBytes := audioHeader.size + mediaTypeBytes
  raiseIf (headerBytes ≠ expectedHeaderBytes)
    (.frame "audio frame header length is inconsistent")
  raiseIf (maxPayloadBytes < payloadBytes)
    (.frame "audio frame payload exceeds the configured limit")
  let expectedPacketBytes := headerBytes + payloadBytes
  raiseIf (packet.length ≠ expectedPacketBytes)
    (.frame ("audio frame length mismatch: expected " ++ toString expectedPacketBytes ++
      ", got " ++ toString packet.length))
  let mediaSlice := (packet.drop audioHeader.size).take (headerBytes.toNat - audioHeader.size)
  let mediaType ← orRaise (.frame "audio frame media type is not ASCII") (decodeAscii mediaSlice)
  let frame : Except String AudioFrame := do
    AudioFrame.create {
      sessionId := ← UUID.ofBytes sessionId
      eventId := ← UUID.ofBytes eventId
      correlationId := ← UUID.ofBytes correlationId
      turnId := ← UUID.ofBytes turnId
      segmentId := ← UUID.ofBytes segmentId
      generation
      eventSequence
      segmentSequence
      chunkIndex
      sampleRateHz
      channels
      mediaType
      audio := packet.drop headerBytes.toNat
      durationMs := if rawDuration = unknownDuration then none else some rawDuration
      flags := rawFlags.toNat }
  frame.mapError fun error => .frame ("invalid audio frame metadata: " ++ error)

/-! ### Which frames are encoded -/

variable {frame : AudioFrame} {packet mediaType : Bytes} {limit : ℤ}

/-- Flags without unknown bits. -/
theorem flags_lt {flags : ℕ} (h : flags.ldiff knownFlags = 0) : flags < 2 ^ 3 := by
  refine Nat.lt_pow_two_of_testBit flags fun i hi => ?_
  have hbit : (flags.ldiff knownFlags).testBit i = false := by rw [h, Nat.zero_testBit]
  have hknown : knownFlags.testBit i = false :=
    Nat.testBit_lt_two_pow (lt_of_lt_of_le (by decide : knownFlags < 2 ^ 3)
      (Nat.pow_le_pow_right (by decide) hi))
  rw [Nat.testBit_ldiff, hknown] at hbit
  simpa using hbit

/-- The whole header of a frame is within the 16 bits of its length. -/
theorem fits_headerOf (frame : AudioFrame) (h : audioHeader.size + mediaType.length ≤ maxU16) :
    audioHeader.Fits (headerOf frame mediaType) := by
  have hok := frame.ok
  have hflags := flags_lt hok.flags
  have hduration : 0 ≤ frame.durationMs.getD unknownDuration ∧
      frame.durationMs.getD unknownDuration < 256 ^ 4 := by
    rcases hd : frame.durationMs with _ | d
    · decide
    · have := hok.durationMs d hd
      simp only [maxU32, Option.getD_some] at this ⊢
      omega
  obtain ⟨hgeneration, hevent, hsegment, hchunk, hrate, hchannels, -, -, -, haudio⟩ := hok
  rw [size_audioHeader] at h
  rw [headerOf, size_audioHeader]
  simp only [maxU16, maxU32, maxU64, maxAudioPayloadBytes] at *
  simp only [audioHeader, Layout.Fits, Field.Fits, Field.InWidth, UUID.length_bytes,
    audioFrameVersion, true_and, and_true]
  refine ⟨rfl, ?_⟩
  omega

/-- The bytes of an encoded frame. -/
theorem encodeAudioFrame_eq_ok : encodeAudioFrame frame = .ok packet ↔
    ∃ mediaType header, encodeAscii frame.mediaType = some mediaType ∧
      audioHeader.pack (headerOf frame mediaType) = .ok header ∧
      header ++ mediaType ++ frame.audio = packet := by
  rw [encodeAudioFrame]
  simp only [except_bind_eq_ok, orRaise_eq_ok, mapError_eq_ok]
  constructor
  · rintro ⟨mediaType, hmedia, header, hheader, h⟩
    exact ⟨mediaType, header, hmedia, hheader, Except.ok.inj h⟩
  · rintro ⟨mediaType, header, hmedia, hheader, rfl⟩
    exact ⟨mediaType, hmedia, header, hheader, rfl⟩

/-- **Which frames are encoded**: those whose header length is within its 16 bits. -/
theorem encodeAudioFrame_isOk : (∃ packet, encodeAudioFrame frame = .ok packet) ↔
    audioHeader.size + frame.mediaType.length ≤ maxU16 := by
  have hmedia := encodeAscii_eq_some.mpr ⟨frame.ok.mediaType.ascii, rfl⟩
  constructor
  · rintro ⟨packet, h⟩
    obtain ⟨mediaType, header, hmedia, hpack, -⟩ := encodeAudioFrame_eq_ok.mp h
    have haccepts := Layout.pack_eq_ok.mp ⟨header, hpack⟩
    simp only [audioHeader, headerOf, Layout.Accepts, Field.Accepts] at haccepts
    rw [← length_encodeAscii hmedia, maxU16]
    have hheader := haccepts.2.2.2.1.2
    change (124 : ℤ) + _ < 256 ^ 2 at hheader
    change (124 : ℤ) + _ ≤ _
    omega
  · intro h
    rw [← length_encodeAscii hmedia] at h
    have hpack := (Layout.pack_fits (fits_headerOf frame h)).1
    exact ⟨_, encodeAudioFrame_eq_ok.mpr ⟨_, _, hmedia, hpack, rfl⟩⟩

/-- All that encoding raises is `struct.error`. -/
theorem encodeAudioFrame_raises :
    Raises (fun e => ∃ message, e = .struct message) (encodeAudioFrame frame) := by
  have hmedia := encodeAscii_eq_some.mpr ⟨frame.ok.mediaType.ascii, rfl⟩
  rw [encodeAudioFrame, hmedia]
  refine Raises.bind (Raises.pure _) fun mediaType _ => ?_
  exact (Raises.mapError fun _ _ => ⟨_, rfl⟩).bind fun _ _ => .pure _

/-! ### What is decoded -/

/-- What is decoded is encoded as it was received. -/
theorem encodeAudioFrame_of_decoded (h : decodeAudioFrame packet limit = .ok frame) :
    frame.audio.length ≤ limit ∧ encodeAudioFrame frame = .ok packet := by
  rw [decodeAudioFrame, raiseIf_bind_eq_ok, raiseIf_bind_eq_ok, except_bind_eq_ok] at h
  obtain ⟨hlimit, hshort, ⟨magic, version, rawFlags, headerBytes, sessionId, eventId,
    correlationId, turnId, segmentId, generation, eventSequence, segmentSequence, chunkIndex,
    sampleRateHz, channels, mediaTypeBytes, rawDuration, payloadBytes, ⟨⟩⟩, hunpack, h⟩ := h
  simp only [raiseIf_bind_eq_ok, not_not, not_lt] at h
  obtain ⟨rfl, rfl, hflags, hheader, hpayload, hlength, h⟩ := h
  simp only [except_bind_eq_ok, orRaise_eq_ok, mapError_eq_ok, UUID.ofBytes_eq_ok,
    AudioFrame.create_eq_ok] at h
  obtain ⟨mediaType, hmedia, sessionId, rfl, eventId, rfl, correlationId, rfl, turnId, rfl,
    segmentId, rfl, hframe⟩ := h
  -- the fixed header is what is packed of its fields, and each of them fits
  obtain ⟨hpack, hfits, hsize⟩ := Layout.pack_unpackFrom (mapError_eq_ok.mp hunpack)
  obtain ⟨-, -, ⟨hflags₀, -⟩, -, -, -, -, -, -, -, -, -, -, -, -, ⟨hmedia₀, -⟩, -,
    ⟨hpayload₀, -⟩, -⟩ := hfits
  obtain ⟨flags, rfl⟩ := Int.eq_ofNat_of_zero_le hflags₀
  obtain ⟨mediaLength, rfl⟩ := Int.eq_ofNat_of_zero_le hmedia₀
  obtain ⟨payloadLength, rfl⟩ := Int.eq_ofNat_of_zero_le hpayload₀
  subst hheader
  have hheader : (audioHeader.size + mediaLength : ℤ).toNat = audioHeader.size + mediaLength := by
    omega
  have hlength : (packet.length : ℤ) = audioHeader.size + mediaLength + payloadLength := hlength
  rw [hheader, Nat.add_sub_cancel_left] at hmedia
  -- the media type and the payload fill the packet, so that both slices are whole
  have hslice : ((packet.drop audioHeader.size).take mediaLength).length = mediaLength := by
    rw [List.length_take, List.length_drop]
    omega
  have haudio : (packet.drop (audioHeader.size + mediaLength)).length = payloadLength := by
    rw [List.length_drop]
    omega
  have hduration : (if rawDuration = unknownDuration then none else some rawDuration).getD
      unknownDuration = rawDuration := by
    split_ifs with hunknown
    · exact hunknown.symm
    · rfl
  rw [hheader, Int.toNat_natCast] at hframe
  obtain ⟨fields, hvalid⟩ := frame
  subst hframe
  refine ⟨by rwa [haudio], encodeAudioFrame_eq_ok.mpr
    ⟨_, packet.take audioHeader.size, encodeAscii_iff.mpr hmedia, ?_, ?_⟩⟩
  · rw [headerOf, hslice]
    dsimp only
    rw [hduration, haudio]
    exact hpack
  · dsimp only
    rw [List.append_assoc, ← List.drop_drop, List.take_append_drop, List.take_append_drop]

/-- What is encoded is decoded as it was. -/
theorem decodeAudioFrame_of_encoded (h : encodeAudioFrame frame = .ok packet)
    (hlimit : frame.audio.length ≤ limit) : decodeAudioFrame packet limit = .ok frame := by
  obtain ⟨mediaType, header, hmedia, hpack, rfl⟩ := encodeAudioFrame_eq_ok.mp h
  have hbound := encodeAudioFrame_isOk.mp ⟨_, h⟩
  rw [← length_encodeAscii hmedia] at hbound
  obtain ⟨hpack', hlen, -⟩ := Layout.pack_fits (fits_headerOf frame hbound)
  have hunpack := Layout.unpackFrom_append (fits_headerOf frame hbound)
  obtain rfl := Except.ok.inj (hpack.symm.trans hpack')
  set header := audioHeader.write (headerOf frame mediaType)
  have hheader : (audioHeader.size + mediaType.length : ℤ).toNat =
      audioHeader.size + mediaType.length := by omega
  have hslice : ((header ++ (mediaType ++ frame.audio)).drop audioHeader.size).take
      mediaType.length = mediaType := by
    rw [← hlen, List.drop_left, List.take_left]
  have haudio : (header ++ (mediaType ++ frame.audio)).drop
      (audioHeader.size + mediaType.length) = frame.audio := by
    rw [← hlen, ← List.drop_drop, List.drop_left, List.drop_left]
  have hduration := frame.duration_getD
  rw [List.append_assoc]
  refine raiseIf_bind_eq_ok.mpr ⟨by omega, raiseIf_bind_eq_ok.mpr ⟨by simp [hlen], ?_⟩⟩
  refine except_bind_eq_ok.mpr ⟨_, mapError_eq_ok.mpr (hunpack _), ?_⟩
  dsimp only [headerOf]
  rw [hheader, Nat.add_sub_cancel_left, hslice, haudio, hduration]
  simp only [raiseIf_bind_eq_ok, not_not, not_lt]
  refine ⟨trivial, trivial, frame.ok.flags, trivial, hlimit, ?_, ?_⟩
  · simp [hlen, add_assoc]
  · refine except_bind_eq_ok.mpr ⟨_, orRaise_eq_ok.mpr (encodeAscii_iff.mp hmedia), ?_⟩
    simp only [mapError_eq_ok, except_bind_eq_ok, UUID.ofBytes_eq_ok]
    exact ⟨_, rfl, _, rfl, _, rfl, _, rfl, _, rfl, AudioFrame.create_eq_ok.mpr rfl⟩

/-- **What is decoded** is the encodings of the frames whose audio is within the limit. -/
theorem decodeAudioFrame_eq_ok : decodeAudioFrame packet limit = .ok frame ↔
    frame.audio.length ≤ limit ∧ encodeAudioFrame frame = .ok packet :=
  ⟨encodeAudioFrame_of_decoded, fun h => decodeAudioFrame_of_encoded h.2 h.1⟩

/-- All that decoding raises is the codec's own error. -/
theorem decodeAudioFrame_raises (hlimit : 0 ≤ limit) :
    Raises CodecError.IsFrame (decodeAudioFrame packet limit) := by
  refine (Raises.raiseIf fun h => absurd h (not_lt.mpr hlimit)).bind fun _ _ => ?_
  refine (Raises.raiseIf fun _ => ⟨_, rfl⟩).bind fun _ hlong => ?_
  -- the length was checked, so that the header can be read
  have hunpack := Layout.unpackFrom_of_le (not_lt.mp (raiseIf_eq_ok.mp hlong))
  rw [hunpack]
  refine Raises.bind (Raises.pure _) fun values _ => ?_
  refine (Raises.raiseIf fun _ => ⟨_, rfl⟩).bind fun _ _ => ?_
  refine (Raises.raiseIf fun _ => ⟨_, rfl⟩).bind fun _ _ => ?_
  refine (Raises.raiseIf fun _ => ⟨_, rfl⟩).bind fun _ _ => ?_
  refine (Raises.raiseIf fun _ => ⟨_, rfl⟩).bind fun _ _ => ?_
  refine (Raises.raiseIf fun _ => ⟨_, rfl⟩).bind fun _ _ => ?_
  refine (Raises.raiseIf fun _ => ⟨_, rfl⟩).bind fun _ _ => ?_
  refine (Raises.orRaise fun _ => ⟨_, rfl⟩).bind fun _ _ => ?_
  exact Raises.mapError fun _ _ => ⟨_, rfl⟩

/-- **The codec and its gap.** A frame is encoded, and decoded as it was, just if its media
type leaves room for the fixed header in the 16 bits of the header length. Whatever the
packet, decoding it returns a frame or raises the codec's own error, and what it returns is
encoded as it was received. -/
theorem audioFrame_round_trip (frame : AudioFrame) (packet : Bytes) :
    ((∃ encoded, encodeAudioFrame frame = .ok encoded ∧ decodeAudioFrame encoded = .ok frame) ↔
      audioHeader.size + frame.mediaType.length ≤ maxU16) ∧
    Raises CodecError.IsFrame (decodeAudioFrame packet) ∧
    ∀ decoded, decodeAudioFrame packet = .ok decoded → encodeAudioFrame decoded = .ok packet := by
  refine ⟨?_, decodeAudioFrame_raises (by decide), fun decoded h => (decodeAudioFrame_eq_ok.mp h).2⟩
  rw [← encodeAudioFrame_isOk]
  constructor
  · rintro ⟨encoded, h, -⟩
    exact ⟨encoded, h⟩
  · rintro ⟨encoded, h⟩
    exact ⟨encoded, h, decodeAudioFrame_eq_ok.mpr ⟨frame.ok.audio, h⟩⟩

/-- A media type of `n` more characters than it needs. -/
def paddedMediaType (n : ℕ) : Text := audioMime ++ List.replicate n 'x'

theorem length_paddedMediaType (n : ℕ) : (paddedMediaType n).length = 6 + n := by
  rw [paddedMediaType, List.length_append, List.length_replicate]
  rfl

theorem mediaTypeOk_paddedMediaType {n : ℕ} (h : 6 + n ≤ 65535) :
    MediaTypeOk (paddedMediaType n) := by
  have hmime : audioMime.all (fun c => decide (c.toNat < 128 ∧ isSpace c = false)) = true := by
    decide
  have hchar : ∀ c ∈ paddedMediaType n, c.toNat < 128 ∧ isSpace c = false := by
    intro c hc
    rcases List.mem_append.mp hc with hc | hc
    · exact of_decide_eq_true (List.all_eq_true.mp hmime c hc)
    · rw [List.eq_of_mem_replicate hc]
      decide
  refine ⟨fun c hc => (hchar c hc).1, ?_, ?_, fun c hc => (hchar c hc).2⟩
  · rw [length_paddedMediaType, maxU16]
    omega
  · exact List.isPrefixOf_iff_prefix.mpr (List.prefix_append _ _)

/-- A frame that passes its own checks. -/
def longFrame : AudioFrame where
  sessionId := 1
  eventId := 2
  correlationId := 3
  turnId := 4
  segmentId := 5
  generation := 0
  eventSequence := 0
  segmentSequence := 0
  chunkIndex := 0
  sampleRateHz := 24000
  channels := 1
  mediaType := paddedMediaType 65406
  audio := [0, 0]
  valid := AudioFrameFields.postInit_eq_ok.mpr ⟨by decide, by decide, by decide, by decide,
    by decide, by decide, by simp, by decide +kernel, mediaTypeOk_paddedMediaType (by decide),
    by decide⟩

/-- A media type of 65412 characters is valid, and its frame cannot be packed. -/
theorem longFrame_not_encoded :
    longFrame.mediaType.length ≤ maxU16 ∧
      ∃ message, encodeAudioFrame longFrame = .error (.struct message) := by
  have hlength : longFrame.mediaType.length = 65412 := length_paddedMediaType 65406
  refine ⟨longFrame.ok.mediaType.length_le, ?_⟩
  rcases h : encodeAudioFrame longFrame with e | packet
  · obtain ⟨message, rfl⟩ := encodeAudioFrame_raises e h
    exact ⟨message, rfl⟩
  · have hroom := encodeAudioFrame_isOk.mp ⟨packet, h⟩
    rw [hlength, size_audioHeader, maxU16] at hroom
    exact absurd hroom (by decide)

end Eeveetuber
