import Mathlib.Data.Rat.Floor
import Mathlib.Tactic.Linarith
import Eeveetuber.Api.InputAudioFrames
import Eeveetuber.Foundation.Buffer
import Eeveetuber.Media.Vad

/-!
# The codecs of the operator page

The operator page reads the frames of synthesized audio and writes those of the
microphone by hand, at literal offsets into a buffer. Both are the formats of the
server: what `Eeveetuber.encodeAudioFrame` writes is read with every field as it was
(`Eeveetuber.OperatorPage.decodeAudioFrame_encoded`), and what the page writes is what
`Eeveetuber.encodeVoiceInputFrame` writes of the frame of those samples
(`Eeveetuber.OperatorPage.encodeVoiceInputFrame_eq`).
-/

namespace Eeveetuber

namespace OperatorPage

open Foundation

/-! ### Texts and numbers -/

def audioMagic : Text := ['E', 'V', 'A', 'F']
def audioVersion : ℤ := 1
def audioFixedHeaderBytes : ℕ := 124
def flagFinalChunk : ℕ := 1
def voiceInputMagic : Text := ['E', 'V', 'I', 'F']
def voiceInputVersion : ℕ := 1
def voiceInputFixedHeaderBytes : ℕ := 52
def voiceInputEncodingPcmS16le : ℕ := 1
def voiceInputChannels : ℕ := 1

/-- `String.fromCharCode(...bytes)`. -/
def fromCharCode (bs : Bytes) : Text := bs.map fun b => Char.ofNat b.toNat

/-- What the bytes from 0x80 to 0x9f are in windows-1252. -/
def windows1252 : List ℕ :=
  [0x20AC, 0x81, 0x201A, 0x0192, 0x201E, 0x2026, 0x2020, 0x2021, 0x02C6, 0x2030, 0x0160, 0x2039,
    0x0152, 0x8D, 0x017D, 0x8F, 0x90, 0x2018, 0x2019, 0x201C, 0x201D, 0x2022, 0x2013, 0x2014,
    0x02DC, 0x2122, 0x0161, 0x203A, 0x0153, 0x9D, 0x017E, 0x0178]

/-- `new TextDecoder("ascii")`: the label stands for windows-1252, which decodes every byte. -/
def decodeText (bs : Bytes) : Text :=
  bs.map fun b => Char.ofNat
    (if 0x80 ≤ b.toNat ∧ b.toNat < 0xA0 then windows1252.getD (b.toNat - 0x80) 0 else b.toNat)

/-- `value.toString(16).padStart(2, "0")`. -/
def hexByte (b : UInt8) : Text := (Nat.toDigits 16 b.toNat).leftpad 2 '0'

/-- `view.getUint…(offset, false)`. -/
def getUint (buffer : Bytes) (offset width : ℕ) : Except String ℤ :=
  return ofBigEndian (← fetch offset width buffer)

def uuidAt (buffer : Bytes) (offset : ℕ) : Except String Text :=
  return hyphenate ((← fetch offset 16 buffer).flatMap hexByte)

/-- `hex.match(/.{2}/g)`. -/
def pairs : Text → List Text
  | a :: b :: rest => [a, b] :: pairs rest
  | _ => []

def uuidBytes (value : Text) : Except String Bytes := do
  let hex := value.filter (· ≠ '-')
  raiseIf (¬(hex.length = 32 ∧ hex.all fun c => (hexValue? c).isSome))
    "invalid microphone stream UUID"
  return (pairs hex).map fun pair => UInt8.ofNat ((ofHex? pair).getD 0)

/-! ### Frames of synthesized audio -/

/-- An audio frame, as the page reads it. -/
structure AudioFrame where
  sessionId : Text
  eventId : Text
  correlationId : Text
  turnId : Text
  segmentId : Text
  generation : ℤ
  eventSequence : ℤ
  segmentSequence : ℤ
  chunkIndex : ℤ
  sampleRateHz : ℤ
  channels : ℤ
  mediaType : Text
  durationMs : Option ℤ
  flags : ℕ
  audio : Bytes
deriving DecidableEq

def decodeAudioFrame (buffer : Bytes) : Except String AudioFrame := do
  raiseIf (buffer.length < audioFixedHeaderBytes) "audio frame is truncated"
  let magic := fromCharCode (← fetch 0 4 buffer)
  raiseIf (magic ≠ audioMagic) "audio frame magic mismatch"
  raiseIf ((← getUint buffer 4 1) ≠ audioVersion) "unsupported audio frame version"
  let flags ← getUint buffer 5 1
  let headerBytes ← getUint buffer 6 2
  let mediaBytes ← getUint buffer 114 2
  let payloadBytes ← getUint buffer 120 4
  raiseIf (headerBytes ≠ audioFixedHeaderBytes + mediaBytes) "invalid header size"
  raiseIf (buffer.length ≠ headerBytes + payloadBytes) "invalid payload size"
  let duration ← getUint buffer 116 4
  return {
    sessionId := ← uuidAt buffer 8
    eventId := ← uuidAt buffer 24
    correlationId := ← uuidAt buffer 40
    turnId := ← uuidAt buffer 56
    segmentId := ← uuidAt buffer 72
    generation := ← getUint buffer 88 4
    eventSequence := ← getUint buffer 92 8
    segmentSequence := ← getUint buffer 100 4
    chunkIndex := ← getUint buffer 104 4
    sampleRateHz := ← getUint buffer 108 4
    channels := ← getUint buffer 112 2
    mediaType := decodeText (← fetch audioFixedHeaderBytes mediaBytes.toNat buffer)
    durationMs := if duration = 0xffffffff then none else some duration
    flags := flags.toNat
    audio := buffer.drop headerBytes.toNat }

/-! ### Frames of the microphone -/

/-- A number of the page, as far as a sample needs it. -/
inductive Number where
  | nan
  | infinite (negative : Bool)
  | finite (value : ℚ)
deriving DecidableEq

namespace Number

/-- `Math.min(bound, x)`. -/
def mathMin (bound : ℚ) : Number → Number
  | nan => nan
  | infinite true => infinite true
  | infinite false => finite bound
  | finite x => finite (min bound x)

/-- `Math.max(bound, x)`. -/
def mathMax (bound : ℚ) : Number → Number
  | nan => nan
  | infinite true => finite bound
  | infinite false => infinite false
  | finite x => finite (max bound x)

/-- `x < 0`. -/
def negative : Number → Bool
  | nan => false
  | infinite negative => negative
  | finite x => decide (x < 0)

/-- `x * factor`, for a factor above zero. -/
def times (factor : ℚ) : Number → Number
  | finite x => finite (x * factor)
  | x => x

/-- `Math.round(x)`. -/
def round : Number → Number
  | finite x => finite ⌊x + 1 / 2⌋
  | x => x

/-- What `view.setInt16` stores: the integer part, modulo 2^16. -/
def toInt16 : Number → ℕ
  | finite x => ((if 0 ≤ x then ⌊x⌋ else ⌈x⌉) % 2 ^ 16).toNat
  | _ => 0

end Number

/-- The body of the loop over the samples. -/
def pcmOfSample (sample : Number) : Number :=
  let clamped := (sample.mathMin 1).mathMax (-1)
  (if clamped.negative then clamped.times 0x8000 else clamped.times 0x7fff).round

def encodeVoiceInputFrame (streamId : Text) (sequence capturedAtMonotonicNs sampleRateHz : ℕ)
    (samples : List Number) : Except String Bytes := do
  let pcmBytes := samples.length * 2
  let packet := filled [] (voiceInputFixedHeaderBytes + pcmBytes)
  let packet ← storeEach 1 0 (voiceInputMagic.map fun c => bigEndian 1 c.toNat) packet
  let packet ← store 4 (bigEndian 1 voiceInputVersion) packet
  let packet ← store 5 (bigEndian 1 0) packet
  let packet ← store 6 (bigEndian 2 voiceInputFixedHeaderBytes) packet
  let packet ← store 8 (← uuidBytes streamId) packet
  let packet ← store 24 (bigEndian 8 sequence) packet
  let packet ← store 32 (bigEndian 8 capturedAtMonotonicNs) packet
  let packet ← store 40 (bigEndian 4 sampleRateHz) packet
  let packet ← store 44 (bigEndian 2 voiceInputChannels) packet
  let packet ← store 46 (bigEndian 1 voiceInputEncodingPcmS16le) packet
  let packet ← store 47 (bigEndian 1 0) packet
  let packet ← store 48 (bigEndian 4 pcmBytes) packet
  storeEach 2 voiceInputFixedHeaderBytes
    (samples.map fun sample => littleEndian 2 (pcmOfSample sample).toInt16) packet

/-! ### What the page reads -/

variable {n : ℕ} {bs buffer packet : Bytes} {offset width : ℕ}

theorem hexByte_eq (b : UInt8) : hexByte b = hexText 2 b.toNat := by
  have h : ∀ n < 256, (Nat.toDigits 16 n).leftpad 2 '0' = hexText 2 n := by decide +kernel
  exact h b.toNat b.toNat_lt

theorem getUint_eq_ok {v : ℤ} (h : offset + width ≤ buffer.length)
    (hv : (ofBigEndian ((buffer.drop offset).take width) : ℤ) = v) :
    getUint buffer offset width = .ok v := by
  rw [getUint, fetch_of_le h, ← hv]
  rfl

theorem uuidAt_eq_ok (h : offset + 16 ≤ buffer.length) {id : UUID}
    (hid : (buffer.drop offset).take 16 = id.bytes) : uuidAt buffer offset = .ok id.text := by
  have hhex : hexByte = fun b => hexText 2 b.toNat := funext hexByte_eq
  rw [uuidAt, fetch_of_le h, hid, UUID.text, show (32 : ℕ) = 2 * 16 from rfl, hexText_bigEndian,
    ← hhex]
  rfl

/-- The page decodes ASCII as what it is. -/
theorem decodeText_ascii {t : Text} (h : encodeAscii t = some bs) : decodeText bs = t := by
  obtain ⟨hlt, ht⟩ := decodeAscii_eq_some.mp (encodeAscii_iff.mp h)
  rw [← ht, decodeText]
  refine List.map_congr_left fun b hb => ?_
  rw [if_neg]
  have := hlt b hb
  omega

/-- A frame of the server, as the page should read it. -/
def AudioFrame.ofServer (frame : Eeveetuber.AudioFrame) : AudioFrame where
  sessionId := frame.sessionId.text
  eventId := frame.eventId.text
  correlationId := frame.correlationId.text
  turnId := frame.turnId.text
  segmentId := frame.segmentId.text
  generation := frame.generation
  eventSequence := frame.eventSequence
  segmentSequence := frame.segmentSequence
  chunkIndex := frame.chunkIndex
  sampleRateHz := frame.sampleRateHz
  channels := frame.channels
  mediaType := frame.mediaType
  durationMs := frame.durationMs
  flags := frame.flags
  audio := frame.audio

/-- **The page reads what the server writes.** -/
theorem decodeAudioFrame_encoded {frame : Eeveetuber.AudioFrame}
    (h : encodeAudioFrame frame = .ok packet) :
    decodeAudioFrame packet = .ok (.ofServer frame) := by
  obtain ⟨mediaType, header, hmedia, hpack, rfl⟩ := encodeAudioFrame_eq_ok.mp h
  have hroom := encodeAudioFrame_isOk.mp ⟨_, h⟩
  rw [← length_encodeAscii hmedia] at hroom
  obtain ⟨hpack', hlen, hread⟩ := Layout.pack_fits (fits_headerOf frame hroom)
  obtain rfl := Except.ok.inj (hpack.symm.trans hpack')
  set header := audioHeader.write (headerOf frame mediaType) with hheader
  -- the fields one after another, each read back as it was written
  have hread := hread (mediaType ++ frame.audio)
  have hsize : (header ++ (mediaType ++ frame.audio)).length =
      124 + mediaType.length + frame.audio.length := by
    rw [List.length_append, List.length_append, hlen, size_audioHeader, Nat.add_assoc]
  have hmediaSlice : ((header ++ (mediaType ++ frame.audio)).drop 124).take mediaType.length =
      mediaType := by
    rw [← size_audioHeader, ← hlen, List.drop_left, List.take_left]
  have haudio : (header ++ (mediaType ++ frame.audio)).drop (124 + mediaType.length) =
      frame.audio := by
    rw [← size_audioHeader, ← hlen, ← List.drop_drop, List.drop_left, List.drop_left]
  rw [List.append_assoc]
  set packet := header ++ (mediaType ++ frame.audio) with hpacket
  simp only [audioHeader, Layout.read, Field.read, Field.width, List.drop_drop, headerOf,
    Prod.mk.injEq, Nat.reduceAdd] at hread
  obtain ⟨hmagic, hversion, hflags, hheaderBytes, hsession, hevent, hcorrelation, hturn, hsegment,
    hgeneration, hsequence, hsegmentSequence, hchunk, hrate, hchannels, hmediaBytes, hduration,
    hpayload, -⟩ := hread
  have huint : ∀ {offset width : ℕ} {v : ℤ}, offset + width ≤ 124 →
      (ofBigEndian ((packet.drop offset).take width) : ℤ) = v →
      getUint packet offset width = .ok v := fun hle hv => getUint_eq_ok (by omega) hv
  have huuid : ∀ {offset : ℕ} {id : UUID}, offset + 16 ≤ 124 →
      (packet.drop offset).take 16 = id.bytes → uuidAt packet offset = .ok id.text :=
    fun hle hid => uuidAt_eq_ok (by omega) hid
  have hfetch : fetch 0 4 packet = .ok audioFrameMagic := by
    rw [fetch_of_le (by omega), List.drop_zero, hmagic]
  have hfetch' : fetch 124 mediaType.length packet = .ok mediaType := by
    rw [fetch_of_le (by omega), hmediaSlice]
  -- `getUint` reads a natural number
  change _ = (124 : ℤ) + mediaType.length at hheaderBytes
  have hheaderNat : ((124 : ℤ) + mediaType.length).toNat = 124 + mediaType.length := by omega
  have hknown : (if frame.durationMs.getD unknownDuration = 0xffffffff then none
      else some (frame.durationMs.getD unknownDuration)) = frame.durationMs :=
    frame.duration_getD
  rw [decodeAudioFrame]
  -- from here on line by line, as `decodeAudioFrame` goes through the packet
  refine raiseIf_bind_eq_ok.mpr ⟨by simp only [audioFixedHeaderBytes]; omega, ?_⟩
  refine except_bind_eq_ok.mpr ⟨_, hfetch, raiseIf_bind_eq_ok.mpr ⟨by decide, ?_⟩⟩
  refine except_bind_eq_ok.mpr ⟨_, huint (by decide) hversion, ?_⟩
  refine raiseIf_bind_eq_ok.mpr ⟨by decide, ?_⟩
  refine except_bind_eq_ok.mpr ⟨_, huint (by decide) hflags, ?_⟩
  refine except_bind_eq_ok.mpr ⟨_, huint (by decide) hheaderBytes, ?_⟩
  refine except_bind_eq_ok.mpr ⟨_, huint (by decide) hmediaBytes, ?_⟩
  refine except_bind_eq_ok.mpr ⟨_, huint (by decide) hpayload, ?_⟩
  refine raiseIf_bind_eq_ok.mpr ⟨not_not.mpr rfl, raiseIf_bind_eq_ok.mpr ⟨by omega, ?_⟩⟩
  refine except_bind_eq_ok.mpr ⟨_, huint (by decide) hduration, ?_⟩
  refine except_bind_eq_ok.mpr ⟨_, huuid (by decide) hsession, ?_⟩
  refine except_bind_eq_ok.mpr ⟨_, huuid (by decide) hevent, ?_⟩
  refine except_bind_eq_ok.mpr ⟨_, huuid (by decide) hcorrelation, ?_⟩
  refine except_bind_eq_ok.mpr ⟨_, huuid (by decide) hturn, ?_⟩
  refine except_bind_eq_ok.mpr ⟨_, huuid (by decide) hsegment, ?_⟩
  refine except_bind_eq_ok.mpr ⟨_, huint (by decide) hgeneration, ?_⟩
  refine except_bind_eq_ok.mpr ⟨_, huint (by decide) hsequence, ?_⟩
  refine except_bind_eq_ok.mpr ⟨_, huint (by decide) hsegmentSequence, ?_⟩
  refine except_bind_eq_ok.mpr ⟨_, huint (by decide) hchunk, ?_⟩
  refine except_bind_eq_ok.mpr ⟨_, huint (by decide) hrate, ?_⟩
  refine except_bind_eq_ok.mpr ⟨_, huint (by decide) hchannels, ?_⟩
  refine except_bind_eq_ok.mpr ⟨_, hfetch', ?_⟩
  rw [hheaderNat, haudio, hknown, decodeText_ascii hmedia]
  rfl

/-! ### What the page writes -/

/-- A sample, clamped to [-1, 1] and rounded to a signed number of sixteen bits. -/
def pcmOf : Number → ℤ
  | .nan => 0
  | .infinite true => -32768
  | .infinite false => 32767
  | .finite x => if x < 0 then ⌊max (-1) x * 32768 + 1 / 2⌋ else ⌊min 1 x * 32767 + 1 / 2⌋

theorem pcmOf_bounds (sample : Number) : -32768 ≤ pcmOf sample ∧ pcmOf sample ≤ 32767 := by
  rcases sample with _ | _ | x
  · decide
  · rename_i negative
    rcases negative <;> decide
  · rw [pcmOf]
    split_ifs with hx
    · have hlow : (-1 : ℚ) ≤ max (-1) x := le_max_left _ _
      have hhigh : max (-1) x ≤ 0 := max_le (by norm_num) hx.le
      refine ⟨Int.le_floor.mpr ?_, Int.le_of_lt_add_one (Int.floor_lt.mpr ?_)⟩
      · push_cast
        linarith
      · push_cast
        linarith
    · have hlow : (0 : ℚ) ≤ min 1 x := le_min (by norm_num) (not_lt.mp hx)
      have hhigh : min 1 x ≤ 1 := min_le_left _ _
      refine ⟨Int.le_floor.mpr ?_, Int.le_of_lt_add_one (Int.floor_lt.mpr ?_)⟩
      · push_cast
        linarith
      · push_cast
        linarith

/-- The body of the loop over the samples clamps and rounds. -/
theorem pcmOfSample_eq (sample : Number) :
    pcmOfSample sample = .nan ∧ pcmOf sample = 0 ∨ pcmOfSample sample = .finite (pcmOf sample) := by
  rcases sample with _ | negative | x
  · exact Or.inl ⟨rfl, rfl⟩
  · refine Or.inr ?_
    rcases negative <;> decide +kernel
  · refine Or.inr ?_
    by_cases hx : x < 0
    · have hmin : min 1 x = x := min_eq_right (hx.le.trans zero_le_one)
      have hneg : decide (max (-1) x < 0) = true := decide_eq_true (max_lt (by norm_num) hx)
      rw [pcmOfSample, Number.mathMin, hmin, Number.mathMax, Number.negative, hneg, pcmOf,
        if_pos hx]
      rfl
    · have hmin : (0 : ℚ) ≤ min 1 x := le_min zero_le_one (not_lt.mp hx)
      have hmax : max (-1) (min 1 x) = min 1 x := max_eq_right (le_trans (by norm_num) hmin)
      have hpos : decide (min 1 x < 0) = false := decide_eq_false (not_lt.mpr hmin)
      rw [pcmOfSample, Number.mathMin, Number.mathMax, hmax, Number.negative, hpos, pcmOf,
        if_neg hx]
      rfl

/-- What is stored of a sample. -/
theorem toInt16_pcmOfSample (sample : Number) :
    (pcmOfSample sample).toInt16 = (pcmOf sample % 2 ^ 16).toNat := by
  rcases pcmOfSample_eq sample with ⟨hnan, hzero⟩ | hfinite
  · rw [hnan, hzero]
    rfl
  · rw [hfinite]
    simp only [Number.toInt16, Int.floor_intCast, Int.ceil_intCast, ite_self]

/-- The bytes of a signed number of sixteen bits, the low one first. -/
def pcmBytesOf (value : ℤ) : Bytes := littleEndian 2 (value % 2 ^ 16).toNat

theorem length_pcmBytesOf {values : List ℤ} :
    (values.flatMap pcmBytesOf).length = values.length * 2 := by
  simp [List.length_flatMap, pcmBytesOf]

/-- A sample is read from its two bytes. -/
theorem sampleOf_pcmBytes {v : ℤ} (h : -32768 ≤ v ∧ v ≤ 32767) :
    sampleOf (UInt8.ofNat (v % 2 ^ 16).toNat) (UInt8.ofNat ((v % 2 ^ 16).toNat / 256)) = v := by
  have hmod : v % 2 ^ 16 = v ∨ v % 2 ^ 16 = v + 65536 := by omega
  have hlt : v % 2 ^ 16 < 65536 := Int.emod_lt_of_pos v (by norm_num)
  obtain ⟨u, hu⟩ := Int.eq_ofNat_of_zero_le (Int.emod_nonneg v (by norm_num : (2 : ℤ) ^ 16 ≠ 0))
  rw [hu, Int.toNat_natCast]
  rw [hu] at hmod hlt
  have hlow : (UInt8.ofNat u).toNat = u % 256 := UInt8.toNat_ofNat'
  have hhigh : (UInt8.ofNat (u / 256)).toNat = u / 256 % 256 := UInt8.toNat_ofNat'
  have hbytes : ((u % 256 : ℕ) : ℤ) + 256 * ((u / 256 % 256 : ℕ) : ℤ) = u := by omega
  unfold sampleOf
  rw [hlow, hhigh, hbytes]
  rcases hmod with hmod | hmod
  · rw [if_pos (by omega), hmod]
  · rw [if_neg (by omega), hmod, add_sub_cancel_right]

/-- The samples that are read from the bytes of some. -/
theorem samples_pcmBytesOf {values : List ℤ} (h : ∀ v ∈ values, -32768 ≤ v ∧ v ≤ 32767) :
    Eeveetuber.samples (values.flatMap pcmBytesOf) = values := by
  induction values with
  | nil => rfl
  | cons v values ih =>
    have hsample := sampleOf_pcmBytes (h v List.mem_cons_self)
    rw [List.flatMap_cons, pcmBytesOf, littleEndian, littleEndian, littleEndian, List.cons_append,
      List.cons_append, List.nil_append, Eeveetuber.samples, hsample,
      ih fun w hw => h w (List.mem_cons_of_mem _ hw)]

/-- The page writes the bytes of an identifier. -/
theorem uuidBytes_text (id : UUID) : uuidBytes id.text = .ok id.bytes := by
  have hpairs : ∀ bs : Bytes, (pairs (bs.flatMap fun b => hexText 2 b.toNat)).map
      (fun pair => UInt8.ofNat ((ofHex? pair).getD 0)) = bs := by
    intro bs
    induction bs with
    | nil => rfl
    | cons b bs ih =>
      have hpair : pairs (hexText 2 b.toNat ++ bs.flatMap fun b => hexText 2 b.toNat) =
          hexText 2 b.toNat :: pairs (bs.flatMap fun b => hexText 2 b.toNat) := rfl
      have hlt : b.toNat < 16 ^ 2 := b.toNat_lt
      rw [List.flatMap_cons, hpair, List.map_cons, ih, ofHex_hexText, Nat.mod_eq_of_lt hlt,
        Option.getD_some, UInt8.ofNat_toNat]
  have hdigits : (hexText 32 id.toNat).all (fun c => (hexValue? c).isSome) = true :=
    List.all_eq_true.mpr fun c hc => hexText_isDigit c hc
  rw [uuidBytes, UUID.text, filter_hyphenate UUID.not_mem_hexText]
  refine raiseIf_bind_eq_ok.mpr ⟨not_not.mpr ⟨length_hexText, hdigits⟩, ?_⟩
  rw [show (32 : ℕ) = 2 * 16 from rfl, hexText_bigEndian, hpairs]
  rfl

/-- The packet of the microphone. -/
def voiceInputPacket (id : UUID) (sequence captured rate : ℕ) (values : List ℤ) : Bytes :=
  voiceInputFrameMagic ++ (bigEndian 1 1 ++ (bigEndian 1 0 ++ (bigEndian 2 52 ++ (id.bytes ++
    (bigEndian 8 sequence ++ (bigEndian 8 captured ++ (bigEndian 4 rate ++ (bigEndian 2 1 ++
      (bigEndian 1 1 ++ (bigEndian 1 0 ++ (bigEndian 4 (values.length * 2) ++
        values.flatMap pcmBytesOf)))))))))))

/-- The stores fill the packet from its start to its end. -/
theorem encodeVoiceInputFrame_text (id : UUID) (sequence captured rate : ℕ)
    (samples : List Number) : encodeVoiceInputFrame id.text sequence captured rate samples =
      .ok (voiceInputPacket id sequence captured rate (samples.map pcmOf)) := by
  have hmagic : (voiceInputMagic.map fun c => bigEndian 1 c.toNat).flatten =
      voiceInputFrameMagic := by decide
  have hwidth : ∀ item ∈ voiceInputMagic.map fun c => bigEndian 1 c.toNat, item.length = 1 := by
    decide
  have hitems : (samples.map fun sample => littleEndian 2 (pcmOfSample sample).toInt16) =
      (samples.map pcmOf).map pcmBytesOf := by
    rw [List.map_map]
    refine List.map_congr_left fun sample _ => ?_
    rw [toInt16_pcmOfSample]
    rfl
  have hwidth' : ∀ item ∈ (samples.map pcmOf).map pcmBytesOf, item.length = 2 := by
    intro item hitem
    obtain ⟨v, -, rfl⟩ := List.mem_map.mp hitem
    exact length_littleEndian
  rw [encodeVoiceInputFrame, uuidBytes_text, hitems]
  have hstart : voiceInputMagic.length * 1 ≤ voiceInputFixedHeaderBytes + samples.length * 2 :=
    Nat.le_trans (by decide) (Nat.le_add_right _ _)
  refine except_bind_eq_ok.mpr ⟨_, storeEach_filled rfl hwidth (by simpa using hstart), ?_⟩
  rw [hmagic, List.length_map]
  -- what is left to fill behind the magic
  have hroom : voiceInputFixedHeaderBytes + samples.length * 2 - voiceInputMagic.length * 1 =
    48 + samples.length * 2 := by
    rw [show voiceInputMagic.length = 4 from rfl, voiceInputFixedHeaderBytes]
    omega
  rw [hroom]
  refine except_bind_eq_ok.mpr ⟨_, store_filled rfl (by simp; omega), ?_⟩
  refine except_bind_eq_ok.mpr ⟨_, store_filled rfl (by simp; omega), ?_⟩
  refine except_bind_eq_ok.mpr ⟨_, store_filled rfl (by simp; omega), ?_⟩
  refine except_bind_eq_ok.mpr ⟨_, rfl, ?_⟩
  refine except_bind_eq_ok.mpr ⟨_, store_filled rfl (by simp; omega), ?_⟩
  refine except_bind_eq_ok.mpr ⟨_, store_filled rfl (by simp; omega), ?_⟩
  refine except_bind_eq_ok.mpr ⟨_, store_filled rfl (by simp; omega), ?_⟩
  refine except_bind_eq_ok.mpr ⟨_, store_filled rfl (by simp; omega), ?_⟩
  refine except_bind_eq_ok.mpr ⟨_, store_filled rfl (by simp; omega), ?_⟩
  refine except_bind_eq_ok.mpr ⟨_, store_filled rfl (by simp; omega), ?_⟩
  refine except_bind_eq_ok.mpr ⟨_, store_filled rfl (by simp; omega), ?_⟩
  refine except_bind_eq_ok.mpr ⟨_, store_filled rfl (by simp; omega), ?_⟩
  -- the samples are stored last and end where the packet ends
  refine (storeEach_filled ?_ hwidth' ?_).trans ?_
  · rfl
  · simp
    omega
  · have hdone : 48 + samples.length * 2 - 1 - 1 - 2 - 16 - 8 - 8 - 4 - 2 - 1 - 1 - 4 -
        samples.length * 2 = 0 := by omega
    simp only [length_bigEndian, UUID.length_bytes, List.length_map, hdone, filled_zero]
    simp only [voiceInputPacket, List.append_assoc, List.nil_append, List.length_map]
    rfl

theorem length_voiceInputPacket (id : UUID) (sequence captured rate : ℕ) (values : List ℤ) :
    (voiceInputPacket id sequence captured rate values).length = 52 + values.length * 2 := by
  simp only [voiceInputPacket, List.length_append, length_bigEndian, UUID.length_bytes,
    length_pcmBytesOf]
  change 4 + _ = _
  omega

/-- **The page writes what the server writes** of a frame of one channel, from samples that
are those of the frame when they are clamped and rounded. -/
theorem encodeVoiceInputFrame_eq (frame : VoiceInputFrame) {samples : List Number}
    (hchannels : frame.format.channels = 1)
    (hpcm : frame.pcm = (samples.map pcmOf).flatMap pcmBytesOf) :
    encodeVoiceInputFrame frame.streamId.text frame.sequence.toNat
        frame.capturedAtMonotonicNs.toNat frame.format.sampleRateHz samples =
      .ok (voiceInputHeader.write (voiceInputHeaderOf frame) ++ frame.pcm) := by
  have hlength : frame.pcm.length = (samples.map pcmOf).length * 2 := by
    rw [hpcm, length_pcmBytesOf]
  rw [encodeVoiceInputFrame_text, voiceInputPacket, ← hpcm, ← hlength]
  simp only [voiceInputHeader, voiceInputHeaderOf, Layout.write, Field.write, hchannels,
    List.append_assoc, List.nil_append, Int.toNat_natCast]
  rfl

/-- **What the page writes is accepted**, by a limit that has room for it and is one. -/
theorem encodeVoiceInputFrame_accepted (id : UUID) (sequence captured rate : ℕ)
    (samples : List Number) (limit : ℤ) (hsequence : sequence < 2 ^ 64)
    (hcaptured : captured < 2 ^ 64) (hrate : 8000 ≤ rate ∧ rate ≤ 192000) (hne : samples ≠ [])
    (hpayload : samples.length * 2 ≤ limit) (hlimit : limit ≤ maxU32) : ∃ packet frame,
      encodeVoiceInputFrame id.text sequence captured rate samples = .ok packet ∧
      decodeVoiceInputFrame packet limit = .ok frame ∧
      frame.streamId = id ∧ frame.sequence = sequence ∧
      frame.capturedAtMonotonicNs = captured ∧ frame.format.sampleRateHz = rate ∧
      frame.format.channels = 1 ∧ frame.pcm = (samples.map pcmOf).flatMap pcmBytesOf := by
  set pcm := (samples.map pcmOf).flatMap pcmBytesOf with hpcm
  have hlength : pcm.length = samples.length * 2 := by
    rw [hpcm, length_pcmBytesOf, List.length_map]
  have hpos : 0 < samples.length := List.length_pos_iff.mpr hne
  have hpcmLimit : (pcm.length : ℤ) ≤ limit := by
    rw [hlength]
    exact_mod_cast hpayload
  let fields : VoiceInputFrameFields :=
    { streamId := id
      sequence
      capturedAtMonotonicNs := captured
      format := ⟨rate, 1, .s16Le, hrate, by decide⟩
      pcm }
  have hok : fields.Ok := by
    refine ⟨⟨Int.natCast_nonneg _, ?_⟩, ⟨Int.natCast_nonneg _, ?_⟩, ?_, hpcmLimit.trans hlimit, ?_⟩
    · simp only [maxU64, fields]
      omega
    · simp only [maxU64, fields]
      omega
    · exact List.length_pos_iff.mp (by change 0 < pcm.length; omega)
    · change pcm.length % 2 = 0
      omega
  let frame : VoiceInputFrame := ⟨fields, VoiceInputFrameFields.postInit_eq_ok.mpr hok⟩
  refine ⟨_, frame, encodeVoiceInputFrame_eq frame rfl rfl, ?_, rfl, rfl, rfl, rfl, rfl,
    rfl⟩
  exact (decodeVoiceInputFrame_eq_ok hlimit).mpr ⟨hpcmLimit, encodeVoiceInputFrame_eq_ok.mpr rfl⟩

/-- **The codecs of the page are those of the server.** Every packet of synthesized audio is
read with every field as it was; and every packet of the microphone is accepted, by every
limit that has room for it and is one, as the frame of its fields, whose samples are those of
the page, clamped and rounded to sixteen bits. -/
theorem page_codecs_agree :
    (∀ (frame : Eeveetuber.AudioFrame) (packet : Bytes), encodeAudioFrame frame = .ok packet →
      decodeAudioFrame packet = .ok (.ofServer frame)) ∧
    ∀ (id : UUID) (sequence captured rate : ℕ) (samples : List Number) (limit : ℤ),
      sequence < 2 ^ 64 → captured < 2 ^ 64 → 8000 ≤ rate ∧ rate ≤ 192000 → samples ≠ [] →
      samples.length * 2 ≤ limit → limit ≤ maxU32 → ∃ packet frame,
        encodeVoiceInputFrame id.text sequence captured rate samples = .ok packet ∧
        decodeVoiceInputFrame packet limit = .ok frame ∧
        frame.streamId = id ∧ frame.sequence = sequence ∧
        frame.capturedAtMonotonicNs = captured ∧ frame.format.sampleRateHz = rate ∧
        frame.format.channels = 1 ∧ frame.pcm = (samples.map pcmOf).flatMap pcmBytesOf ∧
        Eeveetuber.samples frame.pcm = samples.map pcmOf ∧
        ∀ sample ∈ samples, -32768 ≤ pcmOf sample ∧ pcmOf sample ≤ 32767 := by
  refine ⟨fun frame packet h => decodeAudioFrame_encoded h, ?_⟩
  intro id sequence captured rate samples limit hsequence hcaptured hrate hne hpayload hlimit
  obtain ⟨packet, frame, hencode, hdecode, hid, hseq, hcap, hr, hchannels, hpcm⟩ :=
    encodeVoiceInputFrame_accepted id sequence captured rate samples limit hsequence hcaptured
      hrate hne hpayload hlimit
  refine ⟨packet, frame, hencode, hdecode, hid, hseq, hcap, hr, hchannels, hpcm, ?_,
    fun sample _ => pcmOf_bounds sample⟩
  rw [hpcm]
  refine samples_pcmBytesOf fun v hv => ?_
  obtain ⟨sample, -, rfl⟩ := List.mem_map.mp hv
  exact pcmOf_bounds sample

/-- One sample beyond full scale, and the largest time there is. -/
theorem page_codecs_agree_sample : ∃ packet frame,
    encodeVoiceInputFrame (UUID.text 7) 3 (2 ^ 64 - 1) 48000 [.finite (-2)] = .ok packet ∧
      decodeVoiceInputFrame packet 2 = .ok frame ∧ frame.streamId = 7 ∧
      Eeveetuber.samples frame.pcm = [-32768] := by
  obtain ⟨packet, frame, hencode, hdecode, hid, -, -, -, -, -, hsamples, -⟩ :=
    page_codecs_agree.2 7 3 (2 ^ 64 - 1) 48000 [.finite (-2)] 2 (by decide) (by decide)
      (by decide) (by decide) (by decide) (by decide)
  exact ⟨packet, frame, hencode, hdecode, hid, hsamples.trans (by decide +kernel)⟩

/-- A limit that does not fit the length field is turned away with the packet. -/
theorem page_sample_not_decoded : ∃ packet,
    encodeVoiceInputFrame (UUID.text 1) 0 0 16000 [.finite 0] = .ok packet ∧
      ([Number.finite 0].length * 2 : ℤ) ≤ maxU32 + 1 ∧
      ∃ message, decodeVoiceInputFrame packet (maxU32 + 1) = .error (.value message) := by
  obtain ⟨packet, frame, hencode, -⟩ := encodeVoiceInputFrame_accepted 1 0 0 16000
    [.finite 0] 2 (by decide) (by decide) (by decide) (by decide) (by decide) (by decide)
  exact ⟨packet, hencode, by decide, decodeVoiceInputFrame_of_not_limit (by decide) packet⟩

end OperatorPage

end Eeveetuber
