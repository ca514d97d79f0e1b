import Eeveetuber.Adapters.ModelEvents
import Eeveetuber.Dialogue.Framing
import Eeveetuber.Foundation.Stateful
import Mathlib.Data.Rat.Floor

/-!
# Speech over HTTP

`Eeveetuber.OpenAICompatibleSpeechSynthesizer.synthesize` speaks a segment: it yields the bytes of
a response in chunks of a bounded size and marks the last of them. Since it knows that a chunk is
the last one only at the end of the response, it holds each chunk back until the next one is there.

The HTTP library hands the body of the response out in pieces, which may be empty or larger than
what was asked for; they are cut again (`Eeveetuber.boundedResponseBytes`). So the chunks that are
yielded are those of the pieces (`Eeveetuber.OpenAICompatibleSpeechSynthesizer.outcome_of_le`), if
the body is within the limit; and if not, an error is raised after some chunks of which none is
marked (`Eeveetuber.OpenAICompatibleSpeechSynthesizer.outcome_of_lt`).
-/

namespace Eeveetuber

open Foundation Stateful

/-- The formats of a response. -/
inductive SpeechAudioFormat where
  | mp3
  | opus
  | aac
  | flac
  | wav
  | pcm
deriving DecidableEq, Repr

/-- `_MEDIA_TYPES`. -/
def SpeechAudioFormat.mediaType : SpeechAudioFormat → String
  | .mp3 => "audio/mpeg"
  | .opus => "audio/ogg"
  | .aac => "audio/aac"
  | .flac => "audio/flac"
  | .wav => "audio/wav"
  | .pcm => "audio/pcm"

/-- The declared output contract for one compatible endpoint. -/
structure OpenAICompatibleSpeechConfig where
  responseFormat : SpeechAudioFormat := .pcm
  sampleRateHz : ℕ := 24000
  chunkSizeBytes : ℕ := 8192
  maxResponseBytes : ℕ := 64 * 1024 * 1024
  pcmChannels : ℕ := 1
  pcmSampleWidthBytes : ℕ := 2
  sampleRate_pos : 0 < sampleRateHz := by decide
  chunkSize_pos : 1 ≤ chunkSizeBytes := by decide
  chunkSize_le : chunkSizeBytes ≤ 1024 * 1024 := by decide
  chunkSize_le_maxResponse : chunkSizeBytes ≤ maxResponseBytes := by decide
  pcmChannels_pos : 0 < pcmChannels := by decide
  pcmSampleWidth_pos : 0 < pcmSampleWidthBytes := by decide

/-- What speaking a segment may raise. -/
inductive SpeechError where
  /-- `SpeechProtocolError`. -/
  | protocolError (message : String)
  /-- `SpeechHTTPError`. -/
  | httpError (statusCode : ℕ) (requestId : Option Text)
deriving DecidableEq, Repr

/-- A response, of which the body comes in by pieces. -/
structure SpeechResponse where
  statusCode : ℕ
  /-- The header `content-type`, which is empty where it is missing. -/
  contentType : Text
  /-- The header `x-request-id`. -/
  requestId : Option Text
  pieces : List Bytes
deriving DecidableEq, Repr

/-- The body of a response. -/
def SpeechResponse.body (response : SpeechResponse) : Bytes := response.pieces.flatten

/-- Whether a response says that it is JSON. -/
def SpeechResponse.isJson (response : SpeechResponse) : Bool :=
  "application/json".toList.isPrefixOf (lower response.contentType)

/-- **A successful audio response.** -/
structure SpeechResponse.IsAudio (response : SpeechResponse) : Prop where
  le_statusCode : 200 ≤ response.statusCode
  statusCode_lt : response.statusCode < 300
  not_json : response.isJson = false

instance (response : SpeechResponse) : Decidable response.IsAudio :=
  decidable_of_iff (200 ≤ response.statusCode ∧ response.statusCode < 300 ∧
    response.isJson = false)
    ⟨fun ⟨hle, hlt, hjson⟩ => ⟨hle, hlt, hjson⟩, fun ⟨hle, hlt, hjson⟩ => ⟨hle, hlt, hjson⟩⟩

/-- The identifier of a request, without characters that do not belong there. -/
def safeRequestId (value : Option Text) : Option Text :=
  value.bind fun value =>
    let cleaned := (value.filter fun c =>
      (c.isAlphanum && c.toNat < 128) || c = '.' || c = '_' || c = '-').take 128
    if cleaned = [] then none else some cleaned

/-- `round(x)`: ties go to the even neighbour. -/
def roundHalfEven (x : ℚ) : ℤ :=
  if x - ⌊x⌋ < 1 / 2 then ⌊x⌋
  else if 1 / 2 < x - ⌊x⌋ then ⌊x⌋ + 1
  else if ⌊x⌋ % 2 = 0 then ⌊x⌋ else ⌊x⌋ + 1

/-- How long so many bytes sound, in milliseconds; only known of raw samples. -/
def durationMs (config : OpenAICompatibleSpeechConfig) (byteCount : ℕ) : Option ℤ :=
  if config.responseFormat ≠ .pcm then none
  else
    let bytesPerSecond := config.sampleRateHz * config.pcmChannels * config.pcmSampleWidthBytes
    some (roundHalfEven (((byteCount * 1000 : ℕ) : ℚ) / (bytesPerSecond : ℕ)))

/-- `value[offset : offset + chunk_size]` for `offset in range(0, len(value), chunk_size)`. -/
def slices (chunkSize : ℕ) (value : Bytes) : List Bytes :=
  (List.range ((value.length + chunkSize - 1) / chunkSize)).map fun i =>
    (value.drop (i * chunkSize)).take chunkSize

/-- The bytes of a response, in pieces of a bounded size of which none is empty. -/
def boundedResponseBytes (chunkSize : ℕ) (pieces : List Bytes) : List Bytes :=
  (pieces.filter (· ≠ [])).flatMap (slices chunkSize)

/-- Computations that yield chunks of audio. -/
abbrev Speaking := Stateful (List AudioChunk) SpeechError

/-- How speaking a segment ends, and what it has yielded. -/
abbrev SpeechOutcome := Except SpeechError Unit × List AudioChunk

namespace OpenAICompatibleSpeechSynthesizer

variable (config : OpenAICompatibleSpeechConfig) (segment : UtteranceSegment)

def audioChunk (chunkIndex : ℕ) (audio : Bytes) (isFinal : Bool) : AudioChunk where
  segmentId := segment.segmentId
  sequence := segment.sequence
  chunkIndex := chunkIndex
  audio := audio
  mediaType := config.responseFormat.mediaType.toList
  sampleRateHz := config.sampleRateHz
  isFinal := isFinal
  durationMs := durationMs config audio.length
  sampleRate_pos := config.sampleRate_pos

/-- Yield a chunk. -/
def yieldChunk (chunk : AudioChunk) : Speaking Unit := modify (· ++ [chunk])

/-- The loop over the bytes of the response; `pending` is the piece that is held back. -/
def speakLoop (chunkIndex : ℕ) (pending : Option Bytes) (totalBytes : ℕ) :
    List Bytes → Speaking (ℕ × Option Bytes)
  | [] => return (chunkIndex, pending)
  | audio :: rest => do
    let totalBytes := totalBytes + audio.length
    if config.maxResponseBytes < totalBytes then
      throw (.protocolError "speech response exceeded configured byte limit")
    match pending with
    | some held => do
      yieldChunk (audioChunk config segment chunkIndex held false)
      speakLoop (chunkIndex + 1) (some audio) totalBytes rest
    | none => speakLoop chunkIndex (some audio) totalBytes rest

/-- **Speak a segment**, once the response has begun. -/
def synthesize (response : SpeechResponse) : Speaking Unit := do
  if ¬(200 ≤ response.statusCode ∧ response.statusCode < 300) then
    throw (.httpError response.statusCode (safeRequestId response.requestId))
  if response.isJson then
    throw (.protocolError "speech provider returned JSON instead of audio")
  let (chunkIndex, pending) ← speakLoop config segment 0 none 0
    (boundedResponseBytes config.chunkSizeBytes response.pieces)
  match pending with
  | none => throw (.protocolError "speech provider returned an empty audio response")
  | some held => yieldChunk (audioChunk config segment chunkIndex held true)

end OpenAICompatibleSpeechSynthesizer

/-! ### Pieces of a bounded size -/

section

variable {chunkSize : ℕ} {value : Bytes}

theorem slices_nil (h : 0 < chunkSize) : slices chunkSize [] = [] := by
  have hcount : (([] : Bytes).length + chunkSize - 1) / chunkSize = 0 :=
    Nat.div_eq_of_lt (by simp only [List.length_nil]; omega)
  rw [slices, hcount]
  rfl

/-- The first piece. -/
theorem slices_eq (h : 0 < chunkSize) (hvalue : value ≠ []) : slices chunkSize value =
    value.take chunkSize :: slices chunkSize (value.drop chunkSize) := by
  have hpos := List.length_pos_iff.mpr hvalue
  have hcount : (value.length + chunkSize - 1) / chunkSize =
      ((value.drop chunkSize).length + chunkSize - 1) / chunkSize + 1 := by
    rw [List.length_drop]
    by_cases hle : chunkSize ≤ value.length
    · rw [← Nat.add_div_right _ h]
      congr 1
      omega
    · have hone : value.length + chunkSize - 1 = (value.length - 1) + chunkSize := by omega
      have hnone : value.length - chunkSize + chunkSize - 1 < chunkSize := by omega
      rw [hone, Nat.add_div_right _ h, Nat.div_eq_of_lt (by omega), Nat.div_eq_of_lt hnone]
  rw [slices, slices, hcount, List.range_succ_eq_map, List.map_cons, List.map_map, Nat.zero_mul,
    List.drop_zero]
  refine congrArg _ (List.map_congr_left fun i _ => ?_)
  show (value.drop ((i + 1) * chunkSize)).take chunkSize = _
  rw [List.drop_drop, Nat.succ_mul, Nat.add_comm]

/-- **Cutting loses nothing.** -/
theorem flatten_slices (h : 0 < chunkSize) (value : Bytes) :
    (slices chunkSize value).flatten = value := by
  induction hn : value.length using Nat.strongRecOn generalizing value with
  | ind n ih =>
    by_cases hvalue : value = []
    · rw [hvalue, slices_nil h]
      rfl
    · have hpos := List.length_pos_iff.mpr hvalue
      have hdrop : (value.drop chunkSize).length < n := by
        rw [List.length_drop]
        omega
      rw [slices_eq h hvalue, List.flatten_cons, ih _ hdrop _ rfl, List.take_append_drop]

/-- **The pieces are bounded**, and none is empty. -/
theorem mem_slices (h : 0 < chunkSize) {audio : Bytes} (value : Bytes)
    (haudio : audio ∈ slices chunkSize value) : audio ≠ [] ∧ audio.length ≤ chunkSize := by
  induction hn : value.length using Nat.strongRecOn generalizing value with
  | ind n ih =>
    by_cases hvalue : value = []
    · rw [hvalue, slices_nil h] at haudio
      cases haudio
    · have hpos := List.length_pos_iff.mpr hvalue
      rw [slices_eq h hvalue] at haudio
      rcases List.mem_cons.mp haudio with rfl | haudio
      · constructor
        · intro hnil
          rcases List.take_eq_nil_iff.mp hnil with hzero | hnil
          · omega
          · exact hvalue hnil
        · exact (List.length_take_le _ _)
      · refine ih (value.drop chunkSize).length ?_ _ haudio rfl
        rw [List.length_drop]
        omega

theorem flatten_filter_ne_nil (pieces : List Bytes) :
    (pieces.filter (· ≠ [])).flatten = pieces.flatten := by
  induction pieces with
  | nil => rfl
  | cons piece pieces ih =>
    by_cases hpiece : piece = []
    · rw [hpiece, List.filter_cons_of_neg (by simp), ih]
      rfl
    · rw [List.filter_cons_of_pos (by simpa using hpiece), List.flatten_cons, ih,
        List.flatten_cons]

theorem flatten_boundedResponseBytes (h : 0 < chunkSize) (pieces : List Bytes) :
    (boundedResponseBytes chunkSize pieces).flatten = pieces.flatten := by
  rw [boundedResponseBytes, ← flatten_filter_ne_nil pieces]
  induction pieces.filter (· ≠ []) with
  | nil => rfl
  | cons piece rest ih =>
    rw [List.flatMap_cons, List.flatten_append, flatten_slices h, ih, List.flatten_cons]

theorem mem_boundedResponseBytes (h : 0 < chunkSize) {pieces : List Bytes} {audio : Bytes}
    (haudio : audio ∈ boundedResponseBytes chunkSize pieces) :
    audio ≠ [] ∧ audio.length ≤ chunkSize := by
  obtain ⟨piece, -, haudio⟩ := List.mem_flatMap.mp haudio
  exact mem_slices h piece haudio

end

/-! ### The chunks of a response -/

namespace OpenAICompatibleSpeechSynthesizer

variable {config : OpenAICompatibleSpeechConfig} {segment : UtteranceSegment}
  {yielded : List AudioChunk} {pieces : List Bytes}

/-- Chunks of which none is the last one, counted from some index on. -/
def frames (config : OpenAICompatibleSpeechConfig) (segment : UtteranceSegment) :
    ℕ → List Bytes → List AudioChunk
  | _, [] => []
  | chunkIndex, audio :: rest =>
    audioChunk config segment chunkIndex audio false :: frames config segment (chunkIndex + 1) rest

theorem map_chunkIndex_frames (chunkIndex : ℕ) (pieces : List Bytes) :
    (frames config segment chunkIndex pieces).map (·.chunkIndex) =
      List.range' chunkIndex pieces.length := by
  induction pieces generalizing chunkIndex with
  | nil => rfl
  | cons audio pieces ih => exact congrArg (chunkIndex :: ·) (ih (chunkIndex + 1))

theorem map_audio_frames (chunkIndex : ℕ) (pieces : List Bytes) :
    (frames config segment chunkIndex pieces).map (·.audio) = pieces := by
  induction pieces generalizing chunkIndex with
  | nil => rfl
  | cons audio pieces ih => exact congrArg (audio :: ·) (ih (chunkIndex + 1))

theorem length_frames (chunkIndex : ℕ) (pieces : List Bytes) :
    (frames config segment chunkIndex pieces).length = pieces.length := by
  rw [← List.length_map (·.audio), map_audio_frames]

theorem mem_frames {chunk : AudioChunk} {chunkIndex : ℕ} {pieces : List Bytes}
    (h : chunk ∈ frames config segment chunkIndex pieces) :
    chunk.segmentId = segment.segmentId ∧ chunk.sequence = segment.sequence ∧
      chunk.isFinal = false := by
  induction pieces generalizing chunkIndex with
  | nil => cases h
  | cons audio pieces ih =>
    rcases List.mem_cons.mp h with rfl | h
    · exact ⟨rfl, rfl, rfl⟩
    · exact ih h

/-- The bytes of some pieces. -/
def size (pieces : List Bytes) : ℕ := pieces.flatten.length

theorem size_cons (audio : Bytes) (pieces : List Bytes) :
    size (audio :: pieces) = audio.length + size pieces := by
  rw [size, List.flatten_cons, List.length_append]
  rfl

/-- **The loop**, while the response is within the limit: each piece is yielded when the next one
is there. -/
theorem outcome_speakLoop (pieces : List Bytes) : ∀ (chunkIndex : ℕ) (held : Bytes)
    (totalBytes : ℕ) (yielded : List AudioChunk),
    totalBytes + size pieces ≤ config.maxResponseBytes →
    ∃ before last, held :: pieces = before ++ [last] ∧
      outcome (speakLoop config segment chunkIndex (some held) totalBytes pieces) yielded =
        (.ok (chunkIndex + before.length, some last),
          yielded ++ frames config segment chunkIndex before) := by
  induction pieces with
  | nil =>
    intro chunkIndex held totalBytes yielded _
    refine ⟨[], held, rfl, ?_⟩
    rw [frames, List.append_nil]
    rfl
  | cons audio pieces ih =>
    intro chunkIndex held totalBytes yielded hle
    rw [size_cons, ← Nat.add_assoc] at hle
    obtain ⟨before, last, hsplit, hrest⟩ := ih (chunkIndex + 1) audio (totalBytes + audio.length)
      (yielded ++ [audioChunk config segment chunkIndex held false]) hle
    refine ⟨held :: before, last, by rw [hsplit, List.cons_append], ?_⟩
    have hnot : ¬config.maxResponseBytes < totalBytes + audio.length := by omega
    rw [speakLoop, if_neg hnot]
    refine Eq.trans hrest ?_
    rw [frames, List.append_assoc, List.length_cons, Nat.add_right_comm, Nat.add_assoc chunkIndex]
    rfl

/-- The loop, where the response is over the limit. -/
theorem outcome_speakLoop_of_lt (pieces : List Bytes) : ∀ (chunkIndex : ℕ) (held : Option Bytes)
    (totalBytes : ℕ) (yielded : List AudioChunk),
    totalBytes ≤ config.maxResponseBytes → config.maxResponseBytes < totalBytes + size pieces →
    ∃ some',
      outcome (speakLoop config segment chunkIndex held totalBytes pieces) yielded =
        (.error (.protocolError "speech response exceeded configured byte limit"),
          yielded ++ frames config segment chunkIndex some') := by
  induction pieces with
  | nil =>
    intro chunkIndex held totalBytes yielded hle hlt
    exact absurd (Nat.lt_of_lt_of_le hlt hle) (lt_irrefl _)
  | cons audio pieces ih =>
    intro chunkIndex held totalBytes yielded hle hlt
    rw [size_cons, ← Nat.add_assoc] at hlt
    by_cases hover : config.maxResponseBytes < totalBytes + audio.length
    · refine ⟨[], ?_⟩
      rcases held with _ | held
      all_goals
        rw [speakLoop, if_pos hover, frames, List.append_nil]
        rfl
    · rcases held with _ | held
      · rw [speakLoop, if_neg hover]
        exact ih chunkIndex (some audio) _ yielded (Nat.not_lt.mp hover) hlt
      · rw [speakLoop, if_neg hover]
        obtain ⟨rest, hrest⟩ := ih (chunkIndex + 1) (some audio) _
          (yielded ++ [audioChunk config segment chunkIndex held false]) (Nat.not_lt.mp hover) hlt
        refine ⟨held :: rest, Eq.trans hrest ?_⟩
        rw [frames, List.append_assoc]
        rfl

/-- What is left to do after the loop. -/
def endSpeech (config : OpenAICompatibleSpeechConfig) (segment : UtteranceSegment) :
    ℕ × Option Bytes → Speaking Unit
  | (_, none) => throw (.protocolError "speech provider returned an empty audio response")
  | (chunkIndex, some held) => yieldChunk (audioChunk config segment chunkIndex held true)

theorem synthesize_eq {response : SpeechResponse} (h : response.IsAudio) :
    synthesize config segment response = speakLoop config segment 0 none 0
      (boundedResponseBytes config.chunkSizeBytes response.pieces) >>=
        endSpeech config segment := by
  have hstatus : ¬¬(200 ≤ response.statusCode ∧ response.statusCode < 300) :=
    not_not.mpr ⟨h.le_statusCode, h.statusCode_lt⟩
  rw [synthesize, if_neg hstatus, h.not_json]
  refine congrArg (_ >>= ·) (funext fun p => ?_)
  rcases p with ⟨chunkIndex, _ | held⟩
  · rfl
  · rfl

variable {response : SpeechResponse}

theorem size_boundedResponseBytes (config : OpenAICompatibleSpeechConfig)
    (response : SpeechResponse) :
    size (boundedResponseBytes config.chunkSizeBytes response.pieces) = response.body.length := by
  rw [size, flatten_boundedResponseBytes config.chunkSize_pos]
  rfl

/-- **A response within the limit** is spoken: the chunks are its pieces, and the last one is
marked. -/
theorem outcome_of_le (h : response.IsAudio) (hbody : response.body ≠ [])
    (hle : response.body.length ≤ config.maxResponseBytes) :
    ∃ before last, boundedResponseBytes config.chunkSizeBytes response.pieces = before ++ [last] ∧
      outcome (synthesize config segment response) [] =
        (.ok (), frames config segment 0 before ++
          [audioChunk config segment before.length last true]) := by
  have hsize := size_boundedResponseBytes config response
  rw [synthesize_eq h]
  rcases hpieces : boundedResponseBytes config.chunkSizeBytes response.pieces with _ | ⟨audio, rest⟩
  · rw [hpieces] at hsize
    exact absurd (List.length_eq_zero_iff.mp hsize.symm) hbody
  · rw [hpieces, size_cons] at hsize
    obtain ⟨before, last, hsplit, hloop⟩ := @outcome_speakLoop config segment rest 0 audio
      audio.length [] (by omega)
    refine ⟨before, last, hsplit, ?_⟩
    have hnot : ¬config.maxResponseBytes < 0 + audio.length := by omega
    have hfirst : speakLoop config segment 0 none 0 (audio :: rest) =
        speakLoop config segment 0 (some audio) (0 + audio.length) rest := by
      rw [speakLoop, if_neg hnot]
    rw [Nat.zero_add] at hfirst hloop
    rw [hfirst, outcome_bind_of_ok hloop]
    rfl

/-- **A response over the limit** raises. -/
theorem outcome_of_lt (h : response.IsAudio)
    (hlt : config.maxResponseBytes < response.body.length) :
    ∃ before, outcome (synthesize config segment response) [] =
      (.error (.protocolError "speech response exceeded configured byte limit"),
        frames config segment 0 before) := by
  have hsize := size_boundedResponseBytes config response
  obtain ⟨before, hloop⟩ := @outcome_speakLoop_of_lt config segment
    (boundedResponseBytes config.chunkSizeBytes response.pieces) 0 none 0 [] (Nat.zero_le _)
    (by omega)
  refine ⟨before, ?_⟩
  rw [synthesize_eq h, outcome_bind_of_error hloop, List.nil_append]

/-- **An empty response** raises. -/
theorem outcome_of_nil (h : response.IsAudio) (hbody : response.body = []) :
    outcome (synthesize config segment response) [] =
      (.error (.protocolError "speech provider returned an empty audio response"), []) := by
  have hpieces : boundedResponseBytes config.chunkSizeBytes response.pieces = [] := by
    rw [boundedResponseBytes]
    have hfilter : response.pieces.filter (· ≠ []) = [] := by
      rw [List.filter_eq_nil_iff]
      intro piece hpiece
      simpa using List.flatten_eq_nil_iff.mp hbody piece hpiece
    rw [hfilter]
    rfl
  rw [synthesize_eq h, hpieces]
  rfl

/-- **What is spoken is complete.** -/
theorem complete_of_frames (config : OpenAICompatibleSpeechConfig) (segment : UtteranceSegment)
    (before : List Bytes) (last : Bytes) :
    Complete segment (frames config segment 0 before ++
      [audioChunk config segment before.length last true]) where
  segmentId c hc := by
    rcases List.mem_append.mp hc with hc | hc
    · exact (mem_frames hc).1
    · rw [List.mem_singleton.mp hc]
      rfl
  sequence c hc := by
    rcases List.mem_append.mp hc with hc | hc
    · exact (mem_frames hc).2.1
    · rw [List.mem_singleton.mp hc]
      rfl
  chunkIndex := by
    rw [List.map_append, map_chunkIndex_frames, List.length_append, length_frames,
      List.length_singleton, List.range_succ, List.range_eq_range']
    rfl
  notFinal c hc := by
    rw [List.dropLast_concat] at hc
    exact (mem_frames hc).2.2
  final := ⟨_, List.getLast?_concat, rfl⟩

/-- What is spoken before an error is not final. -/
theorem framed_frames (config : OpenAICompatibleSpeechConfig) (segment : UtteranceSegment)
    (before : List Bytes) : Framed segment (frames config segment 0 before) where
  segmentId c hc := (mem_frames hc).1
  sequence c hc := (mem_frames hc).2.1
  chunkIndex := by
    rw [map_chunkIndex_frames, length_frames, List.range_eq_range']
  notFinal c hc := (mem_frames ((List.dropLast_sublist _).subset hc)).2.2

end OpenAICompatibleSpeechSynthesizer

end Eeveetuber
