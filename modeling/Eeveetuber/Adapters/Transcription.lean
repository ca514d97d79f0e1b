import Eeveetuber.Adapters.Speech
import Eeveetuber.Application.VoiceInput
import Eeveetuber.Media.Wav

/-!
# Transcripts from a response

What a transcription endpoint answers is a JSON object, of which
`Eeveetuber.OpenAICompatibleSpeechRecognizer.normalizeResponse` makes the final result of a
recognition. A result that it makes is one that the type of results accepts
(`Eeveetuber.OpenAICompatibleSpeechRecognizer.normalizeResponse_valid`), whatever the endpoint says.
-/

namespace Eeveetuber

open Foundation

/-- What a recognition raises. -/
inductive AsrError where
  /-- `AsrAdapterClosed`. -/
  | closed (message : String)
  /-- `AsrTimeoutError`. -/
  | timeout (message : String)
  /-- `AsrTransportError`, of an exception of this type. -/
  | transport (message : String) (typeName : Text)
  /-- `AsrProtocolError`. -/
  | protocol (message : String)
  /-- `AsrHTTPError`. -/
  | http (statusCode : ℕ) (requestId : Option Text)
  /-- `asyncio.CancelledError`. -/
  | cancelled
  /-- `OverflowError`: an integer is not within the range of floats. -/
  | overflow
  /-- `struct.error`, of the WAV file. -/
  | struct (message : String)
  /-- Any other exception of the HTTP library. -/
  | library (code : ℕ)
deriving DecidableEq

/-- The options that bear on a recognition. -/
structure OpenAICompatibleAsrConfig where
  language : Option Text := none
  maxInputPcmBytes : ℕ := 64 * 1024 * 1024
  maxResponseBytes : ℕ := 1024 * 1024
  language_trimmed : ∀ l ∈ language, l ≠ [] ∧ strip l = l := by simp
  two_le_maxInputPcmBytes : 2 ≤ maxInputPcmBytes := by decide
  le_maxResponseBytes : 64 ≤ maxResponseBytes := by decide

/-- `AsrFinal`, with what it says beside the text. -/
structure Transcript extends AsrFinal where
  language : Option Text
  confidence : Option PyFloat

/-- `0.0 <= confidence <= 1.0`, of a finite number. -/
def PyFloat.isProbability : PyFloat → Bool
  | .finite x => 0 ≤ x && x ≤ 1
  | .infinite _ | .nan => false

/-- `_validate_transcript_fields`, with its `ValueError`s. -/
def Transcript.validate (t : Transcript) : Except String Unit := do
  raiseIf (∃ l ∈ t.language, strip l = []) "language cannot be blank"
  raiseIf (∃ c ∈ t.confidence, c.isProbability = false)
    "confidence must be finite and between 0.0 and 1.0"

/-- Whether an integer is too large for a float. -/
def overflowsFloat (n : ℤ) : Bool := 2 ^ 1024 - 2 ^ 970 ≤ n.natAbs

namespace OpenAICompatibleSpeechRecognizer

variable (loads : Bytes → Option JsonValue) (config : OpenAICompatibleAsrConfig)

/-- The language of the response, or the configured one where the response says nothing of it. -/
def normalizeLanguage (payload : List (Text × JsonValue)) : Except AsrError (Option Text) :=
  if JsonValue.contains payload "language" then
    match JsonValue.get payload "language" with
    | .null => .ok none
    | .str language =>
      if strip language = [] then
        .error (.protocol "transcription language must be a non-blank string")
      else .ok (some language)
    | _ => .error (.protocol "transcription language must be a non-blank string")
  else .ok config.language

/-- The confidence of the response. -/
def normalizeConfidence (payload : List (Text × JsonValue)) : Except AsrError (Option PyFloat) :=
  let outside : AsrError := .protocol "transcription confidence must be between 0.0 and 1.0"
  if JsonValue.contains payload "confidence" then
    match JsonValue.get payload "confidence" with
    | .int n =>
      -- `math.isfinite` converts the integer
      if overflowsFloat n then .error .overflow
      else if 0 ≤ n ∧ n ≤ 1 then .ok (some (.finite n))
      else .error outside
    | .float x => if x.isProbability then .ok (some x) else .error outside
    | _ => .error outside
  else .ok none

/-- `_normalize_response`. -/
def normalizeResponse (utteranceId : UUID) (body : Bytes) : Except AsrError Transcript := do
  raiseIf (body = []) (.protocol "transcription provider returned an empty response")
  let value ← orRaise (.protocol "transcription provider returned invalid JSON") (loads body)
  match value with
  | .dict payload =>
    match JsonValue.get payload "error" with
    | .null =>
      match JsonValue.get payload "text" with
      | .str text => do
        let language ← normalizeLanguage config payload
        let confidence ← normalizeConfidence payload
        return { utteranceId, text, language, confidence }
      | _ => throw (.protocol "transcription response omitted string text")
    | _ => throw (.protocol "transcription provider returned an error payload")
  | _ => throw (.protocol "transcription response must be a JSON object")

variable {loads config} {utteranceId : UUID} {body : Bytes} {t : Transcript}
  {payload : List (Text × JsonValue)} {language : Option Text} {confidence : Option PyFloat}

theorem strip_ne_nil_of_normalizeLanguage (h : normalizeLanguage config payload = .ok language) :
    ∀ l ∈ language, strip l ≠ [] := by
  unfold normalizeLanguage at h
  split at h
  · split at h
    · cases h
      exact fun l hl => by cases hl
    · split at h
      · cases h
      · rename_i text hne
        cases h
        rintro l ⟨⟩
        exact hne
    · cases h
  · cases h
    intro l hl
    obtain ⟨hne, htrim⟩ := config.language_trimmed l hl
    rw [htrim]
    exact hne

theorem isProbability_of_normalizeConfidence (h : normalizeConfidence payload = .ok confidence) :
    ∀ c ∈ confidence, c.isProbability = true := by
  unfold normalizeConfidence at h
  dsimp only at h
  split at h
  · split at h
    · rename_i n _
      split_ifs at h with hover hn
      cases h
      rintro c ⟨⟩
      obtain ⟨hlow, hhigh⟩ := hn
      simp only [PyFloat.isProbability, Bool.and_eq_true, decide_eq_true_eq]
      exact ⟨by exact_mod_cast hlow, by exact_mod_cast hhigh⟩
    · rename_i x _
      split_ifs at h with hx
      cases h
      rintro c ⟨⟩
      exact hx
    · cases h
  · cases h
    exact fun c hc => by cases hc

/-- **What is made of a response is a result**: of the utterance, with nothing that the type of
results refuses. -/
theorem normalizeResponse_valid (h : normalizeResponse loads config utteranceId body = .ok t) :
    t.utteranceId = utteranceId ∧ t.validate = .ok () ∧ body ≠ [] := by
  unfold normalizeResponse at h
  obtain ⟨hne, h⟩ := raiseIf_bind_eq_ok.mp h
  obtain ⟨value, -, h⟩ := except_bind_eq_ok.mp h
  cases value with
  | dict payload =>
    dsimp only at h
    split at h
    · split at h
      · obtain ⟨language, hlanguage, h⟩ := except_bind_eq_ok.mp h
        obtain ⟨confidence, hconfidence, h⟩ := except_bind_eq_ok.mp h
        cases h
        refine ⟨rfl, raiseIf_bind_eq_ok.mpr ⟨?_, raiseIf_eq_ok.mpr ?_⟩, hne⟩
        · rintro ⟨l, hl, hblank⟩
          exact strip_ne_nil_of_normalizeLanguage hlanguage l hl hblank
        · rintro ⟨c, hc, hnot⟩
          rw [isProbability_of_normalizeConfidence hconfidence c hc] at hnot
          cases hnot
      · cases h
    · cases h
  | _ => cases h

end OpenAICompatibleSpeechRecognizer

end Eeveetuber
