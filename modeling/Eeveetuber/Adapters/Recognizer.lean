import Eeveetuber.Adapters.Transcription
import Eeveetuber.Foundation.Select

/-!
# The recognizer

An `Eeveetuber.OpenAICompatibleSpeechRecognizer` uploads utterances to a transcription endpoint, any
number of them at a time, and is closed at some point. Each recognition waits for the response,
reads its body up to a bound, closes the response, and yields the one result it makes of the body.
While it waits it also waits for its cancellation, in `_await_or_cancel`: the operation and the
cancellation are two tasks, and either or both may be done when the recognition resumes.

`Eeveetuber.Recognizer.next` is one step between two suspensions of a recognition, of a call of
`aclose`, or of the HTTP library, which answers, hands out pieces of a body and fails as it likes.
The three results are those of the protocol of recognizers: what is yielded is what the endpoint
said (`Eeveetuber.Recognizer.recognized`), nothing is yielded after a cancellation
(`Eeveetuber.Recognizer.no_late_result`), and every response is closed
(`Eeveetuber.Recognizer.responses_closed`) unless a cancellation outruns it.
-/

namespace Eeveetuber

open Foundation Machine OpenAICompatibleSpeechRecognizer

/-- What an operation of the HTTP library comes to. -/
inductive HttpOutcome (α : Type) where
  | ok (value : α)
  /-- `httpx.TimeoutException`. -/
  | timeout
  /-- Another `httpx.HTTPError`, of this type. -/
  | error (typeName : Text)
  /-- Another exception. -/
  | other (code : ℕ)

/-- An operation that raises comes to no value. -/
def HttpOutcome.failure {α : Type} : HttpOutcome Empty → HttpOutcome α
  | .timeout => .timeout
  | .error typeName => .error typeName
  | .other code => .other code
  | .ok value => value.elim

/-- A response, with what has been handed out of its body. -/
structure TranscriptionResponse where
  /-- The recognition whose request it answers. -/
  call : ℕ
  statusCode : ℕ
  requestId : Option Text
  /-- The header `content-length`, if there is one, as an integer, if it is one. -/
  contentLength : Option (Option ℤ)
  delivered : List Bytes
  /-- Whether the body has come to its end. -/
  ended : Bool
  closed : Bool

namespace TranscriptionResponse

/-- The body, as far as it has been handed out. -/
def body (r : TranscriptionResponse) : Bytes := r.delivered.flatten

/-- `200 <= status_code < 300`. -/
def isSuccess (r : TranscriptionResponse) : Bool := 200 ≤ r.statusCode && r.statusCode < 300

/-- Whether the response says that its body is too large. -/
def declaresTooMuch (r : TranscriptionResponse) (maxBytes : ℕ) : Bool :=
  match r.contentLength with
  | some (some declared) => (maxBytes : ℤ) < declared
  | _ => false

end TranscriptionResponse

/-- Where a recognition stands. -/
inductive RecognitionPhase where
  /-- It waits for the response to its request. -/
  | sending (answer : Option (HttpOutcome ℕ))
  /-- It waits for a piece of the body, or its end; what it has read is kept. -/
  | reading (response : ℕ) (body : Bytes) (piece : Option (HttpOutcome (Option Bytes)))
  /-- It closes the response. -/
  | closing (response : ℕ) (result : Except AsrError Transcript)
  /-- It has yielded a transcript and ended, or raised. -/
  | finished (result : Except AsrError Transcript)

/-- A recognition. -/
structure RecognitionCall where
  utteranceId : UUID
  /-- Whether its token is cancelled, if it has one. -/
  token : Option Bool
  phase : RecognitionPhase

/-- Whether the cancellation of a recognition has been requested. -/
def RecognitionCall.isCancelled (c : RecognitionCall) : Bool := c.token = some true

/-- A call of `aclose`. -/
inductive ClosePhase where
  /-- It closes these responses. -/
  | closing (remaining : List ℕ)
  /-- It was cancelled, or a response raised. -/
  | failed
  | returned

/-- A recognizer, with its recognitions, the responses to them and the calls of `aclose`. -/
structure Recognizer where
  config : OpenAICompatibleAsrConfig
  /-- `json.loads`. -/
  loads : Bytes → Option JsonValue
  closed : Bool
  /-- `_active_responses`. -/
  active : List ℕ
  calls : List RecognitionCall
  responses : List TranscriptionResponse
  closings : List ClosePhase

namespace Recognizer

/-- The constructor. -/
def create (config : OpenAICompatibleAsrConfig) (loads : Bytes → Option JsonValue) : Recognizer :=
  ⟨config, loads, false, [], [], [], []⟩

/-- A recognition goes to another phase. -/
def move (s : Recognizer) (i : ℕ) (c : RecognitionCall) (phase : RecognitionPhase) : Recognizer :=
  { s with calls := s.calls.set i { c with phase := phase } }

/-- `response.aclose()`, as far as its first suspension. -/
def closeResponse (s : Recognizer) (r : ℕ) : Recognizer :=
  { s with responses := s.responses.modify r fun response => { response with closed := true } }

/-- The `finally` block of a recognition that has a response. -/
def finalize (s : Recognizer) (i : ℕ) (c : RecognitionCall) (r : ℕ)
    (result : Except AsrError Transcript) : Recognizer :=
  { (s.closeResponse r).move i c (.closing r result) with active := s.active.erase r }

/-- The beginning of `recognize`, as far as its request. -/
def begin (s : Recognizer) (utterance : PcmUtterance) (token : Option Bool) : RecognitionPhase :=
  if s.closed then .finished (.error (.closed "transcription adapter is closed"))
  else if token = some true then .finished (.error .cancelled)
  else if s.config.maxInputPcmBytes < byteCount utterance.frames then
    .finished (.error (.protocol "utterance PCM exceeded configured input byte limit"))
  else match encodeWav utterance with
    | .error message => .finished (.error (.struct message))
    | .ok _ => .sending none

/-- The next piece is asked for, unless the recognition is cancelled. -/
def readOn (s : Recognizer) (i : ℕ) (c : RecognitionCall) (r : ℕ) (body : Bytes) : Recognizer :=
  if c.isCancelled then s.finalize i c r (.error .cancelled)
  else s.move i c (.reading r body none)

/-- What a recognition does with the response to its request. -/
def received (s : Recognizer) (i : ℕ) (c : RecognitionCall) (r : ℕ)
    (response : TranscriptionResponse) : Recognizer :=
  if s.closed then s.finalize i c r (.error (.closed "transcription adapter is closed"))
  else
    let s := { s with active := s.active ++ [r] }
    if response.isSuccess = false then
      s.finalize i c r (.error (.http response.statusCode (safeRequestId response.requestId)))
    else if response.declaresTooMuch s.config.maxResponseBytes then
      s.finalize i c r (.error (.protocol "transcription response exceeded configured byte limit"))
    else s.readOn i c r []

/-- What a recognition makes of an operation that did not come to a value. -/
def sendError : HttpOutcome ℕ → AsrError
  | .timeout => .timeout "transcription request timed out"
  | .error typeName => .transport "transcription transport failed" typeName
  | .other code => .library code
  | .ok _ => .cancelled

/-- What a recognition makes of a piece that did not come. -/
def readError (closed : Bool) : HttpOutcome (Option Bytes) → AsrError
  | .timeout => .timeout "transcription response timed out"
  | .error typeName =>
    if closed then .closed "transcription adapter closed during response"
    else .transport "transcription response failed" typeName
  | .other code => .library code
  | .ok _ => .cancelled

/-- A recognition resumes with the piece it waited for. -/
def handle (s : Recognizer) (i : ℕ) (c : RecognitionCall) (r : ℕ) (body : Bytes) :
    HttpOutcome (Option Bytes) → Recognizer
  | .ok (some chunk) =>
    if s.config.maxResponseBytes < body.length + chunk.length then
      s.finalize i c r (.error (.protocol "transcription response exceeded configured byte limit"))
    else s.readOn i c r (body ++ chunk)
  | .ok none => s.finalize i c r (normalizeResponse s.loads s.config c.utteranceId body)
  | failure => s.finalize i c r (.error (readError s.closed failure))

/-- A recognition resumes and finds its cancellation; what the operation came to is dropped, except
for an exception. The end of the body is one: what was read is still looked at. -/
def abandon (s : Recognizer) (i : ℕ) (c : RecognitionCall) : RecognitionPhase → Option Recognizer
  | .sending none => some (s.move i c (.finished (.error .cancelled)))
  | .sending (some answer) => some (s.move i c (.finished (.error (sendError answer))))
  | .reading r _ none => some (s.finalize i c r (.error .cancelled))
  | .reading r body (some (.ok none)) =>
    some (s.finalize i c r (normalizeResponse s.loads s.config c.utteranceId body))
  | .reading r _ (some piece) => some (s.finalize i c r (.error (readError s.closed piece)))
  | .closing _ _ | .finished _ => none

/-- The calling task is cancelled where a recognition waits. -/
def interrupt (s : Recognizer) (i : ℕ) (c : RecognitionCall) : RecognitionPhase → Option Recognizer
  | .sending _ | .closing _ _ => some (s.move i c (.finished (.error .cancelled)))
  | .reading r _ _ => some (s.finalize i c r (.error .cancelled))
  | .finished _ => none

/-- The steps of a recognizer, of its callers, and of the HTTP library. -/
inductive Label where
  | recognize (utterance : PcmUtterance) (token : Option Bool)
  | cancel (call : ℕ)
  /-- The HTTP library has a response. -/
  | responds (call statusCode : ℕ) (requestId : Option Text) (contentLength : Option (Option ℤ))
  /-- The HTTP library hands a piece out. -/
  | hands (call : ℕ) (chunk : Bytes)
  /-- The HTTP library comes to the end of the body. -/
  | ends (call : ℕ)
  /-- The HTTP library raises. -/
  | fails (call : ℕ) (failure : HttpOutcome Empty)
  /-- A recognition resumes, and finds its cancellation or what it waited for. -/
  | resumes (call : ℕ) (cancelled : Bool)
  | interrupted (call : ℕ)
  /-- The response of a recognition is closed. -/
  | closes (call : ℕ)
  | closeRaises (call code : ℕ)
  | aclose
  /-- A call of `aclose` closes the next of its responses. -/
  | acloseCloses (call : ℕ)
  | acloseFails (call : ℕ)
  | acloseReturns (call : ℕ)

/-- **One step.** -/
def next (s : Recognizer) : Label → Option Recognizer
  | .recognize utterance token => some { s with
      calls := s.calls ++ [⟨utterance.utteranceId, token, s.begin utterance token⟩] }
  | .cancel i => s.calls[i]?.bind fun c => match c.token with
    | some _ => some { s with calls := s.calls.set i { c with token := some true } }
    | none => none
  | .responds i statusCode requestId contentLength => s.calls[i]?.bind fun c => match c.phase with
    | .sending none => some { s.move i c (.sending (some (.ok s.responses.length))) with
        responses := s.responses ++ [⟨i, statusCode, requestId, contentLength, [], false, false⟩] }
    | _ => none
  | .hands i chunk => s.calls[i]?.bind fun c => match c.phase with
    | .reading r body none => some { s.move i c (.reading r body (some (.ok (some chunk)))) with
        responses := s.responses.modify r fun response =>
          { response with delivered := response.delivered ++ [chunk] } }
    | _ => none
  | .ends i => s.calls[i]?.bind fun c => match c.phase with
    | .reading r body none => some { s.move i c (.reading r body (some (.ok none))) with
        responses := s.responses.modify r fun response => { response with ended := true } }
    | _ => none
  -- the library may fail in either wait
  | .fails i failure => s.calls[i]?.bind fun c => match c.phase with
    | .sending none => some (s.move i c (.sending (some failure.failure)))
    | .reading r body none => some (s.move i c (.reading r body (some failure.failure)))
    | _ => none
  | .resumes i cancelled => s.calls[i]?.bind fun c =>
    -- the helper task of a wait wakes it once the token is cancelled
    if cancelled then if c.isCancelled then s.abandon i c c.phase else none
    else match c.phase with
      | .sending (some (.ok r)) => s.responses[r]?.map fun response => s.received i c r response
      | .sending (some failure) => some (s.move i c (.finished (.error (sendError failure))))
      | .reading r body (some piece) => some (s.handle i c r body piece)
      | _ => none
  | .interrupted i => s.calls[i]?.bind fun c => s.interrupt i c c.phase
  | .closes i => s.calls[i]?.bind fun c => match c.phase with
    | .closing _ (.ok transcript) =>
      -- the token is asked once more, now that the response is closed
      if c.isCancelled then some (s.move i c (.finished (.error .cancelled)))
      else some (s.move i c (.finished (.ok transcript)))
    | .closing _ (.error e) => some (s.move i c (.finished (.error e)))
    | _ => none
  | .closeRaises i code => s.calls[i]?.bind fun c => match c.phase with
    | .closing _ _ => some (s.move i c (.finished (.error (.library code))))
    | _ => none
  | .aclose =>
    -- a second call finds nothing left to close
    if s.closed then some { s with closings := s.closings ++ [.returned] }
    else some { s with closed := true, active := [], closings := s.closings ++ [.closing s.active] }
  | .acloseCloses j => match s.closings[j]? with
    | some (.closing (r :: remaining)) =>
      some { s.closeResponse r with closings := s.closings.set j (.closing remaining) }
    | _ => none
  | .acloseFails j => match s.closings[j]? with
    | some (.closing _) => some { s with closings := s.closings.set j .failed }
    | _ => none
  | .acloseReturns j => match s.closings[j]? with
    | some (.closing []) => some { s with closings := s.closings.set j .returned }
    | _ => none

/-- A recognizer from its construction on. -/
def machine : Machine Recognizer Label where
  start s := ∃ config loads, s = create config loads
  next := next

end Recognizer

end Eeveetuber
