import Eeveetuber.Adapters.SseDecoder
import Eeveetuber.Dialogue.Types
import Eeveetuber.Domain.Payload

/-!
# The events of a model's stream

Each event of a model's stream is a JSON object, from which
`Eeveetuber.OpenAICompatibleModelProvider.normalizeDataEvent` takes the new text, the finish reason
and the token counts; the finish reason and the counts are kept in an `Eeveetuber.StreamState`.

What an event says by itself is its `Eeveetuber.EventContent`;
`Eeveetuber.OpenAICompatibleModelProvider.normalizeDataEvent_eq` splits the normalisation into this
and what the state makes of it, `Eeveetuber.StreamState.take`. So the state after some events is
`Eeveetuber.stateOf` of their contents.

An event that is not as it should be raises a `Eeveetuber.ModelProtocolError`, except that a part
of the content whose `type` is a list or an object raises a `TypeError`.
-/

namespace Eeveetuber

open Foundation

/-- What `json.loads` may return. -/
inductive JsonValue where
  | null
  | bool (b : Bool)
  | int (n : ℤ)
  | float (x : PyFloat)
  | str (t : Text)
  | list (items : List JsonValue)
  /-- Each key once. -/
  | dict (items : List (Text × JsonValue))

namespace JsonValue

/-- `mapping.get(key)`. -/
def get (items : List (Text × JsonValue)) (key : String) : JsonValue :=
  match items.find? (·.1 = key.toList) with
  | some (_, value) => value
  | none => null

/-- `key in mapping`. -/
def contains (items : List (Text × JsonValue)) (key : String) : Bool :=
  items.any (·.1 = key.toList)

/-- `value == 0`. -/
def isZero : JsonValue → Bool
  | bool b => !b
  | int n => n = 0
  | float x => x = .finite 0
  | _ => false

/-- `bool(value)`. -/
def isTrue : JsonValue → Bool
  | null => false
  | bool b => b
  | int n => n ≠ 0
  | float x => x ≠ .finite 0
  | str t => t ≠ []
  | list items => !items.isEmpty
  | dict items => !items.isEmpty

end JsonValue

/-- What a stream may raise. -/
inductive StreamError where
  | protocol (error : ModelProtocolError)
  /-- A value of this type is not hashable. -/
  | typeError (type : String)
deriving DecidableEq

/-- Raise a `ModelProtocolError`. -/
def protocolError {α : Type} (message : String) : Except StreamError α :=
  .error (.protocol ⟨message.toList⟩)

/-- What a stream has said so far. -/
structure StreamState where
  stopReason : Option ModelStopReason := none
  rawStopReason : Option Text := none
  inputTokens : Option ℕ := none
  outputTokens : Option ℕ := none
deriving DecidableEq, Repr

/-- `text.split()`. -/
def words (t : Text) : List Text := (t.splitOnP isSpace).filter (· ≠ [])

/-- `str.lower()`, up to characters that ASCII does not have: of those, only the sign of the unit
kelvin becomes a letter that it has. -/
def lower (t : Text) : Text := t.map fun c => if c = '\u212a' then 'k' else c.toLower

namespace OpenAICompatibleModelProvider

/-- A text in one line and at most so long. -/
def boundText (text : Text) (limit : ℕ) : Text :=
  let collapsed := [' '].intercalate (words text)
  if collapsed.length ≤ limit then collapsed else collapsed.take limit ++ ['…']

/-- What an endpoint says about an error. -/
def errorMessageFromPayload : JsonValue → Text
  | .dict payload =>
    match JsonValue.get payload "message", JsonValue.get payload "type" with
    | .str message, .str errorType =>
      if errorType ≠ [] then boundText (errorType ++ ": ".toList ++ message) 1024
      else boundText message 1024
    | .str message, _ => boundText message 1024
    | _, _ => "unspecified provider error".toList
  | .str payload => boundText payload 1024
  | _ => "unspecified provider error".toList

/-- A token count, which may be missing. -/
def optionalTokenCount : JsonValue → Except StreamError (Option ℕ)
  | .null => .ok none
  | .int n =>
    if n < 0 then protocolError "token usage values must be non-negative integers"
    else .ok (some n.toNat)
  | _ => protocolError "token usage values must be non-negative integers"

def isComplete (reason : Text) : Bool :=
  reason ∈ ["stop".toList, "complete".toList, "completed".toList, "eos".toList, "end_turn".toList]

def isLength (reason : Text) : Bool :=
  reason ∈ ["length".toList, "max_tokens".toList, "max_output_tokens".toList]

def isCancelled (reason : Text) : Bool := reason ∈ ["cancelled".toList, "canceled".toList]

/-- The finish reasons of endpoints. -/
def mapStopReason (reason : Text) : ModelStopReason :=
  let normalized := lower (strip reason)
  if isComplete normalized then .complete
  else if isLength normalized then .length
  else if isCancelled normalized then .cancelled
  else .error

/-- A part of a content, and the text that it has. -/
def extractPart : JsonValue → Except StreamError (List Text)
  | .dict part =>
    -- `part_type not in {"text", "output_text"}` hashes the type
    match JsonValue.get part "type", JsonValue.get part "text" with
    | .list _, _ => .error (.typeError "list")
    | .dict _, _ => .error (.typeError "dict")
    | .str partType, .str text =>
      if partType = "text".toList ∨ partType = "output_text".toList then
        .ok (if text = [] then [] else [text])
      else protocolError "unsupported non-text delta content part"
    | _, _ => protocolError "unsupported non-text delta content part"
  | _ => protocolError "delta content parts must be objects"

def extractParts : List JsonValue → Except StreamError (List Text)
  | [] => .ok []
  | part :: content => do
    let text ← extractPart part
    let parts ← extractParts content
    return text ++ parts

/-- The text of a content. -/
def extractText : JsonValue → Except StreamError (List Text)
  | .null => .ok []
  | .str content => .ok (if content = [] then [] else [content])
  | .list content => extractParts content
  | _ => protocolError "delta content must be text, text parts, or null"

/-- All choices must be objects. -/
def choiceObjects : List JsonValue → Except StreamError (List (List (Text × JsonValue)))
  | [] => .ok []
  | .dict item :: choices => do
    let candidates ← choiceObjects choices
    return item :: candidates
  | _ :: _ => protocolError "each model choice must be an object"

/-- The choice of index zero, or else the first one. -/
def selectChoice (choices : List JsonValue) : Except StreamError (List (Text × JsonValue)) := do
  let candidates ← choiceObjects choices
  return (candidates.find? fun candidate => (JsonValue.get candidate "index").isZero).getD
    (candidates.headD [])

/-- The text of the delta of a choice. -/
def readDelta : JsonValue → Except StreamError (List Text)
  | .null => .ok []
  | .dict delta =>
    if (JsonValue.get delta "tool_calls").isTrue ||
        (JsonValue.get delta "function_call").isTrue then
      protocolError "endpoint emitted tool calls on a text-only model contract"
    else extractText (JsonValue.get delta "content")
  | _ => protocolError "choice delta must be an object"

/-- The data of an event must be a JSON object, and it must not report an error. -/
def parseObject (loads : Text → Option JsonValue) (data : Text) :
    Except StreamError (List (Text × JsonValue)) :=
  match loads data with
  | none => .error (.protocol ⟨"invalid JSON in model SSE event: ".toList ++ boundText data 160⟩)
  | some (.dict parsed) =>
    match JsonValue.get parsed "error" with
    | .null => .ok parsed
    | errorPayload => .error (.protocol
        ⟨"model stream reported an error: ".toList ++ errorMessageFromPayload errorPayload⟩)
  | some _ => protocolError "model SSE event must be a JSON object"

/-- The token counts, where they are reported. -/
def readUsage (state : StreamState) : JsonValue → Except StreamError StreamState
  | .null => .ok state
  | .dict usage => do
    let state ← if JsonValue.contains usage "prompt_tokens" then do
        let inputTokens ← optionalTokenCount (JsonValue.get usage "prompt_tokens")
        pure { state with inputTokens }
      else pure state
    if JsonValue.contains usage "completion_tokens" then do
      let outputTokens ← optionalTokenCount (JsonValue.get usage "completion_tokens")
      return { state with outputTokens }
    else return state
  | _ => protocolError "model usage must be an object"

/-- The finish reason, of which there may be only one. -/
def readFinishReason (state : StreamState) : JsonValue → Except StreamError StreamState
  | .null => .ok state
  | .str reason =>
    if reason = [] then protocolError "finish_reason must be a non-empty string or null"
    else if state.rawStopReason ≠ none ∧ state.rawStopReason ≠ some reason then
      protocolError "model stream emitted conflicting finish reasons"
    else .ok { state with rawStopReason := some reason, stopReason := some (mapStopReason reason) }
  | _ => protocolError "finish_reason must be a non-empty string or null"

/-- The new text of an event, and the state after it. -/
def normalizeDataEvent (loads : Text → Option JsonValue) (data : Text) (state : StreamState) :
    Except StreamError (StreamState × List Text) := do
  let parsed ← parseObject loads data
  let usage := JsonValue.get parsed "usage"
  let state ← readUsage state usage
  match JsonValue.get parsed "choices" with
  | .null =>
    match usage with
    | .null => protocolError "model SSE event omitted choices"
    | _ => return (state, [])
  | .list [] => return (state, [])
  | .list choices => do
    let choice ← selectChoice choices
    let texts ← readDelta (JsonValue.get choice "delta")
    let state ← readFinishReason state (JsonValue.get choice "finish_reason")
    return (state, texts)
  | _ => protocolError "model choices must be an array"

/-! ### What an event says by itself -/

/-- **The content of an event.** A token count may be reported to be missing. -/
structure EventContent where
  texts : List Text
  finishReason : Option Text
  inputTokens : Option (Option ℕ)
  outputTokens : Option (Option ℕ)
deriving DecidableEq, Repr

/-- A token count, if it is reported. -/
def reportedCount (usage : List (Text × JsonValue)) (key : String) :
    Except StreamError (Option (Option ℕ)) :=
  if JsonValue.contains usage key then do
    let count ← optionalTokenCount (JsonValue.get usage key)
    return some count
  else return none

/-- The token counts that are reported. -/
def usageCounts : JsonValue → Except StreamError (Option (Option ℕ) × Option (Option ℕ))
  | .null => .ok (none, none)
  | .dict usage => do
    let inputTokens ← reportedCount usage "prompt_tokens"
    let outputTokens ← reportedCount usage "completion_tokens"
    return (inputTokens, outputTokens)
  | _ => protocolError "model usage must be an object"

/-- The finish reason, if there is one. -/
def finishReasonOf : JsonValue → Except StreamError (Option Text)
  | .null => .ok none
  | .str reason =>
    if reason = [] then protocolError "finish_reason must be a non-empty string or null"
    else .ok (some reason)
  | _ => protocolError "finish_reason must be a non-empty string or null"

/-- The content of the data of an event. -/
def eventContent (loads : Text → Option JsonValue) (data : Text) :
    Except StreamError EventContent := do
  let parsed ← parseObject loads data
  let usage := JsonValue.get parsed "usage"
  let counts ← usageCounts usage
  match JsonValue.get parsed "choices" with
  | .null =>
    match usage with
    | .null => protocolError "model SSE event omitted choices"
    | _ => return ⟨[], none, counts.1, counts.2⟩
  | .list [] => return ⟨[], none, counts.1, counts.2⟩
  | .list choices => do
    let choice ← selectChoice choices
    let texts ← readDelta (JsonValue.get choice "delta")
    let finishReason ← finishReasonOf (JsonValue.get choice "finish_reason")
    return ⟨texts, finishReason, counts.1, counts.2⟩
  | _ => protocolError "model choices must be an array"

end OpenAICompatibleModelProvider

open OpenAICompatibleModelProvider

namespace StreamState

variable {state : StreamState}

/-- The state with the token counts that are reported. -/
def report (state : StreamState) (inputTokens outputTokens : Option (Option ℕ)) : StreamState :=
  { state with
    inputTokens := inputTokens.getD state.inputTokens
    outputTokens := outputTokens.getD state.outputTokens }

/-- The state with a finish reason. -/
def finish (state : StreamState) : Option Text → Except StreamError StreamState
  | none => .ok state
  | some reason =>
    if state.rawStopReason ≠ none ∧ state.rawStopReason ≠ some reason then
      protocolError "model stream emitted conflicting finish reasons"
    else .ok { state with rawStopReason := some reason, stopReason := some (mapStopReason reason) }

/-- The state after an event. -/
def take (state : StreamState) (content : EventContent) : Except StreamError StreamState :=
  (state.report content.inputTokens content.outputTokens).finish content.finishReason

end StreamState

namespace OpenAICompatibleModelProvider

theorem readUsage_eq (state : StreamState) (usage : JsonValue) :
    readUsage state usage =
      (usageCounts usage).map fun counts => state.report counts.1 counts.2 := by
  rcases usage with _ | b | n | x | t | items | usage
  · rfl
  · rfl
  · rfl
  · rfl
  · rfl
  · rfl
  · rw [readUsage, usageCounts, reportedCount, reportedCount]
    by_cases hinput : JsonValue.contains usage "prompt_tokens"
    · rw [if_pos hinput, if_pos hinput]
      rcases optionalTokenCount (JsonValue.get usage "prompt_tokens") with err | inputTokens
      · rfl
      · by_cases houtput : JsonValue.contains usage "completion_tokens"
        · rw [if_pos houtput]
          show (if _ then _ else _) = _
          rw [if_pos houtput]
          rcases optionalTokenCount (JsonValue.get usage "completion_tokens") with err | count
          · rfl
          · rfl
        · rw [if_neg houtput]
          show (if _ then _ else _) = _
          rw [if_neg houtput]
          rfl
    · rw [if_neg hinput, if_neg hinput]
      by_cases houtput : JsonValue.contains usage "completion_tokens"
      · rw [if_pos houtput]
        show (if _ then _ else _) = _
        rw [if_pos houtput]
        rcases optionalTokenCount (JsonValue.get usage "completion_tokens") with err | count
        · rfl
        · rfl
      · rw [if_neg houtput]
        show (if _ then _ else _) = _
        rw [if_neg houtput]
        rfl

theorem readFinishReason_eq (state : StreamState) (reason : JsonValue) :
    readFinishReason state reason = finishReasonOf reason >>= state.finish := by
  rcases reason with _ | b | n | x | t | items | items
  · rfl
  · rfl
  · rfl
  · rfl
  · rw [readFinishReason, finishReasonOf]
    split_ifs with hempty hconflict
    · rfl
    · exact (if_pos hconflict).symm
    · exact (if_neg hconflict).symm
  · rfl
  · rfl

/-- **The normalisation of an event** reads what it says and then changes the state. -/
theorem normalizeDataEvent_eq (loads : Text → Option JsonValue) (data : Text)
    (state : StreamState) :
    normalizeDataEvent loads data state = do
      let content ← eventContent loads data
      let state ← state.take content
      return (state, content.texts) := by
  rw [normalizeDataEvent, eventContent]
  rcases parseObject loads data with err | parsed
  · rfl
  · show (readUsage state (JsonValue.get parsed "usage") >>= _) =
      (usageCounts (JsonValue.get parsed "usage") >>= _) >>= _
    rw [readUsage_eq]
    rcases usageCounts (JsonValue.get parsed "usage") with err | counts
    · rfl
    · show (match JsonValue.get parsed "choices" with
        | .null => _
        | .list [] => _
        | .list _ => _
        | _ => _) = (match JsonValue.get parsed "choices" with
        | .null => _
        | .list [] => _
        | .list _ => _
        | _ => _) >>= _
      rcases JsonValue.get parsed "choices" with _ | b | n | x | t | choices | items
      · rcases JsonValue.get parsed "usage" with _ | b | n | x | t | items | items
        all_goals rfl
      · rfl
      · rfl
      · rfl
      · rfl
      · rcases choices with _ | ⟨first, choices⟩
        · rfl
        · dsimp only
          rcases selectChoice (first :: choices) with err | choice
          · rfl
          · show (readDelta _ >>= _) = (readDelta _ >>= _) >>= _
            rcases readDelta (JsonValue.get choice "delta") with err | texts
            · rfl
            · show (readFinishReason _ _ >>= _) = (finishReasonOf _ >>= _) >>= _
              rw [readFinishReason_eq]
              rcases finishReasonOf (JsonValue.get choice "finish_reason") with err | reason
              · rfl
              · rfl
      · rfl

end OpenAICompatibleModelProvider

/-! ### The state after some events -/

/-- The finish reasons of some events. -/
def finishReasons (contents : List EventContent) : List Text := contents.filterMap (·.finishReason)

/-- **Events that agree** have at most one finish reason. -/
def AgreeingReasons (contents : List EventContent) : Prop :=
  ∀ r ∈ finishReasons contents, ∀ r' ∈ finishReasons contents, r = r'

instance : DecidablePred AgreeingReasons := fun contents =>
  inferInstanceAs (Decidable (∀ r ∈ finishReasons contents, ∀ r' ∈ finishReasons contents, r = r'))

/-- **The state after some events**: the finish reason, and the token counts that were reported
last. -/
def stateOf (contents : List EventContent) : StreamState where
  rawStopReason := (finishReasons contents).getLast?
  stopReason := (finishReasons contents).getLast?.map mapStopReason
  inputTokens := (contents.filterMap (·.inputTokens)).getLast?.getD none
  outputTokens := (contents.filterMap (·.outputTokens)).getLast?.getD none

theorem agreeingReasons_nil : AgreeingReasons [] := nofun

theorem getD_getLast?_concat (contents : List EventContent) (content : EventContent)
    (f : EventContent → Option (Option ℕ)) :
    ((contents ++ [content]).filterMap f).getLast?.getD none =
      (f content).getD ((contents.filterMap f).getLast?.getD none) := by
  rw [List.filterMap_append, List.filterMap_cons, List.filterMap_nil]
  rcases f content with _ | count
  · rw [List.append_nil]
    rfl
  · rw [List.getLast?_concat]
    rfl

theorem finishReasons_concat (contents : List EventContent) (content : EventContent) :
    finishReasons (contents ++ [content]) =
      finishReasons contents ++ content.finishReason.toList := by
  rw [finishReasons, List.filterMap_append, List.filterMap_cons, List.filterMap_nil]
  rcases content.finishReason with _ | reason
  · rfl
  · rfl

theorem report_stateOf (contents : List EventContent) (content : EventContent) :
    (stateOf contents).report content.inputTokens content.outputTokens =
      { stateOf contents with
        inputTokens := (stateOf (contents ++ [content])).inputTokens
        outputTokens := (stateOf (contents ++ [content])).outputTokens } := by
  rw [StreamState.report, stateOf, stateOf, getD_getLast?_concat, getD_getLast?_concat]

/-- **An event changes the state** unless its finish reason is another one. -/
theorem take_stateOf {contents : List EventContent} (h : AgreeingReasons contents)
    (content : EventContent) :
    (stateOf contents).take content =
      if AgreeingReasons (contents ++ [content]) then .ok (stateOf (contents ++ [content]))
      else protocolError "model stream emitted conflicting finish reasons" := by
  have hreasons := finishReasons_concat contents content
  rw [StreamState.take, report_stateOf]
  rcases hreason : content.finishReason with _ | reason
  · rw [hreason, Option.toList_none, List.append_nil] at hreasons
    have hagree : AgreeingReasons (contents ++ [content]) := by
      rw [AgreeingReasons, hreasons]
      exact h
    rw [if_pos hagree, stateOf, stateOf, hreasons]
    rfl
  · rw [hreason, Option.toList_some] at hreasons
    -- the reasons so far are all the last one
    have hlast : (stateOf contents).rawStopReason = (finishReasons contents).getLast? := rfl
    have hconflict : ((stateOf contents).rawStopReason ≠ none ∧
        (stateOf contents).rawStopReason ≠ some reason) ↔
        ¬AgreeingReasons (contents ++ [content]) := by
      rw [hlast, AgreeingReasons, hreasons]
      constructor
      · rintro ⟨hne, hother⟩ hagree
        obtain ⟨r, hr⟩ := Option.ne_none_iff_exists'.mp hne
        rw [hr] at hother
        refine hother (congrArg some ?_)
        exact hagree r (List.mem_append_left _ (List.mem_of_getLast? hr)) reason (by simp)
      · intro hagree
        constructor
        · intro hnone
          rw [List.getLast?_eq_none_iff.mp hnone] at hagree
          exact hagree fun r hr r' hr' => by
            rw [List.mem_singleton.mp hr, List.mem_singleton.mp hr']
        · intro hsome
          have hall : ∀ r ∈ finishReasons contents ++ [reason], r = reason := by
            intro r hr
            rcases List.mem_append.mp hr with hr | hr
            · exact h r hr reason (List.mem_of_getLast? hsome)
            · exact List.mem_singleton.mp hr
          exact hagree fun r hr r' hr' => (hall r hr).trans (hall r' hr').symm
    show (if _ then _ else _) = _
    by_cases hagree : AgreeingReasons (contents ++ [content])
    · rw [if_neg fun hc => hconflict.mp hc hagree, if_pos hagree, stateOf, stateOf, hreasons,
        List.getLast?_concat]
      rfl
    · rw [if_pos (hconflict.mpr hagree), if_neg hagree]

end Eeveetuber
