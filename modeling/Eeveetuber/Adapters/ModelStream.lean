import Eeveetuber.Adapters.DataEvents
import Eeveetuber.Adapters.ModelEvents
import Eeveetuber.Foundation.Stateful

/-!
# The stream of a model

`Eeveetuber.OpenAICompatibleModelProvider.stream` decodes the body of a response chunk by chunk,
normalises the events that a chunk completes and yields their text, up to the event that says
`[DONE]` or to the end of the body, and yields one completion at last.

What should come of a body is its `Eeveetuber.reading`: the contents of its data events before the
first `[DONE]`, or that something is wrong with one of them. It does not say anything about chunks,
or about what comes behind `[DONE]` (`Eeveetuber.reading_append_of_done`).

The stream does not always conform to it: a chunk is decoded as a whole before its events are
looked at, so that bytes behind `[DONE]` raise if they happen to be in the same chunk
(`Eeveetuber.OpenAICompatibleModelProvider.stream_not_conforming`), and an event may raise a
`TypeError`. `Eeveetuber.OpenAICompatibleModelProvider.stream_conforms_iff` has the exact
condition.
-/

namespace Eeveetuber

open Foundation Stateful

/-- Computations that yield events of a stream. -/
abbrev Yielding := Stateful (List ModelStreamEvent) StreamError

/-- Yield an event. -/
def yieldEvent (event : ModelStreamEvent) : Yielding Unit := modify (· ++ [event])

/-- A computation that may raise a `ModelProtocolError`. -/
def protocolErrors {α : Type} (x : Except ModelProtocolError α) : Except StreamError α :=
  x.mapError .protocol

/-- The data that ends a stream. -/
def doneMark : Text := "[DONE]".toList

namespace OpenAICompatibleModelProvider

variable (loads : Text → Option JsonValue)

/-- Normalise the data of an event and yield its text. -/
def yieldData (state : StreamState) (data : Text) : Yielding StreamState := do
  let (state, texts) ← liftM (normalizeDataEvent loads data state)
  texts.forM fun text => yieldEvent (.textDelta text)
  return state

/-- The events of a chunk, up to `[DONE]`. -/
def handleData (state : StreamState) : List Text → Yielding (StreamState × Bool)
  | [] => return (state, false)
  | data :: rest =>
    if strip data = doneMark then return (state, true)
    else if strip data = [] then handleData state rest
    else do
      let state ← yieldData loads state data
      handleData state rest

/-- The events at the end of the body. -/
def handleRest (state : StreamState) : List Text → Yielding (StreamState × Bool)
  | [] => return (state, false)
  | data :: rest =>
    if strip data = doneMark then do
      let (state, _) ← handleRest state rest
      return (state, true)
    else if strip data = [] then handleRest state rest
    else do
      let state ← yieldData loads state data
      handleRest state rest

/-- The loop over the chunks. -/
def readChunks (decoder : SseDecoder) (state : StreamState) :
    List Bytes → Yielding (SseDecoder × StreamState × Bool)
  | [] => return (decoder, state, false)
  | chunk :: chunks => do
    let (decoder, events) ← liftM (protocolErrors (decoder.feed chunk))
    let (state, sawDone) ← handleData loads state events
    if sawDone then return (decoder, state, true)
    else readChunks decoder state chunks

/-- What is left to do after the chunks. -/
def endStream (decoder : SseDecoder) (state : StreamState) (sawDone : Bool) : Yielding Unit := do
  let (state, sawDone) ←
    if sawDone then pure (state, true)
    else do
      let (_, events) ← liftM (protocolErrors decoder.finish)
      handleRest loads state events
  if sawDone = false ∧ state.stopReason = none then
    throw (.protocol ⟨"model stream ended without [DONE] or a finish reason".toList⟩)
  else yieldEvent (.completed {
    stopReason := state.stopReason.getD .complete
    inputTokens := state.inputTokens
    outputTokens := state.outputTokens })

/-- Read the chunks that are left. -/
def streamFrom (decoder : SseDecoder) (state : StreamState) (chunks : List Bytes) :
    Yielding Unit := do
  let (decoder, state, sawDone) ← readChunks loads decoder state chunks
  endStream loads decoder state sawDone

/-- **Read a response**, of which the body comes in by chunks. -/
def stream (config : OpenAICompatibleModelConfig) (chunks : List Bytes) : Yielding Unit :=
  streamFrom loads (SseDecoder.create config.maxSseEventBytes) {} chunks

end OpenAICompatibleModelProvider

open OpenAICompatibleModelProvider

/-! ### What should come of a body -/

/-- What comes of the data events of a body. -/
inductive BodyReading where
  /-- The events before `[DONE]` or the end have these contents. -/
  | completed (contents : List EventContent)
  | protocolError
  | typeError

/-- What an event comes to that is not as it should be. -/
def BodyReading.ofError : StreamError → BodyReading
  | .protocol _ => .protocolError
  | .typeError _ => .typeError

/-- Read data events, after some others. -/
def readEvents (loads : Text → Option JsonValue) (seen : List EventContent) :
    List DataEvent → BodyReading
  | [] => if finishReasons seen = [] then .protocolError else .completed seen
  | .malformed :: _ => .protocolError
  | .data data :: events =>
    if strip data = doneMark then .completed seen
    else if strip data = [] then readEvents loads seen events
    else match eventContent loads data with
      | .error err => .ofError err
      | .ok content =>
        if AgreeingReasons (seen ++ [content]) then readEvents loads (seen ++ [content]) events
        else .protocolError

/-- **What should come of a body.** -/
def reading (config : OpenAICompatibleModelConfig) (loads : Text → Option JsonValue)
    (body : Bytes) : BodyReading :=
  readEvents loads [] (dataEvents config.maxSseEventBytes body)

/-- The text of some events, as it is yielded. -/
def spokenText (contents : List EventContent) : List ModelStreamEvent :=
  (contents.flatMap (·.texts)).map .textDelta

/-- The completion after some events: the stop reason is that of the only finish reason, and the
token counts are those that were reported last. -/
def completion (contents : List EventContent) : ModelCompleted where
  stopReason := ((finishReasons contents).head?.map mapStopReason).getD .complete
  inputTokens := (contents.filterMap (·.inputTokens)).getLast?.getD none
  outputTokens := (contents.filterMap (·.outputTokens)).getLast?.getD none

/-- How a stream ends, and what it has yielded. -/
abbrev StreamOutcome := Except StreamError Unit × List ModelStreamEvent

/-- **To conform to a reading** is to yield its text and one completion, or else to raise a
`ModelProtocolError`. -/
def Conforms (outcome : StreamOutcome) : BodyReading → Prop
  | .completed contents =>
    outcome = (.ok (), spokenText contents ++ [.completed (completion contents)])
  | _ => ∃ err, outcome.1 = .error (.protocol err)

/-- The same, with the `TypeError` of an event. -/
def Matches (outcome : StreamOutcome) : BodyReading → Prop
  | .completed contents =>
    outcome = (.ok (), spokenText contents ++ [.completed (completion contents)])
  | .protocolError => ∃ err, outcome.1 = .error (.protocol err)
  | .typeError => ∃ type, outcome.1 = .error (.typeError type)

section

variable {loads : Text → Option JsonValue} {seen : List EventContent}
  {events events' : List DataEvent}

/-- Marks end a reading. -/
theorem readEvents_cut : readEvents loads seen (cut events) = readEvents loads seen events := by
  induction events generalizing seen with
  | nil => rfl
  | cons event events ih =>
    rcases event with _ | data
    · rfl
    · rw [cut, readEvents, readEvents, ih]
      split_ifs
      · rfl
      · rfl
      · rcases eventContent loads data with err | content
        · rfl
        · dsimp only
          rw [ih]

theorem readEvents_congr (h : IsSame events events') :
    readEvents loads seen events = readEvents loads seen events' := by
  rw [← readEvents_cut, h, readEvents_cut]

/-- What comes behind `[DONE]` is not read. -/
theorem readEvents_append_of_done {data : Text} (hmem : .data data ∈ events)
    (hdone : strip data = doneMark) (more : List DataEvent) :
    readEvents loads seen (events ++ more) = readEvents loads seen events := by
  induction events generalizing seen with
  | nil => cases hmem
  | cons event events ih =>
    rcases event with _ | text
    · rfl
    · rw [List.cons_append, readEvents, readEvents]
      split_ifs with hmark hblank
      · rfl
      all_goals
        -- another event: the mark is among those that follow
        have hrest : DataEvent.data data ∈ events := (List.mem_cons.mp hmem).resolve_left fun h =>
          hmark (DataEvent.data.inj h ▸ hdone)
      · exact ih hrest
      · rcases eventContent loads text with err | content
        · rfl
        · dsimp only
          rw [ih hrest]

/-- **Bytes behind `[DONE]` do not matter**: once a blank line has ended such an event, the reading
is the same whatever follows. -/
theorem reading_append_of_done {config : OpenAICompatibleModelConfig} {body : Bytes} {data : Text}
    (hmem : .data data ∈ endedEvents config.maxSseEventBytes body) (hdone : strip data = doneMark)
    (rest : Bytes) : reading config loads (body ++ rest) = reading config loads body := by
  obtain ⟨more, hmore⟩ := SseDecoder.exists_dataEvents_append config.maxSseEventBytes body rest
  obtain ⟨last, hlast⟩ := SseDecoder.exists_dataEvents_append config.maxSseEventBytes body []
  rw [List.append_nil] at hlast
  rw [reading, reading, hmore, hlast, readEvents_append_of_done hmem hdone,
    readEvents_append_of_done hmem hdone]

end

namespace OpenAICompatibleModelProvider

variable {loads : Text → Option JsonValue} {seen : List EventContent} {d d' : SseDecoder}
  {chunk : Bytes} {chunks : List Bytes} {events : List Text}

/-! ### One event after the other -/

theorem outcome_forM_yieldEvent (texts : List Text) (yielded : List ModelStreamEvent) :
    outcome (texts.forM fun text => yieldEvent (.textDelta text)) yielded =
      (.ok (), yielded ++ texts.map .textDelta) := by
  induction texts generalizing yielded with
  | nil => exact congrArg (fun ys => (Except.ok (), ys)) (List.append_nil yielded).symm
  | cons text texts ih =>
    have hfirst : outcome (yieldEvent (.textDelta text)) yielded =
      (.ok (), yielded ++ [.textDelta text]) := rfl
    refine (outcome_bind_of_ok hfirst).trans ((ih _).trans ?_)
    rw [List.append_assoc]
    rfl

theorem spokenText_concat (contents : List EventContent) (content : EventContent) :
    spokenText (contents ++ [content]) = spokenText contents ++ content.texts.map .textDelta := by
  rw [spokenText, spokenText, List.flatMap_append, List.map_append, List.flatMap_singleton]

/-- **The normalisation of an event** that is well formed. -/
theorem outcome_yieldData {data : Text} {content : EventContent} (h : AgreeingReasons seen)
    (hcontent : eventContent loads data = .ok content)
    (hagree : AgreeingReasons (seen ++ [content])) :
    outcome (yieldData loads (stateOf seen) data) (spokenText seen) =
      (.ok (stateOf (seen ++ [content])), spokenText (seen ++ [content])) := by
  have hnormal : normalizeDataEvent loads data (stateOf seen) =
      .ok (stateOf (seen ++ [content]), content.texts) := by
    rw [normalizeDataEvent_eq, hcontent]
    show ((stateOf seen).take content >>= _) = _
    rw [take_stateOf h, if_pos hagree]
    rfl
  have hlift : outcome (liftM (normalizeDataEvent loads data (stateOf seen)) :
      Yielding (StreamState × List Text)) (spokenText seen) =
      (.ok (stateOf (seen ++ [content]), content.texts), spokenText seen) := by
    rw [outcome_lift, hnormal]
  rw [yieldData, outcome_bind_of_ok hlift]
  dsimp only
  rw [outcome_bind_of_ok (outcome_forM_yieldEvent _ _), spokenText_concat]
  rfl

/-- An event that is not well formed. -/
theorem outcome_yieldData_of_error {data : Text} {err : StreamError}
    (hnormal : normalizeDataEvent loads data (stateOf seen) = .error err) :
    outcome (yieldData loads (stateOf seen) data) (spokenText seen) =
      (.error err, spokenText seen) := by
  have hlift : outcome (liftM (normalizeDataEvent loads data (stateOf seen)) :
      Yielding (StreamState × List Text)) (spokenText seen) = (.error err, spokenText seen) := by
    rw [outcome_lift, hnormal]
  exact outcome_bind_of_error hlift

/-- **What handling some events comes to**: they end the reading, or go on with it, or raise. -/
inductive Handled (loads : Text → Option JsonValue) (seen : List EventContent)
    (events : List DataEvent) :
    Except StreamError (StreamState × Bool) × List ModelStreamEvent → Prop
  | done (seen' : List EventContent) (hagree : AgreeingReasons seen')
      (h : ∀ rest, readEvents loads seen (events ++ rest) = .completed seen') :
      Handled loads seen events (.ok (stateOf seen', true), spokenText seen')
  | more (seen' : List EventContent) (hagree : AgreeingReasons seen')
      (h : ∀ rest, readEvents loads seen (events ++ rest) = readEvents loads seen' rest) :
      Handled loads seen events (.ok (stateOf seen', false), spokenText seen')
  | error (err : StreamError) (yielded : List ModelStreamEvent)
      (h : ∀ rest, readEvents loads seen (events ++ rest) = .ofError err) :
      Handled loads seen events (.error err, yielded)

/-- Events that are read alike. -/
theorem Handled.congr {seen' : List EventContent} {events events' : List DataEvent}
    {x : Except StreamError (StreamState × Bool) × List ModelStreamEvent}
    (h : ∀ rest, readEvents loads seen (events ++ rest) = readEvents loads seen' (events' ++ rest))
    (hx : Handled loads seen' events' x) : Handled loads seen events x := by
  rcases hx with ⟨last, hagree, h'⟩ | ⟨last, hagree, h'⟩ | ⟨err, yielded, h'⟩
  · exact .done last hagree fun rest => (h rest).trans (h' rest)
  · exact .more last hagree fun rest => (h rest).trans (h' rest)
  · exact .error err yielded fun rest => (h rest).trans (h' rest)

theorem handled_handleData (events : List Text) : ∀ {seen : List EventContent},
    AgreeingReasons seen → Handled loads seen (events.map .data)
      (outcome (handleData loads (stateOf seen) events) (spokenText seen)) := by
  induction events with
  | nil =>
    intro seen h
    exact .more seen h fun rest => rfl
  | cons data events ih =>
    intro seen h
    rw [handleData]
    by_cases hdone : strip data = doneMark
    · rw [if_pos hdone]
      refine .done seen h fun rest => ?_
      rw [List.map_cons, List.cons_append, readEvents, if_pos hdone]
    · rw [if_neg hdone]
      by_cases hblank : strip data = []
      · rw [if_pos hblank]
        refine Handled.congr (fun rest => ?_) (ih h)
        rw [List.map_cons, List.cons_append, readEvents, if_neg hdone, if_pos hblank]
      · rw [if_neg hblank]
        have hread (rest : List DataEvent) :
            readEvents loads seen ((data :: events).map .data ++ rest) =
              match eventContent loads data with
              | .error err => .ofError err
              | .ok content =>
                if AgreeingReasons (seen ++ [content]) then
                  readEvents loads (seen ++ [content]) (events.map .data ++ rest)
                else .protocolError := by
          rw [List.map_cons, List.cons_append, readEvents, if_neg hdone, if_neg hblank]
        have hnormal := normalizeDataEvent_eq loads data (stateOf seen)
        rcases hcontent : eventContent loads data with err | content
        · rw [hcontent] at hnormal
          rw [outcome_bind_of_error (outcome_yieldData_of_error hnormal)]
          refine .error err _ fun rest => ?_
          rw [hread rest, hcontent]
        · by_cases hagree : AgreeingReasons (seen ++ [content])
          · rw [outcome_bind_of_ok (outcome_yieldData h hcontent hagree)]
            refine Handled.congr (fun rest => ?_) (ih hagree)
            rw [hread rest, hcontent]
            exact if_pos hagree
          · -- the finish reason is another one
            rw [hcontent] at hnormal
            have hconflict : normalizeDataEvent loads data (stateOf seen) =
                protocolError "model stream emitted conflicting finish reasons" := by
              rw [hnormal]
              show ((stateOf seen).take content >>= _) = _
              rw [take_stateOf h, if_neg hagree]
              rfl
            rw [outcome_bind_of_error (outcome_yieldData_of_error hconflict)]
            refine .error _ _ fun rest => ?_
            rw [hread rest, hcontent]
            exact if_neg hagree

/-- At most one event at the end: whether `[DONE]` leaves the loop does not matter. -/
theorem handleRest_eq (h : events.length ≤ 1) (state : StreamState) :
    handleRest loads state events = handleData loads state events := by
  rcases events with _ | ⟨data, rest⟩
  · rfl
  · rw [List.length_cons, Nat.succ_le_succ_iff, Nat.le_zero] at h
    rw [List.length_eq_zero_iff.mp h, handleRest, handleData]
    split_ifs
    · rfl
    · rfl
    · rfl

/-! ### Chunk after chunk -/

/-- What reading the chunks that are left comes to, after some events. -/
def runFrom (loads : Text → Option JsonValue) (d : SseDecoder) (seen : List EventContent)
    (chunks : List Bytes) : StreamOutcome :=
  outcome (streamFrom loads d (stateOf seen) chunks) (spokenText seen)

theorem outcome_feed_of_ok (h : d.feed chunk = .ok (d', events))
    (yielded : List ModelStreamEvent) :
    outcome (liftM (protocolErrors (d.feed chunk)) : Yielding (SseDecoder × List Text)) yielded =
      (.ok (d', events), yielded) := by
  rw [outcome_lift, h]
  rfl

/-- A chunk that raises. -/
theorem runFrom_of_error {err : ModelProtocolError} (h : d.feed chunk = .error err)
    (seen : List EventContent) (chunks : List Bytes) :
    runFrom loads d seen (chunk :: chunks) = (.error (.protocol err), spokenText seen) := by
  have hlift : outcome (liftM (protocolErrors (d.feed chunk)) :
      Yielding (SseDecoder × List Text)) (spokenText seen) =
      (.error (.protocol err), spokenText seen) := by
    rw [outcome_lift, h]
    rfl
  have hread : outcome (readChunks loads d (stateOf seen) (chunk :: chunks)) (spokenText seen) =
      (.error (.protocol err), spokenText seen) := outcome_bind_of_error hlift
  exact outcome_bind_of_error hread

/-- The completion, where `[DONE]` or a finish reason was seen. -/
theorem completion_eq (h : AgreeingReasons seen) : completion seen = {
    stopReason := (stateOf seen).stopReason.getD .complete
    inputTokens := (stateOf seen).inputTokens
    outputTokens := (stateOf seen).outputTokens } := by
  have hhead : (finishReasons seen).head? = (finishReasons seen).getLast? := by
    rcases hreasons : finishReasons seen with _ | ⟨reason, rest⟩
    · rfl
    · rw [List.head?_cons, List.getLast?_eq_some_getLast (List.cons_ne_nil _ _)]
      refine congrArg some (h reason ?_ _ ?_)
      · rw [hreasons]
        exact List.mem_cons_self
      · rw [hreasons]
        exact List.getLast_mem _
  rw [completion, hhead]
  rfl

/-- After `[DONE]`. -/
theorem outcome_endStream_done (h : AgreeingReasons seen) (d : SseDecoder) :
    outcome (endStream loads d (stateOf seen) true) (spokenText seen) =
      (.ok (), spokenText seen ++ [.completed (completion seen)]) := by
  rw [completion_eq h]
  rfl

theorem stopReason_stateOf_eq_none :
    (stateOf seen).stopReason = none ↔ finishReasons seen = [] := by
  rw [stateOf, Option.map_eq_none_iff, List.getLast?_eq_none_iff]

/-- **The end of the body.** -/
theorem matches_nil (hd : SseDecoder.Settled d) (h : AgreeingReasons seen) :
    Matches (runFrom loads d seen []) (readEvents loads seen (d.eventsFrom [])) := by
  have hrun : runFrom loads d seen [] =
      outcome (endStream loads d (stateOf seen) false) (spokenText seen) := rfl
  rw [hrun, endStream, if_neg Bool.false_ne_true]
  rcases SseDecoder.finish_cases hd with ⟨⟨err, herr⟩, hevents⟩ |
    ⟨d', events, hfinish, hlength, hevents⟩
  · -- the last line or the last event is not well formed
    have hlift : outcome (liftM (protocolErrors d.finish) : Yielding (SseDecoder × List Text))
        (spokenText seen) = (.error (.protocol err), spokenText seen) := by
      rw [outcome_lift, herr]
      rfl
    rw [hevents, outcome_bind_of_error hlift]
    exact ⟨err, rfl⟩
  · have hlift : outcome (liftM (protocolErrors d.finish) : Yielding (SseDecoder × List Text))
        (spokenText seen) = (.ok (d', events), spokenText seen) := by
      rw [outcome_lift, hfinish]
      rfl
    rw [hevents, outcome_bind_of_ok hlift]
    dsimp only
    rw [handleRest_eq hlength]
    have hhandled : Handled loads seen (events.map .data)
        (outcome (handleData loads (stateOf seen) events) (spokenText seen)) :=
      handled_handleData events h
    rw [← List.append_nil (events.map DataEvent.data)]
    rcases hrest : outcome (handleData loads (stateOf seen) events) (spokenText seen) with
      ⟨result, yielded⟩
    rw [hrest] at hhandled
    rcases hhandled with ⟨last, hagree, h'⟩ | ⟨last, hagree, h'⟩ | ⟨err, yielded, h'⟩
    · rw [h', outcome_bind_of_ok hrest, Matches, completion_eq hagree]
      rfl
    · rw [h', outcome_bind_of_ok hrest, readEvents]
      dsimp only
      split_ifs with hnone hreasons hreasons
      · exact ⟨_, rfl⟩
      · exact absurd (stopReason_stateOf_eq_none.mp hnone.2) hreasons
      · exact absurd ⟨rfl, stopReason_stateOf_eq_none.mpr hreasons⟩ hnone
      · rw [Matches, completion_eq hagree]
        rfl
    · rw [h', outcome_bind_of_error hrest]
      rcases err with err | type
      · exact ⟨err, rfl⟩
      · exact ⟨type, rfl⟩

/-- **A chunk that raises nothing**: either the stream ends as it should, or it goes on with the
events that the chunk completes. -/
theorem runFrom_of_feed (loads : Text → Option JsonValue)
    (hfeed : d.feed chunk = .ok (d', events)) (h : AgreeingReasons seen)
    (chunks : List Bytes) (rest : Bytes) :
    Matches (runFrom loads d seen (chunk :: chunks))
        (readEvents loads seen (d.eventsFrom (chunk ++ rest))) ∨
      ∃ seen', AgreeingReasons seen' ∧
        runFrom loads d seen (chunk :: chunks) = runFrom loads d' seen' chunks ∧
        readEvents loads seen (d.eventsFrom (chunk ++ rest)) =
          readEvents loads seen' (d'.eventsFrom rest) := by
  have hrun : runFrom loads d seen (chunk :: chunks) =
      outcome (handleData loads (stateOf seen) events >>= fun p =>
        (if p.2 then pure (d', p.1, true) else readChunks loads d' p.1 chunks) >>= fun q =>
          endStream loads q.1 q.2.1 q.2.2) (spokenText seen) := by
    rw [runFrom, streamFrom, readChunks, bind_assoc,
      outcome_bind_of_ok (outcome_feed_of_ok hfeed _), bind_assoc]
  rw [SseDecoder.eventsFrom_of_feed hfeed, hrun]
  have hhandled : Handled loads seen (events.map .data)
      (outcome (handleData loads (stateOf seen) events) (spokenText seen)) :=
    handled_handleData events h
  rcases hdata : outcome (handleData loads (stateOf seen) events) (spokenText seen) with
    ⟨result, yielded⟩
  rw [hdata] at hhandled
  rcases hhandled with ⟨last, hagree, h'⟩ | ⟨last, hagree, h'⟩ | ⟨err, yielded, h'⟩
  -- the mark is among the events of the chunk
  · refine .inl ?_
    rw [h', outcome_bind_of_ok hdata]
    show outcome (endStream loads d' (stateOf last) true) (spokenText last) = _
    exact outcome_endStream_done hagree d'
  -- the stream goes on with the next chunk
  · refine .inr ⟨last, hagree, ?_, h' _⟩
    rw [outcome_bind_of_ok hdata]
    rfl
  -- an event is refused
  · refine .inl ?_
    rw [h', outcome_bind_of_error hdata]
    rcases err with err | type
    · exact ⟨err, rfl⟩
    · exact ⟨type, rfl⟩

/-- **A stream ends as it should**, unless a chunk raises. -/
theorem matches_or_error (chunks : List Bytes) : ∀ {d : SseDecoder} {seen : List EventContent},
    SseDecoder.Settled d → AgreeingReasons seen →
    Matches (runFrom loads d seen chunks) (readEvents loads seen (d.eventsFrom chunks.flatten)) ∨
      (∃ err, (runFrom loads d seen chunks).1 = .error (.protocol err)) ∧
        ∃ err, d.feedAll chunks = .error err := by
  induction chunks with
  | nil =>
    intro d seen hd h
    exact .inl (matches_nil hd h)
  | cons chunk chunks ih =>
    intro d seen hd h
    rcases hfeed : d.feed chunk with err | ⟨d', events⟩
    · refine .inr ⟨⟨err, ?_⟩, err, ?_⟩
      · rw [runFrom_of_error hfeed]
      · show (d.feed chunk >>= _) = _
        rw [hfeed]
        rfl
    · rw [List.flatten_cons]
      rcases runFrom_of_feed loads hfeed h chunks chunks.flatten with
        hmatches | ⟨seen', hagree, hrun, hread⟩
      · exact .inl hmatches
      · rw [hrun, hread]
        refine (ih (SseDecoder.settled_of_feed hfeed) hagree).imp_right ?_
        rintro ⟨hprotocol, err, herr⟩
        refine ⟨hprotocol, err, ?_⟩
        show (d.feed chunk >>= _) = _
        rw [hfeed]
        show (d'.feedAll chunks >>= _) = _
        rw [herr]
        rfl

/-- **Some way to cut a stream** shows what comes of it: line by line. -/
theorem exists_matches (body : Bytes) : ∀ d : SseDecoder, d.lineBuffer = [] →
    ∃ chunks : List Bytes, chunks.flatten = body ∧ ∀ seen, AgreeingReasons seen →
      Matches (runFrom loads d seen chunks) (readEvents loads seen (d.eventsFrom body)) := by
  induction body using lines_induction lineFeed with
  | hrest body hmem =>
    intro d hbuffer
    refine ⟨[body], List.flatten_singleton, fun seen h => ?_⟩
    rcases hfeed : d.feed body with err | ⟨d', events⟩
    · -- only the length may be wrong
      have hlong : d.maxEventBytes < body.length := by
        by_contra hle
        have hok : d.feed body = .ok (d.withBuffer body, []) ↔ _ := SseDecoder.feed_eq_ok
        rw [hbuffer, List.nil_append, unterminated_of_not_mem hmem,
          terminated_of_not_mem hmem] at hok
        rw [hok.mpr ⟨Nat.not_lt.mp hle, d, rfl, rfl⟩] at hfeed
        cases hfeed
      have hevents : d.eventsFrom body = [.malformed] := by
        rw [SseDecoder.eventsFrom, hbuffer, List.nil_append, terminated_of_not_mem hmem,
          unterminated_of_not_mem hmem]
        exact if_pos hlong
      rw [runFrom_of_error hfeed, hevents]
      exact ⟨err, rfl⟩
    · have hbody : body = body ++ [] := (List.append_nil body).symm
      rw [hbody]
      rcases runFrom_of_feed loads hfeed h [] [] with
        hmatches | ⟨seen', hagree, hrun, hread⟩
      · rwa [List.append_nil] at hmatches ⊢
      · rw [List.append_nil] at hread ⊢
        rw [hrun, hread]
        exact matches_nil (SseDecoder.settled_of_feed hfeed) hagree
  | hline s body hmem ih =>
    intro d hbuffer
    have hd : d.withBuffer [] = d := by
      rw [SseDecoder.withBuffer, ← hbuffer]
    have hbody : s ++ lineFeed :: body = (s ++ [lineFeed]) ++ body := by simp
    have hok (events : List Text) (d' : SseDecoder) :
        d.feed (s ++ [lineFeed]) = .ok (d', events) ↔ _ := SseDecoder.feed_eq_ok
    rw [hbuffer, List.nil_append, unterminated_append_cons hmem, unterminated_nil,
      terminated_append_cons hmem, terminated_nil, List.map_singleton,
      SseDecoder.consumeLines_singleton] at hok
    rcases hline : d.consumeLine (stripCarriageReturn s) with err | ⟨e, events⟩
    · -- the line is not well formed
      have hevents : d.eventsFrom (s ++ lineFeed :: body) = [.malformed] := by
        rw [SseDecoder.eventsFrom, hbuffer, hd, List.nil_append, terminated_append_cons hmem]
        exact SseDecoder.lineEvents_of_error hline _ _
      refine ⟨[s ++ [lineFeed], body], by simp, fun seen h => ?_⟩
      rcases hfeed : d.feed (s ++ [lineFeed]) with err | ⟨d', events⟩
      · rw [runFrom_of_error hfeed, hevents]
        exact ⟨err, rfl⟩
      · obtain ⟨-, e, hconsume, -⟩ := (hok events d').mp hfeed
        rw [hline] at hconsume
        cases hconsume
    · have hfeed := (hok events (e.withBuffer [])).mpr ⟨Nat.zero_le _, e, hline, rfl⟩
      obtain ⟨chunks, hflatten, hmatches⟩ := ih (e.withBuffer []) rfl
      refine ⟨(s ++ [lineFeed]) :: chunks, ?_, fun seen h => ?_⟩
      · rw [List.flatten_cons, hflatten, hbody]
      · rw [hbody]
        rcases runFrom_of_feed loads hfeed h chunks body with
          hmatches' | ⟨seen', hagree, hrun, hread⟩
        · exact hmatches'
        · rw [hrun, hread]
          exact hmatches seen' hagree

/-! ### Every way to cut a body -/

theorem outcome_stream_eq (config : OpenAICompatibleModelConfig)
    (loads : Text → Option JsonValue) (chunks : List Bytes) :
    outcome (stream loads config chunks) [] =
      runFrom loads (SseDecoder.create config.maxSseEventBytes) [] chunks := rfl

theorem reading_eq (config : OpenAICompatibleModelConfig) (loads : Text → Option JsonValue)
    (body : Bytes) : reading config loads body = readEvents loads []
      ((SseDecoder.create config.maxSseEventBytes).eventsFrom body) :=
  (readEvents_congr (SseDecoder.isSame_eventsFrom _ body)).symm

/-- **When a model's stream conforms** to what should come of a body, however the body is cut:
no event raises a `TypeError`; and if the body is to be read, then all of its bytes may come in,
also those behind `[DONE]`. -/
theorem stream_conforms_iff (config : OpenAICompatibleModelConfig)
    (loads : Text → Option JsonValue) (body : Bytes) :
    (∀ chunks : List Bytes, chunks.flatten = body →
      Conforms (outcome (stream loads config chunks) []) (reading config loads body)) ↔
    reading config loads body ≠ .typeError ∧
      ∀ contents, reading config loads body = .completed contents →
        TakenIn config.maxSseEventBytes body := by
  simp only [outcome_stream_eq, reading_eq]
  generalize config.maxSseEventBytes = limit
  constructor
  · intro hconforms
    constructor
    · -- cut line by line, the `TypeError` is raised
      intro htype
      obtain ⟨chunks, hflatten, hmatches⟩ :=
        @exists_matches loads body (SseDecoder.create limit) rfl
      have hraises := hmatches [] agreeingReasons_nil
      have hprotocol := hconforms chunks hflatten
      rw [htype] at hraises hprotocol
      obtain ⟨type, hraises⟩ := hraises
      obtain ⟨err, hprotocol⟩ := hprotocol
      rw [hraises] at hprotocol
      cases hprotocol
    · intro contents hread
      by_contra hnot
      obtain ⟨chunk, rest, err, rfl, hfeed⟩ := SseDecoder.exists_feed_error hnot
      have hcompletes := hconforms [chunk, rest] (by simp)
      rw [hread, runFrom_of_error hfeed] at hcompletes
      cases congrArg Prod.fst hcompletes
  · rintro ⟨htype, htaken⟩ chunks rfl
    rcases matches_or_error chunks (SseDecoder.settled_create limit)
      (agreeingReasons_nil) with hmatches | ⟨hprotocol, err, herr⟩
    · rcases hread : readEvents loads [] ((SseDecoder.create limit).eventsFrom chunks.flatten) with
        contents | _ | _
      · rw [hread] at hmatches
        exact hmatches
      · rw [hread] at hmatches
        exact hmatches
      · exact absurd hread htype
    · rcases hread : readEvents loads [] ((SseDecoder.create limit).eventsFrom chunks.flatten) with
        contents | _ | _
      · -- all bytes may come in, so that no chunk raises
        obtain ⟨d, events, hok⟩ := SseDecoder.feedAll_of_takenIn (htaken contents hread)
        rw [hok] at herr
        cases herr
      · exact hprotocol
      · exact hprotocol

/-- A body with `[DONE]`, and data that is no text behind it. -/
def doneBody : Bytes := "data: [DONE]\n\ndata: ".toUTF8.toList ++ [0xff, lineFeed, lineFeed]

/-- An event with a part of its content that is of no type of text. -/
def untypedContent : JsonValue :=
  .dict [("choices".toList, .list [.dict [("delta".toList, .dict [("content".toList,
    .list [.dict [("type".toList, .list [])]])])]])]

/-- **Bytes behind `[DONE]` matter** if they are in the same chunk, whatever `json.loads` does; and
an event may raise a `TypeError`. -/
theorem stream_not_conforming :
    (¬∃ loads : Text → Option JsonValue, ∀ (config : OpenAICompatibleModelConfig)
      (chunks : List Bytes), Conforms (outcome (stream loads config chunks) [])
        (reading config loads chunks.flatten)) ∧
    outcome (stream (fun _ => some untypedContent) ⟨1024, le_rfl⟩
      ["data: x\n\n".toUTF8.toList]) [] = (.error (.typeError "list"), []) := by
  constructor
  · rintro ⟨loads, h⟩
    have hevents : dataEvents 1024 doneBody = [.data doneMark, .malformed] := by decide +kernel
    have hfeed : (SseDecoder.create 1024).feed doneBody =
        .error ⟨"SSE data was not valid UTF-8".toList⟩ := by decide +kernel
    have hdone : strip doneMark = doneMark := by decide +kernel
    have hread : reading ⟨1024, le_rfl⟩ loads doneBody = .completed [] := by
      rw [reading, hevents, readEvents, if_pos hdone]
    have hconforms := h ⟨1024, le_rfl⟩ [doneBody]
    rw [List.flatten_singleton, hread, outcome_stream_eq, runFrom_of_error hfeed] at hconforms
    cases congrArg Prod.fst hconforms
  · have hfeed : (SseDecoder.create 1024).feed "data: x\n\n".toUTF8.toList =
        .ok (⟨1024, [], [], 0, false⟩, ["x".toList]) := by decide +kernel
    rw [outcome_stream_eq, runFrom, streamFrom, readChunks, bind_assoc,
      outcome_bind_of_ok (outcome_feed_of_ok hfeed _)]
    rfl

end OpenAICompatibleModelProvider

end Eeveetuber
