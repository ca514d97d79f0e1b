import Eeveetuber.Adapters.SseReference

/-!
# The data events of a stream

A reader of a model's stream stops at an event that says so, and what comes behind it should not
matter. `Eeveetuber.dataEvents` lists the data events of a stream in their order, with a mark where
something is wrong that a reader notices when it gets there.

The decoder has them one after the other (`Eeveetuber.SseDecoder.eventsFrom`): a chunk gives the
events that it completes (`Eeveetuber.SseDecoder.eventsFrom_of_feed`), the end of the stream gives
the last one (`Eeveetuber.SseDecoder.finish_cases`), and a reader that stops at the first mark sees
the same in both lists (`Eeveetuber.SseDecoder.isSame_eventsFrom`).

But a chunk is decoded as a whole. `Eeveetuber.TakenIn` says of a stream that all of its bytes may
come in, and `Eeveetuber.SseDecoder.feedAll_of_takenIn` that then no chunk raises.
-/

namespace Eeveetuber

open Foundation SseDecoder

/-- An event of a stream. -/
inductive DataEvent where
  /-- A line or an event over the limit, or data that is no text. -/
  | malformed
  | data (text : Text)
deriving DecidableEq

/-- The event that some lines between blank lines are, if there are data lines among them or
before them. -/
def dataEvent (limit : ℕ) (values lines : List Bytes) : Option DataEvent :=
  if ∃ line ∈ lines, limit < line.length then some .malformed
  else
    let values := values ++ lines.filterMap dataValue
    if values = [] then none
    else if limit < (joinLines values).length then some .malformed
    else some ((decodeUtf8 (joinLines values)).elim .malformed .data)

/-- The lines that are terminated. -/
def terminatedLines (body : Bytes) : List Bytes :=
  (terminated lineFeed (removePrefix byteOrderMark body)).map stripCarriageReturn

/-- The lines as they are measured: one that is not terminated keeps its carriage return and the
byte-order mark, if it is over the limit with them. -/
def measuredLines (limit : ℕ) (body : Bytes) : List Bytes :=
  if limit < (unterminated lineFeed body).length then
    terminatedLines body ++ [unterminated lineFeed body]
  else streamLines body

/-- **The data events of a stream.** -/
def dataEvents (limit : ℕ) (body : Bytes) : List DataEvent :=
  ((measuredLines limit body).splitOn []).filterMap (dataEvent limit [])

/-- The data events that a blank line of the stream ends. -/
def endedEvents (limit : ℕ) (body : Bytes) : List DataEvent :=
  ((terminatedLines body).splitOn []).dropLast.filterMap (dataEvent limit [])

/-- **A stream of which all bytes may come in**, however they do: its lines are within the limit
with their line ends and the byte-order mark, its events are within the limit, and those that a
blank line ends are texts. -/
structure TakenIn (limit : ℕ) (body : Bytes) : Prop where
  lines : ∀ line ∈ terminated lineFeed body ++ [unterminated lineFeed body], line.length ≤ limit
  events : ∀ values ∈ blocks (terminatedLines body), (joinLines values).length ≤ limit
  texts : ∀ values ∈ (blocks (terminatedLines body)).dropLast,
    ∃ text, encodeUtf8 text = joinLines values

/-- A reader stops at the first mark. -/
def cut : List DataEvent → List DataEvent
  | [] => []
  | .malformed :: _ => [.malformed]
  | .data text :: events => .data text :: cut events

/-- Lists of events that a reader who stops at a mark cannot tell apart. -/
def IsSame (events events' : List DataEvent) : Prop := cut events = cut events'

namespace SseDecoder

variable {d d' e : SseDecoder} {line value : Bytes} {lines lines' : List Bytes} {limit : ℕ}
  {events : List Text} {chunk body buffer : Bytes} {k k' : SseDecoder → List DataEvent}

/-! ### Events one after the other -/

/-- The events of lines, and those that come after them. -/
def lineEvents (d : SseDecoder) (lines : List Bytes) (k : SseDecoder → List DataEvent) :
    List DataEvent :=
  match lines with
  | [] => k d
  | line :: lines =>
    match d.consumeLine line with
    | .error _ => [.malformed]
    | .ok (d, events) => events.map .data ++ lineEvents d lines k

/-- The event that the end of the stream completes. -/
def dispatchEvents (d : SseDecoder) : List DataEvent :=
  match d.dispatch with
  | .error _ => [.malformed]
  | .ok (_, events) => events.map .data

/-- The events at the end of the stream, where this is left without a line feed. -/
def endEvents (rest : Bytes) (d : SseDecoder) : List DataEvent :=
  if d.maxEventBytes < rest.length then [.malformed]
  else lineEvents d ((if rest = [] then [] else [rest]).map stripCarriageReturn) dispatchEvents

/-- **The events that are to come** when the rest of the stream is known. -/
def eventsFrom (d : SseDecoder) (rest : Bytes) : List DataEvent :=
  lineEvents (d.withBuffer [])
    ((terminated lineFeed (d.lineBuffer ++ rest)).map stripCarriageReturn)
    (endEvents (unterminated lineFeed (d.lineBuffer ++ rest)))

theorem lineEvents_of_error {err : ModelProtocolError} (h : d.consumeLine line = .error err)
    (lines : List Bytes) (k : SseDecoder → List DataEvent) :
    lineEvents d (line :: lines) k = [.malformed] := by
  rw [lineEvents, h]

theorem lineEvents_of_ok (h : d.consumeLine line = .ok (e, events)) (lines : List Bytes)
    (k : SseDecoder → List DataEvent) :
    lineEvents d (line :: lines) k = events.map .data ++ lineEvents e lines k := by
  rw [lineEvents, h]

theorem lineEvents_append (d : SseDecoder) (lines lines' : List Bytes)
    (k : SseDecoder → List DataEvent) :
    lineEvents d (lines ++ lines') k = lineEvents d lines fun d => lineEvents d lines' k := by
  induction lines generalizing d with
  | nil => rfl
  | cons line lines ih =>
    rw [List.cons_append]
    rcases hline : d.consumeLine line with err | ⟨e, events⟩
    · rw [lineEvents_of_error hline, lineEvents_of_error hline]
    · rw [lineEvents_of_ok hline, lineEvents_of_ok hline, ih]

/-- Lines that have been consumed. -/
theorem lineEvents_of_consumeLines (k : SseDecoder → List DataEvent) :
    ∀ {d : SseDecoder} {events : List Text}, d.consumeLines lines = .ok (e, events) →
    lineEvents d lines k = events.map .data ++ k e := by
  induction lines with
  | nil =>
    rintro d events ⟨⟩
    rfl
  | cons line lines ih =>
    intro d events h
    rw [consumeLines_cons] at h
    obtain ⟨d', first, more, hline, hlines, rfl⟩ := andThen_eq_ok.mp h
    rw [lineEvents_of_ok hline, ih hlines, List.map_append, List.append_assoc]

/-- What a line leaves: either it hands nothing out, or nothing is left to hand out. -/
theorem consumeLine_cases (h : d.consumeLine line = .ok (e, events)) :
    e.firstLine = false ∧ (events = [] ∨ e.dataLines = [] ∧ events.length ≤ 1) := by
  rw [consumeLine] at h
  dsimp only at h
  generalize (if d.firstLine = true then removePrefix byteOrderMark line else line) = line at h
  split_ifs at h with hlong hblank
  · rw [dispatch] at h
    split_ifs at h
    · cases h
      exact ⟨rfl, .inl rfl⟩
    · generalize decodeUtf8 _ = text at h
      rcases text with _ | text
      · cases h
      · cases h
        exact ⟨rfl, .inr ⟨rfl, le_rfl⟩⟩
  · rw [consumeField_eq] at h
    rcases hvalue : dataValue line with _ | value
    · rw [hvalue] at h
      cases h
      exact ⟨rfl, .inl rfl⟩
    · rw [hvalue] at h
      dsimp only at h
      rw [addData] at h
      split_ifs at h
      cases h
      exact ⟨rfl, .inl rfl⟩

/-- Only the decoders that lines lead to matter. -/
theorem lineEvents_congr (hline : d.firstLine = false)
    (h : ∀ e : SseDecoder, e.firstLine = false → e.maxEventBytes = d.maxEventBytes → k e = k' e) :
    lineEvents d lines k = lineEvents d lines k' := by
  induction lines generalizing d with
  | nil => exact h d hline rfl
  | cons line lines ih =>
    rcases hconsume : d.consumeLine line with err | ⟨e, events⟩
    · rw [lineEvents_of_error hconsume, lineEvents_of_error hconsume]
    · have hmax := (frame_consumeLine hconsume).maxEventBytes
      rw [lineEvents_of_ok hconsume, lineEvents_of_ok hconsume,
        ih (consumeLine_cases hconsume).1 fun e hfirst he => h e hfirst (he.trans hmax)]

/-! ### Chunks and the end -/

/-- **A decoder between two chunks.** -/
structure Settled (d : SseDecoder) : Prop where
  lineFeed_not_mem : lineFeed ∉ d.lineBuffer
  le : d.lineBuffer.length ≤ d.maxEventBytes

theorem settled_create (limit : ℕ) : Settled (create limit) := ⟨List.not_mem_nil, Nat.zero_le _⟩

theorem settled_of_feed (h : d.feed chunk = .ok (d', events)) : Settled d' := by
  obtain ⟨hlong, e, hlines, rfl⟩ := feed_eq_ok.mp h
  refine ⟨not_mem_unterminated _, ?_⟩
  show _ ≤ e.maxEventBytes
  rw [(frame_consumeLines hlines).maxEventBytes]
  exact hlong

/-- **A chunk gives the events that it completes.** -/
theorem eventsFrom_of_feed (h : d.feed chunk = .ok (d', events)) (rest : Bytes) :
    d.eventsFrom (chunk ++ rest) = events.map .data ++ d'.eventsFrom rest := by
  obtain ⟨-, e, hlines, rfl⟩ := feed_eq_ok.mp h
  have hconsumed : (d.withBuffer []).consumeLines
      ((terminated lineFeed (d.lineBuffer ++ chunk)).map stripCarriageReturn) =
      .ok (e.withBuffer [], events) := by
    rw [consumeLines_withBuffer]
    exact mapBuffer_eq_ok.mpr ⟨e, hlines, rfl⟩
  rw [eventsFrom, ← List.append_assoc, terminated_append,
    unterminated_append (d.lineBuffer ++ chunk), List.map_append, lineEvents_append,
    lineEvents_of_consumeLines _ hconsumed]
  rfl

/-- **The end of the stream** completes at most one event, or something is wrong. -/
theorem finish_cases (h : Settled d) :
    ((∃ err, d.finish = .error err) ∧ d.eventsFrom [] = [.malformed]) ∨
      ∃ d' events, d.finish = .ok (d', events) ∧ events.length ≤ 1 ∧
        d.eventsFrom [] = events.map .data := by
  have hevents : d.eventsFrom [] = lineEvents (d.withBuffer [])
      ((if d.lineBuffer = [] then [] else [d.lineBuffer]).map stripCarriageReturn)
      dispatchEvents := by
    rw [eventsFrom, List.append_nil, terminated_of_not_mem h.lineFeed_not_mem,
      unterminated_of_not_mem h.lineFeed_not_mem]
    exact if_neg (Nat.not_lt.mpr h.le)
  have hdispatch (d : SseDecoder) : ((∃ err, d.dispatch = .error err) ∧
      dispatchEvents d = [.malformed]) ∨ ∃ d' events, d.dispatch = .ok (d', events) ∧
        events.length ≤ 1 ∧ dispatchEvents d = events.map .data := by
    rw [dispatchEvents, dispatch]
    split_ifs
    · exact .inr ⟨d, [], rfl, Nat.zero_le _, rfl⟩
    · rcases decodeUtf8 (joinLines d.dataLines) with _ | text
      · exact .inl ⟨⟨_, rfl⟩, rfl⟩
      · exact .inr ⟨_, [text], rfl, le_rfl, rfl⟩
  rw [hevents]
  show (((∃ err, andThen d.consumeBuffer dispatch = .error err) ∧ _) ∨
    ∃ d' events, andThen d.consumeBuffer dispatch = .ok (d', events) ∧ _)
  rw [consumeBuffer]
  split_ifs with hbuffer
  -- the last line was terminated, so that only the event is left
  · have hd : d.withBuffer [] = d := by
      rw [withBuffer, ← hbuffer]
    rw [hd]
    rcases hdispatch d with ⟨⟨err, herr⟩, hevents⟩ | ⟨d', events, hok, hlength, hevents⟩
    · refine .inl ⟨⟨err, ?_⟩, hevents⟩
      show (d.dispatch >>= _) = _
      rw [herr]
      rfl
    · exact .inr ⟨d', events, andThen_eq_ok.mpr ⟨d, [], events, rfl, hok, rfl⟩, hlength, hevents⟩
  -- what is buffered is the last line, and may itself be the blank one
  · rw [List.map_singleton]
    show ((∃ err, andThen ((d.withBuffer []).consumeLine _) dispatch = .error err) ∧ _) ∨
      ∃ d' events, andThen ((d.withBuffer []).consumeLine _) dispatch = .ok (d', events) ∧ _
    rcases hline : (d.withBuffer []).consumeLine (stripCarriageReturn d.lineBuffer) with
      err | ⟨e, first⟩
    · exact .inl ⟨⟨err, rfl⟩, lineEvents_of_error hline _ _⟩
    · rw [lineEvents_of_ok hline]
      show (_ ∧ first.map DataEvent.data ++ dispatchEvents e = _) ∨ _
      rcases (consumeLine_cases hline).2 with rfl | ⟨hdata, hlength⟩
      · rcases hdispatch e with ⟨⟨err, herr⟩, hevents⟩ | ⟨d', events, hok, hlength, hevents⟩
        · refine .inl ⟨⟨err, ?_⟩, hevents⟩
          show (e.dispatch >>= _) = _
          rw [herr]
          rfl
        · exact .inr ⟨d', events, andThen_eq_ok.mpr ⟨e, [], events, rfl, hok, rfl⟩, hlength,
            hevents⟩
      · have hnone : e.dispatch = .ok (e, []) := if_pos hdata
        refine .inr ⟨e, first ++ [], andThen_eq_ok.mpr ⟨e, first, [], rfl, hnone, rfl⟩, ?_, ?_⟩
        · rwa [List.append_nil]
        · show first.map DataEvent.data ++ dispatchEvents e = _
          rw [dispatchEvents, hnone, List.map_append]

/-! ### The events that are listed -/

theorem cut_data (events : List Text) (rest : List DataEvent) :
    cut (events.map .data ++ rest) = events.map .data ++ cut rest := by
  induction events with
  | nil => rfl
  | cons text events ih => exact congrArg (DataEvent.data text :: ·) ih

theorem isSame_malformed (events : List DataEvent) : IsSame [.malformed] (.malformed :: events) :=
  rfl

theorem isSame_data (events : List Text) {rest rest' : List DataEvent} (h : IsSame rest rest') :
    IsSame (events.map .data ++ rest) (events.map .data ++ rest') := by
  rw [IsSame, cut_data, cut_data, h]

/-- The events of lines, of which the first goes on from some values. -/
def blockEvents (limit : ℕ) (values : List Bytes) (lines : List Bytes) : List DataEvent :=
  match lines.splitOn [] with
  | [] => []
  | block :: rest => (dataEvent limit values block).toList ++ rest.filterMap (dataEvent limit [])

theorem blockEvents_eq {block : List Bytes} {rest : List (List Bytes)}
    (h : lines.splitOn [] = block :: rest) (values : List Bytes) : blockEvents limit values lines =
      (dataEvent limit values block).toList ++ rest.filterMap (dataEvent limit []) := by
  rw [blockEvents, h]

theorem exists_splitOn_eq (lines : List Bytes) : ∃ block rest, lines.splitOn [] = block :: rest :=
  List.exists_cons_of_ne_nil (List.splitOn_ne_nil [] lines)

theorem splitOn_cons_nil (lines : List Bytes) :
    (([] : Bytes) :: lines).splitOn [] = [] :: lines.splitOn [] := by
  rw [List.splitOn_cons_eq_if_modifyHead, if_pos (by rfl)]

theorem splitOn_cons (hline : line ≠ []) {block : List Bytes} {rest : List (List Bytes)}
    (h : lines.splitOn [] = block :: rest) :
    (line :: lines).splitOn [] = (line :: block) :: rest := by
  rw [List.splitOn_cons_eq_if_modifyHead, if_neg (by simpa using hline), h,
    List.modifyHead_cons]

theorem dataEvent_of_long {values block : List Bytes} (hline : line ∈ block)
    (hlong : limit < line.length) : dataEvent limit values block = some .malformed :=
  if_pos ⟨line, hline, hlong⟩

theorem exists_mem_cons_long (hle : line.length ≤ limit) (block : List Bytes) :
    (∃ l ∈ line :: block, limit < l.length) ↔ ∃ l ∈ block, limit < l.length := by
  rw [List.exists_mem_cons_iff, or_iff_right (Nat.not_lt.mpr hle)]

/-- A line that is ignored. -/
theorem dataEvent_cons_none (hle : line.length ≤ limit) (h : dataValue line = none)
    (values block : List Bytes) :
    dataEvent limit values (line :: block) = dataEvent limit values block := by
  simp only [dataEvent, exists_mem_cons_long hle, List.filterMap_cons, h]

/-- A data line. -/
theorem dataEvent_cons_some (hle : line.length ≤ limit) (h : dataValue line = some value)
    (values block : List Bytes) :
    dataEvent limit values (line :: block) = dataEvent limit (values ++ [value]) block := by
  simp only [dataEvent, exists_mem_cons_long hle, List.filterMap_cons, h, List.append_assoc,
    List.singleton_append]

theorem dataEvent_nil (values : List Bytes) : dataEvent limit values [] =
    if values = [] then none
    else if limit < (joinLines values).length then some .malformed
    else some ((decodeUtf8 (joinLines values)).elim .malformed .data) := by
  have hnone : ¬∃ line ∈ ([] : List Bytes), limit < line.length := by
    rintro ⟨_, ⟨⟩, -⟩
  rw [dataEvent, if_neg hnone]
  dsimp only
  rw [List.filterMap_nil, List.append_nil]

/-- Values over the limit. -/
theorem dataEvent_of_values {values : List Bytes} (hvalues : values ≠ [])
    (hlong : limit < (joinLines values).length) (block : List Bytes) :
    dataEvent limit values block = some .malformed := by
  have hne : values ++ block.filterMap dataValue ≠ [] := fun h =>
    hvalues (List.append_eq_nil_iff.mp h).1
  rw [dataEvent]
  split_ifs
  · rfl
  · dsimp only
    rw [if_neg hne, if_pos (hlong.trans_le (length_joinLines_le values _))]

/-- **The event that a decoder has** is dispatched. -/
theorem dispatchEvents_eq (h : Accounted d) :
    dispatchEvents d = (dataEvent d.maxEventBytes d.dataLines []).toList := by
  have hle := h.eventBytes ▸ h.le
  rw [dispatchEvents, dispatch, dataEvent_nil]
  by_cases hdata : d.dataLines = []
  · rw [if_pos hdata, if_pos hdata]
    rfl
  · rw [if_neg hdata, if_neg hdata, if_neg (Nat.not_lt.mpr hle)]
    rcases decodeUtf8 (joinLines d.dataLines) with _ | text
    · rfl
    · rfl

theorem isSame_lineEvents (lines : List Bytes) :
    ∀ {d : SseDecoder}, d.firstLine = false → Accounted d →
    IsSame (lineEvents d lines dispatchEvents) (blockEvents d.maxEventBytes d.dataLines lines) := by
  induction lines with
  | nil =>
    intro d hfirst h
    rw [lineEvents, dispatchEvents_eq h, blockEvents_eq (List.splitOn_nil [])]
    exact congrArg cut (List.append_nil _).symm
  | cons line lines ih =>
    intro d hfirst h
    obtain ⟨block, rest, hsplit⟩ := exists_splitOn_eq lines
    have hconsume := consumeLine_eq hfirst line
    by_cases hlong : d.maxEventBytes < line.length
    · -- the line is over the limit
      have hline : line ≠ [] := by
        rintro rfl
        exact absurd hlong (Nat.not_lt_zero _)
      rw [if_pos hlong] at hconsume
      rw [lineEvents_of_error hconsume, blockEvents_eq (splitOn_cons hline hsplit),
        dataEvent_of_long List.mem_cons_self hlong]
      exact isSame_malformed _
    · rw [if_neg hlong] at hconsume
      have hle := Nat.not_lt.mp hlong
      by_cases hblank : line = []
      · -- a blank line: the event is dispatched
        rw [if_pos hblank] at hconsume
        rw [hblank] at hconsume ⊢
        rw [blockEvents_eq (splitOn_cons_nil lines), ← dispatchEvents_eq h, dispatchEvents]
        rcases hdispatch : d.dispatch with err | ⟨e, events⟩
        · rw [lineEvents_of_error (hconsume.trans hdispatch)]
          exact isSame_malformed _
        · obtain ⟨haccounted, hdata, hfirst'⟩ := accounted_dispatch h hdispatch
          have hrest := ih (hfirst'.trans hfirst) haccounted
          rw [hdata, (frame_dispatch hdispatch).maxEventBytes, blockEvents_eq hsplit] at hrest
          rw [lineEvents_of_ok (hconsume.trans hdispatch), hsplit, List.filterMap_cons]
          refine isSame_data events ?_
          rcases hevent : dataEvent d.maxEventBytes [] block with _ | event
          · rwa [hevent] at hrest
          · rwa [hevent] at hrest
      · rw [if_neg hblank, consumeField_eq] at hconsume
        rw [blockEvents_eq (splitOn_cons hblank hsplit)]
        rcases hvalue : dataValue line with _ | value
        · -- the line is ignored
          rw [hvalue] at hconsume
          rw [lineEvents_of_ok hconsume, dataEvent_cons_none hle hvalue, ← blockEvents_eq hsplit]
          exact ih hfirst h
        · rw [hvalue] at hconsume
          dsimp only at hconsume
          by_cases hsize : d.maxEventBytes < d.eventBytes + d.addedSize value
          · have hvalues : d.maxEventBytes < (joinLines (d.dataLines ++ [value])).length := by
              rw [length_joinLines_concat, ← h.eventBytes]
              exact hsize
            rw [lineEvents_of_error (hconsume.trans (addData_of_lt hsize)),
              dataEvent_cons_some hle hvalue, dataEvent_of_values (by simp) hvalues]
            exact isSame_malformed _
          · have hadd := addData_of_not_lt hsize
            rw [lineEvents_of_ok (hconsume.trans hadd), dataEvent_cons_some hle hvalue,
              ← blockEvents_eq hsplit]
            exact ih (d := { d with
              dataLines := d.dataLines ++ [value]
              eventBytes := d.eventBytes + d.addedSize value }) hfirst (accounted_addData h hadd)

/-! ### The byte-order mark -/

/-- The lines that are terminated, and the byte-order mark. -/
theorem terminatedLines_cases (body : Bytes) :
    (terminated lineFeed body = [] ∧ terminatedLines body = []) ∨
      ∃ l ls, (terminated lineFeed body).map stripCarriageReturn = l :: ls ∧
        terminatedLines body = removePrefix byteOrderMark l :: ls := by
  have hmark : byteOrderMark.getLast? ≠ some carriageReturn := by decide
  by_cases hbegins : byteOrderMark <+: body
  · obtain ⟨rest, rfl⟩ := hbegins
    rw [terminatedLines, removePrefix_append]
    by_cases hmem : lineFeed ∈ rest
    · obtain ⟨s, t, rfl, hs⟩ := List.eq_append_cons_of_mem hmem
      refine .inr ⟨stripCarriageReturn (byteOrderMark ++ s),
        (terminated lineFeed t).map stripCarriageReturn, ?_, ?_⟩
      · rw [← List.append_assoc,
          terminated_append_cons (lineFeed_not_mem_byteOrderMark_append hs), List.map_cons]
      · rw [terminated_append_cons hs, stripCarriageReturn_append hmark, removePrefix_append,
          List.map_cons]
    · rw [terminated_of_not_mem hmem,
        terminated_of_not_mem (lineFeed_not_mem_byteOrderMark_append hmem)]
      exact .inl ⟨rfl, rfl⟩
  · rw [terminatedLines, removePrefix_eq_self hbegins]
    by_cases hmem : lineFeed ∈ body
    · obtain ⟨s, t, rfl, hs⟩ := List.eq_append_cons_of_mem hmem
      have hnot : ¬byteOrderMark <+: stripCarriageReturn s := fun h =>
        hbegins (h.trans ((stripCarriageReturn_begins s).trans (List.prefix_append _ _)))
      rw [terminated_append_cons hs, List.map_cons]
      exact .inr ⟨_, _, rfl, by rw [removePrefix_eq_self hnot]⟩
    · rw [terminated_of_not_mem hmem]
      exact .inl ⟨rfl, rfl⟩

/-- More comes in: the lines that are terminated stay as they are. -/
theorem exists_terminatedLines_append (body rest : Bytes) :
    ∃ more, terminatedLines (body ++ rest) = terminatedLines body ++ more := by
  rcases terminatedLines_cases body with ⟨-, hnil⟩ | ⟨l, ls, hcons, hcons'⟩
  · exact ⟨_, by rw [hnil, List.nil_append]⟩
  · have hraw : (terminated lineFeed (body ++ rest)).map stripCarriageReturn = l :: (ls ++
        (terminated lineFeed (unterminated lineFeed body ++ rest)).map stripCarriageReturn) := by
      rw [terminated_append, List.map_append, hcons, List.cons_append]
    rcases terminatedLines_cases (body ++ rest) with ⟨hnil, -⟩ | ⟨l', ls', hwhole, hwhole'⟩
    · rw [hnil] at hraw
      cases hraw
    · obtain ⟨rfl, rfl⟩ := List.cons.inj (hwhole.symm.trans hraw)
      exact ⟨_, by rw [hwhole', hcons', List.cons_append]⟩

/-- What is measured is what is terminated, and then perhaps one line more. -/
theorem exists_measuredLines_eq (limit : ℕ) (body : Bytes) :
    ∃ more, measuredLines limit body = terminatedLines body ++ more := by
  rw [measuredLines]
  split
  · exact ⟨_, rfl⟩
  · exact ⟨_, List.map_append⟩

/-- **More comes in**: the events that have ended stay as they are. -/
theorem exists_dataEvents_append (limit : ℕ) (body rest : Bytes) :
    ∃ more, dataEvents limit (body ++ rest) = endedEvents limit body ++ more := by
  obtain ⟨last, hlast⟩ := exists_measuredLines_eq limit (body ++ rest)
  obtain ⟨more, hmore⟩ := exists_terminatedLines_append body rest
  obtain ⟨events, hevents⟩ := exists_splitOn_append [] (terminatedLines body) (more ++ last)
  rw [dataEvents, hlast, hmore, List.append_assoc, hevents, List.filterMap_append]
  exact ⟨_, rfl⟩

theorem lineEvents_create (limit : ℕ) (line : Bytes) (lines : List Bytes)
    (k : SseDecoder → List DataEvent) : lineEvents (create limit) (line :: lines) k =
      lineEvents (begun limit) (removePrefix byteOrderMark line :: lines) k := rfl

theorem accounted_begun (limit : ℕ) : Accounted (begun limit) := ⟨rfl, Nat.zero_le _⟩

/-- **A new decoder** has the events that are listed, up to the first mark. -/
theorem isSame_eventsFrom (limit : ℕ) (body : Bytes) :
    IsSame ((create limit).eventsFrom body) (dataEvents limit body) := by
  have hblocks (lines : List Bytes) : blockEvents limit [] lines =
      (lines.splitOn []).filterMap (dataEvent limit []) := by
    obtain ⟨block, rest, hsplit⟩ := exists_splitOn_eq lines
    rw [blockEvents_eq hsplit, hsplit, List.filterMap_cons]
    rcases dataEvent limit [] block with _ | event
    · rfl
    · rfl
  have hevents : (create limit).eventsFrom body = lineEvents (create limit)
      ((terminated lineFeed body).map stripCarriageReturn)
      (endEvents (unterminated lineFeed body)) := rfl
  rw [dataEvents, ← hblocks, measuredLines, hevents]
  split_ifs with hlong
  · -- what is left without a line feed is over the limit
    have hbegun : lineEvents (create limit) ((terminated lineFeed body).map stripCarriageReturn)
        (endEvents (unterminated lineFeed body)) = lineEvents (begun limit) (terminatedLines body)
        fun d => lineEvents d [unterminated lineFeed body] dispatchEvents := by
      have hend (d : SseDecoder) (hmax : d.maxEventBytes = limit) :
          endEvents (unterminated lineFeed body) d = [.malformed] := by
        rw [endEvents, hmax, if_pos hlong]
      have hcongr : lineEvents (begun limit) (terminatedLines body)
          (endEvents (unterminated lineFeed body)) = lineEvents (begun limit) (terminatedLines body)
          fun d => lineEvents d [unterminated lineFeed body] dispatchEvents := by
        refine lineEvents_congr rfl fun e hfirst hmax => ?_
        have hconsume := consumeLine_eq hfirst (unterminated lineFeed body)
        rw [if_pos (hmax ▸ hlong)] at hconsume
        rw [hend e hmax, lineEvents_of_error hconsume]
      rcases terminatedLines_cases body with ⟨hnil, hnil'⟩ | ⟨l, ls, hcons, hcons'⟩
      · rw [← hcongr, hnil, hnil', List.map_nil]
        exact (hend (create limit) rfl).trans (hend (begun limit) rfl).symm
      · rw [hcons, lineEvents_create, ← hcons', hcongr]
    rw [hbegun, ← lineEvents_append]
    exact isSame_lineEvents _ rfl (accounted_begun limit)
  · have hall : lineEvents (create limit) ((terminated lineFeed body).map stripCarriageReturn)
        (endEvents (unterminated lineFeed body)) =
        lineEvents (create limit) (allLines body) dispatchEvents := by
      rw [allLines, List.map_append, lineEvents_append]
      rcases terminatedLines_cases body with ⟨hnil, -⟩ | ⟨l, ls, hcons, -⟩
      · rw [hnil]
        exact if_neg hlong
      · rw [hcons, lineEvents_create, lineEvents_create]
        refine lineEvents_congr rfl fun e _ hmax => ?_
        rw [endEvents, hmax]
        exact if_neg hlong
    rw [hall]
    have hbegun : lineEvents (create limit) (allLines body) dispatchEvents =
        lineEvents (begun limit) (streamLines body) dispatchEvents := by
      rcases streamLines_cases body with ⟨hall, hstream⟩ | ⟨hall, hstream⟩ | ⟨l, ls, hall, hstream⟩
      · rw [hall, hstream]
        rfl
      · rw [hall, hstream]
        rfl
      · rw [hall, hstream, lineEvents_create]
    rw [hbegun]
    exact isSame_lineEvents _ rfl (accounted_begun limit)

/-! ### All bytes may come in -/

theorem dispatch_isOk_iff (d : SseDecoder) :
    (∃ e events, d.dispatch = .ok (e, events)) ↔
      ∃ text, encodeUtf8 text = joinLines d.dataLines := by
  rw [dispatch]
  split_ifs with hdata
  · rw [hdata]
    exact iff_of_true ⟨d, [], rfl⟩ ⟨[], rfl⟩
  · rcases hdecode : decodeUtf8 (joinLines d.dataLines) with _ | text
    · refine iff_of_false (fun h => ?_) ?_
      · obtain ⟨e, events, he⟩ := h
        cases he
      rintro ⟨text, htext⟩
      rw [decodeUtf8_eq_some.mpr htext] at hdecode
      cases hdecode
    · exact iff_of_true ⟨_, _, rfl⟩ ⟨text, decodeUtf8_eq_some.mp hdecode⟩

theorem andThen_isOk_iff {x : Except ModelProtocolError (SseDecoder × List Text)}
    {f : SseDecoder → Except ModelProtocolError (SseDecoder × List Text)} :
    (∃ e events, andThen x f = .ok (e, events)) ↔
      ∃ e events, x = .ok (e, events) ∧ ∃ e' events', f e = .ok (e', events') := by
  constructor
  · rintro ⟨e', events, h⟩
    obtain ⟨e, before, after, hx, hf, -⟩ := andThen_eq_ok.mp h
    exact ⟨e, before, hx, e', after, hf⟩
  · rintro ⟨e, before, hx, e', after, hf⟩
    exact ⟨e', before ++ after, andThen_eq_ok.mpr ⟨e, before, after, hx, hf, rfl⟩⟩

/-- **Lines that raise nothing**: they and the events, also the one that goes on, are within the
limit, and the events that a blank line ends are texts. -/
theorem consumeLines_isOk_iff (lines : List Bytes) :
    ∀ {d : SseDecoder}, d.firstLine = false → Accounted d →
    ((∃ e events, d.consumeLines lines = .ok (e, events)) ↔
      (∀ line ∈ lines, line.length ≤ d.maxEventBytes) ∧
        (∀ values ∈ (blocks lines).modifyHead (d.dataLines ++ ·),
          (joinLines values).length ≤ d.maxEventBytes) ∧
        ∀ values ∈ ((blocks lines).modifyHead (d.dataLines ++ ·)).dropLast,
          ∃ text, encodeUtf8 text = joinLines values) := by
  induction lines with
  | nil =>
    intro d hfirst h
    rw [blocks_nil, List.modifyHead_cons, List.append_nil, List.forall_mem_singleton]
    exact ⟨fun _ => ⟨nofun, h.eventBytes ▸ h.le, nofun⟩, fun _ => ⟨d, [], rfl⟩⟩
  | cons line lines ih =>
    intro d hfirst h
    obtain ⟨block, rest, hblocks⟩ := exists_blocks_eq lines
    rw [consumeLines_cons, consumeLine_eq hfirst, List.forall_mem_cons, andThen_isOk_iff]
    split_ifs with hlong hblank
    · refine iff_of_false nofun ?_
      rintro ⟨⟨hle, -⟩, -⟩
      exact absurd hle (Nat.not_le.mpr hlong)
    · -- a blank line: what the decoder has must be a text
      have hle := h.eventBytes ▸ h.le
      have hdrop : (d.dataLines :: blocks lines).dropLast =
          d.dataLines :: (blocks lines).dropLast :=
        List.dropLast_cons_of_ne_nil (hblocks ▸ List.cons_ne_nil _ _)
      rw [hblank, blocks_cons_nil, List.modifyHead_cons, List.append_nil, hdrop,
        List.forall_mem_cons, List.forall_mem_cons, ← dispatch_isOk_iff]
      have hrest {e : SseDecoder} {events : List Text} (hd : d.dispatch = .ok (e, events)) :
          (∃ e' events', e.consumeLines lines = .ok (e', events')) ↔ _ :=
        ih ((accounted_dispatch h hd).2.2.trans hfirst) (accounted_dispatch h hd).1
      constructor
      · rintro ⟨e, events, hd, hlines⟩
        rw [hrest hd, (accounted_dispatch h hd).2.1, (frame_dispatch hd).maxEventBytes,
          modifyHead_nil_append] at hlines
        obtain ⟨hlength, hsize, htexts⟩ := hlines
        exact ⟨⟨Nat.zero_le _, hlength⟩, ⟨hle, hsize⟩, ⟨e, events, hd⟩, htexts⟩
      · rintro ⟨⟨-, hlength⟩, ⟨-, hsize⟩, ⟨e, events, hd⟩, htexts⟩
        refine ⟨e, events, hd, ?_⟩
        rw [hrest hd, (accounted_dispatch h hd).2.1, (frame_dispatch hd).maxEventBytes,
          modifyHead_nil_append]
        exact ⟨hlength, hsize, htexts⟩
    · have hle := Nat.not_lt.mp hlong
      rw [consumeField_eq, blocks_cons hblank]
      rcases hvalue : dataValue line with _ | value
      · -- the line is ignored
        have hrest := ih hfirst h
        rw [Option.toList_none, modifyHead_nil_append]
        constructor
        · rintro ⟨_, _, ⟨⟩, hlines⟩
          obtain ⟨hlength, hevents⟩ := hrest.mp hlines
          exact ⟨⟨hle, hlength⟩, hevents⟩
        · rintro ⟨⟨-, hlength⟩, hevents⟩
          exact ⟨d, [], rfl, hrest.mpr ⟨hlength, hevents⟩⟩
      · -- a data line
        have hhead : ((blocks lines).modifyHead ((some value).toList ++ ·)).modifyHead
            (d.dataLines ++ ·) = (blocks lines).modifyHead ((d.dataLines ++ [value]) ++ ·) := by
          rw [hblocks, List.modifyHead_cons, List.modifyHead_cons, List.modifyHead_cons,
            List.append_assoc]
          rfl
        rw [hhead]
        dsimp only
        by_cases hsize : d.maxEventBytes < d.eventBytes + d.addedSize value
        · rw [addData_of_lt hsize]
          refine iff_of_false nofun ?_
          rintro ⟨-, hevents, -⟩
          rw [hblocks, List.modifyHead_cons] at hevents
          refine absurd (hevents _ List.mem_cons_self) (Nat.not_le.mpr ?_)
          refine Nat.lt_of_lt_of_le ?_ (length_joinLines_le (d.dataLines ++ [value]) block)
          rw [length_joinLines_concat, ← h.eventBytes]
          exact hsize
        · have hadd := addData_of_not_lt hsize
          have hrest := ih (d := { d with
            dataLines := d.dataLines ++ [value]
            eventBytes := d.eventBytes + d.addedSize value }) hfirst (accounted_addData h hadd)
          rw [hadd]
          constructor
          · rintro ⟨_, _, ⟨⟩, hlines⟩
            obtain ⟨hlength, hevents⟩ := hrest.mp hlines
            exact ⟨⟨hle, hlength⟩, hevents⟩
          · rintro ⟨⟨-, hlength⟩, hevents⟩
            exact ⟨_, [], rfl, hrest.mpr ⟨hlength, hevents⟩⟩

/-- A new decoder consumes the lines that are terminated. -/
theorem consumeLines_terminated_isOk_iff (limit : ℕ) (body : Bytes) :
    (∃ e events, (create limit).consumeLines
      ((terminated lineFeed body).map stripCarriageReturn) = .ok (e, events)) ↔
    ∃ e events, (begun limit).consumeLines (terminatedLines body) = .ok (e, events) := by
  rcases terminatedLines_cases body with ⟨hnil, hnil'⟩ | ⟨l, ls, hcons, hcons'⟩
  · rw [hnil, hnil']
    exact iff_of_true ⟨_, _, rfl⟩ ⟨_, _, rfl⟩
  · rw [hcons, hcons', consumeLines_cons, consumeLines_cons, consumeLine_create]

theorem length_terminatedLines_le (h : ∀ line ∈ terminated lineFeed body, line.length ≤ limit) :
    ∀ line ∈ terminatedLines body, line.length ≤ limit := by
  have hstripped : ∀ line ∈ (terminated lineFeed body).map stripCarriageReturn,
      line.length ≤ limit := by
    intro line hline
    obtain ⟨raw, hraw, rfl⟩ := List.mem_map.mp hline
    exact (stripCarriageReturn_begins raw).length_le.trans (h raw hraw)
  rcases terminatedLines_cases body with ⟨-, hnil⟩ | ⟨l, ls, hcons, hcons'⟩
  · rw [hnil]
    nofun
  · rw [hcons, List.forall_mem_cons] at hstripped
    rw [hcons', List.forall_mem_cons, removePrefix]
    refine ⟨?_, hstripped.2⟩
    split_ifs
    · rw [List.length_drop]
      exact (Nat.sub_le _ _).trans hstripped.1
    · exact hstripped.1

/-- **All bytes may come in** just where no chunk raises, whatever the chunks are. -/
theorem takenIn_iff (limit : ℕ) (body : Bytes) : TakenIn limit body ↔
    (∀ line ∈ terminated lineFeed body ++ [unterminated lineFeed body], line.length ≤ limit) ∧
      ∃ e events, (create limit).consumeLines
        ((terminated lineFeed body).map stripCarriageReturn) = .ok (e, events) := by
  have hlines := consumeLines_isOk_iff (terminatedLines body) (d := begun limit) rfl
    (accounted_begun limit)
  have hhead : (blocks (terminatedLines body)).modifyHead ((begun limit).dataLines ++ ·) =
      blocks (terminatedLines body) := modifyHead_nil_append _
  rw [consumeLines_terminated_isOk_iff, hlines, hhead]
  constructor
  · rintro ⟨hlength, hevents, htexts⟩
    refine ⟨hlength, length_terminatedLines_le fun line hline => ?_, hevents, htexts⟩
    exact hlength line (List.mem_append_left _ hline)
  · rintro ⟨hlength, -, hevents, htexts⟩
    exact ⟨hlength, hevents, htexts⟩

theorem feedAll_of_takenIn {chunks : List Bytes} (h : TakenIn limit chunks.flatten) :
    ∃ d events, (create limit).feedAll chunks = .ok (d, events) := by
  obtain ⟨hlength, e, events, hlines⟩ := (takenIn_iff limit _).mp h
  have hbuffer : (create limit).lineBuffer = unterminated lineFeed [] := unterminated_nil.symm
  exact ⟨_, events, (feedAll_eq_ok hbuffer).mpr ⟨within_of_forall chunks hlength, e, hlines, rfl⟩⟩

/-- **A stream of which some bytes may not come in** raises for some of the ways to cut it, in its
first chunk. -/
theorem exists_feed_error (h : ¬TakenIn limit body) :
    ∃ chunk rest err, chunk ++ rest = body ∧ (create limit).feed chunk = .error err := by
  have herror (chunk : Bytes) (h : ¬∃ d events, (create limit).feed chunk = .ok (d, events)) :
      ∃ err, (create limit).feed chunk = .error err := by
    rcases hfeed : (create limit).feed chunk with err | ⟨d, events⟩
    · exact ⟨err, rfl⟩
    · exact absurd ⟨d, events, hfeed⟩ h
  by_cases hbody : ∃ d events, (create limit).feed body = .ok (d, events)
  · -- a line is over the limit with its line end
    obtain ⟨d, events, hfeed⟩ := hbody
    obtain ⟨hrest, e, hlines, -⟩ := feed_eq_ok.mp hfeed
    have hlong : ∃ line ∈ terminated lineFeed body, limit < line.length := by
      by_contra hnone
      refine h ((takenIn_iff limit body).mpr ⟨fun line hline => ?_, e, events, hlines⟩)
      rcases List.mem_append.mp hline with hline | hline
      · exact Nat.not_lt.mp fun hlong => hnone ⟨line, hline, hlong⟩
      · rw [List.mem_singleton.mp hline]
        exact hrest
    obtain ⟨line, hline, hlong⟩ := hlong
    obtain ⟨l₁, l₂, rfl, rfl⟩ := exists_unterminated_eq hline
    obtain ⟨err, herr⟩ := herror l₁ fun ⟨d, events, hok⟩ =>
      absurd (feed_eq_ok.mp hok).1 (Nat.not_le.mpr hlong)
    exact ⟨l₁, lineFeed :: l₂, err, rfl, herr⟩
  · obtain ⟨err, herr⟩ := herror body hbody
    exact ⟨body, [], err, List.append_nil body, herr⟩

end SseDecoder

end Eeveetuber
