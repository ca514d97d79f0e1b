import Eeveetuber.Foundation.Lines
import Eeveetuber.Foundation.Utf8

/-!
# The decoder of a model's stream

A model endpoint answers in server-sent events. `Eeveetuber.SseDecoder` is an *incremental UTF-8
SSE data decoder with a strict per-event bound*: bytes come in by chunks, lines are consumed as
soon as their line feed is in, and a blank line dispatches the data lines before it as one event.

The decoder is followed here from line to line. `Eeveetuber.SseDecoder.feed_eq` says that a chunk
has the effect of the lines that it terminates, and `Eeveetuber.SseDecoder.feedAll_eq_ok` what a
sequence of chunks comes to: the terminated lines of all the bytes, provided that the unterminated
line was never over the limit when a chunk ended.
-/

namespace Eeveetuber

open Foundation

/-- `ModelProtocolError`: the endpoint returned an invalid or unsupported streaming shape. -/
structure ModelProtocolError where
  message : Text
deriving DecidableEq, Repr

/-- What the adapter of a model endpoint is configured with, as far as a stream is concerned. -/
structure OpenAICompatibleModelConfig where
  maxSseEventBytes : ℕ := 262144
  le_maxSseEventBytes : 1024 ≤ maxSseEventBytes := by decide

/-- `"\n"`, as a byte. -/
def lineFeed : UInt8 := 10

/-- `"\r"`, as a byte. -/
def carriageReturn : UInt8 := 13

def colon : UInt8 := 58

def space : UInt8 := 32

/-- The encoding of the byte-order mark. -/
def byteOrderMark : Bytes := [0xef, 0xbb, 0xbf]

/-- The name of the field that carries data. -/
def dataField : Bytes := [100, 97, 116, 97]

/-- `raw_line` without a carriage return at its end. -/
def stripCarriageReturn (rawLine : Bytes) : Bytes :=
  if rawLine.getLast? = some carriageReturn then rawLine.dropLast else rawLine

/-- `bytes.removeprefix`. -/
def removePrefix (mark line : Bytes) : Bytes :=
  if mark.isPrefixOf line then line.drop mark.length else line

/-- `bytes.partition`, as the part before the first separator and the part behind it; the latter
is `none` where there is no separator. -/
def partition (sep : UInt8) (line : Bytes) : Bytes × Option Bytes :=
  match line.findIdx? (· == sep) with
  | none => (line, none)
  | some i => (line.take i, some (line.drop (i + 1)))

structure SseDecoder where
  maxEventBytes : ℕ
  lineBuffer : Bytes
  dataLines : List Bytes
  eventBytes : ℕ
  firstLine : Bool
deriving DecidableEq, Repr

namespace SseDecoder

/-- A new decoder. -/
def create (maxEventBytes : ℕ) : SseDecoder where
  maxEventBytes := maxEventBytes
  lineBuffer := []
  dataLines := []
  eventBytes := 0
  firstLine := true

/-- Data lines as one payload. -/
def joinLines (dataLines : List Bytes) : Bytes := [lineFeed].intercalate dataLines

/-- Hand out the data lines as an event, if there are any. -/
def dispatch (d : SseDecoder) : Except ModelProtocolError (SseDecoder × List Text) :=
  if d.dataLines = [] then .ok (d, [])
  else match decodeUtf8 (joinLines d.dataLines) with
    | some payload => .ok ({ d with dataLines := [], eventBytes := 0 }, [payload])
    | none => .error ⟨"SSE data was not valid UTF-8".toList⟩

/-- By how much the value of a data line makes the event larger. -/
def addedSize (d : SseDecoder) (value : Bytes) : ℕ :=
  value.length + if d.dataLines = [] then 0 else 1

/-- Keep the value of a data line. -/
def addData (d : SseDecoder) (value : Bytes) :
    Except ModelProtocolError (SseDecoder × List Text) :=
  if d.maxEventBytes < d.eventBytes + d.addedSize value then
    .error ⟨"SSE event exceeded configured size limit".toList⟩
  else
    .ok ({ d with
      dataLines := d.dataLines ++ [value]
      eventBytes := d.eventBytes + d.addedSize value }, [])

/-- A line that is not blank: a comment, or a field with its value. -/
def consumeField (d : SseDecoder) (rawLine : Bytes) :
    Except ModelProtocolError (SseDecoder × List Text) :=
  if rawLine.head? = some colon then .ok (d, [])
  else
    let (fieldName, rest) := partition colon rawLine
    let value := match rest with
      | none => []
      | some value => if value.head? = some space then value.tail else value
    if fieldName = dataField then d.addData value else .ok (d, [])

/-- Consume a line, of which the line end has been taken off. -/
def consumeLine (d : SseDecoder) (rawLine : Bytes) :
    Except ModelProtocolError (SseDecoder × List Text) :=
  let line := if d.firstLine then removePrefix byteOrderMark rawLine else rawLine
  let d := { d with firstLine := false }
  if d.maxEventBytes < line.length then
    .error ⟨"SSE line exceeded configured size limit".toList⟩
  else if line = [] then d.dispatch
  else d.consumeField line

/-- The loop of `feed`, over what is in the line buffer. -/
def feedLoop (d : SseDecoder) (lineBuffer : Bytes) :
    Except ModelProtocolError (SseDecoder × List Text) :=
  match _h : lineBuffer.findIdx? (· == lineFeed) with
  | none => .ok ({ d with lineBuffer }, [])
  | some newline => do
    let (d, events) ← d.consumeLine (stripCarriageReturn (lineBuffer.take newline))
    let (d, more) ← d.feedLoop (lineBuffer.drop (newline + 1))
    return (d, events ++ more)
termination_by lineBuffer.length
decreasing_by
  obtain ⟨hlt, -⟩ := List.findIdx?_eq_some_iff_getElem.mp _h
  rw [List.length_drop]
  omega

/-- Take a chunk in. -/
def feed (d : SseDecoder) (chunk : Bytes) : Except ModelProtocolError (SseDecoder × List Text) := do
  let (d, events) ← d.feedLoop (d.lineBuffer ++ chunk)
  if d.maxEventBytes < d.lineBuffer.length then
    throw ⟨"SSE line exceeded configured size limit".toList⟩
  return (d, events)

/-- What is left in the line buffer is a line. -/
def consumeBuffer (d : SseDecoder) : Except ModelProtocolError (SseDecoder × List Text) :=
  if d.lineBuffer = [] then .ok (d, [])
  else ({ d with lineBuffer := [] } : SseDecoder).consumeLine (stripCarriageReturn d.lineBuffer)

/-- The end of the stream. -/
def finish (d : SseDecoder) : Except ModelProtocolError (SseDecoder × List Text) := do
  let (d, events) ← d.consumeBuffer
  let (d, more) ← d.dispatch
  return (d, events ++ more)

/-- Take in chunks, one after the other. -/
def feedAll (d : SseDecoder) : List Bytes → Except ModelProtocolError (SseDecoder × List Text)
  | [] => .ok (d, [])
  | chunk :: chunks => do
    let (d, events) ← d.feed chunk
    let (d, more) ← d.feedAll chunks
    return (d, events ++ more)

/-- Decode a stream that comes in by chunks. -/
def decode (maxEventBytes : ℕ) (chunks : List Bytes) : Except ModelProtocolError (List Text) := do
  let (d, events) ← (create maxEventBytes).feedAll chunks
  let (_, more) ← d.finish
  return events ++ more

/-- Consume lines, one after the other. -/
def consumeLines (d : SseDecoder) : List Bytes → Except ModelProtocolError (SseDecoder × List Text)
  | [] => .ok (d, [])
  | line :: lines => do
    let (d, events) ← d.consumeLine line
    let (d, more) ← d.consumeLines lines
    return (d, events ++ more)

/-! ### From line to line -/

variable {d d' : SseDecoder} {line : Bytes} {lines lines' : List Bytes} {buffer : Bytes}
  {events : List Text}

/-- A step with what it hands out, and what is handed out later. -/
def andThen (x : Except ModelProtocolError (SseDecoder × List Text))
    (f : SseDecoder → Except ModelProtocolError (SseDecoder × List Text)) :
    Except ModelProtocolError (SseDecoder × List Text) := do
  let (d, events) ← x
  let (d, more) ← f d
  return (d, events ++ more)

theorem andThen_eq_ok {x : Except ModelProtocolError (SseDecoder × List Text)}
    {f : SseDecoder → Except ModelProtocolError (SseDecoder × List Text)} :
    andThen x f = .ok (d, events) ↔ ∃ e before after, x = .ok (e, before) ∧
      f e = .ok (d, after) ∧ events = before ++ after := by
  rcases x with err | ⟨e, before⟩
  · refine iff_of_false nofun ?_
    rintro ⟨_, _, _, h, -⟩
    cases h
  · show ((f e) >>= fun p => pure (p.1, before ++ p.2)) = _ ↔ _
    rcases hf : f e with err | ⟨e', after⟩
    · refine iff_of_false nofun ?_
      rintro ⟨_, _, _, h, h', -⟩
      cases h
      rw [hf] at h'
      cases h'
    · constructor
      · intro h
        cases h
        exact ⟨e, before, after, rfl, hf, rfl⟩
      · rintro ⟨_, _, _, h, h', rfl⟩
        cases h
        rw [hf] at h'
        cases h'
        rfl

theorem andThen_assoc (x : Except ModelProtocolError (SseDecoder × List Text))
    (f g : SseDecoder → Except ModelProtocolError (SseDecoder × List Text)) :
    andThen (andThen x f) g = andThen x fun d => andThen (f d) g := by
  rcases x with err | ⟨e, before⟩
  · rfl
  · show andThen ((f e) >>= fun p => pure (p.1, before ++ p.2)) g = _
    rcases hf : f e with err | ⟨e', more⟩
    · show _ = ((andThen (f e) g) >>= fun p => pure (p.1, before ++ p.2))
      rw [hf]
      rfl
    · show ((g e') >>= fun p => pure (p.1, (before ++ more) ++ p.2)) =
        ((andThen (f e) g) >>= fun p => pure (p.1, before ++ p.2))
      rw [hf]
      show _ = (((g e') >>= fun p => pure (p.1, more ++ p.2)) >>=
        fun p => pure (p.1, before ++ p.2))
      rcases g e' with err | ⟨e'', after⟩
      · rfl
      · show Except.ok (e'', before ++ more ++ after) = Except.ok (e'', before ++ (more ++ after))
        rw [List.append_assoc]

theorem consumeLines_cons (d : SseDecoder) (line : Bytes) (lines : List Bytes) :
    d.consumeLines (line :: lines) =
      andThen (d.consumeLine line) fun d => d.consumeLines lines := rfl

theorem consumeLines_append (d : SseDecoder) (lines lines' : List Bytes) :
    d.consumeLines (lines ++ lines') =
      andThen (d.consumeLines lines) fun d => d.consumeLines lines' := by
  induction lines generalizing d with
  | nil =>
    show d.consumeLines lines' = (d.consumeLines lines') >>= fun p => pure (p.1, [] ++ p.2)
    rcases d.consumeLines lines' with err | ⟨e, events⟩
    · rfl
    · rfl
  | cons line lines ih =>
    rw [List.cons_append, consumeLines_cons, consumeLines_cons, andThen_assoc]
    exact congrArg _ (funext fun d => ih d)

theorem addData_of_lt {value : Bytes}
    (h : d.maxEventBytes < d.eventBytes + d.addedSize value) :
    d.addData value = .error ⟨"SSE event exceeded configured size limit".toList⟩ := if_pos h

theorem addData_of_not_lt {value : Bytes}
    (h : ¬d.maxEventBytes < d.eventBytes + d.addedSize value) :
    d.addData value = .ok ({ d with
      dataLines := d.dataLines ++ [value]
      eventBytes := d.eventBytes + d.addedSize value }, []) := if_neg h

/-- The same decoder with another line buffer. -/
def withBuffer (buffer : Bytes) (d : SseDecoder) : SseDecoder := { d with lineBuffer := buffer }

/-- What a step does, with another line buffer. -/
def mapBuffer (buffer : Bytes) (x : Except ModelProtocolError (SseDecoder × List Text)) :
    Except ModelProtocolError (SseDecoder × List Text) :=
  x.map fun p => (p.1.withBuffer buffer, p.2)

/-- The line buffer may be set at the end. -/
theorem andThen_mapBuffer {x : Except ModelProtocolError (SseDecoder × List Text)}
    {f g : SseDecoder → Except ModelProtocolError (SseDecoder × List Text)}
    (h : ∀ d, g d = mapBuffer buffer (f d)) : andThen x g = mapBuffer buffer (andThen x f) := by
  rcases x with err | ⟨e, before⟩
  · rfl
  · show ((g e) >>= fun p => pure (p.1, before ++ p.2)) =
      mapBuffer buffer ((f e) >>= fun p => pure (p.1, before ++ p.2))
    rw [h]
    rcases f e with err | ⟨e', after⟩
    · rfl
    · rfl

/-- The line buffer may be set at the beginning. -/
theorem mapBuffer_andThen {x : Except ModelProtocolError (SseDecoder × List Text)}
    {f : SseDecoder → Except ModelProtocolError (SseDecoder × List Text)} :
    andThen (mapBuffer buffer x) f = andThen x fun d => f (d.withBuffer buffer) := by
  rcases x with err | ⟨e, before⟩
  · rfl
  · rfl

theorem dispatch_withBuffer (buffer : Bytes) (d : SseDecoder) :
    (d.withBuffer buffer).dispatch = mapBuffer buffer d.dispatch := by
  rw [dispatch, dispatch]
  show (if d.dataLines = [] then _ else match decodeUtf8 (joinLines d.dataLines) with
    | some payload => _
    | none => _) = _
  split_ifs
  · rfl
  · rcases decodeUtf8 (joinLines d.dataLines) with _ | payload <;> rfl

theorem addData_withBuffer (buffer : Bytes) (d : SseDecoder) (value : Bytes) :
    (d.withBuffer buffer).addData value = mapBuffer buffer (d.addData value) := by
  by_cases h : d.maxEventBytes < d.eventBytes + d.addedSize value
  · rw [addData_of_lt h]
    exact addData_of_lt (d := d.withBuffer buffer) h
  · rw [addData_of_not_lt h]
    exact addData_of_not_lt (d := d.withBuffer buffer) h

theorem consumeField_withBuffer (buffer : Bytes) (d : SseDecoder) (line : Bytes) :
    (d.withBuffer buffer).consumeField line = mapBuffer buffer (d.consumeField line) := by
  rw [consumeField, consumeField]
  split_ifs
  · rfl
  · rcases partition colon line with ⟨fieldName, rest⟩
    dsimp only
    split_ifs
    · exact addData_withBuffer buffer d _
    · rfl

/-- A line is consumed whatever the line buffer holds. -/
theorem consumeLine_withBuffer (buffer : Bytes) (d : SseDecoder) (line : Bytes) :
    (d.withBuffer buffer).consumeLine line = mapBuffer buffer (d.consumeLine line) := by
  have hline (line : Bytes) :
      (if d.maxEventBytes < line.length then
          .error ⟨"SSE line exceeded configured size limit".toList⟩
        else if line = [] then (withBuffer buffer { d with firstLine := false }).dispatch
        else (withBuffer buffer { d with firstLine := false }).consumeField line) =
      mapBuffer buffer (if d.maxEventBytes < line.length then
          .error ⟨"SSE line exceeded configured size limit".toList⟩
        else if line = [] then ({ d with firstLine := false } : SseDecoder).dispatch
        else ({ d with firstLine := false } : SseDecoder).consumeField line) := by
    split_ifs
    · rfl
    · exact dispatch_withBuffer _ _
    · exact consumeField_withBuffer _ _ _
  exact hline _

theorem consumeLines_withBuffer (buffer : Bytes) (d : SseDecoder) (lines : List Bytes) :
    (d.withBuffer buffer).consumeLines lines = mapBuffer buffer (d.consumeLines lines) := by
  induction lines generalizing d with
  | nil => rfl
  | cons line lines ih =>
    rw [consumeLines_cons, consumeLines_cons, consumeLine_withBuffer, mapBuffer_andThen]
    exact andThen_mapBuffer ih

/-- What no line changes. -/
structure Frame (d d' : SseDecoder) : Prop where
  maxEventBytes : d'.maxEventBytes = d.maxEventBytes
  lineBuffer : d'.lineBuffer = d.lineBuffer

theorem frame_dispatch (h : d.dispatch = .ok (d', events)) : Frame d d' := by
  rw [dispatch] at h
  split_ifs at h
  · cases h
    exact ⟨rfl, rfl⟩
  · rcases hdecode : decodeUtf8 (joinLines d.dataLines) with _ | payload
    · rw [hdecode] at h
      cases h
    · rw [hdecode] at h
      cases h
      exact ⟨rfl, rfl⟩

theorem frame_consumeLine (h : d.consumeLine line = .ok (d', events)) : Frame d d' := by
  rw [consumeLine] at h
  dsimp only at h
  generalize (if d.firstLine = true then removePrefix byteOrderMark line else line) = line at h
  split_ifs at h with hlong hblank
  · obtain ⟨hmax, hbuffer⟩ := frame_dispatch h
    exact ⟨hmax, hbuffer⟩
  · rw [consumeField] at h
    split_ifs at h
    · cases h
      exact ⟨rfl, rfl⟩
    · dsimp only at h
      split_ifs at h
      · rw [addData] at h
        dsimp only at h
        split_ifs at h
        all_goals
          cases h
          exact ⟨rfl, rfl⟩
      · cases h
        exact ⟨rfl, rfl⟩

theorem frame_consumeLines (h : d.consumeLines lines = .ok (d', events)) : Frame d d' := by
  induction lines generalizing d events with
  | nil =>
    cases h
    exact ⟨rfl, rfl⟩
  | cons line lines ih =>
    rw [consumeLines_cons] at h
    obtain ⟨e, before, after, hline, hlines, -⟩ := andThen_eq_ok.mp h
    obtain ⟨hmax, hbuffer⟩ := frame_consumeLine hline
    obtain ⟨hmax', hbuffer'⟩ := ih hlines
    exact ⟨hmax'.trans hmax, hbuffer'.trans hbuffer⟩

theorem exists_line_of_findIdx? {i : ℕ} (h : buffer.findIdx? (· == lineFeed) = some i) :
    lineFeed ∉ buffer.take i ∧ buffer = buffer.take i ++ lineFeed :: buffer.drop (i + 1) := by
  obtain ⟨hlt, heq, hbefore⟩ := List.findIdx?_eq_some_iff_getElem.mp h
  constructor
  · intro hmem
    obtain ⟨j, hj, hget⟩ := List.mem_iff_getElem.mp hmem
    rw [List.length_take] at hj
    rw [List.getElem_take] at hget
    exact hbefore j (by omega) (beq_iff_eq.mpr hget)
  · rw [← beq_iff_eq.mp heq, ← List.drop_eq_getElem_cons hlt, List.take_append_drop]

/-- **The loop of `feed`** consumes the lines that are terminated. -/
theorem feedLoop_eq (d : SseDecoder) (buffer : Bytes) :
    d.feedLoop buffer = mapBuffer (unterminated lineFeed buffer)
      (d.consumeLines ((terminated lineFeed buffer).map stripCarriageReturn)) := by
  induction hn : buffer.length using Nat.strongRecOn generalizing d buffer with
  | ind n ih =>
    rw [feedLoop]
    split
    · rename_i h
      have hmem : lineFeed ∉ buffer := by
        intro hmem
        exact absurd (List.findIdx?_eq_none_iff.mp h _ hmem) (by decide)
      rw [terminated_of_not_mem hmem, unterminated_of_not_mem hmem]
      rfl
    · rename_i i h
      obtain ⟨hmem, hbuffer⟩ := exists_line_of_findIdx? h
      generalize buffer.take i = rawLine at hmem hbuffer
      generalize buffer.drop (i + 1) = rest at hbuffer
      subst hbuffer
      have hrest : rest.length < n := by
        rw [← hn, List.length_append, List.length_cons]
        omega
      rw [terminated_append_cons hmem, unterminated_append_cons hmem, List.map_cons,
        consumeLines_cons]
      exact andThen_mapBuffer fun e => ih _ hrest e rest rfl

/-- **The unterminated line is within the limit** whenever a chunk has come in. -/
def Within (limit : ℕ) (before : Bytes) : List Bytes → Prop
  | [] => True
  | chunk :: chunks =>
    (unterminated lineFeed (before ++ chunk)).length ≤ limit ∧ Within limit (before ++ chunk) chunks

theorem mapBuffer_eq_ok {x : Except ModelProtocolError (SseDecoder × List Text)} :
    mapBuffer buffer x = .ok (d, events) ↔ ∃ e, x = .ok (e, events) ∧ d = e.withBuffer buffer := by
  rcases x with err | ⟨e, events'⟩
  · refine iff_of_false nofun ?_
    rintro ⟨_, h, -⟩
    cases h
  · constructor
    · intro h
      cases h
      exact ⟨e, rfl, rfl⟩
    · rintro ⟨_, h, rfl⟩
      cases h
      rfl

theorem feed_eq_ok {chunk : Bytes} : d.feed chunk = .ok (d', events) ↔
    (unterminated lineFeed (d.lineBuffer ++ chunk)).length ≤ d.maxEventBytes ∧
      ∃ e, d.consumeLines
          ((terminated lineFeed (d.lineBuffer ++ chunk)).map stripCarriageReturn) =
          .ok (e, events) ∧
        d' = e.withBuffer (unterminated lineFeed (d.lineBuffer ++ chunk)) := by
  rw [feed, feedLoop_eq]
  rcases hlines : d.consumeLines
      ((terminated lineFeed (d.lineBuffer ++ chunk)).map stripCarriageReturn) with
    err | ⟨e, events'⟩
  · refine iff_of_false nofun ?_
    rintro ⟨-, _, h, -⟩
    cases h
  · obtain ⟨hmax, -⟩ := frame_consumeLines hlines
    show (if e.maxEventBytes < (unterminated lineFeed _).length then _ else _) = _ ↔ _
    rw [hmax]
    split_ifs with hlong
    · refine iff_of_false nofun fun h => ?_
      exact absurd h.1 (Nat.not_le.mpr hlong)
    · constructor
      · intro h
        cases h
        exact ⟨Nat.not_lt.mp hlong, e, rfl, rfl⟩
      · rintro ⟨-, _, h, rfl⟩
        cases h
        rfl

/-- The lines of a stream, terminated or not, without their line ends. -/
def allLines (body : Bytes) : List Bytes :=
  (terminated lineFeed body ++
    if unterminated lineFeed body = [] then [] else [unterminated lineFeed body]).map
      stripCarriageReturn

/-- **What a sequence of chunks comes to.** -/
theorem feedAll_eq_ok {before : Bytes} {chunks : List Bytes} :
    ∀ {d d' : SseDecoder} {events : List Text}, d.lineBuffer = unterminated lineFeed before →
    (d.feedAll chunks = .ok (d', events) ↔
      Within d.maxEventBytes before chunks ∧ ∃ e, d.consumeLines
          ((terminated lineFeed (d.lineBuffer ++ chunks.flatten)).map stripCarriageReturn) =
          .ok (e, events) ∧
        d' = e.withBuffer (unterminated lineFeed (before ++ chunks.flatten))) := by
  induction chunks generalizing before with
  | nil =>
    intro d d' events hbuffer
    rw [List.flatten_nil, List.append_nil, List.append_nil, ← hbuffer,
      terminated_of_not_mem (hbuffer ▸ not_mem_unterminated before)]
    constructor
    · intro h
      cases h
      exact ⟨trivial, d, rfl, rfl⟩
    · rintro ⟨-, _, h, rfl⟩
      cases h
      rfl
  | cons chunk chunks ih =>
    intro d d' events hbuffer
    -- the unterminated line is that of all the bytes so far
    have hchunk : unterminated lineFeed (d.lineBuffer ++ chunk) =
        unterminated lineFeed (before ++ chunk) := by
      rw [unterminated_append before, hbuffer]
    have hall (e : SseDecoder) : (terminated lineFeed
        (d.lineBuffer ++ (chunk :: chunks).flatten)).map stripCarriageReturn =
        (terminated lineFeed (d.lineBuffer ++ chunk)).map stripCarriageReturn ++
          (terminated lineFeed ((e.withBuffer (unterminated lineFeed
            (before ++ chunk))).lineBuffer ++ chunks.flatten)).map stripCarriageReturn := by
      rw [List.flatten_cons, ← List.append_assoc, terminated_append, List.map_append, hchunk]
      rfl
    have hstep (e : SseDecoder) := @ih (before ++ chunk)
      (e.withBuffer (unterminated lineFeed (before ++ chunk)))
    show andThen (d.feed chunk) (fun d => d.feedAll chunks) = _ ↔ _
    rw [andThen_eq_ok, List.flatten_cons, ← List.append_assoc before]
    constructor
    · rintro ⟨_, first, more, hfeed, hmore, rfl⟩
      obtain ⟨hlong, e, hlines, rfl⟩ := feed_eq_ok.mp hfeed
      rw [hchunk] at hlong hmore
      obtain ⟨hwithin, e', hlines', rfl⟩ := (hstep e rfl).mp hmore
      rw [consumeLines_withBuffer, mapBuffer_eq_ok] at hlines'
      obtain ⟨e', hlines', rfl⟩ := hlines'
      have hmax := (frame_consumeLines hlines).maxEventBytes
      refine ⟨⟨hlong, hmax ▸ hwithin⟩, e', ?_, rfl⟩
      rw [← List.flatten_cons, hall e, consumeLines_append, andThen_eq_ok]
      exact ⟨e, first, more, hlines, hlines', rfl⟩
    · rintro ⟨⟨hlong, hwithin⟩, e', hlines, rfl⟩
      rw [← List.flatten_cons, hall d, consumeLines_append, andThen_eq_ok] at hlines
      obtain ⟨e, first, more, hlines, hlines', rfl⟩ := hlines
      have hmax := (frame_consumeLines hlines).maxEventBytes
      refine ⟨e.withBuffer (unterminated lineFeed (d.lineBuffer ++ chunk)), first, more,
        feed_eq_ok.mpr ⟨hchunk ▸ hlong, e, hlines, rfl⟩, ?_, rfl⟩
      rw [hchunk]
      refine (hstep e rfl).mpr ⟨hmax.symm ▸ hwithin,
        e'.withBuffer (unterminated lineFeed (before ++ chunk)), ?_, rfl⟩
      rw [consumeLines_withBuffer]
      exact mapBuffer_eq_ok.mpr ⟨e', hlines', rfl⟩

theorem consumeLines_singleton (d : SseDecoder) (line : Bytes) :
    d.consumeLines [line] = d.consumeLine line := by
  show (d.consumeLine line) >>= (fun p => pure (p.1, p.2 ++ [])) = _
  rcases d.consumeLine line with err | ⟨e, events⟩
  · rfl
  · exact congrArg (fun events => Except.ok (e, events)) (List.append_nil events)

theorem consumeBuffer_withBuffer (d : SseDecoder) (buffer : Bytes) :
    (d.withBuffer buffer).consumeBuffer = mapBuffer []
      (d.consumeLines ((if buffer = [] then [] else [buffer]).map stripCarriageReturn)) := by
  rw [consumeBuffer]
  show (if buffer = [] then _ else _) = _
  split_ifs with hbuffer
  · subst hbuffer
    rfl
  · rw [List.map_singleton, consumeLines_singleton]
    exact consumeLine_withBuffer [] d _

/-- **What the end of a stream comes to.** -/
theorem finish_eq_ok {buffer : Bytes} : (d.withBuffer buffer).finish = .ok (d', events) ↔
    ∃ e, andThen (d.consumeLines
        ((if buffer = [] then [] else [buffer]).map stripCarriageReturn)) dispatch =
        .ok (e, events) ∧ d' = e.withBuffer [] := by
  have hdispatch : (fun d : SseDecoder => (d.withBuffer []).dispatch) =
      fun d => mapBuffer [] d.dispatch := funext (dispatch_withBuffer [])
  show andThen (d.withBuffer buffer).consumeBuffer dispatch = _ ↔ _
  rw [consumeBuffer_withBuffer, mapBuffer_andThen, hdispatch, andThen_mapBuffer fun _ => rfl,
    mapBuffer_eq_ok]

/-- **What a decoded stream comes to**: its lines are consumed, and the last event is handed out;
and no chunk ends where the unterminated line is over the limit. -/
theorem decode_eq_ok {limit : ℕ} {chunks : List Bytes} :
    decode limit chunks = .ok events ↔ Within limit [] chunks ∧
      ∃ e, andThen ((create limit).consumeLines (allLines chunks.flatten)) dispatch =
        .ok (e, events) := by
  -- a stream that is decoded is one that is fed and then finished
  have hdecode : decode limit chunks =
      (andThen ((create limit).feedAll chunks) finish).map (·.2) := by
    show ((create limit).feedAll chunks >>= fun p => p.1.finish >>= fun q => pure (p.2 ++ q.2)) =
      Except.map _ ((create limit).feedAll chunks >>= fun p =>
        p.1.finish >>= fun q => pure (q.1, p.2 ++ q.2))
    rcases (create limit).feedAll chunks with err | ⟨e, first⟩
    · rfl
    · show (e.finish >>= _) = Except.map _ (e.finish >>= _)
      rcases e.finish with err | ⟨e', more⟩
      · rfl
      · rfl
  -- its lines are those of what is buffered and fed, the unterminated one included
  have hlines : allLines chunks.flatten =
      (terminated lineFeed ((create limit).lineBuffer ++ chunks.flatten)).map stripCarriageReturn ++
        (if unterminated lineFeed ([] ++ chunks.flatten) = [] then []
          else [unterminated lineFeed ([] ++ chunks.flatten)]).map stripCarriageReturn := by
    rw [allLines, List.map_append]
    rfl
  have hbuffer : (create limit).lineBuffer = unterminated lineFeed [] := unterminated_nil.symm
  have hfeed {d' : SseDecoder} {events : List Text} :
      (create limit).feedAll chunks = .ok (d', events) ↔ _ := feedAll_eq_ok hbuffer
  rw [hdecode, hlines, consumeLines_append, andThen_assoc]
  constructor
  · intro h
    rcases hx : andThen ((create limit).feedAll chunks) finish with err | ⟨e, events'⟩
    · rw [hx] at h
      cases h
    · rw [hx] at h
      cases h
      obtain ⟨_, first, more, hall, hfinish, rfl⟩ := andThen_eq_ok.mp hx
      obtain ⟨hwithin, e, hconsume, rfl⟩ := hfeed.mp hall
      obtain ⟨e', hrest, rfl⟩ := finish_eq_ok.mp hfinish
      exact ⟨hwithin, e', andThen_eq_ok.mpr ⟨e, first, more, hconsume, hrest, rfl⟩⟩
  · rintro ⟨hwithin, e', h⟩
    obtain ⟨e, first, more, hconsume, hrest, rfl⟩ := andThen_eq_ok.mp h
    have hall := hfeed.mpr ⟨hwithin, e, hconsume, rfl⟩
    have hfinish := finish_eq_ok.mpr ⟨e', hrest, rfl⟩
    rw [andThen_eq_ok.mpr ⟨_, first, more, hall, hfinish, rfl⟩]
    rfl

end SseDecoder

end Eeveetuber
