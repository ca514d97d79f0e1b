import Eeveetuber.Adapters.SseDecoder

/-!
# The data of an event stream

What a stream of server-sent events says, read off all of its bytes at once. A byte-order mark in
front is dropped, lines end in a line feed or in a carriage return and a line feed, what stands
behind the last line feed is a line as well, and a carriage return at its end is dropped too
(`Eeveetuber.streamLines`). Blank lines separate the events; the values of the data lines of an
event are its payload (`Eeveetuber.payloads`), and everything else is ignored.

`Eeveetuber.SseDecoder.decode_iff` says when the decoder reads a stream and what it reads:

* it hands out exactly these payloads, however the bytes come in
  (`Eeveetuber.SseDecoder.decoder_correct`);
* but **whether it raises depends on the chunks** (`Eeveetuber.SseDecoder.decode_unlike`): a line
  is measured without its carriage return and the byte-order mark when it is complete, and with
  them while it is not. `Eeveetuber.SseDecoder.decode_alike_iff` has the exact condition.
-/

namespace Eeveetuber

open Foundation

namespace SseDecoder

/-- The value of a data line; `none` for a comment, another field or a blank line. -/
def dataValue (line : Bytes) : Option Bytes :=
  if line = dataField then some []
  else if (dataField ++ [colon]).isPrefixOf line then
    let value := line.drop (dataField ++ [colon]).length
    some (if value.head? = some space then value.tail else value)
  else none

/-- The lines of a stream. -/
def streamLines (body : Bytes) : List Bytes := allLines (removePrefix byteOrderMark body)

/-- The values of the data lines between blank lines. -/
def blocks (lines : List Bytes) : List (List Bytes) :=
  (lines.splitOn []).map (·.filterMap dataValue)

/-- The payloads of events, of which those without data lines are none. -/
def payloadsOf (blocks : List (List Bytes)) : List Bytes :=
  (blocks.filter fun b => decide (b ≠ [])).map joinLines

/-- **The payloads of a stream.** -/
def payloads (body : Bytes) : List Bytes := payloadsOf (blocks (streamLines body))

variable {line value s t body : Bytes} {lines : List Bytes} {limit : ℕ}

/-! ### Lines and their fields -/

theorem partition_cases (sep : UInt8) (line : Bytes) :
    (sep ∉ line ∧ partition sep line = (line, none)) ∨
      ∃ s t, line = s ++ sep :: t ∧ sep ∉ s ∧ partition sep line = (s, some t) := by
  rw [partition]
  rcases h : line.findIdx? (· == sep) with _ | i
  · refine .inl ⟨fun hmem => ?_, rfl⟩
    exact absurd (List.findIdx?_eq_none_iff.mp h _ hmem) (by simp)
  · obtain ⟨hlt, heq, hbefore⟩ := List.findIdx?_eq_some_iff_getElem.mp h
    refine .inr ⟨line.take i, line.drop (i + 1), ?_, fun hmem => ?_, rfl⟩
    · rw [← beq_iff_eq.mp heq, ← List.drop_eq_getElem_cons hlt, List.take_append_drop]
    · obtain ⟨j, hj, hget⟩ := List.mem_iff_getElem.mp hmem
      rw [List.length_take] at hj
      rw [List.getElem_take] at hget
      exact hbefore j (by omega) (beq_iff_eq.mpr hget)

theorem colon_not_mem_dataField : colon ∉ dataField := by decide

/-- **A field is what the grammar says**: a data line is kept, everything else is ignored. -/
theorem consumeField_eq (d : SseDecoder) (line : Bytes) : d.consumeField line =
    match dataValue line with
    | none => .ok (d, [])
    | some value => d.addData value := by
  rw [consumeField]
  rcases partition_cases colon line with ⟨hmem, hpartition⟩ | ⟨s, t, rfl, hmem, hpartition⟩
  · -- without a colon the line is the name of a field
    have hhead : line.head? ≠ some colon := by
      rintro hhead
      exact hmem (List.mem_of_mem_head? hhead)
    have hbegins : (dataField ++ [colon]).isPrefixOf line = false := by
      rw [Bool.eq_false_iff]
      intro hbegins
      exact hmem ((List.isPrefixOf_iff_prefix.mp hbegins).subset (by simp))
    rw [if_neg hhead, hpartition, dataValue, hbegins]
    dsimp only
    split_ifs <;> first | rfl | contradiction
  · rw [hpartition]
    dsimp only
    have hne : s ++ colon :: t ≠ dataField := by
      intro h
      exact colon_not_mem_dataField (h ▸ by simp)
    rw [dataValue, if_neg hne]
    rcases s with _ | ⟨b, s⟩
    · -- a comment
      rfl
    · have hhead : (b :: s ++ colon :: t).head? ≠ some colon := by
        rintro ⟨⟩
        exact hmem List.mem_cons_self
      rw [if_neg hhead]
      by_cases hdata : b :: s = dataField
      · rw [if_pos hdata, hdata]
        rfl
      · have hbegins : (dataField ++ [colon]).isPrefixOf (b :: s ++ colon :: t) = false := by
          rw [Bool.eq_false_iff, ne_eq, List.isPrefixOf_iff_prefix]
          rintro ⟨u, hu⟩
          rw [List.append_assoc, List.singleton_append] at hu
          have hsplit := congrArg (List.splitOn colon) hu
          rw [List.splitOn_append_cons_self_of_not_mem colon_not_mem_dataField,
            List.splitOn_append_cons_self_of_not_mem hmem] at hsplit
          exact hdata (List.cons.inj hsplit).1.symm
        rw [if_neg hdata, hbegins]
        rfl

/-! ### Payloads -/

theorem joinLines_append {l l' : List Bytes} (h : l ≠ []) (h' : l' ≠ []) :
    joinLines (l ++ l') = joinLines l ++ lineFeed :: joinLines l' := by
  induction l with
  | nil => exact absurd rfl h
  | cons a l ih =>
    rcases l with _ | ⟨b, l⟩
    · obtain ⟨c, l', rfl⟩ := List.exists_cons_of_ne_nil h'
      simp [joinLines, List.intercalate_cons_cons]
    · have ih := ih (List.cons_ne_nil _ _)
      rw [List.cons_append, List.cons_append, joinLines, joinLines, List.intercalate_cons_cons,
        List.intercalate_cons_cons]
      rw [List.cons_append, joinLines, joinLines] at ih
      rw [ih]
      simp

theorem length_joinLines_concat (l : List Bytes) (value : Bytes) :
    (joinLines (l ++ [value])).length =
      (joinLines l).length + (value.length + if l = [] then 0 else 1) := by
  split_ifs with h
  · rw [h]
    simp [joinLines]
  · rw [joinLines_append h (List.cons_ne_nil _ _), List.length_append, List.length_cons]
    simp [joinLines]

theorem length_joinLines_le (l l' : List Bytes) :
    (joinLines l).length ≤ (joinLines (l ++ l')).length := by
  by_cases h : l = []
  · rw [h]
    exact Nat.zero_le _
  · by_cases h' : l' = []
    · rw [h', List.append_nil]
    · rw [joinLines_append h h', List.length_append]
      exact Nat.le_add_right _ _

@[simp] theorem blocks_nil : blocks [] = [[]] := rfl

theorem exists_blocks_eq (lines : List Bytes) : ∃ b bs, blocks lines = b :: bs :=
  List.exists_cons_of_ne_nil fun h =>
    List.splitOn_ne_nil ([] : Bytes) lines (List.map_eq_nil_iff.mp h)

theorem modifyHead_nil_append (bs : List (List Bytes)) :
    bs.modifyHead (([] : List Bytes) ++ ·) = bs := by
  rcases bs with _ | ⟨b, bs⟩
  · rfl
  · rfl

theorem blocks_cons_nil (lines : List Bytes) : blocks ([] :: lines) = [] :: blocks lines := by
  rw [blocks, List.splitOn_cons_eq_if_modifyHead, if_pos (by rfl)]
  rfl

theorem blocks_cons (h : line ≠ []) (lines : List Bytes) :
    blocks (line :: lines) = (blocks lines).modifyHead ((dataValue line).toList ++ ·) := by
  rw [blocks, blocks, List.splitOn_cons_eq_if_modifyHead, if_neg (by simpa using h)]
  obtain ⟨b, bs, hb⟩ := List.exists_cons_of_ne_nil (List.splitOn_ne_nil ([] : Bytes) lines)
  rw [hb, List.modifyHead_cons, List.map_cons, List.map_cons, List.modifyHead_cons,
    List.filterMap_cons]
  rcases dataValue line with _ | value
  · rfl
  · rfl

/-- **Payloads that are handed out**: they are within the limit and these texts. -/
def Handed (limit : ℕ) (ps : List Bytes) (texts : List Text) : Prop :=
  (∀ p ∈ ps, p.length ≤ limit) ∧ ps = texts.map encodeUtf8

theorem handed_append {ps ps' : List Bytes} {texts : List Text} :
    Handed limit (ps ++ ps') texts ↔
      ∃ u v, texts = u ++ v ∧ Handed limit ps u ∧ Handed limit ps' v := by
  constructor
  · rintro ⟨hlength, heq⟩
    obtain ⟨u, v, rfl, rfl, rfl⟩ := List.append_eq_map_iff.mp heq
    exact ⟨u, v, rfl, ⟨fun p hp => hlength p (List.mem_append_left _ hp), rfl⟩,
      fun p hp => hlength p (List.mem_append_right _ hp), rfl⟩
  · rintro ⟨u, v, rfl, ⟨hu, rfl⟩, hv, rfl⟩
    refine ⟨fun p hp => ?_, List.map_append.symm⟩
    rcases List.mem_append.mp hp with hp | hp
    · exact hu p hp
    · exact hv p hp

theorem payloadsOf_cons (b : List Bytes) (bs : List (List Bytes)) :
    payloadsOf (b :: bs) = payloadsOf [b] ++ payloadsOf bs := by
  rw [← List.singleton_append, payloadsOf, List.filter_append, List.map_append]
  rfl

/-! ### The decoder reads payloads -/

/-- **The running size** of an event is that of its payload so far, and within the limit. -/
structure Accounted (d : SseDecoder) : Prop where
  eventBytes : d.eventBytes = (joinLines d.dataLines).length
  le : d.eventBytes ≤ d.maxEventBytes

theorem accounted_create (limit : ℕ) : Accounted (create limit) := ⟨rfl, Nat.zero_le _⟩

/-- What dispatching hands out. -/
theorem dispatch_iff {d : SseDecoder} {events : List Text} (h : Accounted d) :
    (∃ e, d.dispatch = .ok (e, events)) ↔
      Handed d.maxEventBytes (payloadsOf [d.dataLines]) events := by
  have hle := h.eventBytes ▸ h.le
  rw [dispatch]
  split_ifs with hdata
  -- no data lines: nothing is handed out
  · rw [hdata]
    constructor
    · rintro ⟨_, ⟨⟩⟩
      exact ⟨fun p hp => absurd hp List.not_mem_nil, rfl⟩
    · rintro ⟨-, heq⟩
      rw [List.map_eq_nil_iff.mp heq.symm]
      exact ⟨_, rfl⟩
  · have hpayload : payloadsOf [d.dataLines] = [joinLines d.dataLines] := by
      rw [payloadsOf, List.filter_cons_of_pos (by simpa using hdata)]
      rfl
    rw [hpayload]
    rcases hdecode : decodeUtf8 (joinLines d.dataLines) with _ | text
    -- the data lines are no text
    · refine iff_of_false (fun h => ?_) ?_
      · obtain ⟨e, he⟩ := h
        cases he
      rintro ⟨-, heq⟩
      rcases events with _ | ⟨text, events⟩
      · cases heq
      · rw [decodeUtf8_eq_some.mpr (List.cons.inj heq).1.symm] at hdecode
        cases hdecode
    · have hencode := decodeUtf8_eq_some.mp hdecode
      constructor
      · rintro ⟨_, ⟨⟩⟩
        refine ⟨fun p hp => ?_, by rw [List.map_singleton, hencode]⟩
        rw [List.mem_singleton.mp hp]
        exact hle
      · rintro ⟨-, heq⟩
        rw [← hencode] at heq
        have htexts : events = [text] :=
          List.map_injective_iff.mpr encodeUtf8_injective heq.symm
        rw [htexts]
        exact ⟨_, rfl⟩

theorem accounted_dispatch {d e : SseDecoder} {events : List Text} (h : Accounted d)
    (hd : d.dispatch = .ok (e, events)) :
    Accounted e ∧ e.dataLines = [] ∧ e.firstLine = d.firstLine := by
  rw [dispatch] at hd
  split_ifs at hd with hdata
  · cases hd
    exact ⟨h, hdata, rfl⟩
  · rcases hdecode : decodeUtf8 (joinLines d.dataLines) with _ | text
    · rw [hdecode] at hd
      cases hd
    · rw [hdecode] at hd
      cases hd
      exact ⟨⟨rfl, Nat.zero_le _⟩, rfl, rfl⟩

theorem accounted_addData {d e : SseDecoder} {events : List Text} (h : Accounted d)
    (hd : d.addData value = .ok (e, events)) : Accounted e := by
  by_cases hlong : d.maxEventBytes < d.eventBytes + d.addedSize value
  · rw [addData_of_lt hlong] at hd
    cases hd
  · rw [addData_of_not_lt hlong] at hd
    cases hd
    refine ⟨?_, Nat.not_lt.mp hlong⟩
    show _ = (joinLines (d.dataLines ++ [value])).length
    rw [length_joinLines_concat, ← h.eventBytes]
    rfl

/-- A line that is not the first one. -/
theorem consumeLine_eq {d : SseDecoder} (hfirst : d.firstLine = false) (line : Bytes) :
    d.consumeLine line =
      if d.maxEventBytes < line.length then
        .error ⟨"SSE line exceeded configured size limit".toList⟩
      else if line = [] then d.dispatch
      else d.consumeField line := by
  have hd : ({ d with firstLine := false } : SseDecoder) = d := by
    rw [← hfirst]
  rw [consumeLine, hd, hfirst]
  rfl

/-- A data line that does not fit makes a payload that does not fit. -/
theorem not_handed {b : List Bytes} {bs : List (List Bytes)} {events : List Text} (hb : b ≠ [])
    (hlong : limit < (joinLines b).length) (l : List Bytes) :
    ¬Handed limit (payloadsOf ((b ++ l) :: bs)) events := by
  rintro ⟨hlength, -⟩
  have hmem : joinLines (b ++ l) ∈ payloadsOf ((b ++ l) :: bs) := by
    refine List.mem_map_of_mem (List.mem_filter.mpr ⟨List.mem_cons_self, ?_⟩)
    simp [hb]
  exact absurd ((length_joinLines_le b l).trans (hlength _ hmem)) (Nat.not_le.mpr hlong)

/-- **The decoder reads payloads.** The lines must be within the limit, and so must the payloads,
of which the first goes on from the data lines that the decoder has. -/
theorem consumeLines_iff (lines : List Bytes) :
    ∀ {d : SseDecoder} (events : List Text), d.firstLine = false → Accounted d →
    ((∃ e, andThen (d.consumeLines lines) dispatch = .ok (e, events)) ↔
      (∀ line ∈ lines, line.length ≤ d.maxEventBytes) ∧ Handed d.maxEventBytes
        (payloadsOf ((blocks lines).modifyHead (d.dataLines ++ ·))) events) := by
  induction lines with
  | nil =>
    intro d events hfirst h
    have hnil : andThen (d.consumeLines []) dispatch = d.dispatch := by
      show d.dispatch >>= (fun p => pure (p.1, [] ++ p.2)) = _
      rcases d.dispatch with err | ⟨e, events⟩
      · rfl
      · rfl
    rw [hnil, dispatch_iff h, blocks_nil, List.modifyHead_cons, List.append_nil]
    exact ⟨fun hhanded => ⟨nofun, hhanded⟩, fun hhanded => hhanded.2⟩
  | cons line lines ih =>
    intro d events hfirst h
    rw [consumeLines_cons, andThen_assoc, consumeLine_eq hfirst, List.forall_mem_cons]
    split_ifs with hlong hblank
    · -- the line is over the limit
      refine iff_of_false nofun ?_
      rintro ⟨⟨hle, -⟩, -⟩
      exact absurd hle (Nat.not_le.mpr hlong)
    · -- a blank line: what the decoder has is handed out
      rw [hblank, blocks_cons_nil, List.modifyHead_cons, List.append_nil, payloadsOf_cons,
        handed_append]
      constructor
      · rintro ⟨e', hrun⟩
        obtain ⟨e, u, v, hdispatch, hlines, rfl⟩ := andThen_eq_ok.mp hrun
        obtain ⟨haccounted, hdata, hfirst'⟩ := accounted_dispatch h hdispatch
        obtain ⟨hmax, -⟩ := frame_dispatch hdispatch
        have hrest := (ih v (hfirst'.trans hfirst) haccounted).mp ⟨e', hlines⟩
        rw [hdata, hmax, modifyHead_nil_append] at hrest
        exact ⟨⟨Nat.zero_le _, hrest.1⟩, u, v, rfl, (dispatch_iff h).mp ⟨e, hdispatch⟩, hrest.2⟩
      · rintro ⟨⟨-, hlines⟩, u, v, rfl, hu, hv⟩
        obtain ⟨e, hdispatch⟩ := (dispatch_iff h).mpr hu
        obtain ⟨haccounted, hdata, hfirst'⟩ := accounted_dispatch h hdispatch
        obtain ⟨hmax, -⟩ := frame_dispatch hdispatch
        have hrest := (ih v (hfirst'.trans hfirst) haccounted).mpr
        rw [hdata, hmax, modifyHead_nil_append] at hrest
        obtain ⟨e', hrun⟩ := hrest ⟨hlines, hv⟩
        exact ⟨e', andThen_eq_ok.mpr ⟨e, u, v, hdispatch, hrun, rfl⟩⟩
    · rw [consumeField_eq, blocks_cons hblank]
      have hle : line.length ≤ d.maxEventBytes := Nat.not_lt.mp hlong
      rcases hvalue : dataValue line with _ | value
      · -- the line is ignored
        have hskip : andThen (.ok (d, [])) (fun d => andThen (d.consumeLines lines) dispatch) =
            andThen (d.consumeLines lines) dispatch := by
          show (andThen (d.consumeLines lines) dispatch) >>= (fun p => pure (p.1, [] ++ p.2)) = _
          rcases andThen (d.consumeLines lines) dispatch with err | ⟨e, events⟩
          · rfl
          · rfl
        dsimp only
        rw [hskip, ih events hfirst h, Option.toList_none, modifyHead_nil_append]
        exact ⟨fun hrest => ⟨⟨hle, hrest.1⟩, hrest.2⟩, fun hrest => ⟨hrest.1.2, hrest.2⟩⟩
      · -- a data line
        have hblocks : ((blocks lines).modifyHead ((some value).toList ++ ·)).modifyHead
            (d.dataLines ++ ·) = (blocks lines).modifyHead ((d.dataLines ++ [value]) ++ ·) := by
          obtain ⟨b, bs, hb⟩ := exists_blocks_eq lines
          rw [hb, List.modifyHead_cons, List.modifyHead_cons, List.modifyHead_cons,
            List.append_assoc]
          rfl
        dsimp only
        rw [hblocks]
        by_cases hsize : d.maxEventBytes < d.eventBytes + d.addedSize value
        · rw [addData_of_lt hsize]
          refine iff_of_false nofun ?_
          rintro ⟨-, hhanded⟩
          obtain ⟨b, bs, hb⟩ := exists_blocks_eq lines
          rw [hb, List.modifyHead_cons] at hhanded
          refine not_handed (by simp) ?_ b hhanded
          rw [length_joinLines_concat, ← h.eventBytes]
          exact hsize
        · have hadd := addData_of_not_lt hsize
          have hrest := @ih { d with
            dataLines := d.dataLines ++ [value]
            eventBytes := d.eventBytes + d.addedSize value } events hfirst
            (accounted_addData h hadd)
          rw [hadd]
          constructor
          · rintro ⟨e', hrun⟩
            obtain ⟨e, u, v, hstep, hlines, rfl⟩ := andThen_eq_ok.mp hrun
            cases hstep
            obtain ⟨hlength, hhanded⟩ := hrest.mp ⟨e', hlines⟩
            exact ⟨⟨hle, hlength⟩, hhanded⟩
          · rintro ⟨⟨-, hlength⟩, hhanded⟩
            obtain ⟨e', hrun⟩ := hrest.mpr ⟨hlength, hhanded⟩
            exact ⟨e', andThen_eq_ok.mpr ⟨_, [], events, rfl, hrun, rfl⟩⟩

/-! ### The byte-order mark -/

theorem stripCarriageReturn_begins (line : Bytes) : stripCarriageReturn line <+: line := by
  rw [stripCarriageReturn]
  split_ifs
  · exact List.dropLast_prefix line
  · exact List.prefix_rfl

theorem stripCarriageReturn_append (h : s.getLast? ≠ some carriageReturn) (t : Bytes) :
    stripCarriageReturn (s ++ t) = s ++ stripCarriageReturn t := by
  rcases t.eq_nil_or_concat' with rfl | ⟨t, b, rfl⟩
  · rw [List.append_nil, stripCarriageReturn, if_neg h]
    exact (List.append_nil s).symm
  · rw [stripCarriageReturn, stripCarriageReturn, ← List.append_assoc, List.getLast?_concat,
      List.getLast?_concat, List.dropLast_concat, List.dropLast_concat]
    split_ifs
    · rfl
    · exact List.append_assoc s t [b]

theorem removePrefix_append (mark line : Bytes) : removePrefix mark (mark ++ line) = line := by
  rw [removePrefix, if_pos (List.isPrefixOf_iff_prefix.mpr (List.prefix_append mark line)),
    List.drop_left]

theorem removePrefix_eq_self {mark : Bytes} (h : ¬mark <+: line) :
    removePrefix mark line = line :=
  if_neg fun hbegins => h (List.isPrefixOf_iff_prefix.mp hbegins)

/-- The lines of a stream without a line feed. -/
theorem allLines_of_not_mem (h : lineFeed ∉ s) :
    allLines s = if s = [] then [] else [stripCarriageReturn s] := by
  rw [allLines, terminated_of_not_mem h, unterminated_of_not_mem h]
  split_ifs
  · rfl
  · rfl

/-- The lines of a stream with a line feed. -/
theorem allLines_append_cons (h : lineFeed ∉ s) (t : Bytes) :
    allLines (s ++ lineFeed :: t) = stripCarriageReturn s :: allLines t := by
  rw [allLines, allLines, terminated_append_cons h, unterminated_append_cons h]
  rfl

theorem lineFeed_not_mem_byteOrderMark_append (h : lineFeed ∉ s) :
    lineFeed ∉ byteOrderMark ++ s := fun hmem =>
  (List.mem_append.mp hmem).elim (by decide) h

theorem prefix_of_allLines_eq {l : Bytes} {ls : List Bytes} (h : allLines body = l :: ls) :
    l <+: body := by
  by_cases hmem : lineFeed ∈ body
  · obtain ⟨s, t, rfl, hs⟩ := List.eq_append_cons_of_mem hmem
    rw [allLines_append_cons hs] at h
    rw [← (List.cons.inj h).1]
    exact (stripCarriageReturn_begins s).trans (List.prefix_append _ _)
  · rw [allLines_of_not_mem hmem] at h
    split_ifs at h
    rw [← (List.cons.inj h).1]
    exact stripCarriageReturn_begins body

/-- **The byte-order mark** may be dropped from the first line instead of the whole stream, except
that nothing else then leaves a blank line behind, which is not there without it. -/
theorem streamLines_cases (body : Bytes) :
    (allLines body = [] ∧ streamLines body = []) ∨
      (allLines body = [byteOrderMark] ∧ streamLines body = []) ∨
      ∃ l ls, allLines body = l :: ls ∧ streamLines body = removePrefix byteOrderMark l :: ls := by
  have hmark : byteOrderMark.getLast? ≠ some carriageReturn := by decide
  by_cases hbegins : byteOrderMark <+: body
  · obtain ⟨rest, rfl⟩ := hbegins
    rw [streamLines, removePrefix_append]
    by_cases hmem : lineFeed ∈ rest
    · obtain ⟨s, t, rfl, hs⟩ := List.eq_append_cons_of_mem hmem
      refine .inr (.inr ⟨stripCarriageReturn (byteOrderMark ++ s), allLines t, ?_, ?_⟩)
      · rw [← List.append_assoc,
          allLines_append_cons (lineFeed_not_mem_byteOrderMark_append hs)]
      · rw [allLines_append_cons hs, stripCarriageReturn_append hmark, removePrefix_append]
    · rw [allLines_of_not_mem hmem,
        allLines_of_not_mem (lineFeed_not_mem_byteOrderMark_append hmem)]
      split_ifs with hall hrest hrest
      · exact .inl ⟨rfl, rfl⟩
      · cases hall
      · rw [hrest]
        exact .inr (.inl ⟨rfl, rfl⟩)
      · refine .inr (.inr ⟨_, [], rfl, ?_⟩)
        rw [stripCarriageReturn_append hmark, removePrefix_append]
  · rw [streamLines, removePrefix_eq_self hbegins]
    rcases hall : allLines body with _ | ⟨l, ls⟩
    · exact .inl ⟨rfl, rfl⟩
    · refine .inr (.inr ⟨l, ls, rfl, ?_⟩)
      rw [removePrefix_eq_self fun h => hbegins (h.trans (prefix_of_allLines_eq hall))]

/-- The decoder after its first line, which did nothing. -/
def begun (limit : ℕ) : SseDecoder := { create limit with firstLine := false }

theorem consumeLine_create (limit : ℕ) (line : Bytes) :
    (create limit).consumeLine line =
      (begun limit).consumeLine (removePrefix byteOrderMark line) := rfl

/-- A new decoder reads the lines of the stream. -/
theorem consumeLines_create_iff {events : List Text} :
    (∃ e, andThen ((create limit).consumeLines (allLines body)) dispatch = .ok (e, events)) ↔
      ∃ e, andThen ((begun limit).consumeLines (streamLines body)) dispatch = .ok (e, events) := by
  rcases streamLines_cases body with ⟨hall, hstream⟩ | ⟨hall, hstream⟩ | ⟨l, ls, hall, hstream⟩
  · rw [hall, hstream]
    constructor
    · rintro ⟨_, ⟨⟩⟩
      exact ⟨_, rfl⟩
    · rintro ⟨_, ⟨⟩⟩
      exact ⟨_, rfl⟩
  · rw [hall, hstream]
    constructor
    · rintro ⟨_, ⟨⟩⟩
      exact ⟨_, rfl⟩
    · rintro ⟨_, ⟨⟩⟩
      exact ⟨_, rfl⟩
  · rw [hall, hstream, consumeLines_cons, consumeLines_cons, consumeLine_create]

/-- **When a stream is decoded, and to what.** -/
theorem decode_iff {chunks : List Bytes} {events : List Text} :
    decode limit chunks = .ok events ↔ Within limit [] chunks ∧
      (∀ line ∈ streamLines chunks.flatten, line.length ≤ limit) ∧
      Handed limit (payloads chunks.flatten) events := by
  have hlines := consumeLines_iff (streamLines chunks.flatten) (d := begun limit) events rfl
    ⟨rfl, Nat.zero_le _⟩
  rw [decode_eq_ok, consumeLines_create_iff, hlines]
  show _ ∧ _ ∧ Handed limit (payloadsOf ((blocks _).modifyHead (([] : List Bytes) ++ ·))) _ ↔ _
  rw [modifyHead_nil_append]
  exact Iff.rfl

/-! ### What the decoder hands out and what it keeps -/

theorem accounted_consumeLine {d e : SseDecoder} {events : List Text} (h : Accounted d)
    (hd : d.consumeLine line = .ok (e, events)) : Accounted e := by
  rw [consumeLine] at hd
  dsimp only at hd
  have hbegun : Accounted { d with firstLine := false } := ⟨h.eventBytes, h.le⟩
  generalize (if d.firstLine = true then removePrefix byteOrderMark line else line) = line at hd
  split_ifs at hd with hlong hblank
  · exact (accounted_dispatch hbegun hd).1
  · rw [consumeField_eq] at hd
    rcases hvalue : dataValue line with _ | value
    · rw [hvalue] at hd
      cases hd
      exact hbegun
    · rw [hvalue] at hd
      exact accounted_addData hbegun hd

theorem accounted_consumeLines (lines : List Bytes) :
    ∀ {d e : SseDecoder} {events : List Text}, Accounted d →
    d.consumeLines lines = .ok (e, events) → Accounted e := by
  induction lines with
  | nil =>
    rintro d e events h ⟨⟩
    exact h
  | cons line lines ih =>
    intro d e events h hd
    rw [consumeLines_cons] at hd
    obtain ⟨d', first, more, hline, hlines, -⟩ := andThen_eq_ok.mp hd
    exact ih (accounted_consumeLine h hline) hlines

theorem within_flatten (chunks : List Bytes) :
    ∀ {before : Bytes}, (unterminated lineFeed before).length ≤ limit →
    Within limit before chunks →
    (unterminated lineFeed (before ++ chunks.flatten)).length ≤ limit := by
  induction chunks with
  | nil =>
    intro before hbefore _
    rwa [List.flatten_nil, List.append_nil]
  | cons chunk chunks ih =>
    rintro before - ⟨hchunk, hwithin⟩
    rw [List.flatten_cons, ← List.append_assoc]
    exact ih hchunk hwithin

/-- **What is kept is within the limit**, and the size of the event is kept with it. -/
structure Bounded (limit : ℕ) (d : SseDecoder) : Prop where
  lineBuffer : d.lineBuffer.length ≤ limit
  eventBytes : d.eventBytes = (joinLines d.dataLines).length
  le : d.eventBytes ≤ limit

theorem bounded_feedAll {chunks : List Bytes} {d : SseDecoder} {events : List Text}
    (h : (create limit).feedAll chunks = .ok (d, events)) : Bounded limit d := by
  have hbuffer : (create limit).lineBuffer = unterminated lineFeed [] := unterminated_nil.symm
  obtain ⟨hwithin, e, hlines, rfl⟩ := (feedAll_eq_ok hbuffer).mp h
  have haccounted := accounted_consumeLines _ (accounted_create limit) hlines
  have hmax : e.maxEventBytes = limit := (frame_consumeLines hlines).maxEventBytes
  refine ⟨?_, haccounted.eventBytes, hmax ▸ haccounted.le⟩
  refine within_flatten chunks ?_ hwithin
  rw [unterminated_nil]
  exact Nat.zero_le limit

/-- **The decoder is correct.** When chunks have come in, what is kept is within the limit; and when
the stream then ends well, the payloads of all its bytes have been handed out, each of them within
the limit. -/
theorem decoder_correct {chunks : List Bytes} {d : SseDecoder} {fed : List Text}
    (h : (create limit).feedAll chunks = .ok (d, fed)) : Bounded limit d ∧
      ∀ d' rest, d.finish = .ok (d', rest) →
        (fed ++ rest).map encodeUtf8 = payloads chunks.flatten ∧
          ∀ payload ∈ payloads chunks.flatten, payload.length ≤ limit := by
  refine ⟨bounded_feedAll h, ?_⟩
  intro d' rest hfinish
  have hdecode : decode limit chunks = .ok (fed ++ rest) := by
    rw [decode, h]
    show (d.finish >>= _) = _
    rw [hfinish]
    rfl
  obtain ⟨-, -, hlength, heq⟩ := decode_iff.mp hdecode
  exact ⟨heq.symm, hlength⟩

/-- Two events, the first of them over two chunks and the second at the end. -/
theorem decoder_correct_two :
    (["a\nb".toList] ++ [[]]).map encodeUtf8 =
      payloads ["data: a\nda".toUTF8.toList, "ta:b\n\ndata".toUTF8.toList].flatten :=
  have hfeed : (create 1024).feedAll
      ["data: a\nda".toUTF8.toList, "ta:b\n\ndata".toUTF8.toList] =
      .ok (⟨1024, "data".toUTF8.toList, [], 0, false⟩, ["a\nb".toList]) := by decide +kernel
  have hfinish : (⟨1024, "data".toUTF8.toList, [], 0, false⟩ : SseDecoder).finish =
      .ok (⟨1024, [], [], 0, false⟩, [[]]) := by decide +kernel
  ((decoder_correct hfeed).2 _ _ hfinish).1

/-- The lines of a stream, where the last one keeps a carriage return that no line feed follows. -/
def strictLines (body : Bytes) : List Bytes :=
  (terminated lineFeed body).map stripCarriageReturn ++
    if unterminated lineFeed body = [] then [] else [unterminated lineFeed body]

/-- The payloads that these lines have. -/
def strictPayloads (body : Bytes) : List Bytes :=
  payloadsOf (blocks (strictLines (removePrefix byteOrderMark body)))

/-- **A carriage return at the end of the stream is dropped** without a line feed, too. -/
theorem decoder_not_strict : ¬∀ (limit : ℕ) (chunks : List Bytes) (texts : List Text),
    decode limit chunks = .ok texts → texts.map encodeUtf8 = strictPayloads chunks.flatten := by
  intro h
  have hdecode : decode 1024 ["data: x\r".toUTF8.toList] = .ok ["x".toList] := by decide +kernel
  exact absurd (h _ _ _ hdecode) (by decide +kernel)

/-! ### Chunks -/

/-- Both read the same, or neither reads anything. -/
def Alike (x y : Except ModelProtocolError (List Text)) : Prop :=
  (∃ texts, x = .ok texts ∧ y = .ok texts) ∨ (∃ err, x = .error err) ∧ ∃ err, y = .error err

/-- **A stream that may be read**: its lines without their line ends, what is left without a line
feed, and the payloads are within the limit, and the payloads are texts. -/
structure Readable (limit : ℕ) (body : Bytes) : Prop where
  lines : ∀ line ∈ streamLines body, line.length ≤ limit
  unterminated : (unterminated lineFeed body).length ≤ limit
  payloads : ∃ texts, Handed limit (payloads body) texts

theorem readable_of_decode {chunks : List Bytes} {texts : List Text}
    (h : decode limit chunks = .ok texts) : Readable limit chunks.flatten := by
  obtain ⟨hwithin, hlines, hhanded⟩ := decode_iff.mp h
  refine ⟨hlines, ?_, texts, hhanded⟩
  refine within_flatten chunks ?_ hwithin
  rw [unterminated_nil]
  exact Nat.zero_le limit

theorem within_of_forall (chunks : List Bytes) :
    ∀ {before : Bytes}, (∀ line ∈ terminated lineFeed (before ++ chunks.flatten) ++
      [Foundation.unterminated lineFeed (before ++ chunks.flatten)], line.length ≤ limit) →
    Within limit before chunks := by
  induction chunks with
  | nil =>
    intro before _
    trivial
  | cons chunk chunks ih =>
    intro before h
    rw [List.flatten_cons, ← List.append_assoc] at h
    obtain ⟨line, hline, hbegins⟩ :=
      @exists_prefix_unterminated _ _ lineFeed (before ++ chunk) chunks.flatten
    exact ⟨hbegins.length_le.trans (h line hline), ih h⟩

/-- **Chunks do not matter** just where no line of a readable stream is over the limit with its
carriage return and the byte-order mark. -/
theorem decode_alike_iff (config : OpenAICompatibleModelConfig) (body : Bytes) :
    (∀ chunks chunks' : List Bytes, chunks.flatten = body → chunks'.flatten = body →
      Alike (decode config.maxSseEventBytes chunks) (decode config.maxSseEventBytes chunks')) ↔
    (Readable config.maxSseEventBytes body →
      ∀ line ∈ terminated lineFeed body, line.length ≤ config.maxSseEventBytes) := by
  generalize config.maxSseEventBytes = limit
  constructor
  · intro halike hreadable line hline
    obtain ⟨l₁, l₂, rfl, rfl⟩ := exists_unterminated_eq hline
    obtain ⟨texts, hhanded⟩ := hreadable.payloads
    -- in one chunk the stream is read
    have hwhole : decode limit [l₁ ++ lineFeed :: l₂] = .ok texts := by
      refine decode_iff.mpr ⟨⟨?_, trivial⟩, ?_⟩
      · exact hreadable.unterminated
      · rw [List.flatten_singleton]
        exact ⟨hreadable.lines, hhanded⟩
    -- so it is where the first chunk ends just before the line feed
    have hsplit := halike [l₁ ++ lineFeed :: l₂] [l₁, lineFeed :: l₂] (by simp) (by simp)
    rw [hwhole] at hsplit
    rcases hsplit with ⟨texts', -, hsplit⟩ | ⟨⟨_, ⟨⟩⟩, -⟩
    exact (decode_iff.mp hsplit).1.1
  · intro hlines
    have hiff {chunks : List Bytes} (hflatten : chunks.flatten = body) (texts : List Text) :
        decode limit chunks = .ok texts ↔
          Readable limit body ∧ Handed limit (SseDecoder.payloads body) texts := by
      subst hflatten
      constructor
      · intro h
        exact ⟨readable_of_decode h, (decode_iff.mp h).2.2⟩
      · rintro ⟨hreadable, hhanded⟩
        refine decode_iff.mpr ⟨?_, hreadable.lines, hhanded⟩
        refine within_of_forall chunks fun line hline => ?_
        rcases List.mem_append.mp hline with hline | hline
        · exact hlines hreadable line hline
        · rw [List.mem_singleton.mp hline]
          exact hreadable.unterminated
    intro chunks chunks' hflatten hflatten'
    rcases hx : decode limit chunks with err | texts
    · rcases hy : decode limit chunks' with err' | texts
      · exact .inr ⟨⟨err, rfl⟩, err', rfl⟩
      · rw [hiff hflatten', ← hiff hflatten, hx] at hy
        cases hy
    · refine .inl ⟨texts, rfl, ?_⟩
      rw [hiff hflatten']
      exact (hiff hflatten texts).mp hx

/-- A comment as long as the limit allows, with its carriage return. -/
def longComment : Bytes := colon :: (List.replicate 1023 97 ++ [carriageReturn])

/-- **Chunks do matter** where a line is within the limit only without its carriage return. -/
theorem decode_unlike : ¬∀ (config : OpenAICompatibleModelConfig) (chunks chunks' : List Bytes),
    chunks.flatten = chunks'.flatten →
    Alike (decode config.maxSseEventBytes chunks) (decode config.maxSseEventBytes chunks') := by
  intro h
  -- the comment is one line of 1024 bytes, its carriage return not counted
  have hmem : lineFeed ∉ longComment := by
    intro hmem
    rcases List.mem_cons.mp hmem with hcolon | hmem
    · exact absurd hcolon (by decide)
    · rcases List.mem_append.mp hmem with hmem | hmem
      · exact absurd (List.mem_replicate.mp hmem).2 (by decide)
      · exact absurd (List.mem_singleton.mp hmem) (by decide)
  have hstrip : stripCarriageReturn longComment = colon :: List.replicate 1023 97 := by
    rw [stripCarriageReturn, longComment, ← List.cons_append, List.getLast?_concat, if_pos rfl,
      List.dropLast_concat]
  have hlines : streamLines (longComment ++ [lineFeed]) = [colon :: List.replicate 1023 97] := by
    have hmark : ¬byteOrderMark <+: longComment ++ [lineFeed] := by
      rintro ⟨rest, hrest⟩
      exact absurd (List.cons.inj hrest).1 (by decide)
    rw [streamLines, removePrefix_eq_self hmark, allLines_append_cons hmem, hstrip]
    rfl
  -- in one chunk the line is measured without its carriage return
  have hwhole : decode 1024 [longComment ++ [lineFeed]] = .ok [] := by
    refine decode_iff.mpr ⟨⟨?_, trivial⟩, ?_⟩
    · rw [List.nil_append, unterminated_append_cons hmem, unterminated_nil]
      exact Nat.zero_le _
    · rw [List.flatten_singleton, payloads, hlines]
      refine ⟨?_, ?_, ?_⟩
      · intro line hline
        rw [List.mem_singleton.mp hline, List.length_cons, List.length_replicate]
      · rw [blocks_cons (List.cons_ne_nil _ _)]
        nofun
      · rw [blocks_cons (List.cons_ne_nil _ _)]
        rfl
  have halike := h ⟨1024, le_rfl⟩ [longComment ++ [lineFeed]] [longComment, [lineFeed]]
    (by rw [List.flatten_singleton, List.flatten_cons, List.flatten_singleton])
  rw [hwhole] at halike
  rcases halike with ⟨texts, -, hsplit⟩ | ⟨⟨_, ⟨⟩⟩, -⟩
  -- in two chunks the carriage return is measured with it, while the line feed is to come
  have hlong := (decode_iff.mp hsplit).1.1
  rw [List.nil_append, unterminated_of_not_mem hmem, longComment, List.length_cons,
    List.length_append, List.length_replicate] at hlong
  exact absurd hlong (by decide)

end SseDecoder

end Eeveetuber
