import Mathlib.Data.List.Basic
import Eeveetuber.Dialogue.Framing
import Eeveetuber.Dialogue.PipelineTrace

/-!
# The course of an utterance

What a dialogue yields can be followed one event at a time:
`Eeveetuber.UtterancePhase.next` says which events may come next, and
`Eeveetuber.utterancePhase` where a sequence of them leads, if it may occur at all.
A sequence that may occur numbers the chunks of every segment from zero on, in
order, and announces a segment before it speaks it (`Eeveetuber.Cadence`).

**Every trace of a pipeline may occur** (`Eeveetuber.PipelineRun.utterancePhase_isSome`),
so whoever consumes a pipeline need not look into it.
-/

namespace Eeveetuber

open Foundation

/-- Where the events of an utterance stand. -/
inductive UtterancePhase where
  /-- So many segments have been announced, and spoken to their end. -/
  | between (segments : ℕ)
  /-- A segment is being spoken, and so many of its chunks have come. -/
  | speaking (segment : UtteranceSegment) (chunks : ℕ)
  | completed
deriving DecidableEq

/-- What an event makes of a phase; `none` where it may not come. -/
def UtterancePhase.next (r : DialogueRequest) :
    UtterancePhase → DialogueStreamEvent → Option UtterancePhase
  | .between n, .segmentReady turnId g segment =>
    if turnId = r.turnId ∧ g = r.generation ∧ segment.sequence = n then
      some (.speaking segment 0)
    else none
  | .speaking current k, .segmentAudioReady turnId g segment chunk =>
    if turnId = r.turnId ∧ g = r.generation ∧ segment = current ∧
        chunk.segmentId = current.segmentId ∧ chunk.sequence = current.sequence ∧
        chunk.chunkIndex = k then
      some (if chunk.isFinal then .between (current.sequence + 1) else .speaking current (k + 1))
    else none
  | .between n, .utteranceCompleted turnId g plan =>
    if turnId = r.turnId ∧ g = r.generation ∧ plan.segments.length = n then some .completed
    else none
  | .between _, .segmentAudioReady .. | .speaking .., .segmentReady ..
  | .speaking .., .utteranceCompleted .. | .completed, _ => none

/-- Where a sequence of events leads. -/
def utterancePhase (r : DialogueRequest) (events : List DialogueStreamEvent) :
    Option UtterancePhase :=
  events.foldlM (UtterancePhase.next r) (.between 0)

variable {r : DialogueRequest} {events : List DialogueStreamEvent} {p : UtterancePhase}

@[simp] theorem utterancePhase_nil : utterancePhase r [] = some (.between 0) := rfl

theorem utterancePhase_append (xs ys : List DialogueStreamEvent) :
    utterancePhase r (xs ++ ys) =
      (utterancePhase r xs).bind fun p => ys.foldlM (UtterancePhase.next r) p :=
  List.foldlM_append

/-- What may occur may occur up to any point of it. -/
theorem utterancePhase_of_prefix {front : List DialogueStreamEvent} (h : front <+: events)
    (hs : (utterancePhase r events).isSome) : (utterancePhase r front).isSome := by
  obtain ⟨rest, rfl⟩ := h
  rw [utterancePhase_append] at hs
  exact Option.isSome_of_isSome_bind hs

/-! ### The words of a dialogue may occur -/

theorem foldlM_chunks {segment : UtteranceSegment} :
    ∀ {chunks : List AudioChunk} {k : ℕ}, (∀ c ∈ chunks, c.segmentId = segment.segmentId) →
    (∀ c ∈ chunks, c.sequence = segment.sequence) →
    chunks.map (·.chunkIndex) = List.range' k chunks.length →
    (∀ c ∈ chunks.dropLast, c.isFinal = false) → (∃ c, chunks.getLast? = some c ∧ c.isFinal) →
    (chunks.map (DialogueStreamEvent.segmentAudioReady r.turnId r.generation segment)).foldlM
      (UtterancePhase.next r) (.speaking segment k) = some (.between (segment.sequence + 1))
  | [], _, _, _, _, _, ⟨_, hlast, _⟩ => by cases hlast
  | [c], k, hid, hseq, hindex, _, ⟨d, hlast, hfinal⟩ => by
    obtain rfl : c = d := by simpa using hlast
    obtain rfl : c.chunkIndex = k := by simpa using hindex
    simp [UtterancePhase.next, hid c (by simp), hseq c (by simp), hfinal]
  | c :: c' :: chunks, k, hid, hseq, hindex, hnot, hlast => by
    obtain ⟨hc, hindex⟩ : c.chunkIndex = k ∧
        (c' :: chunks).map (·.chunkIndex) = List.range' (k + 1) (c' :: chunks).length := by
      simpa [List.range'_succ] using hindex
    rw [List.map_cons, List.foldlM_cons]
    have hstep : UtterancePhase.next r (.speaking segment k)
        (.segmentAudioReady r.turnId r.generation segment c) =
          some (.speaking segment (k + 1)) := by
      simp [UtterancePhase.next, hid c (by simp), hseq c (by simp), hc, hnot c (by simp)]
    rw [hstep]
    exact foldlM_chunks (fun x hx => hid x (List.mem_cons_of_mem _ hx))
      (fun x hx => hseq x (List.mem_cons_of_mem _ hx)) hindex
      (fun x hx => hnot x (List.mem_cons_of_mem _ hx)) (by simpa using hlast)

/-- A complete block leads from one segment to the next. -/
theorem foldlM_segmentEvents {b : Block} (h : Complete b.1 b.2) :
    (segmentEvents r b).foldlM (UtterancePhase.next r) (.between b.1.sequence) =
      some (.between (b.1.sequence + 1)) := by
  rw [segmentEvents, List.foldlM_cons]
  have hstep : UtterancePhase.next r (.between b.1.sequence)
      (.segmentReady r.turnId r.generation b.1) = some (.speaking b.1 0) := by
    simp [UtterancePhase.next]
  rw [hstep]
  exact foldlM_chunks h.segmentId h.sequence (by rw [h.chunkIndex, List.range_eq_range'])
    h.notFinal h.final

theorem foldlM_blockEvents : ∀ {blocks : List Block} {n : ℕ},
    (blocks.map fun b => b.1.sequence) = List.range' n blocks.length →
    (∀ b ∈ blocks, Complete b.1 b.2) →
    (blockEvents r blocks).foldlM (UtterancePhase.next r) (.between n) =
      some (.between (n + blocks.length))
  | [], _, _, _ => by simp [blockEvents]
  | b :: blocks, n, hseq, hall => by
    obtain ⟨rfl, hseq⟩ : b.1.sequence = n ∧
        (blocks.map fun b => b.1.sequence) = List.range' (n + 1) blocks.length := by
      simpa [List.range'_succ] using hseq
    rw [blockEvents, List.flatMap_cons, List.foldlM_append,
      foldlM_segmentEvents (hall b (by simp))]
    refine (foldlM_blockEvents hseq fun x hx => hall x (List.mem_cons_of_mem _ hx)).trans ?_
    rw [List.length_cons, Nat.add_assoc, Nat.add_comm 1]

/-- Segments numbered in their order. -/
def Numbered (segments : List UtteranceSegment) : Prop :=
  segments.map (·.sequence) = List.range segments.length

/-- **A word for numbered segments may occur.** -/
theorem Word.utterancePhase {segments : List UtteranceSegment} {w : List DialogueStreamEvent}
    (h : Word r segments w) (hn : Numbered segments) : utterancePhase r w = some .completed := by
  obtain ⟨blocks, plan, hblocks, hall, hplan, rfl⟩ := h
  have hlen : blocks.length = segments.length := by rw [← hblocks, List.length_map]
  have hseq : (blocks.map fun b => b.1.sequence) = List.range' 0 blocks.length := by
    rw [← List.range_eq_range', hlen]
    refine Eq.trans ?_ hn
    rw [← hblocks, List.map_map]
    rfl
  rw [utterancePhase_append, Eeveetuber.utterancePhase, foldlM_blockEvents hseq hall]
  simp [completedEvent, UtterancePhase.next, hplan, hlen]

/-! ### The traces of a pipeline may occur -/

namespace IncrementalUtteranceAssembler

variable {uuid4 : ℕ → UUID} {a : IncrementalUtteranceAssembler}

theorem emit_numbered (h : Eeveetuber.Numbered a.segments) (text : Text) :
    Eeveetuber.Numbered (a.emit uuid4 text).1.segments := by
  unfold emit
  split
  · simpa [makeSegment, Eeveetuber.Numbered, List.range_succ] using h
  · exact h

theorem pushLoop_numbered (a : IncrementalUtteranceAssembler) (h : Eeveetuber.Numbered a.segments) :
    Eeveetuber.Numbered (a.pushLoop uuid4).1.segments := by
  induction a using pushLoop.induct uuid4 with
  | case1 a hc =>
    rw [pushLoop]
    split
    · exact h
    · simp_all
  | case2 a text rest hc p ih =>
    rw [pushLoop]
    split
    · simp_all
    · rename_i text' rest' hc'
      rw [hc] at hc'
      cases hc'
      exact ih (emit_numbered (a := { a with buffer := rest }) h text)

theorem push_numbered (h : Eeveetuber.Numbered a.segments) (text : Text) :
    Eeveetuber.Numbered (a.push uuid4 text).1.segments := by
  unfold push
  split
  · exact h
  · exact pushLoop_numbered _ h

theorem finish_numbered (h : Eeveetuber.Numbered a.segments) :
    Eeveetuber.Numbered (a.finish uuid4).1.segments :=
  emit_numbered (a := { a with buffer := [] }) h a.buffer

end IncrementalUtteranceAssembler

namespace PipelineRun

variable {A : PipelineArguments} {s t : PipelineRun}

@[simp] theorem failProduction_assembler (s : PipelineRun) (error : DialogueError) :
    (s.failProduction error).assembler = s.assembler := by
  unfold failProduction
  split <;> rfl

@[simp] theorem produce_assembler (s : PipelineRun) (pending : List UtteranceSegment)
    (exhausted : Bool) : (s.produce A pending exhausted).assembler = s.assembler := by
  obtain ⟨p, hp⟩ := produce_eq (A := A) s pending exhausted
  rw [hp]

@[simp] theorem yieldEvent_assembler (s : PipelineRun) (event : DialogueStreamEvent)
    (paused : Consumer) : (s.yieldEvent A event paused).assembler = s.assembler := by
  unfold yieldEvent
  split <;> rfl

theorem handle_assembler (hn : s.handle A = some t) : t.assembler = s.assembler := by
  unfold PipelineRun.handle at hn
  split at hn
  case h_3 | h_6 =>
    obtain ⟨job, -, rfl⟩ := Option.map_eq_some_iff.mp hn
    simp
  case h_7 =>
    simp only [Option.ite_none_right_eq_some, Option.some.injEq] at hn
    obtain ⟨-, rfl⟩ := hn
    simp
  all_goals first | cases hn; rfl | cases hn

theorem take_assembler (hn : s.take = some t) : t.assembler = s.assembler := by
  unfold PipelineRun.take at hn
  split at hn
  · split at hn <;> cases hn
    rfl
  · obtain ⟨job, -, hn⟩ := Option.bind_eq_some_iff.mp hn
    split at hn <;> cases hn
    rfl
  all_goals cases hn

/-- Only what the model streams makes segments. -/
theorem next_assembler {l : Label} (hn : s.next A l = some t) :
    t.assembler = s.assembler ∨ (∃ text, t.assembler = (s.assembler.push A.uuid4 text).1) ∨
      t.assembler = (s.assembler.finish A.uuid4).1 := by
  cases l with
  | modelEvent event =>
    simp only [PipelineRun.next, Option.ite_none_right_eq_some, Option.some.injEq] at hn
    obtain ⟨-, rfl⟩ := hn
    unfold onModelEvent
    split
    · simp [answered]
    · split
      · rename_i text
        exact Or.inr (Or.inl ⟨text, by simp [answered]⟩)
      · split <;> simp [answered]
      · simp [answered]
  | modelEnd =>
    simp only [PipelineRun.next, Option.ite_none_right_eq_some, Option.some.injEq] at hn
    obtain ⟨-, rfl⟩ := hn
    exact Or.inr (Or.inr (by simp [answered, onModelEnd]))
  | modelError error =>
    simp only [PipelineRun.next, Option.ite_none_right_eq_some, Option.some.injEq] at hn
    obtain ⟨-, rfl⟩ := hn
    simp [answered]
  | producerPut =>
    obtain ⟨-, hn⟩ := producerPut_eq_some hn
    simp only [producerPut, Option.ite_none_right_eq_some] at hn
    obtain ⟨-, hn⟩ := hn
    split at hn <;> cases hn <;> simp
  | dispatch =>
    obtain ⟨-, hn⟩ := dispatch_eq_some hn
    simp only [PipelineRun.dispatch] at hn
    repeat' split at hn
    all_goals cases hn
    all_goals exact Or.inl rfl
  | speechChunk | speechEnd | speechError | audioPut | cancelSynthesis =>
    obtain ⟨_, _, -, -, rfl⟩ := synthesize_eq_some.mp hn
    exact Or.inl rfl
  | take => exact Or.inl (take_assembler hn)
  | handle => exact Or.inl (handle_assembler hn)
  | resume =>
    simp only [PipelineRun.next, PipelineRun.resume] at hn
    split at hn <;> cases hn <;> exact Or.inl rfl
  | interrupt =>
    obtain ⟨error, rfl⟩ := interrupt_eq_some hn
    exact Or.inl rfl
  | leaveFinally =>
    obtain ⟨outcome, -, -, rfl⟩ := leaveFinally_eq_some hn
    exact Or.inl rfl
  | close =>
    obtain ⟨-, rfl⟩ | ⟨outcome, -, rfl⟩ := close_eq_some hn
    · exact Or.inl rfl
    · exact Or.inl rfl
  | cancelProducer =>
    simp only [PipelineRun.next, Option.ite_none_right_eq_some, Option.some.injEq] at hn
    obtain ⟨-, rfl⟩ := hn
    exact Or.inl rfl
  | cancelDispatcher =>
    simp only [PipelineRun.next, Option.ite_none_right_eq_some] at hn
    obtain ⟨-, hn⟩ := hn
    split at hn <;> cases hn <;> exact Or.inl rfl
  | cancelToken | setCurrent =>
    obtain ⟨cancellation, current, rfl⟩ := next_environment hn rfl
    exact Or.inl rfl

/-- The segments of a run are numbered in their order. -/
theorem reachable_numbered (h : (machine A).Reachable s) : Numbered s.assembler.segments := by
  refine h.invariant (I := fun s => Numbered s.assembler.segments) ?_ fun s l t _ hi _ hn => ?_
  · rintro s ⟨cancellation, current, rfl⟩
    unfold begin
    dsimp only
    split <;> rfl
  · rcases next_assembler hn with h | ⟨text, h⟩ | h <;> rw [h]
    · exact hi
    · exact IncrementalUtteranceAssembler.push_numbered hi text
    · exact IncrementalUtteranceAssembler.finish_numbered hi

/-- **What a pipeline yields may occur.** -/
theorem utterancePhase_isSome (h : (machine A).Reachable s) :
    (utterancePhase A.request s.yielded).isSome := by
  obtain ⟨w, hw, hstarts⟩ := (grammatical h).word
  refine utterancePhase_of_prefix hstarts ?_
  rw [hw.utterancePhase (reachable_numbered h)]
  rfl

end PipelineRun

end Eeveetuber
