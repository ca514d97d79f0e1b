import Mathlib.Data.List.Basic
import Eeveetuber.Dialogue.Types

/-!
# The framing of speech

What a dialogue yields is a sequence of *blocks*, one for each segment: the
segment is announced, and its audio chunks follow with the indices `0, 1, 2, …`,
the last one and no other marked final. After the blocks comes one completion,
whose plan lists the segments of the blocks. `Eeveetuber.Word` is the language of
these sequences, and `Eeveetuber.Framed` what a block satisfies while its audio
is still being received.
-/

namespace Eeveetuber

open Foundation

/-- The chunks received for a segment so far: they belong to it, are numbered from
zero on, and nothing follows a final one. -/
structure Framed (segment : UtteranceSegment) (chunks : List AudioChunk) : Prop where
  segmentId : ∀ c ∈ chunks, c.segmentId = segment.segmentId
  sequence : ∀ c ∈ chunks, c.sequence = segment.sequence
  chunkIndex : chunks.map (·.chunkIndex) = List.range chunks.length
  notFinal : ∀ c ∈ chunks.dropLast, c.isFinal = false

/-- The chunks of a segment whose audio has been received to its end. -/
structure Complete (segment : UtteranceSegment) (chunks : List AudioChunk) : Prop
    extends Framed segment chunks where
  final : ∃ c, chunks.getLast? = some c ∧ c.isFinal = true

variable {segment : UtteranceSegment} {chunks : List AudioChunk} {chunk : AudioChunk}

theorem Framed.nil (segment : UtteranceSegment) : Framed segment [] :=
  ⟨by simp, by simp, rfl, by simp⟩

/-- One more chunk, in order and after no final one. -/
theorem Framed.concat (h : Framed segment chunks) (hnot : ∀ c ∈ chunks, c.isFinal = false)
    (hid : chunk.segmentId = segment.segmentId) (hseq : chunk.sequence = segment.sequence)
    (hindex : chunk.chunkIndex = chunks.length) : Framed segment (chunks ++ [chunk]) where
  segmentId c hc := by
    rcases List.mem_append.mp hc with hc | hc
    · exact h.segmentId c hc
    · rw [List.mem_singleton.mp hc, hid]
  sequence c hc := by
    rcases List.mem_append.mp hc with hc | hc
    · exact h.sequence c hc
    · rw [List.mem_singleton.mp hc, hseq]
  chunkIndex := by
    simp [h.chunkIndex, hindex, List.range_succ]
  notFinal c hc := by
    rw [List.dropLast_concat] at hc
    exact hnot c hc

/-- A prefix of framed chunks is framed. -/
theorem Framed.of_append {more : List AudioChunk} (h : Framed segment (chunks ++ more)) :
    Framed segment chunks where
  segmentId c hc := h.segmentId c (List.mem_append_left _ hc)
  sequence c hc := h.sequence c (List.mem_append_left _ hc)
  chunkIndex := by
    have := congrArg (List.take chunks.length) h.chunkIndex
    simpa [List.take_range] using this
  notFinal c hc := by
    refine h.notFinal c ?_
    rcases List.eq_nil_or_concat more with rfl | ⟨more', d, rfl⟩
    · simpa using hc
    · rw [List.concat_eq_append, ← List.append_assoc, List.dropLast_concat]
      exact List.mem_append_left _ (List.dropLast_sublist chunks |>.subset hc)

/-- A last chunk for a segment. -/
def finalChunk (segment : UtteranceSegment) (index : ℕ) : AudioChunk :=
  ⟨segment.segmentId, segment.sequence, index, [], [], 1, true, none, Nat.one_pos⟩

/-- Framed chunks can be completed. -/
theorem Framed.complete (h : Framed segment chunks) :
    ∃ more, Complete segment (chunks ++ more) := by
  by_cases hfinal : ∃ c, chunks.getLast? = some c ∧ c.isFinal = true
  · exact ⟨[], by simpa using ⟨h, hfinal⟩⟩
  · refine ⟨[finalChunk segment chunks.length], ?_, ?_⟩
    · refine h.concat (fun c hc => ?_) rfl rfl rfl
      rcases List.eq_nil_or_concat chunks with rfl | ⟨front, d, rfl⟩
      · cases hc
      · rw [List.concat_eq_append] at h hfinal hc
        rcases List.mem_append.mp hc with hc | hc
        · exact h.notFinal c (by rwa [List.dropLast_concat])
        · obtain rfl := List.mem_singleton.mp hc
          simpa using hfinal
    · exact ⟨_, List.getLast?_concat, rfl⟩

/-! ### Blocks and words -/

/-- A segment with its chunks. -/
abbrev Block := UtteranceSegment × List AudioChunk

variable (r : DialogueRequest)

/-- The events of one block. -/
def segmentEvents (b : Block) : List DialogueStreamEvent :=
  .segmentReady r.turnId r.generation b.1 ::
    b.2.map (.segmentAudioReady r.turnId r.generation b.1)

/-- The events of the blocks of an utterance. -/
def blockEvents (blocks : List Block) : List DialogueStreamEvent :=
  blocks.flatMap (segmentEvents r)

/-- The completion of an utterance. -/
def completedEvent (plan : UtterancePlan) : DialogueStreamEvent :=
  .utteranceCompleted r.turnId r.generation plan

/-- **The words of a dialogue**: a complete block for each of the segments, in their
order, and then the completion of a plan that lists them. -/
def Word (segments : List UtteranceSegment) (w : List DialogueStreamEvent) : Prop :=
  ∃ blocks : List Block, ∃ plan : UtterancePlan, blocks.map Prod.fst = segments ∧
    (∀ b ∈ blocks, Complete b.1 b.2) ∧ plan.segments = segments ∧
    w = blockEvents r blocks ++ [completedEvent r plan]

variable {r}

theorem blockEvents_append (xs ys : List Block) :
    blockEvents r (xs ++ ys) = blockEvents r xs ++ blockEvents r ys :=
  List.flatMap_append ..

theorem blockEvents_singleton (b : Block) : blockEvents r [b] = segmentEvents r b := by
  simp [blockEvents]

theorem segmentEvents_append (more : List AudioChunk) :
    segmentEvents r (segment, chunks ++ more) = segmentEvents r (segment, chunks) ++
      more.map (.segmentAudioReady r.turnId r.generation segment) := by
  simp [segmentEvents]

/-- There is a word for any segments. -/
theorem exists_blocks (segments : List UtteranceSegment) :
    ∃ blocks : List Block, blocks.map Prod.fst = segments ∧ ∀ b ∈ blocks, Complete b.1 b.2 := by
  induction segments with
  | nil => exact ⟨[], rfl, by simp⟩
  | cons segment rest ih =>
    obtain ⟨blocks, hmap, hall⟩ := ih
    obtain ⟨more, hmore⟩ := (Framed.nil segment).complete
    refine ⟨(segment, more) :: blocks, by simp [hmap], fun b hb => ?_⟩
    rcases List.mem_cons.mp hb with rfl | hb
    · simpa using hmore
    · exact hall b hb

/-- Complete blocks for the first segments are the beginning of a word for all of them. -/
theorem exists_word (blocks : List Block) {segments : List UtteranceSegment}
    (hall : ∀ b ∈ blocks, Complete b.1 b.2) (h : blocks.map Prod.fst <+: segments) :
    ∃ w, Word r segments w ∧ blockEvents r blocks <+: w := by
  obtain ⟨rest, rfl⟩ := h
  obtain ⟨others, hmap, hothers⟩ := exists_blocks rest
  refine ⟨_, ⟨blocks ++ others, ⟨r.turnId, r.generation, _, .complete, none, none⟩, ?_,
    fun b hb => ?_, rfl, rfl⟩, ?_⟩
  · rw [List.map_append, hmap]
  · exact (List.mem_append.mp hb).elim (hall b) (hothers b)
  · rw [blockEvents_append, List.append_assoc]
    exact List.prefix_append _ _

/-- The audio of a word belongs to the segment that it follows. -/
theorem Word.audio_mem {segments : List UtteranceSegment} {w : List DialogueStreamEvent}
    (h : Word r segments w) {turnId : UUID} {generation : CancellationGeneration}
    (hmem : .segmentAudioReady turnId generation segment chunk ∈ w) :
    chunk.segmentId = segment.segmentId ∧ chunk.sequence = segment.sequence := by
  obtain ⟨blocks, plan, -, hcomplete, -, rfl⟩ := h
  rcases List.mem_append.mp hmem with hmem | hmem
  · obtain ⟨⟨segment', chunks⟩, hb, hmem⟩ := List.mem_flatMap.mp hmem
    obtain ⟨chunk', hchunk, heq⟩ := List.mem_map.mp
      (List.mem_of_ne_of_mem (by exact nofun) hmem)
    obtain ⟨-, -, rfl, rfl⟩ := DialogueStreamEvent.segmentAudioReady.inj heq
    exact ⟨(hcomplete _ hb).segmentId _ hchunk, (hcomplete _ hb).sequence _ hchunk⟩
  · cases List.mem_singleton.mp hmem

end Eeveetuber
