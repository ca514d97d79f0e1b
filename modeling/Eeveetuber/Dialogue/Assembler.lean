import Eeveetuber.Dialogue.Types

/-!
# The incremental utterance assembler

The deltas of a model stream are cut into segments while they arrive: *emit
complete sentences early and cap latency for punctuation-free output*. A
sentence ends where `[.!?](?:\s+|$)|[\u3002\uff01\uff1f]|\n+` matches first, and
a buffer without such an end is cut once it is long enough.
-/

namespace Eeveetuber

open Foundation

/-! ### Where to cut -/

/-- The length of the match of the sentence boundary at the start of a text. -/
def matchBoundary : Text → Option ℕ
  | [] => none
  | c :: rest =>
    if c = '.' ∨ c = '!' ∨ c = '?' then
      let spaces := rest.takeWhile isSpace
      if spaces ≠ [] ∨ rest = [] then some (1 + spaces.length) else none
    else if c = '\u3002' ∨ c = '\uff01' ∨ c = '\uff1f' then some 1
    else if c = '\n' then some (1 + (rest.takeWhile (· = '\n')).length)
    else none

/-- The first match of the sentence boundary in a text, as its start and its end. -/
def searchBoundary : Text → Option (ℕ × ℕ)
  | [] => none
  | c :: rest =>
    match matchBoundary (c :: rest) with
    | some n => some (0, n)
    | none => (searchBoundary rest).map fun b => (b.1 + 1, b.2 + 1)

/-- The last index of a character, as `str.rfind` finds it. -/
def rfind (c : Char) (t : Text) : Option ℕ :=
  (t.reverse.findIdx? (· == c)).map fun i => t.length - 1 - i

/-- Where to cut a text that has no boundary: at a space not too far back, or hard. -/
def safeCut (text : Text) (preferred : ℕ) : ℕ :=
  match rfind ' ' (text.take (preferred + 1)) with
  | some whitespace => if preferred / 2 ≤ whitespace then whitespace else preferred
  | none => preferred

/-- One round of the loop of `push`: the text before the cut and the buffer after it. -/
def cutNext (maxSegmentChars : ℕ) (buffer : Text) : Option (Text × Text) :=
  match searchBoundary buffer with
  | some (start, stop) =>
    -- a sentence keeps its punctuation mark, a line loses its line feed
    let last := if buffer[start]? = some '\n' then start else start + 1
    some (buffer.take last, buffer.drop stop)
  | none =>
    if maxSegmentChars ≤ buffer.length then
      let cut := safeCut buffer maxSegmentChars
      some (buffer.take cut, lstrip (buffer.drop cut))
    else none

theorem matchBoundary_pos {t : Text} {n : ℕ} (h : matchBoundary t = some n) : 0 < n := by
  unfold matchBoundary at h
  split at h
  · cases h
  · dsimp only at h
    split_ifs at h <;> simp only [Option.some.injEq] at h <;> omega

theorem searchBoundary_pos {start stop : ℕ} :
    ∀ {t : Text}, searchBoundary t = some (start, stop) → 0 < stop
  | [], h => by cases h
  | c :: rest, h => by
    rw [searchBoundary] at h
    split at h
    · rename_i n hn
      cases h
      exact matchBoundary_pos hn
    · simp only [Option.map_eq_some_iff, Prod.exists, Prod.mk.injEq] at h
      obtain ⟨_, _, -, -, rfl⟩ := h
      exact Nat.succ_pos _

theorem ne_nil_of_searchBoundary {t : Text} {b : ℕ × ℕ} (h : searchBoundary t = some b) :
    t ≠ [] := by
  rintro rfl
  cases h

theorem safeCut_pos (text : Text) {preferred : ℕ} (h : 2 ≤ preferred) :
    0 < safeCut text preferred := by
  unfold safeCut
  split
  · split <;> omega
  · omega

/-- A round of the loop shortens the buffer. -/
theorem cutNext_lt {maxSegmentChars : ℕ} {buffer text rest : Text} (hm : 2 ≤ maxSegmentChars)
    (h : cutNext maxSegmentChars buffer = some (text, rest)) : rest.length < buffer.length := by
  unfold cutNext at h
  split at h
  · rename_i start stop hb
    cases h
    have := searchBoundary_pos hb
    have := List.length_pos_iff.mpr (ne_nil_of_searchBoundary hb)
    rw [List.length_drop]
    omega
  · split at h
    · rename_i hlen
      cases h
      have hcut := safeCut_pos buffer hm
      have hstrip := (List.dropWhile_sublist isSpace
        (l := buffer.drop (safeCut buffer maxSegmentChars))).length_le
      rw [List.length_drop] at hstrip
      rw [lstrip]
      omega
    · cases h

/-! ### The assembler -/

/-- The text not yet cut and the segments made so far. -/
structure IncrementalUtteranceAssembler where
  maxSegmentChars : ℕ
  buffer : Text
  segments : List UtteranceSegment
  twenty_le : 20 ≤ maxSegmentChars
deriving DecidableEq

namespace IncrementalUtteranceAssembler

/-- A new assembler; `none` where the constructor raises
`ValueError("max_segment_chars must be at least 20")`. -/
def create (maxSegmentChars : ℕ) : Option IncrementalUtteranceAssembler :=
  if h : 20 ≤ maxSegmentChars then some ⟨maxSegmentChars, [], [], h⟩ else none

-- the segments of an assembler draw their identifiers from here, one each
variable (uuid4 : ℕ → UUID)

/-- Make a segment of a text that is not blank. -/
def makeSegment (a : IncrementalUtteranceAssembler) (text : Text) (h : isBlank text = false) :
    IncrementalUtteranceAssembler × UtteranceSegment :=
  let segment : UtteranceSegment :=
    ⟨a.segments.length, text, text, uuid4 a.segments.length, h, h⟩
  ({ a with segments := a.segments ++ [segment] }, segment)

/-- Make a segment of the text before a cut, unless it strips to nothing. -/
def emit (a : IncrementalUtteranceAssembler) (text : Text) :
    IncrementalUtteranceAssembler × List UtteranceSegment :=
  if h : strip text ≠ [] then
    let (a', segment) := a.makeSegment uuid4 (strip text) (isBlank_strip h)
    (a', [segment])
  else (a, [])

theorem emit_fields (a : IncrementalUtteranceAssembler) (text : Text) :
    (a.emit uuid4 text).1.maxSegmentChars = a.maxSegmentChars ∧
      (a.emit uuid4 text).1.buffer = a.buffer := by
  unfold emit
  split <;> exact ⟨rfl, rfl⟩

/-- The loop of `push`. -/
def pushLoop (a : IncrementalUtteranceAssembler) :
    IncrementalUtteranceAssembler × List UtteranceSegment :=
  match _h : cutNext a.maxSegmentChars a.buffer with
  | none => (a, [])
  | some (text, rest) =>
    let p := ({ a with buffer := rest } : IncrementalUtteranceAssembler).emit uuid4 text
    let q := p.1.pushLoop
    (q.1, p.2 ++ q.2)
termination_by a.buffer.length
decreasing_by
  rw [(emit_fields uuid4 { a with buffer := rest } text).2]
  exact cutNext_lt (by have := a.twenty_le; omega) _h

/-- Take a delta and emit the segments it completes. -/
def push (a : IncrementalUtteranceAssembler) (textDelta : Text) :
    IncrementalUtteranceAssembler × List UtteranceSegment :=
  if textDelta = [] then (a, [])
  else ({ a with buffer := a.buffer ++ textDelta } : IncrementalUtteranceAssembler).pushLoop uuid4

/-- Emit what is left. -/
def finish (a : IncrementalUtteranceAssembler) :
    IncrementalUtteranceAssembler × List UtteranceSegment :=
  ({ a with buffer := [] } : IncrementalUtteranceAssembler).emit uuid4 a.buffer

/-! ### What is emitted is what is kept -/

variable {uuid4} {a : IncrementalUtteranceAssembler}

theorem emit_segments (text : Text) :
    (a.emit uuid4 text).1.segments = a.segments ++ (a.emit uuid4 text).2 := by
  unfold emit
  split
  · rfl
  · simp

theorem pushLoop_segments (a : IncrementalUtteranceAssembler) :
    (a.pushLoop uuid4).1.segments = a.segments ++ (a.pushLoop uuid4).2 := by
  induction a using pushLoop.induct uuid4 with
  | case1 a h =>
    rw [pushLoop]
    split
    · simp
    · simp_all
  | case2 a text rest h p ih =>
    rw [pushLoop]
    split
    · simp_all
    · rename_i text' rest' h'
      rw [h] at h'
      cases h'
      change (p.1.pushLoop uuid4).1.segments = a.segments ++ (p.2 ++ (p.1.pushLoop uuid4).2)
      rw [ih, ← List.append_assoc]
      exact congrArg (· ++ _) (emit_segments (a := { a with buffer := rest }) text)

/-- **`push` keeps exactly what it emits.** -/
theorem push_segments (textDelta : Text) :
    (a.push uuid4 textDelta).1.segments = a.segments ++ (a.push uuid4 textDelta).2 := by
  unfold push
  split
  · simp
  · exact pushLoop_segments _

theorem finish_segments :
    (a.finish uuid4).1.segments = a.segments ++ (a.finish uuid4).2 :=
  emit_segments (a := { a with buffer := [] }) a.buffer

end IncrementalUtteranceAssembler

end Eeveetuber
