import Eeveetuber.Dialogue.Sentences

/-!
# Runs of the assembler

A run of the assembler pushes deltas and finishes. What one round of its loop can do is said once,
by `Eeveetuber.LoopRound`: it ends a sentence, or it cuts a buffer without a boundary that has
reached the maximum. From it three things are read off.

* **Nothing is lost** (`Eeveetuber.IncrementalUtteranceAssembler.assembler_conserves`): the
  segments have the characters of the deltas in their order, white space apart, and what is left
  in the buffer after a push has no boundary and is shorter than the maximum.
* **The maximum caps text without punctuation**
  (`Eeveetuber.IncrementalUtteranceAssembler.segments_capped`). It is no bound for a sentence that
  is in the buffer as a whole.
* **The deltas do not matter** as long as none of them ends right behind a full stop that ends no
  sentence, and no sentence reaches the maximum
  (`Eeveetuber.IncrementalUtteranceAssembler.assembled_alike`). The invariant is that what has been
  emitted and what is spoken of the buffer with the text still to come are together what is spoken
  of the whole text.
-/

namespace Eeveetuber

open Foundation

/-! ### One round -/

/-- **What a round of the loop does** to a buffer. -/
inductive LoopRound (maxSegmentChars : ℕ) (buffer : Text) : Text → Text → Prop
  | sentence {s spaces rest text : Text} {c : Char} : buffer = s ++ c :: (spaces ++ rest) →
      isBlank spaces = true → Unmarked s (some c) → isMark c (spaces ++ rest).head? = true →
      text = (if c = '\n' then s else s ++ [c]) → LoopRound maxSegmentChars buffer text rest
  | length {n : ℕ} : Unmarked buffer none → maxSegmentChars ≤ buffer.length →
      n ≤ maxSegmentChars →
      LoopRound maxSegmentChars buffer (buffer.take n) (lstrip (buffer.drop n))

theorem rfind_lt {c : Char} {t : Text} {i : ℕ} (h : rfind c t = some i) : i < t.length := by
  rw [rfind, Option.map_eq_some_iff] at h
  obtain ⟨j, hj, rfl⟩ := h
  obtain ⟨hlt, -⟩ := List.findIdx?_eq_some_iff_getElem.mp hj
  rw [List.length_reverse] at hlt
  omega

theorem safeCut_le (text : Text) (preferred : ℕ) : safeCut text preferred ≤ preferred := by
  rw [safeCut]
  split
  · rename_i whitespace h
    have hlt := rfind_lt h
    rw [List.length_take] at hlt
    split_ifs
    · omega
    · exact le_rfl
  · exact le_rfl

variable {maxSegmentChars : ℕ} {buffer text rest u : Text}

theorem loopRound_of_cutNext (h : cutNext maxSegmentChars buffer = some (text, rest)) :
    LoopRound maxSegmentChars buffer text rest := by
  rw [cutNext] at h
  rcases hsearch : searchBoundary buffer with _ | ⟨start, stop⟩
  · rw [hsearch] at h
    dsimp only at h
    split_ifs at h with hlength
    obtain ⟨rfl, rfl⟩ := Prod.ext_iff.mp (Option.some.inj h)
    exact .length (searchBoundary_eq_none hsearch) hlength (safeCut_le _ _)
  · rw [hsearch] at h
    obtain ⟨rfl, rfl⟩ := Prod.ext_iff.mp (Option.some.inj h)
    obtain ⟨s, c, spaces, u, rfl, rfl, rfl, hblank, hunmarked, hmark⟩ :=
      searchBoundary_eq_some hsearch
    have hdrop : (s ++ c :: (spaces ++ u)).drop (s.length + 1 + spaces.length) = u := by
      have hlist : s ++ c :: (spaces ++ u) = (s ++ [c] ++ spaces) ++ u := by simp
      rw [hlist, List.drop_left' (by rw [List.length_append, List.length_append]; rfl)]
    dsimp only
    rw [hdrop]
    refine .sentence rfl hblank hunmarked hmark ?_
    rw [List.getElem?_append_right le_rfl, Nat.sub_self, List.getElem?_cons_zero]
    simp only [Option.some.injEq]
    split_ifs
    · exact List.take_left' rfl
    · have hlist : s ++ c :: (spaces ++ u) = (s ++ [c]) ++ (spaces ++ u) := by simp
      rw [hlist, List.take_left' (by simp)]

theorem of_cutNext_eq_none (h : cutNext maxSegmentChars buffer = none) :
    searchBoundary buffer = none ∧ buffer.length < maxSegmentChars := by
  rw [cutNext] at h
  rcases hsearch : searchBoundary buffer with _ | b
  · rw [hsearch] at h
    dsimp only at h
    split_ifs at h with hlength
    exact ⟨rfl, Nat.not_le.mp hlength⟩
  · rw [hsearch] at h
    cases h

/-- A round takes out white space only. -/
theorem LoopRound.ink_eq (h : LoopRound maxSegmentChars buffer text rest) :
    ink buffer = ink text ++ ink rest := by
  rcases h with ⟨rfl, hblank, -, -, rfl⟩ | ⟨-, -, -⟩
  · rename_i s spaces c
    rw [ink_append, ← List.singleton_append, ink_append, ink_append, ink_eq_nil_iff.mpr hblank,
      List.nil_append, ← List.append_assoc]
    split_ifs with hc
    · rw [hc]
      exact congrArg (· ++ _) (List.append_nil _)
    · rw [ink_append]
  · rename_i n
    rw [ink_lstrip, ← ink_append, List.take_append_drop]

/-- A round leaves an end of the buffer. -/
theorem LoopRound.isSuffix (h : LoopRound maxSegmentChars buffer text rest) : rest <:+ buffer := by
  rcases h with ⟨rfl, -, -, -, -⟩ | ⟨-, -, -⟩
  · rename_i s spaces c
    exact ⟨s ++ c :: spaces, by simp⟩
  · exact (List.dropWhile_suffix _).trans (List.drop_suffix _ _)

theorem strip_mark (s : Text) (c : Char) :
    strip (if c = '\n' then s else s ++ [c]) = strip (s ++ [c]) := by
  split_ifs with hc
  · rw [hc, strip_concat_of_isSpace (by decide)]
  · rfl

/-- **A sentence of a text**, without the white space around it. -/
def IsSentence (t text : Text) : Prop := text ∈ (sentences t).1.map strip
deriving Decidable

/-- Where nothing is a mark there is no sentence. -/
theorem not_isSentence (h : Unmarked buffer none) : ¬IsSentence buffer text := by
  rw [IsSentence, sentences_unmarked h]
  exact List.not_mem_nil

/-- The sentences behind white space are sentences of the whole. -/
theorem IsSentence.of_isBlank {spaces : Text} (hblank : isBlank spaces = true)
    (h : IsSentence u text) : IsSentence (spaces ++ u) text := by
  induction spaces with
  | nil => exact h
  | cons c s ih =>
    rw [isBlank, List.all_cons, Bool.and_eq_true] at hblank
    have htail := ih hblank.2
    rw [IsSentence] at htail ⊢
    rw [List.cons_append, sentences]
    split_ifs
    · exact List.mem_cons_of_mem _ htail
    · rcases hs : sentences (s ++ u) with ⟨_ | ⟨t, ts⟩, rest⟩
      · rw [hs] at htail
        cases htail
      · -- the white space goes to the first sentence, which is stripped of it
        rw [hs, List.map_cons] at htail
        rw [glue, List.map_cons, List.singleton_append, strip_cons_of_isSpace hblank.1]
        exact htail

theorem Unmarked.of_append {s : Text} {next : Option Char} (h : Unmarked (s ++ u) next) :
    Unmarked u next := by
  induction s with
  | nil => exact h
  | cons c s ih => exact ih h.2

/-- What a round emits is a sentence of the buffer, or within the maximum. -/
theorem LoopRound.isSentence_or_le (h : LoopRound maxSegmentChars buffer text rest) :
    IsSentence buffer (strip text) ∨ (strip text).length ≤ maxSegmentChars := by
  rcases h with ⟨rfl, -, hunmarked, hmark, rfl⟩ | ⟨-, -, hn⟩
  · refine Or.inl ?_
    rw [IsSentence, sentences_append_mark hunmarked hmark, List.map_cons, strip_mark]
    exact List.mem_cons_self
  · refine Or.inr ((length_strip_le _).trans ?_)
    rw [List.length_take]
    omega

/-- A sentence of what a round leaves is one of the buffer. -/
theorem LoopRound.isSentence_of_rest (h : LoopRound maxSegmentChars buffer text rest)
    (hrest : IsSentence rest u) : IsSentence buffer u := by
  rcases h with ⟨rfl, hblank, hunmarked, hmark, rfl⟩ | ⟨hunmarked, -, -⟩
  · rw [IsSentence, sentences_append_mark hunmarked hmark]
    exact List.mem_cons_of_mem _ (hrest.of_isBlank hblank)
  · -- what is left of a buffer without a mark has none
    rename_i n
    obtain ⟨front, hfront⟩ : lstrip (buffer.drop n) <:+ buffer :=
      (List.dropWhile_suffix _).trans (List.drop_suffix _ _)
    rw [← hfront] at hunmarked
    exact absurd hrest (not_isSentence hunmarked.of_append)

theorem LoopRound.length_text_le (h : LoopRound maxSegmentChars buffer text rest) :
    (strip text).length ≤ buffer.length := by
  refine (length_strip_le _).trans ?_
  rcases h with ⟨rfl, -, -, -, rfl⟩ | ⟨-, -, -⟩
  · split_ifs <;> simp
  · exact List.length_take_le' _ _

/-! ### The text still to come -/

/-- Sentences of at most so many characters, and a rest of fewer. -/
def Short (maxSegmentChars : ℕ) (p : List Text × Text) : Prop :=
  (∀ t ∈ p.1, t.length ≤ maxSegmentChars) ∧ p.2.length < maxSegmentChars

instance (p : List Text × Text) : Decidable (Short maxSegmentChars p) :=
  inferInstanceAs (Decidable (_ ∧ _))

/-- A text goes on: it ends in a full stop only in front of white space or of nothing. -/
def Continues (t u : Text) : Prop :=
  ∀ c ∈ t.getLast?, isStop c = true → u.head?.all isSpace = true

/-- **Deltas that join well**: none of them ends in a full stop that other text follows. -/
def Joins : List Text → Prop
  | [] => True
  | d :: ds => Continues d ds.flatten ∧ Joins ds

theorem isMark_of_none {c : Char} {next : Option Char} (h : isMark c none = false) :
    isMark c next = false := by
  rw [isMark] at h ⊢
  rcases hstop : isStop c with _ | _
  · rw [hstop] at h
    exact h
  · -- at the end of a text a full stop is a mark
    rw [hstop] at h
    cases h

theorem Unmarked.of_none {s : Text} {next : Option Char} (h : Unmarked s none) :
    Unmarked s next := by
  induction s with
  | nil => trivial
  | cons c s ih =>
    obtain ⟨hc, hs⟩ := h
    refine ⟨?_, ih hs⟩
    rcases hhead : s.head? with _ | d
    · rw [hhead, Option.none_or] at hc
      exact isMark_of_none hc
    · rw [hhead] at hc
      exact hc

theorem ne_nil_of_mem_sentences {t : Text} (h : t ∈ (sentences u).1) : t ≠ [] := by
  induction u generalizing t with
  | nil => cases h
  | cons c u ih =>
    rw [sentences] at h
    split_ifs at h
    · rcases List.mem_cons.mp h with rfl | h
      · exact List.cons_ne_nil _ _
      · exact ih h
    · rcases hs : sentences u with ⟨_ | ⟨v, vs⟩, rest⟩
      · rw [hs] at h
        cases h
      · rw [hs] at h
        rcases List.mem_cons.mp h with rfl | h
        · exact List.cons_ne_nil _ _
        · exact ih (by rw [hs]; exact List.mem_cons_of_mem _ h)

/-- A buffer without a boundary is short where all sentences are. -/
theorem length_lt_of_short (hunmarked : Unmarked buffer none)
    (h : Short maxSegmentChars (sentences (buffer ++ u))) : buffer.length < maxSegmentChars := by
  rw [sentences_append hunmarked.of_none] at h
  rcases hs : sentences u with ⟨_ | ⟨t, ts⟩, rest⟩
  · rw [hs] at h
    have hlength := h.2
    rw [glue, List.length_append] at hlength
    omega
  · rw [hs] at h
    have hlength := h.1 _ List.mem_cons_self
    have hne : t ≠ [] := ne_nil_of_mem_sentences (by rw [hs]; exact List.mem_cons_self)
    have hpos := List.length_pos_iff.mpr hne
    rw [List.length_append] at hlength
    omega

theorem Short.of_isBlank {s : Text} (hblank : isBlank s = true)
    (h : Short maxSegmentChars (sentences (s ++ u))) : Short maxSegmentChars (sentences u) := by
  induction s with
  | nil => exact h
  | cons c s ih =>
    rw [isBlank, List.all_cons, Bool.and_eq_true] at hblank
    refine ih hblank.2 ?_
    rw [List.cons_append, sentences] at h
    split_ifs at h
    · exact ⟨fun t ht => h.1 t (List.mem_cons_of_mem _ ht), h.2⟩
    · rcases hs : sentences (s ++ u) with ⟨_ | ⟨t, ts⟩, rest⟩
      · rw [hs] at h
        refine ⟨fun t ht => (List.not_mem_nil ht).elim, ?_⟩
        exact (Nat.lt_succ_self _).trans_le h.2.le
      · rw [hs] at h
        refine ⟨fun v hv => ?_, h.2⟩
        rcases List.mem_cons.mp hv with rfl | hv
        · exact (Nat.le_succ _).trans (h.1 _ List.mem_cons_self)
        · exact h.1 v (List.mem_cons_of_mem _ hv)

/-- **A round with the text still to come**: what is spoken of buffer and text is what the round
emits and what is spoken of the rest of the buffer and the text. -/
theorem LoopRound.spoken_eq (h : LoopRound maxSegmentChars buffer text rest)
    (hu : Continues buffer u) (hshort : Short maxSegmentChars (sentences (buffer ++ u))) :
    spoken (sentences (buffer ++ u)) =
        (if strip text = [] then [] else [strip text]) ++ spoken (sentences (rest ++ u)) ∧
      Short maxSegmentChars (sentences (rest ++ u)) := by
  rcases h with ⟨rfl, hblank, hunmarked, hmark, rfl⟩ | ⟨hunmarked, hlength, -⟩
  · rename_i s spaces c
    have hmark' : isMark c (spaces ++ (rest ++ u)).head? = true := by
      rw [← List.append_assoc, head?_append_or]
      rcases hhead : (spaces ++ rest).head? with _ | d
      · -- the mark is the last character, so it is the text to come that decides
        rw [hhead] at hmark
        rw [Option.none_or]
        have hnil : spaces ++ rest = [] := List.head?_eq_none_iff.mp hhead
        have hlast : c ∈ (s ++ c :: (spaces ++ rest)).getLast? := by
          rw [hnil, List.getLast?_append]
          rfl
        rw [isMark] at hmark ⊢
        split_ifs at hmark ⊢ with hstop
        · exact hu c hlast hstop
        · exact hmark
      · rw [hhead] at hmark
        exact hmark
    have hsentences : sentences (s ++ c :: (spaces ++ rest) ++ u) =
        ((s ++ [c]) :: (sentences (spaces ++ (rest ++ u))).1,
          (sentences (spaces ++ (rest ++ u))).2) := by
      rw [List.append_assoc, List.cons_append, List.append_assoc]
      exact sentences_append_mark hunmarked hmark'
    rw [hsentences] at hshort ⊢
    have hrest : Short maxSegmentChars (sentences (spaces ++ (rest ++ u))) :=
      ⟨fun t ht => hshort.1 t (List.mem_cons_of_mem _ ht), hshort.2⟩
    refine ⟨?_, hrest.of_isBlank hblank⟩
    rw [spoken_cons, strip_mark]
    exact congrArg (_ ++ ·) (spoken_sentences_of_isBlank hblank)
  · exact absurd (length_lt_of_short hunmarked hshort) (Nat.not_lt.mpr hlength)

theorem Continues.of_isSuffix {t : Text} (h : Continues buffer u) (hsuffix : t <:+ buffer) :
    Continues t u := by
  obtain ⟨front, rfl⟩ := hsuffix
  intro c hc hstop
  refine h c ?_ hstop
  rw [List.getLast?_append, hc]
  rfl

/-! ### The loop -/

namespace IncrementalUtteranceAssembler

variable (uuid4 : ℕ → UUID) {a : IncrementalUtteranceAssembler}

theorem pushLoop_of_none (h : cutNext a.maxSegmentChars a.buffer = none) :
    a.pushLoop uuid4 = (a, []) := by
  rw [pushLoop]
  split
  · rfl
  · rename_i h'
    rw [h] at h'
    cases h'

theorem pushLoop_of_some (h : cutNext a.maxSegmentChars a.buffer = some (text, rest)) :
    a.pushLoop uuid4 =
      (((emit uuid4 { a with buffer := rest } text).1.pushLoop uuid4).1,
        (emit uuid4 { a with buffer := rest } text).2 ++
          ((emit uuid4 { a with buffer := rest } text).1.pushLoop uuid4).2) := by
  rw [pushLoop]
  split
  · rename_i h'
    rw [h] at h'
    cases h'
  · rename_i h'
    rw [h] at h'
    obtain ⟨rfl, rfl⟩ := Prod.ext_iff.mp (Option.some.inj h')
    rfl

/-- **The loop, round by round.** -/
theorem pushLoop_rounds
    {P : IncrementalUtteranceAssembler →
      IncrementalUtteranceAssembler × List UtteranceSegment → Prop}
    (hnone : ∀ a, cutNext a.maxSegmentChars a.buffer = none → P a (a, []))
    (hsome : ∀ a text rest q, LoopRound a.maxSegmentChars a.buffer text rest →
      P (emit uuid4 { a with buffer := rest } text).1 q →
      P a (q.1, (emit uuid4 { a with buffer := rest } text).2 ++ q.2))
    (a : IncrementalUtteranceAssembler) : P a (a.pushLoop uuid4) := by
  induction a using pushLoop.induct uuid4 with
  | case1 a h =>
    rw [pushLoop_of_none uuid4 h]
    exact hnone a h
  | case2 a text rest h p ih =>
    rw [pushLoop_of_some uuid4 h]
    exact hsome a text rest _ (loopRound_of_cutNext h) ih

/-! ### What is emitted -/

/-- The texts of segments. -/
def texts (segments : List UtteranceSegment) : List Text := segments.map (·.speakableText)

@[simp] theorem texts_append (l l' : List UtteranceSegment) :
    texts (l ++ l') = texts l ++ texts l' := List.map_append

theorem emit_texts (a : IncrementalUtteranceAssembler) (text : Text) :
    texts (a.emit uuid4 text).2 = if strip text = [] then [] else [strip text] := by
  rw [emit]
  split_ifs <;> first | rfl | contradiction

theorem emit_maxSegmentChars (a : IncrementalUtteranceAssembler) (text : Text) :
    (a.emit uuid4 text).1.maxSegmentChars = a.maxSegmentChars := (emit_fields uuid4 a text).1

theorem emit_buffer (a : IncrementalUtteranceAssembler) (text : Text) :
    (a.emit uuid4 text).1.buffer = a.buffer := (emit_fields uuid4 a text).2

/-- The segments are numbered in their order. -/
def Numbered (segments : List UtteranceSegment) : Prop :=
  segments.map (·.sequence) = List.range segments.length

theorem numbered_emit (text : Text) (h : Numbered a.segments) :
    Numbered (a.emit uuid4 text).1.segments := by
  rw [emit]
  split_ifs
  · rw [makeSegment, Numbered, List.map_append, h, List.length_append, List.length_singleton,
      List.range_succ]
    rfl
  · exact h

theorem emit_ink (a : IncrementalUtteranceAssembler) (text : Text) :
    (texts (a.emit uuid4 text).2).flatMap ink = ink text := by
  rw [emit_texts, ← ink_strip text]
  split_ifs with h
  · rw [h]
    rfl
  · exact List.append_nil _

/-! ### Runs -/

/-- Push deltas one after the other. -/
def pushAll (uuid4 : ℕ → UUID) (a : IncrementalUtteranceAssembler) :
    List Text → IncrementalUtteranceAssembler × List UtteranceSegment
  | [] => (a, [])
  | d :: ds =>
    let p := a.push uuid4 d
    let q := p.1.pushAll uuid4 ds
    (q.1, p.2 ++ q.2)

/-- Push deltas and finish. -/
def assemble (uuid4 : ℕ → UUID) (a : IncrementalUtteranceAssembler) (deltas : List Text) :
    IncrementalUtteranceAssembler × List UtteranceSegment :=
  let p := a.pushAll uuid4 deltas
  let q := p.1.finish uuid4
  (q.1, p.2 ++ q.2)

/-- What holds of an assembler between two pushes. -/
structure Settled (a : IncrementalUtteranceAssembler) : Prop where
  numbered : Numbered a.segments
  search : searchBoundary a.buffer = none
  length : a.buffer.length < a.maxSegmentChars

theorem settled_create {maxSegmentChars : ℕ} (h : create maxSegmentChars = some a) :
    a.Settled ∧ a.maxSegmentChars = maxSegmentChars ∧ a.buffer = [] ∧ a.segments = [] := by
  rw [create] at h
  split_ifs at h with htwenty
  obtain rfl := Option.some.inj h
  exact ⟨⟨rfl, rfl, (by decide : 0 < 20).trans_le htwenty⟩, rfl, rfl, rfl⟩

/-- What the loop leaves, and what it has emitted. -/
theorem pushLoop_spec (hnumbered : Numbered a.segments) :
    (a.pushLoop uuid4).1.Settled ∧ (a.pushLoop uuid4).1.maxSegmentChars = a.maxSegmentChars ∧
      (texts (a.pushLoop uuid4).2).flatMap ink ++ ink (a.pushLoop uuid4).1.buffer =
        ink a.buffer := by
  refine pushLoop_rounds uuid4 (P := fun a q => Numbered a.segments → q.1.Settled ∧
    q.1.maxSegmentChars = a.maxSegmentChars ∧
      (texts q.2).flatMap ink ++ ink q.1.buffer = ink a.buffer) ?_ ?_ a hnumbered
  · intro a h hnumbered
    obtain ⟨hsearch, hlength⟩ := of_cutNext_eq_none h
    exact ⟨⟨hnumbered, hsearch, hlength⟩, rfl, rfl⟩
  · intro a text rest q hcut ih hnumbered
    obtain ⟨hsettled, hmax, hink⟩ := ih (numbered_emit uuid4 text hnumbered)
    refine ⟨hsettled, hmax.trans (emit_maxSegmentChars uuid4 _ _), ?_⟩
    rw [texts_append, List.flatMap_append, List.append_assoc, hink, emit_ink, emit_buffer,
      hcut.ink_eq]

theorem push_spec (h : a.Settled) (d : Text) :
    (a.push uuid4 d).1.Settled ∧ (a.push uuid4 d).1.maxSegmentChars = a.maxSegmentChars ∧
      (texts (a.push uuid4 d).2).flatMap ink ++ ink (a.push uuid4 d).1.buffer =
        ink a.buffer ++ ink d := by
  rw [push]
  split_ifs with hd
  · exact ⟨h, rfl, by rw [hd]; exact (List.append_nil _).symm⟩
  · obtain ⟨hsettled, hmax, hink⟩ := pushLoop_spec uuid4
      (a := { a with buffer := a.buffer ++ d }) h.numbered
    exact ⟨hsettled, hmax, hink.trans ink_append⟩

theorem pushAll_spec (deltas : List Text) (h : a.Settled) :
    (a.pushAll uuid4 deltas).1.Settled ∧
      (a.pushAll uuid4 deltas).1.maxSegmentChars = a.maxSegmentChars ∧
      (a.pushAll uuid4 deltas).1.segments = a.segments ++ (a.pushAll uuid4 deltas).2 ∧
      (texts (a.pushAll uuid4 deltas).2).flatMap ink ++ ink (a.pushAll uuid4 deltas).1.buffer =
        ink a.buffer ++ ink deltas.flatten := by
  induction deltas generalizing a with
  | nil => exact ⟨h, rfl, (List.append_nil _).symm, (List.append_nil _).symm⟩
  | cons d ds ih =>
    obtain ⟨hsettled, hmax, hink⟩ := push_spec uuid4 h d
    obtain ⟨hsettled', hmax', hsegments, hink'⟩ := ih hsettled
    rw [pushAll]
    refine ⟨hsettled', hmax'.trans hmax, ?_, ?_⟩
    · rw [hsegments, push_segments, List.append_assoc]
    · rw [texts_append, List.flatMap_append, List.append_assoc, hink', ← List.append_assoc, hink,
        List.flatten_cons, ink_append, List.append_assoc]

theorem finish_spec (h : a.Settled) :
    Numbered (a.finish uuid4).1.segments ∧
      (texts (a.finish uuid4).2).flatMap ink = ink a.buffer :=
  ⟨numbered_emit uuid4 a.buffer (a := { a with buffer := [] }) h.numbered, emit_ink uuid4 _ _⟩

/-- **Nothing is lost.** The segments of a run have the characters of its deltas in their order,
white space apart; they are numbered without gaps, none of them is blank, and they are the ones
the assembler lists. After the pushes the buffer has no boundary and is shorter than the maximum. -/
theorem assembler_conserves {maxSegmentChars : ℕ} (h : create maxSegmentChars = some a)
    (deltas : List Text) :
    (texts (a.assemble uuid4 deltas).2).flatMap ink = ink deltas.flatten ∧
      (a.assemble uuid4 deltas).2.map (·.sequence) =
        List.range (a.assemble uuid4 deltas).2.length ∧
      (∀ segment ∈ (a.assemble uuid4 deltas).2, isBlank segment.speakableText = false) ∧
      (a.assemble uuid4 deltas).1.segments = (a.assemble uuid4 deltas).2 ∧
      (a.pushAll uuid4 deltas).1.segments = (a.pushAll uuid4 deltas).2 ∧
      searchBoundary (a.pushAll uuid4 deltas).1.buffer = none ∧
      (a.pushAll uuid4 deltas).1.buffer.length < maxSegmentChars := by
  obtain ⟨hsettled, rfl, hbuffer, hempty⟩ := settled_create h
  obtain ⟨hpushed, hmax, hsegments, hink⟩ := pushAll_spec uuid4 deltas hsettled
  obtain ⟨hnumbered, hrest⟩ := finish_spec uuid4 hpushed
  rw [hempty, List.nil_append] at hsegments
  rw [hbuffer, ink_nil, List.nil_append] at hink
  have hall : (a.assemble uuid4 deltas).1.segments = (a.assemble uuid4 deltas).2 := by
    show ((a.pushAll uuid4 deltas).1.finish uuid4).1.segments = _
    rw [finish_segments, hsegments]
    rfl
  refine ⟨?_, ?_, fun segment _ => segment.speakable_not_blank, hall, hsegments, hpushed.search,
    hmax ▸ hpushed.length⟩
  · rw [assemble]
    dsimp only
    rw [texts_append, List.flatMap_append, hrest, hink]
  · rw [← hall]
    exact hnumbered

theorem assembler_conserves_sentence :
    ∃ a, create 20 = some a ∧
      (texts (a.assemble (fun _ => 0) ["Hi. ".toList, "ok".toList]).2).flatMap ink =
        "Hi.ok".toList := by
  have h : create 20 = some ⟨20, [], [], le_rfl⟩ := rfl
  exact ⟨_, h, (assembler_conserves (fun _ => 0) h _).1⟩

/-! ### The maximum -/

theorem pushLoop_capped (a : IncrementalUtteranceAssembler) :
    ∀ text ∈ texts (a.pushLoop uuid4).2, text.length ≤ a.buffer.length ∧
      (IsSentence a.buffer text ∨ text.length ≤ a.maxSegmentChars) := by
  refine pushLoop_rounds uuid4 (P := fun a q => ∀ text ∈ texts q.2, text.length ≤ a.buffer.length ∧
    (IsSentence a.buffer text ∨ text.length ≤ a.maxSegmentChars)) ?_ ?_ a
  · intro a _ text htext
    cases htext
  · intro a text rest q hcut ih v hv
    rw [texts_append, List.mem_append] at hv
    rcases hv with hv | hv
    · rw [emit_texts] at hv
      split_ifs at hv
      · cases hv
      · rw [List.mem_singleton.mp hv]
        exact ⟨hcut.length_text_le, hcut.isSentence_or_le⟩
    · obtain ⟨hlength, hsentence⟩ := ih v hv
      rw [emit_buffer] at hlength hsentence
      rw [emit_maxSegmentChars] at hsentence
      exact ⟨hlength.trans hcut.isSuffix.length_le,
        hsentence.imp_left hcut.isSentence_of_rest⟩

/-- **The maximum caps text without punctuation.** What is longer than the maximum is a whole
sentence of what is buffered; where the buffer has no boundary, nothing is longer. No segment is
longer than the buffer can be, and the last one is always within the maximum. -/
theorem segments_capped {maxSegmentChars : ℕ} (h : create maxSegmentChars = some a)
    (deltas : List Text) (delta : Text) :
    (∀ segment ∈ ((a.pushAll uuid4 deltas).1.push uuid4 delta).2,
      segment.speakableText.length < maxSegmentChars + delta.length ∧
      (maxSegmentChars < segment.speakableText.length →
        IsSentence ((a.pushAll uuid4 deltas).1.buffer ++ delta) segment.speakableText) ∧
      (searchBoundary ((a.pushAll uuid4 deltas).1.buffer ++ delta) = none →
        segment.speakableText.length ≤ maxSegmentChars)) ∧
    ∀ segment ∈ ((a.pushAll uuid4 deltas).1.finish uuid4).2,
      segment.speakableText.length < maxSegmentChars := by
  obtain ⟨hsettled, rfl, -, -⟩ := settled_create h
  obtain ⟨hpushed, hmax, -, -⟩ := pushAll_spec uuid4 deltas hsettled
  generalize (a.pushAll uuid4 deltas).1 = b at hpushed hmax
  have hlength := hpushed.length
  rw [hmax] at hlength
  constructor
  · intro segment hsegment
    rw [push] at hsegment
    split_ifs at hsegment with hdelta
    · cases hsegment
    · have hcapped := pushLoop_capped uuid4 { b with buffer := b.buffer ++ delta }
        segment.speakableText (List.mem_map_of_mem hsegment)
      obtain ⟨hle, hsentence⟩ := hcapped
      dsimp only at hle hsentence
      rw [List.length_append] at hle
      rw [hmax] at hsentence
      refine ⟨by omega, fun hlt => ?_, fun hsearch => ?_⟩
      · exact hsentence.resolve_right (Nat.not_le.mpr hlt)
      · exact hsentence.resolve_left (not_isSentence (searchBoundary_eq_none hsearch))
  · intro segment hsegment
    -- the last segment is what the buffer still has, which is below the maximum
    have htext : segment.speakableText ∈ texts (b.finish uuid4).2 := List.mem_map_of_mem hsegment
    rw [finish, emit_texts] at htext
    split_ifs at htext
    · cases htext
    · rw [List.mem_singleton.mp htext]
      exact (length_strip_le _).trans_lt hlength

/-- Text without punctuation is cut at the maximum; a sentence that begins with what is left of
it is not. -/
theorem segments_capped_delta :
    ∃ a, create 20 = some a ∧
      (∃ segment ∈ (a.push (fun _ => 0) (List.replicate 25 'a')).2,
        segment.speakableText.length = 20) ∧
      (∀ segment ∈ (a.push (fun _ => 0) (List.replicate 25 'a')).2,
        segment.speakableText.length ≤ 20) ∧
      ∃ segment ∈ ((a.push (fun _ => 0) (List.replicate 25 'a')).1.push (fun _ => 0)
          " bbbbbbbbbbbbbbbbbbbb. ".toList).2,
        segment.speakableText = "aaaaa bbbbbbbbbbbbbbbbbbbb.".toList ∧
        20 < segment.speakableText.length ∧
        IsSentence ((a.push (fun _ => 0) (List.replicate 25 'a')).1.buffer ++
          " bbbbbbbbbbbbbbbbbbbb. ".toList) segment.speakableText := by
  have h : create 20 = some ⟨20, [], [], le_rfl⟩ := rfl
  have hfirst := segments_capped (fun _ => 0) h [] (List.replicate 25 'a')
  have hsecond := segments_capped (fun _ => 0) h [List.replicate 25 'a']
    " bbbbbbbbbbbbbbbbbbbb. ".toList
  refine ⟨_, h, by decide +kernel, fun segment hsegment => ?_, ?_⟩
  · exact (hfirst.1 segment hsegment).2.2 (by decide +kernel)
  · have hlong : ∃ segment ∈ ((IncrementalUtteranceAssembler.push (fun _ => 0) ⟨20, [], [], le_rfl⟩
        (List.replicate 25 'a')).1.push (fun _ => 0) " bbbbbbbbbbbbbbbbbbbb. ".toList).2,
        segment.speakableText = "aaaaa bbbbbbbbbbbbbbbbbbbb.".toList := by decide +kernel
    obtain ⟨segment, hsegment, htext⟩ := hlong
    have hlt : 20 < segment.speakableText.length := by
      rw [htext]
      decide
    exact ⟨segment, hsegment, htext, hlt, (hsecond.1 segment hsegment).2.1 hlt⟩

/-- **The maximum is no bound for a sentence** that comes with its boundary. -/
theorem segments_not_capped :
    ∃ a, create 20 = some a ∧
      texts (a.push (fun _ => 0) "a sentence of 25 letters.".toList).2 =
        ["a sentence of 25 letters.".toList] ∧
      20 < "a sentence of 25 letters.".toList.length :=
  ⟨⟨20, [], [], le_rfl⟩, rfl, by decide +kernel, by decide⟩

/-! ### The deltas do not matter -/

/-- The loop, with the text still to come. -/
theorem pushLoop_spoken (hu : Continues a.buffer u)
    (hshort : Short a.maxSegmentChars (sentences (a.buffer ++ u))) :
    texts (a.pushLoop uuid4).2 ++ spoken (sentences ((a.pushLoop uuid4).1.buffer ++ u)) =
        spoken (sentences (a.buffer ++ u)) ∧
      Short a.maxSegmentChars (sentences ((a.pushLoop uuid4).1.buffer ++ u)) := by
  refine pushLoop_rounds uuid4 (P := fun a q => Continues a.buffer u →
    Short a.maxSegmentChars (sentences (a.buffer ++ u)) →
    texts q.2 ++ spoken (sentences (q.1.buffer ++ u)) = spoken (sentences (a.buffer ++ u)) ∧
      Short a.maxSegmentChars (sentences (q.1.buffer ++ u))) ?_ ?_ a hu hshort
  · intro a _ _ hshort
    exact ⟨rfl, hshort⟩
  · intro a text rest q hcut ih hu hshort
    obtain ⟨hspoken, hrest⟩ := hcut.spoken_eq hu hshort
    rw [emit_buffer, emit_maxSegmentChars] at ih
    obtain ⟨hq, hqshort⟩ := ih (hu.of_isSuffix hcut.isSuffix) hrest
    refine ⟨?_, hqshort⟩
    rw [texts_append, List.append_assoc, hq, hspoken, emit_texts]

end IncrementalUtteranceAssembler

theorem Continues.append {t d : Text} (h : Continues d u) (hd : d ≠ []) :
    Continues (t ++ d) u := by
  intro c hc hstop
  refine h c ?_ hstop
  rcases hlast : d.getLast? with _ | e
  · exact absurd (List.getLast?_eq_none_iff.mp hlast) hd
  · rw [List.getLast?_append, hlast] at hc
    exact hc

namespace IncrementalUtteranceAssembler

variable (uuid4 : ℕ → UUID) {a : IncrementalUtteranceAssembler}

theorem pushAll_spoken {deltas : List Text} (hsettled : a.Settled) (hjoins : Joins deltas)
    (hshort : Short a.maxSegmentChars (sentences (a.buffer ++ deltas.flatten))) :
    texts (a.pushAll uuid4 deltas).2 ++ spoken (sentences (a.pushAll uuid4 deltas).1.buffer) =
      spoken (sentences (a.buffer ++ deltas.flatten)) := by
  induction deltas generalizing a with
  | nil =>
    rw [List.flatten_nil, List.append_nil]
    rfl
  | cons d ds ih =>
    obtain ⟨hd, hds⟩ := hjoins
    obtain ⟨hsettled', hmax, -⟩ := push_spec uuid4 hsettled d
    have hpush : texts (a.push uuid4 d).2 ++
          spoken (sentences ((a.push uuid4 d).1.buffer ++ ds.flatten)) =
          spoken (sentences (a.buffer ++ (d :: ds).flatten)) ∧
        Short a.maxSegmentChars (sentences ((a.push uuid4 d).1.buffer ++ ds.flatten)) := by
      rw [List.flatten_cons, ← List.append_assoc] at hshort ⊢
      rw [push]
      split_ifs with hempty
      · rw [hempty, List.append_nil] at hshort ⊢
        exact ⟨rfl, hshort⟩
      · exact pushLoop_spoken uuid4 (a := { a with buffer := a.buffer ++ d })
          (hd.append hempty) hshort
    obtain ⟨hspoken, hrest⟩ := hpush
    rw [← hmax] at hrest
    rw [pushAll]
    dsimp only
    rw [texts_append, List.append_assoc, ih hsettled' hds hrest, hspoken]

/-- **What is assembled** is what is spoken of the whole text. -/
theorem assemble_texts {maxSegmentChars : ℕ} {deltas : List Text}
    (h : create maxSegmentChars = some a) (hjoins : Joins deltas)
    (hshort : Short maxSegmentChars (sentences deltas.flatten)) :
    texts (a.assemble uuid4 deltas).2 = spoken (sentences deltas.flatten) := by
  obtain ⟨hsettled, rfl, hbuffer, -⟩ := settled_create h
  have hspoken := pushAll_spoken uuid4 hsettled hjoins
    (by rwa [hbuffer])
  rw [hbuffer, List.nil_append] at hspoken
  rw [← hspoken, assemble]
  dsimp only
  rw [texts_append, finish, emit_texts]
  -- the last segment is what is left, since the buffer has no mark
  have hsearch := (pushAll_spec uuid4 deltas hsettled).1.search
  rw [sentences_unmarked (searchBoundary_eq_none hsearch), spoken, List.nil_append,
    List.map_singleton, List.filter_cons]
  split_ifs <;> simp_all

/-- **The deltas do not matter** where none ends in a full stop that other text follows and no
sentence reaches the maximum. -/
theorem assembled_alike (uuid4' : ℕ → UUID) {maxSegmentChars : ℕ} {deltas deltas' : List Text}
    (h : create maxSegmentChars = some a) (hflatten : deltas.flatten = deltas'.flatten)
    (hjoins : Joins deltas) (hjoins' : Joins deltas')
    (hshort : Short maxSegmentChars (sentences deltas.flatten)) :
    texts (a.assemble uuid4 deltas).2 = texts (a.assemble uuid4' deltas').2 ∧
      texts (a.assemble uuid4 deltas).2 = spoken (sentences deltas.flatten) := by
  have htexts := assemble_texts uuid4 h hjoins hshort
  refine ⟨?_, htexts⟩
  rw [hflatten] at hshort
  rw [htexts, assemble_texts uuid4' h hjoins' hshort, hflatten]

theorem assembled_alike_greeting :
    ∃ a, create 20 = some a ∧
      texts (a.assemble (fun _ => 0) ["Hi. You".toList]).2 =
        texts (a.assemble (fun _ => 0) ["H".toList, "i.".toList, " Yo".toList, "u".toList]).2 := by
  have h : create 20 = some ⟨20, [], [], le_rfl⟩ := rfl
  refine ⟨_, h, ?_⟩
  have hjoins : Joins ["Hi. You".toList] := by simp [Joins, Continues, isStop]
  have hjoins' : Joins ["H".toList, "i.".toList, " Yo".toList, "u".toList] := by
    simp [Joins, Continues, isStop, isSpace]
  have hflatten : ["Hi. You".toList].flatten =
      ["H".toList, "i.".toList, " Yo".toList, "u".toList].flatten := rfl
  exact (assembled_alike (fun _ => 0) (fun _ => 0) h hflatten hjoins hjoins' (by decide)).1

/-- **The deltas may matter**: one of them ends in a full stop within a number, or a sentence that
reaches the maximum comes in one delta or in two. -/
theorem assembled_unlike :
    ∃ a, create 20 = some a ∧
      (["3.14".toList].flatten = ["3.".toList, "14".toList].flatten ∧
        texts (a.assemble (fun _ => 0) ["3.14".toList]).2 = ["3.14".toList] ∧
        texts (a.assemble (fun _ => 0) ["3.".toList, "14".toList]).2 =
          ["3.".toList, "14".toList]) ∧
      ["a sentence of 25 letters.".toList].flatten =
          ["a sentence of 25 letter".toList, "s.".toList].flatten ∧
        texts (a.assemble (fun _ => 0) ["a sentence of 25 letters.".toList]).2 =
          ["a sentence of 25 letters.".toList] ∧
        texts (a.assemble (fun _ => 0) ["a sentence of 25 letter".toList, "s.".toList]).2 =
          ["a sentence of 25".toList, "letters.".toList] := by
  refine ⟨⟨20, [], [], le_rfl⟩, rfl, ⟨?_, ?_, ?_⟩, ?_, ?_, ?_⟩
  all_goals decide +kernel

end IncrementalUtteranceAssembler

end Eeveetuber
