import Eeveetuber.Dialogue.Assembler
import Eeveetuber.Foundation.Strip

/-!
# Sentences

What the sentence boundary of `Eeveetuber.matchBoundary` makes of a whole text, without any
buffer: the text ends a sentence behind each *mark* (`Eeveetuber.isMark`), and
`Eeveetuber.sentences` are the sentences and the rest behind the last mark.
`Eeveetuber.spoken` are their texts, stripped, the blank ones left out.

The search for a boundary in a buffer is read off here once, by
`Eeveetuber.searchBoundary_eq_none` and `Eeveetuber.searchBoundary_eq_some`: a boundary is the
first mark together with white space behind it. It stands in front of whatever comes next as it
stands at the end of the buffer, with one exception: a full stop at the end of the buffer is a
mark there, and it is none in front of anything but white space.
-/

namespace Eeveetuber

open Foundation

/-- The marks that end a sentence only in front of white space. -/
def isStop (c : Char) : Bool := decide (c = '.' ∨ c = '!' ∨ c = '?')

/-- Whether a character ends a sentence in front of another one, or of nothing. -/
def isMark (c : Char) (next : Option Char) : Bool :=
  if isStop c then next.all isSpace
  else decide ((c = '\u3002' ∨ c = '\uff01' ∨ c = '\uff1f') ∨ c = '\n')

/-- A text before the first sentence and the rest of another. -/
def glue (s : Text) : List Text × Text → List Text × Text
  | ([], rest) => ([], s ++ rest)
  | (t :: ts, rest) => ((s ++ t) :: ts, rest)

/-- The sentences of a text, each with its mark, and the rest. -/
def sentences : Text → List Text × Text
  | [] => ([], [])
  | c :: rest =>
    if isMark c rest.head? then ([c] :: (sentences rest).1, (sentences rest).2)
    else glue [c] (sentences rest)

/-- The texts that are spoken of sentences and a rest. -/
def spoken (p : List Text × Text) : List Text :=
  ((p.1 ++ [p.2]).map strip).filter fun t => decide (t ≠ [])

/-- A text no character of which is a mark, in front of another character or of nothing. -/
def Unmarked : Text → Option Char → Prop
  | [], _ => True
  | c :: rest, next => isMark c (rest.head?.or next) = false ∧ Unmarked rest next

variable {s t u rest : Text} {c : Char} {next : Option Char}

/-! ### Gluing -/

@[simp] theorem glue_nil (p : List Text × Text) : glue [] p = p := by
  obtain ⟨_ | ⟨t, ts⟩, rest⟩ := p
  · rfl
  · rfl

theorem glue_glue (p : List Text × Text) : glue s (glue t p) = glue (s ++ t) p := by
  obtain ⟨_ | ⟨u, ts⟩, rest⟩ := p
  · exact congrArg (Prod.mk _) (List.append_assoc s t rest).symm
  · exact congrArg (fun v => (v :: ts, rest)) (List.append_assoc s t u).symm

theorem head?_append_or (s : Text) (u : Text) : (s ++ u).head? = s.head?.or u.head? :=
  List.head?_append

/-- Unmarked text in front of any text belongs to its first sentence. -/
theorem sentences_append (h : Unmarked s u.head?) : sentences (s ++ u) = glue s (sentences u) := by
  induction s with
  | nil => exact (glue_nil _).symm
  | cons c s ih =>
    rw [Unmarked, ← head?_append_or] at h
    rw [List.cons_append, sentences, if_neg (by rw [h.1]; exact Bool.false_ne_true), ih h.2,
      glue_glue]
    rfl

/-- **The first sentence** ends at the first mark. -/
theorem sentences_append_mark (h : Unmarked s (some c)) (hc : isMark c u.head? = true) :
    sentences (s ++ c :: u) = ((s ++ [c]) :: (sentences u).1, (sentences u).2) := by
  rw [sentences_append h, sentences, if_pos hc]
  rfl

theorem sentences_unmarked (h : Unmarked s none) : sentences s = ([], s) := by
  have happend := sentences_append (u := []) h
  rw [List.append_nil] at happend
  rw [happend]
  exact congrArg (Prod.mk _) (List.append_nil s)

/-! ### White space between sentences -/

/-- What is spoken begins with a sentence, unless it is blank. -/
theorem spoken_cons (ts : List Text) (rest : Text) :
    spoken (t :: ts, rest) = (if strip t = [] then [] else [strip t]) ++ spoken (ts, rest) := by
  rw [spoken, List.cons_append, List.map_cons, List.filter_cons]
  split_ifs <;> simp_all [spoken]

theorem spoken_glue_of_isSpace (h : isSpace c = true) (p : List Text × Text) :
    spoken (glue [c] p) = spoken p := by
  obtain ⟨_ | ⟨t, ts⟩, rest⟩ := p
  · rw [glue, spoken, spoken, List.nil_append, List.nil_append, List.map_singleton,
      List.map_singleton, List.singleton_append, strip_cons_of_isSpace h]
  · rw [glue, spoken_cons, spoken_cons, List.singleton_append, strip_cons_of_isSpace h]

/-- **White space in front** is not spoken. -/
theorem spoken_sentences_of_isBlank (h : isBlank s = true) :
    spoken (sentences (s ++ u)) = spoken (sentences u) := by
  induction s with
  | nil => rfl
  | cons c s ih =>
    rw [isBlank, List.all_cons, Bool.and_eq_true] at h
    rw [List.cons_append, sentences]
    split_ifs with hmark
    · have hstrip : strip [c] = [] := by rw [strip_cons_of_isSpace h.1]; rfl
      rw [spoken_cons, if_pos hstrip, List.nil_append]
      exact ih h.2
    · rw [spoken_glue_of_isSpace h.1]
      exact ih h.2

/-! ### The search for a boundary -/

theorem takeWhile_isSpace_ne_nil : rest.takeWhile isSpace ≠ [] ↔ rest.head?.any isSpace = true := by
  rcases rest with _ | ⟨d, rest⟩
  · simp
  · rcases hd : isSpace d with _ | _ <;> simp [hd]

/-- A boundary begins with a mark and goes on with white space. -/
theorem matchBoundary_eq_some {n : ℕ} (h : matchBoundary (c :: rest) = some n) :
    isMark c rest.head? = true ∧
      ∃ spaces u, rest = spaces ++ u ∧ isBlank spaces = true ∧ n = 1 + spaces.length := by
  rw [matchBoundary] at h
  have hblank (p : Char → Bool) (hp : ∀ d, p d = true → isSpace d = true) :
      isBlank (rest.takeWhile p) = true := by
    rw [isBlank, List.all_eq_true]
    exact fun d hd => hp d (List.mem_takeWhile_imp hd)
  dsimp only at h
  split_ifs at h with hstop hempty hwide hfeed
  · obtain rfl := Option.some.inj h
    refine ⟨?_, rest.takeWhile isSpace, rest.dropWhile isSpace,
      List.takeWhile_append_dropWhile.symm, hblank isSpace fun _ => id, rfl⟩
    rw [isMark, if_pos (by simpa [isStop] using hstop)]
    rcases rest with _ | ⟨d, rest⟩
    · rfl
    · rcases hempty with hspaces | hnil
      · exact takeWhile_isSpace_ne_nil.mp hspaces
      · cases hnil
  · obtain rfl := Option.some.inj h
    refine ⟨?_, [], rest, rfl, rfl, rfl⟩
    rw [isMark, if_neg (by simpa [isStop] using hstop)]
    exact decide_eq_true (.inl hwide)
  · obtain rfl := Option.some.inj h
    refine ⟨?_, rest.takeWhile (· = '\n'), rest.dropWhile (· = '\n'),
      List.takeWhile_append_dropWhile.symm, hblank _ fun d hd => ?_, rfl⟩
    · rw [isMark, if_neg (by simpa [isStop] using hstop)]
      exact decide_eq_true (.inr hfeed)
    · obtain rfl := of_decide_eq_true hd
      rfl

theorem matchBoundary_eq_none (h : matchBoundary (c :: rest) = none) :
    isMark c rest.head? = false := by
  rw [matchBoundary] at h
  rw [isMark]
  dsimp only at h
  split_ifs at h with hstop hempty hwide hfeed
  · rw [if_pos (by simpa [isStop] using hstop)]
    rw [not_or, takeWhile_isSpace_ne_nil] at hempty
    rcases rest with _ | ⟨d, rest⟩
    · exact absurd rfl hempty.2
    · exact Bool.eq_false_iff.mpr hempty.1
  · rw [if_neg (by simpa [isStop] using hstop)]
    exact decide_eq_false (not_or.mpr ⟨hwide, hfeed⟩)

/-- **No boundary is found** where nothing is a mark. -/
theorem searchBoundary_eq_none (h : searchBoundary t = none) : Unmarked t none := by
  induction t with
  | nil => trivial
  | cons c rest ih =>
    rw [searchBoundary] at h
    rcases hmatch : matchBoundary (c :: rest) with _ | n
    · rw [hmatch] at h
      refine ⟨?_, ih (Option.map_eq_none_iff.mp h)⟩
      rw [Option.or_none]
      exact matchBoundary_eq_none hmatch
    · rw [hmatch] at h
      cases h

/-- **A boundary that is found** is the first mark, with white space behind it. -/
theorem searchBoundary_eq_some {start stop : ℕ} (h : searchBoundary t = some (start, stop)) :
    ∃ s c spaces u, t = s ++ c :: (spaces ++ u) ∧ s.length = start ∧
      stop = start + 1 + spaces.length ∧ isBlank spaces = true ∧ Unmarked s (some c) ∧
      isMark c (spaces ++ u).head? = true := by
  induction t generalizing start stop with
  | nil => cases h
  | cons c rest ih =>
    rw [searchBoundary] at h
    rcases hmatch : matchBoundary (c :: rest) with _ | n
    · rw [hmatch] at h
      obtain ⟨⟨start', stop'⟩, hsearch, hb⟩ := Option.map_eq_some_iff.mp h
      obtain ⟨rfl, rfl⟩ := Prod.ext_iff.mp hb
      obtain ⟨s, d, spaces, u, rfl, rfl, rfl, hblank, hunmarked, hmark⟩ := ih hsearch
      refine ⟨c :: s, d, spaces, u, rfl, rfl, ?_, hblank, ⟨?_, hunmarked⟩, hmark⟩
      · show s.length + 1 + spaces.length + 1 = s.length + 1 + 1 + spaces.length
        omega
      · have hnone := matchBoundary_eq_none hmatch
        rw [head?_append_or] at hnone
        exact hnone
    · rw [hmatch] at h
      obtain ⟨rfl, rfl⟩ := Prod.ext_iff.mp (Option.some.inj h)
      obtain ⟨hmark, spaces, u, rfl, hblank, rfl⟩ := matchBoundary_eq_some hmatch
      exact ⟨[], c, spaces, u, rfl, rfl, by rw [Nat.zero_add], hblank, trivial, hmark⟩

end Eeveetuber
