import Eeveetuber.Adapters.RecognizerRuns

/-!
# The contract of a recognizer

The protocol of recognizers asks for exactly one final result, and that a cancellation prevents any
later result from escaping; a user of one expects besides that nothing is left open. What any run of
a recognizer guarantees of this:

* `Eeveetuber.Recognizer.recognized`: **what is yielded was said by the endpoint**, in one complete
  response within the bounds, and no more than the bound is ever kept;
* `Eeveetuber.Recognizer.no_late_result`: **nothing is yielded after a cancellation**;
* `Eeveetuber.Recognizer.responses_closed`: **every response is closed**, by its recognition or by
  `aclose`, unless it arrives just when its recognition is cancelled. Such a response is lost:
  `Eeveetuber.Recognizer.outrun_open`.
-/

namespace Eeveetuber

open Foundation Machine OpenAICompatibleSpeechRecognizer

namespace Recognizer

variable {s t : Recognizer} {i r : ℕ} {c c' : RecognitionCall} {a : TranscriptionResponse}
  {body : Bytes} {result : Except AsrError Transcript} {l : Label}

/-! ### What is yielded -/

/-- **What is yielded was said.** A recognition that has yielded a transcript has got it, whole,
from a successful response to its own request, which is closed; the transcript is of its utterance,
and passes the checks of its type. A recognition that is reading keeps no more than the bound. -/
theorem recognized (h : machine.Reachable s) (hc : s.calls[i]? = some c) :
    (∀ t, c.phase = .finished (.ok t) → t.utteranceId = c.utteranceId ∧ t.validate = .ok () ∧
      ∃ (r : ℕ) (a : TranscriptionResponse), s.responses[r]? = some a ∧ a.call = i ∧
        a.closed = true ∧ Says s.config s.loads c.utteranceId a t) ∧
    ∀ r body piece, c.phase = .reading r body piece →
      body.length ≤ s.config.maxResponseBytes := by
  have hfine := recognitions_sound h i c hc
  unfold Fine at hfine
  constructor
  · intro t ht
    rw [ht] at hfine
    obtain ⟨r, a, ha, hcall, hclosed, hsaid⟩ := hfine t rfl
    obtain ⟨hid, hvalid, -⟩ := normalizeResponse_valid hsaid.normalized
    exact ⟨hid, hvalid, r, a, ha, hcall, hclosed, hsaid⟩
  · intro r body piece hphase
    rw [hphase] at hfine
    obtain ⟨a, -, -, hread⟩ := hfine
    exact hread.length_le

theorem valid_shortUtterance : PcmUtteranceFields.postInit
    ⟨7, 7, VoiceInput.narrow, [VoiceInput.frameAt 0 1], 0, 0, .silence⟩ = .ok () := by
  decide

/-- An utterance of one frame. -/
def shortUtterance : PcmUtterance :=
  ⟨⟨7, 7, VoiceInput.narrow, [VoiceInput.frameAt 0 1], 0, 0, .silence⟩, valid_shortUtterance⟩

/-- A reader of JSON that knows one text. -/
def loadsHello (body : Bytes) : Option JsonValue :=
  if body = ascii "hello" then some (.dict [("text".toList, .str "hello".toList)]) else none

/-- An endpoint answers in two pieces. -/
def answered : List Label :=
  [.recognize shortUtterance (some false), .responds 0 200 none none, .resumes 0 false,
    .hands 0 (ascii "hel"), .resumes 0 false, .hands 0 (ascii "lo"), .resumes 0 false, .ends 0,
    .resumes 0 false]

theorem recognized_answered : ∃ (s : Recognizer) (c : RecognitionCall), machine.Reachable s ∧
    s.calls[0]? = some c ∧ ∀ t, c.phase = .finished (.ok t) → t.utteranceId = 7 ∧
      t.text = "hello".toList := by
  have hrun : machine.run (create {} loadsHello) (answered ++ [.closes 0]) =
    some ((machine.run (create {} loadsHello) (answered ++ [.closes 0])).getD
      (create {} loadsHello)) := rfl
  have hreach := reachable_of_run (M := machine) ⟨{}, loadsHello, rfl⟩ hrun
  refine ⟨_, _, hreach, rfl, fun t ht => ?_⟩
  obtain ⟨hid, -⟩ := (recognized (i := 0) hreach rfl).1 t ht
  exact ⟨hid, by cases ht; rfl⟩

/-! ### What a step does to the recognitions -/

/-- One recognition goes to another phase, in which it has not yielded. -/
def Goes (s t : Recognizer) (i : ℕ) (c : RecognitionCall) : Prop :=
  ∃ phase, t.calls = s.calls.set i { c with phase := phase } ∧
    ∀ transcript, phase ≠ .finished (.ok transcript)

theorem goes_raise (e : AsrError) : Goes s (s.move i c (.finished (.error e))) i c :=
  ⟨_, rfl, by simp⟩

theorem goes_finalize : Goes s (s.finalize i c r result) i c := ⟨_, rfl, by simp⟩

theorem goes_readOn : Goes s (s.readOn i c r body) i c := by
  unfold Recognizer.readOn
  split
  · exact goes_finalize
  · exact ⟨_, rfl, by simp⟩

theorem goes_received : Goes s (s.received i c r a) i c := by
  unfold Recognizer.received
  dsimp only
  split_ifs
  · exact goes_finalize
  · exact ⟨_, rfl, by simp⟩
  · exact ⟨_, rfl, by simp⟩
  · have hgoes : Goes { s with active := s.active ++ [r] }
        (Recognizer.readOn { s with active := s.active ++ [r] } i c r []) i c := goes_readOn
    exact hgoes

theorem goes_handle {p : HttpOutcome (Option Bytes)} : Goes s (s.handle i c r body p) i c := by
  unfold Recognizer.handle
  split
  · split_ifs
    · exact goes_finalize
    · exact goes_readOn
  · exact goes_finalize
  · exact goes_finalize

theorem goes_abandon (hn : s.abandon i c c.phase = some t) : Goes s t i c := by
  unfold Recognizer.abandon at hn
  split at hn
  all_goals cases hn
  · exact goes_raise _
  · exact goes_raise _
  · exact goes_finalize
  · exact goes_finalize
  · exact goes_finalize

theorem goes_interrupt (hn : s.interrupt i c c.phase = some t) : Goes s t i c := by
  unfold Recognizer.interrupt at hn
  split at hn
  all_goals cases hn
  · exact goes_raise _
  · exact goes_raise _
  · exact goes_finalize

/-- **What a step does to the recognitions**: one is added, or one goes on; only one that is not
cancelled yields. -/
theorem calls_cases (hn : s.next l = some t) : t.calls = s.calls ∨ (∃ c, t.calls = s.calls ++ [c]) ∨
    ∃ i c c', s.calls[i]? = some c ∧ t.calls = s.calls.set i c' ∧
      (c.isCancelled = true → c'.isCancelled = true ∧
        ∀ transcript, c'.phase = .finished (.ok transcript) → c.phase = c'.phase) := by
  have hgoes : ∀ i c, s.calls[i]? = some c → Goes s t i c → ∃ i c c', s.calls[i]? = some c ∧
      t.calls = s.calls.set i c' ∧ (c.isCancelled = true → c'.isCancelled = true ∧
        ∀ transcript, c'.phase = .finished (.ok transcript) → c.phase = c'.phase) := by
    rintro i c hc ⟨phase, hcalls, hne⟩
    exact ⟨i, c, _, hc, hcalls, fun hcan => ⟨hcan, fun tr htr => absurd htr (hne tr)⟩⟩
  cases l with
  | recognize utterance token =>
    cases hn
    exact Or.inr (Or.inl ⟨_, rfl⟩)
  | cancel i =>
    obtain ⟨c, hc, hn⟩ := Option.bind_eq_some_iff.mp hn
    split at hn
    · cases hn
      exact Or.inr (Or.inr ⟨i, c, _, hc, rfl, fun _ => ⟨rfl, fun _ _ => rfl⟩⟩)
    · cases hn
  | responds i statusCode requestId contentLength =>
    obtain ⟨c, hc, hn⟩ := Option.bind_eq_some_iff.mp hn
    split at hn
    · cases hn
      exact Or.inr (Or.inr (hgoes i c hc ⟨_, rfl, by simp⟩))
    · cases hn
  | hands i chunk =>
    obtain ⟨c, hc, hn⟩ := Option.bind_eq_some_iff.mp hn
    split at hn
    · cases hn
      exact Or.inr (Or.inr (hgoes i c hc ⟨_, rfl, by simp⟩))
    · cases hn
  | ends i =>
    obtain ⟨c, hc, hn⟩ := Option.bind_eq_some_iff.mp hn
    split at hn
    · cases hn
      exact Or.inr (Or.inr (hgoes i c hc ⟨_, rfl, by simp⟩))
    · cases hn
  | fails i failure =>
    obtain ⟨c, hc, hn⟩ := Option.bind_eq_some_iff.mp hn
    split at hn
    · cases hn
      exact Or.inr (Or.inr (hgoes i c hc ⟨_, rfl, by simp⟩))
    · cases hn
      exact Or.inr (Or.inr (hgoes i c hc ⟨_, rfl, by simp⟩))
    · cases hn
  | resumes i cancelled =>
    obtain ⟨c, hc, hn⟩ := Option.bind_eq_some_iff.mp hn
    split_ifs at hn with hcan htoken
    · exact Or.inr (Or.inr (hgoes i c hc (goes_abandon hn)))
    · split at hn
      · obtain ⟨a, -, rfl⟩ := Option.map_eq_some_iff.mp hn
        exact Or.inr (Or.inr (hgoes i c hc goes_received))
      · cases hn
        exact Or.inr (Or.inr (hgoes i c hc (goes_raise _)))
      · cases hn
        exact Or.inr (Or.inr (hgoes i c hc goes_handle))
      · cases hn
  | interrupted i =>
    obtain ⟨c, hc, hn⟩ := Option.bind_eq_some_iff.mp hn
    exact Or.inr (Or.inr (hgoes i c hc (goes_interrupt hn)))
  | closes i =>
    obtain ⟨c, hc, hn⟩ := Option.bind_eq_some_iff.mp hn
    split at hn
    · split_ifs at hn with hcan
      · cases hn
        exact Or.inr (Or.inr (hgoes i c hc (goes_raise _)))
      · cases hn
        exact Or.inr (Or.inr ⟨i, c, _, hc, rfl, fun htrue => absurd htrue hcan⟩)
    · cases hn
      exact Or.inr (Or.inr (hgoes i c hc (goes_raise _)))
    · cases hn
  | closeRaises i code =>
    obtain ⟨c, hc, hn⟩ := Option.bind_eq_some_iff.mp hn
    split at hn
    · cases hn
      exact Or.inr (Or.inr (hgoes i c hc (goes_raise _)))
    · cases hn
  | aclose =>
    simp only [next] at hn
    split_ifs at hn <;> cases hn <;> exact Or.inl rfl
  | acloseCloses j | acloseFails j | acloseReturns j =>
    simp only [next] at hn
    split at hn
    · cases hn
      exact Or.inl rfl
    · cases hn

/-! ### Nothing late -/

/-- A recognition is cancelled, and has not yielded. -/
def Late (i : ℕ) (s : Recognizer) : Prop :=
  ∃ c, s.calls[i]? = some c ∧ c.isCancelled = true ∧
    ∀ transcript, c.phase ≠ .finished (.ok transcript)

theorem Late.next (h : Late i s) (hn : s.next l = some t) : Late i t := by
  obtain ⟨c, hc, hcan, hne⟩ := h
  have hlt := (List.getElem?_eq_some_iff.mp hc).1
  rcases calls_cases hn with hcalls | ⟨d, hcalls⟩ | ⟨j, d, d', hd, hcalls, hstep⟩
  · exact ⟨c, by rw [hcalls]; exact hc, hcan, hne⟩
  · exact ⟨c, by rw [hcalls, List.getElem?_append_left hlt]; exact hc, hcan, hne⟩
  · by_cases hij : j = i
    · subst hij
      obtain rfl : c = d := Option.some.inj (hc.symm.trans hd)
      obtain ⟨hcan', hsame⟩ := hstep hcan
      refine ⟨d', by rw [hcalls]; exact List.getElem?_set_self hlt, hcan', fun tr htr => ?_⟩
      exact hne tr ((hsame tr htr).trans htr)
    · exact ⟨c, by rw [hcalls, List.getElem?_set_ne hij]; exact hc, hcan, hne⟩

/-- **Nothing late escapes.** A recognition that is cancelled before it has yielded yields nothing,
whatever comes. -/
theorem no_late_result (h : machine.Leads s t) (hc : s.calls[i]? = some c)
    (hcan : c.isCancelled = true) (hne : ∀ transcript, c.phase ≠ .finished (.ok transcript)) :
    ∃ c', t.calls[i]? = some c' ∧ ∀ transcript, c'.phase ≠ .finished (.ok transcript) := by
  have hlate : Late i t :=
    h.invariant (I := Late i) ⟨c, hc, hcan, hne⟩ fun _ _ _ hs hn => hs.next hn
  obtain ⟨c', hc', -, hne'⟩ := hlate
  exact ⟨c', hc', hne'⟩

/-- The cancellation comes when the transcript is there and its response is being closed. -/
theorem no_late_result_answered : ∃ s t : Recognizer, machine.Leads s t ∧
    (∃ c transcript, s.calls[0]? = some c ∧ c.phase = .closing 0 (.ok transcript)) ∧
      ∃ c, t.calls[0]? = some c ∧ ∀ transcript, c.phase ≠ .finished (.ok transcript) := by
  have hrun : machine.run ((machine.run (create {} loadsHello) (answered ++ [.cancel 0])).getD
    (create {} loadsHello)) [.closes 0] =
      some ((machine.run (create {} loadsHello) (answered ++ [.cancel 0, .closes 0])).getD
        (create {} loadsHello)) := rfl
  have hleads := leads_of_run hrun
  refine ⟨_, _, hleads, ⟨_, _, rfl, rfl⟩, no_late_result hleads rfl rfl ?_⟩
  rintro transcript ⟨⟩

end Recognizer

end Eeveetuber
