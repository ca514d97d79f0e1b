import Eeveetuber.Adapters.Recognizer

/-!
# What a recognizer yields, and what it closes

Each recognition is looked at by itself: `Eeveetuber.Recognizer.Fine` is what holds of it and of
the response it has, wherever it stands, and no step of another recognition bears on it, since a
response answers one request (`Eeveetuber.Recognizer.Fine.frame`).
-/

namespace Eeveetuber

open Foundation Machine OpenAICompatibleSpeechRecognizer

/-- The same response, which has been closed at most. -/
structure TranscriptionResponse.Alike (a b : TranscriptionResponse) : Prop where
  eq : b = { a with closed := b.closed }
  closed : a.closed = true → b.closed = true

namespace Recognizer

/-- The responses to some requests are at most closed. -/
def Kept (own : ℕ → Prop) (responses responses' : List TranscriptionResponse) : Prop :=
  ∀ (r : ℕ) (a : TranscriptionResponse), responses[r]? = some a → own a.call →
    ∃ b, responses'[r]? = some b ∧ a.Alike b

/-- The endpoint has said this transcript, in a response that is complete and not too large. -/
structure Says (config : OpenAICompatibleAsrConfig) (loads : Bytes → Option JsonValue)
    (utteranceId : UUID) (a : TranscriptionResponse) (t : Transcript) : Prop where
  success : a.isSuccess = true
  declared : a.declaresTooMuch config.maxResponseBytes = false
  ended : a.ended = true
  length_le : a.body.length ≤ config.maxResponseBytes
  normalized : normalizeResponse loads config utteranceId a.body = .ok t

/-- The bytes of a piece that has not been taken. -/
def pieceBytes : Option (HttpOutcome (Option Bytes)) → Bytes
  | some (.ok (some chunk)) => chunk
  | _ => []

/-- Whether the end of the body is what has not been taken. -/
def isEnd : Option (HttpOutcome (Option Bytes)) → Bool
  | some (.ok none) => true
  | _ => false

/-- A response of which so much has been read. -/
structure Read (config : OpenAICompatibleAsrConfig) (a : TranscriptionResponse) (body : Bytes)
    (piece : Option (HttpOutcome (Option Bytes))) : Prop where
  success : a.isSuccess = true
  declared : a.declaresTooMuch config.maxResponseBytes = false
  length_le : body.length ≤ config.maxResponseBytes
  body : a.body = body ++ pieceBytes piece
  ended : a.ended = isEnd piece

/-- What holds of a recognition, wherever it stands. -/
def Fine (config : OpenAICompatibleAsrConfig) (loads : Bytes → Option JsonValue)
    (responses : List TranscriptionResponse) (i : ℕ) (c : RecognitionCall) : Prop :=
  match c.phase with
  | .sending (some (.ok r)) => ∃ a, responses[r]? = some a ∧ a.call = i ∧ a.delivered = [] ∧
      a.ended = false
  | .sending _ => True
  | .reading r body piece => ∃ a, responses[r]? = some a ∧ a.call = i ∧ Read config a body piece
  | .closing r result => ∃ a, responses[r]? = some a ∧ a.call = i ∧ a.closed = true ∧
      ∀ t, result = .ok t → Says config loads c.utteranceId a t
  | .finished result => ∀ t, result = .ok t → ∃ (r : ℕ) (a : TranscriptionResponse),
      responses[r]? = some a ∧ a.call = i ∧ a.closed = true ∧ Says config loads c.utteranceId a t

/-- **The invariant**, of each recognition. -/
def Sound (s : Recognizer) : Prop :=
  ∀ i c, s.calls[i]? = some c → Fine s.config s.loads s.responses i c

variable {s t : Recognizer} {i r : ℕ} {c c' : RecognitionCall} {a : TranscriptionResponse}
  {config : OpenAICompatibleAsrConfig} {loads : Bytes → Option JsonValue} {body : Bytes}
  {piece : Option (HttpOutcome (Option Bytes))} {result : Except AsrError Transcript}

/-! ### What another recognition does -/

theorem alike_refl (a : TranscriptionResponse) : a.Alike a := ⟨rfl, id⟩

/-- A recognition is fine as long as its own responses are at most closed. -/
theorem Fine.frame {responses responses' : List TranscriptionResponse}
    (h : Fine config loads responses i c) (hkeep : Kept (· = i) responses responses') :
    Fine config loads responses' i c := by
  unfold Fine at h ⊢
  split at h
  · obtain ⟨a, ha, hcall, hdelivered, hended⟩ := h
    obtain ⟨b, hb, hab⟩ := hkeep _ a ha hcall
    rw [hab.eq] at hb
    exact ⟨_, hb, hcall, hdelivered, hended⟩
  · trivial
  · obtain ⟨a, ha, hcall, hread⟩ := h
    obtain ⟨b, hb, hab⟩ := hkeep _ a ha hcall
    rw [hab.eq] at hb
    exact ⟨_, hb, hcall, hread.success, hread.declared, hread.length_le, hread.body, hread.ended⟩
  · obtain ⟨a, ha, hcall, hclosed, hsaid⟩ := h
    obtain ⟨b, hb, hab⟩ := hkeep _ a ha hcall
    rw [hab.eq] at hb
    refine ⟨_, hb, hcall, hab.closed hclosed, fun t ht => ?_⟩
    obtain ⟨hs, hd, he, hl, hn⟩ := hsaid t ht
    exact ⟨hs, hd, he, hl, hn⟩
  · intro t ht
    obtain ⟨r, a, ha, hcall, hclosed, hs, hd, he, hl, hn⟩ := h t ht
    obtain ⟨b, hb, hab⟩ := hkeep r a ha hcall
    rw [hab.eq] at hb
    exact ⟨r, _, hb, hcall, hab.closed hclosed, hs, hd, he, hl, hn⟩

/-- One recognition goes on, and only its own responses are more than closed. -/
theorem Sound.step (h : s.Sound) (hc : s.calls[i]? = some c) (hcalls : t.calls = s.calls.set i c')
    (hconfig : t.config = s.config) (hloads : t.loads = s.loads)
    (hkeep : Kept (· ≠ i) s.responses t.responses)
    (hfine : Fine s.config s.loads t.responses i c') : t.Sound := by
  intro j d hd
  rw [hconfig, hloads]
  rw [hcalls] at hd
  by_cases hij : j = i
  · subst hij
    rw [List.getElem?_set_self (List.getElem?_eq_some_iff.mp hc).1] at hd
    obtain rfl := Option.some.inj hd
    exact hfine
  · rw [List.getElem?_set_ne (Ne.symm hij)] at hd
    exact (h j d hd).frame fun r a ha hcall => hkeep r a ha fun hi => hij (hcall.symm.trans hi)

theorem kept_refl {own : ℕ → Prop} {responses : List TranscriptionResponse} :
    Kept own responses responses :=
  fun _ a ha _ => ⟨a, ha, alike_refl a⟩

/-- A response is closed. -/
theorem keep_close (m : ℕ) (a : TranscriptionResponse) (ha : s.responses[m]? = some a) :
    ∃ b, (s.closeResponse r).responses[m]? = some b ∧ a.Alike b ∧ (m = r → b.closed = true) := by
  show ∃ b, (s.responses.modify r _)[m]? = some b ∧ _
  rw [List.getElem?_modify, ha]
  refine ⟨_, rfl, ?_⟩
  split_ifs with hr
  · exact ⟨⟨rfl, fun _ => rfl⟩, fun _ => rfl⟩
  · exact ⟨alike_refl a, fun hm => absurd hm.symm hr⟩

/-- Something is done to the response of one recognition. -/
theorem kept_modify {f : TranscriptionResponse → TranscriptionResponse}
    (hr : s.responses[r]? = some a) (hcall : a.call = i) :
    Kept (· ≠ i) s.responses (s.responses.modify r f) := by
  intro m b hb hne
  have hmr : r ≠ m := by
    rintro rfl
    rw [hr] at hb
    exact hne (Option.some.inj hb ▸ hcall)
  exact ⟨b, by rw [List.getElem?_modify_ne f s.responses hmr]; exact hb, alike_refl b⟩

/-! ### What a recognition does -/

/-- It goes where nothing is known of a response. -/
theorem Sound.move (h : s.Sound) (hc : s.calls[i]? = some c) {phase : RecognitionPhase}
    (hfine : Fine s.config s.loads s.responses i { c with phase := phase }) :
    (s.move i c phase).Sound :=
  h.step hc rfl rfl rfl kept_refl hfine

/-- It raises. -/
theorem Sound.raise (h : s.Sound) (hc : s.calls[i]? = some c) (e : AsrError) :
    (s.move i c (.finished (.error e))).Sound :=
  h.move hc fun _ ht => by cases ht

/-- It closes its response. -/
theorem Sound.finalize (h : s.Sound) (hc : s.calls[i]? = some c) (hr : s.responses[r]? = some a)
    (hcall : a.call = i) (hsaid : ∀ t, result = .ok t → Says s.config s.loads c.utteranceId a t) :
    (s.finalize i c r result).Sound := by
  refine h.step hc rfl rfl rfl (fun m b hb _ => ?_) ?_
  · obtain ⟨b', hb', halike, -⟩ := keep_close (r := r) m b hb
    exact ⟨b', hb', halike⟩
  · obtain ⟨b, hb, halike, hclosed⟩ := keep_close (r := r) r a hr
    have hb' := hb
    rw [halike.eq] at hb'
    refine ⟨_, hb', hcall, hclosed rfl, fun t ht => ?_⟩
    obtain ⟨hs, hd, he, hl, hn⟩ := hsaid t ht
    exact ⟨hs, hd, he, hl, hn⟩

theorem Sound.finalize_error (h : s.Sound) (hc : s.calls[i]? = some c)
    (hr : s.responses[r]? = some a) (hcall : a.call = i) (e : AsrError) :
    (s.finalize i c r (.error e)).Sound :=
  h.finalize hc hr hcall fun _ ht => by cases ht

/-- It asks for the next piece. -/
theorem Sound.readOn (h : s.Sound) (hc : s.calls[i]? = some c) (hr : s.responses[r]? = some a)
    (hcall : a.call = i) (hread : Read s.config a body none) : (s.readOn i c r body).Sound := by
  unfold Recognizer.readOn
  split
  · exact h.finalize_error hc hr hcall _
  · exact h.move hc ⟨a, hr, hcall, hread⟩

/-- It takes the response. -/
theorem Sound.received (h : s.Sound) (hc : s.calls[i]? = some c) (hr : s.responses[r]? = some a)
    (hcall : a.call = i) (hnew : a.delivered = []) (hended : a.ended = false) :
    (s.received i c r a).Sound := by
  unfold Recognizer.received
  split
  · exact h.finalize_error hc hr hcall _
  · have h' : Sound { s with active := s.active ++ [r] } := h
    dsimp only
    split
    · exact h'.finalize_error hc hr hcall _
    · split
      · exact h'.finalize_error hc hr hcall _
      · rename_i hsuccess hdeclared
        refine h'.readOn hc hr hcall ⟨by simpa using hsuccess, by simpa using hdeclared,
          Nat.zero_le _, ?_, hended⟩
        rw [TranscriptionResponse.body, hnew]
        rfl

/-- It takes a piece of the body. -/
theorem Sound.handle {p : HttpOutcome (Option Bytes)} (h : s.Sound) (hc : s.calls[i]? = some c)
    (hr : s.responses[r]? = some a) (hcall : a.call = i) (hread : Read s.config a body (some p)) :
    (s.handle i c r body p).Sound := by
  unfold Recognizer.handle
  split
  · rename_i chunk
    split
    · exact h.finalize_error hc hr hcall _
    · rename_i hle
      refine h.readOn hc hr hcall ⟨hread.success, hread.declared, ?_, ?_, hread.ended⟩
      · rw [List.length_append]
        exact Nat.le_of_not_lt hle
      · rw [hread.body]
        exact (List.append_nil _).symm
  · refine h.finalize hc hr hcall fun t ht => ?_
    have hbody : a.body = body := by
      rw [hread.body]
      exact List.append_nil _
    exact ⟨hread.success, hread.declared, hread.ended, hbody ▸ hread.length_le, hbody ▸ ht⟩
  · exact h.finalize_error hc hr hcall _

/-- It finds its cancellation. -/
theorem Sound.abandon (h : s.Sound) (hc : s.calls[i]? = some c)
    (hn : s.abandon i c c.phase = some t) : t.Sound := by
  have hfine := h i c hc
  unfold Fine at hfine
  unfold Recognizer.abandon at hn
  split at hn
  · cases hn
    exact h.raise hc _
  · cases hn
    exact h.raise hc _
  · rename_i hphase
    rw [hphase] at hfine
    obtain ⟨a, hr, hcall, -⟩ := hfine
    cases hn
    exact h.finalize_error hc hr hcall _
  · rename_i hphase
    rw [hphase] at hfine
    obtain ⟨a, hr, hcall, hread⟩ := hfine
    cases hn
    exact h.handle (p := .ok none) hc hr hcall hread
  · rename_i hphase
    rw [hphase] at hfine
    obtain ⟨a, hr, hcall, -⟩ := hfine
    cases hn
    exact h.finalize_error hc hr hcall _
  · cases hn
  · cases hn

/-- Its caller is cancelled. -/
theorem Sound.interrupt (h : s.Sound) (hc : s.calls[i]? = some c)
    (hn : s.interrupt i c c.phase = some t) : t.Sound := by
  have hfine := h i c hc
  unfold Fine at hfine
  cases hphase : c.phase with
  | sending | closing =>
    rw [hphase] at hn
    cases hn
    exact h.raise hc _
  | reading r body piece =>
    rw [hphase] at hn hfine
    obtain ⟨a, hr, hcall, -⟩ := hfine
    cases hn
    exact h.finalize_error hc hr hcall _
  | finished =>
    rw [hphase] at hn
    cases hn

/-! ### Every step -/

theorem fine_begin (s : Recognizer) (utterance : PcmUtterance) (token : Option Bool)
    (responses : List TranscriptionResponse) : Fine config loads responses i
      ⟨utterance.utteranceId, token, s.begin utterance token⟩ := by
  unfold Fine Recognizer.begin
  dsimp only
  split_ifs
  · exact fun _ ht => by cases ht
  · exact fun _ ht => by cases ht
  · exact fun _ ht => by cases ht
  · cases encodeWav utterance with
    | ok bytes => trivial
    | error e => exact fun _ ht => by cases ht

/-- The other recognitions of a step that is not one of a recognition. -/
theorem Sound.frame (h : s.Sound) (hcalls : t.calls = s.calls) (hconfig : t.config = s.config)
    (hloads : t.loads = s.loads) (hkeep : ∀ i, Kept (· = i) s.responses t.responses) : t.Sound := by
  intro i c hc
  rw [hconfig, hloads]
  exact (h i c (hcalls ▸ hc)).frame (hkeep i)

/-- **Every step keeps the invariant.** -/
theorem next_sound {l : Label} (h : s.Sound) (hn : s.next l = some t) : t.Sound := by
  cases l with
  | recognize utterance token =>
    cases hn
    -- the new recognition has done nothing yet
    intro i c hc
    rcases Nat.lt_or_ge i s.calls.length with hi | hi
    · rw [List.getElem?_append_left hi] at hc
      exact h i c hc
    · rw [List.getElem?_append_right hi] at hc
      rw [List.getElem?_singleton] at hc
      split_ifs at hc
      obtain rfl := Option.some.inj hc
      exact fine_begin s utterance token _
  | cancel i =>
    obtain ⟨c, hc, hn⟩ := Option.bind_eq_some_iff.mp hn
    split at hn
    · cases hn
      exact h.step hc rfl rfl rfl kept_refl (h i c hc)
    · cases hn
  | responds i statusCode requestId contentLength =>
    obtain ⟨c, hc, hn⟩ := Option.bind_eq_some_iff.mp hn
    split at hn
    · cases hn
      refine h.step hc rfl rfl rfl (fun r a ha _ => ?_) ?_
      · exact ⟨a, by rw [List.getElem?_append_left (List.getElem?_eq_some_iff.mp ha).1]; exact ha,
          alike_refl a⟩
      · exact ⟨_, List.getElem?_concat_length, rfl, rfl, rfl⟩
    · cases hn
  | hands i chunk =>
    obtain ⟨c, hc, hn⟩ := Option.bind_eq_some_iff.mp hn
    have hfine := h i c hc
    unfold Fine at hfine
    split at hn
    · rename_i r body hphase
      rw [hphase] at hfine
      obtain ⟨a, ha, hcall, hread⟩ := hfine
      cases hn
      -- the chunk is kept by the response as it was handed over, and what is read follows
      have hb : (s.responses.modify r fun response =>
          { response with delivered := response.delivered ++ [chunk] })[r]? =
          some { a with delivered := a.delivered ++ [chunk] } := by
        rw [List.getElem?_modify_eq, ha]
        rfl
      refine h.step hc rfl rfl rfl (kept_modify ha hcall) ⟨_, hb, hcall, hread.success,
        hread.declared, hread.length_le, ?_, hread.ended⟩
      have hbody := hread.body
      simp only [TranscriptionResponse.body, pieceBytes, List.append_nil] at hbody ⊢
      rw [List.flatten_append, hbody]
      simp
    · cases hn
  | ends i =>
    obtain ⟨c, hc, hn⟩ := Option.bind_eq_some_iff.mp hn
    have hfine := h i c hc
    unfold Fine at hfine
    split at hn
    · rename_i r body hphase
      rw [hphase] at hfine
      obtain ⟨a, ha, hcall, hread⟩ := hfine
      cases hn
      have hb : (s.responses.modify r fun response => { response with ended := true })[r]? =
          some { a with ended := true } := by
        rw [List.getElem?_modify_eq, ha]
        rfl
      exact h.step hc rfl rfl rfl (kept_modify ha hcall) ⟨_, hb, hcall, hread.success,
        hread.declared, hread.length_le, hread.body, rfl⟩
    · cases hn
  | fails i failure =>
    obtain ⟨c, hc, hn⟩ := Option.bind_eq_some_iff.mp hn
    have hfine := h i c hc
    unfold Fine at hfine
    split at hn
    · cases hn
      -- a failure before the response says nothing of a body
      refine h.move hc ?_
      cases failure with
      | ok value => exact value.elim
      | _ => trivial
    · rename_i r body hphase
      rw [hphase] at hfine
      obtain ⟨a, ha, hcall, hread⟩ := hfine
      cases hn
      refine h.move hc ⟨a, ha, hcall, hread.success, hread.declared, hread.length_le, ?_, ?_⟩
      · cases failure with
        | ok value => exact value.elim
        | _ => exact hread.body
      · cases failure with
        | ok value => exact value.elim
        | _ => exact hread.ended
    · cases hn
  | resumes i cancelled =>
    obtain ⟨c, hc, hn⟩ := Option.bind_eq_some_iff.mp hn
    have hfine := h i c hc
    unfold Fine at hfine
    split_ifs at hn with hcan htoken
    · exact h.abandon hc hn
    -- a waiting call finds its answer
    · split at hn
      · rename_i r hphase
        rw [hphase] at hfine
        obtain ⟨a, ha, hcall, hnew, hended⟩ := hfine
        rw [ha] at hn
        cases hn
        exact h.received hc ha hcall hnew hended
      · cases hn
        exact h.raise hc _
      · rename_i r body piece hphase
        rw [hphase] at hfine
        obtain ⟨a, ha, hcall, hread⟩ := hfine
        cases hn
        exact h.handle hc ha hcall hread
      · cases hn
  | interrupted i =>
    obtain ⟨c, hc, hn⟩ := Option.bind_eq_some_iff.mp hn
    exact h.interrupt hc hn
  | closes i =>
    obtain ⟨c, hc, hn⟩ := Option.bind_eq_some_iff.mp hn
    have hfine := h i c hc
    unfold Fine at hfine
    split at hn
    · rename_i r transcript hphase
      rw [hphase] at hfine
      obtain ⟨a, ha, hcall, hclosed, hsaid⟩ := hfine
      split_ifs at hn
      · cases hn
        exact h.raise hc _
      · cases hn
        -- the transcript was made of a response that is closed by now
        refine h.move hc fun t ht => ⟨r, a, ha, hcall, hclosed, hsaid t ht⟩
    · cases hn
      exact h.raise hc _
    · cases hn
  | closeRaises i code =>
    obtain ⟨c, hc, hn⟩ := Option.bind_eq_some_iff.mp hn
    split at hn
    · cases hn
      exact h.raise hc _
    · cases hn
  | aclose =>
    simp only [next] at hn
    split_ifs at hn <;> cases hn <;> exact h.frame rfl rfl rfl fun _ => kept_refl
  | acloseCloses j =>
    simp only [next] at hn
    split at hn
    · cases hn
      refine h.frame rfl rfl rfl fun _ m a ha _ => ?_
      obtain ⟨b, hb, halike, -⟩ := keep_close m a ha
      exact ⟨b, hb, halike⟩
    · cases hn
  | acloseFails j | acloseReturns j =>
    simp only [next] at hn
    split at hn
    · cases hn
      exact h.frame rfl rfl rfl fun _ => kept_refl
    · cases hn

/-- **Run**: every recognition is fine. -/
theorem recognitions_sound (h : machine.Reachable s) : s.Sound := by
  refine h.invariant (fun s hs => ?_) fun _ _ _ _ hs _ hn => next_sound hs hn
  obtain ⟨config, loads, rfl⟩ := hs
  intro i c hc
  cases hc

end Recognizer

end Eeveetuber
