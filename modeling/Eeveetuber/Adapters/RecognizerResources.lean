import Eeveetuber.Adapters.RecognizerContract

/-!
# The responses of a recognizer

A response that is open has to be closed by someone. `Eeveetuber.Recognizer.Held` says of each open
response that the recognition which asked for it has it, and will close it in its `finally` block;
`Eeveetuber.Recognizer.Tracked` that a response which is being read is one that `aclose` closes. The
first fails in one case: a response that has arrived, but has not been taken when its recognition
finds its cancellation, is dropped (`Eeveetuber.Recognizer.Punctual`).
-/

namespace Eeveetuber

open Foundation Machine OpenAICompatibleSpeechRecognizer

/-- Whether a recognition has a response that is to be closed. -/
def RecognitionPhase.Holds (r : ℕ) : RecognitionPhase → Prop
  | .sending (some (.ok m)) => m = r
  | .reading m _ _ => m = r
  | _ => False

/-- Whether a recognition is reading a response. -/
def RecognitionPhase.Reads (r : ℕ) (p : RecognitionPhase) : Prop :=
  ∃ body piece, p = .reading r body piece

namespace Recognizer

/-- **The condition**: no cancellation outruns a response that has arrived. -/
def Punctual (s : Recognizer) : Label → Prop
  | .resumes i true | .interrupted i =>
    ∀ c r, s.calls[i]? = some c → c.phase ≠ .sending (some (.ok r))
  | _ => True

/-- Who asked for an open response has it. -/
def Held (s : Recognizer) : Prop :=
  ∀ (r : ℕ) (a : TranscriptionResponse), s.responses[r]? = some a → a.closed = false →
    ∃ c, s.calls[a.call]? = some c ∧ c.phase.Holds r

/-- A response is one that `aclose` would close, has closed, is to close, or has failed to. -/
inductive Safe (s : Recognizer) (r : ℕ) : Prop
  | active (hopen : s.closed = false) (hmem : r ∈ s.active)
  | closed (a : TranscriptionResponse) (ha : s.responses[r]? = some a) (hclosed : a.closed = true)
  | closing (remaining : List ℕ) (hclosing : .closing remaining ∈ s.closings) (hmem : r ∈ remaining)
  | failed (hfailed : .failed ∈ s.closings)

/-- A response that is being read is safe. -/
def Tracked (s : Recognizer) : Prop :=
  ∀ (i : ℕ) (c : RecognitionCall) (r : ℕ), s.calls[i]? = some c → c.phase.Reads r → s.Safe r

variable {s t : Recognizer} {i j r m : ℕ} {c c' : RecognitionCall} {a : TranscriptionResponse}
  {body : Bytes} {result : Except AsrError Transcript} {l : Label} {phase : RecognitionPhase}

theorem holds_unique {p : RecognitionPhase} (h : p.Holds r) (h' : p.Holds m) : r = m := by
  unfold RecognitionPhase.Holds at h h'
  split at h
  · exact h.symm.trans h'
  · exact h.symm.trans h'
  · cases h

/-! ### Who has a response -/

/-- One recognition goes on: the response that it had it still has, or has closed. -/
theorem Held.step (h : s.Held) (hc : s.calls[i]? = some c) (hcalls : t.calls = s.calls.set i c')
    (hopen : ∀ (m : ℕ) (b : TranscriptionResponse), t.responses[m]? = some b → b.closed = false →
      ∃ a : TranscriptionResponse, s.responses[m]? = some a ∧ a.closed = false ∧ a.call = b.call)
    (hown : ∀ m, c.phase.Holds m → c'.phase.Holds m ∨
      ∀ b : TranscriptionResponse, t.responses[m]? = some b → b.closed = true) : t.Held := by
  intro m b hb hclosed
  obtain ⟨a, ha, haopen, hcall⟩ := hopen m b hb hclosed
  obtain ⟨d, hd, hholds⟩ := h m a ha haopen
  rw [hcalls, ← hcall]
  by_cases hi : a.call = i
  · rw [hi] at hd ⊢
    obtain rfl : c = d := Option.some.inj (hc.symm.trans hd)
    refine ⟨c', List.getElem?_set_self (List.getElem?_eq_some_iff.mp hc).1, ?_⟩
    refine (hown m hholds).resolve_right fun hall => ?_
    rw [hall b hb] at hclosed
    cases hclosed
  · exact ⟨d, by rw [List.getElem?_set_ne (Ne.symm hi)]; exact hd, hholds⟩

theorem open_refl (m : ℕ) (b : TranscriptionResponse) (hb : s.responses[m]? = some b)
    (hopen : b.closed = false) : ∃ a : TranscriptionResponse, s.responses[m]? = some a ∧
      a.closed = false ∧ a.call = b.call :=
  ⟨b, hb, hopen, rfl⟩

/-- Something is done to a response that does not open it. -/
theorem open_modify {f : TranscriptionResponse → TranscriptionResponse}
    (hf : ∀ a, (f a).call = a.call ∧ ((f a).closed = false → a.closed = false)) (m : ℕ)
    (b : TranscriptionResponse) (hb : (s.responses.modify r f)[m]? = some b)
    (hopen : b.closed = false) :
    ∃ a : TranscriptionResponse, s.responses[m]? = some a ∧ a.closed = false ∧
      a.call = b.call := by
  rw [List.getElem?_modify] at hb
  obtain ⟨a, ha, rfl⟩ := Option.map_eq_some_iff.mp hb
  refine ⟨a, ha, ?_⟩
  split_ifs at hopen ⊢
  · exact ⟨(hf a).2 hopen, (hf a).1.symm⟩
  · exact ⟨hopen, rfl⟩

theorem open_close (m : ℕ) (b : TranscriptionResponse)
    (hb : (s.closeResponse r).responses[m]? = some b) (hopen : b.closed = false) :
    ∃ a : TranscriptionResponse, s.responses[m]? = some a ∧ a.closed = false ∧
      a.call = b.call :=
  open_modify (f := fun a => { a with closed := true }) (fun a => ⟨rfl, fun hf => by cases hf⟩) m b
    hb hopen

/-- A response that is closed is. -/
theorem closed_closeResponse (b : TranscriptionResponse)
    (hb : (s.closeResponse r).responses[r]? = some b) : b.closed = true := by
  have hb : (s.responses.modify r _)[r]? = some b := hb
  rw [List.getElem?_modify_eq] at hb
  obtain ⟨a, -, rfl⟩ := Option.map_eq_some_iff.mp hb
  rfl

/-- A recognition that has no response goes on. -/
theorem Held.move (h : s.Held) (hc : s.calls[i]? = some c) (hnone : ∀ m, ¬c.phase.Holds m) :
    (s.move i c phase).Held :=
  h.step hc rfl open_refl fun m hm => absurd hm (hnone m)

/-- A recognition closes its response. -/
theorem Held.finalize (h : s.Held) (hc : s.calls[i]? = some c) (hholds : c.phase.Holds r) :
    (s.finalize i c r result).Held := by
  refine h.step hc rfl open_close fun m hm => Or.inr ?_
  obtain rfl := holds_unique hholds hm
  exact closed_closeResponse

theorem Held.readOn (h : s.Held) (hc : s.calls[i]? = some c) (hholds : c.phase.Holds r) :
    (s.readOn i c r body).Held := by
  unfold Recognizer.readOn
  split
  · exact h.finalize hc hholds
  · refine h.step hc rfl open_refl fun m hm => Or.inl ?_
    exact holds_unique hholds hm

theorem Held.received (h : s.Held) (hc : s.calls[i]? = some c) (hholds : c.phase.Holds r) :
    (s.received i c r a).Held := by
  unfold Recognizer.received
  have h' : Held { s with active := s.active ++ [r] } := h
  dsimp only
  split_ifs
  · exact h.finalize hc hholds
  · exact h'.finalize hc hholds
  · exact h'.finalize hc hholds
  · exact h'.readOn hc hholds

theorem Held.handle {p : HttpOutcome (Option Bytes)} (h : s.Held) (hc : s.calls[i]? = some c)
    (hholds : c.phase.Holds r) : (s.handle i c r body p).Held := by
  unfold Recognizer.handle
  split
  · split_ifs
    · exact h.finalize hc hholds
    · exact h.readOn hc hholds
  · exact h.finalize hc hholds
  · exact h.finalize hc hholds

/-- **Every punctual step leaves no response without its recognition.** -/
theorem next_held (h : s.Held) (hok : s.Punctual l) (hn : s.next l = some t) : t.Held := by
  cases l with
  | recognize utterance token =>
    cases hn
    intro m b hb hopen
    -- whoever has the response is still where it was
    obtain ⟨d, hd, hholds⟩ := h m b hb hopen
    exact ⟨d, by rw [List.getElem?_append_left (List.getElem?_eq_some_iff.mp hd).1]; exact hd,
      hholds⟩
  | cancel i =>
    obtain ⟨c, hc, hn⟩ := Option.bind_eq_some_iff.mp hn
    split at hn
    · cases hn
      exact h.step hc rfl open_refl fun m hm => Or.inl hm
    · cases hn
  | responds i statusCode requestId contentLength =>
    obtain ⟨c, hc, hn⟩ := Option.bind_eq_some_iff.mp hn
    split at hn
    · rename_i hphase
      cases hn
      -- the new response is handed to the call that asked for it
      have hmove : (s.move i c (.sending (some (.ok s.responses.length)))).Held := by
        refine h.move hc fun m hm => ?_
        rw [hphase] at hm
        exact hm
      intro m b hb hopen
      rcases Nat.lt_or_ge m s.responses.length with hm | hm
      · rw [List.getElem?_append_left hm] at hb
        exact hmove m b hb hopen
      · rw [List.getElem?_append_right hm, List.getElem?_singleton] at hb
        split_ifs at hb with hzero
        obtain rfl := Option.some.inj hb
        refine ⟨_, List.getElem?_set_self (List.getElem?_eq_some_iff.mp hc).1, ?_⟩
        show s.responses.length = m
        omega
    · cases hn
  | hands i chunk =>
    obtain ⟨c, hc, hn⟩ := Option.bind_eq_some_iff.mp hn
    split at hn
    · rename_i r body hphase
      cases hn
      refine h.step hc rfl (open_modify fun a => ⟨rfl, id⟩) fun m hm => Or.inl ?_
      rw [hphase] at hm
      exact hm
    · cases hn
  | ends i =>
    obtain ⟨c, hc, hn⟩ := Option.bind_eq_some_iff.mp hn
    split at hn
    · rename_i r body hphase
      cases hn
      refine h.step hc rfl (open_modify fun a => ⟨rfl, id⟩) fun m hm => Or.inl ?_
      rw [hphase] at hm
      exact hm
    · cases hn
  | fails i failure =>
    obtain ⟨c, hc, hn⟩ := Option.bind_eq_some_iff.mp hn
    split at hn
    · rename_i hphase
      cases hn
      refine h.move hc fun m hm => ?_
      rw [hphase] at hm
      exact hm
    · rename_i r body hphase
      cases hn
      refine h.step hc rfl open_refl fun m hm => Or.inl ?_
      rw [hphase] at hm
      exact hm
    · cases hn
  | resumes i cancelled =>
    obtain ⟨c, hc, hn⟩ := Option.bind_eq_some_iff.mp hn
    split_ifs at hn with hcan htoken
    · rw [hcan] at hok
      have hpunctual := hok c
      unfold Recognizer.abandon at hn
      split at hn
      all_goals cases hn
      -- a call that has sent gives up: in a punctual step no response has arrived
      · rename_i hphase
        refine h.move hc fun m hm => ?_
        rw [hphase] at hm
        exact hm
      · rename_i answer hphase
        refine h.move hc fun m hm => ?_
        cases answer with
        | ok value => exact hpunctual value hc hphase
        | _ => rw [hphase] at hm; exact hm
      -- a call that reads closes its response in its `finally` block
      · rename_i hphase
        exact h.finalize hc (by rw [hphase]; rfl)
      · rename_i hphase
        exact h.finalize hc (by rw [hphase]; rfl)
      · rename_i hphase
        exact h.finalize hc (by rw [hphase]; rfl)
    · split at hn
      · rename_i r hphase
        obtain ⟨a, -, rfl⟩ := Option.map_eq_some_iff.mp hn
        exact h.received hc (by rw [hphase]; rfl)
      · rename_i failure hne hphase
        cases hn
        -- a failure brings no response
        refine h.move hc fun m hm => ?_
        rw [hphase] at hm
        cases failure with
        | ok value => exact hne value rfl
        | _ => exact hm
      · rename_i r body piece hphase
        cases hn
        exact h.handle hc (by rw [hphase]; rfl)
      · cases hn
  | interrupted i =>
    obtain ⟨c, hc, hn⟩ := Option.bind_eq_some_iff.mp hn
    have hpunctual := hok c
    unfold Recognizer.interrupt at hn
    split at hn
    all_goals cases hn
    · rename_i answer hphase
      refine h.move hc fun m hm => ?_
      rw [hphase] at hm
      cases answer with
      | none => exact hm
      | some answer =>
        cases answer with
        | ok value => exact hpunctual value hc hphase
        | _ => exact hm
    · rename_i hphase
      refine h.move hc fun m hm => ?_
      rw [hphase] at hm
      exact hm
    · rename_i hphase
      exact h.finalize hc (by rw [hphase]; rfl)
  | closes i =>
    obtain ⟨c, hc, hn⟩ := Option.bind_eq_some_iff.mp hn
    split at hn
    · rename_i hphase
      split_ifs at hn <;> cases hn <;> refine h.move hc fun m hm => ?_ <;> rw [hphase] at hm <;>
        exact hm
    · rename_i hphase
      cases hn
      refine h.move hc fun m hm => ?_
      rw [hphase] at hm
      exact hm
    · cases hn
  | closeRaises i code =>
    obtain ⟨c, hc, hn⟩ := Option.bind_eq_some_iff.mp hn
    split at hn
    · rename_i hphase
      cases hn
      refine h.move hc fun m hm => ?_
      rw [hphase] at hm
      exact hm
    · cases hn
  | aclose =>
    simp only [next] at hn
    split_ifs at hn <;> cases hn <;> exact h
  | acloseCloses j =>
    simp only [next] at hn
    split at hn
    · cases hn
      -- the response that is closed is not open any more, and the others have their recognition
      intro m b hb hopen
      obtain ⟨a, ha, haopen, hcall⟩ := open_close m b hb hopen
      obtain ⟨d, hd, hholds⟩ := h m a ha haopen
      exact ⟨d, hcall ▸ hd, hholds⟩
    · cases hn
  | acloseFails j | acloseReturns j =>
    simp only [next] at hn
    split at hn
    · cases hn
      exact h
    · cases hn

/-! ### Who closes a response -/

/-- What is closed stays closed. -/
def StaysClosed (responses responses' : List TranscriptionResponse) : Prop :=
  ∀ (r : ℕ) (a : TranscriptionResponse), responses[r]? = some a → a.closed = true →
    ∃ b, responses'[r]? = some b ∧ b.closed = true

theorem staysClosed_refl {responses : List TranscriptionResponse} :
    StaysClosed responses responses :=
  fun _ a ha hclosed => ⟨a, ha, hclosed⟩

theorem staysClosed_modify {f : TranscriptionResponse → TranscriptionResponse}
    (hf : ∀ a, a.closed = true → (f a).closed = true) :
    StaysClosed s.responses (s.responses.modify r f) := by
  intro m a ha hclosed
  rw [List.getElem?_modify, ha]
  refine ⟨_, rfl, ?_⟩
  split_ifs
  · exact hf a hclosed
  · exact hclosed

/-- A step that only adds to what is active and to what is closed. -/
theorem Safe.mono (h : s.Safe m) (hclosed : t.closed = s.closed)
    (hactive : m ∈ s.active → m ∈ t.active) (hstays : StaysClosed s.responses t.responses)
    (hclosings : t.closings = s.closings) : t.Safe m := by
  cases h with
  | active hopen hmem => exact .active (hclosed.trans hopen) (hactive hmem)
  | closed a ha haclosed =>
    obtain ⟨b, hb, hbclosed⟩ := hstays m a ha haclosed
    exact .closed b hb hbclosed
  | closing remaining hclosing hmem => exact .closing remaining (hclosings ▸ hclosing) hmem
  | failed hfailed => exact .failed (hclosings ▸ hfailed)

theorem not_reads_error {e : Except AsrError Transcript} :
    ¬(RecognitionPhase.finished e).Reads r := by
  rintro ⟨body, piece, h⟩
  cases h

theorem not_reads_closing {e : Except AsrError Transcript} :
    ¬(RecognitionPhase.closing m e).Reads r := by
  rintro ⟨body, piece, h⟩
  cases h

/-- A recognition reads the response to its own request. -/
theorem Sound.reads (h : s.Sound) (hc : s.calls[i]? = some c) (hreads : c.phase.Reads r) :
    ∃ a, s.responses[r]? = some a ∧ a.call = i := by
  have hfine := h i c hc
  obtain ⟨body, piece, hphase⟩ := hreads
  unfold Fine at hfine
  rw [hphase] at hfine
  obtain ⟨a, ha, hcall, -⟩ := hfine
  exact ⟨a, ha, hcall⟩

/-- Two recognitions do not read one response. -/
theorem Sound.reads_ne (h : s.Sound) (hr : s.responses[r]? = some a) (hcall : a.call = i)
    (hij : j ≠ i) (hc : s.calls[j]? = some c) (hreads : c.phase.Reads m) : m ≠ r := by
  rintro rfl
  obtain ⟨b, hb, hbcall⟩ := h.reads hc hreads
  obtain rfl : a = b := Option.some.inj (hr.symm.trans hb)
  exact hij (hbcall.symm.trans hcall)

/-- One recognition goes on. -/
theorem Tracked.step (h : s.Tracked) (hc : s.calls[i]? = some c)
    (hcalls : t.calls = s.calls.set i c')
    (hothers : ∀ j d m, j ≠ i → s.calls[j]? = some d → d.phase.Reads m → s.Safe m → t.Safe m)
    (hown : ∀ m, c'.phase.Reads m → t.Safe m) : t.Tracked := by
  intro j d m hd hreads
  rw [hcalls] at hd
  by_cases hij : j = i
  · subst hij
    rw [List.getElem?_set_self (List.getElem?_eq_some_iff.mp hc).1] at hd
    obtain rfl := Option.some.inj hd
    exact hown m hreads
  · rw [List.getElem?_set_ne (Ne.symm hij)] at hd
    exact hothers j d m hij hd hreads (h j d m hd hreads)

/-- It goes on without its response, or with the one that it was reading. -/
theorem Tracked.move (h : s.Tracked) (hc : s.calls[i]? = some c)
    (hown : ∀ m, phase.Reads m → c.phase.Reads m ∨ s.Safe m) : (s.move i c phase).Tracked := by
  have hsame : ∀ m, s.Safe m → (s.move i c phase).Safe m := fun m hm =>
    hm.mono rfl id staysClosed_refl rfl
  refine h.step hc rfl (fun j d m _ _ _ hm => hsame m hm) fun m hm => hsame m ?_
  exact (hown m hm).elim (h i c m hc) id

theorem Tracked.finalize (h : s.Tracked) (hsound : s.Sound) (hc : s.calls[i]? = some c)
    (hr : s.responses[r]? = some a) (hcall : a.call = i) : (s.finalize i c r result).Tracked := by
  refine h.step hc rfl (fun j d m hij hd hreads hm => ?_) fun m hm => absurd hm not_reads_closing
  have hmr := hsound.reads_ne hr hcall hij hd hreads
  exact hm.mono rfl (fun hmem => (List.mem_erase_of_ne hmr).mpr hmem)
    (staysClosed_modify fun _ _ => rfl) rfl

theorem Tracked.readOn (h : s.Tracked) (hsound : s.Sound) (hc : s.calls[i]? = some c)
    (hr : s.responses[r]? = some a) (hcall : a.call = i) (hsafe : s.Safe r) :
    (s.readOn i c r body).Tracked := by
  unfold Recognizer.readOn
  split
  · exact h.finalize hsound hc hr hcall
  · refine h.move hc ?_
    rintro m ⟨body, piece, hphase⟩
    cases hphase
    exact Or.inr hsafe

theorem Tracked.received (h : s.Tracked) (hsound : s.Sound) (hc : s.calls[i]? = some c)
    (hr : s.responses[r]? = some a) (hcall : a.call = i) : (s.received i c r a).Tracked := by
  unfold Recognizer.received
  split
  · exact h.finalize hsound hc hr hcall
  · rename_i hclosed
    have h' : Tracked { s with active := s.active ++ [r] } := fun j d m hd hreads =>
      (h j d m hd hreads).mono rfl (List.mem_append_left [r]) staysClosed_refl rfl
    have hsound' : Sound { s with active := s.active ++ [r] } := hsound
    dsimp only
    split_ifs
    · exact h'.finalize hsound' hc hr hcall
    · exact h'.finalize hsound' hc hr hcall
    · exact h'.readOn hsound' hc hr hcall (.active (by simpa using hclosed) (by simp))

theorem Tracked.handle {p : HttpOutcome (Option Bytes)} (h : s.Tracked) (hsound : s.Sound)
    (hc : s.calls[i]? = some c) (hreads : c.phase.Reads r) : (s.handle i c r body p).Tracked := by
  obtain ⟨a, hr, hcall⟩ := hsound.reads hc hreads
  unfold Recognizer.handle
  split
  · split_ifs
    · exact h.finalize hsound hc hr hcall
    · exact h.readOn hsound hc hr hcall (h i c r hc hreads)
  · exact h.finalize hsound hc hr hcall
  · exact h.finalize hsound hc hr hcall

/-- A call of `aclose` goes on: what it was to close is closed, or left to do, or it has failed. -/
theorem Tracked.closings (h : s.Tracked) (hcalls : t.calls = s.calls)
    (hsafe : ∀ m a, s.responses[m]? = some a → s.Safe m → t.Safe m) (hsound : s.Sound) :
    t.Tracked := by
  intro i c m hc hreads
  rw [hcalls] at hc
  obtain ⟨a, ha, -⟩ := hsound.reads hc hreads
  exact hsafe m a ha (h i c m hc hreads)

/-- One call of `aclose` is at another place. -/
theorem closing_mem_set {x y z : ClosePhase} (hy : s.closings[j]? = some y)
    (hmem : z ∈ s.closings) (hne : z ≠ y) : z ∈ s.closings.set j x := by
  obtain ⟨k, hk⟩ := List.mem_iff_getElem?.mp hmem
  refine List.mem_iff_getElem?.mpr ⟨k, ?_⟩
  rw [List.getElem?_set_ne, hk]
  rintro rfl
  exact hne (Option.some.inj (hk.symm.trans hy))

/-- **Every step leaves no response that is being read out of the reach of `aclose`.** -/
theorem next_tracked (h : s.Tracked) (hsound : s.Sound) (hn : s.next l = some t) : t.Tracked := by
  cases l with
  | recognize utterance token =>
    cases hn
    intro i c m hc hreads
    have hmono : s.Safe m → Safe { s with calls := s.calls ++
        [⟨utterance.utteranceId, token, s.begin utterance token⟩] } m := fun hm =>
      hm.mono rfl id staysClosed_refl rfl
    rcases Nat.lt_or_ge i s.calls.length with hi | hi
    · rw [List.getElem?_append_left hi] at hc
      exact hmono (h i c m hc hreads)
    · rw [List.getElem?_append_right hi, List.getElem?_singleton] at hc
      split_ifs at hc
      obtain rfl := Option.some.inj hc
      obtain ⟨body, piece, hphase⟩ := hreads
      have hbegin : s.begin utterance token = .reading m body piece := hphase
      unfold Recognizer.begin at hbegin
      split_ifs at hbegin
      split at hbegin <;> cases hbegin
  | cancel i =>
    obtain ⟨c, hc, hn⟩ := Option.bind_eq_some_iff.mp hn
    split at hn
    · cases hn
      refine h.step hc rfl (fun _ _ m _ _ _ hm => hm.mono rfl id staysClosed_refl rfl) fun m hm =>
        ?_
      exact (h i c m hc hm).mono rfl id staysClosed_refl rfl
    · cases hn
  | responds i statusCode requestId contentLength =>
    obtain ⟨c, hc, hn⟩ := Option.bind_eq_some_iff.mp hn
    split at hn
    · cases hn
      refine h.step hc rfl (fun _ _ m _ _ _ hm => hm.mono rfl id (fun r a ha hclosed => ?_) rfl) ?_
      · exact ⟨a, by rw [List.getElem?_append_left (List.getElem?_eq_some_iff.mp ha).1]; exact ha,
          hclosed⟩
      · rintro m ⟨body, piece, hphase⟩
        cases hphase
    · cases hn
  | hands i chunk =>
    obtain ⟨c, hc, hn⟩ := Option.bind_eq_some_iff.mp hn
    split at hn
    · rename_i r body hphase
      cases hn
      have hstays := staysClosed_modify (s := s) (r := r) (f := fun response =>
        { response with delivered := response.delivered ++ [chunk] }) fun _ hclosed => hclosed
      refine h.step hc rfl (fun _ _ m _ _ _ hm => hm.mono rfl id hstays rfl) ?_
      rintro m ⟨body', piece, hphase'⟩
      cases hphase'
      exact (h i c r hc ⟨body, none, hphase⟩).mono rfl id hstays rfl
    · cases hn
  | ends i =>
    obtain ⟨c, hc, hn⟩ := Option.bind_eq_some_iff.mp hn
    split at hn
    · rename_i r body hphase
      cases hn
      have hstays := staysClosed_modify (s := s) (r := r) (f := fun response =>
        { response with ended := true }) fun _ hclosed => hclosed
      refine h.step hc rfl (fun _ _ m _ _ _ hm => hm.mono rfl id hstays rfl) ?_
      rintro m ⟨body', piece, hphase'⟩
      cases hphase'
      exact (h i c r hc ⟨body, none, hphase⟩).mono rfl id hstays rfl
    · cases hn
  | fails i failure =>
    obtain ⟨c, hc, hn⟩ := Option.bind_eq_some_iff.mp hn
    split at hn
    · cases hn
      refine h.move hc ?_
      rintro m ⟨body, piece, hphase⟩
      cases hphase
    · rename_i r body hphase
      cases hn
      refine h.move hc ?_
      rintro m ⟨body', piece, hphase'⟩
      cases hphase'
      exact Or.inl ⟨body, none, hphase⟩
    · cases hn
  | resumes i cancelled =>
    obtain ⟨c, hc, hn⟩ := Option.bind_eq_some_iff.mp hn
    split_ifs at hn
    · unfold Recognizer.abandon at hn
      split at hn
      all_goals cases hn
      · exact h.move hc fun m hm => absurd hm not_reads_error
      · exact h.move hc fun m hm => absurd hm not_reads_error
      · rename_i hphase
        obtain ⟨a, ha, hcall⟩ := hsound.reads hc ⟨_, _, hphase⟩
        exact h.finalize hsound hc ha hcall
      · rename_i hphase
        obtain ⟨a, ha, hcall⟩ := hsound.reads hc ⟨_, _, hphase⟩
        exact h.finalize hsound hc ha hcall
      · rename_i hphase
        obtain ⟨a, ha, hcall⟩ := hsound.reads hc ⟨_, _, hphase⟩
        exact h.finalize hsound hc ha hcall
    · split at hn
      · rename_i r hphase
        obtain ⟨a, ha, rfl⟩ := Option.map_eq_some_iff.mp hn
        have hfine := hsound i c hc
        unfold Fine at hfine
        rw [hphase] at hfine
        obtain ⟨b, hb, hcall, -⟩ := hfine
        obtain rfl : a = b := Option.some.inj (ha.symm.trans hb)
        exact h.received hsound hc ha hcall
      · cases hn
        exact h.move hc fun m hm => absurd hm not_reads_error
      · rename_i hphase
        cases hn
        exact h.handle hsound hc ⟨_, _, hphase⟩
      · cases hn
  | interrupted i =>
    obtain ⟨c, hc, hn⟩ := Option.bind_eq_some_iff.mp hn
    unfold Recognizer.interrupt at hn
    split at hn
    all_goals cases hn
    · exact h.move hc fun m hm => absurd hm not_reads_error
    · exact h.move hc fun m hm => absurd hm not_reads_error
    · rename_i hphase
      obtain ⟨a, ha, hcall⟩ := hsound.reads hc ⟨_, _, hphase⟩
      exact h.finalize hsound hc ha hcall
  | closes i =>
    obtain ⟨c, hc, hn⟩ := Option.bind_eq_some_iff.mp hn
    split at hn
    · split_ifs at hn <;> cases hn <;> exact h.move hc fun m hm => absurd hm not_reads_error
    · cases hn
      exact h.move hc fun m hm => absurd hm not_reads_error
    · cases hn
  | closeRaises i code =>
    obtain ⟨c, hc, hn⟩ := Option.bind_eq_some_iff.mp hn
    split at hn
    · cases hn
      exact h.move hc fun m hm => absurd hm not_reads_error
    · cases hn
  | aclose =>
    simp only [next] at hn
    split_ifs at hn with hclosed <;> cases hn
    · refine h.closings rfl (fun m a ha hm => ?_) hsound
      cases hm with
      | active hopen hmem => exact absurd hclosed (by rw [hopen]; exact Bool.false_ne_true)
      | closed b hb hbclosed => exact .closed b hb hbclosed
      | closing remaining hclosing hmem =>
        exact .closing remaining (List.mem_append_left _ hclosing) hmem
      | failed hfailed => exact .failed (List.mem_append_left _ hfailed)
    · refine h.closings rfl (fun m a ha hm => ?_) hsound
      cases hm with
      | active hopen hmem => exact .closing s.active (by simp) hmem
      | closed b hb hbclosed => exact .closed b hb hbclosed
      | closing remaining hclosing hmem =>
        exact .closing remaining (List.mem_append_left _ hclosing) hmem
      | failed hfailed => exact .failed (List.mem_append_left _ hfailed)
  | acloseCloses j =>
    simp only [next] at hn
    split at hn
    · rename_i r remaining hj
      cases hn
      have hstays := staysClosed_modify (s := s) (r := r) (f := fun response =>
        { response with closed := true }) fun _ _ => rfl
      refine h.closings rfl (fun m a ha hm => ?_) hsound
      cases hm with
      | active hopen hmem => exact .active hopen hmem
      | closed b hb hbclosed =>
        obtain ⟨b', hb', hclosed⟩ := hstays m b hb hbclosed
        exact .closed b' hb' hclosed
      | closing rest hclosing hmem =>
        -- the one that is closed now, another of this call, or one of another call
        by_cases hrest : ClosePhase.closing rest = .closing (r :: remaining)
        · cases hrest
          rcases List.mem_cons.mp hmem with rfl | hmem
          · obtain ⟨b, hb, -, hclosed⟩ := keep_close (r := m) m a ha
            exact .closed b hb (hclosed rfl)
          · refine .closing remaining (List.mem_iff_getElem?.mpr ⟨j, ?_⟩) hmem
            exact List.getElem?_set_self (List.getElem?_eq_some_iff.mp hj).1
        · exact .closing rest (closing_mem_set hj hclosing hrest) hmem
      | failed hfailed => exact .failed (closing_mem_set hj hfailed (by simp))
    · cases hn
  | acloseFails j =>
    simp only [next] at hn
    split at hn
    · rename_i remaining hj
      cases hn
      refine h.closings rfl (fun m a ha hm => ?_) hsound
      have hfailed : ClosePhase.failed ∈ s.closings.set j .failed :=
        List.mem_iff_getElem?.mpr
          ⟨j, List.getElem?_set_self (List.getElem?_eq_some_iff.mp hj).1⟩
      cases hm with
      | active hopen hmem => exact .active hopen hmem
      | closed b hb hbclosed => exact .closed b hb hbclosed
      | closing | failed => exact .failed hfailed
    · cases hn
  | acloseReturns j =>
    simp only [next] at hn
    split at hn
    · rename_i hj
      cases hn
      refine h.closings rfl (fun m a ha hm => ?_) hsound
      cases hm with
      | active hopen hmem => exact .active hopen hmem
      | closed b hb hbclosed => exact .closed b hb hbclosed
      | closing rest hclosing hmem =>
        refine .closing rest (closing_mem_set hj hclosing ?_) hmem
        rintro hrest
        cases hrest
        cases hmem
      | failed hfailed => exact .failed (closing_mem_set hj hfailed (by simp))
    · cases hn

/-! ### Every run -/

/-- **Every response is closed by someone.** In a punctual run a response that is open has its
recognition, which has not ended and will close it; and once the recognizer is closed, a response
that is being read is one that a call of `aclose` is to close, unless a call has failed. -/
theorem responses_closed (h : machine.ReachableBy Punctual s) (hr : s.responses[r]? = some a)
    (hopen : a.closed = false) : ∃ c, s.calls[a.call]? = some c ∧
      (c.phase = .sending (some (.ok r)) ∨ c.phase.Reads r ∧ (s.closed = true →
        .failed ∈ s.closings ∨ ∃ remaining, .closing remaining ∈ s.closings ∧ r ∈ remaining)) := by
  have hheld : s.Held := by
    refine h.invariant (fun s hs => ?_) fun _ _ _ _ hs hok hn => next_held hs hok hn
    obtain ⟨config, loads, rfl⟩ := hs
    intro r a hr
    cases hr
  have htracked : s.Tracked := by
    refine h.invariant (fun s hs => ?_) fun _ _ _ hreach hs _ hn =>
      next_tracked hs (recognitions_sound hreach.reachable) hn
    obtain ⟨config, loads, rfl⟩ := hs
    intro i c r hc
    cases hc
  obtain ⟨c, hc, hholds⟩ := hheld r a hr hopen
  refine ⟨c, hc, ?_⟩
  -- where the recognition stands tells who closes the response
  unfold RecognitionPhase.Holds at hholds
  split at hholds
  · rename_i hphase
    exact Or.inl (hholds ▸ hphase)
  · rename_i body piece hphase
    subst hholds
    refine Or.inr ⟨⟨body, piece, hphase⟩, fun hclosed => ?_⟩
    cases htracked a.call c _ hc ⟨body, piece, hphase⟩ with
    -- a response that is still listed as active has an open recognizer
    | active hnot hmem => exact absurd hclosed (by rw [hnot]; exact Bool.false_ne_true)
    | closed b hb hbclosed =>
      obtain rfl : a = b := Option.some.inj (hr.symm.trans hb)
      exact absurd hbclosed (by rw [hopen]; exact Bool.false_ne_true)
    | closing remaining hclosing hmem => exact Or.inr ⟨remaining, hclosing, hmem⟩
    | failed hfailed => exact Or.inl hfailed
  · exact hholds.elim

/-- The recognizer is closed while a response is being read. -/
theorem responses_closed_answered : ∃ (s : Recognizer) (a : TranscriptionResponse),
    machine.ReachableBy Punctual s ∧ s.responses[0]? = some a ∧ a.closed = false ∧
      ∃ c, s.calls[a.call]? = some c ∧ (c.phase = .sending (some (.ok 0)) ∨
        c.phase.Reads 0 ∧ (s.closed = true → .failed ∈ s.closings ∨
          ∃ remaining, .closing remaining ∈ s.closings ∧ 0 ∈ remaining)) := by
  have hrun : machine.run (create {} loadsHello) (answered.take 5 ++ [.aclose]) =
    some ((machine.run (create {} loadsHello) (answered.take 5 ++ [.aclose])).getD
      (create {} loadsHello)) := rfl
  have hpunctual : ∀ l ∈ answered.take 5 ++ [.aclose], ∀ s, Punctual s l := by
    intro l hl s
    simp only [answered, List.take, List.cons_append, List.nil_append, List.mem_cons,
      List.not_mem_nil, or_false] at hl
    rcases hl with rfl | rfl | rfl | rfl | rfl | rfl <;> trivial
  have hreach : machine.ReachableBy Punctual _ := reachableBy_of_labels (I := fun _ => True)
    (fun _ _ _ _ _ => trivial) (fun s l _ hl => hpunctual l hl s)
    (ReachableBy.start (M := machine) ⟨{}, loadsHello, rfl⟩) trivial hrun
  exact ⟨_, _, hreach, rfl, rfl, responses_closed hreach rfl rfl⟩

/-- **A response that is outrun is lost**: its recognition has ended, and nobody closes it. -/
theorem outrun_open : ∃ (s : Recognizer) (a : TranscriptionResponse), machine.Reachable s ∧
    s.responses[0]? = some a ∧ a.closed = false ∧ s.active = [] ∧ s.closings.length = 1 ∧
      ∀ c ∈ s.calls, c.phase = .finished (.error .cancelled) := by
  have hrun : machine.run (create {} loadsHello) (answered.take 2 ++
    [.cancel 0, .resumes 0 true, .aclose, .acloseReturns 0]) =
      some ((machine.run (create {} loadsHello) (answered.take 2 ++
        [.cancel 0, .resumes 0 true, .aclose, .acloseReturns 0])).getD
          (create {} loadsHello)) := rfl
  refine ⟨_, _, reachable_of_run (M := machine) ⟨{}, loadsHello, rfl⟩ hrun, rfl, rfl, rfl, rfl,
    fun c hc => ?_⟩
  obtain rfl := List.mem_singleton.mp hc
  rfl

end Recognizer

end Eeveetuber
