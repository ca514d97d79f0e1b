import Eeveetuber.Runtime.CancellationObjects

/-!
# The three tests of a cancelled token agree

Whoever works for a turn can ask whether the turn is over in three ways: from
its token, by `accepts` of the token's generation, and by `ensure_current` of
it. The first reads the object the token refers to, the other two the object the
source refers to at that moment. Here all calls of a source are one machine,
`Eeveetuber.CancellationHistory.machine`, which remembers the tokens that were
issued and the generations `advance` returned; a call that raises is a step too.

`Eeveetuber.CancellationHistory.Effect` says what a call that raises nothing
does. Everything else is read off it: `Eeveetuber.CancellationHistory.Coherent`
is preserved by each effect, and each effect leaves a later source
(`Eeveetuber.SourceObjects.Later`).
-/

namespace Eeveetuber

open Foundation Stateful SourceObjects

/-- The calls of a source; the ones that read the clock carry what it shows. -/
inductive CancellationCall where
  | token
  | advance (reason : Text) (now : ℤ)
  | cancelCurrent (reason : Text) (now : ℤ)
  | close (reason : Text) (now : ℤ)
  | ensureCurrent (g : CancellationGeneration)
deriving DecidableEq, Repr

/-- What a call returns. -/
inductive CancellationAnswer where
  | token (t : TokenObject)
  | changed (b : Bool)
deriving DecidableEq, Repr

namespace CancellationCall

/-- Run a call. -/
def perform : CancellationCall → Method CancellationAnswer
  | token => .token <$> SourceObjects.token
  | advance reason now => .token <$> SourceObjects.advance reason now
  | cancelCurrent reason now => .changed <$> SourceObjects.cancelCurrent reason now
  | close reason now => .changed <$> SourceObjects.close reason now
  | ensureCurrent g => .token <$> SourceObjects.ensureCurrent g

/-- The reason and the time at which a call would set an event. -/
def stops : CancellationCall → Option (Text × ℤ)
  | advance reason now | cancelCurrent reason now | close reason now => some (reason, now)
  | token | ensureCurrent _ => none

/-- What a call that raises nothing answers, and the source it leaves. -/
inductive Effect (w : SourceObjects) :
    CancellationCall → CancellationAnswer → SourceObjects → Prop
  | token : Effect w .token (.token ⟨w.generation, w.state⟩) w
  | advance (reason : Text) (now : ℤ) : w.closed = false →
      Effect w (.advance reason now) (.token ⟨w.generation + 1, w.heap.length⟩)
        (w.cancelled reason now).advanced
  | cancelCurrent (reason : Text) (now : ℤ) :
      Effect w (.cancelCurrent reason now) (.changed (w.current.cancel reason now).2)
        (w.cancelled reason now)
  | close (reason : Text) (now : ℤ) :
      Effect w (.close reason now) (.changed (w.current.cancel reason now).2)
        { w.cancelled reason now with closed := true }
  | ensureCurrent (g : CancellationGeneration) :
      Effect w (.ensureCurrent g) (.token ⟨w.generation, w.state⟩) w

variable {c : CancellationCall} {w w' : SourceObjects} {a : CancellationAnswer}
  {x : Except CancellationError CancellationAnswer}

/-- A call raises and changes nothing, or has its effect. -/
theorem outcome_perform (h : outcome c.perform w = (x, w')) :
    (∃ e, x = .error e ∧ w' = w) ∨ ∃ a, x = .ok a ∧ Effect w c a w' := by
  cases c with
  | token =>
    obtain ⟨rfl, rfl⟩ := Prod.mk.inj h
    exact .inr ⟨_, rfl, .token⟩
  | advance reason now =>
    rw [perform, outcome_map, outcome_advance] at h
    split_ifs at h with hb hc
    · obtain ⟨rfl, rfl⟩ := Prod.mk.inj h
      exact .inl ⟨_, rfl, rfl⟩
    · obtain ⟨rfl, rfl⟩ := Prod.mk.inj h
      exact .inl ⟨_, rfl, rfl⟩
    · obtain ⟨rfl, rfl⟩ := Prod.mk.inj h
      exact .inr ⟨_, rfl, .advance _ _ (by simpa using hc)⟩
  | cancelCurrent reason now =>
    rw [perform, outcome_map, outcome_cancelCurrent] at h
    split_ifs at h with hb
    · obtain ⟨rfl, rfl⟩ := Prod.mk.inj h
      exact .inl ⟨_, rfl, rfl⟩
    · obtain ⟨rfl, rfl⟩ := Prod.mk.inj h
      exact .inr ⟨_, rfl, .cancelCurrent _ _⟩
  | close reason now =>
    rw [perform, outcome_map, outcome_close] at h
    split_ifs at h with hb
    · obtain ⟨rfl, rfl⟩ := Prod.mk.inj h
      exact .inl ⟨_, rfl, rfl⟩
    · obtain ⟨rfl, rfl⟩ := Prod.mk.inj h
      exact .inr ⟨_, rfl, .close _ _⟩
  | ensureCurrent g =>
    rw [perform, outcome_map, outcome_ensureCurrent] at h
    split_ifs at h with hg
    · obtain ⟨rfl, rfl⟩ := Prod.mk.inj h
      exact .inr ⟨_, rfl, .ensureCurrent _⟩
    · obtain ⟨rfl, rfl⟩ := Prod.mk.inj h
      exact .inl ⟨_, rfl, rfl⟩

/-- A call that raises leaves the source as it is. -/
theorem outcome_perform_error {e : CancellationError} (h : outcome c.perform w = (.error e, w')) :
    w' = w := by
  rcases outcome_perform h with ⟨_, _, hw⟩ | ⟨a, ha, _⟩
  · exact hw
  · cases ha

/-- What a call that raises nothing leaves is a later source. -/
theorem Effect.later (h : Effect w c a w') : w.Later w' := by
  cases h with
  | token => exact .refl w
  | advance reason now _ => exact later_cancelled.trans later_advanced
  | cancelCurrent reason now => exact later_cancelled
  | close reason now =>
    exact ⟨le_rfl, later_cancelled.allocated, fun _ => rfl, later_cancelled.settled⟩
  | ensureCurrent g => exact .refl w

/-- A call sets the event of the current object at most, with its own reason and time. -/
theorem Effect.sets (h : Effect w c a w') {ref : ℕ} (hf : (w.object ref).event = false)
    (ht : (w'.object ref).event = true) :
    ∃ reason now, c.stops = some (reason, now) ∧
      w'.object ref = ⟨true, some reason, some now⟩ := by
  cases h with
  | token | ensureCurrent =>
    rw [hf] at ht
    cases ht
  | advance reason now _ =>
    rw [object_advanced] at ht ⊢
    exact ⟨reason, now, rfl, object_cancelled_of_sets hf ht⟩
  | cancelCurrent reason now | close reason now =>
    exact ⟨reason, now, rfl, object_cancelled_of_sets hf ht⟩

/-- The token a call answers is the one of the source it leaves. -/
theorem Effect.token_eq {t : TokenObject} (h : Effect w c (.token t) w') :
    t = ⟨w'.generation, w'.state⟩ := by
  cases h with
  | token | ensureCurrent => rfl
  | advance reason now _ =>
    show (⟨w.generation + 1, w.heap.length⟩ : TokenObject) = ⟨_, (w.heap.set _ _).length⟩
    rw [List.length_set]
    rfl

end CancellationCall

namespace TokenObject

/-- `token.cancelled`. -/
def cancelled (t : TokenObject) (w : SourceObjects) : Bool := (w.object t.state).event

/-- `token.reason`. -/
def reason (t : TokenObject) (w : SourceObjects) : Option Text := (w.object t.state).reason

/-- `token.cancelled_at_monotonic_ms`. -/
def cancelledAtMonotonicMs (t : TokenObject) (w : SourceObjects) : Option ℤ :=
  (w.object t.state).cancelledAtMonotonicMs

end TokenObject

/-- What a source's references keep to, for a source that began with the generation `initial`. -/
structure SourceObjects.Coherent (initial : CancellationGeneration) (w : SourceObjects) :
    Prop where
  /-- The source refers to the object allocated last. -/
  last : w.state + 1 = w.heap.length
  /-- Each object belongs to the next generation. -/
  counted : w.generation = initial + w.state
  /-- The objects the source no longer refers to are cancelled. -/
  retired : ∀ ref < w.state, (w.object ref).event = true
  /-- A closed source has cancelled its object. -/
  stopped : w.closed = true → w.current.event = true

/-- A token refers to the object of its generation. -/
def TokenObject.Of (t : TokenObject) (initial : CancellationGeneration) (w : SourceObjects) :
    Prop :=
  t.generation = initial + t.state ∧ t.state < w.heap.length

namespace SourceObjects

variable {initial g : CancellationGeneration} {w w' : SourceObjects} {t : TokenObject}
  {c : CancellationCall} {a : CancellationAnswer} {reason : Text} {now : ℤ}

theorem coherent_create : (create initial).Coherent initial where
  last := rfl
  counted := rfl
  retired := by
    intro ref h
    cases h
  stopped := by
    intro h
    cases h

theorem Coherent.state_lt (h : w.Coherent initial) : w.state < w.heap.length :=
  h.last ▸ Nat.lt_succ_self _

/-- Cancelling sets the event of the current object. -/
theorem Coherent.current_cancelled (h : w.Coherent initial) :
    (w.cancelled reason now).current.event = true := by
  show ((w.cancelled reason now).object w.state).event = true
  rw [object_cancelled_self h.state_lt]
  exact StateObject.event_cancel

theorem Coherent.cancelled (h : w.Coherent initial) :
    (w.cancelled reason now).Coherent initial where
  last := by
    show w.state + 1 = (w.heap.set _ _).length
    rw [List.length_set]
    exact h.last
  counted := h.counted
  retired := by
    intro ref href
    rw [later_cancelled.settled ref (h.retired ref href)]
    exact h.retired ref href
  stopped _ := h.current_cancelled

/-- A source that moves on has cancelled the object it leaves. -/
theorem Coherent.advanced (h : w.Coherent initial) (hc : w.closed = false)
    (he : w.current.event = true) : w.advanced.Coherent initial where
  last := by
    show w.heap.length + 1 = (w.heap ++ [StateObject.fresh]).length
    rw [List.length_append, List.length_singleton]
  counted := by
    show w.generation + 1 = initial + w.heap.length
    rw [h.counted, ← h.last, Nat.add_assoc]
  retired := by
    intro ref href
    have hlt : ref < w.heap.length := href
    have hle : ref ≤ w.state := Nat.le_of_lt_succ (hlt.trans_eq h.last.symm)
    rw [object_advanced]
    rcases Nat.lt_or_eq_of_le hle with hold | rfl
    · exact h.retired ref hold
    · exact he
  stopped := by
    intro h'
    rw [show w.advanced.closed = w.closed from rfl, hc] at h'
    cases h'

/-- **Every call keeps a source coherent.** -/
theorem Coherent.effect (h : w.Coherent initial) (he : CancellationCall.Effect w c a w') :
    w'.Coherent initial := by
  cases he with
  | token | ensureCurrent => exact h
  | advance reason now hc => exact h.cancelled.advanced hc h.current_cancelled
  | cancelCurrent reason now => exact h.cancelled
  | close reason now =>
    exact ⟨h.cancelled.last, h.counted, h.cancelled.retired, fun _ => h.current_cancelled⟩

/-- A token that a call answers refers to the object of its generation. -/
theorem Coherent.of_effect (h : w.Coherent initial)
    (he : CancellationCall.Effect w c (.token t) w') : t.Of initial w' := by
  rw [he.token_eq]
  exact ⟨(h.effect he).counted, (h.effect he).state_lt⟩

/-- An object whose event is not set is the one the source refers to. -/
theorem Coherent.eq_state (h : w.Coherent initial) {ref : ℕ} (hlt : ref < w.heap.length)
    (hf : (w.object ref).event = false) : ref = w.state := by
  have hle : ref ≤ w.state := Nat.le_of_lt_succ (hlt.trans_eq h.last.symm)
  rcases Nat.lt_or_eq_of_le hle with hold | heq
  · rw [h.retired ref hold] at hf
    cases hf
  · exact heq

/-- A closed source has no object whose event is not set. -/
theorem Coherent.event_of_closed (h : w.Coherent initial) (hc : w.closed = true) {ref : ℕ}
    (hlt : ref < w.heap.length) : (w.object ref).event = true := by
  by_contra hf
  rw [Bool.not_eq_true] at hf
  have hcur : (w.object w.state).event = true := h.stopped hc
  rw [h.eq_state hlt hf, hcur] at hf
  cases hf

/-- **The three tests agree.** -/
theorem Coherent.cancelled_iff (h : w.Coherent initial) (ht : t.Of initial w) :
    t.cancelled w = true ↔ w.accepts t.generation = false := by
  obtain ⟨hg, hlt⟩ := ht
  constructor
  · intro hset
    rw [Bool.eq_false_iff]
    intro hacc
    obtain ⟨-, hgen, hcur⟩ := accepts_iff.mp hacc
    -- a token of the current generation refers to the current object
    have href : t.state = w.state := Nat.add_left_cancel (hg.symm.trans (hgen.trans h.counted))
    rw [TokenObject.cancelled, href] at hset
    rw [current, hset] at hcur
    cases hcur
  · intro hacc
    by_contra hf
    rw [Bool.not_eq_true, TokenObject.cancelled] at hf
    have href : t.state = w.state := h.eq_state hlt hf
    have hcur : w.current.event = false := by
      rw [current, ← href]
      exact hf
    have hopen : w.closed = false := by
      rw [Bool.eq_false_iff]
      intro hc
      rw [h.stopped hc] at hcur
      cases hcur
    have hgen : t.generation = w.generation := by rw [hg, href, h.counted]
    rw [accepts_iff.mpr ⟨hopen, hgen, hcur⟩] at hacc
    cases hacc

end SourceObjects

/-- A source, the tokens it has issued and the generations `advance` has returned. -/
structure CancellationHistory where
  /-- The generation the source began with. -/
  initial : CancellationGeneration
  /-- The source. -/
  source : SourceObjects
  /-- The tokens issued, oldest first. -/
  tokens : List TokenObject
  /-- The generations of the tokens that `advance` returned, oldest first. -/
  advanced : List CancellationGeneration
deriving DecidableEq, Repr

namespace CancellationHistory

/-- A source that has not been called. -/
def create (initial : CancellationGeneration) : CancellationHistory :=
  ⟨initial, .create initial, [], []⟩

/-- Write down what a call answered. -/
def remember (h : CancellationHistory) (c : CancellationCall) (w : SourceObjects) :
    CancellationAnswer → CancellationHistory
  | .changed _ => { h with source := w }
  | .token t =>
    { h with
      source := w
      tokens := h.tokens ++ [t]
      advanced := match c with
        | .advance _ _ => h.advanced ++ [t.generation]
        | _ => h.advanced }

/-- Make a call. -/
def after (h : CancellationHistory) (c : CancellationCall) : CancellationHistory :=
  match outcome c.perform h.source with
  | (.ok a, w) => h.remember c w a
  | (.error _, w) => { h with source := w }

/-- All sequences of calls of a source. -/
def machine : Machine CancellationHistory CancellationCall where
  start h := ∃ initial, h = create initial
  next h c := some (h.after c)

variable {h h' : CancellationHistory} {c : CancellationCall} {t : TokenObject}

/-- A call leaves everything as it is, or has its effect and is written down. -/
theorem after_cases (h : CancellationHistory) (c : CancellationCall) :
    h.after c = h ∨
      ∃ a w, CancellationCall.Effect h.source c a w ∧ h.after c = h.remember c w a := by
  rcases hx : outcome c.perform h.source with ⟨x, w⟩
  rcases CancellationCall.outcome_perform hx with ⟨e, rfl, rfl⟩ | ⟨a, rfl, he⟩
  · left
    rw [after, hx]
  · refine .inr ⟨a, w, he, ?_⟩
    rw [after, hx]

/-- What all sequences of calls keep. -/
structure Coherent (h : CancellationHistory) : Prop where
  source : h.source.Coherent h.initial
  issued : ∀ t ∈ h.tokens, t.Of h.initial h.source
  increasing : h.advanced.Pairwise (· < ·)
  reached : ∀ g ∈ h.advanced, g ≤ h.source.generation

theorem coherent_create (initial : CancellationGeneration) : (create initial).Coherent where
  source := SourceObjects.coherent_create
  issued := by
    intro t ht
    cases ht
  increasing := .nil
  reached := by
    intro g hg
    cases hg

/-- A token that refers to the object of its generation keeps doing so. -/
theorem of_later {initial : CancellationGeneration} {w w' : SourceObjects}
    (ht : t.Of initial w) (hw : w.Later w') : t.Of initial w' :=
  ⟨ht.1, ht.2.trans_le hw.allocated⟩

/-- The tokens written down after a call are the earlier ones and the one it answered. -/
theorem mem_tokens_remember {w : SourceObjects} {a : CancellationAnswer} :
    t ∈ (h.remember c w a).tokens ↔ t ∈ h.tokens ∨ a = .token t := by
  cases a with
  | changed b => simp [remember]
  | token t' => simp [remember, eq_comm]

/-- **Every call keeps a history coherent.** -/
theorem Coherent.after (hh : h.Coherent) (c : CancellationCall) : (h.after c).Coherent := by
  rcases after_cases h c with heq | ⟨a, w, he, heq⟩
  · rwa [heq]
  rw [heq]
  have hsource : w.Coherent h.initial := hh.source.effect he
  have hissued : ∀ t ∈ (h.remember c w a).tokens, t.Of h.initial w := by
    intro t ht
    rcases mem_tokens_remember.mp ht with hold | rfl
    · exact of_later (hh.issued t hold) he.later
    · exact hh.source.of_effect he
  have hreached : ∀ g ∈ h.advanced, g ≤ w.generation :=
    fun g hg => (hh.reached g hg).trans he.later.generation
  cases he with
  | token | cancelCurrent | close | ensureCurrent =>
    exact ⟨hsource, hissued, hh.increasing, hreached⟩
  | advance reason now _ =>
    refine ⟨hsource, hissued, ?_, ?_⟩
    · show (h.advanced ++ [h.source.generation + 1]).Pairwise (· < ·)
      rw [List.pairwise_append]
      refine ⟨hh.increasing, List.pairwise_singleton _ _, fun g hg g' hg' => ?_⟩
      rw [List.mem_singleton.mp hg']
      exact Nat.lt_succ_of_le (hh.reached g hg)
    · intro g hg
      rcases List.mem_append.mp hg with hold | hnew
      · exact hreached g hold
      · exact (List.mem_singleton.mp hnew).le

@[simp] theorem source_remember {w : SourceObjects} {a : CancellationAnswer} :
    (h.remember c w a).source = w := by
  cases a with
  | changed b => rfl
  | token t => rfl

/-- What a later moment of a history keeps of an earlier one. -/
structure Continues (h h' : CancellationHistory) : Prop where
  source : h.source.Later h'.source
  tokens : ∀ t ∈ h.tokens, t ∈ h'.tokens

theorem continues_after : h.Continues (h.after c) := by
  rcases after_cases h c with heq | ⟨a, w, he, heq⟩
  · rw [heq]
    exact ⟨.refl _, fun _ ht => ht⟩
  · rw [heq]
    exact ⟨source_remember.symm ▸ he.later, fun t ht => mem_tokens_remember.mpr (.inl ht)⟩

theorem coherent_of_reachable (hr : machine.Reachable h) : h.Coherent := by
  refine hr.invariant ?_ ?_
  · rintro _ ⟨initial, rfl⟩
    exact coherent_create initial
  · intro s l t _ hs _ hn
    obtain rfl : s.after l = t := Option.some.inj hn
    exact hs.after l

theorem continues_of_leads (hl : machine.Leads h h') : h.Continues h' := by
  refine hl.invariant (I := h.Continues) ⟨.refl _, fun _ ht => ht⟩ ?_
  intro s l t hs hn
  obtain rfl : s.after l = t := Option.some.inj hn
  have hstep : s.Continues (s.after l) := continues_after
  exact ⟨hs.source.trans hstep.source, fun t ht => hstep.tokens t (hs.tokens t ht)⟩

/-- What a source promises to the holders of its tokens at one moment of its history. -/
structure Sound (h : CancellationHistory) : Prop where
  /-- A token is cancelled exactly when its generation is not accepted. -/
  refused : ∀ t ∈ h.tokens,
    t.cancelled h.source = true ↔ h.source.accepts t.generation = false
  /-- A token is cancelled exactly when `ensure_current` raises for its generation. -/
  raises : ∀ t ∈ h.tokens, t.cancelled h.source = true ↔
    ∃ b, outcome (SourceObjects.ensureCurrent t.generation) h.source =
      (.error (.stale t.generation h.source.generation b), h.source)
  /-- The generations `advance` returned increase. -/
  increasing : h.advanced.Pairwise (· < ·)
  /-- Of the objects, one at most has not been cancelled. -/
  unique : ∀ i < h.source.heap.length, ∀ j < h.source.heap.length,
    (h.source.object i).event = false → (h.source.object j).event = false → i = j
  /-- The tokens not cancelled are all of one generation. -/
  uncancelled : ∀ t ∈ h.tokens, ∀ t' ∈ h.tokens,
    t.cancelled h.source = false → t'.cancelled h.source = false → t.generation = t'.generation
  /-- A closed source has cancelled every object. -/
  closed : h.source.closed = true → ∀ i < h.source.heap.length, (h.source.object i).event = true
  /-- At every later moment a token is there, and when it was cancelled it is, for
  the reason and since the time it was. -/
  permanent : ∀ h', machine.Leads h h' → ∀ t ∈ h.tokens, t ∈ h'.tokens ∧
    (t.cancelled h.source = true → t.cancelled h'.source = true ∧
      t.reason h'.source = t.reason h.source ∧
      t.cancelledAtMonotonicMs h'.source = t.cancelledAtMonotonicMs h.source)
  /-- A token is cancelled by a call, for the reason of that call. -/
  told : ∀ c h', machine.next h c = some h' → ∀ t ∈ h.tokens,
    t.cancelled h.source = false → t.cancelled h'.source = true →
    ∃ reason now, c.stops = some (reason, now) ∧ t.reason h'.source = some reason ∧
      t.cancelledAtMonotonicMs h'.source = some now
  /-- A call that raises leaves the source as it is. -/
  unchanged : ∀ (c : CancellationCall) e w, outcome c.perform h.source = (.error e, w) →
    w = h.source

theorem Coherent.raises_iff (hh : h.Coherent) (ht : t ∈ h.tokens) :
    t.cancelled h.source = true ↔
      ∃ b, outcome (SourceObjects.ensureCurrent t.generation) h.source =
        (.error (.stale t.generation h.source.generation b), h.source) := by
  rw [hh.source.cancelled_iff (hh.issued t ht), outcome_ensureCurrent]
  constructor
  · intro hacc
    exact ⟨_, if_neg (by simp [hacc])⟩
  · rintro ⟨b, hb⟩
    rw [Bool.eq_false_iff]
    intro hacc
    rw [if_pos hacc] at hb
    cases hb

theorem Continues.permanent (hc : h.Continues h') (ht : t.cancelled h.source = true) :
    t.cancelled h'.source = true ∧ t.reason h'.source = t.reason h.source ∧
      t.cancelledAtMonotonicMs h'.source = t.cancelledAtMonotonicMs h.source := by
  have hsame : h'.source.object t.state = h.source.object t.state := hc.source.settled _ ht
  rw [TokenObject.cancelled, TokenObject.reason, TokenObject.cancelledAtMonotonicMs, hsame]
  exact ⟨ht, rfl, rfl⟩

/-- A call that cancels a token gives it its reason and its time. -/
theorem told_after (hf : t.cancelled h.source = false)
    (ht : t.cancelled (h.after c).source = true) :
    ∃ reason now, c.stops = some (reason, now) ∧ t.reason (h.after c).source = some reason ∧
      t.cancelledAtMonotonicMs (h.after c).source = some now := by
  rcases after_cases h c with heq | ⟨a, w, he, heq⟩
  · rw [heq, hf] at ht
    cases ht
  rw [heq, source_remember] at ht ⊢
  obtain ⟨reason, now, hstops, hobject⟩ := he.sets hf ht
  refine ⟨reason, now, hstops, ?_, ?_⟩
  · rw [TokenObject.reason, hobject]
  · rw [TokenObject.cancelledAtMonotonicMs, hobject]

/-- **A source keeps its promises.** After every sequence of calls the three tests
of a token agree, and cancelling is for good. -/
theorem sound_of_reachable (hr : machine.Reachable h) : h.Sound := by
  have hh : h.Coherent := coherent_of_reachable hr
  refine
    { refused := fun t ht => hh.source.cancelled_iff (hh.issued t ht)
      raises := fun t ht => hh.raises_iff ht
      increasing := hh.increasing
      unique := ?_
      uncancelled := ?_
      closed := fun hc i hi => hh.source.event_of_closed hc hi
      permanent := ?_
      told := ?_
      unchanged := fun c e w he => CancellationCall.outcome_perform_error he }
  · intro i hi j hj hi' hj'
    rw [hh.source.eq_state hi hi', hh.source.eq_state hj hj']
  · intro t ht t' ht' hf hf'
    obtain ⟨hg, hlt⟩ := hh.issued t ht
    obtain ⟨hg', hlt'⟩ := hh.issued t' ht'
    rw [hg, hg', hh.source.eq_state hlt hf, hh.source.eq_state hlt' hf']
  · intro h' hl t ht
    have hc : h.Continues h' := continues_of_leads hl
    exact ⟨hc.tokens t ht, hc.permanent⟩
  · intro c h' hn t _ hf htrue
    obtain rfl : h.after c = h' := Option.some.inj hn
    exact told_after hf htrue

/-- A token taken before two turns and a close. -/
theorem sound_two_turns : ∃ h : CancellationHistory,
    machine.run (create 3) [.token, .advance ['n'] 5, .advance ['m'] 6, .close ['d'] 9,
      .advance ['x'] 10] = some h ∧ h.tokens.length = 3 ∧ h.Sound := by
  have hrun : ∃ h : CancellationHistory,
      machine.run (create 3) [.token, .advance ['n'] 5, .advance ['m'] 6, .close ['d'] 9,
        .advance ['x'] 10] = some h ∧ h.tokens.length = 3 := ⟨_, rfl, rfl⟩
  obtain ⟨h, hh, hlength⟩ := hrun
  exact ⟨h, hh, hlength, sound_of_reachable (Machine.reachable_of_run ⟨3, rfl⟩ hh)⟩

end CancellationHistory

/-! ### The table of generations

Without the references a source is the table of `Eeveetuber.CancellationSource`,
and its calls are the ones there. -/

namespace SourceObjects

variable {initial g : CancellationGeneration} {w : SourceObjects} {reason : Text} {now : ℤ}

/-- The table of generations of a source that began with `initial`. -/
def toSource (initial : CancellationGeneration) (w : SourceObjects) : CancellationSource where
  generation := w.generation
  states g := if initial ≤ g then (w.object (g - initial)).toState else .fresh
  closed := w.closed

theorem Coherent.state_toSource (h : w.Coherent initial) :
    (w.toSource initial).state = w.current.toState := by
  show (if initial ≤ w.generation then (w.object (w.generation - initial)).toState else _) = _
  rw [h.counted, if_pos (Nat.le_add_right _ _), Nat.add_sub_cancel_left]
  rfl

/-- Cancelling the current object changes the current entry of the table. -/
theorem Coherent.toSource_cancelled (h : w.Coherent initial) :
    (w.cancelled reason now).toSource initial =
      { w.toSource initial with
        states := Function.update (w.toSource initial).states w.generation
          (w.current.toState.cancel reason).1 } := by
  have hstates : ((w.cancelled reason now).toSource initial).states =
      Function.update (w.toSource initial).states w.generation
        (w.current.toState.cancel reason).1 := by
    funext g
    by_cases hg : g = w.generation
    · subst hg
      show (if initial ≤ w.generation then _ else _) = _
      rw [Function.update_self, h.counted, if_pos (Nat.le_add_right _ _),
        Nat.add_sub_cancel_left, object_cancelled_self h.state_lt]
      exact congrArg Prod.fst StateObject.toState_cancel
    · rw [Function.update_of_ne hg]
      show (if initial ≤ g then _ else _) = if initial ≤ g then _ else _
      split
      · rename_i hle
        have hne : g - initial ≠ w.state := by
          intro heq
          exact hg (by rw [h.counted, ← heq, Nat.add_sub_cancel' hle])
        rw [object_cancelled_of_ne hne]
      · rfl
  rw [← hstates]
  rfl

/-- Moving on to a new object is a new entry of the table. -/
theorem Coherent.toSource_advanced (h : w.Coherent initial) :
    w.advanced.toSource initial =
      { w.toSource initial with
        generation := w.generation + 1
        states := Function.update (w.toSource initial).states (w.generation + 1) .fresh } := by
  have hstates : (w.advanced.toSource initial).states =
      Function.update (w.toSource initial).states (w.generation + 1) .fresh := by
    have hsame : (w.advanced.toSource initial).states = (w.toSource initial).states := by
      funext g
      show (if initial ≤ g then _ else _) = if initial ≤ g then _ else _
      rw [object_advanced]
    have hfresh : (w.toSource initial).states (w.generation + 1) = .fresh := by
      show (if initial ≤ w.generation + 1 then _ else _) = _
      rw [h.counted, Nat.add_assoc, if_pos (Nat.le_add_right _ _), Nat.add_sub_cancel_left,
        h.last, object, List.getD_eq_getElem?_getD, List.getElem?_eq_none le_rfl]
      rfl
    rw [hsame, ← hfresh, Function.update_eq_self]
  rw [← hstates]
  rfl

theorem Coherent.accepts_toSource (h : w.Coherent initial) :
    (w.toSource initial).accepts g = w.accepts g := by
  rw [CancellationSource.accepts, h.state_toSource]
  rfl

/-- `advance` on the objects is `advance` on the table. -/
theorem Coherent.advance_toSource (h : w.Coherent initial) :
    (w.toSource initial).advance reason =
      match outcome (advance reason now) w with
      | (.ok t, w') => .ok (w'.toSource initial, ⟨t.generation⟩)
      | (.error e, _) => .error e := by
  have hclosed : (w.toSource initial).closed = w.closed := rfl
  rw [CancellationSource.advance, outcome_advance, hclosed]
  split_ifs with hb hc
  · rfl
  · rfl
  · dsimp only
    rw [h.cancelled.toSource_advanced, h.toSource_cancelled, h.state_toSource]
    rfl

/-- `cancel_current` on the objects is `cancel_current` on the table. -/
theorem Coherent.cancelCurrent_toSource (h : w.Coherent initial) :
    (w.toSource initial).cancelCurrent reason =
      match outcome (cancelCurrent reason now) w with
      | (.ok b, w') => .ok (w'.toSource initial, b)
      | (.error e, _) => .error e := by
  have hchanged : (w.current.toState.cancel reason).2 = (w.current.cancel reason now).2 :=
    congrArg Prod.snd StateObject.toState_cancel.symm
  rw [CancellationSource.cancelCurrent, outcome_cancelCurrent]
  split_ifs with hb
  · rfl
  · dsimp only
    rw [h.toSource_cancelled, h.state_toSource, hchanged]
    rfl

/-- `close` on the objects is `close` on the table. -/
theorem Coherent.close_toSource (h : w.Coherent initial) :
    (w.toSource initial).close reason =
      match outcome (close reason now) w with
      | (.ok b, w') => .ok (w'.toSource initial, b)
      | (.error e, _) => .error e := by
  have hchanged : (w.current.toState.cancel reason).2 = (w.current.cancel reason now).2 :=
    congrArg Prod.snd StateObject.toState_cancel.symm
  have htable : (w.cancelled reason now).toSource initial = _ := h.toSource_cancelled
  rw [CancellationSource.close, outcome_close]
  split_ifs with hb
  · rfl
  · show Except.ok ((w.toSource initial).shutDown reason) =
      .ok ({ (w.cancelled reason now).toSource initial with closed := true }, _)
    rw [htable, CancellationSource.shutDown, h.state_toSource, ← hchanged]
    rfl

/-- `ensure_current` on the objects is `ensure_current` on the table. -/
theorem Coherent.ensureCurrent_toSource (h : w.Coherent initial) :
    (w.toSource initial).ensureCurrent g =
      match (outcome (ensureCurrent g) w).1 with
      | .ok t => .ok ⟨t.generation⟩
      | .error e => .error e := by
  rw [CancellationSource.ensureCurrent_eq, outcome_ensureCurrent, h.accepts_toSource,
    h.state_toSource]
  split_ifs with hacc
  · rfl
  · rfl

end SourceObjects

end Eeveetuber
