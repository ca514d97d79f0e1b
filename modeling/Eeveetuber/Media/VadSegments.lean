import Mathlib.Data.List.Forall2
import Eeveetuber.Foundation.Blocks
import Eeveetuber.Media.VadSteps

/-!
# The detector cuts a stream into utterances

A detector reads a stream of frames and emits events, alternately that speech
started and that it ended; each pair is a `Eeveetuber.Segment`. **The frames of
the utterances are blocks of the stream**, `Eeveetuber.capture_segments`: nothing
inside an utterance is missing, and nothing is in two of them.

On the way through the stream the segments so far are blocks of the frames the
detector no longer holds, and an utterance under way has been announced
(`Eeveetuber.Progress`); each of the steps of `Media.VadSteps` keeps that.
-/

namespace Eeveetuber

open Foundation Stateful EnergyVoiceActivityDetector

/-- The two events of an utterance. -/
structure Segment where
  started : VadSpeechStarted
  ended : VadSpeechEnded

namespace Segment

/-- The events, in their order. -/
def events (s : Segment) : List VadEvent := [.started s.started, .ended s.ended]

/-- The frames of the utterance. -/
def frames (s : Segment) : List PcmFrame := s.ended.utterance.frames

/-- The events belong together: they bear the identifier that is derived from the frame
`first` of the utterance, where the run of loud frames began. -/
structure Names (uuid5 : UUID → String → UUID) (s : Segment) (first : PcmFrame) : Prop where
  first_mem : first ∈ s.frames
  started : s.started.utteranceId = uuid5 first.streamId (speechName first.sequence)
  ended : s.ended.utteranceId = s.started.utteranceId
  utterance : s.ended.utterance.utteranceId = s.started.utteranceId

end Segment

/-- Segments cut out of the frames `past`; `starts` are the frames they are named after. -/
structure Cut (uuid5 : UUID → String → UUID) (past : List PcmFrame) (segments : List Segment)
    (starts : List PcmFrame) : Prop where
  names : List.Forall₂ (Segment.Names uuid5) segments starts
  blocks : Blocks past (segments.map Segment.frames)
  starts_mem : ∀ f ∈ starts, f ∈ past
  sorted : starts.Pairwise fun f g => f.sequence < g.sequence

/-- **Where a detector is in its stream**: the events so far are those of the segments cut
out of the frames it no longer holds, and that speech started if it is in an utterance. -/
inductive Progress (uuid5 : UUID → String → UUID) (d : EnergyVoiceActivityDetector)
    (past : List PcmFrame) : List VadEvent → Prop
  | idle {run starts : List PcmFrame} {segments : List Segment} : d.Idle run →
      Cut uuid5 past segments starts → Progress uuid5 d past (segments.flatMap Segment.events)
  | active {act starts : List PcmFrame} {segments : List Segment} {first named : PcmFrame}
      {started : VadSpeechStarted} : d.Active act started.utteranceId first → named ∈ act →
      started.utteranceId = uuid5 named.streamId (speechName named.sequence) →
      Cut uuid5 past segments starts →
      Progress uuid5 d past (segments.flatMap Segment.events ++ [.started started])

variable {uuid5 : UUID → String → UUID} {d d' : EnergyVoiceActivityDetector}
  {frame first : PcmFrame} {run act past starts dropped : List PcmFrame}
  {segments : List Segment} {events emitted : List VadEvent}

/-! ### One frame -/

/-- Frames that are in no utterance. -/
theorem Cut.gap (h : Cut uuid5 past segments starts) (dropped : List PcmFrame) :
    Cut uuid5 (past ++ dropped) segments starts :=
  ⟨h.names, h.blocks.gap dropped, fun f hf => List.mem_append_left _ (h.starts_mem f hf), h.sorted⟩

/-- The frames of an utterance, when it ends. -/
theorem Cut.segment {s : Segment} (h : Cut uuid5 past segments starts)
    (hnames : s.Names uuid5 first) (horder : InOrder (past ++ s.frames)) :
    Cut uuid5 (past ++ s.frames) (segments ++ [s]) (starts ++ [first]) := by
  refine ⟨List.rel_append h.names (.cons hnames .nil), ?_, fun f hf => ?_, ?_⟩
  · rw [List.map_append]
    exact h.blocks.block _
  · rcases List.mem_append.mp hf with hf | hf
    · exact List.mem_append_left _ (h.starts_mem f hf)
    · rw [List.mem_singleton.mp hf]
      exact List.mem_append_right _ hnames.first_mem
  · refine List.pairwise_append.mpr ⟨h.sorted, List.pairwise_singleton _ _, fun f hf g hg => ?_⟩
    rw [List.mem_singleton.mp hg]
    exact ((List.pairwise_append.mp horder).2.2 f (h.starts_mem f hf) first hnames.first_mem).1

theorem flatMap_segment {s : Segment} :
    (segments ++ [s]).flatMap Segment.events =
      segments.flatMap Segment.events ++ [.started s.started, .ended s.ended] := by
  rw [List.flatMap_append, List.flatMap_singleton]
  rfl

/-- What the step of an idle detector makes of the segments. -/
theorem Cut.idleStep (h : Cut uuid5 past segments starts)
    (hstep : IdleStep uuid5 d run frame emitted d')
    (hcarries : d.Carries (past ++ (d.history ++ [frame]))) :
    ∃ past', Progress uuid5 d' past' (segments.flatMap Segment.events ++ emitted) ∧
      past' ++ d'.retained = past ++ (d.history ++ [frame]) := by
  -- every frame that is kept is of the stream of the new one
  have hstream {dropped act : List PcmFrame} {first : PcmFrame} (hfirst : first ∈ act)
      (hd : dropped ++ act = d.history ++ [frame]) : first.streamId = frame.streamId := by
    have h₁ := hcarries.streamId first (by
      rw [← hd]
      exact List.mem_append_right _ (List.mem_append_right _ hfirst))
    have h₂ := hcarries.streamId frame (by simp)
    exact Option.some.inj (h₁.symm.trans h₂)
  cases hstep with
  | @quiet _ dropped _ hidle hd =>
    refine ⟨past ++ dropped, ?_, by rw [hidle.retained, List.append_assoc, hd]⟩
    rw [List.append_nil]
    exact .idle hidle (h.gap dropped)
  | @starts _ dropped act first started _ hactive hd hid _ =>
    refine ⟨past ++ dropped, .active hactive hactive.first_mem ?_ (h.gap dropped), ?_⟩
    · rw [hid, hstream hactive.first_mem hd]
    · rw [hactive.retained, List.append_assoc, hd]
  | @startsAndEnds _ dropped act first started ended _
      hidle hnil hd hfirst hid hended hutt hframes _ =>
    have hnames : (⟨started, ended⟩ : Segment).Names uuid5 first :=
      ⟨by rw [Segment.frames, hframes]; exact hfirst, by rw [hid, hstream hfirst hd], hended, hutt⟩
    have hact : (⟨started, ended⟩ : Segment).frames = act := hframes
    have horder : InOrder (past ++ dropped ++ act) := by
      rw [List.append_assoc, hd]
      exact hcarries.inOrder
    refine ⟨past ++ dropped ++ act, ?_, ?_⟩
    · have hcut := (h.gap dropped).segment hnames (hact.symm ▸ horder)
      rw [hact] at hcut
      have hprogress := Progress.idle hidle hcut
      rwa [flatMap_segment] at hprogress
    · rw [hidle.retained, hnil, List.append_nil, List.append_assoc, hd]

/-- Finishing the utterance under way. -/
theorem Cut.finish {started : VadSpeechStarted} {ended : VadSpeechEnded}
    (h : Cut uuid5 past segments starts) (hfirst : first ∈ act)
    (hid : started.utteranceId = uuid5 first.streamId (speechName first.sequence))
    (hended : ended.utteranceId = started.utteranceId)
    (hutterance : ended.utterance.utteranceId = started.utteranceId)
    (hframes : ended.utterance.frames = act) (horder : InOrder (past ++ act)) :
    Cut uuid5 (past ++ act) (segments ++ [⟨started, ended⟩]) (starts ++ [first]) := by
  have hact : (⟨started, ended⟩ : Segment).frames = act := hframes
  have hcut := h.segment (s := ⟨started, ended⟩) ⟨hact ▸ hfirst, hid, hended, hutterance⟩
    (hact ▸ horder)
  rwa [hact] at hcut

/-- **One frame**: what is emitted continues the alternation, and no frame is lost. -/
theorem Progress.step (h : Progress uuid5 d past events)
    (hstep : ProcessStep uuid5 d frame emitted d')
    (hcarries : (d.accepting frame).Carries (past ++ d.retained ++ [frame])) :
    ∃ past', Progress uuid5 d' past' (events ++ emitted) ∧
      past' ++ d'.retained = past ++ d.retained ++ [frame] := by
  rw [List.append_assoc] at hcarries ⊢
  cases hstep with
  | idle hidle hstep =>
    rw [hidle.retained] at hcarries ⊢
    cases h with
    | idle _ hcut =>
      have hframes : (d.accepting frame).Carries
          (past ++ ((d.accepting frame).history ++ [frame])) := hcarries
      obtain ⟨past', hprogress, hpast⟩ := hcut.idleStep hstep hframes
      exact ⟨past', hprogress, hpast⟩
    | active hactive => exact absurd (hidle.activeFrames.symm.trans hactive.activeFrames) (by simp)
  | @active act id first _ _ hactive hstep =>
    rw [hactive.retained] at hcarries ⊢
    cases h with
    | idle hidle => exact absurd (hidle.activeFrames.symm.trans hactive.activeFrames) (by simp)
    | @active act' starts segments _ named started hactive' hnamed hid hcut =>
      obtain rfl : act' = act :=
        Option.some.inj (hactive'.activeFrames.symm.trans hactive.activeFrames)
      obtain rfl : started.utteranceId = id :=
        Option.some.inj (hactive'.utteranceId.symm.trans hactive.utteranceId)
      cases hstep with
      | grows _ hgrown =>
        refine ⟨past, ?_, by rw [hgrown.retained]⟩
        rw [List.append_nil]
        exact .active hgrown (List.mem_append_left _ hnamed) hid hcut
      | ends _ hidle hnil hended hutt hframes _ =>
        refine ⟨past ++ (act' ++ [frame]), ?_, by rw [hidle.retained, hnil, List.append_nil]⟩
        have hprogress := Progress.idle hidle
          (hcut.finish (List.mem_append_left _ hnamed) hid hended hutt hframes hcarries.inOrder)
        rw [flatMap_segment] at hprogress
        rwa [List.append_assoc]
      | @overflows _ ended rest _ hended hutt hframes _ _ hcleared _ hidleStep =>
        -- the utterance before the frame is over, and the frame goes on from there
        have horder : InOrder (past ++ act') := by
          have := hcarries.inOrder
          rw [← List.append_assoc] at this
          exact (List.pairwise_append.mp this).1
        have hcut' := hcut.finish hnamed hid hended hutt hframes horder
        have hframes' : (d.accepting frame).cleared.Carries
            (past ++ act' ++ ((d.accepting frame).cleared.history ++ [frame])) := by
          have hnil : (d.accepting frame).cleared.history = [] := hactive.history
          rw [hnil, List.nil_append, List.append_assoc]
          exact hcarries.congr rfl
        obtain ⟨past', hprogress, hpast⟩ := hcut'.idleStep hidleStep hframes'
        refine ⟨past', ?_, ?_⟩
        · rw [flatMap_segment] at hprogress
          rw [List.append_assoc] at hprogress ⊢
          exact hprogress
        · have hnil : (d.accepting frame).cleared.history = [] := hactive.history
          rw [hpast, hnil, List.nil_append, List.append_assoc]

/-! ### A whole stream -/

/-- Process frames one after the other; the answer is the events of all of them. -/
def processAll (uuid5 : UUID → String → UUID) : List PcmFrame → VadM (List VadEvent)
  | [] => return []
  | frame :: frames => do
    let events ← process uuid5 frame
    let later ← processAll uuid5 frames
    return events ++ later

/-- Process a stream of frames to its end. -/
def capture (uuid5 : UUID → String → UUID) (frames : List PcmFrame) : VadM (List VadEvent) := do
  let events ← processAll uuid5 frames
  match ← finishStream with
  | none => return events
  | some ended => return events ++ [.ended ended]

/-- Frames that are all accepted, one at a time. -/
theorem processAll_cons {frames : List PcmFrame} {events : List VadEvent} (hinv : d.Inv past)
    (hout : outcome (processAll uuid5 (frame :: frames)) d = (.ok events, d')) :
    ∃ emitted d₁ rest past₁, events = emitted ++ rest ∧
      (d.accepting frame).Carries (past ++ d.retained ++ [frame]) ∧
      ProcessStep uuid5 d frame emitted d₁ ∧ d₁.Inv past₁ ∧
      past₁ ++ d₁.retained = past ++ d.retained ++ [frame] ∧ d₁.config = d.config ∧
      outcome (processAll uuid5 frames) d₁ = (.ok rest, d') := by
  rw [processAll, outcome_bind_eq_ok] at hout
  obtain ⟨emitted, d₁, hprocess, hout⟩ := hout
  rw [outcome_bind_eq_ok] at hout
  obtain ⟨rest, d₂, hrest, hout⟩ := hout
  cases hout
  rcases process_step uuid5 hinv frame with ⟨message, -, herr⟩ | ⟨_, _, hok, hcarries, hstep⟩
  · rw [herr] at hprocess
    cases hprocess
  · rw [hok] at hprocess
    cases hprocess
    obtain ⟨⟨past₁, hinv₁, hpast₁⟩, hconfig₁⟩ := hstep.inv hcarries
    exact ⟨_, _, _, past₁, rfl, hcarries, hstep, hinv₁, hpast₁, hconfig₁, hrest⟩

/-- What holds before some frames holds behind them, if all of them are accepted. -/
theorem processAll_progress {frames : List PcmFrame} {later : List VadEvent} (hinv : d.Inv past)
    (h : Progress uuid5 d past events)
    (hout : outcome (processAll uuid5 frames) d = (.ok later, d')) :
    ∃ past', d'.Inv past' ∧ Progress uuid5 d' past' (events ++ later) ∧
      past' ++ d'.retained = past ++ d.retained ++ frames ∧ d'.config = d.config := by
  induction frames generalizing d past events later with
  | nil =>
    cases hout
    exact ⟨past, hinv, by rwa [List.append_nil], by rw [List.append_nil], rfl⟩
  | cons frame frames ih =>
    obtain ⟨emitted, d₁, rest, past₁, rfl, hcarries, hstep, hinv₁, hpast₁, hconfig₁, hrest⟩ :=
      processAll_cons hinv hout
    obtain ⟨past₁', hprogress, hpast₁'⟩ := h.step hstep hcarries
    obtain rfl : past₁ = past₁' := List.append_cancel_right (hpast₁.trans hpast₁'.symm)
    obtain ⟨past₂, hinv₂, hprogress₂, hpast₂, hconfig₂⟩ := ih hinv₁ hprogress hrest
    refine ⟨past₂, hinv₂, by rwa [← List.append_assoc], ?_, hconfig₂.trans hconfig₁⟩
    rw [hpast₂, hpast₁, List.append_assoc _ [frame], List.singleton_append]

theorem make_progress (config : EnergyVadConfig) : Progress uuid5 (make config) [] [] := by
  rcases (make_inv config).phase with ⟨run, hidle⟩ | ⟨act, utteranceId, first, hactive⟩
  · exact Progress.idle hidle (⟨.nil, .nil, by simp, .nil⟩ : Cut uuid5 [] [] [])
  · cases hactive.activeFrames

/-- The names of different sequence numbers are different. -/
theorem speechName_injective : Function.Injective speechName := by
  intro m n h
  have hchars : ("speech:" ++ toString m).toList = ("speech:" ++ toString n).toList :=
    congrArg String.toList h
  rw [String.toList_append, String.toList_append] at hchars
  have hdigits : (toString m).toList = (toString n).toList := List.append_cancel_left hchars
  have hvalue := congrArg (fun cs => Nat.ofDigitChars 10 cs 0) hdigits
  simpa using hvalue

/-- An accepted stream, up to one of its frames. -/
theorem processAll_append {pre post : List PcmFrame}
    (h : outcome (processAll uuid5 (pre ++ post)) d = (.ok events, d')) :
    ∃ before d₁ after, outcome (processAll uuid5 pre) d = (.ok before, d₁) ∧
      outcome (processAll uuid5 post) d₁ = (.ok after, d') := by
  induction pre generalizing d events with
  | nil => exact ⟨[], d, events, rfl, h⟩
  | cons frame pre ih =>
    rw [List.cons_append, processAll, outcome_bind_eq_ok] at h
    obtain ⟨emitted, d₁, hprocess, h⟩ := h
    rw [outcome_bind_eq_ok] at h
    obtain ⟨later, d₂, hlater, h⟩ := h
    cases h
    obtain ⟨before, d₃, after, hpre, hpost⟩ := ih hlater
    refine ⟨emitted ++ before, d₃, after, ?_, hpost⟩
    rw [processAll, outcome_bind_of_ok hprocess, outcome_bind_of_ok hpre]
    rfl

/-- What becomes of a frame that finds a detector in an utterance of the frames `act`. -/
inductive Treated (uuid5 : UUID → String → UUID) (d : EnergyVoiceActivityDetector)
    (act : List PcmFrame) (frame : PcmFrame) :
    List VadEvent → EnergyVoiceActivityDetector → Prop
  /-- It is in the utterance, which goes on. -/
  | joins {d' : EnergyVoiceActivityDetector} : d'.activeFrames = some (act ++ [frame]) →
      Treated uuid5 d act frame [] d'
  /-- It is the last of the utterance. -/
  | last {d' : EnergyVoiceActivityDetector} {ended : VadSpeechEnded} :
      ended.utterance.frames = act ++ [frame] → Treated uuid5 d act frame [.ended ended] d'
  /-- The utterance with it would be over a limit: it ends, and the frame is an idle one. -/
  | tooLarge {d' : EnergyVoiceActivityDetector} {ended : VadSpeechEnded} {rest : List VadEvent} :
      ¬d.config.Within (act ++ [frame]) → ended.utterance.frames = act →
      outcome (processIdle uuid5 frame) (d.accepting frame).cleared = (.ok rest, d') →
      Treated uuid5 d act frame (.ended ended :: rest) d'

theorem EnergyVoiceActivityDetector.ProcessStep.treated (h : ProcessStep uuid5 d frame emitted d')
    (hact : d.activeFrames = some act) : Treated uuid5 d act frame emitted d' := by
  cases h with
  | idle hidle => exact absurd (hidle.activeFrames.symm.trans hact) (by simp)
  | active hactive hstep =>
    obtain rfl := Option.some.inj (hact.symm.trans hactive.activeFrames)
    cases hstep with
    | grows _ hgrown => exact .joins hgrown.activeFrames
    | ends _ _ _ _ _ hframes => exact .last hframes
    | overflows hover _ _ hframes _ _ _ hidle => exact .tooLarge hover hframes hidle

/-- No two of the names that some frames could give an utterance collide. -/
def Distinguishes (uuid5 : UUID → String → UUID) (frames : List PcmFrame) : Prop :=
  ∀ f ∈ frames, ∀ g ∈ frames, uuid5 f.streamId (speechName f.sequence) =
    uuid5 g.streamId (speechName g.sequence) → speechName f.sequence = speechName g.sequence

/-- Segments of one stream are told apart by their identifiers. -/
theorem Cut.nodup (h : Cut uuid5 past segments starts) (huuid : Distinguishes uuid5 past) :
    (segments.map fun s => s.started.utteranceId).Nodup := by
  have hids : (segments.map fun s => s.started.utteranceId) =
      starts.map fun f => uuid5 f.streamId (speechName f.sequence) := by
    have hnames := h.names
    clear h
    induction hnames with
    | nil => rfl
    | cons hname _ ih => rw [List.map_cons, List.map_cons, ih, hname.started]
  rw [hids, List.Nodup, List.pairwise_map]
  refine h.sorted.imp_of_mem fun {f g} hf hg hlt heq => ?_
  have hname := huuid f (h.starts_mem f hf) g (h.starts_mem g hg) heq
  exact hlt.ne (speechName_injective hname)

/-- The end of a stream: the segments so far, and the one under way. -/
theorem Progress.finish (hinv : d.Inv past) (h : Progress uuid5 d past events) :
    ∃ segments starts event, Cut uuid5 (past ++ d.retained) segments starts ∧
      outcome finishStream d = (.ok event, make d.config) ∧
      segments.flatMap Segment.events = events ++ (event.map VadEvent.ended).toList := by
  obtain ⟨event, hfinish, hevent⟩ := outcome_finishStream hinv
  have horder := hinv.carries.inOrder
  cases h with
  | @idle _ starts segments hidle hcut =>
    rcases hevent with ⟨rfl, -⟩ | ⟨_, act, _, _, -, hactive, -⟩
    · exact ⟨segments, starts, none, hcut.gap _, hfinish, (List.append_nil _).symm⟩
    · exact absurd (hidle.activeFrames.symm.trans hactive.activeFrames) (by simp)
  | @active act starts segments first named started hactive hnamed hid hcut =>
    rcases hevent with ⟨-, run, hidle⟩ | ⟨ended, act', id, _, rfl, hactive', hended, hutt, hframes⟩
    · exact absurd (hidle.activeFrames.symm.trans hactive.activeFrames) (by simp)
    · obtain rfl : act' = act :=
        Option.some.inj (hactive'.activeFrames.symm.trans hactive.activeFrames)
      obtain rfl : started.utteranceId = id :=
        Option.some.inj (hactive.utteranceId.symm.trans hactive'.utteranceId)
      rw [hactive.retained] at horder ⊢
      refine ⟨_, _, some ended, hcut.finish hnamed hid hended hutt hframes horder, hfinish, ?_⟩
      rw [flatMap_segment, List.append_assoc]
      rfl

/-- **The detector cuts its stream into utterances.** Of a stream whose frames are all
accepted, the events are those of some segments, started and ended in turn; the two events
of a segment bear one identifier, named after a sequence number that no other segment is
named after; the frames of the segments are blocks of the stream; and a frame is left out of
the utterance under way only where that would be over a limit. -/
theorem capture_segments {config : EnergyVadConfig} {frames : List PcmFrame}
    (h : outcome (processAll uuid5 frames) (make config) = (.ok events, d)) :
    ∃ segments starts,
      outcome (capture uuid5 frames) (make config) =
        (.ok (segments.flatMap Segment.events), make config) ∧
      List.Forall₂ (Segment.Names uuid5) segments starts ∧
      starts.Pairwise (fun f g => f.sequence < g.sequence) ∧
      (Distinguishes uuid5 frames → (segments.map fun s => s.started.utteranceId).Nodup) ∧
      Blocks frames (segments.map Segment.frames) ∧
      ∀ pre frame post, frames = pre ++ frame :: post →
        ∃ before d₀ emitted d₁, outcome (processAll uuid5 pre) (make config) = (.ok before, d₀) ∧
          outcome (process uuid5 frame) d₀ = (.ok emitted, d₁) ∧
          ∀ act, d₀.activeFrames = some act → Treated uuid5 d₀ act frame emitted d₁ := by
  obtain ⟨past, hinv, hprogress, hpast, hconfig⟩ :=
    processAll_progress (make_inv config) (make_progress config) h
  -- `finish` ends at most the utterance under way
  obtain ⟨segments, starts, event, hcut, hfinish, hevents⟩ := hprogress.finish hinv
  rw [hpast] at hcut
  refine ⟨segments, starts, ?_, hcut.names, hcut.sorted, hcut.nodup, hcut.blocks,
    fun pre frame post hframes => ?_⟩
  · rw [capture, outcome_bind_of_ok h, outcome_bind_of_ok hfinish, hevents, hconfig]
    cases event with
    | none => exact congrArg (fun es => (Except.ok es, make config)) (List.append_nil _).symm
    | some ended => rfl
  · subst hframes
    obtain ⟨before, d₀, after, hpre, hpost⟩ := processAll_append h
    rw [processAll, outcome_bind_eq_ok] at hpost
    obtain ⟨emitted, d₁, hprocess, -⟩ := hpost
    refine ⟨before, d₀, emitted, d₁, hpre, hprocess, fun act hact => ?_⟩
    obtain ⟨past₀, hinv₀, -, -, -⟩ :=
      processAll_progress (make_inv config) (make_progress config) hpre
    -- a frame the detector turns away would have stopped the run
    rcases process_step uuid5 hinv₀ frame with ⟨message, -, herr⟩ | ⟨_, _, hok, -, hstep⟩
    · rw [herr] at hprocess
      cases hprocess
    · obtain ⟨rfl, rfl⟩ : _ = emitted ∧ _ = d₁ := by simpa using hok.symm.trans hprocess
      exact hstep.treated hact

/-- A loud frame between two silent ones is an utterance that the second one ends. -/
theorem capture_segments_silence :
    let format : PcmFormat := ⟨8000, 1, .s16Le, by decide, by decide⟩
    let config : EnergyVadConfig := ⟨1000, 500, 1, 1, 0, 1, 8, by decide, by decide, by decide,
      by decide, by decide, by decide, by decide⟩
    let frames : List PcmFrame :=
      [⟨7, 0, 0, format, [0, 0], by decide, by decide⟩,
        ⟨7, 1, 125000, format, [255, 127], by decide, by decide⟩,
        ⟨7, 2, 250000, format, [0, 0], by decide, by decide⟩]
    ∃ segments : List Segment,
      (outcome (capture (fun i name => i + name.length) frames) (make config)).1 =
        .ok (segments.flatMap Segment.events) ∧
      Blocks frames (segments.map Segment.frames) := by
  intro format config frames
  have hok : (outcome (processAll (fun i name => i + name.length) frames)
      (make config)).1.isOk = true := by
    decide +kernel
  rcases h : outcome (processAll (fun i name => i + name.length) frames) (make config) with
    ⟨e | events, d⟩
  · rw [h] at hok
    cases hok
  · obtain ⟨segments, starts, hcapture, -, -, -, hblocks, -⟩ := capture_segments h
    exact ⟨segments, by rw [hcapture], hblocks⟩

end Eeveetuber
