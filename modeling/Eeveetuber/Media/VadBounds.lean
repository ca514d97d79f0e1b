import Eeveetuber.Foundation.Machine
import Eeveetuber.Media.VadSteps

/-!
# The memory of a detector is bounded

A detector holds live audio, and what it holds at any time is no more than one
utterance may have: `Eeveetuber.detector_bounded`, for any calls in any order.
The counters it decides by are the sums they stand for, so that the bounds it
checks on the counters are bounds on the audio. Nor does a detector ever fail by
itself: what it raises is the verdict on a frame (`Eeveetuber.detector_never_fails`).
-/

namespace Eeveetuber

open Foundation Stateful

/-! ### Calls in any order -/

/-- A call of one of the methods of a detector. -/
inductive VadCall where
  | process (frame : PcmFrame)
  | finishStream

/-- Make a call; it answers with the events it emits. -/
def VadCall.perform (uuid5 : UUID → String → UUID) : VadCall → VadM (List VadEvent)
  | .process frame => EnergyVoiceActivityDetector.process uuid5 frame
  | .finishStream => do
    match ← EnergyVoiceActivityDetector.finishStream with
    | none => return []
    | some ended => return [.ended ended]

/-- Any calls in any order, on a detector of any configuration. -/
def vadMachine (uuid5 : UUID → String → UUID) :
    Machine EnergyVoiceActivityDetector VadCall where
  start d := ∃ config, d = .make config
  next d c := some (outcome (c.perform uuid5) d).2

namespace EnergyVoiceActivityDetector

/-- Every utterance among some events is within the bounds. -/
def EmitsWithin (c : EnergyVadConfig) (events : List VadEvent) : Prop :=
  ∀ ended, .ended ended ∈ events → c.Within ended.utterance.frames

section Bounds

variable {uuid5 : UUID → String → UUID} {d d' : EnergyVoiceActivityDetector}
  {frame : PcmFrame} {run act past : List PcmFrame} {events : List VadEvent}

theorem IdleStep.emitsWithin (h : IdleStep uuid5 d run frame events d') :
    EmitsWithin d.config events := by
  intro ended hmem
  cases h with
  | quiet | starts => simp at hmem
  | startsAndEnds _ _ _ _ _ _ _ _ hframes hwithin =>
    obtain rfl : ended = _ := by simpa using hmem
    rw [hframes]
    exact hwithin

theorem ActiveStep.emitsWithin {utteranceId : UUID} {first : PcmFrame}
    (h : ActiveStep uuid5 d act utteranceId first frame events d') :
    EmitsWithin d.config events := by
  intro ended hmem
  cases h with
  | grows => cases hmem
  | ends _ _ _ _ _ hframes hwithin =>
    obtain rfl : ended = _ := by simpa using hmem
    rw [hframes]
    exact hwithin
  | overflows _ _ _ hframes _ hwithin _ _ hstep =>
    rcases List.mem_cons.mp hmem with hmem | hmem
    · obtain rfl : ended = _ := by simpa using hmem
      rw [hframes]
      exact hwithin
    · exact hstep.emitsWithin ended hmem

theorem ProcessStep.emitsWithin (h : ProcessStep uuid5 d frame events d') :
    EmitsWithin d.config events := by
  cases h with
  | idle _ hstep => exact hstep.emitsWithin
  | active _ hstep => exact hstep.emitsWithin

/-- **One call** keeps the invariant, and hands out no utterance over the bounds. -/
theorem call_inv (uuid5 : UUID → String → UUID) (h : d.Inv past) (c : VadCall) :
    (∃ past', (outcome (c.perform uuid5) d).2.Inv past') ∧
      ∀ events d', outcome (c.perform uuid5) d = (.ok events, d') →
        EmitsWithin d.config events := by
  cases c with
  | process frame =>
    change (∃ past', (outcome (process uuid5 frame) d).2.Inv past') ∧
      ∀ events d', outcome (process uuid5 frame) d = (.ok events, d') → _
    rcases process_step uuid5 h frame with ⟨message, -, herr⟩ | ⟨events, d', hok, hcarries, hstep⟩
    · rw [herr]
      exact ⟨⟨past, h⟩, fun events d' heq => by cases heq⟩
    · rw [hok]
      obtain ⟨⟨past', hinv, -⟩, -⟩ := hstep.inv hcarries
      refine ⟨⟨past', hinv⟩, fun events d' heq => ?_⟩
      cases heq
      exact hstep.emitsWithin
  | finishStream =>
    obtain ⟨event, hok, hevent⟩ := outcome_finishStream h
    rw [VadCall.perform, outcome_bind_of_ok hok]
    rcases hevent with ⟨rfl, -⟩ | ⟨ended, act, utteranceId, first, rfl, hactive, -, -, hframes⟩
    · refine ⟨⟨[], make_inv d.config⟩, fun events d' heq => ?_⟩
      cases heq
      intro ended hmem
      cases hmem
    · refine ⟨⟨[], make_inv d.config⟩, fun events d' heq => ?_⟩
      cases heq
      intro ended' hmem
      obtain rfl : ended' = ended := by simpa using hmem
      rw [hframes]
      exact hactive.within

theorem reachable_inv (h : (vadMachine uuid5).Reachable d) : ∃ past, d.Inv past := by
  refine h.invariant (I := fun d => ∃ past, d.Inv past) (fun d hstart => ?_)
    fun d c d' _ hd _ hn => ?_
  · obtain ⟨config, rfl⟩ := hstart
    exact ⟨[], make_inv config⟩
  · obtain ⟨past, hinv⟩ := hd
    obtain rfl := Option.some.inj hn
    exact (call_inv uuid5 hinv c).1

end Bounds

end EnergyVoiceActivityDetector

open EnergyVoiceActivityDetector in
/-- **The memory of a detector is bounded**, whatever it is called with: its counters are
the sums over the frames it holds, which are no more than an utterance may have; the
candidate run is the end of the history; and every utterance it hands out is within the
bounds. -/
theorem detector_bounded {uuid5 : UUID → String → UUID} {d : EnergyVoiceActivityDetector}
    (h : (vadMachine uuid5).Reachable d) :
    (d.historyBytes = byteCount d.history ∧ d.historyDurationNs = audioDurationNs d.history) ∧
      (d.activeBytes = byteCount (d.activeFrames.getD []) ∧
        d.activeDurationNs = audioDurationNs (d.activeFrames.getD [])) ∧
      (∃ run, run <:+ d.history ∧ d.Follows run ∧
        ∀ f ∈ run, isAbove f d.config.speechStartThreshold) ∧
      d.history.length ≤ d.config.preRollFrames + d.config.speechStartFrames ∧
      d.config.Within (d.history ++ d.activeFrames.getD []) ∧
      ∀ (c : VadCall) (events : List VadEvent) (d' : EnergyVoiceActivityDetector),
        outcome (c.perform uuid5) d = (.ok events, d') → EmitsWithin d.config events := by
  obtain ⟨past, hinv⟩ := reachable_inv h
  have hcalls := fun c => (call_inv uuid5 hinv c).2
  rcases hinv.phase with ⟨run, hidle⟩ | ⟨act, utteranceId, first, hactive⟩
  · have hover := hidle.not_over
    rw [hidle.activeFrames, Option.getD_none, List.append_nil]
    refine ⟨hidle.historyCounted, ⟨hidle.activeBytes, hidle.activeDurationNs⟩,
      ⟨run, hidle.suffix, hidle.follows, hidle.loud⟩, ?_, EnergyVadConfig.within_of_not_over hover,
      hcalls⟩
    exact not_lt.mp fun hlt => hover (Or.inl hlt)
  · rw [hactive.activeFrames, Option.getD_some]
    refine ⟨hactive.historyCounted, ⟨hactive.activeBytes, hactive.activeDurationNs⟩,
      ⟨[], List.nil_suffix, hactive.follows, by simp⟩, ?_, ?_, hcalls⟩
    · rw [hactive.history]
      exact Nat.zero_le _
    · rw [hactive.history, List.nil_append]
      exact hactive.within

/-- A loud frame begins an utterance, and is all that is held. -/
theorem detector_bounded_active : ∃ d : EnergyVoiceActivityDetector,
    (d.history.length, d.activeBytes, d.candidateCount) = (0, 2, 0) ∧
      d.config.Within (d.history ++ d.activeFrames.getD []) := by
  have h : ((vadMachine fun i name => i + name.length).run
      (.make ⟨1000, 500, 1, 2, 0, 1, 4, by decide, by decide, by decide, by decide, by decide,
        by decide, by decide⟩)
      [.process ⟨7, 0, 0, ⟨8000, 1, .s16Le, by decide, by decide⟩, [255, 127], by decide,
        by decide⟩]).map
        (fun d => (d.history.length, d.activeBytes, d.candidateCount)) = some (0, 2, 0) := by
    decide +kernel
  obtain ⟨d, hd, hfields⟩ := Option.map_eq_some_iff.mp h
  have hreach := Machine.reachable_of_run (M := vadMachine fun i name => i + name.length)
    ⟨_, rfl⟩ hd
  exact ⟨d, hfields, (detector_bounded hreach).2.2.2.2.1⟩

/-! ### Nothing fails inside -/

open EnergyVoiceActivityDetector in
/-- **A detector never fails internally.** A frame is turned away by the checks of the input,
with a `ValueError` and no other effect, or it is processed; and a stream can always be
finished. -/
theorem detector_never_fails {uuid5 : UUID → String → UUID} {d : EnergyVoiceActivityDetector}
    (h : (vadMachine uuid5).Reachable d) :
    (∀ frame, (∃ message, outcome (validateStreamFrame frame) d = (.error (.value message), d) ∧
        outcome (process uuid5 frame) d = (.error (.value message), d)) ∨
      ∃ events d₁ d', outcome (validateStreamFrame frame) d = (.ok (), d₁) ∧
        outcome (process uuid5 frame) d = (.ok events, d')) ∧
      ∃ event, outcome finishStream d = (.ok event, make d.config) := by
  obtain ⟨past, hinv⟩ := reachable_inv h
  constructor
  · intro frame
    rcases process_step uuid5 hinv frame with ⟨message, herr⟩ | ⟨events, d', hprocess, -⟩
    · exact .inl ⟨message, herr⟩
    · -- a frame that is processed has passed the checks of the input
      rcases validateStreamFrame_step hinv frame with ⟨message, herr⟩ | ⟨hok, -⟩
      · rw [process, outcome_bind_of_error herr] at hprocess
        cases hprocess
      · exact .inr ⟨events, _, d', hok, hprocess⟩
  · obtain ⟨event, hfinish, -⟩ := outcome_finishStream hinv
    exact ⟨event, hfinish⟩

open EnergyVoiceActivityDetector in
/-- A frame of another stream is turned away. -/
theorem detector_never_fails_foreign : ∃ (d : EnergyVoiceActivityDetector) (message : String),
    outcome (process (fun i name => i + name.length) ⟨8, 1, 62500,
      ⟨8000, 1, .s16Le, by decide, by decide⟩, [255, 127], by decide, by decide⟩) d =
        (.error (.value message), d) ∧
      ∃ event, outcome finishStream d = (.ok event, make d.config) := by
  have h : ((vadMachine fun i name => i + name.length).run
      (.make ⟨1000, 500, 1, 2, 0, 1, 4, by decide, by decide, by decide, by decide, by decide,
        by decide, by decide⟩)
      [.process ⟨7, 0, 0, ⟨8000, 1, .s16Le, by decide, by decide⟩, [255, 127], by decide,
        by decide⟩]).map
        (fun d => (outcome (validateStreamFrame ⟨8, 1, 62500,
          ⟨8000, 1, .s16Le, by decide, by decide⟩, [255, 127], by decide, by decide⟩) d).1.isOk) =
        some false := by
    decide +kernel
  obtain ⟨d, hd, hturned⟩ := Option.map_eq_some_iff.mp h
  have hreach := Machine.reachable_of_run (M := vadMachine fun i name => i + name.length)
    ⟨_, rfl⟩ hd
  obtain ⟨hframes, hfinish⟩ := detector_never_fails hreach
  rcases hframes _ with ⟨message, -, hprocess⟩ | ⟨_, _, _, hok, -⟩
  · exact ⟨d, message, hprocess, hfinish⟩
  · rw [hok] at hturned
    cases hturned

end Eeveetuber
