import Eeveetuber.Foundation.Runs
import Eeveetuber.Media.VadSegments

/-!
# When speech starts and ends

What a detector is to do, said without its counters. Speech starts at the frame that completes a
run of loud frames since the stream began or the last utterance ended, and the utterance begins
with it and so many frames before; it ends at the frame that completes a run of silent frames
since then. `Eeveetuber.hear` is this description: it remembers all frames it has heard since the
last event, and asks of them only whether a run is completed.

`Eeveetuber.vad_exact` says that **the detector emits what the description says**, at every
frame of a stream of which no utterance reaches a limit. The detector remembers less: of the
frames since the last event it keeps those that fit into its history
(`Eeveetuber.EnergyVadConfig.fitting`), and of the runs at the end their length and where they
began.
-/

namespace Eeveetuber

open Foundation Stateful EnergyVadConfig EnergyVoiceActivityDetector

/-! ### The description -/

namespace EnergyVadConfig

/-- A frame whose mean square is at least that of the start threshold. -/
def loud (c : EnergyVadConfig) (frame : PcmFrame) : Bool := isAbove frame c.speechStartThreshold

/-- A frame whose mean square is below that of the end threshold. -/
def silent (c : EnergyVadConfig) (frame : PcmFrame) : Bool := !isAbove frame c.speechEndThreshold

/-- The frames that complete the run, and as many before them as there are, up to the pre-roll. -/
def opening (c : EnergyVadConfig) (heard : List PcmFrame) : List PcmFrame :=
  heard.rtake (min c.preRollFrames (heard.length - c.speechStartFrames) + c.speechStartFrames)

/-- Frames that reach a limit of an utterance. -/
def Reaches (c : EnergyVadConfig) (frames : List PcmFrame) : Prop :=
  c.maxUtteranceBytes ≤ byteCount frames ∨ c.maxUtteranceDurationNs ≤ audioDurationNs frames

end EnergyVadConfig

/-- What has been heard since the last event. -/
inductive Hearing where
  /-- The frames since the stream began or an utterance ended. -/
  | idle (heard : List PcmFrame)
  /-- The frames with which an utterance opened, and those since. -/
  | speech (opening heard : List PcmFrame)

/-- The frames of the utterance under way. -/
def Hearing.utterance : Hearing → Option (List PcmFrame)
  | idle _ => none
  | speech opening heard => some (opening ++ heard)

/-- Another frame is heard. -/
def hear (c : EnergyVadConfig) : Hearing → PcmFrame → Hearing
  | .idle heard, frame =>
    if Completes c.loud c.speechStartFrames (heard ++ [frame]) then
      .speech (c.opening (heard ++ [frame])) []
    else .idle (heard ++ [frame])
  | .speech opening heard, frame =>
    if Completes c.silent c.speechEndFrames (heard ++ [frame]) then .idle []
    else .speech opening (heard ++ [frame])

/-- What has been heard of a stream. -/
def hearing (c : EnergyVadConfig) (frames : List PcmFrame) : Hearing :=
  frames.foldl (hear c) (.idle [])

/-- The utterance that a frame is in: one that it starts, or that is under way. -/
def utteranceWith (c : EnergyVadConfig) : Hearing → PcmFrame → List PcmFrame
  | .idle heard, frame =>
    if Completes c.loud c.speechStartFrames (heard ++ [frame]) then c.opening (heard ++ [frame])
    else []
  | .speech opening heard, frame => opening ++ (heard ++ [frame])

/-- No utterance of a stream reaches a limit. -/
def NoneReaches (c : EnergyVadConfig) (frames : List PcmFrame) : Prop :=
  ∀ pre frame post, frames = pre ++ frame :: post →
    ¬c.Reaches (utteranceWith c (hearing c pre) frame)

instance (c : EnergyVadConfig) (frames : List PcmFrame) : Decidable (c.Reaches frames) := by
  unfold EnergyVadConfig.Reaches
  infer_instance

/-- It is asked of every frame. -/
theorem noneReaches_iff {c : EnergyVadConfig} {frames : List PcmFrame} :
    NoneReaches c frames ↔ ∀ i : Fin frames.length,
      ¬c.Reaches (utteranceWith c (hearing c (frames.take i)) (frames.get i)) := by
  constructor
  · intro h i
    refine h _ _ (frames.drop (i + 1)) ?_
    rw [List.get_eq_getElem, List.getElem_cons_drop, List.take_append_drop]
  · rintro h pre frame post rfl
    have hframe := h ⟨pre.length, by simp⟩
    simpa using hframe

instance (c : EnergyVadConfig) (frames : List PcmFrame) : Decidable (NoneReaches c frames) :=
  decidable_of_iff _ noneReaches_iff.symm

/-- Speech is announced to have started: with the frames `heard` a run of loud frames is
completed, the first of which is where it started. -/
structure Starts (c : EnergyVadConfig) (heard : List PcmFrame) (frame : PcmFrame)
    (started : VadSpeechStarted) : Prop where
  trigger : started.triggerSequence = frame.sequence
  preRoll : started.preRollFrameCount = min c.preRollFrames (heard.length - c.speechStartFrames)
  start : some started.atMonotonicNs =
    (heard.rtake c.speechStartFrames).head?.map (·.capturedAtMonotonicNs)

/-- Speech is announced to have ended: with the frames `heard` a run of silent frames is
completed, the first of which is where it ended. -/
structure Ends (c : EnergyVadConfig) (opening heard : List PcmFrame) (ended : VadSpeechEnded) :
    Prop where
  reason : ended.reason = .silence
  frames : ended.utterance.frames = opening ++ heard
  stop : some ended.atMonotonicNs =
    (heard.rtake c.speechEndFrames).head?.map (·.capturedAtMonotonicNs)

/-- **What is to be emitted at a frame.** -/
def Emits (c : EnergyVadConfig) (h : Hearing) (frame : PcmFrame) (events : List VadEvent) : Prop :=
  match h with
  | .idle heard =>
    if Completes c.loud c.speechStartFrames (heard ++ [frame]) then
      ∃ started, events = [.started started] ∧ Starts c (heard ++ [frame]) frame started
    else events = []
  | .speech opening heard =>
    if Completes c.silent c.speechEndFrames (heard ++ [frame]) then
      ∃ ended, events = [.ended ended] ∧ Ends c opening (heard ++ [frame]) ended
    else events = []

/-! ### What the detector remembers -/

namespace EnergyVadConfig

variable {c : EnergyVadConfig} {run heard frames l : List PcmFrame} {frame : PcmFrame}

theorem Over.append (h : c.Over frames) (l : List PcmFrame) : c.Over (frames ++ l) := by
  rcases h with hlen | hbytes | hdur
  · refine Or.inl ?_
    rw [List.length_append]
    omega
  · refine Or.inr (Or.inl ?_)
    rw [byteCount_append]
    omega
  · refine Or.inr (Or.inr ?_)
    rw [audioDurationNs_append]
    omega

/-- What was dropped is not missed. -/
theorem fitting_concat (frame : PcmFrame) :
    ∀ frames, c.fitting (c.fitting frames ++ [frame]) = c.fitting (frames ++ [frame])
  | [] => rfl
  | f :: fs => by
    by_cases hover : c.Over (f :: fs)
    · have hover' : c.Over (f :: (fs ++ [frame])) := hover.append [frame]
      rw [fitting, if_pos hover, fitting_concat frame fs, List.cons_append, fitting, if_pos hover']
    · rw [fitting, if_neg hover]

theorem within_of_not_reaches (h : ¬c.Reaches frames) : c.Within frames := by
  simp only [Reaches, not_or, not_le] at h
  exact ⟨h.1.le, h.2.le⟩

theorem Within.suffix (h : c.Within frames) (hl : l <:+ frames) : c.Within l :=
  ⟨(byteCount_le_of_suffix hl).trans h.bytes, (audioDurationNs_le_of_suffix hl).trans h.duration⟩

theorem Within.left (h : c.Within (frames ++ l)) : c.Within frames := by
  have hbytes := h.bytes
  have hduration := h.duration
  rw [byteCount_append] at hbytes
  rw [audioDurationNs_append] at hduration
  exact ⟨by omega, by omega⟩

theorem length_opening (h : c.speechStartFrames ≤ heard.length) :
    (c.opening heard).length =
      min c.preRollFrames (heard.length - c.speechStartFrames) + c.speechStartFrames := by
  rw [opening, length_rtake]
  omega

/-- The frames with which an utterance opens are those that the history holds. -/
theorem opening_eq_fitting (h : c.speechStartFrames ≤ heard.length)
    (hroom : ¬c.Reaches (c.opening heard)) : c.opening heard = c.fitting heard := by
  have hwithin := within_of_not_reaches hroom
  have hlength := length_opening h
  have hover : ¬c.Over (c.opening heard) := by
    rintro (hlen | hbytes | hdur)
    · omega
    · exact absurd hwithin.bytes (not_le.mpr hbytes)
    · exact absurd hwithin.duration (not_le.mpr hdur)
  refine (suffix_fitting hover (rtake_suffix _ heard)).eq_of_length_le ?_
  have hfits : (c.fitting heard).length ≤ c.preRollFrames + c.speechStartFrames := by
    by_contra hlen
    exact not_over_fitting (Or.inl (not_le.mp hlen))
  have hle : (c.fitting heard).length ≤ heard.length := c.fitting_suffix.length_le
  omega

/-- The candidate run is part of the loud frames at the end. -/
theorem nextRun_suffix_rtakeWhile (h : run <:+ heard.rtakeWhile c.loud) :
    c.nextRun run frame <:+ (heard ++ [frame]).rtakeWhile c.loud := by
  rw [List.rtakeWhile_concat, loud]
  by_cases hloud : isAbove frame c.speechStartThreshold = true
  · rw [if_pos hloud]
    exact nextRun_suffix h
  · rw [if_neg hloud, nextRun, if_neg hloud]

/-- It is all of them, unless they are too large for an utterance. -/
theorem nextRun_eq_rtakeWhile
    (h : c.Within (heard.rtakeWhile c.loud) → run = heard.rtakeWhile c.loud)
    (hwithin : c.Within ((heard ++ [frame]).rtakeWhile c.loud)) :
    c.nextRun run frame = (heard ++ [frame]).rtakeWhile c.loud := by
  rw [List.rtakeWhile_concat, loud] at hwithin ⊢
  by_cases hloud : isAbove frame c.speechStartThreshold = true
  · rw [if_pos hloud] at hwithin ⊢
    obtain rfl := h hwithin.left
    rw [nextRun, if_pos hloud, if_neg]
    rintro (hbytes | hdur)
    · exact absurd hwithin.bytes (not_le.mpr hbytes)
    · exact absurd hwithin.duration (not_le.mpr hdur)
  · rw [if_neg hloud, nextRun, if_neg hloud]

end EnergyVadConfig

/-- A detector that has heard some frames since speech ended, of which it holds those that fit. -/
structure Hears (c : EnergyVadConfig) (d : EnergyVoiceActivityDetector)
    (heard run : List PcmFrame) : Prop where
  config : d.config = c
  idle : d.Idle run
  history : d.history = c.fitting heard
  suffix : run <:+ heard.rtakeWhile c.loud
  whole : c.Within (heard.rtakeWhile c.loud) → run = heard.rtakeWhile c.loud
  short : (heard.rtakeWhile c.loud).length < c.speechStartFrames

/-- A detector that has heard some frames since speech started, and counts the silent ones. -/
structure Attends (c : EnergyVadConfig) (d : EnergyVoiceActivityDetector)
    (opening heard : List PcmFrame) : Prop where
  config : d.config = c
  active : ∃ utteranceId first, d.Active (opening ++ heard) utteranceId first
  silenceCount : d.silenceCount = (heard.rtakeWhile c.silent).length
  silenceStartedAtNs : d.silenceStartedAtNs =
    (heard.rtakeWhile c.silent).head?.map (·.capturedAtMonotonicNs)
  short : (heard.rtakeWhile c.silent).length < c.speechEndFrames

/-- **The detector knows what has been heard.** -/
inductive Tracks (c : EnergyVadConfig) (d : EnergyVoiceActivityDetector) : Hearing → Prop
  | idle {heard run : List PcmFrame} : Hears c d heard run → Tracks c d (.idle heard)
  | speech {opening heard : List PcmFrame} : Attends c d opening heard →
      Tracks c d (.speech opening heard)

variable {uuid5 : UUID → String → UUID} {c : EnergyVadConfig} {d d' : EnergyVoiceActivityDetector}
  {frame first : PcmFrame} {heard run opening act past frames : List PcmFrame} {utteranceId : UUID}
  {h : Hearing} {events emitted : List VadEvent}

theorem Hears.accepting (h : Hears c d heard run) (frame : PcmFrame) :
    Hears c (d.accepting frame) heard run :=
  ⟨h.config, h.idle.accepting frame, h.history, h.suffix, h.whole, h.short⟩

theorem Attends.accepting (h : Attends c d opening heard) (frame : PcmFrame) :
    Attends c (d.accepting frame) opening heard := by
  obtain ⟨utteranceId, first, hactive⟩ := h.active
  exact ⟨h.config, ⟨utteranceId, first, hactive.accepting frame⟩, h.silenceCount,
    h.silenceStartedAtNs, h.short⟩

/-- A detector that holds nothing has heard nothing. -/
theorem EnergyVoiceActivityDetector.Idle.hears (h : d.Idle []) (hhistory : d.history = []) :
    Hears d.config d [] [] :=
  ⟨rfl, h, hhistory, List.nil_suffix, fun _ => rfl, d.config.one_le_startFrames⟩

theorem hears_make (config : EnergyVadConfig) : Hears config (make config) [] [] := by
  rcases (make_inv config).phase with ⟨run, hidle⟩ | ⟨act, utteranceId, first, hactive⟩
  · obtain rfl : run = [] := List.suffix_nil.mp hidle.suffix
    exact hidle.hears rfl
  · cases hactive.activeFrames

/-! ### Speech starts -/

variable (uuid5) in
/-- A frame that completes no run of loud frames. -/
theorem Hears.quiet (h : Hears c d heard run) (hframe : c.Within [frame])
    (hnot : ¬Completes c.loud c.speechStartFrames (heard ++ [frame])) :
    outcome (processIdle uuid5 frame) d = (.ok [], d.remembering run frame) ∧
      Hears c (d.remembering run frame) (heard ++ [frame]) (c.nextRun run frame) := by
  obtain rfl := h.config
  have hsuffix : d.config.nextRun run frame <:+ (heard ++ [frame]).rtakeWhile d.config.loud :=
    nextRun_suffix_rtakeWhile h.suffix
  have hlong := not_le.mp (mt completes_iff.mpr hnot)
  have hshort := hsuffix.length_le.trans_lt hlong
  refine ⟨outcome_processIdle_short h.idle hshort, rfl, h.idle.remembering hframe hshort, ?_,
    hsuffix, fun hwithin => nextRun_eq_rtakeWhile h.whole hwithin, hlong⟩
  show d.config.fitting (d.history ++ [frame]) = _
  rw [h.history, fitting_concat]

/-- No limit is reached while the frames do not reach one. -/
theorem reachedLimitReason_eq_none (h : d.Active act utteranceId first)
    (hroom : ¬d.config.Reaches act) : reachedLimitReason d = none := by
  simp only [Reaches, not_or, not_le] at hroom
  rw [reachedLimitReason, h.activeDurationNs, h.activeBytes, if_neg (by omega), if_neg (by omega)]

/-- The frames before a run are those with the smaller numbers. -/
theorem countP_before {pre rest : List PcmFrame} (h : InOrder (pre ++ first :: rest)) :
    (pre ++ first :: rest).countP (fun f => f.sequence < first.sequence) = pre.length := by
  obtain ⟨-, hrun, hbefore⟩ := List.pairwise_append.mp h
  have hpre : pre.countP (fun f => f.sequence < first.sequence) = pre.length := by
    refine List.countP_eq_length.mpr fun f hf => ?_
    exact decide_eq_true (hbefore f hf first List.mem_cons_self).1
  have hrest : (first :: rest).countP (fun f => f.sequence < first.sequence) = 0 := by
    refine List.countP_eq_zero.mpr fun f hf => ?_
    rw [decide_eq_true_eq, not_lt]
    rcases List.mem_cons.mp hf with rfl | hf
    · exact le_refl _
    · exact ((List.pairwise_cons.mp hrun).1 f hf).1.le
  rw [List.countP_append, hpre, hrest, Nat.add_zero]

variable (uuid5) in
/-- A frame that completes a run of loud frames. -/
theorem Hears.starts (h : Hears c d heard run) (hframe : c.Within [frame])
    (horder : InOrder (d.history ++ [frame])) (hstream : d.streamId = some frame.streamId)
    (hcompletes : Completes c.loud c.speechStartFrames (heard ++ [frame]))
    (hroom : ¬c.Reaches (c.opening (heard ++ [frame]))) :
    ∃ started d', outcome (processIdle uuid5 frame) d = (.ok [.started started], d') ∧
      Starts c (heard ++ [frame]) frame started ∧
      Attends c d' (c.opening (heard ++ [frame])) [] := by
  obtain rfl := h.config
  have hle : d.config.speechStartFrames ≤ (heard ++ [frame]).length := hcompletes.1
  have hkept : d.config.fitting (d.history ++ [frame]) = d.config.opening (heard ++ [frame]) := by
    rw [h.history, fitting_concat, opening_eq_fitting hle hroom]
  -- the run at the end is no longer than what completes it, so it was never given up
  have hlast : (heard ++ [frame]).rtakeWhile d.config.loud =
      (heard ++ [frame]).rtake d.config.speechStartFrames := rtakeWhile_eq_rtake h.short hcompletes
  have hend : (heard ++ [frame]).rtake d.config.speechStartFrames <:+
      d.config.opening (heard ++ [frame]) := by
    refine List.suffix_of_suffix_length_le (rtake_suffix _ _) (rtake_suffix _ _) ?_
    rw [length_rtake, length_opening hle]
    omega
  have hrun : d.config.nextRun run frame =
      (heard ++ [frame]).rtake d.config.speechStartFrames := by
    rw [← hlast]
    refine nextRun_eq_rtakeWhile h.whole ?_
    rw [hlast]
    exact (within_of_not_reaches hroom).suffix hend
  have hlength : (d.config.nextRun run frame).length = d.config.speechStartFrames := by
    rw [hrun, length_rtake]
    omega
  obtain ⟨first, rest, hcons⟩ : ∃ first rest, d.config.nextRun run frame = first :: rest := by
    refine List.exists_cons_of_length_pos ?_
    rw [hlength]
    exact d.config.one_le_startFrames
  have hfirst : (d.config.nextRun run frame).head? = some first := by
    rw [hcons]
    rfl
  have hactive : ((d.remembering run frame).begun
      (announced uuid5 d first frame).utteranceId first).Active
      (d.config.opening (heard ++ [frame])) (announced uuid5 d first frame).utteranceId first := by
    rw [← hkept]
    exact h.idle.begun_active hframe hfirst
  refine ⟨announced uuid5 d first frame, (d.remembering run frame).begun
    (announced uuid5 d first frame).utteranceId first, ?_, ⟨rfl, ?_, ?_⟩, rfl,
    ⟨(announced uuid5 d first frame).utteranceId, first, ?_⟩, rfl, rfl,
    d.config.one_le_endFrames⟩
  · rw [outcome_processIdle_long h.idle (by omega) hstream hfirst, outcome_get_bind,
      reachedLimitReason_eq_none hactive hroom]
    rfl
  · obtain ⟨pre, hpre⟩ := hend
    rw [← hrun, hcons] at hpre
    have hinOrder : InOrder (pre ++ first :: rest) := by
      rw [hpre, ← hkept]
      exact horder.sublist fitting_suffix.sublist
    have hcount := length_opening hle
    have hlength' : (first :: rest).length = d.config.speechStartFrames := hcons ▸ hlength
    show (d.config.fitting (d.history ++ [frame])).countP _ = _
    rw [hkept, ← hpre, countP_before hinOrder]
    rw [← hpre, List.length_append] at hcount
    omega
  · rw [← hrun, hfirst]
    rfl
  · rw [List.append_nil]
    exact hactive

/-! ### Speech ends -/

/-- The count of a frame in an utterance. -/
theorem hushed_silence (d : EnergyVoiceActivityDetector) (frame : PcmFrame) (hconfig : d.config = c)
    (hcount : d.silenceCount = (heard.rtakeWhile c.silent).length)
    (hsince : d.silenceStartedAtNs =
      (heard.rtakeWhile c.silent).head?.map (·.capturedAtMonotonicNs)) :
    (d.hushed frame).silenceCount = ((heard ++ [frame]).rtakeWhile c.silent).length ∧
      (d.hushed frame).silenceStartedAtNs =
        ((heard ++ [frame]).rtakeWhile c.silent).head?.map (·.capturedAtMonotonicNs) := by
  subst hconfig
  rw [List.rtakeWhile_concat, hushed]
  by_cases hsilent : isAbove frame d.config.speechEndThreshold = true
  · have hnot : ¬d.config.silent frame = true := by
      rw [silent, hsilent]
      exact Bool.false_ne_true
    rw [if_pos hsilent, if_neg hnot]
    exact ⟨rfl, rfl⟩
  · have hyes : d.config.silent frame = true := by
      rw [silent, Bool.eq_false_iff.mpr hsilent]
      rfl
    rw [if_neg hsilent, if_pos hyes]
    dsimp only
    rw [hcount, hsince, List.length_append]
    refine ⟨rfl, ?_⟩
    -- the first silent frame is where the silence starts
    rcases heard.rtakeWhile d.config.silent with _ | ⟨f, fs⟩
    · rfl
    · rfl

/-- What becomes of an utterance that a frame joins. -/
theorem Attends.joins (h : Attends c d opening heard)
    (horder : InOrder (opening ++ heard ++ [frame]))
    (hroom : ¬c.Reaches (opening ++ (heard ++ [frame]))) :
    ∃ d₂, d₂.origin = d.origin ∧
      (∃ utteranceId first, d₂.Active (opening ++ (heard ++ [frame])) utteranceId first) ∧
      d₂.silenceCount = ((heard ++ [frame]).rtakeWhile c.silent).length ∧
      d₂.silenceStartedAtNs =
        ((heard ++ [frame]).rtakeWhile c.silent).head?.map (·.capturedAtMonotonicNs) ∧
      outcome (processActive uuid5 frame) d = outcome (do
        if c.speechEndFrames ≤ ((heard ++ [frame]).rtakeWhile c.silent).length then
          return [.ended (← finishUtterance .silence)]
        return [] : VadM (List VadEvent)) d₂ := by
  obtain rfl := h.config
  obtain ⟨utteranceId, first, hactive⟩ := h.active
  rw [← List.append_assoc] at hroom
  obtain ⟨hactive', horigin⟩ := hactive.hushed (within_of_not_reaches hroom) horder
  obtain ⟨hcount, hsince⟩ := hushed_silence (d.joined (opening ++ heard ++ [frame])) frame rfl
    h.silenceCount h.silenceStartedAtNs
  have hconfig := config_of_origin horigin
  have hnone := reachedLimitReason_eq_none hactive' (hconfig ▸ hroom)
  have hout : outcome (processActive uuid5 frame) d = _ :=
    outcome_processActive hactive (within_of_not_reaches hroom)
  rw [hnone, hconfig, hcount] at hout
  rw [← List.append_assoc]
  exact ⟨_, horigin, ⟨utteranceId, first, hactive'⟩, hcount, hsince, hout⟩

variable (uuid5) in
/-- **A frame of an utterance** ends it when it completes a run of silent ones. -/
theorem Attends.step (h : Attends c d opening heard)
    (hcarries : d.Carries (past ++ (opening ++ heard ++ [frame])))
    (hroom : ¬c.Reaches (opening ++ (heard ++ [frame]))) :
    ∃ emitted d', outcome (processActive uuid5 frame) d = (.ok emitted, d') ∧
      Emits c (.speech opening heard) frame emitted ∧
      Tracks c d' (hear c (.speech opening heard) frame) := by
  obtain ⟨d₂, horigin, ⟨utteranceId, first, hactive⟩, hcount, hsince, hout⟩ :=
    h.joins (List.pairwise_append.mp hcarries.inOrder).2.1 hroom
  have hconfig : d₂.config = c := (config_of_origin horigin).trans h.config
  rw [hout]
  by_cases hcompletes : Completes c.silent c.speechEndFrames (heard ++ [frame])
  -- the frame completes a run of silence, and the utterance ends
  · rw [if_pos (completes_iff.mp hcompletes)]
    have hcarries₂ := hcarries.congr horigin
    rw [List.append_assoc opening] at hcarries₂
    obtain ⟨ended, hended, -, hreason, -, hframes, -, hstop⟩ :=
      outcome_finishUtterance .silence hactive hcarries₂
    refine ⟨[.ended ended], d₂.cleared, (outcome_bind_of_ok hended).trans rfl, ?_, ?_⟩
    · rw [Emits, if_pos hcompletes]
      refine ⟨ended, rfl, hreason, hframes, ?_⟩
      -- the silence the detector counts is the trailing run of the frames heard
      rw [← rtakeWhile_eq_rtake h.short hcompletes, ← hsince]
      have hpos : 0 < ((heard ++ [frame]).rtakeWhile c.silent).length :=
        lt_of_lt_of_le c.one_le_endFrames (completes_iff.mp hcompletes)
      obtain ⟨f, fs, hcons⟩ := List.exists_cons_of_length_pos hpos
      rw [hcons] at hsince
      rw [hstop rfl _ hsince, hsince]
      rfl
    · rw [hear, if_pos hcompletes]
      have hhears := hactive.cleared_idle.hears hactive.history
      exact .idle (hconfig ▸ hhears)
  · have hlt := not_le.mp (mt completes_iff.mpr hcompletes)
    rw [if_neg (not_le.mpr hlt)]
    refine ⟨[], d₂, rfl, ?_, ?_⟩
    · rw [Emits, if_neg hcompletes]
    · rw [hear, if_neg hcompletes]
      exact .speech ⟨hconfig, ⟨utteranceId, first, hactive⟩, hcount, hsince, hlt⟩

/-! ### Whole streams -/

variable (uuid5) in
/-- **A frame between utterances** starts one when it completes a run of loud ones. -/
theorem Hears.step (h : Hears c d heard run) (hframe : c.Within [frame])
    (hcarries : d.Carries (past ++ (d.history ++ [frame])))
    (hroom : ¬c.Reaches (utteranceWith c (.idle heard) frame)) :
    ∃ emitted d', outcome (processIdle uuid5 frame) d = (.ok emitted, d') ∧
      Emits c (.idle heard) frame emitted ∧ Tracks c d' (hear c (.idle heard) frame) := by
  by_cases hcompletes : Completes c.loud c.speechStartFrames (heard ++ [frame])
  · rw [utteranceWith, if_pos hcompletes] at hroom
    obtain ⟨started, d', hout, hstarts, hattends⟩ :=
      h.starts uuid5 hframe (List.pairwise_append.mp hcarries.inOrder).2.1
        (hcarries.streamId frame (by simp)) hcompletes hroom
    refine ⟨[.started started], d', hout, ?_, ?_⟩
    · rw [Emits, if_pos hcompletes]
      exact ⟨started, rfl, hstarts⟩
    · rw [hear, if_pos hcompletes]
      exact .speech hattends
  · obtain ⟨hout, hhears⟩ := h.quiet uuid5 hframe hcompletes
    refine ⟨[], _, hout, ?_, ?_⟩
    · rw [Emits, if_neg hcompletes]
    · rw [hear, if_neg hcompletes]
      exact .idle hhears

/-- A frame that is not turned away is processed where the detector is. -/
theorem outcome_process (hinv : d.Inv past)
    (hok : outcome (process uuid5 frame) d = (.ok emitted, d')) :
    d.config.Within [frame] ∧ (d.accepting frame).Carries (past ++ d.retained ++ [frame]) ∧
      outcome (if (d.accepting frame).speechActive then processActive uuid5 frame
        else processIdle uuid5 frame) (d.accepting frame) = (.ok emitted, d') := by
  rcases validateStreamFrame_step hinv frame with ⟨message, herr⟩ | ⟨hvalid, hwithin, hcarries⟩
  · rw [process, outcome_bind_of_error herr] at hok
    cases hok
  · rw [process, outcome_bind_of_ok hvalid, outcome_modify_bind, outcome_modify_bind,
      outcome_get_bind] at hok
    exact ⟨hwithin, hcarries, hok⟩

/-- **One frame**: the detector does what the description says, and keeps up with it. -/
theorem Tracks.step (ht : Tracks c d h) (hinv : d.Inv past)
    (hroom : ¬c.Reaches (utteranceWith c h frame))
    (hok : outcome (process uuid5 frame) d = (.ok emitted, d')) :
    Emits c h frame emitted ∧ Tracks c d' (hear c h frame) := by
  obtain ⟨hframe, hcarries, hout⟩ := outcome_process hinv hok
  rw [List.append_assoc] at hcarries
  cases ht with
  | @idle heard run hhears =>
    have hnot : (d.accepting frame).speechActive = false := by
      rw [speechActive, (hhears.idle.accepting frame).activeFrames]
      rfl
    rw [hhears.idle.retained] at hcarries
    rw [hhears.config] at hframe
    obtain ⟨events, d₁, hidle, hemits, htracks⟩ :=
      (hhears.accepting frame).step uuid5 hframe hcarries hroom
    rw [hnot] at hout
    obtain ⟨rfl, rfl⟩ : events = emitted ∧ d₁ = d' := by
      simpa using hidle.symm.trans hout
    exact ⟨hemits, htracks⟩
  | @speech opening heard hattends =>
    obtain ⟨utteranceId, first, hactive⟩ := hattends.active
    have hyes : (d.accepting frame).speechActive = true := by
      rw [speechActive, (hactive.accepting frame).activeFrames]
      rfl
    rw [hactive.retained] at hcarries
    obtain ⟨events, d₁, hspeech, hemits, htracks⟩ :=
      (hattends.accepting frame).step uuid5 hcarries hroom
    rw [hyes] at hout
    obtain ⟨rfl, rfl⟩ : events = emitted ∧ d₁ = d' := by
      simpa using hspeech.symm.trans hout
    exact ⟨hemits, htracks⟩

/-- **A whole stream**: the detector keeps up with the description. -/
theorem tracks_hearing {config : EnergyVadConfig} (hroom : NoneReaches config frames)
    {pre : List PcmFrame} (hpre : pre <+: frames)
    (hout : outcome (processAll uuid5 pre) (make config) = (.ok events, d)) :
    Tracks config d (hearing config pre) := by
  induction pre using List.reverseRecOn generalizing d events with
  | nil =>
    cases hout
    exact .idle (hears_make config)
  | append_singleton pre frame ih =>
    obtain ⟨before, d₀, after, hbefore, hlast⟩ := processAll_append hout
    obtain ⟨past, hinv, -, -, -⟩ :=
      processAll_progress (make_inv config) (make_progress config) hbefore
    rw [processAll, outcome_bind_eq_ok] at hlast
    obtain ⟨emitted, d₁, hprocess, hlast⟩ := hlast
    cases hlast
    obtain ⟨post, hpost⟩ := hpre
    have htracks := ih ((List.prefix_append pre [frame]).trans ⟨post, hpost⟩) hbefore
    rw [List.append_assoc] at hpost
    have hstep := (htracks.step hinv (hroom pre frame post hpost.symm) hprocess).2
    rwa [hearing, List.foldl_append]

/-- The frames of the utterance under way. -/
theorem Tracks.activeFrames (ht : Tracks c d h) : d.activeFrames = h.utterance := by
  cases ht with
  | idle hhears => exact hhears.idle.activeFrames
  | speech hattends =>
    obtain ⟨utteranceId, first, hactive⟩ := hattends.active
    exact hactive.activeFrames

/-- **The detector emits what is to be emitted.** Of a stream whose frames are all accepted, and
of which no utterance reaches a limit, every frame starts speech exactly when it completes a run
of loud frames since the stream began or speech ended, with the frames of the pre-roll that there
are since then; it ends speech exactly when it completes a run of silent frames since speech
started, at the first of them; and it does nothing else. -/
theorem vad_exact {config : EnergyVadConfig} {frames : List PcmFrame}
    (h : outcome (processAll uuid5 frames) (make config) = (.ok events, d))
    (hroom : NoneReaches config frames) :
    ∀ pre frame post, frames = pre ++ frame :: post →
      ∃ before d₀ emitted d₁, outcome (processAll uuid5 pre) (make config) = (.ok before, d₀) ∧
        outcome (process uuid5 frame) d₀ = (.ok emitted, d₁) ∧
        Emits config (hearing config pre) frame emitted ∧
        d₁.activeFrames = (hear config (hearing config pre) frame).utterance := by
  intro pre frame post hframes
  have hout := h
  rw [hframes] at hout
  obtain ⟨before, d₀, after, hpre, hpost⟩ := processAll_append hout
  rw [processAll, outcome_bind_eq_ok] at hpost
  obtain ⟨emitted, d₁, hprocess, -⟩ := hpost
  obtain ⟨past, hinv, -, -, -⟩ := processAll_progress (make_inv config) (make_progress config) hpre
  have htracks := tracks_hearing hroom ⟨frame :: post, hframes.symm⟩ hpre
  obtain ⟨hemits, htracks'⟩ := htracks.step hinv (hroom pre frame post hframes) hprocess
  exact ⟨before, d₀, emitted, d₁, hpre, hprocess, hemits, htracks'.activeFrames⟩

/-- After a silent frame a loud one starts speech, with the silent one before it, and the silent
one behind it ends it. -/
theorem vad_exact_preRoll :
    let format : PcmFormat := ⟨8000, 1, .s16Le, by decide, by decide⟩
    let config : EnergyVadConfig := ⟨1000, 500, 1, 1, 1, 1, 8, by decide, by decide, by decide,
      by decide, by decide, by decide, by decide⟩
    let frames : List PcmFrame :=
      [⟨7, 0, 0, format, [0, 0], by decide, by decide⟩,
        ⟨7, 1, 125000, format, [255, 127], by decide, by decide⟩,
        ⟨7, 2, 250000, format, [0, 0], by decide, by decide⟩]
    ∀ pre frame post, frames = pre ++ frame :: post →
      ∃ d₀ emitted d₁,
        outcome (process (fun i name => i + name.length) frame) d₀ = (.ok emitted, d₁) ∧
        Emits config (hearing config pre) frame emitted := by
  intro format config frames pre frame post hframes
  have hok : (outcome (processAll (fun i name => i + name.length) frames)
      (make config)).1.isOk = true := by
    decide +kernel
  have hroom : NoneReaches config frames := by
    decide +kernel
  rcases h : outcome (processAll (fun i name => i + name.length) frames) (make config) with
    ⟨e | events, d⟩
  · rw [h] at hok
    cases hok
  · obtain ⟨before, d₀, emitted, d₁, -, hprocess, hemits, -⟩ :=
      vad_exact h hroom pre frame post hframes
    exact ⟨d₀, emitted, d₁, hprocess, hemits⟩

end Eeveetuber
