import Eeveetuber.Media.VadSegments

/-!
# When an utterance starts

Frames of one size, of which the limits of an utterance have room for as many as
start one: the candidate run of a detector that only sees such frames is never
given up for want of room, and so as many loud frames as start an utterance, one
behind the other, do start one (`Eeveetuber.processAll_starts`).
-/

namespace Eeveetuber

open Foundation Stateful EnergyVoiceActivityDetector

/-- A frame of so many bytes that lasts so long. -/
structure PcmFrame.Sized (size duration : ℕ) (frame : PcmFrame) : Prop where
  length : frame.pcm.length = size
  durationNs : frame.durationNs = duration

/-- The limits of an utterance have room for the frames that start one. -/
structure EnergyVadConfig.Roomy (c : EnergyVadConfig) (size duration : ℕ) : Prop where
  bytes : size * c.speechStartFrames ≤ c.maxUtteranceBytes
  duration : duration * c.speechStartFrames ≤ c.maxUtteranceDurationNs

variable {uuid5 : UUID → String → UUID} {d d' : EnergyVoiceActivityDetector} {size duration : ℕ}
  {frame : PcmFrame} {run past frames : List PcmFrame} {events : List VadEvent}

theorem byteCount_sized (h : ∀ f ∈ frames, f.Sized size duration) :
    byteCount frames = size * frames.length ∧
      audioDurationNs frames = duration * frames.length := by
  induction frames with
  | nil => exact ⟨rfl, rfl⟩
  | cons f frames ih =>
    obtain ⟨hf, hframes⟩ := List.forall_mem_cons.mp h
    obtain ⟨hbytes, hduration⟩ := ih hframes
    rw [byteCount_cons, audioDurationNs_cons, hf.length, hf.durationNs, hbytes, hduration,
      List.length_cons, Nat.mul_succ, Nat.mul_succ]
    exact ⟨Nat.add_comm _ _, Nat.add_comm _ _⟩

namespace EnergyVadConfig

variable {c : EnergyVadConfig}

/-- As many frames as start an utterance are within the limits. -/
theorem Roomy.within (h : c.Roomy size duration) (hframes : ∀ f ∈ frames, f.Sized size duration)
    (hlength : frames.length ≤ c.speechStartFrames) : c.Within frames := by
  obtain ⟨hbytes, hduration⟩ := byteCount_sized hframes
  refine ⟨?_, ?_⟩
  · rw [hbytes]
    exact le_trans (Nat.mul_le_mul_left _ hlength) h.bytes
  · rw [hduration]
    exact le_trans (Nat.mul_le_mul_left _ hlength) h.duration

/-- A loud frame always joins the candidate run. -/
theorem nextRun_of_within (hloud : isAbove frame c.speechStartThreshold = true)
    (h : c.Within (run ++ [frame])) : c.nextRun run frame = run ++ [frame] := by
  rw [nextRun, if_pos hloud, if_neg]
  rintro (hover | hover)
  · exact absurd h.bytes (not_le.mpr hover)
  · exact absurd h.duration (not_le.mpr hover)

end EnergyVadConfig

/-- The frames a detector holds are among those it has seen. -/
theorem EnergyVoiceActivityDetector.Idle.sized (h : d.Idle run)
    (hseen : ∀ f ∈ past ++ d.retained, f.Sized size duration) :
    ∀ f ∈ run, f.Sized size duration := by
  intro f hf
  rw [h.retained] at hseen
  exact hseen f (List.mem_append_right _ (h.suffix.subset hf))

/-- **The candidate is never given up for want of room.** -/
theorem candidate_room (hinv : d.Inv past) (hroomy : d.config.Roomy size duration)
    (hseen : ∀ f ∈ past ++ d.retained, f.Sized size duration) (hframe : frame.Sized size duration)
    (hidle : d.speechActive = false) :
    d.candidateBytes + frame.pcm.length ≤ d.config.maxUtteranceBytes ∧
      d.candidateDurationNs + frame.durationNs ≤ d.config.maxUtteranceDurationNs := by
  rcases hinv.phase with ⟨run, hrun⟩ | ⟨act, utteranceId, first, hactive⟩
  · have hframes : ∀ f ∈ run ++ [frame], f.Sized size duration := by
      intro f hf
      rcases List.mem_append.mp hf with hf | hf
      · exact hrun.sized hseen f hf
      · rwa [List.mem_singleton.mp hf]
    have hwithin := hroomy.within hframes (by
      rw [List.length_append, List.length_singleton]
      exact hrun.short)
    have hbytes := hwithin.bytes
    have hduration := hwithin.duration
    rw [byteCount_append, byteCount_cons, byteCount_nil] at hbytes
    rw [audioDurationNs_append, audioDurationNs_cons, audioDurationNs_nil] at hduration
    rw [hrun.follows.bytes, hrun.follows.duration]
    omega
  · rw [speechActive, hactive.activeFrames] at hidle
    cases hidle

/-- Loud frames that have started no utterance are all in the candidate run. -/
theorem processAll_quiet (hinv : d.Inv past) (hroomy : d.config.Roomy size duration)
    (hseen : ∀ f ∈ past ++ d.retained, f.Sized size duration) (hidle : d.Idle run)
    (hframes : ∀ f ∈ frames, f.Sized size duration)
    (hloud : ∀ f ∈ frames, isAbove f d.config.speechStartThreshold = true)
    (hout : outcome (processAll uuid5 frames) d = (.ok events, d'))
    (hquiet : ∀ started, .started started ∉ events) :
    ∃ run', d'.Idle run' ∧ run'.length = run.length + frames.length ∧ d'.config = d.config := by
  induction frames generalizing d past run events with
  | nil =>
    cases hout
    exact ⟨run, hidle, rfl, rfl⟩
  | cons frame frames ih =>
    obtain ⟨emitted, d₁, rest, past₁, rfl, -, hstep, hinv₁, hpast₁, hconfig₁, hrest⟩ :=
      processAll_cons hinv hout
    obtain ⟨hframe, hframes⟩ := List.forall_mem_cons.mp hframes
    obtain ⟨hloudFrame, hloud⟩ := List.forall_mem_cons.mp hloud
    have hseen₁ : ∀ f ∈ past₁ ++ d₁.retained, f.Sized size duration := by
      intro f hf
      rw [hpast₁] at hf
      rcases List.mem_append.mp hf with hf | hf
      · exact hseen f hf
      · rwa [List.mem_singleton.mp hf]
    cases hstep with
    -- an idle detector has no active frames
    | active hactive => exact absurd (hidle.activeFrames.symm.trans hactive.activeFrames) (by simp)
    | @idle run₁ _ _ hidle₁ hstep =>
      have hsame : run₁.length = run.length := by
        rw [← hidle₁.follows.count, ← hidle.follows.count]
      cases hstep with
      | starts => exact absurd (List.mem_append_left _ List.mem_cons_self) (hquiet _)
      | startsAndEnds => exact absurd (List.mem_append_left _ List.mem_cons_self) (hquiet _)
      | quiet ho hnext hd =>
        -- a loud frame joins the candidate run, which is too short for a start
        have hjoined : ∀ f ∈ run₁ ++ [frame], f.Sized size duration := by
          intro f hf
          rcases List.mem_append.mp hf with hf | hf
          · exact hidle₁.sized hseen f hf
          · rwa [List.mem_singleton.mp hf]
        have hwithin : d.config.Within (run₁ ++ [frame]) := hroomy.within hjoined (by
          rw [List.length_append, List.length_singleton]
          exact hidle₁.short)
        change d₁.Idle (d.config.nextRun run₁ frame) at hnext
        rw [EnergyVadConfig.nextRun_of_within hloudFrame hwithin] at hnext
        rw [← hconfig₁] at hroomy hloud
        obtain ⟨run', hrun', hlength, hconfig⟩ := ih hinv₁ hroomy hseen₁ hnext hframes hloud hrest
          fun started hmem => hquiet started (List.mem_append_right _ hmem)
        refine ⟨run', hrun', ?_, hconfig.trans hconfig₁⟩
        rw [hlength, List.length_append, List.length_singleton, List.length_cons, hsame]
        omega

/-- **As many loud frames as start an utterance do start one.** -/
theorem processAll_starts (hinv : d.Inv past) (hroomy : d.config.Roomy size duration)
    (hseen : ∀ f ∈ past ++ d.retained, f.Sized size duration) (hidle : d.speechActive = false)
    (hlength : frames.length = d.config.speechStartFrames)
    (hframes : ∀ f ∈ frames, f.Sized size duration)
    (hloud : ∀ f ∈ frames, isAbove f d.config.speechStartThreshold = true)
    (hout : outcome (processAll uuid5 frames) d = (.ok events, d')) :
    ∃ started, .started started ∈ events := by
  rcases hinv.phase with ⟨run, hrun⟩ | ⟨act, utteranceId, first, hactive⟩
  · by_contra hquiet
    rw [not_exists] at hquiet
    obtain ⟨run', hrun', hrunLength, hconfig⟩ :=
      processAll_quiet hinv hroomy hseen hrun hframes hloud hout hquiet
    have hshort := hrun'.short
    rw [hconfig] at hshort
    omega
  · rw [speechActive, hactive.activeFrames] at hidle
    cases hidle

end Eeveetuber
