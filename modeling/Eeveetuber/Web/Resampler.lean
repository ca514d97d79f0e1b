import Eeveetuber.Foundation.Interpolation
import Mathlib.Data.Rat.Floor

/-!
# The resampler of the microphone

The browser hands the samples of the microphone out in blocks, at its own rate. The worklet of the
page mixes them to one channel, resamples them by linear interpolation, and posts frames of the
size that the server asks for (`Eeveetuber.MicrophoneProcessor.process`). After each block it drops
the samples that it does not need any more, and moves its position in the source accordingly.

The samples are exact numbers here. Whatever the rates, the size of a frame and the blocks are, what
is posted is the interpolation of the whole input at the positions `0, r, 2r, …`, where `r` is the
ratio of the rates (`Eeveetuber.MicrophoneProcessor.resampler_chunk_invariant`). What carries the
proof is `Eeveetuber.MicrophoneProcessor.Tracks`: so many samples of the input have been dropped,
so many have been written, and the position in the source with the former is the latter times the
ratio.
-/

namespace Eeveetuber

open Foundation

/-- The state of the worklet. A sample is `none` where a number would be `NaN`. -/
structure MicrophoneProcessor where
  rateRatio : ℚ
  frameSamples : ℕ
  /-- The samples of the input that are still needed. -/
  source : List ℚ
  sourcePosition : ℚ
  frame : List (Option ℚ)
  frameOffset : ℕ
  active : Bool
  /-- The frames that were posted. -/
  posted : List (List (Option ℚ))
  rateRatio_pos : 0 < rateRatio
deriving DecidableEq

/-- The rates and the size of a frame, as the page passes them on. -/
structure ProcessorOptions where
  sampleRate : ℚ
  targetSampleRate : ℚ
  frameSamples : ℕ
  sampleRate_pos : 0 < sampleRate
  targetSampleRate_pos : 0 < targetSampleRate
  frameSamples_pos : 0 < frameSamples

namespace ProcessorOptions

def ratio (options : ProcessorOptions) : ℚ := options.sampleRate / options.targetSampleRate

theorem ratio_pos (options : ProcessorOptions) : 0 < options.ratio :=
  div_pos options.sampleRate_pos options.targetSampleRate_pos

end ProcessorOptions

namespace MicrophoneProcessor

/-- The constructor. -/
def create (options : ProcessorOptions) : MicrophoneProcessor where
  rateRatio := options.ratio
  frameSamples := options.frameSamples
  source := []
  sourcePosition := 0
  frame := List.replicate options.frameSamples (some 0)
  frameOffset := 0
  active := true
  posted := []
  rateRatio_pos := options.ratio_pos

/-- The page asks the worklet to stop. -/
def stop (s : MicrophoneProcessor) : MicrophoneProcessor := { s with active := false, source := [] }

/-- `source[index]`, which is undefined outside of the source. -/
def read (source : List ℚ) (index : ℤ) : Option ℚ :=
  if 0 ≤ index then source[index.toNat]? else none

/-- The next sample that is written. -/
def nextSample (s : MicrophoneProcessor) : Option ℚ :=
  let leftIndex := ⌊s.sourcePosition⌋
  let fraction := s.sourcePosition - leftIndex
  match read s.source leftIndex, read s.source (leftIndex + 1) with
  | some left, some right => some (left + (right - left) * fraction)
  | _, _ => none

/-- Post the frame if it is full. -/
def postIfFull (s : MicrophoneProcessor) : MicrophoneProcessor :=
  if s.frameOffset = s.frameSamples then
    { s with
      posted := s.posted ++ [s.frame]
      frame := List.replicate s.frameSamples (some 0)
      frameOffset := 0 }
  else s

/-- The body of the loop of `resampleAvailableInput`. -/
def writeSample (s : MicrophoneProcessor) : MicrophoneProcessor :=
  ({ s with
    frame := s.frame.set s.frameOffset s.nextSample
    frameOffset := s.frameOffset + 1
    sourcePosition := s.sourcePosition + s.rateRatio } : MicrophoneProcessor).postIfFull

theorem postIfFull_position (s : MicrophoneProcessor) :
    s.postIfFull.sourcePosition = s.sourcePosition ∧ s.postIfFull.source = s.source ∧
      s.postIfFull.rateRatio = s.rateRatio ∧ s.postIfFull.frameSamples = s.frameSamples ∧
      s.postIfFull.active = s.active := by
  rw [postIfFull]
  split_ifs
  · exact ⟨rfl, rfl, rfl, rfl, rfl⟩
  · exact ⟨rfl, rfl, rfl, rfl, rfl⟩

theorem writeSample_position (s : MicrophoneProcessor) :
    s.writeSample.sourcePosition = s.sourcePosition + s.rateRatio ∧
      s.writeSample.source = s.source ∧ s.writeSample.rateRatio = s.rateRatio ∧
      s.writeSample.frameSamples = s.frameSamples ∧ s.writeSample.active = s.active :=
  postIfFull_position _

/-- The samples that can still be written before the source runs out. -/
def remaining (s : MicrophoneProcessor) : ℕ :=
  ⌈((s.source.length : ℚ) - 1 - s.sourcePosition) / s.rateRatio⌉₊

theorem remaining_writeSample {s : MicrophoneProcessor}
    (h : s.sourcePosition + 1 < s.source.length) : s.writeSample.remaining < s.remaining := by
  obtain ⟨hposition, hsource, hratio, -⟩ := s.writeSample_position
  have hpos : 0 < ((s.source.length : ℚ) - 1 - s.sourcePosition) / s.rateRatio :=
    div_pos (by linarith) s.rateRatio_pos
  have hnext : ((s.source.length : ℚ) - 1 - (s.sourcePosition + s.rateRatio)) / s.rateRatio =
      ((s.source.length : ℚ) - 1 - s.sourcePosition) / s.rateRatio - 1 := by
    rw [← sub_sub, sub_div, div_self s.rateRatio_pos.ne']
  rw [remaining, remaining, hposition, hsource, hratio, hnext, Nat.ceil_sub_one]
  exact Nat.sub_lt (Nat.ceil_pos.mpr hpos) Nat.one_pos

/-- The loop of `resampleAvailableInput`. -/
def writeAvailable (s : MicrophoneProcessor) : MicrophoneProcessor :=
  if _h : s.sourcePosition + 1 < s.source.length then s.writeSample.writeAvailable else s
termination_by s.remaining
decreasing_by exact remaining_writeSample _h

/-- Drop the samples in front of the position. -/
def dropConsumed (s : MicrophoneProcessor) : MicrophoneProcessor :=
  let consumed := min ⌊s.sourcePosition⌋ s.source.length
  if 0 < consumed then
    { s with
      source := s.source.drop consumed.toNat
      sourcePosition := s.sourcePosition - consumed }
  else s

def resampleAvailableInput (s : MicrophoneProcessor) : MicrophoneProcessor :=
  s.writeAvailable.dropConsumed

/-- A block of samples as one channel: a sample that a channel does not have counts as zero. -/
def mono (channels : List (List ℚ)) : List ℚ :=
  match channels with
  | [] => []
  | first :: _ => (List.range first.length).map fun index =>
    (channels.map fun channel => channel.getD index 0).sum / channels.length

/-- **A block of samples comes in.** The answer is whether the worklet is to be kept. -/
def process (s : MicrophoneProcessor) (channels : List (List ℚ)) : MicrophoneProcessor × Bool :=
  if s.active = false then (s, false)
  else match channels with
    | [] | [] :: _ => (s, true)
    | channels => (({ s with source := s.source ++ mono channels } :
        MicrophoneProcessor).resampleAvailableInput, true)

/-- Blocks come in one after the other. -/
def processAll (s : MicrophoneProcessor) (blocks : List (List (List ℚ))) : MicrophoneProcessor :=
  blocks.foldl (fun s channels => (s.process channels).1) s

/-! ### What a state has written -/

variable {s t : MicrophoneProcessor} {x : List ℚ} {b n : ℕ}

/-- **The state after some input** `x`: of this, `b` samples have been dropped, and `n` samples have
been written. -/
structure Tracks (x : List ℚ) (b n : ℕ) (s : MicrophoneProcessor) : Prop where
  source : s.source = x.drop b
  le : b ≤ x.length
  position : b + s.sourcePosition = n * s.rateRatio
  nonneg : 0 ≤ s.sourcePosition
  inside : ∀ k < n, (k : ℚ) * s.rateRatio + 1 < x.length
  length_frame : s.frame.length = s.frameSamples
  offset_lt : s.frameOffset < s.frameSamples
  posted : ∀ frame ∈ s.posted, frame.length = s.frameSamples
  written : s.posted.flatten ++ s.frame.take s.frameOffset =
    (List.range n).map fun k : ℕ => some (interpolate x (k * s.rateRatio))

theorem tracks_create (options : ProcessorOptions) : Tracks [] 0 0 (create options) where
  source := rfl
  le := Nat.le_refl 0
  position := by
    show ((0 : ℕ) : ℚ) + 0 = (0 : ℕ) * options.ratio
    rw [Nat.cast_zero, zero_mul, add_zero]
  nonneg := le_refl (0 : ℚ)
  inside := nofun
  length_frame := List.length_replicate
  offset_lt := options.frameSamples_pos
  posted := nofun
  written := rfl

/-- The samples that are left of the input. -/
theorem Tracks.length_source (h : Tracks x b n s) :
    (s.source.length : ℚ) = x.length - b := by
  rw [h.source, List.length_drop, Nat.cast_sub h.le]

/-- **Both neighbours are in the source.** -/
theorem nextSample_eq (hnonneg : 0 ≤ s.sourcePosition)
    (hlt : s.sourcePosition + 1 < s.source.length) :
    s.nextSample = some (interpolate s.source s.sourcePosition) := by
  have hright := floor_add_one_lt hnonneg hlt
  have hfloor : (0 : ℤ) ≤ ⌊s.sourcePosition⌋ := Int.floor_nonneg.mpr hnonneg
  have hsucc : (⌊s.sourcePosition⌋ + 1).toNat = ⌊s.sourcePosition⌋.toNat + 1 := by omega
  have hread : read s.source ⌊s.sourcePosition⌋ =
      some (s.source.getD ⌊s.sourcePosition⌋.toNat 0) := by
    rw [read, if_pos hfloor, List.getD_eq_getElem _ _ (Nat.lt_of_succ_lt hright),
      List.getElem?_eq_getElem]
  have hread' : read s.source (⌊s.sourcePosition⌋ + 1) =
      some (s.source.getD (⌊s.sourcePosition⌋.toNat + 1) 0) := by
    rw [read, if_pos (by omega), hsucc, List.getD_eq_getElem _ _ hright,
      List.getElem?_eq_getElem]
  rw [nextSample, hread, hread']
  rfl

theorem take_set {α : Type} {l : List α} {i : ℕ} (h : i < l.length) (v : α) :
    (l.set i v).take (i + 1) = l.take i ++ [v] := by
  rw [List.take_add_one, List.take_set_of_le (Nat.le_refl i), List.getElem?_set_self h]
  rfl

/-- **A sample is written** at its position in the whole input. -/
theorem tracks_writeSample (h : Tracks x b n s)
    (hlt : s.sourcePosition + 1 < s.source.length) : Tracks x b (n + 1) s.writeSample := by
  obtain ⟨hposition, hsource, hratio, hsamples, -⟩ := s.writeSample_position
  have hvalue : s.nextSample = some (interpolate x (n * s.rateRatio)) := by
    rw [nextSample_eq h.nonneg hlt, h.source, interpolate_drop h.nonneg, h.position]
  have hoffset : s.frameOffset < s.frame.length := h.length_frame ▸ h.offset_lt
  have hwritten : s.posted.flatten ++ (s.frame.set s.frameOffset s.nextSample).take
      (s.frameOffset + 1) =
      (List.range (n + 1)).map fun k : ℕ => some (interpolate x (k * s.rateRatio)) := by
    rw [take_set hoffset, ← List.append_assoc, h.written, hvalue, List.range_succ,
      List.map_append]
    rfl
  have hlength : (s.frame.set s.frameOffset s.nextSample).length = s.frameSamples := by
    rw [List.length_set, h.length_frame]
  have hposted : ∀ frame ∈ s.writeSample.posted, frame.length = s.frameSamples := by
    intro frame hframe
    rw [writeSample, postIfFull] at hframe
    split_ifs at hframe
    · rcases List.mem_append.mp hframe with hframe | hframe
      · exact h.posted frame hframe
      · rw [List.mem_singleton.mp hframe, hlength]
    · exact h.posted frame hframe
  refine ⟨hsource.trans h.source, h.le, ?_, ?_, ?_, ?_, ?_, ?_, ?_⟩
  · rw [hposition, hratio, ← add_assoc, h.position]
    push_cast
    ring
  · rw [hposition]
    exact add_nonneg h.nonneg s.rateRatio_pos.le
  · intro k hk
    rw [hratio]
    rcases Nat.lt_succ_iff_lt_or_eq.mp hk with hk | rfl
    · exact h.inside k hk
    · rw [← h.position]
      rw [h.length_source] at hlt
      linarith
  · rw [hsamples, writeSample, postIfFull]
    split_ifs
    · exact List.length_replicate
    · exact hlength
  · rw [hsamples, writeSample, postIfFull]
    split_ifs with hfull
    · exact Nat.lt_of_le_of_lt (Nat.zero_le _) h.offset_lt
    · exact Nat.lt_of_le_of_ne h.offset_lt hfull
  · rw [hsamples]
    exact hposted
  · rw [hratio, ← hwritten, writeSample, postIfFull]
    split_ifs with hfull
    · -- the frame is full
      have hframe : (s.frame.set s.frameOffset s.nextSample).take (s.frameOffset + 1) =
          s.frame.set s.frameOffset s.nextSample :=
        List.take_of_length_le (hlength.trans hfull.symm).le
      show (s.posted ++ [_]).flatten ++ List.take 0 _ = _
      rw [hframe, List.flatten_append, List.flatten_singleton, List.take_zero, List.append_nil]
    · rfl

/-- **All samples are written** that the input so far gives. -/
theorem tracks_writeAvailable (h : Tracks x b n s) : ∃ n', Tracks x b n' s.writeAvailable ∧
    (x.length : ℚ) ≤ n' * s.rateRatio + 1 := by
  induction hm : s.remaining using Nat.strongRecOn generalizing s n with
  | ind m ih =>
    rw [writeAvailable]
    split_ifs with hlt
    · obtain ⟨n', hn', hle⟩ :=
        ih _ (hm ▸ remaining_writeSample hlt) (tracks_writeSample h hlt) rfl
      rw [(s.writeSample_position).2.2.1] at hle
      exact ⟨n', hn', hle⟩
    · refine ⟨n, h, ?_⟩
      rw [h.length_source] at hlt
      rw [← h.position]
      linarith

/-- **Samples are dropped** only in front of the position. -/
theorem tracks_dropConsumed (h : Tracks x b n s) : ∃ b', Tracks x b' n s.dropConsumed := by
  rw [dropConsumed]
  split_ifs with hpos
  · have hfloor : min ⌊s.sourcePosition⌋ (s.source.length : ℤ) ≤ ⌊s.sourcePosition⌋ :=
      min_le_left _ _
    have hlength : min ⌊s.sourcePosition⌋ (s.source.length : ℤ) ≤ s.source.length :=
      min_le_right _ _
    generalize min ⌊s.sourcePosition⌋ (s.source.length : ℤ) = consumed at hpos hfloor hlength
    obtain ⟨c, rfl⟩ := Int.eq_ofNat_of_zero_le hpos.le
    rw [h.source, List.length_drop] at hlength
    have hle := h.le
    refine ⟨b + c, ?_, ?_, ?_, ?_, h.inside, h.length_frame, h.offset_lt, h.posted, h.written⟩
    · show s.source.drop (c : ℤ).toNat = _
      rw [h.source, List.drop_drop, Int.toNat_natCast]
    · omega
    · show ((b + c : ℕ) : ℚ) + (s.sourcePosition - ((c : ℤ) : ℚ)) = n * s.rateRatio
      rw [← h.position]
      push_cast
      ring
    · show 0 ≤ s.sourcePosition - ((c : ℤ) : ℚ)
      have hcast : ((c : ℤ) : ℚ) ≤ ⌊s.sourcePosition⌋ := Int.cast_le.mpr hfloor
      linarith [Int.floor_le s.sourcePosition]
  · exact ⟨b, h⟩

/-- **More input** leaves what is written alone. -/
theorem tracks_append (h : Tracks x b n s) (y : List ℚ) :
    Tracks (x ++ y) b n { s with source := s.source ++ y } where
  source := by
    rw [List.drop_append_of_le_length h.le, h.source]
  le := h.le.trans (by rw [List.length_append]; exact Nat.le_add_right _ _)
  position := h.position
  nonneg := h.nonneg
  inside k hk := by
    refine (h.inside k hk).trans_le ?_
    rw [List.length_append]
    exact Nat.cast_le.mpr (Nat.le_add_right _ _)
  length_frame := h.length_frame
  offset_lt := h.offset_lt
  posted := h.posted
  written := by
    refine h.written.trans (List.map_congr_left fun k hk => ?_)
    have hnonneg : 0 ≤ (k : ℚ) * s.rateRatio := mul_nonneg k.cast_nonneg s.rateRatio_pos.le
    exact congrArg some
      (interpolate_append hnonneg (h.inside k (List.mem_range.mp hk)) y).symm

/-- **A worklet that has done all it can**, given its input so far. -/
def UpToDate (options : ProcessorOptions) (x : List ℚ) (s : MicrophoneProcessor) : Prop :=
  s.active = true ∧ s.rateRatio = options.ratio ∧ s.frameSamples = options.frameSamples ∧
    ∃ b n, Tracks x b n s ∧ (x.length : ℚ) ≤ n * s.rateRatio + 1

theorem writeAvailable_options (s : MicrophoneProcessor) :
    s.writeAvailable.rateRatio = s.rateRatio ∧
      s.writeAvailable.frameSamples = s.frameSamples ∧ s.writeAvailable.active = s.active := by
  induction hm : s.remaining using Nat.strongRecOn generalizing s with
  | ind m ih =>
    rw [writeAvailable]
    split_ifs with hlt
    · obtain ⟨-, -, hratio, hsamples, hactive⟩ := s.writeSample_position
      obtain ⟨hratio', hsamples', hactive'⟩ := ih _ (hm ▸ remaining_writeSample hlt) _ rfl
      exact ⟨hratio'.trans hratio, hsamples'.trans hsamples, hactive'.trans hactive⟩
    · exact ⟨rfl, rfl, rfl⟩

theorem dropConsumed_options (s : MicrophoneProcessor) :
    s.dropConsumed.rateRatio = s.rateRatio ∧
      s.dropConsumed.frameSamples = s.frameSamples ∧ s.dropConsumed.active = s.active := by
  rw [dropConsumed]
  split_ifs
  · exact ⟨rfl, rfl, rfl⟩
  · exact ⟨rfl, rfl, rfl⟩

variable {options : ProcessorOptions}

theorem upToDate_create (options : ProcessorOptions) : UpToDate options [] (create options) := by
  refine ⟨rfl, rfl, rfl, 0, 0, tracks_create options, ?_⟩
  rw [Nat.cast_zero, zero_mul, zero_add]
  exact zero_le_one

/-- More input is resampled. -/
theorem upToDate_resample (h : UpToDate options x s) (y : List ℚ) : UpToDate options (x ++ y)
    ({ s with source := s.source ++ y } : MicrophoneProcessor).resampleAvailableInput := by
  obtain ⟨hactive, hratio, hsamples, b, n, htracks, hle⟩ := h
  obtain ⟨n', hn', hle'⟩ := tracks_writeAvailable (tracks_append htracks y)
  obtain ⟨b', hb'⟩ := tracks_dropConsumed hn'
  obtain ⟨hratio', hsamples', hactive'⟩ := writeAvailable_options
    ({ s with source := s.source ++ y } : MicrophoneProcessor)
  obtain ⟨hratio'', hsamples'', hactive''⟩ := dropConsumed_options
    ({ s with source := s.source ++ y } : MicrophoneProcessor).writeAvailable
  refine ⟨hactive''.trans (hactive'.trans hactive), hratio''.trans (hratio'.trans hratio),
    hsamples''.trans (hsamples'.trans hsamples), b', n', hb', ?_⟩
  rw [resampleAvailableInput, hratio'', hratio']
  exact hle'

/-- **A block comes in.** -/
theorem upToDate_process (h : UpToDate options x s) (channels : List (List ℚ)) :
    UpToDate options (x ++ mono channels) (s.process channels).1 := by
  have hkept : ¬s.active = false := by
    rw [h.1]
    nofun
  rcases channels with _ | ⟨_ | ⟨sample, first⟩, rest⟩
  · rw [process.eq_def, if_neg hkept, mono, List.append_nil]
    exact h
  · rw [process.eq_def, if_neg hkept]
    show UpToDate options (x ++ []) s
    rwa [List.append_nil]
  · rw [process.eq_def, if_neg hkept]
    exact upToDate_resample h _

theorem upToDate_processAll (blocks : List (List (List ℚ))) : ∀ {x : List ℚ}
    {s : MicrophoneProcessor}, UpToDate options x s →
    UpToDate options (x ++ blocks.flatMap mono) (s.processAll blocks) := by
  induction blocks with
  | nil =>
    intro x s h
    rwa [List.flatMap_nil, List.append_nil]
  | cons channels blocks ih =>
    intro x s h
    rw [List.flatMap_cons, ← List.append_assoc]
    exact ih (upToDate_process h channels)

/-- How many samples have been written. -/
theorem eq_countInside (h : Tracks x b n s) (hle : (x.length : ℚ) ≤ n * s.rateRatio + 1) :
    n = countInside x.length s.rateRatio := by
  refine Nat.le_antisymm ?_ ?_
  · by_contra hlt
    have hinside := h.inside _ (Nat.not_le.mp hlt)
    exact absurd ((lt_countInside s.rateRatio_pos _).mpr hinside) (lt_irrefl _)
  · by_contra hlt
    have hinside := (lt_countInside s.rateRatio_pos _).mp (Nat.not_le.mp hlt)
    exact absurd hle (not_le.mpr hinside)

/-- **A worklet that was stopped** does nothing. -/
theorem processAll_stop (s : MicrophoneProcessor) (blocks : List (List (List ℚ))) :
    s.stop.processAll blocks = s.stop := by
  induction blocks with
  | nil => rfl
  | cons channels blocks ih => exact ih

/-! ### The loop reads inside the source -/

/-- The states in which the loop reads. -/
inductive Reads : MicrophoneProcessor → MicrophoneProcessor → Prop
  | here {s : MicrophoneProcessor} : s.sourcePosition + 1 < s.source.length → Reads s s
  | later {s t : MicrophoneProcessor} : s.sourcePosition + 1 < s.source.length →
    Reads s.writeSample t → Reads s t

theorem index_of_reads (h : Reads s t) : ∀ {n : ℕ}, Tracks x b n s →
    0 ≤ ⌊t.sourcePosition⌋ ∧ ⌊t.sourcePosition⌋ + 1 < t.source.length := by
  induction h with
  | here hlt =>
    intro n htracks
    have hfloor : (0 : ℤ) ≤ ⌊_⌋ := Int.floor_nonneg.mpr htracks.nonneg
    have hindex := floor_add_one_lt htracks.nonneg hlt
    exact ⟨hfloor, by omega⟩
  | later hlt _ ih =>
    intro n htracks
    exact ih (tracks_writeSample htracks hlt)

theorem length_flatten_of_forall {α : Type} {frames : List (List α)} {m : ℕ}
    (h : ∀ frame ∈ frames, frame.length = m) : frames.flatten.length = frames.length * m := by
  rw [List.length_flatten, List.map_congr_left h, List.map_const', List.sum_replicate_nat]

/-- **The resampler does not depend on the blocks.** However the input comes in:

* the frames that were posted have the size that was asked for, and their samples are the
  interpolation of the whole input at the positions `0, r, 2r, …` inside it, rounded down to whole
  frames;
* the position in the source is not negative;
* when more comes in, the loop reads inside the source. -/
theorem resampler_chunk_invariant (options : ProcessorOptions) (blocks : List (List (List ℚ))) :
    let s := (create options).processAll blocks
    let input := blocks.flatMap mono
    let count := countInside input.length options.ratio
    (∀ frame ∈ s.posted, frame.length = options.frameSamples) ∧
      s.posted.flatten = ((List.range count).map fun n : ℕ =>
        some (interpolate input (n * options.ratio))).take
          (count / options.frameSamples * options.frameSamples) ∧
      0 ≤ s.sourcePosition ∧
      ∀ channels t, Reads { s with source := s.source ++ mono channels } t →
        0 ≤ ⌊t.sourcePosition⌋ ∧ ⌊t.sourcePosition⌋ + 1 < t.source.length := by
  intro s input count
  obtain ⟨-, hratio, hsamples, b, n, htracks, hle⟩ :
      UpToDate options ([] ++ input) s := upToDate_processAll blocks (upToDate_create options)
  rw [List.nil_append] at htracks hle
  have hcount : n = count := by
    rw [eq_countInside htracks hle, hratio]
  have hposted : ∀ frame ∈ s.posted, frame.length = options.frameSamples := by
    rw [← hsamples]
    exact htracks.posted
  refine ⟨hposted, ?_, htracks.nonneg, fun channels t hreads => ?_⟩
  · have hwritten := htracks.written
    rw [hratio, hcount] at hwritten
    -- what is not posted yet is less than a frame
    have hlength := congrArg List.length hwritten
    have hoffset := htracks.offset_lt
    rw [List.length_append, length_flatten_of_forall hposted, List.length_take,
      htracks.length_frame, Nat.min_eq_left hoffset.le, List.length_map, List.length_range]
      at hlength
    rw [hsamples] at hoffset
    have hframes : count / options.frameSamples = s.posted.length := by
      rw [← hlength, Nat.add_comm, Nat.add_mul_div_right _ _ options.frameSamples_pos,
        Nat.div_eq_of_lt hoffset, Nat.zero_add]
    rw [← hwritten, hframes]
    exact (List.take_left' (length_flatten_of_forall hposted)).symm
  · exact index_of_reads hreads (tracks_append htracks (mono channels))

end MicrophoneProcessor

end Eeveetuber
