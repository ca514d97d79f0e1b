import Mathlib.Algebra.GroupWithZero.Nat
import Mathlib.Data.List.Basic
import Eeveetuber.Domain.Events

/-!
# Audio values

The values that live audio is handed on in: PCM frames of one format, and the
utterance a voice activity detector cuts out of them. Each is checked as it is
made. A frame or a format carries what was checked as fields; an utterance is
checked by a loop over its frames, `Eeveetuber.PcmUtteranceFields.postInit`, and
`Eeveetuber.PcmUtterance` is the type of the fields that pass.
-/

namespace Eeveetuber

/-- The accepted encodings. -/
inductive PcmEncoding where
  | s16Le
deriving DecidableEq, Repr

/-- The format shared by every frame in one capture stream. -/
structure PcmFormat where
  sampleRateHz : ℕ
  channels : ℕ
  encoding : PcmEncoding
  rate_mem : 8000 ≤ sampleRateHz ∧ sampleRateHz ≤ 192000
  channels_mem : 1 ≤ channels ∧ channels ≤ 8
deriving DecidableEq

namespace PcmFormat

/-- The constructor. -/
def create (sampleRateHz channels : ℤ) : Except String PcmFormat :=
  if hr : 8000 ≤ sampleRateHz ∧ sampleRateHz ≤ 192000 then
    if hc : 1 ≤ channels ∧ channels ≤ 8 then
      .ok ⟨sampleRateHz.toNat, channels.toNat, .s16Le, by omega, by omega⟩
    else .error "channels must be between 1 and 8"
  else .error "sample_rate_hz must be between 8000 and 192000"

def bytesPerSampleFrame (f : PcmFormat) : ℕ := f.channels * 2

/-- There is one encoding. -/
theorem eq_of_rate_of_channels {f g : PcmFormat} (hrate : f.sampleRateHz = g.sampleRateHz)
    (hchannels : f.channels = g.channels) : f = g := by
  obtain ⟨rate, channels, ⟨⟩, _, _⟩ := f
  obtain ⟨rate', channels', ⟨⟩, _, _⟩ := g
  obtain rfl : rate = rate' := hrate
  obtain rfl : channels = channels' := hchannels
  rfl

end PcmFormat

/-- One timestamped frame from a uniquely identified live PCM stream. -/
structure PcmFrame where
  streamId : UUID
  sequence : ℕ
  capturedAtMonotonicNs : ℕ
  format : PcmFormat
  pcm : List UInt8
  pcm_ne_nil : pcm ≠ []
  complete : pcm.length % format.bytesPerSampleFrame = 0
deriving DecidableEq

namespace PcmFrame

/-- The constructor. -/
def create (streamId : UUID) (sequence capturedAtMonotonicNs : ℤ) (format : PcmFormat)
    (pcm : List UInt8) : Except String PcmFrame :=
  if sequence < 0 then .error "frame sequence must be a non-negative integer"
  else if capturedAtMonotonicNs < 0 then
    .error "captured_at_monotonic_ns must be a non-negative integer"
  else if hne : pcm = [] then .error "pcm frame cannot be empty"
  else if hc : pcm.length % format.bytesPerSampleFrame = 0 then
    .ok ⟨streamId, sequence.toNat, capturedAtMonotonicNs.toNat, format, pcm, hne, hc⟩
  else .error "pcm length must contain complete sample frames"

def sampleFrameCount (f : PcmFrame) : ℕ := f.pcm.length / f.format.bytesPerSampleFrame

def durationNs (f : PcmFrame) : ℕ := f.sampleFrameCount * 1000000000 / f.format.sampleRateHz

def endMonotonicNs (f : PcmFrame) : ℕ := f.capturedAtMonotonicNs + f.durationNs

end PcmFrame

/-- The bytes of some frames. -/
def byteCount (frames : List PcmFrame) : ℕ := (frames.map (·.pcm.length)).sum

/-- The audio in some frames. -/
def audioDurationNs (frames : List PcmFrame) : ℕ := (frames.map PcmFrame.durationNs).sum

section Counts

variable {f : PcmFrame} {l l' : List PcmFrame}

@[simp] theorem byteCount_nil : byteCount [] = 0 := rfl

@[simp] theorem audioDurationNs_nil : audioDurationNs [] = 0 := rfl

@[simp] theorem byteCount_cons : byteCount (f :: l) = f.pcm.length + byteCount l := by
  simp [byteCount]

@[simp] theorem audioDurationNs_cons :
    audioDurationNs (f :: l) = f.durationNs + audioDurationNs l := by
  simp [audioDurationNs]

@[simp] theorem byteCount_append : byteCount (l ++ l') = byteCount l + byteCount l' := by
  simp [byteCount]

@[simp] theorem audioDurationNs_append :
    audioDurationNs (l ++ l') = audioDurationNs l + audioDurationNs l' := by
  simp [audioDurationNs]

/-- The end of a list of frames has no more bytes than the list. -/
theorem byteCount_le_of_suffix (h : l <:+ l') : byteCount l ≤ byteCount l' := by
  obtain ⟨dropped, rfl⟩ := h
  rw [byteCount_append]
  exact Nat.le_add_left _ _

/-- The end of a list of frames is no longer than the list. -/
theorem audioDurationNs_le_of_suffix (h : l <:+ l') : audioDurationNs l ≤ audioDurationNs l' := by
  obtain ⟨dropped, rfl⟩ := h
  rw [audioDurationNs_append]
  exact Nat.le_add_left _ _

end Counts

/-- Why an utterance ended. -/
inductive UtteranceEndReason where
  | silence
  | maxDuration
  | maxBytes
  | streamEnded
deriving DecidableEq, Repr

/-- The fields of an utterance. -/
structure PcmUtteranceFields where
  utteranceId : UUID
  streamId : UUID
  format : PcmFormat
  frames : List PcmFrame
  speechStartedAtMonotonicNs : ℕ
  speechEndedAtMonotonicNs : ℕ
  endReason : UtteranceEndReason

namespace PcmUtteranceFields

/-- The loop over the frames; `previous` is the frame before. -/
def checkFrames (u : PcmUtteranceFields) (previous : Option PcmFrame) :
    List PcmFrame → Except String Unit
  | [] => .ok ()
  | frame :: rest => do
    if frame.streamId ≠ u.streamId then throw "utterance frames must share the stream_id"
    if frame.format ≠ u.format then throw "utterance frames must share one PCM format"
    if let some previous := previous then
      if frame.sequence ≤ previous.sequence then
        throw "utterance frame sequences must be strictly increasing"
      if frame.capturedAtMonotonicNs < previous.endMonotonicNs then
        throw "utterance PCM frame timestamps cannot overlap"
    checkFrames u (some frame) rest

/-- The checks of the constructor. -/
def postInit (u : PcmUtteranceFields) : Except String Unit :=
  match u.frames.head?, u.frames.getLast? with
  | some first, some last => do
    u.checkFrames none u.frames
    if ¬(first.capturedAtMonotonicNs ≤ u.speechStartedAtMonotonicNs ∧
        u.speechStartedAtMonotonicNs ≤ last.endMonotonicNs) then
      throw "speech start must fall within the captured utterance"
    if ¬u.speechStartedAtMonotonicNs ≤ u.speechEndedAtMonotonicNs then
      throw "speech end cannot precede speech start"
    if last.endMonotonicNs < u.speechEndedAtMonotonicNs then
      throw "speech end must fall within the captured utterance"
  | _, _ => .error "utterance must contain at least one PCM frame"

end PcmUtteranceFields

/-- A finite, VAD-delimited collection of PCM frames held only in memory. -/
structure PcmUtterance extends PcmUtteranceFields where
  valid : toPcmUtteranceFields.postInit = .ok ()

namespace PcmUtterance

/-- The constructor. -/
def create (u : PcmUtteranceFields) : Except String PcmUtterance :=
  match h : u.postInit with
  | .ok () => .ok ⟨u, h⟩
  | .error e => .error e

theorem create_of_valid {u : PcmUtteranceFields} (h : u.postInit = .ok ()) :
    create u = .ok ⟨u, h⟩ := by
  unfold create
  split
  · rfl
  · rename_i e he
    rw [h] at he
    cases he

end PcmUtterance

/-! ### What the checks ask for -/

/-- Frames as a microphone sends them: one behind the other. -/
def InOrder (frames : List PcmFrame) : Prop :=
  frames.Pairwise fun f g =>
    f.sequence < g.sequence ∧ f.endMonotonicNs ≤ g.capturedAtMonotonicNs

/-- The first frame was captured first. -/
theorem InOrder.head_le {frames : List PcmFrame} {first f : PcmFrame} (h : InOrder frames)
    (hfirst : frames.head? = some first) (hf : f ∈ frames) :
    first.capturedAtMonotonicNs ≤ f.capturedAtMonotonicNs := by
  obtain ⟨rest, rfl⟩ := List.head?_eq_some_iff.mp hfirst
  rcases List.mem_cons.mp hf with rfl | hf
  · exact Nat.le_refl _
  · exact Nat.le_trans (Nat.le_add_right _ _) ((List.pairwise_cons.mp h).1 f hf).2

/-- Every frame was captured before the last one ended. -/
theorem InOrder.le_getLast {frames : List PcmFrame} {last f : PcmFrame} (h : InOrder frames)
    (hlast : frames.getLast? = some last) (hf : f ∈ frames) :
    f.capturedAtMonotonicNs ≤ last.endMonotonicNs := by
  obtain ⟨front, rfl⟩ := List.getLast?_eq_some_iff.mp hlast
  rcases List.mem_append.mp hf with hf | hf
  · have hle := ((List.pairwise_append.mp h).2.2 f hf last (List.mem_singleton_self _)).2
    simp only [PcmFrame.endMonotonicNs] at hle ⊢
    omega
  · rw [List.mem_singleton.mp hf]
    exact Nat.le_add_right _ _

/-- A frame behind the last one is behind all of them. -/
theorem InOrder.concat {frames : List PcmFrame} {f : PcmFrame} (h : InOrder frames)
    (hf : ∀ last ∈ frames.getLast?,
      last.sequence < f.sequence ∧ last.endMonotonicNs ≤ f.capturedAtMonotonicNs) :
    InOrder (frames ++ [f]) := by
  refine List.pairwise_append.mpr ⟨h, List.pairwise_singleton _ _, fun g hg f' hf' => ?_⟩
  rw [List.mem_singleton.mp hf']
  rcases List.eq_nil_or_concat frames with rfl | ⟨front, last, hfront⟩
  · cases hg
  · rw [List.concat_eq_append] at hfront
    subst hfront
    obtain ⟨hseq, hend⟩ := hf last (by simp)
    rcases List.mem_append.mp hg with hg | hg
    · obtain ⟨hseq', hend'⟩ := (List.pairwise_append.mp h).2.2 g hg last (by simp)
      refine ⟨Nat.lt_trans hseq' hseq, ?_⟩
      simp only [PcmFrame.endMonotonicNs] at hend hend' ⊢
      omega
    · rw [List.mem_singleton.mp hg]
      exact ⟨hseq, hend⟩

namespace PcmUtteranceFields

variable {u : PcmUtteranceFields}

theorem checkFrames_ok {previous : Option PcmFrame} {frames : List PcmFrame}
    (hstream : ∀ f ∈ frames, f.streamId = u.streamId) (hformat : ∀ f ∈ frames, f.format = u.format)
    (hprev : ∀ p ∈ previous, ∀ f ∈ frames,
      p.sequence < f.sequence ∧ p.endMonotonicNs ≤ f.capturedAtMonotonicNs)
    (horder : InOrder frames) : u.checkFrames previous frames = .ok () := by
  induction frames generalizing previous with
  | nil => rfl
  | cons frame rest ih =>
    obtain ⟨hhead, hrest⟩ := List.pairwise_cons.mp horder
    have htail : u.checkFrames (some frame) rest = .ok () := by
      refine ih (fun f hf => hstream f (List.mem_cons_of_mem _ hf))
        (fun f hf => hformat f (List.mem_cons_of_mem _ hf)) (fun p hp f hf => ?_) hrest
      obtain rfl := Option.some.inj hp
      exact hhead f hf
    have hs := hstream frame List.mem_cons_self
    have hf := hformat frame List.mem_cons_self
    cases previous with
    | none => simp [checkFrames, hs, hf, htail]
    | some p =>
      obtain ⟨hseq, hend⟩ := hprev p rfl frame List.mem_cons_self
      have hseq' := Nat.not_le_of_lt hseq
      have hend' := Nat.not_lt_of_le hend
      simp [checkFrames, hs, hf, htail, hseq', hend']

/-- **An utterance is accepted** if its frames are in order and of its stream and format,
and its speech lies within them. -/
theorem postInit_ok {first last : PcmFrame} (hfirst : u.frames.head? = some first)
    (hlast : u.frames.getLast? = some last) (hstream : ∀ f ∈ u.frames, f.streamId = u.streamId)
    (hformat : ∀ f ∈ u.frames, f.format = u.format) (horder : InOrder u.frames)
    (hstart : first.capturedAtMonotonicNs ≤ u.speechStartedAtMonotonicNs)
    (hspeech : u.speechStartedAtMonotonicNs ≤ u.speechEndedAtMonotonicNs)
    (hend : u.speechEndedAtMonotonicNs ≤ last.endMonotonicNs) : u.postInit = .ok () := by
  have hframes : u.checkFrames none u.frames = .ok () :=
    checkFrames_ok hstream hformat (by simp) horder
  have hstart' : u.speechStartedAtMonotonicNs ≤ last.endMonotonicNs := Nat.le_trans hspeech hend
  simp [postInit, hfirst, hlast, hframes, hstart, hspeech, hstart', Nat.not_lt_of_le hend, bind,
    Except.bind, pure, Except.pure]

end PcmUtteranceFields

end Eeveetuber
