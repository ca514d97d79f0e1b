import Mathlib.Data.List.Count
import Eeveetuber.Web.Playback

/-!
# One acknowledgement for each frame

Where a frame is, and what was said of it, add up: `Eeveetuber.OperatorPage.Playback.share`
counts the terminal acknowledgements of an arrival and the places that hold it, and
every function of the page moves frames without changing the sum. A frame that arrives
adds one, and so **every frame that has arrived has a share of one**
(`Eeveetuber.OperatorPage.Playback.Accounted`).
-/

namespace Eeveetuber

namespace OperatorPage

open Foundation

namespace Playback

variable {s t : Playback} {a : Arrival} {frames : List Arrival} {state : PlaybackState}
  {detail : Option Text} {playedMs : Option ℤ} {i : ℕ}

/-! ### Where frames are -/

/-- The arrivals that were acknowledged in a state that passes a test. -/
def acknowledgedIds (s : Playback) (p : PlaybackState → Bool) : List ℕ :=
  (s.acknowledgements.filter fun ack => p ack.state).map (·.arrival)

/-- The arrivals in pending segments. -/
def pendingIds (s : Playback) : List ℕ := s.pendingFrames.map (·.index)

/-- The arrivals in the audio queue. -/
def queueIds (s : Playback) : List ℕ :=
  (s.audioQueue.flatMap (·.segment.ackFrames)).map (·.index)

/-- The arrivals with the player. -/
def activeIds (s : Playback) : List ℕ :=
  (s.activeAudio.toList.flatMap (·.segment.ackFrames)).map (·.index)

/-- How often an arrival was acknowledged terminally, and how many places hold it. -/
def share (s : Playback) (i : ℕ) : ℕ :=
  (s.acknowledgedIds (·.isTerminal)).count i + s.pendingIds.count i + s.queueIds.count i +
    s.activeIds.count i

/-! ### Acknowledging -/

@[simp] theorem acknowledgedIds_acknowledgeAll {p : PlaybackState → Bool} :
    (s.acknowledgeAll frames state detail playedMs).acknowledgedIds p =
      s.acknowledgedIds p ++ if p state then frames.map (·.index) else [] := by
  have hindex : (fun ack : PlaybackAck => ack.arrival) ∘ s.ackOf state detail playedMs =
      (·.index) := rfl
  rw [acknowledgedIds, acknowledgeAll, List.filter_append, List.map_append]
  congr 1
  split
  · rename_i h
    rw [List.filter_eq_self.mpr, List.map_map, hindex]
    intro ack hack
    obtain ⟨a, -, rfl⟩ := List.mem_map.mp hack
    exact h
  · rename_i h
    rw [List.filter_eq_nil_iff.mpr, List.map_nil]
    intro ack hack
    obtain ⟨a, -, rfl⟩ := List.mem_map.mp hack
    exact h

@[simp] theorem pendingIds_acknowledgeAll :
    (s.acknowledgeAll frames state detail playedMs).pendingIds = s.pendingIds := rfl

@[simp] theorem queueIds_acknowledgeAll :
    (s.acknowledgeAll frames state detail playedMs).queueIds = s.queueIds := rfl

@[simp] theorem activeIds_acknowledgeAll :
    (s.acknowledgeAll frames state detail playedMs).activeIds = s.activeIds := rfl

theorem share_acknowledgeAll : (s.acknowledgeAll frames state detail playedMs).share i =
    s.share i + if state.isTerminal then (frames.map (·.index)).count i else 0 := by
  simp only [share, acknowledgedIds_acknowledgeAll, pendingIds_acknowledgeAll,
    queueIds_acknowledgeAll, activeIds_acknowledgeAll, List.count_append]
  split
  · omega
  · simp

/-! ### Moving frames -/

@[simp] theorem settle_segment (a : ActiveAudio) (settlement : Settlement) :
    (a.settle settlement).segment = a.segment := rfl

/-- Settling a promise leaves the frames with the player. -/
theorem activeIds_settle (f : ActiveAudio → ActiveAudio) (hf : ∀ a, (f a).segment = a.segment) :
    ({ s with activeAudio := s.activeAudio.map f } : Playback).activeIds = s.activeIds := by
  rcases h : s.activeAudio with _ | a
  · simp [activeIds, h]
  · simp [activeIds, h, hf]

/-- What is stopped has only moved. -/
theorem share_stopActiveAudio (hstate : state.isTerminal = true) :
    (s.stopActiveAudio state).share i = s.share i := by
  have hactive : (s.stopActiveAudio state).activeIds = s.activeIds :=
    activeIds_settle _ fun _ => rfl
  have hids : (s.stopActiveAudio state).acknowledgedIds (·.isTerminal) =
      s.acknowledgedIds (·.isTerminal) ++ s.pendingIds := by
    have hall : (s.acknowledgeAll s.pendingFrames state
        (some "audio was superseded".toList)).acknowledgedIds (·.isTerminal) =
        _ := acknowledgedIds_acknowledgeAll
    rw [hstate, if_pos rfl] at hall
    exact hall
  have hpending : (s.stopActiveAudio state).pendingIds = [] := rfl
  have hqueue : (s.stopActiveAudio state).queueIds = s.queueIds := rfl
  rw [share, share, hactive, hids, hpending, hqueue, List.count_append, List.count_nil]
  omega

theorem share_applyAudioControl (message : ServerMessage) :
    (s.applyAudioControl message).share i = s.share i := by
  have hstopped : ∀ b : Bool, (if b then s.stopActiveAudio else s).share i = s.share i := by
    rintro (_ | _)
    · rfl
    · exact share_stopActiveAudio rfl
  rw [applyAudioControl]
  split
  · exact hstopped _
  · exact hstopped _

/-- The frames of the segment of a frame are among the pending ones. -/
theorem count_pendingIds (s : Playback) (frame : AudioFrame) (i : ℕ) :
    s.pendingIds.count i = ((s.pendingOf frame).frames.map (·.index)).count i +
      ((({ s with pendingSegments := s.pendingSegments.erase (frame.generation, frame.segmentId) } :
        Playback)).pendingIds).count i := by
  rcases h : s.pendingSegments.find? (frame.generation, frame.segmentId) with _ | p
  · have hnone := Keyed.erase_of_not_mem (Keyed.find?_eq_none.mp h)
    rw [pendingOf, h, hnone]
    simp
  · have hperm := ((Keyed.perm_of_find? h).flatMap_right (·.frames)).map (·.index)
    rw [pendingOf, h, pendingIds, pendingFrames, hperm.count_eq]
    simp [pendingIds, pendingFrames]

theorem pendingOf_key (s : Playback) (frame : AudioFrame) :
    (s.pendingOf frame).key = (frame.generation, frame.segmentId) := by
  rcases h : s.pendingSegments.find? (frame.generation, frame.segmentId) with _ | p
  · rw [pendingOf, h]
    rfl
  · rw [pendingOf, h]
    exact (Keyed.find?_eq_some.mp h).2

/-- **A chunk that is accepted is somewhere**, once. -/
theorem share_acceptChunk : (s.acceptChunk a).share i = s.share i + [a.index].count i := by
  have hcount := count_pendingIds s a.frame i
  have hkey := pendingOf_key s a.frame
  set key := (a.frame.generation, a.frame.segmentId) with hkeydef
  set pending := s.pendingOf a.frame with hpending
  set others : Playback := { s with pendingSegments := s.pendingSegments.erase key }
  have hids : ((pending.frames ++ [a]).map (·.index)).count i =
      (pending.frames.map (·.index)).count i + [a.index].count i := by
    rw [List.map_append, List.count_append]
    rfl
  unfold acceptChunk
  rw [← hkeydef, ← hpending]
  dsimp only
  split_ifs with hframing hfinal
  · -- the segment and the chunk have failed
    have hacks : (others.acknowledgeAll (pending.frames ++ [a]) .failed
        (some "audio segment framing was discontinuous".toList)).acknowledgedIds (·.isTerminal) =
        s.acknowledgedIds (·.isTerminal) ++ (pending.frames ++ [a]).map (·.index) :=
      acknowledgedIds_acknowledgeAll
    change (others.acknowledgeAll (pending.frames ++ [a]) .failed
      (some "audio segment framing was discontinuous".toList)).share i = _
    rw [share, share, hacks, pendingIds_acknowledgeAll, List.count_append]
    change _ + others.pendingIds.count i + s.queueIds.count i + s.activeIds.count i = _
    omega
  · -- the segment goes on with the chunk
    set longer : PendingSegment := { pending with
      frames := pending.frames ++ [a]
      chunks := pending.chunks ++ [a.frame.audio]
      nextChunkIndex := pending.nextChunkIndex + 1 }
    have hperm := ((Keyed.insert_perm s.pendingSegments longer).flatMap_right (·.frames)).map
      (·.index)
    have hpend : (({ s with pendingSegments := s.pendingSegments.insert longer } :
        Playback).pendingIds).count i =
        ((pending.frames ++ [a]).map (·.index)).count i + others.pendingIds.count i := by
      rw [pendingIds, pendingFrames, hperm.count_eq, List.flatMap_cons, List.map_append,
        List.count_append, show longer.key = key from hkey]
      rfl
    rw [share, share, hpend]
    change (s.acknowledgedIds (·.isTerminal)).count i + _ + s.queueIds.count i +
      s.activeIds.count i = _
    omega
  · -- the segment is complete, and is queued
    set segment : SegmentAudio :=
      ⟨{ a.frame with audio := (pending.chunks ++ [a.frame.audio]).flatten }, pending.frames ++ [a]⟩
    have hqueue : (others.enqueueAudio segment).queueIds =
        s.queueIds ++ (pending.frames ++ [a]).map (·.index) := by
      rw [queueIds, enqueueAudio, List.flatMap_append, List.map_append]
      simp [queueIds, segment, others]
    rw [share, share, hqueue, List.count_append]
    change (s.acknowledgedIds (·.isTerminal)).count i + others.pendingIds.count i + _ +
      s.activeIds.count i = _
    omega

theorem share_enterGeneration (generation : ℤ) :
    (s.enterGeneration generation).share i = s.share i := by
  rw [enterGeneration]
  split
  · exact share_stopActiveAudio rfl
  · rfl

/-- **A frame that arrives is somewhere**, once. -/
theorem share_acceptAudioFrame :
    (s.acceptAudioFrame a).share i = s.share i + [a.index].count i := by
  rw [acceptAudioFrame]
  split
  · rw [share_acknowledgeAll]
    rfl
  · rw [share_acceptChunk, share_acknowledgeAll, share_enterGeneration]
    rfl

/-- What is handed to the player is with it, or was acknowledged. -/
theorem share_playAudio (segment : SegmentAudio) (hactive : s.activeAudio = none) :
    (s.playAudio segment).share i =
      s.share i + (segment.ackFrames.map (·.index)).count i := by
  rw [playAudio]
  split_ifs
  · rw [share_acknowledgeAll]
    rfl
  · rw [share_acknowledgeAll]
    rfl
  · have hnone : s.activeIds = [] := by rw [activeIds, hactive]; rfl
    rw [share, share, hnone]
    change (s.acknowledgedIds (·.isTerminal)).count i + s.pendingIds.count i +
      s.queueIds.count i + (([segment].flatMap (·.ackFrames)).map (·.index)).count i = _
    rw [List.flatMap_singleton, List.count_nil, Nat.add_zero]

/-- What the player had is acknowledged. -/
theorem share_finishAudio {active : ActiveAudio} (hactive : s.activeAudio = some active)
    {settlement : Settlement} (hstate : settlement.ackState.isTerminal = true) (ms : ℤ) :
    (s.finishAudio active settlement ms).share i = s.share i := by
  have hids : s.activeIds = active.segment.ackFrames.map (·.index) := by
    rw [activeIds, hactive, Option.toList_some, List.flatMap_singleton]
  have hacks : (s.acknowledgeAll active.segment.ackFrames settlement.ackState settlement.detail
      (some ms)).acknowledgedIds (·.isTerminal) = _ := acknowledgedIds_acknowledgeAll
  rw [if_pos hstate] at hacks
  have hacks' : (s.finishAudio active settlement ms).acknowledgedIds (·.isTerminal) =
      s.acknowledgedIds (·.isTerminal) ++ active.segment.ackFrames.map (·.index) := hacks
  rw [share, share, hids, hacks', List.count_append]
  change _ + s.pendingIds.count i + s.queueIds.count i + 0 = _
  omega

/-! ### What was acknowledged as queued -/

/-- Whether an acknowledgement is the first of a frame that is kept. -/
def isQueued (state : PlaybackState) : Bool := state == .queued

theorem queuedIds_acknowledgeAll (hstate : state ≠ .queued) :
    (s.acknowledgeAll frames state detail playedMs).acknowledgedIds isQueued =
      s.acknowledgedIds isQueued := by
  have hfalse : isQueued state = false := by simpa [isQueued] using hstate
  rw [acknowledgedIds_acknowledgeAll, hfalse, if_neg Bool.false_ne_true, List.append_nil]

theorem queuedIds_acceptChunk : (s.acceptChunk a).acknowledgedIds isQueued =
    s.acknowledgedIds isQueued := by
  unfold acceptChunk
  dsimp only
  split_ifs
  · exact queuedIds_acknowledgeAll nofun
  · rfl
  · rfl

theorem queuedIds_stopActiveAudio (hstate : state ≠ .queued) :
    (s.stopActiveAudio state).acknowledgedIds isQueued = s.acknowledgedIds isQueued :=
  queuedIds_acknowledgeAll hstate

theorem queuedIds_enterGeneration (generation : ℤ) :
    (s.enterGeneration generation).acknowledgedIds isQueued = s.acknowledgedIds isQueued := by
  rw [enterGeneration]
  split
  · exact queuedIds_stopActiveAudio nofun
  · rfl

/-- Whether a frame of a generation is stale when it arrives. -/
def isStale (s : Playback) (generation : ℤ) : Bool :=
  s.audioGeneration.any fun current => decide (generation < current)

/-- **A frame is acknowledged as queued when it arrives**, unless it is stale. -/
theorem queuedIds_acceptAudioFrame : (s.acceptAudioFrame a).acknowledgedIds isQueued =
    s.acknowledgedIds isQueued ++ if s.isStale a.frame.generation then [] else [a.index] := by
  rw [acceptAudioFrame, isStale]
  split
  · rw [List.append_nil]
    exact queuedIds_acknowledgeAll nofun
  · rw [queuedIds_acceptChunk, acknowledgedIds_acknowledgeAll, queuedIds_enterGeneration]
    rfl

theorem queuedIds_applyAudioControl (message : ServerMessage) :
    (s.applyAudioControl message).acknowledgedIds isQueued = s.acknowledgedIds isQueued := by
  have hstopped : ∀ b : Bool, (if b then s.stopActiveAudio else s).acknowledgedIds isQueued =
      s.acknowledgedIds isQueued := by
    rintro (_ | _)
    · rfl
    · exact queuedIds_stopActiveAudio nofun
  rw [applyAudioControl]
  split
  · exact hstopped _
  · exact hstopped _

theorem queuedIds_playAudio (segment : SegmentAudio) :
    (s.playAudio segment).acknowledgedIds isQueued = s.acknowledgedIds isQueued := by
  rw [playAudio]
  split_ifs
  · exact queuedIds_acknowledgeAll nofun
  · exact queuedIds_acknowledgeAll nofun
  · rfl

end Playback

end OperatorPage

end Eeveetuber
