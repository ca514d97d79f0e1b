import Eeveetuber.Foundation.Keyed
import Eeveetuber.Foundation.Machine
import Eeveetuber.Web.AudioCodecs

/-!
# Playback on the operator page

The page collects the chunks of a segment, hands whole segments to the player one after
the other, and acknowledges to the server what becomes of each frame. A frame is in a
pending segment, in the audio queue, or with the player; a newer generation, the
operator and the server can take it from any of them. What a step does between two
callbacks of the browser is a step of `Eeveetuber.OperatorPage.Playback.machine`: a frame or
a message arrives, the operator stops or mutes, the next callback of the audio queue
runs, the player reports, or `playAudio` goes on after its promise was settled.

**Each frame is acknowledged as it should be**: `Eeveetuber.OperatorPage.playback_disciplined`.
-/

namespace Eeveetuber

namespace OperatorPage

open Foundation

/-! ### Acknowledgements -/

/-- The states of an acknowledgement. -/
inductive PlaybackState where
  | queued
  | started
  | completed
  | cancelled
  | failed
  | unsupported
deriving DecidableEq, Repr

/-- Whether nothing is to be said of a frame afterwards. -/
def PlaybackState.isTerminal : PlaybackState → Bool
  | .queued | .started => false
  | .completed | .cancelled | .failed | .unsupported => true

/-- A frame, and the how manieth it is. -/
structure Arrival where
  index : ℕ
  frame : AudioFrame
deriving DecidableEq

/-- An acknowledgement, and the arrival that it is of; the clock is left out. -/
structure PlaybackAck where
  arrival : ℕ
  sessionId : Option Text
  audioEventId : Text
  generation : ℤ
  eventSequence : Text
  segmentId : Text
  chunkIndex : ℤ
  state : PlaybackState
  playedMs : Option ℤ
  detail : Option Text
deriving DecidableEq

/-! ### The state of the page -/

/-- A segment whose final chunk has not arrived. -/
structure PendingSegment where
  generation : ℤ
  segmentId : Text
  frames : List Arrival
  chunks : List Bytes
  nextChunkIndex : ℤ
  mediaType : Text
deriving DecidableEq

/-- The key of a pending segment. -/
def PendingSegment.key (p : PendingSegment) : ℤ × Text := (p.generation, p.segmentId)

/-- A whole segment: its last frame, with the audio of all of them. -/
structure SegmentAudio where
  frame : AudioFrame
  ackFrames : List Arrival
deriving DecidableEq

/-- A callback in the audio queue, and the epoch it was put there in. -/
structure QueuedAudio where
  epoch : ℕ
  segment : SegmentAudio
deriving DecidableEq

/-- What settles the promise of `playAudio`. -/
inductive Settlement where
  | resolved (terminalState : PlaybackState)
  | rejected (error : Text)
deriving DecidableEq

/-- What is acknowledged of a settled promise, and why. -/
def Settlement.ackState : Settlement → PlaybackState
  | .resolved terminalState => terminalState
  | .rejected _ => .failed

def Settlement.detail : Settlement → Option Text
  | .resolved .completed => none
  | .resolved _ => some "playback stopped by operator".toList
  | .rejected error => some error

/-- A segment with the player. -/
structure ActiveAudio where
  segment : SegmentAudio
  /-- Names the promise of `play()`. -/
  token : ℕ
  settlement : Option Settlement
deriving DecidableEq

/-- What settles a promise first settles it. -/
def ActiveAudio.settle (a : ActiveAudio) (settlement : Settlement) : ActiveAudio :=
  { a with settlement := some (a.settlement.getD settlement) }

/-- The state of the page, and below it what was received, acknowledged and played. -/
structure Playback where
  sessionId : Option Text
  audioEnabled : Bool
  audioEpoch : ℕ
  audioGeneration : Option ℤ
  pendingSegments : Keyed PendingSegment.key
  audioQueue : List QueuedAudio
  activeAudio : Option ActiveAudio
  /-- The promises of `play()` that are not settled, with the frames to acknowledge. -/
  starting : List (ℕ × List Arrival)
  /-- How many times the player was started. -/
  played : ℕ
  acknowledgements : List PlaybackAck
  /-- The frames received, each with the generations seen before it. -/
  arrivals : List (AudioFrame × List ℤ)
  /-- The generations of the frames and messages received. -/
  seen : List ℤ
  /-- The generations of what was handed to the player, each with those seen before it. -/
  handed : List (ℤ × List ℤ)

/-- What is read of a message of the server; a field is there if it is an integer, or a text
that is not empty. -/
structure ServerMessage where
  type : String
  generation : Option ℤ
  sessionId : Option Text
deriving DecidableEq

namespace Playback

/-- A page that was just loaded. -/
def initial : Playback where
  sessionId := none
  audioEnabled := true
  audioEpoch := 0
  audioGeneration := none
  pendingSegments := ∅
  audioQueue := []
  activeAudio := none
  starting := []
  played := 0
  acknowledgements := []
  arrivals := []
  seen := []
  handed := []

/-! ### The functions of the page -/

variable (s : Playback)

/-- The message of `acknowledge`. -/
def ackOf (state : PlaybackState) (detail : Option Text) (playedMs : Option ℤ) (a : Arrival) :
    PlaybackAck where
  arrival := a.index
  sessionId := if a.frame.sessionId = [] then s.sessionId else some a.frame.sessionId
  audioEventId := a.frame.eventId
  generation := a.frame.generation
  eventSequence := (toString a.frame.eventSequence).toList
  segmentId := a.frame.segmentId
  chunkIndex := a.frame.chunkIndex
  state := state
  playedMs := playedMs
  detail := detail

def acknowledgeAll (frames : List Arrival) (state : PlaybackState) (detail : Option Text := none)
    (playedMs : Option ℤ := none) : Playback :=
  { s with acknowledgements := s.acknowledgements ++ frames.map (s.ackOf state detail playedMs) }

/-- The frames of the pending segments. -/
def pendingFrames : List Arrival := s.pendingSegments.values.flatMap (·.frames)

/-- `stopActiveAudio`; what it is called with is `"cancelled"` everywhere. -/
def stopActiveAudio (ackState : PlaybackState := .cancelled) : Playback :=
  { s.acknowledgeAll s.pendingFrames ackState (some "audio was superseded".toList) with
    audioEpoch := s.audioEpoch + 1
    pendingSegments := ∅
    activeAudio := s.activeAudio.map (·.settle (.resolved ackState)) }

def applyAudioControl (message : ServerMessage) : Playback :=
  let newerGeneration := message.generation.any fun generation =>
    s.audioGeneration.all fun current => decide (current < generation)
  let currentCancellation := decide (message.type = "speech.cancelled") &&
    message.generation.all fun generation =>
      s.audioGeneration.all fun current => decide (current ≤ generation)
  let stopped :=
    if currentCancellation || (s.audioGeneration.isSome && newerGeneration) then s.stopActiveAudio
    else s
  if newerGeneration then { stopped with audioGeneration := message.generation } else stopped

/-- The segment that a frame belongs to, as far as it has arrived. -/
def pendingOf (frame : AudioFrame) : PendingSegment :=
  (s.pendingSegments.find? (frame.generation, frame.segmentId)).getD
    ⟨frame.generation, frame.segmentId, [], [], 0, frame.mediaType⟩

def enqueueAudio (segment : SegmentAudio) : Playback :=
  { s with audioQueue := s.audioQueue ++ [⟨s.audioEpoch, segment⟩] }

/-- `acceptAudioFrame`, after the checks of the generation. -/
def acceptChunk (a : Arrival) : Playback :=
  let key := (a.frame.generation, a.frame.segmentId)
  let pending := s.pendingOf a.frame
  if a.frame.chunkIndex ≠ pending.nextChunkIndex ∨ a.frame.mediaType ≠ pending.mediaType then
    { s.acknowledgeAll (pending.frames ++ [a]) .failed
        (some "audio segment framing was discontinuous".toList) with
      pendingSegments := s.pendingSegments.erase key }
  else
    let pending := { pending with
      frames := pending.frames ++ [a]
      chunks := pending.chunks ++ [a.frame.audio]
      nextChunkIndex := pending.nextChunkIndex + 1 }
    if a.frame.flags &&& flagFinalChunk = 0 then
      { s with pendingSegments := s.pendingSegments.insert pending }
    else
      let taken := { s with pendingSegments := s.pendingSegments.erase key }
      taken.enqueueAudio ⟨{ a.frame with audio := pending.chunks.flatten }, pending.frames⟩

/-- A newer generation takes over. -/
def enterGeneration (generation : ℤ) : Playback :=
  if s.audioGeneration.all fun current => decide (current < generation) then
    { s.stopActiveAudio with audioGeneration := some generation }
  else s

def acceptAudioFrame (a : Arrival) : Playback :=
  if s.audioGeneration.any fun current => decide (a.frame.generation < current) then
    s.acknowledgeAll [a] .cancelled (some "stale audio generation".toList)
  else ((s.enterGeneration a.frame.generation).acknowledgeAll [a] .queued).acceptChunk a

/-- `playAudio`, up to where it waits for the player. -/
def playAudio (segment : SegmentAudio) : Playback :=
  if s.audioEnabled = false then
    s.acknowledgeAll segment.ackFrames .cancelled (some "operator muted audio".toList)
  else if audioMime.isPrefixOf segment.frame.mediaType = false then
    s.acknowledgeAll segment.ackFrames .unsupported
      (some ("unsupported media type: ".toList ++ segment.frame.mediaType))
  else
    { s with
      activeAudio := some ⟨segment, s.played, none⟩
      starting := s.starting ++ [(s.played, segment.ackFrames)]
      played := s.played + 1
      handed := s.handed ++ [(segment.frame.generation, s.seen)] }

/-- `playAudio`, after its promise was settled. -/
def finishAudio (a : ActiveAudio) (settlement : Settlement) (playedMs : ℤ) : Playback :=
  { s.acknowledgeAll a.segment.ackFrames settlement.ackState settlement.detail (some playedMs) with
    activeAudio := none }

/-! ### Steps -/

/-- What happens to the page, while it is connected. -/
inductive Label where
  /-- A frame arrives. -/
  | frame (frame : AudioFrame)
  /-- A message arrives. -/
  | message (message : ServerMessage)
  /-- The operator stops the speech, or kills the session. -/
  | stop
  /-- The operator mutes or unmutes. -/
  | toggleAudio
  /-- The next callback of the audio queue runs. -/
  | runQueued
  /-- A promise of `play()` is resolved. -/
  | playing (token : ℕ)
  /-- A promise of `play()` is rejected. -/
  | notPlaying (token : ℕ) (error : Text)
  /-- The player has come to the end. -/
  | ended
  /-- The player reports an error. -/
  | error
  /-- `playAudio` goes on. -/
  | resume (playedMs : ℤ)
deriving DecidableEq

/-- The promise of the active audio is settled, if it is the one of `token`. -/
def settleActive (token : ℕ) (settlement : Settlement) : Playback :=
  { s with activeAudio := s.activeAudio.map fun a =>
      if a.token = token then a.settle settlement else a }

/-- What a label does. -/
def next : Label → Option Playback
  | .frame frame => some
      { s.acceptAudioFrame ⟨s.arrivals.length, frame⟩ with
        arrivals := s.arrivals ++ [(frame, s.seen)]
        seen := s.seen ++ [frame.generation] }
  | .message message =>
    let addressed := { s with sessionId := message.sessionId <|> s.sessionId }
    some { addressed.applyAudioControl message with seen := s.seen ++ message.generation.toList }
  | .stop => some s.stopActiveAudio
  | .toggleAudio =>
    let toggled := { s with audioEnabled := !s.audioEnabled }
    some (if toggled.audioEnabled then toggled else toggled.stopActiveAudio)
  | .runQueued =>
    -- the callback before it has to have settled
    match s.activeAudio, s.audioQueue with
    | none, queued :: rest =>
      let run := { s with audioQueue := rest }
      if queued.epoch ≠ s.audioEpoch then
        some (run.acknowledgeAll queued.segment.ackFrames .cancelled
          (some "audio queue was superseded".toList))
      else some (run.playAudio queued.segment)
    | _, _ => none
  | .playing token =>
    (s.starting.lookup token).map fun frames =>
      { s.acknowledgeAll frames .started with
        starting := s.starting.filter fun p => p.1 ≠ token }
  | .notPlaying token error =>
    (s.starting.lookup token).map fun _ =>
      { s.settleActive token (.rejected error) with
        starting := s.starting.filter fun p => p.1 ≠ token }
  | .ended => some { s with activeAudio := s.activeAudio.map (·.settle (.resolved .completed)) }
  | .error =>
    let failure := .rejected "Error: browser could not decode audio".toList
    some { s with activeAudio := s.activeAudio.map (·.settle failure) }
  | .resume playedMs =>
    s.activeAudio.bind fun a => a.settlement.map fun settlement =>
      s.finishAudio a settlement playedMs

/-- The page, while it is connected. -/
def machine : Machine Playback Label where
  start s := s = initial
  next := next

end Playback

end OperatorPage

end Eeveetuber
