import Eeveetuber.Web.PlaybackAcks

/-!
# Runs of the operator page

The generation that the page plays is the newest that it has seen, and what was put
into the audio queue in the current epoch is of it
(`Eeveetuber.OperatorPage.Playback.Fresh`). With the shares of the arrivals that is what a
step keeps, and `Eeveetuber.OperatorPage.playback_disciplined` what it comes to for a run.
-/

namespace Eeveetuber

namespace OperatorPage

open Foundation

namespace Playback

variable {s t : Playback} {a : Arrival}

/-! ### Generations and epochs -/

/-- What is in the queue since the last stop is of the generation that is played. -/
def Epochs (s : Playback) : Prop :=
  ∀ q ∈ s.audioQueue, q.epoch ≤ s.audioEpoch ∧
    (q.epoch = s.audioEpoch → s.audioGeneration = some q.segment.frame.generation)

/-- The generation that is played is the newest seen. -/
structure Newest (seen : List ℤ) (audioGeneration : Option ℤ) : Prop where
  le : ∀ g ∈ seen, ∃ current, audioGeneration = some current ∧ g ≤ current
  mem : ∀ current, audioGeneration = some current → current ∈ seen

/-- What settles the promise of the active audio is acknowledged terminally. -/
def Settled (s : Playback) : Prop :=
  ∀ active, s.activeAudio = some active → ∀ settlement, active.settlement = some settlement →
    settlement.ackState.isTerminal = true

/-- After a stop nothing in the queue is of the current epoch. -/
theorem Epochs.stopActiveAudio (h : s.Epochs) (state : PlaybackState) (generation : Option ℤ) :
    ({ s.stopActiveAudio state with audioGeneration := generation } : Playback).Epochs := by
  intro q hq
  have hle : q.epoch ≤ s.audioEpoch := (h q hq).1
  refine ⟨Nat.le_succ_of_le hle, fun heq => ?_⟩
  change q.epoch = s.audioEpoch + 1 at heq
  omega

theorem Settled.map (h : s.Settled) {f : ActiveAudio → ActiveAudio}
    (hf : ∀ active settlement, (f active).settlement = some settlement →
      active.settlement = some settlement ∨ settlement.ackState.isTerminal = true) :
    ({ s with activeAudio := s.activeAudio.map f } : Playback).Settled := by
  intro active hactive settlement hsettlement
  obtain ⟨before, hbefore, rfl⟩ := Option.map_eq_some_iff.mp hactive
  rcases hf before settlement hsettlement with hkept | hterminal
  · exact h before hbefore settlement hkept
  · exact hterminal

/-- What settles a promise now, or did before. -/
theorem settle_settlement {active : ActiveAudio} {now settlement : Settlement}
    (hnow : now.ackState.isTerminal = true) (h : (active.settle now).settlement = some settlement) :
    active.settlement = some settlement ∨ settlement.ackState.isTerminal = true := by
  have hget : active.settlement.getD now = settlement := Option.some.inj h
  rcases hs : active.settlement with _ | before
  · rw [hs, Option.getD_none] at hget
    exact Or.inr (hget ▸ hnow)
  · rw [hs, Option.getD_some] at hget
    exact Or.inl (congrArg some hget)

theorem Settled.settle (h : s.Settled) {now : Settlement} (hnow : now.ackState.isTerminal = true) :
    ({ s with activeAudio := s.activeAudio.map (·.settle now) } : Playback).Settled :=
  h.map fun _ _ => settle_settlement hnow

/-- **What the page keeps** about generations: `seen` is what it has seen by the end of a step. -/
structure Fresh (s : Playback) (seen : List ℤ) : Prop where
  newest : Newest seen s.audioGeneration
  epochs : s.Epochs
  settled : s.Settled
  handed : ∀ h ∈ s.handed, ∀ g ∈ h.2, g ≤ h.1

theorem newest_frame {seen : List ℤ} {generation : Option ℤ} {g : ℤ} (h : Newest seen generation)
    (hg : ∀ current, generation = some current → current ≤ g) : Newest (seen ++ [g]) (some g) := by
  constructor
  · intro g' hg'
    refine ⟨g, rfl, ?_⟩
    rcases List.mem_append.mp hg' with hg' | hg'
    · obtain ⟨current, hcurrent, hle⟩ := h.le g' hg'
      exact hle.trans (hg current hcurrent)
    · rw [List.mem_singleton.mp hg']
  · rintro current ⟨rfl⟩
    exact List.mem_append_right _ (List.mem_singleton_self _)

theorem newest_stale {seen : List ℤ} {current g : ℤ} (h : Newest seen (some current))
    (hg : g ≤ current) : Newest (seen ++ [g]) (some current) := by
  constructor
  · intro g' hg'
    rcases List.mem_append.mp hg' with hg' | hg'
    · exact h.le g' hg'
    · rw [List.mem_singleton.mp hg']
      exact ⟨current, rfl, hg⟩
  · rintro current' ⟨rfl⟩
    exact List.mem_append_left _ (h.mem _ rfl)

/-! ### What each function keeps -/

theorem acceptChunk_keeps (hepochs : s.Epochs)
    (hgeneration : s.audioGeneration = some a.frame.generation) :
    (s.acceptChunk a).Epochs ∧ (s.acceptChunk a).audioGeneration = s.audioGeneration ∧
      (s.acceptChunk a).activeAudio = s.activeAudio ∧ (s.acceptChunk a).handed = s.handed := by
  unfold acceptChunk
  dsimp only
  split_ifs
  · exact ⟨hepochs, rfl, rfl, rfl⟩
  · exact ⟨hepochs, rfl, rfl, rfl⟩
  · refine ⟨fun q hq => ?_, rfl, rfl, rfl⟩
    rcases List.mem_append.mp hq with hq | hq
    · exact hepochs q hq
    · rw [List.mem_singleton.mp hq]
      exact ⟨le_rfl, fun _ => hgeneration⟩

theorem enterGeneration_keeps {generation : ℤ} (hepochs : s.Epochs) (hsettled : s.Settled)
    (hstale : s.isStale generation = false) :
    (s.enterGeneration generation).Epochs ∧ (s.enterGeneration generation).Settled ∧
      (s.enterGeneration generation).audioGeneration = some generation ∧
      (s.enterGeneration generation).handed = s.handed := by
  rw [enterGeneration]
  split
  · exact ⟨hepochs.stopActiveAudio _ _, hsettled.settle rfl, rfl, rfl⟩
  · rename_i hnewer
    -- neither older nor newer
    rcases hcurrent : s.audioGeneration with _ | current
    · simp [hcurrent] at hnewer
    · refine ⟨hepochs, hsettled, ?_, rfl⟩
      simp only [hcurrent, isStale, Option.any_some, Option.all_some, decide_eq_true_eq,
        decide_eq_false_iff_not, not_lt] at hstale hnewer
      rw [le_antisymm hstale hnewer]

/-- **A frame that arrives** keeps what is kept. -/
theorem Fresh.acceptAudioFrame {seen : List ℤ} (h : s.Fresh seen) :
    (s.acceptAudioFrame a).Fresh (seen ++ [a.frame.generation]) := by
  obtain ⟨hnewest, hepochs, hsettled, hhanded⟩ := h
  rw [Playback.acceptAudioFrame]
  split
  · rename_i hstale
    rcases hcurrent : s.audioGeneration with _ | current
    · simp [hcurrent] at hstale
    · simp only [hcurrent, Option.any_some, decide_eq_true_eq] at hstale
      rw [hcurrent] at hnewest
      refine ⟨?_, hepochs, hsettled, hhanded⟩
      change Newest _ s.audioGeneration
      rw [hcurrent]
      exact newest_stale hnewest hstale.le
  · rename_i hstale
    obtain ⟨hepochs', hsettled', hgeneration, hhanded'⟩ :=
      enterGeneration_keeps hepochs hsettled (by simpa [isStale] using hstale)
    obtain ⟨hepochs'', hgeneration', hactive, hhanded''⟩ := acceptChunk_keeps
      (s := (s.enterGeneration a.frame.generation).acknowledgeAll [a] .queued) hepochs' hgeneration
    refine ⟨?_, hepochs'', ?_, ?_⟩
    · rw [hgeneration']
      change Newest _ (s.enterGeneration a.frame.generation).audioGeneration
      rw [hgeneration]
      refine newest_frame hnewest fun current hcurrent => ?_
      simpa [hcurrent] using hstale
    · intro active hsome
      exact hsettled' active (hactive ▸ hsome)
    · rw [hhanded'']
      change ∀ h ∈ (s.enterGeneration a.frame.generation).handed, _
      rw [hhanded']
      exact hhanded

/-- Before a generation is played nothing is in the queue of the current epoch. -/
theorem Epochs.of_none (h : s.Epochs) (hnone : s.audioGeneration = none) (generation : Option ℤ) :
    ({ s with audioGeneration := generation } : Playback).Epochs := by
  intro q hq
  refine ⟨(h q hq).1, fun heq => ?_⟩
  have hsome := (h q hq).2 heq
  rw [hnone] at hsome
  cases hsome

/-- **A message that arrives** keeps it. -/
theorem Fresh.applyAudioControl {seen : List ℤ} (h : s.Fresh seen) (message : ServerMessage) :
    (s.applyAudioControl message).Fresh (seen ++ message.generation.toList) := by
  obtain ⟨hnewest, hepochs, hsettled, hhanded⟩ := h
  have hstopped : ∀ b : Bool, (if b then s.stopActiveAudio else s).Settled ∧
      (if b then s.stopActiveAudio else s).handed = s.handed ∧
      (if b then s.stopActiveAudio else s).audioGeneration = s.audioGeneration := by
    rintro (_ | _)
    · exact ⟨hsettled, rfl, rfl⟩
    · exact ⟨hsettled.settle rfl, rfl, rfl⟩
  have hepochs' : ∀ b : Bool, (if b then s.stopActiveAudio else s).Epochs := by
    rintro (_ | _)
    · exact hepochs
    · exact hepochs.stopActiveAudio _ s.audioGeneration
  unfold Playback.applyAudioControl
  dsimp only
  generalize hcancel : (decide (message.type = "speech.cancelled") && _) = currentCancellation
  split
  · -- a newer generation
    rename_i hnewer
    rcases hg : message.generation with _ | g
    · simp [hg] at hnewer
    · simp only [hg, Option.any_some] at hnewer
      have hle : ∀ current, s.audioGeneration = some current → current ≤ g := by
        intro current hcurrent
        rw [hcurrent] at hnewer
        exact (of_decide_eq_true hnewer).le
      refine ⟨newest_frame hnewest hle, ?_, (hstopped _).1,
        fun h hh => hhanded h ((hstopped _).2.1 ▸ hh)⟩
      rcases hcurrent : s.audioGeneration with _ | current
      · rcases currentCancellation
        · exact hepochs.of_none hcurrent _
        · exact hepochs.stopActiveAudio _ _
      · rw [hcurrent] at hnewer
        rw [Option.any_some, hnewer, Option.isSome_some, Bool.and_true, Bool.or_true, if_pos rfl]
        exact hepochs.stopActiveAudio _ _
  · rename_i holder
    refine ⟨?_, hepochs' _, (hstopped _).1, fun h hh => hhanded h ((hstopped _).2.1 ▸ hh)⟩
    rw [(hstopped _).2.2]
    rcases hg : message.generation with _ | g
    · rw [Option.toList_none, List.append_nil]
      exact hnewest
    · rcases hcurrent : s.audioGeneration with _ | current
      · simp [hg, hcurrent] at holder
      · have hle : g ≤ current := by simpa [hg, hcurrent] using holder
        rw [hcurrent] at hnewest
        exact newest_stale hnewest hle

/-- What is handed to the player is of the newest generation. -/
theorem Fresh.playAudio {seen : List ℤ} (h : s.Fresh seen) {segment : SegmentAudio}
    (hseen : s.seen = seen)
    (hcurrent : s.audioGeneration = some segment.frame.generation) :
    (s.playAudio segment).Fresh seen := by
  obtain ⟨hnewest, hepochs, hsettled, hhanded⟩ := h
  rw [Playback.playAudio]
  split_ifs
  · exact ⟨hnewest, hepochs, hsettled, hhanded⟩
  · exact ⟨hnewest, hepochs, hsettled, hhanded⟩
  · refine ⟨hnewest, hepochs, ?_, ?_⟩
    · rintro active ⟨rfl⟩ settlement hsettlement
      cases hsettlement
    · intro played hplayed
      rcases List.mem_append.mp hplayed with hplayed | hplayed
      · exact hhanded played hplayed
      · rw [List.mem_singleton.mp hplayed]
        intro g hg
        obtain ⟨current, hsome, hle⟩ := hnewest.le g (hseen ▸ hg)
        obtain rfl := Option.some.inj (hcurrent.symm.trans hsome)
        exact hle

/-! ### The whole page -/

/-- Whether a newer generation was seen before a frame. -/
def isLate (arrival : AudioFrame × List ℤ) : Bool :=
  arrival.2.any fun g => decide (arrival.1.generation < g)

/-- The arrivals that are to be acknowledged as queued. -/
def expectedIds (arrivals : List (AudioFrame × List ℤ)) (i : ℕ) : ℕ :=
  match arrivals[i]? with
  | some arrival => if isLate arrival then 0 else 1
  | none => 0

theorem expectedIds_concat (arrivals : List (AudioFrame × List ℤ))
    (arrival : AudioFrame × List ℤ) (i : ℕ) : expectedIds (arrivals ++ [arrival]) i =
      if i = arrivals.length then if isLate arrival then 0 else 1
      else expectedIds arrivals i := by
  rw [expectedIds, expectedIds]
  rcases lt_trichotomy i arrivals.length with hlt | rfl | hgt
  · rw [List.getElem?_append_left hlt, if_neg hlt.ne]
  · rw [List.getElem?_concat_length, if_pos rfl]
  · have hend : (arrivals ++ [arrival]).length ≤ i := by
      rw [List.length_append, List.length_singleton]
      exact hgt
    rw [List.getElem?_eq_none hend, List.getElem?_eq_none hgt.le, if_neg hgt.ne']

/-- The invariant of every run. -/
structure Accounted (s : Playback) : Prop where
  fresh : s.Fresh s.seen
  /-- Every arrival has a share of one. -/
  share : ∀ i, s.share i = if i < s.arrivals.length then 1 else 0
  queued : ∀ i, (s.acknowledgedIds isQueued).count i = expectedIds s.arrivals i

theorem accounted_initial : initial.Accounted := by
  refine ⟨⟨⟨nofun, nofun⟩, nofun, nofun, nofun⟩, fun i => rfl, fun i => ?_⟩
  simp [expectedIds, initial, acknowledgedIds]

/-- A step that receives no frame. -/
theorem Accounted.of_same (h : s.Accounted) (hfresh : t.Fresh t.seen)
    (harrivals : t.arrivals = s.arrivals) (hshare : ∀ i, t.share i = s.share i)
    (hqueued : t.acknowledgedIds isQueued = s.acknowledgedIds isQueued) : t.Accounted := by
  refine ⟨hfresh, fun i => ?_, fun i => ?_⟩
  · rw [hshare, harrivals]
    exact h.share i
  · rw [hqueued, harrivals]
    exact h.queued i

/-- A frame is stale if a newer generation was seen. -/
theorem isStale_iff {frame : AudioFrame} (h : Newest s.seen s.audioGeneration) :
    s.isStale frame.generation = true ↔ isLate (frame, s.seen) = true := by
  rw [isStale, isLate, List.any_eq_true]
  simp only [decide_eq_true_iff]
  constructor
  · intro hstale
    rcases hcurrent : s.audioGeneration with _ | current
    · simp [hcurrent] at hstale
    · rw [hcurrent] at hstale
      exact ⟨current, h.mem current hcurrent, by simpa using hstale⟩
  · rintro ⟨g, hg, hlt⟩
    obtain ⟨current, hcurrent, hle⟩ := h.le g hg
    rw [hcurrent]
    simpa using hlt.trans_le hle

theorem Fresh.stopActiveAudio {seen : List ℤ} (h : s.Fresh seen) : s.stopActiveAudio.Fresh seen :=
  ⟨h.newest, h.epochs.stopActiveAudio _ s.audioGeneration, h.settled.settle rfl, h.handed⟩

theorem arrivals_applyAudioControl (message : ServerMessage) :
    (s.applyAudioControl message).arrivals = s.arrivals := by
  rw [Playback.applyAudioControl]
  split <;> split <;> rfl

theorem accounted_frame (h : s.Accounted) (frame : AudioFrame) :
    ({ s.acceptAudioFrame ⟨s.arrivals.length, frame⟩ with
        arrivals := s.arrivals ++ [(frame, s.seen)]
        seen := s.seen ++ [frame.generation] } : Playback).Accounted := by
  set a : Arrival := ⟨s.arrivals.length, frame⟩
  obtain ⟨hnewest, hepochs, hsettled, hhanded⟩ := h.fresh.acceptAudioFrame (a := a)
  refine ⟨⟨hnewest, hepochs, hsettled, hhanded⟩, fun i => ?_, fun i => ?_⟩
  -- the frame is in one place, and no other frame has moved
  · have hshare := share_acceptAudioFrame (s := s) (a := a) (i := i)
    change (s.acceptAudioFrame a).share i = _
    rw [hshare, h.share, List.length_append, List.length_singleton, List.count_singleton]
    have hindex : (a.index == i) = decide (i = s.arrivals.length) := by
      rw [Bool.eq_iff_iff, beq_iff_eq, decide_eq_true_iff]
      exact eq_comm
    rw [hindex]
    by_cases hi : i = s.arrivals.length
    · simp [hi]
    · have hlt : i < s.arrivals.length + 1 ↔ i < s.arrivals.length := by omega
      simp [hi, hlt]
  · have hqueued := queuedIds_acceptAudioFrame (s := s) (a := a)
    change ((s.acceptAudioFrame a).acknowledgedIds isQueued).count i = _
    change _ = expectedIds (s.arrivals ++ [(frame, s.seen)]) i
    rw [hqueued, List.count_append, h.queued, expectedIds_concat]
    have hstale : s.isStale frame.generation = true ↔ _ := isStale_iff h.fresh.newest
    -- the new index is acknowledged at once where the frame is stale
    by_cases hi : i = s.arrivals.length
    · subst hi
      rw [if_pos rfl, expectedIds, List.getElem?_eq_none le_rfl]
      by_cases hold : s.isStale frame.generation = true
      · rw [if_pos hold, if_pos (hstale.mp hold)]
        rfl
      · rw [if_neg hold, if_neg (mt hstale.mpr hold)]
        exact (Nat.zero_add _).trans List.count_singleton_self
    · have hne : a.index ≠ i := Ne.symm hi
      rw [if_neg hi]
      split_ifs <;> simp [hne]

/-- The promise of the active audio may be settled at any time. -/
theorem accounted_map (h : s.Accounted) {f : ActiveAudio → ActiveAudio}
    (hsegment : ∀ active, (f active).segment = active.segment)
    (hsettlement : ∀ active settlement, (f active).settlement = some settlement →
      active.settlement = some settlement ∨ settlement.ackState.isTerminal = true) :
    ({ s with activeAudio := s.activeAudio.map f } : Playback).Accounted := by
  refine h.of_same ⟨h.fresh.newest, h.fresh.epochs, h.fresh.settled.map hsettlement,
    h.fresh.handed⟩ rfl (fun i => ?_) rfl
  rw [share, share, activeIds_settle f hsegment]
  rfl

/-- **Every step keeps the invariant.** -/
theorem Accounted.next (h : s.Accounted) {l : Label} (hn : s.next l = some t) : t.Accounted := by
  cases l with
  | frame frame =>
    obtain rfl := Option.some.inj hn
    exact accounted_frame h frame
  | message message =>
    obtain rfl := Option.some.inj hn
    have hfresh : ({ s with sessionId := message.sessionId <|> s.sessionId } : Playback).Fresh
        s.seen := ⟨h.fresh.newest, h.fresh.epochs, h.fresh.settled, h.fresh.handed⟩
    obtain ⟨hnewest, hepochs, hsettled, hhanded⟩ := hfresh.applyAudioControl message
    refine h.of_same ⟨hnewest, hepochs, hsettled, hhanded⟩ ?_ ?_ ?_
    · exact arrivals_applyAudioControl message
    · exact fun i => share_applyAudioControl message
    · exact queuedIds_applyAudioControl message
  | stop =>
    obtain rfl := Option.some.inj hn
    exact h.of_same h.fresh.stopActiveAudio rfl (fun _ => share_stopActiveAudio rfl)
      (queuedIds_stopActiveAudio fun heq => by cases heq)
  | toggleAudio =>
    obtain rfl := Option.some.inj hn
    set toggled : Playback := { s with audioEnabled := !s.audioEnabled }
    have htoggled : toggled.Accounted := h.of_same ⟨h.fresh.newest, h.fresh.epochs, h.fresh.settled,
      h.fresh.handed⟩ rfl (fun _ => rfl) rfl
    split
    · exact htoggled
    · exact htoggled.of_same htoggled.fresh.stopActiveAudio rfl (fun _ => share_stopActiveAudio rfl)
        (queuedIds_stopActiveAudio fun heq => by cases heq)
  | runQueued =>
    simp only [Playback.next] at hn
    split at hn
    · rename_i queued rest hactive hqueue
      obtain ⟨hle, hcurrent⟩ := h.fresh.epochs queued (hqueue ▸ List.mem_cons_self)
      set run : Playback := { s with audioQueue := rest }
      have hfresh : run.Fresh s.seen := ⟨h.fresh.newest,
        fun q hq => h.fresh.epochs q (hqueue ▸ List.mem_cons_of_mem _ hq), h.fresh.settled,
        h.fresh.handed⟩
      -- what was taken from the queue is missing in the meantime
      have hshare : ∀ i, run.share i + (queued.segment.ackFrames.map (·.index)).count i =
          s.share i := by
        intro i
        have hids : s.queueIds = queued.segment.ackFrames.map (·.index) ++ run.queueIds := by
          rw [queueIds, hqueue, List.flatMap_cons, List.map_append]
          rfl
        rw [Playback.share, Playback.share, hids, List.count_append]
        change (s.acknowledgedIds (·.isTerminal)).count i + s.pendingIds.count i + _ +
          s.activeIds.count i + _ = _
        omega
      split_ifs at hn with hepoch
      · obtain rfl := Option.some.inj hn
        refine h.of_same ⟨hfresh.newest, hfresh.epochs, hfresh.settled, hfresh.handed⟩ rfl
          (fun i => ?_) (queuedIds_acknowledgeAll fun heq => by cases heq)
        rw [share_acknowledgeAll, ← hshare]
        rfl
      · obtain rfl := Option.some.inj hn
        have hsame : (run.playAudio queued.segment).arrivals = s.arrivals ∧
            (run.playAudio queued.segment).seen = s.seen := by
          rw [playAudio]
          split_ifs <;> exact ⟨rfl, rfl⟩
        refine h.of_same ?_ hsame.1 (fun i => ?_) (queuedIds_playAudio _)
        · rw [hsame.2]
          exact hfresh.playAudio rfl (hcurrent (not_not.mp hepoch))
        · have hidle : run.activeAudio = none := hactive
          exact (share_playAudio _ hidle).trans (hshare i)
    · cases hn
  | playing token =>
    obtain ⟨frames, -, rfl⟩ := Option.map_eq_some_iff.mp hn
    exact h.of_same ⟨h.fresh.newest, h.fresh.epochs, h.fresh.settled, h.fresh.handed⟩ rfl
      (fun i => share_acknowledgeAll) (queuedIds_acknowledgeAll fun heq => by cases heq)
  | notPlaying token error =>
    obtain ⟨frames, -, rfl⟩ := Option.map_eq_some_iff.mp hn
    obtain ⟨hfresh, hshare, hqueued⟩ := accounted_map h
      (f := fun active => if active.token = token then active.settle (.rejected error) else active)
      (fun active => by split <;> rfl) fun active settlement hsome => by
        split at hsome
        · exact settle_settlement rfl hsome
        · exact Or.inl hsome
    exact ⟨⟨hfresh.newest, hfresh.epochs, hfresh.settled, hfresh.handed⟩, hshare, hqueued⟩
  | ended =>
    obtain rfl := Option.some.inj hn
    exact accounted_map h (fun _ => rfl) fun _ _ => settle_settlement rfl
  | error =>
    obtain rfl := Option.some.inj hn
    exact accounted_map h (fun _ => rfl) fun _ _ => settle_settlement rfl
  | resume playedMs =>
    obtain ⟨active, hactive, hn⟩ := Option.bind_eq_some_iff.mp hn
    obtain ⟨settlement, hsettlement, rfl⟩ := Option.map_eq_some_iff.mp hn
    have hterminal := h.fresh.settled active hactive settlement hsettlement
    refine h.of_same ⟨h.fresh.newest, h.fresh.epochs, (fun _ hnone => by cases hnone),
      h.fresh.handed⟩ rfl
      (fun i => share_finishAudio hactive hterminal playedMs) ?_
    exact queuedIds_acknowledgeAll fun heq => by rw [heq] at hterminal; cases hterminal

/-- **Every state of a run is accounted for.** -/
theorem reachable_accounted (h : machine.Reachable s) : s.Accounted := by
  refine h.invariant (I := Accounted) ?_ fun _ _ _ _ hs _ hn => hs.next hn
  rintro s rfl
  exact accounted_initial

/-! ### The discipline -/

/-- How often an arrival was acknowledged in a state that passes a test. -/
def acknowledged (s : Playback) (p : PlaybackState → Bool) (i : ℕ) : ℕ :=
  s.acknowledgements.countP fun ack => decide (ack.arrival = i) && p ack.state

theorem count_acknowledgedIds (p : PlaybackState → Bool) (i : ℕ) :
    (s.acknowledgedIds p).count i = s.acknowledged p i := by
  rw [acknowledgedIds, acknowledged, List.count_eq_countP, List.countP_map, List.countP_filter]
  rfl

/-- Nothing is pending, queued or played. -/
structure Drained (s : Playback) : Prop where
  pendingSegments : s.pendingSegments.values = []
  audioQueue : s.audioQueue = []
  activeAudio : s.activeAudio = none

/-- What is asked of the acknowledgements of a page. -/
structure Disciplined (s : Playback) : Prop where
  /-- A frame is acknowledged as queued once, unless a newer generation was seen before it. -/
  queued : ∀ i (hi : i < s.arrivals.length), s.acknowledged (· == .queued) i =
    if isLate s.arrivals[i] then 0 else 1
  /-- It is acknowledged terminally at most once. -/
  terminal : ∀ i, s.acknowledged (·.isTerminal) i ≤ 1
  /-- Once everything has drained it was acknowledged terminally, once. -/
  drained : s.Drained → ∀ i < s.arrivals.length, s.acknowledged (·.isTerminal) i = 1
  /-- What was handed to the player was of no generation older than one seen before. -/
  handed : ∀ played ∈ s.handed, ∀ g ∈ played.2, g ≤ played.1

end Playback

/-- **Each frame is acknowledged as it should be**, whatever arrives in which order, whatever
the operator does and however the player ends. -/
theorem playback_disciplined {s : Playback} (h : Playback.machine.Reachable s) :
    s.Disciplined := by
  have hacc := Playback.reachable_accounted h
  have hshare : ∀ i, s.acknowledged (·.isTerminal) i + s.pendingIds.count i +
      s.queueIds.count i + s.activeIds.count i = if i < s.arrivals.length then 1 else 0 := by
    intro i
    rw [← Playback.count_acknowledgedIds]
    exact hacc.share i
  constructor
  · intro i hi
    have hqueued := hacc.queued i
    rw [Playback.count_acknowledgedIds, Playback.expectedIds,
      List.getElem?_eq_getElem hi] at hqueued
    exact hqueued
  · intro i
    have hsum := hshare i
    split_ifs at hsum <;> omega
  · intro hdrained i hi
    have hsum := hshare i
    have hpending : s.pendingIds = [] := by
      rw [Playback.pendingIds, Playback.pendingFrames, hdrained.pendingSegments]
      rfl
    have hqueue : s.queueIds = [] := by
      rw [Playback.queueIds, hdrained.audioQueue]
      rfl
    have hactive : s.activeIds = [] := by
      rw [Playback.activeIds, hdrained.activeAudio]
      rfl
    rw [hpending, hqueue, hactive, if_pos hi] at hsum
    simpa using hsum
  · exact hacc.fresh.handed

/-- A chunk of a segment. -/
def pageFrame (generation chunkIndex : ℤ) (flags : ℕ) : AudioFrame where
  sessionId := ['s']
  eventId := ['e']
  correlationId := ['c']
  turnId := ['t']
  segmentId := ['g']
  generation := generation
  eventSequence := 1
  segmentSequence := 0
  chunkIndex := chunkIndex
  sampleRateHz := 24000
  channels := 1
  mediaType := "audio/wav".toList
  durationMs := none
  flags := flags
  audio := [1]

/-- A segment is played, a newer generation interrupts it, and an old frame comes late. -/
def pageRun : List Playback.Label :=
  [.frame (pageFrame 1 0 0), .frame (pageFrame 1 1 1), .runQueued, .playing 0,
    .frame (pageFrame 2 0 1), .frame (pageFrame 1 2 1), .resume 40, .runQueued, .ended, .resume 80]

theorem playback_disciplined_pageRun : ∃ s, Playback.machine.Reachable s ∧
    s.arrivals.length = 4 ∧ s.Drained ∧ s.Disciplined := by
  have h : (Playback.machine.run .initial pageRun).map (fun s => (s.arrivals.length,
      s.pendingSegments.values, s.audioQueue, s.activeAudio)) = some (4, [], [], none) := by
    decide +kernel
  obtain ⟨s, hs, hstate⟩ := Option.map_eq_some_iff.mp h
  obtain ⟨hlength, hpending, hqueue, hactive⟩ := by simpa only [Prod.mk.injEq] using hstate
  have hr : Playback.machine.Reachable s := Machine.reachable_of_run rfl hs
  exact ⟨s, hr, hlength, ⟨hpending, hqueue, hactive⟩, playback_disciplined hr⟩

end OperatorPage

end Eeveetuber
