import Eeveetuber.Application.ForegroundMoves

/-!
# The steps of the dialogue tasks, and all steps

What a dialogue task does to the floor is one of three changes: it begins to speak, it makes
its final transitions and is over, or it is over without any. The last is not steady while the
generation of the task is current, and comes about there only when the pipeline reports a
cancellation, or a publication is answered `False`
(`Eeveetuber.ForegroundSession.isSteady`, `Eeveetuber.ForegroundSession.Truthful`).

With the submissions of the clients this gives every step of a session
(`Eeveetuber.ForegroundSession.moves_of_next`).
-/

namespace Eeveetuber

open Foundation Relation

namespace ForegroundSession

variable {steady : Bool} {s t u : ForegroundSession} {i : ℕ} {task task' : TurnTask}
  {g : CancellationGeneration} {o : SessionOutput}
  {l₁ l₂ : List (CancellationGeneration × Bool)}

/-! ### One task among the others -/

/-- The task is the `i`-th, and `l₁` and `l₂` are what the floor shows of the other turns. -/
structure Among (s : ForegroundSession) (i : ℕ) (task : TurnTask)
    (l₁ l₂ : List (CancellationGeneration × Bool)) : Prop where
  is : s.turns[i]? = some task
  set : ∀ task' : TurnTask, (s.setTurn i task').openTurns = l₁ ++ (task'.shown?.toList ++ l₂)

theorem exists_among (h : s.turns[i]? = some task) : ∃ l₁ l₂, Among s i task l₁ l₂ := by
  obtain ⟨l₁, l₂, -, hset⟩ := exists_filterMap_set h TurnTask.shown?
  refine ⟨s.actorTask.turn?.toList ++ l₁, l₂, h, fun task' => ?_⟩
  change s.actorTask.turn?.toList ++ (s.turns.set i task').filterMap TurnTask.shown? = _
  rw [hset, List.append_assoc]

theorem Among.openTurns_eq (h : Among s i task l₁ l₂) :
    s.openTurns = l₁ ++ (task.shown?.toList ++ l₂) := by
  obtain ⟨hlt, heq⟩ := List.getElem?_eq_some_iff.mp h.is
  rw [← h.set task]
  have hsame : s.turns.set i task = s.turns := by rw [← heq, List.set_getElem_self]
  rw [openTurns, openTurns, aliveTurns, aliveTurns, setTurn, hsame]

theorem Among.still (h : Among s i task l₁ l₂) (hst : Still s t) : Among t i task l₁ l₂ := by
  refine ⟨hst.turns ▸ h.is, fun task' => ?_⟩
  rw [← h.set task', openTurns, openTurns, aliveTurns, aliveTurns]
  change t.actorTask.turn?.toList ++ (t.turns.set i task').filterMap _ =
    s.actorTask.turn?.toList ++ (s.turns.set i task').filterMap _
  rw [hst.actorTask, hst.turns]

theorem shown?_of_alive (h : task.stage ≠ .done) : task.shown? = some task.shown :=
  if_pos (decide_eq_true h)

/-- A session with tasks has been started. -/
theorem Live.not_new (hs : s.Live) (h : s.turns[i]? = some task) : s.actor.lifecycle ≠ .new := by
  intro hnew
  rw [(hs.new hnew).2] at h
  cases h

theorem live_setTurn (hs : s.Live) (h : s.turns[i]? = some task) : (s.setTurn i task').Live :=
  ⟨hs.wellFormed, hs.overflow, fun hnew => absurd hnew (hs.not_new h), hs.opened, hs.serving,
    hs.finishing, hs.commands⟩

theorem floor_setTurn (h : Among s i task l₁ l₂) : (s.setTurn i task').floor =
    { s.floor with turns := l₁ ++ (task'.shown?.toList ++ l₂) } :=
  Floor.ext rfl rfl rfl rfl rfl (h.set task') rfl rfl

/-- A task goes on. -/
theorem moves_setTurn (hs : s.Live) (h : Among s i task l₁ l₂) (halive : task.stage ≠ .done)
    (halive' : task'.stage ≠ .done) (hshown : task'.shown = task.shown) :
    Moves steady s (s.setTurn i task') := by
  refine .of_floor_eq (live_setTurn hs h.is) ((floor_setTurn h).trans ?_)
  rw [shown?_of_alive halive', hshown, ← shown?_of_alive halive, ← h.openTurns_eq]
  rfl

theorem floor_endTurn (h : Among s i task l₁ l₂) (exception : Option SessionError) :
    (s.endTurn i task' exception).floor = { s.floor with turns := l₁ ++ l₂ } :=
  (still_childDone task'.child exception).floor.trans (floor_setTurn h)

theorem live_endTurn (hs : s.Live) (h : Among s i task l₁ l₂) (exception : Option SessionError) :
    (s.endTurn i task' exception).Live :=
  (still_childDone task'.child exception).live (live_setTurn hs h.is)

/-- A task is over without a transition: it is not steady while its generation is current. -/
theorem moves_endTurn (hs : s.Live) (h : Among s i task l₁ l₂) (exception : Option SessionError)
    (hsteady : steady = true → s.actor.cancellation.accepts task.generation = false) :
    Moves steady s (s.endTurn i task' exception) := by
  refine .single (live_endTurn hs h exception) ?_
  rw [floor_endTurn h]
  have hsub : (l₁ ++ l₂).Sublist s.openTurns := by
    rw [h.openTurns_eq]
    exact (List.sublist_append_right _ _).append_left _
  refine .release hsub.subperm fun hst hopen p hp hg => ?_
  have hp' : p ∈ l₁ ++ (task.shown?.toList ++ l₂) := h.openTurns_eq ▸ hp
  rcases List.mem_append.mp hp' with hp' | hp'
  · exact List.mem_append_left _ hp'
  · rcases List.mem_append.mp hp' with hp' | hp'
    · rw [TurnTask.shown?] at hp'
      split at hp'
      · obtain rfl : p = task.shown := List.mem_singleton.mp hp'
        exact absurd (hs.accepts_iff.mpr ⟨hopen, hg⟩) (hsteady hst ▸ Bool.false_ne_true)
      · cases hp'
    · exact List.mem_append_right _ hp'

/-- A task publishes, and waits. -/
theorem publishFromTurn_eq (hs : s.actor.WellFormed) (i : ℕ) (task : TurnTask) (o : SessionOutput)
    (stage : ℕ → TurnStage) : ∃ t call, Still s t ∧
      s.publishFromTurn i task o stage = t.setTurn i { task with stage := stage call } := by
  obtain ⟨t, call, hpublish, hstill⟩ := publish_ok hs task.generation o
  exact ⟨t, call, hstill, by rw [publishFromTurn, hpublish]⟩

theorem publishingSpeech_ne_done (call : ℕ) : TurnStage.publishingSpeech call ≠ .done :=
  TurnStage.noConfusion

theorem publishingFailed_ne_done (call : ℕ) : TurnStage.publishingFailed call ≠ .done :=
  TurnStage.noConfusion

/-- A publication changes nothing but what the task has of its own. -/
theorem floor_publishFromTurn (hs : s.Live) (h : Among s i task l₁ l₂) (task' : TurnTask)
    (o : SessionOutput) {stage : ℕ → TurnStage} (hstage : ∀ call, stage call ≠ .done) :
    (s.publishFromTurn i task' o stage).Live ∧ (s.publishFromTurn i task' o stage).floor =
      { s.floor with turns := l₁ ++ (task'.shown :: l₂) } := by
  obtain ⟨t, call, hstill, heq⟩ := publishFromTurn_eq hs.wellFormed i task' o stage
  have ht := h.still hstill
  rw [heq]
  refine ⟨live_setTurn (hstill.live hs) ht.is, (floor_setTurn ht).trans ?_⟩
  rw [hstill.floor, shown?_of_alive (hstage call)]
  rfl

theorem moves_publishFromTurn (hs : s.Live) (h : Among s i task l₁ l₂)
    (halive : task.stage ≠ .done) (hshown : task'.shown = task.shown) (o : SessionOutput)
    {stage : ℕ → TurnStage} (hstage : ∀ call, stage call ≠ .done) :
    Moves steady s (s.publishFromTurn i task' o stage) := by
  obtain ⟨hlive, hfloor⟩ := floor_publishFromTurn hs h task' o hstage
  refine .of_floor_eq hlive (hfloor.trans ?_)
  rw [hshown]
  have hturns := h.openTurns_eq
  rw [shown?_of_alive halive] at hturns
  exact Floor.ext rfl rfl rfl rfl rfl hturns.symm rfl rfl

theorem moves_failTurn (hs : s.Live) (h : Among s i task l₁ l₂) (halive : task.stage ≠ .done)
    (hshown : task'.shown = task.shown) (failure : TurnFailure) :
    Moves steady s (s.failTurn i task' failure) :=
  moves_publishFromTurn hs h halive hshown _ publishingFailed_ne_done

/-! ### Transitions of the tasks -/

/-- The final transitions of a turn. -/
def finalRequests (capturing : Bool) (state : InteractionState) : List TransitionRequest :=
  (if state ≠ .idle then [(.idle, "utterance stream completed")] else []) ++
    if capturing then [(.listening, "microphone remains active after utterance")] else []

theorem legal_finalRequests (capturing : Bool) :
    ∀ state, Legal state (finalRequests capturing state) ∧
    (destination state (finalRequests capturing state)).isBusy = false := by
  cases capturing with
  | true => rintro (_ | _ | _ | _ | _ | _ | _) <;> decide
  | false => rintro (_ | _ | _ | _ | _ | _ | _) <;> decide

/-- A task of an earlier generation makes no transition. -/
theorem transitionIfCurrent_stale (h : s.actor.cancellation.accepts g = false)
    (request : TransitionRequest) :
    ∃ t, s.transitionIfCurrent g request = (t, .ok false) ∧ Still s t := by
  refine ⟨s.withActor { s.actor with staleResults := s.actor.staleResults + 1 }, ?_,
    ⟨⟨rfl, rfl, rfl, rfl, rfl, rfl, rfl, rfl, rfl⟩, rfl, fun _ hc => Or.inl hc, rfl, rfl, rfl, rfl⟩⟩
  rw [transitionIfCurrent_eq, h]
  rfl

theorem transitionIfCurrent_current (h : s.actor.cancellation.accepts g = true)
    (request : TransitionRequest) : s.transitionIfCurrent g request =
      ((s.transition request).1, (s.transition request).2.map fun _ => true) := by
  rw [transitionIfCurrent_eq, if_pos h]

/-- A current task has been started, and is not being stopped. -/
theorem Live.running (hs : s.Live) (h : s.turns[i]? = some task)
    (hg : s.actor.cancellation.accepts g = true) : s.actor.lifecycle = .running :=
  (hs.opened (hs.accepts_iff.mp hg).1).2.2.resolve_left (hs.not_new h)

theorem accepts_of_still (h : Still s t) :
    t.actor.cancellation.accepts g = s.actor.cancellation.accepts g := by
  rw [h.actor.cancellation]

/-- A transition of a current task that the table allows is made. -/
theorem transitionIfCurrent_ok (request : TransitionRequest) (hrun : s.actor.lifecycle = .running)
    (hg : s.actor.cancellation.accepts g = true) (hallowed : request.1 ∈ s.state.allowedFrom)
    (hreason : isBlank request.2.toList = false) :
    ∃ n, s.transitionIfCurrent g request = (s.walk [request] n, .ok true) := by
  obtain ⟨n, hn⟩ := transition_ok (Or.inl hrun) hallowed hreason
  exact ⟨n, by rw [transitionIfCurrent_current hg, hn]; rfl⟩

theorem idle_mem_allowedFrom : ∀ {state : InteractionState}, state ≠ .idle →
    .idle ∈ state.allowedFrom := by
  rintro (_ | _ | _ | _ | _ | _ | _) h <;> first | exact absurd rfl h | decide

/-- The final transitions of a current turn are all made. -/
theorem finishInteraction_current (hrun : s.actor.lifecycle = .running)
    (hg : s.actor.cancellation.accepts g = true) : ∃ n, s.finishInteraction g =
      (s.walk (finalRequests s.voiceCaptureActive s.state) n, .ok true) := by
  have hlisten {v : ForegroundSession} (hv : v.actor.lifecycle = .running)
      (hvg : v.actor.cancellation.accepts g = true) (hidle : v.state = .idle) :
      ∃ n, v.transitionIfCurrent g
        (.listening, "microphone remains active after utterance") = (v.walk _ n, .ok true) :=
    transitionIfCurrent_ok _ hv hvg (by rw [hidle]; decide) (by decide)
  rw [finishInteraction]
  by_cases hidle : s.state = .idle
  · rw [if_neg (not_not_intro hidle), finalRequests, if_neg (not_not_intro hidle)]
    dsimp only
    rcases hcapture : s.voiceCaptureActive with _ | _
    · exact ⟨s.actor.interaction.revision, congrArg (·, Except.ok true) (walk_nil (s := s)).symm⟩
    · exact hlisten hrun hg hidle
  · obtain ⟨n, hn⟩ := transitionIfCurrent_ok (.idle, "utterance stream completed") hrun hg
      (idle_mem_allowedFrom hidle) (by decide)
    rw [if_pos hidle, hn, finalRequests, if_pos hidle]
    dsimp only
    rw [show (s.walk [(.idle, "utterance stream completed")] n).voiceCaptureActive =
      s.voiceCaptureActive from rfl]
    rcases hcapture : s.voiceCaptureActive with _ | _
    · exact ⟨n, rfl⟩
    · obtain ⟨m, hm⟩ := hlisten (v := s.walk [(.idle, "utterance stream completed")] n) hrun hg rfl
      refine ⟨m, ?_⟩
      rw [if_pos rfl, hm, walk_walk]
      rfl

/-- The final transitions of an earlier turn are not made. -/
theorem finishInteraction_stale (hg : s.actor.cancellation.accepts g = false) :
    ∃ t b, s.finishInteraction g = (t, .ok b) ∧ Still s t := by
  rw [finishInteraction]
  by_cases hidle : s.state = .idle
  · rw [if_neg (not_not_intro hidle)]
    dsimp only
    rcases hcapture : s.voiceCaptureActive with _ | _
    · exact ⟨s, true, rfl, .refl s⟩
    · obtain ⟨t, ht, hstill⟩ := transitionIfCurrent_stale hg
        (.listening, "microphone remains active after utterance")
      exact ⟨t, false, ht, hstill⟩
  · obtain ⟨t, ht, hstill⟩ := transitionIfCurrent_stale hg (.idle, "utterance stream completed")
    rw [if_pos hidle, ht]
    exact ⟨t, false, rfl, hstill⟩

/-! ### What a task does -/

/-- A current task, as the floor shows it. -/
theorem Among.floor_turns (h : Among s i task l₁ l₂) (halive : task.stage ≠ .done)
    (hs : s.Live) (hg : s.actor.cancellation.accepts task.generation = true) :
    s.floor.closed = false ∧
      s.floor.turns = l₁ ++ (s.floor.generation, task.firstSegment) :: l₂ := by
  obtain ⟨hopen, hgen⟩ := hs.accepts_iff.mp hg
  refine ⟨hopen, h.openTurns_eq.trans ?_⟩
  rw [shown?_of_alive halive, TurnTask.shown, hgen]
  rfl

theorem Among.walk (h : Among s i task l₁ l₂) (requests : List TransitionRequest) (n : ℕ) :
    Among (s.walk requests n) i task l₁ l₂ := ⟨h.is, h.set⟩

/-- **The pipeline has ended**: the turn makes its final transitions, if it is the current one. -/
theorem moves_finishTurn (hs : s.Live) (h : Among s i task l₁ l₂) (halive : task.stage ≠ .done) :
    Moves steady s (s.finishTurn i task) := by
  rw [finishTurn]
  rcases hg : s.actor.cancellation.accepts task.generation with _ | _
  · obtain ⟨t, b, ht, hstill⟩ := finishInteraction_stale hg
    rw [ht]
    exact (hstill.moves hs).trans
      (moves_endTurn (hstill.live hs) (h.still hstill) none fun _ =>
        (accepts_of_still hstill).trans hg)
  · obtain ⟨n, hn⟩ := finishInteraction_current (hs.running h.is hg) hg
    obtain ⟨hlegal, hquiet⟩ := legal_finalRequests s.voiceCaptureActive s.state
    obtain ⟨hopen, hturns⟩ := h.floor_turns halive hs hg
    rw [hn]
    refine .single (live_endTurn (hs.walk _ n) (h.walk _ n) none) ?_
    rw [floor_endTurn (h.walk _ n), walk_floor]
    exact .finish (finalRequests s.voiceCaptureActive s.state) hopen hturns hlegal hquiet

/-- A transition of a task is refused, and the task goes on or is over. -/
theorem moves_refused (hs : s.Live) (h : Among s i task l₁ l₂) (halive : task.stage ≠ .done)
    (hg : s.actor.cancellation.accepts task.generation = true) {requested : InteractionState}
    (hrequested : requested = .speaking ∧ task.firstSegment = true ∨ requested = .degraded)
    (hrefused : requested ∉ s.state.allowedFrom) (hu : u.Live)
    {turns : List (CancellationGeneration × Bool)} (hturns : turns.Subperm s.openTurns)
    (hfloor : u.floor = { s.floor with
      turns := turns
      requested := s.requested ++ [(s.state, requested)] }) : Moves steady s u := by
  obtain ⟨hopen, heq⟩ := h.floor_turns halive hs hg
  refine .single hu ?_
  rw [hfloor]
  exact .refuse hopen (heq ▸ List.mem_append_right _ List.mem_cons_self) hrequested hrefused hturns

/-- **A published `turn.failed` degrades the session**, while its generation is current. -/
theorem moves_degrade (hs : s.Live) (h : Among s i task l₁ l₂) (halive : task.stage ≠ .done)
    {reason : String} (hreason : isBlank reason.toList = false)
    {raised : ForegroundSession → SessionError → ForegroundSession}
    (hraised : ∀ v e, Live v → Among v i task l₁ l₂ → Live (raised v e) ∧
      ∃ turns, turns.Subperm v.openTurns ∧ (raised v e).floor = { v.floor with turns := turns })
    {b : Bool} (hsteady : steady = true → b = false →
      s.actor.cancellation.accepts task.generation = false) :
    Moves steady s (s.degrade i task reason raised b) := by
  cases b with
  | false => exact moves_endTurn hs h none fun hst => hsteady hst rfl
  | true =>
    rw [degrade]
    -- the generation may have ended while the failure was published
    rcases hg : s.actor.cancellation.accepts task.generation with _ | _
    · obtain ⟨t, ht, hstill⟩ := transitionIfCurrent_stale hg (.degraded, reason)
      rw [ht]
      exact (hstill.moves hs).trans (moves_endTurn (hstill.live hs) (h.still hstill) none
        fun _ => (accepts_of_still hstill).trans hg)
    · have hrun := hs.running h.is hg
      by_cases hallowed : .degraded ∈ s.state.allowedFrom
      · obtain ⟨n, hn⟩ := transitionIfCurrent_ok (.degraded, reason) hrun hg hallowed
          hreason
        obtain ⟨hopen, hturns⟩ := h.floor_turns halive hs hg
        rw [hn]
        refine .single (live_endTurn (hs.walk _ n) (h.walk _ n) none) ?_
        rw [floor_endTurn (h.walk _ n), walk_floor]
        exact .finish [(.degraded, reason)] hopen hturns
          (legal_cons.mpr ⟨⟨hallowed, hreason⟩, legal_nil _⟩) rfl
      -- there is no way to `DEGRADED` from here, and the task raises
      · obtain ⟨e, he⟩ := transition_error (.degraded, reason) (Or.inl hrun) hallowed
          hreason
        rw [transitionIfCurrent_current hg, he]
        let v : ForegroundSession := { s with requested := s.requested ++ [(s.state, .degraded)] }
        have hv : v.Live := ⟨hs.wellFormed, hs.overflow, hs.new, hs.opened, hs.serving,
          hs.finishing, hs.commands⟩
        obtain ⟨hlive, turns, hsub, hfloor⟩ := hraised v e hv ⟨h.is, h.set⟩
        exact moves_refused hs h halive hg (Or.inr rfl) hallowed hlive hsub hfloor

/-- **A segment is published**, after the transition that the first one makes. -/
theorem moves_publishSegment (hs : s.Live) (h : Among s i task l₁ l₂)
    (halive : task.stage ≠ .done) (hshown : task'.shown = task.shown) (segment : UtteranceSegment) :
    Moves steady s (s.publishSegment i task' segment) := by
  have hfirst : task'.firstSegment = task.firstSegment := congrArg Prod.snd hshown
  have hgen : task'.generation = task.generation := congrArg Prod.fst hshown
  rw [publishSegment]
  dsimp only
  rcases hsegment : task'.firstSegment with _ | _
  · exact moves_publishFromTurn hs h halive hshown _ publishingSpeech_ne_done
  · rw [if_pos rfl]
    rcases hg : s.actor.cancellation.accepts task'.generation with _ | _
    · obtain ⟨t, ht, hstill⟩ := transitionIfCurrent_stale hg
        (.speaking, "first validated utterance segment")
      rw [ht]
      exact (hstill.moves hs).trans (moves_endTurn (hstill.live hs) (h.still hstill) none
        fun _ => (accepts_of_still hstill).trans (hgen ▸ hg))
    · have hrun := hs.running h.is hg
      obtain ⟨hopen, hturns⟩ := h.floor_turns halive hs (hgen ▸ hg)
      have hsilent : task.firstSegment = true := hfirst.symm.trans hsegment
      rw [hsilent] at hturns
      by_cases hallowed : .speaking ∈ s.state.allowedFrom
      · obtain ⟨n, hn⟩ := transitionIfCurrent_ok
          (.speaking, "first validated utterance segment") hrun hg hallowed (by decide)
        rw [hn]
        obtain ⟨hlive, hfloor⟩ := floor_publishFromTurn (hs.walk _ n) (h.walk _ n)
          { task' with firstSegment := false }
          (.utteranceSegmentReady task'.generation task'.turn.turnId segment)
          publishingSpeech_ne_done
        refine .single hlive ?_
        rw [hfloor, walk_floor]
        have hshown' : ({ task' with firstSegment := false } : TurnTask).shown =
            (s.floor.generation, false) :=
          Prod.ext (hs.accepts_iff.mp hg).2 rfl
        rw [hshown']
        exact .speak hopen hturns hallowed
      · obtain ⟨e, he⟩ := transition_error
          (.speaking, "first validated utterance segment") (Or.inl hrun) hallowed (by decide)
        rw [transitionIfCurrent_current hg, he]
        let v : ForegroundSession := { s with requested := s.requested ++ [(s.state, .speaking)] }
        have hv : v.Live := ⟨hs.wellFormed, hs.overflow, hs.new, hs.opened, hs.serving,
          hs.finishing, hs.commands⟩
        obtain ⟨hlive, hfloor⟩ := floor_publishFromTurn hv ⟨h.is, h.set⟩ task'
          (.turnFailed task'.generation task'.turn.turnId (.session e)) publishingFailed_ne_done
        refine moves_refused hs h halive (hgen ▸ hg) (Or.inl ⟨rfl, hsilent⟩) hallowed hlive
          (List.Subperm.refl _) (hfloor.trans ?_)
        rw [hshown]
        have hopenTurns := h.openTurns_eq
        rw [shown?_of_alive halive] at hopenTurns
        exact Floor.ext rfl rfl rfl rfl rfl hopenTurns.symm rfl rfl

/-- The task goes on after `utterance.completed`. -/
theorem moves_completeTurn (hs : s.Live) (h : Among s i task l₁ l₂) (halive : task.stage ≠ .done)
    (plan : UtterancePlan) (published : Bool) :
    Moves steady s (s.completeTurn i task plan published) := by
  have hstreaming {v : ForegroundSession} (hv : v.Live) (h : Among v i task l₁ l₂) :
      Moves steady v (v.setTurn i { task with stage := .streaming }) :=
    moves_setTurn hv h halive TurnStage.noConfusion rfl
  rw [completeTurn]
  dsimp only
  split
  · rcases s.spawn_cases with ⟨u, hspawn, hstill⟩ | ⟨hspawn, -⟩
    · rw [hspawn]
      exact (hstill.moves hs).trans (hstreaming (hstill.live hs) (h.still hstill))
    · rw [hspawn]
      exact moves_failTurn hs h halive rfl _
  · exact hstreaming hs h

/-! ### Steps of a task -/

/-- A publication that is answered `False` is one of a generation that is no longer accepted. -/
def Truthful (s : ForegroundSession) : Prop :=
  ∀ task ∈ s.turns, ∀ call, task.stage.call? = some call → s.published call = some false →
    s.actor.cancellation.accepts task.generation = false

/-- The caller of a publication is cancelled. -/
theorem moves_abandonCall (hs : s.Live) (call : ℕ) : Moves steady s (s.abandonCall call) := by
  rw [abandonCall]
  rcases hresume : s.traffic.resume call (Traffic.abandoning s.actor) with _ | traffic
  · exact .refl hs
  · obtain ⟨c, a, c', hc, habandon, rfl⟩ := Traffic.resume_eq_some.mp hresume
    obtain ⟨-, rfl, rfl⟩ := Traffic.abandoning_eq_some habandon
    exact moves_call hs hc (.refl _) rfl rfl (Or.inl (waits?_of_not_isWaiting rfl))

theorem abandonCall_frame (call : ℕ) : (s.abandonCall call).turns = s.turns ∧
    (s.abandonCall call).actorTask = s.actorTask ∧
    (s.abandonCall call).actor.cancellation = s.actor.cancellation := by
  rw [abandonCall]
  rcases hresume : s.traffic.resume call (Traffic.abandoning s.actor) with _ | traffic
  · exact ⟨rfl, rfl, rfl⟩
  · obtain ⟨c, a, c', -, habandon, rfl⟩ := Traffic.resume_eq_some.mp hresume
    obtain ⟨-, rfl, -⟩ := Traffic.abandoning_eq_some habandon
    exact ⟨rfl, rfl, rfl⟩

/-- What the conditions on a steady step ask of a step of a task. -/
def TurnLabel.isSteady (s : ForegroundSession) (task : TurnTask) : TurnLabel → Bool
  | .raises (.dialogueCancelled _) | .raises (.cancelledError _) =>
    !s.actor.cancellation.accepts task.generation
  | .raises (.protocolError _) | .raises (.provider _) | .prepared _ | .yields _ | .ends
  | .register | .resume | .cancelled => true

/-- **A step of a dialogue task.** -/
theorem moves_stepTurn (hs : s.Live) (hi : s.turns[i]? = some task) {label : TurnLabel}
    (hsteady : steady = true → s.Truthful ∧ TurnLabel.isSteady s task label = true)
    (hn : s.stepTurn i task label = some t) : Moves steady s t := by
  obtain ⟨l₁, l₂, h⟩ := exists_among hi
  have hcall {call : ℕ} (hcall : task.stage.call? = some call) {b : Bool}
      (hb : s.published call = some b) : steady = true → b = false →
        s.actor.cancellation.accepts task.generation = false := fun hst hfalse =>
    (hsteady hst).1 task (List.mem_of_getElem? hi) call hcall (hfalse ▸ hb)
  cases label with
  | prepared snapshot =>
    rw [stepTurn] at hn
    split at hn
    · rename_i hstage
      cases hn
      have halive : task.stage ≠ .done := hstage ▸ TurnStage.noConfusion
      rw [prepareTurn]
      rcases s.spawn_cases with ⟨u, hspawn, hstill⟩ | ⟨hspawn, -⟩
      · rw [hspawn]
        exact (hstill.moves hs).trans (moves_publishFromTurn (hstill.live hs) (h.still hstill)
          halive rfl _ fun _ => TurnStage.noConfusion)
      · rw [hspawn]
        exact moves_failTurn hs h halive rfl _
    · cases hn
  | raises error =>
    rw [stepTurn] at hn
    split at hn
    · rename_i hstage
      cases hn
      have halive : task.stage ≠ .done := by
        rcases hstage with hstage | hstage
        · exact hstage ▸ TurnStage.noConfusion
        · exact hstage ▸ TurnStage.noConfusion
      cases error with
      | dialogueCancelled _ | cancelledError _ =>
        exact moves_endTurn hs h none fun hst => (Bool.not_eq_true' _).mp (hsteady hst).2
      | protocolError _ | provider _ => exact moves_failTurn hs h halive rfl _
    · cases hn
  | yields event =>
    rw [stepTurn] at hn
    split at hn
    · rename_i hstage
      cases hn
      have halive : task.stage ≠ .done := hstage.1 ▸ TurnStage.noConfusion
      let task' : TurnTask := { task with yielded := task.yielded ++ [event] }
      have hshown : task'.shown = task.shown := rfl
      cases event with
      | segmentReady _ _ segment => exact moves_publishSegment hs h halive hshown segment
      | segmentAudioReady _ _ segment chunk =>
        exact moves_publishFromTurn hs h halive hshown _ publishingSpeech_ne_done
      | utteranceCompleted _ _ plan =>
        rw [handleEvent]
        dsimp only
        split
        · exact moves_publishFromTurn hs h halive hshown _ fun _ => TurnStage.noConfusion
        · exact moves_setTurn hs h halive TurnStage.noConfusion hshown
    · cases hn
  | ends =>
    rw [stepTurn] at hn
    split at hn
    · rename_i hstage
      cases hn
      exact moves_finishTurn hs h (hstage ▸ TurnStage.noConfusion)
    · cases hn
  | register =>
    rw [stepTurn] at hn
    split at hn
    · rename_i plan hstage
      cases hn
      exact moves_publishFromTurn hs h (hstage ▸ TurnStage.noConfusion) rfl _
        fun _ => TurnStage.noConfusion
    · cases hn
  | resume =>
    change s.resumeTurn i task = some t at hn
    rw [resumeTurn] at hn
    -- only a task that waits for a publication goes on
    rcases hstage : task.stage with _ | call | _ | call | plan | ⟨plan, call⟩ | call | call | _
    · rw [hstage] at hn
      cases hn
    · rw [hstage] at hn
      obtain ⟨b, -, rfl⟩ := Option.map_eq_some_iff.mp hn
      exact moves_setTurn hs h (hstage ▸ TurnStage.noConfusion) TurnStage.noConfusion rfl
    · rw [hstage] at hn
      cases hn
    · rw [hstage] at hn
      obtain ⟨b, -, rfl⟩ := Option.map_eq_some_iff.mp hn
      exact moves_setTurn hs h (hstage ▸ TurnStage.noConfusion) TurnStage.noConfusion rfl
    · rw [hstage] at hn
      cases hn
    · rw [hstage] at hn
      obtain ⟨b, -, rfl⟩ := Option.map_eq_some_iff.mp hn
      exact moves_completeTurn hs h (hstage ▸ TurnStage.noConfusion) plan b
    · have halive : task.stage ≠ .done := hstage ▸ TurnStage.noConfusion
      rw [hstage] at hn
      obtain ⟨b, hb, rfl⟩ := Option.map_eq_some_iff.mp hn
      refine moves_degrade hs h halive (by decide) (fun v e hv hvi => ?_)
        (hcall (hstage ▸ rfl) hb)
      obtain ⟨hlive, hfloor⟩ := floor_publishFromTurn hv hvi task
        (.turnFailed task.generation task.turn.turnId (.session e)) publishingFailed_ne_done
      have hturns := hvi.openTurns_eq
      rw [shown?_of_alive halive] at hturns
      exact ⟨hlive, _, hturns ▸ List.Subperm.refl _, hfloor⟩
    · rw [hstage] at hn
      obtain ⟨b, hb, rfl⟩ := Option.map_eq_some_iff.mp hn
      refine moves_degrade hs h (hstage ▸ TurnStage.noConfusion) (by decide)
        (fun v e hv hvi => ?_) (hcall (hstage ▸ rfl) hb)
      refine ⟨live_endTurn hv hvi (some e), l₁ ++ l₂, ?_, floor_endTurn hvi (some e)⟩
      rw [hvi.openTurns_eq]
      exact ((List.sublist_append_right _ _).append_left _).subperm
    · rw [hstage] at hn
      cases hn
  | cancelled =>
    rw [stepTurn] at hn
    split at hn
    · rename_i hfinishing
      cases hn
      rw [Bool.and_eq_true] at hfinishing
      -- the session is being stopped, and no generation is accepted any more
      have hclosed {v : ForegroundSession} (hv : v.actor.cancellation = s.actor.cancellation) :
          v.actor.cancellation.accepts task.generation = false := by
        rw [hv]
        exact CancellationSource.accepts_of_closed (hs.finishing hfinishing.1)
      rw [cancelTurn]
      rcases hstage : task.stage.call? with _ | call
      · exact moves_endTurn hs h none fun _ => hclosed rfl
      · obtain ⟨hturns, htask, hcancellation⟩ := abandonCall_frame (s := s) call
        have hmoves : Moves steady s (s.abandonCall call) := moves_abandonCall hs call
        obtain ⟨l₁', l₂', h'⟩ := exists_among (hturns ▸ hi : (s.abandonCall call).turns[i]? = _)
        exact hmoves.trans (moves_endTurn hmoves.1 h' none fun _ => hclosed hcancellation)
    · cases hn

end ForegroundSession

end Eeveetuber
