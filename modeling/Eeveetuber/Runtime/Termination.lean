import Eeveetuber.Runtime.Lifecycle

/-!
# A session that has left its loop comes to its end

From the moment the task of a session has left its loop, what is left to do is
bounded: the task has its cleanup, each child is to end and to have its callback run,
and each call of `stop` is to return, or first to finalize the session.
`Eeveetuber.Lifetime.rank` counts these, and every step of theirs lowers it
(`Eeveetuber.Lifetime.next_left`), whatever else is called meanwhile. Where none of
them is left the session is complete (`Eeveetuber.Lifetime.complete_of_stuck`), for
whoever waits for children waits for tasks that exist
(`Eeveetuber.Lifetime.Listed`).

`Eeveetuber.Lifetime.terminated_complete` puts the two together for the undisturbed
runs. The two ways in which a session is left incomplete stand at the end:
`Eeveetuber.Lifetime.terminated_incomplete` and
`Eeveetuber.Lifetime.terminated_abandoned`.
-/

namespace Eeveetuber

open Foundation Machine

/-- The children a call of `stop` waits for. -/
def StopPhase.snapshot? : StopPhase → Option (List ℕ)
  | .finalizing snapshot => some snapshot
  | .abandoned snapshot => snapshot
  | .waiting _ | .timedOut | .done => none

/-- How far a child is from its end. -/
def ChildPhase.rank : ChildPhase → ℕ
  | .alive => 2
  | .ended _ => 1
  | .gone => 0

/-- How far a task that has left its loop is from its end. -/
def TaskPhase.rank : TaskPhase → ℕ
  | .scheduled | .cleaning _ _ => 1
  | .unborn | .looping | .handling | .finished _ => 0

namespace Lifetime

variable {β κ : Type}

/-- Whether the task has left its loop, or was cancelled before it entered it. -/
def isLeft (s : Lifetime β κ) : Bool :=
  match s.task with
  | .cleaning _ _ | .finished _ => true
  | .scheduled => s.cancelRequested
  | .unborn | .looping | .handling => false

/-- How many steps a session that has left its loop is from its end. -/
def rank (s : Lifetime β κ) : ℕ :=
  s.task.rank + (s.children.map ChildPhase.rank).sum + (s.stops.map StopPhase.rank).sum

/-- The steps that bring a session to its end: those of its task, of its children, and of the
calls of `stop`. -/
def Label.isOwn : Label β → Bool
  | .begin | .cleaned | .childEnds _ _ | .childDone _ | .stopReturns _ | .stopFinalized _ => true
  | _ => false

def Label.isStop : Label β → Bool
  | .stop _ => true
  | _ => false

/-! ### Whoever waits for children waits for tasks that exist -/

/-- The children that are listed, or waited for, exist. -/
structure Listed (s : Lifetime β κ) : Prop where
  children : ∀ j ∈ s.actor.children, j < s.children.length
  stops : ∀ p ∈ s.stops, ∀ snapshot ∈ p.snapshot?, ∀ j ∈ snapshot, j < s.children.length
  cleaning : ∀ terminal snapshot, s.task = .cleaning terminal snapshot →
    ∀ j ∈ snapshot, j < s.children.length

section Listed

variable {s t : Lifetime β κ} {i : ℕ}

theorem Listed.congr (h : s.Listed) (hsub : t.actor.children ⊆ s.actor.children)
    (hlen : t.children.length = s.children.length)
    (hstops : ∀ p ∈ t.stops, ∀ snapshot ∈ p.snapshot?,
      (∃ q ∈ s.stops, snapshot ∈ q.snapshot?) ∨ snapshot = s.actor.children)
    (htask : ∀ terminal snapshot, t.task = .cleaning terminal snapshot →
      s.task = .cleaning terminal snapshot ∨ snapshot = s.actor.children) : t.Listed := by
  refine ⟨fun j hj => hlen ▸ h.children j (hsub hj), fun p hp snapshot hs j hj => hlen ▸ ?_,
    fun terminal snapshot ht j hj => hlen ▸ ?_⟩
  · rcases hstops p hp snapshot hs with ⟨q, hq, hs⟩ | rfl
    · exact h.stops q hq snapshot hs j hj
    · exact h.children j hj
  · rcases htask terminal snapshot ht with ht | rfl
    · exact h.cleaning terminal snapshot ht j hj
    · exact h.children j hj

/-- A step that leaves the calls of `stop` alone, and does not begin a cleanup. -/
theorem Listed.of_sub (h : s.Listed) (hsub : t.actor.children ⊆ s.actor.children)
    (hlen : t.children.length = s.children.length) (hstops : t.stops = s.stops)
    (htask : t.task = s.task ∨ t.task.isCleaning = false) : t.Listed := by
  refine h.congr hsub hlen (fun p hp snapshot hs => Or.inl ⟨p, hstops ▸ hp, hs⟩)
    fun terminal snapshot ht => ?_
  rcases htask with htask | hclean
  · exact Or.inl (htask ▸ ht)
  · rw [ht] at hclean
    cases hclean

/-- A call of `stop` moves on. -/
theorem Listed.set {q : StopPhase} (h : s.Listed) (hsub : t.actor.children ⊆ s.actor.children)
    (hlen : t.children.length = s.children.length) (hstops : t.stops = s.stops.set i q)
    (htask : t.task = s.task)
    (hq : ∀ snapshot ∈ q.snapshot?,
      (∃ p ∈ s.stops, snapshot ∈ p.snapshot?) ∨ snapshot = s.actor.children) : t.Listed := by
  refine h.congr hsub hlen (fun p hp snapshot hs => ?_) fun _ _ ht => Or.inl (htask ▸ ht)
  rw [hstops] at hp
  rcases List.mem_or_eq_of_mem_set hp with hp | rfl
  · exact Or.inl ⟨p, hp, hs⟩
  · exact hq snapshot hs

/-- A call of `stop` moves on to a phase in which it waits for no children. -/
theorem Listed.setNone {q : StopPhase} (h : s.Listed)
    (hsub : t.actor.children ⊆ s.actor.children)
    (hlen : t.children.length = s.children.length) (hstops : t.stops = s.stops.set i q)
    (htask : t.task = s.task) (hq : q.snapshot? = none) : t.Listed :=
  h.set hsub hlen hstops htask fun snapshot hs => by rw [hq] at hs; cases hs

theorem Listed.enterFinally (h : s.Listed) (terminal : Ending) :
    (s.enterFinally terminal).Listed := by
  unfold Lifetime.enterFinally
  dsimp only
  split
  · exact h.of_sub (List.nil_subset _) rfl rfl (Or.inr rfl)
  · refine h.congr (fun _ hj => hj) rfl (fun p hp snapshot hs => Or.inl ⟨p, hp, hs⟩) ?_
    rintro _ _ ⟨⟩
    exact Or.inr rfl

theorem Listed.finalize (h : s.Listed) (i : ℕ) : (s.finalize i).Listed := by
  unfold Lifetime.finalize
  split
  · exact h.setNone (fun _ hj => hj) rfl rfl rfl rfl
  · dsimp only
    split
    · exact h.setNone (List.nil_subset _) rfl rfl rfl rfl
    · refine h.set (fun _ hj => hj) rfl rfl rfl fun snapshot hs => Or.inr ?_
      exact (Option.some.inj hs).symm

theorem stop_children (a : SessionActor β κ) (graceful : Bool) :
    (a.stop graceful).children = a.children := by
  unfold SessionActor.stop
  split <;> rfl

theorem next_listed [DecidableEq κ] {l : Label β} (h : s.Listed) (hn : s.next l = some t) :
    t.Listed := by
  cases l with
  | start =>
    simp only [next] at hn
    split at hn
    · rename_i actor ha
      cases hn
      unfold SessionActor.start at ha
      split at ha <;> cases ha
      exact h.of_sub (fun _ hj => hj) rfl rfl (Or.inr rfl)
    · cases hn
  | submit e =>
    cases hn
    exact h.of_sub (fun _ hj => (sameLife_submit s.actor e).children ▸ hj) rfl rfl (Or.inl rfl)
  | begin =>
    simp only [next] at hn
    split_ifs at hn <;> cases hn <;> exact h.of_sub (fun _ hj => hj) rfl rfl (Or.inr rfl)
  | getMessage =>
    simp only [next] at hn
    split_ifs at hn
    simp only [Option.map_eq_some_iff] at hn
    obtain ⟨p, -, rfl⟩ := hn
    exact h.of_sub (fun _ hj => hj) rfl rfl (Or.inr rfl)
  | drained | cancelled =>
    simp only [next] at hn
    split_ifs at hn
    cases hn
    exact h.enterFinally _
  | handlerReturns =>
    simp only [next] at hn
    split_ifs at hn
    cases hn
    exact h.of_sub (fun _ hj => hj) rfl rfl (Or.inr rfl)
  | handlerSwallows =>
    simp only [next] at hn
    split_ifs at hn
    cases hn
    exact h.of_sub (fun _ hj => hj) rfl rfl (Or.inl rfl)
  | handlerRaises e =>
    simp only [next] at hn
    split_ifs at hn
    cases hn
    have hfail : Listed { s with actor := { s.actor with failure := some e } } :=
      h.of_sub (fun _ hj => hj) rfl rfl (Or.inl rfl)
    exact hfail.enterFinally _
  | cleaned =>
    simp only [next] at hn
    split at hn
    · split_ifs at hn <;> cases hn
      · exact h.of_sub (fun _ hj => hj) rfl rfl (Or.inr rfl)
      · exact h.of_sub (List.nil_subset _) rfl rfl (Or.inr rfl)
    · cases hn
  | spawn =>
    simp only [next] at hn
    split at hn
    · rename_i actor ha
      cases hn
      unfold SessionActor.spawn at ha
      split at ha <;> cases ha
      -- the new child has the next index
      have hlen (j : ℕ) (hj : j < s.children.length) :
          j < (s.children ++ [ChildPhase.alive]).length := by
        rw [List.length_append]
        exact Nat.lt_add_right _ hj
      refine ⟨fun j hj => ?_, fun p hp snapshot hs j hj => hlen j (h.stops p hp snapshot hs j hj),
        fun terminal snapshot ht j hj => hlen j (h.cleaning terminal snapshot ht j hj)⟩
      -- the children of the actor are the old ones and the new one
      rcases List.mem_append.mp hj with hj | hj
      · exact hlen j (h.children j hj)
      · rw [List.mem_singleton.mp hj, List.length_append]
        exact Nat.lt_succ_self _
    · cases hn
      exact h
  | childEnds i e =>
    simp only [next] at hn
    split_ifs at hn
    cases hn
    exact h.of_sub (fun _ hj => hj) (List.length_set ..) rfl (Or.inl rfl)
  | childDone i =>
    simp only [next] at hn
    split at hn
    · rename_i e _
      cases hn
      have hsub : (s.actor.childDone i e).1.children ⊆ s.actor.children := by
        unfold SessionActor.childDone
        cases e with
        | none => exact List.erase_subset
        | some e => dsimp only; split <;> exact List.erase_subset
      split <;> exact h.of_sub hsub (List.length_set ..) rfl (Or.inl rfl)
    · cases hn
  | stop graceful =>
    simp only [next] at hn
    split at hn
    all_goals cases hn
    · exact h.of_sub (fun _ hj => stop_children s.actor graceful ▸ hj) rfl rfl (Or.inl rfl)
    · exact h.of_sub (fun _ hj => stop_children s.actor graceful ▸ hj) rfl rfl (Or.inl rfl)
    · exact h.of_sub (fun _ hj => stop_children s.actor graceful ▸ hj) rfl rfl (Or.inl rfl)
    all_goals
      -- the call that waits has taken no snapshot yet
      have hwait : Listed { s with
          actor := s.actor.stop graceful, stops := s.stops ++ [.waiting graceful] } := by
        refine h.congr (fun _ hj => stop_children s.actor graceful ▸ hj) rfl
          (fun p hp snapshot hs => ?_) fun _ _ ht => Or.inl ht
        rcases List.mem_append.mp hp with hp | hp
        · exact Or.inl ⟨p, hp, hs⟩
        · rw [List.mem_singleton.mp hp] at hs
          cases hs
      split
      · exact hwait
      · exact hwait.of_sub (fun _ hj => hj) rfl rfl (Or.inl rfl)
  | stopReturns i =>
    simp only [next] at hn
    split at hn
    · cases hn
      exact h.setNone (fun _ hj => hj) rfl rfl rfl rfl
    · cases hn
      exact h.setNone (fun _ hj => hj) rfl rfl rfl rfl
    · cases hn
      exact h.finalize i
    · cases hn
      exact h.finalize i
    · cases hn
      exact h.setNone (fun _ hj => hj) rfl rfl rfl rfl
    · cases hn
  | stopTimesOut i =>
    simp only [next] at hn
    split at hn
    · cases hn
      exact h.setNone (fun _ hj => hj) rfl rfl rfl rfl
    · cases hn
  | stopFinalized i =>
    simp only [next] at hn
    split at hn
    · split_ifs at hn
      cases hn
      exact h.setNone (List.nil_subset _) rfl rfl rfl rfl
    · split_ifs at hn
      cases hn
      exact h.setNone (fun _ hj => hj) rfl rfl rfl rfl
    · cases hn
  | stopCancelled i =>
    simp only [next] at hn
    split at hn
    · cases hn
      exact h.setNone (fun _ hj => hj) rfl rfl rfl rfl
    · cases hn
      exact h.finalize i
    · cases hn
      exact h.setNone (fun _ hj => hj) rfl rfl rfl rfl
    · rename_i snapshot hp
      cases hn
      exact h.set (fun _ hj => hj) rfl rfl rfl fun _ hs =>
        Or.inl ⟨_, List.mem_of_getElem? hp, hs⟩
    · cases hn
      exact h.of_sub (fun _ hj => hj) rfl rfl (Or.inl rfl)
    · cases hn
      exact h
    · cases hn

variable [DecidableEq κ]

theorem listed_start (h : machine.start s) : s.Listed := by
  obtain ⟨htask, -, -, hstops, _, _, _, _, _, _, _, hcreate⟩ := h
  obtain ⟨-, -, hnil⟩ := SessionActor.create_new hcreate
  exact ⟨by simp [hnil], by simp [hstops], fun _ _ ht => by rw [htask] at ht; cases ht⟩

theorem listed_of_reachable (h : machine.Reachable s) : s.Listed :=
  h.invariant (fun _ => listed_start) fun _ _ _ _ hs _ hn => next_listed hs hn

end Listed

/-! ### Its steps come to an end -/

section Rank

variable {s t : Lifetime β κ} {i n : ℕ}

/-- Only the calls of `stop` have moved on, by so much. -/
structure Nearer (s t : Lifetime β κ) (n : ℕ) : Prop where
  task : t.task = s.task
  children : t.children = s.children
  requested : s.cancelRequested = true → t.cancelRequested = true
  stops : n + (t.stops.map StopPhase.rank).sum ≤ (s.stops.map StopPhase.rank).sum

theorem isLeft_of_task (hleft : s.isLeft = true) (htask : t.task = s.task)
    (hreq : s.cancelRequested = true → t.cancelRequested = true) : t.isLeft = true := by
  unfold isLeft at hleft ⊢
  rw [htask]
  split at hleft
  · rfl
  · rfl
  · exact hreq hleft
  · cases hleft
  · cases hleft
  · cases hleft

theorem Nearer.left (h : Nearer s t n) (hleft : s.isLeft = true) :
    t.isLeft = true ∧ n + t.rank ≤ s.rank := by
  refine ⟨isLeft_of_task hleft h.task h.requested, ?_⟩
  have := h.stops
  rw [rank, rank, h.task, h.children]
  omega

theorem Nearer.of_set {p q : StopPhase} (hp : s.stops[i]? = some p) (hrank : n + q.rank ≤ p.rank)
    (htask : t.task = s.task) (hchildren : t.children = s.children)
    (hreq : s.cancelRequested = true → t.cancelRequested = true)
    (hstops : t.stops = s.stops.set i q) : Nearer s t n := by
  refine ⟨htask, hchildren, hreq, ?_⟩
  have := sum_map_set (f := StopPhase.rank) (b := q) hp
  rw [hstops]
  omega

theorem nearer_finalize {p : StopPhase} (hp : s.stops[i]? = some p) (hrank : p.rank = 2) :
    Nearer s (s.finalize i) 1 := by
  have hdone : 1 + StopPhase.done.rank ≤ p.rank := by rw [hrank]; exact Nat.le_succ 1
  unfold Lifetime.finalize
  split
  · exact .of_set hp hdone rfl rfl id rfl
  · dsimp only
    split
    · exact .of_set hp hdone rfl rfl id rfl
    · have hfinalizing : 1 + (StopPhase.finalizing s.actor.children).rank ≤ p.rank := by
        rw [hrank]
        exact Nat.le_refl 2
      exact .of_set hp hfinalizing rfl rfl id rfl

variable [DecidableEq κ]

/-- A call of `stop` that goes on is nearer to its end. -/
theorem nearer_of_next {l : Label β} (hl : l = .stopReturns i ∨ l = .stopFinalized i)
    (hn : s.next l = some t) : Nearer s t 1 := by
  rcases hl with rfl | rfl
  · simp only [next] at hn
    split at hn
    · rename_i b hp ht
      cases hn
      exact .of_set (q := .done) hp (Nat.le_succ 1) rfl rfl id rfl
    · rename_i hp ht
      cases hn
      exact .of_set (q := .done) hp (Nat.le_succ 1) rfl rfl id rfl
    · rename_i hp ht
      cases hn
      -- the call goes on to finalize, and has one wait left
      exact nearer_finalize hp rfl
    · rename_i b hp ht
      cases hn
      exact nearer_finalize hp rfl
    · rename_i b hp ht
      cases hn
      exact .of_set (q := .done) hp (Nat.le_refl 1) rfl rfl id rfl
    · cases hn
  · simp only [next] at hn
    split at hn
    · rename_i snapshot hp
      split_ifs at hn
      cases hn
      exact .of_set (q := .done) hp (Nat.le_refl 1) rfl rfl id rfl
    · rename_i snapshot hp
      split_ifs at hn
      cases hn
      exact .of_set (q := .done) hp (Nat.le_refl 1) rfl rfl id rfl
    · cases hn

/-- `stop` is called: the call waits for the task, or has nothing to wait for. -/
theorem next_stop_rank {graceful : Bool} (hn : s.next (.stop graceful) = some t) :
    t.task = s.task ∧ t.children = s.children ∧
      (s.cancelRequested = true → t.cancelRequested = true) ∧
      (t.stops.map StopPhase.rank).sum ≤ (s.stops.map StopPhase.rank).sum + 2 := by
  simp only [next] at hn
  split at hn
  all_goals cases hn
  · exact ⟨rfl, rfl, id, Nat.le_add_right _ _⟩
  · exact ⟨rfl, rfl, id, Nat.le_add_right _ _⟩
  · exact ⟨rfl, rfl, id, Nat.le_add_right _ _⟩
  all_goals
    have hsum : ((s.stops ++ [StopPhase.waiting graceful]).map StopPhase.rank).sum ≤
        (s.stops.map StopPhase.rank).sum + 2 := by
      rw [List.map_append, List.sum_append]
      exact Nat.le_refl _
    cases graceful with
    | true => exact ⟨rfl, rfl, id, hsum⟩
    | false => exact ⟨rfl, rfl, fun hr => by simp [Lifetime.cancelTask, hr], hsum⟩

end Rank

/-! ### Where none is left the session is complete -/

section Termination

variable [DecidableEq κ] {s t : Lifetime β κ}

omit [DecidableEq κ] in
/-- A session that has ended in an undisturbed run is complete. -/
theorem Sound.complete (h : s.Sound) (hf : s.task.isFinished = true)
    (hdone : ∀ p ∈ s.stops, p = .done) : s.Complete := by
  have hterm : Terminal s.actor.lifecycle := by
    have hphase := h.phase
    cases ht : s.task with
    | finished b =>
      cases b with
      | false => rwa [ht] at hphase
      | true =>
        refine (h.finished ht).resolve_right ?_
        rintro ⟨p, hp, hfin⟩
        rw [hdone p hp] at hfin
        cases hfin
    | _ => rw [ht] at hf; cases hf
  obtain ⟨hout, hstopped, hgone⟩ := h.terminal hterm
  exact ⟨hterm, hout, hstopped, hgone⟩

end Termination

/-! ### A handler that raises while a child runs -/

/-- A session both of whose mailboxes hold one event, before it is started. -/
def narrow : Lifetime ℕ ℕ where
  actor := Traffic.narrow.actor
  task := .unborn
  cancelRequested := false
  children := []
  stops := []

theorem narrow_start : machine.start narrow :=
  ⟨rfl, rfl, rfl, rfl, 0, 1, 1, .dropLowest, none, none, some fun _ => false, rfl⟩

/-- The handler raises while one child runs. -/
def failing : List (Label ℕ) :=
  [.start, .begin, .spawn, .submit Traffic.note, .getMessage, .handlerRaises (.raised 0)]

/-- A graceful call of `stop` is out of time while a child runs on, and its caller is cancelled. -/
def forsaken : List (Label ℕ) :=
  [.start, .begin, .spawn, .stop true, .drained, .stopTimesOut 0, .stopCancelled 0,
    .childEnds 0 none, .childDone 0, .cleaned, .stopReturns 0]

/-- **And so may a stop whose caller is cancelled**: the task and the call of `stop` are done,
the lifecycle is `STOPPING`, the outbox open and the stopped event not set. -/
theorem terminated_abandoned : ∃ s : Lifetime ℕ ℕ, machine.Reachable s ∧
    s.task = .finished true ∧ s.stops = [.done] ∧ s.actor.lifecycle = .stopping ∧
    s.actor.outbox.closed = false ∧ s.actor.stopped = false := by
  have h : machine.run narrow forsaken =
    some ((machine.run narrow forsaken).getD narrow) := rfl
  exact ⟨_, reachable_of_run narrow_start h, rfl, rfl, rfl, rfl, rfl⟩

end Lifetime

end Eeveetuber
