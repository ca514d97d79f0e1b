import Mathlib.Data.List.Perm.Subperm
import Eeveetuber.Application.Foreground

/-!
# The floor of a foreground session

Who has the floor, and what that does to the interaction state: an `Eeveetuber.Floor` is the
inbox, the generations and the turns under way, without the outputs, the storage and the
pipelines. `Eeveetuber.FloorStep` is one change of it, and a step of a session makes no others.

Two things hold of every floor that changes lead to.

* *No request is refused* (`Eeveetuber.FloorStep.sound`): a turn of the current generation is
  the only one, no foreground command is queued beside it, and the state is the one it left –
  `processing` before its first segment, `speaking` after it (`Eeveetuber.Agreed`).
* *A busy state is attended to* (`Eeveetuber.FloorStep.attended`): where the floor is *steady*,
  the current generation has a turn under way or a foreground command in the queue.

A floor is steady while no foreground command is lost on its way, and each turn is still the
current one when the actor comes to it. The changes that are not steady ask that the parameter
of the relation is `false`.
-/

namespace Eeveetuber

open Foundation

/-! ### Requests -/

/-- The transitions that the handler of a command requests. -/
def SessionCommand.requests (capturing : Bool) :
    SessionCommand → InteractionState → List TransitionRequest
  | .turnRequested _ => enterProcessing
  | .turnCancelRequested _ => enterCancelled (cancelTarget capturing)
  | .voiceCaptureStarted _ => enterCapture
  | .voiceCaptureStopped _ => leaveCapture
  | .voiceSpeechStarted speech => enterSpeech speech.bargeIn
  | .voiceTranscriptPartial _ | .voiceTranscriptEmpty _ | .voiceRecognitionFailed _
  | .transportPing | .neutralAvatarRequested | .playbackAckReceived _ => fun _ => []

/-- The transitions, each with the state it is requested in. -/
def walked : InteractionState → List TransitionRequest → List (InteractionState × InteractionState)
  | _, [] => []
  | state, request :: rest => (state, request.1) :: walked request.1 rest

/-- The state that transitions lead to. -/
def destination : InteractionState → List TransitionRequest → InteractionState
  | state, [] => state
  | _, request :: rest => destination request.1 rest

/-- Every transition is in the table, and has a reason. -/
def Legal (state : InteractionState) (requests : List TransitionRequest) : Prop :=
  (∀ p ∈ walked state requests, p.2 ∈ p.1.allowedFrom) ∧
    ∀ request ∈ requests, isBlank request.2.toList = false

instance (state : InteractionState) (requests : List TransitionRequest) :
    Decidable (Legal state requests) := inferInstanceAs (Decidable (_ ∧ _))

theorem legal_nil (state : InteractionState) : Legal state [] :=
  ⟨fun _ h => absurd h List.not_mem_nil, fun _ h => absurd h List.not_mem_nil⟩

theorem legal_cons {state : InteractionState} {request : TransitionRequest}
    {rest : List TransitionRequest} : Legal state (request :: rest) ↔
      (request.1 ∈ state.allowedFrom ∧ isBlank request.2.toList = false) ∧
      Legal request.1 rest := by
  constructor
  · rintro ⟨hwalked, hreasons⟩
    exact ⟨⟨hwalked _ List.mem_cons_self, hreasons _ List.mem_cons_self⟩,
      fun p hp => hwalked p (List.mem_cons_of_mem _ hp),
      fun r hr => hreasons r (List.mem_cons_of_mem _ hr)⟩
  · rintro ⟨⟨hallowed, hreason⟩, hwalked, hreasons⟩
    exact ⟨List.forall_mem_cons.mpr ⟨hallowed, hwalked⟩,
      List.forall_mem_cons.mpr ⟨hreason, hreasons⟩⟩

theorem legal_enterProcessing : ∀ state, Legal state (enterProcessing state) := by
  rintro (_ | _ | _ | _ | _ | _ | _) <;> decide

theorem legal_enterCancelled (capturing : Bool) :
    ∀ state, Legal state (enterCancelled (cancelTarget capturing) state) := by
  cases capturing with
  | true => rintro (_ | _ | _ | _ | _ | _ | _) <;> decide
  | false => rintro (_ | _ | _ | _ | _ | _ | _) <;> decide

theorem legal_enterCapture : ∀ state, Legal state (enterCapture state) := by
  rintro (_ | _ | _ | _ | _ | _ | _) <;> decide

theorem legal_leaveCapture : ∀ state, Legal state (leaveCapture state) := by
  rintro (_ | _ | _ | _ | _ | _ | _) <;> decide

theorem legal_enterSpeech (bargeIn : Bool) :
    ∀ state, Legal state (enterSpeech bargeIn state) := by
  cases bargeIn with
  | true => rintro (_ | _ | _ | _ | _ | _ | _) <;> decide
  | false => rintro (_ | _ | _ | _ | _ | _ | _) <;> decide

/-- **A handler requests no transition that the table forbids**, in whichever state it starts. -/
theorem SessionCommand.legal_requests (capturing : Bool) (command : SessionCommand)
    (state : InteractionState) : Legal state (command.requests capturing state) := by
  cases command with
  | turnRequested turn => exact legal_enterProcessing state
  | turnCancelRequested reason => exact legal_enterCancelled capturing state
  | voiceCaptureStarted capture => exact legal_enterCapture state
  | voiceCaptureStopped capture => exact legal_leaveCapture state
  | voiceSpeechStarted speech => exact legal_enterSpeech speech.bargeIn state
  | voiceTranscriptPartial | voiceTranscriptEmpty | voiceRecognitionFailed | transportPing
  | neutralAvatarRequested | playbackAckReceived => exact legal_nil state

/-- Whether work is under way in a state, or is being called off. -/
def InteractionState.isBusy : InteractionState → Bool
  | .processing | .speaking | .interrupting => true
  | .idle | .listening | .waitingApproval | .degraded => false

theorem destination_enterProcessing :
    ∀ state, destination state (enterProcessing state) = .processing := by
  rintro (_ | _ | _ | _ | _ | _ | _) <;> rfl

/-- A foreground command other than a turn leaves nothing under way. -/
theorem SessionCommand.not_isBusy_of_isForeground {command : SessionCommand} (capturing : Bool)
    (hforeground : command.isForeground = true) (hturn : command.isTurn = false) :
    ∀ state, (destination state (command.requests capturing state)).isBusy = false := by
  cases command with
  | turnRequested => cases hturn
  | turnCancelRequested reason =>
    cases capturing with
    | true => rintro (_ | _ | _ | _ | _ | _ | _) <;> rfl
    | false => rintro (_ | _ | _ | _ | _ | _ | _) <;> rfl
  | voiceSpeechStarted speech =>
    change speech.bargeIn = true at hforeground
    rw [requests, hforeground]
    rintro (_ | _ | _ | _ | _ | _ | _) <;> rfl
  | voiceCaptureStarted | voiceCaptureStopped | voiceTranscriptPartial | voiceTranscriptEmpty
  | voiceRecognitionFailed | transportPing | neutralAvatarRequested | playbackAckReceived =>
    cases hforeground

/-- The other commands leave a busy state alone, and lead to none. -/
theorem SessionCommand.destination_of_not_isForeground {command : SessionCommand}
    (capturing : Bool) (hforeground : command.isForeground = false) :
    ∀ state, state.isBusy = true ∨
        (destination state (command.requests capturing state)).isBusy = true →
      destination state (command.requests capturing state) = state := by
  cases command with
  | turnRequested | turnCancelRequested => cases hforeground
  | voiceCaptureStarted | voiceCaptureStopped =>
    rintro (_ | _ | _ | _ | _ | _ | _) hbusy <;> first | rfl | simp [requests, enterCapture,
      leaveCapture, destination, InteractionState.isBusy] at hbusy
  | voiceSpeechStarted speech =>
    change speech.bargeIn = false at hforeground
    rw [requests, hforeground]
    rintro (_ | _ | _ | _ | _ | _ | _) hbusy <;> first | rfl | simp [enterSpeech, enterListening,
      destination, InteractionState.isBusy] at hbusy
  | voiceTranscriptPartial | voiceTranscriptEmpty | voiceRecognitionFailed | transportPing
  | neutralAvatarRequested | playbackAckReceived => exact fun _ _ => rfl

/-- No foreground command is less urgent than a turn. -/
theorem SessionCommand.priority_le_of_isTurn {turn command : SessionCommand}
    (hturn : turn.isTurn = true) (hforeground : command.isForeground = true) :
    turn.priority.toInt ≤ command.priority.toInt := by
  cases turn with
  | turnRequested =>
    cases command with
    | turnRequested => exact le_refl _
    | turnCancelRequested | voiceSpeechStarted =>
      change EventPriority.high.toInt ≤ EventPriority.critical.toInt
      decide
    | voiceCaptureStarted | voiceCaptureStopped | voiceTranscriptPartial | voiceTranscriptEmpty
    | voiceRecognitionFailed | transportPing | neutralAvatarRequested | playbackAckReceived =>
      cases hforeground
  | turnCancelRequested | voiceSpeechStarted | voiceCaptureStarted | voiceCaptureStopped
  | voiceTranscriptPartial | voiceTranscriptEmpty | voiceRecognitionFailed | transportPing
  | neutralAvatarRequested | playbackAckReceived => cases hturn

/-! ### Floors -/

/-- A queued command. -/
abbrev QueuedCommand := Entry (SessionMessage SessionEvent)

namespace Entry

/-- Whether a queued command replaces the work in the foreground. -/
def isForeground (x : QueuedCommand) : Bool :=
  x.item.event.body.command?.any SessionCommand.isForeground

/-- The generation a command was submitted under. -/
def generation (x : QueuedCommand) : CancellationGeneration := x.item.generation

end Entry

/-- The queue, the generations and the turns of a session, and what was requested. -/
@[ext]
structure Floor where
  generation : CancellationGeneration
  /-- Whether the source of the generations is closed. -/
  closed : Bool
  inbox : List QueuedCommand
  nextOrder : ℕ
  /-- The generations of the foreground commands that wait for room. -/
  waiting : List CancellationGeneration
  /-- The turns under way: their generations, and whether nothing was spoken yet. -/
  turns : List (CancellationGeneration × Bool)
  state : InteractionState
  requested : List (InteractionState × InteractionState)

/-- A command comes to stand last in the queue. -/
structure Enters (f : Floor) (x : QueuedCommand) (c : SessionCommand) : Prop where
  body : x.item.event.body = .command c
  priority : x.priority = c.priority.toInt
  order : x.order = f.nextOrder

/-- The queue, without what was displaced from it. -/
inductive Kept (steady : Bool) (f : Floor) : List QueuedCommand → Prop
  | all : Kept steady f f.inbox
  | less {x : QueuedCommand} {l₁ l₂ : List QueuedCommand} : f.inbox = l₁ ++ x :: l₂ →
      (steady = true → f.closed = false → x.isForeground = true → x.generation ≠ f.generation) →
      Kept steady f (l₁ ++ l₂)

/-- **One change of a floor.** -/
inductive FloorStep (steady : Bool) (f : Floor) : Floor → Prop
  /-- A command that replaces nothing is queued. -/
  | put {x : QueuedCommand} {c : SessionCommand} {kept : List QueuedCommand} :
      Kept steady f kept → Enters f x c → c.isForeground = false → FloorStep steady f { f with
        inbox := kept ++ [x]
        nextOrder := f.nextOrder + 1 }
  /-- A foreground command is queued under a new generation. -/
  | queue {x : QueuedCommand} {c : SessionCommand} {kept : List QueuedCommand} :
      f.closed = false → kept.Sublist f.inbox → Enters f x c → c.isForeground = true →
      x.generation = f.generation + 1 → FloorStep steady f { f with
        generation := f.generation + 1
        inbox := kept ++ [x]
        nextOrder := f.nextOrder + 1 }
  /-- The queue refuses it. -/
  | lose : steady = false → f.closed = false → FloorStep steady f { f with
      generation := f.generation + 1 }
  /-- It waits for room. -/
  | wait : steady = false → f.closed = false → FloorStep steady f { f with
      generation := f.generation + 1
      waiting := f.waiting ++ [f.generation + 1] }
  /-- It is queued, while its generation is still the current one. -/
  | enter {x : QueuedCommand} {c : SessionCommand} {kept : List QueuedCommand}
      {l₁ l₂ : List CancellationGeneration} : f.closed = false → kept.Sublist f.inbox →
      f.waiting = l₁ ++ f.generation :: l₂ → Enters f x c → c.isForeground = true →
      x.generation = f.generation → FloorStep steady f { f with
        inbox := kept ++ [x]
        nextOrder := f.nextOrder + 1
        waiting := l₁ ++ l₂ }
  /-- It is given up. -/
  | forget {l : List CancellationGeneration} : l.Sublist f.waiting →
      FloorStep steady f { f with waiting := l }
  /-- The generations are closed. -/
  | shut {kept : List QueuedCommand} : kept.Sublist f.inbox →
      FloorStep steady f { f with closed := true, inbox := kept }
  /-- The state is changed as a session ends. -/
  | settle (state : InteractionState) : f.closed = true →
      FloorStep steady f { f with state := state }
  /-- The actor takes the oldest command of the highest priority, and makes its transitions. -/
  | take {x : QueuedCommand} {c : SessionCommand} {l₁ l₂ : List QueuedCommand}
      (capturing : Bool) : f.inbox = l₁ ++ x :: l₂ → x.item.event.body = .command c →
      (∀ y ∈ f.inbox, y.priority ≤ x.priority) →
      (∀ y ∈ f.inbox, y.priority = x.priority → x.order ≤ y.order) →
      (steady = true → f.closed = false → c.isTurn = true → x.generation = f.generation) →
      FloorStep steady f { f with
        inbox := l₁ ++ l₂
        turns := if c.isTurn then (x.generation, true) :: f.turns else f.turns
        state := destination f.state (c.requests capturing f.state)
        requested := f.requested ++ walked f.state (c.requests capturing f.state) }
  /-- Turns are over without a transition of theirs. -/
  | release {l : List (CancellationGeneration × Bool)} : l.Subperm f.turns →
      (steady = true → f.closed = false → ∀ p ∈ f.turns, p.1 = f.generation → p ∈ l) →
      FloorStep steady f { f with turns := l }
  /-- The current turn begins to speak. -/
  | speak {l₁ l₂ : List (CancellationGeneration × Bool)} : f.closed = false →
      f.turns = l₁ ++ (f.generation, true) :: l₂ → .speaking ∈ f.state.allowedFrom →
      FloorStep steady f { f with
        turns := l₁ ++ (f.generation, false) :: l₂
        state := .speaking
        requested := f.requested ++ [(f.state, .speaking)] }
  /-- The current turn makes its final transitions and is over. -/
  | finish {l₁ l₂ : List (CancellationGeneration × Bool)} {first : Bool}
      (requests : List TransitionRequest) : f.closed = false →
      f.turns = l₁ ++ (f.generation, first) :: l₂ → Legal f.state requests →
      (destination f.state requests).isBusy = false →
      FloorStep steady f { f with
        turns := l₁ ++ l₂
        state := destination f.state requests
        requested := f.requested ++ walked f.state requests }
  /-- A transition of the current turn is refused. -/
  | refuse {l : List (CancellationGeneration × Bool)} {first : Bool}
      {requested : InteractionState} : f.closed = false → (f.generation, first) ∈ f.turns →
      (requested = .speaking ∧ first = true ∨ requested = .degraded) →
      requested ∉ f.state.allowedFrom → l.Subperm f.turns →
      FloorStep steady f { f with
        turns := l
        requested := f.requested ++ [(f.state, requested)] }

/-! ### What the parts of a floor agree on -/

/-- **What holds of the queue**: it is in the order of arrival, it holds commands with the
priorities they were made with, and a later foreground command is of a later generation. -/
structure Queued (inbox : List QueuedCommand) (nextOrder : ℕ)
    (generation : CancellationGeneration) : Prop where
  ordered : inbox.Pairwise fun x y => x.order < y.order
  recent : ∀ x ∈ inbox, x.order < nextOrder
  commands : ∀ x ∈ inbox, ∃ c : SessionCommand, x.item.event.body = .command c ∧
    x.priority = c.priority.toInt
  successive : inbox.Pairwise fun x y => x.isForeground = true → y.isForeground = true →
    x.generation < y.generation
  issued : ∀ x ∈ inbox, x.isForeground = true → x.generation ≤ generation

/-- **What holds of a floor whose generations are open.** -/
structure Agreed (f : Floor) : Prop where
  queued : Queued f.inbox f.nextOrder f.generation
  awaited : ∀ g ∈ f.waiting, g ≤ f.generation
  distinct : f.waiting.Nodup
  /-- While the current command waits for room, everything else is of an earlier generation. -/
  unheard : f.generation ∈ f.waiting →
    (∀ x ∈ f.inbox, x.isForeground = true → x.generation < f.generation) ∧
      ∀ p ∈ f.turns, p.1 < f.generation
  begun : ∀ p ∈ f.turns, p.1 ≤ f.generation
  /-- One turn is the current one. -/
  alone : (f.turns.map Prod.fst).count f.generation ≤ 1
  /-- No foreground command is queued beside it. -/
  heard : ∀ p ∈ f.turns, p.1 = f.generation → ∀ x ∈ f.inbox, x.isForeground = false
  /-- The state is the one it left. -/
  voiced : ∀ p ∈ f.turns, p.1 = f.generation →
    f.state = if p.2 then .processing else .speaking

/-- **No transition was requested that the table forbids**, nor will be. -/
structure Sound (f : Floor) : Prop where
  legal : ∀ p ∈ f.requested, p.2 ∈ p.1.allowedFrom
  agreed : f.closed = false → Agreed f

/-- **A busy state is attended to**: the current generation has a turn, or a command queued. -/
def Attended (f : Floor) : Prop :=
  f.closed = false → f.state.isBusy = true →
    f.generation ∈ f.turns.map Prod.fst ∨
      ∃ x ∈ f.inbox, x.isForeground = true ∧ x.generation = f.generation

variable {steady : Bool} {f f' : Floor} {x : QueuedCommand} {c : SessionCommand}
  {kept l l₁ l₂ : List QueuedCommand} {n : ℕ} {g : CancellationGeneration}

theorem Entry.isForeground_eq (h : x.item.event.body = .command c) :
    x.isForeground = c.isForeground := by
  rw [Entry.isForeground, h]
  rfl

theorem Kept.sublist (h : Kept steady f kept) : kept.Sublist f.inbox := by
  cases h with
  | all => exact .refl _
  | less hinbox _ =>
    rw [hinbox]
    exact (List.sublist_cons_self _ _).append_left _

/-- Nothing that is current is displaced from a steady floor. -/
theorem Kept.mem_of_current (h : Kept true f kept) (hopen : f.closed = false) {y : QueuedCommand}
    (hy : y ∈ f.inbox) (hforeground : y.isForeground = true) (hg : y.generation = f.generation) :
    y ∈ kept := by
  cases h with
  | all => exact hy
  | less hinbox hkept =>
    rw [hinbox, List.mem_append, List.mem_cons] at hy
    rcases hy with hy | rfl | hy
    · exact List.mem_append_left _ hy
    · exact absurd hg (hkept rfl hopen hforeground)
    · exact List.mem_append_right _ hy

theorem Queued.sublist (h : Queued l n g) (hkept : kept.Sublist l) : Queued kept n g :=
  ⟨h.ordered.sublist hkept, fun x hx => h.recent x (hkept.subset hx),
    fun x hx => h.commands x (hkept.subset hx), h.successive.sublist hkept,
    fun x hx => h.issued x (hkept.subset hx)⟩

theorem Queued.later {g' : CancellationGeneration} (h : Queued l n g) (hg : g ≤ g') :
    Queued l n g' :=
  ⟨h.ordered, h.recent, h.commands, h.successive, fun x hx hf => (h.issued x hx hf).trans hg⟩

/-- A command is queued behind the others; a foreground command is of a later generation. -/
theorem Queued.enter (h : Queued l f.nextOrder g) (hx : Enters f x c)
    (hforeground : c.isForeground = true →
      (∀ y ∈ l, y.isForeground = true → y.generation < x.generation) ∧ x.generation ≤ g) :
    Queued (l ++ [x]) (f.nextOrder + 1) g := by
  have hxf : x.isForeground = c.isForeground := Entry.isForeground_eq hx.body
  refine ⟨?_, ?_, ?_, ?_, ?_⟩
  · refine List.pairwise_append.mpr ⟨h.ordered, List.pairwise_singleton _ _, fun y hy z hz => ?_⟩
    rw [List.mem_singleton.mp hz, hx.order]
    exact h.recent y hy
  · intro y hy
    rcases List.mem_append.mp hy with hy | hy
    · exact (h.recent y hy).trans (Nat.lt_succ_self _)
    · rw [List.mem_singleton.mp hy, hx.order]
      exact Nat.lt_succ_self _
  · intro y hy
    rcases List.mem_append.mp hy with hy | hy
    · exact h.commands y hy
    · rw [List.mem_singleton.mp hy]
      exact ⟨c, hx.body, hx.priority⟩
  · refine List.pairwise_append.mpr
      ⟨h.successive, List.pairwise_singleton _ _, fun y hy z hz hyf hzf => ?_⟩
    rw [List.mem_singleton.mp hz] at hzf ⊢
    exact (hforeground (hxf ▸ hzf)).1 y hy hyf
  · intro y hy hyf
    rcases List.mem_append.mp hy with hy | hy
    · exact h.issued y hy hyf
    · rw [List.mem_singleton.mp hy] at hyf ⊢
      exact (hforeground (hxf ▸ hyf)).2

/-- **When the current turn is taken, no foreground command is left in the queue**: the others
are older, and no less urgent. -/
theorem Queued.taken (h : Queued f.inbox n g) (hinbox : f.inbox = l₁ ++ x :: l₂)
    (hbody : x.item.event.body = .command c) (hturn : c.isTurn = true)
    (hurgent : ∀ y ∈ f.inbox, y.priority ≤ x.priority)
    (hold : ∀ y ∈ f.inbox, y.priority = x.priority → x.order ≤ y.order)
    (hg : x.generation = g) : ∀ y ∈ l₁ ++ l₂, y.isForeground = false := by
  have hxf : x.isForeground = true :=
    (Entry.isForeground_eq hbody).trans (SessionCommand.isForeground_of_isTurn hturn)
  have hx : x ∈ f.inbox := hinbox ▸ List.mem_append_right _ List.mem_cons_self
  intro y hy
  refine Bool.eq_false_iff.mpr fun hyf => ?_
  have hmem : y ∈ f.inbox := by
    rw [hinbox]
    rcases List.mem_append.mp hy with hy | hy
    · exact List.mem_append_left _ hy
    · exact List.mem_append_right _ (List.mem_cons_of_mem _ hy)
  rcases List.mem_append.mp hy with hy | hy
  · -- it came before the turn, and the turn is not more urgent
    obtain ⟨d, hd, hdp⟩ := h.commands y hmem
    obtain ⟨c', hc', hcp⟩ := h.commands x hx
    obtain rfl : c = c' := SessionEvent.command.inj (hbody.symm.trans hc')
    have hle : x.priority ≤ y.priority := by
      rw [hcp, hdp]
      exact SessionCommand.priority_le_of_isTurn hturn ((Entry.isForeground_eq hd).symm.trans hyf)
    have hlt : y.order < x.order := by
      have hordered := hinbox ▸ h.ordered
      exact (List.pairwise_append.mp hordered).2.2 y hy x List.mem_cons_self
    exact absurd (hold y hmem (le_antisymm (hurgent y hmem) hle)) (not_le.mpr hlt)
  · -- it came after the turn, so its generation would be later than the current one
    have hsuccessive := hinbox ▸ h.successive
    have hlt := List.rel_of_pairwise_cons (List.pairwise_append.mp hsuccessive).2.1 hy hxf hyf
    rw [hg] at hlt
    exact absurd (h.issued y hmem hyf) (not_le.mpr hlt)

/-! ### Changes of an agreed floor -/

namespace Agreed

/-- The foreground goes to a new generation. -/
theorem advance (h : Agreed f) (hl : Queued l n (f.generation + 1))
    {waiting : List CancellationGeneration} (hawaited : ∀ g ∈ waiting, g ≤ f.generation + 1)
    (hdistinct : waiting.Nodup)
    (hunheard : f.generation + 1 ∈ waiting →
      ∀ x ∈ l, x.isForeground = true → x.generation < f.generation + 1) :
    Agreed { f with
      generation := f.generation + 1
      inbox := l
      nextOrder := n
      waiting := waiting } := by
  have hlt : ∀ p ∈ f.turns, p.1 < f.generation + 1 := fun p hp => Nat.lt_succ_of_le (h.begun p hp)
  have hold : ∀ p ∈ f.turns, p.1 ≠ f.generation + 1 := fun p hp => (hlt p hp).ne
  refine ⟨hl, hawaited, hdistinct, fun hw => ⟨hunheard hw, hlt⟩, fun p hp => (hlt p hp).le, ?_,
    fun p hp hg => absurd hg (hold p hp), fun p hp hg => absurd hg (hold p hp)⟩
  refine (List.count_eq_zero.mpr fun hmem => ?_).trans_le (Nat.zero_le 1)
  obtain ⟨p, hp, hg⟩ := List.mem_map.mp hmem
  exact hold p hp hg

/-- Commands leave the queue, and turns the floor. -/
theorem fewer (h : Agreed f) {turns : List (CancellationGeneration × Bool)}
    {waiting : List CancellationGeneration} (hl : l.Sublist f.inbox)
    (hturns : turns.Subperm f.turns) (hwaiting : waiting.Sublist f.waiting) :
    Agreed { f with inbox := l, turns := turns, waiting := waiting } where
  queued := h.queued.sublist hl
  awaited g hg := h.awaited g (hwaiting.subset hg)
  distinct := h.distinct.sublist hwaiting
  unheard hw :=
    ⟨fun x hx => (h.unheard (hwaiting.subset hw)).1 x (hl.subset hx),
      fun p hp => (h.unheard (hwaiting.subset hw)).2 p (hturns.subset hp)⟩
  begun p hp := h.begun p (hturns.subset hp)
  alone := by
    obtain ⟨turns', hperm, hsub⟩ := hturns
    have hmap : (turns.map Prod.fst).Subperm (f.turns.map Prod.fst) :=
      ⟨turns'.map Prod.fst, hperm.map _, hsub.map _⟩
    exact (hmap.count_le _).trans h.alone
  heard p hp hg x hx := h.heard p (hturns.subset hp) hg x (hl.subset hx)
  voiced p hp hg := h.voiced p (hturns.subset hp) hg

end Agreed

/-- The other turns are not the current one. -/
theorem Agreed.others {first : Bool} {l₁ l₂ : List (CancellationGeneration × Bool)} (h : Agreed f)
    (hturns : f.turns = l₁ ++ (f.generation, first) :: l₂) :
    ∀ p ∈ l₁ ++ l₂, p.1 ≠ f.generation := by
  intro p hp hg
  have halone := h.alone
  rw [hturns, List.map_append, List.map_cons, List.count_append, List.count_cons_self] at halone
  have hzero : ((l₁ ++ l₂).map Prod.fst).count f.generation = 0 := by
    rw [List.map_append, List.count_append]
    omega
  exact List.count_eq_zero.mp hzero (List.mem_map.mpr ⟨p, hp, hg⟩)

/-- Where no turn is the current one, the state is free. -/
theorem Agreed.of_no_current {turns : List (CancellationGeneration × Bool)} (h : Agreed f)
    (hturns : turns.Subperm f.turns) (hold : ∀ p ∈ turns, p.1 ≠ f.generation)
    (hl : l.Sublist f.inbox) (state : InteractionState)
    (requested : List (InteractionState × InteractionState)) :
    Agreed { f with inbox := l, turns := turns, state := state, requested := requested } :=
  have hfewer := h.fewer hl hturns (List.Sublist.refl _)
  ⟨hfewer.queued, hfewer.awaited, hfewer.distinct, hfewer.unheard, hfewer.begun, hfewer.alone,
    hfewer.heard, fun p hp hg => absurd hg (hold p hp)⟩

/-- A command is queued that the floor has no turn for. -/
theorem Agreed.entered {waiting : List CancellationGeneration} (h : Agreed f)
    (hl : Queued l n f.generation) (hwaiting : waiting.Sublist f.waiting)
    (hunheard : f.generation ∈ waiting →
      ∀ x ∈ l, x.isForeground = true → x.generation < f.generation)
    (hheard : ∀ p ∈ f.turns, p.1 = f.generation → ∀ x ∈ l, x.isForeground = false) :
    Agreed { f with inbox := l, nextOrder := n, waiting := waiting } where
  queued := hl
  awaited g hg := h.awaited g (hwaiting.subset hg)
  distinct := h.distinct.sublist hwaiting
  unheard hw := ⟨hunheard hw, (h.unheard (hwaiting.subset hw)).2⟩
  begun := h.begun
  alone := h.alone
  heard := hheard
  voiced := h.voiced

/-- **What holds of an open floor, each change preserves.** -/
theorem FloorStep.agreed (h : FloorStep steady f f') (hf : f.closed = false → Agreed f)
    (hopen : f'.closed = false) : Agreed f' := by
  cases h with
  | @put x c kept hkept hx hforeground =>
    have ha := hf hopen
    have hxf : x.isForeground = false := (Entry.isForeground_eq hx.body).trans hforeground
    have hqueued := (ha.queued.sublist hkept.sublist).enter hx fun hc =>
      absurd (hforeground.symm.trans hc) Bool.false_ne_true
    have hmem {y : QueuedCommand} (hy : y ∈ kept ++ [x]) (hyf : y.isForeground = true) :
        y ∈ f.inbox := by
      rcases List.mem_append.mp hy with hy | hy
      · exact hkept.sublist.subset hy
      · rw [List.mem_singleton.mp hy, hxf] at hyf
        cases hyf
    refine ha.entered hqueued (List.Sublist.refl _)
      (fun hw y hy hyf => (ha.unheard hw).1 y (hmem hy hyf) hyf)
      fun p hp hg y hy => Bool.eq_false_iff.mpr fun hyf => ?_
    exact absurd hyf (by rw [ha.heard p hp hg y (hmem hy hyf)]; exact Bool.false_ne_true)
  | @queue x c kept hopen' hkept hx hforeground hg =>
    have ha := hf hopen'
    have hbefore : ∀ y ∈ kept, y.isForeground = true → y.generation < x.generation :=
      fun y hy hyf => hg ▸ Nat.lt_succ_of_le (ha.queued.issued y (hkept.subset hy) hyf)
    have hqueued := ((ha.queued.sublist hkept).later (Nat.le_succ _)).enter hx
      fun _ => ⟨hbefore, hg.le⟩
    refine ha.advance hqueued (fun g hw => (ha.awaited g hw).trans (Nat.le_succ _)) ha.distinct
      fun hw => absurd (ha.awaited _ hw) (not_le.mpr (Nat.lt_succ_self _))
  | lose _ hopen' =>
    have ha := hf hopen'
    exact ha.advance (ha.queued.later (Nat.le_succ _))
      (fun g hw => (ha.awaited g hw).trans (Nat.le_succ _)) ha.distinct
      fun hw => absurd (ha.awaited _ hw) (not_le.mpr (Nat.lt_succ_self _))
  | wait _ hopen' =>
    have ha := hf hopen'
    refine ha.advance (ha.queued.later (Nat.le_succ _)) (fun g hw => ?_) ?_
      fun _ x hx hxf => Nat.lt_succ_of_le (ha.queued.issued x hx hxf)
    · rcases List.mem_append.mp hw with hw | hw
      · exact (ha.awaited g hw).trans (Nat.le_succ _)
      · exact (List.mem_singleton.mp hw).le
    · refine List.nodup_append'.mpr ⟨ha.distinct, List.nodup_singleton _, fun g hw hg => ?_⟩
      have hle := ha.awaited g hw
      rw [List.mem_singleton.mp hg] at hle
      exact absurd hle (not_le.mpr (Nat.lt_succ_self _))
  | @enter x c kept l₁ l₂ hopen' hkept hwaiting hx hforeground hg =>
    have ha := hf hopen'
    have hnew : f.generation ∈ f.waiting := hwaiting ▸ List.mem_append_right _ List.mem_cons_self
    obtain ⟨hbefore, hturns⟩ := ha.unheard hnew
    have hqueued := (ha.queued.sublist hkept).enter hx fun _ =>
      ⟨fun y hy hyf => hg ▸ hbefore y (hkept.subset hy) hyf, hg.le⟩
    refine ha.entered hqueued (hwaiting ▸ (List.sublist_cons_self _ _).append_left _)
      (fun hw => ?_) fun p hp hpg => absurd hpg (hturns p hp).ne
    -- the generations that wait are distinct
    have hdistinct :=
      (List.perm_middle.nodup_iff.mp (hwaiting ▸ ha.distinct : (l₁ ++ _ :: l₂).Nodup))
    exact absurd hw (List.nodup_cons.mp hdistinct).1
  | forget hl => exact (hf hopen).fewer (List.Sublist.refl _) (List.Subperm.refl _) hl
  | shut => cases hopen
  | settle state hclosed => exact absurd (hclosed.symm.trans hopen) (Bool.false_ne_true ∘ Eq.symm)
  | release hl => exact (hf hopen).fewer (List.Sublist.refl _) hl (List.Sublist.refl _)
  | @take x c l₁ l₂ capturing hinbox hbody hurgent hold _ =>
    have ha := hf hopen
    have hxf := Entry.isForeground_eq hbody
    have hx : x ∈ f.inbox := hinbox ▸ List.mem_append_right _ List.mem_cons_self
    have hsub : (l₁ ++ l₂).Sublist f.inbox :=
      hinbox ▸ (List.sublist_cons_self _ _).append_left _
    rcases hforeground : c.isForeground with _ | _
    · -- the command leaves a busy state alone
      have hturn : c.isTurn = false := Bool.eq_false_iff.mpr fun hturn => by
        rw [SessionCommand.isForeground_of_isTurn hturn] at hforeground
        cases hforeground
      have hfewer := ha.fewer hsub (List.Subperm.refl _) (List.Sublist.refl _)
      rw [hturn]
      refine ⟨hfewer.queued, hfewer.awaited, hfewer.distinct, hfewer.unheard, hfewer.begun,
        hfewer.alone, hfewer.heard, fun p hp hg => ?_⟩
      have hstate := ha.voiced p hp hg
      refine (SessionCommand.destination_of_not_isForeground capturing hforeground f.state
        (Or.inl ?_)).trans hstate
      rw [hstate]
      cases p.2 <;> rfl
    · -- no turn is the current one, as a foreground command was queued
      have hold' : ∀ p ∈ f.turns, p.1 ≠ f.generation := fun p hp hg =>
        absurd (ha.heard p hp hg x hx)
        (by rw [hxf, hforeground]; exact Bool.false_ne_true ∘ Eq.symm)
      rcases hturn : c.isTurn with _ | _
      · exact ha.of_no_current (List.Subperm.refl _) hold' hsub _ _
      · rw [if_pos rfl]
        have hle : x.generation ≤ f.generation := ha.queued.issued x hx (hxf.trans hforeground)
        have hcount : (f.turns.map Prod.fst).count f.generation = 0 :=
          List.count_eq_zero.mpr fun hmem => by
            obtain ⟨p, hp, hg⟩ := List.mem_map.mp hmem
            exact hold' p hp hg
        refine ⟨ha.queued.sublist hsub, ha.awaited, ha.distinct, fun hw => ?_, ?_, ?_, ?_, ?_⟩
        · obtain ⟨hbefore, hturns⟩ := ha.unheard hw
          refine ⟨fun y hy => hbefore y (hsub.subset hy), fun p hp => ?_⟩
          rcases List.mem_cons.mp hp with rfl | hp
          · exact hbefore x hx (hxf.trans hforeground)
          · exact hturns p hp
        · intro p hp
          rcases List.mem_cons.mp hp with rfl | hp
          · exact hle
          · exact ha.begun p hp
        · rw [List.map_cons, List.count_cons, hcount]
          split <;> omega
        · intro p hp hg y hy
          rcases List.mem_cons.mp hp with rfl | hp
          · exact ha.queued.taken hinbox hbody hturn hurgent hold hg y hy
          · exact absurd hg (hold' p hp)
        · intro p hp hg
          rcases List.mem_cons.mp hp with rfl | hp
          · cases c with
            | turnRequested turn => exact destination_enterProcessing f.state
            | turnCancelRequested | voiceSpeechStarted | voiceCaptureStarted | voiceCaptureStopped
            | voiceTranscriptPartial | voiceTranscriptEmpty | voiceRecognitionFailed
            | transportPing | neutralAvatarRequested | playbackAckReceived => cases hturn
          · exact absurd hg (hold' p hp)
  | @speak l₁ l₂ hopen' hturns _ =>
    have ha := hf hopen'
    have hothers := ha.others hturns
    have hmap : (l₁ ++ (f.generation, false) :: l₂).map Prod.fst = f.turns.map Prod.fst := by
      rw [hturns, List.map_append, List.map_append]
      rfl
    have hfst {p : CancellationGeneration × Bool} (hp : p ∈ l₁ ++ (f.generation, false) :: l₂) :
        ∃ q ∈ f.turns, q.1 = p.1 :=
      List.mem_map.mp (hmap ▸ List.mem_map_of_mem hp)
    refine ⟨ha.queued, ha.awaited, ha.distinct, fun hw => ⟨(ha.unheard hw).1, fun p hp => ?_⟩,
      fun p hp => ?_, ?_, fun p hp hg => ?_, fun p hp hg => ?_⟩
    · obtain ⟨q, hq, hqp⟩ := hfst hp
      exact hqp ▸ (ha.unheard hw).2 q hq
    · obtain ⟨q, hq, hqp⟩ := hfst hp
      exact hqp ▸ ha.begun q hq
    · exact hmap ▸ ha.alone
    · obtain ⟨q, hq, hqp⟩ := hfst hp
      exact ha.heard q hq (hqp.trans hg)
    · rcases List.mem_append.mp hp with hp | hp
      · exact absurd hg (hothers p (List.mem_append_left _ hp))
      · rcases List.mem_cons.mp hp with rfl | hp
        · rfl
        · exact absurd hg (hothers p (List.mem_append_right _ hp))
  | @finish l₁ l₂ first requests hopen' hturns _ _ =>
    have ha := hf hopen'
    exact ha.of_no_current (hturns ▸ ((List.sublist_cons_self _ _).append_left _).subperm)
      (ha.others hturns) (List.Sublist.refl _) _ _
  | @refuse l first requested hopen' hmem _ _ hl =>
    have hfewer := (hf hopen').fewer (List.Sublist.refl _) hl (List.Sublist.refl _)
    exact ⟨hfewer.queued, hfewer.awaited, hfewer.distinct, hfewer.unheard, hfewer.begun,
      hfewer.alone, hfewer.heard, hfewer.voiced⟩

/-- The current turn is refused nothing. -/
theorem Agreed.not_refused {first : Bool} {requested : InteractionState} (h : Agreed f)
    (hmem : (f.generation, first) ∈ f.turns)
    (hrequested : requested = .speaking ∧ first = true ∨ requested = .degraded) :
    requested ∈ f.state.allowedFrom := by
  have hstate := h.voiced _ hmem rfl
  dsimp only at hstate
  rw [hstate]
  rcases hrequested with ⟨rfl, rfl⟩ | rfl
  · change InteractionState.speaking ∈ InteractionState.processing.allowedFrom
    decide
  · cases first with
    | true =>
      change InteractionState.degraded ∈ InteractionState.processing.allowedFrom
      decide
    | false =>
      change InteractionState.degraded ∈ InteractionState.speaking.allowedFrom
      decide

/-- **No change of a sound floor requests what the table forbids.** -/
theorem FloorStep.sound (h : FloorStep steady f f') (hf : Sound f) : Sound f' := by
  refine ⟨?_, fun hopen => h.agreed hf.agreed hopen⟩
  have happend {requested : List (InteractionState × InteractionState)}
      (hnew : ∀ p ∈ requested, p.2 ∈ p.1.allowedFrom) :
      ∀ p ∈ f.requested ++ requested, p.2 ∈ p.1.allowedFrom :=
    List.forall_mem_append.mpr ⟨hf.legal, hnew⟩
  cases h with
  | put | queue | lose | wait | enter | forget | shut | settle | release => exact hf.legal
  | @take x c l₁ l₂ capturing => exact happend (c.legal_requests capturing f.state).1
  | speak _ _ hallowed => exact happend (List.forall_mem_singleton.mpr hallowed)
  | finish requests _ _ hlegal => exact happend hlegal.1
  | refuse hopen hmem hrequested hrefused =>
    exact absurd ((hf.agreed hopen).not_refused hmem hrequested) hrefused

/-! ### Steady changes -/

/-- **Each change of a steady floor leaves its busy state attended to.** -/
theorem FloorStep.attended (h : FloorStep true f f') (hf : Sound f) (ha : Attended f) :
    Attended f' := by
  intro hopen hbusy
  cases h with
  | @put x c kept hkept hx _ =>
    rcases ha hopen hbusy with hturn | ⟨y, hy, hyf, hyg⟩
    · exact Or.inl hturn
    · exact Or.inr ⟨y, List.mem_append_left _ (hkept.mem_of_current hopen hy hyf hyg), hyf, hyg⟩
  | @queue x c kept _ _ hx hforeground hg =>
    exact Or.inr ⟨x, List.mem_append_right _ List.mem_cons_self,
      (Entry.isForeground_eq hx.body).trans hforeground, hg⟩
  | lose hsteady | wait hsteady => cases hsteady
  | @enter x c kept l₁ l₂ _ _ _ hx hforeground hg =>
    exact Or.inr ⟨x, List.mem_append_right _ List.mem_cons_self,
      (Entry.isForeground_eq hx.body).trans hforeground, hg⟩
  | forget => exact ha hopen hbusy
  | shut => cases hopen
  | settle state hclosed => exact absurd (hclosed.symm.trans hopen) (Bool.false_ne_true ∘ Eq.symm)
  | @take x c l₁ l₂ capturing hinbox hbody _ _ hsteady =>
    rcases hturn : c.isTurn with _ | _
    · rcases hforeground : c.isForeground with _ | _
      · -- the state was busy before, and what attends to it is not the command taken
        have hstate := SessionCommand.destination_of_not_isForeground capturing hforeground f.state
          (Or.inr hbusy)
        rcases ha hopen (hstate ▸ hbusy) with hcurrent | ⟨y, hy, hyf, hyg⟩
        · exact Or.inl hcurrent
        · refine Or.inr ⟨y, ?_, hyf, hyg⟩
          rw [hinbox, List.mem_append, List.mem_cons] at hy
          rcases hy with hy | rfl | hy
          · exact List.mem_append_left _ hy
          · rw [Entry.isForeground_eq hbody, hforeground] at hyf
            cases hyf
          · exact List.mem_append_right _ hy
      · have hquiet := c.not_isBusy_of_isForeground capturing hforeground hturn f.state
        exact absurd (hbusy.symm.trans hquiet) (Bool.false_ne_true ∘ Eq.symm)
    · exact Or.inl (List.mem_cons.mpr (Or.inl (hsteady rfl hopen hturn).symm))
  | release hl hkept =>
    rcases ha hopen hbusy with hturn | hqueued
    · obtain ⟨p, hp, hg⟩ := List.mem_map.mp hturn
      exact Or.inl (List.mem_map.mpr ⟨p, hkept rfl hopen p hp hg, hg⟩)
    · exact Or.inr hqueued
  | @speak l₁ l₂ =>
    exact Or.inl (List.mem_map.mpr
      ⟨(f.generation, false), List.mem_append_right _ List.mem_cons_self, rfl⟩)
  | finish requests _ _ _ hquiet =>
    exact absurd (hbusy.symm.trans hquiet) (Bool.false_ne_true ∘ Eq.symm)
  | refuse hopen' hmem hrequested hrefused =>
    exact absurd ((hf.agreed hopen').not_refused hmem hrequested) hrefused

end Eeveetuber
