import Eeveetuber.Application.ConversationStorage

/-!
# A history reads what was written

**The history of a turn is empty, or it is compiled from a store that has every message
registered before the turn took the lock, and with them the reply of every earlier turn that
was admitted** (`Eeveetuber.ConversationStorage.history_reads_writes`). A worker that is not
done is in the dictionary, so the load waits for it; and a reply is registered before the lock
is free, by a turn that is not admitted once a later one has been requested.
-/

namespace Eeveetuber

namespace ConversationStorage

open Foundation Storage

variable {policy : RecentConversationHistoryPolicy} {sessionId : Text}
  {s t : ConversationStorage} {l : Label} {turn : ForegroundTurn}

/-! ### What a step does -/

/-- What a load may do next. -/
inductive Loads (policy : RecentConversationHistoryPolicy) (sessionId : Text)
    (s : ConversationStorage) (turn : ForegroundTurn) : HistoryLoad → Prop
  | spawned : Loads policy sessionId s turn .spawned
  /-- The policy is disabled, or the deadline is over. -/
  | empty : Loads policy sessionId s turn (.loaded {} none)
  | looked (lock : s.lock = none) :
    Loads policy sessionId s turn
      (.waiting (s.priorWrites turn.userSequence) (s.registered turn.userSequence))
  | proceeded (priorWrites : List ℕ) (registered : List MessageRecord)
      (load : turn.load = .waiting priorWrites registered)
      (done : ∀ i ∈ priorWrites, s.isDone i = true) :
    Loads policy sessionId s turn (.reading registered)
  | read (registered records : List MessageRecord) (load : turn.load = .reading registered)
      (records_eq :
        s.store.listRecentBefore sessionId turn.userSequence policy.fetchLimit = .ok records) :
    Loads policy sessionId s turn (.fetched records ⟨s.store, registered⟩)
  | compiled (records : List MessageRecord) (source : HistorySource)
      (load : turn.load = .fetched records source) :
    Loads policy sessionId s turn
      (.loaded (policy.compile records sessionId turn.generation) (some source))

/-- **What a step does.** -/
inductive Steps (policy : RecentConversationHistoryPolicy) (sessionId : Text)
    (s : ConversationStorage) : ConversationStorage → Prop
  | advance : Steps policy sessionId s { s with generation := s.generation + 1, placed := false }
  | enqueue (request : RequestedTurn) (placed : s.placed = false)
      (current : request.generation = s.generation) :
    Steps policy sessionId s { s with requests := s.requests ++ [request], placed := true }
  | displace (index : ℕ) :
    Steps policy sessionId s { s with requests := s.requests.eraseIdx index }
  | accept (messageId : Text) (request : RequestedTurn) (requests : List RequestedTurn)
      (requests_eq : s.requests = request :: requests) :
    Steps policy sessionId s (s.acceptTurn sessionId messageId request requests)
  | load (turn : ForegroundTurn) (mem : turn ∈ s.turns) (load : HistoryLoad)
      (loads : Loads policy sessionId s turn load) :
    Steps policy sessionId s (s.setTurn { turn with load := load })
  | complete (turn : ForegroundTurn) (mem : turn ∈ s.turns) (displayText : Text)
      (completion : turn.completion = .running) (lock : s.lock = none) :
    Steps policy sessionId s
      { s.setTurn { turn with completion := .publishing displayText } with
        lock := some turn.userSequence }
  | publish (turn : ForegroundTurn) (mem : turn ∈ s.turns) (displayText : Text)
      (completion : turn.completion = .publishing displayText)
      (current : turn.generation = s.generation) :
    Steps policy sessionId s (s.setTurn { turn with completion := .admitted displayText })
  | refuse (turn : ForegroundTurn) (mem : turn ∈ s.turns) (displayText : Text)
      (completion : turn.completion = .publishing displayText) :
    Steps policy sessionId s { s.setTurn { turn with completion := .refused } with lock := none }
  | blank (turn : ForegroundTurn) (mem : turn ∈ s.turns) (displayText : Text)
      (completion : turn.completion = .admitted displayText) (blank : strip displayText = []) :
    Steps policy sessionId s
      { s.setTurn { turn with completion := .completed displayText } with lock := none }
  | reply (turn : ForegroundTurn) (mem : turn ∈ s.turns) (displayText : Text)
      (completion : turn.completion = .admitted displayText) (htext : strip displayText ≠ [])
      (messageId : Text) (createdAt : Datetime) :
    Steps policy sessionId s
      ({ s.setTurn { turn with completion := .completed displayText } with
        lock := none }.persistMessage
        (assistantRecord sessionId messageId createdAt turn displayText htext))
  | commit (i : ℕ) (write : MessageWrite) (write_eq : s.workers[i]? = some write)
      (phase : write.phase = .running) (store : Conversations)
      (appended : s.store.append write.record = .ok store) :
    Steps policy sessionId s
      { s with
        workers := s.workers.set i { write with phase := .committed }
        store := store }
  | done (i : ℕ) (write : MessageWrite) (write_eq : s.workers[i]? = some write)
      (phase : write.phase = .committed) :
    Steps policy sessionId s { s with workers := s.workers.set i { write with phase := .done } }
  | discard (i : ℕ) (write : MessageWrite) (write_eq : s.workers[i]? = some write)
      (phase : write.phase = .done) (messageWrites : Mapping ℕ ℕ)
      (kept : ∀ entry ∈ s.messageWrites, entry = (write.record.sequence, i) ∨
        entry ∈ messageWrites) :
    Steps policy sessionId s { s with messageWrites := messageWrites }

theorem nextLoad_loads {load : HistoryLoad} (h : s.nextLoad policy sessionId turn l = some load) :
    Loads policy sessionId s turn load := by
  rw [nextLoad.eq_def] at h
  split at h
  · -- `spawn`
    split at h <;> cases h
    exact .spawned
  · -- `load`
    split at h
    · split_ifs at h with hdisabled hlock
      · cases h
        exact .empty
      · cases h
        exact .looked hlock
    · cases h
  · -- `proceed`
    split at h
    · rename_i priorWrites registered hload
      split_ifs at h with hdone
      cases h
      exact .proceeded priorWrites registered hload (List.all_eq_true.mp hdone)
    · cases h
  · -- `read`
    split at h
    · rename_i registered hload
      split at h
      · rename_i records hrecords
        cases h
        exact .read registered records hload hrecords
      · cases h
    · cases h
  · -- `compile`
    split at h
    · rename_i records source hload
      cases h
      exact .compiled records source hload
    · cases h
  · -- `expire`
    split at h <;> cases h
    all_goals exact .empty
  · cases h

theorem nextCompletion_steps (hmem : turn ∈ s.turns)
    (h : s.nextCompletion sessionId turn l = some t) : Steps policy sessionId s t := by
  rw [nextCompletion.eq_def] at h
  split at h
  · -- `complete`
    split at h
    · rename_i hload hcompletion
      split_ifs at h with hlock
      cases h
      exact .complete turn hmem _ hcompletion hlock
    · cases h
  · -- `publish`
    split at h
    · rename_i displayText hcompletion
      split_ifs at h with hcurrent
      cases h
      exact .publish turn hmem displayText hcompletion hcurrent
    · cases h
  · -- `refuse`
    split at h
    · rename_i displayText hcompletion
      cases h
      exact .refuse turn hmem displayText hcompletion
    · cases h
  · -- `register`
    split at h
    · rename_i displayText hcompletion
      dsimp only at h
      split_ifs at h with htext
      · cases h
        exact .reply turn hmem displayText hcompletion htext _ _
      · cases h
        exact .blank turn hmem displayText hcompletion (not_not.mp htext)
    · cases h
  · cases h

theorem nextWrite_steps {i : ℕ} {write : MessageWrite} (hwrite : s.workers[i]? = some write)
    (h : s.nextWrite i write l = some t) : Steps policy sessionId s t := by
  rw [nextWrite.eq_def] at h
  split at h
  · -- `commit`
    split at h
    · rename_i store hphase happended
      cases h
      exact .commit i write hwrite hphase store happended
    · cases h
  · -- `done`
    split_ifs at h with hphase
    cases h
    exact .done i write hwrite hphase
  · -- `discard`
    split_ifs at h with hphase hcurrent
    · cases h
      refine .discard i write hwrite hphase _ fun entry hentry => ?_
      by_cases hkey : entry.1 = write.record.sequence
      · have hsame := Keyed.eq_of_key hentry (Mapping.get_eq_some.mp hcurrent) hkey
        exact .inl hsame
      · exact .inr (Keyed.mem_erase.mpr ⟨hentry, hkey⟩)
    · cases h
      exact .discard i write hwrite hphase s.messageWrites fun entry hentry => .inr hentry
  · cases h

theorem next_steps (h : s.next policy sessionId l = some t) : Steps policy sessionId s t := by
  -- a step of a turn that is found, and one of a worker
  have hload : ∀ userSequence, ((s.turns.find? userSequence).bind fun turn =>
      (s.nextLoad policy sessionId turn l).map fun load =>
        s.setTurn { turn with load := load }) = some t → Steps policy sessionId s t := by
    intro userSequence h
    obtain ⟨turn, hfind, h⟩ := Option.bind_eq_some_iff.mp h
    obtain ⟨load, hnext, rfl⟩ := Option.map_eq_some_iff.mp h
    exact .load turn (Keyed.find?_eq_some.mp hfind).1 load (nextLoad_loads hnext)
  have hcompletion : ∀ userSequence, ((s.turns.find? userSequence).bind fun turn =>
      s.nextCompletion sessionId turn l) = some t → Steps policy sessionId s t := by
    intro userSequence h
    obtain ⟨turn, hfind, h⟩ := Option.bind_eq_some_iff.mp h
    exact nextCompletion_steps (Keyed.find?_eq_some.mp hfind).1 h
  have hwrite : ∀ worker, (s.workers[worker]?.bind fun write => s.nextWrite worker write l) =
      some t → Steps policy sessionId s t := by
    intro worker h
    obtain ⟨write, hget, h⟩ := Option.bind_eq_some_iff.mp h
    exact nextWrite_steps hget h
  rcases l with _ | request | index | messageId | k | k | k | k | k | k | ⟨k, _⟩ | k | k |
    ⟨k, _, _⟩ | i | i | i
  · cases h
    exact .advance
  · obtain ⟨⟨hplaced, hcurrent⟩, heq⟩ := Option.ite_none_right_eq_some.mp h
    cases heq
    exact .enqueue request hplaced hcurrent
  · cases h
    exact .displace index
  · rw [next] at h
    split at h
    · cases h
    · rename_i request requests hrequests
      split_ifs at h
      cases h
      exact .accept messageId request requests hrequests
  · exact hload k h
  · exact hload k h
  · exact hload k h
  · exact hload k h
  · exact hload k h
  · exact hload k h
  · exact hcompletion k h
  · exact hcompletion k h
  · exact hcompletion k h
  · exact hcompletion k h
  · exact hwrite i h
  · exact hwrite i h
  · exact hwrite i h

/-! ### Turns and workers stay -/

theorem mem_setTurn {u : ForegroundTurn} :
    u ∈ (s.setTurn turn).turns ↔ u = turn ∨ u ∈ s.turns ∧ u.userSequence ≠ turn.userSequence :=
  Keyed.mem_insert

/-- What stays of the workers and of what they have written. -/
structure Extends (s t : ConversationStorage) : Prop where
  workers : ∀ (i : ℕ) (w : MessageWrite), s.workers[i]? = some w →
    ∃ w', t.workers[i]? = some w' ∧ w'.record = w.record
  store : ∀ r ∈ s.store.messages, r ∈ t.store.messages

theorem append_extends {store store' : Conversations} {record : MessageRecord}
    (h : store.append record = .ok store') :
    record ∈ store'.messages ∧ ∀ r ∈ store.messages, r ∈ store'.messages := by
  rw [Conversations.append] at h
  split at h
  · cases h
  · split at h
    · rename_i stored hfind
      split_ifs at h with hsame
      cases h
      exact ⟨not_not.mp hsame ▸ (Keyed.find?_eq_some.mp hfind).1, fun r hr => hr⟩
    · rename_i hfind
      split_ifs at h
      cases h
      refine ⟨Keyed.mem_insert_self, fun r hr => Keyed.mem_insert.mpr (.inr ⟨hr, ?_⟩)⟩
      exact Keyed.find?_eq_none.mp hfind r hr

theorem workers_set {i : ℕ} {write write' : MessageWrite} (hwrite : s.workers[i]? = some write)
    (hrecord : write'.record = write.record) (j : ℕ) (w : MessageWrite)
    (hw : s.workers[j]? = some w) :
    ∃ w', (s.workers.set i write')[j]? = some w' ∧ w'.record = w.record := by
  rw [List.getElem?_set]
  split_ifs with hij hlt
  · subst hij
    obtain rfl := Option.some.inj (hwrite.symm.trans hw)
    exact ⟨write', rfl, hrecord⟩
  · subst hij
    exact absurd (List.getElem?_eq_some_iff.mp hwrite).1 hlt
  · exact ⟨w, hw, rfl⟩

theorem workers_concat {record : MessageRecord} (j : ℕ) (w : MessageWrite)
    (hw : s.workers[j]? = some w) :
    (s.persistMessage record).workers[j]? = some w :=
  (List.getElem?_append_left (List.getElem?_eq_some_iff.mp hw).1).trans hw

theorem Steps.extends (h : Steps policy sessionId s t) : Extends s t := by
  have hsame : ∀ {t : ConversationStorage}, t.workers = s.workers → t.store = s.store →
      Extends s t := fun hworkers hstore =>
    ⟨fun i w hw => ⟨w, hworkers ▸ hw, rfl⟩, fun r hr => hstore ▸ hr⟩
  rcases h with _ | _ | _ | _ | _ | _ | _ | _ | _ | _ | ⟨i, write, hwrite, _, store, happended⟩ |
    ⟨i, write, hwrite, _⟩ | _
  · exact hsame rfl rfl
  · exact hsame rfl rfl
  · exact hsame rfl rfl
  · exact ⟨fun i w hw => ⟨w, workers_concat i w hw, rfl⟩, fun r hr => hr⟩
  · exact hsame rfl rfl
  · exact hsame rfl rfl
  · exact hsame rfl rfl
  · exact hsame rfl rfl
  · exact hsame rfl rfl
  · exact ⟨fun i w hw => ⟨w, workers_concat i w hw, rfl⟩, fun r hr => hr⟩
  · exact ⟨workers_set hwrite rfl, (append_extends happended).2⟩
  · exact ⟨workers_set hwrite rfl, fun r hr => hr⟩
  · exact hsame rfl rfl

/-! ### The order of the turns -/

/-- **Turns are accepted in the order of their generations**, and requests wait in it. -/
structure Ordered (s : ConversationStorage) : Prop where
  turns : ∀ t ∈ s.turns, ∀ u ∈ s.turns, t.userSequence < u.userSequence →
    t.generation < u.generation
  requests : s.requests.Pairwise fun a b => a.generation < b.generation
  turns_requests : ∀ t ∈ s.turns, ∀ r ∈ s.requests, t.generation < r.generation
  turns_le : ∀ t ∈ s.turns, t.generation ≤ s.generation
  requests_le : ∀ r ∈ s.requests, r.generation ≤ s.generation
  /-- Nothing has the current generation yet. -/
  turns_lt : s.placed = false → ∀ t ∈ s.turns, t.generation < s.generation
  requests_lt : s.placed = false → ∀ r ∈ s.requests, r.generation < s.generation
  /-- The messages of a turn come before those of the next. -/
  spaced : ∀ t ∈ s.turns, ∀ u ∈ s.turns, t.userSequence < u.userSequence →
    t.assistantSequence < u.userSequence
  sequences : ∀ t ∈ s.turns, t.assistantSequence = t.userSequence + 1 ∧
    t.assistantSequence ≤ s.messageSequence

/-- What a step keeps that changes neither the requests nor which turns there are. -/
structure SameTurns (s t : ConversationStorage) : Prop where
  generation : t.generation = s.generation
  placed : t.placed = s.placed
  requests : t.requests = s.requests
  messageSequence : t.messageSequence = s.messageSequence
  turns : ∀ u ∈ t.turns, ∃ v ∈ s.turns, u.userSequence = v.userSequence ∧
    u.assistantSequence = v.assistantSequence ∧ u.generation = v.generation

theorem sameTurns_of_eq (hgeneration : t.generation = s.generation) (hplaced : t.placed = s.placed)
    (hrequests : t.requests = s.requests) (hsequence : t.messageSequence = s.messageSequence)
    (hturns : t.turns = s.turns) : SameTurns s t :=
  ⟨hgeneration, hplaced, hrequests, hsequence, fun u hu => ⟨u, hturns ▸ hu, rfl, rfl, rfl⟩⟩

/-- A turn goes on. -/
theorem sameTurns_of_insert {turn' : ForegroundTurn} (hmem : turn ∈ s.turns)
    (hturns : t.turns = s.turns.insert turn') (huser : turn'.userSequence = turn.userSequence)
    (hassistant : turn'.assistantSequence = turn.assistantSequence)
    (hrequest : turn'.generation = turn.generation) (hgeneration : t.generation = s.generation)
    (hplaced : t.placed = s.placed) (hrequests : t.requests = s.requests)
    (hsequence : t.messageSequence = s.messageSequence) : SameTurns s t := by
  refine ⟨hgeneration, hplaced, hrequests, hsequence, fun u hu => ?_⟩
  rw [hturns] at hu
  obtain rfl | ⟨hu, -⟩ := Keyed.mem_insert.mp hu
  · exact ⟨turn, hmem, huser, hassistant, hrequest⟩
  · exact ⟨u, hu, rfl, rfl, rfl⟩

theorem Ordered.of_sameTurns (h : Ordered s) (hsame : SameTurns s t) : Ordered t where
  turns u hu v hv hlt := by
    obtain ⟨u', hu', huser, -, hgeneration⟩ := hsame.turns u hu
    obtain ⟨v', hv', hvuser, -, hvgeneration⟩ := hsame.turns v hv
    rw [hgeneration, hvgeneration]
    exact h.turns u' hu' v' hv' (huser ▸ hvuser ▸ hlt)
  requests := hsame.requests ▸ h.requests
  turns_requests u hu r hr := by
    obtain ⟨u', hu', -, -, hgeneration⟩ := hsame.turns u hu
    exact hgeneration ▸ h.turns_requests u' hu' r (hsame.requests ▸ hr)
  turns_le u hu := by
    obtain ⟨u', hu', -, -, hgeneration⟩ := hsame.turns u hu
    rw [hgeneration, hsame.generation]
    exact h.turns_le u' hu'
  requests_le r hr := hsame.generation ▸ h.requests_le r (hsame.requests ▸ hr)
  turns_lt hplaced u hu := by
    obtain ⟨u', hu', -, -, hgeneration⟩ := hsame.turns u hu
    rw [hgeneration, hsame.generation]
    exact h.turns_lt (hsame.placed ▸ hplaced) u' hu'
  requests_lt hplaced r hr :=
    hsame.generation ▸ h.requests_lt (hsame.placed ▸ hplaced) r (hsame.requests ▸ hr)
  spaced u hu v hv hlt := by
    obtain ⟨u', hu', huser, hassistant, -⟩ := hsame.turns u hu
    obtain ⟨v', hv', hvuser, -, -⟩ := hsame.turns v hv
    rw [hassistant, hvuser]
    exact h.spaced u' hu' v' hv' (huser ▸ hvuser ▸ hlt)
  sequences u hu := by
    obtain ⟨u', hu', huser, hassistant, -⟩ := hsame.turns u hu
    rw [huser, hassistant, hsame.messageSequence]
    exact h.sequences u' hu'

theorem Ordered.accept (h : Ordered s) (messageId : Text) {request : RequestedTurn}
    {requests : List RequestedTurn} (hrequests : s.requests = request :: requests) :
    Ordered (s.acceptTurn sessionId messageId request requests) := by
  have hhead : request ∈ s.requests := hrequests ▸ List.mem_cons_self
  have htail : ∀ r ∈ requests, r ∈ s.requests := fun r hr =>
    hrequests ▸ List.mem_cons_of_mem request hr
  obtain ⟨hfirst, hrest⟩ := List.pairwise_cons.mp (hrequests ▸ h.requests)
  -- the new turn is after the others, in its place and in its generation
  have hturns : ∀ u ∈ (s.acceptTurn sessionId messageId request requests).turns,
      (u.userSequence = s.messageSequence + 1 ∧ u.assistantSequence = s.messageSequence + 2 ∧
        u.generation = request.generation) ∨ u ∈ s.turns ∧ u.userSequence < s.messageSequence ∧
          u.assistantSequence ≤ s.messageSequence := by
    intro u hu
    obtain rfl | ⟨hu, -⟩ := Keyed.mem_insert.mp hu
    · exact .inl ⟨rfl, rfl, rfl⟩
    · have hsequences := h.sequences u hu
      exact .inr ⟨hu, by omega, hsequences.2⟩
  exact {
    turns := by
      intro u hu v hv hlt
      obtain ⟨huser, -, hgeneration⟩ | ⟨hu, huser, -⟩ := hturns u hu
      · obtain ⟨hvuser, -, -⟩ | ⟨-, hvuser, -⟩ := hturns v hv
        · omega
        · omega
      · obtain ⟨-, -, hvgeneration⟩ | ⟨hv, -⟩ := hturns v hv
        · exact hvgeneration ▸ h.turns_requests u hu request hhead
        · exact h.turns u hu v hv hlt
    requests := hrest
    turns_requests := by
      intro u hu r hr
      obtain ⟨-, -, hgeneration⟩ | ⟨hu, -⟩ := hturns u hu
      · exact hgeneration ▸ hfirst r hr
      · exact h.turns_requests u hu r (htail r hr)
    turns_le := by
      intro u hu
      obtain ⟨-, -, hgeneration⟩ | ⟨hu, -⟩ := hturns u hu
      · exact hgeneration ▸ h.requests_le request hhead
      · exact h.turns_le u hu
    requests_le := fun r hr => h.requests_le r (htail r hr)
    turns_lt := by
      intro hplaced u hu
      obtain ⟨-, -, hgeneration⟩ | ⟨hu, -⟩ := hturns u hu
      · exact hgeneration ▸ h.requests_lt hplaced request hhead
      · exact h.turns_lt hplaced u hu
    requests_lt := fun hplaced r hr => h.requests_lt hplaced r (htail r hr)
    spaced := by
      intro u hu v hv hlt
      obtain ⟨huser, -, -⟩ | ⟨hu, huser, hassistant⟩ := hturns u hu
      · obtain ⟨hvuser, -, -⟩ | ⟨-, hvuser, -⟩ := hturns v hv
        · omega
        · omega
      · obtain ⟨hvuser, -, -⟩ | ⟨hv, -⟩ := hturns v hv
        · omega
        · exact h.spaced u hu v hv hlt
    sequences := by
      intro u hu
      obtain ⟨huser, hassistant, -⟩ | ⟨hu, -⟩ := hturns u hu
      · exact ⟨by omega, hassistant.le⟩
      · exact (h.sequences u hu).imp_right fun hle => hle.trans (Nat.le_add_right _ 2) }

theorem Ordered.step (h : Ordered s) (hstep : Steps policy sessionId s t) : Ordered t := by
  rcases hstep with _ | ⟨request, hplaced, hcurrent⟩ | index |
    ⟨messageId, request, requests, hrequests⟩ | ⟨turn, hmem, _, _⟩ | ⟨turn, hmem, _, _, _⟩ |
    ⟨turn, hmem, _, _, _⟩ | ⟨turn, hmem, _, _⟩ | ⟨turn, hmem, _, _, _⟩ |
    ⟨turn, hmem, _, _, _, _, _⟩ | _ | _ | _
  -- the generation advances, and everything there is belongs to an earlier one
  · exact {
      turns := h.turns
      requests := h.requests
      turns_requests := h.turns_requests
      turns_le := fun u hu => (h.turns_le u hu).trans (Nat.le_succ _)
      requests_le := fun r hr => (h.requests_le r hr).trans (Nat.le_succ _)
      turns_lt := fun _ u hu => Nat.lt_succ_of_le (h.turns_le u hu)
      requests_lt := fun _ r hr => Nat.lt_succ_of_le (h.requests_le r hr)
      spaced := h.spaced
      sequences := h.sequences }
  -- a request is placed, of the current generation
  · have hnew : ∀ r ∈ s.requests ++ [request], r ∈ s.requests ∨ r = request := fun r hr =>
      (List.mem_append.mp hr).imp_right List.mem_singleton.mp
    exact {
      turns := h.turns
      requests := by
        refine List.pairwise_append.mpr ⟨h.requests, List.pairwise_singleton _ _, ?_⟩
        intro r hr r' hr'
        obtain rfl := List.mem_singleton.mp hr'
        exact hcurrent ▸ h.requests_lt hplaced r hr
      turns_requests := by
        intro u hu r hr
        obtain hr | rfl := hnew r hr
        · exact h.turns_requests u hu r hr
        · exact hcurrent ▸ h.turns_lt hplaced u hu
      turns_le := h.turns_le
      requests_le := by
        intro r hr
        obtain hr | rfl := hnew r hr
        · exact h.requests_le r hr
        · exact hcurrent.le
      turns_lt := nofun
      requests_lt := nofun
      spaced := h.spaced
      sequences := h.sequences }
  -- a request leaves the inbox
  · have hsub : (s.requests.eraseIdx index).Sublist s.requests := List.eraseIdx_sublist _ _
    exact {
      turns := h.turns
      requests := h.requests.sublist hsub
      turns_requests := fun u hu r hr => h.turns_requests u hu r (hsub.subset hr)
      turns_le := h.turns_le
      requests_le := fun r hr => h.requests_le r (hsub.subset hr)
      turns_lt := h.turns_lt
      requests_lt := fun hplaced r hr => h.requests_lt hplaced r (hsub.subset hr)
      spaced := h.spaced
      sequences := h.sequences }
  · exact h.accept messageId hrequests
  · exact h.of_sameTurns (sameTurns_of_insert hmem rfl rfl rfl rfl rfl rfl rfl rfl)
  · exact h.of_sameTurns (sameTurns_of_insert hmem rfl rfl rfl rfl rfl rfl rfl rfl)
  · exact h.of_sameTurns (sameTurns_of_insert hmem rfl rfl rfl rfl rfl rfl rfl rfl)
  · exact h.of_sameTurns (sameTurns_of_insert hmem rfl rfl rfl rfl rfl rfl rfl rfl)
  · exact h.of_sameTurns (sameTurns_of_insert hmem rfl rfl rfl rfl rfl rfl rfl rfl)
  · exact h.of_sameTurns (sameTurns_of_insert hmem rfl rfl rfl rfl rfl rfl rfl rfl)
  · exact h.of_sameTurns (sameTurns_of_eq rfl rfl rfl rfl rfl)
  · exact h.of_sameTurns (sameTurns_of_eq rfl rfl rfl rfl rfl)
  · exact h.of_sameTurns (sameTurns_of_eq rfl rfl rfl rfl rfl)

/-! ### Workers -/

/-- **A worker that is not done is in the dictionary, and one that is committed is in the
store.** -/
structure Written (s : ConversationStorage) : Prop where
  sequences_le : ∀ w ∈ s.workers, w.record.sequence ≤ s.messageSequence
  /-- Nobody has written a reply that its turn has not registered. -/
  replies_new : ∀ t ∈ s.turns, (∀ text, t.completion ≠ .completed text) →
    ∀ w ∈ s.workers, w.record.sequence ≠ t.assistantSequence
  tracked : ∀ (i : ℕ) (w : MessageWrite), s.workers[i]? = some w → w.phase ≠ .done →
    (w.record.sequence, i) ∈ s.messageWrites
  stored : ∀ w ∈ s.workers, w.phase ≠ .running → w.record ∈ s.store.messages

/-- The turns go on, and nothing is written. -/
theorem Written.of_turns (h : Written s) (hworkers : t.workers = s.workers)
    (hwrites : t.messageWrites = s.messageWrites) (hstore : t.store = s.store)
    (hsequence : t.messageSequence = s.messageSequence)
    (hturns : ∀ u ∈ t.turns, (∀ text, u.completion ≠ .completed text) →
      ∃ v ∈ s.turns, v.assistantSequence = u.assistantSequence ∧
        ∀ text, v.completion ≠ .completed text) : Written t where
  sequences_le := hworkers ▸ hsequence ▸ h.sequences_le
  replies_new u hu hcompletion := by
    obtain ⟨v, hv, heq, hrunning⟩ := hturns u hu hcompletion
    exact heq ▸ hworkers ▸ h.replies_new v hv hrunning
  tracked := hworkers ▸ hwrites ▸ h.tracked
  stored := hworkers ▸ hstore ▸ h.stored

/-- The turn that goes on is not completed, and was not. -/
theorem Written.of_insert (h : Written s) {turn' : ForegroundTurn} (hmem : turn ∈ s.turns)
    (hturns : t.turns = s.turns.insert turn')
    (hassistant : turn.assistantSequence = turn'.assistantSequence)
    (hcompletion : (∀ text, turn'.completion ≠ .completed text) →
      ∀ text, turn.completion ≠ .completed text)
    (hworkers : t.workers = s.workers) (hwrites : t.messageWrites = s.messageWrites)
    (hstore : t.store = s.store) (hsequence : t.messageSequence = s.messageSequence) :
    Written t := by
  refine h.of_turns hworkers hwrites hstore hsequence fun u hu hrunning => ?_
  rw [hturns] at hu
  obtain rfl | ⟨hu, -⟩ := Keyed.mem_insert.mp hu
  · exact ⟨turn, hmem, hassistant, hcompletion hrunning⟩
  · exact ⟨u, hu, rfl, hrunning⟩

/-- A message is registered whose place nobody has. -/
theorem tracked_persistMessage (h : Written s) {record : MessageRecord}
    (hnew : ∀ w ∈ s.workers, w.record.sequence ≠ record.sequence) (i : ℕ) (w : MessageWrite)
    (hw : (s.persistMessage record).workers[i]? = some w) (hphase : w.phase ≠ .done) :
    (w.record.sequence, i) ∈ (s.persistMessage record).messageWrites := by
  obtain hlt | hge := Nat.lt_or_ge i s.workers.length
  · have hold : s.workers[i]? = some w := (List.getElem?_append_left hlt).symm.trans hw
    exact Keyed.mem_insert.mpr (.inr ⟨h.tracked i w hold hphase,
      hnew w (List.mem_of_getElem? hold)⟩)
  · have hlast : ([⟨record, .running⟩] : List MessageWrite)[i - s.workers.length]? = some w :=
      (List.getElem?_append_right hge).symm.trans hw
    rw [List.getElem?_singleton, Option.ite_none_right_eq_some] at hlast
    obtain ⟨hzero, heq⟩ := hlast
    obtain rfl : i = s.workers.length := by omega
    exact Option.some.inj heq ▸ Keyed.mem_insert_self

/-- A worker goes on. -/
theorem Written.setWorker (h : Written s) {i : ℕ} {write : MessageWrite} {phase : WritePhase}
    {store : Conversations} (hwrite : s.workers[i]? = some write) (hrunning : write.phase ≠ .done)
    (hstored : write.record ∈ store.messages)
    (hstore : ∀ r ∈ s.store.messages, r ∈ store.messages) :
    Written { s with
      workers := s.workers.set i { write with phase := phase }
      store := store } := by
  have hmem : write ∈ s.workers := List.mem_of_getElem? hwrite
  have hset : ∀ w ∈ s.workers.set i { write with phase := phase },
      w = { write with phase := phase } ∨ w ∈ s.workers := fun w hw =>
    (List.mem_or_eq_of_mem_set hw).symm
  exact {
    sequences_le := by
      intro w hw
      obtain rfl | hw := hset w hw
      · exact h.sequences_le write hmem
      · exact h.sequences_le w hw
    replies_new := by
      intro u hu hcompletion w hw
      obtain rfl | hw := hset w hw
      · exact h.replies_new u hu hcompletion write hmem
      · exact h.replies_new u hu hcompletion w hw
    tracked := by
      intro j w hw hphase
      change (s.workers.set i { write with phase := phase })[j]? = some w at hw
      rw [List.getElem?_set] at hw
      split_ifs at hw with hij hlt
      · subst hij
        obtain rfl := Option.some.inj hw
        exact h.tracked i write hwrite hrunning
      · exact h.tracked j w hw hphase
    stored := by
      intro w hw hphase
      obtain rfl | hw := hset w hw
      · exact hstored
      · exact hstore _ (h.stored w hw hphase) }

theorem Written.persistMessage (h : Written s) {record : MessageRecord}
    (hnew : ∀ w ∈ s.workers, w.record.sequence ≠ record.sequence)
    (hturns : ∀ u ∈ t.turns, (∀ text, u.completion ≠ .completed text) →
      u.assistantSequence ≠ record.sequence ∧ ∀ w ∈ s.workers,
        w.record.sequence ≠ u.assistantSequence)
    (hworkers : t.workers = (s.persistMessage record).workers)
    (hwrites : t.messageWrites = (s.persistMessage record).messageWrites)
    (hstore : t.store = s.store) (hsequence : s.messageSequence ≤ t.messageSequence)
    (hrecord : record.sequence ≤ t.messageSequence) : Written t := by
  have hmem : ∀ w ∈ t.workers, w ∈ s.workers ∨ w = ⟨record, .running⟩ := by
    intro w hw
    rw [hworkers] at hw
    exact (List.mem_append.mp hw).imp_right List.mem_singleton.mp
  exact {
    sequences_le := by
      intro w hw
      obtain hw | rfl := hmem w hw
      · exact (h.sequences_le w hw).trans hsequence
      · exact hrecord
    replies_new := by
      intro u hu hcompletion w hw
      obtain ⟨hne, hold⟩ := hturns u hu hcompletion
      obtain hw | rfl := hmem w hw
      · exact hold w hw
      · exact hne.symm
    tracked := hworkers ▸ hwrites ▸ tracked_persistMessage h hnew
    stored := by
      intro w hw hphase
      obtain hw | rfl := hmem w hw
      · exact hstore ▸ h.stored w hw hphase
      · exact absurd rfl hphase }

theorem Written.step (h : Written s) (hordered : Ordered s)
    (hstep : Steps policy sessionId s t) : Written t := by
  rcases hstep with _ | _ | _ | ⟨messageId, request, requests, hrequests⟩ | ⟨turn, hmem, _, _⟩ |
    ⟨turn, hmem, text, hcompletion, _⟩ | ⟨turn, hmem, text, hcompletion, _⟩ |
    ⟨turn, hmem, text, hcompletion⟩ | ⟨turn, hmem, text, _, _⟩ |
    ⟨turn, hmem, text, hcompletion, htext, messageId, createdAt⟩ |
    ⟨i, write, hwrite, hphase, store, happended⟩ | ⟨i, write, hwrite, hphase⟩ |
    ⟨i, write, hwrite, hphase, messageWrites, hkept⟩
  · exact h.of_turns rfl rfl rfl rfl fun u hu hrunning => ⟨u, hu, rfl, hrunning⟩
  · exact h.of_turns rfl rfl rfl rfl fun u hu hrunning => ⟨u, hu, rfl, hrunning⟩
  · exact h.of_turns rfl rfl rfl rfl fun u hu hrunning => ⟨u, hu, rfl, hrunning⟩
  · -- the places of a new turn are new
    have hfresh : ∀ w ∈ s.workers, w.record.sequence ≠ s.messageSequence + 1 := fun w hw =>
      (Nat.lt_succ_of_le (h.sequences_le w hw)).ne
    refine h.persistMessage hfresh (fun u hu hrunning => ?_) rfl rfl rfl
      (Nat.le_add_right _ 2) (Nat.le_succ _)
    obtain rfl | ⟨hu, -⟩ := Keyed.mem_insert.mp hu
    · exact ⟨(Nat.succ_ne_self _), fun w hw =>
        (Nat.lt_of_le_of_lt (h.sequences_le w hw) (Nat.lt_add_of_pos_right (by decide))).ne⟩
    · exact ⟨(Nat.lt_succ_of_le (hordered.sequences u hu).2).ne, h.replies_new u hu hrunning⟩
  · exact h.of_insert hmem rfl rfl (fun hrunning => hrunning) rfl rfl rfl rfl
  · exact h.of_insert hmem rfl rfl (fun _ _ heq => nomatch hcompletion.symm.trans heq)
      rfl rfl rfl rfl
  · exact h.of_insert hmem rfl rfl (fun _ _ heq => nomatch hcompletion.symm.trans heq)
      rfl rfl rfl rfl
  · exact h.of_insert hmem rfl rfl (fun _ _ heq => nomatch hcompletion.symm.trans heq)
      rfl rfl rfl rfl
  · exact h.of_insert hmem rfl rfl (fun hrunning => absurd rfl (hrunning text)) rfl rfl rfl rfl
  · have hrunning : ∀ text, turn.completion ≠ .completed text := fun _ heq =>
      nomatch hcompletion.symm.trans heq
    refine h.persistMessage (h.replies_new turn hmem hrunning)
      (fun u hu hrunning => ?_) rfl rfl rfl le_rfl (hordered.sequences turn hmem).2
    obtain rfl | ⟨hu, hne⟩ := Keyed.mem_insert.mp hu
    · exact absurd rfl (hrunning text)
    · refine ⟨fun heq => hne ?_, h.replies_new u hu hrunning⟩
      have hu' := (hordered.sequences u hu).1
      have hturn' := (hordered.sequences turn hmem).1
      change u.assistantSequence = turn.assistantSequence at heq
      change u.userSequence = turn.userSequence
      omega
  · obtain ⟨hstored, hstore⟩ := append_extends happended
    exact h.setWorker hwrite (fun heq => nomatch hphase.symm.trans heq) hstored hstore
  · refine h.setWorker hwrite (fun heq => nomatch hphase.symm.trans heq) ?_ fun r hr => hr
    exact h.stored write (List.mem_of_getElem? hwrite) fun heq => nomatch hphase.symm.trans heq
  · exact {
      sequences_le := h.sequences_le
      replies_new := h.replies_new
      tracked := by
        intro j w hw hrunning
        obtain heq | hmem := hkept _ (h.tracked j w hw hrunning)
        · obtain rfl : j = i := congrArg Prod.snd heq
          obtain rfl := Option.some.inj (hwrite.symm.trans hw)
          exact absurd hphase hrunning
        · exact hmem
      stored := h.stored }

/-! ### The lock -/

/-- A turn that publishes, or whose utterance is in the outbox and whose reply is not
registered. -/
def Completion.Holding : Completion → Prop
  | .running | .completed _ | .refused => False
  | .publishing _ | .admitted _ => True

/-- **A turn that completes holds the lock.** -/
def Locked (s : ConversationStorage) : Prop :=
  ∀ t ∈ s.turns, Completion.Holding t.completion → s.lock = some t.userSequence

/-- The lock is released by the turn that held it. -/
theorem Locked.release (h : Locked s) (hmem : turn ∈ s.turns)
    {turn' : ForegroundTurn} (hturns : t.turns = s.turns.insert turn')
    (hholding : Completion.Holding turn.completion)
    (hkey : turn'.userSequence = turn.userSequence) (hfree : ¬Completion.Holding turn'.completion) :
    Locked t := by
  intro u hu huholding
  rw [hturns] at hu
  obtain rfl | ⟨hu, hne⟩ := Keyed.mem_insert.mp hu
  · exact absurd huholding hfree
  · have hsame := (h u hu huholding).symm.trans (h turn hmem hholding)
    exact absurd ((Option.some.inj hsame).trans hkey.symm) hne

/-- A turn goes on that does not change its part of the lock. -/
theorem Locked.of_insert (h : Locked s) (hmem : turn ∈ s.turns) {turn' : ForegroundTurn}
    (hturns : t.turns = s.turns.insert turn') (hkey : turn'.userSequence = turn.userSequence)
    (hholding : Completion.Holding turn'.completion → Completion.Holding turn.completion)
    (hlock : t.lock = s.lock) : Locked t := by
  intro u hu huholding
  rw [hturns] at hu
  rw [hlock]
  obtain rfl | ⟨hu, -⟩ := Keyed.mem_insert.mp hu
  · exact hkey ▸ h turn hmem (hholding huholding)
  · exact h u hu huholding

theorem Locked.step (h : Locked s) (hstep : Steps policy sessionId s t) : Locked t := by
  rcases hstep with _ | _ | _ | _ | ⟨turn, hmem, _, _⟩ | ⟨turn, hmem, text, hcompletion, hlock⟩ |
    ⟨turn, hmem, text, hcompletion, _⟩ | ⟨turn, hmem, text, hcompletion⟩ |
    ⟨turn, hmem, text, hcompletion, _⟩ | ⟨turn, hmem, text, hcompletion, _, _, _⟩ | _ | _ | _
  · exact h
  · exact h
  · exact h
  · intro u hu huholding
    obtain rfl | ⟨hu, -⟩ := Keyed.mem_insert.mp hu
    · exact huholding.elim
    · exact h u hu huholding
  · exact h.of_insert hmem rfl rfl (fun hholding => hholding) rfl
  · intro u hu huholding
    obtain rfl | ⟨hu, -⟩ := Keyed.mem_insert.mp hu
    · rfl
    · exact nomatch hlock.symm.trans (h u hu huholding)
  · exact h.of_insert hmem rfl rfl (fun _ => hcompletion ▸ trivial) rfl
  · exact h.release hmem rfl (hcompletion ▸ trivial) rfl id
  · exact h.release hmem rfl (hcompletion ▸ trivial) rfl id
  · exact h.release hmem rfl (hcompletion ▸ trivial) rfl id
  · exact h
  · exact h
  · exact h

/-! ### Replies -/

/-- A message is the reply of a turn. -/
structure IsReply (turn : ForegroundTurn) (text : Text) (record : MessageRecord) : Prop where
  sequence : record.sequence = turn.assistantSequence
  role : record.role = .assistant
  content : record.content = strip text

/-- **A turn that is completed has registered its reply**, unless it is blank. -/
def Replied (s : ConversationStorage) : Prop :=
  ∀ t ∈ s.turns, ∀ text, t.completion = .completed text → strip text ≠ [] →
    ∃ w ∈ s.workers, IsReply t text w.record

theorem Extends.exists_worker (h : Extends s t) {P : MessageRecord → Prop}
    (hs : ∃ w ∈ s.workers, P w.record) : ∃ w ∈ t.workers, P w.record := by
  obtain ⟨w, hw, hP⟩ := hs
  obtain ⟨i, hi⟩ := List.mem_iff_getElem?.mp hw
  obtain ⟨w', hw', hrecord⟩ := h.workers i w hi
  exact ⟨w', List.mem_of_getElem? hw', hrecord ▸ hP⟩

/-- A turn that is completed was completed, and has what it had. -/
theorem Replied.of_turns (h : Replied s) (hextends : Extends s t)
    (hturns : ∀ u ∈ t.turns, ∀ text, u.completion = .completed text → strip text ≠ [] →
      (∃ v ∈ s.turns, v.assistantSequence = u.assistantSequence ∧ v.completion = .completed text) ∨
        ∃ w ∈ t.workers, IsReply u text w.record) : Replied t := by
  intro u hu text hcompletion htext
  obtain ⟨v, hv, hassistant, hv'⟩ | hreply := hturns u hu text hcompletion htext
  · refine hextends.exists_worker (P := fun record => IsReply u text record) ?_
    obtain ⟨w, hw, hreply⟩ := h v hv text hv' htext
    exact ⟨w, hw, hassistant ▸ hreply.sequence, hreply.role, hreply.content⟩
  · exact hreply

theorem Replied.step (h : Replied s) (hstep : Steps policy sessionId s t) : Replied t := by
  have hextends := hstep.extends
  -- a turn that is put in the place of one, and is not completed by this
  have hinsert : ∀ {turn turn' : ForegroundTurn}, t.turns = s.turns.insert turn' →
      turn ∈ s.turns → turn'.assistantSequence = turn.assistantSequence →
      (∀ text, turn'.completion = .completed text → strip text ≠ [] →
        turn.completion = .completed text) → Replied t := by
    intro turn turn' hturns hmem hassistant hcompletion
    refine h.of_turns hextends fun u hu text hu' htext => .inl ?_
    rw [hturns] at hu
    obtain rfl | ⟨hu, -⟩ := Keyed.mem_insert.mp hu
    · exact ⟨turn, hmem, hassistant.symm, hcompletion text hu' htext⟩
    · exact ⟨u, hu, rfl, hu'⟩
  have hsame : t.turns = s.turns → Replied t := fun hturns =>
    h.of_turns hextends fun u hu text hu' _ => .inl ⟨u, hturns ▸ hu, rfl, hu'⟩
  rcases hstep with _ | _ | _ | _ | ⟨turn, hmem, _, _⟩ | ⟨turn, hmem, _, _, _⟩ |
    ⟨turn, hmem, _, _, _⟩ | ⟨turn, hmem, _, _⟩ | ⟨turn, hmem, text, _, hblank⟩ |
    ⟨turn, hmem, text, _, htext, messageId, createdAt⟩ | _ | _ | _
  · exact hsame rfl
  · exact hsame rfl
  · exact hsame rfl
  · refine h.of_turns hextends fun u hu text hu' _ => .inl ?_
    obtain rfl | ⟨hu, -⟩ := Keyed.mem_insert.mp hu
    · cases hu'
    · exact ⟨u, hu, rfl, hu'⟩
  · exact hinsert rfl hmem rfl fun _ hcompletion _ => hcompletion
  · exact hinsert rfl hmem rfl nofun
  · exact hinsert rfl hmem rfl nofun
  · exact hinsert rfl hmem rfl nofun
  · refine hinsert rfl hmem rfl fun text' hcompletion htext => ?_
    obtain rfl : text = text' := Completion.completed.inj hcompletion
    exact absurd hblank htext
  · refine h.of_turns hextends fun u hu text' hu' htext' => ?_
    obtain rfl | ⟨hu, -⟩ := Keyed.mem_insert.mp hu
    · obtain rfl : text = text' := Completion.completed.inj hu'
      exact .inr ⟨_, List.mem_append_right _ (List.mem_singleton_self _), rfl, rfl, rfl⟩
    · exact .inl ⟨u, hu, rfl, hu'⟩
  · exact hsame rfl
  · exact hsame rfl
  · exact hsame rfl

/-! ### What a load has -/

/-- What holds of the load of a turn: what had been registered is in the store or is waited for,
and then it is in the store that was read. -/
def Sound (policy : RecentConversationHistoryPolicy) (sessionId : Text)
    (s : ConversationStorage) (turn : ForegroundTurn) : HistoryLoad → Prop
  | .accepted | .spawned => True
  | .waiting priorWrites registered => ∀ r ∈ registered, r ∈ s.store.messages ∨
      ∃ i ∈ priorWrites, ∃ w, s.workers[i]? = some w ∧ w.record = r
  | .reading registered => ∀ r ∈ registered, r ∈ s.store.messages
  | .fetched records source =>
    source.store.listRecentBefore sessionId turn.userSequence policy.fetchLimit = .ok records ∧
      ∀ r ∈ source.registered, r ∈ source.store.messages
  | .loaded history none => history = {}
  | .loaded history (some source) => (∃ records,
      source.store.listRecentBefore sessionId turn.userSequence policy.fetchLimit = .ok records ∧
      history = policy.compile records sessionId turn.generation) ∧
      ∀ r ∈ source.registered, r ∈ source.store.messages

theorem Sound.mono {load : HistoryLoad} (h : Sound policy sessionId s turn load)
    (hextends : Extends s t) : Sound policy sessionId t turn load := by
  rcases load with _ | _ | ⟨priorWrites, registered⟩ | registered | _ | ⟨history, _ | source⟩
  · trivial
  · trivial
  · intro r hr
    refine (h r hr).imp (hextends.store r) ?_
    rintro ⟨i, hi, w, hw, rfl⟩
    obtain ⟨w', hw', hrecord⟩ := hextends.workers i w hw
    exact ⟨i, hi, w', hw', hrecord⟩
  · exact fun r hr => hextends.store r (h r hr)
  · exact h
  · exact h
  · exact h

theorem isDone_iff {i : ℕ} {w : MessageWrite} (hw : s.workers[i]? = some w) :
    s.isDone i = true ↔ w.phase = .done := by
  rw [isDone, hw, Option.any_some, decide_eq_true_eq]

/-- What is registered is in the store, or its worker is one that the load waits for. -/
theorem Written.registered (h : Written s) {beforeSequence : ℕ} {r : MessageRecord}
    (hr : r ∈ s.registered beforeSequence) : r ∈ s.store.messages ∨
      ∃ i ∈ s.priorWrites beforeSequence, ∃ w, s.workers[i]? = some w ∧ w.record = r := by
  obtain ⟨hr, hbefore⟩ := List.mem_filter.mp hr
  obtain ⟨w, hw, rfl⟩ := List.mem_map.mp hr
  obtain ⟨i, hi⟩ := List.mem_iff_getElem?.mp hw
  by_cases hdone : w.phase = .done
  · exact .inl (h.stored w hw fun heq => nomatch hdone.symm.trans heq)
  · have hpending : s.isDone i = false := by
      rw [← Bool.not_eq_true, isDone_iff hi]
      exact hdone
    refine .inr ⟨i, List.mem_map.mpr ⟨(w.record.sequence, i), ?_, rfl⟩, w, hi, rfl⟩
    refine List.mem_filter.mpr ⟨h.tracked i w hi hdone, ?_⟩
    rw [hpending, Bool.not_false, Bool.and_true]
    exact hbefore

theorem Sound.loads (hsound : Sound policy sessionId s turn turn.load) (hwritten : Written s)
    {load : HistoryLoad} (h : Loads policy sessionId s turn load) :
    Sound policy sessionId s turn load := by
  rcases h with _ | _ | hlock | ⟨priorWrites, registered, hload, hdone⟩ |
    ⟨registered, records, hload, hrecords⟩ | ⟨records, source, hload⟩
  · trivial
  · rfl
  · exact fun r hr => hwritten.registered hr
  · rw [hload] at hsound
    intro r hr
    obtain hstored | ⟨i, hi, w, hw, rfl⟩ := hsound r hr
    · exact hstored
    · have hphase := (isDone_iff hw).mp (hdone i hi)
      exact hwritten.stored w (List.mem_of_getElem? hw) fun heq => nomatch hphase.symm.trans heq
  · rw [hload] at hsound
    exact ⟨hrecords, hsound⟩
  · rw [hload] at hsound
    exact ⟨⟨records, hsound.1, rfl⟩, hsound.2⟩

/-- What a load is told of a turn: the places and the generation. -/
theorem Sound.of_turn {turn' : ForegroundTurn} {load : HistoryLoad}
    (h : Sound policy sessionId s turn load) (huser : turn'.userSequence = turn.userSequence)
    (hgeneration : turn'.generation = turn.generation) :
    Sound policy sessionId s turn' load := by
  rcases load with _ | _ | _ | _ | ⟨records, source⟩ | ⟨history, _ | source⟩
  · trivial
  · trivial
  · exact h
  · exact h
  · rw [Sound, huser]
    exact h
  · exact h
  · rw [Sound, huser, hgeneration]
    exact h

/-- All loads. -/
def Loading (policy : RecentConversationHistoryPolicy) (sessionId : Text)
    (s : ConversationStorage) : Prop :=
  ∀ t ∈ s.turns, Sound policy sessionId s t t.load

theorem Loading.step (h : Loading policy sessionId s) (hwritten : Written s)
    (hstep : Steps policy sessionId s t) : Loading policy sessionId t := by
  have hextends := hstep.extends
  -- the turn that is put has a sound load, in the old state
  have hinsert : ∀ {turn' : ForegroundTurn}, t.turns = s.turns.insert turn' →
      Sound policy sessionId s turn' turn'.load → Loading policy sessionId t := by
    intro turn' hturns hsound u hu
    rw [hturns] at hu
    obtain rfl | ⟨hu, -⟩ := Keyed.mem_insert.mp hu
    · exact hsound.mono hextends
    · exact (h u hu).mono hextends
  have hsame : t.turns = s.turns → Loading policy sessionId t := fun hturns u hu =>
    (h u (hturns ▸ hu)).mono hextends
  rcases hstep with _ | _ | _ | _ | ⟨turn, hmem, load, hloads⟩ | ⟨turn, hmem, _, _, _⟩ |
    ⟨turn, hmem, _, _, _⟩ | ⟨turn, hmem, _, _⟩ | ⟨turn, hmem, _, _, _⟩ |
    ⟨turn, hmem, _, _, _, _, _⟩ | _ | _ | _
  · exact hsame rfl
  · exact hsame rfl
  · exact hsame rfl
  · exact hinsert rfl trivial
  · exact hinsert rfl (((h turn hmem).loads hwritten hloads).of_turn rfl rfl)
  · exact hinsert rfl ((h turn hmem).of_turn rfl rfl)
  · exact hinsert rfl ((h turn hmem).of_turn rfl rfl)
  · exact hinsert rfl ((h turn hmem).of_turn rfl rfl)
  · exact hinsert rfl ((h turn hmem).of_turn rfl rfl)
  · exact hinsert rfl ((h turn hmem).of_turn rfl rfl)
  · exact hsame rfl
  · exact hsame rfl
  · exact hsame rfl

/-! ### Earlier replies -/

/-- **What a load has seen registered has the replies of the earlier turns**: those that are
admitted when it looks, and no other is afterwards. -/
def Heard (s : ConversationStorage) : Prop :=
  ∀ t ∈ s.turns, ∀ registered, t.load.registered? = some registered → ∀ e ∈ s.turns,
    e.userSequence < t.userSequence → ∀ text, e.completion.admitted? = some text →
      strip text ≠ [] → ∃ r ∈ registered, IsReply e text r

/-- The turns have seen what they had, and are admitted if they were. -/
theorem Heard.of_turns (h : Heard s)
    (hturns : ∀ u ∈ t.turns, (∃ v ∈ s.turns, v.userSequence = u.userSequence ∧
      v.assistantSequence = u.assistantSequence ∧
      (u.load.registered? = none ∨ u.load.registered? = v.load.registered?) ∧
      (u.completion.admitted? = none ∨ u.completion.admitted? = v.completion.admitted?)) ∨
      (u.load.registered? = none ∧ u.completion.admitted? = none)) : Heard t := by
  intro u hu registered hregistered e he hlt text hadmitted htext
  obtain ⟨v, hv, huser, -, hload, -⟩ | ⟨hnone, -⟩ := hturns u hu
  · obtain ⟨e', he', heuser, heassistant, -, hcompletion⟩ | ⟨-, hnone⟩ := hturns e he
    · have hv' := (hload.resolve_left fun hnone => nomatch hnone.symm.trans hregistered).symm.trans
        hregistered
      have he'' := (hcompletion.resolve_left fun hnone =>
        nomatch hnone.symm.trans hadmitted).symm.trans hadmitted
      obtain ⟨r, hr, hreply⟩ := h v hv registered hv' e' he' (huser ▸ heuser ▸ hlt) text he'' htext
      exact ⟨r, hr, hreply.sequence.trans heassistant, hreply.role, hreply.content⟩
    · exact nomatch hnone.symm.trans hadmitted
  · exact nomatch hnone.symm.trans hregistered

/-- A turn goes on, with what it has seen and what it has said. -/
theorem Heard.of_insert (h : Heard s) (hmem : turn ∈ s.turns) {turn' : ForegroundTurn}
    (hturns : t.turns = s.turns.insert turn') (huser : turn.userSequence = turn'.userSequence)
    (hassistant : turn.assistantSequence = turn'.assistantSequence)
    (hload : turn'.load.registered? = none ∨
      turn'.load.registered? = turn.load.registered?)
    (hcompletion : turn'.completion.admitted? = none ∨
      turn'.completion.admitted? = turn.completion.admitted?) : Heard t := by
  refine h.of_turns fun u hu => .inl ?_
  rw [hturns] at hu
  obtain rfl | ⟨hu, -⟩ := Keyed.mem_insert.mp hu
  · exact ⟨turn, hmem, huser, hassistant, hload, hcompletion⟩
  · exact ⟨u, hu, rfl, rfl, .inr rfl, .inr rfl⟩

/-- The load of a turn looks. -/
theorem Heard.looked (h : Heard s) (hordered : Ordered s) (hlocked : Locked s)
    (hreplied : Replied s) (hmem : turn ∈ s.turns) (hlock : s.lock = none)
    (priorWrites : List ℕ) :
    Heard (s.setTurn { turn with
      load := .waiting priorWrites (s.registered turn.userSequence) }) := by
  intro u hu registered hregistered e he hlt text hadmitted htext
  -- the turn before it, as it was
  obtain ⟨e', he', heuser, heassistant, hcompletion⟩ : ∃ e' ∈ s.turns,
      e'.userSequence = e.userSequence ∧ e'.assistantSequence = e.assistantSequence ∧
        e'.completion = e.completion := by
    obtain rfl | ⟨he, -⟩ := mem_setTurn.mp he
    · exact ⟨turn, hmem, rfl, rfl, rfl⟩
    · exact ⟨e, he, rfl, rfl, rfl⟩
  rw [← hcompletion] at hadmitted
  obtain rfl | ⟨hu, -⟩ := mem_setTurn.mp hu
  · obtain rfl : s.registered turn.userSequence = registered := Option.some.inj hregistered
    have hcompleted : e'.completion = .completed text := by
      rcases hphase : e'.completion with _ | _ | text' | text' | _
      · exact nomatch hphase ▸ hadmitted
      · exact nomatch hphase ▸ hadmitted
      · exact nomatch hlock.symm.trans (hlocked e' he' (hphase ▸ trivial))
      · rw [hphase] at hadmitted
        exact congrArg _ (Option.some.inj hadmitted)
      · exact nomatch hphase ▸ hadmitted
    obtain ⟨w, hw, hreply⟩ := hreplied e' he' text hcompleted htext
    refine ⟨w.record, List.mem_filter.mpr ⟨List.mem_map_of_mem hw, decide_eq_true ?_⟩,
      hreply.sequence.trans heassistant, hreply.role, hreply.content⟩
    rw [hreply.sequence]
    exact hordered.spaced e' he' turn hmem (heuser ▸ hlt)
  · obtain ⟨r, hr, hreply⟩ := h u hu registered hregistered e' he' (heuser ▸ hlt) text hadmitted
      htext
    exact ⟨r, hr, hreply.sequence.trans heassistant, hreply.role, hreply.content⟩

theorem Heard.step (h : Heard s) (hordered : Ordered s) (hlocked : Locked s)
    (hreplied : Replied s) (hstep : Steps policy sessionId s t) : Heard t := by
  rcases hstep with _ | _ | _ | _ | ⟨turn, hmem, load, hloads⟩ |
    ⟨turn, hmem, text, hcompletion, _⟩ | ⟨turn, hmem, text, hcompletion, hcurrent⟩ |
    ⟨turn, hmem, text, hcompletion⟩ | ⟨turn, hmem, text, hcompletion, _⟩ |
    ⟨turn, hmem, text, hcompletion, _, _, _⟩ | _ | _ | _
  · exact h
  · exact h
  · exact h
  · refine h.of_turns fun u hu => ?_
    obtain rfl | ⟨hu, -⟩ := Keyed.mem_insert.mp hu
    · exact .inr ⟨rfl, rfl⟩
    · exact .inl ⟨u, hu, rfl, rfl, .inr rfl, .inr rfl⟩
  · rcases hloads with _ | _ | hlock | ⟨priorWrites, registered, hload, _⟩ |
      ⟨registered, records, hload, _⟩ | ⟨records, source, hload⟩
    · exact h.of_insert hmem rfl rfl rfl (.inl rfl) (.inr rfl)
    · exact h.of_insert hmem rfl rfl rfl (.inl rfl) (.inr rfl)
    · exact h.looked hordered hlocked hreplied hmem hlock _
    · exact h.of_insert hmem rfl rfl rfl (.inr (hload ▸ rfl)) (.inr rfl)
    · exact h.of_insert hmem rfl rfl rfl (.inr (hload ▸ rfl)) (.inr rfl)
    · exact h.of_insert hmem rfl rfl rfl (.inr (hload ▸ rfl)) (.inr rfl)
  · exact h.of_insert hmem rfl rfl rfl (.inr rfl) (.inl rfl)
  · -- whoever comes after this turn has a generation that is not current yet
    intro u hu registered hregistered e he hlt text' hadmitted htext
    obtain ⟨u', hu', huser, hload⟩ : ∃ u' ∈ s.turns, u'.userSequence = u.userSequence ∧
        u'.load = u.load := by
      obtain rfl | ⟨hu, -⟩ := mem_setTurn.mp hu
      · exact ⟨turn, hmem, rfl, rfl⟩
      · exact ⟨u, hu, rfl, rfl⟩
    obtain rfl | ⟨he, -⟩ := mem_setTurn.mp he
    · have hlater := hordered.turns turn hmem u' hu' (huser ▸ hlt)
      exact absurd (hordered.turns_le u' hu') (hcurrent ▸ hlater).not_ge
    · exact h u' hu' registered (hload ▸ hregistered) e he (huser ▸ hlt) text' hadmitted htext
  · exact h.of_insert hmem rfl rfl rfl (.inr rfl) (.inl rfl)
  · exact h.of_insert hmem rfl rfl rfl (.inr rfl) (.inr (hcompletion ▸ rfl))
  · exact h.of_insert hmem rfl rfl rfl (.inr rfl) (.inr (hcompletion ▸ rfl))
  · exact h
  · exact h
  · exact h

/-! ### Runs -/

/-- All that holds of the states of a run. -/
structure Coherent (policy : RecentConversationHistoryPolicy) (sessionId : Text)
    (s : ConversationStorage) : Prop where
  ordered : Ordered s
  written : Written s
  locked : Locked s
  replied : Replied s
  loading : Loading policy sessionId s
  heard : Heard s

theorem Coherent.step (h : Coherent policy sessionId s) (hstep : Steps policy sessionId s t) :
    Coherent policy sessionId t where
  ordered := h.ordered.step hstep
  written := h.written.step h.ordered hstep
  locked := h.locked.step hstep
  replied := h.replied.step hstep
  loading := h.loading.step h.written hstep
  heard := h.heard.step h.ordered h.locked h.replied hstep

theorem coherent_of_started (h : Started s) : Coherent policy sessionId s := by
  have hturns : ∀ u, u ∉ s.turns := fun u hu => Keyed.not_mem_empty (h.turns ▸ hu)
  have hrequests : ∀ r, r ∉ s.requests := fun r hr => List.not_mem_nil (h.requests ▸ hr)
  have hworkers : ∀ w, w ∉ s.workers := fun w hw => List.not_mem_nil (h.workers ▸ hw)
  exact {
    ordered := {
      turns := fun u hu => absurd hu (hturns u)
      requests := h.requests ▸ List.Pairwise.nil
      turns_requests := fun u hu => absurd hu (hturns u)
      turns_le := fun u hu => absurd hu (hturns u)
      requests_le := fun r hr => absurd hr (hrequests r)
      turns_lt := fun _ u hu => absurd hu (hturns u)
      requests_lt := fun _ r hr => absurd hr (hrequests r)
      spaced := fun u hu => absurd hu (hturns u)
      sequences := fun u hu => absurd hu (hturns u) }
    written := {
      sequences_le := fun w hw => absurd hw (hworkers w)
      replies_new := fun u hu => absurd hu (hturns u)
      tracked := fun i w hw => absurd (List.mem_of_getElem? hw) (hworkers w)
      stored := fun w hw => absurd hw (hworkers w) }
    locked := fun u hu => absurd hu (hturns u)
    replied := fun u hu => absurd hu (hturns u)
    loading := fun u hu => absurd hu (hturns u)
    heard := fun u hu => absurd hu (hturns u) }

theorem coherent_of_reachable (h : (machine policy sessionId).Reachable s) :
    Coherent policy sessionId s :=
  h.invariant (fun _ hs => coherent_of_started hs) fun _ _ _ _ hcoherent _ hnext =>
    hcoherent.step (next_steps hnext)

/-- **A history reads its own session's writes.** The history that a turn has loaded, in any state
of any run, is empty, or it is compiled from a store that has every message that was registered
under an earlier place when the turn took the lock, and in particular the reply, unless it is
blank, of every earlier turn whose utterance is or was in the outbox. -/
theorem history_reads_writes (h : (machine policy sessionId).Reachable s) (hmem : turn ∈ s.turns)
    {history : RecentConversationHistory} {source : Option HistorySource}
    (hload : turn.load = .loaded history source) :
    history = {} ∨ ∃ read, source = some read ∧
      (∃ records,
        read.store.listRecentBefore sessionId turn.userSequence policy.fetchLimit = .ok records ∧
        history = policy.compile records sessionId turn.generation) ∧
      (∀ r ∈ read.registered, r ∈ read.store.messages) ∧
      ∀ earlier ∈ s.turns, earlier.userSequence < turn.userSequence → ∀ text,
        earlier.completion.admitted? = some text → strip text ≠ [] →
        ∃ r ∈ read.store.messages, IsReply earlier text r := by
  have hcoherent := coherent_of_reachable h
  have hsound := hcoherent.loading turn hmem
  rw [hload] at hsound
  rcases source with _ | read
  · exact .inl hsound
  · refine .inr ⟨read, rfl, hsound.1, hsound.2, fun earlier hearlier hlt text hadmitted htext => ?_⟩
    obtain ⟨r, hr, hreply⟩ := hcoherent.heard turn hmem read.registered (hload ▸ rfl) earlier
      hearlier hlt text hadmitted htext
    exact ⟨r, hsound.2 r hr, hreply⟩

/-- A session of which nothing is stored yet. -/
def opened : ConversationStorage where
  generation := 0
  placed := true
  requests := []
  messageSequence := 0
  turns := ∅
  lock := none
  workers := []
  messageWrites := ∅
  store := ⟨["session".toList], ∅⟩

/-- A request of the owner. -/
def ask (generation : ℕ) : RequestedTurn where
  generation := generation
  turnId := "turn".toList
  text := "tea?".toList
  inputModality := "text".toList
  utteranceId := none
  eventId := "event".toList
  actorId := none
  occurredAt := Datetime.morning
  text_not_blank := by decide

/-- A turn is answered, and the next one loads the history while both messages are written. -/
def twoTurns : List Label :=
  [.advance, .enqueue (ask 1), .accept "m1".toList, .spawn 1, .load 1, .proceed 1, .read 1,
    .compile 1, .complete 1 "green".toList, .publish 1,
    .register 1 "m2".toList (ask 1).occurredAt, .advance, .enqueue (ask 2), .accept "m3".toList,
    .spawn 3, .load 3, .commit 1, .done 1, .commit 0, .done 0, .discard 1, .proceed 3, .read 3,
    .compile 3]

/-- The session after some steps. -/
def after (steps : List Label) : ConversationStorage :=
  ((machine {} "session".toList).run opened steps).getD opened

/-- The session after the two turns. -/
def answered : ConversationStorage := after twoTurns

theorem answered_reachable : (machine {} "session".toList).Reachable answered := by
  have hstart : (machine {} "session".toList).start opened := ⟨rfl, rfl, rfl, rfl, rfl, rfl, rfl⟩
  have hsome : ((machine {} "session".toList).run opened twoTurns).isSome = true := by decide
  obtain ⟨s, hs⟩ := Option.isSome_iff_exists.mp hsome
  rw [answered, after, hs]
  exact Machine.reachable_of_run hstart hs

/-- The second turn. -/
theorem history_reads_writes_answered :
    ∃ turn ∈ answered.turns, ∃ history source, turn.load = .loaded history source ∧
      (history = {} ∨ ∃ read, source = some read ∧
        (∃ records, read.store.listRecentBefore "session".toList turn.userSequence
            (RecentConversationHistoryPolicy.fetchLimit {}) = .ok records ∧
          history = RecentConversationHistoryPolicy.compile {} records "session".toList
            turn.generation) ∧
        (∀ r ∈ read.registered, r ∈ read.store.messages) ∧
        ∀ earlier ∈ answered.turns, earlier.userSequence < turn.userSequence → ∀ text,
          earlier.completion.admitted? = some text → strip text ≠ [] →
          ∃ r ∈ read.store.messages, IsReply earlier text r) := by
  have hsome : (answered.turns.find? 3).isSome = true := by decide
  obtain ⟨turn, hturn⟩ := Option.isSome_iff_exists.mp hsome
  have hmem := (Keyed.find?_eq_some.mp hturn).1
  have hloaded : (answered.turns.find? 3).all (·.load.isRead) = true := by decide
  rw [hturn, Option.all_some] at hloaded
  obtain ⟨history, source, hload⟩ := HistoryLoad.isRead_iff.mp hloaded
  exact ⟨turn, hmem, history, some source, hload,
    history_reads_writes answered_reachable hmem hload⟩

end ConversationStorage

end Eeveetuber
