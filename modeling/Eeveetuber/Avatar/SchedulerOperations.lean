import Mathlib.Data.List.ReduceOption
import Eeveetuber.Avatar.SchedulerSteps

/-!
# The operations, effect by effect

`Eeveetuber.PresentationScheduler.triple_perform` puts the methods of
`Eeveetuber.PresentationScheduler.Effect`'s module together: whatever operation
is called, it takes the scheduler from effect to effect, returns the events it
built, and turns a cue away for its priority only when an active lease that is
not over stands in its way at that moment.

An operation that gets as far as reading the clock ends with a restoration of
neutral cues, unless it disconnects. What such a restoration establishes is a
parameter, `J`, of the statement; the properties of neutral recovery fill it in.
-/

namespace Eeveetuber.PresentationScheduler

open Foundation Foundation.Stateful

variable {op : SchedulerOperation} {now : ℚ} {s t u : PresentationScheduler}
  {lease : ActiveLease} {cue : PresentationCue} {es more : List PresentationEvent}

/-! ### Active leases after an effect -/

theorem mem_begun_active : lease ∈ (s.begun (.grant cue now) now).active ↔
    lease = .grant cue now ∨ lease ∈ s.active ∧ lease.cue.cueId ≠ cue.cueId :=
  Keyed.mem_insert

theorem launched_active :
    (s.launched cue now).active = ((s.preempted cue now).begun (.grant cue now) now).active := by
  rw [launched]
  split
  · rfl
  · rfl

/-- **Where active leases come from.** -/
theorem Effect.mem_active (h : Effect op now s t) (hl : lease ∈ t.active) :
    lease ∈ s.active ∨ (∃ cue, Ready op now s cue ∧ lease = .grant cue now) ∨
      ∃ cue factory n, s.neutralFactory = some factory ∧
        factory n cue.layer s.generation now = .ok cue ∧ cue.generation = s.generation ∧
        cue.neutral = true ∧ lease = .indefinite cue now := by
  rcases h with _ | _ | _ | _ | _ | _ | ⟨hready, -, -, -, -, -⟩ |
    ⟨hfactory, -, hcue, hlayer, hgen, hneutral, -, -⟩ | _ | _ | _ | _ | _ | _ | _
  case expire | cancel => exact .inl (Keyed.mem_erase.mp hl).1
  case advance | reset | disconnect => exact .inl (mem_endedAll_active.mp hl).1
  case start =>
    rw [launched_active] at hl
    rcases mem_begun_active.mp hl with rfl | ⟨hl, -⟩
    · exact .inr (.inl ⟨_, hready, rfl⟩)
    · exact .inl (mem_endedAll_active.mp hl).1
  case restore =>
    subst hlayer
    rcases Keyed.mem_insert.mp hl with rfl | ⟨hl, -⟩
    · exact .inr (.inr ⟨_, _, _, hfactory, hcue, hgen, hneutral, rfl⟩)
    · exact .inl hl
  all_goals exact .inl hl

/-- **Where pending cues come from.** -/
theorem Effect.mem_pending (h : Effect op now s t) {p : PendingCue} (hp : p ∈ t.pending) :
    (∃ q ∈ s.pending, q.cue = p.cue) ∨
      op = .submit p.cue ∧ s.validateSubmission p.cue now = none := by
  rcases h with _ | _ | _ | _ | _ | _ | _ | _ | _ | _ | ⟨hop, -, hvalid, -⟩ | _ | _ | _ | _
  case advance =>
    rw [advanced, endedAll_pending] at hp
    exact absurd hp Keyed.not_mem_empty
  case reset =>
    rw [cleared] at hp
    dsimp only at hp
    rw [endedAll_pending] at hp
    exact absurd hp Keyed.not_mem_empty
  case disconnect =>
    rw [dropped, endedAll_pending] at hp
    exact absurd hp Keyed.not_mem_empty
  case start =>
    rw [launched_pending] at hp
    exact .inl ⟨p, (Keyed.mem_erase.mp hp).1, rfl⟩
  case queue =>
    rcases Keyed.mem_insert.mp hp with rfl | ⟨hp, -⟩
    · exact .inr ⟨hop, hvalid⟩
    · exact .inl ⟨p, hp, rfl⟩
  case dequeue => exact .inl ⟨p, (Keyed.mem_filter.mp hp).1, rfl⟩
  case notify =>
    rw [notified, Keyed.mem_map] at hp
    obtain ⟨q, hq, rfl⟩ := hp
    exact .inl ⟨q, hq, (bindPending_cue _ q).symm⟩
  all_goals exact .inl ⟨p, hp, rfl⟩

theorem grant_expired (cue : PresentationCue) (now : ℚ) :
    (ActiveLease.grant cue now).expired now = false := by
  rcases hl : cue.leaseS with _ | l
  · simp [ActiveLease.grant, ActiveLease.expired, hl]
  · simpa [ActiveLease.grant, ActiveLease.expired, hl] using cue.leaseS_pos l hl

/-- A swept scheduler stays so for the rest of the operation. -/
theorem Effects.swept (h : Effects op now s t) (hs : Swept now s) : Swept now t := by
  refine h.invariant hs fun u v hu hstep lease hl => ?_
  rcases hstep.mem_active hl with hl | ⟨cue, -, rfl⟩ | ⟨_, _, _, -, -, -, -, rfl⟩
  · exact hu lease hl
  · exact grant_expired cue now
  · rfl

/-! ### Cues whose audio is due -/

/-- A cue is turned away for its priority only if it is blocked, by leases that are
not over, when the operation has built the events `es`. -/
def Judged (op : SchedulerOperation) (now : ℚ) (s : PresentationScheduler)
    (es : List PresentationEvent) (result : ScheduleResult) : Prop :=
  result.status = .rejectedPriority → ∃ u, Steps op now s es u ∧ Swept now u ∧ u.Blocked result.cue

/-- The results of an operation that had built the events `es` when it came to the
first of them: each is judged after the events of those before it. -/
def JudgedInTurn (op : SchedulerOperation) (now : ℚ) (s : PresentationScheduler) :
    List PresentationEvent → List ScheduleResult → Prop
  | _, [] => True
  | es, result :: rest => Judged op now s es result ∧
      JudgedInTurn op now s (es ++ result.events) rest

theorem judgedInTurn_append {results results' : List ScheduleResult} :
    JudgedInTurn op now s es (results ++ results') ↔ JudgedInTurn op now s es results ∧
      JudgedInTurn op now s (es ++ results.flatMap (·.events)) results' := by
  induction results generalizing es with
  | nil => simp [JudgedInTurn]
  | cons result rest ih =>
    rw [List.cons_append, JudgedInTurn, JudgedInTurn, ih, List.flatMap_cons, List.append_assoc,
      and_assoc]

/-- The operation had done something before. -/
theorem Judged.earlier {result : ScheduleResult} (h : Judged op now t more result)
    (hs : Steps op now s es t) : Judged op now s (es ++ more) result := by
  intro hstatus
  obtain ⟨u, hu, hrest⟩ := h hstatus
  exact ⟨u, hs.trans hu, hrest⟩

theorem JudgedInTurn.earlier {results : List ScheduleResult}
    (h : JudgedInTurn op now t more results) (hs : Steps op now s es t) :
    JudgedInTurn op now s (es ++ more) results := by
  induction results generalizing more with
  | nil => trivial
  | cons result rest ih =>
    refine ⟨h.1.earlier hs, ?_⟩
    rw [List.append_assoc]
    exact ih h.2

/-- An operation stops what is over, and then judges its results in turn. -/
def Judges (op : SchedulerOperation) (now : ℚ) (s : PresentationScheduler)
    (results : List ScheduleResult) : Prop :=
  ∃ expired, (∀ e ∈ expired, e.kind = .stopped ∧ e.reason = some .leaseExpired) ∧
    JudgedInTurn op now s expired results

theorem Judges.nil : Judges op now s [] := ⟨[], fun _ he => absurd he List.not_mem_nil, trivial⟩

variable (op) in
/-- One round of the loop of `_start_due`. -/
theorem triple_startPending {p : PendingCue} (hdue : (p.dueAt.any fun t => t ≤ now) = true)
    (hsame : ∀ q ∈ s.pending, q.cue.cueId = p.cue.cueId → q = p) (hswept : Swept now s) :
    Triple (fun t => s = t) (startPending now p)
      (fun answer t => Steps op now s (answer.toList.flatMap (·.events)) t ∧
        (∀ q ∈ t.pending, q ∈ s.pending) ∧ ∀ result ∈ answer, Judged op now s [] result)
      fun _ => False := by
  have hpop : ∀ q ∈ (s.popped p.cue).pending, q ∈ s.pending :=
    fun q hq => (Keyed.mem_erase.mp hq).1
  rw [startPending]
  refine Triple.read ?_
  refine Triple.change ?_
  split
  · rename_i hfound
    obtain ⟨q, hq, hkey⟩ := Keyed.contains_iff.mp hfound
    have hready : Ready op now s p.cue := .inr ⟨q, hq, by rw [hsame q hq hkey], by
      rwa [hsame q hq hkey]⟩
    refine (triple_attemptStart hready).bind fun result => Triple.answer ?_
    rintro t ⟨hsteps, hpending, hcue, hblocked⟩
    refine ⟨by simpa using hsteps, by rwa [hpending], ?_⟩
    rintro _ ⟨⟩ hstatus
    exact ⟨s, .refl s, hswept, by rw [hcue]; exact hblocked hstatus⟩
  · refine Triple.answer ?_
    rintro _ rfl
    exact ⟨.silent (.dequeue _) rfl, hpop, by simp⟩

theorem mem_duePending {p : PendingCue} : p ∈ s.duePending now ↔
    p ∈ s.pending ∧ (p.dueAt.any fun t => t ≤ now) = true := by
  rw [duePending, List.mem_insertionSort, List.mem_filter, Keyed.mem_values]

variable (op) in
theorem triple_startDue (hswept : Swept now s) : Triple (fun t => s = t) (startDue now)
    (fun results t => Steps op now s (results.flatMap (·.events)) t ∧
      JudgedInTurn op now s [] results) fun _ => False := by
  rw [startDue]
  refine Triple.read ?_
  -- what is pending later was pending at the start, so a due cue is still the one of its id
  have hloop := Triple.mapM (g := startPending now) (E := fun _ => False)
    (I := fun rest answers t => Steps op now s (answers.reduceOption.flatMap (·.events)) t ∧
      (∀ q ∈ t.pending, q ∈ s.pending) ∧ (∀ p ∈ rest, p ∈ s.duePending now) ∧
      JudgedInTurn op now s [] answers.reduceOption)
    (fun p rest answers => Triple.each fun t ⟨hs, hpending, hrest, hjudged⟩ => by
      obtain ⟨hp, hdue⟩ := mem_duePending.mp (hrest p List.mem_cons_self)
      refine (triple_startPending op hdue (fun q hq hkey =>
        Keyed.eq_of_key (hpending q hq) hp hkey) (hs.1.swept hswept)).post ?_
      rintro answer u ⟨hu, hupending, hujudged⟩
      have hconcat : (answers ++ [answer]).reduceOption =
          answers.reduceOption ++ answer.toList := by
        rcases answer with _ | result
        · exact List.reduceOption_append _ _
        · exact List.reduceOption_append _ _
      rw [hconcat]
      refine ⟨?_, fun q hq => hpending q (hupending q hq),
        fun q hq => hrest q (List.mem_cons_of_mem _ hq),
        judgedInTurn_append.mpr ⟨hjudged, ?_⟩⟩
      · rw [List.flatMap_append]
        exact hs.trans hu
      · rcases answer with _ | result
        · trivial
        · have h := (hujudged result rfl).earlier hs
          rw [List.append_nil] at h
          exact ⟨h, trivial⟩)
    (s.duePending now)
  refine (hloop.pre ?_).bind fun answers => Triple.answer fun t ht => ⟨ht.1, ht.2.2.2⟩
  rintro _ rfl
  exact ⟨.refl s, fun _ => id, fun _ => id, trivial⟩

/-! ### The operations -/

/-- A property that effects preserve. -/
def Stable (op : SchedulerOperation) (now : ℚ) (I : PresentationScheduler → Prop) : Prop :=
  ∀ u v, I u → Effect op now u v → I v

theorem Stable.effects {I : PresentationScheduler → Prop} (hI : Stable op now I) (hs : I s)
    (h : Effects op now s t) : I t :=
  h.invariant hs hI

/-- Where `I` holds, restoring neutral cues establishes `J`, or `K` if it raises. -/
def Recovers (now : ℚ) (I J K : PresentationScheduler → Prop) : Prop :=
  ∀ s, I s → Triple (fun t => s = t) (restoreNeutrals now) (fun _ t => J t) K

/-- An operation that raised: it did not come to read the clock, or it was
restoring neutral cues. -/
def Failed (op : SchedulerOperation) (now : ℚ) (K : PresentationScheduler → Prop)
    (s t : PresentationScheduler) : Prop :=
  Effects op now s t ∧ (op.readsClock s = false ∧ s = t ∨ K t)

theorem Failed.refl {K : PresentationScheduler → Prop} (h : op.readsClock s = false) :
    Failed op now K s s :=
  ⟨.refl, .inl ⟨h, rfl⟩⟩

/-- What an operation leaves behind: if it read the clock, a scheduler that is
disconnected or has had its neutral cues restored, and else the one it found. -/
def Leaves (op : SchedulerOperation) (J : PresentationScheduler → Prop)
    (s t : PresentationScheduler) : Prop :=
  if op.readsClock s then t.connected = false ∨ J t else s = t

theorem Leaves.restored {J : PresentationScheduler → Prop} (h : op.readsClock s = true)
    (hj : J t) : Leaves op J s t := by
  rw [Leaves, if_pos h]
  exact .inr hj

theorem Leaves.offline {J : PresentationScheduler → Prop} (h : op.readsClock s = true)
    (hc : t.connected = false) : Leaves op J s t := by
  rw [Leaves, if_pos h]
  exact .inl hc

theorem Leaves.refl {J : PresentationScheduler → Prop} (h : op.readsClock s = false) :
    Leaves op J s s := by
  rw [Leaves, h]
  exact rfl

section Operations

variable {I J K : PresentationScheduler → Prop}

/-- The restoration that ends an operation. -/
theorem triple_restored (hI : Stable op now I) (hJ : Recovers now I J K) (hs : I s)
    (hsteps : Steps op now s es t) :
    Triple (fun u => t = u) (restoreNeutrals now)
      (fun more u => Steps op now s (es ++ more) u ∧ Effects op now t u ∧ J u)
      (Failed op now K s) :=
  ((triple_restoreNeutrals op).and (hJ t (hI.effects hs hsteps.1))).weaken
    (fun _ => id) (fun _ _ h => ⟨hsteps.trans h.1, h.1.1, h.2⟩)
    fun _ h => ⟨hsteps.1.trans h.1, .inr h.2⟩

theorem triple_submitNow (hI : Stable op now I) (hJ : Recovers now I J K) (hs : I s)
    (hsteps : Steps op now s es t) (hswept : Swept now t) (hready : Ready op now t cue) :
    Triple (fun u => t.popped cue = u) (submitNow es cue now)
      (fun result u => Steps op now s result.events u ∧ Judged op now s es result ∧ J u)
      (Failed op now K s) := by
  rw [submitNow]
  refine Triple.bind (triple_attemptStart hready).never fun result => Triple.each ?_
  rintro v ⟨hv, -, hcue, hblocked⟩
  refine (triple_restored hI hJ hs (hsteps.trans hv)).bind fun restored => Triple.answer ?_
  rintro w ⟨hw, hvw, hj⟩
  refine ⟨hw, fun hstatus => ?_, hj⟩
  exact ⟨t, hsteps, hswept, by rw [hcue]; exact hblocked hstatus⟩

/-- What a submitted cue is validated for. -/
theorem validateSubmission_eq_none (h : s.validateSubmission cue now = none) :
    s.connected = true ∧ cue.generation = s.generation ∧ cue.expired now = false ∧
      (∀ lease ∈ s.active, lease.cue.cueId ≠ cue.cueId) ∧
      ∀ p ∈ s.pending, p.cue.cueId ≠ cue.cueId := by
  rw [validateSubmission] at h
  split at h
  · cases h
  rename_i hconn
  split at h
  · cases h
  rename_i hold
  split at h
  · cases h
  rename_i hnew
  split at h
  · cases h
  rename_i hexp
  split at h
  · cases h
  rename_i hdup
  rw [Bool.or_eq_true, not_or] at hdup
  refine ⟨by simpa using hconn, by omega, by simpa using hexp, fun lease hl hid => ?_,
    fun p hp hid => ?_⟩
  · exact hdup.1 (Keyed.contains_iff.mpr ⟨lease, hl, hid⟩)
  · exact hdup.2 (Keyed.contains_iff.mpr ⟨p, hp, hid⟩)

theorem popped_eq_self (h : ∀ p ∈ s.pending, p.cue.cueId ≠ cue.cueId) : s.popped cue = s := by
  rw [popped, Keyed.erase_of_not_mem h]

theorem triple_submitBound (hI : Stable op now I) (hJ : Recovers now I J K) (hs : I s)
    (hop : op = .submit cue) {binding : AudioTimelineBinding}
    (hbinding : cue.audioBinding = some binding) (hsteps : Steps op now s es t)
    (hswept : Swept now t) (hvalid : t.validateSubmission cue now = none) :
    Triple (fun u => t = u) (submitBound es cue binding now)
      (fun result u => Steps op now s result.events u ∧ Judged op now s es result ∧ J u)
      (Failed op now K s) := by
  have hnew := (validateSubmission_eq_none hvalid).2.2.2.2
  rw [submitBound]
  refine Triple.read ?_
  dsimp only
  split
  -- the queue is full
  · refine (triple_restored hI hJ hs hsteps).bind fun restored => Triple.answer ?_
    rintro u ⟨hu, -, hj⟩
    exact ⟨hu, fun h => (by cases h), hj⟩
  · rename_i hroom
    have hq : Effect op now t (t.queued cue binding) :=
      .queue hop hbinding hvalid (not_le.mp hroom)
    have hqueued := hsteps.trans (Steps.silent hq rfl)
    rw [List.append_nil] at hqueued
    refine Triple.bind (Q := fun n u => { t with sequence := n } = u ∧ n = t.sequence + 1) ?_
      fun n => ?_
    · rintro _ rfl
      exact ⟨rfl, rfl⟩
    refine Triple.each ?_
    rintro _ ⟨rfl, rfl⟩
    refine Triple.change ?_
    split
    -- the marker of the cue has not come
    · refine (triple_restored hI hJ hs hqueued).bind fun restored => Triple.answer ?_
      rintro u ⟨hu, -, hj⟩
      exact ⟨hu, fun h => (by cases h), hj⟩
    · rename_i due hdue
      split
      -- it has, and the time of the cue is still to come
      · refine (triple_restored hI hJ hs hqueued).bind fun restored => Triple.answer ?_
        rintro u ⟨hu, -, hj⟩
        exact ⟨hu, fun h => (by cases h), hj⟩
      · rename_i hnow
        -- the cue is due at once
        refine Triple.change (triple_submitNow hI hJ hs hqueued hswept
          (.inr ⟨_, Keyed.mem_insert_self, rfl, ?_⟩))
        dsimp only
        rw [hdue]
        simpa using hnow

theorem triple_submit (hI : Stable op now I) (hJ : Recovers now I J K) (hs : I s)
    (hop : op = .submit cue) :
    Triple (fun t => s = t) (submit (some now) cue)
      (fun result t => Steps op now s result.events t ∧ Judges op now s [result] ∧ J t)
      (Failed op now K s) := by
  rw [submit, PresentationScheduler.now, pure_bind]
  refine Triple.bind (triple_expire op).never fun expired => Triple.each ?_
  rintro t ⟨hsteps, hexpired, hswept, -⟩
  suffices h : Triple (fun u => t = u) _
      (fun result u => Steps op now s result.events u ∧ Judged op now s expired result ∧ J u)
      (Failed op now K s) from
    h.post fun result u hu => ⟨hu.1, ⟨expired, hexpired, hu.2.1, trivial⟩, hu.2.2⟩
  refine Triple.read ?_
  split
  · rename_i rejection hrej
    refine (triple_restored hI hJ hs hsteps).bind fun restored => Triple.answer ?_
    rintro u ⟨hu, -, hj⟩
    refine ⟨hu, fun hstatus => ?_, hj⟩
    dsimp only at hstatus
    rw [hstatus, validateSubmission] at hrej
    -- validation never finds fault with a cue's priority
    repeat' split at hrej
    all_goals cases hrej
  · rename_i hvalid
    split
    · rename_i hbinding
      have hpop : t.popped cue = t := popped_eq_self (validateSubmission_eq_none hvalid).2.2.2.2
      have h := triple_submitNow hI hJ hs hsteps hswept (.inl ⟨hop, hbinding, hvalid⟩)
      rwa [hpop] at h
    · rename_i binding hbinding
      exact triple_submitBound hI hJ hs hop hbinding hsteps hswept hvalid

theorem triple_runDue (hI : Stable op now I) (hJ : Recovers now I J K) (hs : I s)
    (hexpired : ∀ e ∈ es, e.kind = .stopped ∧ e.reason = some .leaseExpired)
    (hsteps : Steps op now s es t) (hswept : Swept now t) :
    Triple (fun u => t = u) (runDue es now)
      (fun batch u => Steps op now s batch.events u ∧ Judges op now s batch.results ∧ J u)
      (Failed op now K s) := by
  rw [runDue]
  refine Triple.bind (triple_startDue op hswept).never fun results => Triple.each ?_
  rintro v ⟨hv, hjudged⟩
  refine (triple_restored hI hJ hs (hsteps.trans hv)).bind fun restored => Triple.answer ?_
  rintro w ⟨hw, -, hj⟩
  have hturns := hjudged.earlier hsteps
  rw [List.append_nil] at hturns
  exact ⟨hw, ⟨es, hexpired, hturns⟩, hj⟩

theorem triple_tick (hI : Stable op now I) (hJ : Recovers now I J K) (hs : I s) :
    Triple (fun t => s = t) (tick (some now))
      (fun batch t => Steps op now s batch.events t ∧ Judges op now s batch.results ∧ J t)
      (Failed op now K s) := by
  rw [tick, PresentationScheduler.now, pure_bind]
  refine Triple.bind (triple_expire op).never fun expired => Triple.each ?_
  rintro t ⟨hsteps, hexpired, hswept, -⟩
  exact triple_runDue hI hJ hs hexpired hsteps hswept

theorem triple_notifyAudio (hI : Stable op now I) (hJ : Recovers now I J K) (hs : I s)
    {marker : AudioTimelineMarker} (hop : op = .notifyAudio marker) :
    Triple (fun t => s = t) (notifyAudio (some now) marker)
      (fun batch t => Steps op now s batch.events t ∧ Judges op now s batch.results ∧
        Leaves op J s t) (Failed op now K s) := by
  rw [notifyAudio]
  refine Triple.read ?_
  split
  · rename_i hstop
    refine Triple.answer ?_
    rintro _ rfl
    refine ⟨.refl s, .nil, .refl ?_⟩
    rw [hop, SchedulerOperation.readsClock]
    rcases hstop with hstop | hstop
    · simp [hstop]
    · simp [hstop]
  · rename_i hpass
    obtain ⟨hconn, hgen⟩ := not_or.mp hpass
    rw [Bool.not_eq_false] at hconn
    have hreads : op.readsClock s = true := by
      simp [hop, SchedulerOperation.readsClock, hconn, not_not.mp hgen]
    rw [PresentationScheduler.now, pure_bind]
    refine Triple.bind (triple_expire op).never fun expired => Triple.each ?_
    rintro t ⟨hsteps, hexpired, hswept, hc, hg⟩
    have hn : Effect op now t (t.notified marker) :=
      .notify hop (by rw [hc]; exact hconn) (by rw [hg]; exact not_not.mp hgen)
    have hnotified := hsteps.trans (Steps.silent hn rfl)
    rw [List.append_nil] at hnotified
    refine Triple.change
      (Triple.change ((triple_runDue hI hJ hs hexpired hnotified hswept).post ?_))
    exact fun batch u hu => ⟨hu.1, hu.2.1, .restored hreads hu.2.2⟩

/-- **A new generation.** -/
theorem triple_advanceGeneration (hI : Stable op now I) (hJ : Recovers now I J K) (hs : I s)
    {generation : ℕ} (hop : op = .advanceGeneration generation) :
    Triple (fun t => s = t) (advanceGeneration (some now) generation)
      (fun es t => Steps op now s es t ∧ Leaves op J s t) (Failed op now K s) := by
  have hreads : op.readsClock s = decide (s.generation < generation) := by rw [hop]; rfl
  rw [advanceGeneration]
  refine Triple.read ?_
  split
  · rename_i hback
    refine Triple.raise ?_
    rintro _ rfl
    exact .refl (hreads.trans (decide_eq_false (by omega)))
  rename_i hback
  split
  · rename_i hsame
    refine Triple.answer ?_
    rintro _ rfl
    exact ⟨.refl s, .refl (hreads.trans (decide_eq_false (by omega)))⟩
  rename_i hsame
  have hadvance : Effect op now s (s.advanced generation now) := .advance hop (by omega)
  rw [PresentationScheduler.now, pure_bind]
  refine Triple.change (Triple.read ?_)
  refine Triple.bind (Q := fun es t => Steps op now s es t) ?_ fun es => Triple.each fun t ht => ?_
  · rintro _ rfl
    rw [outcome_endLeases _ _ _ (fun _ => true) (fun lease hl => mem_sortedActive.mp hl)
      (nodup_sortedActive _)]
    exact .effect hadvance endedAll_journal
  · refine (triple_restored hI hJ hs ht).bind fun restored => Triple.answer ?_
    rintro u ⟨hu, -, hj⟩
    exact ⟨hu, .restored (hreads.trans (decide_eq_true (by omega))) hj⟩

theorem triple_cancel (hI : Stable op now I) (hJ : Recovers now I J K) (hs : I s)
    {cueId : Text} {reason : StopReason} (hop : op = .cancel cueId reason) :
    Triple (fun t => s = t) (cancel (some now) cueId reason)
      (fun es t => Steps op now s es t ∧ J t) (Failed op now K s) := by
  rw [cancel, PresentationScheduler.now, pure_bind]
  refine Triple.bind (triple_expire op).never fun expired => Triple.each ?_
  rintro t ⟨hsteps, -⟩
  refine Triple.read ?_
  split
  · have hpop := hsteps.trans (Steps.silent (t := { t with pending := t.pending.erase cueId })
      (.dequeue _) rfl)
    rw [List.append_nil] at hpop
    refine Triple.change ((triple_restored hI hJ hs hpop).bind fun restored => Triple.answer ?_)
    rintro u ⟨hu, -, hj⟩
    exact ⟨hu, hj⟩
  · split
    · refine (triple_restored hI hJ hs hsteps).bind fun restored => Triple.answer ?_
      rintro u ⟨hu, -, hj⟩
      exact ⟨hu, hj⟩
    · rename_i lease hfind
      obtain ⟨hmem, hid⟩ := Keyed.find?_eq_some.mp hfind
      refine Triple.bind (Q := fun e u => Steps op now s (expired ++ [e]) u) ?_
        fun e => Triple.each fun u hu => ?_
      · rintro _ rfl
        rw [outcome_endLease hmem]
        exact hsteps.trans (.effect (.cancel (by rw [hop, hid]) hmem) rfl)
      · refine (triple_restored hI hJ hs hu).bind fun restored => Triple.answer ?_
        rintro v ⟨hv, -, hj⟩
        exact ⟨hv, hj⟩

theorem triple_resetToNeutral (hI : Stable op now I) (hJ : Recovers now I J K) (hs : I s)
    (hop : op = .resetToNeutral) :
    Triple (fun t => s = t) (resetToNeutral (some now))
      (fun es t => Steps op now s es t ∧ J t) (Failed op now K s) := by
  rw [resetToNeutral, PresentationScheduler.now, pure_bind]
  refine Triple.change (Triple.read ?_)
  refine Triple.bind (Q := fun es t => ({ s with pending := ∅ } : PresentationScheduler).endedAll
    now .cancelled none (fun _ => false) s.sortedActive = t ∧ t.journal = s.journal ++ es) ?_
    fun es => Triple.each ?_
  · rintro _ rfl
    rw [outcome_endLeases _ _ _ (fun _ => false) (fun lease hl => mem_sortedActive.mp hl)
      (nodup_sortedActive _)]
    exact ⟨rfl, endedAll_journal⟩
  · rintro t ⟨rfl, hjournal⟩
    have hcleared : Steps op now s es (s.cleared now) := .effect (.reset hop) hjournal
    refine Triple.change ((triple_restored hI hJ hs hcleared).bind fun restored =>
      Triple.answer ?_)
    rintro u ⟨hu, -, hj⟩
    exact ⟨hu, hj⟩

theorem triple_disconnect {reason : StopReason}
    (hop : op = .disconnect reason ∨ op = .adapterFailed ∧ reason = .adapterFailure) :
    Triple (fun t => s = t) (disconnect (some now) reason)
      (fun es t => Steps op now s es t ∧ Leaves op J s t) (Failed op now K s) := by
  have hreads : op.readsClock s =
      ((reason = .disconnected || reason = .adapterFailure) && s.connected) := by
    rcases hop with rfl | ⟨rfl, rfl⟩
    · rfl
    · simp [SchedulerOperation.readsClock]
  rw [disconnect]
  refine Triple.read ?_
  split
  -- no reason for a disconnect
  · rename_i hreason
    refine Triple.raise ?_
    rintro _ rfl
    exact .refl (by simp [hreads, hreason.1, hreason.2])
  rename_i hreason
  split
  -- the adapter is disconnected already
  · rename_i hconn
    refine Triple.answer ?_
    rintro _ rfl
    exact ⟨.refl s, .refl (by simp [hreads, hconn])⟩
  rename_i hconn
  rw [ne_eq, ne_eq, not_and_or, not_not, not_not] at hreason
  rw [PresentationScheduler.now, pure_bind]
  refine Triple.change (Triple.read ?_)
  rintro _ rfl
  rw [outcome_endLeases _ _ _ (fun _ => false) (fun lease hl => mem_sortedActive.mp hl)
    (nodup_sortedActive _)]
  refine ⟨.effect (.disconnect (hop.imp_right And.left) hreason) endedAll_journal,
    .offline ?_ (endedAll_connected ..)⟩
  rw [hreads, Bool.and_eq_true, Bool.or_eq_true, decide_eq_true_iff, decide_eq_true_iff]
  exact ⟨hreason, by simpa using hconn⟩

theorem triple_reconnect (hI : Stable op now I) (hJ : Recovers now I J K) (hs : I s)
    (hop : op = .reconnect) :
    Triple (fun t => s = t) (reconnect (some now))
      (fun es t => Steps op now s es t ∧ Leaves op J s t) (Failed op now K s) := by
  have hreads : op.readsClock s = !s.connected := by rw [hop]; rfl
  rw [reconnect]
  refine Triple.read ?_
  split
  · rename_i hconn
    refine Triple.answer ?_
    rintro _ rfl
    exact ⟨.refl s, .refl (by simp [hreads, hconn])⟩
  · rename_i hconn
    rw [PresentationScheduler.now, pure_bind]
    have hback := Steps.silent (t := { s with
        connected := true, needsNeutral := Finset.univ, recovered := true })
      (.reconnect hop (by simpa using hconn) : Effect op now s _) rfl
    exact Triple.change ((triple_restored hI hJ hs hback).post fun es t ht =>
      ⟨ht.1, .restored (by simpa [hreads] using hconn) ht.2.2⟩)

variable (op now) in
/-- **Whatever operation is called**, it takes the scheduler from effect to
effect, returns the events it built, turns cues away for their priority only
while they are blocked, and restores neutral cues if it gets as far as reading
the clock. -/
theorem triple_perform (hI : Stable op now I) (hJ : Recovers now I J K) (hs : I s) :
    Triple (fun t => s = t) (perform (some now) op)
      (fun batch t => Steps op now s batch.events t ∧ Judges op now s batch.results ∧
        Leaves op J s t) (Failed op now K s) := by
  rcases op with cue | marker | _ | generation | ⟨cueId, reason⟩ | _ | reason | _ | _
  · refine (triple_submit hI hJ hs rfl).bind fun result => Triple.answer ?_
    rintro t ⟨hsteps, hjudged, hj⟩
    exact ⟨hsteps, hjudged, .restored rfl hj⟩
  · exact triple_notifyAudio hI hJ hs rfl
  · refine (triple_tick hI hJ hs).post ?_
    rintro batch t ⟨hsteps, hjudged, hj⟩
    exact ⟨hsteps, hjudged, .restored rfl hj⟩
  · refine (triple_advanceGeneration hI hJ hs rfl).bind fun es => Triple.answer ?_
    rintro t ⟨hsteps, hleaves⟩
    exact ⟨hsteps, .nil, hleaves⟩
  · refine (triple_cancel hI hJ hs rfl).bind fun es => Triple.answer ?_
    rintro t ⟨hsteps, hj⟩
    exact ⟨hsteps, .nil, .restored rfl hj⟩
  · refine (triple_resetToNeutral hI hJ hs rfl).bind fun es => Triple.answer ?_
    rintro t ⟨hsteps, hj⟩
    exact ⟨hsteps, .nil, .restored rfl hj⟩
  · refine (triple_disconnect (J := J) (.inl rfl)).bind fun es => Triple.answer ?_
    rintro t ⟨hsteps, hleaves⟩
    exact ⟨hsteps, .nil, hleaves⟩
  · refine (triple_reconnect hI hJ hs rfl).bind fun es => Triple.answer ?_
    rintro t ⟨hsteps, hleaves⟩
    exact ⟨hsteps, .nil, hleaves⟩
  · refine (triple_disconnect (J := J) (.inr ⟨rfl, rfl⟩)).bind fun es => Triple.answer ?_
    rintro t ⟨hsteps, hleaves⟩
    exact ⟨hsteps, .nil, hleaves⟩

/-- What holds of an operation whatever the neutral factory answers. -/
theorem triple_perform_steps : Triple (fun t => s = t) (perform (some now) op)
    (fun batch t => Steps op now s batch.events t ∧ Judges op now s batch.results)
    (Effects op now s) := by
  have h := triple_perform op now (s := s) (I := fun _ => True)
    (J := fun _ => True) (K := fun _ => True) (fun _ _ _ _ => trivial)
    (fun s _ => (triple_restoreNeutrals op).weaken (fun _ => id) (fun _ _ _ => trivial)
      fun _ _ => trivial) trivial
  exact h.weaken (fun _ => id) (fun _ _ hu => ⟨hu.1, hu.2.1⟩) fun _ hu => hu.1

end Operations

end Eeveetuber.PresentationScheduler
