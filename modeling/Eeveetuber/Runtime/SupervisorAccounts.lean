import Eeveetuber.Runtime.Supervisor

/-!
# The registry of the supervisor

`Eeveetuber.SessionSupervisor.Accounts` is the invariant of all runs of a supervisor: what the
registry lists, what the watchers have noted, which failures are kept, and what a call of
`shutdown` may rely on when it goes on (`Eeveetuber.SessionSupervisor.Covers`). A call of
`shutdown` sees no actor that it does not stop, for the actors which are not on the registry when
it takes its snapshot have been taken off by their watchers, after their end.

What was noted of a session is how it ended at the time. That this is how it has ended for good is
`Eeveetuber.SessionSupervisor.noted_of_unhurried`, for the unhurried runs of the sessions.
-/

namespace Eeveetuber

open Foundation Machine

/-- A later state of a supervised actor. -/
structure Supervised.Later {β κ : Type} (a b : Supervised β κ) (raised : Option ℕ) : Prop where
  life : a.life.Later b.life raised
  watcher : a.watcher ≠ .waiting → b.watcher = a.watcher

theorem Supervised.Later.stopped {β κ : Type} {a b : Supervised β κ} {raised : Option ℕ}
    (h : a.Later b raised) (hs : a.stopped = true) : b.stopped = true := h.life.stopped hs

theorem Supervised.Later.waiting {β κ : Type} {a b : Supervised β κ} {raised : Option ℕ}
    (h : a.Later b raised) (hw : b.watcher = .waiting) : a.watcher = .waiting := by
  by_contra hne
  exact hne ((h.watcher hne).symm.trans hw)

/-- A call of `stop` waits for the session, or finds that it has ended. -/
theorem Lifetime.next_stop {β κ : Type} [DecidableEq κ] {s t : Lifetime β κ} {graceful : Bool}
    (h : s.Settled) (hn : s.next (.stop graceful) = some t) :
    t.stops = s.stops ∧ t.actor.stopped = true ∨ t.stops = s.stops ++ [.waiting graceful] := by
  simp only [Lifetime.next] at hn
  cases hlife : s.actor.lifecycle with
  | stopped | failed =>
    simp only [hlife, SessionActor.stop] at hn
    cases hn
    exact Or.inl ⟨rfl, h.stopped.mpr (by simp [hlife, Terminal])⟩
  | new =>
    simp only [hlife, SessionActor.stop] at hn
    cases hn
    exact Or.inl ⟨rfl, rfl⟩
  | starting | running | stopping =>
    simp only [hlife] at hn
    cases hn
    right
    split <;> rfl

namespace SessionSupervisor

variable {β κ : Type}

/-- What a call of `shutdown` has covered. -/
structure Covers (s : SessionSupervisor β κ) (d : Shutdown) : Prop where
  unbegun : ∀ k ∈ d.unbegun, k < s.actors.length
  /-- A call of `stop` that is done has ended the session, or raised. -/
  calls : ∀ k i, (k, i) ∈ d.calls → ∃ a p, s.actors[k]? = some a ∧ a.life.stops[i]? = some p ∧
    (p = .done → a.stopped = true ∨ d.phase = .raised)
  actors : d.phase ≠ .raised → ∀ k a, s.actors[k]? = some a →
    a.stopped = true ∨ k ∈ d.unbegun ∨ ∃ i, (k, i) ∈ d.calls
  watching : ∀ watched, d.phase = .watching watched → (∀ a ∈ s.actors, a.stopped = true) ∧
    (∀ k ∈ watched, k < s.actors.length) ∧
    ∀ k a, s.actors[k]? = some a → a.watcher = .waiting → k ∈ watched
  returned : d.phase = .returned → ∀ a ∈ s.actors, a.stopped = true ∧ a.watcher ≠ .waiting

/-- The exception of the last session of an id that was noted as failed. -/
def lastFailure (s : SessionSupervisor β κ) (sessionId : UUID) : Option SessionError :=
  s.notes.reverse.findSome? (·.failureOf sessionId)

/-- **The accounts of a supervisor.** -/
structure Accounts (s : SessionSupervisor β κ) : Prop where
  /-- On the registry are the actors whose ends have not been noted. -/
  sessions : ∀ sessionId k, (sessionId, k) ∈ s.sessions ↔
    ∃ a, s.actors[k]? = some a ∧ a.sessionId = sessionId ∧ a.watcher ≠ .recorded
  /-- The end of every recorded actor was noted. -/
  recorded : ∀ k a, s.actors[k]? = some a → a.watcher = .recorded → ∃ n ∈ s.notes, n.actor = k
  /-- What was noted is over. -/
  notes : ∀ n ∈ s.notes, Terminal n.lifecycle ∧ (n.lifecycle = .failed → n.failure.isSome = true) ∧
    ∃ a, s.actors[n.actor]? = some a ∧ a.sessionId = n.sessionId ∧ a.watcher = .recorded ∧
      a.stopped = true
  /-- No end is noted twice. -/
  once : (s.notes.map Note.actor).Nodup
  failures : ∀ sessionId, s.failures.get sessionId = s.lastFailure sessionId
  closed : s.shutdowns ≠ [] → s.closed = true
  shutdowns : ∀ d ∈ s.shutdowns, s.Covers d

variable {s t : SessionSupervisor β κ} {k j : ℕ} {a b : Supervised β κ} {d : Shutdown}
  {raised : Option ℕ}

/-! ### One actor moves on -/

theorem notice_calls : (d.notice k raised).calls = d.calls := by
  unfold Shutdown.notice
  split_ifs <;> rfl

theorem notice_unbegun : (d.notice k raised).unbegun = d.unbegun := by
  unfold Shutdown.notice
  split_ifs <;> rfl

/-- A call of `shutdown` that is not raised by a step is where it was. -/
theorem phase_of_notice (h : (d.notice k raised).phase ≠ .raised) :
    (d.notice k raised).phase = d.phase := by
  unfold Shutdown.notice at h ⊢
  split_ifs at h ⊢
  · exact absurd rfl h
  · rfl

theorem phase_notice_of_raised (h : d.phase = .raised) :
    (d.notice k raised).phase = .raised := by
  unfold Shutdown.notice
  split_ifs
  · rfl
  · exact h

/-- A call of `shutdown` that waits for a call of `stop` notices that it raises. -/
theorem phase_notice_of_gathering {i : ℕ} (hd : d.phase = .gathering) (hi : (k, i) ∈ d.calls) :
    (d.notice k (some i)).phase = .raised := by
  unfold Shutdown.notice
  rw [if_pos ⟨hd, i, rfl, hi⟩]

@[simp] theorem notice_none : d.notice k none = d := by
  unfold Shutdown.notice
  rw [if_neg]
  rintro ⟨-, i, hi, -⟩
  cases hi

/-- The calls of `shutdown` cover what they did when an actor moves on. -/
theorem Covers.set (h : s.Covers d) (ha : s.actors[k]? = some a) (hab : a.Later b raised)
    (ht : t.actors = s.actors.set k b) : t.Covers (d.notice k raised) := by
  have hlt : k < s.actors.length := (List.getElem?_eq_some_iff.mp ha).1
  -- every actor was there, and has ended if it had
  have hback : ∀ (k' : ℕ) (b' : Supervised β κ), t.actors[k']? = some b' →
      ∃ a', s.actors[k']? = some a' ∧ (a'.stopped = true → b'.stopped = true) ∧
        (b'.watcher = .waiting → a'.watcher = .waiting) := by
    intro k' b' hb'
    rw [ht] at hb'
    by_cases hk : k' = k
    · subst hk
      rw [List.getElem?_set_self hlt] at hb'
      cases hb'
      exact ⟨a, ha, hab.stopped, hab.waiting⟩
    · rw [List.getElem?_set_ne (Ne.symm hk)] at hb'
      exact ⟨b', hb', id, id⟩
  have hmem : ∀ b' ∈ t.actors, ∃ a' ∈ s.actors, (a'.stopped = true → b'.stopped = true) ∧
      (b'.watcher = .waiting → a'.watcher = .waiting) := by
    intro b' hb'
    obtain ⟨k', hk'⟩ := List.mem_iff_getElem?.mp hb'
    obtain ⟨a', ha', hlater⟩ := hback k' b' hk'
    exact ⟨a', List.mem_of_getElem? ha', hlater⟩
  have hlen : t.actors.length = s.actors.length := by rw [ht, List.length_set]
  constructor
  · rw [notice_unbegun, hlen]
    exact h.unbegun
  · rw [notice_calls]
    intro k' i hi
    obtain ⟨a', p, ha', hp, hdone⟩ := h.calls k' i hi
    rw [ht]
    by_cases hk : k' = k
    · subst hk
      obtain rfl : a = a' := Option.some.inj (ha.symm.trans ha')
      obtain ⟨q, hq, hqdone⟩ := hab.life.calls i p hp
      refine ⟨b, q, List.getElem?_set_self hlt, hq, fun hend => ?_⟩
      rcases hqdone hend with hend | hend | rfl
      · rcases hdone hend with hs | hr
        · exact Or.inl (hab.stopped hs)
        · exact Or.inr (phase_notice_of_raised hr)
      · exact Or.inl hend
      · -- the call raises in this step, and a call of `shutdown` that has gone on has seen the
        -- end of all sessions
        cases hphase : d.phase with
        | gathering => exact Or.inr (phase_notice_of_gathering hphase hi)
        | raised => exact Or.inr (phase_notice_of_raised hphase)
        | watching watched =>
          exact Or.inl (hab.stopped ((h.watching watched hphase).1 a (List.mem_of_getElem? ha)))
        | returned => exact Or.inl (hab.stopped (h.returned hphase a (List.mem_of_getElem? ha)).1)
    · refine ⟨a', p, by rw [List.getElem?_set_ne (Ne.symm hk)]; exact ha', hp, fun hend => ?_⟩
      exact (hdone hend).imp_right phase_notice_of_raised
  · intro hphase k' b' hb'
    obtain ⟨a', ha', hstop, -⟩ := hback k' b' hb'
    rw [notice_unbegun, notice_calls]
    refine (h.actors (fun hr => hphase (phase_notice_of_raised hr)) k' a' ha').imp_left hstop
  · intro watched hphase
    rw [phase_of_notice (by rw [hphase]; simp)] at hphase
    obtain ⟨hall, hin, hwait⟩ := h.watching watched hphase
    refine ⟨fun b' hb' => ?_, hlen ▸ hin, fun k' b' hb' hw => ?_⟩
    · obtain ⟨a', ha', hstop, -⟩ := hmem b' hb'
      exact hstop (hall a' ha')
    · obtain ⟨a', ha', -, hwaits⟩ := hback k' b' hb'
      exact hwait k' a' ha' (hwaits hw)
  · intro hphase b' hb'
    rw [phase_of_notice (by rw [hphase]; simp)] at hphase
    obtain ⟨a', ha', hstop, hwaits⟩ := hmem b' hb'
    obtain ⟨hs, hr⟩ := h.returned hphase a' ha'
    exact ⟨hstop hs, fun hw => hr (hwaits hw)⟩

/-- And when watchers are cancelled. -/
theorem Covers.cancelWatchers {watched : List ℕ} (h : s.Covers d) :
    (s.cancelWatchers watched).Covers d := by
  -- an actor is there as before, and waits only if it waited
  have hback : ∀ (k : ℕ) (b : Supervised β κ), (s.cancelWatchers watched).actors[k]? = some b →
      ∃ a, s.actors[k]? = some a ∧ b.life = a.life ∧
        (b.watcher = .waiting → a.watcher = .waiting) := by
    intro k b hb
    rw [getElem?_cancelWatchers, Option.map_eq_some_iff] at hb
    obtain ⟨a, ha, rfl⟩ := hb
    refine ⟨a, ha, ?_⟩
    split_ifs
    · exact ⟨rfl, fun hw => by cases hw⟩
    · exact ⟨rfl, id⟩
  have hmem : ∀ b ∈ (s.cancelWatchers watched).actors, ∃ a ∈ s.actors, b.life = a.life ∧
      (b.watcher = .waiting → a.watcher = .waiting) := by
    intro b hb
    obtain ⟨k, hk⟩ := List.mem_iff_getElem?.mp hb
    obtain ⟨a, ha, hlater⟩ := hback k b hk
    exact ⟨a, List.mem_of_getElem? ha, hlater⟩
  have hlen : (s.cancelWatchers watched).actors.length = s.actors.length := List.length_mapIdx
  have hstopped : ∀ a b : Supervised β κ, b.life = a.life → a.stopped = true → b.stopped = true :=
    fun a b hlife hs => by rw [Supervised.stopped, hlife]; exact hs
  constructor
  · rw [hlen]
    exact h.unbegun
  · intro k i hi
    obtain ⟨a, p, ha, hp, hdone⟩ := h.calls k i hi
    rw [getElem?_cancelWatchers, ha]
    refine ⟨_, p, rfl, ?_, fun hend => (hdone hend).imp_left fun hs => ?_⟩
    · dsimp only
      split_ifs <;> exact hp
    · dsimp only
      split_ifs <;> exact hs
  · intro hphase k b hb
    obtain ⟨a, ha, hlife, -⟩ := hback k b hb
    exact (h.actors hphase k a ha).imp_left (hstopped a b hlife)
  · intro watching hphase
    obtain ⟨hall, hin, hwait⟩ := h.watching watching hphase
    refine ⟨fun b hb => ?_, hlen ▸ hin, fun k b hb hw => ?_⟩
    · obtain ⟨a, ha, hlife, -⟩ := hmem b hb
      exact hstopped a b hlife (hall a ha)
    · obtain ⟨a, ha, -, hwaits⟩ := hback k b hb
      exact hwait k a ha (hwaits hw)
  · intro hphase b hb
    obtain ⟨a, ha, hlife, hwaits⟩ := hmem b hb
    obtain ⟨hs, hr⟩ := h.returned hphase a ha
    exact ⟨hstopped a b hlife hs, fun hw => hr (hwaits hw)⟩

/-! ### Every step keeps the accounts -/

theorem exists_set {P : Supervised β κ → Prop} {m : ℕ} (ha : s.actors[k]? = some a)
    (hP : P b ↔ P a) : (∃ b', (s.actors.set k b)[m]? = some b' ∧ P b') ↔
      ∃ a', s.actors[m]? = some a' ∧ P a' := by
  by_cases hm : m = k
  · subst hm
    rw [List.getElem?_set_self (List.getElem?_eq_some_iff.mp ha).1, ha]
    constructor
    · rintro ⟨_, ⟨⟩, hb⟩
      exact ⟨a, rfl, hP.mp hb⟩
    · rintro ⟨_, ⟨⟩, hb⟩
      exact ⟨b, rfl, hP.mpr hb⟩
  · rw [List.getElem?_set_ne (Ne.symm hm)]

theorem accounts_create : Accounts (create : SessionSupervisor β κ) where
  sessions sessionId k := by
    refine iff_of_false Keyed.not_mem_empty ?_
    rintro ⟨a, ha, -⟩
    cases ha
  recorded k a ha := by cases ha
  notes n hn := by cases hn
  once := .nil
  failures sessionId := rfl
  closed h := absurd rfl h
  shutdowns d hd := by cases hd

/-- An actor moves on by a step of its session. -/
theorem Accounts.set (h : s.Accounts) (ha : s.actors[k]? = some a) (hab : a.Later b raised)
    (hwatcher : b.watcher = a.watcher) (hactors : t.actors = s.actors.set k b)
    (hsessions : t.sessions = s.sessions) (hfailures : t.failures = s.failures)
    (hnotes : t.notes = s.notes) (hclosed : t.closed = s.closed)
    (hshutdowns : t.shutdowns = s.shutdowns.map fun d => d.notice k raised) : t.Accounts where
  -- the step changes neither identifiers nor watchers
  sessions sessionId m := by
    rw [hsessions, hactors,
      exists_set (P := fun x => x.sessionId = sessionId ∧ x.watcher ≠ .recorded) ha
        (by rw [hwatcher, show b.sessionId = a.sessionId from hab.life.sessionId])]
    exact h.sessions sessionId m
  recorded m x hx hr := by
    rw [hactors] at hx
    rw [hnotes]
    by_cases hm : m = k
    · subst hm
      rw [List.getElem?_set_self (List.getElem?_eq_some_iff.mp ha).1] at hx
      cases hx
      exact h.recorded m a ha (hwatcher ▸ hr)
    · rw [List.getElem?_set_ne (Ne.symm hm)] at hx
      exact h.recorded m x hx hr
  notes n hn := by
    rw [hnotes] at hn
    obtain ⟨hterm, hfail, x, hx, hid, hr, hs⟩ := h.notes n hn
    refine ⟨hterm, hfail, ?_⟩
    rw [hactors]
    by_cases hk : n.actor = k
    · subst hk
      obtain rfl : a = x := Option.some.inj (ha.symm.trans hx)
      exact ⟨b, List.getElem?_set_self (List.getElem?_eq_some_iff.mp ha).1,
        hab.life.sessionId.trans hid, hwatcher.trans hr, hab.stopped hs⟩
    · exact ⟨x, by rw [List.getElem?_set_ne (Ne.symm hk)]; exact hx, hid, hr, hs⟩
  once := by rw [hnotes]; exact h.once
  failures sessionId := by rw [hfailures, lastFailure, hnotes]; exact h.failures sessionId
  closed hne := by
    rw [hclosed]
    refine h.closed fun hnil => hne ?_
    rw [hshutdowns, hnil]
    rfl
  shutdowns d hd := by
    rw [hshutdowns] at hd
    obtain ⟨d', hd', rfl⟩ := List.mem_map.mp hd
    exact (h.shutdowns d' hd').set ha hab hactors

/-- What the failures of an id are once a watcher has noted the end of a session. -/
theorem get_failures_watch (hsettled : a.life.Settled) (sessionId : UUID) :
    (s.watch k a).failures.get sessionId =
      (Note.failureOf ⟨k, a.sessionId, a.lifecycle, a.failure⟩ sessionId).or
        (s.failures.get sessionId) := by
  unfold watch Note.failureOf
  dsimp only
  cases hlife : a.lifecycle with
  | failed =>
    obtain ⟨e, he⟩ := Option.isSome_iff_exists.mp (hsettled.failure (Or.inl hlife))
    -- a failed session has a failure to keep
    rw [show a.failure = some e from he]
    dsimp only
    rw [Mapping.get_insert]
    by_cases hid : a.sessionId = sessionId
    · rw [if_pos hid, if_pos ⟨hid, rfl⟩, Option.some_or]
    · rw [if_neg hid, if_neg fun h => hid h.1, Option.none_or]
  | _ => simp

/-- A watcher notes the end of a session. -/
theorem Accounts.watch (h : s.Accounts) (ha : s.actors[k]? = some a)
    (hsettled : a.life.Settled) (hwaits : a.watcher = .waiting) (hstopped : a.stopped = true) :
    (s.watch k a).Accounts := by
  have hlt : k < s.actors.length := (List.getElem?_eq_some_iff.mp ha).1
  have hlater : a.Later { a with watcher := .recorded } none :=
    ⟨.of_alike ⟨rfl, rfl, rfl, rfl, rfl, rfl⟩, fun hne => absurd hwaits hne⟩
  have hentry : (a.sessionId, k) ∈ s.sessions :=
    (h.sessions _ _).mpr ⟨a, ha, rfl, by rw [hwaits]; simp⟩
  have hown : s.sessions.get a.sessionId = some k := Mapping.get_eq_some.mpr hentry
  -- the watcher has noted nothing so far, so that its entry is in the registry
  have hfresh : ∀ n ∈ s.notes, n.actor ≠ k := by
    intro n hn heq
    obtain ⟨-, -, x, hx, -, hr, -⟩ := h.notes n hn
    rw [heq, ha] at hx
    obtain rfl := Option.some.inj hx
    rw [hwaits] at hr
    cases hr
  constructor
  · intro sessionId m
    show (sessionId, m) ∈ (if _ then s.sessions.erase a.sessionId else s.sessions) ↔
      ∃ x, (s.actors.set k _)[m]? = some x ∧ _
    rw [if_pos hown, Keyed.mem_erase]
    by_cases hm : m = k
    · subst hm
      rw [List.getElem?_set_self hlt]
      refine iff_of_false ?_ ?_
      · rintro ⟨hmem, hne⟩
        obtain ⟨x, hx, hid, -⟩ := (h.sessions _ _).mp hmem
        obtain rfl : a = x := Option.some.inj (ha.symm.trans hx)
        exact hne hid.symm
      · rintro ⟨_, ⟨⟩, -, hw⟩
        exact hw rfl
    · rw [List.getElem?_set_ne (Ne.symm hm), ← h.sessions]
      refine and_iff_left_of_imp fun hmem hid => hm ?_
      have := Keyed.eq_of_key hmem hentry hid
      exact congrArg Prod.snd this
  · intro m x hx hr
    by_cases hm : m = k
    · exact ⟨_, List.mem_append_right _ (List.mem_singleton.mpr rfl), hm.symm⟩
    · have hx : (s.actors.set k _)[m]? = some x := hx
      rw [List.getElem?_set_ne (Ne.symm hm)] at hx
      obtain ⟨n, hn, heq⟩ := h.recorded m x hx hr
      exact ⟨n, List.mem_append_left _ hn, heq⟩
  · intro n hn
    rcases List.mem_append.mp hn with hn | hn
    · obtain ⟨hterm, hfail, x, hx, hrest⟩ := h.notes n hn
      refine ⟨hterm, hfail, x, ?_, hrest⟩
      show (s.actors.set k _)[n.actor]? = some x
      rw [List.getElem?_set_ne (hfresh n hn).symm]
      exact hx
    · obtain rfl := List.mem_singleton.mp hn
      exact ⟨hsettled.stopped.mp hstopped, fun hf => hsettled.failure (Or.inl hf), _,
        List.getElem?_set_self hlt, rfl, rfl, hstopped⟩
  · show ((s.notes ++ [_]).map Note.actor).Nodup
    rw [List.map_append, List.map_singleton, List.nodup_append]
    refine ⟨h.once, List.nodup_singleton _, fun m hm m' hm' => ?_⟩
    obtain ⟨n, hn, rfl⟩ := List.mem_map.mp hm
    rw [List.mem_singleton.mp hm']
    exact hfresh n hn
  · intro sessionId
    rw [get_failures_watch hsettled, h.failures, lastFailure, lastFailure]
    show _ = (s.notes ++ [_]).reverse.findSome? _
    rw [List.reverse_append, List.reverse_singleton, List.singleton_append, List.findSome?_cons]
    cases Note.failureOf _ sessionId with
    | none => exact Option.none_or
    | some e => exact Option.some_or
  · exact h.closed
  · intro d hd
    have := (h.shutdowns d hd).set (t := s.watch k a) ha hlater rfl
    rwa [notice_none] at this

/-- The watchers that a call of `shutdown` waits for are cancelled. -/
theorem Accounts.cancelWatchers {watched : List ℕ} (h : s.Accounts) :
    (s.cancelWatchers watched).Accounts where
  sessions sessionId m := by
    refine (h.sessions sessionId m).trans ?_
    rw [getElem?_cancelWatchers]
    constructor
    · rintro ⟨x, hx, hid, hw⟩
      rw [hx]
      refine ⟨_, rfl, ?_⟩
      dsimp only
      split_ifs
      · exact ⟨hid, by simp⟩
      · exact ⟨hid, hw⟩
    · rintro ⟨y, hy, hid, hw⟩
      obtain ⟨x, hx, rfl⟩ := Option.map_eq_some_iff.mp hy
      refine ⟨x, hx, ?_⟩
      split_ifs at hid hw with hcond
      · exact ⟨hid, by rw [hcond.2]; simp⟩
      · exact ⟨hid, hw⟩
  recorded m y hy hr := by
    rw [getElem?_cancelWatchers] at hy
    obtain ⟨x, hx, rfl⟩ := Option.map_eq_some_iff.mp hy
    split_ifs at hr
    exact h.recorded m x hx hr
  notes n hn := by
    obtain ⟨hterm, hfail, x, hx, hid, hr, hs⟩ := h.notes n hn
    refine ⟨hterm, hfail, x, ?_, hid, hr, hs⟩
    rw [getElem?_cancelWatchers, hx, Option.map_some, if_neg]
    rw [hr]
    simp
  once := h.once
  failures := h.failures
  closed := h.closed
  shutdowns d hd := (h.shutdowns d hd).cancelWatchers

theorem sessionId_of_start {sessionId : UUID} {inboxCapacity outboxCapacity : ℕ}
    {observer : Option (EventEnvelope β → Bool)} {actor started : SessionActor β κ}
    (hcreate : SessionActor.create sessionId inboxCapacity outboxCapacity .dropLowest none none
      observer = .ok actor) (hstart : actor.start = .ok started) :
    started.sessionId = sessionId := by
  unfold SessionActor.create PriorityMailbox.create at hcreate
  split_ifs at hcreate <;> cases hcreate
  cases hstart
  rfl

/-- A session is started. -/
theorem Accounts.startSession {sessionId : UUID} {inboxCapacity outboxCapacity : ℕ}
    {observer : Option (EventEnvelope β → Bool)} (h : s.Accounts)
    (hn : s.startSession sessionId inboxCapacity outboxCapacity observer = .ok t) : t.Accounts := by
  obtain ⟨actor, started, hcreate, hstart, hopen, hnew, rfl⟩ := startSession_eq_ok hn
  have hid := sessionId_of_start hcreate hstart
  -- no call of `shutdown` has been made while the supervisor is open
  have hnone : s.shutdowns = [] := by
    by_contra hne
    rw [h.closed hne] at hopen
    cases hopen
  constructor
  · intro id m
    show (id, m) ∈ s.sessions.insert (sessionId, s.actors.length) ↔
      ∃ a, (s.actors ++ [_])[m]? = some a ∧ _
    rw [Keyed.mem_insert]
    -- the sessions from before, the new one, and none behind it
    rcases Nat.lt_trichotomy m s.actors.length with hm | rfl | hm
    · rw [List.getElem?_append_left hm, ← h.sessions]
      constructor
      · rintro (heq | ⟨hmem, -⟩)
        · cases heq
          exact absurd hm (Nat.lt_irrefl _)
        · exact hmem
      · exact fun hmem => Or.inr ⟨hmem, hnew _ hmem⟩
    · rw [List.getElem?_concat_length]
      constructor
      · rintro (heq | ⟨hmem, -⟩)
        · cases heq
          exact ⟨_, rfl, hid, by simp⟩
        · obtain ⟨x, hx, -⟩ := (h.sessions _ _).mp hmem
          exact absurd (List.getElem?_eq_some_iff.mp hx).1 (Nat.lt_irrefl _)
      · rintro ⟨_, ⟨⟩, rfl, -⟩
        exact Or.inl (congrArg (·, s.actors.length) hid)
    · rw [List.getElem?_eq_none (by rw [List.length_append, List.length_singleton]; omega)]
      refine iff_of_false ?_ (by rintro ⟨_, ⟨⟩, -⟩)
      rintro (heq | ⟨hmem, -⟩)
      · cases heq
        exact absurd hm (Nat.lt_irrefl _)
      · obtain ⟨x, hx, -⟩ := (h.sessions _ _).mp hmem
        exact absurd (List.getElem?_eq_some_iff.mp hx).1 (by omega)
  · intro m x hx hr
    rcases Nat.lt_or_ge m s.actors.length with hm | hm
    · have hx : (s.actors ++ [_])[m]? = some x := hx
      rw [List.getElem?_append_left hm] at hx
      exact h.recorded m x hx hr
    · have hx : (s.actors ++ [_])[m]? = some x := hx
      rw [List.getElem?_append_right hm] at hx
      obtain rfl := List.mem_singleton.mp (List.mem_of_getElem? hx)
      cases hr
  · intro n hn
    obtain ⟨hterm, hfail, x, hx, hrest⟩ := h.notes n hn
    refine ⟨hterm, hfail, x, ?_, hrest⟩
    show (s.actors ++ [_])[n.actor]? = some x
    rw [List.getElem?_append_left (List.getElem?_eq_some_iff.mp hx).1]
    exact hx
  · exact h.once
  · exact h.failures
  · exact fun hne => absurd hnone hne
  · intro d hd
    rw [show s.shutdowns = [] from hnone] at hd
    cases hd

/-- A call of `shutdown` moves on by itself. -/
theorem Accounts.setShutdown (h : s.Accounts) (hd : s.Covers d) (hj : j < s.shutdowns.length) :
    Accounts { s with shutdowns := s.shutdowns.set j d } where
  sessions := h.sessions
  recorded := h.recorded
  notes := h.notes
  once := h.once
  failures := h.failures
  closed _ := h.closed (List.ne_nil_of_length_pos (Nat.zero_lt_of_lt hj))
  shutdowns d' hd' := by
    rcases List.mem_or_eq_of_mem_set hd' with hd' | rfl
    · obtain ⟨hu, hc, ha, hw, hr⟩ := h.shutdowns d' hd'
      exact ⟨hu, hc, ha, hw, hr⟩
    · obtain ⟨hu, hc, ha, hw, hr⟩ := hd
      exact ⟨hu, hc, ha, hw, hr⟩

/-- A call of `shutdown` closes the supervisor, and takes its snapshot of the registry. -/
theorem Accounts.shutdown (h : s.Accounts) : Accounts { s with
    closed := true
    shutdowns := s.shutdowns ++ [⟨s.sessions.values.map Prod.snd, [], .gathering⟩] } where
  sessions := h.sessions
  recorded := h.recorded
  notes := h.notes
  once := h.once
  failures := h.failures
  closed _ := rfl
  shutdowns d hd := by
    rcases List.mem_append.mp hd with hd | hd
    · obtain ⟨hu, hc, ha, hw, hr⟩ := h.shutdowns d hd
      exact ⟨hu, hc, ha, hw, hr⟩
    · obtain rfl := List.mem_singleton.mp hd
      constructor
      · intro k hk
        obtain ⟨⟨id, m⟩, hmem, rfl⟩ := List.mem_map.mp hk
        obtain ⟨a, ha, -⟩ := (h.sessions id m).mp hmem
        exact (List.getElem?_eq_some_iff.mp ha).1
      · intro k i hi
        cases hi
      · intro _ k a ha
        -- a session that was noted is over; the others are in the snapshot
        by_cases hw : a.watcher = .recorded
        · obtain ⟨n, hn, rfl⟩ := h.recorded k a ha hw
          obtain ⟨-, -, x, hx, -, -, hs⟩ := h.notes n hn
          obtain rfl : a = x := Option.some.inj (ha.symm.trans hx)
          exact Or.inl hs
        · have hentry := (h.sessions a.sessionId k).mpr ⟨a, ha, rfl, hw⟩
          exact Or.inr (Or.inl (List.mem_map.mpr ⟨_, hentry, rfl⟩))
      · intro watched hp
        cases hp
      · intro hp
        cases hp

theorem callDone_iff {c : ℕ × ℕ} : s.callDone c = true ↔
    ∃ a, s.actors[c.1]? = some a ∧ a.life.stops[c.2]? = some .done := by
  rw [callDone, decide_eq_true_iff, Option.bind_eq_some_iff]

theorem watcherDone_iff : s.watcherDone k = true ↔
    ∃ a, s.actors[k]? = some a ∧ a.watcher ≠ .waiting := by
  rw [watcherDone, Option.any_eq_true]
  simp only [decide_eq_true_iff]

/-- All calls of `stop` have returned: every session has ended. -/
theorem Covers.proceeds {calls : List (ℕ × ℕ)} (h : s.Covers ⟨[], calls, .gathering⟩)
    (hdone : calls.all s.callDone = true) : s.Covers ⟨[], calls, .watching s.watchers⟩ := by
  have hended : ∀ (k : ℕ) (a : Supervised β κ), s.actors[k]? = some a → a.stopped = true := by
    intro k a ha
    rcases h.actors (by simp) k a ha with hs | hk | ⟨i, hi⟩
    · exact hs
    · cases hk
    · obtain ⟨b, p, hb, hp, hend⟩ := h.calls k i hi
      obtain ⟨c, hc, hcdone⟩ := callDone_iff.mp (List.all_eq_true.mp hdone _ hi)
      obtain rfl : a = b := Option.some.inj (ha.symm.trans hb)
      obtain rfl : a = c := Option.some.inj (ha.symm.trans hc)
      exact (hend (Option.some.inj (hp.symm.trans hcdone))).resolve_right (by simp)
  refine ⟨h.unbegun, fun k i hi => ?_, fun _ => h.actors (by simp), fun watched hw => ?_,
    fun hp => by cases hp⟩
  · obtain ⟨a, p, ha, hp, -⟩ := h.calls k i hi
    exact ⟨a, p, ha, hp, fun _ => Or.inl (hended k a ha)⟩
  · cases hw
    refine ⟨fun a ha => ?_, fun k hk => List.mem_range.mp (List.mem_filter.mp hk).1,
      fun k a ha hw => ?_⟩
    · obtain ⟨k, hk⟩ := List.mem_iff_getElem?.mp ha
      exact hended k a hk
    · refine List.mem_filter.mpr ⟨List.mem_range.mpr (List.getElem?_eq_some_iff.mp ha).1, ?_⟩
      rw [Bool.not_eq_true', Bool.eq_false_iff, Ne, watcherDone_iff]
      rintro ⟨b, hb, hr⟩
      obtain rfl : a = b := Option.some.inj (ha.symm.trans hb)
      exact hr hw

/-- All watchers are done: every end has been noted. -/
theorem Covers.returns {unbegun watched : List ℕ} {calls : List (ℕ × ℕ)}
    (h : s.Covers ⟨unbegun, calls, .watching watched⟩)
    (hdone : watched.all s.watcherDone = true) : s.Covers ⟨unbegun, calls, .returned⟩ := by
  obtain ⟨hended, -, hwait⟩ := h.watching watched rfl
  refine ⟨h.unbegun, fun k i hi => ?_, fun _ => h.actors (by simp), (fun _ hw => by cases hw),
    fun _ a ha => ⟨hended a ha, fun hw => ?_⟩⟩
  · obtain ⟨a, p, ha, hp, -⟩ := h.calls k i hi
    exact ⟨a, p, ha, hp, fun _ => Or.inl (hended a (List.mem_of_getElem? ha))⟩
  · obtain ⟨k, hk⟩ := List.mem_iff_getElem?.mp ha
    obtain ⟨b, hb, hr⟩ := watcherDone_iff.mp (List.all_eq_true.mp hdone k (hwait k a hk hw))
    obtain rfl : a = b := Option.some.inj (hk.symm.trans hb)
    exact hr hw

/-- The caller of `shutdown` is cancelled. -/
theorem Covers.raise {unbegun unbegun' : List ℕ} {calls : List (ℕ × ℕ)} {phase : ShutdownPhase}
    (h : s.Covers ⟨unbegun, calls, phase⟩) (hsub : unbegun' ⊆ unbegun) :
    s.Covers ⟨unbegun', calls, .raised⟩ := by
  refine ⟨fun k hk => h.unbegun k (hsub hk), fun k i hi => ?_, fun hr => absurd rfl hr,
    (fun _ hw => by cases hw), fun hw => by cases hw⟩
  obtain ⟨a, p, ha, hp, -⟩ := h.calls k i hi
  exact ⟨a, p, ha, hp, fun _ => Or.inr rfl⟩

variable [DecidableEq κ]

/-- A step of a session. -/
theorem Accounts.stepSession {l : Lifetime.Label β} (h : s.Accounts)
    (hlives : ∀ a ∈ s.actors, a.life.Settled) (hn : s.stepSession k l = some t) : t.Accounts := by
  obtain ⟨a, life, ha, hlife, rfl⟩ := stepSession_eq_some hn
  have hlater := (Lifetime.next_settled (hlives a (List.mem_of_getElem? ha)) hlife).2
  exact h.set ha (b := { a with life := life }) ⟨hlater, fun _ => rfl⟩ rfl rfl rfl rfl rfl rfl rfl

/-- A call of `shutdown` calls `stop` on the next actor. -/
theorem Covers.stops {ks : List ℕ} {calls : List (ℕ × ℕ)} {phase : ShutdownPhase}
    (h : s.Covers ⟨k :: ks, calls, phase⟩) (hlives : ∀ a ∈ s.actors, a.life.Settled)
    (hn : s.stepSession k (.stop true) = some t) :
    t.Covers ⟨ks, calls ++ s.newCall t k, phase⟩ := by
  obtain ⟨a, life, ha, hlife, rfl⟩ := stepSession_eq_some hn
  have hsettled := hlives a (List.mem_of_getElem? ha)
  have hlt : k < s.actors.length := (List.getElem?_eq_some_iff.mp ha).1
  have hlater : a.Later { a with life := life } none :=
    ⟨(Lifetime.next_settled hsettled hlife).2, fun _ => rfl⟩
  set t : SessionSupervisor β κ := { s with
    actors := s.actors.set k { a with life := life }
    shutdowns := s.shutdowns.map fun d => d.notice k (a.life.raisedBy (.stop true)) } with htdef
  have hk : t.actors[k]? = some { a with life := life } := List.getElem?_set_self hlt
  have hset := h.set ha hlater (t := t) rfl
  rw [notice_none] at hset
  have hcall : s.newCall t k = if a.life.stops.length < life.stops.length
      then [(k, a.life.stops.length)] else [] := by
    unfold newCall
    rw [ha, hk]
  refine ⟨fun m hm => hset.unbegun m (List.mem_cons_of_mem _ hm), fun m i hi => ?_,
    fun hphase m x hx => ?_, hset.watching, hset.returned⟩
  · rcases List.mem_append.mp hi with hi | hi
    · exact hset.calls m i hi
    · rw [hcall] at hi
      split_ifs at hi with hgrown
      · cases List.mem_singleton.mp hi
        refine ⟨_, .waiting true, hk, ?_, fun hc => by cases hc⟩
        rcases Lifetime.next_stop hsettled hlife with ⟨hsame, -⟩ | hnew
        · rw [hsame] at hgrown
          exact absurd hgrown (Nat.lt_irrefl _)
        · show life.stops[_]? = _
          rw [hnew, List.getElem?_concat_length]
      · cases hi
  · rcases hset.actors hphase m x hx with hs | hm | ⟨i, hi⟩
    · exact Or.inl hs
    · rcases List.mem_cons.mp hm with rfl | hm
      · obtain rfl := Option.some.inj (hk.symm.trans hx)
        rcases Lifetime.next_stop hsettled hlife with ⟨-, hs⟩ | hnew
        · exact Or.inl hs
        · refine Or.inr (Or.inr ⟨a.life.stops.length, List.mem_append_right _ ?_⟩)
          rw [hcall, if_pos (by rw [hnew, List.length_append, List.length_singleton]; omega)]
          exact List.mem_singleton.mpr rfl
      · exact Or.inr (Or.inl hm)
    · exact Or.inr (Or.inr ⟨i, List.mem_append_left _ hi⟩)

/-- **Every step keeps the accounts.** -/
theorem next_accounts {l : Label β} (h : s.Accounts) (hlives : ∀ a ∈ s.actors, a.life.Settled)
    (hn : s.next l = some t) : t.Accounts := by
  cases l with
  | startSession sessionId inboxCapacity outboxCapacity observer =>
    simp only [next] at hn
    split at hn
    · cases hn
      exact h
    · rename_i ht
      cases hn
      exact h.startSession ht
  | session k l => exact h.stepSession hlives hn
  | stopSession sessionId graceful =>
    simp only [next] at hn
    split at hn
    · cases hn
      exact h
    · exact h.stepSession hlives hn
  | watcherRuns k =>
    simp only [next] at hn
    split at hn
    · rename_i a ha
      split_ifs at hn with hs
      cases hn
      exact h.watch ha (hlives a (List.mem_of_getElem? ha)) hs.1 hs.2
    · cases hn
  | shutdown =>
    cases hn
    exact h.shutdown
  | shutdownStops j =>
    simp only [next] at hn
    split at hn
    · rename_i k ks calls phase hj
      obtain ⟨t', ht, rfl⟩ := Option.map_eq_some_iff.mp hn
      have hcovers := (h.shutdowns _ (List.mem_of_getElem? hj)).stops hlives ht
      refine (h.stepSession hlives ht).setShutdown hcovers ?_
      obtain ⟨a, life, -, -, rfl⟩ := stepSession_eq_some ht
      rw [List.length_map]
      exact (List.getElem?_eq_some_iff.mp hj).1
    · cases hn
  | shutdownProceeds j =>
    simp only [next] at hn
    split at hn
    · rename_i calls hj
      split_ifs at hn with hdone
      cases hn
      exact h.setShutdown ((h.shutdowns _ (List.mem_of_getElem? hj)).proceeds hdone)
        (List.getElem?_eq_some_iff.mp hj).1
    · cases hn
  | shutdownReturns j =>
    simp only [next] at hn
    split at hn
    · rename_i unbegun calls watched hj
      split_ifs at hn with hdone
      cases hn
      exact h.setShutdown ((h.shutdowns _ (List.mem_of_getElem? hj)).returns hdone)
        (List.getElem?_eq_some_iff.mp hj).1
    · cases hn
  | shutdownCancelled j =>
    simp only [next] at hn
    split at hn
    · rename_i unbegun calls hj
      cases hn
      exact h.setShutdown ((h.shutdowns _ (List.mem_of_getElem? hj)).raise (List.nil_subset _))
        (List.getElem?_eq_some_iff.mp hj).1
    · rename_i unbegun calls watched hj
      cases hn
      have hcovers := (h.shutdowns _ (List.mem_of_getElem? hj)).raise (List.Subset.refl unbegun)
      exact h.cancelWatchers.setShutdown hcovers.cancelWatchers (List.getElem?_eq_some_iff.mp hj).1
    · cases hn

/-- **Run**: the accounts are kept. -/
theorem accounts_of_reachable (h : machine.Reachable s) : s.Accounts := by
  refine h.invariant (fun s hs => ?_) fun s l t hr hs _ hn =>
    next_accounts hs (settled_of_reachable hr) hn
  rw [show s = create from hs]
  exact accounts_create

/-! ### What was noted stays true -/

/-- Every session that has been noted is as it was noted. -/
def Noted (s : SessionSupervisor β κ) : Prop :=
  ∀ n ∈ s.notes, ∀ a, s.actors[n.actor]? = some a →
    a.lifecycle = n.lifecycle ∧ a.failure = n.failure

/-- A session that has been noted has ended, for good if nobody hurries. -/
theorem Noted.stepSession {l : Lifetime.Label β} (h : s.Noted) (hacc : s.Accounts)
    (hlives : ∀ a ∈ s.actors, a.life.Settled) (htimely : ∀ a ∈ s.actors, a.life.Timely)
    (hok : ∀ a, s.actors[k]? = some a → a.life.Unhurried l) (hn : s.stepSession k l = some t) :
    t.Noted := by
  obtain ⟨a, life, ha, hlife, rfl⟩ := stepSession_eq_some hn
  have hmem := List.mem_of_getElem? ha
  have hfrozen := (Lifetime.next_timely (htimely a hmem) (hlives a hmem) (hok a ha) hlife).2
  intro n hnote x hx
  have hx : (s.actors.set k _)[n.actor]? = some x := hx
  by_cases hk : n.actor = k
  · rw [hk, List.getElem?_set_self (List.getElem?_eq_some_iff.mp ha).1] at hx
    cases hx
    obtain ⟨-, -, y, hy, -, -, hs⟩ := hacc.notes n hnote
    obtain rfl : y = a := Option.some.inj (hy.symm.trans (hk ▸ ha))
    obtain ⟨hlifecycle, hfailure⟩ := h n hnote y hy
    obtain ⟨hlifecycle', hfailure'⟩ := hfrozen hs
    exact ⟨hlifecycle'.trans hlifecycle, hfailure'.trans hfailure⟩
  · rw [List.getElem?_set_ne (Ne.symm hk)] at hx
    exact h n hnote x hx

/-- **Run**: in an unhurried run, what was noted of a session is how it has ended. -/
theorem noted_of_unhurried (h : machine.ReachableBy (Respects Lifetime.Unhurried) s) :
    s.Noted := by
  refine h.invariant (I := Noted) (fun s hs => ?_) fun s l t hr hs hok hn => ?_
  · rw [show s = create from hs]
    intro n hn
    cases hn
  -- the accounts give each note an actor, and its session the last word on how it ended
  have hacc := accounts_of_reachable hr.reachable
  have hlives := settled_of_reachable hr.reachable
  have htimely : ∀ a ∈ s.actors, a.life.Timely := fun a ha =>
    Lifetime.timely_of_reachableBy
      (lives_of_reachableBy (R := Lifetime.Unhurried) (fun _ _ => ⟨rfl, rfl⟩) hr a ha)
  cases l with
  | startSession sessionId inboxCapacity outboxCapacity observer =>
    simp only [machine, next] at hn
    split at hn
    · cases hn
      exact hs
    · rename_i t' ht
      cases hn
      obtain ⟨actor, started, -, -, -, -, rfl⟩ := startSession_eq_ok ht
      intro n hnote x hx
      obtain ⟨-, -, y, hy, -⟩ := hacc.notes n hnote
      have hx : (s.actors ++ [_])[n.actor]? = some x := hx
      rw [List.getElem?_append_left (List.getElem?_eq_some_iff.mp hy).1] at hx
      exact hs n hnote x hx
  | session k l => exact hs.stepSession hacc hlives htimely hok hn
  | stopSession sessionId graceful =>
    simp only [machine, next] at hn
    split at hn
    · cases hn
      exact hs
    · exact hs.stepSession hacc hlives htimely (l := .stop graceful) (fun _ _ => rfl) hn
  | watcherRuns k =>
    simp only [machine, next] at hn
    split at hn
    · rename_i a ha
      split_ifs at hn with hw
      cases hn
      intro n hnote x hx
      have hx : (s.actors.set k _)[n.actor]? = some x := hx
      -- an older note is of another actor, for this one was still waiting
      rcases List.mem_append.mp hnote with hold | hnew
      · have hk : n.actor ≠ k := by
          rintro rfl
          obtain ⟨-, -, y, hy, -, hr, -⟩ := hacc.notes n hold
          obtain rfl : y = a := Option.some.inj (hy.symm.trans ha)
          rw [hw.1] at hr
          cases hr
        rw [List.getElem?_set_ne hk.symm] at hx
        exact hs n hold x hx
      · obtain rfl := List.mem_singleton.mp hnew
        rw [List.getElem?_set_self (List.getElem?_eq_some_iff.mp ha).1] at hx
        cases hx
        exact ⟨rfl, rfl⟩
    · cases hn
  | shutdown =>
    cases hn
    exact hs
  | shutdownStops j =>
    simp only [machine, next] at hn
    split at hn
    · obtain ⟨t', ht, rfl⟩ := Option.map_eq_some_iff.mp hn
      have hnoted : t'.Noted :=
        hs.stepSession hacc hlives htimely (l := .stop true) (fun _ _ => rfl) ht
      exact hnoted
    · cases hn
  | shutdownProceeds j =>
    simp only [machine, next] at hn
    split at hn
    · split_ifs at hn
      cases hn
      exact hs
    · cases hn
  | shutdownReturns j =>
    simp only [machine, next] at hn
    split at hn
    · split_ifs at hn
      cases hn
      exact hs
    · cases hn
  | shutdownCancelled j =>
    simp only [machine, next] at hn
    split at hn
    · cases hn
      exact hs
    · rename_i watched _
      cases hn
      intro n hnote x hx
      have hx : (s.cancelWatchers watched).actors[n.actor]? = some x := hx
      rw [getElem?_cancelWatchers] at hx
      obtain ⟨y, hy, rfl⟩ := Option.map_eq_some_iff.mp hx
      split_ifs <;> exact hs n hnote y hy
    · cases hn

end SessionSupervisor

end Eeveetuber
