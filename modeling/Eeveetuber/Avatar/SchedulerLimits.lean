import Eeveetuber.Avatar.SchedulerReplay

/-!
# Rate limits and cooldowns

The starts that count against the limits are those of cues that are neither
exempt nor neutral. However a run goes on, no window of a configured rate limit
holds more of them than it may, and after each of them its cooldown key is
blocked for the whole cooldown (`Eeveetuber.WithinPolicy`).

The scheduler itself remembers little of this: the starts that may still be in
their window, and for each key the end of the last cooldown, until that is over.
`Eeveetuber.PresentationScheduler.Metered` says that this is enough, by relating
what is remembered to the whole journal. Nothing but a counted start touches the
relation, so cancellations, new generations, disconnections and the neutral
factory, whatever it answers, leave it alone.
-/

namespace Eeveetuber

open Foundation Foundation.Stateful PresentationScheduler

/-! ### What counts -/

/-- The event is a start that counts against rate limits and cooldowns. -/
def PresentationEvent.counted (e : PresentationEvent) : Bool :=
  e.kind = .started && e.cue.limited

/-- When the counted cues of a kind started. -/
def startTimes (p : PresentationCue → Bool) (es : List PresentationEvent) : List ℚ :=
  (es.filter fun e => e.counted && p e.cue).map (·.occurredAt)

/-- A later counted start respects the cooldown of an earlier one. -/
def Spaced (e e' : PresentationEvent) : Prop :=
  e.counted = true → e'.counted = true → ∀ key ∈ e.cue.cooldownKey, e'.cue.cooldownKey = some key →
    e.occurredAt + e.cue.cooldownS ≤ e'.occurredAt

/-- The events respect the limits. -/
structure WithinPolicy (policy : SchedulerPolicy) (es : List PresentationEvent) : Prop where
  /-- No window of the global limit holds too many counted starts. -/
  global : ∀ limit ∈ policy.globalRateLimit,
    RateBounded limit.windowS limit.maxStarts (startTimes (fun _ => true) es)
  /-- Nor does a window of a layer's limit, of the starts on that layer. -/
  layers : ∀ layer, ∀ limit ∈ policy.layerRateLimits layer,
    RateBounded limit.windowS limit.maxStarts (startTimes (fun cue => cue.layer = layer) es)
  /-- No counted cue starts before the cooldown of an earlier one of its key is over. -/
  cooldowns : es.Pairwise Spaced

section Counting

variable {p : PresentationCue → Bool} {es es' : List PresentationEvent} {e : PresentationEvent}

theorem startTimes_append : startTimes p (es ++ es') = startTimes p es ++ startTimes p es' := by
  rw [startTimes, List.filter_append, List.map_append]
  rfl

theorem startTimes_eq_nil (h : ∀ e ∈ es, e.counted = false) : startTimes p es = [] := by
  rw [startTimes, List.map_eq_nil_iff, List.filter_eq_nil_iff]
  intro e he hcounted
  rw [h e he] at hcounted
  cases hcounted

theorem startTimes_singleton (h : e.counted = true) :
    startTimes p [e] = if p e.cue then [e.occurredAt] else [] := by
  rw [startTimes, List.filter_singleton, h, Bool.true_and]
  rcases p e.cue with _ | _
  · rfl
  · rfl

theorem WithinPolicy.sublist {policy : SchedulerPolicy} (h : WithinPolicy policy es)
    (hsub : es'.Sublist es) : WithinPolicy policy es' where
  global limit hl := (h.global limit hl).sublist ((hsub.filter _).map _)
  layers layer limit hl := (h.layers layer limit hl).sublist ((hsub.filter _).map _)
  cooldowns := h.cooldowns.sublist hsub

/-- Events that do not count are spaced from all others. -/
theorem pairwise_spaced_append (h : es.Pairwise Spaced) (hes : ∀ e ∈ es', e.counted = false) :
    (es ++ es').Pairwise Spaced := by
  refine List.pairwise_append.mpr ⟨h, ?_, fun a _ b hb _ hcounted => ?_⟩
  · refine List.pairwise_of_forall_mem_list fun a ha b _ hcounted => ?_
    rw [hes a ha] at hcounted
    cases hcounted
  · rw [hes b hb] at hcounted
    cases hcounted

end Counting

namespace PresentationScheduler

variable {op : SchedulerOperation} {now last : ℚ} {s t : PresentationScheduler}
  {lease : ActiveLease} {leases : List ActiveLease} {cue : PresentationCue} {reason : StopReason}
  {replacedBy : Option Text} {needs : Bool} {needsOf : ActiveLease → Bool}

/-! ### What the scheduler remembers of it -/

/-- What the scheduler remembers at a time is enough to respect the limits from then on. -/
structure Metered (last : ℚ) (s : PresentationScheduler) : Prop where
  global : ∀ limit ∈ s.policy.globalRateLimit, Limiting limit.windowS last limit.maxStarts
    (startTimes (fun _ => true) s.journal) s.globalStarts
  layers : ∀ layer, ∀ limit ∈ s.policy.layerRateLimits layer, Limiting limit.windowS last
    limit.maxStarts (startTimes (fun cue => cue.layer = layer) s.journal) (s.layerStarts layer)
  cooldowns : s.journal.Pairwise Spaced
  /-- A cooldown is over or remembered. -/
  cooling : ∀ e ∈ s.journal, e.counted = true → ∀ key ∈ e.cue.cooldownKey,
    e.occurredAt + e.cue.cooldownS ≤ last ∨
      ∃ til ∈ s.cooldownUntil key, e.occurredAt + e.cue.cooldownS ≤ til

theorem Metered.withinPolicy (h : s.Metered last) : WithinPolicy s.policy s.journal :=
  ⟨fun limit hl => (h.global limit hl).bounded, fun layer limit hl =>
    (h.layers layer limit hl).bounded, h.cooldowns⟩

/-- Time passes. -/
theorem Metered.mono (h : s.Metered last) (hle : last ≤ now) : s.Metered now where
  global limit hl := (h.global limit hl).mono hle
  layers layer limit hl := (h.layers layer limit hl).mono hle
  cooldowns := h.cooldowns
  cooling e he hcounted key hkey := (h.cooling e he hcounted key hkey).imp_left fun hover =>
    hover.trans hle

/-- Events that do not count change nothing. -/
theorem Metered.frame (h : s.Metered last) (es : List PresentationEvent)
    (hes : ∀ e ∈ es, e.counted = false) (hjournal : t.journal = s.journal ++ es)
    (hpolicy : t.policy = s.policy) (hglobal : t.globalStarts = s.globalStarts)
    (hlayers : t.layerStarts = s.layerStarts) (hcool : t.cooldownUntil = s.cooldownUntil) :
    t.Metered last where
  global := by
    rw [hpolicy, hglobal, hjournal, startTimes_append, startTimes_eq_nil hes, List.append_nil]
    exact h.global
  layers := by
    rw [hpolicy, hlayers, hjournal]
    intro layer limit hl
    rw [startTimes_append, startTimes_eq_nil hes, List.append_nil]
    exact h.layers layer limit hl
  cooldowns := by
    rw [hjournal]
    exact pairwise_spaced_append h.cooldowns hes
  cooling := by
    rw [hjournal, hcool]
    intro e he hcounted
    rcases List.mem_append.mp he with he | he
    · exact h.cooling e he hcounted
    · rw [hes e he] at hcounted
      cases hcounted

/-- No event is built. -/
theorem Metered.silent (h : s.Metered last) (hjournal : t.journal = s.journal)
    (hpolicy : t.policy = s.policy) (hglobal : t.globalStarts = s.globalStarts)
    (hlayers : t.layerStarts = s.layerStarts) (hcool : t.cooldownUntil = s.cooldownUntil) :
    t.Metered last :=
  h.frame [] (fun _ he => absurd he List.not_mem_nil) (by rw [hjournal, List.append_nil]) hpolicy
    hglobal hlayers hcool

theorem Metered.endedAll (h : s.Metered last) :
    (s.endedAll now reason replacedBy needsOf leases).Metered last := by
  refine h.frame _ (fun e he => ?_) endedAll_journal (endedAll_policy ..) (endedAll_globalStarts ..)
    (endedAll_layerStarts ..) (endedAll_cooldownUntil ..)
  obtain ⟨-, -, hkind, -⟩ := mem_stopEvents he
  rw [PresentationEvent.counted, hkind]
  rfl

/-! ### A counted start -/

section Charging

variable {limit : RateLimitPolicy} {layer : PresentationLayer} {key : Text}

theorem charged_globalStarts (hl : s.policy.globalRateLimit = some limit) :
    (s.charged cue now).globalStarts = s.globalStarts ++ [now] := by
  rw [PresentationScheduler.charged, hl]
  rfl

theorem charged_layerStarts (hl : s.policy.layerRateLimits cue.layer = some limit) :
    (s.charged cue now).layerStarts cue.layer = s.layerStarts cue.layer ++ [now] := by
  rw [PresentationScheduler.charged, hl]
  exact Function.update_self _ _ _

theorem charged_layerStarts_of_ne (h : layer ≠ cue.layer) :
    (s.charged cue now).layerStarts layer = s.layerStarts layer := by
  rw [PresentationScheduler.charged]
  dsimp only
  split
  · exact Function.update_of_ne h _ _
  · rfl

theorem charged_cooldownUntil (hkey : cue.cooldownKey = some key) (hpos : 0 < cue.cooldownS) :
    (s.charged cue now).cooldownUntil key = some (now + cue.cooldownS) := by
  rw [PresentationScheduler.charged, hkey]
  dsimp only
  rw [if_pos hpos]
  exact Function.update_self _ _ _

theorem charged_cooldownUntil_of_ne (h : cue.cooldownKey ≠ some key) :
    (s.charged cue now).cooldownUntil key = s.cooldownUntil key := by
  rw [PresentationScheduler.charged]
  rcases hkey : cue.cooldownKey with _ | k
  · rfl
  · have hne : key ≠ k := fun heq => h (by rw [hkey, heq])
    dsimp only
    split
    · exact Function.update_of_ne hne _ _
    · rfl

end Charging

/-- **A counted start** that nothing forbids. -/
theorem Metered.charged (h : s.Metered now) (hlimited : cue.limited = true)
    (hlimits : s.WithinLimits cue now) :
    ((s.begun (.grant cue now) now).charged cue now).Metered now := by
  obtain ⟨hcooled, hroomy, hlayered⟩ := hlimits hlimited
  set u := s.begun (.grant cue now) now with hu
  have hjournal : (u.charged cue now).journal =
      s.journal ++ [⟨s.sequence + 1, .started, cue, now, none, none⟩] := rfl
  set e : PresentationEvent := ⟨s.sequence + 1, .started, cue, now, none, none⟩ with he
  have hcounted : e.counted = true := by
    rw [PresentationEvent.counted, hlimited]
    rfl
  -- an earlier cooldown of the key is over
  have hover : ∀ a ∈ s.journal, a.counted = true → ∀ key ∈ a.cue.cooldownKey,
      cue.cooldownKey = some key → a.occurredAt + a.cue.cooldownS ≤ now := by
    intro a ha hac key hkey hsame
    rcases h.cooling a ha hac key hkey with hover | ⟨til, htil, hle⟩
    · exact hover
    · exact hle.trans (hcooled key hsame til htil)
  refine ⟨fun limit hl => ?_, fun layer limit hl => ?_, ?_, fun a ha hac key hkey => ?_⟩
  · rw [hjournal, startTimes_append, startTimes_singleton hcounted, if_pos rfl,
      charged_globalStarts (s := u) hl]
    exact (h.global limit hl).concat (hroomy limit hl)
  · rw [hjournal, startTimes_append, startTimes_singleton hcounted]
    by_cases hsame : cue.layer = layer
    · subst hsame
      rw [if_pos (decide_eq_true rfl), charged_layerStarts (s := u) hl]
      exact (h.layers _ limit hl).concat (hlayered limit hl)
    · rw [if_neg (by simpa using hsame), List.append_nil,
        charged_layerStarts_of_ne (Ne.symm hsame)]
      exact h.layers layer limit hl
  · rw [hjournal]
    refine List.pairwise_append.mpr ⟨h.cooldowns, List.pairwise_singleton _ _, ?_⟩
    intro a ha b hb hac _ key hkey hsame
    rw [List.mem_singleton.mp hb] at hsame ⊢
    exact hover a ha hac key hkey hsame
  · rw [hjournal] at ha
    rcases List.mem_append.mp ha with ha | ha
    · by_cases hsame : cue.cooldownKey = some key
      · exact .inl (hover a ha hac key hkey hsame)
      · rw [charged_cooldownUntil_of_ne hsame]
        exact h.cooling a ha hac key hkey
    · rw [List.mem_singleton.mp ha] at hkey ⊢
      by_cases hpos : 0 < cue.cooldownS
      · exact .inr ⟨_, charged_cooldownUntil hkey hpos, le_rfl⟩
      · exact .inl (add_le_of_nonpos_right (not_lt.mp hpos))

theorem Metered.launched (h : s.Metered now) (hlimits : s.WithinLimits cue now) :
    (s.launched cue now).Metered now := by
  have hpre : (s.preempted cue now).Metered now := h.endedAll
  rw [PresentationScheduler.launched]
  split
  · rename_i hlimited
    refine hpre.charged hlimited fun hl => ?_
    rw [preempted, endedAll_cooldownUntil, endedAll_policy, endedAll_globalStarts,
      endedAll_layerStarts]
    exact hlimits hl
  · rename_i hlimited
    refine hpre.frame [_] (fun e he => ?_) rfl rfl rfl rfl rfl
    rw [List.mem_singleton.mp he, PresentationEvent.counted, ActiveLease.grant]
    simpa using hlimited

/-- **Every effect keeps the limits.** -/
theorem Effect.metered (h : Effect op now s t) (hs : s.Metered now) : t.Metered now := by
  -- only starts count
  have hstop : ∀ {e : PresentationEvent}, e.kind = .stopped → e.counted = false := fun hkind => by
    rw [PresentationEvent.counted, hkind]
    rfl
  rcases h with _ | _ | _ | _ | _ | _ | ⟨-, -, -, -, -, hlimits⟩ | ⟨-, -, -, -, -, hneutral, -, -⟩ |
    _ | _ | _ | _ | _ | _ | ⟨hg, hl⟩
  case expire | cancel =>
    refine hs.frame [_] (fun e he => ?_) rfl rfl rfl rfl rfl
    exact hstop (by rw [List.mem_singleton.mp he])
  case advance generation _ _ =>
    exact Metered.endedAll (s := { s with generation, pending := ∅, audioMarkers := ∅ })
      (hs.silent rfl rfl rfl rfl rfl)
  case reset =>
    have hended : (({ s with pending := ∅ } : PresentationScheduler).endedAll now .cancelled none
        (fun _ => false) s.sortedActive).Metered now :=
      Metered.endedAll (hs.silent rfl rfl rfl rfl rfl)
    exact hended.silent rfl rfl rfl rfl rfl
  case disconnect =>
    exact Metered.endedAll (s := { s with
      connected := false, pending := ∅, audioMarkers := ∅, needsNeutral := ∅ })
      (hs.silent rfl rfl rfl rfl rfl)
  case start cue =>
    exact Metered.launched (s := s.popped cue) (hs.silent rfl rfl rfl rfl rfl) hlimits
  case restore =>
    -- a neutral cue does not count
    refine hs.frame [_] (fun e he => ?_) rfl rfl rfl rfl rfl
    rw [List.mem_singleton.mp he, PresentationEvent.counted, PresentationCue.limited,
      ActiveLease.indefinite, hneutral]
    simp
  case purge =>
    refine { hs with cooling := fun e he hcounted key hkey => ?_ }
    rcases hs.cooling e he hcounted key hkey with hover | ⟨til, htil, hle⟩
    · exact .inl hover
    -- what is purged was over
    · by_cases hpast : now < til
      · exact .inr ⟨til, Option.mem_filter_iff.mpr ⟨htil, by simpa using hpast⟩, hle⟩
      · exact .inl (hle.trans (not_lt.mp hpast))
  case prune =>
    refine { hs with global := fun limit hlim => ?_, layers := fun layer limit hlim => ?_ }
    -- what is pruned has left its window
    · rcases hg with rfl | ⟨limit', hlim', rfl⟩
      · exact hs.global limit hlim
      · obtain rfl := Option.mem_unique hlim hlim'
        exact (hs.global limit hlim).prune
    · rcases hl layer with hsame | ⟨limit', hlim', hpruned⟩
      · dsimp only
        rw [hsame]
        exact hs.layers layer limit hlim
      · obtain rfl := Option.mem_unique hlim hlim'
        dsimp only
        rw [hpruned]
        exact (hs.layers layer limit hlim).prune
  all_goals exact hs.silent rfl rfl rfl rfl rfl

end PresentationScheduler

/-! ### In every run -/

section Runs

variable {d : SchedulerRun} {ok : SchedulerRun → SchedulerOperation × Clock → Prop}

/-- At no time that the clock may return next has the scheduler forgotten a limit. -/
theorem metered_of_reachable (h : schedulerMachine.ReachableBy ok d) (now : ℚ)
    (hnow : ∀ last ∈ d.lastReading, last ≤ now) : d.scheduler.Metered now := by
  refine h.invariant (I := fun d => ∀ now, (∀ last ∈ d.lastReading, last ≤ now) →
    d.scheduler.Metered now) ?_ ?_ now hnow
  · rintro _ ⟨generation, policy, neutralFactory, rfl⟩ now -
    exact ⟨fun _ _ => .nil, fun _ _ _ => .nil, List.Pairwise.nil,
      fun _ he => absurd he List.not_mem_nil⟩
  · rintro d ⟨op, clock⟩ d' - hd - hnext now hnow
    rcases schedulerMachine_next hnext with ⟨-, hsame, hlast, -⟩ |
      ⟨read, -, -, hread, hlast, heffects, -, -⟩
    · rw [hsame]
      exact hd now (by rwa [← hlast])
    · have hmetered : d'.scheduler.Metered read :=
        heffects.invariant (hd read hread) fun _ _ hu hstep => hstep.metered hu
      exact hmetered.mono (hnow read hlast)

/-- Every event that was returned was built, and in that order. -/
theorem returned_sublist_journal (h : schedulerMachine.ReachableBy ok d) :
    d.returned.flatten.Sublist d.scheduler.journal := by
  refine h.invariant (I := fun d => d.returned.flatten.Sublist d.scheduler.journal) ?_ ?_
  · rintro _ ⟨generation, policy, neutralFactory, rfl⟩
    exact List.Sublist.slnil
  · rintro d ⟨op, clock⟩ d' - hd - hnext
    rcases schedulerMachine_next hnext with ⟨-, hsame, -, hr | hr⟩ |
      ⟨now, answer, -, -, -, heffects, hout, ⟨batch, rfl, hr⟩ | ⟨e, rfl, hr⟩⟩
    · rwa [hr, hsame]
    · rwa [hr, hsame, List.flatten_concat, List.append_nil]
    · obtain ⟨hsteps, -⟩ := triple_perform_steps.ok rfl hout
      rw [hr, List.flatten_concat, hsteps.2]
      exact hd.append (List.Sublist.refl _)
    · obtain ⟨es, hes, -⟩ := heffects.replaced
      rw [hr, hes]
      exact hd.trans (List.sublist_append_left _ _)

/-- **Rate limits and cooldowns.** In every run, whatever the neutral factory
answers, the events that were built respect the limits, and so do those that
were returned. -/
theorem scheduler_limits (d : SchedulerRun) (h : schedulerMachine.Reachable d) :
    WithinPolicy d.scheduler.policy d.scheduler.journal ∧
      WithinPolicy d.scheduler.policy d.returned.flatten := by
  have hlimits : WithinPolicy d.scheduler.policy d.scheduler.journal := by
    rcases hlast : d.lastReading with _ | last
    · exact (metered_of_reachable h 0 (by simp [hlast])).withinPolicy
    · exact (metered_of_reachable h last (by simp [hlast])).withinPolicy
  exact ⟨hlimits, hlimits.sublist (returned_sublist_journal h)⟩

/-- With one start a second, the second cue starts when the window of the first
has just closed. -/
theorem scheduler_limits_window : ∃ d : SchedulerRun,
    d.returned.map (·.map fun e => (e.kind, e.cue.cueId, e.occurredAt)) =
      [[(.started, "wave".toList, 0)], [],
        [(.stopped, "wave".toList, 1), (.started, "lean".toList, 1)]] ∧
      WithinPolicy d.scheduler.policy d.scheduler.journal ∧
      WithinPolicy d.scheduler.policy d.returned.flatten := by
  have hrun : (schedulerMachine.run ⟨.create 0 { SchedulerPolicy.default with
        globalRateLimit := some ⟨1, 1, le_rfl, zero_lt_one⟩ } none, none, []⟩
      [(.submit wave, some 0), (.submit lean, some (1 / 2)), (.submit lean, some 1)]).map
      (fun d => d.returned.map (·.map fun e => (e.kind, e.cue.cueId, e.occurredAt))) =
      some [[(.started, "wave".toList, 0)], [],
        [(.stopped, "wave".toList, 1), (.started, "lean".toList, 1)]] := by decide +kernel
  obtain ⟨d, hd, hreturned⟩ := Option.map_eq_some_iff.mp hrun
  exact ⟨d, hreturned, scheduler_limits d (Machine.reachable_of_run ⟨_, _, _, rfl⟩ hd)⟩

end Runs

end Eeveetuber
