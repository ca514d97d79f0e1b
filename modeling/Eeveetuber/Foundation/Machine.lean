import Mathlib.Logic.Basic

/-!
# Machines and their runs

A concurrent program is given here as a *guarded step function*: `next s l` is
the state after the step named by the label `l`, and `none` when that step is
not enabled in `s`. The labels carry every choice the environment makes – which
task runs, what a provider answers – so that a run is a list of labels and a
concrete run can be replayed by evaluation.

The states a machine reaches are those of `Foundation.Machine.ReachableBy`,
whose parameter restricts the steps of the run: a property which the program
only has while its steps meet some condition is a property of the states
reachable by those steps. `Foundation.Machine.Reachable` is the unrestricted
notion, and `Foundation.Machine.Leads` the relation between a state and the
later ones.
-/

namespace Foundation

/-- A guarded step function, with the states a run may start from. -/
structure Machine (σ ι : Type) where
  /-- The states a run starts from. -/
  start : σ → Prop
  /-- The step named by a label, if it is enabled. -/
  next : σ → ι → Option σ

namespace Machine

variable {σ ι : Type} (M : Machine σ ι)

/-- The states reached by runs all of whose steps meet `ok`. -/
inductive ReachableBy (ok : σ → ι → Prop) : σ → Prop
  /-- A run starts. -/
  | start {s : σ} : M.start s → ReachableBy ok s
  /-- A run takes one more step. -/
  | step {s t : σ} {l : ι} : ReachableBy ok s → ok s l → M.next s l = some t → ReachableBy ok t

/-- The states reached by any run. -/
abbrev Reachable : σ → Prop := M.ReachableBy fun _ _ => True

/-- A run leads from one state to another. -/
inductive Leads : σ → σ → Prop
  /-- The empty run. -/
  | refl (s : σ) : Leads s s
  /-- One more step. -/
  | step {s t u : σ} {l : ι} : Leads s t → M.next t l = some u → Leads s u

/-- Replay a list of labels. -/
def run : σ → List ι → Option σ
  | s, [] => some s
  | s, l :: ls => (M.next s l).bind fun t => run t ls

variable {M} {ok ok' : σ → ι → Prop} {s t u : σ}

theorem ReachableBy.mono (h : M.ReachableBy ok s) (hok : ∀ s l, ok s l → ok' s l) :
    M.ReachableBy ok' s := by
  induction h with
  | start h => exact .start h
  | step _ hl hn ih => exact .step ih (hok _ _ hl) hn

/-- A restricted run is a run. -/
theorem ReachableBy.reachable (h : M.ReachableBy ok s) : M.Reachable s :=
  h.mono fun _ _ _ => trivial

/-- **Invariants.** What holds of the starting states and is preserved by every
step the run may take, from states it can reach, holds of every state reached. -/
theorem ReachableBy.invariant {I : σ → Prop} (h : M.ReachableBy ok s)
    (hstart : ∀ s, M.start s → I s)
    (hstep : ∀ s l t, M.ReachableBy ok s → I s → ok s l → M.next s l = some t → I t) : I s := by
  induction h with
  | start h => exact hstart _ h
  | step hr hl hn ih => exact hstep _ _ _ hr ih hl hn

theorem Leads.trans (h : M.Leads s t) (h' : M.Leads t u) : M.Leads s u := by
  induction h' with
  | refl => exact h
  | step _ hn ih => exact .step ih hn

theorem Leads.single {l : ι} (h : M.next s l = some t) : M.Leads s t := .step (.refl s) h

/-- What one state has and every step preserves, every later state has. -/
theorem Leads.invariant {I : σ → Prop} (h : M.Leads s t) (hs : I s)
    (hstep : ∀ s l t, I s → M.next s l = some t → I t) : I t := by
  induction h with
  | refl => exact hs
  | step _ hn ih => exact hstep _ _ _ ih hn

/-- A run from a reachable state ends in a reachable state. -/
theorem Leads.reachable (h : M.Leads s t) (hs : M.Reachable s) : M.Reachable t :=
  h.invariant hs fun _ _ _ hr hn => .step hr trivial hn

theorem run_cons {l : ι} {ls : List ι} :
    M.run s (l :: ls) = (M.next s l).bind fun t => M.run t ls := rfl

/-- A replay is a run. -/
theorem leads_of_run : ∀ {ls : List ι} {s : σ}, M.run s ls = some t → M.Leads s t
  | [], s, h => by
    obtain rfl : s = t := by simpa [run] using h
    exact .refl s
  | l :: ls, s, h => by
    rw [run_cons, Option.bind_eq_some_iff] at h
    obtain ⟨v, hv, hrest⟩ := h
    exact (Leads.single hv).trans (leads_of_run hrest)

/-- The state a replay from a starting state ends in is reachable. -/
theorem reachable_of_run {ls : List ι} (hs : M.start s) (h : M.run s ls = some t) :
    M.Reachable t :=
  (leads_of_run h).reachable (.start hs)

/-- The machine that takes only the steps which meet a condition. -/
def restrict (M : Machine σ ι) (ok : σ → ι → Prop) [∀ s l, Decidable (ok s l)] :
    Machine σ ι where
  start := M.start
  next s l := if ok s l then M.next s l else none

/-- A replay that tests a condition at each step is a run all of whose steps meet it. -/
theorem reachableBy_of_run [∀ s l, Decidable (ok s l)] {ls : List ι} (hs : M.ReachableBy ok s)
    (h : (M.restrict ok).run s ls = some t) : M.ReachableBy ok t := by
  refine (leads_of_run h).invariant (I := M.ReachableBy ok) hs fun s l t hr hn => ?_
  rw [restrict] at hn
  dsimp only at hn
  split at hn
  · rename_i hok
    exact .step hr hok hn
  · cases hn

/-- A replay of labels that meet a condition wherever the run may be is a run all of
whose steps meet it; `I` says where that is. -/
theorem reachableBy_of_labels {I : σ → Prop} (hI : ∀ s l t, I s → M.next s l = some t → I t) :
    ∀ {ls : List ι} {s : σ}, (∀ s l, I s → l ∈ ls → ok s l) → M.ReachableBy ok s → I s →
      M.run s ls = some t → M.ReachableBy ok t
  | [], s, _, hs, _, h => by
    obtain rfl : s = t := by simpa [run] using h
    exact hs
  | l :: ls, s, hok, hs, hi, h => by
    rw [run_cons, Option.bind_eq_some_iff] at h
    obtain ⟨v, hv, hrest⟩ := h
    exact reachableBy_of_labels hI (fun s l' hs' hl' => hok s l' hs' (List.mem_cons_of_mem _ hl'))
      (.step hs (hok s l hi List.mem_cons_self) hv) (hI _ _ _ hi hv) hrest

end Machine

end Foundation
