import ReUperf.Core.EventRouter
import ReUperf.Core.TaskQueue
import ReUperf.Lib.Waiting

/-!
# Waking and stopping the threads

A worker and the router of events each run a loop that waits on a condition variable. Both are
stopped by clearing a flag outside the mutex, notifying and joining the thread. The module shows that
neither sleeps while there is work, and when exactly a stop comes to an end.
-/

namespace ReUperf

open Waiting

/-! ## Workers -/

/-- The loop of a worker. The call of `enqueue` notifies when it has queued a task. -/
def workerLoop : WaitLoop TaskQueue where
  hasWork queue := !queue.taskQueue.isEmpty
  put running before after notifies := ∃ task,
    after = (TaskQueue.enqueue task { before with running := running }).2 ∧
      (notifies = true ↔ (TaskQueue.enqueue task { before with running := running }).1 = .queued)
  take running queue := (TaskQueue.dequeue { queue with running := running }).2
  pauses := false
  begin queue := queue
  clear queue := { queue with taskQueue := [], pendingTasks := ∅ }
  silent := by
    intro running before after ⟨task, stored, notified⟩ works
    rw [stored] at works
    cases running with
    | false =>
      rw [TaskQueue.enqueue_refused (.inr rfl)] at works
      exact works
    | true =>
      have runs : ({ before with running := true } : TaskQueue).running = true := rfl
      rcases TaskQueue.enqueue_cases runs with ⟨old, -, result⟩ | ⟨-, -, result⟩ | ⟨-, -, result⟩
      · rw [result] at works
        exact works
      · rw [result] at works
        exact works
      · rw [result] at notified
        exact absurd (notified.mpr rfl) Bool.false_ne_true

namespace TaskQueue

variable {state : WaitState TaskQueue}

/-- However producers, the owner and a worker are interleaved, and however often the worker is started
and stopped: no thread is constructed beside another; a worker never sleeps while tasks are queued,
unless a notification is on its way; and a stopped worker comes to its end by itself exactly when it
neither waits nor is about to. It only waits then when the notification of the stop came between its
test of the flag and its block. -/
theorem worker_stop (reached : Reaches workerLoop { work := {} } state) :
    state.doubled = false ∧
    (state.thread = some .blocked → state.work.taskQueue ≠ [] → 0 < state.notifying) ∧
    (state.owner = .idle → state.running = false → state.thread = none) ∧
    (state.owner = .notified → state.thread.isSome = true →
      ((∃ after, Relation.ReflTransGen (WorkerStep workerLoop) state after ∧
          after.thread = some .ended) ↔
        ¬ (state.thread = some .committed ∨ state.thread = some .blocked)) ∧
      ((state.thread = some .committed ∨ state.thread = some .blocked) →
        state.missed = true)) := by
  have kept := reached.kept
  refine ⟨kept.alone, fun blocked queued => ?_, kept.thread_eq_none, kept.ends_iff⟩
  have works : (!state.work.taskQueue.isEmpty) = true := by simpa using queued
  exact kept.blocked blocked works

/-- Such a stop is possible, and the worker never ends then. -/
theorem worker_stop_missed : ∃ state : WaitState TaskQueue,
    Reaches workerLoop { work := {} } state ∧ state.owner = .notified ∧ state.missed = true ∧
    ¬ ∃ after, Relation.ReflTransGen (WorkerStep workerLoop) state after ∧
      after.thread = some .ended := by
  have reached : Reaches workerLoop { work := {} } (missedState workerLoop {}) :=
    reaches_missedState rfl
  have ends := (worker_stop reached).2.2.2 rfl rfl
  exact ⟨_, reached, rfl, rfl, fun gone => ends.1.mp gone (.inr rfl)⟩

end TaskQueue

/-! ## The router -/

/-- The loop of the router. A call of `add_event` tests the flag before it locks the mutex, so an event
can still come when the flag is cleared. It always notifies. -/
def routerLoop : WaitLoop EventRouter where
  hasWork := EventRouter.hasWork
  put _ before after notifies := ∃ event : ProcessEvent, 0 < event.pid ∧
    after = (EventRouter.addEvent { before with running := true } event).2 ∧ notifies = true
  take _ router := router.exchange
  pauses := true
  begin router := router.exchange
  clear router := { router with pendingEvents := ∅, trackedPids := ∅ }
  silent := by
    intro _ before after puts
    obtain ⟨event, -, -, notified⟩ := puts
    cases notified

namespace EventRouter

variable {state : WaitState EventRouter}

/-- However threads report events, and however often the router is started and stopped: no thread is
constructed beside another; the router never sleeps while events are pending or were dropped, unless a
notification is on its way; and a stopped router comes to its end by itself exactly when it neither
waits for events nor is about to. It only waits then when the notification of the stop came between
its test of the flag and its block. -/
theorem router_stop (reached : Reaches routerLoop { work := {} } state) :
    state.doubled = false ∧
    (state.thread = some .blocked → state.work.hasWork = true → 0 < state.notifying) ∧
    (state.owner = .idle → state.running = false → state.thread = none) ∧
    (state.owner = .notified → state.thread.isSome = true →
      ((∃ after, Relation.ReflTransGen (WorkerStep routerLoop) state after ∧
          after.thread = some .ended) ↔
        ¬ (state.thread = some .committed ∨ state.thread = some .blocked)) ∧
      ((state.thread = some .committed ∨ state.thread = some .blocked) →
        state.missed = true)) := by
  have kept := reached.kept
  exact ⟨kept.alone, kept.blocked, kept.thread_eq_none, kept.ends_iff⟩

/-- The stop of the router can be missed as well. -/
theorem router_stop_missed : ∃ state : WaitState EventRouter,
    Reaches routerLoop { work := {} } state ∧ state.owner = .notified ∧ state.missed = true ∧
    ¬ ∃ after, Relation.ReflTransGen (WorkerStep routerLoop) state after ∧
      after.thread = some .ended := by
  have reached : Reaches routerLoop { work := {} } (missedState routerLoop {}) :=
    reaches_missedState rfl
  have ends := (router_stop reached).2.2.2 rfl rfl
  exact ⟨_, reached, rfl, rfl, fun gone => ends.1.mp gone (.inr rfl)⟩

end EventRouter

end ReUperf
