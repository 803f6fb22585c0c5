import ReUperf.Core.ScanCursor

/-!
# Task queue

The queue of a worker of `scan_worker.hpp`: a queue of keys and a map with the newest task under
each of them. A definition here is one section under the mutex. The key of a task is the identity
of its thread.
-/

namespace ReUperf

/-- The queue of a worker. -/
structure TaskQueue where
  /-- Whether the worker runs. -/
  running : Bool := true
  /-- The keys in their order. -/
  taskQueue : List Identity := []
  /-- The newest task under each key. -/
  pendingTasks : Table Identity DispatchTask := ∅

/-- The most keys a queue holds. -/
def kMaxQueuedTasks : Nat := 4096

/-- How the worker's section ends. -/
inductive DequeueResult
  /-- There is no key, and the worker waits. -/
  | waiting
  /-- There is no key, and the worker leaves its loop. -/
  | ended
  /-- There is no task under the key, and the worker goes on. -/
  | missing (key : Identity)
  /-- The worker has taken a task, which it processes next. -/
  | taken (task : DispatchTask)
  deriving DecidableEq

namespace TaskQueue

/-- The section of `enqueue`. -/
def enqueue (task : DispatchTask) (queue : TaskQueue) : EnqueueResult × TaskQueue :=
  if queue.running = false then (.stopped, queue)
  else
    match queue.pendingTasks.lookup task.identity with
    | some _ =>
      (.updated, { queue with pendingTasks := queue.pendingTasks.insert task.identity task })
    | none =>
      if kMaxQueuedTasks ≤ queue.taskQueue.length then (.queueFull, queue)
      else
        (.queued, { queue with
          taskQueue := queue.taskQueue ++ [task.identity]
          pendingTasks := queue.pendingTasks.insert task.identity task })

/-- The section of `worker_loop`. -/
def dequeue (queue : TaskQueue) : DequeueResult × TaskQueue :=
  match queue.taskQueue with
  | [] => (if queue.running then .waiting else .ended, queue)
  | key :: rest =>
    match queue.pendingTasks.lookup key with
    | none => (.missing key, { queue with taskQueue := rest })
    | some task =>
      (.taken task, { queue with
        taskQueue := rest, pendingTasks := queue.pendingTasks.erase key })

variable {queue : TaskQueue} {task : DispatchTask}

/-- What `enqueue` does, and when. -/
theorem enqueue_cases (running : queue.running = true) :
    (∃ old, queue.pendingTasks.lookup task.identity = some old ∧ queue.enqueue task =
      (.updated, { queue with pendingTasks := queue.pendingTasks.insert task.identity task })) ∨
    (queue.pendingTasks.lookup task.identity = none ∧
      kMaxQueuedTasks ≤ queue.taskQueue.length ∧ queue.enqueue task = (.queueFull, queue)) ∨
    (queue.pendingTasks.lookup task.identity = none ∧
      queue.taskQueue.length < kMaxQueuedTasks ∧ queue.enqueue task =
        (.queued, { queue with
          taskQueue := queue.taskQueue ++ [task.identity]
          pendingTasks := queue.pendingTasks.insert task.identity task })) := by
  have runs : ¬ queue.running = false := by
    rw [running]
    decide
  unfold enqueue
  rw [if_neg runs]
  cases found : queue.pendingTasks.lookup task.identity with
  | some old => exact .inl ⟨old, rfl, rfl⟩
  | none =>
    dsimp only
    by_cases full : kMaxQueuedTasks ≤ queue.taskQueue.length
    · rw [if_pos full]
      exact .inr (.inl ⟨rfl, full, rfl⟩)
    · rw [if_neg full]
      exact .inr (.inr ⟨rfl, by omega, rfl⟩)

/-- A call that is refused changes nothing. -/
theorem enqueue_refused (refused : (queue.enqueue task).1 = .queueFull ∨
    (queue.enqueue task).1 = .stopped) : (queue.enqueue task).2 = queue := by
  unfold enqueue at refused ⊢
  split
  · rfl
  next running =>
  rw [if_neg running] at refused
  split
  · next old found =>
    rw [found] at refused
    rcases refused with impossible | impossible
    · cases impossible
    · cases impossible
  next none =>
  split
  · rfl
  next room =>
  rw [none] at refused
  dsimp only at refused
  rw [if_neg room] at refused
  rcases refused with impossible | impossible
  · cases impossible
  · cases impossible

end TaskQueue

end ReUperf
