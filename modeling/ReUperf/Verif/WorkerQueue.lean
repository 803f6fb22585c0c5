import ReUperf.Core.TaskQueue
import ReUperf.Lib.History

/-!
# Worker queue

Any number of threads enqueue tasks while the worker dequeues them, in any order of their sections.
The module tells what the queue holds after a history of sections, which task the worker takes and
what becomes of every task that was accepted.
-/

namespace ReUperf.TaskQueue

open Effect.History

/-! ## Histories -/

/-- A section that was run. -/
inductive QueueEvent
  /-- A task was enqueued, with an answer. -/
  | enqueued (task : DispatchTask) (result : EnqueueResult)
  /-- The worker looked for a task. -/
  | dequeued (result : DequeueResult)

/-- The sections run one after another. -/
inductive Runs : TaskQueue → List QueueEvent → TaskQueue → Prop where
  /-- No section. -/
  | start (queue : TaskQueue) : Runs queue [] queue
  /-- One more `enqueue`. -/
  | enqueue {first queue : TaskQueue} {history : List QueueEvent}
      (runs : Runs first history queue) (task : DispatchTask) :
      Runs first (history ++ [.enqueued task (queue.enqueue task).1]) (queue.enqueue task).2
  /-- One more section of the worker. -/
  | dequeue {first queue : TaskQueue} {history : List QueueEvent}
      (runs : Runs first history queue) :
      Runs first (history ++ [.dequeued queue.dequeue.1]) queue.dequeue.2

/-- A task is accepted by the answer. -/
def Accepts (result : EnqueueResult) : Prop := result = .queued ∨ result = .updated

instance : DecidablePred Accepts := fun _ => inferInstanceAs (Decidable (_ ∨ _))

/-- A section puts a task under a key, or takes the key. -/
def QueueEvent.Concerns (key : Identity) : QueueEvent → Prop
  | .enqueued task result => task.identity = key ∧ Accepts result
  | .dequeued (.taken task) => task.identity = key
  | .dequeued (.missing other) => other = key
  | .dequeued _ => False

/-- The task is the newest one that was accepted under its key, and its key was not taken since. -/
def Awaits (task : DispatchTask) (history : List QueueEvent) : Prop :=
  ∃ earlier result later, history = earlier ++ .enqueued task result :: later ∧ Accepts result ∧
    ∀ event ∈ later, ¬ event.Concerns task.identity

/-- The keys of the tasks that were added to the queue, in their order. -/
def queuedKeys (history : List QueueEvent) : List Identity :=
  history.filterMap fun
    | .enqueued task .queued => some task.identity
    | _ => none

/-- The keys that were dequeued, in their order. -/
def takenKeys (history : List QueueEvent) : List Identity :=
  history.filterMap fun
    | .dequeued (.taken task) => some task.identity
    | .dequeued (.missing key) => some key
    | _ => none

/-- What holds of a queue after a history. -/
structure Lawful (history : List QueueEvent) (queue : TaskQueue) : Prop where
  /-- The keys are distinct. -/
  distinct : queue.taskQueue.Nodup
  /-- They are the keys of the pending tasks. -/
  keys : ∀ key, key ∈ queue.taskQueue ↔ (queue.pendingTasks.lookup key).isSome = true
  /-- There are not too many. -/
  bounded : queue.taskQueue.length ≤ kMaxQueuedTasks
  /-- Keys are dequeued in the order in which they were added. -/
  inOrder : queuedKeys history = takenKeys history ++ queue.taskQueue
  /-- A key is added by the first task that is accepted under it since it was dequeued. -/
  first : ∀ before task result after, history = before ++ .enqueued task result :: after →
    (result = .queued → ∀ old, old.identity = task.identity → ¬ Awaits old before) ∧
    (result = .updated → ∃ old, old.identity = task.identity ∧ Awaits old before)
  /-- The worker takes the newest task that was accepted under its key. -/
  newest : ∀ before task after, history = before ++ .dequeued (.taken task) :: after →
    Awaits task before
  /-- A task that is still pending is the newest one under its key. -/
  pending : ∀ key task, queue.pendingTasks.lookup key = some task ↔
    task.identity = key ∧ Awaits task history
  /-- The worker always finds a task under the key it dequeues. -/
  found : ∀ key, .dequeued (.missing key) ∉ history
  /-- A task that was accepted is the next one taken under its key, or a newer one replaces it, or
  it is still pending. -/
  fate : ∀ before task result after, history = before ++ .enqueued task result :: after →
    Accepts result →
      (∃ between event rest, after = between ++ event :: rest ∧
        (∀ event ∈ between, ¬ event.Concerns task.identity) ∧
        (event = .dequeued (.taken task) ∨
          ∃ newer answer, event = .enqueued newer answer ∧ newer.identity = task.identity ∧
            Accepts answer)) ∨
      ((∀ event ∈ after, ¬ event.Concerns task.identity) ∧
        queue.pendingTasks.lookup task.identity = some task)
  /-- A refused task changes nothing. -/
  refused : ∀ task, (queue.enqueue task).1 = .queueFull ∨ (queue.enqueue task).1 = .stopped →
    (queue.enqueue task).2 = queue
  /-- While there are keys the worker takes a task. -/
  serves : queue.taskQueue ≠ [] → ∃ task, queue.dequeue.1 = .taken task
  /-- However many tasks are enqueued meanwhile, a key is dequeued after those before it. -/
  progress : ∀ more after, Runs queue more after → ∀ position key,
    queue.taskQueue[position]? = some key → position < (takenKeys more).length →
      (takenKeys more)[position]? = some key

variable {first queue after : TaskQueue} {history : List QueueEvent} {task : DispatchTask}
  {event : QueueEvent} {key : Identity}

/-! ## One more section -/

theorem queuedKeys_append (left right : List QueueEvent) :
    queuedKeys (left ++ right) = queuedKeys left ++ queuedKeys right := List.filterMap_append

theorem takenKeys_append (left right : List QueueEvent) :
    takenKeys (left ++ right) = takenKeys left ++ takenKeys right := List.filterMap_append

/-- The newest task after one more section: the one it put, or the newest one before unless the
section concerns its key. -/
theorem awaits_snoc : Awaits task (history ++ [event]) ↔
    (∃ result, event = .enqueued task result ∧ Accepts result) ∨
      (Awaits task history ∧ ¬ event.Concerns task.identity) := by
  constructor
  · intro awaits
    obtain ⟨earlier, result, later, same, accepted, untouched⟩ := awaits
    rcases split_snoc same with ⟨-, -, this⟩ | ⟨rest, more, before⟩
    · exact .inl ⟨result, this.symm, accepted⟩
    · right
      rw [more] at untouched
      constructor
      · refine ⟨earlier, result, rest, before, accepted, fun other member => ?_⟩
        exact untouched other (List.mem_append_left _ member)
      · exact untouched event (List.mem_append_right _ (List.mem_singleton_self event))
  · intro either
    rcases either with ⟨result, this, accepted⟩ | ⟨awaits, other⟩
    · refine ⟨history, result, [], by rw [this], accepted, fun event member => ?_⟩
      cases member
    · obtain ⟨earlier, result, later, same, accepted, untouched⟩ := awaits
      refine ⟨earlier, result, later ++ [event], ?_, accepted, fun other member => ?_⟩
      · rw [same, List.append_assoc, List.cons_append]
      · rcases List.mem_append.mp member with earlier | last
        · exact untouched other earlier
        · rw [List.mem_singleton.mp last]
          assumption

/-- The part of the laws that each section preserves. -/
structure Holds (history : List QueueEvent) (queue : TaskQueue) : Prop where
  /-- The worker runs. -/
  running : queue.running = true
  /-- The keys are distinct. -/
  distinct : queue.taskQueue.Nodup
  /-- They are the keys of the pending tasks. -/
  keys : ∀ key, key ∈ queue.taskQueue ↔ (queue.pendingTasks.lookup key).isSome = true
  /-- There are not too many. -/
  bounded : queue.taskQueue.length ≤ kMaxQueuedTasks
  /-- Keys are dequeued in the order in which they were added. -/
  inOrder : queuedKeys history = takenKeys history ++ queue.taskQueue
  /-- The pending tasks are the newest ones. -/
  pending : ∀ key task, queue.pendingTasks.lookup key = some task ↔
    task.identity = key ∧ Awaits task history

/-- What one section was, and what it found. -/
def Fits (history : List QueueEvent) : QueueEvent → Prop
  | .enqueued task .queued => ∀ old, old.identity = task.identity → ¬ Awaits old history
  | .enqueued task .updated => ∃ old, old.identity = task.identity ∧ Awaits old history
  | .dequeued (.taken task) => Awaits task history
  | .dequeued (.missing _) => False
  | _ => True

/-- Tasks are pending as before when no key is concerned. -/
theorem pending_kept (pending : ∀ key task, queue.pendingTasks.lookup key = some task ↔
      task.identity = key ∧ Awaits task history) (none : ∀ key, ¬ event.Concerns key)
    (key : Identity) (task : DispatchTask) : queue.pendingTasks.lookup key = some task ↔
      task.identity = key ∧ Awaits task (history ++ [event]) := by
  rw [pending, awaits_snoc]
  have added : ¬ ∃ result, event = .enqueued task result ∧ Accepts result := by
    intro accepted
    obtain ⟨result, rfl, accepted⟩ := accepted
    exact none task.identity ⟨rfl, accepted⟩
  rw [or_iff_right added]
  exact and_congr_right fun _ => (and_iff_left (none task.identity)).symm

/-- An accepted task is pending under its key. -/
theorem pending_insert {result : EnqueueResult}
    (pending : ∀ key task, queue.pendingTasks.lookup key = some task ↔
      task.identity = key ∧ Awaits task history) (accepted : Accepts result)
    (key : Identity) (other : DispatchTask) :
    (queue.pendingTasks.insert task.identity task).lookup key = some other ↔
      other.identity = key ∧ Awaits other (history ++ [.enqueued task result]) := by
  rw [awaits_snoc]
  by_cases same : key = task.identity
  · rw [same, AList.lookup_insert]
    constructor
    · intro this
      obtain rfl := Option.some.inj this
      exact ⟨rfl, .inl ⟨result, rfl, accepted⟩⟩
    · intro awaits
      obtain ⟨ofKey, ⟨answer, this, -⟩ | ⟨-, other⟩⟩ := awaits
      · obtain ⟨rfl, -⟩ := QueueEvent.enqueued.inj this
        rfl
      · exact absurd ⟨ofKey.symm, accepted⟩ other
  · rw [AList.lookup_insert_ne same, pending]
    refine and_congr_right fun ofKey => ?_
    constructor
    · intro awaits
      refine .inr ⟨awaits, fun concerned => same ?_⟩
      rw [← ofKey]
      exact concerned.1.symm
    · intro either
      rcases either with ⟨answer, this, -⟩ | ⟨awaits, -⟩
      · obtain ⟨rfl, -⟩ := QueueEvent.enqueued.inj this
        exact absurd ofKey.symm same
      · exact awaits

/-- A taken task is not pending any more. -/
theorem pending_erase (pending : ∀ key task, queue.pendingTasks.lookup key = some task ↔
      task.identity = key ∧ Awaits task history) (key : Identity) (other : DispatchTask) :
    (queue.pendingTasks.erase task.identity).lookup key = some other ↔
      other.identity = key ∧ Awaits other (history ++ [.dequeued (.taken task)]) := by
  have added : ¬ ∃ result, QueueEvent.dequeued (.taken task) = .enqueued other result ∧
      Accepts result := by
    intro accepted
    obtain ⟨result, impossible, -⟩ := accepted
    cases impossible
  rw [awaits_snoc, or_iff_right added]
  by_cases same : key = task.identity
  · rw [same, AList.lookup_erase]
    constructor
    · intro impossible
      cases impossible
    · intro awaits
      exact absurd awaits.1.symm awaits.2.2
  · rw [AList.lookup_erase_ne same, pending]
    refine and_congr_right fun ofKey => (and_iff_left fun concerned => same ?_).symm
    have concerned : task.identity = other.identity := concerned
    rw [← ofKey, concerned]

/-- Inserting a task under a key adds the key. -/
theorem isSome_insert : ((queue.pendingTasks.insert task.identity task).lookup key).isSome = true ↔
    key = task.identity ∨ (queue.pendingTasks.lookup key).isSome = true := by
  by_cases same : key = task.identity
  · rw [same, AList.lookup_insert]
    exact iff_of_true rfl (.inl rfl)
  · rw [AList.lookup_insert_ne same, or_iff_right same]

/-- What an `enqueue` preserves, and what it finds. -/
theorem Holds.enqueue (holds : Holds history queue) (task : DispatchTask) :
    Holds (history ++ [.enqueued task (queue.enqueue task).1]) (queue.enqueue task).2 ∧
      Fits history (.enqueued task (queue.enqueue task).1) := by
  rcases enqueue_cases holds.running with ⟨old, stored, same⟩ | ⟨none, full, same⟩ |
    ⟨none, room, same⟩
  · rw [same]
    have member : task.identity ∈ queue.taskQueue := by
      rw [holds.keys, stored]
      rfl
    have keys : ∀ key, key ∈ queue.taskQueue ↔
        ((queue.pendingTasks.insert task.identity task).lookup key).isSome = true := by
      intro key
      rw [isSome_insert, ← holds.keys]
      constructor
      · exact .inr
      · intro either
        rcases either with rfl | listed
        · exact member
        · exact listed
    refine ⟨⟨holds.running, holds.distinct, keys, holds.bounded, ?_,
      pending_insert holds.pending (.inr rfl)⟩, old, (holds.pending _ _).mp stored⟩
    rw [queuedKeys_append, takenKeys_append, holds.inOrder]
    simp [queuedKeys, takenKeys]
  · rw [same]
    have none : ∀ key, ¬ (QueueEvent.enqueued task .queueFull).Concerns key := by
      intro key concerned
      rcases concerned.2 with impossible | impossible
      · cases impossible
      · cases impossible
    refine ⟨⟨holds.running, holds.distinct, holds.keys, holds.bounded, ?_,
      pending_kept holds.pending none⟩, trivial⟩
    rw [queuedKeys_append, takenKeys_append, holds.inOrder]
    simp [queuedKeys, takenKeys]
  · rw [same]
    have missing : task.identity ∉ queue.taskQueue := by
      rw [holds.keys, none]
      decide
    have keys : ∀ key, key ∈ queue.taskQueue ++ [task.identity] ↔
        ((queue.pendingTasks.insert task.identity task).lookup key).isSome = true := by
      intro key
      rw [isSome_insert, ← holds.keys, List.mem_append, List.mem_singleton, or_comm]
    have distinct : (queue.taskQueue ++ [task.identity]).Nodup := by
      rw [← List.concat_eq_append]
      exact List.Nodup.concat missing holds.distinct
    have bounded : (queue.taskQueue ++ [task.identity]).length ≤ kMaxQueuedTasks := by
      rw [List.length_append, List.length_singleton]
      omega
    refine ⟨⟨holds.running, distinct, keys, bounded, ?_,
      pending_insert holds.pending (.inl rfl)⟩, fun old ofKey awaits => ?_⟩
    · rw [queuedKeys_append, takenKeys_append, holds.inOrder, List.append_assoc]
      simp [queuedKeys, takenKeys]
    · have stored := (holds.pending task.identity old).mpr ⟨ofKey, awaits⟩
      rw [none] at stored
      cases stored

/-- What a section of the worker preserves, and what it finds. -/
theorem Holds.dequeue (holds : Holds history queue) :
    Holds (history ++ [.dequeued queue.dequeue.1]) queue.dequeue.2 ∧
      Fits history (.dequeued queue.dequeue.1) := by
  cases keys : queue.taskQueue with
  | nil =>
    have same : queue.dequeue = (.waiting, queue) := by
      rw [TaskQueue.dequeue, keys]
      dsimp only
      rw [if_pos holds.running]
    rw [same]
    refine ⟨⟨holds.running, holds.distinct, holds.keys, holds.bounded, ?_,
      pending_kept holds.pending fun key => id⟩, trivial⟩
    rw [queuedKeys_append, takenKeys_append, holds.inOrder]
    simp [queuedKeys, takenKeys]
  | cons key rest =>
    have listed : key ∈ queue.taskQueue := by
      rw [keys]
      exact List.mem_cons_self
    obtain ⟨task, stored⟩ := Option.isSome_iff_exists.mp ((holds.keys key).mp listed)
    have same : queue.dequeue = (.taken task, { queue with
        taskQueue := rest, pendingTasks := queue.pendingTasks.erase key }) := by
      rw [TaskQueue.dequeue, keys]
      dsimp only
      rw [stored]
    obtain ⟨ofKey, awaits⟩ := (holds.pending key task).mp stored
    have distinct := holds.distinct
    rw [keys, List.nodup_cons] at distinct
    rw [same, ← ofKey]
    refine ⟨⟨holds.running, distinct.2, ?_, ?_, ?_, pending_erase holds.pending⟩, awaits⟩
    · intro other
      have before := holds.keys other
      rw [keys, List.mem_cons] at before
      by_cases this : other = task.identity
      · rw [this, AList.lookup_erase, ofKey]
        exact iff_of_false distinct.1 (by decide)
      · have differ : other ≠ key := by
          rw [← ofKey]
          exact this
        rw [AList.lookup_erase_ne this, ← before, or_iff_right differ]
    · have bounded := holds.bounded
      rw [keys, List.length_cons] at bounded
      show rest.length ≤ kMaxQueuedTasks
      omega
    · rw [queuedKeys_append, takenKeys_append, holds.inOrder, keys, ofKey]
      simp [queuedKeys, takenKeys, ofKey]

/-! ## Whole histories -/

/-- No task is the newest one of no section. -/
theorem not_awaits_nil : ¬ Awaits task [] := by
  intro awaits
  obtain ⟨earlier, result, later, none, -⟩ := awaits
  exact absurd none.symm (List.append_ne_nil_of_right_ne_nil _ (List.cons_ne_nil _ _))

/-- What holds in the beginning holds after every history. -/
theorem Runs.holds (runs : Runs {} history queue) : Holds history queue ∧ AllFit Fits history := by
  induction runs with
  | start =>
    constructor
    · refine ⟨rfl, List.nodup_nil, fun key => ?_, Nat.zero_le _, rfl, fun key task => ?_⟩
      · have none : ¬ (AList.lookup key (∅ : Table Identity DispatchTask)).isSome = true := by
          rw [AList.lookup_empty]
          decide
        exact iff_of_false List.not_mem_nil none
      · constructor
        · intro impossible
          cases impossible
        · intro awaits
          exact absurd awaits.2 not_awaits_nil
    · exact allFit_nil
  | enqueue runs task ih =>
    obtain ⟨holds, fits⟩ := ih
    obtain ⟨after, last⟩ := holds.enqueue task
    exact ⟨after, fits.snoc last⟩
  | dequeue runs ih =>
    obtain ⟨holds, fits⟩ := ih
    obtain ⟨after, last⟩ := holds.dequeue
    exact ⟨after, fits.snoc last⟩

/-- A later history goes on from an earlier one. -/
theorem Runs.append {more : List QueueEvent} (runs : Runs first history queue)
    (later : Runs queue more after) : Runs first (history ++ more) after := by
  induction later with
  | start =>
    rw [List.append_nil]
    exact runs
  | enqueue later task ih =>
    rw [← List.append_assoc]
    exact .enqueue ih task
  | dequeue later ih =>
    rw [← List.append_assoc]
    exact .dequeue ih

/-- The first section after a place that concerns a key, if there is one. -/
theorem first_concern (key : Identity) (events : List QueueEvent) :
    (∀ event ∈ events, ¬ event.Concerns key) ∨
      ∃ between event rest, events = between ++ event :: rest ∧
        (∀ event ∈ between, ¬ event.Concerns key) ∧ event.Concerns key := by
  induction events with
  | nil =>
    left
    intro event member
    cases member
  | cons head tail ih =>
    by_cases concerned : head.Concerns key
    · right
      refine ⟨[], head, tail, rfl, fun event member => ?_, concerned⟩
      cases member
    · rcases ih with untouched | ⟨between, event, rest, same, untouched, touches⟩
      · left
        intro event member
        rcases List.mem_cons.mp member with rfl | member
        · exact concerned
        · exact untouched event member
      · right
        refine ⟨head :: between, event, rest, by rw [same, List.cons_append], ?_, touches⟩
        intro event member
        rcases List.mem_cons.mp member with rfl | member
        · exact concerned
        · exact untouched event member

/-- Only one task is the newest one under a key. -/
theorem Awaits.unique {other : DispatchTask} (awaits : Awaits task history)
    (also : Awaits other history) (same : task.identity = other.identity) : task = other := by
  induction history using List.reverseRecOn with
  | nil => exact absurd awaits not_awaits_nil
  | append_singleton history event ih =>
    rcases awaits_snoc.mp awaits with ⟨result, this, accepted⟩ | ⟨awaits, untouched⟩
    · rcases awaits_snoc.mp also with ⟨answer, that, -⟩ | ⟨-, untouched⟩
      · rw [this] at that
        exact (QueueEvent.enqueued.inj that).1
      · rw [this] at untouched
        exact absurd ⟨same, accepted⟩ untouched
    · rcases awaits_snoc.mp also with ⟨answer, that, accepted⟩ | ⟨also, -⟩
      · rw [that] at untouched
        exact absurd ⟨same.symm, accepted⟩ untouched
      · exact ih awaits also

/-- What the newest task under a key is after sections that do not concern the key. -/
theorem awaits_of_untouched {result : EnqueueResult} {later : List QueueEvent}
    (accepted : Accepts result) (untouched : ∀ event ∈ later, ¬ event.Concerns task.identity) :
    Awaits task (history ++ .enqueued task result :: later) :=
  ⟨history, result, later, rfl, accepted, untouched⟩

/-- What becomes of a task that was accepted. -/
theorem fate_of_holds (holds : Holds history queue) (fits : AllFit Fits history)
    {before later : List QueueEvent} {result : EnqueueResult}
    (same : history = before ++ .enqueued task result :: later) (accepted : Accepts result) :
    (∃ between event rest, later = between ++ event :: rest ∧
      (∀ event ∈ between, ¬ event.Concerns task.identity) ∧
      (event = .dequeued (.taken task) ∨
        ∃ newer answer, event = .enqueued newer answer ∧ newer.identity = task.identity ∧
          Accepts answer)) ∨
    ((∀ event ∈ later, ¬ event.Concerns task.identity) ∧
      queue.pendingTasks.lookup task.identity = some task) := by
  rcases first_concern task.identity later with untouched | ⟨between, event, rest, split,
    untouched, touches⟩
  · right
    have awaits : Awaits task history := by
      rw [same]
      exact awaits_of_untouched accepted untouched
    exact ⟨untouched, (holds.pending task.identity task).mpr ⟨rfl, awaits⟩⟩
  · left
    refine ⟨between, event, rest, split, untouched, ?_⟩
    have whole : history = (before ++ .enqueued task result :: between) ++ event :: rest := by
      rw [same, split, List.append_assoc, List.cons_append]
    have fit := fits _ _ _ whole
    have awaits : Awaits task (before ++ .enqueued task result :: between) :=
      awaits_of_untouched accepted untouched
    cases event with
    | enqueued newer answer => exact .inr ⟨newer, answer, rfl, touches⟩
    | dequeued found =>
      left
      cases found with
      | taken other =>
        have fit : Awaits other (before ++ .enqueued task result :: between) := fit
        rw [fit.unique awaits touches]
      | missing key => exact fit.elim
      | waiting => exact touches.elim
      | ended => exact touches.elim

/-- A key is dequeued after those before it. -/
theorem progress_of_runs (runs : Runs {} history queue) {more : List QueueEvent}
    (later : Runs queue more after) {position : Nat} {key : Identity}
    (listed : queue.taskQueue[position]? = some key) (enough : position < (takenKeys more).length) :
    (takenKeys more)[position]? = some key := by
  have before := runs.holds.1.inOrder
  have whole := (runs.append later).holds.1.inOrder
  rw [queuedKeys_append, takenKeys_append, before, List.append_assoc, List.append_assoc] at whole
  have rest : queue.taskQueue ++ queuedKeys more = takenKeys more ++ after.taskQueue :=
    List.append_cancel_left whole
  obtain ⟨within, -⟩ := List.getElem?_eq_some_iff.mp listed
  rw [← List.getElem?_append_left enough, ← rest, List.getElem?_append_left within]
  exact listed

/-- However the calls that enqueue tasks and the worker's sections follow each other, the queue
neither loses a task nor gives one out twice. -/
theorem lawful_of_runs (runs : Runs {} history queue) : Lawful history queue := by
  obtain ⟨holds, fits⟩ := runs.holds
  have serves : queue.taskQueue ≠ [] → ∃ task, queue.dequeue.1 = .taken task := by
    intro some
    obtain ⟨key, rest, keys⟩ := List.exists_cons_of_ne_nil some
    have listed : key ∈ queue.taskQueue := by
      rw [keys]
      exact List.mem_cons_self
    obtain ⟨task, stored⟩ := Option.isSome_iff_exists.mp ((holds.keys key).mp listed)
    refine ⟨task, ?_⟩
    rw [TaskQueue.dequeue, keys]
    dsimp only
    rw [stored]
  exact {
    distinct := holds.distinct
    keys := holds.keys
    bounded := holds.bounded
    inOrder := holds.inOrder
    first := by
      intro before task result after same
      have fit := fits _ _ _ same
      constructor
      · intro queued
        rw [queued] at fit
        exact fit
      · intro updated
        rw [updated] at fit
        exact fit
    newest := fun before task after same => fits _ _ _ same
    pending := holds.pending
    found := by
      intro key member
      obtain ⟨before, after, same⟩ := List.append_of_mem member
      exact fits _ _ _ same
    fate := fun before task result after same accepted => fate_of_holds holds fits same accepted
    refused := fun task => enqueue_refused
    serves := serves
    progress := fun more after later position key => progress_of_runs runs later }

/-- A task of thread 7 in a state. -/
def taskOf (state : ProcessState) : DispatchTask where
  identity := ⟨7, 7, 1, 1⟩
  threadName := Bytes.ascii "app"
  state := state
  cpusetBase := Bytes.ascii "/dev/cpuset"
  procName := Bytes.ascii "app"
  cmdline := Bytes.ascii "app"

/-- The second of two tasks of a thread replaces the first one, and the worker takes it. -/
theorem lawful_of_runs_updated : ∃ history queue,
    history = [.enqueued (taskOf .bg) .queued, .enqueued (taskOf .top) .updated,
      .dequeued (.taken (taskOf .top))] ∧ Lawful history queue := by
  have added : ((({} : TaskQueue).enqueue (taskOf .bg)).1) = .queued := by decide +kernel
  have replaced : (((({} : TaskQueue).enqueue (taskOf .bg)).2.enqueue (taskOf .top)).1) =
      .updated := by decide +kernel
  have took : (((({} : TaskQueue).enqueue (taskOf .bg)).2.enqueue (taskOf .top)).2.dequeue.1) =
      .taken (taskOf .top) := by decide +kernel
  have runs := Runs.dequeue (.enqueue (.enqueue (.start {}) (taskOf .bg)) (taskOf .top))
  rw [added, replaced, took] at runs
  exact ⟨_, _, rfl, lawful_of_runs runs⟩

end ReUperf.TaskQueue
