import ReUperf.Core.ScheduleRecords
import ReUperf.Lib.History
import ReUperf.Verif.ClosedConfig

/-!
# Cadence of a worker

A worker lets the tasks of a thread through at most once in an interval while the state of the
process stays, and checks the groups of a thread once in another interval. Old records are removed
after a number of tasks or checks. The module tells for which intervals, and in which runs, the
removal of records does not disturb the two cadences.
-/

namespace ReUperf.ScheduleRecords

open Effect.History

/-! ## Runs -/

/-- A call on the records. -/
inductive CadenceEvent
  /-- `should_skip_schedule`, with its answer. -/
  | scheduled (now : Int) (task : DispatchTask) (skipped : Bool)
  /-- `should_check_cgroup`, with its answer and the due time it recorded. -/
  | checked (now : Int) (task : DispatchTask) (answer : Bool) (recorded : Option Int)

/-- When the call was made. -/
def CadenceEvent.time : CadenceEvent → Int
  | .scheduled now _ _ => now
  | .checked now _ _ _ => now

/-- The due time a call of `should_check_cgroup` records. -/
def recordedDue (timing : TimingConfig) (hashing : Hashing) (now : Int) (task : DispatchTask)
    (records : ScheduleRecords) : Option Int :=
  if timing.cgroupCheckIntervalMs = 0 then none
  else
    match records.nextCgroupCheckTime.lookup task.identity with
    | none => some (now + ofMilliseconds (stagger timing hashing task.identity))
    | some due =>
      if now < due then none else some (now + ofMilliseconds timing.cgroupCheckIntervalMs)

/-- Calls one after another, at times that do not decrease. Checks are only made where they are
allowed. -/
inductive Runs (timing : TimingConfig) (hashing : Hashing)
    (allowed : List CadenceEvent → ScheduleRecords → DispatchTask → Prop) :
    List CadenceEvent → Int → ScheduleRecords → Prop where
  /-- No call. -/
  | start (now : Int) : Runs timing hashing allowed [] now {}
  /-- One more call of `should_skip_schedule`. -/
  | schedule {history : List CadenceEvent} {last : Int} {records : ScheduleRecords}
      (runs : Runs timing hashing allowed history last records) (now : Int) (later : last ≤ now)
      (task : DispatchTask) : Runs timing hashing allowed
        (history ++ [.scheduled now task (shouldSkipSchedule timing now task records).1]) now
        (shouldSkipSchedule timing now task records).2
  /-- One more call of `should_check_cgroup`. -/
  | check {history : List CadenceEvent} {last : Int} {records : ScheduleRecords}
      (runs : Runs timing hashing allowed history last records) (now : Int) (later : last ≤ now)
      (task : DispatchTask) (permitted : allowed history records task) :
      Runs timing hashing allowed
        (history ++ [.checked now task (shouldCheckCgroup timing hashing now task records).1
          (recordedDue timing hashing now task records)]) now
        (shouldCheckCgroup timing hashing now task records).2

/-- When a task under the key was let through, and its state. -/
def passed (key : Identity) : CadenceEvent → Option (Int × ProcessState)
  | .scheduled now task false => if task.identity = key then some (now, task.state) else none
  | _ => none

/-- A task under the key that was let through. -/
theorem passed_eq_some {key : Identity} {event : CadenceEvent} {time : Int} {state : ProcessState} :
    passed key event = some (time, state) ↔
      ∃ task, event = .scheduled time task false ∧ task.identity = key ∧ task.state = state := by
  constructor
  · intro found
    cases event with
    | scheduled now task skipped =>
      cases skipped with
      | true => cases found
      | false =>
        rw [passed] at found
        split at found
        · next same =>
          obtain ⟨rfl, rfl⟩ := Prod.mk.inj (Option.some.inj found)
          exact ⟨task, rfl, same, rfl⟩
        · cases found
    | checked now task answer recorded => cases found
  · intro ⟨task, this, same, state⟩
    rw [this, passed, if_pos same, state]

/-- The due time recorded under the key. -/
def dueOf (key : Identity) : CadenceEvent → Option Int
  | .checked _ task _ recorded => if task.identity = key then recorded else none
  | _ => none

/-! ## Time -/

section Time

variable {duration milliseconds : Int}

/-- A duration has more whole milliseconds when it has at least the next number. -/
theorem lt_toMilliseconds (positive : 0 ≤ duration) :
    milliseconds < toMilliseconds duration ↔ ofMilliseconds (milliseconds + 1) ≤ duration := by
  rw [toMilliseconds, Int.tdiv_eq_ediv_of_nonneg positive, ofMilliseconds]
  omega

/-- A duration has fewer whole milliseconds when it is shorter. -/
theorem toMilliseconds_lt (positive : 0 ≤ duration) :
    toMilliseconds duration < milliseconds ↔ duration < ofMilliseconds milliseconds := by
  rw [toMilliseconds, Int.tdiv_eq_ediv_of_nonneg positive, ofMilliseconds]
  omega

end Time

variable {timing : TimingConfig} {hashing : Hashing}
  {allowed : List CadenceEvent → ScheduleRecords → DispatchTask → Prop}
  {history : List CadenceEvent} {last now : Int} {records : ScheduleRecords} {key : Identity}
  {task : DispatchTask}

/-- No call was later than the last one. -/
theorem Runs.time_le (runs : Runs timing hashing allowed history last records) :
    ∀ event ∈ history, event.time ≤ last := by
  induction runs with
  | start now => exact fun event none => absurd none List.not_mem_nil
  | schedule runs now later task ih | check runs now later task permitted ih =>
    intro event member
    rcases List.mem_append.mp member with earlier | this
    · exact le_trans (ih event earlier) later
    · rw [List.mem_singleton.mp this]
      exact le_refl _

/-- Calls are made at times that do not decrease. -/
theorem Runs.pairwise_time (runs : Runs timing hashing allowed history last records) :
    history.Pairwise fun first second => first.time ≤ second.time := by
  induction runs with
  | start now => exact .nil
  | schedule runs now later task ih | check runs now later task permitted ih =>
    rw [List.pairwise_append]
    refine ⟨ih, List.pairwise_singleton _ _, fun first earlier second this => ?_⟩
    rw [List.mem_singleton.mp this]
    exact le_trans (runs.time_le first earlier) later

/-! ## Throttled tasks -/

/-- Tasks of a thread whose state stays are let through no more than once in an interval, and other
tasks are let through. -/
structure Throttled (timing : TimingConfig) (history : List CadenceEvent) : Prop where
  /-- Between two tasks in one state there is an interval, if no task in another one is let through
  between them. -/
  apart : ∀ before first task between second other after, history =
    before ++ .scheduled first task false :: between ++ .scheduled second other false :: after →
    task.identity = other.identity → task.state = other.state →
    (∀ now third, .scheduled now third false ∈ between → third.identity = task.identity →
      third.state = task.state) →
    ofMilliseconds timing.minScheduleIntervalMs ≤ second - first
  /-- A task is let through when no task in its state was the last one let through. -/
  passes : ∀ before now task skipped after,
    history = before ++ .scheduled now task skipped :: after →
    (∀ time state, lastOf (passed task.identity) before = some (time, state) →
      state ≠ task.state) → skipped = false

/-- A task is skipped when one in its state was recorded too short a time ago, and is otherwise let
through. -/
theorem shouldSkipSchedule_cases (timing : TimingConfig) (now : Int) (task : DispatchTask)
    (records : ScheduleRecords) :
    (∃ time, records.lastScheduleTime.lookup task.identity = some time ∧
      records.lastScheduleState.lookup task.identity = some task.state ∧
      shouldSkipSchedule timing now task records = (true, records)) ∨
    ((∀ time, records.lastScheduleTime.lookup task.identity = some time →
      records.lastScheduleState.lookup task.identity = some task.state →
      timing.minScheduleIntervalMs ≤ toMilliseconds (now - time)) ∧
      shouldSkipSchedule timing now task records =
        (false, recordSchedule timing now task records)) := by
  rw [shouldSkipSchedule]
  cases recorded : records.lastScheduleTime.lookup task.identity with
  | none =>
    right
    refine ⟨fun time impossible => ?_, rfl⟩
    cases impossible
  | some time =>
    dsimp only
    by_cases throttled : shouldThrottleSameStateSchedule
        (decide (records.lastScheduleState.lookup task.identity = some task.state))
        (toMilliseconds (now - time)) timing.minScheduleIntervalMs = true
    · rw [if_pos throttled]
      rw [shouldThrottleSameStateSchedule, Bool.and_eq_true, decide_eq_true_eq] at throttled
      exact .inl ⟨time, rfl, throttled.1, rfl⟩
    · rw [if_neg throttled]
      rw [shouldThrottleSameStateSchedule, Bool.and_eq_true, decide_eq_true_eq,
        decide_eq_true_eq] at throttled
      right
      refine ⟨fun same stored state => ?_, rfl⟩
      obtain rfl := Option.some.inj stored
      exact not_lt.mp fun early => throttled ⟨state, early⟩

/-- What is recorded of the last task of a thread that was let through: all of it, or nothing once
it is old. -/
inductive Recorded (timing : TimingConfig) (key : Identity) (records : ScheduleRecords)
    (last : Int) : Option (Int × ProcessState) → Prop where
  /-- No task was let through. -/
  | absent (time : records.lastScheduleTime.lookup key = none)
      (state : records.lastScheduleState.lookup key = none) : Recorded timing key records last none
  /-- The task is recorded. -/
  | kept {passTime : Int} {passState : ProcessState} (earlier : passTime ≤ last)
      (time : records.lastScheduleTime.lookup key = some passTime)
      (state : records.lastScheduleState.lookup key = some passState) :
      Recorded timing key records last (some (passTime, passState))
  /-- The record was removed. -/
  | removed {passTime : Int} {passState : ProcessState} (earlier : passTime ≤ last)
      (time : records.lastScheduleTime.lookup key = none)
      (state : records.lastScheduleState.lookup key = none)
      (old : ofMilliseconds (timing.scheduleCleanupIntervalMs + 1) ≤ last - passTime) :
      Recorded timing key records last (some (passTime, passState))

section Recorded

variable {recent : Option (Int × ProcessState)} {other : ScheduleRecords}

/-- Time goes on, and nothing else of what is recorded changes. -/
theorem Recorded.later (recorded : Recorded timing key records last recent) (later : last ≤ now)
    (times : other.lastScheduleTime.lookup key = records.lastScheduleTime.lookup key)
    (states : other.lastScheduleState.lookup key = records.lastScheduleState.lookup key) :
    Recorded timing key other now recent := by
  cases recorded with
  | absent time state => exact .absent (times.trans time) (states.trans state)
  | kept earlier time state =>
    exact .kept (le_trans earlier later) (times.trans time) (states.trans state)
  | removed earlier time state old =>
    refine .removed (le_trans earlier later) (times.trans time) (states.trans state) ?_
    omega

/-- A cleanup removes what is recorded only when it is old. -/
theorem Recorded.cleanup (recorded : Recorded timing key records now recent) :
    Recorded timing key (cleanupExpiredScheduleTimes timing now records) now recent := by
  cases recorded with
  | absent time state =>
    apply Recorded.absent
    · rw [cleanupExpiredScheduleTimes, Table.lookup_retain, time, Option.filter_none]
    · rw [cleanupExpiredScheduleTimes, Table.lookup_retain, state, Option.filter_none]
  | @kept passTime passState earlier time state =>
    have positive : 0 ≤ now - passTime := by omega
    by_cases old : isExpired timing now passTime = true
    · have elapsed := (lt_toMilliseconds positive).mp (of_decide_eq_true old)
      refine .removed earlier ?_ ?_ elapsed
      · rw [cleanupExpiredScheduleTimes, Table.lookup_retain, time]
        simp [old]
      · rw [cleanupExpiredScheduleTimes, Table.lookup_retain, state, time]
        simp [old]
    · refine .kept earlier ?_ ?_
      · rw [cleanupExpiredScheduleTimes, Table.lookup_retain, time]
        simp [old]
      · rw [cleanupExpiredScheduleTimes, Table.lookup_retain, state, time]
        simp [old]
  | removed earlier time state old =>
    apply Recorded.removed earlier
    · rw [cleanupExpiredScheduleTimes, Table.lookup_retain, time, Option.filter_none]
    · rw [cleanupExpiredScheduleTimes, Table.lookup_retain, state, Option.filter_none]
    · exact old

/-- A task that is let through is recorded. -/
theorem recorded_recordSchedule : Recorded timing task.identity (recordSchedule timing now task records)
    now (some (now, task.state)) := by
  rw [recordSchedule]
  dsimp only
  split
  · apply Recorded.cleanup
    exact .kept (le_refl _) (AList.lookup_insert _) (AList.lookup_insert _)
  · exact .kept (le_refl _) (AList.lookup_insert _) (AList.lookup_insert _)

/-- What is recorded of other threads stays. -/
theorem Recorded.recordSchedule (recorded : Recorded timing key records last recent)
    (later : last ≤ now) (differ : key ≠ task.identity) :
    Recorded timing key (recordSchedule timing now task records) now recent := by
  rw [ScheduleRecords.recordSchedule]
  dsimp only
  split
  · apply Recorded.cleanup
    exact recorded.later later (AList.lookup_insert_ne differ) (AList.lookup_insert_ne differ)
  · exact recorded.later later (AList.lookup_insert_ne differ) (AList.lookup_insert_ne differ)

/-- A check changes what is recorded of tasks only by a cleanup. -/
theorem Recorded.shouldCheckCgroup (recorded : Recorded timing key records last recent)
    (later : last ≤ now) :
    Recorded timing key (shouldCheckCgroup timing hashing now task records).2 now recent := by
  rw [ScheduleRecords.shouldCheckCgroup]
  split
  · exact recorded.later later rfl rfl
  · split
    · exact recorded.later later rfl rfl
    · split
      · exact recorded.later later rfl rfl
      · rw [recordCheck]
        dsimp only
        split
        · apply Recorded.cleanup
          exact recorded.later later rfl rfl
        · exact recorded.later later rfl rfl

end Recorded

/-- A task is skipped only after a task in its state, and let through only an interval after it. -/
def Spaced (timing : TimingConfig) (history : List CadenceEvent) : CadenceEvent → Prop
  | .scheduled _ task true =>
    ∃ time, lastOf (passed task.identity) history = some (time, task.state)
  | .scheduled now task false =>
    ∀ time, lastOf (passed task.identity) history = some (time, task.state) →
      ofMilliseconds timing.minScheduleIntervalMs ≤ now - time
  | .checked _ _ _ _ => True

/-- What is recorded of every thread, after one more task is let through. -/
theorem recorded_snoc
    (recorded : ∀ key, Recorded timing key records last (lastOf (passed key) history))
    (later : last ≤ now) (key : Identity) :
    Recorded timing key (recordSchedule timing now task records) now
      (lastOf (passed key) (history ++ [.scheduled now task false])) := by
  rw [lastOf_snoc, passed]
  by_cases same : task.identity = key
  · rw [if_pos same, Option.some_or, ← same]
    exact recorded_recordSchedule
  · rw [if_neg same, Option.none_or]
    exact (recorded key).recordSchedule later (Ne.symm same)

/-- A task is let through an interval after the last one in its state, whether that is recorded or
not. -/
theorem Recorded.spaced {passTime : Int}
    (recorded : Recorded timing task.identity records last (some (passTime, task.state)))
    (later : last ≤ now)
    (covered : timing.minScheduleIntervalMs ≤ timing.scheduleCleanupIntervalMs + 1)
    (elapsed : ∀ time, records.lastScheduleTime.lookup task.identity = some time →
      records.lastScheduleState.lookup task.identity = some task.state →
      timing.minScheduleIntervalMs ≤ toMilliseconds (now - time)) :
    ofMilliseconds timing.minScheduleIntervalMs ≤ now - passTime := by
  cases recorded with
  | kept earlier time state =>
    have positive : 0 ≤ now - passTime := by omega
    have enough := elapsed passTime time state
    rw [← not_lt, toMilliseconds_lt positive, not_lt] at enough
    exact enough
  | removed earlier time state old =>
    simp only [ofMilliseconds] at old ⊢
    omega

/-- What is recorded after every run, and that its tasks are spaced. -/
theorem Runs.recorded (runs : Runs timing hashing allowed history last records)
    (covered : timing.minScheduleIntervalMs ≤ timing.scheduleCleanupIntervalMs + 1) :
    (∀ key, Recorded timing key records last (lastOf (passed key) history)) ∧
      AllFit (Spaced timing) history := by
  induction runs with
  | start now => exact ⟨fun key => .absent rfl rfl, allFit_nil⟩
  | @schedule history last records runs now later task ih =>
    obtain ⟨recorded, spaced⟩ := ih
    rcases shouldSkipSchedule_cases timing now task records with ⟨time, times, states, skip⟩ |
      ⟨elapsed, pass⟩
    · rw [skip]
      constructor
      · intro key
        rw [lastOf_snoc]
        exact (recorded key).later later rfl rfl
      · apply spaced.snoc
        have own := recorded task.identity
        show ∃ time, lastOf (passed task.identity) history = some (time, task.state)
        cases recent : lastOf (passed task.identity) history with
        | none =>
          rw [recent] at own
          cases own with
          | absent time state =>
            rw [time] at times
            cases times
        | some content =>
          rw [recent] at own
          cases own with
          | @kept passTime passState earlier time state =>
            rw [states] at state
            obtain rfl := Option.some.inj state
            exact ⟨passTime, rfl⟩
          | removed earlier time state old =>
            rw [time] at times
            cases times
    · rw [pass]
      constructor
      · exact recorded_snoc recorded later
      · apply spaced.snoc
        intro passTime recent
        have own := recorded task.identity
        rw [recent] at own
        exact own.spaced later covered elapsed
  | check runs now later task permitted ih =>
    obtain ⟨recorded, spaced⟩ := ih
    constructor
    · intro key
      rw [lastOf_snoc]
      exact (recorded key).shouldCheckCgroup later
    · exact spaced.snoc trivial

/-- Spaced tasks are throttled. -/
theorem Runs.throttled (runs : Runs timing hashing allowed history last records)
    (covered : timing.minScheduleIntervalMs ≤ timing.scheduleCleanupIntervalMs + 1) :
    Throttled timing history := by
  have spaced := (runs.recorded covered).2
  constructor
  · intro before first task between second other after split same state undisturbed
    have fits := spaced _ _ _ split
    have own : passed other.identity (.scheduled first task false) = some (first, task.state) := by
      rw [passed, if_pos same]
    have recent : ∃ found, lastOf (passed other.identity)
        (before ++ .scheduled first task false :: between) = some found ∧
        ∃ event ∈ CadenceEvent.scheduled first task false :: between,
          passed other.identity event = some found := mem_of_lastOf_append own
    obtain ⟨⟨time, found⟩, recent, event, member, value⟩ := recent
    obtain ⟨third, rfl, sameThread, rfl⟩ := passed_eq_some.mp value
    have ordered := runs.pairwise_time
    rw [split, List.append_assoc, List.pairwise_append, List.cons_append,
      List.pairwise_cons] at ordered
    have bounds : third.state = other.state ∧ first ≤ time := by
      rcases List.mem_cons.mp member with this | between
      · obtain ⟨rfl, rfl, -⟩ := CadenceEvent.scheduled.inj this
        exact ⟨state, le_refl _⟩
      · constructor
        · rw [undisturbed time third between (sameThread.trans same.symm), state]
        · exact ordered.2.1.1 _ (List.mem_append_left _ between)
    rw [bounds.1] at recent
    have apart := fits time recent
    omega
  · intro before now task skipped after split differs
    have fits := spaced _ _ _ split
    cases skipped with
    | false => rfl
    | true =>
      obtain ⟨time, recent⟩ := fits
      exact absurd rfl (differs time task.state recent)

/-! ## A cleanup between two tasks -/

/-- A thread with a number. -/
def numbered (number : Nat) : DispatchTask := ⟨⟨number, number, 0, 0⟩, [], .bg, [], [], []⟩

/-- Threads with different numbers are different threads. -/
theorem numbered_ne {first second : Nat} (differ : first ≠ second) :
    (numbered first).identity ≠ (numbered second).identity := by
  intro same
  have pids := congrArg Identity.pid same
  simp only [numbered] at pids
  omega

/-- A task of a thread without a record is let through. -/
theorem shouldSkipSchedule_of_none (now : Int)
    (none : records.lastScheduleTime.lookup task.identity = none) :
    shouldSkipSchedule timing now task records =
      (false, recordSchedule timing now task records) := by
  rw [shouldSkipSchedule, none]

/-- A task that causes no cleanup is added to the records. -/
theorem recordSchedule_of_lt (now : Int)
    (few : records.scheduleCounter + 1 < kScheduleCleanupThreshold) :
    recordSchedule timing now task records = { records with
      lastScheduleTime := records.lastScheduleTime.insert task.identity now
      lastScheduleState := records.lastScheduleState.insert task.identity task.state
      scheduleCounter := records.scheduleCounter + 1 } := by
  rw [recordSchedule]
  exact if_neg (Nat.not_le.mpr few)

/-- The task after which records are removed. -/
theorem recordSchedule_of_le (now : Int)
    (enough : kScheduleCleanupThreshold ≤ records.scheduleCounter + 1) :
    recordSchedule timing now task records = cleanupExpiredScheduleTimes timing now { records with
      lastScheduleTime := records.lastScheduleTime.insert task.identity now
      lastScheduleState := records.lastScheduleState.insert task.identity task.state
      scheduleCounter := 0 } := by
  rw [recordSchedule]
  exact if_pos enough

/-- Tasks of other threads are let through, one after another, and none of them causes a cleanup. -/
theorem Runs.fill
    (runs : Runs timing hashing allowed history last records) (later : last ≤ now)
    (start : Nat) (fresh : ∀ number, start ≤ number →
      records.lastScheduleTime.lookup (numbered number).identity = none) :
    ∀ count, records.scheduleCounter + count < kScheduleCleanupThreshold →
      ∃ more after stop, Runs timing hashing allowed (history ++ more) stop after ∧
        stop ≤ now ∧ after.scheduleCounter = records.scheduleCounter + count ∧
        after.nextCgroupCheckTime = records.nextCgroupCheckTime ∧
        (∀ number, number < start → after.lastScheduleTime.lookup (numbered number).identity =
          records.lastScheduleTime.lookup (numbered number).identity) ∧
        (∀ number, start + count ≤ number →
          after.lastScheduleTime.lookup (numbered number).identity = none) ∧
        ∀ event ∈ more, ∃ number, start ≤ number ∧ event = .scheduled now (numbered number) false := by
  intro count
  induction count with
  | zero =>
    intro few
    refine ⟨[], records, last, ?_, later, rfl, rfl, fun number below => rfl, fresh, ?_⟩
    · rw [List.append_nil]
      exact runs
    · intro event none
      exact absurd none List.not_mem_nil
  | succ count ih =>
    intro few
    obtain ⟨more, after, stop, run, before, counter, checks, kept, free, others⟩ := ih (by omega)
    have pass := @shouldSkipSchedule_of_none timing after _ now (free (start + count) (le_refl _))
    have record := @recordSchedule_of_lt timing after (numbered (start + count)) now (by omega)
    have next := run.schedule now before (numbered (start + count))
    rw [pass, record, List.append_assoc] at next
    refine ⟨_, _, now, next, le_refl _, by dsimp only; omega, checks, ?_, ?_, ?_⟩
    · intro number below
      have differ := numbered_ne (show number ≠ start + count by omega)
      exact (AList.lookup_insert_ne differ).trans (kept number below)
    · intro number above
      have differ := numbered_ne (show number ≠ start + count by omega)
      exact (AList.lookup_insert_ne differ).trans (free number (by omega))
    · intro event member
      rcases List.mem_append.mp member with earlier | this
      · exact others event earlier
      · exact ⟨start + count, Nat.le_add_right _ _, List.mem_singleton.mp this⟩

/-- Tasks of other threads, until one of them causes a cleanup. -/
theorem Runs.cleaned (runs : Runs timing hashing allowed history last records) (later : last ≤ now)
    (start : Nat) (fresh : ∀ number, start ≤ number →
      records.lastScheduleTime.lookup (numbered number).identity = none)
    (few : records.scheduleCounter < kScheduleCleanupThreshold) :
    ∃ more after, Runs timing hashing allowed (history ++ more) now after ∧
      (∀ number, number < start → after.lastScheduleTime.lookup (numbered number).identity =
        (records.lastScheduleTime.lookup (numbered number).identity).filter
          fun time => !isExpired timing now time) ∧
      after.nextCgroupCheckTime = records.nextCgroupCheckTime.retain (fun _ due =>
        !decide (ofMilliseconds timing.scheduleCleanupIntervalMs < now - due)) ∧
      ∀ event ∈ more, ∃ number, start ≤ number ∧ event = .scheduled now (numbered number) false := by
  have count : ∃ count, records.scheduleCounter + count + 1 = kScheduleCleanupThreshold :=
    ⟨kScheduleCleanupThreshold - records.scheduleCounter - 1, by omega⟩
  obtain ⟨count, total⟩ := count
  obtain ⟨more, filled, stop, run, before, counter, checks, kept, free, others⟩ :=
    runs.fill later start fresh count (by omega)
  have pass := @shouldSkipSchedule_of_none timing filled _ now (free (start + count) (le_refl _))
  have record := @recordSchedule_of_le timing filled (numbered (start + count)) now (by omega)
  have next := run.schedule now before (numbered (start + count))
  rw [pass, record, List.append_assoc] at next
  refine ⟨_, _, next, ?_, ?_, ?_⟩
  · intro number below
    have differ := numbered_ne (show number ≠ start + count by omega)
    rw [cleanupExpiredScheduleTimes, Table.lookup_retain, AList.lookup_insert_ne differ,
      kept number below]
  · rw [cleanupExpiredScheduleTimes, checks]
  · intro event member
    rcases List.mem_append.mp member with earlier | this
    · exact others event earlier
    · exact ⟨start + count, Nat.le_add_right _ _, List.mem_singleton.mp this⟩

/-- A task is let through again as soon as its record is removed. -/
theorem not_throttled (timing : TimingConfig) (hashing : Hashing)
    (positive : 0 ≤ timing.scheduleCleanupIntervalMs)
    (uncovered : timing.scheduleCleanupIntervalMs + 1 < timing.minScheduleIntervalMs) :
    ∃ history last records, Runs timing hashing (fun _ _ _ => True) history last records ∧
      ¬ Throttled timing history := by
  have begin : Runs timing hashing (fun _ _ _ => True) [] 0 {} := .start 0
  have first := begin.schedule 0 (le_refl _) (numbered 0)
  rw [shouldSkipSchedule_of_none 0 rfl, recordSchedule_of_lt 0 (by decide), List.nil_append] at first
  have fresh : ∀ number, 1 ≤ number → ((∅ : Table Identity Int).insert (numbered 0).identity 0).lookup
      (numbered number).identity = none := by
    intro number above
    exact AList.lookup_insert_ne (numbered_ne (by omega))
  have later : 0 ≤ ofMilliseconds (timing.scheduleCleanupIntervalMs + 1) := by
    rw [ofMilliseconds]
    omega
  obtain ⟨more, after, run, times, -, others⟩ := first.cleaned later 1 fresh (by decide)
  have expired : isExpired timing (ofMilliseconds (timing.scheduleCleanupIntervalMs + 1)) 0 = true := by
    rw [isExpired, decide_eq_true_eq, Int.sub_zero, lt_toMilliseconds later]
  have removed : after.lastScheduleTime.lookup (numbered 0).identity = none := by
    rw [times 0 (by decide), AList.lookup_insert]
    simp [expired]
  have again := run.schedule _ (le_refl _) (numbered 0)
  rw [shouldSkipSchedule_of_none _ removed] at again
  refine ⟨_, _, _, again, fun throttled => ?_⟩
  have apart := throttled.apart [] 0 (numbered 0) more _ (numbered 0) [] rfl rfl rfl ?_
  · simp only [ofMilliseconds] at apart
    omega
  · intro now third member same
    obtain ⟨number, above, this⟩ := others _ member
    obtain ⟨-, rfl, -⟩ := CadenceEvent.scheduled.inj this
    exact absurd same (numbered_ne (by omega))

/-- With the intervals of an accepted configuration every run is throttled exactly when the interval
of tasks does not exceed the age at which records are removed. -/
theorem throttled_iff_of_parse {document : Json} {config : Config}
    (accepted : ConfigParser.parse document = some config) (hashing : Hashing) :
    (∀ history last records,
      Runs config.sched.timing hashing (fun _ _ _ => True) history last records →
        Throttled config.sched.timing history) ↔
      config.sched.timing.minScheduleIntervalMs ≤
        config.sched.timing.scheduleCleanupIntervalMs + 1 := by
  constructor
  · intro throttled
    by_contra uncovered
    have bounds := (ConfigParser.closed_of_parse accepted).inRange.timing.scheduleCleanupIntervalMs
    obtain ⟨history, last, records, runs, fails⟩ :=
      not_throttled config.sched.timing hashing (by omega) (by omega)
    exact fails (throttled history last records runs)
  · intro covered history last records runs
    exact runs.throttled covered

/-- A document with two intervals. -/
def intervalsDocument (minScheduleIntervalMs cgroupCheckIntervalMs : Int) : Json :=
  .object [(Bytes.ascii "modules", .object [(Bytes.ascii "sched", .object
    [(Bytes.ascii "enable", .bool true), (Bytes.ascii "timing", .object
      [(Bytes.ascii "min_schedule_interval_ms", .int minScheduleIntervalMs),
        (Bytes.ascii "cgroup_check_interval_ms", .int cgroupCheckIntervalMs)])])])]

/-- Tasks are throttled with the usual age of records and a shorter interval. -/
theorem throttled_iff_of_parse_short :
    ∃ config, ConfigParser.parse (intervalsDocument 500 1000) = some config ∧
      config.sched.timing.minScheduleIntervalMs = 500 ∧
      ∀ history last records,
        Runs config.sched.timing ⟨fun _ => 1, fun _ => 1⟩ (fun _ _ _ => True) history last
          records → Throttled config.sched.timing history := by
  have parsed : (ConfigParser.parse (intervalsDocument 500 1000)).map (fun config =>
      (config.sched.timing.minScheduleIntervalMs, config.sched.timing.scheduleCleanupIntervalMs)) =
      some (500, 5000) := by decide +kernel
  obtain ⟨config, accepted, intervals⟩ := Option.map_eq_some_iff.mp parsed
  obtain ⟨interval, age⟩ := Prod.mk.inj intervals
  refine ⟨config, accepted, interval, (throttled_iff_of_parse accepted _).mpr ?_⟩
  rw [interval, age]
  decide

/-- With an interval of a minute and the usual age of records there is a run that is not
throttled. -/
theorem throttled_fails : ¬ ∀ (document : Json) (config : Config) (hashing : Hashing),
    ConfigParser.parse document = some config → ∀ history last records,
      Runs config.sched.timing hashing (fun _ _ _ => True) history last records →
        Throttled config.sched.timing history := by
  intro claim
  have parsed : (ConfigParser.parse (intervalsDocument 60000 1000)).map (fun config =>
      (config.sched.timing.minScheduleIntervalMs, config.sched.timing.scheduleCleanupIntervalMs)) =
      some (60000, 5000) := by decide +kernel
  obtain ⟨config, accepted, intervals⟩ := Option.map_eq_some_iff.mp parsed
  obtain ⟨interval, age⟩ := Prod.mk.inj intervals
  have hashing : Hashing := ⟨fun _ => 0, fun _ => 0⟩
  obtain ⟨history, last, records, runs, fails⟩ := not_throttled config.sched.timing hashing
    (by omega) (by omega)
  exact fails (claim _ config hashing accepted history last records runs)

/-! ## Due checks -/

/-- Checks of a thread are an interval apart, and a check that is due is made. -/
structure OnTime (timing : TimingConfig) (history : List CadenceEvent) : Prop where
  /-- Between two checks there is an interval. -/
  apart : ∀ before first task recorded between second other again after, history =
    before ++ .checked first task true recorded :: between ++
      .checked second other true again :: after →
    task.identity = other.identity →
    ofMilliseconds timing.cgroupCheckIntervalMs ≤ second - first
  /-- At the due time recorded last, or after it, the check is made. -/
  due : ∀ before now task answer recorded after,
    history = before ++ .checked now task answer recorded :: after →
    ∀ due, lastOf (dueOf task.identity) before = some due → due ≤ now → answer = true

/-- The thread has its record when one was made, and is put off when none was. -/
def Attended (timing : TimingConfig) (hashing : Hashing) (history : List CadenceEvent)
    (records : ScheduleRecords) (task : DispatchTask) : Prop :=
  records.nextCgroupCheckTime.lookup task.identity = none →
    lastOf (dueOf task.identity) history = none ∧ stagger timing hashing task.identity ≠ 0

/-- When a thread with the key was checked. -/
def checkedAt (key : Identity) : CadenceEvent → Option Int
  | .checked now task true _ => if task.identity = key then some now else none
  | _ => none

/-- A check of a thread with the key. -/
theorem checkedAt_eq_some {key : Identity} {event : CadenceEvent} {time : Int} :
    checkedAt key event = some time ↔
      ∃ task recorded, event = .checked time task true recorded ∧ task.identity = key := by
  constructor
  · intro found
    cases event with
    | scheduled now task skipped => cases found
    | checked now task answer recorded =>
      cases answer with
      | false => cases found
      | true =>
        rw [checkedAt] at found
        split at found
        · next same =>
          obtain rfl := Option.some.inj found
          exact ⟨task, recorded, rfl, same⟩
        · cases found
  · intro ⟨task, recorded, this, same⟩
    rw [this, checkedAt, if_pos same]

/-- A call of `should_check_cgroup`: the thread is new, it is early, or its check is due. -/
theorem shouldCheckCgroup_cases (positive : 0 < timing.cgroupCheckIntervalMs) (now : Int)
    (task : DispatchTask) (records : ScheduleRecords) :
    (records.nextCgroupCheckTime.lookup task.identity = none ∧
      shouldCheckCgroup timing hashing now task records =
        (decide (stagger timing hashing task.identity = 0), { records with
          nextCgroupCheckTime := records.nextCgroupCheckTime.insert task.identity
            (now + ofMilliseconds (stagger timing hashing task.identity)) }) ∧
      recordedDue timing hashing now task records =
        some (now + ofMilliseconds (stagger timing hashing task.identity))) ∨
    (∃ due, records.nextCgroupCheckTime.lookup task.identity = some due ∧
      ((now < due ∧ shouldCheckCgroup timing hashing now task records = (false, records) ∧
        recordedDue timing hashing now task records = none) ∨
      (due ≤ now ∧ shouldCheckCgroup timing hashing now task records =
          (true, recordCheck timing now task records) ∧
        recordedDue timing hashing now task records =
          some (now + ofMilliseconds timing.cgroupCheckIntervalMs)))) := by
  have nonzero : ¬ timing.cgroupCheckIntervalMs = 0 := by omega
  rw [shouldCheckCgroup, recordedDue, if_neg nonzero, if_neg nonzero]
  cases recorded : records.nextCgroupCheckTime.lookup task.identity with
  | none => exact .inl ⟨rfl, rfl, rfl⟩
  | some due =>
    right
    refine ⟨due, rfl, ?_⟩
    by_cases early : now < due
    · left
      refine ⟨early, ?_, ?_⟩
      · exact if_pos early
      · exact if_pos early
    · right
      refine ⟨not_lt.mp early, ?_, ?_⟩
      · exact if_neg early
      · exact if_neg early

/-- A due time that a task leaves was recorded before. -/
theorem lookup_of_shouldSkipSchedule {due : Int}
    (stored : (shouldSkipSchedule timing now task records).2.nextCgroupCheckTime.lookup key =
      some due) : records.nextCgroupCheckTime.lookup key = some due := by
  rcases shouldSkipSchedule_cases timing now task records with ⟨time, -, -, skip⟩ | ⟨-, pass⟩
  · rw [skip] at stored
    exact stored
  · rw [pass, recordSchedule] at stored
    dsimp only at stored
    split at stored
    · exact (Table.lookup_retain_eq_some.mp stored).1
    · exact stored

/-- A due time that a check leaves was recorded by it, or before. -/
theorem lookup_of_shouldCheckCgroup (positive : 0 < timing.cgroupCheckIntervalMs) {due : Int}
    (stored : (shouldCheckCgroup timing hashing now task records).2.nextCgroupCheckTime.lookup key =
      some due) :
    (task.identity = key ∧ recordedDue timing hashing now task records = some due) ∨
      (records.nextCgroupCheckTime.lookup key = some due ∧
        (task.identity = key → recordedDue timing hashing now task records = none)) := by
  rcases shouldCheckCgroup_cases positive now task records with ⟨-, result, recorded⟩ |
    ⟨time, present, ⟨early, result, recorded⟩ | ⟨late, result, recorded⟩⟩
  · rw [result] at stored
    by_cases same : key = task.identity
    · rw [same, AList.lookup_insert] at stored
      exact .inl ⟨same.symm, recorded.trans stored⟩
    · rw [AList.lookup_insert_ne same] at stored
      exact .inr ⟨stored, fun this => absurd this.symm same⟩
  · rw [result] at stored
    exact .inr ⟨stored, fun _ => recorded⟩
  · rw [result, recordCheck] at stored
    have inserted : (records.nextCgroupCheckTime.insert task.identity
        (now + ofMilliseconds timing.cgroupCheckIntervalMs)).lookup key = some due := by
      dsimp only at stored
      split at stored
      · exact (Table.lookup_retain_eq_some.mp stored).1
      · exact stored
    by_cases same : key = task.identity
    · rw [same, AList.lookup_insert] at inserted
      exact .inl ⟨same.symm, recorded.trans inserted⟩
    · rw [AList.lookup_insert_ne same] at inserted
      exact .inr ⟨inserted, fun this => absurd this.symm same⟩

/-- What is recorded of the checks of a thread. -/
structure Due (timing : TimingConfig) (key : Identity) (history : List CadenceEvent)
    (records : ScheduleRecords) : Prop where
  /-- The due time was recorded last. -/
  recorded : ∀ due, records.nextCgroupCheckTime.lookup key = some due →
    lastOf (dueOf key) history = some due
  /-- The thread is next due an interval after each check. -/
  waits : ∀ event ∈ history, ∀ time, checkedAt key event = some time →
    ∃ due, lastOf (dueOf key) history = some due ∧
      ofMilliseconds timing.cgroupCheckIntervalMs ≤ due - time

/-- A check is made only an interval after each other one, and is made when it is due. -/
def Timely (timing : TimingConfig) (history : List CadenceEvent) : CadenceEvent → Prop
  | .scheduled _ _ _ => True
  | .checked now task answer _ =>
    (answer = true → ∀ event ∈ history, ∀ time, checkedAt task.identity event = some time →
      ofMilliseconds timing.cgroupCheckIntervalMs ≤ now - time) ∧
    ∀ due, lastOf (dueOf task.identity) history = some due → due ≤ now → answer = true

/-- A task leaves what is recorded of checks, or removes it. -/
theorem Due.schedule (due : Due timing key history records) (now : Int) (task : DispatchTask) :
    Due timing key
      (history ++ [.scheduled now task (shouldSkipSchedule timing now task records).1])
      (shouldSkipSchedule timing now task records).2 := by
  constructor
  · intro time stored
    rw [lastOf_snoc]
    exact due.recorded time (lookup_of_shouldSkipSchedule stored)
  · intro event member time checked
    rw [lastOf_snoc]
    rcases List.mem_append.mp member with earlier | this
    · exact due.waits event earlier time checked
    · rw [List.mem_singleton.mp this] at checked
      cases checked

/-- One more call of `should_check_cgroup` recorded a due time of the thread last, if it did. -/
theorem lastOf_dueOf_check (now : Int) (task : DispatchTask) (answer : Bool)
    (recorded : Option Int) :
    lastOf (dueOf key) (history ++ [.checked now task answer recorded]) =
      (if task.identity = key then recorded else none).or (lastOf (dueOf key) history) :=
  lastOf_snoc

/-- What is recorded of checks was recorded last. -/
theorem Due.recorded_check (due : Due timing key history records)
    (positive : 0 < timing.cgroupCheckIntervalMs) (now : Int) (task : DispatchTask) (answer : Bool)
    (time : Int)
    (stored : (shouldCheckCgroup timing hashing now task records).2.nextCgroupCheckTime.lookup key =
      some time) :
    lastOf (dueOf key) (history ++
      [.checked now task answer (recordedDue timing hashing now task records)]) = some time := by
  rw [lastOf_dueOf_check]
  rcases lookup_of_shouldCheckCgroup positive stored with ⟨same, recorded⟩ | ⟨stored, untouched⟩
  · rw [if_pos same, recorded, Option.some_or]
  · by_cases same : task.identity = key
    · rw [if_pos same, untouched same, Option.none_or]
      exact due.recorded time stored
    · rw [if_neg same, Option.none_or]
      exact due.recorded time stored

/-- A check of another thread leaves what is recorded of checks, or removes it. -/
theorem Due.check_ne (due : Due timing key history records)
    (positive : 0 < timing.cgroupCheckIntervalMs) (now : Int) (differ : task.identity ≠ key) :
    Due timing key
      (history ++ [.checked now task (shouldCheckCgroup timing hashing now task records).1
        (recordedDue timing hashing now task records)])
      (shouldCheckCgroup timing hashing now task records).2 := by
  refine ⟨due.recorded_check positive now task _, fun event member time checked => ?_⟩
  rw [lastOf_dueOf_check, if_neg differ, Option.none_or]
  rcases List.mem_append.mp member with earlier | this
  · exact due.waits event earlier time checked
  · obtain ⟨other, recorded, same, own⟩ := checkedAt_eq_some.mp checked
    rw [List.mem_singleton.mp this] at same
    obtain ⟨-, rfl, -⟩ := CadenceEvent.checked.inj same
    exact absurd own differ

/-- A call for an attended thread is timely, and records when the thread is due next. -/
theorem Due.check (due : Due timing task.identity history records)
    (positive : 0 < timing.cgroupCheckIntervalMs) (now : Int)
    (attended : Attended timing hashing history records task) :
    Due timing task.identity
      (history ++ [.checked now task (shouldCheckCgroup timing hashing now task records).1
        (recordedDue timing hashing now task records)])
      (shouldCheckCgroup timing hashing now task records).2 ∧
    Timely timing history (.checked now task (shouldCheckCgroup timing hashing now task records).1
        (recordedDue timing hashing now task records)) := by
  have recorded := @Due.recorded_check timing hashing history records task.identity due positive now
    task (shouldCheckCgroup timing hashing now task records).1
  have long : 0 < ofMilliseconds timing.cgroupCheckIntervalMs := by
    rw [ofMilliseconds]
    omega
  rcases @shouldCheckCgroup_cases timing hashing positive now task records with
    ⟨missing, result, next⟩ | ⟨time, present, ⟨early, result, next⟩ | ⟨late, result, next⟩⟩
  · obtain ⟨none, putOff⟩ := attended missing
    have answer : (shouldCheckCgroup timing hashing now task records).1 = false := by
      rw [result]
      exact decide_eq_false putOff
    rw [answer] at recorded ⊢
    refine ⟨⟨recorded, fun event member checkTime checked => ?_⟩, ?_, ?_⟩
    · rcases List.mem_append.mp member with earlier | this
      · obtain ⟨last, found, -⟩ := due.waits event earlier checkTime checked
        rw [none] at found
        cases found
      · rw [List.mem_singleton.mp this] at checked
        cases checked
    · intro impossible
      cases impossible
    · intro last found
      rw [none] at found
      cases found
  · have answer : (shouldCheckCgroup timing hashing now task records).1 = false := by
      rw [result]
    have found := due.recorded time present
    rw [answer] at recorded ⊢
    refine ⟨⟨recorded, fun event member checkTime checked => ?_⟩, ?_, ?_⟩
    · rcases List.mem_append.mp member with earlier | this
      · rw [lastOf_dueOf_check, if_pos rfl, next, Option.none_or]
        exact due.waits event earlier checkTime checked
      · rw [List.mem_singleton.mp this] at checked
        cases checked
    · intro impossible
      cases impossible
    · intro last recent reached
      rw [found] at recent
      obtain rfl := Option.some.inj recent
      omega
  · have answer : (shouldCheckCgroup timing hashing now task records).1 = true := by
      rw [result]
    have found := due.recorded time present
    have apart : ∀ event ∈ history, ∀ checkTime, checkedAt task.identity event = some checkTime →
        ofMilliseconds timing.cgroupCheckIntervalMs ≤ now - checkTime := by
      intro event member checkTime checked
      obtain ⟨last, recent, interval⟩ := due.waits event member checkTime checked
      rw [found] at recent
      obtain rfl := Option.some.inj recent
      omega
    rw [answer] at recorded ⊢
    refine ⟨⟨recorded, fun event member checkTime checked => ?_⟩, fun _ => apart, fun _ _ _ => rfl⟩
    rw [lastOf_dueOf_check, if_pos rfl, next, Option.some_or]
    refine ⟨_, rfl, ?_⟩
    rcases List.mem_append.mp member with earlier | this
    · have interval := apart event earlier checkTime checked
      omega
    · obtain ⟨other, again, same, -⟩ := checkedAt_eq_some.mp checked
      rw [List.mem_singleton.mp this] at same
      obtain ⟨rfl, -⟩ := CadenceEvent.checked.inj same
      omega

/-- What is recorded of checks after every run whose checks are attended, and that they are
timely. -/
theorem Runs.due
    (runs : Runs timing hashing (Attended timing hashing) history last records)
    (positive : 0 < timing.cgroupCheckIntervalMs) :
    (∀ key, Due timing key history records) ∧ AllFit (Timely timing) history := by
  induction runs with
  | start now =>
    refine ⟨fun key => ⟨fun due impossible => ?_, fun event none => ?_⟩, allFit_nil⟩
    · cases impossible
    · exact absurd none List.not_mem_nil
  | schedule runs now later task ih =>
    obtain ⟨due, timely⟩ := ih
    exact ⟨fun key => (due key).schedule now task, timely.snoc trivial⟩
  | check runs now later task attended ih =>
    obtain ⟨due, timely⟩ := ih
    obtain ⟨own, last⟩ := (due task.identity).check positive now attended
    refine ⟨fun key => ?_, timely.snoc last⟩
    by_cases same : task.identity = key
    · rw [← same]
      exact own
    · exact (due key).check_ne positive now same

/-- Checks are on time in every run in which each thread whose record is missing is new and is put
off. -/
theorem onTime_of_runs {timing : TimingConfig} {hashing : Hashing} {history : List CadenceEvent}
    {last : Int} {records : ScheduleRecords} (positive : 0 < timing.cgroupCheckIntervalMs)
    (runs : Runs timing hashing (Attended timing hashing) history last records) :
    OnTime timing history := by
  have timely := (runs.due positive).2
  constructor
  · intro before first task recorded between second other again after split same
    obtain ⟨apart, -⟩ := timely _ _ _ split
    have member : CadenceEvent.checked first task true recorded ∈
        before ++ .checked first task true recorded :: between :=
      List.mem_append_right _ List.mem_cons_self
    exact apart rfl _ member first (checkedAt_eq_some.mpr ⟨task, recorded, rfl, same⟩)
  · intro before now task answer recorded after split
    exact (timely _ _ _ split).2

/-- Checks of a thread at two due times. -/
theorem onTime_of_runs_twice : ∃ history records,
    Runs {} ⟨fun _ => 1, fun _ => 1⟩ (Attended {} ⟨fun _ => 1, fun _ => 1⟩) history 2000000000
      records ∧
      history.filterMap (checkedAt (numbered 0).identity) = [1000000000, 2000000000] ∧
      OnTime {} history := by
  have attended : ∀ (history : List CadenceEvent) (records : ScheduleRecords),
      (records.nextCgroupCheckTime.lookup (numbered 0).identity).isSome = true →
        Attended {} ⟨fun _ => 1, fun _ => 1⟩ history records (numbered 0) := by
    intro history records present missing
    rw [missing] at present
    cases present
  have new : Attended {} ⟨fun _ => 1, fun _ => 1⟩ [] {} (numbered 0) :=
    fun missing => ⟨rfl, by decide +kernel⟩
  have begin : Runs {} ⟨fun _ => 1, fun _ => 1⟩ (Attended {} ⟨fun _ => 1, fun _ => 1⟩) [] 0 {} :=
    .start 0
  have first := begin.check 0 (le_refl _) (numbered 0) new
  have second := first.check 1000000000 (by decide) (numbered 0) (attended _ _ (by decide +kernel))
  have third := second.check 2000000000 (by decide) (numbered 0) (attended _ _ (by decide +kernel))
  exact ⟨_, _, third, by decide +kernel, onTime_of_runs (by decide) third⟩

/-- The first call for a thread records when the thread is due. -/
theorem Runs.first_check (timing : TimingConfig) (hashing : Hashing)
    (positive : 0 < timing.cgroupCheckIntervalMs) :
    ∃ records, Runs timing hashing (fun _ _ _ => True) [.checked 0 (numbered 0)
        (decide (stagger timing hashing (numbered 0).identity = 0))
        (some (ofMilliseconds (stagger timing hashing (numbered 0).identity)))] 0 records ∧
      records.nextCgroupCheckTime.lookup (numbered 0).identity =
        some (ofMilliseconds (stagger timing hashing (numbered 0).identity)) ∧
      records.lastScheduleTime = ∅ ∧ records.scheduleCounter = 0 := by
  have begin : Runs timing hashing (fun _ _ _ => True) [] 0 {} := .start 0
  have first := begin.check 0 (le_refl _) (numbered 0) trivial
  rcases @shouldCheckCgroup_cases timing hashing positive 0 (numbered 0) {} with
    ⟨-, result, recorded⟩ | ⟨due, impossible, -⟩
  · rw [result, recorded, Int.zero_add, List.nil_append] at first
    exact ⟨_, first, AList.lookup_insert _, rfl, rfl⟩
  · cases impossible

/-- A thread that is not put off is checked twice at once. -/
theorem not_onTime_of_stagger {timing : TimingConfig} {hashing : Hashing}
    (positive : 0 < timing.cgroupCheckIntervalMs)
    (atOnce : stagger timing hashing (numbered 0).identity = 0) :
    ∃ history last records, Runs timing hashing (fun _ _ _ => True) history last records ∧
      ¬ OnTime timing history := by
  obtain ⟨records, first, present, -⟩ := Runs.first_check timing hashing positive
  rw [atOnce, ofMilliseconds, Int.zero_mul] at first present
  have second := first.check 0 (le_refl _) (numbered 0) trivial
  rcases @shouldCheckCgroup_cases timing hashing positive 0 (numbered 0) records with
    ⟨missing, -⟩ | ⟨due, found, ⟨early, -⟩ | ⟨late, result, recorded⟩⟩
  · rw [present] at missing
    cases missing
  · rw [present] at found
    obtain rfl := Option.some.inj found
    exact absurd early (lt_irrefl _)
  · rw [result, recorded] at second
    refine ⟨_, _, _, second, fun onTime => ?_⟩
    have apart := onTime.apart [] 0 (numbered 0) _ [] 0 (numbered 0) _ [] rfl rfl
    rw [ofMilliseconds] at apart
    omega

/-- A thread that is put off is put off again when its record was removed. -/
theorem not_onTime_of_cleanup {timing : TimingConfig} {hashing : Hashing}
    (positive : 0 < timing.cgroupCheckIntervalMs) (age : 0 ≤ timing.scheduleCleanupIntervalMs)
    (putOff : stagger timing hashing (numbered 0).identity ≠ 0) :
    ∃ history last records, Runs timing hashing (fun _ _ _ => True) history last records ∧
      ¬ OnTime timing history := by
  obtain ⟨records, first, present, empty, counter⟩ := Runs.first_check timing hashing positive
  have due : 0 ≤ stagger timing hashing (numbered 0).identity :=
    Int.emod_nonneg _ (ne_of_gt positive)
  -- The first moment at which the due time is old.
  have moment : ∃ moment, moment = ofMilliseconds (stagger timing hashing (numbered 0).identity) +
      ofMilliseconds timing.scheduleCleanupIntervalMs + 1 := ⟨_, rfl⟩
  obtain ⟨moment, late⟩ := moment
  have positiveAge : 0 ≤ ofMilliseconds timing.scheduleCleanupIntervalMs := by
    rw [ofMilliseconds]
    omega
  have later : 0 ≤ moment := by
    rw [late, ofMilliseconds]
    omega
  have fresh : ∀ number, 1 ≤ number →
      records.lastScheduleTime.lookup (numbered number).identity = none := by
    intro number above
    rw [empty]
    rfl
  have few : records.scheduleCounter < kScheduleCleanupThreshold := by
    rw [counter]
    decide
  obtain ⟨more, after, run, -, checks, others⟩ := first.cleaned later 1 fresh few
  have removed : after.nextCgroupCheckTime.lookup (numbered 0).identity = none := by
    rw [checks, Table.lookup_retain, present]
    have old : ofMilliseconds timing.scheduleCleanupIntervalMs <
        moment - ofMilliseconds (stagger timing hashing (numbered 0).identity) := by omega
    rw [Option.filter_some, decide_eq_true old]
    rfl
  have again := run.check moment (le_refl _) (numbered 0) trivial
  rcases @shouldCheckCgroup_cases timing hashing positive moment (numbered 0) after with
    ⟨-, result, -⟩ | ⟨time, found, -⟩
  · have answer : (shouldCheckCgroup timing hashing moment (numbered 0) after).1 = false := by
      rw [result]
      exact decide_eq_false putOff
    rw [answer] at again
    refine ⟨_, _, _, again, fun onTime => ?_⟩
    have unchecked : ∀ event ∈ more, dueOf (numbered 0).identity event = none := by
      intro event member
      obtain ⟨number, -, this⟩ := others event member
      rw [this]
      rfl
    have made := onTime.due _ moment (numbered 0) false _ [] rfl
      (ofMilliseconds (stagger timing hashing (numbered 0).identity))
    rw [lastOf_append_of_none unchecked] at made
    have reached : ofMilliseconds (stagger timing hashing (numbered 0).identity) ≤ moment := by
      omega
    exact Bool.false_ne_true (made rfl reached)
  · rw [removed] at found
    cases found

/-- Whatever the interval is, there is a run in which a check is early or a check that is due is
not made. -/
theorem not_onTime (timing : TimingConfig) (hashing : Hashing)
    (positive : 0 < timing.cgroupCheckIntervalMs) (age : 0 ≤ timing.scheduleCleanupIntervalMs) :
    ∃ history last records, Runs timing hashing (fun _ _ _ => True) history last records ∧
      ¬ OnTime timing history := by
  by_cases atOnce : stagger timing hashing (numbered 0).identity = 0
  · exact not_onTime_of_stagger positive atOnce
  · exact not_onTime_of_cleanup positive age atOnce

/-- With an interval of a second there is a run in which a check is early, or late. -/
theorem onTime_fails : ¬ ∀ (document : Json) (config : Config) (hashing : Hashing),
    ConfigParser.parse document = some config → 0 < config.sched.timing.cgroupCheckIntervalMs →
      ∀ history last records,
        Runs config.sched.timing hashing (fun _ _ _ => True) history last records →
          OnTime config.sched.timing history := by
  intro claim
  have parsed : (ConfigParser.parse (intervalsDocument 200 1000)).map (fun config =>
      (config.sched.timing.cgroupCheckIntervalMs, config.sched.timing.scheduleCleanupIntervalMs)) =
      some (1000, 5000) := by decide +kernel
  obtain ⟨config, accepted, intervals⟩ := Option.map_eq_some_iff.mp parsed
  obtain ⟨interval, age⟩ := Prod.mk.inj intervals
  have hashing : Hashing := ⟨fun _ => 0, fun _ => 0⟩
  obtain ⟨history, last, records, runs, fails⟩ := not_onTime config.sched.timing hashing
    (by omega) (by omega)
  exact fails (claim _ config hashing accepted (by omega) history last records runs)

end ReUperf.ScheduleRecords
