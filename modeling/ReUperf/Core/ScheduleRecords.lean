import ReUperf.Config.Types
import ReUperf.Main.Dispatch

/-!
# Scheduling records

The records by which a worker of `scan_worker.hpp` throttles tasks and spreads group checks. Times
are those of the steady clock, in nanoseconds. A definition here is one section under the mutex of
the records.
-/

namespace ReUperf

/-- The number of recorded tasks, or of checks, after which old records are removed. -/
def kScheduleCleanupThreshold : Nat := 500

/-- The records of a worker. -/
structure ScheduleRecords where
  /-- When a task of a thread was last let through. -/
  lastScheduleTime : Table Identity Int := ∅
  /-- The state of that task. -/
  lastScheduleState : Table Identity ProcessState := ∅
  /-- When the groups of a thread are due to be checked. -/
  nextCgroupCheckTime : Table Identity Int := ∅
  /-- The tasks let through since the last cleanup they caused. -/
  scheduleCounter : Nat := 0
  /-- The checks since the last cleanup they caused. -/
  cgroupCheckCounter : Nat := 0

/-- `TaskKeyHash`. -/
def taskKeyHash (hashing : Hashing) (key : Identity) : UInt64 :=
  let hash := hashing.int key.pid
  let hash := Main.mixHash hash (hashing.int key.tid)
  let hash := Main.mixHash hash (hashing.uint64 key.processStartTime)
  Main.mixHash hash (hashing.uint64 key.threadStartTime)

/-- Whether a task with an unchanged state comes too early. -/
def shouldThrottleSameStateSchedule (sameState : Bool) (elapsedMs minIntervalMs : Int) : Bool :=
  sameState && decide (elapsedMs < minIntervalMs)

namespace ScheduleRecords

/-- Whole milliseconds of a duration. -/
def toMilliseconds (duration : Int) : Int := duration.tdiv 1000000

/-- A duration of milliseconds. -/
def ofMilliseconds (milliseconds : Int) : Int := milliseconds * 1000000

variable (timing : TimingConfig)

/-- Whether the record of a task is old. -/
def isExpired (now time : Int) : Bool :=
  decide (timing.scheduleCleanupIntervalMs < toMilliseconds (now - time))

/-- Remove old records. -/
def cleanupExpiredScheduleTimes (now : Int) (records : ScheduleRecords) : ScheduleRecords :=
  { records with
    lastScheduleTime := records.lastScheduleTime.retain fun _ time => !isExpired timing now time
    lastScheduleState := records.lastScheduleState.retain fun key _ =>
      !((records.lastScheduleTime.lookup key).any fun time => isExpired timing now time)
    nextCgroupCheckTime := records.nextCgroupCheckTime.retain fun _ due =>
      !decide (ofMilliseconds timing.scheduleCleanupIntervalMs < now - due) }

/-- Record that a task is let through. -/
def recordSchedule (now : Int) (task : DispatchTask) (records : ScheduleRecords) :
    ScheduleRecords :=
  let records := { records with
    lastScheduleTime := records.lastScheduleTime.insert task.identity now
    lastScheduleState := records.lastScheduleState.insert task.identity task.state }
  if kScheduleCleanupThreshold ≤ records.scheduleCounter + 1 then
    cleanupExpiredScheduleTimes timing now { records with scheduleCounter := 0 }
  else { records with scheduleCounter := records.scheduleCounter + 1 }

/-- `should_skip_schedule`. -/
def shouldSkipSchedule (now : Int) (task : DispatchTask) (records : ScheduleRecords) :
    Bool × ScheduleRecords :=
  let sameState := records.lastScheduleState.lookup task.identity = some task.state
  match records.lastScheduleTime.lookup task.identity with
  | none => (false, recordSchedule timing now task records)
  | some time =>
    if shouldThrottleSameStateSchedule (decide sameState) (toMilliseconds (now - time))
        timing.minScheduleIntervalMs then (true, records)
    else (false, recordSchedule timing now task records)

/-- Record a check that was due. -/
def recordCheck (now : Int) (task : DispatchTask) (records : ScheduleRecords) : ScheduleRecords :=
  let records := { records with
    nextCgroupCheckTime := records.nextCgroupCheckTime.insert task.identity
      (now + ofMilliseconds timing.cgroupCheckIntervalMs) }
  if kScheduleCleanupThreshold ≤ records.cgroupCheckCounter + 1 then
    cleanupExpiredScheduleTimes timing now { records with cgroupCheckCounter := 0 }
  else { records with cgroupCheckCounter := records.cgroupCheckCounter + 1 }

/-- The time by which the first check of a thread is put off. -/
def stagger (hashing : Hashing) (key : Identity) : Int :=
  ((taskKeyHash hashing key).toNat : Int) % timing.cgroupCheckIntervalMs

/-- `should_check_cgroup`. -/
def shouldCheckCgroup (hashing : Hashing) (now : Int) (task : DispatchTask)
    (records : ScheduleRecords) : Bool × ScheduleRecords :=
  if timing.cgroupCheckIntervalMs = 0 then (true, records)
  else
    match records.nextCgroupCheckTime.lookup task.identity with
    | none =>
      (decide (stagger timing hashing task.identity = 0), { records with
        nextCgroupCheckTime := records.nextCgroupCheckTime.insert task.identity
          (now + ofMilliseconds (stagger timing hashing task.identity)) })
    | some due =>
      if now < due then (false, records) else (true, recordCheck timing now task records)

end ScheduleRecords

end ReUperf
