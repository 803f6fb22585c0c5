import ReUperf.Lib.Program
import ReUperf.System.CpuSet
import ReUperf.System.ScanState

/-!
# System operations

What the scheduler does outside its own memory, one operation for each: single reads of
`/proc`, single system calls that change a thread, single method calls of the thread cache
and of the objects that keep time. A program of these operations is as fine-grained as the
interleavings between the threads of the scheduler.

An operation on behalf of a thread carries the identity it is meant for. The system sees only
its IDs.
-/

namespace ReUperf

open Effect

/-- A task for one thread. -/
structure DispatchTask where
  /-- The thread. -/
  identity : Identity
  /-- The name of the thread. -/
  threadName : Bytes
  /-- The state of the process. -/
  state : ProcessState
  /-- The mount point of the cpuset controller. -/
  cpusetBase : Bytes
  /-- The name of the process. -/
  procName : Bytes
  /-- The command line of the process. -/
  cmdline : Bytes
  deriving DecidableEq

/-- What the match result of a task is computed for. -/
def DispatchTask.observation (task : DispatchTask) : Observation :=
  ⟨task.threadName, task.cmdline, task.state⟩

/-- The groups `/proc` reports for a thread. -/
structure ThreadCgroupPaths where
  /-- The cpuset group. -/
  cpuset : Bytes := []
  /-- The cpu controller's group. -/
  cpuctl : Bytes := []
  /-- Whether the groups could be read. -/
  readable : Bool := false
  deriving DecidableEq

/-- The state of a process its groups tell. -/
inductive CgroupState
  /-- The top application. -/
  | top
  /-- The foreground. -/
  | fg
  /-- The background. -/
  | bg
  /-- No state. -/
  | other
  deriving DecidableEq

/-- The state the groups tell, and whether they are ReUperf's. -/
structure CgroupStateInfo where
  /-- The state. -/
  state : CgroupState := .other
  /-- Whether a group is ReUperf's. -/
  reuperfOwned : Bool := false
  deriving DecidableEq

/-- What a read of a start time or of a membership is for. -/
inductive ReadUse
  /-- A check whose failure erases the cache entry. -/
  | discard
  /-- A check whose failure skips a step. -/
  | skip
  /-- The first look of a scan at a process. -/
  | scan
  /-- A later look of a scan. -/
  | rescan
  deriving DecidableEq

/-- One system call that changes a thread. -/
inductive Attempt
  /-- Write the thread ID to the `tasks` file of a directory. -/
  | tasks (path : Bytes)
  /-- `sched_setaffinity`. -/
  | affinity (cpus : CpuSet)
  /-- `sched_setscheduler`. -/
  | scheduler (policy priority : Int)
  /-- `setpriority`. -/
  | nice (value : Int)
  deriving DecidableEq

/-- One method call of the thread cache. A call under a key carries an identity with that key,
on whose behalf it is made. -/
inductive CacheCall
  /-- `lookup`. -/
  | find (owner : Identity) (observation : Observation)
  /-- `update`. -/
  | update (owner : Identity) (observation : Observation) (record : ResultRecord)
  /-- `get_applied_result`. -/
  | getAppliedResult (owner : Identity)
  /-- `update_applied_result`. -/
  | updateAppliedResult (owner : Identity) (result : MatchResult)
  /-- `clear_applied_result`. -/
  | clearAppliedResult (owner : Identity)
  /-- `get_managed_components`. -/
  | getManagedComponents (owner : Identity)
  /-- `set_managed_components`. -/
  | setManagedComponents (owner : Identity) (components : ManagedComponents)
  /-- `clear_managed_components`. -/
  | clearManagedComponents (owner : Identity)
  /-- `set_baseline`. -/
  | setBaseline (owner : Identity) (baseline : ThreadBaseline)
  /-- `get_baseline`. -/
  | getBaseline (owner : Identity)
  /-- `clear_baseline`. -/
  | clearBaseline (owner : Identity)
  /-- `get_all_baselines`. -/
  | getAllBaselines
  /-- `get_pids_with_baselines`. -/
  | getPidsWithBaselines
  /-- `identity_snapshot`. -/
  | identitySnapshot
  /-- `retain_live_threads`. -/
  | retainLiveThreads (findings : ThreadCache.ScanFindings)
  /-- `clear_scheduling_state_preserving_baselines`. -/
  | clearSchedulingStatePreservingBaselines
  /-- `erase_thread_if_identity`. -/
  | eraseThreadIfIdentity (owner : Identity)
  /-- `reset_for_pid`. -/
  | resetForPid (pid : Int)
  /-- `clear`. -/
  | clear

/-- The value a cache call returns. -/
@[reducible] def CacheCall.Res : CacheCall → Type
  | .find _ _ => Option ThreadCacheEntry
  | .getAppliedResult _ => Option MatchResult
  | .getManagedComponents _ => ManagedComponents
  | .getBaseline _ => Option ThreadBaseline
  | .getAllBaselines => List StoredThreadBaseline
  | .getPidsWithBaselines => List Int
  | .identitySnapshot => Table CacheKey (Nat × Nat)
  | _ => Unit

/-- The value of a cache call and the cache it leaves. -/
def CacheCall.run : (call : CacheCall) → ThreadCache → call.Res × ThreadCache
  | .find owner observation, cache => (cache.find owner observation, cache)
  | .update owner observation record, cache => ((), cache.update owner observation record)
  | .getAppliedResult owner, cache => (cache.getAppliedResult owner.key, cache)
  | .updateAppliedResult owner result, cache => ((), cache.updateAppliedResult owner.key result)
  | .clearAppliedResult owner, cache => ((), cache.clearAppliedResult owner.key)
  | .getManagedComponents owner, cache => (cache.getManagedComponents owner.key, cache)
  | .setManagedComponents owner components, cache =>
    ((), cache.setManagedComponents owner.key components)
  | .clearManagedComponents owner, cache => ((), cache.clearManagedComponents owner.key)
  | .setBaseline owner baseline, cache => ((), cache.setBaseline owner.key baseline)
  | .getBaseline owner, cache => (cache.getBaseline owner.key, cache)
  | .clearBaseline owner, cache => ((), cache.clearBaseline owner.key)
  | .getAllBaselines, cache => (cache.getAllBaselines, cache)
  | .getPidsWithBaselines, cache => (cache.getPidsWithBaselines, cache)
  | .identitySnapshot, cache => (cache.identitySnapshot, cache)
  | .retainLiveThreads findings, cache => ((), cache.retainLiveThreads findings)
  | .clearSchedulingStatePreservingBaselines, cache =>
    ((), cache.clearSchedulingStatePreservingBaselines)
  | .eraseThreadIfIdentity owner, cache => ((), cache.eraseThreadIfIdentity owner)
  | .resetForPid pid, cache => ((), cache.resetForPid pid)
  | .clear, _ => ((), ∅)

/-- The effect of a cache call. The cache is a hash table, so it lists its baselines in an
order of its own. -/
def CacheCall.Step : (call : CacheCall) → ThreadCache → call.Res → ThreadCache → Prop
  | .getAllBaselines, cache, listed, after => listed.Perm cache.getAllBaselines ∧ after = cache
  | call, cache, response, after => call.run cache = (response, after)

/-- Running a call is one of its effects. -/
theorem CacheCall.step_run (call : CacheCall) (cache : ThreadCache) :
    call.Step cache (call.run cache).1 (call.run cache).2 := by
  cases call with
  | getAllBaselines => exact ⟨.refl _, rfl⟩
  | _ => rfl

/-- One entry read from a directory. -/
inductive DirEntry
  /-- A name. -/
  | name (text : Bytes)
  /-- The end of the directory. -/
  | finished
  /-- A read error. -/
  | failed
  deriving DecidableEq

/-- One operation. -/
inductive SysOp
  /-- The start time in the `stat` file of a process; zero when it cannot be read. -/
  | processStartTime (use : ReadUse) (pid : Int)
  /-- The start time in the `stat` file of a thread; zero when it cannot be read. -/
  | threadStartTime (use : ReadUse) (pid tid : Int)
  /-- Whether the `status` file of a thread names the process. -/
  | threadInProcess (use : ReadUse) (pid tid : Int)
  /-- The name in the `status` file of a process; `[dead]` when it cannot be read. -/
  | processName (pid : Int)
  /-- The first argument in the `cmdline` file of a process. -/
  | processCmdline (pid : Int)
  /-- The state the `cgroup` file of a process tells. -/
  | cgroupStateInfo (pid : Int)
  /-- The groups in the `cgroup` file of a thread. -/
  | threadCgroupPaths (pid tid : Int)
  /-- `sched_getaffinity`; nothing when it fails. -/
  | schedGetaffinity (tid : Int)
  /-- The CPU list in the `status` file of a thread; empty when it cannot be read. -/
  | statusAffinity (tid : Int)
  /-- `sched_getscheduler`; negative when it fails. -/
  | schedGetscheduler (tid : Int)
  /-- `sched_getparam`; nothing when it fails. -/
  | schedGetparam (tid : Int)
  /-- `getpriority`; nothing when it fails. -/
  | getpriority (tid : Int)
  /-- A system call that changes the thread with the identity's thread ID. -/
  | attempt (owner : Identity) (change : Attempt)
  /-- `sleep_for`, in milliseconds. -/
  | sleep (duration : Int)
  /-- The readiness remembered for a cpuset group, unless it is too old. -/
  | findGroupCheck (path : Bytes)
  /-- The contents of a file of a cpuset group. -/
  | readGroupFile (path : Bytes)
  /-- Whether a file of a cpuset group exists. -/
  | groupFileExists (path : Bytes)
  /-- Whether a directory exists. -/
  | dirExists (path : Bytes)
  /-- Remember the readiness of a cpuset group. -/
  | recordGroupCheck (path : Bytes) (ready : Bool)
  /-- Forget the readiness of a cpuset group. -/
  | invalidateGroup (path : Bytes)
  /-- `should_skip_schedule`. -/
  | shouldSkipSchedule (task : DispatchTask)
  /-- `should_check_cgroup`. -/
  | shouldCheckCgroup (task : DispatchTask)
  /-- `ThreadMatcher::match`. -/
  | matchThread (task : DispatchTask)
  /-- `ThreadMatcher::match_process_only`. -/
  | matchProcess (pid : Int) (procName : Bytes) (state : ProcessState) (cmdline : Bytes)
  /-- A method call of the thread cache. -/
  | cache (call : CacheCall)
  /-- Whether the time budget of a scan is used up. -/
  | budgetExhausted
  /-- Count a read of a scan, which may pause. -/
  | afterThreadRead
  /-- `opendir` of `/proc`; false when it fails. -/
  | openProc
  /-- `readdir` of `/proc`. -/
  | readProc
  /-- `opendir` of the task directory of a process; false when it fails. -/
  | openTask (pid : Int)
  /-- `readdir` of the task directory of a process. -/
  | readTask (pid : Int)
  /-- Publish the state of the full scan. -/
  | storeScan (scan : FullScanState)
  /-- Stop the workers and wait for them. -/
  | stopWorkers
  /-- Start the workers. -/
  | startWorkers
  /-- Initialise the groups of a configuration. -/
  | initCgroups
  /-- A worker's task is done. -/
  | taskDone (worker : Nat)
  /-- Leave `main` with an exit code. -/
  | exit (code : Nat)

/-- The signature of the operations. -/
@[reducible] def SysSig : Signature where
  Op := SysOp
  Res
    | .processStartTime _ _ | .threadStartTime _ _ _ => Nat
    | .threadInProcess _ _ _ | .attempt _ _ | .groupFileExists _ | .dirExists _ | .shouldSkipSchedule _
    | .shouldCheckCgroup _ | .budgetExhausted | .openProc | .openTask _ | .startWorkers
    | .initCgroups => Bool
    | .processName _ | .processCmdline _ | .readGroupFile _ => Bytes
    | .cgroupStateInfo _ => CgroupStateInfo
    | .threadCgroupPaths _ _ => ThreadCgroupPaths
    | .schedGetaffinity _ => Option CpuSet
    | .statusAffinity _ => List Int
    | .schedGetscheduler _ => Int
    | .schedGetparam _ | .getpriority _ => Option Int
    | .findGroupCheck _ => Option Bool
    | .matchThread _ | .matchProcess _ _ _ _ => MatchResult
    | .cache call => call.Res
    | .readProc | .readTask _ => DirEntry
    | .sleep _ | .recordGroupCheck _ _ | .invalidateGroup _ | .afterThreadRead | .storeScan _
    | .stopWorkers | .taskDone _ | .exit _ => Unit

/-- A program of system operations. -/
abbrev SysProgram (α : Type) : Type := Program SysSig α

/-- Perform one operation. -/
abbrev perform (operation : SysOp) : SysProgram (SysSig.Res operation) :=
  Program.op (S := SysSig) operation

namespace FileUtils

/-- Whether a number can be the ID of a process or thread. -/
def isValidId (number : Int) : Bool := decide (0 < number ∧ number ≤ 2147483647)

/-- The start time of a process; zero when it cannot be read. -/
def getProcessStartTime (use : ReadUse) (pid : Int) : SysProgram Nat :=
  if isValidId pid then perform (.processStartTime use pid) else pure 0

/-- The start time of a thread; zero when it cannot be read. -/
def getThreadStartTime (use : ReadUse) (pid tid : Int) : SysProgram Nat :=
  if isValidId pid && isValidId tid then perform (.threadStartTime use pid tid) else pure 0

/-- Whether a thread belongs to a process. -/
def isThreadInProcess (use : ReadUse) (pid tid : Int) : SysProgram Bool :=
  if isValidId pid && isValidId tid then perform (.threadInProcess use pid tid) else pure false

/-- The groups of a thread. -/
def getThreadCgroupPathsUncached (pid tid : Int) : SysProgram ThreadCgroupPaths :=
  if isValidId pid && isValidId tid then perform (.threadCgroupPaths pid tid) else pure {}

/-- Whether the IDs still belong to the identity: its start times and its membership. -/
def identityMatches (use : ReadUse) (identity : Identity) : SysProgram Bool := do
  if (← getProcessStartTime use identity.pid) = identity.processStartTime then
    if (← getThreadStartTime use identity.pid identity.tid) = identity.threadStartTime then
      isThreadInProcess use identity.pid identity.tid
    else pure false
  else pure false

end FileUtils

end ReUperf
