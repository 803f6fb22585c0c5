import ReUperf.Scheduler.CpuctlSetter
import ReUperf.Scheduler.CpusetSetter
import ReUperf.Scheduler.PrioritySetter

/-!
# Scan worker

The task processing of `scan_worker.hpp`. The code is written over the calls it makes: system
operations and calls of the setters. `expand` replaces a setter call by the operations the
setter performs, so the same text is read at both levels.

A call of `apply_result` and a task return nothing in the source. Here they return at which of
their returns they ended.
-/

namespace ReUperf

open Effect FileUtils

/-! ## Calls -/

/-- A call of a setter or of a reader of thread state. -/
inductive SetterCall
  /-- `CpuMask::get_affinity_from_status`. -/
  | captureAffinity (thread : Identity)
  /-- `PrioritySetter::capture_scheduler_baseline`. -/
  | captureScheduler (thread : Identity)
  /-- `CpuMask::is_affinity_changed`. -/
  | isAffinityChanged (thread : Identity) (expected : List Int)
  /-- `PrioritySetter::is_sched_changed`. -/
  | isSchedChanged (thread : Identity) (expectedPrio : Int)
  /-- `CpusetSetter::run_takeover_sequence`. -/
  | takeover (thread : Identity) (cpumaskName : Bytes) (expectedCpus : List Int)
  /-- `PrioritySetter::set_priority`. -/
  | setPriority (thread : Identity) (prioValue : Int)
  /-- `CpuctlSetter::migrate_thread`. -/
  | migrateThread (thread : Identity) (groupPath : Bytes)
  /-- `CpusetSetter::restore_cpuset_cgroup`. -/
  | restoreCpusetCgroup (thread : Identity) (cgroupPath : Bytes)
  /-- `CpusetSetter::restore_affinity`. -/
  | restoreAffinity (thread : Identity) (cpus : List Int)
  /-- `PrioritySetter::restore_scheduler`. -/
  | restoreScheduler (thread : Identity) (baseline : SchedulerBaseline)
  /-- `CpuctlSetter::restore_cpuctl_cgroup`. -/
  | restoreCpuctlCgroup (thread : Identity) (cgroupPath : Bytes)
  deriving DecidableEq

/-- The value a setter call returns. -/
@[reducible] def SetterCall.Res : SetterCall → Type
  | .captureAffinity _ => List Int
  | .captureScheduler _ => Option SchedulerBaseline
  | .takeover _ _ _ => AffinityTakeoverResult
  | _ => Bool

/-- The thread a setter call is for. -/
def SetterCall.thread : SetterCall → Identity
  | .captureAffinity thread | .captureScheduler thread | .isAffinityChanged thread _
  | .isSchedChanged thread _ | .takeover thread _ _ | .setPriority thread _
  | .migrateThread thread _ | .restoreCpusetCgroup thread _ | .restoreAffinity thread _
  | .restoreScheduler thread _ | .restoreCpuctlCgroup thread _ => thread

/-- A call of the worker. -/
inductive CallOp
  /-- A system operation. -/
  | sys (operation : SysOp)
  /-- A setter call. -/
  | setter (call : SetterCall)

/-- The signature of the calls. -/
@[reducible] def CallSig : Signature where
  Op := CallOp
  Res
    | .sys operation => SysSig.Res operation
    | .setter call => call.Res

/-- A program of calls. -/
abbrev CallProgram (α : Type) : Type := Program CallSig α

/-- Make one setter call. -/
abbrev setterCall (call : SetterCall) : CallProgram call.Res := Program.op (S := CallSig) (.setter call)

/-- Make one call of the thread cache. -/
abbrev cacheCall (call : CacheCall) : CallProgram call.Res :=
  Program.op (S := CallSig) (.sys (.cache call))

/-- A system operation as a program of calls. -/
abbrev sysCall (operation : SysOp) : CallProgram (SysSig.Res operation) :=
  Program.op (S := CallSig) (.sys operation)

/-- A system program as a program of calls. -/
abbrev lift {α : Type} (program : SysProgram α) : CallProgram α := program.interpret sysCall

/-- The operations of a call. -/
def expand (timing : TimingConfig) : (operation : CallOp) → SysProgram (CallSig.Res operation)
  | .sys operation => perform operation
  | .setter (.captureAffinity thread) => CpuMask.getAffinityFromStatus thread
  | .setter (.captureScheduler thread) => PrioritySetter.captureSchedulerBaseline thread
  | .setter (.isAffinityChanged thread expected) => CpuMask.isAffinityChanged thread expected
  | .setter (.isSchedChanged thread expectedPrio) =>
    PrioritySetter.isSchedChanged thread expectedPrio
  | .setter (.takeover thread cpumaskName expectedCpus) =>
    CpusetSetter.takeover timing thread cpumaskName expectedCpus
  | .setter (.setPriority thread prioValue) => PrioritySetter.setPriority thread prioValue
  | .setter (.migrateThread thread groupPath) => CpuctlSetter.migrateThread thread groupPath
  | .setter (.restoreCpusetCgroup thread cgroupPath) =>
    CpusetSetter.restoreCpusetCgroup thread cgroupPath
  | .setter (.restoreAffinity thread cpus) => CpusetSetter.restoreAffinity thread cpus
  | .setter (.restoreScheduler thread baseline) => PrioritySetter.restoreScheduler thread baseline
  | .setter (.restoreCpuctlCgroup thread cgroupPath) =>
    CpuctlSetter.restoreCpuctlCgroup thread cgroupPath

/-! ## Applying a result -/

namespace CpusetSetter

/-- Take a thread over as a result asks for. -/
def applyWithResult (sched : SchedConfig) (thread : Identity) (result : MatchResult) :
    CallProgram AffinityTakeoverResult :=
  if thread.tid ≤ 0 then pure {}
  else if !result.matched || !hasResolvedAffinity result then
    pure { cpusetVerified := true, affinityVerified := true }
  else
    let expectedCpus := sched.getCpusForAffinity result.affinityClass result.effectiveState
    if expectedCpus = [] then pure {}
    else setterCall (.takeover thread result.cpumaskName expectedCpus)

end CpusetSetter

namespace PrioritySetter

/-- Give a thread the scheduler state a result asks for. -/
def applyWithResult (sched : SchedConfig) (thread : Identity) (result : MatchResult) :
    CallProgram Bool :=
  let prio := sched.getPrioValue result.prioClass result.effectiveState
  if !result.matched || prio = 0 then pure true
  else setterCall (.setPriority thread prio)

end PrioritySetter

namespace CpuctlSetter

/-- Move a thread to the cpuctl group of a result. -/
def applyWithResult (thread : Identity) (result : MatchResult) : CallProgram Bool :=
  if !result.matched || !result.enableLimit then pure true
  else if result.threadRuleIndex < 0 then pure false
  else setterCall (.migrateThread thread (targetPath result))

end CpuctlSetter

/-- Continue while the identity holds; otherwise erase its entry. -/
def orDiscard {α : Type} (identity : Identity) (lost : α) (rest : CallProgram α) :
    CallProgram α := do
  if ← lift (identityMatches .discard identity) then rest
  else
    cacheCall (.eraseThreadIfIdentity identity)
    pure lost

namespace ScanWorker

/-- Whether a result manages the scheduler state. -/
def needsPriorityManagement (sched : SchedConfig) (result : MatchResult) : Bool :=
  sched.getPrioValue result.prioClass result.effectiveState ≠ 0

/-- Whether a result manages anything. -/
def needsManagedState (sched : SchedConfig) (result : MatchResult) : Bool :=
  result.matched &&
    (hasResolvedAffinity result || needsPriorityManagement sched result || result.enableLimit)

/-- How a call of `apply_result` ended. -/
inductive ApplyOutcome
  /-- The result was applied completely. -/
  | applied
  /-- Nothing is managed and nothing remains to restore. -/
  | restored
  /-- Something failed; a later task has to try again. -/
  | incomplete
  /-- The identity was lost and its entry erased. -/
  | discarded
  deriving DecidableEq

/-- Whether the task's identity still holds. -/
def isCurrentTaskIdentity (use : ReadUse) (task : DispatchTask) : CallProgram Bool :=
  lift (identityMatches use task.identity)

/-- The baseline read from a thread: the parts that could be read. -/
def readBaseline (task : DispatchTask) : CallProgram ThreadBaseline := do
  let affinity ← setterCall (.captureAffinity task.identity)
  let scheduler ← setterCall (.captureScheduler task.identity)
  let cgroups ← lift (getThreadCgroupPathsUncached task.identity.pid task.identity.tid)
  pure
    { affinity := if affinity = [] then none else some affinity
      scheduler := scheduler
      cpusetPath := if cgroups.cpuset = [] then none else some (cpusetMount ++ cgroups.cpuset)
      cpuctlPath := if cgroups.cpuctl = [] then none else some (cpuctlMount ++ cgroups.cpuctl) }

/-- Read a baseline and record the parts that are missing. -/
def captureBaselineIfNeeded (task : DispatchTask) : CallProgram Unit := do
  let baseline ← readBaseline task
  if ← isCurrentTaskIdentity .skip task then
    cacheCall (.setBaseline task.identity baseline)
  else pure ()

/-! ## Restoring -/

/-- Restore a part if it is recorded, after a check of the identity; nothing when the check
fails. -/
def restoreGuarded {α : Type} (task : DispatchTask) (part : Option α)
    (restore : α → CallProgram Bool) : CallProgram (Option Bool) :=
  match part with
  | none => pure (some true)
  | some value => do
    if ← isCurrentTaskIdentity .skip task then
      let restored ← restore value
      pure (some restored)
    else pure none

/-- Restore the cpuset group and the CPUs. -/
def restoreAffinityBaseline (task : DispatchTask) (baseline : ThreadBaseline) :
    CallProgram Bool := do
  match ← restoreGuarded task baseline.cpusetPath fun path =>
      setterCall (.restoreCpusetCgroup task.identity path) with
  | none => pure false
  | some moved =>
    match ← restoreGuarded task baseline.affinity fun cpus =>
        setterCall (.restoreAffinity task.identity cpus) with
    | none => pure false
    | some pinned =>
      if moved && pinned then isCurrentTaskIdentity .skip task else pure false

/-- Restore a part that has to be recorded, between two checks of the identity. -/
def restoreRequired {α : Type} (task : DispatchTask) (part : Option α)
    (restore : α → CallProgram Bool) : CallProgram Bool := do
  if ← isCurrentTaskIdentity .skip task then
    match part with
    | none => pure false
    | some value =>
      if ← restore value then isCurrentTaskIdentity .skip task else pure false
  else pure false

/-- Restore the scheduler state. -/
def restoreSchedulerBaseline (task : DispatchTask) (baseline : ThreadBaseline) :
    CallProgram Bool :=
  restoreRequired task baseline.scheduler fun scheduler =>
    setterCall (.restoreScheduler task.identity scheduler)

/-- Restore the cpuctl group. -/
def restoreCpuctlBaseline (task : DispatchTask) (baseline : ThreadBaseline) :
    CallProgram Bool :=
  restoreRequired task baseline.cpuctlPath fun path =>
    setterCall (.restoreCpuctlCgroup task.identity path)

/-- Restore a part unless it is not recorded. -/
def restoreIf (recorded : Bool) (restore : CallProgram Bool) : CallProgram Bool :=
  if recorded then restore else pure true

/-- The end of a restoration: forget the baseline when every part was restored. -/
def finishRestoration (task : DispatchTask) (restored : Bool) : CallProgram ApplyOutcome := do
  if restored then
    cacheCall (.clearBaseline task.identity)
    cacheCall (.clearAppliedResult task.identity)
    cacheCall (.clearManagedComponents task.identity)
    pure .restored
  else pure .incomplete

/-- Restore a baseline, in the reverse order of its application. -/
def restoreRecorded (task : DispatchTask) (baseline : ThreadBaseline) :
    CallProgram ApplyOutcome :=
  orDiscard task.identity .discarded do
    let cpuctl ← restoreIf baseline.cpuctlPath.isSome (restoreCpuctlBaseline task baseline)
    orDiscard task.identity .discarded do
      let scheduler ← restoreIf baseline.scheduler.isSome (restoreSchedulerBaseline task baseline)
      orDiscard task.identity .discarded do
        let affinity ← restoreAffinityBaseline task baseline
        orDiscard task.identity .discarded <|
          finishRestoration task (cpuctl && scheduler && affinity)

/-- Restore what is recorded of a thread that is no longer managed. -/
def restoreBaseline (task : DispatchTask) : CallProgram ApplyOutcome := do
  match ← cacheCall (.getBaseline task.identity) with
  | none =>
    cacheCall (.clearAppliedResult task.identity)
    cacheCall (.clearManagedComponents task.identity)
    pure .restored
  | some baseline => restoreRecorded task baseline

/-! ## Applying -/

/-- Whether a baseline has the parts a result needs. -/
def isSufficient (sched : SchedConfig) (result : MatchResult) (baseline : ThreadBaseline) : Bool :=
  !((hasResolvedAffinity result && (baseline.affinity.isNone || baseline.cpusetPath.isNone))
    || (needsPriorityManagement sched result && baseline.scheduler.isNone)
    || (result.enableLimit && baseline.cpuctlPath.isNone))

/-- Restore a component that is no longer managed and record that; nothing when the
restoration fails. -/
def releaseComponent (task : DispatchTask) (release : Bool) (restore : CallProgram Bool)
    (managed released : ManagedComponents) : CallProgram (Option ManagedComponents) := do
  if release then
    if ← restore then
      cacheCall (.setManagedComponents task.identity released)
      pure (some released)
    else pure none
  else pure (some managed)

/-- Restore the components a result no longer manages; nothing when a restoration fails. -/
def releaseComponents (sched : SchedConfig) (task : DispatchTask) (result : MatchResult)
    (baseline : ThreadBaseline) (managed : ManagedComponents) :
    CallProgram (Option ManagedComponents) := do
  match ← releaseComponent task
      (shouldRestoreManagedComponent managed.affinity (hasResolvedAffinity result))
      (restoreAffinityBaseline task baseline) managed { managed with affinity := false } with
  | none => pure none
  | some managed =>
    match ← releaseComponent task
        (shouldRestoreManagedComponent managed.priority (needsPriorityManagement sched result))
        (restoreSchedulerBaseline task baseline) managed { managed with priority := false } with
    | none => pure none
    | some managed =>
      releaseComponent task (shouldRestoreManagedComponent managed.cpuctl result.enableLimit)
        (restoreCpuctlBaseline task baseline) managed { managed with cpuctl := false }

/-- The components managed once a result was attempted. -/
def ManagedComponents.add (sched : SchedConfig) (managed : ManagedComponents)
    (result : MatchResult) : ManagedComponents where
  affinity := managed.affinity || hasResolvedAffinity result
  priority := managed.priority || needsPriorityManagement sched result
  cpuctl := managed.cpuctl || result.enableLimit

/-- Record the managed components, and the result when it was applied completely. -/
def recordApplied (task : DispatchTask) (result : MatchResult) (managed : ManagedComponents)
    (complete : Bool) : CallProgram ApplyOutcome :=
  orDiscard task.identity .discarded do
    cacheCall (.setManagedComponents task.identity managed)
    if complete then
      cacheCall (.updateAppliedResult task.identity result)
      pure .applied
    else orDiscard task.identity .discarded (pure .incomplete)

/-- Attempt every component of a result, also after failures, and record what is managed. -/
def attemptResult (sched : SchedConfig) (task : DispatchTask) (result : MatchResult)
    (managed : ManagedComponents) : CallProgram ApplyOutcome := do
  let affinity ← CpusetSetter.applyWithResult sched task.identity result
  orDiscard task.identity .discarded do
    let priority ← PrioritySetter.applyWithResult sched task.identity result
    orDiscard task.identity .discarded do
      let cpuctl ← CpuctlSetter.applyWithResult task.identity result
      recordApplied task result (ManagedComponents.add sched managed result)
        ((!hasResolvedAffinity result || affinity.success) && priority && cpuctl)

/-- Apply a result that manages something, given the recorded baseline. -/
def applyManaged (sched : SchedConfig) (task : DispatchTask) (result : MatchResult)
    (baseline : ThreadBaseline) : CallProgram ApplyOutcome := do
  let managed ← cacheCall (.getManagedComponents task.identity)
  match ← releaseComponents sched task result baseline managed with
  | none => pure .incomplete
  | some managed => attemptResult sched task result managed

/-- Bring a thread to the state a result asks for. -/
def applyResult (sched : SchedConfig) (task : DispatchTask) (result : MatchResult) :
    CallProgram ApplyOutcome := do
  if needsManagedState sched result then
    captureBaselineIfNeeded task
    match ← cacheCall (.getBaseline task.identity) with
    | none => pure .incomplete
    | some baseline =>
      if isSufficient sched result baseline then applyManaged sched task result baseline
      else pure .incomplete
  else restoreBaseline task

/-! ## Tasks -/

/-- Whether a thread left the groups of a result, asked at most once in an interval. -/
def isCgroupChanged (task : DispatchTask) (result : MatchResult) : CallProgram Bool := do
  let checkCpuset := hasResolvedAffinity result
  let checkCpuctl := result.enableLimit && decide (0 ≤ result.threadRuleIndex)
  if checkCpuset || checkCpuctl then
    if ← sysCall (.shouldCheckCgroup task) then
      let paths ← lift (getThreadCgroupPathsUncached task.identity.pid task.identity.tid)
      pure (!paths.readable
        || (checkCpuset && paths.cpuset ≠ CpusetSetter.expectedGroup result.cpumaskName)
        || (checkCpuctl && paths.cpuctl ≠ CpuctlSetter.expectedGroup result))
    else pure false
  else pure false

/-- Whether the CPUs of a thread left those of a result. -/
def affinityDrifted (sched : SchedConfig) (task : DispatchTask) (applied : MatchResult) :
    CallProgram Bool :=
  if hasResolvedAffinity applied then
    setterCall (.isAffinityChanged task.identity
      (sched.getCpusForAffinity applied.affinityClass applied.effectiveState))
  else pure false

/-- Whether the scheduler state of a thread left that of a result. -/
def schedulerDrifted (sched : SchedConfig) (task : DispatchTask) (applied : MatchResult) :
    CallProgram Bool :=
  let expectedPrio := sched.getPrioValue applied.prioClass applied.effectiveState
  if expectedPrio ≠ 0 then setterCall (.isSchedChanged task.identity expectedPrio)
  else pure false

/-- Whether a thread left the state of the applied result. -/
def hasDrifted (sched : SchedConfig) (task : DispatchTask) (applied : MatchResult) :
    CallProgram Bool := do
  let affinityChanged ← affinityDrifted sched task applied
  let schedChanged ← schedulerDrifted sched task applied
  let cgroupChanged ← isCgroupChanged task applied
  pure (affinityChanged || schedChanged || cgroupChanged)

/-- How a task ended. -/
inductive TaskOutcome
  /-- The identity was lost before the task began. -/
  | dropped
  /-- A task of the thread came too recently. -/
  | throttled
  /-- The result is applied already. -/
  | upToDate (applied : MatchResult)
  /-- `apply_result` was called. -/
  | called (result : MatchResult) (outcome : ApplyOutcome)
  deriving DecidableEq

/-- Apply a result and report it. -/
def callApplyResult (sched : SchedConfig) (task : DispatchTask) (result : MatchResult) :
    CallProgram TaskOutcome := do
  let outcome ← applyResult sched task result
  pure (.called result outcome)

/-- Process a task whose cached result is still for it. -/
def processCached (sched : SchedConfig) (task : DispatchTask) (entry : ThreadCacheEntry) :
    CallProgram TaskOutcome := do
  match ← cacheCall (.getAppliedResult task.identity) with
  | none => callApplyResult sched task entry.result
  | some applied =>
    if isResultEqual applied entry.result then
      if needsManagedState sched applied then
        if ← hasDrifted sched task applied then callApplyResult sched task entry.result
        else pure (.upToDate applied)
      else pure (.upToDate applied)
    else callApplyResult sched task entry.result

/-- Process a task that needs a new result. -/
def processUncached (sched : SchedConfig) (task : DispatchTask) : CallProgram TaskOutcome := do
  let result ← sysCall (.matchThread task)
  cacheCall (.update task.identity task.observation
    ⟨result, task.cpusetBase, CpuctlSetter.getCpuctlBase result.effectiveState⟩)
  callApplyResult sched task result

/-- Process a task that is not throttled. -/
def processFresh (sched : SchedConfig) (task : DispatchTask) : CallProgram TaskOutcome := do
  match ← cacheCall (.find task.identity task.observation) with
  | some entry => processCached sched task entry
  | none => processUncached sched task

/-- Process a task. -/
def processDispatchTask (sched : SchedConfig) (task : DispatchTask) : CallProgram TaskOutcome :=
  orDiscard task.identity .dropped do
    if ← sysCall (.shouldSkipSchedule task) then pure .throttled else processFresh sched task

end ScanWorker

end ReUperf
