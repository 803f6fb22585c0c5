import ReUperf.Core.ScanWorker

/-!
# Restoration, reload and shutdown

The parts of `main.cpp` and `restoration_retry.hpp` that put threads back: the restoration of
every recorded baseline, its bounded repetition, the exchange of the scheduler for a new
configuration, and the end of `main`.
-/

namespace ReUperf

open Effect

namespace Main

/-- Restore a part unless it is not recorded. -/
def restorePart {α : Type} (part : Option α) (restore : α → CallProgram Bool) :
    CallProgram Bool :=
  match part with
  | none => pure true
  | some value => restore value

/-- Restore the cpuctl group after a check of the identity, if the group is recorded. -/
def restoreStoredCpuctl (entry : StoredThreadBaseline) (rest : Bool → CallProgram Bool) :
    CallProgram Bool :=
  match entry.baseline.cpuctlPath with
  | none => rest true
  | some path => orDiscard entry.identity true do
    let cpuctl ← setterCall (.restoreCpuctlCgroup entry.identity path)
    rest cpuctl

/-- Forget a stored baseline when every part was restored. -/
def finishStored (entry : StoredThreadBaseline) (restored : Bool) : CallProgram Bool := do
  if restored then
    cacheCall (.clearBaseline entry.identity)
    cacheCall (.clearAppliedResult entry.identity)
    cacheCall (.clearManagedComponents entry.identity)
    pure true
  else pure false

/-- Restore one stored baseline; false when a part could not be restored. -/
def restoreStored (entry : StoredThreadBaseline) : CallProgram Bool :=
  orDiscard entry.identity true <|
    restoreStoredCpuctl entry fun cpuctl =>
    orDiscard entry.identity true do
      let scheduler ← restorePart entry.baseline.scheduler fun scheduler =>
        setterCall (.restoreScheduler entry.identity scheduler)
      orDiscard entry.identity true do
        let cpuset ← restorePart entry.baseline.cpusetPath fun path =>
          setterCall (.restoreCpusetCgroup entry.identity path)
        orDiscard entry.identity true do
          let affinity ← restorePart entry.baseline.affinity fun cpus =>
            setterCall (.restoreAffinity entry.identity cpus)
          orDiscard entry.identity true <|
            finishStored entry (cpuctl && scheduler && cpuset && affinity)

/-- Restore stored baselines one after the other. -/
def restoreEach : List StoredThreadBaseline → CallProgram Bool
  | [] => pure true
  | entry :: rest => do
    let restored ← restoreStored entry
    let others ← restoreEach rest
    pure (restored && others)

/-- Restore every recorded baseline. -/
def restoreAllThreadBaselines : CallProgram Bool := do
  let baselines ← cacheCall .getAllBaselines
  restoreEach baselines

/-- Repeat a restoration until it succeeds or no attempt remains, pausing between attempts. -/
def runRestorationWithRetry (restore : CallProgram Bool) (delay : CallProgram Unit) :
    Nat → CallProgram Bool
  | 0 => pure false
  | remaining + 1 => do
    if ← restore then pure true
    else if remaining = 0 then pure false
    else
      delay
      runRestorationWithRetry restore delay remaining

/-- The number of attempts at shutdown. -/
def kShutdownRestoreAttempts : Nat := 3

/-- The pause between two attempts at shutdown, in milliseconds. -/
def kShutdownRestoreDelayMs : Int := 50

/-- The end of `main`: stop the workers, restore every baseline and report whether that
succeeded. -/
def shutdown : CallProgram Unit := do
  sysCall .stopWorkers
  let restored ← runRestorationWithRetry restoreAllThreadBaselines
    (sysCall (.sleep kShutdownRestoreDelayMs)) kShutdownRestoreAttempts
  if restored then
    cacheCall .clear
    sysCall (.exit 0)
  else sysCall (.exit 2)

/-- How a reload ended. -/
inductive ReloadOutcome
  /-- The new configuration runs. -/
  | reloaded
  /-- The old configuration runs on. -/
  | keptOld
  /-- Neither runs; `main` goes on to its end. -/
  | stopping
  deriving DecidableEq

/-- Run the old scheduler again. -/
def restartOld : CallProgram ReloadOutcome := do
  if ← sysCall .startWorkers then pure .keptOld else pure .stopping

/-- Run the old scheduler again on newly initialised groups. -/
def recoverOld : CallProgram ReloadOutcome := do
  if ← sysCall .initCgroups then restartOld else pure .stopping

/-- Exchange the scheduler for one with a new configuration. -/
def reload : CallProgram ReloadOutcome := do
  sysCall .stopWorkers
  if ← restoreAllThreadBaselines then
    if ← sysCall .initCgroups then
      if ← sysCall .startWorkers then
        cacheCall .clearSchedulingStatePreservingBaselines
        pure .reloaded
      else recoverOld
    else recoverOld
  else restartOld

end Main

end ReUperf
