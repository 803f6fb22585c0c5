import ReUperf.Scheduler.CpuMask
import ReUperf.Scheduler.GroupPaths

/-!
# Cpuset setter

The setter of `cpuset_setter.hpp`: it moves a thread to the cpuset group of a mask, pins it to
the mask's CPUs and verifies both, retrying through the parent group. The sequence is written
over its six operations, as the source's template is.
-/

namespace ReUperf

open FileUtils

/-- What happened in a takeover sequence. -/
structure AffinityTakeoverResult where
  /-- The first pinning of the last attempt. -/
  preAffinitySucceeded : Bool := false
  /-- The first move of the last attempt. -/
  initialCpusetSucceeded : Bool := false
  /-- The pinning before the move to the parent. -/
  recoveryPreParentAffinitySucceeded : Bool := false
  /-- The move to the parent. -/
  parentCpusetSucceeded : Bool := false
  /-- The pinning before the second move. -/
  recoveryPreTargetAffinitySucceeded : Bool := false
  /-- The last move. -/
  cpusetSucceeded : Bool := false
  /-- The pinning after the move. -/
  postAffinitySucceeded : Bool := false
  /-- Whether the thread was seen in the group. -/
  cpusetVerified : Bool := false
  /-- Whether the thread was seen with the CPUs. -/
  affinityVerified : Bool := false
  /-- The number of attempts. -/
  attempts : Nat := 0
  deriving DecidableEq

/-- Whether the thread was seen in the group with the CPUs. -/
def AffinityTakeoverResult.success (result : AffinityTakeoverResult) : Bool :=
  result.cpusetVerified && result.affinityVerified

namespace CpusetSetter

/-- Whether a cpuset group can be used. -/
def isGroupReady (path : Bytes) : SysProgram Bool := do
  match ← perform (.findGroupCheck path) with
  | some ready => pure ready
  | none =>
    let cpus ← perform (.readGroupFile (path ++ Bytes.ascii "/cpus"))
    let mems ← perform (.readGroupFile (path ++ Bytes.ascii "/mems"))
    let tasksReady ← perform (.groupFileExists (path ++ Bytes.ascii "/tasks"))
    let ready := cpus ≠ [] && mems ≠ [] && tasksReady
    perform (.recordGroupCheck path ready)
    pure ready

/-- Pause between two writes, unless the last one was the last try. -/
def pauseBeforeRetry (timing : TimingConfig) (remaining : Nat) : SysProgram Unit :=
  if 0 < remaining ∧ 0 < timing.cpusetRetryIntervalMs then
    perform (.sleep timing.cpusetRetryIntervalMs)
  else pure ()

/-- Write the thread ID to the group until a write succeeds or no try remains. -/
def writeTasks (timing : TimingConfig) (thread : Identity) (path : Bytes) : Nat → SysProgram Bool
  | 0 => do
    perform (.invalidateGroup path)
    pure false
  | remaining + 1 => do
    if ← perform (.attempt thread (.tasks path)) then pure true
    else
      pauseBeforeRetry timing remaining
      writeTasks timing thread path remaining

/-- Move a thread to the group of a mask. -/
def moveToCpusetCgroup (timing : TimingConfig) (thread : Identity) (cpumaskName : Bytes) :
    SysProgram Bool := do
  if thread.tid ≤ 0 then pure false
  else if cpumaskName = [] then pure true
  else if ← isGroupReady (targetPath cpumaskName) then
    writeTasks timing thread (targetPath cpumaskName) timing.cpusetRetryCount.toNat
  else pure false

/-- Move a thread to the parent of the groups. -/
def moveToTopAppParent (thread : Identity) : SysProgram Bool :=
  if thread.tid ≤ 0 then pure false else perform (.attempt thread (.tasks parentPath))

/-- Give a thread its CPUs back. -/
def restoreAffinity (thread : Identity) (cpus : List Int) : SysProgram Bool :=
  if thread.tid ≤ 0 ∨ cpus = [] then pure false else CpuMask.setAffinity thread cpus

/-- Move a thread back to its group. -/
def restoreCpusetCgroup (thread : Identity) (cgroupPath : Bytes) : SysProgram Bool :=
  if thread.tid ≤ 0 ∨ cgroupPath = [] then pure false
  else perform (.attempt thread (.tasks cgroupPath))

/-- The operations of the takeover sequence. -/
structure TakeoverOperations where
  /-- Pin the thread to the expected CPUs. -/
  setAffinity : SysProgram Bool
  /-- Move the thread to the group. -/
  moveTarget : SysProgram Bool
  /-- Move the thread to the parent group. -/
  moveParent : SysProgram Bool
  /-- Whether the thread is in the group. -/
  verifyCpuset : SysProgram Bool
  /-- Whether the thread has the expected CPUs. -/
  verifyAffinity : SysProgram Bool
  /-- Whether the identity still holds. -/
  identity : SysProgram Bool

namespace TakeoverOperations

variable (operations : TakeoverOperations)

/-- Continue while the identity holds; otherwise the sequence ends with what happened so far. -/
def whileIdentity (result : AffinityTakeoverResult) (rest : SysProgram AffinityTakeoverResult) :
    SysProgram AffinityTakeoverResult := do
  if ← operations.identity then rest else pure result

/-- The end of an attempt: pin the thread, verify, and try again unless both are verified. -/
def finishAttempt (again : AffinityTakeoverResult → SysProgram AffinityTakeoverResult)
    (result : AffinityTakeoverResult) : SysProgram AffinityTakeoverResult :=
  operations.whileIdentity result do
    let post ← operations.setAffinity
    let result := { result with postAffinitySucceeded := post }
    operations.whileIdentity result do
      let cpuset ← operations.verifyCpuset
      let affinity ← operations.verifyAffinity
      let result := { result with cpusetVerified := cpuset, affinityVerified := affinity }
      if result.success then pure result else again result

/-- The recovery after a refused move: through the parent group and once more to the target. -/
def recover (finish : AffinityTakeoverResult → SysProgram AffinityTakeoverResult)
    (result : AffinityTakeoverResult) : SysProgram AffinityTakeoverResult :=
  operations.whileIdentity result do
    let preParent ← operations.setAffinity
    let result := { result with recoveryPreParentAffinitySucceeded := preParent }
    operations.whileIdentity result do
      let parent ← operations.moveParent
      let result := { result with parentCpusetSucceeded := parent }
      operations.whileIdentity result do
        let preTarget ← operations.setAffinity
        let result := { result with recoveryPreTargetAffinitySucceeded := preTarget }
        operations.whileIdentity result do
          let moved ← operations.moveTarget
          finish { result with cpusetSucceeded := moved }

/-- One attempt. -/
def attempt (again : AffinityTakeoverResult → SysProgram AffinityTakeoverResult)
    (result : AffinityTakeoverResult) : SysProgram AffinityTakeoverResult :=
  operations.whileIdentity result do
    let result := { result with attempts := result.attempts + 1 }
    let pre ← operations.setAffinity
    let result := { result with preAffinitySucceeded := pre }
    operations.whileIdentity result do
      let moved ← operations.moveTarget
      let result := { result with initialCpusetSucceeded := moved, cpusetSucceeded := moved }
      if moved then operations.finishAttempt again result
      else operations.recover (operations.finishAttempt again) result

/-- Up to a number of attempts, from what happened so far. -/
def run : Nat → AffinityTakeoverResult → SysProgram AffinityTakeoverResult
  | 0, result => pure result
  | remaining + 1, result => operations.attempt (run remaining) result

end TakeoverOperations

/-- The takeover sequence. -/
def runTakeoverSequence (operations : TakeoverOperations) (maxAttempts : Nat) :
    SysProgram AffinityTakeoverResult :=
  operations.run maxAttempts {}

/-- Whether a thread is in the group of a mask. -/
def verifyCpuset (thread : Identity) (cpumaskName : Bytes) : SysProgram Bool := do
  let paths ← getThreadCgroupPathsUncached thread.pid thread.tid
  pure (paths.readable && paths.cpuset = expectedGroup cpumaskName)

/-- Whether a thread has the expected CPUs. -/
def verifyAffinity (thread : Identity) (expectedCpus : List Int) : SysProgram Bool := do
  let changed ← CpuMask.isAffinityChanged thread expectedCpus
  pure !changed

/-- The operations the setter runs the sequence with. -/
def takeoverOperations (timing : TimingConfig) (thread : Identity) (cpumaskName : Bytes)
    (expectedCpus : List Int) : TakeoverOperations where
  setAffinity := CpuMask.setAffinity thread expectedCpus
  moveTarget := moveToCpusetCgroup timing thread cpumaskName
  moveParent := moveToTopAppParent thread
  verifyCpuset := verifyCpuset thread cpumaskName
  verifyAffinity := verifyAffinity thread expectedCpus
  identity := identityMatches .skip thread

/-- The default number of attempts. -/
def maxAttempts : Nat := 2

/-- Take a thread over to the group and the CPUs of a mask. -/
def takeover (timing : TimingConfig) (thread : Identity) (cpumaskName : Bytes)
    (expectedCpus : List Int) : SysProgram AffinityTakeoverResult :=
  runTakeoverSequence (takeoverOperations timing thread cpumaskName expectedCpus) maxAttempts

end CpusetSetter

end ReUperf
