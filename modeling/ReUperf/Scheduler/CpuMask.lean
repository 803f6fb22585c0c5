import ReUperf.System.Operations

/-!
# Affinity of a thread

The system calls of `cpu_mask.hpp`. Reading an affinity falls back to the `status` file of the
thread when the system call fails.
-/

namespace ReUperf.CpuMask

/-- Set the CPUs of a thread; an empty list leaves them. -/
def setAffinity (thread : Identity) (cpus : List Int) : SysProgram Bool :=
  if cpus = [] then pure true
  else perform (.attempt thread (.affinity (CpuSet.fromVector cpus)))

/-- The CPUs of a thread; empty when they cannot be read. -/
def getAffinityFromStatus (thread : Identity) : SysProgram (List Int) := do
  match ← perform (.schedGetaffinity thread.tid) with
  | some set => pure set.toVector
  | none => perform (.statusAffinity thread.tid)

/-- Whether the CPUs of a thread differ from a list. -/
def isAffinityChanged (thread : Identity) (expected : List Int) : SysProgram Bool := do
  if expected = [] then pure true
  else
    match ← perform (.schedGetaffinity thread.tid) with
    | some current => pure (current ≠ CpuSet.fromVector expected)
    | none =>
      let fallback ← getAffinityFromStatus thread
      pure (fallback = [] || CpuSet.fromVector fallback ≠ CpuSet.fromVector expected)

end ReUperf.CpuMask
