import ReUperf.Scheduler.GroupPaths
import ReUperf.System.Operations

/-!
# Cpuctl setter

The setter of `cpuctl_setter.hpp`: single moves between groups of the cpu controller.
-/

namespace ReUperf.CpuctlSetter

/-- The base path of every state. -/
def getCpuctlBase (_state : ProcessState) : Bytes := cpuctlMount

/-- Move a thread back to its group. -/
def restoreCpuctlCgroup (thread : Identity) (cgroupPath : Bytes) : SysProgram Bool :=
  if thread.tid ≤ 0 ∨ cgroupPath = [] then pure false
  else perform (.attempt thread (.tasks cgroupPath))

/-- Move a thread to a group that exists. -/
def migrateThread (thread : Identity) (groupPath : Bytes) : SysProgram Bool := do
  if ← perform (.dirExists groupPath) then perform (.attempt thread (.tasks groupPath))
  else pure false

end ReUperf.CpuctlSetter
