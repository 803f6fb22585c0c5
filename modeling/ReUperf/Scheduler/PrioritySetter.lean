import ReUperf.System.Operations

/-!
# Priority setter

The setter of `priority_setter.hpp`. A priority value names a real-time priority, a nice value
offset by 120, or one of the three policies without a real-time priority.
-/

namespace ReUperf

/-- `SCHED_FIFO`. -/
def schedFifo : Int := 1

namespace PrioritySetter

/-- `SCHED_NORMAL`. -/
def normalPolicy : Int := 0

/-- `SCHED_BATCH`. -/
def batchPolicy : Int := 3

/-- `SCHED_IDLE`. -/
def idlePolicy : Int := 5

/-- Whether a policy is one of the three without a real-time priority. -/
def isPlainPolicy (policy : Int) : Bool :=
  policy = normalPolicy || policy = batchPolicy || policy = idlePolicy

/-- Read the scheduler state of a thread; nothing when a read fails. -/
def captureSchedulerBaseline (thread : Identity) : SysProgram (Option SchedulerBaseline) := do
  let policy ← perform (.schedGetscheduler thread.tid)
  if policy < 0 then pure none
  else
    match ← perform (.schedGetparam thread.tid) with
    | none => pure none
    | some priority =>
      if isPlainPolicy policy then
        match ← perform (.getpriority thread.tid) with
        | none => pure none
        | some nice => pure (some ⟨policy, priority, nice⟩)
      else pure (some ⟨policy, priority, 0⟩)

/-- A policy and the priority value it runs with. -/
structure CurrentSched where
  /-- The policy; negative when it cannot be read. -/
  policy : Int
  /-- The real-time priority, or the nice value offset by 120. -/
  prio : Int
  deriving DecidableEq

/-- Read the policy of a thread and its priority value. -/
def getCurrentSched (thread : Identity) : SysProgram CurrentSched := do
  let policy ← perform (.schedGetscheduler thread.tid)
  if policy < 0 then pure ⟨policy, 0⟩
  else
    let param ← perform (.schedGetparam thread.tid)
    if isPlainPolicy policy then
      match ← perform (.getpriority thread.tid) with
      | some nice => pure ⟨policy, nice + 120⟩
      | none => pure ⟨policy, param.getD 0⟩
    else pure ⟨policy, param.getD 0⟩

/-- The policy a priority value asks for. -/
def expectedPolicyForPriority (expectedPrio : Int) : Option Int :=
  if expectedPrio = 0 then none
  else if 1 ≤ expectedPrio ∧ expectedPrio ≤ 98 then some schedFifo
  else if 100 ≤ expectedPrio ∧ expectedPrio ≤ 139 then some normalPolicy
  else if expectedPrio = -1 then some normalPolicy
  else if expectedPrio = -2 then some batchPolicy
  else if expectedPrio = -3 then some idlePolicy
  else none

/-- Whether a policy and its priority value differ from what a priority value asks for. -/
def differs (current : CurrentSched) (expectedPrio : Int) : Bool :=
  if current.policy < 0 then true
  else if (expectedPolicyForPriority expectedPrio).any (current.policy ≠ ·) then true
  else if 1 ≤ expectedPrio ∧ expectedPrio ≤ 98 then current.prio ≠ expectedPrio
  else if 100 ≤ expectedPrio ∧ expectedPrio ≤ 139 then current.prio ≠ expectedPrio
  else false

/-- Whether a thread's scheduler state differs from what a priority value asks for. -/
def isSchedChanged (thread : Identity) (expectedPrio : Int) : SysProgram Bool := do
  let current ← getCurrentSched thread
  pure (differs current expectedPrio)

/-- Set the nice value of a thread. -/
def setNiceValue (thread : Identity) (nice : Int) : SysProgram Bool :=
  perform (.attempt thread (.nice nice))

/-- Set the policy of a thread to one without a real-time priority. -/
def setPolicy (thread : Identity) (policy : Int) : SysProgram Bool :=
  perform (.attempt thread (.scheduler policy 0))

/-- Set a policy, and the nice value once that succeeded. -/
def setSchedulerThenNice (thread : Identity) (policy priority nice : Int) : SysProgram Bool := do
  if ← perform (.attempt thread (.scheduler policy priority)) then setNiceValue thread nice
  else pure false

/-- Give a thread the scheduler state a priority value asks for. -/
def setPriority (thread : Identity) (prioValue : Int) : SysProgram Bool :=
  if thread.tid ≤ 0 then pure false
  else if prioValue = 0 then pure true
  else if 1 ≤ prioValue ∧ prioValue ≤ 98 then
    perform (.attempt thread (.scheduler schedFifo prioValue))
  else if 100 ≤ prioValue ∧ prioValue ≤ 139 then
    setSchedulerThenNice thread normalPolicy 0 (prioValue - 120)
  else if prioValue = -1 then setPolicy thread normalPolicy
  else if prioValue = -2 then setPolicy thread batchPolicy
  else if prioValue = -3 then setPolicy thread idlePolicy
  else pure false

/-- Give a thread its scheduler state back; a nice value only under a plain policy. -/
def restoreScheduler (thread : Identity) (baseline : SchedulerBaseline) : SysProgram Bool :=
  if thread.tid ≤ 0 ∨ baseline.policy < 0 then pure false
  else if isPlainPolicy baseline.policy then
    setSchedulerThenNice thread baseline.policy baseline.priority baseline.nice
  else perform (.attempt thread (.scheduler baseline.policy baseline.priority))

end PrioritySetter

end ReUperf
