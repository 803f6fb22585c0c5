import ReUperf.Main.Cycle
import ReUperf.Main.Restoration

/-!
# Reload

The reload of a changed configuration in `main.cpp`, with the variables of `main` it exchanges and
with the exceptions it catches. `reload` of the module on restoration is the same sequence without
either. The objects that are built from a configuration are told apart by its generation only.
-/

namespace ReUperf

open Effect

namespace Main

/-- The configuration something is built from. -/
inductive Generation
  /-- The one in use when the reload began. -/
  | old
  /-- The one that was parsed. -/
  | new
  deriving DecidableEq

/-- What parsing a configuration yields. -/
inductive ParseOutcome
  /-- No configuration. -/
  | failed
  /-- A configuration that turns the scheduler off. -/
  | disabled
  /-- A configuration to use. -/
  | enabled
  deriving DecidableEq

/-- A worker. -/
structure WorkerHandle where
  /-- The configuration of the objects it was given. -/
  generation : Generation
  /-- `started_`. -/
  started : Bool
  deriving DecidableEq

/-- The variables of `main` a reload reads or writes. -/
structure MainVars where
  /-- `running`. -/
  running : Bool
  /-- `config`. -/
  config : Generation
  /-- `matcher_ptr`. -/
  matcher : Generation
  /-- `cpuset_ptr`. -/
  cpuset : Generation
  /-- `prio_ptr`. -/
  prio : Generation
  /-- `cpuctl_ptr`. -/
  cpuctl : Generation
  /-- `workers`. -/
  workers : List WorkerHandle
  /-- The cursors, the sets of processes and the progress of the full cycle. -/
  cycle : CycleState
  /-- `full_scan_state`. -/
  fullScan : FullScanState
  /-- `cached_process_states`. -/
  processStates : Table Int (Nat × ProcessState)

/-- One operation of a reload. Nothing is answered when it throws. -/
inductive ReloadOp
  /-- `ConfigParser::parse`. -/
  | parse
  /-- Find the launcher and build the objects and workers of the new configuration. -/
  | prepare
  /-- `stop_all_workers` for the old workers; it throws nothing. -/
  | stopWorkers
  /-- A call of the restoration. -/
  | call (operation : CallOp)
  /-- `CgroupInitializer::init`. -/
  | initCgroups (generation : Generation)
  /-- Start the thread of a worker that has none. -/
  | startThread (generation : Generation)
  /-- `clear_scheduling_state_preserving_baselines`. -/
  | clearScheduling
  /-- Set the cache lifetimes, the event throttle and the log of the new configuration. -/
  | configure

/-- The signature of a reload's operations. -/
@[reducible] def ReloadSig : Signature where
  Op := ReloadOp
  Res
    | .parse => Option ParseOutcome
    | .prepare | .configure => Option Unit
    | .stopWorkers | .clearScheduling => Unit
    | .call operation => Option (CallSig.Res operation)
    | .initCgroups _ | .startThread _ => Option Bool

/-- A program of reload operations. -/
abbrev ReloadProgram (α : Type) : Type := Program ReloadSig α

/-- Perform one operation of a reload. -/
abbrev reloadOp (operation : ReloadOp) : ReloadProgram (ReloadSig.Res operation) :=
  Program.op (S := ReloadSig) operation

/-- A call that may throw. -/
def throwingCall (operation : CallOp) : ReloadProgram (Option (CallSig.Res operation)) :=
  reloadOp (.call operation)

/-- `stop_all_workers`. -/
def stopped (workers : List WorkerHandle) : List WorkerHandle :=
  workers.map fun worker => { worker with started := false }

/-- `ScanWorker::start`; nothing when it throws. -/
def startWorker (worker : WorkerHandle) : ReloadProgram (Option Bool) :=
  if worker.started then pure (some true) else reloadOp (.startThread worker.generation)

/-- Start workers one after the other; false when one does not start. -/
def startEach : List WorkerHandle → ReloadProgram Bool
  | [] => pure true
  | worker :: rest => do
    match ← startWorker worker with
    | some true => startEach rest
    | _ => pure false

/-- `start_all_workers`: none runs unless all do. -/
def startAllWorkers (workers : List WorkerHandle) : ReloadProgram (Bool × List WorkerHandle) := do
  if ← startEach workers then
    pure (true, workers.map fun worker => { worker with started := true })
  else pure (false, stopped workers)

/-- How far the preparation of the new scheduler came. -/
structure Preparation where
  /-- `baselines_restored`. -/
  baselinesRestored : Bool
  /-- `new_cgroups_ready`. -/
  newCgroupsReady : Bool
  /-- `new_workers_started`. -/
  newWorkersStarted : Bool
  /-- `new_workers`. -/
  newWorkers : List WorkerHandle

/-- The workers of the new configuration. -/
def newWorkers : List WorkerHandle := List.replicate 4 ⟨.new, false⟩

/-- Restore the baselines, initialise the groups of the new configuration and start its workers. -/
def prepareScheduler : ReloadProgram Preparation := do
  match ← restoreAllThreadBaselines.attempt throwingCall with
  | some true =>
    match ← reloadOp (.initCgroups .new) with
    | some true =>
      let (started, workers) ← startAllWorkers newWorkers
      pure ⟨true, true, started, workers⟩
    | _ => pure ⟨true, false, false, newWorkers⟩
  | _ => pure ⟨false, false, false, newWorkers⟩

/-- Initialise the groups of the old configuration unless they were left alone. -/
def oldCgroups (baselinesRestored : Bool) : ReloadProgram Bool := do
  if baselinesRestored then
    match ← reloadOp (.initCgroups .old) with
    | some ready => pure ready
    | none => pure false
  else pure true

/-- Run the old scheduler again, or tell the main loop to stop. -/
def recoverScheduler (vars : MainVars) (baselinesRestored : Bool) : ReloadProgram MainVars := do
  if ← oldCgroups baselinesRestored then
    let (started, workers) ← startAllWorkers vars.workers
    pure { vars with workers := workers, running := vars.running && started }
  else pure { vars with running := false }

/-- Take the new scheduler over and forget what the old one has scanned. -/
def commitScheduler (vars : MainVars) (workers : List WorkerHandle) : MainVars where
  running := vars.running
  config := .new
  matcher := .new
  cpuset := .new
  prio := .new
  cpuctl := .new
  workers := workers
  cycle := {}
  fullScan := {}
  processStates := ∅

/-- Exchange the scheduler. -/
def exchangeScheduler (vars : MainVars) : ReloadProgram MainVars := do
  reloadOp .stopWorkers
  let prepared ← prepareScheduler
  if prepared.baselinesRestored && prepared.newCgroupsReady && prepared.newWorkersStarted then
    reloadOp .clearScheduling
    let _ ← reloadOp .configure
    pure (commitScheduler vars prepared.newWorkers)
  else recoverScheduler { vars with workers := stopped vars.workers } prepared.baselinesRestored

/-- Reload a changed configuration. -/
def reloadConfig (vars : MainVars) : ReloadProgram MainVars := do
  match ← reloadOp .parse with
  | some .enabled =>
    match ← reloadOp .prepare with
    | some () => exchangeScheduler vars
    | none => pure vars
  | some .disabled => pure { vars with running := false }
  | _ => pure vars

end Main

end ReUperf
