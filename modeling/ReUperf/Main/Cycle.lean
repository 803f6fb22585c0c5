import ReUperf.Main.Dispatch

/-!
# Scan cycle

The second half of an iteration of the main loop in `main.cpp`: the resumable full cycle, which
scans every process and then dispatches five sets of processes one after the other, and the
high-speed path between two cycles. The scan itself is one operation here; `advance_full_scan`
has a module of its own.
-/

namespace ReUperf

open Effect

namespace Main

/-- One operation of the main loop. -/
inductive CycleOp
  /-- `full_rescan_needed.exchange(false)`. -/
  | exchangeRescan
  /-- Whether `next_full_scan` has come. -/
  | fullScanDue
  /-- Begin the budget of a full scan, or of the high-speed path. -/
  | beginBudget (fullScan : Bool)
  /-- `FullScanState::begin`. -/
  | beginScan
  /-- `advance_full_scan`. -/
  | advanceScan
  /-- Take the sets of processes over from a finished scan and clean up after dead ones. -/
  | publishScan
  /-- Forget the scan and set the time of the next one. -/
  | endCycle
  /-- An operation of a dispatch. -/
  | dispatch (operation : DispatchOp)

/-- The signature of the main loop's operations. -/
@[reducible] def CycleSig : Signature where
  Op := CycleOp
  Res
    | .exchangeRescan | .fullScanDue | .advanceScan => Bool
    | .beginBudget _ | .beginScan | .endCycle => Unit
    | .publishScan => ScanPhase → Finset Int
    | .dispatch operation => DispatchSig.Res operation

/-- A program of main loop operations. -/
abbrev CycleProgram (α : Type) : Type := Looping CycleSig α

/-- Perform one operation of the main loop. -/
abbrev cycleOp (operation : CycleOp) : CycleProgram (CycleSig.Res operation) :=
  Looping.op (S := CycleSig) operation

/-- An operation of a dispatch. -/
def asCycleOp (operation : DispatchOp) : CycleProgram (DispatchSig.Res operation) :=
  cycleOp (.dispatch operation)

/-- A dispatch as a part of the main loop. -/
abbrev liftDispatch {α : Type} (program : DispatchProgram α) : CycleProgram α :=
  Looping.interpret asCycleOp program

/-- The variables of the main loop. -/
structure CycleState where
  /-- `full_cycle_active`. -/
  fullCycleActive : Bool := false
  /-- `full_scan_phase`. -/
  fullScanPhase : Nat := 0
  /-- `full_scan_state.active`. -/
  scanActive : Bool := false
  /-- The cursor of each set. -/
  cursor : ScanPhase → ScanCursor := fun _ => {}
  /-- `full_cycle_processed_tids`. -/
  processedTids : Finset Int := ∅
  /-- The sets of processes the last scan found. -/
  cachedPids : ScanPhase → Finset Int := fun _ => ∅

/-- The sets of processes a finished scan publishes. A process that was gone when its name was read
is cleaned up. -/
def publishedPids (scan : FullScanState) : ScanPhase → Finset Int
  | .topApp => scan.topAppPids
  | .pinned => scan.pinnedPids \ scan.deadPids
  | .topfore => scan.topforePids \ scan.deadPids
  | .foreground => scan.foregroundPids
  | .background => scan.backgroundPids

/-- The sets in the order of their dispatch. -/
def scanPhases : List ScanPhase := [.topApp, .pinned, .topfore, .foreground, .background]

/-- What does not change in the main loop between two reloads. -/
structure CycleSetup where
  /-- The hash functions. -/
  hashing : Hashing
  /-- The number of workers. -/
  workers : Nat
  /-- The most entries a directory is read for. -/
  fuel : Nat

namespace CycleSetup

variable (setup : CycleSetup)

/-- Dispatch a set with its cursor; true when something remains. -/
def dispatchSet (cycle : CycleState) (processed : Finset Int) (phase : ScanPhase) :
    CycleProgram (Bool × DispatchState) :=
  liftDispatch <| dispatchPidsToWorkers
    (phase.request setup.hashing setup.workers (cycle.cachedPids phase)) setup.fuel
    ⟨cycle.cursor phase, processed⟩

/-- Dispatch sets until one remains unfinished or the budget ends; true when one does. -/
def dispatchPhases : List ScanPhase → CycleState → CycleProgram (Bool × CycleState)
  | [], cycle => do
    let _ ← asCycleOp .exhausted
    pure (false, cycle)
  | phase :: rest, cycle => do
    if ← asCycleOp .exhausted then pure (false, cycle)
    else
      let (incomplete, dispatch) ← setup.dispatchSet cycle cycle.processedTids phase
      let cycle := { cycle with
        cursor := Function.update cycle.cursor phase dispatch.cursor
        processedTids := dispatch.processed }
      if incomplete then pure (true, cycle)
      else dispatchPhases rest { cycle with fullScanPhase := cycle.fullScanPhase + 1 }

/-- Forget where the dispatches of some sets stand. -/
def resetCursors : List ScanPhase → CycleState → CycleProgram CycleState
  | [], cycle => pure cycle
  | phase :: rest, cycle => do
    let cursor ← liftDispatch (cycle.cursor phase).reset
    resetCursors rest { cycle with cursor := Function.update cycle.cursor phase cursor }

/-- Begin a full cycle. -/
def beginCycle (cycle : CycleState) : CycleProgram CycleState := do
  let cycle ← resetCursors scanPhases { cycle with fullCycleActive := true, fullScanPhase := 0 }
  cycleOp .beginScan
  pure { cycle with scanActive := true, processedTids := ∅ }

/-- Go on with the scan. -/
def continueScan (cycle : CycleState) : CycleProgram CycleState := do
  if ← cycleOp .advanceScan then
    let cachedPids ← cycleOp .publishScan
    pure { cycle with cachedPids := cachedPids, scanActive := false }
  else
    asCycleOp .requestRescan
    pure cycle

/-- Close the cycle when nothing remains. -/
def closeCycle (cycle : CycleState) (incomplete : Bool) : CycleProgram CycleState := do
  if cycle.scanActive || incomplete then
    asCycleOp .requestRescan
    pure cycle
  else if ← asCycleOp .exhausted then
    asCycleOp .requestRescan
    pure cycle
  else if cycle.fullScanPhase < 5 then
    asCycleOp .requestRescan
    pure cycle
  else
    cycleOp .endCycle
    pure { cycle with fullCycleActive := false, fullScanPhase := 0, processedTids := ∅ }

/-- Begin a full cycle unless one is active. -/
def ensureCycle (cycle : CycleState) : CycleProgram CycleState :=
  if cycle.fullCycleActive then pure cycle else beginCycle cycle

/-- Go on with the scan if it is active. -/
def ensureScan (cycle : CycleState) : CycleProgram CycleState :=
  if cycle.scanActive then continueScan cycle else pure cycle

/-- Go on with the dispatch unless the scan is active. -/
def dispatchCycle (cycle : CycleState) : CycleProgram (Bool × CycleState) :=
  if cycle.scanActive then pure (false, cycle)
  else setup.dispatchPhases (scanPhases.drop cycle.fullScanPhase) cycle

/-- Go on with the full cycle, or begin one. -/
def fullCycle (cycle : CycleState) : CycleProgram CycleState := do
  cycleOp (.beginBudget true)
  let cycle ← ensureCycle cycle
  let cycle ← ensureScan cycle
  let (incomplete, cycle) ← setup.dispatchCycle cycle
  closeCycle cycle incomplete

/-- Dispatch the sets of the high-speed path until one remains unfinished or the budget
ends. -/
def dispatchFast : List ScanPhase → CycleState → Finset Int → CycleProgram CycleState
  | [], cycle, _ => pure cycle
  | phase :: rest, cycle, processed => do
    let (incomplete, dispatch) ← setup.dispatchSet cycle processed phase
    let cycle := { cycle with cursor := Function.update cycle.cursor phase dispatch.cursor }
    if incomplete then pure cycle
    else if rest = [] then pure cycle
    else if ← asCycleOp .exhausted then pure cycle
    else dispatchFast rest cycle dispatch.processed

/-- The high-speed path: the top application and the rules promoted to the top. -/
def highSpeed (cycle : CycleState) : CycleProgram CycleState := do
  cycleOp (.beginBudget false)
  setup.dispatchFast [.topApp, .pinned, .topfore] cycle ∅

/-- Whether a full scan is requested, or due. -/
def runFullScan : CycleProgram Bool := do
  if ← cycleOp .exchangeRescan then pure true else cycleOp .fullScanDue

/-- The scanning half of an iteration. -/
def scanIteration (cycle : CycleState) : CycleProgram CycleState := do
  if ← runFullScan then setup.fullCycle cycle else setup.highSpeed cycle

end CycleSetup

end Main

end ReUperf
