import Mathlib.Data.Finset.Sort
import ReUperf.Core.ThreadCache

/-!
# State of a full scan

The data a full scan carries from one budgeted pass to the next, as `main.cpp` declares it. A
directory handle is represented by whether it is open.
-/

namespace ReUperf

/-- The state of a full scan. -/
structure FullScanState where
  /-- Whether a scan is in progress. -/
  active : Bool := false
  /-- Whether `/proc` is open. -/
  procDir : Bool := false
  /-- Whether every process was listed. -/
  pidEnumerationComplete : Bool := false
  /-- The processes listed. -/
  pids : List Int := []
  /-- The position of the current process in the list. -/
  pidIndex : Nat := 0
  /-- The current process, or zero. -/
  currentPid : Int := 0
  /-- The start time read for it. -/
  currentProcessStartTime : Nat := 0
  /-- The name read for it. -/
  currentProcName : Bytes := []
  /-- The command line read for it. -/
  currentCmdline : Bytes := []
  /-- The state read for it. -/
  currentState : ProcessState := .bg
  /-- Whether its task directory is open. -/
  taskDir : Bool := false
  /-- Whether all its threads were listed. -/
  tidEnumerationComplete : Bool := false
  /-- The threads listed. -/
  currentTids : List Int := []
  /-- The position of the next thread in the list. -/
  tidIndex : Nat := 0
  /-- The processes with a baseline when the scan began. -/
  baselinePids : List Int := []
  /-- The start time of every process found. -/
  liveProcesses : Table Int Nat := ∅
  /-- The start time of every thread found. -/
  liveThreads : Table CacheKey Nat := ∅
  /-- The start times cached when the scan began. -/
  scanStartIdentities : Table CacheKey (Nat × Nat) := ∅
  /-- The states of the previous scan. -/
  previousStates : Table Int (Nat × ProcessState) := ∅
  /-- The states of this scan. -/
  observedStates : Table Int (Nat × ProcessState) := ∅
  /-- The processes of pinned rules. -/
  pinnedPids : Finset Int := ∅
  /-- The processes promoted to the top. -/
  topforePids : Finset Int := ∅
  /-- The processes in the top application. -/
  topAppPids : Finset Int := ∅
  /-- The processes in the foreground. -/
  foregroundPids : Finset Int := ∅
  /-- The background processes to dispatch. -/
  backgroundPids : Finset Int := ∅
  /-- The processes that were gone when their name was read. -/
  deadPids : Finset Int := ∅

namespace FullScanState

/-- Forget the current process. -/
def clearCurrentPid (scan : FullScanState) : FullScanState :=
  { scan with
    taskDir := false
    tidEnumerationComplete := false
    currentPid := 0
    currentProcessStartTime := 0
    currentProcName := []
    currentCmdline := []
    currentState := .bg
    currentTids := []
    tidIndex := 0 }

/-- Begin a scan with what is cached now. -/
def begin (processes : List Int) (identities : Table CacheKey (Nat × Nat))
    (priorStates : Table Int (Nat × ProcessState)) : FullScanState where
  active := true
  baselinePids := processes
  scanStartIdentities := identities
  previousStates := priorStates

/-- What the cleanup of the cache looks at. -/
def findings (scan : FullScanState) : ThreadCache.ScanFindings where
  liveProcesses := scan.liveProcesses
  liveThreads := scan.liveThreads
  scanStartIdentities := scan.scanStartIdentities

end FullScanState

end ReUperf
