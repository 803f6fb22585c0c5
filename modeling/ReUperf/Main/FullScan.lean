import ReUperf.Core.ScanCursor

/-!
# Full scan

`advance_full_scan` of `main.cpp`: one budgeted pass of a scan of every process. A pass stops
where its budget ends and the next one goes on from the state that is left: in the list of
processes, in the list of threads of one process, or between two threads. A process that is
another one when its threads are read is withdrawn and read again.
-/

namespace ReUperf

open Effect FileUtils

/-- A program of the full scan. -/
abbrev ScanProgram (α : Type) : Type := Looping SysSig α

/-- Perform one operation of the full scan. -/
abbrev scanOp (operation : SysOp) : ScanProgram (SysSig.Res operation) :=
  Looping.op (S := SysSig) operation

/-- How the reading of a directory ended. -/
inductive ListingEnd
  /-- The budget ended. -/
  | paused
  /-- The directory ended. -/
  | finished
  /-- A read failed. -/
  | failed
  deriving DecidableEq

/-- Read one entry of a directory unless the budget has ended. -/
def readId (readEntry : ScanProgram DirEntry) (ids : List Int) :
    ScanProgram (List Int ⊕ (List Int × ListingEnd)) := do
  if ← scanOp .budgetExhausted then pure (.inr (ids, .paused))
  else
    match ← readEntry with
    | .finished => pure (.inr (ids, .finished))
    | .failed => pure (.inr ([], .failed))
    | .name text =>
      scanOp .afterThreadRead
      match parseId text with
      | none => pure (.inl ids)
      | some id => pure (.inl (ids ++ [id]))

namespace FullScanState

/-- Begin a scan with what a cache holds now. -/
def beginFrom (cache : ThreadCache) (priorStates : Table Int (Nat × ProcessState)) :
    FullScanState :=
  begin cache.getPidsWithBaselines cache.identitySnapshot priorStates

/-- Read `/proc`. -/
def listPids (fuel : Nat) (scan : FullScanState) : ScanProgram (Bool × FullScanState) := do
  match ← Looping.loop (readId (scanOp .readProc)) fuel scan.pids with
  | (ids, .paused) => pure (false, { scan with pids := ids })
  | (ids, .failed) => pure (false, { scan with procDir := false, pids := ids })
  | (ids, .finished) => pure (true, { scan with
      procDir := false, pids := sortUnique ids, pidEnumerationComplete := true })

/-- List the processes; false when the budget ends before, or `/proc` cannot be read. -/
def enumeratePids (fuel : Nat) (scan : FullScanState) : ScanProgram (Bool × FullScanState) := do
  if scan.pidEnumerationComplete then pure (true, scan)
  else if scan.procDir then scan.listPids fuel
  else if ← scanOp .openProc then listPids fuel { scan with procDir := true, pids := [] }
  else pure (false, scan)

/-- Read the task directory of the current process. -/
def listTids (fuel : Nat) (scan : FullScanState) : ScanProgram (Bool × FullScanState) := do
  match ← Looping.loop (readId (scanOp (.readTask scan.currentPid))) fuel scan.currentTids with
  | (ids, .paused) => pure (false, { scan with currentTids := ids })
  | (ids, _) => pure (true, { scan with
      taskDir := false, currentTids := sortUnique ids, tidEnumerationComplete := true })

/-- List the threads of the current process; false when the budget ends before. -/
def enumerateCurrentTids (fuel : Nat) (scan : FullScanState) :
    ScanProgram (Bool × FullScanState) := do
  if scan.tidEnumerationComplete then pure (true, scan)
  else if scan.taskDir then scan.listTids fuel
  else if ← scanOp (.openTask scan.currentPid) then
    listTids fuel { scan with taskDir := true, currentTids := [] }
  else pure (true, { scan with tidEnumerationComplete := true })

/-- Go on with the next process. -/
def nextPid (scan : FullScanState) : FullScanState :=
  clearCurrentPid { scan with pidIndex := scan.pidIndex + 1 }

/-- The state of the current process: the one its groups tell or, while they are ReUperf's, the
one it had in the previous scan. -/
def stateFor (scan : FullScanState) (cgroup : CgroupStateInfo) : ProcessState :=
  match cgroup.state with
  | .top => .top
  | .fg => .fg
  | .bg => .bg
  | .other =>
    match scan.previousStates.lookup scan.currentPid with
    | none => scan.currentState
    | some (startTime, state) =>
      if cgroup.reuperfOwned ∧ startTime = scan.currentProcessStartTime then state
      else scan.currentState

/-- Record that the current process lives. -/
def recordLive (scan : FullScanState) : FullScanState :=
  { scan with
    liveProcesses := scan.liveProcesses.insert scan.currentPid scan.currentProcessStartTime }

/-- Record the state of the current process. -/
def recordState (scan : FullScanState) (state : ProcessState) : FullScanState :=
  { scan with
    currentState := state
    observedStates :=
      scan.observedStates.insert scan.currentPid (scan.currentProcessStartTime, state)
    topAppPids := if state = .top then insert scan.currentPid scan.topAppPids else scan.topAppPids
    foregroundPids :=
      if state = .fg then insert scan.currentPid scan.foregroundPids else scan.foregroundPids }

/-- Record that a thread of the current process lives. -/
def recordThread (scan : FullScanState) (tid : Int) (startTime : Nat) : FullScanState :=
  if startTime = 0 ∨ (scan.currentPid, tid) ∈ scan.liveThreads then scan
  else { scan with liveThreads := scan.liveThreads.insert (scan.currentPid, tid) startTime }

/-- Withdraw what was recorded of the current process. -/
def withdraw (scan : FullScanState) : FullScanState :=
  { scan with
    liveProcesses := scan.liveProcesses.erase scan.currentPid
    liveThreads := scan.liveThreads.retain fun key _ => key.1 ≠ scan.currentPid
    topAppPids := scan.topAppPids.erase scan.currentPid
    foregroundPids := scan.foregroundPids.erase scan.currentPid
    backgroundPids := scan.backgroundPids.erase scan.currentPid
    observedStates := scan.observedStates.erase scan.currentPid
    pinnedPids := scan.pinnedPids.erase scan.currentPid
    topforePids := scan.topforePids.erase scan.currentPid }

/-- Record the sets the rules put the current process in. -/
def recordResult (scan : FullScanState) (result : MatchResult) : FullScanState :=
  { scan with
    backgroundPids :=
      if scan.currentState = .bg ∧ shouldDispatchBackgroundProcess result
          (decide (scan.currentPid ∈ scan.baselinePids)) (decide (scan.currentCmdline = []))
        then insert scan.currentPid scan.backgroundPids else scan.backgroundPids
    pinnedPids :=
      if result.matched ∧ result.pinned then insert scan.currentPid scan.pinnedPids
      else scan.pinnedPids
    topforePids :=
      if result.matched ∧ result.topfore ∧ result.effectiveState = .top
        then insert scan.currentPid scan.topforePids else scan.topforePids }

end FullScanState

namespace Main

/-- The start time of a process; zero when it cannot be read. -/
def scanStartTime (use : ReadUse) (pid : Int) : ScanProgram Nat :=
  if isValidId pid then scanOp (.processStartTime use pid) else pure 0

/-- The start time of a thread; zero when it cannot be read. -/
def scanThreadStartTime (pid tid : Int) : ScanProgram Nat :=
  if isValidId pid && isValidId tid then scanOp (.threadStartTime .scan pid tid) else pure 0

/-- Read a process; false when it is gone. -/
def readProcess (scan : FullScanState) (pid : Int) : ScanProgram (Bool × FullScanState) := do
  let startTime ← scanStartTime .scan pid
  scanOp .afterThreadRead
  let scan := { scan.clearCurrentPid with currentPid := pid, currentProcessStartTime := startTime }
  if startTime = 0 then pure (false, scan.nextPid)
  else
    let name ← scanOp (.processName pid)
    let scan := { scan with currentProcName := name }
    if name = deadName then
      pure (false, FullScanState.nextPid { scan with deadPids := insert pid scan.deadPids })
    else
      let scan := scan.recordLive
      let cmdline ← scanOp (.processCmdline pid)
      let scan := { scan with currentCmdline := cmdline }
      let cgroup ← scanOp (.cgroupStateInfo pid)
      pure (true, scan.recordState (scan.stateFor cgroup))

/-- Read the threads of the current process from a position on; false when the budget ends
before. -/
def readThreads : List Int → FullScanState → ScanProgram (Bool × FullScanState)
  | [], scan => pure (true, scan)
  | tid :: rest, scan => do
    if ← scanOp .budgetExhausted then pure (false, scan)
    else
      let startTime ← scanThreadStartTime scan.currentPid tid
      scanOp .afterThreadRead
      readThreads rest
        ({ scan with tidIndex := scan.tidIndex + 1 }.recordThread tid startTime)

/-- Check that the current process is still the one that was read, and match it. -/
def verifyProcess (scan : FullScanState) :
    ScanProgram (FullScanState ⊕ (Bool × FullScanState)) := do
  if ← scanOp .budgetExhausted then pure (.inr (false, scan))
  else
    let verified ← scanStartTime .rescan scan.currentPid
    if verified ≠ scan.currentProcessStartTime then pure (.inl scan.withdraw.clearCurrentPid)
    else
      let result ← scanOp (.matchProcess scan.currentPid scan.currentProcName scan.currentState
        scan.currentCmdline)
      pure (.inl (scan.recordResult result).nextPid)

/-- Go on with the current process. -/
def continueProcess (fuel : Nat) (scan : FullScanState) :
    ScanProgram (FullScanState ⊕ (Bool × FullScanState)) := do
  let (listed, scan) ← scan.enumerateCurrentTids fuel
  if listed = false then pure (.inr (false, scan))
  else
    let (finished, scan) ← readThreads (scan.currentTids.drop scan.tidIndex) scan
    if finished = false then pure (.inr (false, scan)) else verifyProcess scan

/-- Scan the process at the position of the scan. -/
def scanNext (fuel : Nat) (scan : FullScanState) :
    ScanProgram (FullScanState ⊕ (Bool × FullScanState)) := do
  match scan.pids[scan.pidIndex]? with
  | none => pure (.inr (true, scan))
  | some pid =>
    if ← scanOp .budgetExhausted then pure (.inr (false, scan))
    else if scan.currentPid = pid then continueProcess fuel scan
    else
      let (alive, scan) ← readProcess scan pid
      if alive then continueProcess fuel scan else pure (.inl scan)

/-- One pass of a full scan; true when the scan is finished. -/
def advanceFullScan (fuel : Nat) (scan : FullScanState) : ScanProgram (Bool × FullScanState) := do
  if scan.active = false then pure (false, scan)
  else
    let (listed, scan) ← scan.enumeratePids fuel
    if listed = false then pure (false, scan)
    else
      let (finished, scan) ← Looping.loop (scanNext fuel) fuel scan
      if finished = false then pure (false, scan)
      else
        scanOp (.cache (.retainLiveThreads scan.findings))
        pure (true, scan)

end Main

end ReUperf
