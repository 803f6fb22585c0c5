import ReUperf.Core.ScanCursor

/-!
# Dispatch

The part of `main.cpp` that hands the threads of a set of processes to the workers. A dispatch
stops when its budget ends or a queue is full, and a later call with the same cursor goes on.
The values of `std::hash`, which the standard library chooses, are parameters.
-/

namespace ReUperf

open Effect FileUtils

/-- The hash functions of the standard library. -/
structure Hashing where
  /-- `std::hash<int>`. -/
  int : Int → UInt64
  /-- `std::hash<uint64_t>`. -/
  uint64 : Nat → UInt64

namespace Main

/-- Mix a hash into the hash of a worker. -/
def mixHash (workerHash hash : UInt64) : UInt64 :=
  workerHash ^^^
    (hash + (0x9e3779b9 : UInt64) + (workerHash <<< (6 : UInt64)) + (workerHash >>> (2 : UInt64)))

/-- The worker of an identity. -/
def workerIndex (hashing : Hashing) (workers : Nat) (identity : Identity) : Nat :=
  let workerHash := hashing.int identity.pid
  let workerHash := mixHash workerHash (hashing.int identity.tid)
  let workerHash := mixHash workerHash (hashing.uint64 identity.processStartTime)
  let workerHash := mixHash workerHash (hashing.uint64 identity.threadStartTime)
  workerHash.toNat % workers

/-- What a dispatch is called with. -/
structure DispatchRequest where
  /-- The hash functions. -/
  hashing : Hashing
  /-- The number of workers. -/
  workers : Nat
  /-- The processes. -/
  pids : Finset Int
  /-- The state of the processes. -/
  state : ProcessState
  /-- The mount point of the cpuset controller. -/
  cpusetBase : Bytes

/-- What a dispatch changes. -/
structure DispatchState where
  /-- The cursor. -/
  cursor : ScanCursor := {}
  /-- The threads dispatched. -/
  processed : Finset Int := ∅
  deriving DecidableEq

/-- How the dispatch of one thread ended. -/
inductive ThreadOutcome
  /-- The thread is gone. -/
  | skipped
  /-- A worker has the task. -/
  | sent
  /-- The thread is tried again by a later call. -/
  | postponed
  /-- The process is another one than the cursor's. -/
  | lost
  deriving DecidableEq

/-- The start time of a process; zero when it cannot be read. -/
def processStartTime (pid : Int) : DispatchProgram Nat :=
  if isValidId pid then dispatchOp (.processStartTime pid) else pure 0

/-- The start time of a thread; zero when it cannot be read. -/
def threadStartTime (pid tid : Int) : DispatchProgram Nat :=
  if isValidId pid && isValidId tid then dispatchOp (.threadStartTime pid tid) else pure 0

/-- Hand a task to its worker. -/
def enqueueTask (request : DispatchRequest) (task : DispatchTask) :
    DispatchProgram ThreadOutcome := do
  match ← dispatchOp (.enqueue (workerIndex request.hashing request.workers task.identity) task) with
  | .queued | .updated => pure .sent
  | .queueFull | .stopped =>
    dispatchOp .requestRescan
    pure .postponed

/-- The task of a thread of the cursor's process. -/
def taskOf (request : DispatchRequest) (cursor : ScanCursor) (tid : Int) (threadName : Bytes)
    (threadStartTime : Nat) : DispatchTask where
  identity := ⟨cursor.pid, tid, cursor.processStartTime, threadStartTime⟩
  threadName := threadName
  state := request.state
  cpusetBase := request.cpusetBase
  procName := cursor.processName
  cmdline := cursor.cmdline

/-- Read a thread, check the process again and hand the task to its worker. -/
def dispatchThread (request : DispatchRequest) (cursor : ScanCursor) (tid : Int) :
    DispatchProgram ThreadOutcome := do
  let threadName ← dispatchOp (.threadName cursor.pid tid)
  dispatchOp .afterThreadRead
  if threadName = deadName then pure .skipped
  else if ← dispatchOp .exhausted then pure .postponed
  else
    let threadStart ← threadStartTime cursor.pid tid
    dispatchOp .afterThreadRead
    if threadStart = 0 then pure .skipped
    else
      let verified ← processStartTime cursor.pid
      dispatchOp .afterThreadRead
      if verified ≠ cursor.processStartTime then pure .lost
      else if ← dispatchOp .exhausted then pure .postponed
      else enqueueTask request (taskOf request cursor tid threadName threadStart)

/-- Dispatch the threads of the cursor's process from its position on; true when the dispatch
stops. -/
def dispatchTids (request : DispatchRequest) :
    List Int → DispatchState → DispatchProgram (Bool × DispatchState)
  | [], dispatch => pure (false, dispatch)
  | tid :: rest, dispatch => do
    if ← dispatchOp .exhausted then pure (true, dispatch)
    else
      let advanced : DispatchState :=
        { dispatch with cursor := { dispatch.cursor with tidIndex := dispatch.cursor.tidIndex + 1 } }
      if tid ∈ dispatch.processed then dispatchTids request rest advanced
      else
        match ← dispatchThread request dispatch.cursor tid with
        | .skipped => dispatchTids request rest advanced
        | .sent =>
          dispatchTids request rest { advanced with processed := insert tid dispatch.processed }
        | .postponed => pure (true, dispatch)
        | .lost =>
          let cursor ← advanced.cursor.reset
          dispatchOp .requestRescan
          pure (true, { advanced with cursor := cursor })

/-- Read the name of the cursor's process unless it was read. -/
def loadName (cursor : ScanCursor) : DispatchProgram ScanCursor := do
  if cursor.processNameLoaded then pure cursor
  else
    let name ← dispatchOp (.processName cursor.pid)
    dispatchOp .afterThreadRead
    pure { cursor with processName := name, processNameLoaded := true }

/-- Read the start time of the cursor's process unless it was read. -/
def loadStartTime (cursor : ScanCursor) : DispatchProgram ScanCursor := do
  if cursor.processStartTimeLoaded then pure cursor
  else
    let startTime ← processStartTime cursor.pid
    dispatchOp .afterThreadRead
    pure { cursor with processStartTime := startTime, processStartTimeLoaded := true }

/-- Read the command line of the cursor's process unless it was read. -/
def loadCmdline (cursor : ScanCursor) : DispatchProgram ScanCursor := do
  if cursor.cmdlineLoaded then pure cursor
  else
    let cmdline ← dispatchOp (.processCmdline cursor.pid)
    dispatchOp .afterThreadRead
    pure { cursor with cmdline := cmdline, cmdlineLoaded := true }

/-- Dispatch the threads of the cursor's process once they are listed; true when the dispatch
stops. -/
def dispatchListed (request : DispatchRequest) (dispatch : DispatchState) :
    DispatchProgram (Bool × DispatchState) := do
  let cursor ← loadName dispatch.cursor
  let dispatch := { dispatch with cursor := cursor }
  if cursor.processName = deadName then pure (false, dispatch)
  else if ← dispatchOp .exhausted then pure (true, dispatch)
  else
    let cursor ← loadStartTime cursor
    let dispatch := { dispatch with cursor := cursor }
    if cursor.processStartTime = 0 then pure (false, dispatch)
    else if ← dispatchOp .exhausted then pure (true, dispatch)
    else
      let cursor ← loadCmdline cursor
      dispatchTids request (cursor.tids.drop cursor.tidIndex) { dispatch with cursor := cursor }

/-- Stand at a process, unless the cursor does already. -/
def standAt (cursor : ScanCursor) (pid : Int) : DispatchProgram ScanCursor :=
  if cursor.pid ≠ pid then cursor.beginPid pid else pure cursor

/-- Dispatch one process; true when the dispatch stops. -/
def dispatchPid (request : DispatchRequest) (fuel : Nat) (pid : Int) (dispatch : DispatchState) :
    DispatchProgram (Bool × DispatchState) := do
  let cursor ← standAt dispatch.cursor pid
  let (complete, cursor) ← cursor.enumerateTids fuel
  let dispatch := { dispatch with cursor := cursor }
  if complete = false then pure (true, dispatch)
  else if ← dispatchOp .exhausted then pure (true, dispatch)
  else dispatchListed request dispatch

/-- Dispatch processes one after the other; true when the dispatch stops. -/
def dispatchPids (request : DispatchRequest) (fuel : Nat) :
    List Int → DispatchState → DispatchProgram (Bool × DispatchState)
  | [], dispatch => pure (false, dispatch)
  | pid :: rest, dispatch => do
    let (stopped, dispatch) ← dispatchPid request fuel pid dispatch
    if stopped then pure (true, dispatch)
    else
      let cursor ← dispatch.cursor.reset
      dispatchPids request fuel rest { dispatch with cursor := cursor }

/-- The processes from the cursor's on, in increasing order. -/
def remainingPids (pids : Finset Int) (cursor : ScanCursor) : List Int :=
  if 0 < cursor.pid then (pids.sort (· ≤ ·)).filter (cursor.pid ≤ ·) else pids.sort (· ≤ ·)

/-- Forget a process that is not the first one left. -/
def leaveGone (cursor : ScanCursor) (first : Int) : DispatchProgram ScanCursor :=
  if 0 < cursor.pid ∧ first ≠ cursor.pid then cursor.reset else pure cursor

/-- Hand the threads of the processes to the workers; true when something remains. -/
def dispatchPidsToWorkers (request : DispatchRequest) (fuel : Nat) (dispatch : DispatchState) :
    DispatchProgram (Bool × DispatchState) := do
  if request.workers = 0 ∨ request.pids = ∅ then
    let cursor ← dispatch.cursor.reset
    pure (false, { dispatch with cursor := cursor })
  else
    match remainingPids request.pids dispatch.cursor with
    | [] => do
      let cursor ← dispatch.cursor.reset
      pure (false, { dispatch with cursor := cursor })
    | pid :: rest => do
      let cursor ← leaveGone dispatch.cursor pid
      dispatchPids request fuel (pid :: rest) { dispatch with cursor := cursor }

/-! ## Phases -/

/-- The sets of processes of a full cycle, in the order of their dispatch. -/
inductive ScanPhase
  /-- The top application. -/
  | topApp
  /-- Pinned rules. -/
  | pinned
  /-- Rules promoted to the top. -/
  | topfore
  /-- The foreground. -/
  | foreground
  /-- The background. -/
  | background
  deriving DecidableEq

/-- The state a phase dispatches its processes with. -/
def ScanPhase.state : ScanPhase → ProcessState
  | .topApp | .pinned | .topfore => .top
  | .foreground => .fg
  | .background => .bg

/-- The mount point of the cpuset controller. -/
def kCpusetBase : Bytes := Bytes.ascii "/dev/cpuset"

/-- The request of a phase. -/
def ScanPhase.request (hashing : Hashing) (workers : Nat) (pids : Finset Int) (phase : ScanPhase) :
    DispatchRequest where
  hashing := hashing
  workers := workers
  pids := pids
  state := phase.state
  cpusetBase := kCpusetBase

end Main

end ReUperf
