import Mathlib.Data.List.Dedup
import Mathlib.Data.List.Sort
import ReUperf.Lib.Loop
import ReUperf.System.Operations

/-!
# Scan budget and scan cursor

The budget and the cursor of `scan_cursor.hpp`. A cursor keeps what was read of one process
between two calls of a dispatch that ran out of budget: the open task directory, the threads
listed so far, the position in the list, and the name, start time and command line of the
process with flags that tell whether they were read.
-/

namespace ReUperf

open Effect

/-! ## Operations -/

/-- What a worker's queue answers. -/
inductive EnqueueResult
  /-- The task was added. -/
  | queued
  /-- A pending task of the same thread was replaced. -/
  | updated
  /-- The queue is full. -/
  | queueFull
  /-- The worker is stopped. -/
  | stopped
  deriving DecidableEq

/-- One operation of a dispatch. -/
inductive DispatchOp
  /-- `ScanBudget::exhausted`. -/
  | exhausted
  /-- `ScanBudget::after_thread_read`. -/
  | afterThreadRead
  /-- `opendir` of the task directory of a process; nothing when it fails. -/
  | openTask (pid : Int)
  /-- `readdir`. -/
  | readDir (handle : Nat)
  /-- `closedir`. -/
  | closeDir (handle : Nat)
  /-- The name in the `status` file of a process; `[dead]` when it cannot be read. -/
  | processName (pid : Int)
  /-- The start time in the `stat` file of a process; zero when it cannot be read. -/
  | processStartTime (pid : Int)
  /-- The first argument in the `cmdline` file of a process. -/
  | processCmdline (pid : Int)
  /-- The `comm` file of a thread; `[dead]` when it cannot be read. -/
  | threadName (pid tid : Int)
  /-- The start time in the `stat` file of a thread; zero when it cannot be read. -/
  | threadStartTime (pid tid : Int)
  /-- `ScanWorker::enqueue` of the worker with the index. -/
  | enqueue (worker : Nat) (task : DispatchTask)
  /-- Set `full_rescan_needed`. -/
  | requestRescan

/-- The signature of the operations of a dispatch. -/
@[reducible] def DispatchSig : Signature where
  Op := DispatchOp
  Res
    | .exhausted => Bool
    | .afterThreadRead | .closeDir _ | .requestRescan => Unit
    | .openTask _ => Option Nat
    | .readDir _ => DirEntry
    | .processName _ | .processCmdline _ | .threadName _ _ => Bytes
    | .processStartTime _ | .threadStartTime _ _ => Nat
    | .enqueue _ _ => EnqueueResult

/-- A program of dispatch operations. -/
abbrev DispatchProgram (α : Type) : Type := Looping DispatchSig α

/-- Perform one dispatch operation. -/
abbrev dispatchOp (operation : DispatchOp) : DispatchProgram (DispatchSig.Res operation) :=
  Looping.op (S := DispatchSig) operation

/-! ## Budget -/

/-- A time budget, in microseconds of the steady clock. -/
structure ScanBudget where
  /-- When the budget ends. -/
  deadline : Int
  /-- The number of reads between two pauses. -/
  batchSize : Int
  /-- The length of a pause. -/
  batchYieldUs : Int
  /-- The reads counted so far. -/
  threadReads : Nat := 0
  deriving DecidableEq

namespace ScanBudget

/-- A budget that begins now. -/
def create (now budgetUs configuredBatchSize configuredBatchYieldUs : Int) : ScanBudget where
  deadline := now + budgetUs
  batchSize := max configuredBatchSize 1
  batchYieldUs := max configuredBatchYieldUs 0

/-- Whether the budget has ended. -/
def exhausted (budget : ScanBudget) (now : Int) : Bool := decide (budget.deadline ≤ now)

/-- Count a read; the pause that follows it. -/
def afterThreadRead (budget : ScanBudget) : Int × ScanBudget :=
  let budget := { budget with threadReads := budget.threadReads + 1 }
  (if 0 < budget.batchYieldUs ∧ budget.threadReads % budget.batchSize.toNat = 0
    then budget.batchYieldUs else 0, budget)

end ScanBudget

/-! ## Cursor -/

namespace FileUtils

/-- Whether every byte of a name is a digit, and there is one. -/
def isAllDigits (name : Bytes) : Bool :=
  name ≠ [] && name.all fun byte => decide (48 ≤ byte ∧ byte ≤ 57)

/-- The number a sequence of digits stands for. -/
def digitsValue (name : Bytes) : Nat :=
  name.foldl (fun value byte => 10 * value + (byte.toNat - 48)) 0

/-- The ID a directory entry names. A number that `strtol` cannot represent is no ID either. -/
def parseId (name : Bytes) : Option Int :=
  if isAllDigits name && isValidId (digitsValue name) then some (digitsValue name) else none

/-- A number that was read is positive. -/
theorem pos_of_parseId {name : Bytes} {id : Int} (parsed : parseId name = some id) : 0 < id := by
  rw [parseId] at parsed
  split at parsed
  · next valid =>
    rw [Bool.and_eq_true, isValidId, decide_eq_true_eq] at valid
    obtain rfl := Option.some.inj parsed
    exact valid.2.1
  · cases parsed

/-- IDs in increasing order, each once. -/
def sortUnique (ids : List Int) : List Int := ids.dedup.insertionSort (· ≤ ·)

end FileUtils

/-- What was read of the process a dispatch stands at. -/
structure ScanCursor where
  /-- The process, or zero. -/
  pid : Int := 0
  /-- The open task directory. -/
  taskDir : Option Nat := none
  /-- Whether all its threads were listed. -/
  tidEnumerationComplete : Bool := false
  /-- The threads listed. -/
  tids : List Int := []
  /-- The position in the list. -/
  tidIndex : Nat := 0
  /-- Whether its name was read. -/
  processNameLoaded : Bool := false
  /-- Its name. -/
  processName : Bytes := []
  /-- Whether its start time was read. -/
  processStartTimeLoaded : Bool := false
  /-- Its start time. -/
  processStartTime : Nat := 0
  /-- Whether its command line was read. -/
  cmdlineLoaded : Bool := false
  /-- Its command line. -/
  cmdline : Bytes := []
  deriving DecidableEq

namespace ScanCursor

/-- Forget the process. -/
def reset (cursor : ScanCursor) : DispatchProgram ScanCursor := do
  match cursor.taskDir with
  | none => pure {}
  | some handle =>
    dispatchOp (.closeDir handle)
    pure {}

/-- Stand at another process. -/
def beginPid (cursor : ScanCursor) (nextPid : Int) : DispatchProgram ScanCursor := do
  let cursor ← cursor.reset
  pure { cursor with pid := nextPid }

/-- The threads of the process are these. -/
def listed (cursor : ScanCursor) (tids : List Int) : ScanCursor :=
  { cursor with
    taskDir := none, tids := FileUtils.sortUnique tids, tidEnumerationComplete := true
    tidIndex := 0 }

/-- Read one entry of the task directory unless the budget has ended. -/
def readTid (handle : Nat) (cursor : ScanCursor) :
    DispatchProgram (ScanCursor ⊕ (Bool × ScanCursor)) := do
  if ← dispatchOp .exhausted then pure (.inr (false, cursor))
  else
    match ← dispatchOp (.readDir handle) with
    | .finished =>
      dispatchOp (.closeDir handle)
      pure (.inr (true, cursor.listed cursor.tids))
    | .failed =>
      dispatchOp (.closeDir handle)
      pure (.inr (true, cursor.listed []))
    | .name text =>
      dispatchOp .afterThreadRead
      match FileUtils.parseId text with
      | none => pure (.inl cursor)
      | some tid => pure (.inl { cursor with tids := cursor.tids ++ [tid] })

/-- List the threads of the process; false when the budget ends before. -/
def enumerateTids (fuel : Nat) (cursor : ScanCursor) : DispatchProgram (Bool × ScanCursor) := do
  if cursor.tidEnumerationComplete then pure (true, cursor)
  else if cursor.pid ≤ 0 then pure (false, cursor)
  else
    match cursor.taskDir with
    | some handle => Looping.loop (readTid handle) fuel cursor
    | none =>
      match ← dispatchOp (.openTask cursor.pid) with
      | none => pure (true, { cursor with tidEnumerationComplete := true })
      | some handle =>
        Looping.loop (readTid handle) fuel { cursor with taskDir := some handle, tids := [] }

end ScanCursor

end ReUperf
