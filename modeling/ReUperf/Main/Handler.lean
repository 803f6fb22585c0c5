import ReUperf.Core.EventRouter
import ReUperf.Main.Cycle

/-!
# Handler of process events

The handler of `main.cpp` that the event router calls with the processes of a batch. It forgets
what is cached of them and hands the threads of the new ones to the workers, with what their
groups and the rules tell now. The main loop does nothing while the handler runs.
-/

namespace ReUperf

open Effect FileUtils

namespace Main

/-- One operation of the handler. -/
inductive HandlerOp
  /-- `reset_for_pid` of the thread cache. -/
  | resetForPid (pid : Int)
  /-- Erase the cached state of a process. -/
  | forgetState (pid : Int)
  /-- `invalidate_process_caches`. -/
  | invalidateCaches (pid : Int)
  /-- Begin the budget of one process. -/
  | beginBudget
  /-- The state the `cgroup` file of a process tells. -/
  | cgroupStateInfo (pid : Int)
  /-- `match_process_only`. -/
  | matchProcess (pid : Int) (procName : Bytes) (state : ProcessState) (cmdline : Bytes)
  /-- `has_baseline_for_pid`. -/
  | hasBaselineForPid (pid : Int)
  /-- An operation of a dispatch. -/
  | dispatch (operation : DispatchOp)

/-- The signature of the handler's operations. -/
@[reducible] def HandlerSig : Signature where
  Op := HandlerOp
  Res
    | .resetForPid _ | .forgetState _ | .invalidateCaches _ | .beginBudget => Unit
    | .cgroupStateInfo _ => CgroupStateInfo
    | .matchProcess _ _ _ _ => MatchResult
    | .hasBaselineForPid _ => Bool
    | .dispatch operation => DispatchSig.Res operation

/-- A program of the handler. -/
abbrev HandlerProgram (α : Type) : Type := Looping HandlerSig α

/-- Perform one operation of the handler. -/
abbrev handlerOp (operation : HandlerOp) : HandlerProgram (HandlerSig.Res operation) :=
  Looping.op (S := HandlerSig) operation

/-- An operation of a dispatch. -/
def asHandlerOp (operation : DispatchOp) : HandlerProgram (DispatchSig.Res operation) :=
  handlerOp (.dispatch operation)

/-- The state a process is dispatched with: the one its groups tell, or the background. -/
def actualState (cgroup : CgroupState) : ProcessState :=
  match cgroup with
  | .top => .top
  | .fg => .fg
  | .bg | .other => .bg

/-- Forget what is cached of a process. -/
def forgetProcess (pid : Int) : HandlerProgram Unit := do
  handlerOp (.resetForPid pid)
  handlerOp (.forgetState pid)
  handlerOp (.invalidateCaches pid)

/-- The set a matched process is dispatched as; nothing when no rule wants it. -/
def rulePhase (pid : Int) (result : MatchResult) (state : ProcessState) (cmdline : Bytes) :
    HandlerProgram (Option ScanPhase) := do
  if result.matched = false then pure none
  else if result.pinned then pure (some .pinned)
  else if result.topfore && state = .fg then pure (some .topfore)
  else if state = .fg then pure (some .foreground)
  else if state = .bg then
    let hasBaseline ← handlerOp (.hasBaselineForPid pid)
    if shouldDispatchBackgroundProcess result hasBaseline (decide (cmdline = [])) then
      pure (some .background)
    else pure none
  else pure none

namespace CycleSetup

variable (setup : CycleSetup)

/-- Dispatch a process as one of a set; true when something remains. -/
def dispatchSingle (pid : Int) (dispatch : DispatchState) (phase : ScanPhase) :
    HandlerProgram (Bool × DispatchState) :=
  Looping.interpret asHandlerOp <| dispatchPidsToWorkers
    (phase.request setup.hashing setup.workers {pid}) setup.fuel dispatch

/-- Dispatch a process of the top application, whatever the rules are. -/
def dispatchInitial (pid : Int) (cgroup : CgroupState) : HandlerProgram (Bool × DispatchState) :=
  if cgroup = .top then setup.dispatchSingle pid {} .topApp else pure (false, {})

/-- Dispatch a process as the rules want it. -/
def dispatchByRule (pid : Int) (dispatch : DispatchState) (phase : Option ScanPhase) :
    HandlerProgram Bool := do
  match phase with
  | none => pure false
  | some phase =>
    let (incomplete, _) ← setup.dispatchSingle pid dispatch phase
    pure incomplete

/-- Dispatch a new process. -/
def incrementalDispatch (pid : Int) : HandlerProgram Unit := do
  handlerOp .beginBudget
  let procName ← asHandlerOp (.processName pid)
  if procName = deadName then pure ()
  else
    let cmdline ← asHandlerOp (.processCmdline pid)
    let cgroup ← handlerOp (.cgroupStateInfo pid)
    let state := actualState cgroup.state
    let (initialIncomplete, dispatch) ← setup.dispatchInitial pid cgroup.state
    let result ← handlerOp (.matchProcess pid procName state cmdline)
    let phase ← rulePhase pid result state cmdline
    let ruleIncomplete ← setup.dispatchByRule pid dispatch phase
    if initialIncomplete || ruleIncomplete then asHandlerOp .requestRescan else pure ()

/-- Forget recycled processes. -/
def handleRecycled : List Int → HandlerProgram Unit
  | [] => pure ()
  | pid :: rest => do
    forgetProcess pid
    handleRecycled rest

/-- Forget and dispatch new processes. -/
def handleNew : List Int → HandlerProgram Unit
  | [] => pure ()
  | pid :: rest => do
    if 0 < pid then
      forgetProcess pid
      setup.incrementalDispatch pid
      handleNew rest
    else handleNew rest

/-- Forget what the thread cache holds of dead processes. -/
def handleDead : List Int → HandlerProgram Unit
  | [] => pure ()
  | pid :: rest => do
    handlerOp (.resetForPid pid)
    handlerOp (.invalidateCaches pid)
    handleDead rest

/-- Request a full scan when events were dropped. -/
def handleDropped (eventsDropped : Bool) : HandlerProgram Unit :=
  if eventsDropped then asHandlerOp .requestRescan else pure ()

/-- The handler of a batch of events. -/
def handle (call : HandlerCall) : HandlerProgram Unit := do
  handleDropped call.eventsDropped
  handleRecycled (remainingPids call.recycledPids {})
  setup.handleNew (remainingPids call.newPids {})
  handleDead (remainingPids call.deadPids {})

end CycleSetup

end Main

end ReUperf
