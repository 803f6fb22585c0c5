import ReUperf.Core.EventRouter
import ReUperf.Core.ScanCursor
import ReUperf.System.Inotify

/-!
# The process monitor

The monitor of `cpuset_monitor.hpp`. Its thread reads the records of an inotify watch on `/proc` and
reports the processes that come and go. The callbacks are those that `main.cpp` gives it. Its loop
ends when another thread stops the monitor or a call fails, so it is given fuel.
-/

namespace ReUperf

open Effect

/-! ## Operations -/

/-- What `poll` answers to the monitor. -/
inductive MonitorPoll
  /-- A signal came. -/
  | interrupted
  /-- Another error. -/
  | failed
  /-- The monitor was asked to stop. -/
  | stopSignal
  /-- There are events. -/
  | readable
  /-- The watch is broken. -/
  | broken
  /-- Nothing. -/
  | nothing

/-- What `read` answers to the monitor. -/
inductive MonitorRead
  /-- Some records. -/
  | bytes (buffer : Bytes)
  /-- Nothing to read, or a signal came. -/
  | again
  /-- Another error. -/
  | failed

/-- One operation of the monitor's thread. -/
inductive MonitorOp
  /-- Load `running_`. -/
  | running
  /-- `poll` on the watch and on the stop signal. -/
  | poll
  /-- `read` the stop signal. -/
  | consumeStop
  /-- `read` the watch. -/
  | read
  /-- The callback for a process, which is negated when it is gone. -/
  | onProcessChange (pid : Int)
  /-- The callback for events that were dropped. -/
  | onEventsDropped
  /-- Store that the thread has ended. -/
  | finish

/-- The signature of the monitor's thread. -/
@[reducible] def MonitorSig : Signature where
  Op := MonitorOp
  Res
    | .running => Bool
    | .poll => MonitorPoll
    | .read => MonitorRead
    | .consumeStop | .onProcessChange _ | .onEventsDropped | .finish => Unit

/-- A program of the monitor's thread. -/
abbrev MonitorProgram (α : Type) : Type := Looping MonitorSig α

/-- Perform one operation of the monitor's thread. -/
abbrev monitorOp (operation : MonitorOp) : MonitorProgram (MonitorSig.Res operation) :=
  Looping.op (S := MonitorSig) operation

namespace ProcMonitor

/-! ## The thread -/

/-- Report what one record tells. -/
def handleEvent (record : Bytes) : MonitorProgram Unit :=
  if Inotify.hasFlag (Inotify.mask record) Inotify.inQOverflow then monitorOp .onEventsDropped
  else if 0 < Inotify.len record then
    match FileUtils.parseId (Inotify.name record) with
    | none => pure ()
    | some pid =>
      if Inotify.hasFlag (Inotify.mask record) Inotify.inCreate then
        monitorOp (.onProcessChange pid)
      else if Inotify.hasFlag (Inotify.mask record) Inotify.inDelete then
        monitorOp (.onProcessChange (-pid))
      else pure ()
  else pure ()

/-- One round of the loop. A record that is cut off is only logged. -/
def monitorRound (_ : Unit) : MonitorProgram (Unit ⊕ Unit) := do
  if ← monitorOp .running then
    match ← monitorOp .poll with
    | .interrupted | .nothing => pure (.inl ())
    | .failed | .broken => pure (.inr ())
    | .stopSignal =>
      monitorOp .consumeStop
      pure (.inr ())
    | .readable =>
      match ← monitorOp .read with
      | .again => pure (.inl ())
      | .failed => pure (.inr ())
      | .bytes buffer =>
        let _ ← Inotify.framing.forEach handleEvent buffer.length buffer
        pure (.inl ())
  else pure (.inr ())

/-- The loop of the thread. -/
def monitorLoop (fuel : Nat) : MonitorProgram Unit := do
  Looping.loop monitorRound fuel ()
  monitorOp .finish

end ProcMonitor

/-! ## The object -/

/-- The descriptors of a monitor; negative when they are not open. -/
structure MonitorFds where
  /-- The watch. -/
  inotifyFd : Int := -1
  /-- The stop signal. -/
  stopFd : Int := -1
  deriving DecidableEq

/-- One operation of the thread that starts and stops the monitor. -/
inductive MonitorControlOp
  /-- Load `started_`. -/
  | loadStarted
  /-- Exchange `started_` for false. -/
  | exchangeStarted
  /-- Exchange `running_` for false. -/
  | exchangeRunning
  /-- Store `running_`. -/
  | storeRunning (value : Bool)
  /-- Store `started_`. -/
  | storeStarted (value : Bool)
  /-- Whether there is a thread that was not joined. -/
  | joinable
  /-- `inotify_init1`; nothing when it fails. -/
  | inotifyInit
  /-- `inotify_add_watch` for `/proc`. -/
  | addWatch (fd : Int)
  /-- `eventfd`; nothing when it fails. -/
  | eventFd
  /-- Construct the thread, which uses the descriptors; false when the constructor throws. -/
  | spawn (fds : MonitorFds)
  /-- Write the stop signal. A failure is only logged. -/
  | signalStop (fd : Int)
  /-- Join the thread. -/
  | join
  /-- `close`. -/
  | close (fd : Int)

/-- The signature of that thread. -/
@[reducible] def MonitorControlSig : Signature where
  Op := MonitorControlOp
  Res
    | .loadStarted | .exchangeStarted | .exchangeRunning | .joinable | .addWatch _ | .spawn _ => Bool
    | .inotifyInit | .eventFd => Option Int
    | .storeRunning _ | .storeStarted _ | .signalStop _ | .join | .close _ => Unit

/-- A program of that thread. -/
abbrev MonitorControlProgram (α : Type) : Type := Program MonitorControlSig α

/-- Perform one operation of that thread. -/
abbrev controlOp (operation : MonitorControlOp) :
    MonitorControlProgram (MonitorControlSig.Res operation) :=
  Program.op (S := MonitorControlSig) operation

namespace ProcMonitor

/-- Close a descriptor if it is open. -/
def closeIfOpen (fd : Int) : MonitorControlProgram Unit :=
  if 0 ≤ fd then controlOp (.close fd) else pure ()

/-- Join the thread and close the descriptors, the end of `stop`. -/
def joinAndClose (fds : MonitorFds) : MonitorControlProgram MonitorFds := do
  if ← controlOp .joinable then controlOp .join
  closeIfOpen fds.inotifyFd
  closeIfOpen fds.stopFd
  pure {}

/-- Stop the monitor. -/
def stop (fds : MonitorFds) : MonitorControlProgram MonitorFds := do
  let _wasStarted ← controlOp .exchangeStarted
  let wasRunning ← controlOp .exchangeRunning
  if wasRunning ∧ 0 ≤ fds.stopFd then
    controlOp (.signalStop fds.stopFd)
    joinAndClose fds
  else joinAndClose fds

/-- Start the monitor with a new watch. The result is empty when the thread's constructor throws. -/
def startThread (fds : MonitorFds) : MonitorControlProgram (Option Bool × MonitorFds) := do
  controlOp (.storeRunning true)
  controlOp (.storeStarted true)
  if ← controlOp (.spawn fds) then pure (some true, fds)
  else
    controlOp (.storeRunning false)
    controlOp (.storeStarted false)
    controlOp (.close fds.inotifyFd)
    controlOp (.close fds.stopFd)
    pure (none, {})

/-- Open the descriptors and start the thread. -/
def openAndStart (fds : MonitorFds) : MonitorControlProgram (Option Bool × MonitorFds) := do
  match ← controlOp .inotifyInit with
  | none => pure (some false, { fds with inotifyFd := -1 })
  | some inotifyFd =>
    if ← controlOp (.addWatch inotifyFd) then
      match ← controlOp .eventFd with
      | none =>
        controlOp (.close inotifyFd)
        pure (some false, {})
      | some stopFd => startThread ⟨inotifyFd, stopFd⟩
    else
      controlOp (.close inotifyFd)
      pure (some false, { fds with inotifyFd := -1 })

/-- Start the monitor unless it is started. A thread that ended by itself is joined before. -/
def start (fds : MonitorFds) : MonitorControlProgram (Option Bool × MonitorFds) := do
  if ← controlOp .loadStarted then pure (some true, fds)
  else if (← controlOp .joinable) ∨ 0 ≤ fds.inotifyFd ∨ 0 ≤ fds.stopFd then
    let fds ← stop fds
    openAndStart fds
  else openAndStart fds

end ProcMonitor

/-- The callback that `main.cpp` gives the monitor. A positive number is a process that was created,
a negative one is a process that exited. -/
def RouterSession.reportChange (session : RouterSession) (pid : Int) : RouterSession :=
  if 0 < pid then session.receive ⟨pid, true⟩
  else if pid < 0 then session.receive ⟨-pid, false⟩
  else session

end ReUperf
