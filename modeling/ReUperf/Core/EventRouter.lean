import Mathlib.Data.Finset.Basic
import ReUperf.Lib.Table

/-!
# Event router

The router of `event_router.hpp`. Process events are coalesced per process until the router's
thread exchanges the pending events for none, works out which processes are new, dead or
recycled, and calls the handler. The lock is released between these three steps, so events can
arrive there.

The contents of the handler and of its failure callback belong to `main.cpp`.
-/

namespace ReUperf

/-- The creation or the exit of a process. -/
structure ProcessEvent where
  /-- The process. -/
  pid : Int
  /-- Whether it was created. -/
  isCreate : Bool
  deriving DecidableEq

/-- What is pending for one process. -/
structure PendingEvent where
  /-- Whether its last event is a creation. -/
  isCreate : Bool := false
  /-- Whether one of its events is an exit. -/
  sawDelete : Bool := false
  deriving DecidableEq

/-- The arguments of one call of the handler. -/
structure HandlerCall where
  /-- The processes to dispatch. -/
  newPids : Finset Int := ∅
  /-- The processes that are gone. -/
  deadPids : Finset Int := ∅
  /-- The new processes whose ID belonged to another one. -/
  recycledPids : Finset Int := ∅
  /-- Whether events were dropped. -/
  eventsDropped : Bool := false
  deriving DecidableEq

/-- Whether the handler is called with these arguments. -/
def HandlerCall.isMade (call : HandlerCall) : Bool :=
  call.newPids ≠ ∅ || call.deadPids ≠ ∅ || call.recycledPids ≠ ∅ || call.eventsDropped

/-- What becomes of an event. -/
inductive Admission
  /-- The router is not running, or the ID is no process ID. -/
  | ignored
  /-- Too many processes are pending. -/
  | dropped
  /-- The event is pending. -/
  | accepted
  deriving DecidableEq

/-- The router's data. -/
structure EventRouter where
  /-- Whether the router takes events. -/
  running : Bool := false
  /-- What is pending for each process. -/
  pendingEvents : Table Int PendingEvent := ∅
  /-- Whether an event was dropped since the last exchange. -/
  eventsDropped : Bool := false
  /-- The processes reported as new and not as dead since. -/
  trackedPids : Finset Int := ∅

/-- Add an event to what is pending for its process. -/
def PendingEvent.add (pending : PendingEvent) (isCreate : Bool) : PendingEvent where
  isCreate := isCreate
  sawDelete := pending.sawDelete || !isCreate

namespace EventRouter

/-- The number of processes that may be pending. -/
def kMaxPendingEvents : Nat := 4096

/-- Begin to take events. -/
def start (router : EventRouter) : EventRouter :=
  if router.running then router
  else { router with running := true, pendingEvents := ∅, eventsDropped := false }

/-- Add an event to the pending ones. -/
def addEvent (router : EventRouter) (event : ProcessEvent) : Admission × EventRouter :=
  if event.pid ≤ 0 ∨ router.running = false then (.ignored, router)
  else match router.pendingEvents.lookup event.pid with
    | some pending =>
      (.accepted, { router with
        pendingEvents := router.pendingEvents.insert event.pid (pending.add event.isCreate) })
    | none =>
      if kMaxPendingEvents ≤ router.pendingEvents.keys.length then
        (.dropped, { router with eventsDropped := true })
      else
        (.accepted, { router with
          pendingEvents :=
            router.pendingEvents.insert event.pid (PendingEvent.add {} event.isCreate) })

/-- A process was created. -/
def onProcessCreated (router : EventRouter) (pid : Int) : Admission × EventRouter :=
  router.addEvent ⟨pid, true⟩

/-- A process exited. -/
def onProcessExited (router : EventRouter) (pid : Int) : Admission × EventRouter :=
  router.addEvent ⟨pid, false⟩

/-- Whether the router's thread has something to flush. -/
def hasWork (router : EventRouter) : Bool :=
  !router.pendingEvents.keys.isEmpty || router.eventsDropped

/-- Leave nothing pending. -/
def exchange (router : EventRouter) : EventRouter :=
  { router with pendingEvents := ∅, eventsDropped := false }

/-- Sort one pending event into the arguments of the handler, and update the tracked
processes. -/
def classifyEvent (sorted : Finset Int × HandlerCall) (pending : Int × PendingEvent) :
    Finset Int × HandlerCall :=
  let (tracked, call) := sorted
  let (pid, event) := pending
  if event.isCreate then
    let newlyTracked := pid ∉ tracked
    let tracked := insert pid tracked
    if event.sawDelete then
      (tracked, { call with
        recycledPids := insert pid call.recycledPids, newPids := insert pid call.newPids })
    else if newlyTracked then (tracked, { call with newPids := insert pid call.newPids })
    else (tracked, call)
  else (tracked.erase pid, { call with deadPids := insert pid call.deadPids })

/-- Sort the pending events into the arguments of the handler. -/
def classify (router : EventRouter) (events : Table Int PendingEvent) (dropped : Bool) :
    HandlerCall × EventRouter :=
  let (tracked, call) :=
    events.toPairs.foldl classifyEvent (router.trackedPids, { eventsDropped := dropped })
  (call, { router with trackedPids := tracked })

end EventRouter

/-! ## The router's thread -/

/-- Where the router's thread stands. -/
inductive LoopPhase
  /-- Before the exchange of the pending events. -/
  | waiting
  /-- Before the pending events are sorted. -/
  | exchanged (events : Table Int PendingEvent) (dropped : Bool)
  /-- Before the call of the handler. -/
  | classified (call : HandlerCall)

/-- An event with what became of it. -/
structure Arrival where
  /-- The event. -/
  event : ProcessEvent
  /-- What became of it. -/
  admission : Admission
  deriving DecidableEq

/-- A batch of events with the arguments of the handler computed for it. -/
structure Flush where
  /-- The events between two exchanges. -/
  arrivals : List Arrival
  /-- The arguments. -/
  call : HandlerCall

/-- A running router with the events it has seen. -/
structure RouterSession where
  /-- The router. -/
  router : EventRouter
  /-- Where its thread stands. -/
  phase : LoopPhase := .waiting
  /-- The events since the last exchange. -/
  arrivals : List Arrival := []
  /-- The events of the batch the thread works on. -/
  inFlight : List Arrival := []
  /-- The finished batches, oldest first. -/
  flushes : List Flush := []

namespace RouterSession

/-- The session of a router that has just been started. -/
def initial : RouterSession where
  router := EventRouter.start {}

/-- An event arrives. -/
def receive (session : RouterSession) (event : ProcessEvent) : RouterSession :=
  { session with
    router := (session.router.addEvent event).2
    arrivals := session.arrivals ++ [⟨event, (session.router.addEvent event).1⟩] }

/-- The thread takes the pending events. -/
def exchange (session : RouterSession) : RouterSession :=
  { session with
    router := session.router.exchange
    phase := .exchanged session.router.pendingEvents session.router.eventsDropped
    arrivals := []
    inFlight := session.arrivals }

/-- One step of the router's thread or of a thread that reports events. -/
inductive Step : RouterSession → RouterSession → Prop where
  /-- An event arrives. -/
  | receive (session : RouterSession) (event : ProcessEvent) : Step session (session.receive event)
  /-- The thread wakes up and takes the pending events. -/
  | exchange {session : RouterSession} (waits : session.phase = .waiting)
      (ready : session.router.hasWork = true) : Step session session.exchange
  /-- The thread sorts the events it took. -/
  | classify {session : RouterSession} {events : Table Int PendingEvent} {dropped : Bool}
      (took : session.phase = .exchanged events dropped) :
      Step session { session with
        router := (session.router.classify events dropped).2
        phase := .classified (session.router.classify events dropped).1 }
  /-- The thread calls the handler if there is something to report. -/
  | deliver {session : RouterSession} {call : HandlerCall}
      (sorted : session.phase = .classified call) :
      Step session { session with
        phase := .waiting
        inFlight := []
        flushes := session.flushes ++ [⟨session.inFlight, call⟩] }

/-- The sessions a started router can reach. -/
abbrev Reachable (session : RouterSession) : Prop := Relation.ReflTransGen Step initial session

/-- The calls of the handler, in order. -/
def handlerCalls (flushes : List Flush) : List HandlerCall :=
  (flushes.map Flush.call).filter HandlerCall.isMade

end RouterSession

end ReUperf
