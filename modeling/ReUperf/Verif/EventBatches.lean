import Mathlib.Data.Finset.Lattice.Lemmas
import ReUperf.Core.EventRouter

/-!
# Batches of process events

What the router's handler is told about a process depends on the last accepted event of the
process before the batch and in it, and on whether the batch has an accepted exit of the
process. The module proves this for every batch of every reachable session and derives what
the handler's calls amount to. A dropped exit is not remembered. The module shows exactly when
that hides a new process, and exhibits it.
-/

namespace ReUperf

/-! ## Histories -/

/-- The kind of the last event of a process: whether it is a creation. -/
def lastEvent (pid : Int) : List ProcessEvent → Option Bool
  | [] => none
  | event :: rest => (lastEvent pid rest).or (if event.pid = pid then some event.isCreate else none)

/-- The last event of a sequence is in its second part, or in the first. -/
theorem lastEvent_append (pid : Int) (first second : List ProcessEvent) :
    lastEvent pid (first ++ second) = (lastEvent pid second).or (lastEvent pid first) := by
  induction first with
  | nil => simp [lastEvent]
  | cons event rest ih => rw [List.cons_append, lastEvent, lastEvent, ih, Option.or_assoc]

/-- The last event is one of the events. -/
theorem mem_of_lastEvent {pid : Int} {isCreate : Bool} {events : List ProcessEvent}
    (last : lastEvent pid events = some isCreate) : ⟨pid, isCreate⟩ ∈ events := by
  induction events with
  | nil => cases last
  | cons event rest ih =>
    rw [lastEvent] at last
    rcases Option.or_eq_some_iff.mp last with later | ⟨_, here⟩
    · exact List.mem_cons_of_mem _ (ih later)
    · obtain ⟨own, kind⟩ := Option.ite_none_right_eq_some.mp here
      obtain ⟨number, created⟩ := event
      cases own
      cases kind
      exact List.mem_cons_self

/-- A process without a last event has no event. -/
theorem notMem_of_lastEvent {pid : Int} {events : List ProcessEvent}
    (last : lastEvent pid events = none) (isCreate : Bool) : ⟨pid, isCreate⟩ ∉ events := by
  induction events with
  | nil => exact List.not_mem_nil
  | cons event rest ih =>
    rw [lastEvent] at last
    obtain ⟨later, here⟩ := Option.or_eq_none_iff.mp last
    intro member
    rcases List.mem_cons.mp member with rfl | member
    · simp at here
    · exact ih later member

/-- A creation that no exit follows is the last event or is followed by one. -/
theorem lastEvent_cons_of_no_exit {pid : Int} {after : List ProcessEvent}
    (none : ⟨pid, false⟩ ∉ after) : lastEvent pid (⟨pid, true⟩ :: after) = some true := by
  rw [lastEvent, if_pos rfl]
  cases last : lastEvent pid after with
  | none => rfl
  | some kind =>
    cases kind with
    | true => rfl
    | false => exact absurd (mem_of_lastEvent last) none

/-- What is pending for a process after a sequence of events. -/
def coalesced (pid : Int) (events : List ProcessEvent) : Option PendingEvent :=
  (lastEvent pid events).map fun isCreate => ⟨isCreate, decide (⟨pid, false⟩ ∈ events)⟩

/-- One more event of the process is added to what is pending. -/
theorem coalesced_append_self (pid : Int) (isCreate : Bool) (events : List ProcessEvent) :
    coalesced pid (events ++ [⟨pid, isCreate⟩]) =
      some (((coalesced pid events).getD {}).add isCreate) := by
  rw [coalesced, coalesced, lastEvent_append]
  cases last : lastEvent pid events with
  | none =>
    have fresh := notMem_of_lastEvent last false
    cases isCreate <;> simp [lastEvent, PendingEvent.add, fresh]
  | some kind => cases isCreate <;> simp [lastEvent, PendingEvent.add]

/-- An event of another process changes nothing. -/
theorem coalesced_append_ne {pid : Int} {event : ProcessEvent} (other : event.pid ≠ pid)
    (events : List ProcessEvent) : coalesced pid (events ++ [event]) = coalesced pid events := by
  have fresh : (⟨pid, false⟩ : ProcessEvent) ≠ event := by
    rintro rfl
    exact other rfl
  rw [coalesced, coalesced, lastEvent_append]
  simp [lastEvent, other, fresh]

/-- The events that arrived at a running router. -/
def arrived (arrivals : List Arrival) : List ProcessEvent :=
  (arrivals.filter (·.admission ≠ .ignored)).map Arrival.event

/-- The events that were accepted. -/
def accepted (arrivals : List Arrival) : List ProcessEvent :=
  (arrivals.filter (·.admission = .accepted)).map Arrival.event

/-- The events that arrived in several batches. -/
def arrivedHistory (flushes : List Flush) : List ProcessEvent :=
  flushes.flatMap fun flush => arrived flush.arrivals

/-- The events accepted in several batches. -/
def history (flushes : List Flush) : List ProcessEvent :=
  flushes.flatMap fun flush => accepted flush.arrivals

@[simp] theorem accepted_append (first second : List Arrival) :
    accepted (first ++ second) = accepted first ++ accepted second := by
  simp [accepted]

@[simp] theorem arrived_append (first second : List Arrival) :
    arrived (first ++ second) = arrived first ++ arrived second := by
  simp [arrived]

@[simp] theorem history_append (first second : List Flush) :
    history (first ++ second) = history first ++ history second := List.flatMap_append

/-- An accepted event is one that was admitted. -/
theorem mem_accepted {event : ProcessEvent} {arrivals : List Arrival} :
    event ∈ accepted arrivals ↔ ⟨event, .accepted⟩ ∈ arrivals := by
  simp only [accepted, List.mem_map, List.mem_filter, decide_eq_true_eq]
  constructor
  · rintro ⟨⟨_, _⟩, ⟨member, rfl⟩, rfl⟩
    exact member
  · exact fun member => ⟨_, ⟨member, rfl⟩, rfl⟩

/-- Once an event of a process is accepted, no later one in the batch is dropped. -/
def Sticky (arrivals : List Arrival) : Prop :=
  ∀ before event after, arrivals = before ++ ⟨event, .dropped⟩ :: after →
    ∀ isCreate, ⟨event.pid, isCreate⟩ ∉ accepted before

/-- A prefix of a sticky batch is sticky. -/
theorem Sticky.of_append {first second : List Arrival} (sticky : Sticky (first ++ second)) :
    Sticky first := by
  intro before event after same
  exact sticky before event (after ++ second) (by rw [same]; simp)

/-- The last accepted event of a process in a sticky batch is its last event. -/
theorem Sticky.lastEvent_arrived {pid : Int} {isCreate : Bool} {arrivals : List Arrival}
    (sticky : Sticky arrivals) (last : lastEvent pid (accepted arrivals) = some isCreate) :
    lastEvent pid (arrived arrivals) = some isCreate := by
  induction arrivals using List.reverseRecOn with
  | nil => exact last
  | append_singleton arrivals arrival ih =>
    obtain ⟨event, admission⟩ := arrival
    rw [accepted_append, lastEvent_append] at last
    rw [arrived_append, lastEvent_append]
    cases admission with
    | ignored => simpa [arrived, lastEvent] using ih sticky.of_append (by simpa [accepted, lastEvent] using last)
    | accepted =>
      by_cases own : event.pid = pid
      · simpa [accepted, arrived, lastEvent, own] using last
      · have earlier : lastEvent pid (accepted arrivals) = some isCreate := by
          simpa [accepted, lastEvent, own] using last
        simpa [arrived, lastEvent, own] using ih sticky.of_append earlier
    | dropped =>
      have earlier : lastEvent pid (accepted arrivals) = some isCreate := by
        simpa [accepted, lastEvent] using last
      have other : event.pid ≠ pid := by
        rintro rfl
        exact sticky arrivals event [] rfl isCreate (mem_of_lastEvent earlier)
      simpa [arrived, lastEvent, other] using ih sticky.of_append earlier

/-! ## Sorting a batch -/

namespace EventRouter

variable {sorted : Finset Int × HandlerCall} {pid other : Int} {event : PendingEvent}

/-- A process is tracked after the event of another one when it was before. -/
theorem mem_classifyEvent_tracked :
    other ∈ (classifyEvent sorted (pid, event)).1 ↔
      if other = pid then event.isCreate = true else other ∈ sorted.1 := by
  obtain ⟨isCreate, sawDelete⟩ := event
  by_cases same : other = pid <;> cases isCreate <;> cases sawDelete <;>
    by_cases tracked : pid ∈ sorted.1 <;> simp [classifyEvent, same, tracked]

/-- A created process is new when it was recycled or not tracked. -/
theorem mem_classifyEvent_new :
    other ∈ (classifyEvent sorted (pid, event)).2.newPids ↔ other ∈ sorted.2.newPids ∨
      other = pid ∧ event.isCreate = true ∧ (event.sawDelete = true ∨ pid ∉ sorted.1) := by
  obtain ⟨isCreate, sawDelete⟩ := event
  cases isCreate <;> cases sawDelete <;> by_cases tracked : pid ∈ sorted.1 <;>
    simp [classifyEvent, tracked, or_comm]

/-- A process whose last event is an exit is dead. -/
theorem mem_classifyEvent_dead :
    other ∈ (classifyEvent sorted (pid, event)).2.deadPids ↔ other ∈ sorted.2.deadPids ∨
      other = pid ∧ event.isCreate = false := by
  obtain ⟨isCreate, sawDelete⟩ := event
  cases isCreate <;> cases sawDelete <;> by_cases tracked : pid ∈ sorted.1 <;>
    simp [classifyEvent, tracked, or_comm]

/-- A created process with an exit in its batch is recycled. -/
theorem mem_classifyEvent_recycled :
    other ∈ (classifyEvent sorted (pid, event)).2.recycledPids ↔ other ∈ sorted.2.recycledPids ∨
      other = pid ∧ event.isCreate = true ∧ event.sawDelete = true := by
  obtain ⟨isCreate, sawDelete⟩ := event
  cases isCreate <;> cases sawDelete <;> by_cases tracked : pid ∈ sorted.1 <;>
    simp [classifyEvent, tracked, or_comm]

/-- Sorting an event keeps the note about dropped events. -/
theorem classifyEvent_dropped :
    (classifyEvent sorted (pid, event)).2.eventsDropped = sorted.2.eventsDropped := by
  obtain ⟨isCreate, sawDelete⟩ := event
  cases isCreate <;> cases sawDelete <;> by_cases tracked : pid ∈ sorted.1 <;>
    simp [classifyEvent, tracked]

variable {events : List (Int × PendingEvent)}

/-- A process is tracked when its pending event is a creation, or when it has none and was
tracked. -/
theorem mem_foldl_tracked (distinct : (events.map Prod.fst).Nodup) :
    pid ∈ (events.foldl classifyEvent sorted).1 ↔
      (∃ event, (pid, event) ∈ events ∧ event.isCreate = true) ∨
        pid ∉ events.map Prod.fst ∧ pid ∈ sorted.1 := by
  induction events generalizing sorted with
  | nil => simp
  | cons head rest ih =>
    obtain ⟨number, event⟩ := head
    obtain ⟨fresh, distinct⟩ := List.nodup_cons.mp distinct
    rw [List.foldl_cons, ih distinct, mem_classifyEvent_tracked]
    by_cases same : pid = number
    · subst same
      have absent : ∀ other, (pid, other) ∉ rest := fun other member =>
        fresh (List.mem_map.mpr ⟨_, member, rfl⟩)
      simp [absent, fresh]
    · simp [same]

/-- A process is reported as new when its pending event is a creation and it was recycled or
not tracked. -/
theorem mem_foldl_new (distinct : (events.map Prod.fst).Nodup) :
    pid ∈ (events.foldl classifyEvent sorted).2.newPids ↔ pid ∈ sorted.2.newPids ∨
      ∃ event, (pid, event) ∈ events ∧ event.isCreate = true ∧
        (event.sawDelete = true ∨ pid ∉ sorted.1) := by
  induction events generalizing sorted with
  | nil => simp
  | cons head rest ih =>
    obtain ⟨number, event⟩ := head
    obtain ⟨fresh, distinct⟩ := List.nodup_cons.mp distinct
    rw [List.foldl_cons, ih distinct, mem_classifyEvent_new, mem_classifyEvent_tracked]
    by_cases same : pid = number
    · subst same
      have absent : ∀ other, (pid, other) ∉ rest := fun other member =>
        fresh (List.mem_map.mpr ⟨_, member, rfl⟩)
      simp [absent]
    · simp [same]

/-- A process is reported as dead when its pending event is an exit. -/
theorem mem_foldl_dead :
    pid ∈ (events.foldl classifyEvent sorted).2.deadPids ↔ pid ∈ sorted.2.deadPids ∨
      ∃ event, (pid, event) ∈ events ∧ event.isCreate = false := by
  induction events generalizing sorted with
  | nil => simp
  | cons head rest ih =>
    rw [List.foldl_cons, ih, mem_classifyEvent_dead]
    simp only [List.mem_cons, Prod.ext_iff]
    grind

/-- A process is reported as recycled when its pending event is a creation after an exit. -/
theorem mem_foldl_recycled :
    pid ∈ (events.foldl classifyEvent sorted).2.recycledPids ↔ pid ∈ sorted.2.recycledPids ∨
      ∃ event, (pid, event) ∈ events ∧ event.isCreate = true ∧ event.sawDelete = true := by
  induction events generalizing sorted with
  | nil => simp
  | cons head rest ih =>
    rw [List.foldl_cons, ih, mem_classifyEvent_recycled]
    simp only [List.mem_cons, Prod.ext_iff]
    grind

/-- Sorting keeps the note about dropped events. -/
theorem foldl_dropped :
    (events.foldl classifyEvent sorted).2.eventsDropped = sorted.2.eventsDropped := by
  induction events generalizing sorted with
  | nil => rfl
  | cons head rest ih => rw [List.foldl_cons, ih, classifyEvent_dropped]

end EventRouter

/-! ## Batches -/

/-- The arguments computed for a batch say what the events before it and in it mean. -/
structure Flush.Exact (past : List ProcessEvent) (flush : Flush) : Prop where
  /-- A new process was created last, and it was recycled or not known. -/
  mem_new : ∀ {pid}, pid ∈ flush.call.newPids ↔
    lastEvent pid (accepted flush.arrivals) = some true ∧
      (⟨pid, false⟩ ∈ accepted flush.arrivals ∨ lastEvent pid past ≠ some true)
  /-- A dead process exited last. -/
  mem_dead : ∀ {pid}, pid ∈ flush.call.deadPids ↔
    lastEvent pid (accepted flush.arrivals) = some false
  /-- A recycled process was created last and exited before. -/
  mem_recycled : ∀ {pid}, pid ∈ flush.call.recycledPids ↔
    lastEvent pid (accepted flush.arrivals) = some true ∧
      ⟨pid, false⟩ ∈ accepted flush.arrivals
  /-- A drop is reported. -/
  dropped : flush.call.eventsDropped = true ↔
    ∃ arrival ∈ flush.arrivals, arrival.admission = .dropped
  /-- No event was dropped after an accepted one of its process. -/
  sticky : Sticky flush.arrivals

/-- A process is dead in no call that reports it as new. -/
theorem Flush.Exact.disjoint {past : List ProcessEvent} {flush : Flush}
    (exact : flush.Exact past) : Disjoint flush.call.newPids flush.call.deadPids := by
  rw [Finset.disjoint_left]
  intro pid new dead
  have created := (exact.mem_new.mp new).1
  rw [exact.mem_dead.mp dead] at created
  cases created

/-- A recycled process is a new one. -/
theorem Flush.Exact.recycled_subset {past : List ProcessEvent} {flush : Flush}
    (exact : flush.Exact past) : flush.call.recycledPids ⊆ flush.call.newPids := by
  intro pid recycled
  obtain ⟨created, exited⟩ := exact.mem_recycled.mp recycled
  exact exact.mem_new.mpr ⟨created, .inl exited⟩

/-- The tracked processes are those whose last event is a creation. -/
def Tracks (tracked : Finset Int) (events : List ProcessEvent) : Prop :=
  ∀ pid, pid ∈ tracked ↔ lastEvent pid events = some true

/-- The events taken by the router's thread are those of its batch. -/
structure Holds (events : Table Int PendingEvent) (dropped : Bool) (arrivals : List Arrival) :
    Prop where
  /-- What is pending for each process. -/
  pending : ∀ pid, events.lookup pid = coalesced pid (accepted arrivals)
  /-- Whether an event was dropped. -/
  dropped : dropped = true ↔ ∃ arrival ∈ arrivals, arrival.admission = .dropped
  /-- No event was dropped after an accepted one of its process. -/
  sticky : Sticky arrivals

/-- Sorting the events of a batch gives exact arguments and tracks the processes. -/
theorem EventRouter.classify_exact {router : EventRouter} {events : Table Int PendingEvent}
    {dropped : Bool} {arrivals : List Arrival} {past : List ProcessEvent}
    (holds : Holds events dropped arrivals) (tracks : Tracks router.trackedPids past) :
    Flush.Exact past ⟨arrivals, (router.classify events dropped).1⟩ ∧
      Tracks (router.classify events dropped).2.trackedPids (past ++ accepted arrivals) := by
  have distinct : (events.toPairs.map Prod.fst).Nodup := by
    have same : events.toPairs.map Prod.fst = events.keys := by
      simp [Table.toPairs, AList.keys, List.keys]
    rw [same]
    exact events.nodupKeys
  have found : ∀ pid event, (pid, event) ∈ events.toPairs ↔
      coalesced pid (accepted arrivals) = some event := fun pid event => by
    rw [Table.mem_toPairs, holds.pending]
  have kind : ∀ pid isCreate, (∃ event, (pid, event) ∈ events.toPairs ∧ event.isCreate = isCreate) ↔
      lastEvent pid (accepted arrivals) = some isCreate := fun pid isCreate => by
    simp only [found, coalesced]
    cases lastEvent pid (accepted arrivals) <;> simp
  constructor
  · constructor
    · intro pid
      refine (EventRouter.mem_foldl_new distinct).trans ?_
      simp only [found, coalesced, tracks pid]
      cases lastEvent pid (accepted arrivals) <;> simp
    · intro pid
      refine EventRouter.mem_foldl_dead.trans ?_
      rw [kind]
      simp
    · intro pid
      refine EventRouter.mem_foldl_recycled.trans ?_
      simp only [found, coalesced]
      cases lastEvent pid (accepted arrivals) <;> simp
    · refine Iff.trans (iff_of_eq ?_) holds.dropped
      exact congrArg (· = true) EventRouter.foldl_dropped
    · exact holds.sticky
  · intro pid
    refine (EventRouter.mem_foldl_tracked distinct).trans ?_
    have absent : pid ∉ events.toPairs.map Prod.fst ↔ lastEvent pid (accepted arrivals) = none := by
      simp only [List.mem_map, Prod.exists, exists_and_right, exists_eq_right, found, coalesced]
      cases lastEvent pid (accepted arrivals) with
      | none => simp
      | some kind =>
        refine iff_of_false (fun none => none ?_) (Option.some_ne_none kind)
        exact ⟨⟨kind, decide (⟨pid, false⟩ ∈ accepted arrivals)⟩, rfl⟩
    rw [kind, absent, tracks pid, lastEvent_append]
    cases lastEvent pid (accepted arrivals) <;> simp

/-! ## Reachable sessions -/

namespace RouterSession

/-- What the thread holds agrees with the events of its batch. -/
def PhaseConsistent (session : RouterSession) : Prop :=
  match session.phase with
  | .waiting => Tracks session.router.trackedPids (history session.flushes)
  | .exchanged events dropped =>
    Tracks session.router.trackedPids (history session.flushes) ∧
      Holds events dropped session.inFlight
  | .classified call =>
    Tracks session.router.trackedPids (history session.flushes ++ accepted session.inFlight) ∧
      Flush.Exact (history session.flushes) ⟨session.inFlight, call⟩

/-- The router agrees with the events it has seen. -/
structure Consistent (session : RouterSession) : Prop where
  /-- The router runs. -/
  running : session.router.running = true
  /-- The pending events are those since the last exchange. -/
  pending : Holds session.router.pendingEvents session.router.eventsDropped session.arrivals
  /-- The thread's data agrees with its batch. -/
  phase : session.PhaseConsistent
  /-- Every finished batch was sorted exactly. -/
  flushed : ∀ {earlier flush later}, session.flushes = earlier ++ flush :: later →
    flush.Exact (history earlier)

/-- A started router has seen nothing. -/
theorem consistent_initial : Consistent initial where
  running := rfl
  pending :=
    { pending := fun _ => rfl
      dropped := by simp [initial, EventRouter.start]
      sticky := by simp [Sticky, initial] }
  phase := fun pid => by simp [initial, EventRouter.start, history, lastEvent]
  flushed := by simp [initial]

/-- Receiving an event leaves the tracked processes. -/
theorem addEvent_trackedPids (router : EventRouter) (event : ProcessEvent) :
    (router.addEvent event).2.trackedPids = router.trackedPids := by
  unfold EventRouter.addEvent
  split
  · rfl
  · split
    · rfl
    · split <;> rfl

/-- Receiving an event leaves the router running. -/
theorem addEvent_running (router : EventRouter) (event : ProcessEvent) :
    (router.addEvent event).2.running = router.running := by
  unfold EventRouter.addEvent
  split
  · rfl
  · split
    · rfl
    · split <;> rfl

/-- One more arrival keeps a batch sticky unless it is a drop after an accepted event. -/
theorem sticky_append {arrivals : List Arrival} {arrival : Arrival} (sticky : Sticky arrivals)
    (fresh : arrival.admission = .dropped →
      ∀ isCreate, ⟨arrival.event.pid, isCreate⟩ ∉ accepted arrivals) :
    Sticky (arrivals ++ [arrival]) := by
  intro before event after same
  rcases List.eq_nil_or_concat' after with rfl | ⟨rest, last, rfl⟩
  · obtain ⟨rfl, tail⟩ := List.append_inj' same rfl
    cases tail
    exact fresh rfl
  · have split : arrivals ++ [arrival] = (before ++ ⟨event, .dropped⟩ :: rest) ++ [last] := by
      rw [same]; simp
    obtain ⟨rfl, -⟩ := List.append_inj' split rfl
    exact sticky before event rest rfl

/-- Receiving an event keeps the pending events those since the last exchange. -/
theorem holds_addEvent {router : EventRouter} {arrivals : List Arrival} (event : ProcessEvent)
    (holds : Holds router.pendingEvents router.eventsDropped arrivals) :
    Holds (router.addEvent event).2.pendingEvents (router.addEvent event).2.eventsDropped
      (arrivals ++ [⟨event, (router.addEvent event).1⟩]) := by
  obtain ⟨number, isCreate⟩ := event
  have added : ∀ pending : PendingEvent,
      (router.pendingEvents.lookup number).getD {} = pending →
      Holds (router.pendingEvents.insert number (pending.add isCreate)) router.eventsDropped
        (arrivals ++ [⟨⟨number, isCreate⟩, .accepted⟩]) := by
    rintro pending rfl
    constructor
    · intro pid
      rw [accepted_append]
      by_cases own : pid = number
      · subst own
        rw [AList.lookup_insert, holds.pending]
        exact (coalesced_append_self pid isCreate _).symm
      · rw [AList.lookup_insert_ne own, holds.pending]
        exact (coalesced_append_ne (Ne.symm own) _).symm
    · simpa using holds.dropped
    · exact sticky_append holds.sticky fun admitted => by cases admitted
  unfold EventRouter.addEvent
  split
  · constructor
    · intro pid
      rw [holds.pending, accepted_append]
      simp [accepted]
    · simpa using holds.dropped
    · exact sticky_append holds.sticky fun admitted => by cases admitted
  · split
    next pending stored => exact added pending (by rw [stored]; rfl)
    next absent =>
      split
      · constructor
        · intro pid
          rw [holds.pending, accepted_append]
          simp [accepted]
        · simp
        · refine sticky_append holds.sticky fun _ kind => ?_
          have none : lastEvent number (accepted arrivals) = none := by
            simpa [holds.pending, coalesced] using absent
          exact notMem_of_lastEvent none kind
      · exact added {} (by rw [absent]; rfl)

/-- A step keeps the router in agreement with the events it has seen. -/
theorem Consistent.step {session after : RouterSession} (consistent : session.Consistent)
    (step : Step session after) : after.Consistent := by
  obtain ⟨running, pending, phase, flushed⟩ := consistent
  cases step with
  | receive event =>
    constructor
    · exact (addEvent_running _ _).trans running
    · exact holds_addEvent event pending
    · unfold PhaseConsistent at phase ⊢
      simpa only [receive, addEvent_trackedPids] using phase
    · exact flushed
  | exchange waits ready =>
    rw [PhaseConsistent, waits] at phase
    constructor
    · exact running
    · exact consistent_initial.pending
    · exact ⟨phase, pending⟩
    · exact flushed
  | @classify events dropped took =>
    rw [PhaseConsistent, took] at phase
    obtain ⟨exact', tracks⟩ := EventRouter.classify_exact phase.2 phase.1
    constructor
    · exact running
    · exact pending
    · exact ⟨tracks, exact'⟩
    · exact flushed
  | @deliver call sorted =>
    rw [PhaseConsistent, sorted] at phase
    constructor
    · exact running
    · exact pending
    · intro pid
      rw [history_append]
      simpa [history] using phase.1 pid
    · intro earlier flush later same
      rcases List.eq_nil_or_concat' later with rfl | ⟨rest, last, rfl⟩
      · obtain ⟨rfl, tail⟩ := List.append_inj' same rfl
        cases tail
        exact phase.2
      · have split : session.flushes ++ [⟨session.inFlight, call⟩] =
            (earlier ++ flush :: rest) ++ [last] := same.trans (by simp)
        exact flushed (List.append_inj' split rfl).1

/-- Every reachable session agrees with the events it has seen. -/
theorem Consistent.of_reachable {session : RouterSession} (reached : Reachable session) :
    session.Consistent := by
  induction reached with
  | refl => exact consistent_initial
  | tail _ step ih => exact ih.step step

/-! ## What the calls amount to -/

/-- The processes a consumer knows that drops the dead ones of each call and adds the new
ones. -/
def consumer (calls : List HandlerCall) : Finset Int :=
  calls.foldl (fun known call => (known \ call.deadPids) ∪ call.newPids) ∅

/-- One more call changes what the consumer knows. -/
theorem consumer_append (calls : List HandlerCall) (call : HandlerCall) :
    consumer (calls ++ [call]) = (consumer calls \ call.deadPids) ∪ call.newPids :=
  List.foldl_append

/-- A finished batch changes what the consumer knows, whether its call is made or not. -/
theorem consumer_handlerCalls_append (flushes : List Flush) (flush : Flush) :
    consumer (handlerCalls (flushes ++ [flush])) =
      (consumer (handlerCalls flushes) \ flush.call.deadPids) ∪ flush.call.newPids := by
  cases made : flush.call.isMade with
  | true =>
    have kept : handlerCalls (flushes ++ [flush]) = handlerCalls flushes ++ [flush.call] := by
      simp [handlerCalls, made]
    rw [kept, consumer_append]
  | false =>
    have kept : handlerCalls (flushes ++ [flush]) = handlerCalls flushes := by
      simp [handlerCalls, made]
    have empty : flush.call.newPids = ∅ ∧ flush.call.deadPids = ∅ := by
      simp only [HandlerCall.isMade, Bool.or_eq_false_iff, decide_eq_false_iff_not,
        Decidable.not_not] at made
      exact made.1.1
    rw [kept, empty.1, empty.2, Finset.sdiff_empty, Finset.union_empty]

/-- A call with a new process is made. -/
theorem isMade_of_mem_newPids {call : HandlerCall} {pid : Int} (new : pid ∈ call.newPids) :
    call.isMade = true := by
  have nonempty : call.newPids ≠ ∅ := Finset.ne_empty_of_mem new
  simp [HandlerCall.isMade, nonempty]

/-- The consumer knows the processes whose last event is a creation. -/
theorem mem_consumer {flushes : List Flush}
    (exact : ∀ earlier flush later, flushes = earlier ++ flush :: later →
      flush.Exact (history earlier)) (pid : Int) :
    pid ∈ consumer (handlerCalls flushes) ↔ lastEvent pid (history flushes) = some true := by
  induction flushes using List.reverseRecOn with
  | nil => simp [consumer, handlerCalls, history, lastEvent]
  | append_singleton flushes flush ih =>
    have last := exact flushes flush [] rfl
    have known := ih fun earlier middle later same =>
      exact earlier middle (later ++ [flush]) (by rw [same, List.append_assoc]; rfl)
    have whole : history (flushes ++ [flush]) = history flushes ++ accepted flush.arrivals := by
      simp [history]
    rw [consumer_handlerCalls_append, whole, lastEvent_append, Finset.mem_union, Finset.mem_sdiff,
      known, last.mem_dead, last.mem_new]
    cases now : lastEvent pid (accepted flush.arrivals) with
    | none => simp
    | some kind =>
      cases kind with
      | true => simpa using (em _).imp_right .inr
      | false => simp

/-- What the calls of the handler have to do with the accepted events. -/
structure PreservesMeaning (flushes : List Flush) : Prop where
  /-- The consumer knows the processes whose last event is a creation. -/
  alive : ∀ pid, pid ∈ consumer (handlerCalls flushes) ↔
    lastEvent pid (history flushes) = some true
  /-- No call reports a process as new and as dead. -/
  disjoint : ∀ call ∈ handlerCalls flushes, Disjoint call.newPids call.deadPids
  /-- Recycled processes are new. -/
  recycled : ∀ call ∈ handlerCalls flushes, call.recycledPids ⊆ call.newPids
  /-- The first creation after an exit is reported unless an exit follows in its batch. -/
  reported : ∀ {earlier flush later before after pid},
    flushes = earlier ++ flush :: later →
    accepted flush.arrivals = before ++ ⟨pid, true⟩ :: after → ⟨pid, false⟩ ∉ after →
    lastEvent pid (history earlier ++ before) = some false →
    flush.call.isMade = true ∧ pid ∈ flush.call.newPids
  /-- A process the consumer knows is reported only when it exited and was created since. -/
  unrepeated : ∀ {earlier flush later pid}, flushes = earlier ++ flush :: later →
    pid ∈ flush.call.newPids → pid ∈ consumer (handlerCalls earlier) →
    ∃ before after, accepted flush.arrivals = before ++ ⟨pid, false⟩ :: after ∧
      ⟨pid, true⟩ ∈ after

/-- Batching preserves the meaning of the accepted events. -/
theorem preservesMeaning {session : RouterSession} (reached : Reachable session) :
    PreservesMeaning session.flushes := by
  have exact := @(Consistent.of_reachable reached).flushed
  have ofCall : ∀ call ∈ handlerCalls session.flushes,
      ∃ past arrivals, Flush.Exact past ⟨arrivals, call⟩ := by
    intro call member
    obtain ⟨flush, listed, rfl⟩ := List.mem_map.mp (List.mem_of_mem_filter member)
    obtain ⟨earlier, later, same⟩ := List.append_of_mem listed
    exact ⟨history earlier, flush.arrivals, exact same⟩
  constructor
  · exact mem_consumer fun _ _ _ => exact
  · intro call member
    obtain ⟨past, arrivals, sorted⟩ := ofCall call member
    exact sorted.disjoint
  · intro call member
    obtain ⟨past, arrivals, sorted⟩ := ofCall call member
    exact sorted.recycled_subset
  · intro earlier flush later before after pid same split alone exited
    have created : lastEvent pid (accepted flush.arrivals) = some true := by
      rw [split, lastEvent_append, lastEvent_cons_of_no_exit alone, Option.some_or]
    have fresh : ⟨pid, false⟩ ∈ accepted flush.arrivals ∨
        lastEvent pid (history earlier) ≠ some true := by
      rw [lastEvent_append] at exited
      cases here : lastEvent pid before with
      | none =>
        rw [here, Option.none_or] at exited
        exact .inr (by simp [exited])
      | some kind =>
        rw [here, Option.some_or] at exited
        rw [exited] at here
        exact .inl (by rw [split]; exact List.mem_append_left _ (mem_of_lastEvent here))
    have new := (exact same).mem_new.mpr ⟨created, fresh⟩
    exact ⟨isMade_of_mem_newPids new, new⟩
  · intro earlier flush later pid same new known
    obtain ⟨created, fresh⟩ := (exact same).mem_new.mp new
    have earlierExact : ∀ {first flush rest}, earlier = first ++ flush :: rest →
        flush.Exact (history first) := fun {first middle rest} split =>
      exact (by rw [same, split, List.append_assoc]; rfl)
    have dead := (mem_consumer (fun _ _ _ => earlierExact) pid).mp known
    have exited := fresh.resolve_right (not_not.mpr dead)
    obtain ⟨before, after, split⟩ := List.append_of_mem exited
    refine ⟨before, after, split, ?_⟩
    rw [split, lastEvent_append, lastEvent] at created
    cases last : lastEvent pid after with
    | none => simp [last] at created
    | some kind =>
      rw [last, Option.some_or, Option.some_or] at created
      rw [created] at last
      exact mem_of_lastEvent last

/-! ## Runs -/

/-- The thread flushes the events since the last exchange without interruption. -/
def flush (session : RouterSession) : RouterSession :=
  let sorted := session.router.exchange.classify session.router.pendingEvents
    session.router.eventsDropped
  { router := sorted.2, flushes := session.flushes ++ [⟨session.arrivals, sorted.1⟩] }

/-- A waiting thread with something to flush can flush it. -/
theorem reaches_flush {session : RouterSession} (waits : session.phase = .waiting)
    (ready : session.router.hasWork = true) : Relation.ReflTransGen Step session session.flush :=
  ((Relation.ReflTransGen.single (.exchange waits ready)).tail (.classify rfl)).tail (.deliver rfl)

/-- A flush adds the batch of the events since the last exchange. -/
theorem flush_flushes (session : RouterSession) :
    ∃ call, session.flush.flushes = session.flushes ++ [⟨session.arrivals, call⟩] := ⟨_, rfl⟩

/-- A flush leaves nothing pending. -/
theorem flush_pendingEvents (session : RouterSession) :
    session.flush.router.pendingEvents = ∅ := rfl

/-- A flush leaves no arrivals. -/
theorem flush_arrivals (session : RouterSession) : session.flush.arrivals = [] := rfl

/-- A flush leaves the thread waiting. -/
theorem flush_phase (session : RouterSession) : session.flush.phase = .waiting := rfl

/-- An arrival leaves the thread where it stands. -/
theorem receive_phase (session : RouterSession) (event : ProcessEvent) :
    (session.receive event).phase = session.phase := rfl

/-- An arrival flushes nothing. -/
theorem receive_flushes (session : RouterSession) (event : ProcessEvent) :
    (session.receive event).flushes = session.flushes := rfl

/-- An arrival is listed with what became of it. -/
theorem receive_arrivals (session : RouterSession) (event : ProcessEvent) :
    (session.receive event).arrivals =
      session.arrivals ++ [⟨event, (session.router.addEvent event).1⟩] := rfl

/-- An arrival changes the router. -/
theorem receive_router (session : RouterSession) (event : ProcessEvent) :
    (session.receive event).router = (session.router.addEvent event).2 := rfl

/-- Several events arrive. -/
def receiveAll (session : RouterSession) (events : List ProcessEvent) : RouterSession :=
  events.foldl receive session

/-- Events can always arrive. -/
theorem reaches_receiveAll (session : RouterSession) (events : List ProcessEvent) :
    Relation.ReflTransGen Step session (session.receiveAll events) := by
  induction events generalizing session with
  | nil => exact .refl
  | cons event rest ih => exact .head (.receive session event) (ih (session.receive event))

/-- Batching preserves the meaning of the events in a run that recycles a process ID. -/
theorem preservesMeaning_recycle :
    PreservesMeaning ((initial.receive ⟨5, true⟩).flush.receiveAll
      [⟨5, false⟩, ⟨5, true⟩]).flush.flushes := by
  have first : Reachable (initial.receive ⟨5, true⟩).flush :=
    (Relation.ReflTransGen.single (.receive initial ⟨5, true⟩)).trans
      (reaches_flush rfl (by decide))
  exact preservesMeaning ((first.trans (reaches_receiveAll _ _)).trans
    (reaches_flush rfl (by decide)))

/-! ## Dropped events -/

/-- An accepted creation of a process that no exit follows in its batch and that is the first
one since an exit. -/
structure Reuse (flushes : List Flush) where
  /-- The process. -/
  pid : Int
  /-- The batches before. -/
  earlier : List Flush
  /-- The batch of the creation. -/
  flush : Flush
  /-- The batches after. -/
  later : List Flush
  /-- What arrived before in the batch. -/
  before : List Arrival
  /-- What arrived after in the batch. -/
  after : List Arrival
  /-- The batches are all batches. -/
  flushes_eq : flushes = earlier ++ flush :: later
  /-- The arrivals are all arrivals of the batch. -/
  arrivals_eq : flush.arrivals = before ++ ⟨⟨pid, true⟩, .accepted⟩ :: after
  /-- No exit follows in the batch. -/
  unfollowed : ∀ arrival ∈ after, arrival.event ≠ ⟨pid, false⟩
  /-- The last event before is an exit, accepted or dropped. -/
  reused : lastEvent pid (arrivedHistory earlier ++ arrived before) = some false

/-- The last accepted event before is not a creation. -/
def Reuse.Remembered {flushes : List Flush} (reuse : Reuse flushes) : Prop :=
  lastEvent reuse.pid (history reuse.earlier ++ accepted reuse.before) ≠ some true

/-- Drops hide no process. -/
structure HidesNothing (flushes : List Flush) : Prop where
  /-- A reused ID is reported. -/
  reported : ∀ reuse : Reuse flushes,
    reuse.flush.call.isMade = true ∧ reuse.pid ∈ reuse.flush.call.newPids
  /-- A drop is reported in the next call. -/
  signalled : ∀ flush ∈ flushes, (∃ arrival ∈ flush.arrivals, arrival.admission = .dropped) →
    flush.call.isMade = true ∧ flush.call.eventsDropped = true

/-- The last accepted event of a process in the batch of its reuse is no creation. -/
theorem Reuse.lastEvent_before {flushes : List Flush} (reuse : Reuse flushes)
    (sticky : Sticky reuse.flush.arrivals) :
    lastEvent reuse.pid (accepted reuse.before) ≠ some true := by
  intro created
  rw [reuse.arrivals_eq] at sticky
  have last := reuse.reused
  rw [lastEvent_append, sticky.of_append.lastEvent_arrived created, Option.some_or] at last
  cases last

/-- A reused ID is reported exactly when the last accepted event before is no creation. -/
theorem Reuse.mem_newPids_iff {flushes : List Flush} (reuse : Reuse flushes)
    (exact : reuse.flush.Exact (history reuse.earlier)) :
    reuse.pid ∈ reuse.flush.call.newPids ↔ reuse.Remembered := by
  have none : ⟨reuse.pid, false⟩ ∉ accepted reuse.after := fun member =>
    reuse.unfollowed _ (mem_accepted.mp member) rfl
  have split : accepted reuse.flush.arrivals =
      accepted reuse.before ++ ⟨reuse.pid, true⟩ :: accepted reuse.after := by
    rw [reuse.arrivals_eq, accepted_append]
    rfl
  have created : lastEvent reuse.pid (accepted reuse.flush.arrivals) = some true := by
    rw [split, lastEvent_append, lastEvent_cons_of_no_exit none, Option.some_or]
  have exited : ⟨reuse.pid, false⟩ ∈ accepted reuse.flush.arrivals ↔
      lastEvent reuse.pid (accepted reuse.before) = some false := by
    rw [split]
    constructor
    · intro member
      have before : ⟨reuse.pid, false⟩ ∈ accepted reuse.before := by simpa [none] using member
      cases last : lastEvent reuse.pid (accepted reuse.before) with
      | none => exact absurd before (notMem_of_lastEvent last false)
      | some kind =>
        cases kind with
        | true => exact absurd last (reuse.lastEvent_before exact.sticky)
        | false => rfl
    · exact fun last => List.mem_append_left _ (mem_of_lastEvent last)
  rw [exact.mem_new, exited, Reuse.Remembered, lastEvent_append]
  cases last : lastEvent reuse.pid (accepted reuse.before) with
  | none => simp [created]
  | some kind =>
    cases kind with
    | true => exact absurd last (reuse.lastEvent_before exact.sticky)
    | false => simp [created]

/-- Drops hide no process exactly when before every reuse of an ID the last accepted event is
no creation. -/
theorem hidesNothing_iff {session : RouterSession} (reached : Reachable session) :
    HidesNothing session.flushes ↔ ∀ reuse : Reuse session.flushes, reuse.Remembered := by
  have exact := @(Consistent.of_reachable reached).flushed
  constructor
  · intro hides reuse
    exact (reuse.mem_newPids_iff (exact reuse.flushes_eq)).mp (hides.reported reuse).2
  · intro remembered
    constructor
    · intro reuse
      have new := (reuse.mem_newPids_iff (exact reuse.flushes_eq)).mpr (remembered reuse)
      exact ⟨isMade_of_mem_newPids new, new⟩
    · intro flush member dropped
      obtain ⟨earlier, later, same⟩ := List.append_of_mem member
      have noted := (exact same).dropped.mpr dropped
      exact ⟨by simp [HandlerCall.isMade, noted], noted⟩

/-- Drops hide no process in a run without drops. -/
theorem hidesNothing_iff_recycle :
    HidesNothing (initial.receive ⟨5, true⟩).flush.flushes ↔
      ∀ reuse : Reuse (initial.receive ⟨5, true⟩).flush.flushes, reuse.Remembered :=
  hidesNothing_iff ((Relation.ReflTransGen.single (.receive initial ⟨5, true⟩)).trans
    (reaches_flush rfl (by decide)))

/-! ## A hidden process -/

/-- An event of a process with nothing pending is accepted while there is room. -/
theorem addEvent_fresh {router : EventRouter} (event : ProcessEvent) (positive : 0 < event.pid)
    (running : router.running = true) (absent : event.pid ∉ router.pendingEvents)
    (room : router.pendingEvents.keys.length < EventRouter.kMaxPendingEvents) :
    router.addEvent event = (.accepted, { router with
      pendingEvents :=
        router.pendingEvents.insert event.pid (PendingEvent.add {} event.isCreate) }) := by
  have none : router.pendingEvents.lookup event.pid = none := AList.lookup_eq_none.mpr absent
  rw [EventRouter.addEvent, if_neg (by simp [running, positive]), none]
  exact if_neg (by omega)

/-- An event of a process with nothing pending is dropped when there is no room. -/
theorem addEvent_full {router : EventRouter} (event : ProcessEvent) (positive : 0 < event.pid)
    (running : router.running = true) (absent : event.pid ∉ router.pendingEvents)
    (full : EventRouter.kMaxPendingEvents ≤ router.pendingEvents.keys.length) :
    router.addEvent event = (.dropped, { router with eventsDropped := true }) := by
  have none : router.pendingEvents.lookup event.pid = none := AList.lookup_eq_none.mpr absent
  rw [EventRouter.addEvent, if_neg (by simp [running, positive]), none]
  exact if_pos full

/-- The creations of the processes with the IDs from two on. -/
def creations (count : Nat) : List ProcessEvent :=
  (List.range count).map fun index : Nat => ⟨(index : Int) + 2, true⟩

/-- What a running router with nothing pending has after the creation of distinct processes. -/
structure Filled (session after : RouterSession) (count : Nat) : Prop where
  /-- The router runs. -/
  running : after.router.running = true
  /-- Every process is pending. -/
  keys : after.router.pendingEvents.keys.Perm ((creations count).map ProcessEvent.pid)
  /-- Every event was accepted. -/
  arrivals : after.arrivals = (creations count).map fun event => ⟨event, .accepted⟩
  /-- The thread waits. -/
  phase : after.phase = .waiting
  /-- No batch was flushed. -/
  flushes : after.flushes = session.flushes

/-- The limit is reached by as many creations. -/
theorem filled (session : RouterSession) (running : session.router.running = true)
    (empty : session.router.pendingEvents = ∅) (none : session.arrivals = [])
    (waits : session.phase = .waiting) {count : Nat}
    (bound : count ≤ EventRouter.kMaxPendingEvents) :
    Filled session (session.receiveAll (creations count)) count := by
  induction count with
  | zero => exact ⟨running, by simp [creations, receiveAll, empty], none, waits, rfl⟩
  | succ count ih =>
    obtain ⟨runs, keys, arrivals, phase, flushes⟩ := ih (by omega)
    have last : creations (count + 1) = creations count ++ [⟨count + 2, true⟩] := by
      simp [creations, List.range_succ]
    have more : session.receiveAll (creations (count + 1)) =
        (session.receiveAll (creations count)).receive ⟨count + 2, true⟩ := by
      rw [receiveAll, last, List.foldl_append]
      rfl
    have length : (session.receiveAll (creations count)).router.pendingEvents.keys.length =
        count := by
      rw [keys.length_eq]
      simp [creations]
    have absent : ((count : Int) + 2) ∉ (session.receiveAll (creations count)).router.pendingEvents.keys := by
      rw [keys.mem_iff]
      simp only [creations, List.map_map, List.mem_map, List.mem_range, Function.comp]
      rintro ⟨index, below, same⟩
      omega
    have added := addEvent_fresh ⟨count + 2, true⟩ (by simp; omega) runs absent
      (by rw [length]; omega)
    constructor
    · rw [more, receive, added]
      exact runs
    · rw [more, receive, added, last]
      simp only [AList.keys_insert, List.map_append, List.map_cons, List.map_nil]
      rw [List.erase_of_not_mem absent]
      exact (keys.cons _).trans (List.perm_append_singleton _ _).symm
    · rw [more, receive, added, last]
      simp [arrivals]
    · rw [more]
      exact phase
    · rw [more]
      exact flushes

/-- A process is created, and its exit is dropped. -/
def droppedExit : RouterSession :=
  ((initial.receive ⟨1, true⟩).flush.receiveAll
    (creations EventRouter.kMaxPendingEvents)).receive ⟨1, false⟩

/-- A run in which the exit of a process is dropped and its ID is used again. -/
def forgetfulRun : RouterSession := (droppedExit.flush.receive ⟨1, true⟩).flush

/-- The first process is not among the others. -/
theorem first_notMem_creations {count : Nat} {isCreate : Bool} :
    ⟨1, isCreate⟩ ∉ creations count := by
  simp only [creations, List.mem_map, ProcessEvent.mk.injEq, not_exists, not_and]
  intro index _ same
  omega

/-- The exit is dropped. -/
theorem droppedExit_spec :
    Reachable droppedExit ∧ droppedExit.phase = .waiting ∧
      droppedExit.router.eventsDropped = true ∧
      droppedExit.arrivals =
        ((creations EventRouter.kMaxPendingEvents).map fun event => ⟨event, .accepted⟩) ++
          [⟨⟨1, false⟩, .dropped⟩] ∧
      droppedExit.flushes = (initial.receive ⟨1, true⟩).flush.flushes := by
  have first : Reachable (initial.receive ⟨1, true⟩).flush :=
    (Relation.ReflTransGen.single (.receive initial ⟨1, true⟩)).trans
      (reaches_flush rfl (by decide))
  obtain ⟨running, keys, arrivals, phase, flushes⟩ :=
    filled (initial.receive ⟨1, true⟩).flush rfl rfl rfl rfl
      (le_refl EventRouter.kMaxPendingEvents)
  have absent : (1 : Int) ∉ ((initial.receive ⟨1, true⟩).flush.receiveAll
      (creations EventRouter.kMaxPendingEvents)).router.pendingEvents.keys := by
    rw [keys.mem_iff, List.mem_map]
    rintro ⟨⟨number, isCreate⟩, member, rfl⟩
    exact first_notMem_creations member
  have added := addEvent_full ⟨1, false⟩ (by decide) running absent
    (by rw [keys.length_eq]; simp [creations])
  refine ⟨(first.trans (reaches_receiveAll _ _)).tail (.receive _ _), ?_, ?_, ?_, ?_⟩
  · rw [droppedExit, receive_phase, phase]
  · rw [droppedExit, receive_router, added]
  · rw [droppedExit, receive_arrivals, added, arrivals]
  · rw [droppedExit, receive_flushes, flushes]

/-- The process with the reused ID is not reported. -/
theorem hidesNothing_fails : Reachable forgetfulRun ∧ ¬ HidesNothing forgetfulRun.flushes := by
  obtain ⟨reached, waits, dropped, arrivals, flushes⟩ := droppedExit_spec
  have flushed : Reachable droppedExit.flush :=
    reached.trans (reaches_flush waits (by simp [EventRouter.hasWork, dropped]))
  have running := (Consistent.of_reachable flushed).running
  have added := addEvent_fresh ⟨1, true⟩ (by decide) running
    (by rw [flush_pendingEvents]; exact List.not_mem_nil)
    (by rw [flush_pendingEvents]; decide)
  have again : (droppedExit.flush.receive ⟨1, true⟩).arrivals = [⟨⟨1, true⟩, .accepted⟩] := by
    rw [receive_arrivals, added, flush_arrivals, List.nil_append]
  have reachedAgain : Reachable forgetfulRun := by
    refine (flushed.tail (.receive _ ⟨1, true⟩)).trans (reaches_flush ?_ ?_)
    · rw [receive_phase, flush_phase]
    · rw [receive_router, added, flush_pendingEvents]
      rfl
  refine ⟨reachedAgain, fun hides => ?_⟩
  obtain ⟨call, same⟩ := flush_flushes (droppedExit.flush.receive ⟨1, true⟩)
  rw [again, receive_flushes] at same
  obtain ⟨middle, earlier⟩ := flush_flushes droppedExit
  rw [flushes] at earlier
  have exact := (Consistent.of_reachable reachedAgain).flushed same
  have past : lastEvent 1 (history droppedExit.flush.flushes) = some true := by
    have other : lastEvent 1 (creations EventRouter.kMaxPendingEvents) = none := by
      cases last : lastEvent 1 (creations EventRouter.kMaxPendingEvents) with
      | none => rfl
      | some kind => exact absurd (mem_of_lastEvent last) first_notMem_creations
    have batch : history [⟨droppedExit.arrivals, middle⟩] =
        creations EventRouter.kMaxPendingEvents := by
      rw [arrivals]
      simp [history, accepted, Function.comp_def, List.filter_map]
    rw [earlier, history_append, lastEvent_append, batch, other, Option.none_or]
    decide
  have new := (hides.reported
    { pid := 1, earlier := _, flush := _, later := _, before := [], after := []
      flushes_eq := same
      arrivals_eq := rfl
      unfollowed := by simp
      reused := by
        rw [earlier, arrivals]
        simp [arrivedHistory, arrived, lastEvent_append, lastEvent] }).2
  simpa [past, accepted] using (exact.mem_new.mp new).2

end RouterSession

end ReUperf
