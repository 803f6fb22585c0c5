import ReUperf.Core.ProcMonitor
import ReUperf.Lib.Reading
import ReUperf.Verif.EventBatches

/-!
# From the kernel to the handler

What happens in `/proc` goes through a queue of the kernel, which can overflow, the buffer of the
monitor's thread, the pending events of the router, which are limited, and the calls of the handler.
The world of this module has all of them. While the monitor's thread runs its loop, processes come
and go and the router's thread takes its steps between any two calls. The module shows that nothing
gets lost silently: what the handler was told is what happened, or a full scan was asked for.
-/

namespace ReUperf

open Effect

/-! ## What a record tells -/

/-- What a record of the watch is about. -/
inductive NoticeKind
  /-- The creation or the exit of a process. -/
  | process (event : ProcessEvent)
  /-- Events were lost. -/
  | overflow
  /-- Anything else. -/
  | other
  deriving DecidableEq

/-- What happened to a process. -/
def NoticeKind.changes : NoticeKind → List ProcessEvent
  | .process event => [event]
  | .overflow | .other => []

/-- How the kernel tells it. A process is named by its number. Other names are not numbers, and other
events neither create nor delete. -/
def InotifyEvent.Tells (event : InotifyEvent) : NoticeKind → Prop
  | .process change => Inotify.hasFlag event.mask Inotify.inQOverflow = false ∧
      0 < change.pid ∧ change.pid ≤ 2147483647 ∧ event.name = Bytes.natural change.pid.toNat ∧
      Inotify.hasFlag event.mask Inotify.inCreate = change.isCreate ∧
      (change.isCreate = false → Inotify.hasFlag event.mask Inotify.inDelete = true)
  | .overflow => Inotify.hasFlag event.mask Inotify.inQOverflow = true
  | .other => Inotify.hasFlag event.mask Inotify.inQOverflow = false ∧
      (FileUtils.isAllDigits event.name = false ∨
        Inotify.hasFlag event.mask Inotify.inCreate = false ∧
          Inotify.hasFlag event.mask Inotify.inDelete = false)

/-- A record with what it tells. -/
structure Notice where
  /-- The record. -/
  event : InotifyEvent
  /-- What it is about. -/
  kind : NoticeKind
  /-- The record tells it. -/
  tells : event.Tells kind

/-- What happened to processes, as some records tell it. -/
def changesOf (notices : List Notice) : List ProcessEvent :=
  notices.flatMap fun notice => notice.kind.changes

@[simp] theorem changesOf_append (first second : List Notice) :
    changesOf (first ++ second) = changesOf first ++ changesOf second := List.flatMap_append

/-- The number of a process is read from its name. -/
theorem parseId_natural {pid : Int} (positive : 0 < pid) (small : pid ≤ 2147483647) :
    FileUtils.parseId (Bytes.natural pid.toNat) = some pid := by
  have digits : FileUtils.isAllDigits (Bytes.natural pid.toNat) = true := by
    rw [FileUtils.isAllDigits, Bool.and_eq_true, decide_eq_true_eq, List.all_eq_true]
    refine ⟨Bytes.natural_ne_nil _, fun byte member => ?_⟩
    have digit := Bytes.isDigit_of_mem_natural member
    rw [Bytes.isDigit, Bool.and_eq_true, decide_eq_true_eq, decide_eq_true_eq] at digit
    exact decide_eq_true digit
  have value : (FileUtils.digitsValue (Bytes.natural pid.toNat) : Int) = pid := by
    have read : FileUtils.digitsValue (Bytes.natural pid.toNat) = pid.toNat :=
      Bytes.ofDigits_natural pid.toNat
    rw [read]
    omega
  have valid : FileUtils.isValidId pid = true := decide_eq_true ⟨positive, small⟩
  rw [FileUtils.parseId, value, digits, valid]
  rfl

/-! ## The world -/

namespace RouterSession

/-- The events that arrived at the router, in order. -/
def seen (session : RouterSession) : List ProcessEvent :=
  arrivedHistory session.flushes ++ arrived session.inFlight ++ arrived session.arrivals

/-- The thread of the router has taken no batch that it has not delivered. -/
def Idle (session : RouterSession) : Prop := session.phase = .waiting → session.inFlight = []

/-- A running router sees every event of a process. -/
theorem seen_receive {session : RouterSession} {event : ProcessEvent}
    (running : session.router.running = true) (positive : 0 < event.pid) :
    (session.receive event).seen = session.seen ++ [event] := by
  have admitted : (session.router.addEvent event).1 ≠ .ignored := by
    unfold EventRouter.addEvent
    rw [if_neg (by rw [running]; simp; omega)]
    split
    · simp
    · split <;> simp
  have last : arrived [⟨event, (session.router.addEvent event).1⟩] = [event] := by
    simp [arrived, admitted]
  rw [seen, seen, receive_flushes, receive_arrivals, arrived_append, last, List.append_assoc,
    List.append_assoc, List.append_assoc]
  rfl

/-- A step of the router's own thread. -/
def ThreadStep (session after : RouterSession) : Prop :=
  Step session after ∧ ∀ event, after ≠ session.receive event

/-- The router's thread loses no event and makes up none. -/
theorem ThreadStep.seen {session after : RouterSession} (step : ThreadStep session after)
    (idle : session.Idle) : after.seen = session.seen ∧ after.Idle := by
  obtain ⟨step, own⟩ := step
  cases step with
  | receive event => exact absurd rfl (own event)
  | exchange waits ready =>
    constructor
    · have none := idle waits
      simp [RouterSession.seen, RouterSession.exchange, none, arrived]
    · intro waiting
      cases waiting
  | classify took =>
    constructor
    · rfl
    · intro waiting
      cases waiting
  | deliver sorted =>
    constructor
    · simp [RouterSession.seen, arrivedHistory, arrived]
    · intro _
      rfl

end RouterSession

/-- The kernel's queue, the router, and what has happened. -/
structure EventWorld where
  /-- The records nobody has read. -/
  queue : List Notice := []
  /-- The records the monitor has read. -/
  consumed : List Notice := []
  /-- What has happened to processes since the watch began. -/
  happened : List ProcessEvent := []
  /-- The router. -/
  session : RouterSession := .initial
  /-- Whether the monitor has asked for a full scan. -/
  rescanRequested : Bool := false

namespace EventWorld

/-- What happens while the monitor's thread is not looking. -/
inductive Outside : EventWorld → EventWorld → Prop where
  /-- Something happens in `/proc` and is queued. -/
  | queued (world : EventWorld) (notice : Notice) (told : notice.kind ≠ .overflow) :
      Outside world { world with
        queue := world.queue ++ [notice], happened := world.happened ++ notice.kind.changes }
  /-- The queue is full: something happens, and the queue tells only that it is full. -/
  | overflows (world : EventWorld) (change : ProcessEvent) (notice : Notice)
      (told : notice.kind = .overflow) :
      Outside world { world with
        queue := world.queue ++ [notice], happened := world.happened ++ [change] }
  /-- The queue is full, and tells so already. -/
  | lost (world : EventWorld) (change : ProcessEvent)
      (told : ∃ notice ∈ world.queue, notice.kind = .overflow) :
      Outside world { world with happened := world.happened ++ [change] }
  /-- The router's thread takes a step. -/
  | router (world : EventWorld) (after : RouterSession)
      (step : RouterSession.ThreadStep world.session after) :
      Outside world { world with session := after }

/-- What the operations of the monitor's thread do. A read takes whole records off the queue. -/
def answers : EventWorld → (operation : MonitorOp) → MonitorSig.Res operation → EventWorld → Prop
  | world, .read, .bytes buffer, after =>
    ∃ notices rest, world.queue = notices ++ rest ∧
      buffer = notices.flatMap (fun notice => notice.event.encode) ∧
      after = { world with queue := rest, consumed := world.consumed ++ notices }
  | world, .onProcessChange pid, _, after =>
    after = { world with session := world.session.reportChange pid }
  | world, .onEventsDropped, _, after => after = { world with rescanRequested := true }
  | world, .read, .again, after | world, .read, .failed, after => after = world
  | world, .running, _, after | world, .poll, _, after => after = world
  | world, .consumeStop, _, after | world, .finish, _, after => after = world

/-- The monitor's thread among the others: anything can happen before each of its operations. -/
def machine : Machine MonitorSig EventWorld where
  step world operation response after :=
    ∃ middle, Relation.ReflTransGen Outside world middle ∧ answers middle operation response after

/-! ## The invariant -/

/-- The records read, some of which are still to be reported, are what happened, unless some tell
that events were lost. -/
structure Accounted (pending : List Notice) (world : EventWorld) : Prop where
  /-- The records reported arrived at the router, or asked for a full scan. -/
  reported : ∃ handled, world.consumed = handled ++ pending ∧
    world.session.seen = changesOf handled ∧
    (world.rescanRequested = true ↔ ∃ notice ∈ handled, notice.kind = .overflow)
  /-- The records tell what happened, if none is lost. -/
  honest : (∀ notice ∈ world.consumed ++ world.queue, notice.kind ≠ .overflow) →
    world.happened = changesOf (world.consumed ++ world.queue)
  /-- The router is one that was started. -/
  reached : RouterSession.Reachable world.session
  /-- Its thread has delivered what it took when it waits. -/
  idle : world.session.Idle

variable {world after : EventWorld} {pending : List Notice}

/-- Nothing has happened yet. -/
theorem accounted_initial : Accounted [] {} where
  reported := ⟨[], rfl, rfl, by simp⟩
  honest := fun _ => rfl
  reached := .refl
  idle := fun _ => rfl

/-- What happens outside keeps the account. -/
theorem Accounted.outside (accounted : Accounted pending world) (step : Outside world after) :
    Accounted pending after := by
  obtain ⟨reported, honest, reached, idle⟩ := accounted
  cases step with
  | queued notice told =>
    refine ⟨reported, fun all => ?_, reached, idle⟩
    have before : ∀ notice ∈ world.consumed ++ world.queue, notice.kind ≠ .overflow := by
      intro other member
      refine all other ?_
      rw [← List.append_assoc]
      exact List.mem_append_left _ member
    dsimp only
    rw [honest before, ← List.append_assoc, changesOf_append _ [notice]]
    simp [changesOf]
  | overflows change notice told =>
    refine ⟨reported, fun all => ?_, reached, idle⟩
    exact absurd told (all notice (by simp))
  | lost change told =>
    refine ⟨reported, fun all => ?_, reached, idle⟩
    obtain ⟨notice, member, overflow⟩ := told
    exact absurd overflow (all notice (List.mem_append_right _ member))
  | router session step =>
    obtain ⟨seen, still⟩ := step.seen idle
    refine ⟨?_, honest, reached.tail step.1, still⟩
    obtain ⟨handled, read, arrived, rescan⟩ := reported
    exact ⟨handled, read, seen.trans arrived, rescan⟩

/-- Any number of steps outside keeps it. -/
theorem Accounted.outsides (accounted : Accounted pending world)
    (steps : Relation.ReflTransGen Outside world after) : Accounted pending after := by
  induction steps with
  | refl => exact accounted
  | tail _ step ih => exact ih.outside step

/-! ## The monitor's thread -/

/-- Other records are reported: one record is handled. -/
theorem Accounted.handle {notice : Notice} (accounted : Accounted (notice :: pending) world)
    {change : RouterSession} {rescan : Bool}
    (seen : change.seen = world.session.seen ++ notice.kind.changes)
    (rescans : rescan = true ↔ world.rescanRequested = true ∨ notice.kind = .overflow)
    (reached : RouterSession.Reachable change) (idle : change.Idle) :
    Accounted pending { world with session := change, rescanRequested := rescan } := by
  obtain ⟨⟨handled, read, arrived, rescanned⟩, honest, -, -⟩ := accounted
  refine ⟨⟨handled ++ [notice], ?_, ?_, ?_⟩, honest, reached, idle⟩
  · rw [List.append_assoc]
    exact read
  · dsimp only
    rw [seen, arrived, changesOf_append]
    simp [changesOf]
  · dsimp only
    rw [rescans, rescanned]
    constructor
    · rintro (⟨other, member, overflow⟩ | overflow)
      · exact ⟨other, List.mem_append_left _ member, overflow⟩
      · exact ⟨notice, by simp, overflow⟩
    · rintro ⟨other, member, overflow⟩
      rcases List.mem_append.mp member with before | last
      · exact .inl ⟨other, before, overflow⟩
      · rw [List.mem_singleton.mp last] at overflow
        exact .inr overflow

/-- The record of a process is reported. -/
theorem Accounted.report {notice : Notice} {event : ProcessEvent}
    (accounted : Accounted (notice :: pending) world) (told : notice.kind = .process event)
    (positive : 0 < event.pid) :
    Accounted pending { world with session := world.session.receive event } := by
  have running := (RouterSession.Consistent.of_reachable accounted.reached).running
  have changes : notice.kind.changes = [event] := by rw [told]; rfl
  have kept : world.rescanRequested = true ↔
      world.rescanRequested = true ∨ notice.kind = .overflow := by
    rw [told]
    simp
  refine accounted.handle ?_ kept (accounted.reached.tail (.receive _ event)) ?_
  · rw [changes]
    exact RouterSession.seen_receive running positive
  · intro waiting
    exact accounted.idle waiting

/-- A record that is about no process is passed over. -/
theorem Accounted.pass {notice : Notice} (accounted : Accounted (notice :: pending) world)
    (told : notice.kind = .other) : Accounted pending world := by
  have changes : notice.kind.changes = [] := by rw [told]; rfl
  have kept : world.rescanRequested = true ↔
      world.rescanRequested = true ∨ notice.kind = .overflow := by
    rw [told]
    simp
  refine accounted.handle ?_ kept accounted.reached accounted.idle
  rw [changes, List.append_nil]

/-- One record is handled as what it tells. -/
theorem handleEvent_accounted {notice : Notice} (accounted : Accounted (notice :: pending) world) :
    (ProcMonitor.handleEvent notice.event.encode).wp machine.withSpin
      (fun _ after => Accounted pending after) world := by
  have tells := notice.tells
  rw [ProcMonitor.handleEvent, InotifyEvent.mask_encode, InotifyEvent.len_encode,
    InotifyEvent.name_encode]
  cases told : notice.kind with
  | overflow =>
    rw [told] at tells
    have overflow : Inotify.hasFlag notice.event.mask Inotify.inQOverflow = true := tells
    rw [if_pos overflow, Looping.wp_op]
    intro _ after stepped
    obtain ⟨middle, outside, rfl⟩ := stepped
    have now := accounted.outsides outside
    refine now.handle ?_ (by simp [told]) now.reached now.idle
    rw [told]
    exact (List.append_nil _).symm
  | process event =>
    rw [told] at tells
    obtain ⟨noOverflow, positive, small, named, created, deleted⟩ := tells
    have filled := List.length_pos_iff.mpr (Bytes.natural_ne_nil event.pid.toNat)
    have long : 0 < notice.event.name.length + notice.event.padding := by
      rw [named]
      omega
    rw [if_neg (by rw [noOverflow]; exact Bool.false_ne_true), if_pos long, named,
      parseId_natural positive small]
    dsimp only
    by_cases isCreate : event.isCreate = true
    · rw [created, if_pos isCreate, Looping.wp_op]
      intro _ after stepped
      obtain ⟨middle, outside, rfl⟩ := stepped
      have same : middle.session.reportChange event.pid = middle.session.receive event := by
        rw [RouterSession.reportChange, if_pos positive, ← isCreate]
      rw [same]
      exact (accounted.outsides outside).report told positive
    · have isDelete : event.isCreate = false := by simpa using isCreate
      rw [created, if_neg isCreate, if_pos (deleted isDelete), Looping.wp_op]
      intro _ after stepped
      obtain ⟨middle, outside, rfl⟩ := stepped
      have same : middle.session.reportChange (-event.pid) = middle.session.receive event := by
        rw [RouterSession.reportChange, if_neg (by omega), if_pos (by omega), Int.neg_neg,
          ← isDelete]
      rw [same]
      exact (accounted.outsides outside).report told positive
  | other =>
    rw [told] at tells
    obtain ⟨noOverflow, irrelevant⟩ := tells
    have passed : Accounted pending world := accounted.pass told
    rw [if_neg (by rw [noOverflow]; exact Bool.false_ne_true), Program.wp_ite]
    split
    · split
      · exact passed
      · next pid parsed =>
        have digits : FileUtils.isAllDigits notice.event.name = true := by
          rw [FileUtils.parseId] at parsed
          split at parsed
          · next valid => exact (Bool.and_eq_true_iff.mp valid).1
          · cases parsed
        rcases irrelevant with notDigits | ⟨notCreated, notDeleted⟩
        · rw [digits] at notDigits
          exact absurd notDigits.symm Bool.false_ne_true
        · rw [notCreated, notDeleted, if_neg Bool.false_ne_true, if_neg Bool.false_ne_true]
          exact passed
    · exact passed

/-- Several records are handled in their order. -/
theorem forM_accounted {notices : List Notice} (accounted : Accounted (notices ++ pending) world) :
    ((notices.map fun notice => notice.event.encode).forM ProcMonitor.handleEvent).wp
      machine.withSpin (fun _ after => Accounted pending after) world := by
  induction notices generalizing world with
  | nil => exact accounted
  | cons notice notices ih =>
    have split : ((notice :: notices).map fun notice => notice.event.encode).forM
        ProcMonitor.handleEvent = ProcMonitor.handleEvent notice.event.encode >>= fun _ =>
          (notices.map fun notice => notice.event.encode).forM ProcMonitor.handleEvent := rfl
    rw [split, Program.wp_bind]
    exact Program.wp_mono (handleEvent_accounted accounted) fun _ after reached => ih reached

/-- One round of the loop accounts for the records it reads. -/
theorem monitorRound_accounted (accounted : Accounted [] world) :
    (ProcMonitor.monitorRound ()).wp machine.withSpin (fun _ after => Accounted [] after) world := by
  rw [ProcMonitor.monitorRound, Program.wp_bind, Looping.wp_op]
  intro running loaded stepped
  obtain ⟨middle, outside, same⟩ := stepped
  obtain rfl : loaded = middle := same
  have now := accounted.outsides outside
  rw [Program.wp_ite]
  split
  · rw [Program.wp_bind, Looping.wp_op]
    intro polled afterPoll stepped
    obtain ⟨middle, outside, same⟩ := stepped
    obtain rfl : afterPoll = middle := same
    replace now := now.outsides outside
    cases polled with
    | interrupted | nothing | failed | broken => exact now
    | stopSignal =>
      rw [Program.wp_bind, Looping.wp_op]
      intro _ consumed stepped
      obtain ⟨middle, outside, same⟩ := stepped
      obtain rfl : consumed = middle := same
      exact now.outsides outside
    | readable =>
      rw [Program.wp_bind, Looping.wp_op]
      intro read afterRead stepped
      obtain ⟨middle, outside, answered⟩ := stepped
      replace now := now.outsides outside
      cases read with
      | again | failed =>
        obtain rfl : afterRead = middle := answered
        exact now
      | bytes buffer =>
        obtain ⟨notices, rest, split, rfl, rfl⟩ := answered
        have whole : ∀ record ∈ notices.map fun notice => notice.event.encode,
            Inotify.framing.IsRecord record := by
          intro record member
          obtain ⟨notice, -, rfl⟩ := List.mem_map.mp member
          exact notice.event.isRecord_encode
        have buffered : notices.flatMap (fun notice => notice.event.encode) =
            (notices.map fun notice => notice.event.encode).flatten ++ [] := by
          rw [List.append_nil, List.flatMap_def]
        have taken : Accounted (notices ++ []) { middle with
            queue := rest, consumed := middle.consumed ++ notices } := by
          obtain ⟨⟨handled, read, arrived, rescan⟩, honest, reached, idle⟩ := now
          rw [List.append_nil] at read ⊢
          refine ⟨⟨handled, by rw [read], arrived, rescan⟩, ?_, reached, idle⟩
          rw [split, ← List.append_assoc] at honest
          exact honest
        have ended : Inotify.framing.Incomplete [] := .inl (by decide)
        have walked := Framing.forEach_flatten ProcMonitor.handleEvent whole ended
          (Nat.le_refl _)
        rw [buffered]
        dsimp only
        rw [walked]
        simp only [Program.wp_bind]
        exact forM_accounted taken
  · exact now

/-- The monitor's thread accounts for every record, whenever it ends. -/
theorem monitorLoop_accounted (fuel : Nat) (accounted : Accounted [] world) :
    (ProcMonitor.monitorLoop fuel).wp machine.withSpin (fun _ after => Accounted [] after)
      world := by
  have looped : (Looping.loop ProcMonitor.monitorRound fuel ()).wp machine.withSpin
      (fun _ after => Accounted [] after) world := by
    refine Looping.wp_loop (fun _ state => Accounted [] state) ?_ fuel accounted
    intro _ state holds
    refine Program.wp_mono (monitorRound_accounted holds) fun outcome after reached => ?_
    cases outcome <;> exact reached
  rw [ProcMonitor.monitorLoop, Program.wp_bind]
  refine Program.wp_mono looped fun _ state reached => ?_
  rw [Looping.wp_op]
  intro _ after stepped
  obtain ⟨middle, outside, same⟩ := stepped
  obtain rfl : after = middle := same
  exact reached.outsides outside

/-! ## Nothing is lost silently -/

/-- Nothing was dropped from the batches of a router none of whose calls tells so. -/
theorem history_eq_arrived {flushes : List Flush}
    (exact : ∀ earlier flush later, flushes = earlier ++ flush :: later →
      flush.Exact (history earlier))
    (kept : ∀ call ∈ RouterSession.handlerCalls flushes, call.eventsDropped = false) :
    history flushes = arrivedHistory flushes := by
  have each : ∀ flush ∈ flushes, accepted flush.arrivals = arrived flush.arrivals := by
    intro flush member
    obtain ⟨earlier, later, split⟩ := List.append_of_mem member
    have none : ∀ arrival ∈ flush.arrivals, arrival.admission ≠ .dropped := by
      intro arrival listed dropped
      have told := (exact earlier flush later split).dropped.mpr ⟨arrival, listed, dropped⟩
      have made : flush.call.isMade = true := by simp [HandlerCall.isMade, told]
      have called : flush.call ∈ RouterSession.handlerCalls flushes :=
        List.mem_filter.mpr ⟨List.mem_map_of_mem member, made⟩
      rw [kept _ called] at told
      exact Bool.false_ne_true told
    rw [accepted, arrived]
    refine congrArg _ (List.filter_congr fun arrival listed => ?_)
    have notDropped := none arrival listed
    cases found : arrival.admission with
    | ignored => simp
    | accepted => simp
    | dropped => exact absurd found notDropped
  rw [history, arrivedHistory, List.flatMap_def, List.flatMap_def, List.map_congr_left each]

/-- In every run of the monitor's loop, whatever happens meanwhile, the router sees what the records
tell, in their order and once. When every record is read and every batch delivered, a full scan was
asked for, or the handler was told that events were dropped, or the processes the handler was told
of are those that were created last. -/
theorem run_accounted {fuel : Nat}
    (run : Program.Run machine.withSpin (ProcMonitor.monitorLoop fuel) {} () after) :
    after.session.seen = changesOf after.consumed ∧
      (after.queue = [] → after.session.phase = .waiting → after.session.arrivals = [] →
        after.rescanRequested = true ∨
        (∃ call ∈ RouterSession.handlerCalls after.session.flushes, call.eventsDropped = true) ∨
        ∀ pid, pid ∈ RouterSession.consumer (RouterSession.handlerCalls after.session.flushes) ↔
          lastEvent pid after.happened = some true) := by
  obtain ⟨⟨handled, read, seen, rescan⟩, honest, reached, idle⟩ :=
    run.post (monitorLoop_accounted fuel accounted_initial)
  rw [List.append_nil] at read
  rw [← read] at seen rescan
  refine ⟨seen, fun emptied waiting flushed => ?_⟩
  have exact := @(RouterSession.Consistent.of_reachable reached).flushed
  by_cases requested : after.rescanRequested = true
  · exact .inl requested
  · refine .inr ?_
    by_cases told : ∃ call ∈ RouterSession.handlerCalls after.session.flushes,
        call.eventsDropped = true
    · exact .inl told
    · have kept : ∀ call ∈ RouterSession.handlerCalls after.session.flushes,
          call.eventsDropped = false := by
        intro call member
        rw [Bool.eq_false_iff]
        exact fun dropped => told ⟨call, member, dropped⟩
      have noOverflow : ∀ notice ∈ after.consumed ++ after.queue, notice.kind ≠ .overflow := by
        intro notice member overflow
        rw [emptied, List.append_nil] at member
        exact requested (rescan.mpr ⟨notice, member, overflow⟩)
      have happened : after.happened = history after.session.flushes := by
        have all := honest noOverflow
        rw [emptied, List.append_nil, ← seen, RouterSession.seen, idle waiting, flushed] at all
        rw [all, history_eq_arrived (fun _ _ _ => exact) kept]
        simp [arrived]
      refine .inr fun pid => ?_
      rw [happened]
      exact RouterSession.mem_consumer (fun _ _ _ => exact) pid

/-- A process is created. -/
def created : Notice where
  event := ⟨1, 0x40000100, 0, Bytes.natural 5, 15, by decide, by decide, by decide⟩
  kind := .process ⟨5, true⟩
  tells := by
    have named : Bytes.natural 5 = Bytes.natural (5 : Int).toNat := rfl
    exact ⟨by decide, by decide, by decide, named, by decide, by decide⟩

/-- A step that moves the router's thread is its own. -/
theorem threadStep_of_phase {session next : RouterSession}
    (step : RouterSession.Step session next) (moved : next.phase ≠ session.phase) :
    RouterSession.ThreadStep session next := by
  refine ⟨step, fun event same => moved ?_⟩
  rw [same]
  rfl

/-- Whether the router's thread waits. -/
def isWaiting : LoopPhase → Bool
  | .waiting => true
  | .exchanged _ _ | .classified _ => false

/-- The router's thread delivers what is pending. -/
theorem outside_flush (waits : isWaiting world.session.phase = true)
    (ready : world.session.router.hasWork = true) :
    Relation.ReflTransGen Outside world { world with session := world.session.flush } := by
  have waiting : world.session.phase = .waiting := by
    cases phase : world.session.phase with
    | waiting => rfl
    | exchanged events dropped => simp [phase, isWaiting] at waits
    | classified call => simp [phase, isWaiting] at waits
  let call := world.session.exchange.router.classify world.session.router.pendingEvents
    world.session.router.eventsDropped
  let sorted : RouterSession :=
    { world.session.exchange with router := call.2, phase := .classified call.1 }
  have take : RouterSession.ThreadStep world.session world.session.exchange := by
    refine threadStep_of_phase (.exchange waiting ready) ?_
    rw [waiting]
    exact LoopPhase.noConfusion
  have sort : RouterSession.ThreadStep world.session.exchange sorted :=
    threadStep_of_phase (.classify rfl) LoopPhase.noConfusion
  have tell : RouterSession.ThreadStep sorted world.session.flush :=
    threadStep_of_phase (.deliver rfl) LoopPhase.noConfusion
  have first := Relation.ReflTransGen.single (Outside.router world _ take)
  have second := first.tail (.router { world with session := world.session.exchange } sorted sort)
  exact second.tail (.router { world with session := sorted } _ tell)

/-- Answers under which a process is created, its record is read, and its batch is delivered before
the monitor is stopped. -/
def respondCreated (world : EventWorld) :
    (operation : MonitorOp) → Option (MonitorSig.Res operation × EventWorld)
  | .running =>
    if world.consumed.isEmpty then
      some (true, { world with
        queue := world.queue ++ [created], happened := world.happened ++ created.kind.changes })
    else if isWaiting world.session.phase && world.session.router.hasWork then
      some (false, { world with session := world.session.flush })
    else none
  | .poll => some (.readable, world)
  | .read =>
    some (.bytes (world.queue.flatMap fun notice => notice.event.encode),
      { world with queue := [], consumed := world.consumed ++ world.queue })
  | .onProcessChange pid => some ((), { world with session := world.session.reportChange pid })
  | .onEventsDropped => some ((), { world with rescanRequested := true })
  | .consumeStop | .finish => some ((), world)

/-- Such answers are possible. -/
theorem step_of_respondCreated {operation : MonitorOp} {response : MonitorSig.Res operation}
    (answered : respondCreated world operation = some (response, after)) :
    machine.step world operation response after := by
  cases operation with
  | running =>
    rw [respondCreated] at answered
    split at answered
    · cases answered
      exact ⟨_, .single (.queued world created (by decide)), rfl⟩
    · split at answered
      · next ready =>
        cases answered
        rw [Bool.and_eq_true] at ready
        exact ⟨_, outside_flush ready.1 ready.2, rfl⟩
      · cases answered
  | read =>
    cases answered
    exact ⟨world, .refl, world.queue, [], (List.append_nil _).symm, rfl, rfl⟩
  | poll | onProcessChange | onEventsDropped | consumeStop | finish =>
    cases answered
    exact ⟨world, .refl, rfl⟩

theorem run_accounted_created : ∃ after,
    Program.Run machine.withSpin (ProcMonitor.monitorLoop 2) {} () after ∧
      after.happened = [⟨5, true⟩] ∧
      5 ∈ RouterSession.consumer (RouterSession.handlerCalls after.session.flushes) := by
  have executed : ((ProcMonitor.monitorLoop 2).exec (Looping.respondWithSpin respondCreated)
      {}).map (fun found => (found.2.queue.isEmpty, isWaiting found.2.session.phase,
        found.2.session.arrivals.isEmpty, found.2.rescanRequested,
        (RouterSession.handlerCalls found.2.session.flushes).any HandlerCall.eventsDropped,
        found.2.happened)) = some (true, true, true, false, false, [⟨5, true⟩]) := by
    rfl
  obtain ⟨⟨result, after⟩, ran, same⟩ := Option.map_eq_some_iff.mp executed
  simp only [Prod.mk.injEq, List.isEmpty_iff] at same
  obtain ⟨emptied, waits, flushed, noRescan, noDrop, happened⟩ := same
  have run := Looping.run_of_exec step_of_respondCreated ran
  have waiting : after.session.phase = .waiting := by
    cases phase : after.session.phase with
    | waiting => rfl
    | exchanged events dropped => simp [phase, isWaiting] at waits
    | classified call => simp [phase, isWaiting] at waits
  refine ⟨after, run, happened, ?_⟩
  rcases (run_accounted run).2 emptied waiting flushed with rescan | ⟨call, member, dropped⟩ | told
  · rw [noRescan] at rescan
    exact absurd rescan Bool.false_ne_true
  · have none := List.any_eq_false.mp noDrop call member
    exact absurd dropped none
  · refine (told 5).mpr ?_
    rw [happened]
    rfl

end EventWorld

end ReUperf
