import ReUperf.Lib.Slot
import ReUperf.Main.Dispatch

/-!
# Identities of dispatched tasks

A dispatch reads the name of a process, then its start time, then its command line, and for each
thread its name before its start time; a call that runs out of budget may lie between any two
reads. Processes and threads end meanwhile, and their IDs are given to others. The module proves
that the start time, the command line and the final check of a task belong together in every run,
and that the two names do when no ID is given away between the read of a name and the read of the
start time that follows it.
-/

namespace ReUperf

open Effect FileUtils Main

/-! ## The machine -/

/-- Something read of a process or a thread, and of which one. -/
structure SlotRead where
  /-- What was read. -/
  value : Bytes := []
  /-- The process or thread it was read of. -/
  slot : Slot := ⟨0, false⟩
  deriving DecidableEq

/-- A task handed over, with the reads its texts come from. -/
structure SentTask where
  /-- The task. -/
  task : DispatchTask
  /-- The last name read of a process. -/
  processName : SlotRead
  /-- The last command line read of a process. -/
  cmdline : SlotRead
  /-- The last name read of a thread. -/
  threadName : SlotRead
  deriving DecidableEq

/-- The texts of the task were read of the process and of the thread with its start times. -/
structure SentTask.Unmixed (sent : SentTask) : Prop where
  /-- The name of the process. -/
  processName : sent.processName =
    ⟨sent.task.procName, ⟨sent.task.identity.processStartTime, true⟩⟩
  /-- The command line of the process. -/
  cmdline : sent.cmdline = ⟨sent.task.cmdline, ⟨sent.task.identity.processStartTime, true⟩⟩
  /-- The name of the thread. -/
  threadName : sent.threadName =
    ⟨sent.task.threadName, ⟨sent.task.identity.threadStartTime, true⟩⟩

/-- Processes and threads that come and go, and what a dispatch has read of them. -/
structure ReuseWorld where
  /-- The process with an ID. -/
  process : Int → Slot
  /-- The thread of a process with an ID. -/
  thread : Int → Int → Slot
  /-- The last name read of a process. -/
  processName : SlotRead := {}
  /-- The last command line read of a process. -/
  cmdline : SlotRead := {}
  /-- The last name read of a thread. -/
  threadName : SlotRead := {}
  /-- The process whose name was read last while its start time was not, and its start. -/
  processPending : Option (Int × Nat) := none
  /-- The thread whose name was read last while its start time was not, and its start. -/
  threadPending : Option ((Int × Int) × Nat) := none
  /-- The tasks handed over. -/
  sent : List SentTask := []

namespace ReuseWorld

/-- The process or thread is still to be told by its start time. -/
def pendingOf {α : Type} (key : α) (slot : Slot) : Option (α × Nat) :=
  if slot.alive then some (key, slot.start) else none

/-- Processes and threads come and go. -/
structure Moves (world after : ReuseWorld) : Prop where
  /-- Processes. -/
  process : ∀ pid, Slot.Later (world.process pid) (after.process pid)
  /-- Threads. -/
  thread : ∀ pid tid, Slot.Later (world.thread pid tid) (after.thread pid tid)
  /-- What was read stays. -/
  same : after = { world with process := after.process, thread := after.thread }

/-- What a file of a process or thread may contain: what is gone has none. -/
def Reads (slot : Slot) (missing text : Bytes) : Prop := slot.alive = false → text = missing

/-- What a start time may be read as: zero when it cannot be read. -/
def ReadsStart (slot : Slot) (start : Nat) : Prop :=
  start = 0 ∨ (slot.alive = true ∧ start = slot.start)

/-- One operation of a dispatch. -/
def Op : ReuseWorld → (operation : DispatchOp) → DispatchSig.Res operation → ReuseWorld → Prop
  | world, .processName pid, response, after =>
    Reads (world.process pid) deadName response ∧ after = { world with
      processName := ⟨response, world.process pid⟩
      processPending := pendingOf pid (world.process pid) }
  | world, .processStartTime pid, response, after =>
    ReadsStart (world.process pid) response ∧ after = { world with processPending := none }
  | world, .processCmdline pid, response, after =>
    Reads (world.process pid) [] response ∧
      after = { world with cmdline := ⟨response, world.process pid⟩ }
  | world, .threadName pid tid, response, after =>
    Reads (world.thread pid tid) deadName response ∧ after = { world with
      threadName := ⟨response, world.thread pid tid⟩
      threadPending := pendingOf (pid, tid) (world.thread pid tid) }
  | world, .threadStartTime pid tid, response, after =>
    ReadsStart (world.thread pid tid) response ∧ after = { world with threadPending := none }
  | world, .enqueue _ task, _, after => after = { world with
      sent := world.sent ++ [⟨task, world.processName, world.cmdline, world.threadName⟩] }
  | world, _, _, after => after = world

/-- A read finds the process or thread whose name was read before: the start time that follows a
name is read before the ID is given to another one. -/
def Undisturbed (world : ReuseWorld) : DispatchOp → Prop
  | .processStartTime pid => ∀ pending ∈ world.processPending, pending.1 = pid →
    (world.process pid).start = pending.2
  | .threadStartTime pid tid => ∀ pending ∈ world.threadPending, pending.1 = (pid, tid) →
    (world.thread pid tid).start = pending.2
  | _ => True

instance (world : ReuseWorld) : DecidablePred world.Undisturbed := fun operation => by
  cases operation <;> unfold Undisturbed <;> infer_instance

/-- The machine of a dispatch while processes and threads come and go. Operations are only
performed where they are allowed. -/
def machine (allowed : ReuseWorld → DispatchOp → Prop) : Machine DispatchSig ReuseWorld where
  step world operation response after :=
    ∃ moved, world.Moves moved ∧ allowed moved operation ∧ moved.Op operation response after

/-- The states that calls of a dispatch with one cursor can reach. The set of processes, the
dispatched threads and everything else a call is given may change from call to call, and the main
loop may reset the cursor. -/
inductive Reaches (allowed : ReuseWorld → DispatchOp → Prop) (world : ReuseWorld) :
    ScanCursor → ReuseWorld → Prop where
  /-- No call. -/
  | start : Reaches allowed world {} world
  /-- One more call. -/
  | call {cursor : ScanCursor} {middle after : ReuseWorld} {request : DispatchRequest} {fuel : Nat}
      {processed : Finset Int} {found : Bool × DispatchState}
      (reached : Reaches allowed world cursor middle)
      (run : Program.Run (machine allowed).withSpin
        (dispatchPidsToWorkers request fuel ⟨cursor, processed⟩) middle found after) :
      Reaches allowed world found.2.cursor after
  /-- The cursor is reset. -/
  | reset {cursor next : ScanCursor} {middle after : ReuseWorld}
      (reached : Reaches allowed world cursor middle)
      (run : Program.Run (machine allowed).withSpin cursor.reset middle next after) :
      Reaches allowed world next after

variable {world after : ReuseWorld} {cursor : ScanCursor}

theorem Moves.processName_eq (moves : world.Moves after) :
    after.processName = world.processName := by rw [moves.same]

theorem Moves.cmdline_eq (moves : world.Moves after) : after.cmdline = world.cmdline := by
  rw [moves.same]

theorem Moves.threadName_eq (moves : world.Moves after) :
    after.threadName = world.threadName := by rw [moves.same]

theorem Moves.processPending_eq (moves : world.Moves after) :
    after.processPending = world.processPending := by rw [moves.same]

theorem Moves.threadPending_eq (moves : world.Moves after) :
    after.threadPending = world.threadPending := by rw [moves.same]

theorem Moves.sent_eq (moves : world.Moves after) : after.sent = world.sent := by rw [moves.same]

/-! ## What a cursor holds -/

/-- What a cursor holds was read of one process, or the reads are not finished. -/
structure Account (world : ReuseWorld) (cursor : ScanCursor) : Prop where
  /-- The start time is yet to be read. -/
  pending : cursor.processNameLoaded = true → cursor.processStartTimeLoaded = false →
    cursor.processName ≠ deadName → ∃ start,
      world.processName = ⟨cursor.processName, ⟨start, true⟩⟩ ∧
        world.processPending = some (cursor.pid, start)
  /-- The name is the name of the process with the start time. -/
  named : cursor.processStartTimeLoaded = true → cursor.processStartTime ≠ 0 →
    world.processName = ⟨cursor.processName, ⟨cursor.processStartTime, true⟩⟩
  /-- The process with the start time had the ID. -/
  started : cursor.processStartTimeLoaded = true → cursor.processStartTime ≠ 0 →
    Slot.Later ⟨cursor.processStartTime, true⟩ (world.process cursor.pid)
  /-- The command line was read later. -/
  commanded : cursor.cmdlineLoaded = true → ∃ slot, world.cmdline = ⟨cursor.cmdline, slot⟩ ∧
    Slot.Later ⟨cursor.processStartTime, true⟩ slot ∧ Slot.Later slot (world.process cursor.pid)
  /-- The start time is read after the name. -/
  startLast : cursor.processStartTimeLoaded = true → cursor.processNameLoaded = true
  /-- The command line is read after the start time. -/
  cmdlineLast : cursor.cmdlineLoaded = true →
    cursor.processStartTimeLoaded = true ∧ cursor.processStartTime ≠ 0

/-- Every task handed over belongs to one process and one thread. -/
def AllUnmixed (world : ReuseWorld) : Prop := ∀ sent ∈ world.sent, sent.Unmixed

/-- What holds between two operations. -/
structure Holds (world : ReuseWorld) (cursor : ScanCursor) : Prop where
  /-- What the cursor holds. -/
  account : Account world cursor
  /-- The tasks handed over. -/
  unmixed : AllUnmixed world

/-- A fresh cursor holds nothing. -/
theorem account_fresh (world : ReuseWorld) (pid : Int) : Account world { pid := pid } := by
  constructor <;> simp

/-- Processes that come and go do not change what was read. -/
theorem Account.moves (account : Account world cursor) (moves : world.Moves after) :
    Account after cursor where
  pending named unstarted alive := by
    rw [moves.processName_eq, moves.processPending_eq]
    exact account.pending named unstarted alive
  named started real := by
    rw [moves.processName_eq]
    exact account.named started real
  started started real := (account.started started real).trans (moves.process _)
  commanded loaded := by
    obtain ⟨slot, same, before, later⟩ := account.commanded loaded
    rw [moves.cmdline_eq]
    exact ⟨slot, same, before, later.trans (moves.process _)⟩
  startLast := account.startLast
  cmdlineLast := account.cmdlineLast

/-- Processes that come and go change no task. -/
theorem Holds.moves (holds : Holds world cursor) (moves : world.Moves after) :
    Holds after cursor where
  account := holds.account.moves moves
  unmixed := by
    rw [AllUnmixed, moves.sent_eq]
    exact holds.unmixed

/-- Only the reads of the process matter to what a cursor holds, and the pending name only until the
start time is read. -/
theorem Account.congr (account : Account world cursor) (process : after.process = world.process)
    (name : after.processName = world.processName) (cmdline : after.cmdline = world.cmdline)
    (pending : cursor.processStartTimeLoaded = true ∨
      after.processPending = world.processPending) : Account after cursor where
  pending named unstarted alive := by
    rcases pending with started | same
    · rw [started] at unstarted
      cases unstarted
    · rw [name, same]
      exact account.pending named unstarted alive
  named := by
    rw [name]
    exact account.named
  started := by
    rw [process]
    exact account.started
  commanded := by
    rw [process, cmdline]
    exact account.commanded
  startLast := account.startLast
  cmdlineLast := account.cmdlineLast

/-- The list of threads and the position in it say nothing about the process. -/
theorem Holds.relist (holds : Holds world cursor) (taskDir : Option Nat) (complete : Bool)
    (tids : List Int) (position : Nat) : Holds world { cursor with
      taskDir := taskDir, tidEnumerationComplete := complete, tids := tids
      tidIndex := position } where
  account :=
    { pending := holds.account.pending
      named := holds.account.named
      started := holds.account.started
      commanded := holds.account.commanded
      startLast := holds.account.startLast
      cmdlineLast := holds.account.cmdlineLast }
  unmixed := holds.unmixed

/-! ## Operations -/

/-- An operation that neither reads a process or thread nor hands over a task. -/
def isQuiet : DispatchOp → Bool
  | .exhausted | .afterThreadRead | .openTask _ | .readDir _ | .closeDir _ | .requestRescan => true
  | _ => false

/-- A quiet operation only lets processes come and go. -/
theorem wp_quiet {operation : DispatchOp} (quiet : isQuiet operation = true)
    {allowed : ReuseWorld → DispatchOp → Prop}
    {post : DispatchSig.Res operation → ReuseWorld → Prop}
    (next : ∀ response after, world.Moves after → post response after) :
    (dispatchOp operation).wp (machine allowed).withSpin post world := by
  rintro response after ⟨moved, moves, -, performed⟩
  have same : after = moved := by
    cases operation <;> first | exact performed | cases quiet
  rw [same]
  exact next response moved moves

/-- Forgetting the process. -/
theorem wp_reset {post : ScanCursor → ReuseWorld → Prop} (unmixed : AllUnmixed world)
    (next : ∀ after, AllUnmixed after → post {} after) :
    cursor.reset.wp (machine Undisturbed).withSpin post world := by
  unfold ScanCursor.reset
  cases cursor.taskDir with
  | none => exact next world unmixed
  | some handle =>
    refine wp_quiet rfl fun _ after moves => next after ?_
    rw [AllUnmixed, moves.sent_eq]
    exact unmixed

/-- A cursor that is reset is in order. -/
theorem wp_reset_holds (cursor : ScanCursor) (unmixed : AllUnmixed world) :
    cursor.reset.wp (machine Undisturbed).withSpin (fun next after => Holds after next) world :=
  wp_reset unmixed fun after unmixed => ⟨account_fresh after 0, unmixed⟩

/-- Listing the threads reads nothing of the process. -/
theorem wp_enumerateTids (fuel : Nat) (holds : Holds world cursor) :
    (cursor.enumerateTids fuel).wp (machine Undisturbed).withSpin
      (fun found after => Holds after found.2) world := by
  have reads : ∀ (handle : Nat) {cursor : ScanCursor} {world : ReuseWorld}, Holds world cursor →
      (Looping.loop (ScanCursor.readTid handle) fuel cursor).wp (machine Undisturbed).withSpin
        (fun found after => Holds after found.2) world := by
    intro handle cursor world holds
    refine Looping.wp_loop (fun current state => Holds state current) ?_ fuel holds
    intro current state holds
    rw [ScanCursor.readTid, Program.wp_bind]
    refine wp_quiet rfl fun ended after moves => ?_
    have holds := holds.moves moves
    split
    · exact holds
    rw [Program.wp_bind]
    refine wp_quiet rfl fun entry after moves => ?_
    have holds := holds.moves moves
    cases entry with
    | finished =>
      rw [Program.wp_bind]
      exact wp_quiet rfl fun _ after moves => (holds.moves moves).relist _ _ _ _
    | failed =>
      rw [Program.wp_bind]
      exact wp_quiet rfl fun _ after moves => (holds.moves moves).relist _ _ _ _
    | name text =>
      rw [Program.wp_bind]
      refine wp_quiet rfl fun _ after moves => ?_
      have holds := holds.moves moves
      cases FileUtils.parseId text with
      | none => exact holds
      | some tid => exact holds.relist _ _ _ _
  unfold ScanCursor.enumerateTids
  split
  · exact holds
  split
  · exact holds
  cases cursor.taskDir with
  | some handle => exact reads handle holds
  | none =>
    rw [Program.wp_bind]
    refine wp_quiet rfl fun opened after moves => ?_
    have holds := holds.moves moves
    cases opened with
    | none => exact holds.relist _ _ _ _
    | some handle => exact reads handle (holds.relist _ _ _ _)

/-- Reading the name of the process. -/
theorem wp_loadName (holds : Holds world cursor) :
    (loadName cursor).wp (machine Undisturbed).withSpin
      (fun next after => Holds after next ∧ next.processNameLoaded = true) world := by
  unfold loadName
  split
  · next loaded => exact ⟨holds, loaded⟩
  next unread =>
  have fresh : cursor.processStartTimeLoaded ≠ true :=
    fun started => unread (holds.account.startLast started)
  rw [Program.wp_bind]
  rintro name middle ⟨moved, moves, -, truthful, rfl⟩
  rw [Program.wp_ret, Program.wp_bind]
  refine wp_quiet rfl fun _ after moves' => ⟨?_, rfl⟩
  have holds := holds.moves moves
  refine Holds.moves (?_ : Holds _ _) moves'
  refine ⟨?_, holds.unmixed⟩
  constructor
  · intro _ _ alive
    have living : (moved.process cursor.pid).alive = true := by
      by_contra gone
      exact alive (truthful (by simpa using gone))
    refine ⟨(moved.process cursor.pid).start, ?_, if_pos living⟩
    exact congrArg (SlotRead.mk name) (Slot.eq_of_alive living)
  · exact fun started => absurd started fresh
  · exact fun started => absurd started fresh
  · exact fun loaded => absurd (holds.account.cmdlineLast loaded).1 fresh
  · exact fun _ => rfl
  · exact fun loaded => absurd (holds.account.cmdlineLast loaded).1 fresh

/-- A start time that is read is the start of a living process. -/
theorem ReadsStart.slot_eq {slot : Slot} {start : Nat} (reads : ReadsStart slot start)
    (real : start ≠ 0) : slot = ⟨start, true⟩ := by
  obtain ⟨alive, same⟩ := reads.resolve_left real
  rw [same]
  exact Slot.eq_of_alive alive

/-- Reading a start time of a process: zero, or the start of the process with the ID. The pending
name belongs to it. -/
theorem wp_processStartTime {pid : Int} {post : Nat → ReuseWorld → Prop}
    (missing : post 0 world)
    (next : ∀ start moved, world.Moves moved → ReadsStart (moved.process pid) start →
      moved.Undisturbed (.processStartTime pid) →
      post start { moved with processPending := none }) :
    (Main.processStartTime pid).wp (machine Undisturbed).withSpin post world := by
  unfold Main.processStartTime
  split
  · rintro start after ⟨moved, moves, undisturbed, reads, rfl⟩
    exact next start moved moves reads undisturbed
  · exact missing

/-- Reading the start time of the process after its name. -/
theorem wp_loadStartTime (holds : Holds world cursor) (named : cursor.processNameLoaded = true)
    (alive : cursor.processName ≠ deadName) :
    (loadStartTime cursor).wp (machine Undisturbed).withSpin
      (fun next after => Holds after next ∧ next.processStartTimeLoaded = true) world := by
  unfold loadStartTime
  split
  · next loaded => exact ⟨holds, loaded⟩
  next unread =>
  have unread : cursor.processStartTimeLoaded = false := by simpa using unread
  have bare : cursor.cmdlineLoaded ≠ true := by
    intro loaded
    have started := (holds.account.cmdlineLast loaded).1
    rw [unread] at started
    cases started
  -- What is known once the start time is read, before the read is counted.
  have read : ∀ start (state : ReuseWorld), AllUnmixed state →
      (start ≠ 0 → state.processName = ⟨cursor.processName, ⟨start, true⟩⟩ ∧
        Slot.Later ⟨start, true⟩ (state.process cursor.pid)) →
      Holds state { cursor with processStartTime := start, processStartTimeLoaded := true } := by
    intro start state unmixed known
    refine ⟨?_, unmixed⟩
    constructor
    · intro _ impossible
      cases impossible
    · exact fun _ real => (known real).1
    · exact fun _ real => (known real).2
    · exact fun loaded => absurd loaded bare
    · exact fun _ => named
    · exact fun loaded => absurd loaded bare
  rw [Program.wp_bind]
  refine wp_processStartTime ?_ fun start moved moves reads undisturbed => ?_
  · rw [Program.wp_bind]
    refine wp_quiet rfl fun _ after moves => ⟨?_, rfl⟩
    exact (read 0 world holds.unmixed fun real => absurd rfl real).moves moves
  · rw [Program.wp_bind]
    refine wp_quiet rfl fun _ after moves' => ⟨?_, rfl⟩
    have holds := holds.moves moves
    refine (read start { moved with processPending := none } holds.unmixed fun real => ?_).moves
      moves'
    obtain ⟨begun, name, pending⟩ := holds.account.pending named unread alive
    have slot := reads.slot_eq real
    have same : start = begun := by
      have found := undisturbed (cursor.pid, begun) pending rfl
      rw [slot] at found
      exact found
    refine ⟨by rw [same]; exact name, ?_⟩
    rw [← slot]
    exact Slot.Later.refl _

/-- Reading the command line of the process after its start time. -/
theorem wp_loadCmdline (holds : Holds world cursor)
    (started : cursor.processStartTimeLoaded = true) (real : cursor.processStartTime ≠ 0) :
    (loadCmdline cursor).wp (machine Undisturbed).withSpin
      (fun next after => Holds after next ∧ next.cmdlineLoaded = true) world := by
  unfold loadCmdline
  split
  · next loaded => exact ⟨holds, loaded⟩
  rw [Program.wp_bind]
  rintro cmdline middle ⟨moved, moves, -, -, rfl⟩
  rw [Program.wp_ret, Program.wp_bind]
  refine wp_quiet rfl fun _ after moves' => ⟨?_, rfl⟩
  have holds := holds.moves moves
  refine Holds.moves (?_ : Holds _ _) moves'
  refine ⟨?_, holds.unmixed⟩
  constructor
  · exact holds.account.pending
  · exact holds.account.named
  · exact holds.account.started
  · exact fun _ => ⟨_, rfl, holds.account.started started real, Slot.Later.refl _⟩
  · exact holds.account.startLast
  · exact fun _ => ⟨started, real⟩

/-! ## One thread -/

/-- What is known of the process before its threads are dispatched. -/
structure Ready (cursor : ScanCursor) : Prop where
  /-- The name was read. -/
  named : cursor.processNameLoaded = true
  /-- The start time was read. -/
  started : cursor.processStartTimeLoaded = true
  /-- The process lived. -/
  real : cursor.processStartTime ≠ 0
  /-- The command line was read. -/
  commanded : cursor.cmdlineLoaded = true

/-- Reading the start time of a thread: zero, or the start of the thread with the ID. The pending
name belongs to it. -/
theorem wp_threadStartTime {pid tid : Int} {post : Nat → ReuseWorld → Prop}
    (missing : post 0 world)
    (next : ∀ start moved, world.Moves moved → ReadsStart (moved.thread pid tid) start →
      moved.Undisturbed (.threadStartTime pid tid) →
      post start { moved with threadPending := none }) :
    (Main.threadStartTime pid tid).wp (machine Undisturbed).withSpin post world := by
  unfold Main.threadStartTime
  split
  · rintro start after ⟨moved, moves, undisturbed, reads, rfl⟩
    exact next start moved moves reads undisturbed
  · exact missing

/-- Handing over a task. -/
theorem wp_enqueueTask {request : DispatchRequest} {task : DispatchTask}
    (holds : Holds world cursor)
    (unmixed : SentTask.Unmixed ⟨task, world.processName, world.cmdline, world.threadName⟩) :
    (enqueueTask request task).wp (machine Undisturbed).withSpin
      (fun _ after => Holds after cursor) world := by
  rw [enqueueTask, Program.wp_bind]
  rintro result middle ⟨moved, moves, -, rfl⟩
  rw [Program.wp_ret]
  have holds := holds.moves moves
  have sent : Holds { moved with
      sent := moved.sent ++ [⟨task, moved.processName, moved.cmdline, moved.threadName⟩] }
      cursor := by
    refine ⟨holds.account.congr rfl rfl rfl (.inr rfl), fun entry listed => ?_⟩
    rcases List.mem_append.mp listed with earlier | last
    · exact holds.unmixed entry earlier
    · rw [List.mem_singleton.mp last, moves.processName_eq, moves.cmdline_eq,
        moves.threadName_eq]
      exact unmixed
  cases result with
  | queued => exact sent
  | updated => exact sent
  | queueFull =>
    rw [Program.wp_bind]
    exact wp_quiet rfl fun _ after moves => sent.moves moves
  | stopped =>
    rw [Program.wp_bind]
    exact wp_quiet rfl fun _ after moves => sent.moves moves

/-- The task of a thread belongs to one process and one thread. -/
theorem wp_dispatchThread {request : DispatchRequest} {tid : Int} (holds : Holds world cursor)
    (ready : Ready cursor) :
    (dispatchThread request cursor tid).wp (machine Undisturbed).withSpin
      (fun _ after => Holds after cursor) world := by
  rw [dispatchThread, Program.wp_bind]
  rintro name middle ⟨moved, moves, -, truthful, rfl⟩
  rw [Program.wp_ret, Program.wp_bind]
  have holds := holds.moves moves
  have holds : Holds { moved with
      threadName := ⟨name, moved.thread cursor.pid tid⟩
      threadPending := pendingOf (cursor.pid, tid) (moved.thread cursor.pid tid) } cursor :=
    ⟨holds.account.congr rfl rfl rfl (.inr rfl), holds.unmixed⟩
  refine wp_quiet rfl fun _ world counted => ?_
  have holds := holds.moves counted
  split
  · exact holds
  next alive =>
  have living : (moved.thread cursor.pid tid).alive = true := by
    by_contra gone
    exact alive (truthful (by simpa using gone))
  have threadName : world.threadName =
      ⟨name, ⟨(moved.thread cursor.pid tid).start, true⟩⟩ := by
    rw [counted.threadName_eq]
    exact congrArg (SlotRead.mk name) (Slot.eq_of_alive living)
  have pending : world.threadPending =
      some ((cursor.pid, tid), (moved.thread cursor.pid tid).start) := by
    rw [counted.threadPending_eq]
    exact if_pos living
  generalize (moved.thread cursor.pid tid).start = begun at threadName pending
  rw [Program.wp_bind]
  refine wp_quiet rfl fun ended next moves => ?_
  have holds := holds.moves moves
  rw [← moves.threadName_eq] at threadName
  rw [← moves.threadPending_eq] at pending
  split
  · exact holds
  rw [Program.wp_bind]
  refine wp_threadStartTime ?_ fun start moved moves reads undisturbed => ?_
  · rw [Program.wp_bind]
    exact wp_quiet rfl fun _ after moves => holds.moves moves
  rw [Program.wp_bind]
  have holds := holds.moves moves
  have holds : Holds { moved with threadPending := none } cursor :=
    ⟨holds.account.congr rfl rfl rfl (.inr rfl), holds.unmixed⟩
  refine wp_quiet rfl fun _ world counted => ?_
  have holds := holds.moves counted
  split
  · exact holds
  next started =>
  have threadName : world.threadName = ⟨name, ⟨start, true⟩⟩ := by
    have same : start = begun := by
      have found := undisturbed ((cursor.pid, tid), begun)
        (moves.threadPending_eq.trans pending) rfl
      rw [reads.slot_eq started] at found
      exact found
    rw [counted.threadName_eq, same]
    exact moves.threadName_eq.trans threadName
  rw [Program.wp_bind]
  refine wp_processStartTime ?_ fun verified moved moves reads _ => ?_
  · rw [Program.wp_bind]
    refine wp_quiet rfl fun _ after moves => ?_
    rw [if_pos ready.real.symm]
    exact holds.moves moves
  rw [Program.wp_bind]
  have holds := holds.moves moves
  have holds : Holds { moved with processPending := none } cursor :=
    ⟨holds.account.congr rfl rfl rfl (.inl ready.started), holds.unmixed⟩
  refine wp_quiet rfl fun _ world counted => ?_
  have cmdline : world.cmdline = ⟨cursor.cmdline, ⟨cursor.processStartTime, true⟩⟩ ∨
      verified ≠ cursor.processStartTime := by
    by_cases same : verified = cursor.processStartTime
    · obtain ⟨slot, read, before, later⟩ := holds.account.commanded ready.commanded
      have slotNow := reads.slot_eq (by rw [same]; exact ready.real)
      rw [show moved.process cursor.pid = _ from slotNow, same] at later
      rw [before.between later] at read
      exact .inl (counted.cmdline_eq.trans read)
    · exact .inr same
  have holds := holds.moves counted
  split
  · exact holds
  next same =>
  have cmdline := cmdline.resolve_right same
  have processName := holds.account.named ready.started ready.real
  have threadName : world.threadName = ⟨name, ⟨start, true⟩⟩ := by
    rw [counted.threadName_eq]
    exact moves.threadName_eq.trans threadName
  rw [Program.wp_bind]
  refine wp_quiet rfl fun ended last moves => ?_
  have holds := holds.moves moves
  split
  · exact holds
  refine wp_enqueueTask holds ⟨?_, ?_, ?_⟩
  · exact moves.processName_eq.trans processName
  · exact moves.cmdline_eq.trans cmdline
  · exact moves.threadName_eq.trans threadName

/-! ## Many threads -/

/-- Dispatching the threads of a process keeps tasks and cursor in order. -/
theorem wp_dispatchTids {request : DispatchRequest} (tids : List Int) (dispatch : DispatchState)
    (holds : Holds world dispatch.cursor) (ready : Ready dispatch.cursor) :
    (dispatchTids request tids dispatch).wp (machine Undisturbed).withSpin
      (fun found after => Holds after found.2.cursor) world := by
  induction tids generalizing dispatch world with
  | nil => exact holds
  | cons tid rest ih =>
    have ready' : Ready { dispatch.cursor with tidIndex := dispatch.cursor.tidIndex + 1 } :=
      ⟨ready.named, ready.started, ready.real, ready.commanded⟩
    rw [dispatchTids, Program.wp_bind]
    refine wp_quiet rfl fun ended after moves => ?_
    have holds := holds.moves moves
    split
    · exact holds
    split
    · exact ih _ (holds.relist _ _ _ _) ready'
    rw [Program.wp_bind]
    refine Program.wp_mono (wp_dispatchThread holds ready) fun outcome after holds => ?_
    cases outcome with
    | skipped => exact ih _ (holds.relist _ _ _ _) ready'
    | sent => exact ih _ (holds.relist _ _ _ _) ready'
    | postponed => exact holds
    | lost =>
      rw [Program.wp_bind]
      refine wp_reset holds.unmixed fun after unmixed => ?_
      rw [Program.wp_bind]
      refine wp_quiet rfl fun _ after moves => ?_
      exact Holds.moves ⟨account_fresh _ 0, unmixed⟩ moves

/-- Dispatching a listed process keeps tasks and cursor in order. -/
theorem wp_dispatchListed {request : DispatchRequest} (dispatch : DispatchState)
    (holds : Holds world dispatch.cursor) :
    (dispatchListed request dispatch).wp (machine Undisturbed).withSpin
      (fun found after => Holds after found.2.cursor) world := by
  rw [dispatchListed, Program.wp_bind]
  refine Program.wp_mono (wp_loadName holds) fun cursor after reached => ?_
  obtain ⟨holds, named⟩ := reached
  split
  · exact holds
  next alive =>
  rw [Program.wp_bind]
  refine wp_quiet rfl fun ended after moves => ?_
  have holds := holds.moves moves
  split
  · exact holds
  rw [Program.wp_bind]
  refine Program.wp_mono (wp_loadStartTime holds named alive) fun cursor after reached => ?_
  obtain ⟨holds, started⟩ := reached
  split
  · exact holds
  next real =>
  rw [Program.wp_bind]
  refine wp_quiet rfl fun ended after moves => ?_
  have holds := holds.moves moves
  split
  · exact holds
  rw [Program.wp_bind]
  refine Program.wp_mono (wp_loadCmdline holds started real) fun cursor after reached => ?_
  obtain ⟨holds, commanded⟩ := reached
  obtain ⟨started, real⟩ := holds.account.cmdlineLast commanded
  have named := holds.account.startLast started
  exact wp_dispatchTids _ _ holds ⟨named, started, real, commanded⟩

/-- Dispatching a process keeps tasks and cursor in order. -/
theorem wp_dispatchPid {request : DispatchRequest} (fuel : Nat) (pid : Int)
    (dispatch : DispatchState) (holds : Holds world dispatch.cursor) :
    (dispatchPid request fuel pid dispatch).wp (machine Undisturbed).withSpin
      (fun found after => Holds after found.2.cursor) world := by
  have begun : (standAt dispatch.cursor pid).wp (machine Undisturbed).withSpin
      (fun cursor after => Holds after cursor) world := by
    unfold standAt
    split
    · rw [ScanCursor.beginPid, Program.wp_bind]
      exact wp_reset holds.unmixed fun after unmixed => ⟨account_fresh after pid, unmixed⟩
    · exact holds
  rw [dispatchPid, Program.wp_bind]
  refine Program.wp_mono begun fun cursor after holds => ?_
  rw [Program.wp_bind]
  refine Program.wp_mono (wp_enumerateTids fuel holds) fun found after holds => ?_
  obtain ⟨complete, cursor⟩ := found
  dsimp only
  split
  · exact holds
  rw [Program.wp_bind]
  refine wp_quiet rfl fun ended after moves => ?_
  have holds := holds.moves moves
  split
  · exact holds
  · exact wp_dispatchListed _ holds

/-- Dispatching processes keeps tasks and cursor in order. -/
theorem wp_dispatchPids {request : DispatchRequest} (fuel : Nat) (pids : List Int)
    (dispatch : DispatchState) (holds : Holds world dispatch.cursor) :
    (dispatchPids request fuel pids dispatch).wp (machine Undisturbed).withSpin
      (fun found after => Holds after found.2.cursor) world := by
  induction pids generalizing dispatch world with
  | nil => exact holds
  | cons pid rest ih =>
    rw [dispatchPids, Program.wp_bind]
    refine Program.wp_mono (wp_dispatchPid fuel pid dispatch holds) fun found after holds => ?_
    obtain ⟨stopped, next⟩ := found
    dsimp only
    split
    · exact holds
    rw [Program.wp_bind]
    refine wp_reset holds.unmixed fun after unmixed => ?_
    exact ih _ ⟨account_fresh after 0, unmixed⟩

/-- A call of a dispatch keeps tasks and cursor in order. -/
theorem wp_dispatchPidsToWorkers {request : DispatchRequest} (fuel : Nat)
    (dispatch : DispatchState) (holds : Holds world dispatch.cursor) :
    (dispatchPidsToWorkers request fuel dispatch).wp (machine Undisturbed).withSpin
      (fun found after => Holds after found.2.cursor) world := by
  rw [dispatchPidsToWorkers]
  split
  · rw [Program.wp_bind]
    exact wp_reset holds.unmixed fun after unmixed => ⟨account_fresh after 0, unmixed⟩
  split
  · rw [Program.wp_bind]
    exact wp_reset holds.unmixed fun after unmixed => ⟨account_fresh after 0, unmixed⟩
  rw [Program.wp_bind]
  unfold leaveGone
  split
  · refine wp_reset holds.unmixed fun after unmixed => ?_
    exact wp_dispatchPids fuel _ _ ⟨account_fresh after 0, unmixed⟩
  · exact wp_dispatchPids fuel _ _ holds

/-- Tasks and cursor are in order in every state. -/
theorem Reaches.holds (begun : world.sent = [])
    (reached : Reaches Undisturbed world cursor after) : Holds after cursor := by
  induction reached with
  | start =>
    refine ⟨account_fresh world 0, ?_⟩
    rw [AllUnmixed, begun]
    exact fun sent listed => absurd listed List.not_mem_nil
  | call reached run ih => exact run.post (wp_dispatchPidsToWorkers _ _ ih)
  | reset reached run ih =>
    exact run.post (wp_reset_holds _ ih.unmixed)

/-- In every run in which no ID is given to another process or thread between the read of its name
and the read of its start time, every task handed over has the texts of the process and of the
thread with its start times. -/
theorem unmixed_of_undisturbed (begun : world.sent = [])
    (reached : Reaches Undisturbed world cursor after) : AllUnmixed after :=
  (reached.holds begun).unmixed

/-! ## Two dispatches of one thread -/

/-- What one operation answers when nothing hinders the dispatch. A directory lists thread 7 until
that thread starts. -/
def perform (world : ReuseWorld) :
    (operation : DispatchOp) → Option (DispatchSig.Res operation × ReuseWorld)
  | .exhausted => some (false, world)
  | .afterThreadRead => some ((), world)
  | .openTask _ => some (some 0, world)
  | .readDir _ => some
    (if (world.thread 7 7).alive then .finished else .name (Bytes.ascii "7"), world)
  | .closeDir _ => some ((), world)
  | .processName pid => some (if (world.process pid).alive then Bytes.ascii "app" else deadName,
      { world with
        processName := ⟨if (world.process pid).alive then Bytes.ascii "app" else deadName,
          world.process pid⟩
        processPending := pendingOf pid (world.process pid) })
  | .processStartTime pid => some
    (if (world.process pid).alive then (world.process pid).start else 0,
      { world with processPending := none })
  | .processCmdline pid => some ([], { world with cmdline := ⟨[], world.process pid⟩ })
  | .threadName pid tid => some
    (if (world.thread pid tid).alive then Bytes.ascii "app" else deadName,
      { world with
        threadName := ⟨if (world.thread pid tid).alive then Bytes.ascii "app" else deadName,
          world.thread pid tid⟩
        threadPending := pendingOf (pid, tid) (world.thread pid tid) })
  | .threadStartTime pid tid => some
    (if (world.thread pid tid).alive then (world.thread pid tid).start else 0,
      { world with threadPending := none })
  | .enqueue _ task => some (.queued, { world with
      sent := world.sent ++ [⟨task, world.processName, world.cmdline, world.threadName⟩] })
  | .requestRescan => some ((), world)

/-- The answers are possible. -/
theorem op_of_perform {operation : DispatchOp} {response : DispatchSig.Res operation}
    (performed : world.perform operation = some (response, after)) :
    world.Op operation response after := by
  cases operation with
  | processStartTime pid | threadStartTime pid tid =>
    cases performed
    refine ⟨?_, rfl⟩
    split
    · next alive => exact .inr ⟨alive, rfl⟩
    · exact .inl rfl
  | processName pid | threadName pid tid =>
    cases performed
    refine ⟨fun gone => ?_, rfl⟩
    rw [gone, if_neg Bool.false_ne_true]
  | processCmdline pid =>
    cases performed
    exact ⟨fun _ => rfl, rfl⟩
  | _ =>
    cases performed
    exact rfl

/-- Thread 7 starts when a read is counted, and the process is replaced when its start time is
first looked for, if it is to be. -/
def scenario (replaced : Bool) (world : ReuseWorld) : DispatchOp → ReuseWorld
  | .afterThreadRead =>
    { world with thread := fun pid tid => if (world.thread pid tid).start = 0
        then ⟨5, true⟩ else world.thread pid tid }
  | .processStartTime _ =>
    { world with process := fun pid => if replaced && world.processPending.isSome
        then ⟨(world.process pid).start + 1, true⟩ else world.process pid }
  | _ => world

/-- Processes and threads may come and go so. -/
theorem moves_scenario (replaced : Bool) (world : ReuseWorld) (operation : DispatchOp) :
    world.Moves (scenario replaced world operation) := by
  have same : world.Moves world :=
    ⟨fun pid => Slot.Later.refl _, fun pid tid => Slot.Later.refl _, rfl⟩
  cases operation with
  | afterThreadRead =>
    refine ⟨fun pid => Slot.Later.refl _, fun pid tid => ?_, rfl⟩
    simp only [scenario]
    split
    · next fresh => exact .inl (by rw [fresh]; decide)
    · exact Slot.Later.refl _
  | processStartTime pid =>
    refine ⟨fun pid => ?_, fun pid tid => Slot.Later.refl _, rfl⟩
    simp only [scenario]
    split
    · exact .inl (Nat.lt_succ_self _)
    · exact Slot.Later.refl _
  | _ => exact same

/-- The answers in the scenario, where they are allowed. -/
def play (replaced : Bool) (allowed : ReuseWorld → DispatchOp → Prop)
    [∀ world, DecidablePred (allowed world)] (world : ReuseWorld) (operation : DispatchOp) :
    Option (DispatchSig.Res operation × ReuseWorld) :=
  if allowed (scenario replaced world operation) operation
  then (scenario replaced world operation).perform operation else none

/-- Process 7 lives, and its thread 7 has not started. -/
def beginning : ReuseWorld where
  process _ := ⟨1, true⟩
  thread _ _ := ⟨0, false⟩

/-- The dispatch of process 7. -/
def request : DispatchRequest := ⟨⟨fun _ => 0, fun _ => 0⟩, 4, {7}, .top, kCpusetBase⟩

/-- A call that ends in the scenario reaches its end. -/
theorem reaches_of_play {replaced : Bool} {allowed : ReuseWorld → DispatchOp → Prop}
    [∀ world, DecidablePred (allowed world)] {found : Bool × DispatchState} {after : ReuseWorld}
    (played : (dispatchPidsToWorkers request 3 {}).exec
      (Looping.respondWithSpin (play replaced allowed)) beginning = some (found, after)) :
    Reaches allowed beginning found.2.cursor after := by
  refine .call .start (Program.run_of_exec ?_ played)
  intro state operation response after answered
  cases operation with
  | none => exact response.elim
  | some operation =>
    have answered : play replaced allowed state operation = some (response, after) := answered
    unfold play at answered
    split at answered
    · next allowed => exact ⟨_, moves_scenario replaced state operation, allowed,
        op_of_perform answered⟩
    · cases answered

/-- Without a replaced process, one task is handed over, and it belongs to the process. -/
theorem unmixed_of_undisturbed_once : ∃ after : ReuseWorld,
    after.sent.map (fun sent => sent.task.identity) = [⟨7, 7, 1, 5⟩] ∧ AllUnmixed after := by
  have played : ((dispatchPidsToWorkers request 3 {}).exec
      (Looping.respondWithSpin (play false Undisturbed)) beginning).map
        (fun found => found.2.sent.map fun sent => sent.task.identity) = some [⟨7, 7, 1, 5⟩] := by
    decide +kernel
  obtain ⟨⟨found, after⟩, played, identities⟩ := Option.map_eq_some_iff.mp played
  exact ⟨after, identities, unmixed_of_undisturbed rfl (reaches_of_play played)⟩

/-- A process replaced between the read of its name and the read of its start time gets a task with
the name of the process before it. -/
theorem unmixed_fails : ¬ ∀ (world : ReuseWorld), world.sent = [] →
    ∀ (cursor : ScanCursor) (after : ReuseWorld),
      Reaches (fun _ _ => True) world cursor after → AllUnmixed after := by
  intro claim
  have played : ((dispatchPidsToWorkers request 3 {}).exec
      (Looping.respondWithSpin (play true fun _ _ => True)) beginning).map
        (fun found => found.2.sent.map fun sent =>
          (sent.processName.slot.start, sent.task.identity.processStartTime)) = some [(1, 2)] := by
    decide +kernel
  obtain ⟨⟨found, after⟩, played, starts⟩ := Option.map_eq_some_iff.mp played
  have unmixed := claim beginning rfl _ after (reaches_of_play played)
  obtain ⟨sent, listed, differ⟩ := List.map_eq_singleton_iff.mp starts
  have name := (unmixed sent (by rw [listed]; exact List.mem_singleton_self sent)).processName
  obtain ⟨old, new⟩ := Prod.mk.inj differ
  rw [name, new] at old
  cases old

end ReuseWorld

end ReUperf
