import ReUperf.Main.Cycle

/-!
# Dispatch on a fixed `/proc`

The machine on which the contents of `/proc` do not change while the budget and the workers'
queues answer at will. A dispatch on it may stop anywhere. The module proves that a cursor
keeps track of what was read, that a dispatch that reports nothing left has handed over every
live thread of its processes, and that whatever is kept by handing over one live thread is kept
by every dispatch.
-/

namespace ReUperf

open Effect FileUtils Main

/-- What `/proc` contains. -/
structure ProcContent where
  /-- The entries of the task directory of a process; nothing when it cannot be opened. -/
  tasks : Int → Option (List Bytes)
  /-- The name of a process. -/
  processName : Int → Bytes
  /-- The start time of a process. -/
  processStartTime : Int → Nat
  /-- The command line of a process. -/
  processCmdline : Int → Bytes
  /-- The name of a thread. -/
  threadName : Int → Int → Bytes
  /-- The start time of a thread. -/
  threadStartTime : Int → Int → Nat

namespace ProcContent

variable (proc : ProcContent)

/-- The threads listed for a process. -/
def threads (pid : Int) : List Int := ((proc.tasks pid).getD []).filterMap parseId

/-- The start time read for a process. -/
def startOf (pid : Int) : Nat := if isValidId pid then proc.processStartTime pid else 0

/-- The start time read for a thread. -/
def threadStartOf (pid tid : Int) : Nat :=
  if isValidId pid && isValidId tid then proc.threadStartTime pid tid else 0

/-- The identity of a thread. -/
def identity (pid tid : Int) : Identity :=
  ⟨pid, tid, proc.startOf pid, proc.threadStartOf pid tid⟩

/-- What `exhausted` may answer after a number of reads. -/
abbrev ExhaustionRule : Type := Nat → Bool → Prop

/-- A thread that is listed and can be read. -/
structure Live (pid tid : Int) : Prop where
  /-- The thread is listed. -/
  listed : tid ∈ proc.threads pid
  /-- The process has a name. -/
  processNamed : proc.processName pid ≠ deadName
  /-- The process has a start time. -/
  processStarted : proc.startOf pid ≠ 0
  /-- The thread has a name. -/
  threadNamed : proc.threadName pid tid ≠ deadName
  /-- The thread has a start time. -/
  threadStarted : proc.threadStartOf pid tid ≠ 0

/-- A live thread, or a thread without a start time that no rule lets a dispatch find out. -/
structure Owed (rule : ExhaustionRule) (pid tid : Int) : Prop where
  /-- The thread is listed. -/
  listed : tid ∈ proc.threads pid
  /-- The process has a name. -/
  processNamed : proc.processName pid ≠ deadName
  /-- The process has a start time. -/
  processStarted : proc.startOf pid ≠ 0
  /-- The thread has a name. -/
  threadNamed : proc.threadName pid tid ≠ deadName
  /-- The thread has a start time, or its start time is never read. -/
  started : proc.threadStartOf pid tid = 0 → ∀ reads, ¬ rule (reads + 1) false

/-- A live thread is owed. -/
theorem Live.owed {proc : ProcContent} {rule : ExhaustionRule} {pid tid : Int}
    (live : proc.Live pid tid) : proc.Owed rule pid tid where
  listed := live.listed
  processNamed := live.processNamed
  processStarted := live.processStarted
  threadNamed := live.threadNamed
  started none := absurd none live.threadStarted

/-- The task of a thread. -/
def taskFor (request : DispatchRequest) (pid tid : Int) : DispatchTask where
  identity := proc.identity pid tid
  threadName := proc.threadName pid tid
  state := request.state
  cpusetBase := request.cpusetBase
  procName := proc.processName pid
  cmdline := proc.processCmdline pid

/-- One process with one thread. -/
def lonely : ProcContent where
  tasks pid := if pid = 7 then some [Bytes.ascii "7"] else none
  processName _ := Bytes.ascii "app"
  processStartTime _ := 1
  processCmdline _ := []
  threadName _ _ := Bytes.ascii "app"
  threadStartTime _ _ := 2

end ProcContent

/-! ## The machine -/

/-- One call of `enqueue`. -/
structure Handoff where
  /-- The worker. -/
  worker : Nat
  /-- The task. -/
  task : DispatchTask
  /-- What the worker's queue answered. -/
  result : EnqueueResult
  deriving DecidableEq

/-- Whether the worker took the task. -/
def Handoff.isAccepted (handoff : Handoff) : Bool :=
  handoff.result = .queued || handoff.result = .updated

/-- What changes while `/proc` does not. -/
structure FixedWorld where
  /-- What remains to be read of each open directory. -/
  streams : Nat → List Bytes := fun _ => []
  /-- The calls of `enqueue`, in order. -/
  log : List Handoff := []
  /-- `full_rescan_needed`. -/
  rescan : Bool := false
  /-- Whether a full cycle was closed. -/
  closed : Bool := false
  /-- The reads counted by the budget. -/
  reads : Nat := 0

/-- Count a read. -/
def FixedWorld.tick (world : FixedWorld) : FixedWorld := { world with reads := world.reads + 1 }

/-- Leave these entries to be read of a directory. -/
def FixedWorld.setStream (world : FixedWorld) (handle : Nat) (names : List Bytes) : FixedWorld :=
  { world with streams := Function.update world.streams handle names }

@[simp] theorem FixedWorld.tick_streams (world : FixedWorld) :
    world.tick.streams = world.streams := rfl

@[simp] theorem FixedWorld.setStream_self (world : FixedWorld) (handle : Nat)
    (names : List Bytes) : (world.setStream handle names).streams handle = names :=
  Function.update_self ..

/-- The tasks the workers took. -/
def FixedWorld.accepted (world : FixedWorld) : List Handoff :=
  world.log.filter Handoff.isAccepted

/-- A task that a worker took is the last one taken. -/
theorem FixedWorld.accepted_append (world : FixedWorld) {handoff : Handoff}
    (taken : handoff.isAccepted = true) :
    FixedWorld.accepted { world with log := world.log ++ [handoff] } =
      world.accepted ++ [handoff] := by
  simp [FixedWorld.accepted, taken]

namespace ProcContent

variable (proc : ProcContent) (rule : ExhaustionRule)

/-- One operation on a fixed `/proc`. -/
def Step : FixedWorld → (operation : DispatchOp) → DispatchSig.Res operation → FixedWorld → Prop
  | world, .exhausted, response, after => rule world.reads response ∧ after = world
  | world, .afterThreadRead, _, after => after = world.tick
  | world, .openTask pid, response, after =>
    match proc.tasks pid with
    | none => response = none ∧ after = world
    | some names => ∃ handle order, order.Perm names ∧ response = some handle ∧
        after = world.setStream handle order
  | world, .readDir handle, response, after =>
    match world.streams handle with
    | [] => response = .finished ∧ after = world
    | name :: rest => response = .name name ∧
        after = world.setStream handle rest
  | world, .closeDir _, _, after => after = world
  | world, .processName pid, response, after => response = proc.processName pid ∧ after = world
  | world, .processStartTime pid, response, after =>
    response = proc.processStartTime pid ∧ after = world
  | world, .processCmdline pid, response, after =>
    response = proc.processCmdline pid ∧ after = world
  | world, .threadName pid tid, response, after =>
    response = proc.threadName pid tid ∧ after = world
  | world, .threadStartTime pid tid, response, after =>
    response = proc.threadStartTime pid tid ∧ after = world
  | world, .enqueue worker task, response, after =>
    after = { world with log := world.log ++ [⟨worker, task, response⟩] }
  | world, .requestRescan, _, after => after = { world with rescan := true }

/-- No operation of a dispatch closes a full cycle. -/
theorem closed_of_step {proc : ProcContent} {rule : ExhaustionRule} {world after : FixedWorld} {operation : DispatchOp}
    {response : DispatchSig.Res operation} (stepped : proc.Step rule world operation response after) :
    after.closed = world.closed := by
  cases operation with
  | closeDir handle | enqueue worker task | requestRescan => rw [show after = _ from stepped]
  | afterThreadRead =>
    rw [show after = _ from stepped]
    rfl
  | exhausted | processName pid | processStartTime pid | processCmdline pid | threadName pid tid
  | threadStartTime pid tid => rw [stepped.2]
  | openTask pid =>
    rw [Step] at stepped
    split at stepped
    · rw [stepped.2]
    · obtain ⟨handle, order, listed, answer, moved⟩ := stepped
      rw [moved]
      rfl
  | readDir handle =>
    rw [Step] at stepped
    split at stepped
    · rw [stepped.2]
    · rw [stepped.2]
      rfl

/-- A dispatch keeps the request for a full rescan. -/
theorem rescan_of_step {proc : ProcContent} {rule : ExhaustionRule} {world after : FixedWorld}
    {operation : DispatchOp} {response : DispatchSig.Res operation}
    (stepped : proc.Step rule world operation response after) (requested : world.rescan = true) :
    after.rescan = true := by
  cases operation with
  | closeDir handle | enqueue worker task =>
    rw [show after = _ from stepped]
    exact requested
  | requestRescan => rw [show after = _ from stepped]
  | afterThreadRead =>
    rw [show after = _ from stepped]
    exact requested
  | exhausted | processName pid | processStartTime pid | processCmdline pid | threadName pid tid
  | threadStartTime pid tid =>
    rw [stepped.2]
    exact requested
  | openTask pid =>
    rw [Step] at stepped
    split at stepped
    · rw [stepped.2]
      exact requested
    · obtain ⟨handle, order, listed, answer, moved⟩ := stepped
      rw [moved]
      exact requested
  | readDir handle =>
    rw [Step] at stepped
    split at stepped
    · rw [stepped.2]
      exact requested
    · rw [stepped.2]
      exact requested

/-- The machine of a fixed `/proc`. -/
def machine : Machine DispatchSig FixedWorld where
  step := proc.Step rule

/-- The answers of a machine on which no queue is full and the budget ends after some number of
reads. -/
def answer (ended : Nat → Bool) :
    FixedWorld → (operation : DispatchOp) → Option (DispatchSig.Res operation × FixedWorld)
  | world, .exhausted => some (ended world.reads, world)
  | world, .afterThreadRead => some ((), world.tick)
  | world, .openTask pid =>
    match proc.tasks pid with
    | none => some (none, world)
    | some names => some (some 0, world.setStream 0 names)
  | world, .readDir handle =>
    match world.streams handle with
    | [] => some (.finished, world)
    | name :: rest => some (.name name, world.setStream handle rest)
  | world, .closeDir _ => some ((), world)
  | world, .processName pid => some (proc.processName pid, world)
  | world, .processStartTime pid => some (proc.processStartTime pid, world)
  | world, .processCmdline pid => some (proc.processCmdline pid, world)
  | world, .threadName pid tid => some (proc.threadName pid tid, world)
  | world, .threadStartTime pid tid => some (proc.threadStartTime pid tid, world)
  | world, .enqueue worker task =>
    some (.queued, { world with log := world.log ++ [⟨worker, task, .queued⟩] })
  | world, .requestRescan => some ((), { world with rescan := true })

/-- The answers are possible on the machine. -/
theorem step_of_answer {proc : ProcContent} {rule : ExhaustionRule} {ended : Nat → Bool}
    (allowed : ∀ reads, rule reads (ended reads)) {world after : FixedWorld}
    {operation : DispatchOp} {response : DispatchSig.Res operation}
    (answered : proc.answer ended world operation = some (response, after)) :
    proc.Step rule world operation response after := by
  cases operation with
  | openTask pid =>
    rw [answer] at answered
    rw [ProcContent.Step]
    split at answered <;> cases answered
    · exact ⟨rfl, rfl⟩
    · next names found =>
      exact ⟨0, names, .refl names, rfl, rfl⟩
  | readDir handle =>
    rw [answer] at answered
    rw [ProcContent.Step]
    split at answered <;> cases answered
    · exact ⟨rfl, rfl⟩
    · exact ⟨rfl, rfl⟩
  | processName pid | processStartTime pid | processCmdline pid | threadName pid tid
  | threadStartTime pid tid =>
    cases answered
    exact ⟨rfl, rfl⟩
  | exhausted =>
    cases answered
    exact ⟨allowed _, rfl⟩
  | afterThreadRead | closeDir handle | enqueue worker task | requestRescan =>
    cases answered
    exact rfl

section Operations

variable {proc} {rule} {world : FixedWorld}

@[simp] theorem wp_exhausted {post : Bool → FixedWorld → Prop} :
    (dispatchOp .exhausted).wp (proc.machine rule).withSpin post world ↔
      ∀ answer, rule world.reads answer → post answer world := by
  constructor
  · exact fun holds answer allowed => holds answer world ⟨allowed, rfl⟩
  · rintro holds answer _ ⟨allowed, rfl⟩
    exact holds answer allowed

@[simp] theorem wp_afterThreadRead {post : Unit → FixedWorld → Prop} :
    (dispatchOp .afterThreadRead).wp (proc.machine rule).withSpin post world ↔
      post () world.tick := by
  constructor
  · exact fun holds => holds () _ rfl
  · rintro holds _ _ rfl
    exact holds

@[simp] theorem wp_closeDir {handle : Nat} {post : Unit → FixedWorld → Prop} :
    (dispatchOp (.closeDir handle)).wp (proc.machine rule).withSpin post world ↔ post () world := by
  constructor
  · exact fun holds => holds () world rfl
  · rintro holds _ _ rfl
    exact holds

@[simp] theorem wp_processName {pid : Int} {post : Bytes → FixedWorld → Prop} :
    (dispatchOp (.processName pid)).wp (proc.machine rule).withSpin post world ↔
      post (proc.processName pid) world := by
  constructor
  · exact fun holds => holds _ world ⟨rfl, rfl⟩
  · rintro holds _ _ ⟨rfl, rfl⟩
    exact holds

@[simp] theorem wp_processCmdline {pid : Int} {post : Bytes → FixedWorld → Prop} :
    (dispatchOp (.processCmdline pid)).wp (proc.machine rule).withSpin post world ↔
      post (proc.processCmdline pid) world := by
  constructor
  · exact fun holds => holds _ world ⟨rfl, rfl⟩
  · rintro holds _ _ ⟨rfl, rfl⟩
    exact holds

@[simp] theorem wp_threadName {pid tid : Int} {post : Bytes → FixedWorld → Prop} :
    (dispatchOp (.threadName pid tid)).wp (proc.machine rule).withSpin post world ↔
      post (proc.threadName pid tid) world := by
  constructor
  · exact fun holds => holds _ world ⟨rfl, rfl⟩
  · rintro holds _ _ ⟨rfl, rfl⟩
    exact holds

@[simp] theorem wp_processStartTime {pid : Int} {post : Nat → FixedWorld → Prop} :
    (Main.processStartTime pid).wp (proc.machine rule).withSpin post world ↔
      post (proc.startOf pid) world := by
  unfold Main.processStartTime startOf
  split
  · constructor
    · exact fun holds => holds _ world ⟨rfl, rfl⟩
    · rintro holds _ _ ⟨rfl, rfl⟩
      exact holds
  · exact Iff.rfl

@[simp] theorem wp_threadStartTime {pid tid : Int} {post : Nat → FixedWorld → Prop} :
    (Main.threadStartTime pid tid).wp (proc.machine rule).withSpin post world ↔
      post (proc.threadStartOf pid tid) world := by
  unfold Main.threadStartTime threadStartOf
  split
  · constructor
    · exact fun holds => holds _ world ⟨rfl, rfl⟩
    · rintro holds _ _ ⟨rfl, rfl⟩
      exact holds
  · exact Iff.rfl

@[simp] theorem wp_requestRescan {post : Unit → FixedWorld → Prop} :
    (dispatchOp .requestRescan).wp (proc.machine rule).withSpin post world ↔
      post () { world with rescan := true } := by
  constructor
  · exact fun holds => holds () _ rfl
  · rintro holds _ _ rfl
    exact holds

@[simp] theorem wp_enqueue {worker : Nat} {task : DispatchTask}
    {post : EnqueueResult → FixedWorld → Prop} :
    (dispatchOp (.enqueue worker task)).wp (proc.machine rule).withSpin post world ↔
      ∀ result, post result { world with log := world.log ++ [⟨worker, task, result⟩] } := by
  constructor
  · exact fun holds result => holds result _ rfl
  · rintro holds result _ rfl
    exact holds result

/-- Reading an empty directory ends it. -/
theorem wp_readDir_nil {handle : Nat} {post : DirEntry → FixedWorld → Prop}
    (left : world.streams handle = []) :
    (dispatchOp (.readDir handle)).wp (proc.machine rule).withSpin post world ↔ post .finished world := by
  have steps : ∀ response after, (proc.machine rule).step world (.readDir handle) response after ↔
      response = .finished ∧ after = world := fun response after => by
    simp only [machine, Step, left]
  constructor
  · exact fun holds => holds .finished world ((steps _ _).mpr ⟨rfl, rfl⟩)
  · intro holds response after stepped
    obtain ⟨rfl, rfl⟩ := (steps response after).mp stepped
    exact holds

/-- Reading a directory takes its next entry. -/
theorem wp_readDir_cons {handle : Nat} {name : Bytes} {rest : List Bytes}
    {post : DirEntry → FixedWorld → Prop} (left : world.streams handle = name :: rest) :
    (dispatchOp (.readDir handle)).wp (proc.machine rule).withSpin post world ↔
      post (.name name) (world.setStream handle rest) := by
  have steps : ∀ response after, (proc.machine rule).step world (.readDir handle) response after ↔
      response = .name name ∧
        after = world.setStream handle rest :=
    fun response after => by simp only [machine, Step, left]
  constructor
  · exact fun holds => holds _ _ ((steps _ _).mpr ⟨rfl, rfl⟩)
  · intro holds response after stepped
    obtain ⟨rfl, rfl⟩ := (steps response after).mp stepped
    exact holds

/-- A task directory that cannot be opened. -/
theorem wp_openTask_none {pid : Int} {post : Option Nat → FixedWorld → Prop}
    (missing : proc.tasks pid = none) :
    (dispatchOp (.openTask pid)).wp (proc.machine rule).withSpin post world ↔ post none world := by
  have steps : ∀ response after, (proc.machine rule).step world (.openTask pid) response after ↔
      response = none ∧ after = world := fun response after => by
    simp only [machine, Step, missing]
  constructor
  · exact fun holds => holds none world ((steps _ _).mpr ⟨rfl, rfl⟩)
  · intro holds response after stepped
    obtain ⟨rfl, rfl⟩ := (steps response after).mp stepped
    exact holds

/-- A task directory lists its entries in any order. -/
theorem wp_openTask_some {pid : Int} {names : List Bytes} {post : Option Nat → FixedWorld → Prop}
    (found : proc.tasks pid = some names) :
    (dispatchOp (.openTask pid)).wp (proc.machine rule).withSpin post world ↔
      ∀ handle order, order.Perm names → post (some handle) (world.setStream handle order) := by
  have steps : ∀ response after, (proc.machine rule).step world (.openTask pid) response after ↔
      ∃ handle order, order.Perm names ∧ response = some handle ∧
        after = world.setStream handle order :=
    fun response after => by simp only [machine, Step, found]
  constructor
  · exact fun holds handle order listed => holds _ _ ((steps _ _).mpr ⟨_, _, listed, rfl, rfl⟩)
  · intro holds response after stepped
    obtain ⟨handle, order, listed, rfl, rfl⟩ := (steps response after).mp stepped
    exact holds handle order listed

@[simp] theorem wp_reset {cursor : ScanCursor} {post : ScanCursor → FixedWorld → Prop} :
    cursor.reset.wp (proc.machine rule).withSpin post world ↔ post {} world := by
  unfold ScanCursor.reset
  cases cursor.taskDir with
  | none => exact Iff.rfl
  | some handle => exact wp_closeDir

@[simp] theorem wp_beginPid {cursor : ScanCursor} {pid : Int}
    {post : ScanCursor → FixedWorld → Prop} :
    (cursor.beginPid pid).wp (proc.machine rule).withSpin post world ↔ post { pid := pid } world := by
  rw [ScanCursor.beginPid, Program.wp_bind, wp_reset]
  exact Iff.rfl

end Operations

/-! ## Cursors -/

/-- What a cursor holds was read of its process. -/
structure CursorFor (world : FixedWorld) (cursor : ScanCursor) : Prop where
  /-- A complete list has the threads of the process. -/
  whenListed : cursor.tidEnumerationComplete = true →
    ∀ tid, tid ∈ cursor.tids ↔ tid ∈ proc.threads cursor.pid
  /-- Nothing was dispatched from an incomplete list. -/
  whenUnlisted : cursor.tidEnumerationComplete = false →
    cursor.tidIndex = 0 ∧ (cursor.taskDir = none → cursor.tids = [])
  /-- The threads listed and those left to read are the threads of the process. -/
  whenOpen : ∀ handle, cursor.taskDir = some handle → ∀ tid,
    tid ∈ cursor.tids ∨ tid ∈ (world.streams handle).filterMap parseId ↔
      tid ∈ proc.threads cursor.pid
  /-- A complete list needs no directory. -/
  closed : cursor.tidEnumerationComplete = true → cursor.taskDir = none
  /-- The name. -/
  name : cursor.processNameLoaded = true → cursor.processName = proc.processName cursor.pid
  /-- The start time. -/
  startTime : cursor.processStartTimeLoaded = true →
    cursor.processStartTime = proc.startOf cursor.pid
  /-- The command line. -/
  cmdline : cursor.cmdlineLoaded = true → cursor.cmdline = proc.processCmdline cursor.pid

variable {proc} {rule} {world : FixedWorld} {cursor : ScanCursor}

/-- A fresh cursor holds nothing. -/
theorem cursorFor_fresh (pid : Int) : proc.CursorFor world { pid := pid } := by
  constructor <;> simp

/-- What a closed cursor holds does not depend on open directories. -/
theorem CursorFor.of_closed (stands : proc.CursorFor world cursor)
    (none : cursor.taskDir = none) (other : FixedWorld) : proc.CursorFor other cursor := by
  constructor
  · exact stands.whenListed
  · exact stands.whenUnlisted
  · intro handle opened
    rw [none] at opened
    cases opened
  · exact stands.closed
  · exact stands.name
  · exact stands.startTime
  · exact stands.cmdline

/-- Only the open directory matters. -/
theorem CursorFor.congr_streams (stands : proc.CursorFor world cursor) {other : FixedWorld}
    (same : other.streams = world.streams) : proc.CursorFor other cursor := by
  constructor
  · exact stands.whenListed
  · exact stands.whenUnlisted
  · intro handle opened
    rw [same]
    exact stands.whenOpen handle opened
  · exact stands.closed
  · exact stands.name
  · exact stands.startTime
  · exact stands.cmdline

/-- What listing the threads leaves as it was. -/
structure Listing (world after : FixedWorld) (cursor next : ScanCursor) : Prop where
  /-- The cursor holds what was read. -/
  stands : proc.CursorFor after next
  /-- The process. -/
  pid : next.pid = cursor.pid
  /-- The workers. -/
  log : after.log = world.log

/-- The sorted threads are the listed ones. -/
theorem mem_sortUnique {tids : List Int} {tid : Int} :
    tid ∈ FileUtils.sortUnique tids ↔ tid ∈ tids := by
  rw [FileUtils.sortUnique, List.mem_insertionSort, List.mem_dedup]

/-- Reading the task directory keeps the cursor's account of it. -/
theorem wp_readTids (fuel : Nat) {handle : Nat} (stands : proc.CursorFor world cursor)
    (opened : cursor.taskDir = some handle) :
    (Looping.loop (ScanCursor.readTid handle) fuel cursor).wp (proc.machine rule).withSpin
      (fun found after => proc.Listing world after cursor found.2 ∧ found.2.tidIndex = 0 ∧
        (found.1 = true → found.2.tidEnumerationComplete = true)) world := by
  refine Looping.wp_loop
    (fun current state => proc.Listing world state cursor current ∧
      current.taskDir = some handle) ?_ fuel ⟨⟨stands, rfl, rfl⟩, opened⟩
  rintro current state ⟨⟨stands, pid, log⟩, opened⟩
  have unlisted : current.tidEnumerationComplete = false := by
    by_contra complete
    have closed := stands.closed (by simpa using complete)
    rw [opened] at closed
    cases closed
  have start := (stands.whenUnlisted unlisted).1
  rw [ScanCursor.readTid, Program.wp_bind, wp_exhausted]
  intro ended allowed
  cases ended with
  | true => exact ⟨⟨stands, pid, log⟩, start, fun impossible => by cases impossible⟩
  | false =>
    rw [if_neg (by decide), Program.wp_bind]
    cases left : state.streams handle with
    | nil =>
      rw [wp_readDir_nil left, Program.wp_bind, wp_closeDir]
      refine ⟨⟨?_, pid, log⟩, rfl, fun _ => rfl⟩
      constructor
      · intro _ tid
        have whole := stands.whenOpen handle opened tid
        rw [left] at whole
        simpa [ScanCursor.listed, mem_sortUnique] using whole
      · intro impossible
        cases impossible
      · intro other impossible
        cases impossible
      · exact fun _ => rfl
      · exact stands.name
      · exact stands.startTime
      · exact stands.cmdline
    | cons name rest =>
      rw [wp_readDir_cons left, Program.wp_bind, wp_afterThreadRead]
      have whole := stands.whenOpen handle opened
      rw [left] at whole
      cases parsed : FileUtils.parseId name with
      | none =>
        refine ⟨⟨?_, pid, log⟩, opened⟩
        constructor
        · exact stands.whenListed
        · exact stands.whenUnlisted
        · intro other same tid
          obtain rfl : handle = other := Option.some.inj (opened.symm.trans same)
          rw [FixedWorld.tick_streams, FixedWorld.setStream_self, ← whole tid, List.filterMap_cons_none parsed]
        · exact stands.closed
        · exact stands.name
        · exact stands.startTime
        · exact stands.cmdline
      | some found =>
        refine ⟨⟨?_, pid, log⟩, opened⟩
        constructor
        · intro complete
          rw [unlisted] at complete
          cases complete
        · exact fun _ => ⟨start, fun none => by rw [opened] at none; cases none⟩
        · intro other same tid
          obtain rfl : handle = other := Option.some.inj (opened.symm.trans same)
          rw [FixedWorld.tick_streams, FixedWorld.setStream_self, ← whole tid, List.filterMap_cons_some parsed]
          simp only [List.mem_append, List.mem_cons, List.not_mem_nil, or_false]
          tauto
        · exact stands.closed
        · exact stands.name
        · exact stands.startTime
        · exact stands.cmdline

/-- Every owed thread before the cursor's position was dispatched. -/
def Passed (rule : ExhaustionRule) (processed : Finset Int) (cursor : ScanCursor) : Prop :=
  ∀ tid ∈ cursor.tids.take cursor.tidIndex, proc.Owed rule cursor.pid tid → tid ∈ processed

/-- Every owed thread of a process was dispatched. -/
def Done (rule : ExhaustionRule) (processed : Finset Int) (pid : Int) : Prop :=
  ∀ tid, proc.Owed rule pid tid → tid ∈ processed

/-- Nothing is before the first position. -/
theorem passed_of_start {processed : Finset Int} (start : cursor.tidIndex = 0) :
    proc.Passed rule processed cursor := by
  intro tid member
  rw [start, List.take_zero] at member
  cases member

/-- A longer list of dispatched threads still has them. -/
theorem Passed.mono {processed more : Finset Int} (passed : proc.Passed rule processed cursor)
    (grows : processed ⊆ more) : proc.Passed rule more cursor :=
  fun tid member live => grows (passed tid member live)

/-- Listing the threads keeps the cursor's account of its process. -/
theorem wp_enumerateTids (fuel : Nat) {processed : Finset Int}
    (stands : proc.CursorFor world cursor) (passed : proc.Passed rule processed cursor)
    (positive : 0 < cursor.pid) :
    (cursor.enumerateTids fuel).wp (proc.machine rule).withSpin
      (fun found after => proc.Listing world after cursor found.2 ∧
        proc.Passed rule processed found.2 ∧
        (found.1 = true → found.2.tidEnumerationComplete = true)) world := by
  unfold ScanCursor.enumerateTids
  cases complete : cursor.tidEnumerationComplete with
  | true => exact ⟨⟨stands, rfl, rfl⟩, passed, fun _ => complete⟩
  | false =>
    rw [if_neg (by decide), if_neg (by omega)]
    obtain ⟨start, fresh⟩ := stands.whenUnlisted complete
    cases opened : cursor.taskDir with
    | some handle =>
      refine Program.wp_mono (wp_readTids fuel stands opened) ?_
      exact fun found after reached => ⟨reached.1, passed_of_start reached.2.1, reached.2.2⟩
    | none =>
      simp only [Program.wp_bind]
      cases content : proc.tasks cursor.pid with
      | none =>
        rw [wp_openTask_none content]
        refine ⟨⟨?_, rfl, rfl⟩, passed_of_start start, fun _ => rfl⟩
        constructor
        · intro _ tid
          simp [fresh opened, threads, content]
        · intro impossible
          cases impossible
        · intro handle found
          cases found
        · exact fun _ => rfl
        · exact stands.name
        · exact stands.startTime
        · exact stands.cmdline
      | some names =>
        rw [wp_openTask_some content]
        intro handle order listed
        have begun : proc.CursorFor (world.setStream handle order)
            { cursor with
              taskDir := some handle, tidEnumerationComplete := false, tids := [] } := by
          constructor
          · intro impossible
            cases impossible
          · exact fun _ => ⟨start, fun _ => rfl⟩
          · intro other same tid
            obtain rfl := Option.some.inj same
            have same := (listed.filterMap parseId).mem_iff (a := tid)
            simpa [threads, content] using same
          · intro impossible
            cases impossible
          · exact stands.name
          · exact stands.startTime
          · exact stands.cmdline
        refine Program.wp_mono (wp_readTids fuel begun rfl) fun found after reached => ?_
        obtain ⟨⟨kept, pid, log⟩, first, listed⟩ := reached
        exact ⟨⟨kept, pid, log⟩, passed_of_start first, listed⟩

/-! ## One thread -/

/-- What is known of a process before its threads are dispatched. -/
structure Ready (world : FixedWorld) (cursor : ScanCursor) : Prop where
  /-- The cursor holds what was read. -/
  stands : proc.CursorFor world cursor
  /-- The threads are listed. -/
  listed : cursor.tidEnumerationComplete = true
  /-- The name was read. -/
  name : cursor.processName = proc.processName cursor.pid
  /-- The start time was read. -/
  startTime : cursor.processStartTime = proc.startOf cursor.pid
  /-- The command line was read. -/
  cmdline : cursor.cmdline = proc.processCmdline cursor.pid
  /-- The process has a name. -/
  named : cursor.processName ≠ deadName
  /-- The process has a start time. -/
  started : cursor.processStartTime ≠ 0

/-- A ready cursor needs no directory, so it stays ready. -/
theorem Ready.congr (ready : proc.Ready world cursor) (other : FixedWorld) :
    proc.Ready other cursor :=
  { ready with stands := ready.stands.of_closed (ready.stands.closed ready.listed) other }

/-- A ready cursor may stand at another position. -/
theorem Ready.advance (ready : proc.Ready world cursor) (position : Nat) :
    proc.Ready world { cursor with tidIndex := position } where
  stands :=
    { whenListed := ready.stands.whenListed
      whenUnlisted := fun unlisted => by
        have listed := ready.listed
        rw [show cursor.tidEnumerationComplete = false from unlisted] at listed
        cases listed
      whenOpen := ready.stands.whenOpen
      closed := ready.stands.closed
      name := ready.stands.name
      startTime := ready.stands.startTime
      cmdline := ready.stands.cmdline }
  listed := ready.listed
  name := ready.name
  startTime := ready.startTime
  cmdline := ready.cmdline
  named := ready.named
  started := ready.started

/-- How the dispatch of one thread may end. -/
def ThreadEnd (proc : ProcContent) (rule : ExhaustionRule) (request : DispatchRequest)
    (pid tid : Int) (world after : FixedWorld) : ThreadOutcome → Prop
  | .skipped => after.log = world.log ∧ after.streams = world.streams ∧ ¬ proc.Owed rule pid tid
  | .sent => proc.Live pid tid ∧ (∃ reads, rule (reads + 3) false) ∧ ∃ result : EnqueueResult,
      (result = .queued ∨ result = .updated) ∧ after.streams = world.streams ∧
      after.log = world.log ++
        [⟨workerIndex request.hashing request.workers (proc.identity pid tid),
          proc.taskFor request pid tid, result⟩]
  | .postponed => after.accepted = world.accepted ∧ after.streams = world.streams
  | .lost => False

/-- A thread is handed over, or gone, or tried again later. -/
theorem wp_dispatchThread {request : DispatchRequest} {tid : Int}
    (ready : proc.Ready world cursor) (member : tid ∈ proc.threads cursor.pid) :
    (dispatchThread request cursor tid).wp (proc.machine rule).withSpin
      (fun outcome after => ThreadEnd proc rule request cursor.pid tid world after outcome)
      world := by
  rw [dispatchThread, Program.wp_bind, wp_threadName, Program.wp_bind, wp_afterThreadRead]
  split
  · next gone => exact ⟨rfl, rfl, fun owed => owed.threadNamed gone⟩
  next named =>
  rw [Program.wp_bind, wp_exhausted]
  intro ended first
  split
  · exact ⟨rfl, rfl⟩
  next going =>
  rw [Program.wp_bind, wp_threadStartTime, Program.wp_bind, wp_afterThreadRead]
  split
  · next gone =>
    rw [Bool.not_eq_true] at going
    rw [going] at first
    exact ⟨rfl, rfl, fun owed => owed.started gone world.reads first⟩
  next started =>
  rw [Program.wp_bind, wp_processStartTime, Program.wp_bind, wp_afterThreadRead,
    if_neg (not_not.mpr ready.startTime.symm), Program.wp_bind, wp_exhausted]
  intro ended last
  split
  · exact ⟨rfl, rfl⟩
  next going =>
  have passable : ∃ reads, rule (reads + 3) false := by
    rw [Bool.not_eq_true] at going
    rw [going] at last
    exact ⟨world.reads, last⟩
  rw [enqueueTask, Program.wp_bind, wp_enqueue]
  have same : taskOf request cursor tid (proc.threadName cursor.pid tid)
      (proc.threadStartOf cursor.pid tid) = proc.taskFor request cursor.pid tid := by
    simp only [taskOf, taskFor, identity, ready.name, ready.startTime, ready.cmdline]
  have live : proc.Live cursor.pid tid := by
    refine ⟨member, ?_, ?_, named, started⟩
    · rw [← ready.name]
      exact ready.named
    · rw [← ready.startTime]
      exact ready.started
  intro result
  rw [same]
  cases result with
  | queued => exact ⟨live, passable, .queued, .inl rfl, rfl, rfl⟩
  | updated => exact ⟨live, passable, .updated, .inr rfl, rfl, rfl⟩
  | queueFull =>
    rw [Program.wp_bind, wp_requestRescan]
    exact ⟨by simp [FixedWorld.accepted, Handoff.isAccepted, FixedWorld.tick], rfl⟩
  | stopped =>
    rw [Program.wp_bind, wp_requestRescan]
    exact ⟨by simp [FixedWorld.accepted, Handoff.isAccepted, FixedWorld.tick], rfl⟩

/-! ## One process -/

/-- A fact that every handover of a live thread keeps. -/
structure Accounts (proc : ProcContent) (rule : ExhaustionRule) (request : DispatchRequest)
    (inv : Finset Int → FixedWorld → Prop) : Prop where
  /-- Only the tasks the workers took matter. -/
  frame : ∀ {processed world after}, inv processed world → after.accepted = world.accepted →
    inv processed after
  /-- Handing over a thread keeps the fact. -/
  sent : ∀ {processed world pid tid result}, inv processed world → pid ∈ request.pids →
    proc.Live pid tid → tid ∉ processed → (∃ reads, rule (reads + 3) false) →
    (result = .queued ∨ result = .updated) →
    inv (insert tid processed) { world with
      log := world.log ++ [⟨workerIndex request.hashing request.workers (proc.identity pid tid),
        proc.taskFor request pid tid, result⟩] }

variable {request : DispatchRequest} {inv : Finset Int → FixedWorld → Prop}

/-- What a dispatch of threads of one process leaves. -/
structure Advanced (proc : ProcContent) (rule : ExhaustionRule)
    (inv : Finset Int → FixedWorld → Prop)
    (processed : Finset Int) (pid : Int) (next : DispatchState) (after : FixedWorld) : Prop where
  /-- The fact. -/
  inv : inv next.processed after
  /-- Dispatched threads stay dispatched. -/
  grows : processed ⊆ next.processed
  /-- The process. -/
  pid : next.cursor.pid = pid
  /-- The cursor holds what was read. -/
  stands : proc.CursorFor after next.cursor
  /-- Every owed thread before the position was dispatched. -/
  passed : proc.Passed rule next.processed next.cursor

/-- What holds after the first thread of a list and after the others. -/
theorem Advanced.of_subset {processed more : Finset Int} {pid : Int} {next : DispatchState}
    {after : FixedWorld} (advanced : Advanced proc rule inv more pid next after)
    (grows : processed ⊆ more) : Advanced proc rule inv processed pid next after :=
  { advanced with grows := grows.trans advanced.grows }

/-- What is before and after the next position of a list. -/
theorem take_succ_of_drop {α : Type} {items rest : List α} {position : Nat} {item : α}
    (left : items.drop position = item :: rest) :
    items.take (position + 1) = items.take position ++ [item] ∧
      items.drop (position + 1) = rest := by
  constructor
  · rw [List.take_add, left]
    rfl
  · rw [← List.drop_drop, left]
    rfl

/-- Dispatching the threads from the position on hands over every owed one, or stops. -/
theorem wp_dispatchTids (accounts : Accounts proc rule request inv) (rest : List Int)
    (dispatch : DispatchState) (ready : proc.Ready world dispatch.cursor)
    (member : dispatch.cursor.pid ∈ request.pids)
    (left : dispatch.cursor.tids.drop dispatch.cursor.tidIndex = rest)
    (passed : proc.Passed rule dispatch.processed dispatch.cursor)
    (holds : inv dispatch.processed world) :
    (dispatchTids request rest dispatch).wp (proc.machine rule).withSpin
      (fun found after => Advanced proc rule inv dispatch.processed dispatch.cursor.pid found.2 after ∧
        (found.1 = false → proc.Done rule found.2.processed dispatch.cursor.pid)) world := by
  induction rest generalizing dispatch world with
  | nil =>
    refine ⟨⟨holds, Finset.Subset.refl _, rfl, ready.stands, passed⟩, fun _ tid live => ?_⟩
    refine passed tid ?_ live
    rw [List.take_of_length_le (List.drop_eq_nil_iff.mp left)]
    exact (ready.stands.whenListed ready.listed tid).mpr live.listed
  | cons tid rest ih =>
    obtain ⟨taken, left⟩ := take_succ_of_drop left
    have listed : tid ∈ proc.threads dispatch.cursor.pid := by
      refine (ready.stands.whenListed ready.listed tid).mp ?_
      exact List.mem_of_mem_take (taken ▸ List.mem_append_right _ (List.mem_singleton_self tid))
    have further : ∀ {processed : Finset Int}, dispatch.processed ⊆ processed →
        (proc.Owed rule dispatch.cursor.pid tid → tid ∈ processed) →
        proc.Passed rule processed { dispatch.cursor with tidIndex := dispatch.cursor.tidIndex + 1 } := by
      intro processed grows here other taken' live
      rw [show _ = _ from taken] at taken'
      rcases List.mem_append.mp taken' with earlier | last
      · exact grows (passed other earlier live)
      · obtain rfl := List.mem_singleton.mp last
        exact here live
    rw [dispatchTids, Program.wp_bind, wp_exhausted]
    intro ended allowed
    split
    · exact ⟨⟨holds, Finset.Subset.refl _, rfl, ready.stands, passed⟩, fun stopped => by cases stopped⟩
    split
    · next known =>
      refine Program.wp_mono (ih _ (ready.advance _) member left
        (further (Finset.Subset.refl _) fun _ => known) holds) ?_
      exact fun found after reached => reached
    next fresh =>
    rw [Program.wp_bind]
    refine Program.wp_mono (wp_dispatchThread ready listed) fun outcome after reached => ?_
    cases outcome with
    | skipped =>
      obtain ⟨log, streams, gone⟩ := reached
      have holds := accounts.frame holds (congrArg (List.filter _) log)
      refine Program.wp_mono (ih _ ((ready.advance _).congr after) member left
        (further (Finset.Subset.refl _) fun owed => absurd owed gone) holds) ?_
      exact fun found after reached => reached
    | sent =>
      obtain ⟨live, passable, result, taken, streams, log⟩ := reached
      have grows : dispatch.processed ⊆ insert tid dispatch.processed := Finset.subset_insert _ _
      have sent := accounts.frame (accounts.sent holds member live fresh passable taken)
        (congrArg (List.filter _) log)
      refine Program.wp_mono (ih _ ((ready.advance _).congr after) member left
        (further grows fun _ => Finset.mem_insert_self _ _) sent) ?_
      exact fun found after reached => ⟨reached.1.of_subset grows, reached.2⟩
    | postponed =>
      refine ⟨⟨accounts.frame holds reached.1, Finset.Subset.refl _, rfl, ?_, passed⟩,
        fun stopped => by cases stopped⟩
      exact ready.stands.congr_streams reached.2
    | lost => exact reached.elim

/-- Reading the name keeps the cursor's account of its process. -/
theorem wp_loadName {post : ScanCursor → FixedWorld → Prop} (stands : proc.CursorFor world cursor)
    (next : ∀ loaded after, after.log = world.log → proc.CursorFor after loaded →
      loaded.pid = cursor.pid →
      loaded.tidEnumerationComplete = cursor.tidEnumerationComplete → loaded.tids = cursor.tids →
      loaded.tidIndex = cursor.tidIndex → loaded.processName = proc.processName cursor.pid →
      post loaded after) :
    (loadName cursor).wp (proc.machine rule).withSpin post world := by
  unfold loadName
  split
  · next loaded => exact next cursor world rfl stands rfl rfl rfl rfl (stands.name loaded)
  · rw [Program.wp_bind, wp_processName, Program.wp_bind, wp_afterThreadRead]
    have stands := stands.congr_streams world.tick_streams
    exact next _ _ rfl { stands with name := fun _ => rfl } rfl rfl rfl rfl rfl

/-- Reading the start time keeps the cursor's account of its process. -/
theorem wp_loadStartTime {post : ScanCursor → FixedWorld → Prop}
    (stands : proc.CursorFor world cursor)
    (next : ∀ loaded after, after.log = world.log → proc.CursorFor after loaded →
      loaded.pid = cursor.pid →
      loaded.tidEnumerationComplete = cursor.tidEnumerationComplete → loaded.tids = cursor.tids →
      loaded.tidIndex = cursor.tidIndex → loaded.processName = cursor.processName →
      loaded.processStartTime = proc.startOf cursor.pid → post loaded after) :
    (loadStartTime cursor).wp (proc.machine rule).withSpin post world := by
  unfold loadStartTime
  split
  · next loaded => exact next cursor world rfl stands rfl rfl rfl rfl rfl (stands.startTime loaded)
  · rw [Program.wp_bind, wp_processStartTime, Program.wp_bind, wp_afterThreadRead]
    have stands := stands.congr_streams world.tick_streams
    exact next _ _ rfl { stands with startTime := fun _ => rfl } rfl rfl rfl rfl rfl rfl

/-- Reading the command line keeps the cursor's account of its process. -/
theorem wp_loadCmdline {post : ScanCursor → FixedWorld → Prop}
    (stands : proc.CursorFor world cursor)
    (next : ∀ loaded after, after.log = world.log → proc.CursorFor after loaded →
      loaded.pid = cursor.pid →
      loaded.tidEnumerationComplete = cursor.tidEnumerationComplete → loaded.tids = cursor.tids →
      loaded.tidIndex = cursor.tidIndex → loaded.processName = cursor.processName →
      loaded.processStartTime = cursor.processStartTime →
      loaded.cmdline = proc.processCmdline cursor.pid → post loaded after) :
    (loadCmdline cursor).wp (proc.machine rule).withSpin post world := by
  unfold loadCmdline
  split
  · next loaded => exact next cursor world rfl stands rfl rfl rfl rfl rfl rfl (stands.cmdline loaded)
  · rw [Program.wp_bind, wp_processCmdline, Program.wp_bind, wp_afterThreadRead]
    have stands := stands.congr_streams world.tick_streams
    exact next _ _ rfl { stands with cmdline := fun _ => rfl } rfl rfl rfl rfl rfl rfl rfl

/-- A dispatch of a listed process hands over every owed thread, or stops. -/
theorem wp_dispatchListed (accounts : Accounts proc rule request inv) (dispatch : DispatchState)
    (stands : proc.CursorFor world dispatch.cursor)
    (listed : dispatch.cursor.tidEnumerationComplete = true)
    (member : dispatch.cursor.pid ∈ request.pids)
    (passed : proc.Passed rule dispatch.processed dispatch.cursor)
    (holds : inv dispatch.processed world) :
    (dispatchListed request dispatch).wp (proc.machine rule).withSpin
      (fun found after => Advanced proc rule inv dispatch.processed dispatch.cursor.pid found.2 after ∧
        (found.1 = false → proc.Done rule found.2.processed dispatch.cursor.pid)) world := by
  have keeps : ∀ (cursor : ScanCursor) (after : FixedWorld), after.log = world.log →
      proc.CursorFor after cursor →
      cursor.pid = dispatch.cursor.pid → cursor.tids = dispatch.cursor.tids →
      cursor.tidIndex = dispatch.cursor.tidIndex →
      Advanced proc rule inv dispatch.processed dispatch.cursor.pid
        { dispatch with cursor := cursor } after := by
    intro cursor after log stands pid tids position
    have holds := accounts.frame holds (congrArg (List.filter _) log)
    refine ⟨holds, Finset.Subset.refl _, pid, stands, ?_⟩
    rw [Passed, tids, position, pid]
    exact passed
  rw [dispatchListed, Program.wp_bind]
  refine wp_loadName stands fun named world logN standsN pidN completeN tidsN positionN name => ?_
  have advanced := keeps named world logN standsN pidN tidsN positionN
  split
  · next gone =>
    refine ⟨advanced, fun _ tid owed => ?_⟩
    rw [name] at gone
    exact absurd gone owed.processNamed
  next hasName =>
  rw [Program.wp_bind, wp_exhausted]
  intro ended allowed
  split
  · exact ⟨advanced, fun stopped => by cases stopped⟩
  rw [Program.wp_bind]
  refine wp_loadStartTime standsN fun started world logS standsS pidS completeS tidsS positionS
    nameS startTime => ?_
  have advanced := keeps started world (logS.trans logN) standsS (pidS.trans pidN)
    (tidsS.trans tidsN) (positionS.trans positionN)
  split
  · next gone =>
    refine ⟨advanced, fun _ tid owed => ?_⟩
    rw [startTime, pidN] at gone
    exact absurd gone owed.processStarted
  next hasStart =>
  rw [Program.wp_bind, wp_exhausted]
  intro ended allowed
  split
  · exact ⟨advanced, fun stopped => by cases stopped⟩
  rw [Program.wp_bind]
  refine wp_loadCmdline standsS fun loaded world logC standsC pidC completeC tidsC positionC nameC
    startC cmdline => ?_
  have advanced := keeps loaded world (logC.trans (logS.trans logN)) standsC
    (pidC.trans (pidS.trans pidN)) (tidsC.trans (tidsS.trans tidsN))
    (positionC.trans (positionS.trans positionN))
  have pid : loaded.pid = dispatch.cursor.pid := advanced.pid
  have ready : proc.Ready world loaded :=
    { stands := standsC
      listed := completeC.trans (completeS.trans (completeN.trans listed))
      name := by rw [nameC, nameS, name, pid]
      startTime := by rw [startC, startTime, pidN, pid]
      cmdline := by rw [cmdline, pidC]
      named := by rw [nameC, nameS]; exact hasName
      started := by rw [startC]; exact hasStart }
  refine Program.wp_mono (wp_dispatchTids accounts _ ⟨loaded, dispatch.processed⟩
    ready (pid ▸ member) rfl advanced.passed advanced.inv) fun found after reached => ?_
  rw [← pid]
  exact reached

/-! ## Many processes -/

/-- Where a dispatch of the processes stands between two calls. -/
structure Standing (proc : ProcContent) (rule : ExhaustionRule) (request : DispatchRequest) (world : FixedWorld)
    (dispatch : DispatchState) : Prop where
  /-- The cursor holds what was read. -/
  stands : proc.CursorFor world dispatch.cursor
  /-- The cursor is fresh, or stands at one of the processes. -/
  member : dispatch.cursor.pid = 0 ∨ dispatch.cursor.pid ∈ request.pids
  /-- The processes before were dispatched. -/
  before : ∀ pid ∈ request.pids, pid < dispatch.cursor.pid → proc.Done rule dispatch.processed pid
  /-- The threads before were dispatched. -/
  passed : proc.Passed rule dispatch.processed dispatch.cursor

/-- A fresh cursor stands before every process. -/
theorem standing_fresh (positive : ∀ pid ∈ request.pids, 0 < pid) (processed : Finset Int) :
    Standing proc rule request world ⟨{}, processed⟩ where
  stands := cursorFor_fresh 0
  member := .inl rfl
  before pid member before := by
    have bound : pid < 0 := before
    have := positive pid member
    omega
  passed := passed_of_start rfl

/-- A dispatch of one process hands over every owed thread, or stops. -/
theorem wp_dispatchPid (accounts : Accounts proc rule request inv) (fuel : Nat) {pid : Int}
    {dispatch : DispatchState} (stands : proc.CursorFor world dispatch.cursor)
    (member : pid ∈ request.pids) (positive : 0 < pid)
    (passed : proc.Passed rule dispatch.processed dispatch.cursor)
    (holds : inv dispatch.processed world) :
    (dispatchPid request fuel pid dispatch).wp (proc.machine rule).withSpin
      (fun found after => Advanced proc rule inv dispatch.processed pid found.2 after ∧
        (found.1 = false → proc.Done rule found.2.processed pid)) world := by
  have begun : (standAt dispatch.cursor pid).wp (proc.machine rule).withSpin
      (fun cursor after => after = world ∧ proc.CursorFor world cursor ∧ cursor.pid = pid ∧
        proc.Passed rule dispatch.processed cursor) world := by
    unfold standAt
    split
    · rw [wp_beginPid]
      exact ⟨rfl, cursorFor_fresh pid, rfl, passed_of_start rfl⟩
    · next same => exact ⟨rfl, stands, not_not.mp same, passed⟩
  rw [dispatchPid, Program.wp_bind]
  refine Program.wp_mono begun fun cursor middle reached => ?_
  obtain ⟨rfl, stands, rfl, passed⟩ := reached
  rw [Program.wp_bind]
  refine Program.wp_mono (wp_enumerateTids fuel stands passed positive) fun found after reached => ?_
  obtain ⟨complete, next⟩ := found
  obtain ⟨⟨stands, pid, log⟩, passed, listed⟩ := reached
  have same : after.accepted = middle.accepted := congrArg (List.filter _) log
  have holds := accounts.frame holds same
  have stopped : Advanced proc rule inv dispatch.processed cursor.pid
      { dispatch with cursor := next } after :=
    ⟨holds, Finset.Subset.refl _, pid, stands, passed⟩
  dsimp only
  cases complete with
  | false => exact ⟨stopped, fun finished => by cases finished⟩
  | true =>
    rw [if_neg (by decide), Program.wp_bind, wp_exhausted]
    intro ended allowed
    split
    · exact ⟨stopped, fun finished => by cases finished⟩
    have stillMember : next.pid ∈ request.pids := by
      rw [show next.pid = cursor.pid from pid]
      exact member
    refine Program.wp_mono (wp_dispatchListed accounts ⟨next, dispatch.processed⟩
      stands (listed rfl) stillMember passed holds) fun found after reached => ?_
    rw [← show next.pid = cursor.pid from pid]
    exact reached

/-- Dispatching processes in increasing order hands over every owed thread, or stops. -/
theorem wp_dispatchPids (accounts : Accounts proc rule request inv) (fuel : Nat)
    (positive : ∀ pid ∈ request.pids, 0 < pid) (pids : List Int) {dispatch : DispatchState}
    (sorted : pids.Pairwise (· < ·)) (members : ∀ pid ∈ pids, pid ∈ request.pids)
    (stands : proc.CursorFor world dispatch.cursor)
    (passed : proc.Passed rule dispatch.processed dispatch.cursor)
    (others : ∀ pid ∈ request.pids, pid ∉ pids → proc.Done rule dispatch.processed pid)
    (holds : inv dispatch.processed world) :
    (dispatchPids request fuel pids dispatch).wp (proc.machine rule).withSpin
      (fun found after => inv found.2.processed after ∧
        dispatch.processed ⊆ found.2.processed ∧
        (found.1 = true → Standing proc rule request after found.2) ∧
        (found.1 = false → ∀ pid ∈ request.pids, proc.Done rule found.2.processed pid)) world := by
  induction pids generalizing dispatch world with
  | nil =>
    refine ⟨holds, Finset.Subset.refl _, fun stopped => absurd stopped Bool.false_ne_true, fun _ pid member => ?_⟩
    exact others pid member List.not_mem_nil
  | cons pid rest ih =>
    obtain ⟨before, sorted⟩ := List.pairwise_cons.mp sorted
    have member := members pid List.mem_cons_self
    rw [dispatchPids, Program.wp_bind]
    refine Program.wp_mono (wp_dispatchPid accounts fuel stands member (positive pid member) passed
      holds) fun found after reached => ?_
    obtain ⟨stopped, next⟩ := found
    obtain ⟨⟨holds, grows, same, stands, passed⟩, done⟩ := reached
    dsimp only
    split
    · refine ⟨holds, grows, fun _ => ⟨stands, .inr (by rw [same]; exact member), ?_, passed⟩,
        fun finished => by cases finished⟩
      intro other listed earlier tid live
      rw [show _ = _ from same] at earlier
      refine grows (others other listed ?_ tid live)
      intro later
      rcases List.mem_cons.mp later with rfl | later
      · omega
      · have := before other later
        omega
    · next finished =>
      rw [Program.wp_bind, wp_reset]
      refine Program.wp_mono (ih sorted (fun other listed => members other (.tail _ listed))
        (cursorFor_fresh 0) (passed_of_start rfl) ?_ holds) fun found after reached => ?_
      · intro other listed later tid live
        by_cases own : other = pid
        · subst own
          exact done (by simpa using finished) tid live
        · exact grows (others other listed (by simp [own, later]) tid live)
      · exact ⟨reached.1, grows.trans reached.2.1, reached.2.2⟩

/-- A dispatch hands over every owed thread of the processes, or stands somewhere among them. -/
theorem wp_dispatchPidsToWorkers (accounts : Accounts proc rule request inv) (fuel : Nat)
    (positive : ∀ pid ∈ request.pids, 0 < pid) (workers : request.workers ≠ 0)
    {dispatch : DispatchState} (standing : Standing proc rule request world dispatch)
    (holds : inv dispatch.processed world) :
    (dispatchPidsToWorkers request fuel dispatch).wp (proc.machine rule).withSpin
      (fun found after => inv found.2.processed after ∧
        dispatch.processed ⊆ found.2.processed ∧
        (found.1 = true → Standing proc rule request after found.2) ∧
        (found.1 = false → ∀ pid ∈ request.pids, proc.Done rule found.2.processed pid)) world := by
  have remaining : ∀ pid ∈ remainingPids request.pids dispatch.cursor, pid ∈ request.pids := by
    intro pid member
    unfold remainingPids at member
    split at member
    · exact (Finset.mem_sort _).mp (List.mem_of_mem_filter member)
    · exact (Finset.mem_sort _).mp member
  have others : ∀ pid ∈ request.pids, pid ∉ remainingPids request.pids dispatch.cursor →
      proc.Done rule dispatch.processed pid := by
    intro pid member left
    unfold remainingPids at left
    split at left
    · refine standing.before pid member ?_
      by_contra later
      refine left (List.mem_filter.mpr ⟨(Finset.mem_sort _).mpr member, ?_⟩)
      exact decide_eq_true (by omega)
    · exact absurd ((Finset.mem_sort _).mpr member) left
  have sorted : (remainingPids request.pids dispatch.cursor).Pairwise (· < ·) := by
    unfold remainingPids
    have whole := request.pids.sortedLT_sort.pairwise
    split
    · exact whole.filter _
    · exact whole
  have nothing : request.pids = ∅ → ∀ pid ∈ request.pids, proc.Done rule dispatch.processed pid := by
    intro empty pid member
    rw [empty] at member
    cases member
  rw [dispatchPidsToWorkers]
  split
  · next none =>
    rw [Program.wp_bind, wp_reset]
    refine ⟨holds, Finset.Subset.refl _, fun stopped => absurd stopped Bool.false_ne_true, fun _ => ?_⟩
    exact nothing (none.resolve_left workers)
  split
  · next none =>
    rw [Program.wp_bind, wp_reset]
    refine ⟨holds, Finset.Subset.refl _, fun stopped => absurd stopped Bool.false_ne_true, fun _ pid member => ?_⟩
    exact others pid member (by rw [none]; exact List.not_mem_nil)
  · next first rest left =>
    rw [left] at remaining others sorted
    rw [Program.wp_bind]
    unfold leaveGone
    split
    · rw [wp_reset]
      exact wp_dispatchPids accounts fuel positive _ sorted remaining (cursorFor_fresh 0)
        (passed_of_start rfl) others holds
    · exact wp_dispatchPids accounts fuel positive _ sorted remaining standing.stands
        standing.passed others holds

/-- A dispatch of processes that stops nowhere leaves a fresh cursor. -/
theorem wp_dispatchPids_fresh (fuel : Nat) (pids : List Int) {dispatch : DispatchState}
    (none : pids = [] → dispatch.cursor = {}) :
    (dispatchPids request fuel pids dispatch).wp (proc.machine rule).withSpin
      (fun found _ => found.1 = false → found.2.cursor = {}) world := by
  induction pids generalizing dispatch world with
  | nil => exact fun _ => none rfl
  | cons pid rest ih =>
    have anything : (dispatchPid request fuel pid dispatch).wp (proc.machine rule).withSpin
        (fun _ _ => True) world := Program.wp_of_forall fun _ _ => trivial
    rw [dispatchPids, Program.wp_bind]
    refine Program.wp_mono anything fun found after _ => ?_
    obtain ⟨stopped, next⟩ := found
    dsimp only
    rw [Program.wp_ite]
    split
    · exact fun impossible => absurd impossible.symm Bool.false_ne_true
    · rw [Program.wp_bind, wp_reset]
      exact ih fun _ => rfl

/-- A dispatch that stops nowhere leaves a fresh cursor. -/
theorem wp_dispatchPidsToWorkers_fresh (fuel : Nat) {dispatch : DispatchState} :
    (dispatchPidsToWorkers request fuel dispatch).wp (proc.machine rule).withSpin
      (fun found _ => found.1 = false → found.2.cursor = {}) world := by
  rw [dispatchPidsToWorkers]
  split
  · rw [Program.wp_bind, wp_reset]
    exact fun _ => rfl
  split
  · rw [Program.wp_bind, wp_reset]
    exact fun _ => rfl
  · have anything : ∀ {first : Int}, (leaveGone dispatch.cursor first).wp
        (proc.machine rule).withSpin (fun _ _ => True) world :=
      Program.wp_of_forall fun _ _ => trivial
    rw [Program.wp_bind]
    refine Program.wp_mono anything fun cursor after _ => ?_
    apply wp_dispatchPids_fresh
    intro impossible
    cases impossible

end ProcContent

end ReUperf
