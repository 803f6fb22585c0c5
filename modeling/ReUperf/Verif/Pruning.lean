import ReUperf.Main.FullScan
import ReUperf.Verif.CacheRepresentation
import ReUperf.Verif.DispatchIdentity

/-!
# Pruning during a concurrent scan

A scan takes the identities that are cached when it begins, reads `/proc` in many passes, and at its
end drops the entries it takes for dead. Meanwhile workers change the cache, and processes and
threads start, end and have their IDs reused. What the scan has read may be outdated when it is used.
The module proves that the pruning is sound nevertheless: a new identity stays, a thread that lives
all the time stays, and a process that was gone before the scan began leaves nothing.

A directory is read entry by entry while processes and threads come and go. What lives from its
opening to its end is among its entries; what starts or ends meanwhile may or may not be.
-/

namespace ReUperf

open Effect FileUtils Main

/-! ## The machine -/

/-- A directory that is being read. -/
structure Listing where
  /-- The holders of the IDs when it was opened. -/
  opened : Int → Slot := fun _ => ⟨0, false⟩
  /-- The IDs among the entries read since. -/
  listed : List Int := []

namespace Listing

/-- An entry is read. -/
def read (listing : Listing) (text : Bytes) : Listing :=
  { listing with listed := listing.listed ++ (parseId text).toList }

/-- The directory may end: what lives since it was opened was listed. -/
def Complete (listing : Listing) (now : Int → Slot) : Prop :=
  ∀ id, (listing.opened id).alive = true → now id = listing.opened id → id ∈ listing.listed

/-- A list has what was listed, and the directory was opened in the time of one holder of an ID. -/
def Tracks (listing : Listing) (id : Int) (slot : Slot) (ids : List Int) : Prop :=
  listing.opened id = slot ∧ ∀ other ∈ listing.listed, other ∈ ids

variable {listing : Listing} {id : Int} {slot : Slot} {ids : List Int}

/-- An entry is read and its number is appended. -/
theorem Tracks.read (tracks : listing.Tracks id slot ids) (text : Bytes) :
    (listing.read text).Tracks id slot (ids ++ (parseId text).toList) := by
  refine ⟨tracks.1, fun other member => ?_⟩
  rcases List.mem_append.mp member with old | new
  · exact List.mem_append_left _ (tracks.2 other old)
  · exact List.mem_append_right _ new

/-- When the directory ends, the holder is among its entries if it still lives. -/
theorem Tracks.mem {start : Nat} {now : Int → Slot} (tracks : listing.Tracks id ⟨start, true⟩ ids)
    (complete : listing.Complete now) (lives : now id = ⟨start, true⟩) : id ∈ ids := by
  have opened : (listing.opened id).alive = true := by rw [tracks.1]
  have same : now id = listing.opened id := by rw [tracks.1, lives]
  exact tracks.2 id (complete id opened same)

end Listing

/-- Both start times of an identity are recorded. -/
def FullScanState.Records (scan : FullScanState) (identity : Identity) : Prop :=
  scan.liveProcesses.lookup identity.pid = some identity.processStartTime ∧
    scan.liveThreads.lookup identity.key = some identity.threadStartTime

/-- Processes and threads that come and go, the cache, and the directories a scan reads. -/
structure PruneWorld where
  /-- The process with an ID. -/
  process : Int → Slot
  /-- The thread with an ID in a process. -/
  thread : CacheKey → Slot
  /-- The thread cache. -/
  cache : ThreadCache
  /-- `/proc`. -/
  proc : Listing := {}
  /-- The task directory. -/
  task : Listing := {}
  /-- The cache as the pruning found it. -/
  found : ThreadCache := ∅

namespace PruneWorld

/-- Processes and threads come and go, and workers call methods of the cache. -/
structure Moves (world after : PruneWorld) : Prop where
  /-- Processes. -/
  process : ∀ pid, Slot.Later (world.process pid) (after.process pid)
  /-- Threads. -/
  thread : ∀ key, Slot.Later (world.thread key) (after.thread key)
  /-- The cache. -/
  cache : ∃ methods, after.cache = ThreadCache.after world.cache methods
  /-- The scan does nothing. -/
  same : after = { world with
    process := after.process, thread := after.thread, cache := after.cache }

/-- A start time that is read: that of a living holder, or zero. -/
def ReadsStart (slot : Slot) (start : Nat) : Prop :=
  ReuseWorld.ReadsStart slot start ∧ (slot.alive = true → start ≠ 0)

/-- One operation of a scan. Every read of a living process or thread succeeds. -/
def Op : PruneWorld → (operation : SysOp) → SysSig.Res operation → PruneWorld → Prop
  | world, .processStartTime _ pid, response, after =>
    ReadsStart (world.process pid) response ∧ after = world
  | world, .threadStartTime _ pid tid, response, after =>
    ReadsStart (world.thread (pid, tid)) response ∧ after = world
  | world, .processName pid, response, after =>
    ((world.process pid).alive = true → response ≠ deadName) ∧ after = world
  | world, .openProc, response, after =>
    after = if response then { world with proc := ⟨world.process, []⟩ } else world
  | world, .readProc, response, after =>
    (response = .finished → world.proc.Complete world.process) ∧
      after = match response with
        | .name text => { world with proc := world.proc.read text }
        | _ => world
  | world, .openTask pid, response, after =>
    ((world.process pid).alive = true → response = true) ∧
      after = if response then
          { world with task := ⟨fun tid => world.thread (pid, tid), []⟩ }
        else world
  | world, .readTask pid, response, after =>
    (response = .finished → world.task.Complete fun tid => world.thread (pid, tid)) ∧
      ((world.process pid).alive = true → response ≠ .failed) ∧
      after = match response with
        | .name text => { world with task := world.task.read text }
        | _ => world
  | world, .cache (.retainLiveThreads findings), _, after => after = { world with
      found := world.cache, cache := world.cache.retainLiveThreads findings }
  | world, _, _, after => after = world

/-- The machine of a scan while everything else goes on. -/
def machine : Machine SysSig PruneWorld where
  step world operation response after :=
    ∃ moved, world.Moves moved ∧ moved.Op operation response after

/-- The states between two passes of a scan. It began with the identities that were cached and with
processes that had a baseline shortly before. -/
inductive Reaches (processes : List Int) (priorStates : Table Int (Nat × ProcessState))
    (initial : PruneWorld) : FullScanState → PruneWorld → Prop where
  /-- No pass. -/
  | start : Reaches processes priorStates initial
      (.begin processes initial.cache.identitySnapshot priorStates) initial
  /-- A pass that does not finish the scan. -/
  | pass {scan next : FullScanState} {world after : PruneWorld} {fuel : Nat}
      (reached : Reaches processes priorStates initial scan world)
      (run : Program.Run machine.withSpin (advanceFullScan fuel scan) world (false, next) after) :
      Reaches processes priorStates initial next after

/-- A thread identity is alive. -/
structure Lives (world : PruneWorld) (identity : Identity) : Prop where
  /-- The kernel gives such a process ID. -/
  validPid : isValidId identity.pid = true
  /-- The kernel gives such a thread ID. -/
  validTid : isValidId identity.tid = true
  /-- The process lives. -/
  process : world.process identity.pid = ⟨identity.processStartTime, true⟩
  /-- The thread lives. -/
  thread : world.thread identity.key = ⟨identity.threadStartTime, true⟩

/-- A process identity was alive and is no more. -/
def Gone (world : PruneWorld) (pid : Int) (start : Nat) : Prop :=
  Slot.Later ⟨start, true⟩ (world.process pid) ∧ world.process pid ≠ ⟨start, true⟩

/-! ## What passes -/

/-- Processes and threads come and go. -/
structure Passes (world after : PruneWorld) : Prop where
  /-- Processes. -/
  process : ∀ pid, Slot.Later (world.process pid) (after.process pid)
  /-- Threads. -/
  thread : ∀ key, Slot.Later (world.thread key) (after.thread key)
  /-- The cache stays keyed. -/
  keyed : world.cache.Keyed → after.cache.Keyed

variable {initial world middle after : PruneWorld} {identity : Identity}

theorem Passes.refl (world : PruneWorld) : world.Passes world :=
  ⟨fun _ => .refl _, fun _ => .refl _, id⟩

theorem Passes.trans (first : world.Passes middle) (second : middle.Passes after) :
    world.Passes after where
  process pid := (first.process pid).trans (second.process pid)
  thread key := (first.thread key).trans (second.thread key)
  keyed keyed := second.keyed (first.keyed keyed)

/-- What moves, passes. -/
theorem Moves.passes (moves : world.Moves after) : world.Passes after where
  process := moves.process
  thread := moves.thread
  keyed keyed := by
    obtain ⟨methods, called⟩ := moves.cache
    rw [called]
    exact ThreadCache.keyed_after keyed methods

/-- An identity that lives before and after lives in between. -/
theorem Lives.between (first : initial.Lives identity) (since : initial.Passes world)
    (passes : world.Passes after) (last : after.Lives identity) : world.Lives identity where
  validPid := first.validPid
  validTid := first.validTid
  process := by
    have before := since.process identity.pid
    have later := passes.process identity.pid
    rw [first.process] at before
    rw [last.process] at later
    exact before.between later
  thread := by
    have before := since.thread identity.key
    have later := passes.thread identity.key
    rw [first.thread] at before
    rw [last.thread] at later
    exact before.between later

/-- Nothing but the processes, the threads and the cache changes. -/
structure Quiet (world after : PruneWorld) : Prop extends Passes world after where
  /-- `/proc` is not read. -/
  proc : after.proc = world.proc
  /-- The task directory is not read. -/
  task : after.task = world.task

/-- What moves is quiet. -/
theorem Moves.quiet (moves : world.Moves after) : world.Quiet after where
  toPasses := moves.passes
  proc := by rw [moves.same]
  task := by rw [moves.same]

/-! ## Where a scan stands -/

/-- A scan has not missed a living identity: it is still to be read, or it is recorded. -/
structure Follows (world : PruneWorld) (scan : FullScanState) (identity : Identity) : Prop where
  /-- While `/proc` is read, no process is passed. -/
  first : scan.pidEnumerationComplete = false → scan.pidIndex = 0
  /-- While `/proc` is read, the process is listed or still to be listed. -/
  proc : scan.pidEnumerationComplete = false → scan.procDir = true →
    world.proc.Tracks identity.pid ⟨identity.processStartTime, true⟩ scan.pids
  /-- The process is still to be read, or the identity is recorded. -/
  ahead : scan.pidEnumerationComplete = true →
    identity.pid ∈ scan.pids.drop scan.pidIndex ∨ scan.Records identity
  /-- The current process is recorded. -/
  current : scan.currentPid = identity.pid →
    scan.currentProcessStartTime = identity.processStartTime ∧
      scan.liveProcesses.lookup identity.pid = some identity.processStartTime
  /-- While the task directory is read, no thread is passed. -/
  firstTask : scan.currentPid = identity.pid → scan.tidEnumerationComplete = false →
    scan.tidIndex = 0
  /-- While the task directory is read, the thread is listed or still to be listed. -/
  task : scan.currentPid = identity.pid → scan.tidEnumerationComplete = false →
    scan.taskDir = true →
      world.task.Tracks identity.tid ⟨identity.threadStartTime, true⟩ scan.currentTids
  /-- The thread is still to be read, or it is recorded. -/
  thread : scan.currentPid = identity.pid → scan.tidEnumerationComplete = true →
    identity.tid ∈ scan.currentTids.drop scan.tidIndex ∨
      scan.liveThreads.lookup identity.key = some identity.threadStartTime

/-- Where a scan stands that began in a world. -/
structure Stands (initial world : PruneWorld) (scan : FullScanState) : Prop where
  /-- Time has passed since. -/
  passes : initial.Passes world
  /-- The identities it began with. -/
  snapshot : scan.scanStartIdentities = initial.cache.identitySnapshot
  /-- A recorded process has lived since. -/
  processes : ∀ pid start, scan.liveProcesses.lookup pid = some start →
    Slot.Later (initial.process pid) ⟨start, true⟩
  /-- A recorded thread has lived since. -/
  threads : ∀ key start, scan.liveThreads.lookup key = some start →
    Slot.Later (initial.thread key) ⟨start, true⟩ ∧ Slot.Later ⟨start, true⟩ (world.thread key)
  /-- No identity that lives all the time is missed. -/
  follows : ∀ identity, initial.Lives identity → world.Lives identity → world.Follows scan identity

variable {scan : FullScanState}

namespace Stands

/-- An identity that lives at the end is followed before. -/
theorem back (stands : Stands initial world scan) (passes : world.Passes after)
    (first : initial.Lives identity) (last : after.Lives identity) :
    world.Follows scan identity :=
  stands.follows identity first (first.between stands.passes passes last)

/-- Time passes. -/
theorem quiet (stands : Stands initial world scan) (quiet : world.Quiet after) :
    Stands initial after scan where
  passes := stands.passes.trans quiet.toPasses
  snapshot := stands.snapshot
  processes := stands.processes
  threads key start recorded := by
    have lived := stands.threads key start recorded
    exact ⟨lived.1, lived.2.trans (quiet.thread key)⟩
  follows identity first last := by
    have follows := stands.back quiet.toPasses first last
    exact { follows with
      proc := fun unlisted opened => by
        rw [quiet.proc]
        exact follows.proc unlisted opened
      task := fun current unlisted opened => by
        rw [quiet.task]
        exact follows.task current unlisted opened }

/-- A recorded thread of an identity that lives all the time is recorded with its start time. -/
theorem thread_eq (stands : Stands initial world scan) (first : initial.Lives identity)
    (last : world.Lives identity) {start : Nat}
    (recorded : scan.liveThreads.lookup identity.key = some start) :
    start = identity.threadStartTime := by
  have lived := stands.threads identity.key start recorded
  rw [first.thread, last.thread] at lived
  have same := lived.1.between lived.2
  exact congrArg Slot.start same

end Stands

/-! ## Operations -/

/-- An operation, after what moves meanwhile. -/
theorem wp_scanOp {operation : SysOp} {post : SysSig.Res operation → PruneWorld → Prop}
    (next : ∀ moved response after, world.Quiet moved → moved.Op operation response after →
      post response after) : (scanOp operation).wp machine.withSpin post world := by
  intro response after ⟨moved, moves, stepped⟩
  exact next moved response after moves.quiet stepped

/-- Whether an operation tells nothing of what lives. -/
def isPlain : SysOp → Bool
  | .budgetExhausted | .afterThreadRead | .processCmdline _ | .cgroupStateInfo _
  | .matchProcess _ _ _ _ => true
  | _ => false

/-- An operation that tells nothing of what lives. -/
theorem wp_plain {operation : SysOp} {post : SysSig.Res operation → PruneWorld → Prop}
    (plain : isPlain operation = true)
    (next : ∀ response after, world.Quiet after → post response after) :
    (scanOp operation).wp machine.withSpin post world := by
  apply wp_scanOp
  intro moved response after quiet stepped
  cases operation with
  | budgetExhausted | afterThreadRead | processCmdline pid | cgroupStateInfo pid
  | matchProcess pid procName state cmdline =>
    have same : after = moved := stepped
    rw [same]
    exact next response moved quiet
  | _ => cases plain

/-- A read of a living holder's start time. -/
theorem ReadsStart.eq {slot : Slot} {start read : Nat} (reads : ReadsStart slot read)
    (lives : slot = ⟨start, true⟩) : read = start ∧ start ≠ 0 := by
  obtain ⟨found, some⟩ := reads
  have alive : slot.alive = true := by rw [lives]
  have present := some alive
  have same : read = start := by
    rw [(found.resolve_left present).2, lives]
  rw [same] at present
  exact ⟨same, present⟩

/-- A start time that is read is that of the holder. -/
theorem ReadsStart.slot_eq {slot : Slot} {read : Nat} (reads : ReadsStart slot read)
    (present : read ≠ 0) : slot = ⟨read, true⟩ :=
  reads.1.slot_eq present

/-- The entries of a directory are read until it ends, fails or the budget ends. -/
theorem wp_readIds {readEntry : ScanProgram DirEntry} (inv done : List Int → PruneWorld → Prop)
    (failed : PruneWorld → Prop)
    (quiet : ∀ {ids world after}, inv ids world → world.Quiet after → inv ids after)
    (reads : ∀ {ids world}, inv ids world → readEntry.wp machine.withSpin
      (fun entry after => (entry = .finished → done ids after) ∧
        (entry = .failed → failed after) ∧
        ∀ text, entry = .name text → inv (ids ++ (parseId text).toList) after) world)
    (fuel : Nat) {ids : List Int} (holds : inv ids world) :
    (Looping.loop (readId readEntry) fuel ids).wp machine.withSpin
      (fun found after => (found.2 = .paused → inv found.1 after) ∧
        (found.2 = .finished → done found.1 after) ∧
        (found.2 = .failed → found.1 = [] ∧ failed after)) world := by
  refine Looping.wp_loop inv ?_ fuel holds
  intro ids world holds
  rw [readId, Program.wp_bind]
  apply wp_plain rfl
  intro exhausted after passed
  have holds := quiet holds passed
  rw [Program.wp_ite]
  split
  · exact ⟨fun _ => holds, fun other => ListingEnd.noConfusion other, fun other =>
      ListingEnd.noConfusion other⟩
  rw [Program.wp_bind]
  refine Program.wp_mono (reads holds) fun entry after read => ?_
  cases entry with
  | finished =>
    exact ⟨fun other => ListingEnd.noConfusion other, fun _ => read.1 rfl, fun other =>
      ListingEnd.noConfusion other⟩
  | failed =>
    exact ⟨fun other => ListingEnd.noConfusion other, fun other => ListingEnd.noConfusion other,
      fun _ => ⟨rfl, read.2.1 rfl⟩⟩
  | name text =>
    have holds := read.2.2 text rfl
    dsimp only
    rw [Program.wp_bind]
    apply wp_plain rfl
    intro _ after passed
    have holds := quiet holds passed
    cases parsed : parseId text with
    | none =>
      rw [parsed, Option.toList_none, List.append_nil] at holds
      exact holds
    | some id =>
      rw [parsed, Option.toList_some] at holds
      exact holds

/-! ## Listing the processes -/

/-- Nothing lives otherwise when only the directories differ. -/
theorem Lives.congr (lives : after.Lives identity) (process : after.process = world.process)
    (thread : after.thread = world.thread) : world.Lives identity where
  validPid := lives.validPid
  validTid := lives.validTid
  process := process ▸ lives.process
  thread := thread ▸ lives.thread

namespace Stands

/-- The list of processes changes while `/proc` is read. -/
theorem setProc (stands : Stands initial world scan)
    (unlisted : scan.pidEnumerationComplete = false) (listing : Listing) (procDir complete : Bool)
    (pids : List Int)
    (tracks : ∀ identity, initial.Lives identity → world.Lives identity →
      world.Follows scan identity →
        (complete = false → procDir = true →
          listing.Tracks identity.pid ⟨identity.processStartTime, true⟩ pids) ∧
        (complete = true → identity.pid ∈ pids)) :
    Stands initial { world with proc := listing }
      { scan with procDir := procDir, pids := pids, pidEnumerationComplete := complete } where
  passes := ⟨stands.passes.process, stands.passes.thread, stands.passes.keyed⟩
  snapshot := stands.snapshot
  processes := stands.processes
  threads := stands.threads
  follows identity first last := by
    have lives : world.Lives identity := last.congr rfl rfl
    have follows := stands.follows identity first lives
    have tracked := tracks identity first lives follows
    have unpassed := follows.first unlisted
    exact
      { first := fun _ => unpassed
        proc := tracked.1
        ahead := fun listed => by
          have member := tracked.2 listed
          rw [show FullScanState.pidIndex _ = 0 from unpassed]
          exact .inl member
        current := follows.current
        firstTask := follows.firstTask
        task := follows.task
        thread := follows.thread }

/-- An entry of `/proc` is read. -/
theorem readProc (stands : Stands initial world scan)
    (unlisted : scan.pidEnumerationComplete = false) (opened : scan.procDir = true)
    (text : Bytes) :
    Stands initial { world with proc := world.proc.read text }
      { scan with pids := scan.pids ++ (parseId text).toList } := by
  have next := stands.setProc unlisted (world.proc.read text) true false
    (scan.pids ++ (parseId text).toList)
    fun identity _ _ follows => ⟨fun _ _ => (follows.proc unlisted opened).read text,
      fun impossible => Bool.noConfusion impossible⟩
  rw [← opened, ← unlisted] at next
  exact next

/-- `/proc` ends. -/
theorem finishProc (stands : Stands initial world scan)
    (unlisted : scan.pidEnumerationComplete = false) (opened : scan.procDir = true)
    (complete : world.proc.Complete world.process) :
    Stands initial world { scan with
      procDir := false, pids := sortUnique scan.pids, pidEnumerationComplete := true } := by
  refine stands.setProc unlisted world.proc false true (sortUnique scan.pids)
    fun identity _ lives follows => ⟨fun impossible => Bool.noConfusion impossible, fun _ => ?_⟩
  have member := (follows.proc unlisted opened).mem complete lives.process
  exact (List.mem_insertionSort _).mpr (List.mem_dedup.mpr member)

/-- Reading `/proc` fails. -/
theorem failProc (stands : Stands initial world scan)
    (unlisted : scan.pidEnumerationComplete = false) :
    Stands initial world { scan with procDir := false, pids := [] } :=
  stands.setProc unlisted world.proc false scan.pidEnumerationComplete []
    fun _ _ _ _ => ⟨fun _ impossible => Bool.noConfusion impossible,
      fun listed => Bool.noConfusion (unlisted.symm.trans listed)⟩

/-- `/proc` is opened. -/
theorem openProc (stands : Stands initial world scan)
    (unlisted : scan.pidEnumerationComplete = false) :
    Stands initial { world with proc := ⟨world.process, []⟩ }
      { scan with procDir := true, pids := [] } := by
  have next := stands.setProc unlisted ⟨world.process, []⟩ true false []
    fun identity _ lives _ => ⟨fun _ _ => ⟨lives.process, fun other member =>
      absurd member List.not_mem_nil⟩, fun impossible => Bool.noConfusion impossible⟩
  rw [← unlisted] at next
  exact next

end Stands

/-- `/proc` is read. -/
theorem wp_listPids (fuel : Nat) (stands : Stands initial world scan)
    (unlisted : scan.pidEnumerationComplete = false) (opened : scan.procDir = true) :
    (scan.listPids fuel).wp machine.withSpin
      (fun found after => Stands initial after found.2 ∧
        (found.1 = true → found.2.pidEnumerationComplete = true)) world := by
  rw [FullScanState.listPids, Program.wp_bind]
  refine Program.wp_mono (wp_readIds
    (fun ids world => Stands initial world { scan with pids := ids })
    (fun ids world => Stands initial world { scan with
      procDir := false, pids := sortUnique ids, pidEnumerationComplete := true })
    (fun world => Stands initial world { scan with procDir := false, pids := [] })
    (fun stands passed => stands.quiet passed) ?_ fuel stands) ?_
  · intro ids world stands
    apply wp_scanOp
    rintro moved entry after quiet ⟨complete, rfl⟩
    have stands := stands.quiet quiet
    cases entry with
    | finished =>
      exact ⟨fun _ => stands.finishProc unlisted opened (complete rfl), fun other =>
        DirEntry.noConfusion other, fun _ other => DirEntry.noConfusion other⟩
    | failed =>
      exact ⟨fun other => DirEntry.noConfusion other, fun _ => stands.failProc unlisted,
        fun _ other => DirEntry.noConfusion other⟩
    | name text =>
      refine ⟨fun other => DirEntry.noConfusion other, fun other => DirEntry.noConfusion other,
        fun _ same => ?_⟩
      rw [← DirEntry.name.inj same]
      exact stands.readProc unlisted opened text
  · intro found after listed
    obtain ⟨ids, ended⟩ := found
    cases ended with
    | paused => exact ⟨listed.1 rfl, fun impossible => Bool.noConfusion impossible⟩
    | finished => exact ⟨listed.2.1 rfl, fun _ => rfl⟩
    | failed =>
      obtain ⟨empty, stands⟩ := listed.2.2 rfl
      have empty : ids = [] := empty
      rw [empty]
      exact ⟨stands, fun impossible => Bool.noConfusion impossible⟩

/-- Listing the processes leaves a scan where it stands. -/
theorem wp_enumeratePids (fuel : Nat) (stands : Stands initial world scan) :
    (scan.enumeratePids fuel).wp machine.withSpin
      (fun found after => Stands initial after found.2 ∧
        (found.1 = true → found.2.pidEnumerationComplete = true)) world := by
  rw [FullScanState.enumeratePids, Program.wp_ite]
  split
  · next complete => exact ⟨stands, fun _ => complete⟩
  next incomplete =>
  have unlisted : scan.pidEnumerationComplete = false := by simpa using incomplete
  rw [Program.wp_ite]
  split
  · next opened => exact wp_listPids fuel stands unlisted opened
  rw [Program.wp_bind]
  apply wp_scanOp
  rintro moved opened after quiet rfl
  have stands := stands.quiet quiet
  rw [Program.wp_ite]
  cases opened with
  | true => exact wp_listPids fuel (stands.openProc unlisted) unlisted rfl
  | false => exact ⟨stands, fun impossible => Bool.noConfusion impossible⟩

/-! ## One process -/

/-- The fields of a scan that the pruning depends on. -/
def core (scan : FullScanState) : FullScanState where
  procDir := scan.procDir
  pidEnumerationComplete := scan.pidEnumerationComplete
  pids := scan.pids
  pidIndex := scan.pidIndex
  currentPid := scan.currentPid
  currentProcessStartTime := scan.currentProcessStartTime
  taskDir := scan.taskDir
  tidEnumerationComplete := scan.tidEnumerationComplete
  currentTids := scan.currentTids
  tidIndex := scan.tidIndex
  liveProcesses := scan.liveProcesses
  liveThreads := scan.liveThreads
  scanStartIdentities := scan.scanStartIdentities

/-- A scan stands where its core stands. -/
theorem stands_core : Stands initial world (core scan) ↔ Stands initial world scan := by
  constructor
  · intro stands
    exact ⟨stands.passes, stands.snapshot, stands.processes, stands.threads,
      fun identity first last =>
        have follows := stands.follows identity first last
        ⟨follows.first, follows.proc, follows.ahead, follows.current, follows.firstTask,
          follows.task, follows.thread⟩⟩
  · intro stands
    exact ⟨stands.passes, stands.snapshot, stands.processes, stands.threads,
      fun identity first last =>
        have follows := stands.follows identity first last
        ⟨follows.first, follows.proc, follows.ahead, follows.current, follows.firstTask,
          follows.task, follows.thread⟩⟩

/-- The other fields do not matter. -/
theorem Stands.congr {other : FullScanState} (stands : Stands initial world scan)
    (same : core other = core scan) : Stands initial world other := by
  rw [← stands_core, same, stands_core]
  exact stands

/-- What a read of the start time of a process tells. -/
structure SeesProcess (world : PruneWorld) (pid : Int) (start : Nat) : Prop where
  /-- A start time is that of the living process. -/
  sound : start ≠ 0 → world.process pid = ⟨start, true⟩
  /-- The start time of a living process is read. -/
  complete : isValidId pid = true → ∀ live, world.process pid = ⟨live, true⟩ →
    start = live ∧ live ≠ 0

/-- The start time of a process is read. -/
theorem wp_scanStartTime {use : ReadUse} {pid : Int} {post : Nat → PruneWorld → Prop}
    (next : ∀ start after, world.Quiet after → after.SeesProcess pid start → post start after) :
    (scanStartTime use pid).wp machine.withSpin post world := by
  rw [scanStartTime, Program.wp_ite]
  split
  · next valid =>
    apply wp_scanOp
    rintro moved start after quiet ⟨reads, rfl⟩
    exact next start _ quiet ⟨fun present => reads.slot_eq present, fun _ live lives =>
      reads.eq lives⟩
  · next invalid =>
    exact next 0 world ⟨.refl world, rfl, rfl⟩ ⟨fun impossible => absurd rfl impossible,
      fun valid => absurd valid invalid⟩

/-- What a read of the start time of a thread tells. -/
structure SeesThread (world : PruneWorld) (key : CacheKey) (start : Nat) : Prop where
  /-- A start time is that of the living thread. -/
  sound : start ≠ 0 → world.thread key = ⟨start, true⟩
  /-- The start time of a living thread is read. -/
  complete : isValidId key.1 = true → isValidId key.2 = true → ∀ live,
    world.thread key = ⟨live, true⟩ → start = live ∧ live ≠ 0

/-- The start time of a thread is read. -/
theorem wp_scanThreadStartTime {pid tid : Int} {post : Nat → PruneWorld → Prop}
    (next : ∀ start after, world.Quiet after → after.SeesThread (pid, tid) start →
      post start after) :
    (scanThreadStartTime pid tid).wp machine.withSpin post world := by
  rw [scanThreadStartTime, Program.wp_ite]
  split
  · next valid =>
    apply wp_scanOp
    rintro moved start after quiet ⟨reads, rfl⟩
    exact next start _ quiet ⟨fun present => reads.slot_eq present, fun _ _ live lives =>
      reads.eq lives⟩
  · next invalid =>
    have refuted : isValidId pid = true → isValidId tid = true → False := by
      intro validPid validTid
      rw [validPid, validTid] at invalid
      exact invalid rfl
    exact next 0 world ⟨.refl world, rfl, rfl⟩ ⟨fun impossible => absurd rfl impossible,
      fun validPid validTid => (refuted validPid validTid).elim⟩

/-- The processes are listed, and the current one is next. -/
def Begun (scan : FullScanState) : Prop :=
  scan.pidEnumerationComplete = true ∧ scan.pids[scan.pidIndex]? = some scan.currentPid

/-- No living identity has the process ID zero. -/
theorem Lives.pid_ne_zero (lives : world.Lives identity) : (0 : Int) ≠ identity.pid := by
  have bounds := of_decide_eq_true lives.validPid
  omega

namespace Stands

variable {pid : Int}

/-- The next process is passed when no living identity of it is missed. -/
theorem next (stands : Stands initial world scan) (complete : scan.pidEnumerationComplete = true)
    (here : scan.pids[scan.pidIndex]? = some pid)
    (done : ∀ identity, initial.Lives identity → world.Lives identity → identity.pid = pid →
      scan.Records identity) : Stands initial world scan.nextPid where
  passes := stands.passes
  snapshot := stands.snapshot
  processes := stands.processes
  threads := stands.threads
  follows identity first last := by
    have follows := stands.follows identity first last
    have noCurrent : ¬ (0 : Int) = identity.pid := last.pid_ne_zero
    have listed : ¬ scan.pidEnumerationComplete = false := by rw [complete]; exact Bool.noConfusion
    have ahead : identity.pid ∈ scan.pids.drop (scan.pidIndex + 1) ∨ scan.Records identity := by
      rcases follows.ahead complete with later | recorded
      · rw [List.drop_eq_getElem?_toList_append, here] at later
        rcases List.mem_cons.mp later with same | rest
        · exact .inr (done identity first last same)
        · exact .inl rest
      · exact .inr recorded
    exact
      { first := fun unlisted => absurd unlisted listed
        proc := fun unlisted => absurd unlisted listed
        ahead := fun _ => ahead
        current := fun same => absurd same noCurrent
        firstTask := fun same => absurd same noCurrent
        task := fun same => absurd same noCurrent
        thread := fun same => absurd same noCurrent }

/-- A process is begun: it is recorded with the start time that was read. -/
theorem begin (stands : Stands initial world scan) {start : Nat}
    (sees : world.SeesProcess pid start) (present : start ≠ 0) :
    Stands initial world (FullScanState.recordLive
      { scan.clearCurrentPid with currentPid := pid, currentProcessStartTime := start }) where
  passes := stands.passes
  snapshot := stands.snapshot
  processes other found recorded := by
    have lived := stands.passes.process pid
    rw [sees.sound present] at lived
    by_cases same : other = pid
    · rw [same] at recorded ⊢
      have inserted : some start = some found := (AList.lookup_insert _).symm.trans recorded
      rw [← Option.some.inj inserted]
      exact lived
    · exact stands.processes other found ((AList.lookup_insert_ne same).symm.trans recorded)
  threads := stands.threads
  follows identity first last := by
    have follows := stands.follows identity first last
    have own : pid = identity.pid → start = identity.processStartTime := by
      intro same
      have lives : world.process pid = ⟨identity.processStartTime, true⟩ := by
        rw [same]
        exact last.process
      exact (sees.complete (same ▸ last.validPid) _ lives).1
    have recorded : pid = identity.pid →
        (scan.liveProcesses.insert pid start).lookup identity.pid =
          some identity.processStartTime := by
      intro same
      rw [← same, AList.lookup_insert, own same]
    have kept : scan.liveProcesses.lookup identity.pid = some identity.processStartTime →
        (scan.liveProcesses.insert pid start).lookup identity.pid =
          some identity.processStartTime := by
      intro found
      by_cases same : pid = identity.pid
      · exact recorded same
      · rw [AList.lookup_insert_ne (Ne.symm same)]
        exact found
    exact
      { first := follows.first
        proc := follows.proc
        ahead := fun complete => (follows.ahead complete).imp id fun records =>
          ⟨kept records.1, records.2⟩
        current := fun same => ⟨own same, recorded same⟩
        firstTask := fun _ _ => rfl
        task := fun _ _ opened => Bool.noConfusion opened
        thread := fun _ complete => Bool.noConfusion complete }

/-- The list of threads changes while the task directory is read. -/
theorem setTask (stands : Stands initial world scan)
    (unlisted : scan.tidEnumerationComplete = false) (listing : Listing) (taskDir complete : Bool)
    (tids : List Int)
    (tracks : ∀ identity, initial.Lives identity → world.Lives identity →
      world.Follows scan identity → scan.currentPid = identity.pid →
        (complete = false → taskDir = true →
          listing.Tracks identity.tid ⟨identity.threadStartTime, true⟩ tids) ∧
        (complete = true → identity.tid ∈ tids)) :
    Stands initial { world with task := listing }
      { scan with taskDir := taskDir, currentTids := tids, tidEnumerationComplete := complete } where
  passes := ⟨stands.passes.process, stands.passes.thread, stands.passes.keyed⟩
  snapshot := stands.snapshot
  processes := stands.processes
  threads := stands.threads
  follows identity first last := by
    have lives : world.Lives identity := last.congr rfl rfl
    have follows := stands.follows identity first lives
    have tracked := tracks identity first lives follows
    exact
      { first := follows.first
        proc := follows.proc
        ahead := follows.ahead
        current := follows.current
        firstTask := fun same _ => follows.firstTask same unlisted
        task := fun same => (tracked same).1
        thread := fun same listed => by
          have unpassed := follows.firstTask same unlisted
          have member := (tracked same).2 listed
          rw [show FullScanState.tidIndex _ = 0 from unpassed]
          exact .inl member }

/-- An entry of the task directory is read. -/
theorem readTask (stands : Stands initial world scan)
    (unlisted : scan.tidEnumerationComplete = false) (opened : scan.taskDir = true)
    (text : Bytes) :
    Stands initial { world with task := world.task.read text }
      { scan with currentTids := scan.currentTids ++ (parseId text).toList } := by
  have next := stands.setTask unlisted (world.task.read text) true false
    (scan.currentTids ++ (parseId text).toList)
    fun identity _ _ follows same => ⟨fun _ _ => (follows.task same unlisted opened).read text,
      fun impossible => Bool.noConfusion impossible⟩
  rw [← opened, ← unlisted] at next
  exact next

/-- The task directory ends. -/
theorem finishTask (stands : Stands initial world scan)
    (unlisted : scan.tidEnumerationComplete = false) (opened : scan.taskDir = true)
    (complete : world.task.Complete fun tid => world.thread (scan.currentPid, tid)) :
    Stands initial world { scan with
      taskDir := false, currentTids := sortUnique scan.currentTids
      tidEnumerationComplete := true } := by
  refine stands.setTask unlisted world.task false true (sortUnique scan.currentTids)
    fun identity _ lives follows same =>
      ⟨fun impossible => Bool.noConfusion impossible, fun _ => ?_⟩
  have thread : world.thread (scan.currentPid, identity.tid) =
      ⟨identity.threadStartTime, true⟩ := by
    rw [same]
    exact lives.thread
  have member := (follows.task same unlisted opened).mem complete thread
  exact (List.mem_insertionSort _).mpr (List.mem_dedup.mpr member)

/-- The threads of a process that has ended cannot be listed. -/
theorem failTask (stands : Stands initial world scan)
    (unlisted : scan.tidEnumerationComplete = false) (taskDir : Bool) (tids : List Int)
    (ended : (world.process scan.currentPid).alive = false) :
    Stands initial world { scan with
      taskDir := taskDir, currentTids := tids, tidEnumerationComplete := true } := by
  refine stands.setTask unlisted world.task taskDir true tids
    fun identity _ lives _ same => ?_
  rw [same, lives.process] at ended
  cases ended

/-- The task directory is opened. -/
theorem openTask (stands : Stands initial world scan)
    (unlisted : scan.tidEnumerationComplete = false) :
    Stands initial { world with task := ⟨fun tid => world.thread (scan.currentPid, tid), []⟩ }
      { scan with taskDir := true, currentTids := [] } := by
  have next := stands.setTask unlisted ⟨fun tid => world.thread (scan.currentPid, tid), []⟩ true
    false [] fun identity _ lives _ same => ⟨fun _ _ => ⟨by rw [same]; exact lives.thread,
      fun other member => absurd member List.not_mem_nil⟩,
      fun impossible => Bool.noConfusion impossible⟩
  rw [← unlisted] at next
  exact next

/-- The current process is withdrawn when it is another one than was read. -/
theorem withdraw (stands : Stands initial world scan)
    (other : ∀ identity, initial.Lives identity → world.Lives identity →
      scan.currentPid ≠ identity.pid) :
    Stands initial world scan.withdraw.clearCurrentPid where
  passes := stands.passes
  snapshot := stands.snapshot
  processes pid start recorded := by
    by_cases same : pid = scan.currentPid
    · have erased : (scan.liveProcesses.erase scan.currentPid).lookup pid = none := by
        rw [same]
        exact AList.lookup_erase _ _
      exact absurd (erased.symm.trans recorded) (Option.some_ne_none _).symm
    · exact stands.processes pid start ((AList.lookup_erase_ne same).symm.trans recorded)
  threads key start recorded :=
    stands.threads key start (Table.lookup_retain_eq_some.mp recorded).1
  follows identity first last := by
    have follows := stands.follows identity first last
    have differ := other identity first last
    have noCurrent : ¬ (0 : Int) = identity.pid := last.pid_ne_zero
    have process : scan.withdraw.liveProcesses.lookup identity.pid =
        scan.liveProcesses.lookup identity.pid := AList.lookup_erase_ne (Ne.symm differ)
    have thread : ∀ start, scan.liveThreads.lookup identity.key = some start →
        scan.withdraw.liveThreads.lookup identity.key = some start := by
      intro start recorded
      have kept : decide (identity.key.1 ≠ scan.currentPid) = true :=
        decide_eq_true (Ne.symm differ)
      exact Table.lookup_retain_eq_some.mpr ⟨recorded, kept⟩
    exact
      { first := follows.first
        proc := follows.proc
        ahead := fun complete => (follows.ahead complete).imp id fun records =>
          ⟨process.trans records.1, thread _ records.2⟩
        current := fun same => absurd same noCurrent
        firstTask := fun same => absurd same noCurrent
        task := fun same => absurd same noCurrent
        thread := fun same => absurd same noCurrent }

/-- A thread is recorded unless it was before. -/
theorem recordThread (stands : Stands initial world scan) {tid : Int} {rest : List Int}
    {start : Nat} (listed : scan.tidEnumerationComplete = true)
    (here : scan.currentTids.drop scan.tidIndex = tid :: rest)
    (sees : world.SeesThread (scan.currentPid, tid) start) :
    Stands initial world ({ scan with tidIndex := scan.tidIndex + 1 }.recordThread tid start) := by
  have tail : scan.currentTids.drop (scan.tidIndex + 1) = rest := by
    rw [← List.tail_drop, here, List.tail_cons]
  -- what is read of the thread of an identity that lives
  have own : ∀ identity, world.Lives identity → scan.currentPid = identity.pid →
      identity.tid = tid → start = identity.threadStartTime ∧ identity.threadStartTime ≠ 0 := by
    intro identity last pid same
    have key : (scan.currentPid, tid) = identity.key := by rw [pid, ← same]; rfl
    rw [key] at sees
    exact sees.complete last.validPid last.validTid _ last.thread
  have unpassed : ∀ identity, world.Follows scan identity → scan.currentPid = identity.pid →
      identity.tid ∈ rest ∨ identity.tid = tid ∨
        scan.liveThreads.lookup identity.key = some identity.threadStartTime := by
    intro identity follows same
    rcases follows.thread same listed with later | recorded
    · rw [here] at later
      rcases List.mem_cons.mp later with first | last
      · exact .inr (.inl first)
      · exact .inl last
    · exact .inr (.inr recorded)
  rw [FullScanState.recordThread]
  split
  · next unrecorded =>
    refine ⟨stands.passes, stands.snapshot, stands.processes, stands.threads,
      fun identity first last => ?_⟩
    have follows := stands.follows identity first last
    refine { follows with
      firstTask := fun same unlisted => absurd (listed.symm.trans unlisted) Bool.noConfusion
      thread := fun same _ => ?_ }
    show identity.tid ∈ scan.currentTids.drop (scan.tidIndex + 1) ∨ _
    rw [tail]
    rcases unpassed identity follows same with later | here | recorded
    · exact .inl later
    · have read := own identity last same here
      have found : (scan.currentPid, tid) ∈ scan.liveThreads :=
        unrecorded.resolve_left fun none => read.2 (read.1.symm.trans none)
      have key : (scan.currentPid, tid) = identity.key := by rw [same, ← here]; rfl
      obtain ⟨value, recorded⟩ := Option.isSome_iff_exists.mp (AList.lookup_isSome.mpr found)
      rw [key] at recorded
      rw [stands.thread_eq first last recorded] at recorded
      exact .inr recorded
    · exact .inr recorded
  · next fresh =>
    have present : start ≠ 0 := fun none => fresh (.inl none)
    have unknown : scan.liveThreads.lookup (scan.currentPid, tid) = none :=
      AList.lookup_eq_none.mpr fun found => fresh (.inr found)
    have lived := sees.sound present
    have kept : ∀ key value, scan.liveThreads.lookup key = some value →
        (scan.liveThreads.insert (scan.currentPid, tid) start).lookup key = some value := by
      intro key value recorded
      have differ : key ≠ (scan.currentPid, tid) := by
        rintro rfl
        rw [unknown] at recorded
        cases recorded
      rw [AList.lookup_insert_ne differ]
      exact recorded
    refine ⟨stands.passes, stands.snapshot, stands.processes, fun key value recorded => ?_,
      fun identity first last => ?_⟩
    · by_cases same : key = (scan.currentPid, tid)
      · rw [same] at recorded ⊢
        have inserted : some start = some value := (AList.lookup_insert _).symm.trans recorded
        have since := stands.passes.thread (scan.currentPid, tid)
        rw [lived] at since
        rw [← Option.some.inj inserted, lived]
        exact ⟨since, .refl _⟩
      · exact stands.threads key value ((AList.lookup_insert_ne same).symm.trans recorded)
    · have follows := stands.follows identity first last
      refine { follows with
        ahead := fun complete => (follows.ahead complete).imp id fun records =>
          ⟨records.1, kept _ _ records.2⟩
        firstTask := fun same unlisted => absurd (listed.symm.trans unlisted) Bool.noConfusion
        thread := fun same _ => ?_ }
      show identity.tid ∈ scan.currentTids.drop (scan.tidIndex + 1) ∨ _
      rw [tail]
      rcases unpassed identity follows same with later | here | recorded
      · exact .inl later
      · have read := own identity last same here
        have key : (scan.currentPid, tid) = identity.key := by rw [same, ← here]; rfl
        refine .inr ?_
        show (scan.liveThreads.insert (scan.currentPid, tid) start).lookup identity.key = _
        rw [← key, AList.lookup_insert, read.1]
      · exact .inr (kept _ _ recorded)

end Stands

/-- The task directory is read. -/
theorem wp_listTids (fuel : Nat) (stands : Stands initial world scan) (begun : Begun scan)
    (unlisted : scan.tidEnumerationComplete = false) (opened : scan.taskDir = true) :
    (scan.listTids fuel).wp machine.withSpin
      (fun found after => Stands initial after found.2 ∧ Begun found.2 ∧
        (found.1 = true → found.2.tidEnumerationComplete = true)) world := by
  rw [FullScanState.listTids, Program.wp_bind]
  refine Program.wp_mono (wp_readIds
    (fun ids world => Stands initial world { scan with currentTids := ids })
    (fun ids world => Stands initial world { scan with
      taskDir := false, currentTids := sortUnique ids, tidEnumerationComplete := true })
    (fun world => ∀ ids, Stands initial world { scan with
      taskDir := false, currentTids := ids, tidEnumerationComplete := true })
    (fun stands passed => stands.quiet passed) ?_ fuel stands) ?_
  · intro ids world stands
    apply wp_scanOp
    rintro moved entry after quiet ⟨complete, failing, rfl⟩
    have stands := stands.quiet quiet
    cases entry with
    | finished =>
      exact ⟨fun _ => stands.finishTask unlisted opened (complete rfl), fun other =>
        DirEntry.noConfusion other, fun _ other => DirEntry.noConfusion other⟩
    | failed =>
      have ended : (moved.process scan.currentPid).alive = false := by
        by_contra living
        exact failing (by simpa using living) rfl
      exact ⟨fun other => DirEntry.noConfusion other, fun _ ids =>
        stands.failTask unlisted false ids ended, fun _ other => DirEntry.noConfusion other⟩
    | name text =>
      refine ⟨fun other => DirEntry.noConfusion other, fun other => DirEntry.noConfusion other,
        fun _ same => ?_⟩
      rw [← DirEntry.name.inj same]
      exact stands.readTask unlisted opened text
  · intro found after listed
    obtain ⟨ids, ended⟩ := found
    cases ended with
    | paused => exact ⟨listed.1 rfl, begun, fun impossible => Bool.noConfusion impossible⟩
    | finished => exact ⟨listed.2.1 rfl, begun, fun _ => rfl⟩
    | failed => exact ⟨(listed.2.2 rfl).2 _, begun, fun _ => rfl⟩

/-- Listing the threads of the current process. -/
theorem wp_enumerateCurrentTids (fuel : Nat) (stands : Stands initial world scan)
    (begun : Begun scan) :
    (scan.enumerateCurrentTids fuel).wp machine.withSpin
      (fun found after => Stands initial after found.2 ∧ Begun found.2 ∧
        (found.1 = true → found.2.tidEnumerationComplete = true)) world := by
  rw [FullScanState.enumerateCurrentTids, Program.wp_ite]
  split
  · next complete => exact ⟨stands, begun, fun _ => complete⟩
  next incomplete =>
  have unlisted : scan.tidEnumerationComplete = false := by simpa using incomplete
  rw [Program.wp_ite]
  split
  · next opened => exact wp_listTids fuel stands begun unlisted opened
  rw [Program.wp_bind]
  apply wp_scanOp
  rintro moved opened after quiet ⟨living, rfl⟩
  have stands := stands.quiet quiet
  rw [Program.wp_ite]
  cases opened with
  | true => exact wp_listTids fuel (stands.openTask unlisted) begun unlisted rfl
  | false =>
    have ended : (moved.process scan.currentPid).alive = false := by
      by_contra alive
      exact Bool.noConfusion (living (by simpa using alive))
    exact ⟨stands.failTask unlisted scan.taskDir scan.currentTids ended, begun, fun _ => rfl⟩

/-- Reading the threads of the current process. -/
theorem wp_readThreads (tids : List Int) (stands : Stands initial world scan) (begun : Begun scan)
    (listed : scan.tidEnumerationComplete = true)
    (here : scan.currentTids.drop scan.tidIndex = tids) :
    (readThreads tids scan).wp machine.withSpin
      (fun found after => Stands initial after found.2 ∧ Begun found.2 ∧
        (found.1 = true → found.2.tidEnumerationComplete = true ∧
          found.2.currentTids.drop found.2.tidIndex = [])) world := by
  induction tids generalizing scan world with
  | nil => exact ⟨stands, begun, fun _ => ⟨listed, here⟩⟩
  | cons tid rest ih =>
    rw [readThreads, Program.wp_bind]
    apply wp_plain rfl
    intro exhausted after passed
    have stands := stands.quiet passed
    rw [Program.wp_ite]
    split
    · exact ⟨stands, begun, fun impossible => Bool.noConfusion impossible⟩
    rw [Program.wp_bind]
    apply wp_scanThreadStartTime
    intro start after passed sees
    have stands := (stands.quiet passed).recordThread listed here sees
    rw [Program.wp_bind]
    apply wp_plain rfl
    intro _ after passed
    have stands := stands.quiet passed
    have tail : scan.currentTids.drop (scan.tidIndex + 1) = rest := by
      rw [← List.tail_drop, here, List.tail_cons]
    -- recording changes neither the lists nor the positions
    have fields : Begun ({ scan with tidIndex := scan.tidIndex + 1 }.recordThread tid start) ∧
        ({ scan with tidIndex := scan.tidIndex + 1 }.recordThread tid
          start).tidEnumerationComplete = true ∧
        ({ scan with tidIndex := scan.tidIndex + 1 }.recordThread tid start).currentTids.drop
          ({ scan with tidIndex := scan.tidIndex + 1 }.recordThread tid start).tidIndex = rest := by
      rw [FullScanState.recordThread]
      split
      · exact ⟨begun, listed, tail⟩
      · exact ⟨begun, listed, tail⟩
    exact ih stands fields.1 fields.2.1 fields.2.2

/-- Reading a process: it is begun, or it is passed and no living identity of it is missed. -/
theorem wp_readProcess {pid : Int} (stands : Stands initial world scan)
    (complete : scan.pidEnumerationComplete = true)
    (here : scan.pids[scan.pidIndex]? = some pid) :
    (readProcess scan pid).wp machine.withSpin
      (fun found after => Stands initial after found.2 ∧
        found.2.pidEnumerationComplete = true ∧ (found.1 = true → Begun found.2)) world := by
  rw [readProcess, Program.wp_bind]
  apply wp_scanStartTime
  intro start first passed sees
  have stands := stands.quiet passed
  rw [Program.wp_bind]
  -- what the read tells of an identity that lives on
  have own : ∀ {later : PruneWorld}, first.Passes later → ∀ identity, initial.Lives identity →
      later.Lives identity → identity.pid = pid → start ≠ 0 := by
    intro later passes identity before after same none
    have lives := before.between stands.passes passes after
    have read := sees.complete (same ▸ lives.validPid) _ (same ▸ lives.process)
    exact read.2 (read.1.symm.trans none)
  by_cases missing : start = 0
  · apply wp_plain rfl
    intro _ after passed
    have passing := (stands.quiet passed).next complete here fun identity before after same =>
      absurd missing (own passed.toPasses identity before after same)
    rw [if_pos missing]
    exact ⟨passing.congr rfl, complete, fun impossible => Bool.noConfusion impossible⟩
  have begun := stands.begin sees missing
  apply wp_plain rfl
  intro _ second passed
  have stands := stands.quiet passed
  have begun := begun.quiet passed
  rw [if_neg missing, Program.wp_bind]
  apply wp_scanOp
  rintro _ name third passed ⟨named, rfl⟩
  have stands := stands.quiet passed
  have begun := begun.quiet passed
  rw [Program.wp_ite]
  split
  · next dead =>
    have passing := stands.next complete here fun identity _ after same => by
      have alive : (third.process pid).alive = true := by rw [← same, after.process]
      exact absurd dead (named alive)
    exact ⟨passing.congr rfl, complete, fun impossible => Bool.noConfusion impossible⟩
  dsimp only
  rw [Program.wp_bind]
  apply wp_plain rfl
  intro cmdline fourth passed
  have begun := begun.quiet passed
  rw [Program.wp_bind]
  apply wp_plain rfl
  intro cgroup fifth passed
  have begun := begun.quiet passed
  exact ⟨begun.congr rfl, complete, fun _ => ⟨complete, here⟩⟩

/-- What the scan of one process leaves: the scan goes on, or its pass ends, perhaps because every
process was read. -/
def Leaves (initial after : PruneWorld) (outcome : FullScanState ⊕ (Bool × FullScanState)) : Prop :=
  outcome.elim
    (fun next => Stands initial after next ∧ next.pidEnumerationComplete = true)
    fun found => Stands initial after found.2 ∧ found.2.pidEnumerationComplete = true ∧
      (found.1 = true → found.2.pids[found.2.pidIndex]? = none)

/-- Checking that the current process is still the one that was read. -/
theorem wp_verifyProcess (stands : Stands initial world scan) (begun : Begun scan)
    (listed : scan.tidEnumerationComplete = true)
    (finished : scan.currentTids.drop scan.tidIndex = []) :
    (verifyProcess scan).wp machine.withSpin (fun outcome after => Leaves initial after outcome)
      world := by
  rw [verifyProcess, Program.wp_bind]
  apply wp_plain rfl
  intro exhausted after passed
  have stands := stands.quiet passed
  rw [Program.wp_ite]
  split
  · exact ⟨stands, begun.1, fun impossible => Bool.noConfusion impossible⟩
  rw [Program.wp_bind]
  apply wp_scanStartTime
  intro verified after passed sees
  have stands := stands.quiet passed
  rw [Program.wp_ite]
  split
  · next changed =>
    refine ⟨stands.withdraw fun identity first last same => changed ?_, begun.1⟩
    have follows := stands.follows identity first last
    have read := sees.complete (same ▸ last.validPid) _ (same ▸ last.process)
    rw [read.1, (follows.current same).1]
  rw [Program.wp_bind]
  apply wp_plain rfl
  intro result after passed
  have stands := stands.quiet passed
  have passing := stands.next begun.1 begun.2 fun identity first last same => by
    have follows := stands.follows identity first last
    refine ⟨(follows.current same.symm).2, ?_⟩
    rcases follows.thread same.symm listed with later | recorded
    · rw [finished] at later
      exact absurd later List.not_mem_nil
    · exact recorded
  exact ⟨passing.congr rfl, begun.1⟩

/-- Going on with the current process. -/
theorem wp_continueProcess (fuel : Nat) (stands : Stands initial world scan)
    (begun : Begun scan) :
    (continueProcess fuel scan).wp machine.withSpin
      (fun outcome after => Leaves initial after outcome) world := by
  rw [continueProcess, Program.wp_bind]
  refine Program.wp_mono (wp_enumerateCurrentTids fuel stands begun) fun found after reached => ?_
  obtain ⟨listed, scan⟩ := found
  obtain ⟨stands, begun, complete⟩ := reached
  dsimp only at stands begun complete ⊢
  rw [Program.wp_ite]
  split
  · exact ⟨stands, begun.1, fun impossible => Bool.noConfusion impossible⟩
  next going =>
  have all : listed = true := by simpa using going
  rw [Program.wp_bind]
  refine Program.wp_mono (wp_readThreads _ stands begun (complete all) rfl)
    fun found after reached => ?_
  obtain ⟨finished, scan⟩ := found
  obtain ⟨stands, begun, complete⟩ := reached
  dsimp only at stands begun complete ⊢
  rw [Program.wp_ite]
  split
  · exact ⟨stands, begun.1, fun impossible => Bool.noConfusion impossible⟩
  next going =>
  have all : finished = true := by simpa using going
  exact wp_verifyProcess stands begun (complete all).1 (complete all).2

/-- Scanning the next process. -/
theorem wp_scanNext (fuel : Nat) (stands : Stands initial world scan)
    (complete : scan.pidEnumerationComplete = true) :
    (scanNext fuel scan).wp machine.withSpin (fun outcome after => Leaves initial after outcome)
      world := by
  rw [scanNext]
  cases here : scan.pids[scan.pidIndex]? with
  | none => exact ⟨stands, complete, fun _ => here⟩
  | some pid =>
    dsimp only
    rw [Program.wp_bind]
    apply wp_plain rfl
    intro exhausted after passed
    have stands := stands.quiet passed
    rw [Program.wp_ite]
    split
    · exact ⟨stands, complete, fun impossible => Bool.noConfusion impossible⟩
    rw [Program.wp_ite]
    split
    · next same => exact wp_continueProcess fuel stands ⟨complete, by rw [here, same]⟩
    rw [Program.wp_bind]
    refine Program.wp_mono (wp_readProcess stands complete here) fun found after reached => ?_
    obtain ⟨alive, scan⟩ := found
    obtain ⟨stands, complete, begun⟩ := reached
    dsimp only at stands complete begun ⊢
    rw [Program.wp_ite]
    split
    · next lives => exact wp_continueProcess fuel stands (begun lives)
    · exact ⟨stands, complete⟩

/-- The last operation of a scan: the cache is pruned with what the scan has found. -/
def Prunes (initial final : PruneWorld) : Prop :=
  ∃ scan moved, Stands initial moved scan ∧ scan.pidEnumerationComplete = true ∧
    scan.pids[scan.pidIndex]? = none ∧
    final = { moved with
      found := moved.cache, cache := moved.cache.retainLiveThreads scan.findings }

/-- A pass leaves a scan where it stands, or prunes the cache. -/
theorem wp_advanceFullScan (fuel : Nat) (stands : Stands initial world scan) :
    (advanceFullScan fuel scan).wp machine.withSpin
      (fun found after => (found.1 = false → Stands initial after found.2) ∧
        (found.1 = true → Prunes initial after)) world := by
  rw [advanceFullScan, Program.wp_ite]
  split
  · exact ⟨fun _ => stands, fun impossible => Bool.noConfusion impossible⟩
  rw [Program.wp_bind]
  refine Program.wp_mono (wp_enumeratePids fuel stands) fun found after reached => ?_
  obtain ⟨listed, scan⟩ := found
  obtain ⟨stands, complete⟩ := reached
  dsimp only at stands complete ⊢
  rw [Program.wp_ite]
  split
  · exact ⟨fun _ => stands, fun impossible => Bool.noConfusion impossible⟩
  next going =>
  have all : listed = true := by simpa using going
  rw [Program.wp_bind]
  refine Program.wp_mono (Looping.wp_loop
    (fun scan world => Stands initial world scan ∧ scan.pidEnumerationComplete = true)
    (fun scan world holds => Program.wp_mono (wp_scanNext fuel holds.1 holds.2)
      fun outcome after leaves => leaves) fuel ⟨stands, complete all⟩) fun found after reached => ?_
  obtain ⟨finished, scan⟩ := found
  obtain ⟨stands, complete, last⟩ := reached
  dsimp only at stands complete last ⊢
  rw [Program.wp_ite]
  split
  · exact ⟨fun _ => stands, fun impossible => Bool.noConfusion impossible⟩
  next going =>
  have all : finished = true := by simpa using going
  rw [Program.wp_bind]
  apply wp_scanOp
  rintro moved _ final quiet rfl
  exact ⟨fun impossible => Bool.noConfusion impossible,
    fun _ => ⟨scan, moved, stands.quiet quiet, complete, last all, rfl⟩⟩

/-- A scan that begins follows every identity. -/
theorem stands_begin (initial : PruneWorld) (processes : List Int)
    (priorStates : Table Int (Nat × ProcessState)) :
    Stands initial initial
      (.begin processes initial.cache.identitySnapshot priorStates) where
  passes := .refl initial
  snapshot := rfl
  processes pid start recorded := by cases recorded
  threads key start recorded := by cases recorded
  follows identity _ last :=
    { first := fun _ => rfl
      proc := fun _ opened => Bool.noConfusion opened
      ahead := fun complete => Bool.noConfusion complete
      current := fun same => absurd same last.pid_ne_zero
      firstTask := fun same => absurd same last.pid_ne_zero
      task := fun same => absurd same last.pid_ne_zero
      thread := fun same => absurd same last.pid_ne_zero }

variable {processes : List Int} {priorStates : Table Int (Nat × ProcessState)}

/-- Between two passes a scan stands where it began. -/
theorem Reaches.stands (reached : Reaches processes priorStates initial scan world) :
    Stands initial world scan := by
  induction reached with
  | start => exact stands_begin initial processes priorStates
  | pass _ run ih => exact (run.post (wp_advanceFullScan _ ih)).1 rfl

/-! ## Pruning -/

/-- The start times a scan began with. -/
theorem lookup_snapshot (cache : ThreadCache) (key : CacheKey) :
    cache.identitySnapshot.lookup key = (cache.lookup key).map fun entry =>
      (entry.identity.processStartTime, entry.identity.threadStartTime) :=
  Table.lookup_mapValues _ _ _

/-- What the pruning keeps. -/
theorem lookup_retainLiveThreads (cache : ThreadCache) (findings : ThreadCache.ScanFindings)
    (key : CacheKey) :
    (cache.retainLiveThreads findings).lookup key =
      (cache.lookup key).filter (ThreadCache.survives findings key) :=
  Table.lookup_retain _ _ _

/-- An entry with other start times than were cached when the scan began survives. -/
theorem survives_of_new {findings : ThreadCache.ScanFindings} {key : CacheKey}
    {entry : ThreadCacheEntry}
    (other : findings.scanStartIdentities.lookup key ≠
      some (entry.identity.processStartTime, entry.identity.threadStartTime)) :
    ThreadCache.survives findings key entry = true := by
  rw [ThreadCache.survives, if_pos other]

/-- An entry whose process and thread were found survives. -/
theorem survives_of_records (records : scan.Records identity) {entry : ThreadCacheEntry}
    (same : entry.identity = identity) :
    ThreadCache.survives scan.findings identity.key entry = true := by
  by_cases known : scan.findings.scanStartIdentities.lookup identity.key =
      some (entry.identity.processStartTime, entry.identity.threadStartTime)
  · have process : scan.findings.liveProcesses.lookup entry.identity.pid =
        some entry.identity.processStartTime := by
      rw [same]
      exact records.1
    have thread : scan.findings.liveThreads.lookup identity.key =
        some identity.threadStartTime := records.2
    rw [ThreadCache.survives, if_neg (not_not_intro known), if_neg (not_not_intro process),
      thread, same]
    exact decide_eq_true rfl
  · exact survives_of_new known

/-- An entry that was cached when the scan began and whose process was not found does not survive. -/
theorem survives_of_gone {findings : ThreadCache.ScanFindings} {key : CacheKey}
    {entry : ThreadCacheEntry}
    (known : findings.scanStartIdentities.lookup key =
      some (entry.identity.processStartTime, entry.identity.threadStartTime))
    (unfound : findings.liveProcesses.lookup entry.identity.pid ≠
      some entry.identity.processStartTime) :
    ThreadCache.survives findings key entry = false := by
  rw [ThreadCache.survives, if_neg (not_not_intro known), if_pos unfound]

/-- The pruning at the end of a scan is sound. Of the entries it finds it keeps those of identities
that were not cached when the scan began, and those of identities that lived all the time; it drops
those that were cached when the scan began and whose process was gone by then. -/
theorem prunes_soundly {fuel : Nat} {last : FullScanState} {final : PruneWorld}
    (keyed : initial.cache.Keyed) (reached : Reaches processes priorStates initial scan world)
    (run : Program.Run machine.withSpin (advanceFullScan fuel scan) world (true, last) final) :
    ∀ key entry, final.found.lookup key = some entry →
      ((∀ before, initial.cache.lookup key = some before → before.identity ≠ entry.identity) →
        final.cache.lookup key = some entry) ∧
      (initial.Lives entry.identity → final.Lives entry.identity →
        final.cache.lookup key = some entry) ∧
      (∀ before, initial.cache.lookup key = some before → before.identity = entry.identity →
        initial.Gone entry.identity.pid entry.identity.processStartTime →
          final.cache.lookup key = none) := by
  intro key entry stored
  obtain ⟨scan, moved, stands, complete, ended, rfl⟩ :=
    (run.post (wp_advanceFullScan fuel reached.stands)).2 rfl
  have stored : moved.cache.lookup key = some entry := stored
  have ownKey : entry.identity.key = key := stands.passes.keyed keyed key entry stored
  have snapshot : scan.findings.scanStartIdentities.lookup key =
      (initial.cache.lookup key).map fun before =>
        (before.identity.processStartTime, before.identity.threadStartTime) := by
    rw [← lookup_snapshot, ← stands.snapshot]
    rfl
  have pruned : (moved.cache.retainLiveThreads scan.findings).lookup key =
      (some entry).filter (ThreadCache.survives scan.findings key) := by
    rw [lookup_retainLiveThreads, stored]
  have keeps : ThreadCache.survives scan.findings key entry = true →
      (moved.cache.retainLiveThreads scan.findings).lookup key = some entry := by
    intro survives
    rw [pruned, Option.filter_some, if_pos survives]
  refine ⟨fun new => keeps (survives_of_new fun known => ?_), fun first living => ?_,
    fun before old same gone => ?_⟩
  · rw [snapshot] at known
    obtain ⟨before, old, starts⟩ := Option.map_eq_some_iff.mp known
    have starts := Prod.mk.inj starts
    have underKey : initial.cache.lookup entry.identity.key = some before := by
      rw [ownKey]
      exact old
    exact new before old (ThreadCache.identity_eq_of_startTimes keyed underKey starts)
  · have lives : moved.Lives entry.identity := living.congr rfl rfl
    have follows := stands.follows entry.identity first lives
    have records : scan.Records entry.identity := by
      rcases follows.ahead complete with later | recorded
      · rw [List.drop_eq_nil_of_le (List.getElem?_eq_none_iff.mp ended)] at later
        exact absurd later List.not_mem_nil
      · exact recorded
    have survives := survives_of_records records rfl
    rw [ownKey] at survives
    exact keeps survives
  · have known : scan.findings.scanStartIdentities.lookup key =
        some (entry.identity.processStartTime, entry.identity.threadStartTime) := by
      rw [snapshot, old, Option.map_some, same]
    have unfound : scan.findings.liveProcesses.lookup entry.identity.pid ≠
        some entry.identity.processStartTime := by
      intro found
      have lived := stands.processes _ _ found
      exact gone.2 (gone.1.between lived)
    show (moved.cache.retainLiveThreads scan.findings).lookup key = none
    rw [pruned, Option.filter_some, survives_of_gone known unfound]
    rfl

/-- The process 7 lives, with its only thread; the process 9 is gone. -/
def sampleWorld : PruneWorld where
  process pid := if pid = 7 then ⟨1, true⟩ else ⟨2, false⟩
  thread key := if key = (7, 7) then ⟨1, true⟩ else ⟨2, false⟩
  cache :=
    (ThreadCache.update ∅ ⟨7, 7, 1, 1⟩ ⟨[], [], .bg⟩ ⟨{ effectiveState := .bg }, [], []⟩).update
      ⟨9, 9, 2, 2⟩ ⟨[], [], .bg⟩ ⟨{ effectiveState := .bg }, [], []⟩

/-- The answers to a scan of that world while nothing moves. -/
def playSample (world : PruneWorld) :
    (operation : SysOp) → Option (SysSig.Res operation × PruneWorld)
  | .budgetExhausted => some (false, world)
  | .afterThreadRead => some ((), world)
  | .processStartTime _ pid => some (if pid = 7 then 1 else 0, world)
  | .threadStartTime _ pid tid => some (if (pid, tid) = (7, 7) then 1 else 0, world)
  | .processName _ => some (Bytes.ascii "app", world)
  | .processCmdline _ => some ([], world)
  | .cgroupStateInfo _ => some ({}, world)
  | .matchProcess _ _ state _ => some ({ effectiveState := state }, world)
  | .openProc => some (true, { world with proc := ⟨world.process, []⟩ })
  | .readProc =>
    if world.proc.listed.contains 7 then some (.finished, world)
    else some (.name (Bytes.ascii "7"), { world with proc := world.proc.read (Bytes.ascii "7") })
  | .openTask pid =>
    some (true, { world with task := ⟨fun tid => world.thread (pid, tid), []⟩ })
  | .readTask _ =>
    if world.task.listed.contains 7 then some (.finished, world)
    else some (.name (Bytes.ascii "7"), { world with task := world.task.read (Bytes.ascii "7") })
  | .cache (.retainLiveThreads findings) => some ((), { world with
      found := world.cache, cache := world.cache.retainLiveThreads findings })
  | _ => none

/-- Nothing moves. -/
theorem Moves.refl (world : PruneWorld) : world.Moves world :=
  ⟨fun _ => .refl _, fun _ => .refl _, ⟨[], rfl⟩, rfl⟩

/-- Only the process 7 and its thread live. -/
def OnlySeven (world : PruneWorld) : Prop :=
  world.process = sampleWorld.process ∧ world.thread = sampleWorld.thread

/-- The answers are possible. -/
theorem step_of_playSample {operation : SysOp} {response : SysSig.Res operation}
    (only : OnlySeven world) (played : playSample world operation = some (response, after)) :
    machine.step world operation response after ∧ OnlySeven after := by
  have process : ∀ pid, world.process pid = if pid = 7 then ⟨1, true⟩ else ⟨2, false⟩ :=
    fun pid => congrFun only.1 pid
  have thread : ∀ key, world.thread key = if key = (7, 7) then ⟨1, true⟩ else ⟨2, false⟩ :=
    fun key => congrFun only.2 key
  cases operation with
  | budgetExhausted | afterThreadRead | processCmdline pid | cgroupStateInfo pid | openProc
  | matchProcess pid procName state cmdline =>
    cases played
    exact ⟨⟨world, .refl world, rfl⟩, only⟩
  | processName pid =>
    cases played
    have named : Bytes.ascii "app" ≠ deadName := by decide
    exact ⟨⟨world, .refl world, fun _ => named, rfl⟩, only⟩
  | processStartTime use pid =>
    cases played
    refine ⟨⟨world, .refl world, ?_, rfl⟩, only⟩
    rw [process]
    by_cases seven : pid = 7
    · rw [if_pos seven, if_pos seven]
      exact ⟨.inr ⟨rfl, rfl⟩, fun _ => Nat.one_ne_zero⟩
    · rw [if_neg seven, if_neg seven]
      exact ⟨.inl rfl, fun impossible => Bool.noConfusion impossible⟩
  | threadStartTime use pid tid =>
    cases played
    refine ⟨⟨world, .refl world, ?_, rfl⟩, only⟩
    rw [thread]
    by_cases seven : (pid, tid) = (7, 7)
    · rw [if_pos seven, if_pos seven]
      exact ⟨.inr ⟨rfl, rfl⟩, fun _ => Nat.one_ne_zero⟩
    · rw [if_neg seven, if_neg seven]
      exact ⟨.inl rfl, fun impossible => Bool.noConfusion impossible⟩
  | openTask pid =>
    cases played
    exact ⟨⟨world, .refl world, fun _ => rfl, rfl⟩, only⟩
  | readProc =>
    rw [playSample] at played
    split at played
    · next listed =>
      cases played
      refine ⟨⟨world, .refl world, fun _ id alive same => ?_, rfl⟩, only⟩
      rw [← same, process] at alive
      by_cases seven : id = 7
      · rw [seven]
        exact List.contains_iff_mem.mp listed
      · rw [if_neg seven] at alive
        cases alive
    · cases played
      exact ⟨⟨world, .refl world, fun other => DirEntry.noConfusion other, rfl⟩, only⟩
  | readTask pid =>
    rw [playSample] at played
    split at played
    · next listed =>
      cases played
      refine ⟨⟨world, .refl world, fun _ id alive same => ?_, fun _ other =>
        DirEntry.noConfusion other, rfl⟩, only⟩
      rw [← same] at alive
      dsimp only at alive
      rw [thread] at alive
      by_cases seven : (pid, id) = (7, 7)
      · rw [(Prod.mk.inj seven).2]
        exact List.contains_iff_mem.mp listed
      · rw [if_neg seven] at alive
        cases alive
    · cases played
      exact ⟨⟨world, .refl world, fun other => DirEntry.noConfusion other, fun _ other =>
        DirEntry.noConfusion other, rfl⟩, only⟩
  | cache call =>
    cases call with
    | retainLiveThreads findings =>
      cases played
      exact ⟨⟨world, .refl world, rfl⟩, only⟩
    | _ => cases played
  | _ => cases played

/-- The scan of that world. -/
def sampleScan : FullScanState := .begin [] sampleWorld.cache.identitySnapshot ∅

/-- Whether the cache has an entry of the identity. -/
def hasIdentity (cache : ThreadCache) (identity : Identity) : Bool :=
  (cache.lookup identity.key).any fun entry => entry.identity = identity

/-- An entry of the identity is stored. -/
theorem exists_of_hasIdentity {cache : ThreadCache} (has : hasIdentity cache identity = true) :
    ∃ entry, cache.lookup identity.key = some entry ∧ entry.identity = identity := by
  rw [hasIdentity] at has
  cases stored : cache.lookup identity.key with
  | none =>
    rw [stored] at has
    cases has
  | some entry =>
    rw [stored] at has
    exact ⟨entry, rfl, of_decide_eq_true has⟩

theorem prunes_soundly_once : ∃ final : PruneWorld,
    (final.cache.lookup (7, 7)).isSome = true ∧ final.cache.lookup (9, 9) = none := by
  have keyed : sampleWorld.cache.Keyed := (ThreadCache.keyed_empty.update _ _ _).update _ _ _
  have played : (((advanceFullScan 9 sampleScan).exec (Looping.respondWithSpin playSample)
      sampleWorld).any fun found => found.1.1 && hasIdentity found.2.found ⟨7, 7, 1, 1⟩ &&
        hasIdentity found.2.found ⟨9, 9, 2, 2⟩) = true := by decide +kernel
  cases executed : (advanceFullScan 9 sampleScan).exec (Looping.respondWithSpin playSample)
      sampleWorld with
  | none =>
    rw [executed] at played
    cases played
  | some result =>
    obtain ⟨⟨finished, last⟩, final⟩ := result
    rw [executed] at played
    have facts : (finished && hasIdentity final.found ⟨7, 7, 1, 1⟩ &&
        hasIdentity final.found ⟨9, 9, 2, 2⟩) = true := played
    rw [Bool.and_eq_true, Bool.and_eq_true] at facts
    obtain ⟨⟨rfl, hasSeven⟩, hasNine⟩ := facts
    have ran := Looping.run_of_exec_inv step_of_playSample ⟨rfl, rfl⟩ executed
    have sound := prunes_soundly keyed (@Reaches.start [] ∅ sampleWorld) ran.1
    obtain ⟨seven, storedSeven, identitySeven⟩ := exists_of_hasIdentity hasSeven
    obtain ⟨nine, storedNine, identityNine⟩ := exists_of_hasIdentity hasNine
    have first : sampleWorld.Lives seven.identity := by
      rw [identitySeven]
      exact ⟨rfl, rfl, rfl, rfl⟩
    have living : final.Lives seven.identity := first.congr ran.2.1.symm ran.2.2.symm
    have gone : sampleWorld.Gone nine.identity.pid nine.identity.processStartTime := by
      rw [identityNine]
      exact ⟨.inr ⟨rfl, fun impossible => Bool.noConfusion impossible⟩, by decide⟩
    obtain ⟨before, old, same⟩ :=
      exists_of_hasIdentity (show hasIdentity sampleWorld.cache ⟨9, 9, 2, 2⟩ = true by
        decide +kernel)
    have kept := (sound (7, 7) seven storedSeven).2.1 first living
    have dropped := (sound (9, 9) nine storedNine).2.2 before old (same.trans identityNine.symm)
      gone
    exact ⟨final, by rw [kept]; rfl, dropped⟩

end PruneWorld

end ReUperf
