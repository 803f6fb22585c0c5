import ReUperf.Main.FullScan
import ReUperf.System.CgroupLookup
import ReUperf.Verif.DispatchIdentity

/-!
# Identities of scanned processes

A full scan reads the start time of a process, its name, its command line and its two cgroup
paths, and checks the start time again when the threads are read; a call that runs out of budget
may lie between any two reads. The paths may come from a cache that is keyed by the process ID
alone. The module proves that what a finished scan has recorded of a process was read of one
process, the one with the recorded start time, when no path the scan took from the cache had been
read of an earlier process.
-/

namespace ReUperf

open Effect FileUtils Main

/-! ## The machine -/

/-- What a scan has read of a process ID, and of which processes. -/
structure ProcessReads where
  /-- The process whose start time was read first. -/
  started : Slot := ⟨0, false⟩
  /-- The name. -/
  name : SlotRead := {}
  /-- The command line. -/
  cmdline : SlotRead := {}
  /-- The path in the hierarchy of the cpu controller. -/
  cpu : SlotRead := {}
  /-- The path in the hierarchy of the cpuset controller. -/
  cpuset : SlotRead := {}
  /-- The last match: a name, a state, a command line and the result. -/
  matched : Option (Bytes × ProcessState × Bytes × MatchResult) := none

/-- A path is looked up. -/
def ProcessReads.setPath (reads : ProcessReads) (controller : Bytes) (read : SlotRead) :
    ProcessReads :=
  if controller = cpuController then { reads with cpu := read } else { reads with cpuset := read }

/-- Processes that come and go, the cache of cgroup paths, and what a scan has read. -/
structure IdentityWorld where
  /-- The process with an ID. -/
  process : Int → Slot
  /-- The steady clock, in nanoseconds. -/
  clock : Int := 0
  /-- The time a path is cached for. -/
  ttlMs : Int
  /-- The cache of cgroup paths. -/
  cache : CgroupCache := ∅
  /-- The process a cached path was read of. -/
  origin : CgroupCacheKey → Slot := fun _ => ⟨0, false⟩
  /-- The process whose `cgroup` file the scan read last. -/
  file : Slot := ⟨0, false⟩
  /-- What the scan has read. -/
  reads : Int → ProcessReads := fun _ => {}

namespace IdentityWorld

/-- Something is read of a process. -/
def setReads (world : IdentityWorld) (pid : Int) (change : ProcessReads → ProcessReads) :
    IdentityWorld :=
  { world with reads := Function.update world.reads pid (change (world.reads pid)) }

/-- Processes come and go, time passes, and other threads look paths up, drop them or set the time
they are cached for. -/
structure Moves (world after : IdentityWorld) : Prop where
  /-- Processes. -/
  process : ∀ pid, Slot.Later (world.process pid) (after.process pid)
  /-- The clock. -/
  clock : world.clock ≤ after.clock
  /-- A cached path was cached before, or it was read meanwhile of the process with the ID. -/
  cached : ∀ key entry, after.cache.lookup key = some entry →
    (world.cache.lookup key = some entry ∧ after.origin key = world.origin key) ∨
      (Slot.Later (world.process key.pid) (after.origin key) ∧
        Slot.Later (after.origin key) (after.process key.pid))
  /-- What the scan has read stays. -/
  same : after = { world with
    process := after.process, clock := after.clock, ttlMs := after.ttlMs, cache := after.cache
    origin := after.origin }

/-- One operation of a lookup. -/
def Look : IdentityWorld → (operation : CgroupOp) → CgroupSig.Res operation → IdentityWorld → Prop
  | world, .now, response, after => response = world.clock ∧ after = world
  | world, .find key now, response, after =>
    response = world.cache.find world.ttlMs now key ∧
      after = match response with
        | none => world
        | some path =>
          world.setReads key.pid (ProcessReads.setPath · key.controller ⟨path, world.origin key⟩)
  | world, .readFile pid, response, after =>
    ReuseWorld.Reads (world.process pid) [] response ∧
      after = { world with file := world.process pid }
  | world, .store key path now, _, after => ∃ first,
    after = IdentityWorld.setReads
      { world with
        cache := world.cache.store world.ttlMs now first key path
        origin := Function.update world.origin key world.file }
      key.pid (ProcessReads.setPath · key.controller ⟨path, world.file⟩)

/-- A path that is taken from the cache was read of the process that has the ID, if one lives. -/
def Unreused (world : IdentityWorld) : CgroupOp → Prop
  | .find key now => (world.cache.find world.ttlMs now key).isSome = true →
    (world.process key.pid).alive = true → world.origin key = world.process key.pid
  | _ => True

instance (world : IdentityWorld) : DecidablePred world.Unreused := fun operation => by
  cases operation <;> unfold Unreused <;> infer_instance

/-- The machine of lookups while processes come and go. Operations are only performed where they
are allowed. -/
def lookupMachine (allowed : IdentityWorld → CgroupOp → Prop) : Machine CgroupSig IdentityWorld where
  step world operation response after :=
    ∃ moved, world.Moves moved ∧ allowed moved operation ∧ moved.Look operation response after

/-- One operation of a scan but a lookup. -/
def Op : IdentityWorld → (operation : SysOp) → SysSig.Res operation → IdentityWorld → Prop
  | world, .processStartTime use pid, response, after =>
    ReuseWorld.ReadsStart (world.process pid) response ∧
      after = if use = .scan
        then world.setReads pid ({ · with started := world.process pid }) else world
  | world, .processName pid, response, after =>
    ReuseWorld.Reads (world.process pid) deadName response ∧
      after = world.setReads pid ({ · with name := ⟨response, world.process pid⟩ })
  | world, .processCmdline pid, response, after =>
    ReuseWorld.Reads (world.process pid) [] response ∧
      after = world.setReads pid ({ · with cmdline := ⟨response, world.process pid⟩ })
  | world, .matchProcess pid procName state cmdline, response, after =>
    after = world.setReads pid ({ · with matched := some (procName, state, cmdline, response) })
  | world, _, _, after => after = world

/-- The machine of a scan while processes come and go. -/
def machine (allowed : IdentityWorld → CgroupOp → Prop) : Machine SysSig IdentityWorld where
  step
    | world, .cgroupStateInfo pid, response, after =>
      Program.Run (lookupMachine allowed) (getCgroupStateInfo pid) world response after
    | world, operation, response, after =>
      ∃ moved, world.Moves moved ∧ moved.Op operation response after

/-- The states between two calls of a scan that began with a cache and prior states. -/
inductive Reaches (allowed : IdentityWorld → CgroupOp → Prop) (cache : ThreadCache)
    (priorStates : Table Int (Nat × ProcessState)) (initial : IdentityWorld) :
    FullScanState → IdentityWorld → Prop where
  /-- No call. -/
  | start : Reaches allowed cache priorStates initial (.beginFrom cache priorStates) initial
  /-- A call that does not finish the scan. -/
  | call {scan next : FullScanState} {world after : IdentityWorld} {fuel : Nat}
      (reached : Reaches allowed cache priorStates initial scan world)
      (run : Program.Run (machine allowed).withSpin (advanceFullScan fuel scan) world
        (false, next) after) : Reaches allowed cache priorStates initial next after

end IdentityWorld

/-! ## What is recorded -/

/-- What a scan has recorded of a process ID. -/
@[ext] structure PidRecord where
  /-- The start time. -/
  live : Option Nat := none
  /-- The start time and the state. -/
  observed : Option (Nat × ProcessState) := none
  /-- Whether it is in the top application. -/
  topApp : Bool := false
  /-- Whether it is in the foreground. -/
  foreground : Bool := false
  /-- Whether it is a background process to dispatch. -/
  background : Bool := false
  /-- Whether it is pinned. -/
  pinned : Bool := false
  /-- Whether it is promoted to the top. -/
  topfore : Bool := false
  deriving DecidableEq

/-- What a scan has recorded of a process ID. -/
def FullScanState.recordOf (scan : FullScanState) (pid : Int) : PidRecord where
  live := scan.liveProcesses.lookup pid
  observed := scan.observedStates.lookup pid
  topApp := decide (pid ∈ scan.topAppPids)
  foreground := decide (pid ∈ scan.foregroundPids)
  background := decide (pid ∈ scan.backgroundPids)
  pinned := decide (pid ∈ scan.pinnedPids)
  topfore := decide (pid ∈ scan.topforePids)

/-- The record of a process that is read but not matched. -/
def PidRecord.begun (startTime : Nat) (state : ProcessState) : PidRecord where
  live := some startTime
  observed := some (startTime, state)
  topApp := decide (state = .top)
  foreground := decide (state = .fg)

/-- The record of a process that is matched. -/
def PidRecord.settled (startTime : Nat) (state : ProcessState) (hasBaseline kernelThread : Bool)
    (result : MatchResult) : PidRecord :=
  { PidRecord.begun startTime state with
    background :=
      decide (state = .bg ∧ shouldDispatchBackgroundProcess result hasBaseline kernelThread)
    pinned := decide (result.matched ∧ result.pinned)
    topfore := decide (result.matched ∧ result.topfore ∧ result.effectiveState = .top) }

namespace ProcessReads

variable (reads : ProcessReads)

/-- The state the paths tell of the process with a start time. -/
def state (priorStates : Table Int (Nat × ProcessState)) (pid : Int) (startTime : Nat) :
    ProcessState :=
  FullScanState.stateFor
    { previousStates := priorStates, currentPid := pid, currentProcessStartTime := startTime }
    (cgroupPathsToStateInfo reads.cpu.value reads.cpuset.value)

/-- Everything was read of the process with the start time. -/
structure OneIdentity (startTime : Nat) : Prop where
  /-- The start time. -/
  started : reads.started = ⟨startTime, true⟩
  /-- The name. -/
  name : reads.name.slot = ⟨startTime, true⟩
  /-- The command line. -/
  cmdline : reads.cmdline.slot = ⟨startTime, true⟩
  /-- The path in the hierarchy of the cpu controller. -/
  cpu : reads.cpu.slot = ⟨startTime, true⟩
  /-- The path in the hierarchy of the cpuset controller. -/
  cpuset : reads.cpuset.slot = ⟨startTime, true⟩

/-- A record comes from reads of one process, which has the recorded start time. -/
def Explains (priorStates : Table Int (Nat × ProcessState)) (baselinePids : List Int) (pid : Int)
    (record : PidRecord) : Prop :=
  ∃ startTime result, reads.OneIdentity startTime ∧
    reads.matched = some (reads.name.value, reads.state priorStates pid startTime,
      reads.cmdline.value, result) ∧
    record = .settled startTime (reads.state priorStates pid startTime)
      (decide (pid ∈ baselinePids)) (decide (reads.cmdline.value = [])) result

end ProcessReads

/-- Whatever is recorded of a process ID was read of one process, which has the recorded start
time. -/
def IdentityWorld.FactsOfOne (world : IdentityWorld) (scan : FullScanState) : Prop :=
  ∀ pid, scan.recordOf pid ≠ {} →
    (world.reads pid).Explains scan.previousStates scan.baselinePids pid (scan.recordOf pid)

/-! ## Records -/

namespace FullScanState

variable {scan : FullScanState} {other : Int}

/-- Recording that the current process lives records nothing else. -/
theorem recordOf_recordLive_ne (differ : other ≠ scan.currentPid) :
    scan.recordLive.recordOf other = scan.recordOf other := by
  have live : scan.recordLive.liveProcesses.lookup other = scan.liveProcesses.lookup other :=
    AList.lookup_insert_ne differ
  rw [recordOf, live]
  rfl

/-- Recording the state of the current process records nothing of others. -/
theorem recordOf_recordState_ne (state : ProcessState) (differ : other ≠ scan.currentPid) :
    (scan.recordState state).recordOf other = scan.recordOf other := by
  have observed : (scan.recordState state).observedStates.lookup other =
      scan.observedStates.lookup other := AList.lookup_insert_ne differ
  have topApp : other ∈ (scan.recordState state).topAppPids ↔ other ∈ scan.topAppPids := by
    show other ∈ (if state = .top then _ else _) ↔ _
    split
    · rw [Finset.mem_insert, or_iff_right differ]
    · exact Iff.rfl
  have foreground : other ∈ (scan.recordState state).foregroundPids ↔
      other ∈ scan.foregroundPids := by
    show other ∈ (if state = .fg then _ else _) ↔ _
    split
    · rw [Finset.mem_insert, or_iff_right differ]
    · exact Iff.rfl
  simp only [recordOf, observed, topApp, foreground]
  rfl

/-- Recording the match of the current process records nothing of others. -/
theorem recordOf_recordResult_ne (result : MatchResult) (differ : other ≠ scan.currentPid) :
    (scan.recordResult result).recordOf other = scan.recordOf other := by
  have among : ∀ (condition : Prop) [Decidable condition] (pids : Finset Int),
      (other ∈ (if condition then insert scan.currentPid pids else pids)) ↔ other ∈ pids := by
    intro condition _ pids
    split
    · rw [Finset.mem_insert, or_iff_right differ]
    · exact Iff.rfl
  apply PidRecord.ext
  · rfl
  · rfl
  · rfl
  · rfl
  · exact decide_eq_decide.mpr (among _ _)
  · exact decide_eq_decide.mpr (among _ _)
  · exact decide_eq_decide.mpr (among _ _)

/-- Withdrawing the current process withdraws nothing of others. -/
theorem recordOf_withdraw_ne (differ : other ≠ scan.currentPid) :
    scan.withdraw.recordOf other = scan.recordOf other := by
  simp only [recordOf, withdraw, AList.lookup_erase_ne differ, Finset.mem_erase, ne_eq, differ,
    not_false_eq_true, true_and]

/-- Withdrawing the current process leaves nothing of it. -/
theorem recordOf_withdraw (scan : FullScanState) :
    scan.withdraw.recordOf scan.currentPid = {} := by
  simp only [recordOf, withdraw, AList.lookup_erase, Finset.mem_erase, ne_eq, not_true_eq_false,
    false_and, decide_false]

/-- Reading a process of which nothing is recorded begins its record. -/
theorem recordOf_begun (state : ProcessState) (fresh : scan.recordOf scan.currentPid = {}) :
    (scan.recordLive.recordState state).recordOf scan.currentPid =
      .begun scan.currentProcessStartTime state := by
  simp only [recordOf, PidRecord.mk.injEq, decide_eq_false_iff_not] at fresh
  obtain ⟨-, -, topApp, foreground, background, pinned, topfore⟩ := fresh
  by_cases top : state = .top <;> by_cases fg : state = .fg <;>
    simp [recordOf, recordState, recordLive, PidRecord.begun, top, fg, topApp, foreground,
      background, pinned, topfore]

/-- Matching a process settles its record. -/
theorem recordOf_settled (result : MatchResult)
    (begun : scan.recordOf scan.currentPid = .begun scan.currentProcessStartTime scan.currentState) :
    (scan.recordResult result).recordOf scan.currentPid =
      .settled scan.currentProcessStartTime scan.currentState
        (decide (scan.currentPid ∈ scan.baselinePids)) (decide (scan.currentCmdline = [])) result := by
  have among : ∀ (condition : Prop) [Decidable condition] (pids : Finset Int),
      decide (scan.currentPid ∈ pids) = false →
        ((scan.currentPid ∈ if condition then insert scan.currentPid pids else pids) ↔
          condition) := by
    intro condition _ pids none
    split
    · next holds => exact iff_of_true (Finset.mem_insert_self _ _) holds
    · next fails => exact iff_of_false (of_decide_eq_false none) fails
  have live := congrArg PidRecord.live begun
  have observed := congrArg PidRecord.observed begun
  have topApp := congrArg PidRecord.topApp begun
  have foreground := congrArg PidRecord.foreground begun
  apply PidRecord.ext
  · exact live
  · exact observed
  · exact topApp
  · exact foreground
  · exact decide_eq_decide.mpr (among _ _ (congrArg PidRecord.background begun))
  · exact decide_eq_decide.mpr (among _ _ (congrArg PidRecord.pinned begun))
  · exact decide_eq_decide.mpr (among _ _ (congrArg PidRecord.topfore begun))

end FullScanState

namespace IdentityWorld

variable {world after : IdentityWorld} {scan : FullScanState} {pid : Int} {startTime : Nat}

/-! ## Reads -/

/-- Something was read of the process with a start time if that process lives in the end. -/
def ReadFrom (startTime : Nat) (slot now : Slot) : Prop :=
  ∃ seen, Slot.Later ⟨startTime, true⟩ seen ∧ Slot.Later seen now ∧
    (seen = ⟨startTime, true⟩ → slot = ⟨startTime, true⟩)

/-- A read of the process that has the ID. -/
theorem readFrom_now {now : Slot} (later : Slot.Later ⟨startTime, true⟩ now) :
    ReadFrom startTime now now :=
  ⟨now, later, .refl now, id⟩

/-- Time passes after a read. -/
theorem ReadFrom.later {slot now next : Slot} (read : ReadFrom startTime slot now)
    (later : Slot.Later now next) : ReadFrom startTime slot next := by
  obtain ⟨seen, before, between, same⟩ := read
  exact ⟨seen, before, between.trans later, same⟩

/-- The process lives in the end. -/
theorem ReadFrom.settle {slot : Slot} (read : ReadFrom startTime slot ⟨startTime, true⟩) :
    slot = ⟨startTime, true⟩ := by
  obtain ⟨seen, before, between, same⟩ := read
  exact same (before.between between)

/-- Processes come and go. -/
def Passes (world after : IdentityWorld) : Prop :=
  ∀ pid, Slot.Later (world.process pid) (after.process pid)

theorem Passes.trans {middle : IdentityWorld} (first : world.Passes middle)
    (second : middle.Passes after) : world.Passes after :=
  fun pid => (first pid).trans (second pid)

theorem Moves.reads_eq (moves : world.Moves after) : after.reads = world.reads := by
  rw [moves.same]

theorem Moves.passes (moves : world.Moves after) : world.Passes after := moves.process

/-- The reads of one process ID change. -/
def Reads (world after : IdentityWorld) (pid : Int) (reads : ProcessReads) : Prop :=
  world.Passes after ∧ after.reads = Function.update world.reads pid reads

/-- A path is looked up in the cache or read. -/
theorem wp_getCgroupPath (controller : Bytes)
    (later : Slot.Later ⟨startTime, true⟩ (world.process pid)) :
    (getCgroupPath pid controller).wp (lookupMachine Unreused)
      (fun path after => ∃ slot, ReadFrom startTime slot (after.process pid) ∧
        world.Reads after pid ((world.reads pid).setPath controller ⟨path, slot⟩)) world := by
  rw [getCgroupPath, Program.wp_bind]
  rintro now clocked ⟨moved, moves, -, rfl, rfl⟩
  rw [Program.wp_ret, Program.wp_bind]
  rintro found looked ⟨sought, more, unreused, rfl, rfl⟩
  rw [Program.wp_ret]
  have passes := moves.passes.trans more.passes
  have reads : sought.reads = world.reads := more.reads_eq.trans moves.reads_eq
  have later := later.trans (passes pid)
  cases hit : sought.cache.find sought.ttlMs clocked.clock ⟨pid, controller⟩ with
  | some path =>
    have taken : (sought.cache.find sought.ttlMs clocked.clock ⟨pid, controller⟩).isSome = true := by
      rw [hit]
      rfl
    refine ⟨sought.origin ⟨pid, controller⟩, ⟨sought.process pid, later, .refl _, ?_⟩, passes, ?_⟩
    · intro same
      have alive : (sought.process pid).alive = true := by rw [same]
      exact (unreused taken alive).trans same
    · show Function.update sought.reads pid _ = _
      rw [reads]
  | none =>
    dsimp only
    rw [Program.wp_bind]
    rintro content read ⟨opened, again, -, -, rfl⟩
    rw [Program.wp_ret, Program.wp_bind]
    rintro _ stored ⟨closed, last, -, first, rfl⟩
    have kept : closed.reads = world.reads :=
      last.reads_eq.trans (again.reads_eq.trans reads)
    have file : closed.file = opened.process pid := by rw [last.same]
    have between : Slot.Later (opened.process pid) (closed.process pid) := last.process pid
    have read := (readFrom_now (later.trans (again.process pid))).later between
    refine ⟨closed.file, ?_, ?_, ?_⟩
    · rw [file]
      exact read
    · exact (passes.trans again.passes).trans last.passes
    · show Function.update closed.reads pid _ = _
      rw [kept]

/-- Both paths of a process are looked up. -/
theorem wp_getCgroupStateInfo (later : Slot.Later ⟨startTime, true⟩ (world.process pid)) :
    (getCgroupStateInfo pid).wp (lookupMachine Unreused)
      (fun info after => ∃ cpu cpuset : SlotRead,
        info = cgroupPathsToStateInfo cpu.value cpuset.value ∧
        ReadFrom startTime cpu.slot (after.process pid) ∧
        ReadFrom startTime cpuset.slot (after.process pid) ∧
        world.Reads after pid { world.reads pid with cpu := cpu, cpuset := cpuset }) world := by
  rw [getCgroupStateInfo, Program.wp_bind]
  refine Program.wp_mono (wp_getCgroupPath cpuController later) fun cpuPath middle first => ?_
  obtain ⟨cpuSlot, cpuRead, passes, reads⟩ := first
  rw [Program.wp_bind]
  refine Program.wp_mono (wp_getCgroupPath cpusetController (later.trans (passes pid)))
    fun cpusetPath last second => ?_
  obtain ⟨cpusetSlot, cpusetRead, more, again⟩ := second
  rw [Program.wp_pure]
  refine ⟨⟨cpuPath, cpuSlot⟩, ⟨cpusetPath, cpusetSlot⟩, rfl, cpuRead.later (more pid), cpusetRead,
    passes.trans more, ?_⟩
  have other : cpusetController ≠ cpuController := by decide
  rw [again, reads, Function.update_self, Function.update_idem, ProcessReads.setPath, if_neg other,
    ProcessReads.setPath, if_pos rfl]

/-- The state of a process is looked up. -/
theorem wp_cgroupStateInfo (later : Slot.Later ⟨startTime, true⟩ (world.process pid)) :
    (scanOp (.cgroupStateInfo pid)).wp (machine Unreused).withSpin
      (fun info after => ∃ cpu cpuset : SlotRead,
        info = cgroupPathsToStateInfo cpu.value cpuset.value ∧
        ReadFrom startTime cpu.slot (after.process pid) ∧
        ReadFrom startTime cpuset.slot (after.process pid) ∧
        world.Reads after pid { world.reads pid with cpu := cpu, cpuset := cpuset }) world := by
  intro info after run
  have run : Program.Run (lookupMachine Unreused) (getCgroupStateInfo pid) world info after := run
  exact run.post (wp_getCgroupStateInfo later)

/-- An operation that reads nothing of a process. -/
def isQuiet : SysOp → Bool
  | .budgetExhausted | .afterThreadRead | .openProc | .readProc | .openTask _ | .readTask _
  | .threadStartTime _ _ _ | .processStartTime .rescan _ | .cache _ => true
  | _ => false

/-- A quiet operation only lets processes come and go. -/
theorem wp_quiet {allowed : IdentityWorld → CgroupOp → Prop} {operation : SysOp}
    (quiet : isQuiet operation = true) {post : SysSig.Res operation → IdentityWorld → Prop}
    (next : ∀ response after, world.Passes after → after.reads = world.reads →
      post response after) :
    (scanOp operation).wp (machine allowed).withSpin post world := by
  intro response after stepped
  cases operation with
  | budgetExhausted | afterThreadRead | openProc | readProc | openTask pid | readTask pid
  | threadStartTime use pid tid | cache call =>
    obtain ⟨moved, moves, rfl⟩ := stepped
    exact next response _ moves.passes moves.reads_eq
  | processStartTime use pid =>
    cases use with
    | rescan =>
      obtain ⟨moved, moves, -, rfl⟩ := stepped
      exact next response _ moves.passes moves.reads_eq
    | _ => cases quiet
  | _ => cases quiet

/-- The first read of a start time. -/
theorem wp_scanStartTime {allowed : IdentityWorld → CgroupOp → Prop}
    {post : Nat → IdentityWorld → Prop} (missing : ∀ after, world.Passes after →
      (∀ other, other ≠ pid → after.reads other = world.reads other) → post 0 after)
    (found : ∀ startTime after, startTime ≠ 0 → after.process pid = ⟨startTime, true⟩ →
      world.Reads after pid { world.reads pid with started := ⟨startTime, true⟩ } →
        post startTime after) :
    (scanStartTime .scan pid).wp (machine allowed).withSpin post world := by
  unfold scanStartTime
  split
  · rintro response after ⟨moved, moves, read, rfl⟩
    have reads := moves.reads_eq
    by_cases none : response = 0
    · rw [none]
      refine missing _ moves.passes fun other differ => ?_
      show Function.update moved.reads pid _ other = _
      rw [Function.update_of_ne differ, reads]
    · obtain ⟨alive, same⟩ := read.resolve_left none
      have slot : moved.process pid = ⟨response, true⟩ := by
        rw [same]
        exact Slot.eq_of_alive alive
      refine found response _ none slot ⟨moves.passes, ?_⟩
      show Function.update moved.reads pid _ = _
      rw [reads, slot]
  · exact missing world (fun pid => .refl _) fun _ _ => rfl

/-- The check of a start time. -/
theorem wp_scanRecheck {allowed : IdentityWorld → CgroupOp → Prop}
    {post : Nat → IdentityWorld → Prop}
    (next : ∀ response after, world.Passes after → after.reads = world.reads →
      (response ≠ 0 → after.process pid = ⟨response, true⟩) → post response after) :
    (scanStartTime .rescan pid).wp (machine allowed).withSpin post world := by
  unfold scanStartTime
  split
  · rintro response after ⟨moved, moves, read, rfl⟩
    refine next response _ moves.passes moves.reads_eq fun some => ?_
    obtain ⟨alive, same⟩ := read.resolve_left some
    rw [same]
    exact Slot.eq_of_alive alive
  · exact next 0 world (fun pid => .refl _) rfl fun some => absurd rfl some

/-- The name of a process is read. -/
theorem wp_processName {allowed : IdentityWorld → CgroupOp → Prop}
    {post : Bytes → IdentityWorld → Prop}
    (next : ∀ name after, world.Reads after pid
      { world.reads pid with name := ⟨name, after.process pid⟩ } → post name after) :
    (scanOp (.processName pid)).wp (machine allowed).withSpin post world := by
  rintro response after ⟨moved, moves, -, rfl⟩
  refine next response _ ⟨moves.passes, ?_⟩
  show Function.update moved.reads pid _ = _
  rw [moves.reads_eq]
  rfl

/-- The command line of a process is read. -/
theorem wp_processCmdline {allowed : IdentityWorld → CgroupOp → Prop}
    {post : Bytes → IdentityWorld → Prop}
    (next : ∀ cmdline after, world.Reads after pid
      { world.reads pid with cmdline := ⟨cmdline, after.process pid⟩ } → post cmdline after) :
    (scanOp (.processCmdline pid)).wp (machine allowed).withSpin post world := by
  rintro response after ⟨moved, moves, -, rfl⟩
  refine next response _ ⟨moves.passes, ?_⟩
  show Function.update moved.reads pid _ = _
  rw [moves.reads_eq]
  rfl

/-- A process is matched. -/
theorem wp_matchProcess {allowed : IdentityWorld → CgroupOp → Prop} {procName cmdline : Bytes}
    {state : ProcessState} {post : MatchResult → IdentityWorld → Prop}
    (next : ∀ result after, world.Reads after pid
      { world.reads pid with matched := some (procName, state, cmdline, result) } →
        post result after) :
    (scanOp (.matchProcess pid procName state cmdline)).wp (machine allowed).withSpin post world := by
  rintro response after ⟨moved, moves, rfl⟩
  refine next response _ ⟨moves.passes, ?_⟩
  show Function.update moved.reads pid _ = _
  rw [moves.reads_eq]

/-! ## Where a scan stands -/

/-- Nothing is recorded of the processes that were not scanned, and what is recorded of the others
is explained. -/
def Accounts (world : IdentityWorld) (scan : FullScanState) (among : Int → Prop) : Prop :=
  ∀ pid, among pid →
    (pid ∉ scan.pids.take scan.pidIndex → scan.recordOf pid = {}) ∧
    (scan.recordOf pid ≠ {} →
      (world.reads pid).Explains scan.previousStates scan.baselinePids pid (scan.recordOf pid))

/-- A scan that has no current process. -/
structure Idle (world : IdentityWorld) (scan : FullScanState) : Prop where
  /-- A list is of different processes. -/
  unique : scan.pidEnumerationComplete = true → scan.pids.Nodup
  /-- The processes have positive IDs. -/
  positive : ∀ pid ∈ scan.pids, 0 < pid
  /-- A scan that has no list is at its beginning. -/
  unlisted : scan.pidEnumerationComplete = false → scan.pidIndex = 0
  /-- There is no current process. -/
  current : scan.currentPid = 0
  /-- What is recorded. -/
  accounts : world.Accounts scan fun _ => True

/-- A scan that has read its current process. -/
structure Begun (world : IdentityWorld) (scan : FullScanState) : Prop where
  /-- The processes are listed. -/
  complete : scan.pidEnumerationComplete = true
  /-- The list is of different processes. -/
  unique : scan.pids.Nodup
  /-- The processes have positive IDs. -/
  positive : ∀ pid ∈ scan.pids, 0 < pid
  /-- The current process is the next one. -/
  here : scan.pids[scan.pidIndex]? = some scan.currentPid
  /-- What is recorded of the others. -/
  accounts : world.Accounts scan (· ≠ scan.currentPid)
  /-- The process was there. -/
  present : scan.currentProcessStartTime ≠ 0
  /-- The process was alive. -/
  later : Slot.Later ⟨scan.currentProcessStartTime, true⟩ (world.process scan.currentPid)
  /-- Its start time was read. -/
  started : (world.reads scan.currentPid).started = ⟨scan.currentProcessStartTime, true⟩
  /-- Its name. -/
  nameValue : (world.reads scan.currentPid).name.value = scan.currentProcName
  /-- Its name was read. -/
  name : ReadFrom scan.currentProcessStartTime (world.reads scan.currentPid).name.slot
    (world.process scan.currentPid)
  /-- Its command line. -/
  cmdlineValue : (world.reads scan.currentPid).cmdline.value = scan.currentCmdline
  /-- Its command line was read. -/
  cmdline : ReadFrom scan.currentProcessStartTime (world.reads scan.currentPid).cmdline.slot
    (world.process scan.currentPid)
  /-- Its path in the hierarchy of the cpu controller was read. -/
  cpu : ReadFrom scan.currentProcessStartTime (world.reads scan.currentPid).cpu.slot
    (world.process scan.currentPid)
  /-- Its path in the hierarchy of the cpuset controller was read. -/
  cpuset : ReadFrom scan.currentProcessStartTime (world.reads scan.currentPid).cpuset.slot
    (world.process scan.currentPid)
  /-- Its state. -/
  state : scan.currentState = (world.reads scan.currentPid).state scan.previousStates
    scan.currentPid scan.currentProcessStartTime
  /-- What is recorded of it. -/
  record : scan.recordOf scan.currentPid =
    .begun scan.currentProcessStartTime scan.currentState

/-- Where a scan stands between two operations. -/
def Stands (world : IdentityWorld) (scan : FullScanState) : Prop :=
  world.Idle scan ∨ world.Begun scan

theorem Accounts.congr {among : Int → Prop} (accounts : world.Accounts scan among)
    (reads : ∀ pid, among pid → after.reads pid = world.reads pid) :
    after.Accounts scan among := by
  intro pid member
  rw [reads pid member]
  exact accounts pid member

theorem Idle.congr (idle : world.Idle scan) (reads : after.reads = world.reads) :
    after.Idle scan :=
  { idle with accounts := idle.accounts.congr fun pid _ => by rw [reads] }

/-- Time passes while a scan has a current process. -/
theorem Begun.passes (begun : world.Begun scan) (passes : world.Passes after)
    (reads : after.reads = world.reads) : after.Begun scan := by
  have later := passes scan.currentPid
  have same : after.reads scan.currentPid = world.reads scan.currentPid := by rw [reads]
  refine { begun with
    accounts := begun.accounts.congr fun pid _ => by rw [reads]
    later := begun.later.trans later
    started := ?_, nameValue := ?_, name := ?_, cmdlineValue := ?_, cmdline := ?_, cpu := ?_,
    cpuset := ?_, state := ?_ }
  · rw [same]
    exact begun.started
  · rw [same]
    exact begun.nameValue
  · rw [same]
    exact begun.name.later later
  · rw [same]
    exact begun.cmdlineValue
  · rw [same]
    exact begun.cmdline.later later
  · rw [same]
    exact begun.cpu.later later
  · rw [same]
    exact begun.cpuset.later later
  · rw [same]
    exact begun.state

/-- What the list of threads and the threads found are does not matter. -/
theorem Begun.relist (begun : world.Begun scan) (taskDir complete : Bool) (tids : List Int)
    (position : Nat) (threads : Table CacheKey Nat) :
    world.Begun { scan with
      taskDir := taskDir, tidEnumerationComplete := complete, currentTids := tids
      tidIndex := position, liveThreads := threads } where
  complete := begun.complete
  unique := begun.unique
  positive := begun.positive
  here := begun.here
  accounts := begun.accounts
  present := begun.present
  later := begun.later
  started := begun.started
  nameValue := begun.nameValue
  name := begun.name
  cmdlineValue := begun.cmdlineValue
  cmdline := begun.cmdline
  cpu := begun.cpu
  cpuset := begun.cpuset
  state := begun.state
  record := begun.record

/-! ## Listing -/

section Listing

variable {allowed : IdentityWorld → CgroupOp → Prop}

/-- Reading the entries of a directory reads nothing of a process. -/
theorem wp_readIds {readEntry : ScanProgram DirEntry}
    (quiet : ∀ (world : IdentityWorld) (post : DirEntry → IdentityWorld → Prop),
      (∀ response after, world.Passes after → after.reads = world.reads → post response after) →
        readEntry.wp (machine allowed).withSpin post world)
    (fuel : Nat) (ids : List Int) :
    (Looping.loop (readId readEntry) fuel ids).wp (machine allowed).withSpin
      (fun found after => ((∀ id ∈ ids, 0 < id) → ∀ id ∈ found.1, 0 < id) ∧ world.Passes after ∧
        after.reads = world.reads) world := by
  refine Looping.wp_loop (fun current after => ((∀ id ∈ ids, 0 < id) → ∀ id ∈ current, 0 < id) ∧
    world.Passes after ∧ after.reads = world.reads) ?_ fuel ⟨id, fun pid => .refl _, rfl⟩
  intro ids middle holds
  obtain ⟨positive, passes, reads⟩ := holds
  rw [readId, Program.wp_bind]
  apply wp_quiet rfl
  intro exhausted first more same
  have passes := passes.trans more
  have reads := same.trans reads
  rw [Program.wp_ite]
  split
  · exact ⟨positive, passes, reads⟩
  rw [Program.wp_bind]
  apply quiet
  intro entry second more same
  have passes := passes.trans more
  have reads := same.trans reads
  cases entry with
  | finished => exact ⟨positive, passes, reads⟩
  | failed => exact ⟨fun _ id member => absurd member List.not_mem_nil, passes, reads⟩
  | name text =>
    dsimp only
    rw [Program.wp_bind]
    apply wp_quiet rfl
    intro _ third more same
    have passes := passes.trans more
    have reads := same.trans reads
    cases parsed : parseId text with
    | none => exact ⟨positive, passes, reads⟩
    | some id =>
      refine ⟨fun begun other member => ?_, passes, reads⟩
      rcases List.mem_append.mp member with old | new
      · exact positive begun other old
      · rw [List.mem_singleton.mp new]
        exact pos_of_parseId parsed

/-- Listing the threads of a process leaves the scan at it. -/
theorem wp_listTids (fuel : Nat) (begun : world.Begun scan) :
    (scan.listTids fuel).wp (machine allowed).withSpin
      (fun found after => after.Begun found.2) world := by
  rw [FullScanState.listTids, Program.wp_bind]
  refine Program.wp_mono
    (wp_readIds (fun world post holds => wp_quiet rfl holds) fuel scan.currentTids)
    fun found after listing => ?_
  obtain ⟨ids, ended⟩ := found
  obtain ⟨-, passes, reads⟩ := listing
  have stays := begun.passes passes reads
  cases ended with
  | paused => exact stays.relist _ _ ids _ _
  | finished => exact stays.relist false true (sortUnique ids) _ _
  | failed => exact stays.relist false true (sortUnique ids) _ _

/-- Listing the threads of a process leaves the scan at it. -/
theorem wp_enumerateCurrentTids (fuel : Nat) (begun : world.Begun scan) :
    (scan.enumerateCurrentTids fuel).wp (machine allowed).withSpin
      (fun found after => after.Begun found.2) world := by
  rw [FullScanState.enumerateCurrentTids, Program.wp_ite]
  split
  · exact begun
  rw [Program.wp_ite]
  split
  · exact wp_listTids fuel begun
  rw [Program.wp_bind]
  apply wp_quiet rfl
  intro opened after passes reads
  have stays := begun.passes passes reads
  rw [Program.wp_ite]
  split
  · exact wp_listTids fuel (stays.relist true _ [] _ _)
  · exact stays.relist _ true _ _ _

/-- Reading threads leaves the scan at its process. -/
theorem wp_readThreads (tids : List Int) (begun : world.Begun scan) :
    (readThreads tids scan).wp (machine allowed).withSpin
      (fun found after => after.Begun found.2) world := by
  induction tids generalizing scan world with
  | nil => exact begun
  | cons tid rest ih =>
    rw [readThreads, Program.wp_bind]
    apply wp_quiet rfl
    intro exhausted first passes reads
    have stays := begun.passes passes reads
    rw [Program.wp_ite]
    split
    · exact stays
    -- a thread is recorded under the process, and nothing else
    have recorded : ∀ startTime {world : IdentityWorld}, world.Begun scan →
        world.Begun ({ scan with tidIndex := scan.tidIndex + 1 }.recordThread tid startTime) := by
      intro startTime world begun
      unfold FullScanState.recordThread
      split
      · exact begun.relist _ _ _ (scan.tidIndex + 1) _
      · exact begun.relist _ _ _ (scan.tidIndex + 1) _
    have goOn : ∀ startTime {world : IdentityWorld}, world.Begun scan →
        (scanOp .afterThreadRead >>= fun _ => readThreads rest
          ({ scan with tidIndex := scan.tidIndex + 1 }.recordThread tid startTime)).wp
            (machine allowed).withSpin (fun found after => after.Begun found.2) world := by
      intro startTime world begun
      rw [Program.wp_bind]
      apply wp_quiet rfl
      intro _ after passes reads
      exact ih (recorded startTime (begun.passes passes reads))
    rw [scanThreadStartTime]
    split
    · rw [Program.wp_bind]
      apply wp_quiet rfl
      intro startTime after passes reads
      exact goOn startTime (stays.passes passes reads)
    · exact goOn 0 stays

/-- A scan that reads the list of processes. -/
theorem Idle.list (idle : world.Idle scan) (reads : after.reads = world.reads)
    (unlisted : scan.pidEnumerationComplete = false) (procDir complete : Bool) {pids : List Int}
    (unique : complete = true → pids.Nodup) (positive : ∀ pid ∈ pids, 0 < pid) :
    after.Idle { scan with
      procDir := procDir, pids := pids, pidEnumerationComplete := complete } where
  unique := unique
  positive := positive
  unlisted := fun _ => idle.unlisted unlisted
  current := idle.current
  accounts := by
    have first := idle.unlisted unlisted
    intro pid _
    have accounts := idle.accounts pid trivial
    rw [first] at accounts
    rw [reads]
    refine ⟨fun _ => accounts.1 List.not_mem_nil, accounts.2⟩

/-- Reading `/proc` leaves the scan without a current process. -/
theorem wp_listPids (fuel : Nat) (idle : world.Idle scan)
    (unlisted : scan.pidEnumerationComplete = false) :
    (scan.listPids fuel).wp (machine allowed).withSpin
      (fun found after => after.Idle found.2 ∧
        (found.1 = true → found.2.pidEnumerationComplete = true)) world := by
  rw [FullScanState.listPids, Program.wp_bind]
  refine Program.wp_mono
    (wp_readIds (fun world post holds => wp_quiet rfl holds) fuel scan.pids)
    fun found after listing => ?_
  obtain ⟨ids, ended⟩ := found
  obtain ⟨keeps, -, reads⟩ := listing
  have positive : ∀ id ∈ ids, 0 < id := keeps idle.positive
  clear keeps
  cases ended with
  | paused =>
    refine ⟨idle.list reads unlisted _ _ (fun complete => ?_) positive, fun impossible => ?_⟩
    · rw [unlisted] at complete
      cases complete
    · cases impossible
  | finished =>
    have unique : (sortUnique ids).Nodup :=
      (List.perm_insertionSort _ _).nodup_iff.mpr (List.nodup_dedup ids)
    refine ⟨idle.list reads unlisted false true (fun _ => unique) fun pid member => ?_,
      fun _ => rfl⟩
    exact positive pid (List.mem_dedup.mp ((List.mem_insertionSort _).mp member))
  | failed =>
    refine ⟨idle.list reads unlisted false _ (fun complete => ?_) positive, fun impossible => ?_⟩
    · rw [unlisted] at complete
      cases complete
    · cases impossible

/-- Listing the processes leaves a scan where it stands. -/
theorem wp_enumeratePids (fuel : Nat) (stands : world.Stands scan) :
    (scan.enumeratePids fuel).wp (machine allowed).withSpin
      (fun found after => after.Stands found.2 ∧
        (found.1 = true → found.2.pidEnumerationComplete = true)) world := by
  rw [FullScanState.enumeratePids, Program.wp_ite]
  split
  · next complete => exact ⟨stands, fun _ => complete⟩
  next incomplete =>
  have unlisted : scan.pidEnumerationComplete = false := by simpa using incomplete
  have idle : world.Idle scan := by
    rcases stands with idle | begun
    · exact idle
    · exact absurd begun.complete incomplete
  have weaken : ∀ {scan} {world : IdentityWorld}, world.Idle scan →
      scan.pidEnumerationComplete = false →
        (FullScanState.listPids fuel scan).wp (machine allowed).withSpin
          (fun found after => after.Stands found.2 ∧
            (found.1 = true → found.2.pidEnumerationComplete = true)) world :=
    fun idle unlisted => Program.wp_mono (wp_listPids fuel idle unlisted)
      fun found after reached => ⟨.inl reached.1, reached.2⟩
  rw [Program.wp_ite]
  split
  · exact weaken idle unlisted
  rw [Program.wp_bind]
  apply wp_quiet rfl
  intro opened after passes reads
  rw [Program.wp_ite]
  split
  · refine weaken (idle.list reads unlisted true _ (fun complete => ?_) fun pid member => ?_) unlisted
    · rw [unlisted] at complete
      cases complete
    · exact absurd member List.not_mem_nil
  · refine ⟨.inl (idle.congr reads), fun impossible => ?_⟩
    cases impossible

end Listing

/-! ## One process -/

/-- The process at a position was not passed. -/
theorem not_mem_passed {pids : List Int} {position : Nat} (unique : pids.Nodup)
    (here : pids[position]? = some pid) : pid ∉ pids.take position := by
  intro passed
  obtain ⟨earlier, before, found⟩ := List.mem_take_iff_getElem.mp passed
  obtain ⟨within, found'⟩ := List.getElem?_eq_some_iff.mp here
  have same : earlier = position :=
    (List.Nodup.getElem_inj_iff unique).mp (found.trans found'.symm)
  omega

/-- Passing a process of which nothing is recorded. -/
theorem Idle.pass (idle : world.Idle scan) (complete : scan.pidEnumerationComplete = true)
    (empty : scan.recordOf pid = {})
    (reads : ∀ other, other ≠ pid → after.reads other = world.reads other) :
    after.Idle scan.nextPid where
  unique := idle.unique
  positive := idle.positive
  unlisted := fun incomplete => by
    have incomplete : scan.pidEnumerationComplete = false := incomplete
    rw [complete] at incomplete
    cases incomplete
  current := rfl
  accounts := by
    intro other _
    have accounts := idle.accounts other trivial
    refine ⟨fun unpassed => accounts.1 fun passed => unpassed ?_, fun recorded => ?_⟩
    · exact (List.take_sublist_take_left (Nat.le_succ scan.pidIndex)).subset passed
    · have differ : other ≠ pid := by
        rintro rfl
        exact recorded empty
      rw [reads other differ]
      exact accounts.2 recorded

/-- What a scan without a current process has read of a process. -/
def reading (scan : FullScanState) (pid : Int) (startTime : Nat) (name cmdline : Bytes) :
    FullScanState :=
  { scan.clearCurrentPid with
    currentPid := pid, currentProcessStartTime := startTime, currentProcName := name
    currentCmdline := cmdline }

/-- A process of which nothing is recorded becomes the current one. -/
theorem Idle.begin (idle : world.Idle scan) (complete : scan.pidEnumerationComplete = true)
    (here : scan.pids[scan.pidIndex]? = some pid) {name cmdline cpu cpuset : SlotRead}
    (some : startTime ≠ 0) (later : Slot.Later ⟨startTime, true⟩ (after.process pid))
    (named : ReadFrom startTime name.slot (after.process pid))
    (lined : ReadFrom startTime cmdline.slot (after.process pid))
    (cpuRead : ReadFrom startTime cpu.slot (after.process pid))
    (cpusetRead : ReadFrom startTime cpuset.slot (after.process pid))
    (reads : after.reads = Function.update world.reads pid { world.reads pid with
      started := ⟨startTime, true⟩, name := name, cmdline := cmdline, cpu := cpu
      cpuset := cpuset }) :
    after.Begun ((reading scan pid startTime name.value cmdline.value).recordLive.recordState
      ((reading scan pid startTime name.value cmdline.value).stateFor
        (cgroupPathsToStateInfo cpu.value cpuset.value))) := by
  have unique := idle.unique complete
  have fresh : scan.recordOf pid = {} :=
    (idle.accounts pid trivial).1 (not_mem_passed unique here)
  have ofPid : after.reads pid = { world.reads pid with
      started := ⟨startTime, true⟩, name := name, cmdline := cmdline, cpu := cpu
      cpuset := cpuset } := by rw [reads, Function.update_self]
  have ofOther : ∀ other, other ≠ pid → after.reads other = world.reads other := by
    intro other differ
    rw [reads, Function.update_of_ne differ]
  have accounts : after.Accounts
      ((reading scan pid startTime name.value cmdline.value).recordLive.recordState
        ((reading scan pid startTime name.value cmdline.value).stateFor
          (cgroupPathsToStateInfo cpu.value cpuset.value))) (· ≠ pid) := by
    intro other differ
    have unchanged := (FullScanState.recordOf_recordState_ne
      ((reading scan pid startTime name.value cmdline.value).stateFor
        (cgroupPathsToStateInfo cpu.value cpuset.value)) differ).trans
      (FullScanState.recordOf_recordLive_ne (show other ≠ (reading scan pid startTime name.value
        cmdline.value).currentPid from differ))
    rw [unchanged, ofOther other differ]
    exact idle.accounts other trivial
  have started : (after.reads pid).started = ⟨startTime, true⟩ := by rw [ofPid]
  have nameValue : (after.reads pid).name.value = name.value := by rw [ofPid]
  have name' : ReadFrom startTime (after.reads pid).name.slot (after.process pid) := by
    rw [ofPid]
    exact named
  have cmdlineValue : (after.reads pid).cmdline.value = cmdline.value := by rw [ofPid]
  have cmdline' : ReadFrom startTime (after.reads pid).cmdline.slot (after.process pid) := by
    rw [ofPid]
    exact lined
  have cpu' : ReadFrom startTime (after.reads pid).cpu.slot (after.process pid) := by
    rw [ofPid]
    exact cpuRead
  have cpuset' : ReadFrom startTime (after.reads pid).cpuset.slot (after.process pid) := by
    rw [ofPid]
    exact cpusetRead
  have state : (reading scan pid startTime name.value cmdline.value).stateFor
      (cgroupPathsToStateInfo cpu.value cpuset.value) =
        (after.reads pid).state scan.previousStates pid startTime := by
    rw [ofPid]
    rfl
  exact {
    complete := complete
    unique := unique
    positive := idle.positive
    here := here
    accounts := accounts
    present := some
    later := later
    started := started
    nameValue := nameValue
    name := name'
    cmdlineValue := cmdlineValue
    cmdline := cmdline'
    cpu := cpu'
    cpuset := cpuset'
    state := state
    record := FullScanState.recordOf_begun _ fresh }

/-- A process is read, or passed over. -/
theorem wp_readProcess (idle : world.Idle scan) (complete : scan.pidEnumerationComplete = true)
    (here : scan.pids[scan.pidIndex]? = some pid) :
    (readProcess scan pid).wp (machine Unreused).withSpin
      (fun found after => (found.1 = true → after.Begun found.2) ∧
        (found.1 = false → after.Idle found.2 ∧ found.2.pidEnumerationComplete = true)) world := by
  have unique := idle.unique complete
  have fresh : scan.recordOf pid = {} :=
    (idle.accounts pid trivial).1 (not_mem_passed unique here)
  have passed : ∀ {after : IdentityWorld}, (∀ other, other ≠ pid → after.reads other = world.reads other) →
      after.Idle scan.nextPid ∧ scan.nextPid.pidEnumerationComplete = true :=
    fun reads => ⟨idle.pass complete fresh reads, complete⟩
  rw [readProcess, Program.wp_bind]
  apply wp_scanStartTime
  · intro after _ reads
    rw [Program.wp_bind]
    apply wp_quiet rfl
    intro _ after _ same
    rw [Program.wp_ite, if_pos rfl]
    refine ⟨fun impossible => ?_, fun _ => passed fun other differ => ?_⟩
    · cases impossible
    · rw [same]
      exact reads other differ
  intro startTime first some slot read
  rw [Program.wp_bind]
  apply wp_quiet rfl
  intro _ second passes same
  have later : Slot.Later ⟨startTime, true⟩ (second.process pid) := by
    rw [← slot]
    exact passes pid
  have read : second.reads = Function.update world.reads pid
      { world.reads pid with started := ⟨startTime, true⟩ } := same.trans read.2
  rw [Program.wp_ite, if_neg some, Program.wp_bind]
  apply wp_processName
  intro name third named
  have others : ∀ other, other ≠ pid → third.reads other = world.reads other := by
    intro other differ
    rw [named.2, Function.update_of_ne differ, read, Function.update_of_ne differ]
  dsimp only
  rw [Program.wp_ite]
  split
  · have dead : third.Idle (FullScanState.nextPid { scan with deadPids := insert pid scan.deadPids }) :=
      Idle.pass { idle with } complete fresh others
    refine ⟨fun impossible => ?_, fun _ => ⟨dead, complete⟩⟩
    cases impossible
  next _ =>
  rw [Program.wp_bind]
  apply wp_processCmdline
  intro cmdline fourth lined
  have reached : Slot.Later ⟨startTime, true⟩ (third.process pid) := later.trans (named.1 pid)
  have now : Slot.Later ⟨startTime, true⟩ (fourth.process pid) := reached.trans (lined.1 pid)
  rw [Program.wp_bind]
  refine Program.wp_mono (wp_cgroupStateInfo now) fun info last looked => ?_
  obtain ⟨cpu, cpuset, rfl, cpuRead, cpusetRead, looks⟩ := looked
  refine ⟨fun _ => ?_, fun impossible => ?_⟩
  · have reads : last.reads = Function.update world.reads pid { world.reads pid with
        started := ⟨startTime, true⟩, name := ⟨name, third.process pid⟩
        cmdline := ⟨cmdline, fourth.process pid⟩, cpu := cpu, cpuset := cpuset } := by
      rw [looks.2, lined.2, named.2, read]
      simp only [Function.update_self, Function.update_idem]
    have nameRead : ReadFrom startTime (third.process pid) (last.process pid) :=
      ((readFrom_now reached).later (lined.1 pid)).later (looks.1 pid)
    have lineRead : ReadFrom startTime (fourth.process pid) (last.process pid) :=
      (readFrom_now now).later (looks.1 pid)
    exact idle.begin complete here some (now.trans (looks.1 pid)) nameRead lineRead cpuRead
      cpusetRead reads
  · cases impossible

/-- The current process is withdrawn. -/
theorem Begun.withdrawn (begun : world.Begun scan) (reads : after.reads = world.reads) :
    after.Idle scan.withdraw.clearCurrentPid where
  unique := fun _ => begun.unique
  positive := begun.positive
  unlisted := fun incomplete => by
    have incomplete : scan.pidEnumerationComplete = false := incomplete
    rw [begun.complete] at incomplete
    cases incomplete
  current := rfl
  accounts := by
    intro other _
    rw [reads]
    by_cases differ : other = scan.currentPid
    · have empty : scan.withdraw.clearCurrentPid.recordOf other = {} := by
        rw [differ]
        exact scan.recordOf_withdraw
      exact ⟨fun _ => empty, fun recorded => absurd empty recorded⟩
    · have same : scan.withdraw.clearCurrentPid.recordOf other = scan.recordOf other :=
        FullScanState.recordOf_withdraw_ne differ
      rw [same]
      exact begun.accounts other differ

/-- The current process is matched while it lives. -/
theorem Begun.matched (begun : world.Begun scan) (result : MatchResult)
    (alive : world.process scan.currentPid = ⟨scan.currentProcessStartTime, true⟩)
    (reads : after.reads = Function.update world.reads scan.currentPid
      { world.reads scan.currentPid with
        matched := some
          (scan.currentProcName, scan.currentState, scan.currentCmdline, result) }) :
    after.Idle (scan.recordResult result).nextPid where
  unique := fun _ => begun.unique
  positive := begun.positive
  unlisted := fun incomplete => by
    have incomplete : scan.pidEnumerationComplete = false := incomplete
    rw [begun.complete] at incomplete
    cases incomplete
  current := rfl
  accounts := by
    intro other _
    have passed : ∀ {pid}, pid ∈ scan.pids.take scan.pidIndex →
        pid ∈ scan.pids.take (scan.pidIndex + 1) := fun member =>
      (List.take_sublist_take_left (Nat.le_succ scan.pidIndex)).subset member
    by_cases differ : other = scan.currentPid
    · subst differ
      have ofPid : after.reads scan.currentPid = { world.reads scan.currentPid with
          matched := some
            (scan.currentProcName, scan.currentState, scan.currentCmdline, result) } := by
        rw [reads, Function.update_self]
      have settled : (scan.recordResult result).nextPid.recordOf scan.currentPid =
          .settled scan.currentProcessStartTime scan.currentState
            (decide (scan.currentPid ∈ scan.baselinePids))
            (decide (scan.currentCmdline = [])) result :=
        FullScanState.recordOf_settled result begun.record
      have name := begun.name
      have cmdline := begun.cmdline
      have cpu := begun.cpu
      have cpuset := begun.cpuset
      rw [alive] at name cmdline cpu cpuset
      refine ⟨fun unpassed => absurd ?_ unpassed, fun _ => ?_⟩
      · show scan.currentPid ∈ scan.pids.take (scan.pidIndex + 1)
        obtain ⟨within, found⟩ := List.getElem?_eq_some_iff.mp begun.here
        exact List.mem_take_iff_getElem.mpr ⟨scan.pidIndex, by omega, found⟩
      · rw [ofPid, settled]
        refine ⟨scan.currentProcessStartTime, result,
          ⟨begun.started, name.settle, cmdline.settle, cpu.settle, cpuset.settle⟩, ?_, ?_⟩
        · rw [begun.nameValue, begun.cmdlineValue, begun.state]
          rfl
        · rw [begun.cmdlineValue, begun.state]
          rfl
    · have same : (scan.recordResult result).nextPid.recordOf other = scan.recordOf other :=
        FullScanState.recordOf_recordResult_ne result differ
      have accounts := begun.accounts other differ
      rw [same, reads, Function.update_of_ne differ]
      exact ⟨fun unpassed => accounts.1 fun member => unpassed (passed member), accounts.2⟩

/-- The current process is checked and matched, or withdrawn, or left as it is. -/
theorem wp_verifyProcess (begun : world.Begun scan) :
    (verifyProcess scan).wp (machine Unreused).withSpin
      (fun outcome after => outcome.elim
        (fun next => after.Idle next ∧ next.pidEnumerationComplete = true)
        fun found => found.1 = false ∧ after.Begun found.2) world := by
  rw [verifyProcess, Program.wp_bind]
  apply wp_quiet rfl
  intro exhausted first passes reads
  have begun := begun.passes passes reads
  rw [Program.wp_ite]
  split
  · exact ⟨rfl, begun⟩
  rw [Program.wp_bind]
  apply wp_scanRecheck
  intro verified second passes reads alive
  rw [Program.wp_ite]
  split
  · exact ⟨begun.withdrawn reads, begun.complete⟩
  next same =>
  have same : verified = scan.currentProcessStartTime := not_not.mp same
  have begun := begun.passes passes reads
  rw [same] at alive
  have alive := alive begun.present
  rw [Program.wp_bind]
  apply wp_matchProcess
  intro result third read
  exact ⟨begun.matched result alive read.2, begun.complete⟩

/-- A scan goes on with its current process. -/
theorem wp_continueProcess (fuel : Nat) (begun : world.Begun scan) :
    (continueProcess fuel scan).wp (machine Unreused).withSpin
      (fun outcome after => outcome.elim
        (fun next => after.Idle next ∧ next.pidEnumerationComplete = true)
        fun found => found.1 = false ∧ after.Begun found.2) world := by
  rw [continueProcess, Program.wp_bind]
  refine Program.wp_mono (wp_enumerateCurrentTids fuel begun) fun found first begun => ?_
  obtain ⟨listed, scan⟩ := found
  dsimp only at begun ⊢
  rw [Program.wp_ite]
  split
  · exact ⟨rfl, begun⟩
  rw [Program.wp_bind]
  refine Program.wp_mono (wp_readThreads (scan.currentTids.drop scan.tidIndex) begun)
    fun found second begun => ?_
  obtain ⟨finished, scan⟩ := found
  dsimp only at begun ⊢
  rw [Program.wp_ite]
  split
  · exact ⟨rfl, begun⟩
  · exact wp_verifyProcess begun

/-! ## Whole scans -/

/-- One process is scanned, or the scan is cut, or it is finished. -/
theorem wp_scanNext (fuel : Nat) (stands : world.Stands scan)
    (complete : scan.pidEnumerationComplete = true) :
    (scanNext fuel scan).wp (machine Unreused).withSpin
      (fun outcome after => outcome.elim
        (fun next => after.Stands next ∧ next.pidEnumerationComplete = true)
        fun found => after.Stands found.2 ∧ (found.1 = true → after.Idle found.2)) world := by
  have weaken : ∀ {scan : FullScanState} {world : IdentityWorld}, world.Begun scan →
      (continueProcess fuel scan).wp (machine Unreused).withSpin
        (fun outcome after => outcome.elim
          (fun next => after.Stands next ∧ next.pidEnumerationComplete = true)
          fun found => after.Stands found.2 ∧ (found.1 = true → after.Idle found.2)) world := by
    intro scan world begun
    refine Program.wp_mono (wp_continueProcess fuel begun) fun outcome after reached => ?_
    cases outcome with
    | inl next => exact ⟨.inl reached.1, reached.2⟩
    | inr found =>
      refine ⟨.inr reached.2, fun finished => ?_⟩
      rw [reached.1] at finished
      cases finished
  rw [scanNext]
  split
  · next finished =>
    have idle : world.Idle scan := by
      rcases stands with idle | begun
      · exact idle
      · rw [begun.here] at finished
        cases finished
    exact ⟨stands, fun _ => idle⟩
  next pid here =>
  rw [Program.wp_bind]
  apply wp_quiet rfl
  intro exhausted after passes reads
  have stands : after.Stands scan :=
    stands.imp (fun idle => idle.congr reads) fun begun => begun.passes passes reads
  rw [Program.wp_ite]
  split
  · refine ⟨stands, fun impossible => ?_⟩
    cases impossible
  rw [Program.wp_ite]
  split
  · next current =>
    have begun : after.Begun scan := by
      rcases stands with idle | begun
      · have positive := idle.positive pid (List.mem_of_getElem? here)
        have none := idle.current
        omega
      · exact begun
    exact weaken begun
  next differ =>
  have idle : after.Idle scan := by
    rcases stands with idle | begun
    · exact idle
    · exact absurd (Option.some.inj (begun.here.symm.trans here)) differ
  rw [Program.wp_bind]
  refine Program.wp_mono (wp_readProcess idle complete here) fun found last reached => ?_
  obtain ⟨alive, scan⟩ := found
  dsimp only at reached ⊢
  rw [Program.wp_ite]
  split
  · next found => exact weaken (reached.1 found)
  · next gone =>
    have passed := reached.2 (by simpa using gone)
    exact ⟨.inl passed.1, passed.2⟩

/-- One call leaves the scan in order, and a finished scan has no current process. -/
theorem wp_advanceFullScan (fuel : Nat) (stands : world.Stands scan) :
    (advanceFullScan fuel scan).wp (machine Unreused).withSpin
      (fun found after => after.Stands found.2 ∧ (found.1 = true → after.Idle found.2)) world := by
  have unfinished : ∀ {scan : FullScanState} {world : IdentityWorld}, world.Stands scan →
      world.Stands scan ∧ (false = true → world.Idle scan) :=
    fun stands => ⟨stands, fun impossible => by cases impossible⟩
  rw [advanceFullScan, Program.wp_ite]
  split
  · exact unfinished stands
  rw [Program.wp_bind]
  refine Program.wp_mono (wp_enumeratePids fuel stands) fun found first reached => ?_
  obtain ⟨listed, scan⟩ := found
  obtain ⟨stands, complete⟩ := reached
  dsimp only at stands complete ⊢
  rw [Program.wp_ite]
  split
  · exact unfinished stands
  next whole =>
  have complete : scan.pidEnumerationComplete = true := complete (by simpa using whole)
  rw [Program.wp_bind]
  refine Program.wp_mono (Looping.wp_loop (fun scan (world : IdentityWorld) => world.Stands scan ∧
    scan.pidEnumerationComplete = true) (fun scan world holds => wp_scanNext fuel holds.1 holds.2)
    fuel ⟨stands, complete⟩) fun found second reached => ?_
  obtain ⟨finished, scan⟩ := found
  obtain ⟨stands, idle⟩ := reached
  dsimp only at stands idle ⊢
  rw [Program.wp_ite]
  split
  · exact unfinished stands
  next done =>
  have idle : second.Idle scan := idle (by simpa using done)
  rw [Program.wp_bind]
  apply wp_quiet rfl
  intro _ after passes reads
  exact ⟨.inl (idle.congr reads), fun _ => idle.congr reads⟩

/-- A scan begins without a current process. -/
theorem idle_beginFrom (world : IdentityWorld) (cache : ThreadCache)
    (priorStates : Table Int (Nat × ProcessState)) :
    world.Idle (.beginFrom cache priorStates) where
  unique := fun complete => by cases complete
  positive := fun pid member => absurd member List.not_mem_nil
  unlisted := fun _ => rfl
  current := rfl
  accounts := fun pid _ => ⟨fun _ => rfl, fun recorded => absurd rfl recorded⟩

/-- Between two calls a scan is in order. -/
theorem Reaches.stands {cache : ThreadCache} {priorStates : Table Int (Nat × ProcessState)}
    {initial : IdentityWorld} (reached : Reaches Unreused cache priorStates initial scan world) :
    world.Stands scan := by
  induction reached with
  | start => exact .inl (idle_beginFrom initial cache priorStates)
  | call reached run ih => exact (run.post (wp_advanceFullScan _ ih)).1

/-- A finished scan has recorded facts of one process under each ID, when no path it took from the
cache had been read of an earlier process. -/
theorem factsOfOne_of_unreused {cache : ThreadCache}
    {priorStates : Table Int (Nat × ProcessState)} {initial : IdentityWorld}
    (reached : Reaches Unreused cache priorStates initial scan world) {fuel : Nat}
    {next : FullScanState}
    (run : Program.Run (machine Unreused).withSpin (advanceFullScan fuel scan) world (true, next)
      after) : after.FactsOfOne next := by
  have idle := (run.post (wp_advanceFullScan fuel reached.stands)).2 rfl
  exact fun pid recorded => (idle.accounts pid trivial).2 recorded

/-! ## Two scans of one process -/

/-- Time may stand still. -/
theorem Moves.refl (world : IdentityWorld) : world.Moves world :=
  ⟨fun _ => Slot.Later.refl _, le_refl _, fun _ _ cached => .inl ⟨cached, rfl⟩, rfl⟩

/-- What an operation of a lookup answers when every process is in the top application. -/
def performLook (world : IdentityWorld) :
    (operation : CgroupOp) → Option (CgroupSig.Res operation × IdentityWorld)
  | .now => some (world.clock, world)
  | .find key now =>
    some (world.cache.find world.ttlMs now key,
      match world.cache.find world.ttlMs now key with
      | none => world
      | some path =>
        world.setReads key.pid (ProcessReads.setPath · key.controller ⟨path, world.origin key⟩))
  | .readFile pid => some (if (world.process pid).alive then Bytes.ascii "1:cpu:/top-app" else [],
      { world with file := world.process pid })
  | .store key path now => some ((), IdentityWorld.setReads
      { world with
        cache := world.cache.store world.ttlMs now key key path
        origin := Function.update world.origin key world.file }
      key.pid (ProcessReads.setPath · key.controller ⟨path, world.file⟩))

/-- The answers are possible. -/
theorem look_of_performLook {operation : CgroupOp} {response : CgroupSig.Res operation}
    (performed : world.performLook operation = some (response, after)) :
    world.Look operation response after := by
  cases operation with
  | now =>
    cases performed
    exact ⟨rfl, rfl⟩
  | find key now =>
    cases performed
    refine ⟨rfl, ?_⟩
    cases world.cache.find world.ttlMs now key with
    | none => rfl
    | some path => rfl
  | readFile pid =>
    cases performed
    refine ⟨fun gone => ?_, rfl⟩
    rw [gone, if_neg Bool.false_ne_true]
  | store key path now =>
    cases performed
    exact ⟨key, rfl⟩

/-- The answers of a lookup where they are allowed. -/
def playLook (allowed : IdentityWorld → CgroupOp → Prop) [∀ world, DecidablePred (allowed world)]
    (world : IdentityWorld) (operation : CgroupOp) :
    Option (CgroupSig.Res operation × IdentityWorld) :=
  if allowed world operation then world.performLook operation else none

/-- What an operation answers when there is the process 7. -/
def perform (allowed : IdentityWorld → CgroupOp → Prop) [∀ world, DecidablePred (allowed world)]
    (world : IdentityWorld) : (operation : SysOp) → Option (SysSig.Res operation × IdentityWorld)
  | .budgetExhausted => some (false, world)
  | .afterThreadRead => some ((), world)
  | .openProc => some (true, world)
  | .readProc => some (if world.clock = 0 then .name (Bytes.ascii "7") else .finished, world)
  | .openTask _ => some (false, world)
  | .processStartTime use pid => some
    (if (world.process pid).alive then (world.process pid).start else 0,
      if use = .scan then world.setReads pid ({ · with started := world.process pid }) else world)
  | .processName pid => some (if (world.process pid).alive then Bytes.ascii "app" else deadName,
      world.setReads pid ({ · with name :=
        ⟨if (world.process pid).alive then Bytes.ascii "app" else deadName, world.process pid⟩ }))
  | .processCmdline pid => some ([],
      world.setReads pid ({ · with cmdline := ⟨[], world.process pid⟩ }))
  | .cgroupStateInfo pid => (getCgroupStateInfo pid).exec (playLook allowed) world
  | .matchProcess pid procName state cmdline => some ({ effectiveState := state },
      world.setReads pid ({ · with
        matched := some (procName, state, cmdline, { effectiveState := state }) }))
  | .cache (.retainLiveThreads findings) =>
    some ((CacheCall.run (.retainLiveThreads findings) ∅).1, world)
  | _ => none

/-- Time passes when a read is counted, and the process is replaced when its start time is checked
for the first time, if it is to be. -/
def scenario (replaced : Bool) (world : IdentityWorld) : SysOp → IdentityWorld
  | .afterThreadRead => { world with clock := world.clock + 1 }
  | .processStartTime .rescan _ =>
    { world with process := fun pid => if replaced && (world.process pid).start = 1
        then ⟨2, true⟩ else world.process pid }
  | _ => world

/-- Processes may come and go so. -/
theorem moves_scenario (replaced : Bool) (world : IdentityWorld) (operation : SysOp) :
    world.Moves (scenario replaced world operation) := by
  have kept : ∀ {after : IdentityWorld}, after.cache = world.cache →
      after.origin = world.origin → ∀ key entry, after.cache.lookup key = some entry →
        (world.cache.lookup key = some entry ∧ after.origin key = world.origin key) ∨
          (Slot.Later (world.process key.pid) (after.origin key) ∧
            Slot.Later (after.origin key) (after.process key.pid)) := by
    intro after cache origin key entry cached
    rw [cache] at cached
    exact .inl ⟨cached, by rw [origin]⟩
  cases operation with
  | afterThreadRead =>
    have later : world.clock ≤ world.clock + 1 := by omega
    exact ⟨fun pid => Slot.Later.refl _, later, kept rfl rfl, rfl⟩
  | processStartTime use pid =>
    cases use with
    | rescan =>
      refine ⟨fun pid => ?_, le_refl _, kept rfl rfl, rfl⟩
      simp only [scenario]
      split
      · next first =>
        rw [Bool.and_eq_true, decide_eq_true_eq] at first
        exact .inl (by rw [first.2]; decide)
      · exact Slot.Later.refl _
    | _ => exact .refl world
  | _ => exact .refl world

/-- The answers in the scenario. -/
def play (replaced : Bool) (allowed : IdentityWorld → CgroupOp → Prop)
    [∀ world, DecidablePred (allowed world)] (world : IdentityWorld) (operation : SysOp) :
    Option (SysSig.Res operation × IdentityWorld) :=
  (scenario replaced world operation).perform allowed operation

/-- The answers are possible. -/
theorem step_of_play {replaced : Bool} {allowed : IdentityWorld → CgroupOp → Prop}
    [∀ world, DecidablePred (allowed world)] {operation : SysOp}
    {response : SysSig.Res operation}
    (played : play replaced allowed world operation = some (response, after)) :
    (machine allowed).step world operation response after := by
  have moves := moves_scenario replaced world operation
  cases operation with
  | cgroupStateInfo pid =>
    refine Program.run_of_exec ?_ played
    intro state operation response after answered
    unfold playLook at answered
    split at answered
    · next allowed => exact ⟨state, .refl state, allowed, look_of_performLook answered⟩
    · cases answered
  | processStartTime use pid =>
    refine ⟨_, moves, ?_⟩
    cases played
    refine ⟨?_, rfl⟩
    split
    · next alive => exact .inr ⟨alive, rfl⟩
    · exact .inl rfl
  | processName pid =>
    refine ⟨_, moves, ?_⟩
    cases played
    refine ⟨fun gone => ?_, rfl⟩
    rw [gone, if_neg Bool.false_ne_true]
  | processCmdline pid =>
    refine ⟨_, moves, ?_⟩
    cases played
    exact ⟨fun _ => rfl, rfl⟩
  | cache call =>
    refine ⟨_, moves, ?_⟩
    cases call with
    | retainLiveThreads findings =>
      cases played
      exact rfl
    | _ => cases played
  | budgetExhausted | afterThreadRead | openProc | readProc | openTask pid
  | matchProcess pid procName state cmdline =>
    refine ⟨_, moves, ?_⟩
    cases played
    exact rfl
  | _ => cases played

/-- Process 7 lives, and no path is cached. -/
def beginning : IdentityWorld where
  process _ := ⟨1, true⟩
  ttlMs := 100

/-- A process that stays is recorded with what was read of it. -/
theorem factsOfOne_of_unreused_once : ∃ (scan : FullScanState) (after : IdentityWorld),
    scan.topAppPids = {7} ∧ after.FactsOfOne scan := by
  have played : ((advanceFullScan 5 (.beginFrom ∅ ∅)).exec
      (Looping.respondWithSpin (play false Unreused)) beginning).map
        (fun found => (found.1.1, found.1.2.topAppPids)) = some (true, {7}) := by
    decide +kernel
  obtain ⟨⟨⟨finished, scan⟩, after⟩, played, seen⟩ := Option.map_eq_some_iff.mp played
  obtain ⟨complete, found⟩ := Prod.mk.inj seen
  obtain rfl : finished = true := complete
  exact ⟨scan, after, found,
    factsOfOne_of_unreused .start (Looping.run_of_exec step_of_play played)⟩

/-- A process that replaces another one while a scan lists its threads is recorded with the path of
the process before it, which the scan had cached. -/
theorem factsOfOne_fails : ¬ ∀ (cache : ThreadCache) (priorStates : Table Int (Nat × ProcessState))
    (initial : IdentityWorld) (scan : FullScanState) (world : IdentityWorld),
    Reaches (fun _ _ => True) cache priorStates initial scan world →
      ∀ (fuel : Nat) (next : FullScanState) (after : IdentityWorld),
        Program.Run (machine fun _ _ => True).withSpin (advanceFullScan fuel scan) world
          (true, next) after → after.FactsOfOne next := by
  intro claim
  have played : ((advanceFullScan 5 (.beginFrom ∅ ∅)).exec
      (Looping.respondWithSpin (play true fun _ _ => True)) beginning).map
        (fun found => (found.1.1, decide (7 ∈ found.1.2.topAppPids),
          (found.2.reads 7).started.start, (found.2.reads 7).cpu.slot.start)) =
      some (true, true, 2, 1) := by
    decide +kernel
  obtain ⟨⟨⟨finished, scan⟩, after⟩, played, seen⟩ := Option.map_eq_some_iff.mp played
  obtain ⟨complete, seen⟩ := Prod.mk.inj seen
  obtain ⟨recorded, seen⟩ := Prod.mk.inj seen
  obtain ⟨started, cpu⟩ := Prod.mk.inj seen
  obtain rfl : finished = true := complete
  have facts := claim ∅ ∅ beginning _ beginning .start 5 scan after
    (Looping.run_of_exec step_of_play played)
  have nonempty : scan.recordOf 7 ≠ {} := by
    intro empty
    have absent : decide (7 ∈ scan.topAppPids) = false := congrArg PidRecord.topApp empty
    have recorded : decide (7 ∈ scan.topAppPids) = true := recorded
    rw [absent] at recorded
    cases recorded
  obtain ⟨startTime, result, same, -⟩ := facts 7 nonempty
  have started : (after.reads 7).started.start = 2 := started
  have cpu : (after.reads 7).cpu.slot.start = 1 := cpu
  rw [same.started] at started
  rw [same.cpu, started] at cpu
  cases cpu

end IdentityWorld

end ReUperf
