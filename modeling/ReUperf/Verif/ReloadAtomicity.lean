import ReUperf.Main.Reload
import ReUperf.Verif.DispatchIdentity
import ReUperf.Verif.RestoreAgreement

/-!
# Atomicity of a reload

A reload stops the workers, restores every recorded baseline, initialises the groups of the new
configuration and starts its workers. Each step may fail or throw, and threads may end meanwhile.
The module proves that afterwards the scheduler is wholly the old one or wholly the new one, or the
main loop has been told to stop; and that no baseline of a living thread is forgotten unless it was
restored, as long as no read of the identity of a living thread with a baseline fails.
-/

namespace ReUperf

open Effect FileUtils

/-- Whether a call restored a part. -/
def SetterCall.succeeded : (call : SetterCall) → call.Res → Bool
  | .restoreCpusetCgroup _ _, ok | .restoreAffinity _ _, ok | .restoreScheduler _ _, ok
  | .restoreCpuctlCgroup _ _, ok => ok
  | _, _ => false

/-- A baseline is recorded in a cache. -/
def ThreadCache.Records (cache : ThreadCache) (stored : StoredThreadBaseline) : Prop :=
  ∃ entry, cache.lookup stored.identity.key = some entry ∧ entry.identity = stored.identity ∧
    entry.baseline = some stored.baseline

/-- Two baselines recorded under one key are the same. -/
theorem ThreadCache.Records.eq_of_key {cache : ThreadCache} {stored other : StoredThreadBaseline}
    (first : cache.Records stored) (second : cache.Records other)
    (same : other.identity.key = stored.identity.key) : other = stored := by
  obtain ⟨entry, found, own, baselined⟩ := first
  obtain ⟨held, looked, mine, kept⟩ := second
  rw [same] at looked
  obtain rfl : held = entry := Option.some.inj (looked.symm.trans found)
  obtain ⟨identity, baseline⟩ := other
  have identities : identity = stored.identity := mine.symm.trans own
  have baselines : baseline = stored.baseline := Option.some.inj (kept.symm.trans baselined)
  rw [identities, baselines]

namespace Main

/-! ## The machine -/

/-- Processes and threads that come and go, the cache, and what has been restored. -/
structure ReloadWorld where
  /-- The process with an ID. -/
  process : Int → Slot
  /-- The thread with an ID in a process. -/
  thread : CacheKey → Slot
  /-- The thread cache. -/
  cache : ThreadCache
  /-- The cache as the workers left it. -/
  found : ThreadCache
  /-- The calls that restored a part. -/
  restored : List SetterCall := []

namespace ReloadWorld

/-- A thread identity is alive. -/
structure Lives (world : ReloadWorld) (identity : Identity) : Prop where
  /-- The kernel gives such a process ID. -/
  validPid : isValidId identity.pid = true
  /-- The kernel gives such a thread ID. -/
  validTid : isValidId identity.tid = true
  /-- The process lives. -/
  process : world.process identity.pid = ⟨identity.processStartTime, true⟩
  /-- The thread lives. -/
  thread : world.thread identity.key = ⟨identity.threadStartTime, true⟩

/-- A thread identity has been alive. -/
structure Begun (world : ReloadWorld) (identity : Identity) : Prop where
  /-- The process has started. -/
  process : identity.processStartTime ≤ (world.process identity.pid).start
  /-- The thread has started. -/
  thread : identity.threadStartTime ≤ (world.thread identity.key).start

/-- Processes and threads come and go. -/
structure Moves (world after : ReloadWorld) : Prop where
  /-- Processes. -/
  process : ∀ pid, Slot.Later (world.process pid) (after.process pid)
  /-- Threads. -/
  thread : ∀ key, Slot.Later (world.thread key) (after.thread key)
  /-- The reload does nothing. -/
  same : after = { world with process := after.process, thread := after.thread }

/-- A call of the restoration that returns. -/
def Call (world : ReloadWorld) : (operation : CallOp) → CallSig.Res operation → ReloadWorld → Prop
  | .sys (.cache call), response, after =>
    ∃ cache, call.Step world.cache response cache ∧ after = { world with cache := cache }
  | .sys (.processStartTime _ pid), found, after =>
    ReuseWorld.ReadsStart (world.process pid) found ∧ after = world
  | .sys (.threadStartTime _ pid tid), found, after =>
    ReuseWorld.ReadsStart (world.thread (pid, tid)) found ∧ after = world
  | .sys (.threadInProcess _ pid tid), found, after =>
    (found = true → (world.thread (pid, tid)).alive = true) ∧ after = world
  | .setter call, response, after => after = { world with
      restored := world.restored ++ if call.succeeded response then [call] else [] }
  | _, _, after => after = world

/-- The workers and the event handler change the cache until they have stopped. An entry is of a
thread that one of them has seen. -/
def Works (world after : ReloadWorld) : Prop :=
  ∃ cache : ThreadCache, cache.Keyed ∧
    (∀ key entry, cache.lookup key = some entry → world.Begun entry.identity) ∧
      after = { world with cache := cache, found := cache }

/-- One operation of a reload. Once the workers have stopped only the restoration changes the
cache. -/
def Op (world : ReloadWorld) :
    (operation : ReloadOp) → ReloadSig.Res operation → ReloadWorld → Prop
  | .parse, _, after | .prepare, _, after | .stopWorkers, _, after => world.Works after
  | .call operation, some response, after => world.Call operation response after
  | .clearScheduling, _, after => after = { world with
      cache := world.cache.clearSchedulingStatePreservingBaselines }
  | _, _, after => after = world

/-- No read of the identity of a living thread with a recorded baseline fails. -/
def Reliable (world : ReloadWorld) : (operation : ReloadOp) → ReloadSig.Res operation → Prop
  | .call (.sys (.processStartTime _ pid)), some found => ∀ stored, world.found.Records stored →
    world.Lives stored.identity → stored.identity.pid = pid → found ≠ 0
  | .call (.sys (.threadStartTime _ pid tid)), some found => ∀ stored,
    world.found.Records stored → world.Lives stored.identity → stored.identity.key = (pid, tid) →
      found ≠ 0
  | .call (.sys (.threadInProcess _ pid tid)), some found => ∀ stored,
    world.found.Records stored → world.Lives stored.identity → stored.identity.key = (pid, tid) →
      found = true
  | _, _ => True

/-- The machine of a reload while processes and threads come and go. -/
def machine (allowed : ReloadWorld → (operation : ReloadOp) → ReloadSig.Res operation → Prop) :
    Machine ReloadSig ReloadWorld where
  step world operation response after :=
    ∃ moved, world.Moves moved ∧ allowed moved operation response ∧
      moved.Op operation response after

/-- A baseline of a thread that still lives is still recorded, or it was restored. -/
def Remembers (world : ReloadWorld) : Prop :=
  ∀ stored, world.found.Records stored → world.Lives stored.identity →
    world.cache.Records stored ∨
      ∀ call ∈ stored.baseline.restoreCalls stored.identity, call ∈ world.restored

end ReloadWorld

/-- Everything belongs to one configuration, and every worker runs. -/
structure MainVars.Runs (vars : MainVars) (generation : Generation) : Prop where
  /-- The configuration. -/
  config : vars.config = generation
  /-- The matcher. -/
  matcher : vars.matcher = generation
  /-- The cpuset setter. -/
  cpuset : vars.cpuset = generation
  /-- The priority setter. -/
  prio : vars.prio = generation
  /-- The cpuctl setter. -/
  cpuctl : vars.cpuctl = generation
  /-- The workers. -/
  workers : ∀ worker ∈ vars.workers, worker = ⟨generation, true⟩

/-- The cursors, the sets of processes, the scan and the states are as at the start. -/
structure MainVars.Reset (vars : MainVars) : Prop where
  /-- The cursors and the sets of processes. -/
  cycle : vars.cycle = {}
  /-- The scan. -/
  fullScan : vars.fullScan = {}
  /-- The states of processes. -/
  processStates : vars.processStates = ∅

/-- How a reload may leave `main`: it stops, or it is wholly new, or it is wholly old. -/
def AllOrNothing (vars : MainVars) (after : ReloadWorld) : Prop :=
  vars.running = false ∨
    (vars.Runs .new ∧ after.cache = ∅ ∧ vars.Reset) ∨ (vars.Runs .old ∧ after.Remembers)

namespace ReloadWorld

variable {world middle after : ReloadWorld} {identity : Identity}

/-! ## Living threads -/

theorem Moves.refl (world : ReloadWorld) : world.Moves world :=
  ⟨fun _ => .refl _, fun _ => .refl _, rfl⟩

theorem Moves.trans (first : world.Moves middle) (second : middle.Moves after) :
    world.Moves after where
  process pid := (first.process pid).trans (second.process pid)
  thread key := (first.thread key).trans (second.thread key)
  same := by
    rw [second.same, first.same]

/-- An identity that has begun has begun for ever. -/
theorem Begun.moves (begun : world.Begun identity) (moves : world.Moves after) :
    after.Begun identity where
  process := begun.process.trans (moves.process _).le
  thread := begun.thread.trans (moves.thread _).le

/-- An identity that had begun and lives later has lived all the time. -/
theorem Lives.back (begun : world.Begun identity) (moves : world.Moves after)
    (lives : after.Lives identity) : world.Lives identity where
  validPid := lives.validPid
  validTid := lives.validTid
  process := by
    have later := moves.process identity.pid
    rw [lives.process] at later
    exact later.of_le begun.process
  thread := by
    have later := moves.thread identity.key
    rw [lives.thread] at later
    exact later.of_le begun.thread

/-! ## What holds during a reload -/

/-- What holds between two operations once the workers have stopped. -/
structure Holds (world : ReloadWorld) : Prop where
  /-- The cache was keyed. -/
  keyed : world.found.Keyed
  /-- Every thread in it has been alive. -/
  begun : ∀ key entry, world.found.lookup key = some entry → world.Begun entry.identity
  /-- Every entry is of an identity that had one. -/
  kept : ∀ key entry, world.cache.lookup key = some entry →
    ∃ old, world.found.lookup key = some old ∧ old.identity = entry.identity
  /-- No baseline of a living thread is forgotten unless it was restored. -/
  remembers : world.Remembers

/-- A thread with a baseline has been alive. -/
theorem Holds.begun_of_records {stored : StoredThreadBaseline} (holds : world.Holds)
    (recorded : world.found.Records stored) : world.Begun stored.identity := by
  obtain ⟨entry, found, own, -⟩ := recorded
  rw [← own]
  exact holds.begun _ entry found

/-- Time passes. -/
theorem Holds.moves (holds : world.Holds) (moves : world.Moves after) : after.Holds := by
  have same := moves.same
  refine ⟨?_, ?_, ?_, ?_⟩
  · rw [same]
    exact holds.keyed
  · intro key entry found
    rw [same] at found
    exact (holds.begun key entry found).moves moves
  · rw [same]
    exact holds.kept
  · intro stored recorded last
    rw [same] at recorded
    have lives := last.back (holds.begun_of_records recorded) moves
    rw [same]
    exact holds.remembers stored recorded lives

/-- It holds of a cache the workers have left. -/
theorem Holds.of_works (works : world.Works after) : after.Holds ∧ after.cache = after.found := by
  obtain ⟨cache, keyed, begun, same⟩ := works
  rw [same]
  refine ⟨⟨keyed, ?_, ?_, ?_⟩, rfl⟩
  · exact fun key entry found => ⟨(begun key entry found).process, (begun key entry found).thread⟩
  · exact fun key entry looked => ⟨entry, looked, rfl⟩
  · exact fun stored recorded _ => .inl recorded

/-- More is restored. -/
theorem Holds.restores (holds : world.Holds) (calls : List SetterCall) :
    Holds { world with restored := world.restored ++ calls } where
  keyed := holds.keyed
  begun key entry found :=
    ⟨(holds.begun key entry found).process, (holds.begun key entry found).thread⟩
  kept := holds.kept
  remembers stored recorded last := by
    have lives : world.Lives stored.identity :=
      ⟨last.validPid, last.validTid, last.process, last.thread⟩
    rcases holds.remembers stored recorded lives with still | done
    · exact .inl still
    · exact .inr fun call member => List.mem_append_left _ (done call member)

/-! ## Attempted calls -/

/-- The judgement about a program of calls that may throw. -/
abbrev Attempts {α : Type} (program : CallProgram α) (returned : α → ReloadWorld → Prop)
    (thrown : ReloadWorld → Prop) (world : ReloadWorld) : Prop :=
  (program.attempt throwingCall).wp (machine Reliable) (Program.caught returned thrown) world

variable {α β : Type} {returned : α → ReloadWorld → Prop} {thrown : ReloadWorld → Prop}

/-- An attempted sequence. -/
theorem attempts_bind {program : CallProgram α} {rest : α → CallProgram β}
    {final : β → ReloadWorld → Prop}
    (first : Attempts program (fun value => Attempts (rest value) final thrown) thrown world) :
    Attempts (program >>= rest) final thrown world := by
  unfold Attempts at *
  rw [Program.wp_attempt_bind]
  exact first

/-- An attempted call. -/
theorem attempts_call {operation : CallOp}
    {returned : CallSig.Res operation → ReloadWorld → Prop}
    (throws : ∀ moved, world.Moves moved → thrown moved)
    (returns : ∀ moved response after, world.Moves moved →
      Reliable moved (.call operation) (some response) → moved.Call operation response after →
        returned response after) :
    Attempts (Program.op (S := CallSig) operation) returned thrown world := by
  unfold Attempts
  rw [Program.wp_attempt_op]
  rintro answer after ⟨moved, moves, reliable, stepped⟩
  cases answer with
  | none =>
    have same : after = moved := stepped
    rw [same]
    exact throws moved moves
  | some response => exact returns moved response after moves reliable stepped

/-- Weaker postconditions. -/
theorem attempts_mono {program : CallProgram α} {final : α → ReloadWorld → Prop}
    {lost : ReloadWorld → Prop} (attempts : Attempts program returned thrown world)
    (returns : ∀ value after, returned value after → final value after)
    (throws : ∀ after, thrown after → lost after) : Attempts program final lost world := by
  refine Program.wp_mono attempts fun answer after holds => ?_
  cases answer with
  | none => exact throws after holds
  | some value => exact returns value after holds

/-! ## Checks -/

variable {stored : StoredThreadBaseline}

/-- What was found stays so. -/
theorem Moves.records (moves : world.Moves after) (recorded : world.found.Records stored) :
    after.found.Records stored := by
  rw [moves.same]
  exact recorded

/-- A read of a living holder's start time. -/
theorem start_eq {slot : Slot} {found start : Nat} (reads : ReuseWorld.ReadsStart slot found)
    (real : found ≠ 0) (lives : slot = ⟨start, true⟩) : found = start := by
  have same := (reads.resolve_left real).2
  rw [same, lives]

/-- Reading the start time of a process. -/
theorem attempts_processStartTime {use : ReadUse} (recorded : world.found.Records stored) :
    Attempts (lift (getProcessStartTime use stored.identity.pid))
      (fun found after => world.Moves after ∧ (found ≠ stored.identity.processStartTime →
        ¬ after.Lives stored.identity)) world.Moves world := by
  unfold getProcessStartTime
  split
  · refine attempts_call (fun _ moves => moves) ?_
    intro moved found after moves reliable ⟨reads, same⟩
    rw [same]
    refine ⟨moves, fun differs lives => differs ?_⟩
    exact start_eq reads (reliable stored (moves.records recorded) lives rfl) lives.process
  · rename_i invalid
    exact ⟨.refl world, fun _ lives => invalid lives.validPid⟩

/-- Reading the start time of a thread. -/
theorem attempts_threadStartTime {use : ReadUse} (recorded : world.found.Records stored) :
    Attempts (lift (getThreadStartTime use stored.identity.pid stored.identity.tid))
      (fun found after => world.Moves after ∧ (found ≠ stored.identity.threadStartTime →
        ¬ after.Lives stored.identity)) world.Moves world := by
  unfold getThreadStartTime
  split
  · refine attempts_call (fun _ moves => moves) ?_
    intro moved found after moves reliable ⟨reads, same⟩
    rw [same]
    refine ⟨moves, fun differs lives => differs ?_⟩
    exact start_eq reads (reliable stored (moves.records recorded) lives rfl) lives.thread
  · rename_i invalid
    refine ⟨.refl world, fun _ lives => invalid ?_⟩
    rw [lives.validPid, lives.validTid]
    rfl

/-- Reading the membership of a thread. -/
theorem attempts_threadInProcess {use : ReadUse} (recorded : world.found.Records stored) :
    Attempts (lift (isThreadInProcess use stored.identity.pid stored.identity.tid))
      (fun member after => world.Moves after ∧ (member = false → ¬ after.Lives stored.identity))
      world.Moves world := by
  unfold isThreadInProcess
  split
  · refine attempts_call (fun _ moves => moves) ?_
    intro moved member after moves reliable ⟨_, same⟩
    rw [same]
    refine ⟨moves, fun fails lives => ?_⟩
    have holds : member = true := reliable stored (moves.records recorded) lives rfl
    rw [fails] at holds
    cases holds
  · rename_i invalid
    refine ⟨.refl world, fun _ lives => invalid ?_⟩
    rw [lives.validPid, lives.validTid]
    rfl

/-- A check of an identity fails only when the thread is gone. -/
theorem attempts_identityMatches {use : ReadUse} (recorded : world.found.Records stored) :
    Attempts (lift (identityMatches use stored.identity))
      (fun ok after => world.Moves after ∧ (ok = false → ¬ after.Lives stored.identity))
      world.Moves world := by
  rw [Environment.lift_identityMatches]
  refine attempts_bind (attempts_mono (attempts_processStartTime recorded) ?_ fun _ moves => moves)
  rintro found first ⟨moves, gone⟩
  split
  · refine attempts_bind (attempts_mono (attempts_threadStartTime (moves.records recorded)) ?_
      fun _ later => moves.trans later)
    rintro began second ⟨later, lost⟩
    have passed := moves.trans later
    split
    · refine attempts_mono (attempts_threadInProcess (passed.records recorded)) ?_
        fun _ last => passed.trans last
      rintro member third ⟨last, left⟩
      exact ⟨passed.trans last, left⟩
    · rename_i differs
      exact ⟨passed, fun _ => lost differs⟩
  · rename_i differs
    exact ⟨moves, fun _ => gone differs⟩

/-! ## One baseline -/

/-- A baseline is being restored: the cache is as before, and some calls have succeeded. -/
structure Under (base world : ReloadWorld) (calls : List SetterCall) (ok : Bool) : Prop where
  /-- The invariant. -/
  holds : world.Holds
  /-- The cache. -/
  cache : world.cache = base.cache
  /-- The cache found. -/
  found : world.found = base.found
  /-- The calls succeeded if all did. -/
  restored : ok = true → ∀ call ∈ calls, call ∈ world.restored

/-- What the restoration of one baseline leaves: the entries of others, and no baseline if it
succeeded. -/
structure Leaves (base world : ReloadWorld) (identity : Identity) (ok : Bool) : Prop where
  /-- The invariant. -/
  holds : world.Holds
  /-- The cache found. -/
  found : world.found = base.found
  /-- No baseline is new. -/
  shrinks : ∀ key entry, world.cache.lookup key = some entry → entry.baseline ≠ none →
    ∃ old, base.cache.lookup key = some old ∧ old.baseline = entry.baseline
  /-- The baseline is gone. -/
  cleared : ok = true → ∀ entry, world.cache.lookup identity.key = some entry →
    entry.baseline = none

variable {base : ReloadWorld} {calls : List SetterCall} {ok : Bool}

/-- Time passes. -/
theorem Under.moves (under : Under base world calls ok) (moves : world.Moves after) :
    Under base after calls ok where
  holds := under.holds.moves moves
  cache := by
    rw [moves.same]
    exact under.cache
  found := by
    rw [moves.same]
    exact under.found
  restored := by
    rw [moves.same]
    exact under.restored

/-- A call is made and may have restored its part. -/
theorem Under.push (under : Under base world calls ok) (call : SetterCall)
    (succeeded : Bool) : Under base
      { world with restored := world.restored ++ if succeeded then [call] else [] }
      (calls ++ [call]) (ok && succeeded) where
  holds := under.holds.restores _
  cache := under.cache
  found := under.found
  restored both other member := by
    obtain ⟨before, now⟩ := Bool.and_eq_true_iff.mp both
    rw [if_pos now]
    rcases List.mem_append.mp member with old | new
    · exact List.mem_append_left _ (under.restored before other old)
    · exact List.mem_append_right _ new

/-- While the cache is as before, a restoration that does not succeed leaves it so. -/
theorem Under.leaves (under : Under base world calls ok) :
    Leaves base world identity false where
  holds := under.holds
  found := under.found
  shrinks key entry stored recorded := by
    rw [under.cache] at stored
    exact ⟨entry, stored, rfl⟩
  cleared fails := by cases fails

/-- A setter call of the restoration. -/
theorem attempts_setterCall {call : SetterCall} {returned : call.Res → ReloadWorld → Prop}
    (under : Under base world calls ok)
    (throws : ∀ after, Under base after calls ok → thrown after)
    (returns : ∀ response after, Under base after (calls ++ [call])
      (ok && call.succeeded response) → returned response after) :
    Attempts (setterCall call) returned thrown world := by
  refine attempts_call (fun moved moves => throws moved (under.moves moves)) ?_
  intro moved response after moves _ same
  refine returns response after ?_
  rw [show after = _ from same]
  exact (under.moves moves).push call (call.succeeded response)

/-- The entry of a recorded baseline is of its identity. -/
theorem Holds.identity_eq (holds : world.Holds) (recorded : world.found.Records stored)
    {entry : ThreadCacheEntry} (looked : world.cache.lookup stored.identity.key = some entry) :
    entry.identity = stored.identity := by
  obtain ⟨first, found, own, -⟩ := recorded
  obtain ⟨old, before, same⟩ := holds.kept _ entry looked
  rw [found] at before
  rw [← same, ← Option.some.inj before, own]

/-- Less is in the cache. -/
theorem Holds.of_cache (holds : world.Holds) {cache : ThreadCache}
    (kept : ∀ key entry, cache.lookup key = some entry →
      ∃ before, world.cache.lookup key = some before ∧ before.identity = entry.identity)
    (remembers : ∀ other, world.found.Records other → world.Lives other.identity →
      world.cache.Records other → cache.Records other ∨
        ∀ call ∈ other.baseline.restoreCalls other.identity, call ∈ world.restored) :
    Holds { world with cache := cache } where
  keyed := holds.keyed
  begun key entry found :=
    ⟨(holds.begun key entry found).process, (holds.begun key entry found).thread⟩
  kept key entry looked := by
    obtain ⟨before, present, own⟩ := kept key entry looked
    rw [← own]
    exact holds.kept key before present
  remembers other recorded last := by
    have lives : world.Lives other.identity :=
      ⟨last.validPid, last.validTid, last.process, last.thread⟩
    rcases holds.remembers other recorded lives with still | done
    · exact remembers other recorded lives still
    · exact .inr done

/-- The entry of a thread that is gone is erased. -/
theorem Under.discard (under : Under base world calls ok) (recorded : world.found.Records stored)
    (gone : ¬ world.Lives stored.identity) :
    Leaves base { world with
      cache := world.cache.eraseThreadIfIdentity stored.identity } stored.identity true where
  found := under.found
  shrinks key entry looked _ := by
    have before := ThreadCache.lookup_of_eraseThreadIfIdentity looked
    rw [under.cache] at before
    exact ⟨entry, before, rfl⟩
  cleared _ entry looked := by
    have before := ThreadCache.lookup_of_eraseThreadIfIdentity looked
    have own := under.holds.identity_eq recorded before
    have erased : (world.cache.eraseThreadIfIdentity stored.identity).lookup stored.identity.key =
        none := by
      rw [ThreadCache.eraseThreadIfIdentity, before]
      dsimp only
      rw [if_pos own]
      exact AList.lookup_erase _ _
    rw [erased] at looked
    cases looked
  holds := by
    refine under.holds.of_cache ?_ ?_
    · exact fun key entry looked =>
        ⟨entry, ThreadCache.lookup_of_eraseThreadIfIdentity looked, rfl⟩
    · intro other _ lives ⟨entry, still, own, baselined⟩
      refine .inl ⟨entry, ThreadCache.lookup_eraseThreadIfIdentity still ?_, own, baselined⟩
      intro same
      have equal : other.identity = stored.identity := own.symm.trans same
      exact gone (equal ▸ lives)

/-- Forgetting part of what is recorded of a restored thread. -/
theorem Holds.adjust (holds : world.Holds) (recorded : world.found.Records stored)
    (done : ∀ call ∈ stored.baseline.restoreCalls stored.identity, call ∈ world.restored)
    {change : ThreadCacheEntry → ThreadCacheEntry}
    (same : ∀ entry, (change entry).identity = entry.identity) :
    Holds { world with cache := world.cache.adjust change stored.identity.key } := by
  refine holds.of_cache ?_ ?_
  · intro key entry looked
    by_cases here : key = stored.identity.key
    · subst here
      rw [Table.lookup_adjust] at looked
      obtain ⟨before, found, rfl⟩ := Option.map_eq_some_iff.mp looked
      exact ⟨before, found, (same before).symm⟩
    · rw [Table.lookup_adjust_ne here] at looked
      exact ⟨entry, looked, rfl⟩
  · intro other found _ ⟨entry, still, own, baselined⟩
    by_cases here : other.identity.key = stored.identity.key
    · rw [recorded.eq_of_key found here]
      exact .inr done
    · refine .inl ⟨entry, ?_, own, baselined⟩
      rw [Table.lookup_adjust_ne here]
      exact still

/-- What is recorded of a restored thread is being forgotten. -/
structure Finished (base world : ReloadWorld) (stored : StoredThreadBaseline) : Prop
    extends Leaves base world stored.identity true where
  /-- Every part was restored. -/
  done : ∀ call ∈ stored.baseline.restoreCalls stored.identity, call ∈ world.restored
  /-- The baseline was found. -/
  recorded : world.found.Records stored

/-- Time passes. -/
theorem Finished.moves (finished : Finished base world stored)
    (moves : world.Moves after) : Finished base after stored := by
  have same := moves.same
  have holds := finished.holds.moves moves
  rw [same] at holds ⊢
  exact ⟨⟨holds, finished.found, finished.shrinks, finished.cleared⟩, finished.done,
    finished.recorded⟩

/-- The baseline is forgotten. -/
theorem Under.finish (recorded : world.found.Records stored)
    (under : Under base world (stored.baseline.restoreCalls stored.identity) true) :
    Finished base { world with
      cache := world.cache.clearBaseline stored.identity.key } stored where
  holds := under.holds.adjust recorded (under.restored rfl) fun _ => rfl
  found := under.found
  shrinks key entry looked baselined := by
    by_cases here : key = stored.identity.key
    · subst here
      rw [ThreadCache.clearBaseline, Table.lookup_adjust] at looked
      obtain ⟨before, -, rfl⟩ := Option.map_eq_some_iff.mp looked
      exact absurd rfl baselined
    · rw [ThreadCache.clearBaseline, Table.lookup_adjust_ne here, under.cache] at looked
      exact ⟨entry, looked, rfl⟩
  cleared _ entry looked := by
    rw [ThreadCache.clearBaseline, Table.lookup_adjust] at looked
    obtain ⟨before, -, rfl⟩ := Option.map_eq_some_iff.mp looked
    rfl
  done := under.restored rfl
  recorded := recorded

/-- Something else is forgotten. -/
theorem Finished.adjust (finished : Finished base world stored)
    (change : ThreadCacheEntry → ThreadCacheEntry)
    (same : ∀ entry, (change entry).identity = entry.identity)
    (kept : ∀ entry, (change entry).baseline = entry.baseline) :
    Finished base { world with
      cache := world.cache.adjust change stored.identity.key } stored where
  holds := finished.holds.adjust finished.recorded finished.done same
  found := finished.found
  shrinks key entry looked baselined := by
    by_cases here : key = stored.identity.key
    · subst here
      rw [Table.lookup_adjust] at looked
      obtain ⟨before, found, rfl⟩ := Option.map_eq_some_iff.mp looked
      rw [kept] at baselined ⊢
      exact finished.shrinks _ before found baselined
    · rw [Table.lookup_adjust_ne here] at looked
      exact finished.shrinks key entry looked baselined
  cleared _ entry looked := by
    rw [Table.lookup_adjust] at looked
    obtain ⟨before, found, rfl⟩ := Option.map_eq_some_iff.mp looked
    rw [kept]
    exact finished.cleared rfl before found
  done := finished.done
  recorded := finished.recorded

/-- What a restored baseline leaves, or an interrupted restoration. -/
abbrev Restores (base : ReloadWorld) (identity : Identity) (program : CallProgram Bool)
    (world : ReloadWorld) : Prop :=
  Attempts program (fun ok after => Leaves base after identity ok) Holds world

/-- A call of the cache. -/
theorem attempts_cacheCall {call : CacheCall} {returned : call.Res → ReloadWorld → Prop}
    (throws : ∀ moved, world.Moves moved → thrown moved)
    (returns : ∀ moved response cache, world.Moves moved → call.Step moved.cache response cache →
      returned response { moved with cache := cache }) :
    Attempts (cacheCall call) returned thrown world := by
  refine attempts_call throws ?_
  rintro moved response after moves - ⟨cache, stepped, same⟩
  rw [same]
  exact returns moved response cache moves stepped

/-- The restoration ends. -/
theorem restores_finishStored (recorded : world.found.Records stored)
    (under : Under base world (stored.baseline.restoreCalls stored.identity) ok) :
    Restores base stored.identity (Main.finishStored stored ok) world := by
  unfold Main.finishStored
  cases ok with
  | false => exact under.leaves
  | true =>
    rw [if_pos rfl]
    refine attempts_bind (attempts_cacheCall (fun _ moves => (under.moves moves).holds) ?_)
    rintro moved response cache moves stepped
    cases stepped
    have still : moved.found.Records stored := by
      rw [moves.same]
      exact recorded
    have finished := (under.moves moves).finish still
    refine attempts_bind (attempts_cacheCall (fun _ moves => (finished.moves moves).holds) ?_)
    rintro next response cache moves stepped
    cases stepped
    have finished := (finished.moves moves).adjust
      (fun entry => { entry with appliedResult := none }) (fun _ => rfl) fun _ => rfl
    refine attempts_bind (attempts_cacheCall (fun _ moves => (finished.moves moves).holds) ?_)
    rintro last response cache moves stepped
    cases stepped
    have finished := (finished.moves moves).adjust
      (fun entry => { entry with managedComponents := {} }) (fun _ => rfl) fun _ => rfl
    exact finished.toLeaves

/-- A check of the identity before the rest of a restoration. -/
theorem restores_orDiscard {rest : CallProgram Bool} (recorded : world.found.Records stored)
    (under : Under base world calls ok)
    (continues : ∀ after, after.found.Records stored → Under base after calls ok →
      Restores base stored.identity rest after) :
    Restores base stored.identity (orDiscard stored.identity true rest) world := by
  rw [orDiscard]
  refine attempts_bind (attempts_mono (attempts_identityMatches recorded) ?_
    fun _ moves => (under.moves moves).holds)
  rintro found middle ⟨moves, gone⟩
  have passed := under.moves moves
  have still := moves.records recorded
  cases found with
  | true =>
    rw [if_pos rfl]
    exact continues middle still passed
  | false =>
    rw [if_neg Bool.false_ne_true]
    refine attempts_bind (attempts_cacheCall (fun _ later => (passed.moves later).holds) ?_)
    rintro moved response cache later stepped
    cases stepped
    refine (passed.moves later).discard (later.records still) fun lives => ?_
    exact gone rfl (lives.back (passed.holds.begun_of_records still) later)

/-- A program performs one restoring call and returns whether it succeeded. -/
def Performs (base : ReloadWorld) (stored : StoredThreadBaseline)
    (program : CallProgram Bool) (call : SetterCall) : Prop :=
  ∀ (world : ReloadWorld) (calls : List SetterCall) (ok : Bool)
    (returned : Bool → ReloadWorld → Prop), world.found.Records stored →
    Under base world calls ok →
    (∀ response after, after.found.Records stored → Under base after (calls ++ [call])
      (ok && response) → returned response after) →
    Attempts program returned Holds world

/-- A part is restored if it is recorded. -/
theorem attempts_restorePart {γ : Type} {part : Option γ} {restore : γ → CallProgram Bool}
    {call : γ → SetterCall} {rest : Bool → CallProgram Bool}
    (performs : ∀ value, Performs base stored (restore value) (call value))
    (recorded : world.found.Records stored) (under : Under base world calls ok)
    (continues : ∀ response after, after.found.Records stored →
      Under base after (calls ++ partCalls part call) (ok && response) →
        Restores base stored.identity (rest response) after) :
    Restores base stored.identity (Main.restorePart part restore >>= rest) world := by
  refine attempts_bind ?_
  cases part with
  | none =>
    have unchanged := continues true world recorded
    rw [Bool.and_true, partCalls_none, List.append_nil] at unchanged
    exact unchanged under
  | some value => exact performs value world calls ok _ recorded under continues

/-- A restoring call that answers whether it succeeded. -/
theorem restores_setterCall {call : SetterCall} {answer : call.Res → Bool}
    (tells : ∀ response, call.succeeded response = answer response)
    (recorded : world.found.Records stored) (under : Under base world calls ok)
    {returned : call.Res → ReloadWorld → Prop}
    (returns : ∀ response after, after.found.Records stored →
      Under base after (calls ++ [call]) (ok && answer response) →
        returned response after) :
    Attempts (setterCall call) returned Holds world := by
  refine attempts_setterCall under (fun after passed => passed.holds) ?_
  intro response after passed
  rw [tells] at passed
  have still : after.found.Records stored := by
    rw [passed.found.trans under.found.symm]
    exact recorded
  exact returns response after still passed

/-- Restoring the cpuctl group. -/
theorem performs_restoreCpuctl (path : Bytes) : Performs base stored
    (setterCall (.restoreCpuctlCgroup stored.identity path))
    (.restoreCpuctlCgroup stored.identity path) :=
  fun _ _ _ _ recorded under returns => restores_setterCall (fun _ => rfl) recorded under returns

/-- Restoring the scheduler state. -/
theorem performs_restoreScheduler (scheduler : SchedulerBaseline) : Performs base stored
    (setterCall (.restoreScheduler stored.identity scheduler))
    (.restoreScheduler stored.identity scheduler) :=
  fun _ _ _ _ recorded under returns => restores_setterCall (fun _ => rfl) recorded under returns

/-- Restoring the cpuset group. -/
theorem performs_restoreCpuset (path : Bytes) : Performs base stored
    (setterCall (.restoreCpusetCgroup stored.identity path))
    (.restoreCpusetCgroup stored.identity path) :=
  fun _ _ _ _ recorded under returns => restores_setterCall (fun _ => rfl) recorded under returns

/-- Restoring the CPUs. -/
theorem performs_restoreAffinity (cpus : List Int) : Performs base stored
    (setterCall (.restoreAffinity stored.identity cpus)) (.restoreAffinity stored.identity cpus) :=
  fun _ _ _ _ recorded under returns => restores_setterCall (fun _ => rfl) recorded under returns

/-- The cpuctl group is restored before the rest. -/
theorem restores_restoreStoredCpuctl {rest : Bool → CallProgram Bool}
    (recorded : world.found.Records stored) (under : Under base world [] true)
    (continues : ∀ response after, after.found.Records stored → Under base after
      (partCalls stored.baseline.cpuctlPath (.restoreCpuctlCgroup stored.identity)) response →
        Restores base stored.identity (rest response) after) :
    Restores base stored.identity (Main.restoreStoredCpuctl stored rest) world := by
  unfold Main.restoreStoredCpuctl
  cases part : stored.baseline.cpuctlPath with
  | none =>
    rw [part] at continues
    exact continues true world recorded under
  | some path =>
    rw [part] at continues
    refine restores_orDiscard recorded under fun middle recorded under => ?_
    refine attempts_bind (performs_restoreCpuctl path middle [] true _ recorded under ?_)
    exact fun response after recorded under => continues response after recorded under

/-- Restoring one baseline. -/
theorem restores_restoreStored (recorded : base.found.Records stored) (holds : base.Holds) :
    Restores base stored.identity (Main.restoreStored stored) base := by
  have under : Under base base [] true := ⟨holds, rfl, rfl, fun _ _ none => by cases none⟩
  unfold Main.restoreStored
  refine restores_orDiscard recorded under fun _ recorded under => ?_
  refine restores_restoreStoredCpuctl recorded under fun cpuctl _ recorded under => ?_
  refine restores_orDiscard recorded under fun _ recorded under => ?_
  refine attempts_restorePart performs_restoreScheduler recorded under
    fun scheduler _ recorded under => ?_
  refine restores_orDiscard recorded under fun _ recorded under => ?_
  refine attempts_restorePart performs_restoreCpuset recorded under
    fun cpuset _ recorded under => ?_
  refine restores_orDiscard recorded under fun _ recorded under => ?_
  refine attempts_restorePart performs_restoreAffinity recorded under
    fun affinity _ recorded under => ?_
  refine restores_orDiscard recorded under fun _ recorded under => ?_
  rw [List.append_assoc, List.append_assoc] at under
  exact restores_finishStored recorded under

/-! ## All baselines -/

/-- What the restoration of several baselines leaves. -/
structure LeavesAll (base world : ReloadWorld) (baselines : List StoredThreadBaseline)
    (ok : Bool) : Prop where
  /-- The invariant. -/
  holds : world.Holds
  /-- The cache found. -/
  found : world.found = base.found
  /-- No baseline is new. -/
  shrinks : ∀ key entry, world.cache.lookup key = some entry → entry.baseline ≠ none →
    ∃ old, base.cache.lookup key = some old ∧ old.baseline = entry.baseline
  /-- The baselines are gone. -/
  cleared : ok = true → ∀ stored ∈ baselines, ∀ entry,
    world.cache.lookup stored.identity.key = some entry → entry.baseline = none

/-- Restoring several baselines. -/
theorem attempts_restoreEach (baselines : List StoredThreadBaseline)
    (recorded : ∀ stored ∈ baselines, base.found.Records stored) (holds : base.Holds) :
    Attempts (Main.restoreEach baselines)
      (fun ok after => LeavesAll base after baselines ok) Holds base := by
  induction baselines generalizing base with
  | nil =>
    refine ⟨holds, rfl, fun key entry looked _ => ⟨entry, looked, rfl⟩, ?_⟩
    exact fun _ _ none => by cases none
  | cons stored rest ih =>
    have first := restores_restoreStored (recorded stored List.mem_cons_self) holds
    rw [Main.restoreEach]
    refine attempts_bind (attempts_mono first ?_ fun _ lost => lost)
    intro restored middle leaves
    have remaining : ∀ other ∈ rest, middle.found.Records other := by
      intro other member
      rw [leaves.found]
      exact recorded other (List.mem_cons_of_mem _ member)
    refine attempts_bind (attempts_mono (ih remaining leaves.holds) ?_ fun _ lost => lost)
    intro others after left
    refine ⟨left.holds, left.found.trans leaves.found, ?_, ?_⟩
    · intro key entry looked baselined
      obtain ⟨between, found, same⟩ := left.shrinks key entry looked baselined
      rw [← same] at baselined ⊢
      exact leaves.shrinks key between found baselined
    · intro both other member entry looked
      obtain ⟨restoredFirst, restoredRest⟩ := Bool.and_eq_true_iff.mp both
      rcases List.mem_cons.mp member with rfl | later
      · by_contra baselined
        obtain ⟨between, found, same⟩ := left.shrinks _ entry looked baselined
        rw [leaves.cleared restoredFirst between found] at same
        exact baselined same.symm
      · exact left.cleared restoredRest other later entry looked

/-- Restoring every baseline: when it succeeds, none is left. -/
theorem attempts_restoreAll (holds : world.Holds) (fresh : world.cache = world.found) :
    Attempts Main.restoreAllThreadBaselines
      (fun ok after => after.Holds ∧ (ok = true → ∀ key entry,
        after.cache.lookup key = some entry → entry.baseline = none)) Holds world := by
  unfold Main.restoreAllThreadBaselines
  refine attempts_bind (attempts_cacheCall (fun _ moves => holds.moves moves) ?_)
  rintro moved listed cache moves ⟨listed, rfl⟩
  have holds := holds.moves moves
  have fresh : moved.cache = moved.found := by
    rw [moves.same]
    exact fresh
  have keyed : moved.cache.Keyed := fresh ▸ holds.keyed
  rename_i baselines
  have recorded : ∀ stored ∈ baselines, moved.found.Records stored := by
    intro stored member
    have found := (ThreadCache.mem_getAllBaselines keyed).mp (listed.mem_iff.mp member)
    rw [fresh] at found
    exact found
  refine attempts_mono (attempts_restoreEach baselines recorded holds) ?_ fun _ lost => lost
  intro ok after left
  refine ⟨left.holds, fun all key entry looked => ?_⟩
  by_contra baselined
  obtain ⟨old, found, same⟩ := left.shrinks key entry looked baselined
  obtain ⟨baseline, present⟩ := Option.ne_none_iff_exists'.mp baselined
  rw [present] at same
  have own := keyed key old found
  have member : (⟨old.identity, baseline⟩ : StoredThreadBaseline) ∈ baselines := by
    refine listed.mem_iff.mpr ((ThreadCache.mem_getAllBaselines keyed).mpr ⟨old, ?_, rfl, same⟩)
    rw [own]
    exact found
  refine baselined (left.cleared all _ member entry ?_)
  rw [own]
  exact looked

/-! ## The exchange -/

/-- An operation of a reload. -/
theorem wp_reloadOp {operation : ReloadOp} {post : ReloadSig.Res operation → ReloadWorld → Prop}
    (steps : ∀ moved response after, world.Moves moved → moved.Op operation response after →
      post response after) : (reloadOp operation).wp (machine Reliable) post world := by
  rintro response after ⟨moved, moves, -, stepped⟩
  exact steps moved response after moves stepped

/-- An operation that leaves the cache alone. -/
theorem wp_reloadOp_still {operation : ReloadOp}
    (still : ∀ moved response after, Op moved operation response after → after = moved) :
    (reloadOp operation).wp (machine Reliable) (fun _ after => world.Moves after) world := by
  refine wp_reloadOp fun moved response after moves stepped => ?_
  rw [still moved response after stepped]
  exact moves

/-- Starting workers leaves the cache alone. -/
theorem wp_startEach (workers : List WorkerHandle) :
    (startEach workers).wp (machine Reliable) (fun _ after => world.Moves after) world := by
  induction workers generalizing world with
  | nil => exact .refl world
  | cons worker rest ih =>
    have first : (startWorker worker).wp (machine Reliable)
        (fun _ after => world.Moves after) world := by
      unfold startWorker
      split
      · exact .refl world
      · exact wp_reloadOp_still fun _ _ _ same => same
    rw [startEach, Program.wp_bind]
    refine Program.wp_mono first ?_
    intro answer middle moves
    split
    · exact Program.wp_mono ih fun _ _ later => moves.trans later
    · exact moves

/-- Either every worker runs or none is said to. -/
theorem wp_startAllWorkers {workers : List WorkerHandle} {generation : Generation}
    (own : ∀ worker ∈ workers, worker.generation = generation) :
    (startAllWorkers workers).wp (machine Reliable) (fun found after => world.Moves after ∧
      (found.1 = true → ∀ worker ∈ found.2, worker = ⟨generation, true⟩)) world := by
  rw [startAllWorkers, Program.wp_bind]
  refine Program.wp_mono (wp_startEach workers) ?_
  intro started after moves
  cases started with
  | false => exact ⟨moves, fun impossible => absurd impossible Bool.false_ne_true⟩
  | true =>
    refine ⟨moves, fun _ worker member => ?_⟩
    obtain ⟨before, listed, rfl⟩ := List.mem_map.mp member
    rw [own before listed]

/-- What the preparation of the new scheduler leaves. -/
structure Prepared (world : ReloadWorld) (prepared : Preparation) : Prop where
  /-- The invariant. -/
  holds : world.Holds
  /-- No baseline is left once all are restored. -/
  cleared : prepared.baselinesRestored = true → ∀ key entry,
    world.cache.lookup key = some entry → entry.baseline = none
  /-- The new workers run once all have started. -/
  started : prepared.newWorkersStarted = true →
    ∀ worker ∈ prepared.newWorkers, worker = ⟨.new, true⟩

/-- Time passes. -/
theorem Prepared.moves {prepared : Preparation} (done : Prepared world prepared)
    (moves : world.Moves after) : Prepared after prepared where
  holds := done.holds.moves moves
  cleared := by
    rw [moves.same]
    exact done.cleared
  started := done.started

/-- The preparation of the new scheduler. -/
theorem wp_prepareScheduler (holds : world.Holds) (fresh : world.cache = world.found) :
    prepareScheduler.wp (machine Reliable) (fun prepared after =>
      Prepared after prepared) world := by
  have restores := attempts_restoreAll holds fresh
  rw [prepareScheduler, Program.wp_bind]
  refine Program.wp_mono restores ?_
  intro outcome middle left
  match outcome, left with
  | none, holds =>
    exact ⟨holds, fun impossible => absurd impossible Bool.false_ne_true,
      fun impossible => absurd impossible Bool.false_ne_true⟩
  | some false, ⟨holds, _⟩ =>
    exact ⟨holds, fun impossible => absurd impossible Bool.false_ne_true,
      fun impossible => absurd impossible Bool.false_ne_true⟩
  | some true, ⟨holds, cleared⟩ =>
    have unready : Prepared middle ⟨true, false, false, newWorkers⟩ :=
      ⟨holds, fun _ => cleared rfl, fun impossible => absurd impossible Bool.false_ne_true⟩
    dsimp only
    rw [Program.wp_bind]
    refine Program.wp_mono (wp_reloadOp_still fun _ _ _ same => same) ?_
    intro ready initialised moves
    split
    · have own : ∀ worker ∈ newWorkers, worker.generation = Generation.new := by decide
      rw [Program.wp_bind]
      refine Program.wp_mono (wp_startAllWorkers own) ?_
      rintro ⟨started, workers⟩ after ⟨later, running⟩
      have passed := unready.moves (moves.trans later)
      exact ⟨passed.holds, passed.cleared, running⟩
    · exact unready.moves moves

/-- Initialising the groups of the old configuration leaves the cache alone. -/
theorem wp_oldCgroups (baselinesRestored : Bool) :
    (oldCgroups baselinesRestored).wp (machine Reliable)
      (fun _ after => world.Moves after) world := by
  unfold oldCgroups
  split
  · rw [Program.wp_bind]
    refine Program.wp_mono (wp_reloadOp_still fun _ _ _ same => same) ?_
    intro answer after moves
    split <;> exact moves
  · exact .refl world

/-- The old scheduler runs again or the main loop stops. -/
theorem wp_recoverScheduler {vars : MainVars} {baselinesRestored : Bool}
    (runs : vars.Runs .old) (holds : world.Holds) :
    (recoverScheduler { vars with workers := stopped vars.workers } baselinesRestored).wp
      (machine Reliable) AllOrNothing world := by
  have own : ∀ worker ∈ stopped vars.workers, worker.generation = Generation.old := by
    intro worker member
    obtain ⟨before, listed, rfl⟩ := List.mem_map.mp member
    rw [runs.workers before listed]
  rw [recoverScheduler, Program.wp_bind]
  refine Program.wp_mono (wp_oldCgroups baselinesRestored) ?_
  intro ready middle moves
  split
  · rw [Program.wp_bind]
    refine Program.wp_mono (wp_startAllWorkers own) ?_
    rintro ⟨started, workers⟩ after ⟨later, running⟩
    cases started with
    | false => exact .inl (Bool.and_false _)
    | true =>
      refine .inr (.inr ⟨⟨runs.config, runs.matcher, runs.cpuset, runs.prio, runs.cpuctl,
        running rfl⟩, ?_⟩)
      exact (holds.moves (moves.trans later)).remembers
  · exact .inl rfl

/-- Forgetting a scheduling state without baselines forgets everything. -/
theorem clearScheduling_eq_empty {cache : ThreadCache}
    (cleared : ∀ key entry, cache.lookup key = some entry → entry.baseline = none) :
    cache.clearSchedulingStatePreservingBaselines = ∅ := by
  refine Table.eq_empty fun key => ?_
  rw [ThreadCache.clearSchedulingStatePreservingBaselines, Table.lookup_mapValues,
    Table.lookup_retain]
  cases looked : cache.lookup key with
  | none => rfl
  | some entry =>
    have gone := cleared key entry looked
    simp [Option.filter, gone]

/-- The exchange of the scheduler. -/
theorem wp_exchangeScheduler {vars : MainVars} (runs : vars.Runs .old) :
    (exchangeScheduler vars).wp (machine Reliable) AllOrNothing world := by
  rw [exchangeScheduler, Program.wp_bind]
  refine wp_reloadOp fun moved _ stoppedWorld moves stepped => ?_
  obtain ⟨holds, fresh⟩ := Holds.of_works stepped
  rw [Program.wp_bind]
  refine Program.wp_mono (wp_prepareScheduler holds fresh) ?_
  intro prepared middle done
  split
  · rename_i succeeded
    obtain ⟨both, started⟩ := Bool.and_eq_true_iff.mp succeeded
    obtain ⟨restored, -⟩ := Bool.and_eq_true_iff.mp both
    rw [Program.wp_bind]
    refine wp_reloadOp fun later _ clearedWorld moves stepped => ?_
    have passed := done.moves moves
    have empty : clearedWorld.cache = ∅ := by
      rw [show clearedWorld = _ from stepped]
      exact clearScheduling_eq_empty (passed.cleared restored)
    rw [Program.wp_bind]
    refine Program.wp_mono (wp_reloadOp_still fun _ _ _ same => same) ?_
    intro _ after last
    refine .inr (.inl ⟨⟨rfl, rfl, rfl, rfl, rfl, passed.started started⟩, ?_, rfl, rfl, rfl⟩)
    rw [last.same]
    exact empty
  · exact wp_recoverScheduler runs done.holds

/-- A reload of a configuration. -/
theorem wp_reloadConfig {vars : MainVars} (runs : vars.Runs .old) (world : ReloadWorld) :
    (reloadConfig vars).wp (machine Reliable) AllOrNothing world := by
  rw [reloadConfig, Program.wp_bind]
  refine wp_reloadOp fun moved outcome parsed moves stepped => ?_
  have kept := (Holds.of_works stepped).1
  cases outcome with
  | none => exact .inr (.inr ⟨runs, kept.remembers⟩)
  | some outcome =>
    cases outcome with
    | failed => exact .inr (.inr ⟨runs, kept.remembers⟩)
    | disabled => exact .inl rfl
    | enabled =>
      dsimp only
      rw [Program.wp_bind]
      refine wp_reloadOp fun later answer prepared moves stepped => ?_
      have held := (Holds.of_works stepped).1
      cases answer with
      | none => exact .inr (.inr ⟨runs, held.remembers⟩)
      | some _ => exact wp_exchangeScheduler runs

/-- Whatever fails or throws, a reload in which no read of a living thread's identity fails leaves
the new scheduler with an empty cache, or the old one with every baseline that was not restored, or
it tells the main loop to stop. -/
theorem allOrNothing_of_run {vars result : MainVars} {world after : ReloadWorld}
    (runs : vars.Runs .old)
    (run : Program.Run (machine Reliable) (reloadConfig vars) world result after) :
    AllOrNothing result after :=
  run.post (wp_reloadConfig runs world)

/-- A thread with a baseline. -/
def recordedThread : Identity := ⟨10, 11, 5, 6⟩

/-- A cache with its entry. -/
def recordedCache : ThreadCache := (∅ : ThreadCache).insert recordedThread.key
  { identity := recordedThread
    threadName := []
    cmdline := []
    actualState := .bg
    result := { effectiveState := .bg }
    cpusetBase := []
    cpuctlBase := []
    baseline := some { cpusetPath := some (Bytes.ascii "/") } }

/-- The thread lives and is cached. -/
def recordedWorld : ReloadWorld where
  process _ := ⟨recordedThread.processStartTime, true⟩
  thread _ := ⟨recordedThread.threadStartTime, true⟩
  cache := recordedCache
  found := recordedCache

/-- The old scheduler runs. -/
def runningVars : MainVars where
  running := true
  config := .old
  matcher := .old
  cpuset := .old
  prio := .old
  cpuctl := .old
  workers := List.replicate 4 ⟨.old, true⟩
  cycle := {}
  fullScan := {}
  processStates := ∅

/-- The effect of one operation. Either everything works, or reads of the start time of a process
and the initialisation of the new groups fail. -/
def respond (works : Bool) (world : ReloadWorld) :
    (operation : ReloadOp) → Option (ReloadSig.Res operation × ReloadWorld)
  | .parse => some (some .enabled, { world with cache := recordedCache, found := recordedCache })
  | .prepare => some (some (), { world with cache := recordedCache, found := recordedCache })
  | .stopWorkers => some ((), { world with cache := recordedCache, found := recordedCache })
  | .call (.sys (.cache call)) => some (some (call.run world.cache).1,
      { world with cache := (call.run world.cache).2 })
  | .call (.sys (.processStartTime _ _)) =>
    some (some (if works then recordedThread.processStartTime else 0), world)
  | .call (.sys (.threadStartTime _ _ _)) => some (some recordedThread.threadStartTime, world)
  | .call (.sys (.threadInProcess _ _ _)) => some (some true, world)
  | .call (.setter (.restoreCpusetCgroup thread path)) => some (some true, { world with
      restored := world.restored ++ [.restoreCpusetCgroup thread path] })
  | .initCgroups generation => some (some (works || generation == .old), world)
  | .startThread _ => some (some true, world)
  | .clearScheduling => some ((), { world with
      cache := world.cache.clearSchedulingStatePreservingBaselines })
  | .configure => some (some (), world)
  | _ => none

/-- What stays the same meanwhile. -/
structure Alike (world : ReloadWorld) : Prop where
  /-- The processes. -/
  process : world.process = recordedWorld.process
  /-- The threads. -/
  thread : world.thread = recordedWorld.thread
  /-- The cache found. -/
  found : world.found = recordedCache

/-- Reads are reliable where everything works. -/
def reliably (works : Bool) (world : ReloadWorld) (operation : ReloadOp)
    (response : ReloadSig.Res operation) : Prop := works = true → Reliable world operation response

/-- The cache may be what the workers left. -/
theorem works_recordedCache (alike : world.Alike) :
    world.Works { world with cache := recordedCache, found := recordedCache } := by
  have stored : ∀ key entry, recordedCache.lookup key = some entry →
      key = recordedThread.key ∧ entry.identity = recordedThread := by
    intro key entry looked
    by_cases here : key = recordedThread.key
    · subst here
      rw [recordedCache, AList.lookup_insert] at looked
      cases looked
      exact ⟨rfl, rfl⟩
    · rw [recordedCache, AList.lookup_insert_ne here] at looked
      cases looked
  refine ⟨recordedCache, ?_, ?_, rfl⟩
  · intro key entry looked
    obtain ⟨same, own⟩ := stored key entry looked
    rw [same, own]
  · intro key entry looked
    obtain ⟨-, own⟩ := stored key entry looked
    rw [own]
    constructor
    · rw [alike.process]
      exact Nat.le_refl _
    · rw [alike.thread]
      exact Nat.le_refl _

/-- Every such effect is possible. -/
theorem step_of_respond {works : Bool} {operation : ReloadOp}
    {response : ReloadSig.Res operation} (alike : world.Alike)
    (responded : respond works world operation = some (response, after)) :
    (machine (reliably works)).step world operation response after ∧ after.Alike := by
  have process : ∀ pid, world.process pid = ⟨recordedThread.processStartTime, true⟩ :=
    congrFun alike.process
  have thread : ∀ key, world.thread key = ⟨recordedThread.threadStartTime, true⟩ :=
    congrFun alike.thread
  have plain : ∀ {response after}, (∀ world, Reliable world operation response) →
      world.Op operation response after →
        (machine (reliably works)).step world operation response after :=
    fun reliable performed => ⟨world, .refl world, fun _ => reliable world, performed⟩
  have left : Alike { world with cache := recordedCache, found := recordedCache } :=
    ⟨alike.process, alike.thread, rfl⟩
  cases operation with
  | parse | prepare | stopWorkers =>
    cases responded
    exact ⟨plain (fun _ => trivial) (works_recordedCache alike), left⟩
  | initCgroups | startThread | configure =>
    cases responded
    exact ⟨plain (fun _ => trivial) rfl, alike⟩
  | clearScheduling =>
    cases responded
    exact ⟨plain (fun _ => trivial) rfl, ⟨alike.process, alike.thread, alike.found⟩⟩
  | call operation =>
    cases operation with
    | setter call =>
      cases call with
      | restoreCpusetCgroup =>
        cases responded
        exact ⟨plain (fun _ => trivial) rfl, ⟨alike.process, alike.thread, alike.found⟩⟩
      | _ => cases responded
    | sys operation =>
      cases operation with
      | cache call =>
        cases responded
        exact ⟨plain (fun _ => trivial) ⟨_, call.step_run world.cache, rfl⟩,
          ⟨alike.process, alike.thread, alike.found⟩⟩
      | processStartTime use pid =>
        cases responded
        refine ⟨⟨world, .refl world, ?_, ?_, rfl⟩, alike⟩
        · rintro rfl
          exact fun _ _ _ _ => Nat.succ_ne_zero 4
        · rw [process]
          cases works
          · exact .inl rfl
          · exact .inr ⟨rfl, rfl⟩
      | threadStartTime use pid tid =>
        cases responded
        refine ⟨⟨world, .refl world, fun _ _ _ _ _ => Nat.succ_ne_zero 5, ?_, rfl⟩, alike⟩
        rw [thread]
        exact .inr ⟨rfl, rfl⟩
      | threadInProcess use pid tid =>
        cases responded
        refine ⟨⟨world, .refl world, fun _ _ _ _ _ => rfl, fun _ => ?_, rfl⟩, alike⟩
        rw [thread]
      | _ => cases responded

/-- The old scheduler runs. -/
theorem runningVars_runs : runningVars.Runs .old :=
  ⟨rfl, rfl, rfl, rfl, rfl, by decide⟩

/-- When everything works, the new scheduler runs and the baseline is restored. -/
theorem allOrNothing_of_run_working : ∃ result after,
    AllOrNothing result after ∧ result.config = .new ∧ after.restored.length = 1 := by
  have ends : ((reloadConfig runningVars).exec (respond true) recordedWorld).map (fun found =>
      (found.1.config, found.2.restored.length)) = some (.new, 1) := by decide +kernel
  obtain ⟨⟨result, after⟩, executed, ends⟩ := Option.map_eq_some_iff.mp ends
  obtain ⟨renewed, restored⟩ := Prod.mk.inj ends
  have allowed : reliably true = Reliable := by
    funext world operation response
    exact propext ⟨fun holds => holds rfl, fun holds _ => holds⟩
  have run := (Program.run_of_exec_inv step_of_respond ⟨rfl, rfl, rfl⟩ executed).1
  rw [allowed] at run
  exact ⟨result, after, allOrNothing_of_run runningVars_runs run, renewed, restored⟩

/-- When a read of the start time of a living process and the initialisation of the new groups
fail, the old scheduler runs on without the baseline. -/
theorem not_allOrNothing_misread : ∃ result after, runningVars.Runs .old ∧
    Program.Run (machine fun _ _ _ => True) (reloadConfig runningVars) recordedWorld result after ∧
      ¬ AllOrNothing result after := by
  have ends : ((reloadConfig runningVars).exec (respond false) recordedWorld).map (fun found =>
      (found.1.running, found.1.config, found.2.cache.lookup recordedThread.key,
        found.2.restored)) = some (true, .old, none, []) := by decide +kernel
  obtain ⟨⟨result, after⟩, executed, ends⟩ := Option.map_eq_some_iff.mp ends
  obtain ⟨running, ends⟩ := Prod.mk.inj ends
  obtain ⟨kept, ends⟩ := Prod.mk.inj ends
  obtain ⟨gone, restored⟩ := Prod.mk.inj ends
  have allowed : reliably false = fun _ _ _ => True := by
    funext world operation response
    exact propext ⟨fun _ => trivial, fun _ other => Bool.noConfusion other⟩
  obtain ⟨run, alike⟩ := Program.run_of_exec_inv step_of_respond ⟨rfl, rfl, rfl⟩ executed
  rw [allowed] at run
  refine ⟨result, after, runningVars_runs, run, ?_⟩
  rintro (stopped | ⟨renewed, -⟩ | ⟨-, remembers⟩)
  · exact Bool.noConfusion (running.symm.trans stopped)
  · exact Generation.noConfusion (kept.symm.trans renewed.config)
  · have recorded : after.found.Records
        ⟨recordedThread, { cpusetPath := some (Bytes.ascii "/") }⟩ := by
      rw [alike.found]
      exact ⟨_, rfl, rfl, rfl⟩
    have lives : after.Lives recordedThread :=
      ⟨by decide, by decide, congrFun alike.process _, congrFun alike.thread _⟩
    rcases remembers _ recorded lives with ⟨entry, still, -⟩ | done
    · rw [gone] at still
      cases still
    · have called := done (.restoreCpusetCgroup recordedThread (Bytes.ascii "/")) (by decide)
      rw [restored] at called
      cases called

end ReloadWorld

end Main

end ReUperf
