import ReUperf.Lib.Freshness
import ReUperf.System.ProcessCaches

/-!
# How old a process state can be

The state of a process is told by two paths, and a path may come from a cache. The main loop and the
handler of events look states up, drop the paths of a process and set the time paths are cached for,
all under one mutex, while the groups of processes change at any time. The module shows how old the
paths are that a state is told by, and that after the paths of a process were dropped its state is
never told by what was read before.
-/

namespace ReUperf

open Effect FileUtils

/-- The cache and what it was filled from. -/
structure LookupWorld where
  /-- The steady clock. -/
  clock : Int := 0
  /-- The time a path is cached for. -/
  ttlMs : Int
  /-- The cache of cgroup paths. -/
  cache : CgroupCache := ∅
  /-- What the `cgroup` files of processes had when they were read. -/
  log : List (Reading Int Bytes) := []
  /-- When the paths of a process were dropped last. -/
  dropped : Int → Option Int := fun _ => none

namespace LookupWorld

/-- What the operations of a lookup do. -/
def answers : LookupWorld → (operation : CgroupOp) → CgroupSig.Res operation → LookupWorld → Prop
  | world, .now, response, after => response = world.clock ∧ after = world
  | world, .find key now, response, after =>
    response = world.cache.find world.ttlMs now key ∧ after = world
  | world, .readFile pid, response, after =>
    after = { world with log := world.log ++ [⟨world.clock, pid, response⟩] }
  | world, .store key path now, _, after =>
    ∃ first,
      (kMaxCgroupCacheSize ≤
          (world.cache.retain fun _ entry =>
            CgroupCache.isFresh world.ttlMs now entry).entries.length →
        first ∈ world.cache.retain fun _ entry => CgroupCache.isFresh world.ttlMs now entry) ∧
      after = { world with cache := world.cache.store world.ttlMs now first key path }

/-- The machine of lookups. Time passes before each operation. -/
def machine : Machine CgroupSig LookupWorld where
  step world operation response after :=
    ∃ clock, world.clock ≤ clock ∧ answers { world with clock := clock } operation response after

/-- What happens under the mutex. -/
inductive Step : LookupWorld → LookupWorld → Prop where
  /-- Time passes. -/
  | wait {world : LookupWorld} {clock : Int} (later : world.clock ≤ clock) :
    Step world { world with clock := clock }
  /-- The state of a process is looked up. -/
  | lookup {world after : LookupWorld} {pid : Int} {info : CgroupStateInfo}
      (run : Program.Run machine (getCgroupStateInfo pid) world info after) : Step world after
  /-- The paths of a process are dropped. -/
  | invalidate {world : LookupWorld} {pid : Int} (valid : isValidId pid = true) :
    Step world { world with
      cache := invalidateProcessCaches pid world.cache
      dropped := Function.update world.dropped pid (some world.clock) }
  /-- The time paths are cached for is set. -/
  | setCacheTtls {world : LookupWorld} {ttlMs : Int} (nonnegative : 0 ≤ ttlMs) :
    Step world { world with ttlMs := ttlMs }

/-- A path was read since a time. -/
def PathSince (world : LookupWorld) (since : Int) (key : CgroupCacheKey) (path : Bytes) : Prop :=
  ∃ answer, path = cgroupPathOf answer key.controller ∧
    Reading.Since world.log since key.pid answer

/-- The paths of a process were dropped at some time or earlier, if ever. -/
def DroppedBy (world : LookupWorld) (pid since : Int) : Prop :=
  isValidId pid = true → ∀ time ∈ world.dropped pid, time ≤ since

/-- What holds between two steps. -/
structure Sound (world : LookupWorld) : Prop where
  /-- Each path was read since its time. -/
  entries : ∀ key entry, world.cache.lookup key = some entry →
    world.PathSince entry.timestamp key entry.path ∧ world.DroppedBy key.pid entry.timestamp
  /-- No path is dropped in the future. -/
  dropped : ∀ pid, world.DroppedBy pid world.clock
  /-- The time a path is cached for. -/
  nonnegative : 0 ≤ world.ttlMs
  /-- The cache is small. -/
  bounded : world.cache.entries.length ≤ kMaxCgroupCacheSize

variable {world after : LookupWorld} {pid since : Int} {key : CgroupCacheKey} {path : Bytes}

/-- More reads change nothing. -/
theorem PathSince.grow (read : world.PathSince since key path) (grown : world.log <+: after.log) :
    after.PathSince since key path := by
  obtain ⟨answer, same, listed⟩ := read
  exact ⟨answer, same, listed.longer grown⟩

/-- Time passes. -/
theorem Sound.wait (sound : world.Sound) {clock : Int} (later : world.clock ≤ clock) :
    Sound { world with clock := clock } where
  entries := sound.entries
  dropped pid valid time listed := (sound.dropped pid valid time listed).trans later
  nonnegative := sound.nonnegative
  bounded := sound.bounded

/-- More is read. -/
theorem Sound.read (sound : world.Sound) {answer : Bytes} :
    Sound { world with log := world.log ++ [⟨world.clock, pid, answer⟩] } where
  entries key entry found :=
    ⟨(sound.entries key entry found).1.grow (List.prefix_append _ _),
      (sound.entries key entry found).2⟩
  dropped := sound.dropped
  nonnegative := sound.nonnegative
  bounded := sound.bounded

/-! ## Storing -/

namespace Cache

variable {cache : CgroupCache} {ttlMs now : Int} {first : CgroupCacheKey}

/-- What a full cache keeps. -/
theorem lookup_of_store {entry : CgroupCacheEntry} {other : CgroupCacheKey}
    (found : (cache.store ttlMs now first key path).lookup other = some entry) :
    (other = key ∧ entry = ⟨path, now⟩) ∨ cache.lookup other = some entry := by
  rw [CgroupCache.store] at found
  by_cases same : other = key
  · rw [same, AList.lookup_insert, Option.some.injEq] at found
    exact .inl ⟨same, found.symm⟩
  · rw [AList.lookup_insert_ne same] at found
    refine .inr ?_
    have kept : ∀ {table : CgroupCache}, (table.erase first).lookup other = some entry →
        table.lookup other = some entry := by
      intro table stored
      by_cases gone : other = first
      · rw [gone, AList.lookup_erase] at stored
        cases stored
      · rwa [AList.lookup_erase_ne gone] at stored
    split at found
    · dsimp only at found
      split at found
      · exact (Table.lookup_retain_eq_some.mp (kept found)).1
      · exact (Table.lookup_retain_eq_some.mp found).1
    · exact found

/-- A new entry takes the place of the old one. -/
theorem length_insert_le (entry : CgroupCacheEntry) :
    (cache.insert key entry).entries.length ≤ cache.entries.length + 1 := by
  rw [AList.entries_insert, List.length_cons]
  exact Nat.succ_le_succ (List.kerase_sublist key cache.entries).length_le

/-- A key that is there takes one entry away. -/
theorem length_erase (listed : key ∈ cache) :
    (cache.erase key).entries.length = cache.entries.length - 1 := by
  have keys : (cache.erase key).keys = cache.keys.erase key := AList.keys_erase key cache
  have lengths := congrArg List.length keys
  rw [List.length_erase_of_mem (AList.mem_keys.mp listed)] at lengths
  simpa [AList.keys, List.keys] using lengths

/-- The cache stays small. -/
theorem length_store (bounded : cache.entries.length ≤ kMaxCgroupCacheSize)
    (listed : kMaxCgroupCacheSize ≤
        (cache.retain fun _ entry => CgroupCache.isFresh ttlMs now entry).entries.length →
      first ∈ cache.retain fun _ entry => CgroupCache.isFresh ttlMs now entry) :
    (cache.store ttlMs now first key path).entries.length ≤ kMaxCgroupCacheSize := by
  have fewer : (cache.retain fun _ entry => CgroupCache.isFresh ttlMs now entry).entries.length ≤
      cache.entries.length := List.length_filter_le _ _
  have limit : kMaxCgroupCacheSize = 1000 := rfl
  rw [CgroupCache.store]
  refine (length_insert_le _).trans ?_
  split
  · dsimp only
    split
    · next full =>
      rw [length_erase (listed full)]
      omega
    · omega
  · omega

end Cache

/-! ## Lookups -/

/-- What a lookup that began in a world leaves. -/
structure Looked (start world : LookupWorld) : Prop where
  /-- What holds between two steps. -/
  sound : world.Sound
  /-- Time passes. -/
  clock : start.clock ≤ world.clock
  /-- Nothing is dropped meanwhile. -/
  dropped : world.dropped = start.dropped
  /-- The time paths are cached for stays. -/
  ttlMs : world.ttlMs = start.ttlMs

variable {start : LookupWorld}

/-- A path is young: it was read not longer before the lookup than it is cached for, and not before
the paths of the process were dropped. -/
def Young (start world : LookupWorld) (key : CgroupCacheKey) (path : Bytes) : Prop :=
  ∃ since, start.clock - start.ttlMs * 1000000 ≤ since ∧ start.DroppedBy key.pid since ∧
    world.PathSince since key path

/-- More reads change nothing. -/
theorem Young.grow (young : Young start world key path) (grown : world.log <+: after.log) :
    Young start after key path := by
  obtain ⟨since, age, dropped, read⟩ := young
  exact ⟨since, age, dropped, read.grow grown⟩

/-- A time since the lookup began is later than any drop. -/
theorem Sound.droppedBy (started : start.Sound) {pid now : Int} (began : start.clock ≤ now) :
    start.DroppedBy pid now :=
  fun valid time listed => (started.dropped pid valid time listed).trans began

/-- Reading the clock. -/
theorem now_looked (looked : Looked start world) :
    (cgroupOp .now).wp machine (fun now after => Looked start after ∧ world.log <+: after.log ∧
      start.clock ≤ now ∧ now ≤ after.clock) world := by
  intro now after stepped
  obtain ⟨clock, later, rfl, rfl⟩ := stepped
  have begun := looked.clock.trans later
  exact ⟨⟨looked.sound.wait later, begun, looked.dropped, looked.ttlMs⟩, List.prefix_refl _, begun,
    le_refl _⟩

/-- Looking a path up in the cache. -/
theorem find_looked (looked : Looked start world) {now : Int} (began : start.clock ≤ now) :
    (cgroupOp (.find key now)).wp machine (fun found after => Looked start after ∧
      world.log <+: after.log ∧ world.clock ≤ after.clock ∧
      ∀ path, found = some path → Young start after key path) world := by
  intro found after stepped
  obtain ⟨clock, later, rfl, rfl⟩ := stepped
  refine ⟨⟨looked.sound.wait later, looked.clock.trans later, looked.dropped, looked.ttlMs⟩,
    List.prefix_refl _, later, fun path hit => ?_⟩
  obtain ⟨entry, stored, young⟩ := Option.bind_eq_some_iff.mp hit
  split at young
  · next fresh =>
    cases young
    obtain ⟨read, since⟩ := looked.sound.entries key entry stored
    have age := lt_timestamp_of_ageMs_lt (of_decide_eq_true fresh)
    refine ⟨entry.timestamp, ?_, fun valid time listed => ?_, read⟩
    · rw [← looked.ttlMs]
      dsimp only at age
      omega
    · rw [← looked.dropped] at listed
      exact since valid time listed
  · cases young

/-- Reading the file of a process. -/
theorem readFile_looked (looked : Looked start world) {now : Int} (sampled : now ≤ world.clock) :
    (cgroupOp (.readFile pid)).wp machine (fun content after => Looked start after ∧
      world.log <+: after.log ∧ Reading.Since after.log now pid content) world := by
  intro content after stepped
  obtain ⟨clock, later, stored⟩ := stepped
  obtain rfl : after = _ := stored
  exact ⟨⟨(looked.sound.wait later).read, looked.clock.trans later, looked.dropped, looked.ttlMs⟩,
    List.prefix_append _ _, Reading.Since.last (sampled.trans later)⟩

/-- Storing a path that was read since the lookup began. -/
theorem store_looked (started : start.Sound) (looked : Looked start world) {now : Int}
    (began : start.clock ≤ now) (read : world.PathSince now key path) :
    (cgroupOp (.store key path now)).wp machine (fun _ after => Looked start after ∧
      world.log <+: after.log) world := by
  intro _ after stepped
  obtain ⟨clock, later, first, listed, rfl⟩ := stepped
  have waited := looked.sound.wait later
  refine ⟨⟨⟨?_, waited.dropped, waited.nonnegative, ?_⟩, looked.clock.trans later, looked.dropped,
    looked.ttlMs⟩, List.prefix_refl _⟩
  · intro other entry found
    rcases Cache.lookup_of_store found with ⟨rfl, rfl⟩ | kept
    · refine ⟨read, fun valid time past => ?_⟩
      have dropped : time ∈ start.dropped other.pid := by
        rw [← looked.dropped]
        exact past
      exact started.droppedBy began valid time dropped
    · exact waited.entries other entry kept
  · exact Cache.length_store waited.bounded listed

/-- A path is looked up in the cache or read. -/
theorem getCgroupPath_young (started : start.Sound) (looked : Looked start world)
    (controller : Bytes) :
    (getCgroupPath pid controller).wp machine (fun path after => Looked start after ∧
      world.log <+: after.log ∧ Young start after ⟨pid, controller⟩ path) world := by
  rw [getCgroupPath, Program.wp_bind]
  refine Program.wp_mono (now_looked looked) fun now first sampled => ?_
  obtain ⟨looked, grown, began, sampled⟩ := sampled
  rw [Program.wp_bind]
  refine Program.wp_mono (find_looked looked began) fun found second searched => ?_
  obtain ⟨looked, more, later, young⟩ := searched
  cases found with
  | some path => exact ⟨looked, grown.trans more, young path rfl⟩
  | none =>
    dsimp only
    rw [Program.wp_bind]
    refine Program.wp_mono (readFile_looked looked (sampled.trans later)) ?_
    intro content third read
    obtain ⟨looked, again, since⟩ := read
    have path : third.PathSince now ⟨pid, controller⟩ (cgroupPathOf content controller) :=
      ⟨content, rfl, since⟩
    rw [Program.wp_bind]
    refine Program.wp_mono (store_looked started looked began path) fun _ last stored => ?_
    obtain ⟨done, still⟩ := stored
    have nonnegative := started.nonnegative
    refine ⟨done, grown.trans (more.trans (again.trans still)), now, by omega, ?_, path.grow still⟩
    exact started.droppedBy began

/-- The state of a process is told by two young paths. -/
theorem getCgroupStateInfo_young (started : start.Sound) :
    (getCgroupStateInfo pid).wp machine (fun info after => Looked start after ∧
      ∃ cpuPath cpusetPath, info = cgroupPathsToStateInfo cpuPath cpusetPath ∧
        Young start after ⟨pid, cpuController⟩ cpuPath ∧
        Young start after ⟨pid, cpusetController⟩ cpusetPath) start := by
  have looked : Looked start start := ⟨started, le_refl _, rfl, rfl⟩
  rw [getCgroupStateInfo, Program.wp_bind]
  refine Program.wp_mono (getCgroupPath_young started looked cpuController) ?_
  intro cpuPath middle first
  obtain ⟨looked, -, cpu⟩ := first
  rw [Program.wp_bind]
  refine Program.wp_mono (getCgroupPath_young started looked cpusetController) ?_
  intro cpusetPath after second
  obtain ⟨looked, grown, cpuset⟩ := second
  exact ⟨looked, cpuPath, cpusetPath, rfl, cpu.grow grown, cpuset⟩

/-! ## Runs -/

/-- Every step keeps what holds between two steps. -/
theorem Sound.step (sound : world.Sound) (step : Step world after) : after.Sound := by
  cases step with
  | wait later => exact sound.wait later
  | lookup run => exact (run.post (getCgroupStateInfo_young sound)).1.sound
  | setCacheTtls nonnegative => exact ⟨sound.entries, sound.dropped, nonnegative, sound.bounded⟩
  | @invalidate pid valid =>
    have kept : invalidateProcessCaches pid world.cache =
        world.cache.retain fun key _ => decide (cachedPid (processCacheKey key.pid) ≠ pid) :=
      if_pos valid
    refine ⟨fun key entry found => ?_, fun other own time listed => ?_, sound.nonnegative, ?_⟩
    · rw [kept] at found
      obtain ⟨stored, differs⟩ := Table.lookup_retain_eq_some.mp found
      obtain ⟨read, since⟩ := sound.entries key entry stored
      refine ⟨read, fun own time listed => since own time ?_⟩
      rw [decide_eq_true_eq, cachedPid_processCacheKey own] at differs
      dsimp only at listed
      rwa [Function.update_of_ne differs] at listed
    · dsimp only at listed
      by_cases same : other = pid
      · rw [same, Function.update_self, Option.mem_some_iff] at listed
        exact listed.ge
      · rw [Function.update_of_ne same] at listed
        exact sound.dropped other own time listed
    · rw [kept]
      exact (List.length_filter_le _ _).trans sound.bounded

/-- The worlds that some steps reach. -/
abbrev Reaches (world after : LookupWorld) : Prop := Relation.ReflTransGen Step world after

/-- So do several. -/
theorem Sound.reaches (sound : world.Sound) (reached : Reaches world after) : after.Sound := by
  induction reached with
  | refl => exact sound
  | tail _ step ih => exact ih.step step

/-- An empty cache. -/
theorem sound_empty {ttlMs : Int} (nonnegative : 0 ≤ ttlMs) : Sound { ttlMs := ttlMs } where
  entries key entry found := by simp at found
  dropped pid valid time listed := by simp at listed
  nonnegative := nonnegative
  bounded := Nat.zero_le _

/-- Whatever states were looked up before, whichever processes were forgotten, and however the time
paths are cached for was set: a state is told by two paths, each of which the `cgroup` file of the
process had when it was read, not longer before the lookup began than paths are now cached for, and not
before the paths of the process were dropped last. The cache never has more than a thousand paths. -/
theorem lookup_young {ttlMs : Int} (nonnegative : 0 ≤ ttlMs)
    (reached : Reaches { ttlMs := ttlMs } world) {info : CgroupStateInfo}
    (run : Program.Run machine (getCgroupStateInfo pid) world info after) :
    after.cache.entries.length ≤ 1000 ∧ ∃ cpuFile cpusetFile cpuTime cpusetTime,
      info = cgroupPathsToStateInfo (cgroupPathOf cpuFile cpuController)
        (cgroupPathOf cpusetFile cpusetController) ∧
      ⟨cpuTime, pid, cpuFile⟩ ∈ after.log ∧ ⟨cpusetTime, pid, cpusetFile⟩ ∈ after.log ∧
      world.clock - world.ttlMs * 1000000 ≤ cpuTime ∧
      world.clock - world.ttlMs * 1000000 ≤ cpusetTime ∧
      (isValidId pid = true →
        ∀ time ∈ world.dropped pid, time ≤ cpuTime ∧ time ≤ cpusetTime) := by
  have sound := (sound_empty nonnegative).reaches reached
  obtain ⟨looked, cpuPath, cpusetPath, told, cpu, cpuset⟩ := run.post (getCgroupStateInfo_young sound)
  obtain ⟨cpuSince, cpuAge, cpuDropped, cpuFile, rfl, cpuTime, cpuLater, cpuListed⟩ := cpu
  obtain ⟨since, age, dropped, cpusetFile, rfl, cpusetTime, later, listed⟩ := cpuset
  refine ⟨looked.sound.bounded, cpuFile, cpusetFile, cpuTime, cpusetTime, told, cpuListed, listed,
    cpuAge.trans cpuLater, age.trans later, fun valid time past => ?_⟩
  exact ⟨(cpuDropped valid time past).trans cpuLater, (dropped valid time past).trans later⟩

/-- What the file of a process in the foreground has. -/
def foregroundFile : Bytes := Bytes.ascii "4:cpu:/top-app\n3:cpuset:/top-app"

/-- Answers of a system on which every process is in the foreground. -/
def respondForeground (world : LookupWorld) :
    (operation : CgroupOp) → Option (CgroupSig.Res operation × LookupWorld)
  | .now => some (world.clock, world)
  | .find key now => some (world.cache.find world.ttlMs now key, world)
  | .readFile pid => some (foregroundFile,
      { world with log := world.log ++ [⟨world.clock, pid, foregroundFile⟩] })
  | .store key path now =>
    if world.cache.entries.length < kMaxCgroupCacheSize then
      some ((), { world with cache := world.cache.store world.ttlMs now key key path })
    else none

/-- Such answers are possible. -/
theorem step_of_respondForeground {operation : CgroupOp} {response : CgroupSig.Res operation}
    (answered : respondForeground world operation = some (response, after)) :
    machine.step world operation response after := by
  refine ⟨world.clock, le_refl _, ?_⟩
  cases operation with
  | now | find =>
    cases answered
    exact ⟨rfl, rfl⟩
  | readFile =>
    cases answered
    rfl
  | store key path now =>
    rw [respondForeground] at answered
    split at answered
    · next room =>
      cases answered
      refine ⟨key, fun full => absurd full ?_, rfl⟩
      have fewer := List.length_filter_le (fun entry : Sigma fun _ : CgroupCacheKey =>
        CgroupCacheEntry => CgroupCache.isFresh world.ttlMs now entry.2) world.cache.entries
      exact not_le_of_gt (lt_of_le_of_lt fewer room)
    · cases answered

theorem lookup_young_forgotten : ∃ world after : LookupWorld,
    Reaches { ttlMs := 100 } world ∧ world.dropped 7 = some 0 ∧
    Program.Run machine (getCgroupStateInfo 7) world ⟨.top, false⟩ after ∧
    after.cache.entries.length ≤ 1000 := by
  have reached : Reaches { ttlMs := 100 }
      { ttlMs := 100, cache := invalidateProcessCaches 7 ∅, dropped := Function.update _ 7 (some 0) } :=
    .single (.invalidate (by decide))
  have executed : ((getCgroupStateInfo 7).exec respondForeground
      { ttlMs := 100, cache := invalidateProcessCaches 7 ∅
        dropped := Function.update (fun _ => none) 7 (some 0) }).map Prod.fst =
        some ⟨.top, false⟩ := by
    decide
  obtain ⟨⟨_, after⟩, ran, rfl⟩ := Option.map_eq_some_iff.mp executed
  have run := Program.run_of_exec step_of_respondForeground ran
  have young := lookup_young (by decide) reached run
  exact ⟨_, after, reached, rfl, run, young.1⟩

end LookupWorld

end ReUperf
