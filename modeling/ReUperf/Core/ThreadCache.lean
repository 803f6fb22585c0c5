import ReUperf.Core.ThreadMatcher

/-!
# Thread cache

The cache of `thread_cache.hpp`: for each pair of a process ID and a thread ID the identity
that was last seen under it, its match result, the result last applied to it, the components
ReUperf manages and the baseline to restore. Every method holds the cache's lock, so each is
one atomic function of the cache. A baseline part is present when its `has_` flag is set.
-/

namespace ReUperf

/-- A thread identity: its IDs and the start times that tell reused IDs apart. -/
structure Identity where
  /-- The process ID. -/
  pid : Int
  /-- The thread ID. -/
  tid : Int
  /-- The start time of the process. -/
  processStartTime : Nat
  /-- The start time of the thread. -/
  threadStartTime : Nat
  deriving DecidableEq

/-- The key a thread is cached under. -/
abbrev CacheKey : Type := Int × Int

/-- The key of an identity. -/
def Identity.key (identity : Identity) : CacheKey := (identity.pid, identity.tid)

/-- A scheduling policy with its parameters. -/
structure SchedulerBaseline where
  /-- The policy. -/
  policy : Int
  /-- The real-time priority. -/
  priority : Int
  /-- The nice value. -/
  nice : Int
  deriving DecidableEq

/-- The state of a thread before ReUperf managed it, as far as it could be read. -/
structure ThreadBaseline where
  /-- The CPUs the thread may run on. -/
  affinity : Option (List Int) := none
  /-- The policy and its parameters. -/
  scheduler : Option SchedulerBaseline := none
  /-- The directory of its cpuset group. -/
  cpusetPath : Option Bytes := none
  /-- The directory of its cpuctl group. -/
  cpuctlPath : Option Bytes := none
  deriving DecidableEq

/-- Add the parts another baseline has and this one lacks. -/
def ThreadBaseline.merge (existing baseline : ThreadBaseline) : ThreadBaseline where
  affinity := existing.affinity.or baseline.affinity
  scheduler := existing.scheduler.or baseline.scheduler
  cpusetPath := existing.cpusetPath.or baseline.cpusetPath
  cpuctlPath := existing.cpuctlPath.or baseline.cpuctlPath

/-- A baseline with the identity it belongs to. -/
structure StoredThreadBaseline where
  /-- The identity. -/
  identity : Identity
  /-- The baseline. -/
  baseline : ThreadBaseline
  deriving DecidableEq

/-- The components of a thread that ReUperf manages. -/
structure ManagedComponents where
  /-- Its cpuset group and its CPUs. -/
  affinity : Bool := false
  /-- Its scheduling policy. -/
  priority : Bool := false
  /-- Its cpuctl group. -/
  cpuctl : Bool := false
  deriving DecidableEq

/-- One entry of the cache. -/
structure ThreadCacheEntry where
  /-- The identity the entry is about. -/
  identity : Identity
  /-- The thread name the result was computed for. -/
  threadName : Bytes
  /-- The command line the result was computed for. -/
  cmdline : Bytes
  /-- The process state the result was computed for. -/
  actualState : ProcessState
  /-- The match result. -/
  result : MatchResult
  /-- The result that was last applied completely. -/
  appliedResult : Option MatchResult := none
  /-- The components ReUperf manages. -/
  managedComponents : ManagedComponents := {}
  /-- The mount point of the cpuset controller. -/
  cpusetBase : Bytes
  /-- The mount point of the cpu controller. -/
  cpuctlBase : Bytes
  /-- The baseline to restore. -/
  baseline : Option ThreadBaseline := none
  deriving DecidableEq

/-- The cache. -/
abbrev ThreadCache : Type := Table CacheKey ThreadCacheEntry

/-- What a match result was computed for. -/
structure Observation where
  /-- The thread name. -/
  threadName : Bytes
  /-- The command line. -/
  cmdline : Bytes
  /-- The process state. -/
  actualState : ProcessState
  deriving DecidableEq

/-- Whether an entry's result was computed for this observation. -/
def ThreadCacheEntry.isFor (entry : ThreadCacheEntry) (observation : Observation) : Bool :=
  entry.threadName = observation.threadName && entry.cmdline = observation.cmdline
    && entry.actualState = observation.actualState

/-- A match result with the mount points it refers to. -/
structure ResultRecord where
  /-- The match result. -/
  result : MatchResult
  /-- The mount point of the cpuset controller. -/
  cpusetBase : Bytes
  /-- The mount point of the cpu controller. -/
  cpuctlBase : Bytes
  deriving DecidableEq

/-- A new entry. -/
def ThreadCacheEntry.fresh (identity : Identity) (observation : Observation)
    (record : ResultRecord) : ThreadCacheEntry where
  identity := identity
  threadName := observation.threadName
  cmdline := observation.cmdline
  actualState := observation.actualState
  result := record.result
  cpusetBase := record.cpusetBase
  cpuctlBase := record.cpuctlBase

/-- An entry with a new result. -/
def ThreadCacheEntry.renew (entry : ThreadCacheEntry) (observation : Observation)
    (record : ResultRecord) : ThreadCacheEntry :=
  { entry with
    threadName := observation.threadName
    cmdline := observation.cmdline
    actualState := observation.actualState
    result := record.result
    cpusetBase := record.cpusetBase
    cpuctlBase := record.cpuctlBase }

/-- The entry an update leaves: the old one with the new result when it is of the identity,
else a new one. -/
def ThreadCacheEntry.next (old : Option ThreadCacheEntry) (identity : Identity)
    (observation : Observation) (record : ResultRecord) : ThreadCacheEntry :=
  match old with
  | some entry =>
    if entry.identity = identity then entry.renew observation record
    else .fresh identity observation record
  | none => .fresh identity observation record

/-- Record the parts of a baseline that are not recorded yet. -/
def ThreadCacheEntry.addBaseline (entry : ThreadCacheEntry) (baseline : ThreadBaseline) :
    ThreadCacheEntry :=
  { entry with
    baseline := some (match entry.baseline with
      | none => baseline
      | some existing => existing.merge baseline) }

namespace ThreadCache

/-- The entry of an identity whose result is still for this observation. -/
def find (cache : ThreadCache) (identity : Identity) (observation : Observation) :
    Option ThreadCacheEntry :=
  match cache.lookup identity.key with
  | none => none
  | some entry =>
    if entry.identity = identity ∧ entry.isFor observation then some entry else none

/-- Record a new result for an identity: an entry of another identity is replaced. -/
def update (cache : ThreadCache) (identity : Identity) (observation : Observation)
    (record : ResultRecord) : ThreadCache :=
  cache.insert identity.key (.next (cache.lookup identity.key) identity observation record)

/-- The result last applied under a key. -/
def getAppliedResult (cache : ThreadCache) (key : CacheKey) : Option MatchResult :=
  (cache.lookup key).bind (·.appliedResult)

/-- Record an applied result under a key. -/
def updateAppliedResult (cache : ThreadCache) (key : CacheKey) (result : MatchResult) :
    ThreadCache :=
  cache.adjust (fun entry => { entry with appliedResult := some result }) key

/-- Forget the applied result under a key. -/
def clearAppliedResult (cache : ThreadCache) (key : CacheKey) : ThreadCache :=
  cache.adjust (fun entry => { entry with appliedResult := none }) key

/-- The managed components under a key. -/
def getManagedComponents (cache : ThreadCache) (key : CacheKey) : ManagedComponents :=
  ((cache.lookup key).map (·.managedComponents)).getD {}

/-- Record the managed components under a key. -/
def setManagedComponents (cache : ThreadCache) (key : CacheKey) (components : ManagedComponents) :
    ThreadCache :=
  cache.adjust (fun entry => { entry with managedComponents := components }) key

/-- Forget the managed components under a key. -/
def clearManagedComponents (cache : ThreadCache) (key : CacheKey) : ThreadCache :=
  cache.setManagedComponents key {}

/-- Record a baseline under a key; recorded parts stay. -/
def setBaseline (cache : ThreadCache) (key : CacheKey) (baseline : ThreadBaseline) :
    ThreadCache :=
  cache.adjust (ThreadCacheEntry.addBaseline · baseline) key

/-- The baseline under a key. -/
def getBaseline (cache : ThreadCache) (key : CacheKey) : Option ThreadBaseline :=
  (cache.lookup key).bind (·.baseline)

/-- Forget the baseline under a key. -/
def clearBaseline (cache : ThreadCache) (key : CacheKey) : ThreadCache :=
  cache.adjust (fun entry => { entry with baseline := none }) key

/-- The processes with a baseline. -/
def getPidsWithBaselines (cache : ThreadCache) : List Int :=
  (cache.toPairs.filter fun entry => entry.2.baseline.isSome).map (·.2.identity.pid)

/-- Whether a process has a baseline. -/
def hasBaselineForPid (cache : ThreadCache) (pid : Int) : Bool :=
  cache.toPairs.any fun entry => entry.2.identity.pid = pid && entry.2.baseline.isSome

/-- Every baseline with its identity. -/
def getAllBaselines (cache : ThreadCache) : List StoredThreadBaseline :=
  cache.toPairs.filterMap fun entry => entry.2.baseline.map fun baseline =>
    ⟨entry.2.identity, baseline⟩

/-- The start times under every key. -/
def identitySnapshot (cache : ThreadCache) : Table CacheKey (Nat × Nat) :=
  cache.mapValues fun entry => (entry.identity.processStartTime, entry.identity.threadStartTime)

/-- What a completed scan found and what was cached when it began. -/
structure ScanFindings where
  /-- The start time of every process found. -/
  liveProcesses : Table Int Nat
  /-- The start time of every thread found. -/
  liveThreads : Table CacheKey Nat
  /-- The start times cached when the scan began. -/
  scanStartIdentities : Table CacheKey (Nat × Nat)

/-- Whether an entry survives the cleanup after a scan. -/
def survives (findings : ScanFindings) (key : CacheKey) (entry : ThreadCacheEntry) : Bool :=
  if findings.scanStartIdentities.lookup key ≠
      some (entry.identity.processStartTime, entry.identity.threadStartTime) then true
  else if findings.liveProcesses.lookup entry.identity.pid ≠
      some entry.identity.processStartTime then
    -- The owning process is confirmed dead or recycled, so restoration is unsafe.
    false
  else match findings.liveThreads.lookup key with
    | some found => decide (found = entry.identity.threadStartTime)
    | none => entry.baseline.isSome

/-- Drop the entries a completed scan shows to be dead. -/
def retainLiveThreads (cache : ThreadCache) (findings : ScanFindings) : ThreadCache :=
  cache.retain (survives findings)

/-- Forget everything but the baselines. -/
def clearSchedulingStatePreservingBaselines (cache : ThreadCache) : ThreadCache :=
  (cache.retain fun _ entry => entry.baseline.isSome).mapValues fun entry =>
    { entry with
      threadName := []
      cmdline := []
      appliedResult := none
      managedComponents := {} }

/-- Erase the entry of an identity. -/
def eraseThreadIfIdentity (cache : ThreadCache) (identity : Identity) : ThreadCache :=
  match cache.lookup identity.key with
  | some entry => if entry.identity = identity then cache.erase identity.key else cache
  | none => cache

/-- Erase every entry of a process. -/
def resetForPid (cache : ThreadCache) (pid : Int) : ThreadCache :=
  cache.retain fun key _ => key.1 ≠ pid

/-- The number of entries. -/
def size (cache : ThreadCache) : Nat := cache.entries.length

/-! ## Entries -/

/-- The next entry is of the identity. -/
@[simp] theorem next_identity (old : Option ThreadCacheEntry) (identity : Identity)
    (observation : Observation) (record : ResultRecord) :
    (ThreadCacheEntry.next old identity observation record).identity = identity := by
  unfold ThreadCacheEntry.next
  split
  · split
    · assumption
    · rfl
  · rfl

/-- The next entry has the new result. -/
@[simp] theorem next_result (old : Option ThreadCacheEntry) (identity : Identity)
    (observation : Observation) (record : ResultRecord) :
    (ThreadCacheEntry.next old identity observation record).result = record.result := by
  unfold ThreadCacheEntry.next
  split
  · split <;> rfl
  · rfl

/-- The next entry after one of the same identity keeps what was recorded of it. -/
theorem next_of_identity {entry : ThreadCacheEntry} {identity : Identity}
    {observation : Observation} {record : ResultRecord} (same : entry.identity = identity) :
    ThreadCacheEntry.next (some entry) identity observation record =
      entry.renew observation record := by
  rw [ThreadCacheEntry.next, if_pos same]

/-! ## Keys -/

/-- Every entry is stored under the key of its identity. -/
def Keyed (cache : ThreadCache) : Prop :=
  ∀ key entry, cache.lookup key = some entry → entry.identity.key = key

/-- The empty cache is keyed. -/
theorem keyed_empty : Keyed ∅ := by
  intro key entry stored
  simp at stored

/-- Changing entries without their identities keeps a cache keyed. -/
theorem Keyed.adjust {cache : ThreadCache} (keyed : Keyed cache)
    {change : ThreadCacheEntry → ThreadCacheEntry}
    (same : ∀ entry, (change entry).identity = entry.identity) (key : CacheKey) :
    Keyed (Table.adjust change key cache) := by
  intro other entry stored
  by_cases here : other = key
  · subst here
    rw [Table.lookup_adjust] at stored
    obtain ⟨old, found, rfl⟩ := Option.map_eq_some_iff.mp stored
    rw [same]
    exact keyed _ _ found
  · rw [Table.lookup_adjust_ne here] at stored
    exact keyed _ _ stored

/-- Keeping some entries keeps a cache keyed. -/
theorem Keyed.retain {cache : ThreadCache} (keyed : Keyed cache)
    (keep : CacheKey → ThreadCacheEntry → Bool) : Keyed (Table.retain keep cache) :=
  fun key entry stored => keyed key entry (Table.lookup_retain_eq_some.mp stored).1

/-- An update keeps a cache keyed. -/
theorem Keyed.update {cache : ThreadCache} (keyed : Keyed cache) (identity : Identity)
    (observation : Observation) (record : ResultRecord) :
    Keyed (cache.update identity observation record) := by
  intro key entry stored
  by_cases here : key = identity.key
  · subst here
    rw [ThreadCache.update, AList.lookup_insert, Option.some.injEq] at stored
    rw [← stored, next_identity]
  · rw [ThreadCache.update, AList.lookup_insert_ne here] at stored
    exact keyed key entry stored

/-- Forgetting the scheduling state keeps a cache keyed. -/
theorem Keyed.clearSchedulingState {cache : ThreadCache} (keyed : Keyed cache) :
    Keyed cache.clearSchedulingStatePreservingBaselines := by
  intro key entry stored
  rw [clearSchedulingStatePreservingBaselines, Table.lookup_mapValues] at stored
  obtain ⟨old, found, rfl⟩ := Option.map_eq_some_iff.mp stored
  exact keyed.retain _ key old found

variable {cache : ThreadCache} {identity : Identity} {key : CacheKey}

/-- The entry of the identity is found when it is for the observation. -/
theorem find_eq_some {observation : Observation} {entry : ThreadCacheEntry} :
    cache.find identity observation = some entry ↔
      cache.lookup identity.key = some entry ∧ entry.identity = identity ∧
        entry.isFor observation = true := by
  unfold find
  cases stored : cache.lookup identity.key with
  | none => simp
  | some found =>
    by_cases matching : found.identity = identity ∧ found.isFor observation = true
    · simp only [if_pos matching, Option.some.injEq]
      exact ⟨fun same => ⟨same, same ▸ matching⟩, fun same => same.1⟩
    · simp only [if_neg matching, Option.some.injEq]
      constructor
      · simp
      · rintro ⟨rfl, holds⟩
        exact absurd holds matching

/-- An update leaves the next entry under the key. -/
@[simp] theorem lookup_update (cache : ThreadCache) (identity : Identity)
    (observation : Observation) (record : ResultRecord) :
    (cache.update identity observation record).lookup identity.key =
      some (.next (cache.lookup identity.key) identity observation record) :=
  AList.lookup_insert _

/-- An update leaves other keys. -/
theorem lookup_update_ne {observation : Observation} {record : ResultRecord}
    (differ : key ≠ identity.key) :
    (cache.update identity observation record).lookup key = cache.lookup key :=
  AList.lookup_insert_ne differ

/-- Erasing an identity leaves the entries of others. -/
theorem lookup_eraseThreadIfIdentity {other : CacheKey} {entry : ThreadCacheEntry}
    (stored : cache.lookup other = some entry) (differ : entry.identity ≠ identity) :
    (cache.eraseThreadIfIdentity identity).lookup other = some entry := by
  unfold eraseThreadIfIdentity
  split
  · rename_i found holds
    split
    · rename_i same
      have key : other ≠ identity.key := by
        rintro rfl
        exact differ (Option.some.inj (stored.symm.trans holds) ▸ same)
      rw [AList.lookup_erase_ne key, stored]
    · exact stored
  · exact stored

/-- Erasing an identity adds nothing. -/
theorem lookup_of_eraseThreadIfIdentity {other : CacheKey} {entry : ThreadCacheEntry}
    (stored : (cache.eraseThreadIfIdentity identity).lookup other = some entry) :
    cache.lookup other = some entry := by
  unfold eraseThreadIfIdentity at stored
  split at stored
  · split at stored
    · by_cases same : other = identity.key
      · subst same
        simp at stored
      · rwa [AList.lookup_erase_ne same] at stored
    · exact stored
  · exact stored

/-- Erasing an identity leaves other keys. -/
theorem lookup_eraseThreadIfIdentity_ne (differ : key ≠ identity.key) :
    (cache.eraseThreadIfIdentity identity).lookup key = cache.lookup key := by
  unfold eraseThreadIfIdentity
  split
  · split
    · exact AList.lookup_erase_ne differ
    · rfl
  · rfl

/-- Erasing an identity keeps a cache keyed. -/
theorem Keyed.eraseThreadIfIdentity (keyed : Keyed cache) (identity : Identity) :
    Keyed (cache.eraseThreadIfIdentity identity) :=
  fun key entry stored => keyed key entry (lookup_of_eraseThreadIfIdentity stored)

/-- Every listed baseline is that of the entry under its identity's key. -/
theorem mem_getAllBaselines (keyed : Keyed cache) {stored : StoredThreadBaseline} :
    stored ∈ cache.getAllBaselines ↔ ∃ entry, cache.lookup stored.identity.key = some entry ∧
      entry.identity = stored.identity ∧ entry.baseline = some stored.baseline := by
  unfold getAllBaselines
  rw [List.mem_filterMap]
  constructor
  · rintro ⟨⟨key, entry⟩, listed, made⟩
    rw [Table.mem_toPairs] at listed
    obtain ⟨baseline, recorded, rfl⟩ := Option.map_eq_some_iff.mp made
    have found := keyed key entry listed
    exact ⟨entry, by rw [found]; exact listed, rfl, recorded⟩
  · rintro ⟨entry, found, same, recorded⟩
    refine ⟨(stored.identity.key, entry), Table.mem_toPairs.mpr found, ?_⟩
    rw [recorded, same]
    rfl

end ThreadCache

end ReUperf
