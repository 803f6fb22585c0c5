import ReUperf.System.Operations

/-!
# What the cache represents

Any sequence of the public methods of the thread cache, with any arguments, starts from the empty
cache. Each key has a slot of its own: what a method leaves under a key depends on the method and
on what was under that key. A slot of one identity keeps the first value recorded for each part of
its baseline until the baseline is cleared, the entry is erased or its start times change.
-/

namespace ReUperf

/-- A public method of the cache. -/
inductive CacheMethod
  /-- A method the scheduler calls between other operations. -/
  | call (inner : CacheCall)
  /-- `has_baseline_for_pid`. -/
  | hasBaselineForPid (pid : Int)
  /-- `size`. -/
  | size

/-- A part of a baseline. -/
inductive BaselinePart
  /-- The affinity. -/
  | affinity
  /-- The scheduling policy with its parameters. -/
  | scheduler
  /-- The cpuset group. -/
  | cpusetPath
  /-- The cpuctl group. -/
  | cpuctlPath

namespace BaselinePart

/-- What a part records. -/
@[reducible] def Value : BaselinePart → Type
  | affinity => List Int
  | scheduler => SchedulerBaseline
  | cpusetPath => Bytes
  | cpuctlPath => Bytes

/-- A part of a baseline. -/
def of : (part : BaselinePart) → ThreadBaseline → Option part.Value
  | affinity, baseline => baseline.affinity
  | scheduler, baseline => baseline.scheduler
  | cpusetPath, baseline => baseline.cpusetPath
  | cpuctlPath, baseline => baseline.cpuctlPath

/-- A part of a merged baseline is the recorded one, or the added one where it is missing. -/
theorem of_merge (part : BaselinePart) (existing added : ThreadBaseline) :
    part.of (existing.merge added) = (part.of existing).or (part.of added) := by
  cases part with
  | affinity => rfl
  | scheduler => rfl
  | cpusetPath => rfl
  | cpuctlPath => rfl

/-- A part of what is recorded of a thread. -/
def under (part : BaselinePart) (entry : ThreadCacheEntry) : Option part.Value :=
  entry.baseline.bind part.of

/-- Recording a baseline fills a part that is missing. -/
theorem under_addBaseline (part : BaselinePart) (entry : ThreadCacheEntry)
    (added : ThreadBaseline) :
    part.under (entry.addBaseline added) = (part.under entry).or (part.of added) := by
  unfold under ThreadCacheEntry.addBaseline
  cases entry.baseline with
  | none => rfl
  | some existing => exact part.of_merge existing added

end BaselinePart

namespace CacheMethod

/-- The value a method returns. -/
@[reducible] def Res : CacheMethod → Type
  | .call inner => inner.Res
  | .hasBaselineForPid _ => Bool
  | .size => Nat

/-- The value of a method and the cache it leaves. -/
def run : (method : CacheMethod) → ThreadCache → method.Res × ThreadCache
  | .call inner, cache => inner.run cache
  | .hasBaselineForPid pid, cache => (cache.hasBaselineForPid pid, cache)
  | .size, cache => (cache.size, cache)

/-- The thread a method is addressed to. -/
def thread : CacheMethod → Option CacheKey
  | .call (.find owner _) | .call (.update owner _ _) | .call (.getAppliedResult owner)
  | .call (.updateAppliedResult owner _) | .call (.clearAppliedResult owner)
  | .call (.getManagedComponents owner) | .call (.setManagedComponents owner _)
  | .call (.clearManagedComponents owner) | .call (.setBaseline owner _)
  | .call (.getBaseline owner) | .call (.clearBaseline owner)
  | .call (.eraseThreadIfIdentity owner) => some owner.key
  | _ => none

/-- The process a method is addressed to. -/
def process : CacheMethod → Option Int
  | .call (.resetForPid pid) | .hasBaselineForPid pid => some pid
  | _ => none

/-- A method forgets the baseline under a key. -/
def ClearsBaseline (key : CacheKey) : CacheMethod → Prop
  | .call (.clearBaseline owner) => owner.key = key
  | _ => False

/-- The value a method brings for a part of the baseline under a key. -/
def recorded (part : BaselinePart) (key : CacheKey) : CacheMethod → Option part.Value
  | .call (.setBaseline owner baseline) => if key = owner.key then part.of baseline else none
  | _ => none

/-- What a method leaves of what was under a key. -/
def effect (key : CacheKey) : CacheMethod → Option ThreadCacheEntry → Option ThreadCacheEntry
  | .call (.update owner observation record), old =>
    if key = owner.key then some (.next old owner observation record) else old
  | .call (.updateAppliedResult owner result), old =>
    if key = owner.key then old.map fun entry => { entry with appliedResult := some result }
    else old
  | .call (.clearAppliedResult owner), old =>
    if key = owner.key then old.map fun entry => { entry with appliedResult := none } else old
  | .call (.setManagedComponents owner components), old =>
    if key = owner.key then old.map fun entry => { entry with managedComponents := components }
    else old
  | .call (.clearManagedComponents owner), old =>
    if key = owner.key then old.map fun entry => { entry with managedComponents := {} } else old
  | .call (.setBaseline owner baseline), old =>
    if key = owner.key then old.map (·.addBaseline baseline) else old
  | .call (.clearBaseline owner), old =>
    if key = owner.key then old.map fun entry => { entry with baseline := none } else old
  | .call (.retainLiveThreads findings), old => old.filter (ThreadCache.survives findings key)
  | .call .clearSchedulingStatePreservingBaselines, old =>
    (old.filter (·.baseline.isSome)).map fun entry =>
      { entry with
        threadName := []
        cmdline := []
        appliedResult := none
        managedComponents := {} }
  | .call (.eraseThreadIfIdentity owner), old =>
    if key = owner.key then old.filter (fun entry => entry.identity ≠ owner) else old
  | .call (.resetForPid pid), old => old.filter fun _ => key.1 ≠ pid
  | .call .clear, _ => none
  | _, old => old

end CacheMethod

namespace ThreadCache

variable {cache : ThreadCache} {identity : Identity} {key : CacheKey} {method : CacheMethod}

/-! ## Slots -/

/-- The entry under a key after one there is changed. -/
theorem lookup_adjust_if (change : ThreadCacheEntry → ThreadCacheEntry) (key other : CacheKey)
    (cache : ThreadCache) :
    (Table.adjust change other cache).lookup key =
      if key = other then (cache.lookup key).map change else cache.lookup key := by
  by_cases here : key = other
  · rw [if_pos here, here, Table.lookup_adjust]
  · rw [if_neg here, Table.lookup_adjust_ne here]

/-- The entry under a key after an identity is erased. -/
theorem lookup_eraseThreadIfIdentity_if (cache : ThreadCache) (owner : Identity)
    (key : CacheKey) :
    (cache.eraseThreadIfIdentity owner).lookup key =
      if key = owner.key then (cache.lookup key).filter (fun entry => entry.identity ≠ owner)
      else cache.lookup key := by
  by_cases here : key = owner.key
  · rw [if_pos here, here, eraseThreadIfIdentity]
    cases stored : cache.lookup owner.key with
    | none => simpa using stored
    | some entry =>
      dsimp only
      by_cases same : entry.identity = owner
      · rw [if_pos same, AList.lookup_erase, Option.filter_some]
        simp [same]
      · rw [if_neg same, stored, Option.filter_some]
        simp [same]
  · rw [if_neg here, lookup_eraseThreadIfIdentity_ne here]

/-- A method acts on each slot by itself. -/
theorem lookup_run (method : CacheMethod) (cache : ThreadCache) (key : CacheKey) :
    (method.run cache).2.lookup key = method.effect key (cache.lookup key) := by
  cases method with
  | hasBaselineForPid pid => rfl
  | size => rfl
  | call inner =>
    cases inner with
    | update owner observation record =>
      show (cache.update owner observation record).lookup key = _
      by_cases here : key = owner.key
      · rw [CacheMethod.effect, if_pos here, here, lookup_update]
      · rw [CacheMethod.effect, if_neg here, lookup_update_ne here]
    | updateAppliedResult owner result => exact lookup_adjust_if _ key owner.key cache
    | clearAppliedResult owner => exact lookup_adjust_if _ key owner.key cache
    | setManagedComponents owner components => exact lookup_adjust_if _ key owner.key cache
    | clearManagedComponents owner => exact lookup_adjust_if _ key owner.key cache
    | setBaseline owner baseline => exact lookup_adjust_if _ key owner.key cache
    | clearBaseline owner => exact lookup_adjust_if _ key owner.key cache
    | retainLiveThreads findings => exact Table.lookup_retain _ key cache
    | clearSchedulingStatePreservingBaselines =>
      show (clearSchedulingStatePreservingBaselines cache).lookup key = _
      rw [clearSchedulingStatePreservingBaselines, Table.lookup_mapValues, Table.lookup_retain]
      rfl
    | eraseThreadIfIdentity owner => exact lookup_eraseThreadIfIdentity_if cache owner key
    | resetForPid pid => exact Table.lookup_retain _ key cache
    | clear => rfl
    | _ => rfl

/-- A change of one slot that leaves baselines alone leaves every baseline. -/
theorem baseline_of_change {change : ThreadCacheEntry → ThreadCacheEntry}
    {old entry : ThreadCacheEntry} {other : CacheKey}
    (left : (if key = other then (some old).map change else some old) = some entry)
    (keeps : ∀ entry, (change entry).baseline = entry.baseline) :
    entry.baseline = old.baseline := by
  by_cases here : key = other
  · rw [if_pos here, Option.map_some, Option.some.injEq] at left
    rw [← left, keeps]
  · rw [if_neg here, Option.some.injEq] at left
    rw [left]

/-- What passes a test is what was there. -/
theorem eq_of_filter {test : ThreadCacheEntry → Bool} {old entry : ThreadCacheEntry}
    (left : (some old).filter test = some entry) : old = entry :=
  Option.some.inj (Option.filter_eq_some_iff.mp left).1

/-- A method that neither records nor forgets a baseline leaves what is recorded of an identity
that stays. -/
theorem baseline_effect {old entry : ThreadCacheEntry} (before : old.identity = identity)
    (left : method.effect identity.key (some old) = some entry) (same : entry.identity = identity)
    (kept : ¬ method.ClearsBaseline identity.key)
    (other : ∀ owner added, method ≠ .call (.setBaseline owner added)) :
    entry.baseline = old.baseline := by
  cases method with
  | hasBaselineForPid pid => rw [← Option.some.inj left]
  | size => rw [← Option.some.inj left]
  | call inner =>
    cases inner with
    | update owner observation record =>
      by_cases here : identity.key = owner.key
      · rw [CacheMethod.effect, if_pos here, Option.some.injEq] at left
        have owned : old.identity = owner := by
          rw [before, ← same, ← left, next_identity]
        rw [← left, next_of_identity owned]
        rfl
      · rw [CacheMethod.effect, if_neg here, Option.some.injEq] at left
        rw [left]
    | updateAppliedResult owner result => exact baseline_of_change left fun _ => rfl
    | clearAppliedResult owner => exact baseline_of_change left fun _ => rfl
    | setManagedComponents owner components => exact baseline_of_change left fun _ => rfl
    | clearManagedComponents owner => exact baseline_of_change left fun _ => rfl
    | setBaseline owner added => exact absurd rfl (other owner added)
    | clearBaseline owner =>
      have elsewhere : identity.key ≠ owner.key := fun here => kept here.symm
      rw [CacheMethod.effect, if_neg elsewhere, Option.some.injEq] at left
      rw [left]
    | retainLiveThreads findings => rw [eq_of_filter left]
    | clearSchedulingStatePreservingBaselines =>
      rw [CacheMethod.effect, Option.map_eq_some_iff] at left
      obtain ⟨found, stays, rfl⟩ := left
      rw [eq_of_filter stays]
    | eraseThreadIfIdentity owner =>
      by_cases here : identity.key = owner.key
      · rw [CacheMethod.effect, if_pos here] at left
        rw [eq_of_filter left]
      · rw [CacheMethod.effect, if_neg here, Option.some.injEq] at left
        rw [left]
    | resetForPid pid =>
      rw [CacheMethod.effect] at left
      rw [eq_of_filter left]
    | clear => exact absurd left (by simp [CacheMethod.effect])
    | _ => rw [← Option.some.inj left]

/-- What a method leaves of a part: the recorded value, or the one the method brings. -/
theorem under_effect (part : BaselinePart) {old entry : ThreadCacheEntry}
    (before : old.identity = identity) (left : method.effect identity.key (some old) = some entry)
    (same : entry.identity = identity) (kept : ¬ method.ClearsBaseline identity.key) :
    part.under entry = (part.under old).or (method.recorded part identity.key) := by
  by_cases records : ∃ owner added, method = .call (.setBaseline owner added)
  · obtain ⟨owner, added, rfl⟩ := records
    by_cases here : identity.key = owner.key
    · rw [CacheMethod.effect, if_pos here, Option.map_some, Option.some.injEq] at left
      rw [← left, part.under_addBaseline, CacheMethod.recorded, if_pos here]
    · rw [CacheMethod.effect, if_neg here, Option.some.injEq] at left
      rw [← left, CacheMethod.recorded, if_neg here, Option.or_none]
  · have other : ∀ owner added, method ≠ .call (.setBaseline owner added) :=
      fun owner added this => records ⟨owner, added, this⟩
    have silent : method.recorded part identity.key = none := by
      unfold CacheMethod.recorded
      split
      · exact absurd rfl (other _ _)
      · rfl
    rw [silent, Option.or_none, BaselinePart.under, BaselinePart.under,
      baseline_effect before left same kept other]

/-- A method keeps a cache keyed. -/
theorem Keyed.run (keyed : Keyed cache) (method : CacheMethod) : Keyed (method.run cache).2 := by
  cases method with
  | hasBaselineForPid pid => exact keyed
  | size => exact keyed
  | call inner =>
    cases inner with
    | update owner observation record => exact keyed.update owner observation record
    | updateAppliedResult owner result => exact keyed.adjust (by intro entry; rfl) owner.key
    | clearAppliedResult owner => exact keyed.adjust (by intro entry; rfl) owner.key
    | setManagedComponents owner components => exact keyed.adjust (by intro entry; rfl) owner.key
    | clearManagedComponents owner => exact keyed.adjust (by intro entry; rfl) owner.key
    | setBaseline owner added => exact keyed.adjust (by intro entry; rfl) owner.key
    | clearBaseline owner => exact keyed.adjust (by intro entry; rfl) owner.key
    | retainLiveThreads findings => exact keyed.retain _
    | clearSchedulingStatePreservingBaselines => exact keyed.clearSchedulingState
    | eraseThreadIfIdentity owner => exact keyed.eraseThreadIfIdentity owner
    | resetForPid pid => exact keyed.retain _
    | clear => exact keyed_empty
    | _ => exact keyed

/-- A method addressed to one thread leaves what is under another key. -/
theorem lookup_run_of_thread {address : CacheKey} (addressed : method.thread = some address)
    (differ : key ≠ address) : (method.run cache).2.lookup key = cache.lookup key := by
  rw [lookup_run]
  cases method with
  | hasBaselineForPid pid => rfl
  | size => rfl
  | call inner =>
    cases inner <;>
      simp only [CacheMethod.thread, Option.some.injEq, reduceCtorEq] at addressed <;>
      subst addressed <;> first | rfl | exact if_neg differ

/-- A method addressed to one process leaves what is under the keys of others. -/
theorem lookup_run_of_process {pid : Int} (addressed : method.process = some pid)
    (differ : key.1 ≠ pid) : (method.run cache).2.lookup key = cache.lookup key := by
  rw [lookup_run]
  unfold CacheMethod.process at addressed
  split at addressed
  · rw [← Option.some.inj addressed] at differ
    cases stored : cache.lookup key with
    | none => rfl
    | some entry => simp [CacheMethod.effect, Option.filter_some, differ]
  · rfl
  · exact absurd addressed (by simp)

/-! ## Runs -/

/-- The cache after methods are called one after another. -/
def after (cache : ThreadCache) (methods : List CacheMethod) : ThreadCache :=
  methods.foldl (fun cache method => (method.run cache).2) cache

/-- An entry has the start times of an identity. -/
def HasStartTimes (identity : Identity) (entry : ThreadCacheEntry) : Prop :=
  entry.identity.processStartTime = identity.processStartTime ∧
    entry.identity.threadStartTime = identity.threadStartTime

/-- The cache has an entry under the key of an identity, with its start times. -/
def Holds (cache : ThreadCache) (identity : Identity) : Prop :=
  ∃ entry, cache.lookup identity.key = some entry ∧ HasStartTimes identity entry

/-- While the methods are called the entry of an identity keeps its start times, is not erased and
its baseline is not cleared. -/
def Spared (identity : Identity) : ThreadCache → List CacheMethod → Prop
  | cache, [] => cache.Holds identity
  | cache, method :: rest =>
    cache.Holds identity ∧ ¬ method.ClearsBaseline identity.key ∧
      Spared identity (method.run cache).2 rest

/-- What is recorded of a part under a key. -/
def partUnder (part : BaselinePart) (cache : ThreadCache) (key : CacheKey) : Option part.Value :=
  (cache.lookup key).bind part.under

/-- The first value the methods bring for a part of the baseline under a key. -/
def firstRecorded (part : BaselinePart) (key : CacheKey) (methods : List CacheMethod) :
    Option part.Value :=
  (methods.filterMap (·.recorded part key)).head?

/-- What the cache keeps of its entries, whatever methods were called. -/
structure Represents (methods : List CacheMethod) : Prop where
  /-- Every entry is stored under its own key. -/
  keyed : Keyed (after ∅ methods)
  /-- A part keeps its value, or takes the first one recorded, while its entry is spared. -/
  keepsFirst : ∀ earlier later, methods = earlier ++ later →
    ∀ identity, Spared identity (after ∅ earlier) later → ∀ part : BaselinePart,
      partUnder part (after ∅ methods) identity.key =
        (partUnder part (after ∅ earlier) identity.key).or
          (firstRecorded part identity.key later)
  /-- An update with the stored start times keeps what was recorded. -/
  sameStartTimes : ∀ identity entry observation record,
    (after ∅ methods).lookup identity.key = some entry → HasStartTimes identity entry →
      ∃ updated, ((after ∅ methods).update identity observation record).lookup identity.key =
          some updated ∧ HasStartTimes identity updated ∧ updated.baseline = entry.baseline ∧
        updated.appliedResult = entry.appliedResult ∧
        updated.managedComponents = entry.managedComponents
  /-- An update with other start times leaves nothing of the identity before. -/
  otherStartTimes : ∀ identity observation record, ¬ (after ∅ methods).Holds identity →
    ∃ updated, ((after ∅ methods).update identity observation record).lookup identity.key =
        some updated ∧ HasStartTimes identity updated ∧ updated.baseline = none ∧
      updated.appliedResult = none ∧ updated.managedComponents = {}
  /-- A method addressed to one thread leaves the entries of others. -/
  otherThreads : ∀ method : CacheMethod, ∀ address, method.thread = some address →
    ∀ key ≠ address, (method.run (after ∅ methods)).2.lookup key = (after ∅ methods).lookup key
  /-- A method addressed to one process leaves the entries of others. -/
  otherProcesses : ∀ method : CacheMethod, ∀ pid, method.process = some pid →
    ∀ key : CacheKey, key.1 ≠ pid →
      (method.run (after ∅ methods)).2.lookup key = (after ∅ methods).lookup key

/-- Every entry of a reachable cache is stored under its own key. -/
theorem keyed_after (keyed : Keyed cache) (methods : List CacheMethod) :
    Keyed (after cache methods) := by
  induction methods generalizing cache with
  | nil => exact keyed
  | cons method rest ih => exact ih (keyed.run method)

/-- In a keyed cache the start times tell the identity under its key. -/
theorem identity_eq_of_startTimes (keyed : Keyed cache) {entry : ThreadCacheEntry}
    (stored : cache.lookup identity.key = some entry) (same : HasStartTimes identity entry) :
    entry.identity = identity := by
  have keys := keyed _ _ stored
  obtain ⟨pids, tids⟩ := Prod.mk.inj keys
  cases identity
  cases found : entry.identity
  simp_all [HasStartTimes]

/-- One method, then the rest. -/
theorem firstRecorded_cons (part : BaselinePart) (key : CacheKey) (method : CacheMethod)
    (rest : List CacheMethod) :
    firstRecorded part key (method :: rest) =
      (method.recorded part key).or (firstRecorded part key rest) := by
  unfold firstRecorded
  cases brought : method.recorded part key with
  | none => rw [List.filterMap_cons_none brought, Option.none_or]
  | some value => rw [List.filterMap_cons_some brought, List.head?_cons, Option.some_or]

/-- The identity is held at the start of calls that spare it. -/
theorem Spared.holds {methods : List CacheMethod} (spared : Spared identity cache methods) :
    cache.Holds identity := by
  cases methods with
  | nil => exact spared
  | cons method rest => exact spared.1

/-- A part that is spared keeps its value, or takes the first one recorded. -/
theorem partUnder_after (keyed : Keyed cache) {methods : List CacheMethod}
    (spared : Spared identity cache methods) (part : BaselinePart) :
    partUnder part (after cache methods) identity.key =
      (partUnder part cache identity.key).or (firstRecorded part identity.key methods) := by
  induction methods generalizing cache with
  | nil => exact (Option.or_none).symm
  | cons method rest ih =>
    obtain ⟨old, stored, oldTimes⟩ := spared.1
    obtain ⟨entry, left, entryTimes⟩ := spared.2.2.holds
    have before := identity_eq_of_startTimes keyed stored oldTimes
    have same := identity_eq_of_startTimes (keyed.run method) left entryTimes
    have effect := left
    rw [lookup_run, stored] at effect
    have step := under_effect part before effect same spared.2.1
    show partUnder part (after (method.run cache).2 rest) identity.key = _
    rw [ih (keyed.run method) spared.2.2, firstRecorded_cons, ← Option.or_assoc]
    congr 1
    rw [partUnder, partUnder, left, stored]
    exact step

/-- Calls one after another. -/
theorem after_append (cache : ThreadCache) (earlier later : List CacheMethod) :
    after cache (earlier ++ later) = after (after cache earlier) later :=
  List.foldl_append

/-- Whatever methods are called from the empty cache, every entry has its own key, keeps what was
first recorded of it and is changed by the methods addressed to it only. -/
theorem represents (methods : List CacheMethod) : Represents methods where
  keyed := keyed_after keyed_empty methods
  keepsFirst := by
    intro earlier later same identity spared part
    rw [same, after_append]
    exact partUnder_after (keyed_after keyed_empty earlier) spared part
  sameStartTimes := by
    intro identity entry observation record stored times
    have same := identity_eq_of_startTimes (keyed_after keyed_empty methods) stored times
    refine ⟨entry.renew observation record, ?_, times, rfl, rfl, rfl⟩
    rw [lookup_update, stored, next_of_identity same]
  otherStartTimes := by
    intro identity observation record absent
    refine ⟨.fresh identity observation record, ?_, ⟨rfl, rfl⟩, rfl, rfl, rfl⟩
    rw [lookup_update]
    cases stored : (after ∅ methods).lookup identity.key with
    | none => rfl
    | some entry =>
      have differ : entry.identity ≠ identity := by
        intro same
        exact absent ⟨entry, stored, by rw [same], by rw [same]⟩
      rw [ThreadCacheEntry.next, if_neg differ]
  otherThreads := fun _ _ addressed _ differ => lookup_run_of_thread addressed differ
  otherProcesses := fun _ _ addressed _ differ => lookup_run_of_process addressed differ

end ThreadCache

end ReUperf
