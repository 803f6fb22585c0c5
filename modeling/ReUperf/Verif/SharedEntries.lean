import ReUperf.Lib.Pool
import ReUperf.Verif.CallMachine
import ReUperf.Verif.DispatchIdentity

/-!
# Shared entries

Several workers share one cache. A worker checks an identity against `/proc`, and then it writes the
cache under the IDs alone. The module lets any number of workers process tasks interleaved at single
operations, while threads and processes end and their IDs are given to others, and keeps beside each
entry which thread its baseline was read from and on whose behalf its other parts were written.
They belong together in every run in which no other identity is entered under the IDs of a task
between the task's own entry and its later writes.
-/

namespace ReUperf

open Effect FileUtils ScanWorker

/-! ## Sightings -/

/-- The holder of a thread ID. -/
structure ThreadHolder where
  /-- The process it belongs to. -/
  pid : Int
  /-- When it started and whether it lives. -/
  slot : Slot
  deriving DecidableEq

/-- The holder may end, and later holders may follow, in any process. -/
def ThreadHolder.Later (first second : ThreadHolder) : Prop :=
  first.slot.start < second.slot.start ∨
    (first.pid = second.pid ∧ Slot.Later first.slot second.slot)

/-- The holder of a thread ID when something was read of it. -/
structure Sighting where
  /-- The thread ID. -/
  tid : Int
  /-- Its holder. -/
  thread : ThreadHolder
  /-- The holder of the process ID of that thread. -/
  process : Slot
  deriving DecidableEq

/-- The thread of an identity, alive. -/
def Identity.sighting (identity : Identity) : Sighting :=
  ⟨identity.tid, ⟨identity.pid, ⟨identity.threadStartTime, true⟩⟩,
    ⟨identity.processStartTime, true⟩⟩

/-- Where the parts of a cache entry come from. -/
structure Provenance where
  /-- The threads the baseline was read from. -/
  captures : List Sighting := []
  /-- On whose behalf the applied result was written. -/
  applied : Option Identity := none
  /-- On whose behalf the managed components were written. -/
  managed : Option Identity := none
  deriving DecidableEq

/-- Every part comes from the identity. -/
structure Provenance.BelongsTo (provenance : Provenance) (identity : Identity) : Prop where
  /-- The baseline. -/
  captures : ∀ sighting ∈ provenance.captures, sighting = identity.sighting
  /-- The applied result. -/
  applied : ∀ owner ∈ provenance.applied, owner = identity
  /-- The managed components. -/
  managed : ∀ owner ∈ provenance.managed, owner = identity

/-- The identity in whose name a cache call writes under its IDs. -/
def CacheCall.writes : CacheCall → Option Identity
  | .setBaseline owner _ | .clearBaseline owner | .updateAppliedResult owner _
  | .clearAppliedResult owner | .setManagedComponents owner _ | .clearManagedComponents owner =>
    some owner
  | _ => none

/-- The thread whose scheduling state an operation reads. -/
def SysOp.sight : SysOp → Option Int
  | .threadCgroupPaths _ tid | .schedGetaffinity tid | .statusAffinity tid
  | .schedGetscheduler tid | .schedGetparam tid | .getpriority tid => some tid
  | _ => none

/-! ## The machine -/

/-- Processes and threads that come and go, the cache, and where its entries come from. -/
structure SharedWorld (ι : Type) where
  /-- The process with an ID. -/
  process : Int → Slot
  /-- The thread with an ID. -/
  thread : Int → ThreadHolder
  /-- The thread cache. -/
  cache : ThreadCache := ∅
  /-- Where the entry under a key comes from. -/
  provenance : CacheKey → Provenance := fun _ => {}
  /-- What a worker has seen of threads since its task began. -/
  seen : ι → List Sighting := fun _ => []
  /-- The identity whose entry a worker has found or updated for its task. -/
  entered : ι → Option Identity := fun _ => none
  /-- The identities the others have updated since. -/
  updated : ι → List Identity := fun _ => []

namespace SharedWorld

variable {ι : Type} [DecidableEq ι]

/-- Processes and threads come and go. -/
structure Moves (world after : SharedWorld ι) : Prop where
  /-- Processes. -/
  process : ∀ pid, Slot.Later (world.process pid) (after.process pid)
  /-- Threads. -/
  thread : ∀ tid, (world.thread tid).Later (after.thread tid)
  /-- The workers do nothing. -/
  same : after = { world with process := after.process, thread := after.thread }

/-- The holder of a thread ID. -/
def sighting (world : SharedWorld ι) (tid : Int) : Sighting :=
  ⟨tid, world.thread tid, world.process (world.thread tid).pid⟩

/-- A worker reads the scheduling state of a thread. -/
def see (world : SharedWorld ι) (worker : ι) (tid : Int) : SharedWorld ι :=
  { world with
    seen := Function.update world.seen worker (world.seen worker ++ [world.sighting tid]) }

/-- A worker performs an operation that may read the scheduling state of a thread. -/
def observe (world : SharedWorld ι) (worker : ι) (operation : SysOp) : SharedWorld ι :=
  match operation.sight with
  | some tid => world.see worker tid
  | none => world

/-- A worker has found the entry of an identity. -/
def enter (world : SharedWorld ι) (worker : ι) (owner : Identity) : SharedWorld ι :=
  { world with
    entered := Function.update world.entered worker (some owner)
    updated := Function.update world.updated worker [] }

/-- A worker updates the entry of an identity. What was recorded of another identity is gone. -/
def renew (world : SharedWorld ι) (worker : ι) (owner : Identity) : SharedWorld ι :=
  { world with
    provenance := if (world.cache.lookup owner.key).any (·.identity = owner) then world.provenance
      else Function.update world.provenance owner.key {}
    entered := Function.update world.entered worker (some owner)
    updated := fun other => if other = worker then [] else world.updated other ++ [owner] }

/-- The provenance under a key changes. -/
def mark (world : SharedWorld ι) (key : CacheKey) (change : Provenance → Provenance) :
    SharedWorld ι :=
  { world with
    provenance := Function.update world.provenance key (change (world.provenance key)) }

/-- What a cache call of a worker means for the origin of the entries. -/
def account (world : SharedWorld ι) (worker : ι) : (call : CacheCall) → call.Res → SharedWorld ι
  | .find owner _, some _ => world.enter worker owner
  | .update owner _ _, _ => world.renew worker owner
  | .setBaseline owner _, _ => world.mark owner.key fun provenance =>
    { provenance with captures := provenance.captures ++ world.seen worker }
  | .clearBaseline owner, _ => world.mark owner.key fun provenance =>
    { provenance with captures := [] }
  | .updateAppliedResult owner _, _ | .clearAppliedResult owner, _ =>
    world.mark owner.key fun provenance => { provenance with applied := some owner }
  | .setManagedComponents owner _, _ | .clearManagedComponents owner, _ =>
    world.mark owner.key fun provenance => { provenance with managed := some owner }
  | _, _ => world

/-- What `/proc` may answer: a read may fail, and what is gone has no files. -/
def Reads (world : SharedWorld ι) : (operation : SysOp) → SysSig.Res operation → Prop
  | .processStartTime _ pid, found => ReuseWorld.ReadsStart (world.process pid) found
  | .threadStartTime _ pid tid, found =>
    found = 0 ∨ world.thread tid = ⟨pid, ⟨found, true⟩⟩
  | .threadInProcess _ pid tid, found =>
    found = true → (world.thread tid).pid = pid ∧ (world.thread tid).slot.alive = true
  | _, _ => True

/-- One operation of a worker. -/
def Op (world : SharedWorld ι) (worker : ι) :
    (operation : SysOp) → SysSig.Res operation → SharedWorld ι → Prop
  | .cache call, response, after => ∃ cache, call.Step world.cache response cache ∧
      after = { world.account worker call response with cache := cache }
  | operation, response, after =>
    world.Reads operation response ∧ after = world.observe worker operation

/-- No other identity was entered under the IDs of a task since the task's own entry. -/
def Alone (world : SharedWorld ι) (worker : ι) (owner : Identity) : Prop :=
  ∀ other ∈ world.updated worker, other.key = owner.key → other = owner

/-- A write comes while its task is alone. -/
def Undisturbed (world : SharedWorld ι) (worker : ι) : SysOp → Prop
  | .cache call => ∀ owner ∈ call.writes, world.Alone worker owner
  | _ => True

/-- A worker begins a task. -/
def begin (world : SharedWorld ι) (worker : ι) : SharedWorld ι :=
  { world with
    seen := Function.update world.seen worker []
    entered := Function.update world.entered worker none
    updated := Function.update world.updated worker [] }

/-- A program of calls as a worker performs it. -/
def performed {α : Type} (timing : TimingConfig) (worker : ι) (program : CallProgram α) :
    Program (SysSig.byAgents ι) α := (program.interpret (expand timing)).byAgent worker

/-- What a worker does for a task. -/
def taskProgram (sched : SchedConfig) (timing : TimingConfig) (worker : ι) (task : DispatchTask) :
    Program (SysSig.byAgents ι) Unit :=
  performed timing worker do
    let _ ← processDispatchTask sched task
    pure ()

/-- Workers that process tasks, of any threads and processes that were found alive. Operations are
only performed where they are allowed. -/
def system (allowed : SharedWorld ι → ι → SysOp → Prop) :
    PoolSystem (SysSig.byAgents ι) (SharedWorld ι) ι where
  machine := ⟨fun world operation response after =>
    allowed world operation.1 operation.2 ∧ world.Op operation.1 operation.2 response after⟩
  environment world after := world.Moves after
  job worker world program after := ∃ sched timing task,
    task.identity.processStartTime ≠ 0 ∧ task.identity.threadStartTime ≠ 0 ∧
      program = taskProgram sched timing worker task ∧ after = world.begin worker

/-- Every entry's parts come from its identity. -/
def Booked (world : SharedWorld ι) : Prop :=
  ∀ key entry, world.cache.lookup key = some entry →
    (world.provenance key).BelongsTo entry.identity

end SharedWorld

/-! ## Holders and entries -/

namespace ThreadHolder

variable {first second third : ThreadHolder}

theorem Later.trans (before : first.Later second) (after : second.Later third) :
    first.Later third := by
  unfold Later at *
  rcases before with earlier | ⟨samePid, earlier⟩
  · rcases after with later | ⟨-, later⟩
    · exact .inl (earlier.trans later)
    · exact .inl (earlier.trans_le later.le)
  · rcases after with later | ⟨samePid', later⟩
    · exact .inl (earlier.le.trans_lt later)
    · exact .inr ⟨samePid.trans samePid', earlier.trans later⟩

theorem Later.refl (holder : ThreadHolder) : holder.Later holder := .inr ⟨rfl, .refl _⟩

/-- A holder that still lives was the holder in between. -/
theorem Later.between {pid : Int} {start : Nat} (before : Later ⟨pid, ⟨start, true⟩⟩ second)
    (after : second.Later ⟨pid, ⟨start, true⟩⟩) : second = ⟨pid, ⟨start, true⟩⟩ := by
  have first : start ≤ second.slot.start := by
    rcases before with earlier | ⟨-, earlier⟩
    · exact Nat.le_of_lt earlier
    · exact earlier.le
  rcases after with later | ⟨samePid, later⟩
  · exact absurd later (Nat.not_lt.mpr first)
  · rcases before with earlier | ⟨-, earlier⟩
    · exact absurd later.le (Nat.not_le.mpr earlier)
    · obtain ⟨pid, slot⟩ := second
      have lives := earlier.between later
      subst lives
      rw [show pid = _ from samePid]

end ThreadHolder

namespace SharedWorld

variable {ι : Type} [DecidableEq ι] {world after : SharedWorld ι} {worker : ι}
  {identity : Identity}

/-! ## The invariant -/

/-- The entries are keyed and booked, and a worker that is alone with the identity it entered finds
no other entry. -/
structure Sound (world : SharedWorld ι) : Prop where
  /-- Every entry is under the key of its identity. -/
  keyed : world.cache.Keyed
  /-- The entry of a worker that is alone. -/
  own : ∀ {worker owner entry}, world.entered worker = some owner → world.Alone worker owner →
    world.cache.lookup owner.key = some entry → entry.identity = owner
  /-- Where the parts come from. -/
  booked : world.Booked

/-- What a call may write, and of what. -/
structure Permits (world : SharedWorld ι) (worker : ι) (call : CacheCall) : Prop where
  /-- A write follows the task's own entry. -/
  entered : ∀ owner ∈ call.writes, world.entered worker = some owner
  /-- A write comes while the task is alone. -/
  alone : ∀ owner ∈ call.writes, world.Alone worker owner
  /-- A baseline is read of its thread. -/
  captured : ∀ owner baseline, call = .setBaseline owner baseline →
    ∀ sighting ∈ world.seen worker, sighting = owner.sighting

omit [DecidableEq ι] in
/-- A change of the provenance under a key keeps the rest. -/
theorem mark_ne {key other : CacheKey} (differ : other ≠ key) (change : Provenance → Provenance) :
    (world.mark key change).provenance other = world.provenance other :=
  Function.update_of_ne differ _ _

omit [DecidableEq ι] in
/-- A write under the IDs of an entered identity keeps the world sound. -/
theorem Sound.mark (sound : world.Sound) {call : CacheCall} {response : call.Res}
    {cache : ThreadCache} {owner : Identity} (step : call.Step world.cache response cache)
    (plain : ∀ owner observation record, call ≠ .update owner observation record)
    (entered : world.entered worker = some owner) (alone : world.Alone worker owner)
    {change : Provenance → Provenance}
    (keeps : ∀ provenance : Provenance, provenance.BelongsTo owner →
      (change provenance).BelongsTo owner) :
    Sound { world.mark owner.key change with cache := cache } where
  keyed := CacheCall.keyed step sound.keyed
  own begun lonely stored := by
    obtain ⟨old, found, same⟩ := CacheCall.identity_of_step step plain stored
    rw [← same]
    exact sound.own begun lonely found
  booked key entry stored := by
    obtain ⟨old, found, same⟩ := CacheCall.identity_of_step step plain stored
    have belongs := sound.booked key old found
    rw [← same]
    by_cases here : key = owner.key
    · subst here
      have mine := sound.own entered alone found
      rw [mine] at belongs ⊢
      have changed := keeps _ belongs
      have provenance : (world.mark owner.key change).provenance owner.key =
        change (world.provenance owner.key) := Function.update_self _ _ _
      rwa [← provenance] at changed
    · have provenance : (world.mark owner.key change).provenance key = world.provenance key :=
        mark_ne here change
      rw [← provenance] at belongs
      exact belongs

omit [DecidableEq ι] in
/-- A call that writes nothing and enters no identity keeps the world sound. -/
theorem Sound.plain (sound : world.Sound) {call : CacheCall} {response : call.Res}
    {cache : ThreadCache} (step : call.Step world.cache response cache)
    (plain : ∀ owner observation record, call ≠ .update owner observation record) :
    Sound { world with cache := cache } where
  keyed := CacheCall.keyed step sound.keyed
  own begun lonely stored := by
    obtain ⟨old, found, same⟩ := CacheCall.identity_of_step step plain stored
    rw [← same]
    exact sound.own begun lonely found
  booked key entry stored := by
    obtain ⟨old, found, same⟩ := CacheCall.identity_of_step step plain stored
    rw [← same]
    exact sound.booked key old found

/-- Finding an entry keeps the world sound. -/
theorem Sound.enter (sound : world.Sound) {owner : Identity} {observation : Observation}
    {entry : ThreadCacheEntry} (found : world.cache.find owner observation = some entry) :
    Sound (world.enter worker owner) where
  keyed := sound.keyed
  own {other} {begun} {stored} entered lonely looked := by
    by_cases same : other = worker
    · subst same
      have mine : begun = owner := by
        simpa [SharedWorld.enter] using entered.symm
      subst mine
      have holds := ThreadCache.find_eq_some.mp found
      have equal : entry = stored := Option.some.inj (holds.1.symm.trans looked)
      rw [← equal]
      exact holds.2.1
    · have before : world.entered other = some begun := by
        simpa [SharedWorld.enter, Function.update_of_ne same] using entered
      have alone : world.Alone other begun := by
        intro updated member key
        exact lonely updated (by simpa [SharedWorld.enter, Function.update_of_ne same] using member)
          key
      exact sound.own before alone looked
  booked := sound.booked

/-- An update leaves the provenance under other keys. -/
theorem renew_ne (worker : ι) {owner : Identity} {key : CacheKey} (differ : key ≠ owner.key) :
    (world.renew worker owner).provenance key = world.provenance key := by
  unfold SharedWorld.renew
  dsimp only
  split
  · rfl
  · exact Function.update_of_ne differ _ _

/-- What is recorded under the key of an update comes from its identity. -/
theorem Sound.belongs_renew (sound : world.Sound) (worker : ι) (owner : Identity) :
    ((world.renew worker owner).provenance owner.key).BelongsTo owner := by
  unfold SharedWorld.renew
  dsimp only
  split
  · rename_i old
    rw [Option.any_eq_true] at old
    obtain ⟨entry, found, same⟩ := old
    have belongs := sound.booked owner.key entry found
    rwa [of_decide_eq_true same] at belongs
  · rw [Function.update_self]
    exact ⟨by simp, by simp, by simp⟩

/-- An update keeps the world sound. -/
theorem Sound.renew (sound : world.Sound) (owner : Identity) (observation : Observation)
    (record : ResultRecord) :
    Sound { world.renew worker owner with
      cache := world.cache.update owner observation record } where
  keyed := sound.keyed.update owner observation record
  own {other} {begun} {stored} entered lonely looked := by
    by_cases same : other = worker
    · subst same
      have mine : begun = owner := by
        simpa [SharedWorld.renew] using entered.symm
      subst mine
      have next := ThreadCache.lookup_update world.cache begun observation record
      have equal := Option.some.inj (next.symm.trans looked)
      rw [← equal, ThreadCache.next_identity]
    · have before : world.entered other = some begun := by
        simpa [SharedWorld.renew, Function.update_of_ne same] using entered
      have members : ∀ updated, updated ∈ world.updated other ++ [owner] →
          updated.key = begun.key → updated = begun := by
        intro updated member
        exact lonely updated (by simpa [SharedWorld.renew, same] using member)
      by_cases here : begun.key = owner.key
      · have mine : owner = begun := members owner (by simp) here.symm
        subst mine
        have next := ThreadCache.lookup_update world.cache owner observation record
        have equal := Option.some.inj (next.symm.trans looked)
        rw [← equal, ThreadCache.next_identity]
      · have kept : world.cache.lookup begun.key = some stored := by
          rw [← ThreadCache.lookup_update_ne here]
          exact looked
        exact sound.own before
          (fun updated member => members updated (List.mem_append_left _ member)) kept
  booked key entry looked := by
    by_cases here : key = owner.key
    · subst here
      have next := ThreadCache.lookup_update world.cache owner observation record
      have equal := Option.some.inj (next.symm.trans looked)
      have identity : entry.identity = owner := by
        rw [← equal, ThreadCache.next_identity]
      rw [identity]
      exact sound.belongs_renew worker owner
    · have kept : world.cache.lookup key = some entry := by
        rw [← ThreadCache.lookup_update_ne here]
        exact looked
      have belongs := sound.booked key entry kept
      rwa [← renew_ne worker here] at belongs

/-- A permitted call keeps the world sound. -/
theorem Sound.account (sound : world.Sound) {call : CacheCall} {response : call.Res}
    {cache : ThreadCache} (step : call.Step world.cache response cache)
    (permits : world.Permits worker call) :
    Sound { world.account worker call response with cache := cache } := by
  cases call with
  | find owner observation =>
    cases found : world.cache.find owner observation with
    | none =>
      have answer : (none, world.cache) = (response, cache) := by
        rw [← found]
        exact step
      cases answer
      exact sound
    | some entry =>
      have answer : (some entry, world.cache) = (response, cache) := by
        rw [← found]
        exact step
      cases answer
      exact sound.enter found
  | update owner observation record =>
    cases step
    exact sound.renew owner observation record
  | setBaseline owner baseline =>
    refine sound.mark step (by simp) (permits.entered owner rfl) (permits.alone owner rfl) ?_
    intro provenance belongs
    refine ⟨fun sighting member => ?_, belongs.applied, belongs.managed⟩
    rcases List.mem_append.mp member with old | new
    · exact belongs.captures sighting old
    · exact permits.captured owner baseline rfl sighting new
  | clearBaseline owner =>
    refine sound.mark step (by simp) (permits.entered owner rfl) (permits.alone owner rfl) ?_
    exact fun provenance belongs => ⟨by simp, belongs.applied, belongs.managed⟩
  | updateAppliedResult owner _ | clearAppliedResult owner =>
    refine sound.mark step (by simp) (permits.entered owner rfl) (permits.alone owner rfl) ?_
    exact fun provenance belongs => ⟨belongs.captures, by simp, belongs.managed⟩
  | setManagedComponents owner _ | clearManagedComponents owner =>
    refine sound.mark step (by simp) (permits.entered owner rfl) (permits.alone owner rfl) ?_
    exact fun provenance belongs => ⟨belongs.captures, belongs.applied, by simp⟩
  | _ => exact sound.plain step (by simp)

/-! ## Contracts -/

/-- What a worker assumes of the rest: time goes on, and nobody writes its own records. -/
structure Relies (worker : ι) (world after : SharedWorld ι) : Prop where
  /-- Processes. -/
  process : ∀ pid, Slot.Later (world.process pid) (after.process pid)
  /-- Threads. -/
  thread : ∀ tid, (world.thread tid).Later (after.thread tid)
  /-- What it has seen. -/
  seen : after.seen worker = world.seen worker
  /-- The identity it has entered. -/
  entered : after.entered worker = world.entered worker

/-- What a worker promises: it moves nothing and writes no records of others. -/
structure Guarantees (worker : ι) (world after : SharedWorld ι) : Prop where
  /-- Processes. -/
  process : after.process = world.process
  /-- Threads. -/
  thread : after.thread = world.thread
  /-- What the others have seen. -/
  seen : ∀ other, other ≠ worker → after.seen other = world.seen other
  /-- The identities the others have entered. -/
  entered : ∀ other, other ≠ worker → after.entered other = world.entered other

/-- The contract of a worker. -/
def contract (worker : ι) : Contract (SharedWorld ι) where
  rely := Relies worker
  guar := Guarantees worker
  rely_refl _ := ⟨fun _ => .refl _, fun _ => .refl _, rfl, rfl⟩
  rely_trans first second :=
    { process := fun pid => (first.process pid).trans (second.process pid)
      thread := fun tid => (first.thread tid).trans (second.thread tid)
      seen := second.seen.trans first.seen
      entered := second.entered.trans first.entered }

omit [DecidableEq ι] in
/-- What one worker guarantees the others rely on. -/
theorem Guarantees.relies {other : ι} (guarantees : Guarantees worker world after)
    (differ : other ≠ worker) : Relies other world after where
  process pid := by
    rw [guarantees.process]
    exact .refl _
  thread tid := by
    rw [guarantees.thread]
    exact .refl _
  seen := guarantees.seen other differ
  entered := guarantees.entered other differ

/-- A cache call keeps the guarantee. -/
theorem guarantees_account (world : SharedWorld ι) (worker : ι) (call : CacheCall)
    (response : call.Res) (cache : ThreadCache) :
    Guarantees worker world { world.account worker call response with cache := cache } := by
  have unchanged : Guarantees worker world { world with cache := cache } :=
    ⟨rfl, rfl, fun _ _ => rfl, fun _ _ => rfl⟩
  have enters : ∀ owner, Guarantees worker world
      { world.enter worker owner with cache := cache } := fun owner =>
    ⟨rfl, rfl, fun _ _ => rfl, fun other differ => Function.update_of_ne differ _ _⟩
  have renews : ∀ owner, Guarantees worker world
      { world.renew worker owner with cache := cache } := fun owner =>
    ⟨rfl, rfl, fun _ _ => rfl, fun other differ => Function.update_of_ne differ _ _⟩
  have marks : ∀ key change, Guarantees worker world
      { world.mark key change with cache := cache } := fun key change =>
    ⟨rfl, rfl, fun _ _ => rfl, fun _ _ => rfl⟩
  cases call with
  | find owner observation =>
    cases response with
    | none => exact unchanged
    | some entry => exact enters owner
  | update owner observation record => exact renews owner
  | setBaseline owner _ | clearBaseline owner | updateAppliedResult owner _
  | clearAppliedResult owner | setManagedComponents owner _ | clearManagedComponents owner =>
    exact marks _ _
  | _ => exact unchanged

/-- An operation that is none of the cache. -/
theorem op_iff_of_plain {operation : SysOp} (plain : operation.isCache = false)
    {response : SysSig.Res operation} : world.Op worker operation response after ↔
      world.Reads operation response ∧ after = world.observe worker operation := by
  cases operation with
  | cache call => cases plain
  | _ => rfl

/-- Observing keeps the guarantee. -/
theorem guarantees_observe (world : SharedWorld ι) (worker : ι) (operation : SysOp) :
    Guarantees worker world (world.observe worker operation) := by
  unfold observe
  split
  · exact ⟨rfl, rfl, fun other differ => Function.update_of_ne differ _ _, fun _ _ => rfl⟩
  · exact ⟨rfl, rfl, fun _ _ => rfl, fun _ _ => rfl⟩

/-- Observing changes neither the cache nor its records. -/
theorem Sound.observe (sound : world.Sound) (worker : ι) (operation : SysOp) :
    Sound (world.observe worker operation) := by
  unfold SharedWorld.observe
  split
  · exact ⟨sound.keyed, sound.own, sound.booked⟩
  · exact sound

/-- Every operation keeps the guarantee. -/
theorem Op.guarantees {operation : SysOp} {response : SysSig.Res operation}
    (stepped : world.Op worker operation response after) : Guarantees worker world after := by
  cases found : operation.isCache with
  | false =>
    obtain ⟨-, same⟩ := (op_iff_of_plain found).mp stepped
    rw [same]
    exact guarantees_observe world worker operation
  | true =>
    cases operation with
    | cache call =>
      obtain ⟨cache, -, same⟩ := stepped
      rw [same]
      exact guarantees_account world worker call response cache
    | _ => cases found

/-- An operation keeps the world sound when it is permitted. -/
theorem Sound.op (sound : world.Sound) {operation : SysOp} {response : SysSig.Res operation}
    (stepped : world.Op worker operation response after)
    (permits : ∀ call, operation = .cache call → world.Permits worker call) : after.Sound := by
  cases found : operation.isCache with
  | false =>
    obtain ⟨-, same⟩ := (op_iff_of_plain found).mp stepped
    rw [same]
    exact sound.observe worker operation
  | true =>
    cases operation with
    | cache call =>
      obtain ⟨cache, called, same⟩ := stepped
      rw [same]
      exact sound.account called (permits call rfl)
    | _ => cases found

/-! ## What a worker knows -/

/-- The threads a worker has seen since its task began: each was the identity's, or came after it,
and was there before the present one. -/
structure Tracks (worker : ι) (identity : Identity) (world : SharedWorld ι) : Prop where
  /-- They had its thread ID. -/
  tid : ∀ sighting ∈ world.seen worker, sighting.tid = identity.tid
  /-- The thread. -/
  thread : ∀ sighting ∈ world.seen worker,
    ThreadHolder.Later identity.sighting.thread sighting.thread ∧
      sighting.thread.Later (world.thread identity.tid)
  /-- The process. -/
  process : ∀ sighting ∈ world.seen worker, sighting.thread.pid = identity.pid →
    Slot.Later identity.sighting.process sighting.process ∧
      sighting.process.Later (world.process identity.pid)

/-- The identity was alive. -/
structure Begun (identity : Identity) (world : SharedWorld ι) : Prop where
  /-- The thread. -/
  threadBegun : identity.sighting.thread.Later (world.thread identity.tid)
  /-- The process. -/
  processBegun : identity.sighting.process.Later (world.process identity.pid)

/-- Everything a worker has seen is of the identity. -/
def Certain (worker : ι) (identity : Identity) (world : SharedWorld ι) : Prop :=
  ∀ sighting ∈ world.seen worker, sighting = identity.sighting

/-- A worker processes a task whose identity it has found alive. -/
structure Works (worker : ι) (identity : Identity) (world : SharedWorld ι) : Prop
    extends Tracks worker identity world, Begun identity world

/-- A worker has entered the identity of its task. -/
structure Enters (worker : ι) (identity : Identity) (world : SharedWorld ι) : Prop
    extends Works worker identity world where
  /-- The entry. -/
  entered : world.entered worker = some identity

omit [DecidableEq ι] in
/-- What was tracked stays tracked. -/
theorem stable_tracks : (contract worker).Stable (Tracks worker identity) := by
  intro before after tracks relies
  constructor
  · rw [relies.seen]
    exact tracks.tid
  · rw [relies.seen]
    intro sighting member
    have between := tracks.thread sighting member
    exact ⟨between.1, between.2.trans (relies.thread _)⟩
  · rw [relies.seen]
    intro sighting member same
    have between := tracks.process sighting member same
    exact ⟨between.1, between.2.trans (relies.process _)⟩

omit [DecidableEq ι] in
/-- What was alive was alive. -/
theorem stable_begun : (contract worker).Stable (Begun identity) := by
  intro before after begun relies
  exact ⟨begun.threadBegun.trans (relies.thread _), begun.processBegun.trans (relies.process _)⟩

omit [DecidableEq ι] in
/-- What was seen stays seen. -/
theorem stable_certain : (contract worker).Stable (Certain worker identity) := by
  intro before after certain relies
  unfold Certain
  rw [relies.seen]
  exact certain

omit [DecidableEq ι] in
/-- A worker goes on with its task. -/
theorem stable_works : (contract worker).Stable (Works worker identity) :=
  fun works relies => ⟨stable_tracks works.toTracks relies, stable_begun works.toBegun relies⟩

omit [DecidableEq ι] in
/-- The entered identity stays. -/
theorem stable_enters : (contract worker).Stable (Enters worker identity) :=
  fun enters relies =>
    ⟨stable_works enters.toWorks relies, relies.entered.trans enters.entered⟩

/-- A worker that reads its own thread still tracks it. -/
theorem Works.observe (works : Works worker identity world) {operation : SysOp}
    (sees : operation.SeesOnly identity.tid) :
    Works worker identity (world.observe worker operation) := by
  unfold SharedWorld.observe
  split
  · rename_i tid found
    have own : tid = identity.tid := by
      cases operation <;> cases found <;> exact sees
    subst own
    have seen : (world.see worker identity.tid).seen worker =
        world.seen worker ++ [world.sighting identity.tid] := Function.update_self _ _ _
    refine ⟨⟨?_, ?_, ?_⟩, ⟨works.threadBegun, works.processBegun⟩⟩
    · rw [seen]
      intro sighting member
      rcases List.mem_append.mp member with old | new
      · exact works.tid sighting old
      · rw [List.mem_singleton.mp new]
        rfl
    · rw [seen]
      intro sighting member
      rcases List.mem_append.mp member with old | new
      · exact works.thread sighting old
      · rw [List.mem_singleton.mp new]
        exact ⟨works.threadBegun, .refl _⟩
    · rw [seen]
      intro sighting member same
      rcases List.mem_append.mp member with old | new
      · exact works.process sighting old same
      · rw [List.mem_singleton.mp new] at same ⊢
        have process : (world.sighting identity.tid).process = world.process identity.pid := by
          rw [← same]
          rfl
        rw [process]
        exact ⟨works.processBegun, .refl _⟩
  · exact works

/-! ## Steps of a task -/

/-- The judgement about what a worker does. -/
abbrev Ensures {α : Type} (worker : ι) (pre : SharedWorld ι → Prop)
    (program : Program (SysSig.byAgents ι) α) (post : α → SharedWorld ι → Prop) : Prop :=
  Triple (system Undisturbed).machine Sound (contract worker) pre program post

variable {α β : Type} {timing : TimingConfig}

omit [DecidableEq ι] in
@[simp] theorem performed_pure (value : α) :
    performed timing worker (pure value) = pure value := rfl

omit [DecidableEq ι] in
@[simp] theorem performed_bind (program : CallProgram α) (rest : α → CallProgram β) :
    performed timing worker (program >>= rest) =
      (performed timing worker program >>= fun value => performed timing worker (rest value)) := by
  simp [performed, Program.byAgent]

omit [DecidableEq ι] in
@[simp] theorem performed_ite (condition : Prop) [Decidable condition]
    (left right : CallProgram α) : performed timing worker (if condition then left else right) =
      if condition then performed timing worker left else performed timing worker right := by
  split <;> rfl

omit [DecidableEq ι] in
/-- A system operation of a worker. -/
theorem performed_sysCall (operation : SysOp) : performed timing worker (sysCall operation) =
    Program.op (S := SysSig.byAgents ι) (worker, operation) := rfl

/-- A call of the cache under a permit. -/
theorem ensures_cacheCall {call : CacheCall} {pre : SharedWorld ι → Prop}
    {post : call.Res → SharedWorld ι → Prop} (stable : (contract worker).Stable pre)
    (permits : ∀ world, pre world → (∀ owner ∈ call.writes, world.Alone worker owner) →
      world.Permits worker call)
    (leads : ∀ world response cache, pre world → call.Step world.cache response cache →
      post response { world.account worker call response with cache := cache }) :
    Ensures worker pre (performed timing worker (cacheCall call)) post := by
  rw [cacheCall, performed_sysCall]
  refine Triple.op stable fun before holds sound response after stepped => ?_
  obtain ⟨undisturbed, operated⟩ := stepped
  have kept : after.Sound := by
    refine sound.op operated fun other same => ?_
    cases same
    exact permits before holds undisturbed
  obtain ⟨cache, called, same⟩ := id operated
  refine ⟨kept, operated.guarantees, ?_⟩
  rw [same]
  exact leads before response cache holds called

/-- A read that sees no thread's scheduling state. -/
theorem ensures_read {operation : SysOp} (plain : operation.isCache = false)
    (unseen : operation.sight = none) {pre : SharedWorld ι → Prop}
    {post : SysSig.Res operation → SharedWorld ι → Prop} (stable : (contract worker).Stable pre)
    (leads : ∀ world response, pre world → world.Reads operation response →
      post response world) :
    Ensures worker pre (performed timing worker (sysCall operation)) post := by
  rw [performed_sysCall]
  refine Triple.op stable fun before holds sound response after stepped => ?_
  obtain ⟨reads, same⟩ := (op_iff_of_plain plain).mp stepped.2
  have unchanged : before.observe worker operation = before := by
    unfold observe
    rw [unseen]
  have kept : after.Sound := by
    rw [same]
    exact sound.observe worker operation
  refine ⟨kept, stepped.2.guarantees, ?_⟩
  rw [same, unchanged]
  exact leads before response holds reads

/-- A call that writes has its identity for owner. -/
theorem owner_of_writes {call : CacheCall} {owner : Identity} (writes : call.writes = some owner) :
    call.owner = some owner := by
  cases call <;> first | exact writes | cases writes

/-- A cache call for the identity keeps a worker at its task. -/
theorem Enters.account (enters : Enters worker identity world) {call : CacheCall}
    (own : call.owner = some identity) (response : call.Res) (cache : ThreadCache) :
    Enters worker identity { world.account worker call response with cache := cache } := by
  have works : Works worker identity { world with cache := cache } :=
    ⟨⟨enters.tid, enters.thread, enters.process⟩, ⟨enters.threadBegun, enters.processBegun⟩⟩
  have unchanged : Enters worker identity { world with cache := cache } :=
    ⟨works, enters.entered⟩
  cases call with
  | find owner observation =>
    cases own
    cases response with
    | none => exact unchanged
    | some entry =>
      exact ⟨⟨⟨works.tid, works.thread, works.process⟩, ⟨works.threadBegun, works.processBegun⟩⟩,
        Function.update_self _ _ _⟩
  | update owner observation record =>
    cases own
    exact ⟨⟨⟨works.tid, works.thread, works.process⟩, ⟨works.threadBegun, works.processBegun⟩⟩,
      Function.update_self _ _ _⟩
  | setBaseline _ _ | clearBaseline _ | updateAppliedResult _ _ | clearAppliedResult _
  | setManagedComponents _ _ | clearManagedComponents _ =>
    exact ⟨⟨⟨works.tid, works.thread, works.process⟩, ⟨works.threadBegun, works.processBegun⟩⟩,
      enters.entered⟩
  | _ => exact unchanged

/-- A serving operation keeps a worker at its task. -/
theorem Enters.op (enters : Enters worker identity world) {operation : SysOp}
    (serves : operation.Serves identity) {response : SysSig.Res operation}
    (stepped : world.Op worker operation response after) : Enters worker identity after := by
  cases found : operation.isCache with
  | false =>
    obtain ⟨-, same⟩ := (op_iff_of_plain found).mp stepped
    rw [same]
    refine ⟨enters.toWorks.observe serves.sees, ?_⟩
    have entered : (world.observe worker operation).entered = world.entered := by
      unfold observe
      split <;> rfl
    rw [entered]
    exact enters.entered
  | true =>
    cases operation with
    | cache call =>
      obtain ⟨cache, -, same⟩ := stepped
      rw [same]
      exact enters.account serves.isFor response cache
    | _ => cases found

omit [DecidableEq ι] in
/-- A worker may write what its task is to write, but for a baseline. -/
theorem Enters.permits (enters : Enters worker identity world) {call : CacheCall}
    (own : call.owner = some identity) (plain : (SysOp.cache call).recordsBaseline = false)
    (alone : ∀ owner ∈ call.writes, world.Alone worker owner) : world.Permits worker call where
  entered owner member := by
    have mine : some owner = some identity := (owner_of_writes member).symm.trans own
    rw [mine]
    exact enters.entered
  alone := alone
  captured owner baseline same := by
    rw [same] at plain
    cases plain

/-- A program that serves a task keeps its worker at it. -/
theorem ensures_serves {program : CallProgram α} (calls : program.Calls (CallOp.Serves identity)) :
    Ensures worker (Enters worker identity) (performed timing worker program)
      fun _ => Enters worker identity := by
  have operations : (program.interpret (expand timing)).Calls (SysOp.Serves identity) := by
    refine calls.interpret fun call serves => ?_
    cases call with
    | sys operation => exact (Program.calls_op _ _).mpr serves.1
    | setter call =>
      have own : call.thread = identity := serves
      rw [← own]
      exact (servesSetter_expand call).mono fun _ permitted => permitted.1
  refine Triple.of_calls (operations.byAgent worker) stable_enters ?_
  rintro ⟨agent, operation⟩ ⟨rfl, serves⟩ before enters sound response after ⟨undisturbed, stepped⟩
  refine ⟨sound.op stepped fun call same => ?_, stepped.guarantees, enters.op serves stepped⟩
  subst same
  exact enters.permits serves.isFor serves.plain undisturbed

/-! ## Checks -/

/-- The process of the identity was alive, and what was seen of its process was of that one. -/
structure SeesProcess (worker : ι) (identity : Identity) (world : SharedWorld ι) : Prop
    extends Tracks worker identity world where
  /-- The process was alive. -/
  processBegun : identity.sighting.process.Later (world.process identity.pid)
  /-- What was seen of it. -/
  same : ∀ sighting ∈ world.seen worker, sighting.thread.pid = identity.pid →
    sighting.process = identity.sighting.process

omit [DecidableEq ι] in
/-- What was seen of the process stays seen. -/
theorem stable_seesProcess : (contract worker).Stable (SeesProcess worker identity) := by
  intro before after sees relies
  refine ⟨stable_tracks sees.toTracks relies, sees.processBegun.trans (relies.process _), ?_⟩
  rw [relies.seen]
  exact sees.same

omit [DecidableEq ι] in
/-- The process is alive when its start time is read. -/
theorem Tracks.seesProcess (tracks : Tracks worker identity world)
    (lives : world.process identity.pid = identity.sighting.process) :
    SeesProcess worker identity world := by
  refine ⟨tracks, ?_, fun sighting member own => ?_⟩
  · rw [lives]
    exact .refl _
  · have between := tracks.process sighting member own
    rw [lives] at between
    exact between.1.between between.2

omit [DecidableEq ι] in
/-- The thread is alive when its start time is read, after that of its process. -/
theorem SeesProcess.certain (sees : SeesProcess worker identity world)
    (lives : world.thread identity.tid = identity.sighting.thread) :
    Works worker identity world ∧ Certain worker identity world := by
  refine ⟨⟨sees.toTracks, ⟨?_, sees.processBegun⟩⟩, fun sighting member => ?_⟩
  · rw [lives]
    exact .refl _
  · have between := sees.thread sighting member
    rw [lives] at between
    have thread : sighting.thread = identity.sighting.thread := between.1.between between.2
    have own : sighting.thread.pid = identity.pid := by
      rw [thread]
      rfl
    have process := sees.same sighting member own
    have tid := sees.tid sighting member
    obtain ⟨_, _, _⟩ := sighting
    cases thread
    cases process
    cases tid
    rfl

/-- Reading the start time of the process. -/
theorem ensures_processStartTime (real : identity.processStartTime ≠ 0) (use : ReadUse) :
    Ensures worker (Tracks worker identity)
      (performed timing worker (lift (getProcessStartTime use identity.pid)))
      fun found world => found = identity.processStartTime → SeesProcess worker identity world := by
  unfold getProcessStartTime
  split
  · refine ensures_read rfl rfl stable_tracks fun world found tracks reads same => ?_
    have lives : world.process identity.pid = ⟨found, true⟩ :=
      ReuseWorld.ReadsStart.slot_eq reads (same ▸ real)
    rw [same] at lives
    exact tracks.seesProcess lives
  · exact Triple.pure fun world _ same => absurd same.symm real

/-- Reading the start time of the thread. -/
theorem ensures_threadStartTime (real : identity.threadStartTime ≠ 0) (use : ReadUse) :
    Ensures worker (SeesProcess worker identity)
      (performed timing worker (lift (getThreadStartTime use identity.pid identity.tid)))
      fun found world => found = identity.threadStartTime →
        Works worker identity world ∧ Certain worker identity world := by
  unfold getThreadStartTime
  split
  · refine ensures_read rfl rfl stable_seesProcess fun world found sees reads same => ?_
    have lives : world.thread identity.tid = ⟨identity.pid, ⟨found, true⟩⟩ :=
      reads.resolve_left (same ▸ real)
    rw [same] at lives
    exact sees.certain lives
  · exact Triple.pure fun world _ same => absurd same.symm real

/-- Reading the membership changes nothing. -/
theorem ensures_isThreadInProcess {pre : SharedWorld ι → Prop}
    (stable : (contract worker).Stable pre) (use : ReadUse) (pid tid : Int) :
    Ensures worker pre (performed timing worker (lift (isThreadInProcess use pid tid)))
      fun _ => pre := by
  unfold isThreadInProcess
  split
  · exact ensures_read rfl rfl stable fun world found holds _ => holds
  · exact Triple.pure fun world holds => holds

/-- When a check of the identity succeeds, everything seen is of the identity, which was alive. -/
theorem ensures_check (process : identity.processStartTime ≠ 0)
    (thread : identity.threadStartTime ≠ 0) (use : ReadUse) :
    Ensures worker (Tracks worker identity)
      (performed timing worker (lift (identityMatches use identity)))
      fun ok world => ok = true → Works worker identity world ∧ Certain worker identity world := by
  have stable : (contract worker).Stable fun world : SharedWorld ι =>
      Works worker identity world ∧ Certain worker identity world :=
    stable_works.and stable_certain
  rw [Environment.lift_identityMatches, performed_bind]
  refine Triple.bind (ensures_processStartTime process use) fun started => ?_
  rw [performed_ite]
  refine Triple.ite (fun same => ?_) fun _ => Triple.pure fun _ _ other => Bool.noConfusion other
  rw [performed_bind]
  refine Triple.bind ((ensures_threadStartTime thread use).weaken
    (fun world holds => holds same) fun _ _ holds => holds) fun began => ?_
  rw [performed_ite]
  refine Triple.ite (fun same => ?_) fun _ => Triple.pure fun _ _ other => Bool.noConfusion other
  exact (ensures_isThreadInProcess stable use _ _).weaken (fun world holds => holds same)
    fun _ _ holds _ => holds

/-! ## Tasks -/

omit [DecidableEq ι] in
/-- A call that writes nothing is permitted. -/
theorem permits_of_writes {call : CacheCall} (calm : call.writes = none) :
    world.Permits worker call where
  entered owner member := by
    rw [calm] at member
    cases member
  alone owner member := by
    rw [calm] at member
    cases member
  captured owner baseline same := by
    rw [same] at calm
    cases calm

section Task

variable {task : DispatchTask} {sched : SchedConfig}
  (process : task.identity.processStartTime ≠ 0) (thread : task.identity.threadStartTime ≠ 0)

include process thread

/-- Capturing a baseline: what is recorded was read of the identity. -/
theorem ensures_capture :
    Ensures worker (Enters worker task.identity)
      (performed timing worker (captureBaselineIfNeeded task))
      fun _ => Enters worker task.identity := by
  unfold captureBaselineIfNeeded
  rw [performed_bind]
  refine Triple.bind (ensures_serves (serves_readBaseline task)) fun baseline => ?_
  rw [performed_bind]
  have keeps : Ensures worker (Enters worker task.identity)
      (performed timing worker (isCurrentTaskIdentity .skip task))
      fun _ => Enters worker task.identity := ensures_serves (serves_isCurrentTaskIdentity task)
  have checks := Triple.and keeps (ensures_check process thread .skip)
  refine Triple.bind (checks.weaken (fun world enters => ⟨enters, enters.toTracks⟩)
    fun _ _ holds => holds) fun ok => ?_
  rw [performed_ite]
  refine Triple.ite (fun success => ?_) fun _ => Triple.pure fun world holds => holds.1
  have recorded : Ensures worker
      (fun world => Enters worker task.identity world ∧ Certain worker task.identity world)
      (performed timing worker (cacheCall (.setBaseline task.identity baseline)))
      fun _ => Enters worker task.identity := by
    refine ensures_cacheCall (stable_enters.and stable_certain) ?_ ?_
    · intro world holds alone
      refine ⟨fun owner member => ?_, alone, fun owner added same => ?_⟩
      · cases member
        exact holds.1.entered
      · cases same
        exact holds.2
    · intro world response cache holds _
      exact holds.1.account rfl response cache
  exact recorded.weaken (fun world holds => ⟨holds.1, (holds.2 success).2⟩) fun _ _ holds => holds

/-- Applying a result. -/
theorem ensures_callApplyResult (result : MatchResult) :
    Ensures worker (Enters worker task.identity)
      (performed timing worker (callApplyResult sched task result)) fun _ _ => True := by
  have applies : Ensures worker (Enters worker task.identity)
      (performed timing worker (applyResult sched task result)) fun _ _ => True := by
    unfold applyResult
    rw [performed_ite]
    refine Triple.ite (fun _ => ?_) fun _ =>
      (ensures_serves (serves_restoreBaseline task)).weaken (fun _ holds => holds)
        fun _ _ _ => trivial
    rw [performed_bind]
    refine Triple.bind (ensures_capture process thread) fun _ => ?_
    rw [performed_bind]
    refine Triple.bind (ensures_serves (serves_cacheCall rfl rfl)) fun found => ?_
    cases found with
    | none => exact Triple.pure fun _ _ => trivial
    | some baseline =>
      rw [performed_ite]
      refine Triple.ite (fun _ => ?_) fun _ => Triple.pure fun _ _ => trivial
      exact (ensures_serves (serves_applyManaged sched task result baseline)).weaken
        (fun _ holds => holds) fun _ _ _ => trivial
  unfold callApplyResult
  rw [performed_bind]
  exact Triple.bind applies fun _ => Triple.pure fun _ _ => trivial

/-- Processing a task whose cached result is still for it. -/
theorem ensures_processCached (entry : ThreadCacheEntry) :
    Ensures worker (Enters worker task.identity)
      (performed timing worker (processCached sched task entry)) fun _ _ => True := by
  have applies : ∀ result, Ensures worker (Enters worker task.identity)
      (performed timing worker (callApplyResult sched task result)) fun _ _ => True :=
    ensures_callApplyResult process thread
  unfold processCached
  rw [performed_bind]
  refine Triple.bind (ensures_serves (serves_cacheCall rfl rfl)) fun found => ?_
  cases found with
  | none => exact applies entry.result
  | some applied =>
    rw [performed_ite]
    refine Triple.ite (fun _ => ?_) fun _ => applies entry.result
    rw [performed_ite]
    refine Triple.ite (fun _ => ?_) fun _ => Triple.pure fun _ _ => trivial
    rw [performed_bind]
    refine Triple.bind (ensures_serves (serves_hasDrifted sched task applied)) fun drifted => ?_
    rw [performed_ite]
    exact Triple.ite (fun _ => applies entry.result) fun _ => Triple.pure fun _ _ => trivial

/-- Processing a task that needs a new result. -/
theorem ensures_processUncached :
    Ensures worker (Works worker task.identity)
      (performed timing worker (processUncached sched task)) fun _ _ => True := by
  unfold processUncached
  rw [performed_bind]
  refine Triple.bind (ensures_read rfl rfl stable_works fun _ _ works _ => works) fun result => ?_
  rw [performed_bind]
  refine Triple.bind (ensures_cacheCall stable_works (fun _ _ _ => permits_of_writes rfl)
    fun world response cache works _ => ?_) fun _ => ensures_callApplyResult process thread result
  exact ⟨⟨⟨works.tid, works.thread, works.process⟩, ⟨works.threadBegun, works.processBegun⟩⟩,
    Function.update_self _ _ _⟩

omit process thread in
/-- Looking for the entry of the task. -/
theorem ensures_find : Ensures worker (Works worker task.identity)
    (performed timing worker (cacheCall (.find task.identity task.observation)))
    fun found world => Works worker task.identity world ∧
      (found ≠ none → Enters worker task.identity world) := by
  refine ensures_cacheCall stable_works (fun _ _ _ => permits_of_writes rfl)
    fun world response cache works _ => ?_
  have moved : ∀ {after : SharedWorld ι}, after.seen = world.seen → after.thread = world.thread →
      after.process = world.process → Works worker task.identity after := by
    intro after seen thread process
    obtain ⟨⟨tid, threads, processes⟩, ⟨begun, started⟩⟩ := works
    rw [← seen] at tid threads processes
    rw [← thread] at threads begun
    rw [← process] at processes started
    exact ⟨⟨tid, threads, processes⟩, ⟨begun, started⟩⟩
  cases response with
  | none => exact ⟨moved rfl rfl rfl, fun some => absurd rfl some⟩
  | some entry =>
    exact ⟨moved rfl rfl rfl, fun _ => ⟨moved rfl rfl rfl, Function.update_self _ _ _⟩⟩

/-- Processing a task. -/
theorem ensures_processDispatchTask :
    Ensures worker (Tracks worker task.identity)
      (performed timing worker (processDispatchTask sched task)) fun _ _ => True := by
  unfold processDispatchTask orDiscard
  rw [performed_bind]
  refine Triple.bind (ensures_check process thread .discard) fun ok => ?_
  rw [performed_ite]
  refine Triple.ite (fun success => ?_) fun _ => ?_
  · have goes : Ensures worker (Works worker task.identity)
        (performed timing worker (do
          if ← sysCall (.shouldSkipSchedule task) then pure .throttled
          else processFresh sched task)) fun _ _ => True := by
      rw [performed_bind]
      refine Triple.bind (ensures_read rfl rfl stable_works fun _ _ works _ => works)
        fun skipped => ?_
      rw [performed_ite]
      refine Triple.ite (fun _ => Triple.pure fun _ _ => trivial) fun _ => ?_
      unfold processFresh
      rw [performed_bind]
      refine Triple.bind (ensures_find) fun found => ?_
      cases found with
      | none =>
        exact (ensures_processUncached process thread).weaken (fun _ holds => holds.1)
          fun _ _ holds => holds
      | some entry =>
        exact (ensures_processCached process thread entry).weaken
          (fun _ holds => holds.2 (by simp)) fun _ _ holds => holds
    exact goes.weaken (fun _ holds => (holds success).1) fun _ _ holds => holds
  · rw [performed_bind]
    have erases : Ensures worker (fun _ => True)
        (performed timing worker (cacheCall (.eraseThreadIfIdentity task.identity)))
        fun _ _ => True :=
      ensures_cacheCall (Contract.Stable.const True) (fun _ _ _ => permits_of_writes rfl)
        fun _ _ _ _ _ => trivial
    exact Triple.bind (erases.weaken (fun _ _ => trivial) fun _ _ holds => holds)
      fun _ => Triple.pure fun _ _ => trivial

end Task

/-! ## Runs -/

/-- The first state: nothing is cached. -/
def initial (process : Int → Slot) (thread : Int → ThreadHolder) : SharedWorld ι where
  process := process
  thread := thread

omit [DecidableEq ι] in
/-- What moves keeps the world sound and within every worker's rely. -/
theorem Sound.moves (sound : world.Sound) (moves : world.Moves after) :
    after.Sound ∧ ∀ worker, Relies worker world after := by
  have same := moves.same
  refine ⟨?_, fun worker => ⟨moves.process, moves.thread, ?_, ?_⟩⟩
  · rw [same]
    exact ⟨sound.keyed, sound.own, sound.booked⟩
  · rw [same]
  · rw [same]

/-- Beginning a task keeps the world sound and within the others' relies. -/
theorem Sound.begin (sound : world.Sound) (worker : ι) :
    (world.begin worker).Sound ∧ ∀ other, other ≠ worker →
      Relies other world (world.begin worker) := by
  refine ⟨⟨sound.keyed, ?_, sound.booked⟩, fun other differ =>
    ⟨fun _ => .refl _, fun _ => .refl _, Function.update_of_ne differ _ _,
      Function.update_of_ne differ _ _⟩⟩
  intro other owner entry entered alone looked
  by_cases here : other = worker
  · subst here
    simp [SharedWorld.begin] at entered
  · have before : world.entered other = some owner := by
      simpa [SharedWorld.begin, Function.update_of_ne here] using entered
    have lonely : world.Alone other owner := by
      intro updated member
      exact alone updated (by simpa [SharedWorld.begin, Function.update_of_ne here] using member)
    exact sound.own before lonely looked

/-- The obligations of the workers fit together. -/
theorem discharged : (system (ι := ι) Undisturbed).Discharged Sound contract where
  environment sound moves := sound.moves moves
  start {worker} {world} {program} {after} sound started := by
    obtain ⟨sched, timing, task, process, thread, rfl, rfl⟩ := started
    obtain ⟨kept, relied⟩ := sound.begin worker
    have unseen : (world.begin worker).seen worker = [] := Function.update_self _ _ _
    have tracks : Tracks worker task.identity (world.begin worker) := by
      constructor <;> simp [unseen]
    have safe : Ensures worker (Tracks worker task.identity)
        (taskProgram sched timing worker task) fun _ _ => True := by
      rw [taskProgram, performed_bind]
      exact Triple.bind (ensures_processDispatchTask process thread)
        fun _ => Triple.pure fun _ _ => trivial
    exact ⟨kept, relied, safe _ tracks⟩
  share {worker other world after} differ _ _ guarantees := guarantees.relies differ

omit [DecidableEq ι] in
/-- The first state is sound. -/
theorem sound_initial (process : Int → Slot) (thread : Int → ThreadHolder) :
    (initial process thread : SharedWorld ι).Sound where
  keyed := ThreadCache.keyed_empty
  own entered := by simp [initial] at entered
  booked key entry stored := by simp [initial] at stored

/-- In every run in which writes come while their tasks are alone, every entry's parts come from its
identity. -/
theorem booked_of_reaches {process : Int → Slot} {thread : Int → ThreadHolder}
    {pool : Pool (SysSig.byAgents ι) (SharedWorld ι) ι}
    (reached : (system Undisturbed).Reaches (Pool.idle (initial process thread)) pool) :
    pool.state.Booked :=
  (discharged.reachable_safe (PoolSystem.PoolSafe.idle (sound_initial process thread))
    reached).1.booked

/-! ## Examples of runs -/

/-- What the operations of the examples answer: every read of a thread or process that lives is
right, and every call succeeds. -/
def answer (world : SharedWorld Bool) : (operation : SysOp) → Option (SysSig.Res operation)
  | .processStartTime _ pid =>
    some (if (world.process pid).alive then (world.process pid).start else 0)
  | .threadStartTime _ pid tid =>
    some (if (world.thread tid).pid = pid ∧ (world.thread tid).slot.alive = true
      then (world.thread tid).slot.start else 0)
  | .threadInProcess _ pid tid =>
    some (decide ((world.thread tid).pid = pid ∧ (world.thread tid).slot.alive = true))
  | .shouldSkipSchedule _ => some false
  | .matchThread task => some
    { matched := true
      enableLimit := true
      effectiveState := task.state
      matchedRuleName := Bytes.ascii "rule"
      threadRuleIndex := 0 }
  | .schedGetaffinity _ | .schedGetparam _ | .getpriority _ => some none
  | .statusAffinity _ => some [0]
  | .schedGetscheduler _ => some (-1)
  | .threadCgroupPaths _ _ => some { cpuctl := Bytes.ascii "/apps", readable := true }
  | .dirExists _ | .attempt _ _ => some true
  | _ => none

/-- A worker performs one operation. -/
def playOp (world : SharedWorld Bool) (worker : Bool) :
    (operation : SysOp) → Option (SysSig.Res operation × SharedWorld Bool)
  | .cache call => some ((call.run world.cache).1,
    { world.account worker call (call.run world.cache).1 with
      cache := (call.run world.cache).2 })
  | operation => (world.answer operation).map fun response =>
    (response, world.observe worker operation)

/-- One operation of the examples. It is performed only by a worker beside which nobody has entered
an identity, if that is asked for. -/
def play (careful : Bool) (world : SharedWorld Bool) (operation : Bool × SysOp) :
    Option (SysSig.Res operation.2 × SharedWorld Bool) :=
  if careful && !(world.updated operation.1).isEmpty then none
  else world.playOp operation.1 operation.2

/-- What the examples answer may be answered. -/
theorem reads_of_answer {world : SharedWorld Bool} {operation : SysOp}
    {response : SysSig.Res operation} (answered : world.answer operation = some response) :
    world.Reads operation response := by
  cases operation with
  | processStartTime use pid =>
    cases answered
    dsimp only [Reads]
    split
    · rename_i alive
      exact .inr ⟨alive, rfl⟩
    · exact .inl rfl
  | threadStartTime use pid tid =>
    cases answered
    dsimp only [Reads]
    split
    · rename_i lives
      obtain ⟨own, alive⟩ := lives
      right
      rw [← own]
      have slot := Slot.eq_of_alive alive
      rw [← slot]
    · exact .inl rfl
  | threadInProcess use pid tid =>
    cases answered
    exact fun lives => of_decide_eq_true lives
  | _ => trivial

/-- What a worker performs is an operation. -/
theorem op_of_playOp {world after : SharedWorld Bool} {worker : Bool} {operation : SysOp}
    {response : SysSig.Res operation}
    (played : world.playOp worker operation = some (response, after)) :
    world.Op worker operation response after := by
  cases kind : operation.isCache with
  | false =>
    have mapped : world.playOp worker operation = (world.answer operation).map fun response =>
        (response, world.observe worker operation) := by
      cases operation with
      | cache call => cases kind
      | _ => rfl
    rw [mapped] at played
    obtain ⟨answered, found, same⟩ := Option.map_eq_some_iff.mp played
    cases same
    exact (op_iff_of_plain kind).mpr ⟨reads_of_answer found, rfl⟩
  | true =>
    cases operation with
    | cache call =>
      cases played
      exact ⟨_, CacheCall.step_run call world.cache, rfl⟩
    | _ => cases kind

/-- Writes come while their tasks are alone, if that is asked for. -/
def carefully (careful : Bool) (world : SharedWorld Bool) (worker : Bool) (operation : SysOp) :
    Prop := careful = true → world.Undisturbed worker operation

/-- A played operation is one of the system. -/
theorem step_of_play {careful : Bool} {world after : SharedWorld Bool}
    {operation : Bool × SysOp} {response : SysSig.Res operation.2}
    (played : play careful world operation = some (response, after)) :
    (system (carefully careful)).machine.step world operation response after := by
  unfold play at played
  split at played
  · cases played
  rename_i guard
  refine ⟨fun asked => ?_, op_of_playOp played⟩
  subst asked
  have none : world.updated operation.1 = [] := by simpa using guard
  obtain ⟨worker, operation⟩ := operation
  cases operation with
  | cache call =>
    intro owner _ other member
    rw [none] at member
    cases member
  | _ => trivial

/-- A thread. -/
def firstOwner : Identity := ⟨10, 11, 5, 6⟩

/-- A later thread with its IDs. -/
def nextOwner : Identity := ⟨10, 11, 7, 8⟩

/-- A task for an identity. -/
def taskFor (identity : Identity) : DispatchTask where
  identity := identity
  threadName := Bytes.ascii "thread"
  state := .bg
  cpusetBase := Main.kCpusetBase
  procName := Bytes.ascii "app"
  cmdline := Bytes.ascii "app"

/-- An idle worker begins a task. -/
def beginTask (pool : Pool (SysSig.byAgents Bool) (SharedWorld Bool) Bool) (worker : Bool)
    (identity : Identity) : Pool (SysSig.byAgents Bool) (SharedWorld Bool) Bool :=
  ⟨pool.state.begin worker,
    Function.update pool.control worker (taskProgram {} {} worker (taskFor identity))⟩

/-- A worker performs some operations. -/
def goOn (careful : Bool) (count : Nat) (worker : Bool)
    (pool : Pool (SysSig.byAgents Bool) (SharedWorld Bool) Bool) :
    Pool (SysSig.byAgents Bool) (SharedWorld Bool) Bool :=
  ⟨((pool.control worker).drive (play careful) count pool.state).2,
    Function.update pool.control worker
      ((pool.control worker).drive (play careful) count pool.state).1⟩

/-- Every ID is given to the next process or thread. -/
def reuse (pool : Pool (SysSig.byAgents Bool) (SharedWorld Bool) Bool) :
    Pool (SysSig.byAgents Bool) (SharedWorld Bool) Bool :=
  ⟨{ pool.state with
      process := fun pid => ⟨(pool.state.process pid).start + 2, true⟩
      thread := fun tid =>
        ⟨(pool.state.thread tid).pid, ⟨(pool.state.thread tid).slot.start + 2, true⟩⟩ },
    pool.control⟩

/-- The first thread lives, and nothing is cached. -/
def start : Pool (SysSig.byAgents Bool) (SharedWorld Bool) Bool :=
  Pool.idle (initial (fun _ => ⟨5, true⟩) fun _ => ⟨10, ⟨6, true⟩⟩)

/-- A run of two tasks: the first one up to a point, then the second one up to a point, and then the
first one again. -/
def twoTasks (careful : Bool) (first second third : Nat) :
    Pool (SysSig.byAgents Bool) (SharedWorld Bool) Bool :=
  goOn careful third false (goOn careful second true
    (beginTask (reuse (goOn careful first false (beginTask start false firstOwner))) true
      nextOwner))

/-- What a worker performs is a run of the system. -/
theorem reaches_goOn (careful : Bool) (count : Nat) (worker : Bool)
    (pool : Pool (SysSig.byAgents Bool) (SharedWorld Bool) Bool) :
    (system (carefully careful)).Reaches pool (goOn careful count worker pool) :=
  PoolSystem.reaches_drive step_of_play worker count pool

/-- An idle worker may begin a task. -/
theorem reaches_beginTask (careful : Bool)
    {pool : Pool (SysSig.byAgents Bool) (SharedWorld Bool) Bool} {worker : Bool}
    {identity : Identity} (idle : pool.control worker = .ret ())
    (process : identity.processStartTime ≠ 0) (thread : identity.threadStartTime ≠ 0) :
    (system (carefully careful)).Reaches pool (beginTask pool worker identity) :=
  .single (.start idle ⟨{}, {}, taskFor identity, process, thread, rfl, rfl⟩)

/-- The IDs may be reused. -/
theorem reaches_reuse (careful : Bool)
    (pool : Pool (SysSig.byAgents Bool) (SharedWorld Bool) Bool) :
    (system (carefully careful)).Reaches pool (reuse pool) := by
  refine .single (.environment ⟨fun pid => .inl ?_, fun tid => .inl ?_, rfl⟩)
  · exact Nat.lt_add_of_pos_right (by decide)
  · exact Nat.lt_add_of_pos_right (by decide)

/-- Such a run is one of the system. -/
theorem reaches_twoTasks (careful : Bool) (first second third : Nat) :
    (system (carefully careful)).Reaches start (twoTasks careful first second third) := by
  have begun : (system (carefully careful)).Reaches start (beginTask start false firstOwner) :=
    reaches_beginTask careful rfl (by decide) (by decide)
  have went := begun.trans (reaches_goOn careful first false _)
  have moved := went.trans (reaches_reuse careful _)
  have next : (system (carefully careful)).Reaches start (beginTask
      (reuse (goOn careful first false (beginTask start false firstOwner))) true nextOwner) :=
    moved.trans (reaches_beginTask careful rfl (by decide) (by decide))
  exact (next.trans (reaches_goOn careful second true _)).trans
    (reaches_goOn careful third false _)

/-- Two tasks one after the other leave an entry that belongs to the second thread. -/
theorem booked_of_reaches_inTurn :
    (twoTasks true 40 40 0).state.Booked ∧
      ((twoTasks true 40 40 0).state.cache.lookup firstOwner.key).map (fun entry =>
        (entry.identity, entry.baseline.isSome)) = some (nextOwner, true) := by
  have allowed : carefully true = Undisturbed := by
    funext world worker operation
    exact propext ⟨fun holds => holds rfl, fun holds _ => holds⟩
  have reached := reaches_twoTasks true 40 40 0
  rw [allowed] at reached
  exact ⟨booked_of_reaches reached, by decide +kernel⟩

/-- The second task enters its identity between the last check of the first task and the record of
its baseline: the entry of the second thread has the baseline of the first. -/
theorem not_booked_interleaved :
    (system fun _ _ _ => True).Reaches start (twoTasks false 14 7 1) ∧
      ¬ (twoTasks false 14 7 1).state.Booked := by
  constructor
  · have allowed : carefully false = fun _ _ _ => True := by
      funext world worker operation
      exact propext ⟨fun _ => trivial, fun _ other => Bool.noConfusion other⟩
    have reached := reaches_twoTasks false 14 7 1
    rwa [allowed] at reached
  · intro booked
    have stored : ((twoTasks false 14 7 1).state.cache.lookup firstOwner.key).map (·.identity) =
        some nextOwner := by decide +kernel
    obtain ⟨entry, found, same⟩ := Option.map_eq_some_iff.mp stored
    have belongs := booked firstOwner.key entry found
    rw [same] at belongs
    have captured : firstOwner.sighting ∈
        ((twoTasks false 14 7 1).state.provenance firstOwner.key).captures := by decide +kernel
    have equal := belongs.captures firstOwner.sighting captured
    exact absurd equal (by decide)

end SharedWorld

end ReUperf
