import ReUperf.Lib.Service
import ReUperf.System.FileAccess

/-!
# The cache of files

The cache is a table, a linked list in the order of the last uses, and a table with the position of
each path in that list. The module shows that it means a list of entries in the order of their last
uses, whatever sections threads run under its mutex, and that no thread ever gets a content that is
older than the time it may be cached for.
-/

namespace ReUperf

open Effect FileAccess

/-! ## The meaning of the cache -/

/-- The meaning of a section. -/
def CacheSection.mean (lru : Lru Bytes FileCacheEntry) : CacheSection → Lru Bytes FileCacheEntry
  | .find path ttlMs now =>
    match (lru.lookup path).filter fun entry => decide (ageMs now entry.timestamp < ttlMs) with
    | some entry => lru.use path entry
    | none => lru
  | .store path content now => lru.store kMaxCacheSize path ⟨content, now⟩
  | .invalidate path => lru.forget path

/-- The paths a section uses. -/
def CacheSection.used (cache : FileCache) : CacheSection → List Bytes
  | .find path ttlMs now => if (cache.young ttlMs now path).isSome then [path] else []
  | .store path _ _ => [path]
  | .invalidate _ => []

/-- Whether a section drops a path. -/
def CacheSection.invalidates : CacheSection → Bool
  | .invalidate _ => true
  | .find _ _ _ | .store _ _ _ => false

namespace FileCache

/-- The cache after some sections. -/
def afterAll (sections : List CacheSection) (cache : FileCache) : FileCache :=
  sections.foldl CacheSection.run cache

/-- The paths used by some sections, in order. -/
def usesOf : (sections : List CacheSection) → (cache : FileCache) → List Bytes
  | [], _ => []
  | current :: sections, cache =>
    current.used cache ++ usesOf sections (current.run cache)

/-- The cache holds the entries of a list. -/
structure Represents (cache : FileCache) (lru : Lru Bytes FileCacheEntry) : Prop where
  /-- No position is of a path that is gone. -/
  linked : cache.recent.Linked
  /-- The paths come in the order of the list. -/
  keys : cache.recent.keys = lru.map Prod.fst
  /-- The table has the entries. -/
  stored : ∀ path entry, cache.fileCache.lookup path = some entry ↔ (path, entry) ∈ lru

variable {cache : FileCache} {lru : Lru Bytes FileCacheEntry} {path : Bytes}

/-- The paths are distinct. -/
theorem Represents.distinct (represents : cache.Represents lru) : (lru.map Prod.fst).Nodup := by
  rw [← represents.keys]
  exact represents.linked.nodup_keys

/-- A path is in the table when it is in the list. -/
theorem Represents.mem_iff (represents : cache.Represents lru) :
    path ∈ cache.fileCache ↔ path ∈ lru.map Prod.fst := by
  rw [← AList.lookup_isSome, Option.isSome_iff_exists]
  constructor
  · intro ⟨entry, found⟩
    exact List.mem_map.mpr ⟨_, (represents.stored path entry).mp found, rfl⟩
  · intro member
    obtain ⟨entry, listed, rfl⟩ := List.mem_map.mp member
    exact ⟨entry.2, (represents.stored entry.1 entry.2).mpr listed⟩

/-- The table and the list have the same value under a path. -/
theorem Represents.lookup_eq (represents : cache.Represents lru) :
    cache.fileCache.lookup path = lru.lookup path := by
  ext entry
  rw [represents.stored, Lru.lookup_eq_some represents.distinct]

/-- The table is as large as the list. -/
theorem Represents.length_eq (represents : cache.Represents lru) :
    cache.fileCache.entries.length = lru.length := by
  have same : cache.fileCache.keys.Perm (lru.map Prod.fst) := by
    refine (List.perm_ext_iff_of_nodup cache.fileCache.keys_nodup represents.distinct).mpr ?_
    intro path
    rw [← AList.mem_keys, represents.mem_iff]
  have lengths := same.length_eq
  rw [List.length_map] at lengths
  rw [← lengths]
  exact (List.length_map _).symm

/-- An empty cache holds nothing. -/
theorem represents_empty : Represents {} [] where
  linked := IndexedList.linked_empty
  keys := rfl
  stored := by simp

/-! ## One section -/

/-- Dropping a path. -/
theorem Represents.erase (represents : cache.Represents lru) :
    (cache.eraseFileCacheEntry path).Represents (lru.forget path) where
  linked := represents.linked.forget
  keys := by
    rw [Lru.keys_forget represents.distinct, ← represents.keys]
    exact represents.linked.keys_forget
  stored other entry := by
    rw [Lru.mem_forget, ← represents.stored, eraseFileCacheEntry]
    by_cases same : other = path
    · rw [same, AList.lookup_erase]
      simp
    · rw [AList.lookup_erase_ne same]
      simp [same]

/-- Using a path, whose entry is new or the one it has. -/
theorem Represents.use {entry : FileCacheEntry} (represents : cache.Represents lru) :
    Represents { cache with
      fileCache := cache.fileCache.insert path entry, recent := cache.recent.touch path }
      (lru.use path entry) where
  linked := represents.linked.touch
  keys := by
    rw [Lru.keys_use represents.distinct, ← represents.keys]
    exact represents.linked.keys_touch
  stored other found := by
    rw [Lru.mem_use, ← represents.stored]
    by_cases same : other = path
    · rw [same, AList.lookup_insert]
      simp [eq_comm]
    · rw [AList.lookup_insert_ne same]
      simp [same]

/-- Touching a path that is there. -/
theorem Represents.touch {entry : FileCacheEntry} (represents : cache.Represents lru)
    (found : cache.fileCache.lookup path = some entry) :
    (cache.touchFileCacheEntry path).Represents (lru.use path entry) where
  linked := represents.linked.touch
  keys := represents.use.keys
  stored other value := by
    rw [Lru.mem_use, ← represents.stored, touchFileCacheEntry]
    by_cases same : other = path
    · rw [same, found]
      simp [eq_comm]
    · simp [same]

/-- Making room for a path. -/
theorem Represents.makeRoom (represents : cache.Represents lru) :
    (cache.makeRoom path).Represents (lru.room kMaxCacheSize path) := by
  have absent : ((!(cache.fileCache.lookup path).isSome) = true ∧
      kMaxCacheSize ≤ cache.fileCache.entries.length) ↔
        (path ∉ lru.map Prod.fst ∧ kMaxCacheSize ≤ lru.length) := by
    rw [← represents.mem_iff, represents.length_eq, ← AList.lookup_isSome]
    simp
  rw [FileCache.makeRoom, Lru.room]
  split
  · next full =>
    rw [if_pos (absent.mp full), represents.keys]
    cases lru with
    | nil => exact represents
    | cons oldest rest =>
      have erased : (cache.eraseFileCacheEntry oldest.1).Represents
          (Lru.forget oldest.1 (oldest :: rest)) := represents.erase
      rwa [Lru.forget_head represents.distinct] at erased
  · next room =>
    rw [if_neg (fun full => room (absent.mpr full))]
    exact represents

/-- Storing a content. -/
theorem Represents.store {content : Bytes} {now : Int} (represents : cache.Represents lru) :
    (cache.store path content now).Represents (lru.store kMaxCacheSize path ⟨content, now⟩) :=
  represents.makeRoom.use

/-- A section does to the cache what it means. -/
theorem Represents.run (represents : cache.Represents lru) (current : CacheSection) :
    (current.run cache).Represents (current.mean lru) := by
  cases current with
  | find path ttlMs now =>
    rw [CacheSection.run, CacheSection.mean, young, represents.lookup_eq]
    cases found : (lru.lookup path).filter fun entry =>
        decide (ageMs now entry.timestamp < ttlMs) with
    | none => exact represents
    | some entry =>
      have listed := (Option.filter_eq_some_iff.mp found).1
      rw [← represents.lookup_eq] at listed
      exact represents.touch listed
  | store path content now => exact represents.store
  | invalidate path => exact represents.erase

/-! ## Runs of sections -/

/-- What holds between two sections: the cache means a list of bounded size whose paths come in the
order of their last uses, and while no path is dropped they are the ones used most recently. -/
structure Kept (uses : List Bytes) (dropped : Bool) (cache : FileCache)
    (lru : Lru Bytes FileCacheEntry) : Prop where
  /-- The cache means the list. -/
  represents : cache.Represents lru
  /-- The size is bounded. -/
  bounded : lru.length ≤ kMaxCacheSize
  /-- The order is that of the last uses. -/
  recent : Lru.Recent uses lru
  /-- The paths are those used most recently. -/
  most : dropped = false → Lru.MostRecent kMaxCacheSize uses lru

variable {uses : List Bytes} {dropped : Bool}

/-- A section keeps it. -/
theorem Kept.run (kept : Kept uses dropped cache lru) (current : CacheSection) :
    Kept (uses ++ current.used cache) (dropped || current.invalidates) (current.run cache)
      (current.mean lru) := by
  obtain ⟨represents, bounded, recent, most⟩ := kept
  have distinct := represents.distinct
  have next := represents.run current
  cases current with
  | find path ttlMs now =>
    have same : cache.young ttlMs now path = (lru.lookup path).filter fun entry =>
        decide (ageMs now entry.timestamp < ttlMs) := by
      rw [young, represents.lookup_eq]
    rw [CacheSection.mean] at next ⊢
    rw [CacheSection.used, same, CacheSection.invalidates, Bool.or_false]
    cases found : (lru.lookup path).filter fun entry =>
        decide (ageMs now entry.timestamp < ttlMs) with
    | none =>
      rw [found] at next
      refine ⟨next, bounded, ?_, fun kept => ?_⟩
      · simpa using recent
      · simpa using most kept
    | some entry =>
      rw [found] at next
      have listed := (Option.filter_eq_some_iff.mp found).1
      have member := (Lru.lookup_eq_some distinct).mp listed
      have stored : path ∈ lru.map Prod.fst := List.mem_map.mpr ⟨_, member, rfl⟩
      refine ⟨next, ?_, recent.use distinct, fun kept => (most kept).use distinct stored⟩
      rw [Lru.length_use distinct, if_pos stored]
      exact bounded
  | store path content now =>
    have positive : 0 < kMaxCacheSize := by decide
    refine ⟨next, Lru.length_store positive distinct bounded, recent.store distinct, fun kept => ?_⟩
    rw [CacheSection.invalidates, Bool.or_false] at kept
    exact (most kept).store distinct positive bounded
  | invalidate path =>
    refine ⟨next, ?_, ?_, fun kept => ?_⟩
    · exact (List.length_filter_le _ _).trans bounded
    · rw [CacheSection.used, List.append_nil]
      exact recent.forget
    · rw [CacheSection.invalidates, Bool.or_true] at kept
      cases kept

/-- So do several. -/
theorem Kept.runAll (kept : Kept uses dropped cache lru) (sections : List CacheSection) :
    Kept (uses ++ usesOf sections cache) (dropped || sections.any (·.invalidates))
      (afterAll sections cache) (sections.foldl CacheSection.mean lru) := by
  induction sections generalizing uses dropped cache lru with
  | nil => simpa [usesOf, afterAll] using kept
  | cons current sections ih =>
    have rest := ih (kept.run current)
    rw [List.append_assoc, Bool.or_assoc] at rest
    exact rest

/-- An empty cache is one to begin with. -/
theorem kept_empty : Kept [] false {} [] where
  represents := represents_empty
  bounded := Nat.zero_le _
  recent := List.Sublist.refl _
  most _ := ⟨[], rfl, .inl rfl⟩

/-- Whatever sections threads run, the cache is a list of at most a thousand entries in the order of
their last uses, and no position of a path that is gone is ever used. The table and the list have the
same paths, a lookup finds what the list has, and while no path is dropped the paths are those used
most recently. -/
theorem run_lru (sections : List CacheSection) :
    (afterAll sections {}).recent.dangled = false ∧
    (afterAll sections {}).recent.keys.length ≤ 1000 ∧
    (∀ path, path ∈ (afterAll sections {}).fileCache ↔
      path ∈ (afterAll sections {}).recent.keys) ∧
    (∀ path, (afterAll sections {}).fileCache.lookup path =
      Lru.lookup path (sections.foldl CacheSection.mean [])) ∧
    (afterAll sections {}).recent.keys.Sublist (usesOf sections {}).dedup ∧
    (sections.any (·.invalidates) = false → ∃ older,
      (usesOf sections {}).dedup = older ++ (afterAll sections {}).recent.keys ∧
        (older = [] ∨ (afterAll sections {}).recent.keys.length = 1000)) := by
  obtain ⟨represents, bounded, recent, most⟩ := kept_empty.runAll sections
  have length : (afterAll sections {}).recent.keys.length =
      (sections.foldl CacheSection.mean []).length := by
    rw [represents.keys, List.length_map]
  refine ⟨represents.linked.sound, ?_, fun path => ?_, fun path => represents.lookup_eq, ?_,
    fun kept => ?_⟩
  · rw [length]
    exact bounded
  · rw [represents.mem_iff, represents.keys]
  · rw [represents.keys]
    exact recent
  · obtain ⟨older, split, full⟩ := most kept
    rw [← represents.keys] at split
    refine ⟨older, split, full.imp_right fun size => ?_⟩
    rw [length]
    exact size

/-- What a section leaves under a path was there, or the section stored it. -/
theorem lookup_run {current : CacheSection} {entry : FileCacheEntry}
    (found : (current.run cache).fileCache.lookup path = some entry) :
    cache.fileCache.lookup path = some entry ∨
      current = .store path entry.content entry.timestamp := by
  have erased : ∀ {cache : FileCache} {dropped : Bytes},
      (cache.eraseFileCacheEntry dropped).fileCache.lookup path = some entry →
        cache.fileCache.lookup path = some entry := by
    intro cache dropped found
    rw [eraseFileCacheEntry] at found
    by_cases same : path = dropped
    · rw [same, AList.lookup_erase] at found
      cases found
    · rwa [AList.lookup_erase_ne same] at found
  cases current with
  | find other ttlMs now =>
    rw [CacheSection.run] at found
    split at found <;> exact .inl found
  | invalidate other => exact .inl (erased found)
  | store other content now =>
    rw [CacheSection.run, FileCache.store, touchFileCacheEntry] at found
    dsimp only at found
    by_cases same : path = other
    · rw [same, AList.lookup_insert, Option.some.injEq] at found
      rw [← found, same]
      exact .inr rfl
    · rw [AList.lookup_insert_ne same, makeRoom] at found
      split at found
      · split at found
        · exact .inl found
        · exact .inl (erased found)
      · exact .inl found

end FileCache

/-! ## Threads that read and write files -/

/-- What the threads share. -/
structure AccessWorld where
  /-- The steady clock. -/
  clock : Int := 0
  /-- The time a content is cached for. -/
  ttlMs : Int
  /-- The cache. -/
  cache : FileCache := {}
  /-- The sections that were run under its mutex. -/
  sections : List CacheSection := []
  /-- What the system answered to reads. -/
  log : List (Reading Bytes (Option Bytes)) := []

namespace AccessWorld

/-- A section under the mutex. -/
def enter (world : AccessWorld) (current : CacheSection) : AccessWorld :=
  { world with cache := current.run world.cache, sections := world.sections ++ [current] }

/-- What the operations do. Files may be written by anybody at any time, so a read may find
anything. -/
def machine : Machine AccessSig AccessWorld where
  step
    | world, .now, response, after => response = world.clock ∧ after = world
    | world, .findCached path now, response, after =>
      response = ((CacheSection.find path world.ttlMs now).found world.cache).map (·.content) ∧
        after = world.enter (.find path world.ttlMs now)
    | world, .storeCached path content now, _, after =>
      after = world.enter (.store path content now)
    | world, .invalidate path, _, after => after = world.enter (.invalidate path)
    | world, .readAll path, response, after =>
      after = { world with log := world.log ++ [⟨world.clock, path, response⟩] }
    | world, .openFile _ _, _, after => after = world
    | world, .write _ _, _, after => after = world
    | world, .close _, _, after => after = world

/-- What a call returns. -/
inductive FileReturn
  /-- `read_file` returns a content; the call began at this time. -/
  | content (path : Bytes) (began : Int) (content : Bytes)
  /-- `write_open_file` tells whether it worked. -/
  | written (complete : Bool)

/-- Time passes, and the time a content is cached for may be set. -/
def Waits (maxTtlMs : Int) (world after : AccessWorld) : Prop :=
  world.clock ≤ after.clock ∧ after.ttlMs ≤ maxTtlMs ∧
    after = { world with clock := after.clock, ttlMs := after.ttlMs }

/-- Threads that read and write files through the cache. -/
def service (maxTtlMs : Int) : Service AccessSig.withSpin AccessWorld FileReturn where
  machine := machine.withSpin
  environment := Waits maxTtlMs
  call world call :=
    (∃ path, call = do
      let content ← readFile path
      pure (.content path world.clock content)) ∨
    ∃ fuel path content flags, call = do
      let complete ← writeOpenFile fuel path content flags
      pure (.written complete)

/-- What a call does while others run: time passes, and there are more reads. -/
def contract : Contract AccessWorld where
  rely world after := world.clock ≤ after.clock ∧ world.log <+: after.log
  guar world after := world.clock ≤ after.clock ∧ world.log <+: after.log
  rely_refl _ := ⟨le_refl _, List.prefix_refl _⟩
  rely_trans before after := ⟨before.1.trans after.1, before.2.trans after.2⟩

/-- What a read makes of an answer of the system. -/
def shown : Option Bytes → Bytes
  | none => []
  | some text => text.rdropWhile (· = 10)

/-- A content was read since a time. -/
def ReadSince (world : AccessWorld) (since : Int) (path content : Bytes) : Prop :=
  ∃ answer, content = shown answer ∧ Reading.Since world.log since path answer

/-- The cache is what the sections made of it, each entry was read after its time, and no file of the
kernel is in it. -/
structure Sound (maxTtlMs : Int) (world : AccessWorld) : Prop where
  /-- The sections. -/
  cache : world.cache = FileCache.afterAll world.sections {}
  /-- The entries. -/
  entries : ∀ path entry, world.cache.fileCache.lookup path = some entry →
    world.ReadSince entry.timestamp path entry.content ∧ isDynamicKernelPath path = false
  /-- The time a content is cached for. -/
  ttlMs : world.ttlMs ≤ maxTtlMs

/-- A returned content is as young as the call, or as the cache may make it. -/
def Fresh (maxTtlMs : Int) : FileReturn → AccessWorld → Prop
  | .content path began content, world =>
    ∃ since, began - maxTtlMs * 1000000 ≤ since ∧
      (isDynamicKernelPath path = true → began ≤ since) ∧ world.ReadSince since path content
  | .written _, _ => True

variable {maxTtlMs : Int} {world after : AccessWorld} {path content : Bytes} {since : Int}

/-- More reads change nothing. -/
theorem ReadSince.grow (read : world.ReadSince since path content) (grown : world.log <+: after.log) :
    after.ReadSince since path content := by
  obtain ⟨answer, same, listed⟩ := read
  exact ⟨answer, same, listed.longer grown⟩

/-- A section keeps the cache sound when what it stores was read. -/
theorem Sound.enter (sound : world.Sound maxTtlMs) {current : CacheSection}
    (read : ∀ path content now, current = .store path content now →
      world.ReadSince now path content ∧ isDynamicKernelPath path = false) :
    (world.enter current).Sound maxTtlMs where
  cache := by
    have last : FileCache.afterAll (world.sections ++ [current]) {} =
        current.run (FileCache.afterAll world.sections {}) := by
      simp [FileCache.afterAll]
    rw [AccessWorld.enter, last, ← sound.cache]
  entries path entry found := by
    rcases FileCache.lookup_run found with kept | stored
    · exact sound.entries path entry kept
    · exact read path entry.content entry.timestamp stored
  ttlMs := sound.ttlMs

/-- What is true of a returned value stays true. -/
theorem fresh_stable (value : FileReturn) : contract.Stable (Fresh maxTtlMs value) := by
  intro world after fresh relied
  cases value with
  | content path began content =>
    obtain ⟨since, young, own, read⟩ := fresh
    exact ⟨since, young, own, read.grow relied.2⟩
  | written complete => trivial

/-- Since when a call that sampled the clock may have read something. -/
def Sampled (began now : Int) (world : AccessWorld) : Prop := began ≤ now ∧ now ≤ world.clock

/-- A read of the uncached file. -/
theorem readUncached_fresh {cacheable : Bool} {began now : Int}
    (own : cacheable = true → isDynamicKernelPath path = false) :
    Triple machine.withSpin (Sound maxTtlMs) contract (Sampled began now)
      (readUncached path cacheable now)
      fun content world => ∃ since, began ≤ since ∧ world.ReadSince since path content := by
  have sampled : contract.Stable (Sampled began now) :=
    fun before relied => ⟨before.1, before.2.trans relied.1⟩
  have stays : ∀ answer, contract.Stable fun world => began ≤ now ∧
      Reading.Since world.log now path answer :=
    fun _ _ _ before relied => ⟨before.1, before.2.longer relied.2⟩
  have reads : Triple machine.withSpin (Sound maxTtlMs) contract (Sampled began now)
      (accessOp (.readAll path))
      fun answer world => began ≤ now ∧ Reading.Since world.log now path answer := by
    refine Triple.op sampled fun before holds sound answer after stepped => ?_
    obtain rfl : after = _ := stepped
    have grown : before.log <+: before.log ++ [⟨before.clock, path, answer⟩] :=
      List.prefix_append _ _
    have kept : Sound maxTtlMs { before with log := before.log ++ [⟨before.clock, path, answer⟩] } :=
      ⟨sound.cache, fun path entry found =>
        ⟨(sound.entries path entry found).1.grow grown, (sound.entries path entry found).2⟩,
        sound.ttlMs⟩
    exact ⟨kept, ⟨le_refl _, grown⟩, holds.1, Reading.Since.last holds.2⟩
  have returns : ∀ answer content, content = shown answer →
      Triple machine.withSpin (Sound maxTtlMs) contract
        (fun world => began ≤ now ∧ Reading.Since world.log now path answer)
        (pure content : AccessProgram Bytes)
        fun content world => ∃ since, began ≤ since ∧ world.ReadSince since path content :=
    fun answer _ same => Triple.pure fun _ holds => ⟨now, holds.1, answer, same, holds.2⟩
  refine Triple.bind reads fun answer => ?_
  cases answer with
  | none => exact returns none [] rfl
  | some text =>
    refine Triple.ite (fun cached => ?_) fun _ => returns (some text) _ rfl
    have stores : Triple machine.withSpin (Sound maxTtlMs) contract
        (fun world => began ≤ now ∧ Reading.Since world.log now path (some text))
        (accessOp (.storeCached path (text.rdropWhile (· = 10)) now))
        fun _ world => began ≤ now ∧ Reading.Since world.log now path (some text) := by
      refine Triple.op (stays (some text)) fun before holds sound _ after stepped => ?_
      obtain rfl : after = _ := stepped
      have kept : (before.enter (.store path (text.rdropWhile (· = 10)) now)).Sound maxTtlMs := by
        refine sound.enter fun path content now same => ?_
        cases same
        exact ⟨⟨some text, rfl, holds.2⟩, own cached⟩
      exact ⟨kept, ⟨le_refl _, List.prefix_refl _⟩, holds⟩
    exact Triple.bind stores fun _ => returns (some text) _ rfl

/-- A content from the cache is young. -/
theorem findCached_fresh {began now : Int} (own : isDynamicKernelPath path = false) :
    Triple machine.withSpin (Sound maxTtlMs) contract (Sampled began now)
      (accessOp (.findCached path now))
      fun found world => Sampled began now world ∧
        ∀ content, found = some content → Fresh maxTtlMs (.content path began content) world := by
  have sampled : contract.Stable (Sampled began now) :=
    fun before relied => ⟨before.1, before.2.trans relied.1⟩
  refine Triple.op sampled fun before holds sound found after stepped => ?_
  obtain ⟨rfl, rfl⟩ := stepped
  have kept : (before.enter (.find path before.ttlMs now)).Sound maxTtlMs :=
    sound.enter fun _ _ _ same => by cases same
  refine ⟨kept, ⟨le_refl _, List.prefix_refl _⟩, holds, fun content hit => ?_⟩
  obtain ⟨entry, young, rfl⟩ := Option.map_eq_some_iff.mp hit
  obtain ⟨stored, age⟩ := Option.filter_eq_some_iff.mp young
  have bound := lt_timestamp_of_ageMs_lt (of_decide_eq_true age)
  have limit := sound.ttlMs
  have earliest := holds.1
  refine ⟨entry.timestamp, by omega, fun kernel => ?_, (sound.entries path entry stored).1⟩
  rw [own] at kernel
  cases kernel

/-- A read returns a content that is young. -/
theorem readFile_fresh (positive : 0 ≤ maxTtlMs) (began : Int) :
    Triple machine.withSpin (Sound maxTtlMs) contract (fun world => began ≤ world.clock)
      (readFile path) fun content world => Fresh maxTtlMs (.content path began content) world := by
  have later : contract.Stable fun world => began ≤ world.clock :=
    fun before relied => before.trans relied.1
  have samples : Triple machine.withSpin (Sound maxTtlMs) contract (fun world => began ≤ world.clock)
      (accessOp .now) fun now world => Sampled began now world := by
    refine Triple.op later fun before holds sound now after stepped => ?_
    obtain ⟨rfl, rfl⟩ := stepped
    exact ⟨sound, ⟨le_refl _, List.prefix_refl _⟩, holds, le_refl _⟩
  have young : ∀ content world, (∃ since, began ≤ since ∧ world.ReadSince since path content) →
      Fresh maxTtlMs (.content path began content) world := by
    intro content world ⟨since, own, read⟩
    exact ⟨since, by omega, fun _ => own, read⟩
  refine Triple.bind samples fun now => Triple.ite (fun cacheable => ?_) fun kernel => ?_
  · have own : isDynamicKernelPath path = false := by simpa using cacheable
    refine Triple.bind (findCached_fresh own) fun found => ?_
    cases found with
    | some content => exact Triple.pure fun world holds => holds.2 content rfl
    | none =>
      exact (readUncached_fresh fun _ => own).weaken (fun world holds => holds.1) young
  · refine (readUncached_fresh fun cached => absurd cached kernel).weaken (fun _ holds => holds) ?_
    exact young

/-- The operations of a write. -/
def Writes : AccessSig.withSpin.Op → Prop
  | some (.findCached _ _) | some (.storeCached _ _ _) | some (.readAll _) => False
  | _ => True

/-- A write performs no other. -/
theorem calls_writeOpenFile (fuel : Nat) (flags : OpenFlags) :
    (writeOpenFile fuel path content flags).Calls Writes := by
  have looped : ∀ fd rest, (Looping.loop (writeSome fd) fuel rest).Calls Writes := by
    refine fun fd rest => Looping.calls_loop trivial (fun rest => ?_) fuel rest
    refine Program.Calls.ite (fun _ => trivial) fun _ => ⟨trivial, fun result => ?_⟩
    cases result with
    | wrote count => exact Program.Calls.ite (fun _ => trivial) fun _ => trivial
    | interrupted | failed => trivial
  refine ⟨trivial, fun opened => ?_⟩
  cases opened with
  | none => trivial
  | some fd =>
    refine (looped fd content).bind fun written => ⟨trivial, fun _ => ?_⟩
    exact Program.Calls.ite (fun _ => ⟨trivial, fun _ => trivial⟩) fun _ => trivial

/-- A write keeps the cache sound. -/
theorem writeOpenFile_sound (fuel : Nat) (flags : OpenFlags) :
    Triple machine.withSpin (Sound maxTtlMs) contract (fun _ => True)
      (writeOpenFile fuel path content flags) fun _ _ => True := by
  refine Triple.of_calls (calls_writeOpenFile fuel flags) (Contract.Stable.const True) ?_
  intro operation allowed before _ sound response after stepped
  cases operation with
  | none => exact response.elim
  | some operation =>
    cases operation with
    | findCached | storeCached | readAll => exact allowed.elim
    | invalidate path =>
      obtain rfl : after = _ := stepped
      have kept : (before.enter (.invalidate path)).Sound maxTtlMs :=
        sound.enter fun _ _ _ same => by cases same
      exact ⟨kept, ⟨le_refl _, List.prefix_refl _⟩, trivial⟩
    | now =>
      obtain ⟨-, rfl⟩ := stepped
      exact ⟨sound, ⟨le_refl _, List.prefix_refl _⟩, trivial⟩
    | openFile | write | close =>
      obtain rfl : after = _ := stepped
      exact ⟨sound, ⟨le_refl _, List.prefix_refl _⟩, trivial⟩

/-- The calls keep what is told of the cache, and return what is fresh. -/
theorem discipline (positive : 0 ≤ maxTtlMs) :
    (service maxTtlMs).Discipline (Sound maxTtlMs) contract (Fresh maxTtlMs) where
  share _ _ promised := promised
  environment := by
    intro world after sound waits
    obtain ⟨later, limit, same⟩ := waits
    rw [same]
    exact ⟨⟨sound.cache, sound.entries, limit⟩, later, List.prefix_refl _⟩
  stable := fresh_stable
  safe := by
    intro world call sound made
    rcases made with ⟨path, rfl⟩ | ⟨fuel, path, content, flags, rfl⟩
    · have returns : ∀ content, Triple machine.withSpin (Sound maxTtlMs) contract
          (Fresh maxTtlMs (.content path world.clock content))
          (pure (.content path world.clock content)) (Fresh maxTtlMs) :=
        fun content => Triple.pure fun _ fresh => fresh
      exact Triple.bind (readFile_fresh positive world.clock) returns world (le_refl _)
    · have returns : ∀ complete, Triple machine.withSpin (Sound maxTtlMs) contract
          (fun _ => True) (pure (.written complete)) (Fresh maxTtlMs) :=
        fun complete => Triple.pure fun _ _ => trivial
      exact Triple.bind (writeOpenFile_sound fuel flags) returns world trivial

/-- However many threads read and write files, whoever else writes them, and however the time a content
is cached for is set within its bound: the cache is what the sections under its mutex made of it, and no
file of the kernel is in it. Every content a read ever returned was read of the system, and not longer
before the call began than the bound; a content of a kernel file was read since the call began. -/
theorem reads_fresh {ι : Type} [DecidableEq ι] (positive : 0 ≤ maxTtlMs) {ttlMs : Int}
    (bounded : ttlMs ≤ maxTtlMs)
    {pool : Pool (AccessSig.withSpin.withRecord FileReturn) (AccessWorld × List FileReturn) ι}
    (reached : ((service maxTtlMs).pool ι).Reaches (.idle ({ ttlMs := ttlMs }, [])) pool) :
    pool.state.1.cache = FileCache.afterAll pool.state.1.sections {} ∧
    (∀ path, path ∈ pool.state.1.cache.fileCache → isDynamicKernelPath path = false) ∧
    ∀ path began content, .content path began content ∈ pool.state.2 →
      ∃ since, began - maxTtlMs * 1000000 ≤ since ∧
        (isDynamicKernelPath path = true → began ≤ since) ∧
        pool.state.1.ReadSince since path content := by
  have initial : Sound maxTtlMs { ttlMs := ttlMs } :=
    ⟨rfl, fun path entry found => by simp at found, bounded⟩
  obtain ⟨sound, fresh⟩ := (discipline positive).reachable initial reached
  refine ⟨sound.cache, fun path member => ?_, fun path began content returned => ?_⟩
  · obtain ⟨entry, stored⟩ := Option.isSome_iff_exists.mp (AList.lookup_isSome.mpr member)
    exact (sound.entries path entry stored).2
  · exact fresh _ returned

/-- Answers of a system whose files all have one line. -/
def respondLine (world : AccessWorld × List FileReturn) :
    (operation : (AccessSig.withSpin.withRecord FileReturn).Op) →
      Option ((AccessSig.withSpin.withRecord FileReturn).Res operation × AccessWorld × List FileReturn)
  | .inl (some .now) => some (world.1.clock, world)
  | .inl (some (.findCached path now)) =>
    some (((CacheSection.find path world.1.ttlMs now).found world.1.cache).map (·.content),
      world.1.enter (.find path world.1.ttlMs now), world.2)
  | .inl (some (.storeCached path content now)) =>
    some ((), world.1.enter (.store path content now), world.2)
  | .inl (some (.readAll path)) =>
    some (some [104, 10],
      { world.1 with log := world.1.log ++ [⟨world.1.clock, path, some [104, 10]⟩] }, world.2)
  | .inr value => some ((), world.1, world.2 ++ [value])
  | _ => none

/-- Such answers are possible. -/
theorem step_of_respondLine {world after : AccessWorld × List FileReturn}
    {operation : (AccessSig.withSpin.withRecord FileReturn).Op}
    {response : (AccessSig.withSpin.withRecord FileReturn).Res operation}
    (answered : respondLine world operation = some (response, after)) :
    ((service 100).pool Unit).machine.step world operation response after := by
  cases operation with
  | inr value =>
    cases answered
    rfl
  | inl operation =>
    cases operation with
    | none => exact response.elim
    | some operation =>
      cases operation with
      | now | findCached =>
        cases answered
        exact ⟨⟨rfl, rfl⟩, rfl⟩
      | storeCached | readAll =>
        cases answered
        exact ⟨rfl, rfl⟩
      | invalidate | openFile | write | close => cases answered

/-- A call that reads a file. -/
def lineCall : AccessProgram FileReturn := do
  let content ← readFile [47, 120]
  pure (.content [47, 120] 0 content)

/-- The pool after that call. -/
def lineRead : Pool (AccessSig.withSpin.withRecord FileReturn) (AccessWorld × List FileReturn) Unit :=
  let run := lineCall.recorded.drive respondLine 5 ({ ttlMs := 100 }, [])
  ⟨run.2, fun _ => run.1⟩

theorem reads_fresh_line :
    ((service 100).pool Unit).Reaches (.idle ({ ttlMs := 100 }, [])) lineRead ∧
    lineRead.state.2 = [.content [47, 120] 0 [104]] ∧
    ∃ since, -100000000 ≤ since ∧ lineRead.state.1.ReadSince since [47, 120] [104] := by
  have alone : ∀ (control : Unit → Program (AccessSig.withSpin.withRecord FileReturn) Unit) program,
      Function.update control () program = fun _ => program := fun control program => by
    funext agent
    exact Function.update_self _ _ _
  have started : ((service 100).pool Unit).Step (.idle ({ ttlMs := 100 }, []))
      ⟨({ ttlMs := 100 }, []), Function.update _ () lineCall.recorded⟩ :=
    .start rfl ⟨rfl, lineCall, .inl ⟨[47, 120], rfl⟩, rfl⟩
  have driven := PoolSystem.reaches_drive step_of_respondLine () 5
    ⟨({ ttlMs := 100 }, []), fun _ => lineCall.recorded⟩
  rw [alone] at started driven
  have reached : ((service 100).pool Unit).Reaches (.idle ({ ttlMs := 100 }, [])) lineRead :=
    .head started driven
  have returned : lineRead.state.2 = [.content [47, 120] 0 [104]] := by
    rfl
  have listed : FileReturn.content [47, 120] 0 [104] ∈ lineRead.state.2 := by
    rw [returned]
    exact List.mem_singleton_self _
  have fresh := (reads_fresh (by decide) (Int.le_refl 100) reached).2.2 _ _ _ listed
  obtain ⟨since, young, -, read⟩ := fresh
  exact ⟨reached, returned, since, young, read⟩

end AccessWorld

end ReUperf
