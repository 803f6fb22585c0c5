import ReUperf.Verif.CallMachine
import ReUperf.Verif.Ownership

/-!
# Recovery of the original state

Whatever setter, restoring and capturing calls report and leave half done, a component of a
live thread that differs from its original state is recorded as managed and has the original
state recorded. So a restoration of all baselines that reports success has put the original
state back.
-/

namespace ReUperf

open Effect ScanWorker Main

/-- The state of a thread that ReUperf changes. -/
structure ThreadState where
  /-- The directory of its cpuset group. -/
  cpuset : Bytes
  /-- The CPUs it may run on. -/
  affinity : List Int
  /-- Its policy and the policy's parameters. -/
  scheduler : SchedulerBaseline
  /-- The directory of its cpuctl group. -/
  cpuctl : Bytes
  deriving DecidableEq

namespace Recovery

/-- After a success a part has the requested value, after a failure that or the previous one. -/
def Requested {α : Type} (ok : Bool) (previous requested after : α) : Prop :=
  after = requested ∨ ok = false ∧ after = previous

/-- What a setter call may answer and make of the thread it is for. -/
def Changes (world : ThreadState) : (call : SetterCall) → call.Res → ThreadState → Prop
  | .captureAffinity _, cpus, after => after = world ∧ (cpus = [] ∨ cpus = world.affinity)
  | .captureScheduler _, found, after =>
    after = world ∧ (found = none ∨ found = some world.scheduler)
  | .isAffinityChanged _ _, _, after => after = world
  | .isSchedChanged _ _, _, after => after = world
  | .takeover _ _ _, _, after =>
    after = { world with cpuset := after.cpuset, affinity := after.affinity }
  | .setPriority _ _, _, after => after = { world with scheduler := after.scheduler }
  | .migrateThread _ _, _, after => after = { world with cpuctl := after.cpuctl }
  | .restoreCpusetCgroup _ path, ok, after =>
    after = { world with cpuset := after.cpuset } ∧ Requested ok world.cpuset path after.cpuset
  | .restoreAffinity _ cpus, ok, after =>
    after = { world with affinity := after.affinity } ∧
      Requested ok world.affinity cpus after.affinity
  | .restoreScheduler _ baseline, ok, after =>
    after = { world with scheduler := after.scheduler } ∧
      Requested ok world.scheduler.policy baseline.policy after.scheduler.policy ∧
      Requested ok world.scheduler.priority baseline.priority after.scheduler.priority ∧
      Requested ok world.scheduler.nice baseline.nice after.scheduler.nice
  | .restoreCpuctlCgroup _ path, ok, after =>
    after = { world with cpuctl := after.cpuctl } ∧ Requested ok world.cpuctl path after.cpuctl

/-- What reads of the thread's identity and groups answer. -/
def Reads (thread : Identity) (world : ThreadState) :
    (operation : SysOp) → SysSig.Res operation → Prop
  | .threadCgroupPaths pid tid, paths => (pid, tid) = thread.key →
    (paths.cpuset = [] ∨ cpusetMount ++ paths.cpuset = world.cpuset) ∧
      (paths.cpuctl = [] ∨ cpuctlMount ++ paths.cpuctl = world.cpuctl)
  | operation, response => thread.Sees operation response

/-- A live thread whose state only the calls for its thread ID change. -/
def environment (thread : Identity) : Environment ThreadState where
  reads := Reads thread
  effect world call response after :=
    if call.thread.tid = thread.tid then Changes world call response after else after = world

variable {thread : Identity} {original : ThreadState}

/-- A thread with valid IDs is alive in the environment. -/
theorem alive (validPid : FileUtils.isValidId thread.pid = true)
    (validTid : FileUtils.isValidId thread.tid = true) : (environment thread).Alive thread where
  validPid := validPid
  validTid := validTid
  processStartTime reads := reads rfl
  threadStartTime reads := reads rfl
  threadInProcess reads := by simpa using reads rfl

/-- A call for the thread ID changes the thread. -/
theorem effect_own {world after : ThreadState} {call : SetterCall} {response : call.Res}
    (own : call.thread.tid = thread.tid) :
    (environment thread).effect world call response after ↔ Changes world call response after := by
  change (if call.thread.tid = thread.tid then _ else _) ↔ _
  rw [if_pos own]

/-- A call for another thread ID leaves the thread. -/
theorem effect_other {world after : ThreadState} {call : SetterCall} {response : call.Res}
    (other : call.thread.tid ≠ thread.tid) :
    (environment thread).effect world call response after ↔ after = world := by
  change (if call.thread.tid = thread.tid then _ else _) ↔ _
  rw [if_neg other]

/-- Observations leave the thread. -/
theorem quiet : (environment thread).Quiet := by
  intro world call response after observes effect
  by_cases own : call.thread.tid = thread.tid
  · rw [effect_own own] at effect
    cases call with
    | captureAffinity _ => exact effect.1
    | captureScheduler _ => exact effect.1
    | isAffinityChanged _ _ => exact effect
    | isSchedChanged _ _ => exact effect
    | _ => cases observes
  · exact (effect_other own).mp effect

/-! ## Moving towards the original state -/

/-- Every part is unchanged or has the original value. -/
structure Closer (original before after : ThreadState) : Prop where
  cpuset : after.cpuset = before.cpuset ∨ after.cpuset = original.cpuset
  affinity : after.affinity = before.affinity ∨ after.affinity = original.affinity
  policy : after.scheduler.policy = before.scheduler.policy ∨
    after.scheduler.policy = original.scheduler.policy
  priority : after.scheduler.priority = before.scheduler.priority ∨
    after.scheduler.priority = original.scheduler.priority
  nice : after.scheduler.nice = before.scheduler.nice ∨
    after.scheduler.nice = original.scheduler.nice
  cpuctl : after.cpuctl = before.cpuctl ∨ after.cpuctl = original.cpuctl

namespace Closer

variable {before middle after : ThreadState}

/-- Nothing changed. -/
theorem refl (world : ThreadState) : Closer original world world :=
  ⟨.inl rfl, .inl rfl, .inl rfl, .inl rfl, .inl rfl, .inl rfl⟩

/-- Two moves make one. -/
theorem trans (first : Closer original before middle) (second : Closer original middle after) :
    Closer original before after := by
  have chain : ∀ {α : Type} {a b c o : α}, b = a ∨ b = o → c = b ∨ c = o → c = a ∨ c = o := by
    rintro α a b c o (rfl | rfl) (rfl | rfl) <;> simp
  exact ⟨chain first.cpuset second.cpuset, chain first.affinity second.affinity,
    chain first.policy second.policy, chain first.priority second.priority,
    chain first.nice second.nice, chain first.cpuctl second.cpuctl⟩

/-- An original cpuset group stays. -/
theorem keepsCpuset (closer : Closer original before after)
    (holds : before.cpuset = original.cpuset) : after.cpuset = original.cpuset :=
  closer.cpuset.elim (·.trans holds) id

/-- Original CPUs stay. -/
theorem keepsAffinity (closer : Closer original before after)
    (holds : before.affinity = original.affinity) : after.affinity = original.affinity :=
  closer.affinity.elim (·.trans holds) id

/-- An original scheduler state stays. -/
theorem keepsScheduler (closer : Closer original before after)
    (holds : before.scheduler = original.scheduler) : after.scheduler = original.scheduler := by
  have policy := closer.policy
  have priority := closer.priority
  have nice := closer.nice
  rw [holds, or_self] at policy priority nice
  cases final : after.scheduler
  cases start : original.scheduler
  rw [final, start] at policy priority nice
  rw [SchedulerBaseline.mk.injEq]
  exact ⟨policy, priority, nice⟩

/-- An original cpuctl group stays. -/
theorem keepsCpuctl (closer : Closer original before after)
    (holds : before.cpuctl = original.cpuctl) : after.cpuctl = original.cpuctl :=
  closer.cpuctl.elim (·.trans holds) id

/-- The original state stays. -/
theorem keeps (closer : Closer original original after) : after = original := by
  have cpuset := closer.keepsCpuset rfl
  have affinity := closer.keepsAffinity rfl
  have scheduler := closer.keepsScheduler rfl
  have cpuctl := closer.keepsCpuctl rfl
  cases after
  cases original
  simp only at cpuset affinity scheduler cpuctl
  rw [cpuset, affinity, scheduler, cpuctl]

end Closer

/-! ## What is recorded -/

/-- The recorded parts are those of the original state. -/
structure PartOf (baseline : ThreadBaseline) (original : ThreadState) : Prop where
  affinity : ∀ {cpus}, baseline.affinity = some cpus → cpus = original.affinity
  scheduler : ∀ {scheduler}, baseline.scheduler = some scheduler → scheduler = original.scheduler
  cpuset : ∀ {path}, baseline.cpusetPath = some path → path = original.cpuset
  cpuctl : ∀ {path}, baseline.cpuctlPath = some path → path = original.cpuctl

/-- A component that is not managed is in its original state, and the parts of a managed one
are recorded as they were. -/
structure Tracked (original world : ThreadState) (baseline : ThreadBaseline)
    (managed : ManagedComponents) : Prop where
  parts : PartOf baseline original
  covered : managed.CoveredBy baseline
  cpuset : managed.affinity = false → world.cpuset = original.cpuset
  affinity : managed.affinity = false → world.affinity = original.affinity
  scheduler : managed.priority = false → world.scheduler = original.scheduler
  cpuctl : managed.cpuctl = false → world.cpuctl = original.cpuctl

/-- The thread's state is the original one where parts are recorded. -/
structure Fixed (original world : ThreadState) (baseline : ThreadBaseline) : Prop where
  cpuset : baseline.cpusetPath.isSome = true → world.cpuset = original.cpuset
  affinity : baseline.affinity.isSome = true → world.affinity = original.affinity
  scheduler : baseline.scheduler.isSome = true → world.scheduler = original.scheduler
  cpuctl : baseline.cpuctlPath.isSome = true → world.cpuctl = original.cpuctl

namespace Tracked

variable {world after : ThreadState} {baseline : ThreadBaseline} {managed : ManagedComponents}

/-- A move towards the original state keeps a thread tracked. -/
theorem closer (tracked : Tracked original world baseline managed)
    (closer : Closer original world after) : Tracked original after baseline managed where
  parts := tracked.parts
  covered := tracked.covered
  cpuset unmanaged := closer.keepsCpuset (tracked.cpuset unmanaged)
  affinity unmanaged := closer.keepsAffinity (tracked.affinity unmanaged)
  scheduler unmanaged := closer.keepsScheduler (tracked.scheduler unmanaged)
  cpuctl unmanaged := closer.keepsCpuctl (tracked.cpuctl unmanaged)

/-- An original thread of which nothing is managed is tracked. -/
theorem of_original {baseline : ThreadBaseline} (parts : PartOf baseline original) : Tracked original original baseline {} :=
  ⟨parts, coveredBy_none, fun _ => rfl, fun _ => rfl, fun _ => rfl, fun _ => rfl⟩

/-- A tracked thread whose recorded parts are original is original. -/
theorem eq_original (tracked : Tracked original world baseline managed)
    (fixed : Fixed original world baseline) : world = original := by
  have cpuset : world.cpuset = original.cpuset := by
    cases held : managed.affinity with
    | true => exact fixed.cpuset (tracked.covered.affinity held).2
    | false => exact tracked.cpuset held
  have affinity : world.affinity = original.affinity := by
    cases held : managed.affinity with
    | true => exact fixed.affinity (tracked.covered.affinity held).1
    | false => exact tracked.affinity held
  have scheduler : world.scheduler = original.scheduler := by
    cases held : managed.priority with
    | true => exact fixed.scheduler (tracked.covered.priority held)
    | false => exact tracked.scheduler held
  have cpuctl : world.cpuctl = original.cpuctl := by
    cases held : managed.cpuctl with
    | true => exact fixed.cpuctl (tracked.covered.cpuctl held)
    | false => exact tracked.cpuctl held
  cases world
  cases original
  simp only at cpuset affinity scheduler cpuctl
  rw [cpuset, affinity, scheduler, cpuctl]

end Tracked

/-! ## Restoring programs -/

/-- The program leaves the cache, moves the thread towards its original state, and reports
success only when the goal is reached. -/
def Heals (thread : Identity) (original : ThreadState) (goal : ThreadState → Prop)
    (program : CallProgram Bool) : Prop :=
  ∀ state, program.wp (environment thread).machine
    (fun ok after => after.cache = state.cache ∧ Closer original state.world after.world ∧
      (ok = true → goal after.world)) state

/-- Moving the thread back to its cpuset group heals it. -/
theorem heals_restoreCpusetCgroup :
    Heals thread original (·.cpuset = original.cpuset)
      (setterCall (.restoreCpusetCgroup thread original.cpuset)) := by
  intro state
  rw [Environment.wp_setterCall]
  intro ok world effect
  obtain ⟨frame, requested⟩ := (effect_own rfl).mp effect
  have moved : world.cpuset = state.world.cpuset ∨ world.cpuset = original.cpuset :=
    requested.elim .inr fun failed => .inl failed.2
  refine ⟨rfl, ?_, fun success => requested.resolve_right (by simp [success])⟩
  rw [frame]
  exact ⟨moved, .inl rfl, .inl rfl, .inl rfl, .inl rfl, .inl rfl⟩

/-- Giving the thread its CPUs back heals it. -/
theorem heals_restoreAffinity :
    Heals thread original (·.affinity = original.affinity)
      (setterCall (.restoreAffinity thread original.affinity)) := by
  intro state
  rw [Environment.wp_setterCall]
  intro ok world effect
  obtain ⟨frame, requested⟩ := (effect_own rfl).mp effect
  have pinned : world.affinity = state.world.affinity ∨ world.affinity = original.affinity :=
    requested.elim .inr fun failed => .inl failed.2
  refine ⟨rfl, ?_, fun success => requested.resolve_right (by simp [success])⟩
  rw [frame]
  exact ⟨.inl rfl, pinned, .inl rfl, .inl rfl, .inl rfl, .inl rfl⟩

/-- Giving the thread its scheduler state back heals it. -/
theorem heals_restoreScheduler :
    Heals thread original (·.scheduler = original.scheduler)
      (setterCall (.restoreScheduler thread original.scheduler)) := by
  intro state
  rw [Environment.wp_setterCall]
  intro ok world effect
  obtain ⟨frame, policy, priority, nice⟩ := (effect_own rfl).mp effect
  have swapped : ∀ {previous requested after : Int}, Requested ok previous requested after →
      after = previous ∨ after = requested :=
    fun given => given.elim .inr fun failed => .inl failed.2
  refine ⟨rfl, ?_, fun success => ?_⟩
  · rw [frame]
    exact ⟨.inl rfl, .inl rfl, swapped policy, swapped priority, swapped nice, .inl rfl⟩
  · have exactly : ∀ {previous requested after : Int}, Requested ok previous requested after →
        after = requested := fun given => given.resolve_right (by simp [success])
    have values : world.scheduler = ⟨world.scheduler.policy, world.scheduler.priority,
      world.scheduler.nice⟩ := rfl
    show world.scheduler = original.scheduler
    rw [values, exactly policy, exactly priority, exactly nice]

/-- Moving the thread back to its cpuctl group heals it. -/
theorem heals_restoreCpuctlCgroup :
    Heals thread original (·.cpuctl = original.cpuctl)
      (setterCall (.restoreCpuctlCgroup thread original.cpuctl)) := by
  intro state
  rw [Environment.wp_setterCall]
  intro ok world effect
  obtain ⟨frame, requested⟩ := (effect_own rfl).mp effect
  have moved : world.cpuctl = state.world.cpuctl ∨ world.cpuctl = original.cpuctl :=
    requested.elim .inr fun failed => .inl failed.2
  refine ⟨rfl, ?_, fun success => requested.resolve_right (by simp [success])⟩
  rw [frame]
  exact ⟨.inl rfl, .inl rfl, .inl rfl, .inl rfl, .inl rfl, moved⟩

section Restoring

variable {task : DispatchTask} {baseline : ThreadBaseline}
  (live : (environment task.identity).Alive task.identity)

include live

/-- A guarded restoration of an original part heals the thread. -/
theorem restoreGuarded_spec {α : Type} {part : Option α} {restore : α → CallProgram Bool}
    {goal : ThreadState → Prop}
    (heals : ∀ value, part = some value → Heals task.identity original goal (restore value))
    (state : CallState ThreadState) :
    (restoreGuarded task part restore).wp (environment task.identity).machine
      (fun restored after => after.cache = state.cache ∧
        Closer original state.world after.world ∧
        (restored = some true → part.isSome = true → goal after.world)) state := by
  cases part with
  | none => exact ⟨rfl, .refl _, nofun⟩
  | some value =>
    rw [restoreGuarded, Program.wp_bind]
    apply live.wp_identityMatches
    rw [if_pos rfl, Program.wp_bind]
    refine Program.wp_mono (heals value rfl state) ?_
    rintro ok after ⟨same, closer, reached⟩
    refine ⟨same, closer, fun success _ => reached ?_⟩
    exact Option.some.inj success

/-- Restoring the group and the CPUs heals the thread. -/
theorem heals_restoreAffinityBaseline (parts : PartOf baseline original) :
    Heals task.identity original
      (fun world => (baseline.cpusetPath.isSome = true → world.cpuset = original.cpuset) ∧
        (baseline.affinity.isSome = true → world.affinity = original.affinity))
      (restoreAffinityBaseline task baseline) := by
  intro state
  rw [restoreAffinityBaseline, Program.wp_bind]
  refine Program.wp_mono (restoreGuarded_spec live (fun path recorded => by
    rw [parts.cpuset recorded]; exact heals_restoreCpusetCgroup) state) ?_
  rintro (_ | moved) middle ⟨sameFirst, closerFirst, cpuset⟩
  · exact ⟨sameFirst, closerFirst, nofun⟩
  dsimp only
  rw [Program.wp_bind]
  refine Program.wp_mono (restoreGuarded_spec live (fun cpus recorded => by
    rw [parts.affinity recorded]; exact heals_restoreAffinity) middle) ?_
  rintro (_ | pinned) last ⟨sameSecond, closerSecond, affinity⟩
  · exact ⟨sameSecond.trans sameFirst, closerFirst.trans closerSecond, nofun⟩
  dsimp only
  split
  · rename_i both
    obtain ⟨rfl, rfl⟩ := Bool.and_eq_true_iff.mp both
    exact live.wp_identityMatches ⟨sameSecond.trans sameFirst, closerFirst.trans closerSecond,
      fun _ => ⟨fun recorded => closerSecond.keepsCpuset (cpuset rfl recorded), affinity rfl⟩⟩
  · exact ⟨sameSecond.trans sameFirst, closerFirst.trans closerSecond, nofun⟩

/-- Restoring a required part heals the thread. -/
theorem heals_restoreRequired {α : Type} {part : Option α} {restore : α → CallProgram Bool}
    {goal : ThreadState → Prop}
    (heals : ∀ value, part = some value → Heals task.identity original goal (restore value)) :
    Heals task.identity original goal (restoreRequired task part restore) := by
  intro state
  unfold restoreRequired
  rw [Program.wp_bind]
  apply live.wp_identityMatches
  rw [if_pos rfl]
  cases part with
  | none => exact ⟨rfl, .refl _, nofun⟩
  | some value =>
    dsimp only
    rw [Program.wp_bind]
    refine Program.wp_mono (heals value rfl state) ?_
    rintro ok middle ⟨same, closer, reached⟩
    split
    · rename_i success
      exact live.wp_identityMatches ⟨same, closer, fun _ => reached success⟩
    · exact ⟨same, closer, nofun⟩

/-- Restoring the scheduler state heals the thread. -/
theorem heals_restoreSchedulerBaseline (parts : PartOf baseline original) :
    Heals task.identity original (·.scheduler = original.scheduler)
      (restoreSchedulerBaseline task baseline) :=
  heals_restoreRequired live fun scheduler recorded => by
    rw [parts.scheduler recorded]
    exact heals_restoreScheduler

/-- Restoring the cpuctl group heals the thread. -/
theorem heals_restoreCpuctlBaseline (parts : PartOf baseline original) :
    Heals task.identity original (·.cpuctl = original.cpuctl)
      (restoreCpuctlBaseline task baseline) :=
  heals_restoreRequired live fun path recorded => by
    rw [parts.cpuctl recorded]
    exact heals_restoreCpuctlCgroup

end Restoring

/-! ## The cache -/

/-- The cache has an entry of the thread with this baseline and these managed components. -/
def Booked (thread : Identity) (baseline : Option ThreadBaseline) (managed : ManagedComponents)
    (cache : ThreadCache) : Prop :=
  ∃ entry, cache.lookup thread.key = some entry ∧ entry.identity = thread ∧
    entry.baseline = baseline ∧ entry.managedComponents = managed

namespace Booked

variable {cache : ThreadCache} {baseline : Option ThreadBaseline} {managed : ManagedComponents}

/-- The baseline is read. -/
theorem getBaseline (booked : Booked thread baseline managed cache) :
    cache.getBaseline thread.key = baseline := by
  obtain ⟨entry, stored, _, rfl, _⟩ := booked
  rw [ThreadCache.getBaseline, stored]
  rfl

/-- The managed components are read. -/
theorem getManagedComponents (booked : Booked thread baseline managed cache) :
    cache.getManagedComponents thread.key = managed := by
  obtain ⟨entry, stored, _, _, rfl⟩ := booked
  rw [ThreadCache.getManagedComponents, stored]
  rfl

/-- Changing the entry in place. -/
theorem adjust (booked : Booked thread baseline managed cache)
    {change : ThreadCacheEntry → ThreadCacheEntry} {next : Option ThreadBaseline}
    {components : ManagedComponents}
    (made : ∀ entry, entry.identity = thread → entry.baseline = baseline →
      entry.managedComponents = managed → (change entry).identity = thread ∧
        (change entry).baseline = next ∧ (change entry).managedComponents = components) :
    Booked thread next components (Table.adjust change thread.key cache) := by
  obtain ⟨entry, stored, same, recorded, held⟩ := booked
  exact ⟨change entry, by rw [Table.lookup_adjust, stored]; rfl, made entry same recorded held⟩

/-- Recording components. -/
theorem setManagedComponents (booked : Booked thread baseline managed cache)
    (components : ManagedComponents) :
    Booked thread baseline components (cache.setManagedComponents thread.key components) :=
  booked.adjust fun _ same recorded _ => ⟨same, recorded, rfl⟩

/-- Recording an applied result. -/
theorem updateAppliedResult (booked : Booked thread baseline managed cache)
    (result : MatchResult) :
    Booked thread baseline managed (cache.updateAppliedResult thread.key result) :=
  booked.adjust fun _ same recorded held => ⟨same, recorded, held⟩

/-- Forgetting the applied result. -/
theorem clearAppliedResult (booked : Booked thread baseline managed cache) :
    Booked thread baseline managed (cache.clearAppliedResult thread.key) :=
  booked.adjust fun _ same recorded held => ⟨same, recorded, held⟩

/-- Forgetting the baseline. -/
theorem clearBaseline (booked : Booked thread baseline managed cache) :
    Booked thread none managed (cache.clearBaseline thread.key) :=
  booked.adjust fun _ same _ held => ⟨same, rfl, held⟩

/-- Adding parts to the baseline. -/
theorem setBaseline (booked : Booked thread baseline managed cache) (added : ThreadBaseline) :
    ∃ next, Booked thread (some next) managed (cache.setBaseline thread.key added) ∧
      (baseline = none ∧ next = added ∨ ∃ old, baseline = some old ∧ next = old.merge added) := by
  obtain ⟨entry, stored, same, rfl, held⟩ := booked
  cases recorded : entry.baseline with
  | none =>
    refine ⟨added, ⟨entry.addBaseline added, ?_, same, ?_, held⟩, .inl ⟨rfl, rfl⟩⟩
    · rw [ThreadCache.setBaseline, Table.lookup_adjust, stored]
      rfl
    · simp [ThreadCacheEntry.addBaseline, recorded]
  | some old =>
    refine ⟨old.merge added, ⟨entry.addBaseline added, ?_, same, ?_, held⟩, .inr ⟨old, rfl, rfl⟩⟩
    · rw [ThreadCache.setBaseline, Table.lookup_adjust, stored]
      rfl
    · simp [ThreadCacheEntry.addBaseline, recorded]

end Booked

/-- A thread whose entry tracks it. -/
def Entered (thread : Identity) (original : ThreadState) (state : CallState ThreadState) : Prop :=
  ∃ baseline managed, Booked thread baseline managed state.cache ∧
    Tracked original state.world (baseline.getD {}) managed

/-- A thread that is original while it has no entry, and tracked by its entry. -/
def Recoverable (thread : Identity) (original : ThreadState) (state : CallState ThreadState) :
    Prop :=
  Entered thread original state ∨ state.world = original ∧
    ∀ entry, state.cache.lookup thread.key = some entry → entry.identity ≠ thread

/-! ## Applying -/

section Applying

variable {sched : SchedConfig} {task : DispatchTask} {result : MatchResult}
  {baseline : Option ThreadBaseline} {managed : ManagedComponents} {state : CallState ThreadState}

/-- Releasing a component keeps the thread tracked. -/
theorem releaseComponent_spec {release : Bool} {restore : CallProgram Bool}
    {released : ManagedComponents} {goal : ThreadState → Prop}
    (heals : Heals task.identity original goal restore)
    (booked : Booked task.identity baseline managed state.cache)
    (tracked : Tracked original state.world (baseline.getD {}) managed)
    (fewer : ∀ {world}, Tracked original world (baseline.getD {}) managed → goal world →
      Tracked original world (baseline.getD {}) released) :
    (releaseComponent task release restore managed released).wp
      (environment task.identity).machine
      (fun remaining after => ∃ components,
        Booked task.identity baseline components after.cache ∧
        Tracked original after.world (baseline.getD {}) components ∧
        ∀ next, remaining = some next → next = components) state := by
  unfold releaseComponent
  split
  · rw [Program.wp_bind]
    refine Program.wp_mono (heals state) ?_
    rintro restored middle ⟨same, closer, reached⟩
    rw [← same] at booked
    cases restored with
    | true =>
      rw [if_pos rfl, Program.wp_bind, Environment.wp_cacheCall]
      rintro ⟨⟩ cache ⟨⟩
      refine ⟨released, booked.setManagedComponents released,
        fewer (tracked.closer closer) (reached rfl), ?_⟩
      rintro next ⟨⟩
      rfl
    | false => exact ⟨managed, booked, tracked.closer closer, nofun⟩
  · refine ⟨managed, booked, tracked, ?_⟩
    rintro next ⟨⟩
    rfl

/-- Releasing what a result no longer manages keeps the thread tracked. -/
theorem releaseComponents_spec (live : (environment task.identity).Alive task.identity)
    (booked : Booked task.identity baseline managed state.cache)
    (tracked : Tracked original state.world (baseline.getD {}) managed) :
    (releaseComponents sched task result (baseline.getD {}) managed).wp
      (environment task.identity).machine
      (fun remaining after => ∃ components,
        Booked task.identity baseline components after.cache ∧
        Tracked original after.world (baseline.getD {}) components ∧
        ∀ next, remaining = some next → next = components) state := by
  rw [releaseComponents, Program.wp_bind]
  refine Program.wp_mono (releaseComponent_spec
    (heals_restoreAffinityBaseline live tracked.parts) booked tracked ?_) ?_
  · rintro world ⟨parts, covered, cpuset, affinity, scheduler, cpuctl⟩ ⟨group, cpus⟩
    refine ⟨parts, ⟨nofun, covered.priority, covered.cpuctl⟩, fun _ => ?_, fun _ => ?_,
      scheduler, cpuctl⟩
    · cases held : managed.affinity with
      | true => exact group (covered.affinity held).2
      | false => exact cpuset held
    · cases held : managed.affinity with
      | true => exact cpus (covered.affinity held).1
      | false => exact affinity held
  rintro (_ | first) middle ⟨components, booked, tracked, same⟩
  · exact ⟨components, booked, tracked, nofun⟩
  obtain rfl := same first rfl
  dsimp only
  rw [Program.wp_bind]
  refine Program.wp_mono (releaseComponent_spec
    (heals_restoreSchedulerBaseline live tracked.parts) booked tracked ?_) ?_
  · rintro world ⟨parts, covered, cpuset, affinity, scheduler, cpuctl⟩ reached
    exact ⟨parts, ⟨covered.affinity, nofun, covered.cpuctl⟩, cpuset, affinity,
      fun _ => reached, cpuctl⟩
  rintro (_ | second) last ⟨components, booked, tracked, same⟩
  · exact ⟨components, booked, tracked, nofun⟩
  obtain rfl := same second rfl
  dsimp only
  refine releaseComponent_spec (heals_restoreCpuctlBaseline live tracked.parts) booked tracked ?_
  rintro world ⟨parts, covered, cpuset, affinity, scheduler, cpuctl⟩ reached
  exact ⟨parts, ⟨covered.affinity, covered.priority, nofun⟩, cpuset, affinity, scheduler,
    fun _ => reached⟩

/-- Marking what a result manages keeps a thread with a sufficient baseline tracked. -/
theorem Tracked.add {world : ThreadState} {recorded : ThreadBaseline}
    (tracked : Tracked original world recorded managed)
    (sufficient : isSufficient sched result recorded = true) :
    Tracked original world recorded (ManagedComponents.add sched managed result) where
  parts := tracked.parts
  covered := coveredBy_add tracked.covered sufficient
  cpuset unmanaged := tracked.cpuset (Bool.or_eq_false_iff.mp unmanaged).1
  affinity unmanaged := tracked.affinity (Bool.or_eq_false_iff.mp unmanaged).1
  scheduler unmanaged := tracked.scheduler (Bool.or_eq_false_iff.mp unmanaged).1
  cpuctl unmanaged := tracked.cpuctl (Bool.or_eq_false_iff.mp unmanaged).1

/-- Taking over a thread whose affinity is managed keeps it tracked. -/
theorem applyAffinity_spec {recorded : ThreadBaseline}
    (tracked : Tracked original state.world recorded managed)
    (marked : hasResolvedAffinity result = true → managed.affinity = true) :
    (CpusetSetter.applyWithResult sched task.identity result).wp
      (environment task.identity).machine
      (fun _ after => after.cache = state.cache ∧
        Tracked original after.world recorded managed) state := by
  unfold CpusetSetter.applyWithResult
  split
  · exact ⟨rfl, tracked⟩
  split
  · exact ⟨rfl, tracked⟩
  rename_i resolved
  have held : managed.affinity = true := marked (by simp at resolved; exact resolved.2)
  dsimp only
  split
  · exact ⟨rfl, tracked⟩
  rw [Environment.wp_setterCall]
  intro taken world effect
  have frame := (effect_own rfl).mp effect
  refine ⟨rfl, tracked.parts, tracked.covered, ?_, ?_, ?_, ?_⟩
  · intro unmanaged
    rw [held] at unmanaged
    cases unmanaged
  · intro unmanaged
    rw [held] at unmanaged
    cases unmanaged
  · intro unmanaged
    rw [frame]
    exact tracked.scheduler unmanaged
  · intro unmanaged
    rw [frame]
    exact tracked.cpuctl unmanaged

/-- Setting the priority of a thread whose scheduler state is managed keeps it tracked. -/
theorem applyPriority_spec {recorded : ThreadBaseline}
    (tracked : Tracked original state.world recorded managed)
    (marked : needsPriorityManagement sched result = true → managed.priority = true) :
    (PrioritySetter.applyWithResult sched task.identity result).wp
      (environment task.identity).machine
      (fun _ after => after.cache = state.cache ∧
        Tracked original after.world recorded managed) state := by
  unfold PrioritySetter.applyWithResult
  dsimp only
  split
  · exact ⟨rfl, tracked⟩
  rename_i needed
  have held : managed.priority = true := by
    apply marked
    rw [Bool.or_eq_true, not_or] at needed
    simpa [needsPriorityManagement] using needed.2
  rw [Environment.wp_setterCall]
  intro ok world effect
  have frame := (effect_own rfl).mp effect
  refine ⟨rfl, tracked.parts, tracked.covered, ?_, ?_, ?_, ?_⟩
  · intro unmanaged
    rw [frame]
    exact tracked.cpuset unmanaged
  · intro unmanaged
    rw [frame]
    exact tracked.affinity unmanaged
  · intro unmanaged
    rw [held] at unmanaged
    cases unmanaged
  · intro unmanaged
    rw [frame]
    exact tracked.cpuctl unmanaged

/-- Moving a thread whose cpuctl group is managed keeps it tracked. -/
theorem applyCpuctl_spec {recorded : ThreadBaseline}
    (tracked : Tracked original state.world recorded managed)
    (marked : result.enableLimit = true → managed.cpuctl = true) :
    (CpuctlSetter.applyWithResult task.identity result).wp (environment task.identity).machine
      (fun _ after => after.cache = state.cache ∧
        Tracked original after.world recorded managed) state := by
  unfold CpuctlSetter.applyWithResult
  split
  · exact ⟨rfl, tracked⟩
  rename_i limited
  have held : managed.cpuctl = true := marked (by simp at limited; exact limited.2)
  split
  · exact ⟨rfl, tracked⟩
  rw [Environment.wp_setterCall]
  intro ok world effect
  have frame := (effect_own rfl).mp effect
  refine ⟨rfl, tracked.parts, tracked.covered, ?_, ?_, ?_, ?_⟩
  · intro unmanaged
    rw [frame]
    exact tracked.cpuset unmanaged
  · intro unmanaged
    rw [frame]
    exact tracked.affinity unmanaged
  · intro unmanaged
    rw [frame]
    exact tracked.scheduler unmanaged
  · intro unmanaged
    rw [held] at unmanaged
    cases unmanaged

/-- An attempt leaves the thread tracked by its entry. -/
theorem attemptResult_spec (live : (environment task.identity).Alive task.identity)
    (booked : Booked task.identity baseline managed state.cache)
    (tracked : Tracked original state.world (baseline.getD {}) managed)
    (sufficient : isSufficient sched result (baseline.getD {}) = true) :
    (attemptResult sched task result managed).wp (environment task.identity).machine
      (fun _ => Entered task.identity original) state := by
  have marked := tracked.add sufficient
  rw [attemptResult, Program.wp_bind]
  refine Program.wp_mono (applyAffinity_spec marked fun needed =>
    Bool.or_eq_true_iff.mpr (.inr needed)) ?_
  rintro taken first ⟨sameFirst, marked⟩
  apply live.wp_orDiscard
  rw [Program.wp_bind]
  refine Program.wp_mono (applyPriority_spec marked fun needed =>
    Bool.or_eq_true_iff.mpr (.inr needed)) ?_
  rintro priority second ⟨sameSecond, marked⟩
  apply live.wp_orDiscard
  rw [Program.wp_bind]
  refine Program.wp_mono (applyCpuctl_spec marked fun needed =>
    Bool.or_eq_true_iff.mpr (.inr needed)) ?_
  rintro moved third ⟨sameThird, marked⟩
  rw [← sameFirst, ← sameSecond, ← sameThird] at booked
  rw [recordApplied]
  apply live.wp_orDiscard
  rw [Program.wp_bind, Environment.wp_cacheCall]
  rintro ⟨⟩ cache ⟨⟩
  have entered := booked.setManagedComponents (ManagedComponents.add sched managed result)
  split
  · rw [Program.wp_bind, Environment.wp_cacheCall]
    rintro ⟨⟩ cache ⟨⟩
    exact ⟨_, _, entered.updateAppliedResult result, marked⟩
  · apply live.wp_orDiscard
    exact ⟨_, _, entered, marked⟩

/-- Forgetting all records of a thread leaves an empty entry. -/
theorem wp_forget {owner : Identity} {α : Type} {value : α}
    {post : α → CallState ThreadState → Prop} (booked : Booked owner baseline managed state.cache)
    (done : ∀ cache, Booked owner none {} cache → post value ⟨state.world, cache⟩) :
    (do
      cacheCall (.clearBaseline owner)
      cacheCall (.clearAppliedResult owner)
      cacheCall (.clearManagedComponents owner)
      pure value : CallProgram α).wp (environment thread).machine post state := by
  rw [Program.wp_bind, Environment.wp_cacheCall]
  rintro ⟨⟩ _ ⟨⟩
  rw [Program.wp_bind, Environment.wp_cacheCall]
  rintro ⟨⟩ _ ⟨⟩
  rw [Program.wp_bind, Environment.wp_cacheCall]
  rintro ⟨⟩ _ ⟨⟩
  exact done _ (booked.clearBaseline.clearAppliedResult.setManagedComponents {})

/-- A restoration leaves the thread tracked by its entry. -/
theorem restoreRecorded_spec {recorded : ThreadBaseline}
    (live : (environment task.identity).Alive task.identity)
    (booked : Booked task.identity (some recorded) managed state.cache)
    (tracked : Tracked original state.world recorded managed) :
    (restoreRecorded task recorded).wp (environment task.identity).machine
      (fun _ => Entered task.identity original) state := by
  have optional : ∀ {part : Bool} {restore : CallProgram Bool} {goal : ThreadState → Prop},
      Heals task.identity original goal restore →
      Heals task.identity original (fun world => part = true → goal world)
        (restoreIf part restore) := by
    intro part restore goal heals state
    cases part with
    | true =>
      refine Program.wp_mono (heals state) ?_
      exact fun ok after ⟨same, closer, reached⟩ => ⟨same, closer, fun success _ => reached success⟩
    | false => exact ⟨rfl, .refl _, nofun⟩
  rw [restoreRecorded]
  apply live.wp_orDiscard
  rw [Program.wp_bind]
  refine Program.wp_mono (optional (heals_restoreCpuctlBaseline live tracked.parts) state) ?_
  rintro cpuctl first ⟨sameFirst, closerFirst, cpuctlDone⟩
  apply live.wp_orDiscard
  rw [Program.wp_bind]
  refine Program.wp_mono (optional (heals_restoreSchedulerBaseline live tracked.parts) first) ?_
  rintro scheduler second ⟨sameSecond, closerSecond, schedulerDone⟩
  apply live.wp_orDiscard
  rw [Program.wp_bind]
  refine Program.wp_mono (heals_restoreAffinityBaseline live tracked.parts second) ?_
  rintro affinity third ⟨sameThird, closerThird, affinityDone⟩
  apply live.wp_orDiscard
  rw [← sameFirst, ← sameSecond, ← sameThird] at booked
  have tracked := ((tracked.closer closerFirst).closer closerSecond).closer closerThird
  unfold finishRestoration
  split
  · rename_i complete
    obtain ⟨both, affinityOk⟩ := Bool.and_eq_true_iff.mp complete
    obtain ⟨cpuctlOk, schedulerOk⟩ := Bool.and_eq_true_iff.mp both
    have fixed : Fixed original third.world recorded := by
      refine ⟨(affinityDone affinityOk).1, (affinityDone affinityOk).2, fun part => ?_,
        fun part => ?_⟩
      · exact closerThird.keepsScheduler (schedulerDone schedulerOk part)
      · exact closerThird.keepsCpuctl (closerSecond.keepsCpuctl (cpuctlDone cpuctlOk part))
    refine wp_forget booked fun cache forgotten => ⟨none, {}, forgotten, ?_⟩
    show Tracked original third.world {} {}
    rw [tracked.eq_original fixed]
    exact .of_original ⟨nofun, nofun, nofun, nofun⟩
  · exact ⟨_, _, booked, tracked⟩

/-- Restoring a thread that is no longer managed leaves it tracked by its entry. -/
theorem restoreBaseline_spec (live : (environment task.identity).Alive task.identity)
    (entered : Entered task.identity original state) :
    (restoreBaseline task).wp (environment task.identity).machine
      (fun _ => Entered task.identity original) state := by
  obtain ⟨baseline, managed, booked, tracked⟩ := entered
  rw [restoreBaseline, Program.wp_bind, Environment.wp_cacheCall]
  rintro found cache ⟨⟩
  rw [booked.getBaseline]
  cases baseline with
  | some recorded => exact restoreRecorded_spec live booked tracked
  | none =>
    dsimp only
    rw [Program.wp_bind, Environment.wp_cacheCall]
    rintro ⟨⟩ _ ⟨⟩
    rw [Program.wp_bind, Environment.wp_cacheCall]
    rintro ⟨⟩ _ ⟨⟩
    have same : state.world = original :=
      tracked.eq_original ⟨nofun, nofun, nofun, nofun⟩
    refine ⟨none, {}, booked.clearAppliedResult.setManagedComponents {}, ?_⟩
    show Tracked original state.world {} {}
    rw [same]
    exact .of_original tracked.parts

/-- A captured baseline has the original parts of the components that are not managed. -/
theorem readBaseline_spec (live : (environment task.identity).Alive task.identity) :
    (readBaseline task).wp (environment task.identity).machine
      (fun baseline after => after = state ∧
        (∀ cpus, baseline.affinity = some cpus → cpus = state.world.affinity) ∧
        (∀ scheduler, baseline.scheduler = some scheduler → scheduler = state.world.scheduler) ∧
        (∀ path, baseline.cpusetPath = some path → path = state.world.cpuset) ∧
        (∀ path, baseline.cpuctlPath = some path → path = state.world.cpuctl)) state := by
  rw [readBaseline, Program.wp_bind, Environment.wp_setterCall]
  intro affinity first effect
  obtain ⟨rfl, cpus⟩ := (effect_own rfl).mp effect
  rw [Program.wp_bind, Environment.wp_setterCall]
  intro scheduler second effect
  obtain ⟨rfl, policy⟩ := (effect_own rfl).mp effect
  rw [Program.wp_bind]
  apply live.wp_getThreadCgroupPaths
  intro paths reads
  obtain ⟨cpuset, cpuctl⟩ := reads rfl
  refine ⟨rfl, ?_, ?_, ?_, ?_⟩
  · intro value recorded
    by_cases unread : affinity = []
    · simp [unread] at recorded
    · rw [if_neg unread, Option.some.injEq] at recorded
      rw [← recorded]
      exact cpus.resolve_left unread
  · intro value recorded
    have read : scheduler = some state.world.scheduler :=
      policy.resolve_left fun unread => by simp [unread] at recorded
    exact Option.some.inj (recorded.symm.trans read)
  · intro value recorded
    by_cases unread : paths.cpuset = []
    · simp [unread] at recorded
    · rw [if_neg unread, Option.some.injEq] at recorded
      rw [← recorded]
      exact cpuset.resolve_left unread
  · intro value recorded
    by_cases unread : paths.cpuctl = []
    · simp [unread] at recorded
    · rw [if_neg unread, Option.some.injEq] at recorded
      rw [← recorded]
      exact cpuctl.resolve_left unread

/-- A part of merged baselines is original when the old part is and a new one, used where the
old one is missing, is too. -/
theorem eq_of_merged {α : Type} {part added : Option α} {value world before : α}
    (merged : part.or added = some value) (old : ∀ {value}, part = some value → value = before)
    (new : ∀ value, added = some value → value = world) (missing : part = none → world = before) :
    value = before := by
  cases recorded : part with
  | some other =>
    rw [recorded, Option.some_or] at merged
    exact old (recorded.trans merged)
  | none =>
    rw [recorded, Option.none_or] at merged
    exact (new value merged).trans (missing recorded)

/-- A component without its part recorded is not managed. -/
theorem unmanaged_of_missing {α : Type} {flag : Bool} {part : Option α}
    (covered : flag = true → part.isSome = true) (missing : part = none) : flag = false := by
  cases flag with
  | false => rfl
  | true =>
    have present := covered rfl
    rw [missing] at present
    cases present

/-- Recording a captured baseline keeps a thread tracked: a part that was not recorded belongs
to a component that is not managed, so it was captured in its original state. -/
theorem Tracked.record {world : ThreadState} {recorded added : ThreadBaseline}
    (tracked : Tracked original world recorded managed)
    (cpus : ∀ value, added.affinity = some value → value = world.affinity)
    (policy : ∀ value, added.scheduler = some value → value = world.scheduler)
    (cpuset : ∀ value, added.cpusetPath = some value → value = world.cpuset)
    (cpuctl : ∀ value, added.cpuctlPath = some value → value = world.cpuctl) :
    Tracked original world (recorded.merge added) managed := by
  have covered := tracked.covered
  refine ⟨⟨fun merged => ?_, fun merged => ?_, fun merged => ?_, fun merged => ?_⟩,
    covered.merge added, tracked.cpuset, tracked.affinity, tracked.scheduler, tracked.cpuctl⟩
  · exact eq_of_merged merged tracked.parts.affinity cpus fun missing =>
      tracked.affinity (unmanaged_of_missing (fun held => (covered.affinity held).1) missing)
  · exact eq_of_merged merged tracked.parts.scheduler policy fun missing =>
      tracked.scheduler (unmanaged_of_missing covered.priority missing)
  · exact eq_of_merged merged tracked.parts.cpuset cpuset fun missing =>
      tracked.cpuset (unmanaged_of_missing (fun held => (covered.affinity held).2) missing)
  · exact eq_of_merged merged tracked.parts.cpuctl cpuctl fun missing =>
      tracked.cpuctl (unmanaged_of_missing covered.cpuctl missing)

/-- Capturing leaves the thread tracked by a recorded baseline. -/
theorem captureBaselineIfNeeded_spec (live : (environment task.identity).Alive task.identity)
    (entered : Entered task.identity original state) :
    (captureBaselineIfNeeded task).wp (environment task.identity).machine
      (fun _ after => Entered task.identity original after) state := by
  obtain ⟨baseline, managed, booked, tracked⟩ := entered
  rw [captureBaselineIfNeeded, Program.wp_bind]
  refine Program.wp_mono (readBaseline_spec live) ?_
  rintro added _ ⟨rfl, cpus, policy, cpuset, cpuctl⟩
  rw [Program.wp_bind]
  apply live.wp_identityMatches
  rw [if_pos rfl, Environment.wp_cacheCall]
  rintro ⟨⟩ cache ⟨⟩
  obtain ⟨next, booked, made⟩ := booked.setBaseline added
  have recorded := tracked.record cpus policy cpuset cpuctl
  refine ⟨some next, managed, booked, ?_⟩
  rcases made with ⟨rfl, rfl⟩ | ⟨old, rfl, rfl⟩
  · simpa [ThreadBaseline.merge] using recorded
  · exact recorded

/-- A call of `apply_result` leaves the thread tracked by its entry. -/
theorem applyResult_spec (live : (environment task.identity).Alive task.identity)
    (entered : Entered task.identity original state) :
    (applyResult sched task result).wp (environment task.identity).machine
      (fun _ => Entered task.identity original) state := by
  unfold applyResult
  split
  · rw [Program.wp_bind]
    refine Program.wp_mono (captureBaselineIfNeeded_spec live entered) ?_
    rintro ⟨⟩ first ⟨baseline, managed, booked, tracked⟩
    rw [Program.wp_bind, Environment.wp_cacheCall]
    rintro found cache ⟨⟩
    rw [booked.getBaseline]
    cases baseline with
    | none => exact ⟨_, _, booked, tracked⟩
    | some recorded =>
      dsimp only
      split
      · rename_i sufficient
        rw [applyManaged, Program.wp_bind, Environment.wp_cacheCall]
        rintro found cache ⟨⟩
        rw [booked.getManagedComponents, Program.wp_bind]
        refine Program.wp_mono (releaseComponents_spec live booked tracked) ?_
        rintro (_ | remaining) second ⟨components, booked, tracked, same⟩
        · exact ⟨_, _, booked, tracked⟩
        · obtain rfl := same remaining rfl
          exact attemptResult_spec live booked tracked sufficient
      · exact ⟨_, _, booked, tracked⟩
  · exact restoreBaseline_spec live entered

end Applying

/-! ## Tasks of the thread -/

section Tasks

variable {sched : SchedConfig} {task : DispatchTask} {state : CallState ThreadState}

/-- A task with a cached result leaves the thread recoverable. -/
theorem processCached_spec (live : (environment task.identity).Alive task.identity)
    {entry : ThreadCacheEntry} (entered : Entered task.identity original state) :
    (processCached sched task entry).wp (environment task.identity).machine
      (fun _ => Recoverable task.identity original) state := by
  have calls : (callApplyResult sched task entry.result).wp (environment task.identity).machine
      (fun _ => Recoverable task.identity original) state := by
    rw [callApplyResult, Program.wp_bind]
    exact Program.wp_mono (applyResult_spec live entered) fun _ _ entered => .inl entered
  rw [processCached, Program.wp_bind, Environment.wp_cacheCall]
  rintro applied cache ⟨⟩
  split
  · exact calls
  · split
    · split
      · rw [Program.wp_bind]
        refine Program.wp_mono (quiet.wp_observing (observes_hasDrifted sched task _)) ?_
        rintro drifted _ rfl
        split
        · exact calls
        · exact .inl entered
      · exact .inl entered
    · exact calls

/-- An update gives the thread an entry that tracks it. -/
theorem Recoverable.update {thread : Identity} (recoverable : Recoverable thread original state)
    (observation : Observation) (record : ResultRecord) :
    Entered thread original ⟨state.world, state.cache.update thread observation record⟩ := by
  have stored := ThreadCache.lookup_update state.cache thread observation record
  rcases recoverable with ⟨baseline, managed, booked, tracked⟩ | ⟨same, foreign⟩
  · obtain ⟨entry, found, same, recorded, held⟩ := booked
    rw [found, ThreadCache.next_of_identity same] at stored
    exact ⟨baseline, managed, ⟨_, stored, same, recorded, held⟩, tracked⟩
  · refine ⟨none, {}, ⟨_, stored, ThreadCache.next_identity _ _ _ _, ?_, ?_⟩, ?_⟩
    · unfold ThreadCacheEntry.next
      split
      · rename_i entry found
        rw [if_neg (foreign entry found)]
        rfl
      · rfl
    · unfold ThreadCacheEntry.next
      split
      · rename_i entry found
        rw [if_neg (foreign entry found)]
        rfl
      · rfl
    · show Tracked original state.world {} {}
      rw [same]
      exact .of_original ⟨nofun, nofun, nofun, nofun⟩

/-- A task of the thread leaves it recoverable. -/
theorem processDispatchTask_own (live : (environment task.identity).Alive task.identity)
    (recoverable : Recoverable task.identity original state) :
    (processDispatchTask sched task).wp (environment task.identity).machine
      (fun _ => Recoverable task.identity original) state := by
  rw [processDispatchTask]
  apply live.wp_orDiscard
  rw [Program.wp_bind, Environment.wp_sysCall rfl]
  intro skipped _
  split
  · exact recoverable
  rw [processFresh, Program.wp_bind, Environment.wp_cacheCall]
  rintro found cache ⟨⟩
  cases found : state.cache.find task.identity task.observation with
  | some entry =>
    obtain ⟨stored, same, _⟩ := ThreadCache.find_eq_some.mp found
    rcases recoverable with entered | ⟨_, foreign⟩
    · exact processCached_spec live entered
    · exact absurd same (foreign entry stored)
  | none =>
    rw [processUncached, Program.wp_bind, Environment.wp_sysCall rfl]
    intro result _
    rw [Program.wp_bind, Environment.wp_cacheCall]
    rintro ⟨⟩ cache ⟨⟩
    rw [callApplyResult, Program.wp_bind]
    exact Program.wp_mono (applyResult_spec live (recoverable.update task.observation _))
      fun _ _ entered => .inl entered

end Tasks

/-! ## Progress of the thread under any program -/

/-- A stored baseline of the thread has the original parts of everything that is managed. -/
def Restorable (thread : Identity) (original : ThreadState) (recorded : ThreadBaseline)
    (state : CallState ThreadState) : Prop :=
  PartOf recorded original ∧ ∃ baseline managed, Booked thread baseline managed state.cache ∧
    Tracked original state.world (baseline.getD {}) managed ∧ managed.CoveredBy recorded

/-- The thread stays recoverable, its stored baselines restorable and its original state. -/
structure Progress (thread : Identity) (original : ThreadState)
    (before after : CallState ThreadState) : Prop where
  recoverable : Recoverable thread original before → Recoverable thread original after
  restorable : ∀ {recorded}, Restorable thread original recorded before →
    Restorable thread original recorded after
  original : before.world = original → after.world = original

namespace Progress

variable {before middle after : CallState ThreadState}

/-- Nothing happened. -/
theorem refl (state : CallState ThreadState) : Progress thread original state state :=
  ⟨id, id, id⟩

/-- Two steps of progress make one. -/
theorem trans (first : Progress thread original before middle)
    (second : Progress thread original middle after) : Progress thread original before after where
  recoverable holds := second.recoverable (first.recoverable holds)
  restorable holds := second.restorable (first.restorable holds)
  original holds := second.original (first.original holds)

/-- A thread in an unchanged state keeps what is recorded of it when its entry stays, and stays
without one otherwise. -/
theorem of_entry (world : after.world = before.world)
    (stays : ∀ entry, before.cache.lookup thread.key = some entry → entry.identity = thread →
      after.cache.lookup thread.key = some entry)
    (appears : ∀ entry, after.cache.lookup thread.key = some entry →
      before.cache.lookup thread.key = some entry) :
    Progress thread original before after := by
  have booked : ∀ {baseline managed}, Booked thread baseline managed before.cache →
      Booked thread baseline managed after.cache :=
    fun ⟨entry, stored, same, recorded, held⟩ =>
      ⟨entry, stays entry stored same, same, recorded, held⟩
  refine ⟨?_, ?_, fun same => world.trans same⟩
  · rintro (⟨baseline, managed, held, tracked⟩ | ⟨same, foreign⟩)
    · exact .inl ⟨baseline, managed, booked held, world ▸ tracked⟩
    · exact .inr ⟨world.trans same, fun entry stored => foreign entry (appears entry stored)⟩
  · rintro recorded ⟨parts, baseline, managed, held, tracked, covered⟩
    exact ⟨parts, baseline, managed, booked held, world ▸ tracked, covered⟩

end Progress

section Others

variable {other : Identity} {state : CallState ThreadState} {α : Type}

/-- The check of another identity with the thread's ID fails while the thread lives. -/
theorem wp_orDiscard_stale (original : ThreadState) (stale : other ≠ thread) (sameTid : other.tid = thread.tid) {lost : α}
    {rest : CallProgram α} :
    (orDiscard other lost rest).wp (environment thread).machine
      (fun value after => value = lost ∧ Progress thread original state after) state := by
  rw [orDiscard, Program.wp_bind]
  apply Environment.wp_identityMatches
  intro ok checked
  have failed : ok = false := by
    by_contra success
    obtain ⟨_, _, process, began, member⟩ := checked (by simpa using success)
    have samePid : other.pid = thread.pid := by
      have truth : true = decide (other.pid = thread.pid) := member sameTid
      simpa using truth.symm
    have sameProcess := process samePid
    have sameThread := began (Prod.ext samePid sameTid)
    apply stale
    cases other
    cases thread
    simp_all
  subst failed
  rw [if_neg (by simp), Program.wp_bind, Environment.wp_cacheCall]
  rintro ⟨⟩ cache ⟨⟩
  refine ⟨rfl, .of_entry rfl ?_ ?_⟩
  · intro entry stored same
    exact ThreadCache.lookup_eraseThreadIfIdentity stored (by rw [same]; exact stale.symm)
  · exact fun entry stored => ThreadCache.lookup_of_eraseThreadIfIdentity stored

/-- Calls for another thread ID leave the thread and its entry. -/
theorem wp_isFor_other (original : ThreadState) {program : CallProgram α} (calls : program.Calls (CallOp.IsFor other))
    (differ : other.tid ≠ thread.tid) :
    program.wp (environment thread).machine
      (fun _ after => Progress thread original state after) state := by
  have differKey : thread.key ≠ other.key := fun same => differ (congrArg Prod.snd same).symm
  let frame (after : CallState ThreadState) : Prop :=
    after.world = state.world ∧
      after.cache.lookup thread.key = state.cache.lookup thread.key
  have framed : program.wp (environment thread).machine (fun _ => frame) state := by
    refine calls.wp_invariant frame ?_ ⟨rfl, rfl⟩
    rintro before operation response after own ⟨world, stored⟩ stepped
    cases operation with
    | setter call =>
      obtain ⟨effect, same⟩ := stepped
      have away : call.thread.tid ≠ thread.tid := by
        rw [show call.thread = other from own]
        exact differ
      exact ⟨((effect_other away).mp effect).trans world, by rw [same]; exact stored⟩
    | sys operation =>
      cases operation with
      | cache call =>
        obtain ⟨step, same⟩ := stepped
        exact ⟨same.trans world, (CacheCall.lookup_of_owner step own.1 differKey).trans stored⟩
      | _ =>
        obtain ⟨_, rfl⟩ := stepped
        exact ⟨world, stored⟩
  refine Program.wp_mono framed ?_
  rintro value after ⟨world, stored⟩
  refine .of_entry world ?_ ?_
  · intro entry found _
    rw [stored]
    exact found
  · intro entry found
    rw [← stored]
    exact found

end Others

/-- Any task leaves the thread recoverable. -/
theorem processDispatchTask_spec (live : (environment thread).Alive thread) (sched : SchedConfig)
    (task : DispatchTask) {state : CallState ThreadState}
    (recoverable : Recoverable thread original state) :
    (processDispatchTask sched task).wp (environment thread).machine
      (fun _ => Recoverable thread original) state := by
  by_cases own : task.identity = thread
  · subst own
    exact processDispatchTask_own live recoverable
  · by_cases sameTid : task.identity.tid = thread.tid
    · refine Program.wp_mono (wp_orDiscard_stale original own sameTid) ?_
      exact fun _ after ⟨_, progress⟩ => progress.recoverable recoverable
    · refine Program.wp_mono (wp_isFor_other original
        (isFor_processDispatchTask sched task) sameTid) ?_
      exact fun _ after progress => progress.recoverable recoverable

/-! ## Restoring every baseline -/

section RestoringAll

variable {entry : StoredThreadBaseline} {state : CallState ThreadState}

/-- What the restoration of a stored baseline promises. -/
def Restores (thread : Identity) (original : ThreadState) (entry : StoredThreadBaseline)
    (before : CallState ThreadState) (ok : Bool) (after : CallState ThreadState) : Prop :=
  Progress thread original before after ∧
    (ok = true → entry.identity = thread → after.world = original)

/-- Restoring a part heals the thread. -/
theorem heals_restorePart {α : Type} {part : Option α} {restore : α → CallProgram Bool}
    {goal : ThreadState → Prop}
    (heals : ∀ value, part = some value → Heals thread original goal (restore value)) :
    Heals thread original (fun world => part.isSome = true → goal world)
      (restorePart part restore) := by
  intro state
  cases part with
  | none => exact ⟨rfl, .refl _, nofun⟩
  | some value =>
    refine Program.wp_mono (heals value rfl state) ?_
    exact fun ok after ⟨same, closer, reached⟩ => ⟨same, closer, fun success _ => reached success⟩

/-- A step of a restoration that leaves the cache and moves the thread towards its original
state is progress. -/
theorem Progress.of_closer {before after : CallState ThreadState}
    (same : after.cache = before.cache) (closer : Closer original before.world after.world) :
    Progress thread original before after := by
  refine ⟨?_, ?_, ?_⟩
  · rintro (⟨baseline, managed, booked, tracked⟩ | ⟨holds, foreign⟩)
    · exact .inl ⟨baseline, managed, same ▸ booked, tracked.closer closer⟩
    · rw [holds] at closer
      exact .inr ⟨closer.keeps, same ▸ foreign⟩
  · rintro recorded ⟨parts, baseline, managed, booked, tracked, covered⟩
    exact ⟨parts, baseline, managed, same ▸ booked, tracked.closer closer, covered⟩
  · intro holds
    rw [holds] at closer
    exact closer.keeps

/-- Restoring the thread's own stored baseline. -/
theorem restoreStored_own (live : (environment entry.identity).Alive entry.identity)
    (restorable : Restorable entry.identity original entry.baseline state) :
    (restoreStored entry).wp (environment entry.identity).machine
      (Restores entry.identity original entry state) state := by
  obtain ⟨parts, baseline, managed, booked, tracked, covered⟩ := restorable
  -- Each part is restored after a check of the identity, which a live thread passes.
  have cpuctlPart : ∀ {rest : Bool → CallProgram Bool} {post : Bool → CallState ThreadState → Prop},
      (∀ ok after, after.cache = state.cache ∧ Closer original state.world after.world ∧
        (ok = true → entry.baseline.cpuctlPath.isSome = true → after.world.cpuctl = original.cpuctl) →
        (rest ok).wp (environment entry.identity).machine post after) →
      (restoreStoredCpuctl entry rest).wp (environment entry.identity).machine post state := by
    intro rest post continues
    unfold restoreStoredCpuctl
    cases recorded : entry.baseline.cpuctlPath with
    | none => exact continues true state ⟨rfl, .refl _, fun _ part => by simp [recorded] at part⟩
    | some path =>
      apply live.wp_orDiscard
      rw [Program.wp_bind, parts.cpuctl recorded]
      refine Program.wp_mono (heals_restoreCpuctlCgroup state) ?_
      rintro ok after ⟨same, closer, reached⟩
      exact continues ok after ⟨same, closer, fun success _ => reached success⟩
  rw [restoreStored]
  apply live.wp_orDiscard
  apply cpuctlPart
  rintro cpuctl first ⟨sameFirst, closerFirst, cpuctlDone⟩
  apply live.wp_orDiscard
  rw [Program.wp_bind]
  refine Program.wp_mono (heals_restorePart (fun scheduler recorded => by
    rw [parts.scheduler recorded]; exact heals_restoreScheduler) first) ?_
  rintro scheduler second ⟨sameSecond, closerSecond, schedulerDone⟩
  apply live.wp_orDiscard
  rw [Program.wp_bind]
  refine Program.wp_mono (heals_restorePart (fun path recorded => by
    rw [parts.cpuset recorded]; exact heals_restoreCpusetCgroup) second) ?_
  rintro cpuset third ⟨sameThird, closerThird, cpusetDone⟩
  apply live.wp_orDiscard
  rw [Program.wp_bind]
  refine Program.wp_mono (heals_restorePart (fun cpus recorded => by
    rw [parts.affinity recorded]; exact heals_restoreAffinity) third) ?_
  rintro affinity last ⟨sameLast, closerLast, affinityDone⟩
  apply live.wp_orDiscard
  have same := sameLast.trans (sameThird.trans (sameSecond.trans sameFirst))
  have closer := ((closerFirst.trans closerSecond).trans closerThird).trans closerLast
  have progress : Progress entry.identity original state last := .of_closer same closer
  rw [← same] at booked
  unfold finishStored
  split
  · rename_i complete
    simp only [Bool.and_eq_true] at complete
    obtain ⟨⟨⟨cpuctlOk, schedulerOk⟩, cpusetOk⟩, affinityOk⟩ := complete
    have fixed : Fixed original last.world entry.baseline := by
      refine ⟨fun part => ?_, affinityDone affinityOk, fun part => ?_, fun part => ?_⟩
      · exact closerLast.keepsCpuset (cpusetDone cpusetOk part)
      · exact closerLast.keepsScheduler
          (closerThird.keepsScheduler (schedulerDone schedulerOk part))
      · exact closerLast.keepsCpuctl (closerThird.keepsCpuctl
          (closerSecond.keepsCpuctl (cpuctlDone cpuctlOk part)))
    have healed := tracked.closer closer
    have whole : last.world = original := by
      refine Tracked.eq_original ⟨parts, covered, healed.cpuset, healed.affinity,
        healed.scheduler, healed.cpuctl⟩ fixed
    refine wp_forget booked fun cache forgotten => ?_
    refine ⟨progress.trans ⟨?_, ?_, id⟩, fun _ _ => whole⟩
    · refine fun _ => .inl ⟨none, {}, forgotten, ?_⟩
      show Tracked original last.world {} {}
      rw [whole]
      exact .of_original ⟨nofun, nofun, nofun, nofun⟩
    · rintro recorded ⟨recordedParts, _⟩
      refine ⟨recordedParts, none, {}, forgotten, ?_, coveredBy_none⟩
      show Tracked original last.world {} {}
      rw [whole]
      exact .of_original ⟨nofun, nofun, nofun, nofun⟩
  · exact ⟨progress, nofun⟩

/-- Restoring any stored baseline. -/
theorem restoreStored_spec (live : (environment thread).Alive thread)
    (restorable : entry.identity = thread → Restorable thread original entry.baseline state) :
    (restoreStored entry).wp (environment thread).machine
      (Restores thread original entry state) state := by
  by_cases own : entry.identity = thread
  · have restorable := restorable own
    subst own
    exact restoreStored_own live restorable
  · by_cases sameTid : entry.identity.tid = thread.tid
    · refine Program.wp_mono (wp_orDiscard_stale original own sameTid) ?_
      exact fun _ after ⟨_, progress⟩ => ⟨progress, fun _ same => absurd same own⟩
    · refine Program.wp_mono (wp_isFor_other original (isFor_restoreStored entry) sameTid) ?_
      exact fun _ after progress => ⟨progress, fun _ same => absurd same own⟩

/-- Restoring stored baselines one after the other. -/
theorem restoreEach_spec (original : ThreadState) (live : (environment thread).Alive thread)
    {entries : List StoredThreadBaseline}
    (restorable : ∀ entry ∈ entries, entry.identity = thread →
      Restorable thread original entry.baseline state) :
    (restoreEach entries).wp (environment thread).machine
      (fun ok after => Progress thread original state after ∧
        (ok = true → ∀ entry ∈ entries, entry.identity = thread → after.world = original))
      state := by
  induction entries generalizing state with
  | nil => exact ⟨.refl _, nofun⟩
  | cons entry rest ih =>
    rw [restoreEach, Program.wp_bind]
    refine Program.wp_mono (restoreStored_spec live (restorable entry List.mem_cons_self)) ?_
    rintro restored middle ⟨progress, done⟩
    rw [Program.wp_bind]
    refine Program.wp_mono (ih fun other member same => progress.restorable
      (restorable other (List.mem_cons_of_mem _ member) same)) ?_
    rintro others after ⟨further, rest⟩
    refine ⟨progress.trans further, fun success other member same => ?_⟩
    obtain ⟨restoredOk, othersOk⟩ := Bool.and_eq_true_iff.mp success
    rcases List.mem_cons.mp member with rfl | member
    · exact further.original (done restoredOk same)
    · exact rest othersOk other member same

/-- Restoring every baseline leaves the thread recoverable, and original when it succeeds. -/
theorem restoreAllThreadBaselines_spec (live : (environment thread).Alive thread)
    (recoverable : Recoverable thread original state) (keyed : state.cache.Keyed) :
    restoreAllThreadBaselines.wp (environment thread).machine
      (fun ok after => Recoverable thread original after ∧
        (ok = true → after.world = original)) state := by
  rw [restoreAllThreadBaselines, Program.wp_bind, Environment.wp_cacheCall]
  rintro listed cache ⟨order, rfl⟩
  have listing : ∀ entry, entry ∈ listed ↔ ∃ found,
      state.cache.lookup entry.identity.key = some found ∧ found.identity = entry.identity ∧
        found.baseline = some entry.baseline := fun entry =>
    order.mem_iff.trans (ThreadCache.mem_getAllBaselines keyed)
  refine Program.wp_mono (restoreEach_spec original live ?_) ?_
  · rintro entry member rfl
    obtain ⟨found, stored, same, recorded⟩ := (listing entry).mp member
    rcases recoverable with ⟨baseline, managed, booked, tracked⟩ | ⟨_, foreign⟩
    · have booking := booked
      obtain ⟨other, storedOther, _, rfl, _⟩ := booked
      obtain rfl := Option.some.inj (stored.symm.trans storedOther)
      rw [recorded] at booking tracked
      exact ⟨tracked.parts, some entry.baseline, managed, booking, tracked, tracked.covered⟩
    · exact absurd same (foreign found stored)
  · rintro ok after ⟨progress, done⟩
    refine ⟨progress.recoverable recoverable, fun success => ?_⟩
    rcases recoverable with ⟨baseline, managed, booked, tracked⟩ | ⟨same, _⟩
    · cases baseline with
      | none => exact progress.original (tracked.eq_original ⟨nofun, nofun, nofun, nofun⟩)
      | some recorded =>
        obtain ⟨found, stored, same, held, _⟩ := booked
        exact done success ⟨thread, recorded⟩ ((listing _).mpr ⟨found, stored, same, held⟩) rfl
    · exact progress.original same

end RestoringAll

/-! ## Reload and shutdown -/

section Transitions

variable {state : CallState ThreadState}

/-- Running the old scheduler again changes nothing. -/
theorem wp_restartOld {post : CallState ThreadState → Prop} (holds : post state) :
    restartOld.wp (environment thread).machine (fun _ => post) state := by
  rw [restartOld, Program.wp_bind, Environment.wp_sysCall rfl]
  intro started _
  split <;> exact holds

/-- Nor does initialising its groups again. -/
theorem wp_recoverOld {post : CallState ThreadState → Prop} (holds : post state) :
    recoverOld.wp (environment thread).machine (fun _ => post) state := by
  rw [recoverOld, Program.wp_bind, Environment.wp_sysCall rfl]
  intro initialised _
  split
  · exact wp_restartOld holds
  · exact holds

/-- Forgetting the scheduling state keeps an original thread recoverable. -/
theorem Recoverable.clearSchedulingState (recoverable : Recoverable thread original state)
    (same : state.world = original) :
    Recoverable thread original
      ⟨state.world, state.cache.clearSchedulingStatePreservingBaselines⟩ := by
  by_cases present : ∃ entry,
      state.cache.clearSchedulingStatePreservingBaselines.lookup thread.key = some entry ∧
        entry.identity = thread
  · obtain ⟨entry, stored, own⟩ := present
    have found := stored
    rw [ThreadCache.clearSchedulingStatePreservingBaselines, Table.lookup_mapValues] at found
    obtain ⟨old, kept, rfl⟩ := Option.map_eq_some_iff.mp found
    obtain ⟨before, _⟩ := Table.lookup_retain_eq_some.mp kept
    rcases recoverable with ⟨baseline, managed, ⟨other, storedOther, _, rfl, _⟩, tracked⟩ |
      ⟨_, foreign⟩
    · obtain rfl := Option.some.inj (before.symm.trans storedOther)
      refine .inl ⟨old.baseline, {}, ⟨_, stored, own, rfl, rfl⟩, ?_⟩
      show Tracked original state.world (old.baseline.getD {}) {}
      rw [same]
      exact .of_original tracked.parts
    · exact absurd own (foreign old before)
  · refine .inr ⟨same, fun entry stored own => present ⟨entry, stored, own⟩⟩

/-- A reload leaves the thread recoverable. -/
theorem reload_spec (live : (environment thread).Alive thread)
    (recoverable : Recoverable thread original state) (keyed : state.cache.Keyed) :
    reload.wp (environment thread).machine (fun _ => Recoverable thread original) state := by
  rw [reload, Program.wp_bind, Environment.wp_sysCall rfl]
  rintro ⟨⟩ _
  rw [Program.wp_bind]
  refine Program.wp_mono (restoreAllThreadBaselines_spec live recoverable keyed) ?_
  rintro restored middle ⟨recoverable, done⟩
  split
  · rename_i success
    rw [Program.wp_bind, Environment.wp_sysCall rfl]
    intro initialised _
    split
    · rw [Program.wp_bind, Environment.wp_sysCall rfl]
      intro started _
      split
      · rw [Program.wp_bind, Environment.wp_cacheCall]
        rintro ⟨⟩ cache ⟨⟩
        exact recoverable.clearSchedulingState (done success)
      · exact wp_recoverOld recoverable
    · exact wp_recoverOld recoverable
  · exact wp_restartOld recoverable

/-- Repeating the restoration leaves the thread recoverable, and original when it succeeds. -/
theorem runRestorationWithRetry_spec (live : (environment thread).Alive thread)
    {delay : CallProgram Unit}
    (pauses : ∀ state, delay.wp (environment thread).machine (fun _ after => after = state) state)
    (remaining : Nat) (recoverable : Recoverable thread original state)
    (keyed : state.cache.Keyed) :
    (runRestorationWithRetry restoreAllThreadBaselines delay remaining).wp
      (environment thread).machine
      (fun ok after => Recoverable thread original after ∧ (ok = true → after.world = original))
      state := by
  induction remaining generalizing state with
  | zero => exact ⟨recoverable, nofun⟩
  | succ remaining ih =>
    rw [runRestorationWithRetry, Program.wp_bind]
    refine Program.wp_mono (Program.wp_and
      (restoreAllThreadBaselines_spec live recoverable keyed) (Environment.wp_keyed keyed)) ?_
    rintro restored middle ⟨⟨recoverable, done⟩, keyed⟩
    split
    · rename_i success
      exact ⟨recoverable, fun _ => done success⟩
    · split
      · exact ⟨recoverable, nofun⟩
      · rw [Program.wp_bind]
        refine Program.wp_mono (pauses middle) ?_
        rintro ⟨⟩ _ rfl
        exact ih recoverable keyed

/-- A shutdown leaves the thread recoverable. -/
theorem shutdown_spec (live : (environment thread).Alive thread)
    (recoverable : Recoverable thread original state) (keyed : state.cache.Keyed) :
    shutdown.wp (environment thread).machine (fun _ => Recoverable thread original) state := by
  rw [shutdown, Program.wp_bind, Environment.wp_sysCall rfl]
  rintro ⟨⟩ _
  rw [Program.wp_bind]
  refine Program.wp_mono (runRestorationWithRetry_spec live ?_ _ recoverable keyed) ?_
  · intro state
    rw [Environment.wp_sysCall rfl]
    exact fun _ _ => rfl
  · rintro restored middle ⟨recoverable, done⟩
    split
    · rename_i success
      rw [Program.wp_bind, Environment.wp_cacheCall]
      rintro ⟨⟩ cache ⟨⟩
      rw [Environment.wp_sysCall rfl]
      rintro ⟨⟩ _
      exact .inr ⟨done success, fun entry stored => by simp at stored⟩
    · rw [Environment.wp_sysCall rfl]
      exact fun _ _ => recoverable

end Transitions

/-! ## Runs -/

/-- The states a run of tasks, reloads and shutdowns reaches, from the thread's original state
and a cache that knows nothing of the thread. -/
inductive Reached (thread : Identity) (original : ThreadState) : CallState ThreadState → Prop where
  /-- Nothing is recorded of the thread. -/
  | start {cache : ThreadCache} (keyed : cache.Keyed)
      (fresh : ∀ entry, cache.lookup thread.key = some entry → entry.identity ≠ thread) :
      Reached thread original ⟨original, cache⟩
  /-- A task of any thread under any configuration. -/
  | task {state after : CallState ThreadState} {outcome : TaskOutcome} (sched : SchedConfig)
      (task : DispatchTask) (reached : Reached thread original state)
      (runs : Program.Run (environment thread).machine (processDispatchTask sched task) state
        outcome after) :
      Reached thread original after
  /-- A reload. -/
  | reload {state after : CallState ThreadState} {outcome : ReloadOutcome}
      (reached : Reached thread original state)
      (runs : Program.Run (environment thread).machine reload state outcome after) :
      Reached thread original after
  /-- A shutdown. -/
  | shutdown {state after : CallState ThreadState} (reached : Reached thread original state)
      (runs : Program.Run (environment thread).machine shutdown state () after) :
      Reached thread original after

/-- Every state of a run has the thread recoverable. -/
theorem Reached.recoverable {state : CallState ThreadState}
    (validPid : FileUtils.isValidId thread.pid = true)
    (validTid : FileUtils.isValidId thread.tid = true) (reached : Reached thread original state) :
    Recoverable thread original state ∧ state.cache.Keyed := by
  have live := alive validPid validTid
  induction reached with
  | start keyed fresh => exact ⟨.inr ⟨rfl, fresh⟩, keyed⟩
  | task sched task _ runs ih =>
    exact ⟨runs.post (processDispatchTask_spec live sched task ih.1),
      runs.post (Environment.wp_keyed ih.2)⟩
  | reload _ runs ih =>
    exact ⟨runs.post (reload_spec live ih.1 ih.2), runs.post (Environment.wp_keyed ih.2)⟩
  | shutdown _ runs ih =>
    exact ⟨runs.post (shutdown_spec live ih.1 ih.2), runs.post (Environment.wp_keyed ih.2)⟩

/-- The thread's entry has this recorded of it. -/
def HasRecorded (thread : Identity) (cache : ThreadCache)
    (holds : ThreadBaseline → ManagedComponents → Prop) : Prop :=
  ∃ entry baseline, cache.lookup thread.key = some entry ∧ entry.identity = thread ∧
    entry.baseline = some baseline ∧ holds baseline entry.managedComponents

/-- Every component that differs from its original state has that state recorded and its flag
set. -/
structure Accounted (thread : Identity) (original : ThreadState) (state : CallState ThreadState) :
    Prop where
  /-- The cpuset group and the CPUs. -/
  affinity : state.world.cpuset ≠ original.cpuset ∨ state.world.affinity ≠ original.affinity →
    HasRecorded thread state.cache fun baseline managed =>
      baseline.cpusetPath = some original.cpuset ∧ baseline.affinity = some original.affinity ∧
        managed.affinity = true
  /-- The scheduler state. -/
  scheduler : state.world.scheduler ≠ original.scheduler →
    HasRecorded thread state.cache fun baseline managed =>
      baseline.scheduler = some original.scheduler ∧ managed.priority = true
  /-- The cpuctl group. -/
  cpuctl : state.world.cpuctl ≠ original.cpuctl →
    HasRecorded thread state.cache fun baseline managed =>
      baseline.cpuctlPath = some original.cpuctl ∧ managed.cpuctl = true

/-- A recorded part is the original one. -/
theorem eq_some_of_part {α : Type} {part : Option α} {before : α}
    (old : ∀ {value}, part = some value → value = before) (present : part.isSome = true) :
    part = some before := by
  obtain ⟨value, recorded⟩ := Option.isSome_iff_exists.mp present
  rw [recorded, old recorded]

/-- A recoverable thread is accounted for. -/
theorem Recoverable.accounted {state : CallState ThreadState}
    (recoverable : Recoverable thread original state) : Accounted thread original state := by
  rcases recoverable with ⟨baseline, managed, ⟨entry, stored, own, recorded, rfl⟩, tracked⟩ |
    ⟨same, _⟩
  · cases baseline with
    | none =>
      have same := tracked.eq_original ⟨nofun, nofun, nofun, nofun⟩
      exact ⟨fun differs => by simp [same] at differs,
        fun differs => absurd (by rw [same]) differs, fun differs => absurd (by rw [same]) differs⟩
    | some baseline =>
      have covered := tracked.covered
      have parts := tracked.parts
      refine ⟨fun differs => ?_, fun differs => ?_, fun differs => ?_⟩
      · have held : entry.managedComponents.affinity = true := by
          by_contra unset
          have unmanaged := Bool.not_eq_true _ ▸ unset
          exact differs.elim (· (tracked.cpuset unmanaged)) (· (tracked.affinity unmanaged))
        obtain ⟨cpus, group⟩ := covered.affinity held
        exact ⟨entry, baseline, stored, own, recorded, eq_some_of_part parts.cpuset group,
          eq_some_of_part parts.affinity cpus, held⟩
      · have held : entry.managedComponents.priority = true := by
          by_contra unset
          exact differs (tracked.scheduler (Bool.not_eq_true _ ▸ unset))
        exact ⟨entry, baseline, stored, own, recorded,
          eq_some_of_part parts.scheduler (covered.priority held), held⟩
      · have held : entry.managedComponents.cpuctl = true := by
          by_contra unset
          exact differs (tracked.cpuctl (Bool.not_eq_true _ ▸ unset))
        exact ⟨entry, baseline, stored, own, recorded,
          eq_some_of_part parts.cpuctl (covered.cpuctl held), held⟩
  · exact ⟨fun differs => by simp [same] at differs, fun differs => absurd (by rw [same]) differs,
      fun differs => absurd (by rw [same]) differs⟩

/-- No change is orphaned: between the tasks, reloads and shutdowns of every run the thread is
accounted for, and a restoration of all baselines that reports success leaves the thread in its
original state. -/
theorem accounted_of_reached (validPid : FileUtils.isValidId thread.pid = true)
    (validTid : FileUtils.isValidId thread.tid = true) {state : CallState ThreadState}
    (reached : Reached thread original state) :
    Accounted thread original state ∧ ∀ after,
      Program.Run (environment thread).machine restoreAllThreadBaselines state true after →
      after.world = original := by
  obtain ⟨recoverable, keyed⟩ := reached.recoverable validPid validTid
  refine ⟨recoverable.accounted, fun after runs => ?_⟩
  have restores := restoreAllThreadBaselines_spec (alive validPid validTid) recoverable keyed
  exact (runs.post restores).2 rfl

/-! ## A reniced thread -/

/-- A live thread. -/
def renicedThread : Identity := ⟨10, 11, 100, 101⟩

/-- Its original state. -/
def plainState : ThreadState where
  cpuset := cpusetMount ++ Bytes.ascii "/foreground"
  affinity := [0, 1]
  scheduler := ⟨0, 0, 0⟩
  cpuctl := cpuctlMount ++ Bytes.ascii "/"

/-- A configuration with one priority class. -/
def reniceConfig : SchedConfig where
  prio := AList.insert (Bytes.ascii "high") ⟨110, 110, 110⟩ ∅

/-- A result with that class. -/
def reniceResult : MatchResult where
  matched := true
  prioClass := Bytes.ascii "high"
  effectiveState := .top
  matchedRuleName := Bytes.ascii "app"
  threadRuleIndex := 0

/-- A task of the thread. -/
def reniceTask : DispatchTask :=
  ⟨renicedThread, Bytes.ascii "worker", .top, cpusetMount, Bytes.ascii "app", []⟩

/-- Responses under which the priority is set but reported as failed. -/
def reniceRespond (state : CallState ThreadState) :
    (operation : CallOp) → Option (CallSig.Res operation × CallState ThreadState)
  | .setter (.captureAffinity _) => some (state.world.affinity, state)
  | .setter (.captureScheduler _) => some (some state.world.scheduler, state)
  | .setter (.setPriority thread prio) =>
    if thread = renicedThread then
      some (false, ⟨{ state.world with scheduler := ⟨0, 0, prio - 120⟩ }, state.cache⟩)
    else none
  | .sys (.cache call) => some ((call.run state.cache).1, ⟨state.world, (call.run state.cache).2⟩)
  | .sys (.processStartTime _ _) => some (renicedThread.processStartTime, state)
  | .sys (.threadStartTime _ _ _) => some (renicedThread.threadStartTime, state)
  | .sys (.threadInProcess _ pid _) => some (decide (pid = renicedThread.pid), state)
  | .sys (.threadCgroupPaths _ _) => some ({}, state)
  | .sys (.shouldSkipSchedule _) => some (false, state)
  | .sys (.matchThread _) => some (reniceResult, state)
  | _ => none

/-- Every such response is possible. -/
theorem reniceRespond_valid {state after : CallState ThreadState} {operation : CallOp}
    {response : CallSig.Res operation}
    (answered : reniceRespond state operation = some (response, after)) :
    (environment renicedThread).machine.step state operation response after := by
  cases operation with
  | setter call =>
    cases call with
    | captureAffinity thread =>
      cases answered
      refine ⟨?_, rfl⟩
      by_cases own : (SetterCall.captureAffinity thread).thread.tid = renicedThread.tid
      · exact (effect_own own).mpr ⟨rfl, .inr rfl⟩
      · exact (effect_other own).mpr rfl
    | captureScheduler thread =>
      cases answered
      refine ⟨?_, rfl⟩
      by_cases own : (SetterCall.captureScheduler thread).thread.tid = renicedThread.tid
      · exact (effect_own own).mpr ⟨rfl, .inr rfl⟩
      · exact (effect_other own).mpr rfl
    | setPriority thread prio =>
      rw [reniceRespond] at answered
      split at answered
      · rename_i own
        cases answered
        subst own
        exact ⟨(effect_own rfl).mpr rfl, rfl⟩
      · cases answered
    | _ => cases answered
  | sys operation =>
    cases operation with
    | cache call => cases answered; exact ⟨call.step_run state.cache, rfl⟩
    | processStartTime use pid => cases answered; exact ⟨fun _ => rfl, rfl⟩
    | threadStartTime use pid tid => cases answered; exact ⟨fun _ => rfl, rfl⟩
    | threadInProcess use pid tid => cases answered; exact ⟨fun _ => rfl, rfl⟩
    | threadCgroupPaths pid tid => cases answered; exact ⟨fun _ => ⟨.inl rfl, .inl rfl⟩, rfl⟩
    | shouldSkipSchedule task => cases answered; exact ⟨trivial, rfl⟩
    | matchThread task => cases answered; exact ⟨trivial, rfl⟩
    | _ => cases answered

/-- A thread whose priority was set by a call that reports failure is accounted for. -/
theorem accounted_of_reached_reniced : ∃ state,
    state.world.scheduler = ⟨0, 0, -10⟩ ∧ Accounted renicedThread plainState state := by
  have ends : ((processDispatchTask reniceConfig reniceTask).exec reniceRespond
      ⟨plainState, ∅⟩).map (fun found => (found.1, found.2.world.scheduler)) =
      some (.called reniceResult .incomplete, ⟨0, 0, -10⟩) := by decide
  obtain ⟨⟨outcome, state⟩, executed, ends⟩ := Option.map_eq_some_iff.mp ends
  obtain ⟨_, reniced⟩ := Prod.mk.inj ends
  have runs := Program.run_of_exec reniceRespond_valid executed
  have start : Reached renicedThread plainState ⟨plainState, ∅⟩ :=
    .start ThreadCache.keyed_empty (by simp)
  exact ⟨state, reniced, (accounted_of_reached (by decide) (by decide)
    (.task reniceConfig reniceTask start runs)).1⟩

end Recovery

end ReUperf
