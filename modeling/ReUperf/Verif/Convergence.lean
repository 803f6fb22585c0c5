import ReUperf.Verif.Groups
import ReUperf.Verif.Kernel

/-!
# Convergence to the last result

When every system call succeeds, a task leaves its thread with the target of its result in each
component the result manages and with the original state in the others, whatever results were
applied before. Only the nice value has a memory: a policy set without a nice value keeps the
nice value of an earlier result.
-/

namespace ReUperf

open Effect ScanWorker

namespace Convergence

/-! ## Targets -/

/-- The components a result manages. -/
def managedBy (sched : SchedConfig) (result : MatchResult) : ManagedComponents :=
  if result.matched then ManagedComponents.add sched {} result else {}

/-- What a result has to have so that it can be applied when every system call succeeds. -/
structure Attainable (sched : SchedConfig) (result : MatchResult) : Prop where
  /-- A resolved affinity has CPUs. -/
  affinity : hasResolvedAffinity result = true →
    sched.getCpusForAffinity result.affinityClass result.effectiveState ≠ []
  /-- The priority value is one the setter knows. -/
  priority : ConfigParser.isValidPrioValue
    (sched.getPrioValue result.prioClass result.effectiveState) = true
  /-- A limit has a group. -/
  cpuctl : result.enableLimit = true → 0 ≤ result.threadRuleIndex

/-- The thread is in the cpuset group of a result and has its CPUs. -/
structure AffinityApplied (sched : SchedConfig) (result : MatchResult) (world : KernelThread) :
    Prop where
  /-- The group. -/
  cpuset : world.cpuset = CpusetSetter.expectedGroup result.cpumaskName
  /-- The CPUs. -/
  affinity : world.affinity =
    CpuSet.fromVector (sched.getCpusForAffinity result.affinityClass result.effectiveState)

/-- The thread has the scheduler state of a priority value. The nice value is part of it only
for the values that name one. -/
structure SchedulerApplied (prioValue : Int) (world : KernelThread) : Prop where
  /-- The policy. -/
  policy : PrioritySetter.expectedPolicyForPriority prioValue = some world.policy
  /-- The real-time priority. -/
  priority : world.priority = if 1 ≤ prioValue ∧ prioValue ≤ 98 then prioValue else 0
  /-- The nice value. -/
  nice : 100 ≤ prioValue ∧ prioValue ≤ 139 → world.nice = prioValue - 120

/-- The thread has its original scheduler state. The nice value is recorded with a plain policy
only. -/
structure SchedulerRestored (original world : KernelThread) : Prop where
  /-- The policy. -/
  policy : world.policy = original.policy
  /-- The real-time priority. -/
  priority : world.priority = original.priority
  /-- The nice value. -/
  nice : PrioritySetter.isPlainPolicy original.policy = true → world.nice = original.nice

/-- Every component that is not managed is in its original state. -/
structure Unmanaged (original : KernelThread) (managed : ManagedComponents)
    (world : KernelThread) : Prop where
  /-- The cpuset group. -/
  cpuset : managed.affinity = false → world.cpuset = original.cpuset
  /-- The CPUs. -/
  affinity : managed.affinity = false → world.affinity = original.affinity
  /-- The scheduler state. -/
  scheduler : managed.priority = false → SchedulerRestored original world
  /-- The cpuctl group. -/
  cpuctl : managed.cpuctl = false → world.cpuctl = original.cpuctl

/-- The thread has the targets of a result in the components it manages and its original state
in the others. -/
structure Target (sched : SchedConfig) (original : KernelThread) (result : MatchResult)
    (world : KernelThread) : Prop where
  /-- The cpuset group and the CPUs. -/
  affinity : (managedBy sched result).affinity = true → AffinityApplied sched result world
  /-- The scheduler state. -/
  scheduler : (managedBy sched result).priority = true →
    SchedulerApplied (sched.getPrioValue result.prioClass result.effectiveState) world
  /-- The cpuctl group. -/
  cpuctl : (managedBy sched result).cpuctl = true →
    world.cpuctl = CpuctlSetter.expectedGroup result
  /-- The other components. -/
  unmanaged : Unmanaged original (managedBy sched result) world

variable {sched : SchedConfig} {original world : KernelThread} {result : MatchResult}
  {managed : ManagedComponents}

/-- A thread in its original state is so in every component. -/
theorem unmanaged_original : Unmanaged original managed original :=
  ⟨fun _ => rfl, fun _ => rfl, fun _ => ⟨rfl, rfl, fun _ => rfl⟩, fun _ => rfl⟩

/-- Fewer components are unmanaged when more are managed. -/
theorem Unmanaged.mono {more : ManagedComponents} (unmanaged : Unmanaged original managed world)
    (affinity : managed.affinity = true → more.affinity = true)
    (priority : managed.priority = true → more.priority = true)
    (cpuctl : managed.cpuctl = true → more.cpuctl = true) : Unmanaged original more world := by
  have off : ∀ {before after : Bool}, (before = true → after = true) → after = false →
      before = false := by
    intro before after implies none
    cases before with
    | false => rfl
    | true => exact absurd (implies rfl) (by rw [none]; exact Bool.false_ne_true)
  exact ⟨fun none => unmanaged.cpuset (off affinity none),
    fun none => unmanaged.affinity (off affinity none),
    fun none => unmanaged.scheduler (off priority none),
    fun none => unmanaged.cpuctl (off cpuctl none)⟩

/-- A result manages something when it needs managed state. -/
theorem managedBy_of_needed (needed : needsManagedState sched result = true) :
    managedBy sched result = ManagedComponents.add sched {} result :=
  if_pos (Bool.and_eq_true_iff.mp needed).1

/-- A result that needs no managed state manages nothing. -/
theorem managedBy_of_unneeded (unneeded : needsManagedState sched result = false) :
    managedBy sched result = {} := by
  unfold managedBy
  split
  · rename_i matched
    rw [needsManagedState, matched, Bool.true_and, Bool.or_eq_false_iff, Bool.or_eq_false_iff]
      at unneeded
    obtain ⟨⟨affinity, priority⟩, cpuctl⟩ := unneeded
    simp [ManagedComponents.add, affinity, priority, cpuctl]
  · rfl

/-- A thread whose components are all original has the target of a result that manages
nothing. -/
theorem target_of_unneeded (unneeded : needsManagedState sched result = false)
    (unmanaged : Unmanaged original {} world) : Target sched original result world := by
  have nothing := managedBy_of_unneeded unneeded
  constructor
  · rw [nothing]
    exact nofun
  · rw [nothing]
    exact nofun
  · rw [nothing]
    exact nofun
  · rw [nothing]
    exact unmanaged

/-! ## The baseline of a thread -/

/-- The baseline captured from a thread. -/
def baselineOf (world : KernelThread) : ThreadBaseline where
  affinity := some world.affinity.toVector
  scheduler := some world.schedulerBaseline
  cpusetPath := some (cpusetMount ++ world.cpuset)
  cpuctlPath := some (cpuctlMount ++ world.cpuctl)

/-- A thread whose components are all original has the original baseline. -/
theorem baselineOf_eq (unmanaged : Unmanaged original {} world) :
    baselineOf world = baselineOf original := by
  obtain ⟨policy, priority, nice⟩ := unmanaged.scheduler rfl
  have scheduler : world.schedulerBaseline = original.schedulerBaseline := by
    unfold KernelThread.schedulerBaseline
    rw [policy, priority]
    split
    · rw [nice ‹_›]
    · rfl
  rw [baselineOf, baselineOf, unmanaged.affinity rfl, unmanaged.cpuset rfl, unmanaged.cpuctl rfl,
    scheduler]

/-- Every baseline captured later adds nothing to a complete one. -/
theorem merge_baselineOf (added : ThreadBaseline) :
    (baselineOf original).merge added = baselineOf original := rfl

/-- A complete baseline is sufficient for every result. -/
theorem isSufficient_baselineOf : isSufficient sched result (baselineOf original) = true := by
  simp [isSufficient, baselineOf]

/-! ## Single calls -/

section Calls

variable {thread : Identity} {returned : MatchResult → Prop} {state : CallState KernelThread}
  {α : Type}

/-- A thread with valid IDs is alive on the kernel. -/
theorem alive (validPid : FileUtils.isValidId thread.pid = true)
    (validTid : FileUtils.isValidId thread.tid = true) :
    (Kernel.environment thread returned).Alive thread where
  validPid := validPid
  validTid := validTid
  processStartTime reads := reads rfl
  threadStartTime reads := reads rfl
  threadInProcess reads := by
    have member : _ = decide (thread.pid = thread.pid) := reads rfl
    rw [member, decide_eq_true rfl]

/-- A setter call for the thread has its outcome. -/
theorem wp_own {call : SetterCall} (own : call.thread = thread)
    {post : call.Res → CallState KernelThread → Prop}
    (holds : ∀ response after, Kernel.Outcome state.world call response after →
      post response ⟨after, state.cache⟩) :
    (setterCall call).wp (Kernel.environment thread returned).machine post state := by
  rw [Environment.wp_setterCall]
  exact fun response after effect => holds response after ((Kernel.effect_own own).mp effect)

end Calls

/-! ## Restoring -/

section Restoring

variable {task : DispatchTask} {returned : MatchResult → Prop}
  (live : (Kernel.environment task.identity returned).Alive task.identity)
  (possible : original.Possible)

/-- The program succeeds, leaves the cache and changes the thread in one way. -/
def Makes (task : DispatchTask) (returned : MatchResult → Prop) (program : CallProgram Bool)
    (change : KernelThread → KernelThread) : Prop :=
  ∀ state, program.wp (Kernel.environment task.identity returned).machine
    (fun ok after => ok = true ∧ after = ⟨change state.world, state.cache⟩) state

/-- The thread with its original cpuset group and CPUs. -/
def withAffinity (original world : KernelThread) : KernelThread :=
  { world with cpuset := original.cpuset, affinity := original.affinity }

/-- The thread with its original cpuctl group. -/
def withCpuctl (original world : KernelThread) : KernelThread :=
  { world with cpuctl := original.cpuctl }

include live

/-- A recorded part is restored between two checks. -/
theorem makes_restoreRequired {α : Type} {value : α} {restore : α → CallProgram Bool}
    {change : KernelThread → KernelThread} (makes : Makes task returned (restore value) change) :
    Makes task returned (restoreRequired task (some value) restore) change := by
  intro state
  rw [restoreRequired, Program.wp_bind]
  apply live.wp_identityMatches
  rw [if_pos rfl, Program.wp_bind]
  refine Program.wp_mono (makes state) ?_
  rintro _ _ ⟨rfl, rfl⟩
  rw [if_pos rfl]
  exact live.wp_identityMatches ⟨rfl, rfl⟩

include possible

/-- The cpuset group and the CPUs are restored. -/
theorem makes_restoreAffinityBaseline :
    Makes task returned (restoreAffinityBaseline task (baselineOf original))
      (withAffinity original) := by
  intro state
  have pathGiven : cpusetMount ++ original.cpuset ≠ [] := by
    simp [possible.cpuset]
  rw [restoreAffinityBaseline, baselineOf, restoreGuarded, Program.wp_bind, Program.wp_bind]
  apply live.wp_identityMatches
  rw [if_pos rfl, Program.wp_bind]
  refine wp_own rfl fun moved middle outcome => ?_
  obtain ⟨rfl, rfl⟩ := outcome pathGiven
  dsimp only [Program.wp_pure]
  rw [restoreGuarded, Program.wp_bind, Program.wp_bind]
  apply live.wp_identityMatches
  rw [if_pos rfl, Program.wp_bind]
  refine wp_own rfl fun pinned last outcome => ?_
  obtain ⟨rfl, rfl⟩ := outcome possible.affinity
  dsimp only [Program.wp_pure]
  rw [Bool.true_and, if_pos rfl]
  apply live.wp_identityMatches
  refine ⟨rfl, ?_⟩
  rw [KernelThread.move_cpuset, CpuSet.fromVector_toVector]
  rfl

/-- The scheduler state is restored. -/
theorem makes_restoreSchedulerBaseline :
    Makes task returned (restoreSchedulerBaseline task (baselineOf original))
      (·.withScheduler original.schedulerBaseline) := by
  apply makes_restoreRequired live
  intro state
  refine wp_own rfl fun ok after outcome => ?_
  obtain ⟨rfl, rfl⟩ := outcome possible.policy
  exact ⟨rfl, rfl⟩

/-- The cpuctl group is restored. -/
theorem makes_restoreCpuctlBaseline :
    Makes task returned (restoreCpuctlBaseline task (baselineOf original))
      (withCpuctl original) := by
  have pathGiven : cpuctlMount ++ original.cpuctl ≠ [] := by
    simp [possible.cpuctl]
  apply makes_restoreRequired live
  intro state
  refine wp_own rfl fun ok after outcome => ?_
  obtain ⟨rfl, rfl⟩ := outcome pathGiven
  rw [KernelThread.move_cpuctl]
  exact ⟨rfl, rfl⟩

end Restoring

/-- The restored scheduler state is the original one. -/
theorem schedulerRestored_withScheduler (world : KernelThread) :
    SchedulerRestored original (world.withScheduler original.schedulerBaseline) := by
  unfold KernelThread.withScheduler KernelThread.schedulerBaseline
  dsimp only
  split
  · rename_i plain
    exact ⟨rfl, rfl, fun _ => rfl⟩
  · rename_i realtime
    exact ⟨rfl, rfl, fun plain => absurd plain realtime⟩

/-- Restoring the cpuset group and the CPUs leaves them unmanaged. -/
theorem unmanaged_withAffinity (before : Unmanaged original managed world) :
    Unmanaged original { managed with affinity := false } (withAffinity original world) :=
  ⟨fun _ => rfl, fun _ => rfl, fun none => have restored := before.scheduler none
    ⟨restored.policy, restored.priority, restored.nice⟩, before.cpuctl⟩

/-- Restoring the scheduler state leaves it unmanaged. -/
theorem unmanaged_withScheduler (before : Unmanaged original managed world) :
    Unmanaged original { managed with priority := false }
      (world.withScheduler original.schedulerBaseline) := by
  refine ⟨fun none => ?_, fun none => ?_, fun _ => schedulerRestored_withScheduler world,
    fun none => ?_⟩
  · rw [← before.cpuset none]
    unfold KernelThread.withScheduler
    split <;> rfl
  · rw [← before.affinity none]
    unfold KernelThread.withScheduler
    split <;> rfl
  · rw [← before.cpuctl none]
    unfold KernelThread.withScheduler
    split <;> rfl

/-- Restoring the cpuctl group leaves it unmanaged. -/
theorem unmanaged_withCpuctl (before : Unmanaged original managed world) :
    Unmanaged original { managed with cpuctl := false } (withCpuctl original world) :=
  ⟨before.cpuset, before.affinity, fun none => have restored := before.scheduler none
    ⟨restored.policy, restored.priority, restored.nice⟩, fun _ => rfl⟩

/-! ## Applying -/

/-- The cache has the entry of the thread up to what is managed. -/
def Holds (thread : Identity) (entry : ThreadCacheEntry) (managed : ManagedComponents)
    (cache : ThreadCache) : Prop :=
  cache.lookup thread.key = some { entry with managedComponents := managed }

/-- Recording what is managed. -/
theorem Holds.setManagedComponents {thread : Identity} {entry : ThreadCacheEntry}
    {cache : ThreadCache} (holds : Holds thread entry managed cache)
    (components : ManagedComponents) :
    Holds thread entry components (cache.setManagedComponents thread.key components) := by
  rw [Holds, ThreadCache.setManagedComponents, Table.lookup_adjust, holds]
  rfl

section Applying

variable {task : DispatchTask} {returned : MatchResult → Prop} {entry : ThreadCacheEntry}
  {state : CallState KernelThread}
  (live : (Kernel.environment task.identity returned).Alive task.identity)
  (possible : original.Possible)

/-- Releasing a component restores it when it is no longer managed. -/
theorem releaseComponent_spec {release : Bool} {restore : CallProgram Bool}
    {change : KernelThread → KernelThread} {released : ManagedComponents}
    (fact : ManagedComponents → Prop) (makes : Makes task returned restore change)
    (holds : Holds task.identity entry managed state.cache)
    (unmanaged : Unmanaged original managed state.world)
    (restores : Unmanaged original released (change state.world))
    (due : release = true → fact released) (needless : release = false → fact managed) :
    (releaseComponent task release restore managed released).wp
      (Kernel.environment task.identity returned).machine
      (fun found after => ∃ remaining, found = some remaining ∧ fact remaining ∧
        Holds task.identity entry remaining after.cache ∧
        Unmanaged original remaining after.world) state := by
  unfold releaseComponent
  cases release with
  | true =>
    rw [if_pos rfl, Program.wp_bind]
    refine Program.wp_mono (makes state) ?_
    rintro _ _ ⟨rfl, rfl⟩
    rw [if_pos rfl, Program.wp_bind, Environment.wp_cacheCall]
    rintro ⟨⟩ _ ⟨⟩
    exact ⟨released, rfl, due rfl, holds.setManagedComponents released, restores⟩
  | false => exact ⟨managed, rfl, needless rfl, holds, unmanaged⟩

/-- Every remaining component is needed. -/
structure Remains (needed remaining : ManagedComponents) : Prop where
  /-- The affinity. -/
  affinity : remaining.affinity = true → needed.affinity = true
  /-- The scheduler state. -/
  priority : remaining.priority = true → needed.priority = true
  /-- The cpuctl group. -/
  cpuctl : remaining.cpuctl = true → needed.cpuctl = true

/-- A component is needed when it is managed and not to be restored. -/
theorem needed_of_kept {before needed : Bool}
    (kept : shouldRestoreManagedComponent before needed = false) (held : before = true) :
    needed = true := by
  rw [held] at kept
  cases needed with
  | true => rfl
  | false => cases kept

include live possible

/-- Releasing what a result no longer manages leaves what it needs. -/
theorem releaseComponents_spec (holds : Holds task.identity entry managed state.cache)
    (unmanaged : Unmanaged original managed state.world) :
    (releaseComponents sched task result (baselineOf original) managed).wp
      (Kernel.environment task.identity returned).machine
      (fun found after => ∃ remaining, found = some remaining ∧
        Remains (ManagedComponents.add sched {} result) remaining ∧
        Holds task.identity entry remaining after.cache ∧
        Unmanaged original remaining after.world) state := by
  rw [releaseComponents, Program.wp_bind]
  refine Program.wp_mono (releaseComponent_spec
    (fun remaining => remaining.affinity = true → hasResolvedAffinity result = true)
    (makes_restoreAffinityBaseline live possible) holds unmanaged
    (unmanaged_withAffinity unmanaged) (fun _ => nofun) needed_of_kept) ?_
  rintro _ first ⟨remaining, rfl, affinity, holds, unmanaged⟩
  dsimp only
  rw [Program.wp_bind]
  refine Program.wp_mono (releaseComponent_spec
    (fun remaining => (remaining.affinity = true → hasResolvedAffinity result = true) ∧
      (remaining.priority = true → needsPriorityManagement sched result = true))
    (makes_restoreSchedulerBaseline live possible) holds unmanaged
    (unmanaged_withScheduler unmanaged) (fun _ => ⟨affinity, nofun⟩)
    fun kept => ⟨affinity, needed_of_kept kept⟩) ?_
  rintro _ second ⟨remaining, rfl, ⟨affinity, priority⟩, holds, unmanaged⟩
  dsimp only
  exact releaseComponent_spec
    (fun remaining => Remains (ManagedComponents.add sched {} result) remaining)
    (makes_restoreCpuctlBaseline live possible) holds unmanaged
    (unmanaged_withCpuctl unmanaged) (fun _ => ⟨affinity, priority, nofun⟩)
    fun kept => ⟨affinity, priority, needed_of_kept kept⟩

omit possible

/-- The affinity of a result is applied. -/
theorem applyAffinity_spec (attainable : Attainable sched result) (matched : result.matched = true)
    (unmanaged : Unmanaged original (ManagedComponents.add sched {} result) state.world) :
    (CpusetSetter.applyWithResult sched task.identity result).wp
      (Kernel.environment task.identity returned).machine
      (fun taken after => (!hasResolvedAffinity result || taken.success) = true ∧
        after.cache = state.cache ∧
        Unmanaged original (ManagedComponents.add sched {} result) after.world ∧
        (hasResolvedAffinity result = true → AffinityApplied sched result after.world)) state := by
  have positive : ¬ task.identity.tid ≤ 0 := by
    have bounds := of_decide_eq_true live.validTid
    omega
  rw [CpusetSetter.applyWithResult, if_neg positive]
  cases resolved : hasResolvedAffinity result with
  | false =>
    rw [matched, if_pos (by simp)]
    exact ⟨rfl, rfl, unmanaged, nofun⟩
  | true =>
    have cpus := attainable.affinity resolved
    have named : result.cpumaskName ≠ [] := of_decide_eq_true (Bool.and_eq_true_iff.mp resolved).2
    rw [matched, if_neg (by simp)]
    dsimp only
    rw [if_neg cpus]
    refine wp_own rfl fun taken after outcome => ?_
    obtain ⟨success, rfl⟩ := outcome named cpus
    refine ⟨by simp [success], rfl, ⟨?_, ?_, fun none => ?_, unmanaged.cpuctl⟩, fun _ => ⟨rfl, rfl⟩⟩
    · simp [ManagedComponents.add, resolved]
    · simp [ManagedComponents.add, resolved]
    · have restored := unmanaged.scheduler none
      exact ⟨restored.policy, restored.priority, restored.nice⟩

omit live

/-- A thread with a priority value has the scheduler state of that value. -/
theorem schedulerApplied_withPriority {prioValue : Int}
    (valid : ConfigParser.isValidPrioValue prioValue = true) (managed : prioValue ≠ 0) :
    SchedulerApplied prioValue (world.withPriority prioValue) := by
  simp only [ConfigParser.isValidPrioValue, Bool.or_eq_true, decide_eq_true_eq] at valid
  unfold KernelThread.withPriority
  rw [if_neg managed]
  by_cases realtime : 1 ≤ prioValue ∧ prioValue ≤ 98
  · rw [if_pos realtime]
    exact ⟨by rw [PrioritySetter.expectedPolicyForPriority, if_neg managed, if_pos realtime],
      (if_pos realtime).symm, fun nice => by omega⟩
  rw [if_neg realtime]
  by_cases nice : 100 ≤ prioValue ∧ prioValue ≤ 139
  · rw [if_pos nice]
    exact ⟨by rw [PrioritySetter.expectedPolicyForPriority, if_neg managed, if_neg realtime,
      if_pos nice]; rfl, (if_neg realtime).symm, fun _ => rfl⟩
  rw [if_neg nice]
  have plain : prioValue = -1 ∨ prioValue = -2 ∨ prioValue = -3 := by omega
  rcases plain with rfl | rfl | rfl
  · exact ⟨rfl, rfl, fun named => by omega⟩
  · exact ⟨rfl, rfl, fun named => by omega⟩
  · exact ⟨rfl, rfl, fun named => by omega⟩

/-- A priority value changes the scheduler state only. -/
theorem withPriority_other (world : KernelThread) (prioValue : Int) :
    (world.withPriority prioValue).cpuset = world.cpuset ∧
      (world.withPriority prioValue).affinity = world.affinity ∧
      (world.withPriority prioValue).cpuctl = world.cpuctl := by
  unfold KernelThread.withPriority
  split_ifs <;> exact ⟨rfl, rfl, rfl⟩

/-- The priority of a result is applied. -/
theorem applyPriority_spec (attainable : Attainable sched result) (matched : result.matched = true)
    (unmanaged : Unmanaged original (ManagedComponents.add sched {} result) state.world)
    (affinity : hasResolvedAffinity result = true → AffinityApplied sched result state.world) :
    (PrioritySetter.applyWithResult sched task.identity result).wp
      (Kernel.environment task.identity returned).machine
      (fun ok after => ok = true ∧ after.cache = state.cache ∧
        Unmanaged original (ManagedComponents.add sched {} result) after.world ∧
        (hasResolvedAffinity result = true → AffinityApplied sched result after.world) ∧
        (needsPriorityManagement sched result = true →
          SchedulerApplied (sched.getPrioValue result.prioClass result.effectiveState)
            after.world)) state := by
  unfold PrioritySetter.applyWithResult
  dsimp only
  by_cases plain : sched.getPrioValue result.prioClass result.effectiveState = 0
  · rw [if_pos (by simp [plain])]
    refine ⟨rfl, rfl, unmanaged, affinity, fun managed => ?_⟩
    exact absurd plain (of_decide_eq_true managed)
  · rw [if_neg (by simp [matched, plain])]
    refine wp_own rfl fun ok after outcome => ?_
    obtain ⟨rfl, rfl⟩ := outcome attainable.priority
    obtain ⟨cpuset, cpus, cpuctl⟩ := withPriority_other state.world
      (sched.getPrioValue result.prioClass result.effectiveState)
    refine ⟨rfl, rfl, ⟨fun none => ?_, fun none => ?_, fun none => ?_, fun none => ?_⟩,
      fun resolved => ?_, fun _ => schedulerApplied_withPriority attainable.priority plain⟩
    · exact cpuset.trans (unmanaged.cpuset none)
    · exact cpus.trans (unmanaged.affinity none)
    · simp [ManagedComponents.add, needsPriorityManagement, plain] at none
    · exact cpuctl.trans (unmanaged.cpuctl none)
    · exact ⟨cpuset.trans (affinity resolved).cpuset, cpus.trans (affinity resolved).affinity⟩

/-- The limit of a result is applied. -/
theorem applyCpuctl_spec (attainable : Attainable sched result) (matched : result.matched = true)
    (unmanaged : Unmanaged original (ManagedComponents.add sched {} result) state.world)
    (affinity : hasResolvedAffinity result = true → AffinityApplied sched result state.world)
    (scheduler : needsPriorityManagement sched result = true →
      SchedulerApplied (sched.getPrioValue result.prioClass result.effectiveState) state.world) :
    (CpuctlSetter.applyWithResult task.identity result).wp
      (Kernel.environment task.identity returned).machine
      (fun ok after => ok = true ∧ after.cache = state.cache ∧
        Unmanaged original (ManagedComponents.add sched {} result) after.world ∧
        (hasResolvedAffinity result = true → AffinityApplied sched result after.world) ∧
        (needsPriorityManagement sched result = true →
          SchedulerApplied (sched.getPrioValue result.prioClass result.effectiveState)
            after.world) ∧
        (result.enableLimit = true →
          after.world.cpuctl = CpuctlSetter.expectedGroup result)) state := by
  unfold CpuctlSetter.applyWithResult
  cases limited : result.enableLimit with
  | false =>
    rw [if_pos (by simp)]
    exact ⟨rfl, rfl, unmanaged, affinity, scheduler, nofun⟩
  | true =>
    have index := attainable.cpuctl limited
    rw [matched, if_neg (by simp), if_neg (Int.not_lt.mpr index)]
    refine wp_own rfl fun ok after outcome => ?_
    obtain ⟨rfl, rfl⟩ := outcome
    rw [← cpuctlMount_expectedGroup, KernelThread.move_cpuctl]
    refine ⟨rfl, rfl, ⟨unmanaged.cpuset, unmanaged.affinity, fun none => ?_, fun none => ?_⟩,
      fun resolved => ?_, fun needed => ?_, fun _ => rfl⟩
    · have restored := unmanaged.scheduler none
      exact ⟨restored.policy, restored.priority, restored.nice⟩
    · simp [ManagedComponents.add, limited] at none
    · exact ⟨(affinity resolved).cpuset, (affinity resolved).affinity⟩
    · have applied := scheduler needed
      exact ⟨applied.policy, applied.priority, applied.nice⟩

/-- What remains managed and what a result needs are what the result manages. -/
theorem add_remaining {remaining : ManagedComponents} (matched : result.matched = true)
    (remains : Remains (ManagedComponents.add sched {} result) remaining) :
    ManagedComponents.add sched remaining result = managedBy sched result := by
  have absorbed : ∀ {before needed : Bool}, (before = true → needed = true) →
      (before || needed) = needed := by
    intro before needed implies
    cases before with
    | false => rfl
    | true => rw [implies rfl]; rfl
  rw [managedBy, if_pos matched]
  have affinity := absorbed remains.affinity
  have priority := absorbed remains.priority
  have cpuctl := absorbed remains.cpuctl
  simp only [ManagedComponents.add, Bool.false_or] at affinity priority cpuctl ⊢
  rw [affinity, priority, cpuctl]

/-- The entry after a result was applied. -/
def applied (sched : SchedConfig) (entry : ThreadCacheEntry) (result : MatchResult) :
    ThreadCacheEntry :=
  { entry with managedComponents := managedBy sched result, appliedResult := some result }

/-- Attempting a result reaches its target and records that. -/
theorem attemptResult_spec (live : (Kernel.environment task.identity returned).Alive task.identity)
    (attainable : Attainable sched result) (matched : result.matched = true)
    (remains : Remains (ManagedComponents.add sched {} result) managed)
    (holds : Holds task.identity entry managed state.cache)
    (unmanaged : Unmanaged original managed state.world) :
    (attemptResult sched task result managed).wp (Kernel.environment task.identity returned).machine
      (fun _ after => after.cache.lookup task.identity.key = some (applied sched entry result) ∧
        Target sched original result after.world) state := by
  have unmanaged : Unmanaged original (ManagedComponents.add sched {} result) state.world :=
    unmanaged.mono remains.affinity remains.priority remains.cpuctl
  rw [attemptResult, Program.wp_bind]
  refine Program.wp_mono (applyAffinity_spec live attainable matched unmanaged) ?_
  rintro taken first ⟨success, keptFirst, unmanaged, affinity⟩
  apply live.wp_orDiscard
  rw [Program.wp_bind]
  refine Program.wp_mono (applyPriority_spec attainable matched unmanaged affinity) ?_
  rintro _ second ⟨rfl, keptSecond, unmanaged, affinity, scheduler⟩
  apply live.wp_orDiscard
  rw [Program.wp_bind]
  refine Program.wp_mono (applyCpuctl_spec attainable matched unmanaged affinity scheduler) ?_
  rintro _ third ⟨rfl, keptThird, unmanaged, affinity, scheduler, cpuctl⟩
  rw [success, add_remaining matched remains, recordApplied]
  rw [← keptFirst, ← keptSecond, ← keptThird] at holds
  apply live.wp_orDiscard
  rw [Program.wp_bind, Environment.wp_cacheCall]
  rintro ⟨⟩ _ ⟨⟩
  rw [if_pos (by rfl), Program.wp_bind, Environment.wp_cacheCall]
  rintro ⟨⟩ _ ⟨⟩
  have whole : managedBy sched result = ManagedComponents.add sched {} result := if_pos matched
  refine ⟨?_, ?_⟩
  · have stored := holds.setManagedComponents (managedBy sched result)
    rw [ThreadCache.updateAppliedResult, Table.lookup_adjust, stored]
    rfl
  · constructor
    · rw [whole]
      exact affinity
    · rw [whole]
      exact scheduler
    · rw [whole]
      exact cpuctl
    · rw [whole]
      exact unmanaged

/-! ## The entry of the thread -/

/-- What the entry of the thread says of its state. -/
structure Tracks (sched : SchedConfig) (returned : MatchResult → Prop) (original : KernelThread)
    (entry : ThreadCacheEntry) (world : KernelThread) : Prop where
  /-- The cached result was returned by the matcher. -/
  returned : returned entry.result
  /-- The original state is recorded completely, or not at all while nothing is managed. -/
  recorded : entry.baseline = some (baselineOf original) ∨
    entry.baseline = none ∧ entry.managedComponents = {}
  /-- What is not managed is original. -/
  unmanaged : Unmanaged original entry.managedComponents world
  /-- The thread is at the target of the applied result. -/
  applied : ∀ result, entry.appliedResult = some result → Target sched original result world

/-- The entry of the thread tracks it. -/
def Entered (sched : SchedConfig) (returned : MatchResult → Prop) (original : KernelThread)
    (thread : Identity) (state : CallState KernelThread) : Prop :=
  ∃ entry, state.cache.lookup thread.key = some entry ∧ entry.identity = thread ∧
    Tracks sched returned original entry state.world

/-- A task ended with the thread tracked by its entry and at the target of the result. -/
def Reaches (sched : SchedConfig) (returned : MatchResult → Prop) (original : KernelThread)
    (thread : Identity) (result : MatchResult) (state : CallState KernelThread) : Prop :=
  Entered sched returned original thread state ∧ Target sched original result state.world

/-- The captured baseline is that of the thread. -/
theorem readBaseline_spec (live : (Kernel.environment task.identity returned).Alive task.identity)
    (cpuset : state.world.cpuset ≠ []) (affinity : state.world.affinity.toVector ≠ [])
    (policy : 0 ≤ state.world.policy) (cpuctl : state.world.cpuctl ≠ []) :
    (readBaseline task).wp (Kernel.environment task.identity returned).machine
      (fun baseline after => baseline = baselineOf state.world ∧ after = state) state := by
  rw [readBaseline, Program.wp_bind]
  refine wp_own rfl fun cpus first outcome => ?_
  obtain ⟨rfl, rfl⟩ := outcome
  rw [Program.wp_bind]
  refine wp_own rfl fun scheduler second outcome => ?_
  obtain ⟨captured, rfl⟩ := outcome
  obtain rfl := captured policy
  rw [Program.wp_bind]
  apply live.wp_getThreadCgroupPaths
  intro paths reads
  obtain rfl : paths = ⟨state.world.cpuset, state.world.cpuctl, true⟩ := reads rfl
  refine ⟨?_, rfl⟩
  rw [if_neg affinity, if_neg cpuset, if_neg cpuctl, baselineOf]

/-- Capturing leaves the original baseline recorded. -/
theorem captureBaselineIfNeeded_spec
    (live : (Kernel.environment task.identity returned).Alive task.identity)
    (possible : original.Possible)
    (entered : Entered sched returned original task.identity state) :
    (captureBaselineIfNeeded task).wp (Kernel.environment task.identity returned).machine
      (fun _ after => ∃ entry, after.cache.lookup task.identity.key = some entry ∧
        entry.identity = task.identity ∧ entry.baseline = some (baselineOf original) ∧
        Tracks sched returned original entry after.world) state := by
  obtain ⟨entry, stored, same, tracks⟩ := entered
  have records : ∀ added, entry.baseline.isSome = true ∨ added = baselineOf original →
      (entry.addBaseline added).baseline = some (baselineOf original) := by
    intro added complete
    rcases tracks.recorded with recorded | ⟨recorded, _⟩
    · rw [ThreadCacheEntry.addBaseline, recorded]
      exact congrArg some (merge_baselineOf added)
    · rw [recorded] at complete
      rw [ThreadCacheEntry.addBaseline, recorded, complete.resolve_left Bool.false_ne_true]
  have reads : (readBaseline task).wp (Kernel.environment task.identity returned).machine
      (fun added after => after = state ∧
        (entry.baseline.isSome = true ∨ added = baselineOf original)) state := by
    rcases tracks.recorded with recorded | ⟨recorded, nothing⟩
    · refine Program.wp_mono (Kernel.quiet.wp_observing (observes_readBaseline task)) ?_
      rintro added after rfl
      exact ⟨rfl, .inl (by rw [recorded]; rfl)⟩
    · have unmanaged := tracks.unmanaged
      rw [nothing] at unmanaged
      refine Program.wp_mono (readBaseline_spec live ?_ ?_ ?_ ?_) ?_
      · rw [unmanaged.cpuset rfl]
        exact possible.cpuset
      · rw [unmanaged.affinity rfl]
        exact possible.affinity
      · rw [(unmanaged.scheduler rfl).policy]
        exact possible.policy
      · rw [unmanaged.cpuctl rfl]
        exact possible.cpuctl
      · rintro added after ⟨rfl, rfl⟩
        exact ⟨rfl, .inr (baselineOf_eq unmanaged)⟩
  rw [captureBaselineIfNeeded, Program.wp_bind]
  refine Program.wp_mono reads ?_
  rintro added _ ⟨rfl, complete⟩
  rw [Program.wp_bind]
  apply live.wp_identityMatches
  rw [if_pos rfl, Environment.wp_cacheCall]
  rintro ⟨⟩ cache ⟨⟩
  refine ⟨entry.addBaseline added, ?_, same, records added complete, tracks.returned,
    .inl (records added complete), tracks.unmanaged, tracks.applied⟩
  rw [ThreadCache.setBaseline, Table.lookup_adjust, stored]
  rfl

/-- Forgetting all records of the thread. -/
theorem lookup_forget {cache : ThreadCache} {thread : Identity}
    (stored : cache.lookup thread.key = some entry) :
    (((cache.clearBaseline thread.key).clearAppliedResult thread.key).clearManagedComponents
      thread.key).lookup thread.key =
      some { entry with baseline := none, appliedResult := none, managedComponents := {} } := by
  simp only [ThreadCache.clearManagedComponents, ThreadCache.setManagedComponents,
    ThreadCache.clearAppliedResult, ThreadCache.clearBaseline, Table.lookup_adjust, stored]
  rfl

/-- A thread that is no longer managed has its original state back. -/
theorem restoreBaseline_spec (live : (Kernel.environment task.identity returned).Alive task.identity)
    (possible : original.Possible) (unneeded : needsManagedState sched result = false)
    (entered : Entered sched returned original task.identity state) :
    (restoreBaseline task).wp (Kernel.environment task.identity returned).machine
      (fun _ => Reaches sched returned original task.identity result) state := by
  obtain ⟨entry, stored, same, tracks⟩ := entered
  rw [restoreBaseline, Program.wp_bind, Environment.wp_cacheCall]
  rintro found _ ⟨⟩
  have found : state.cache.getBaseline task.identity.key = entry.baseline := by
    rw [ThreadCache.getBaseline, stored]
    rfl
  rw [found]
  rcases tracks.recorded with recorded | ⟨recorded, nothing⟩
  · rw [recorded]
    dsimp only
    rw [restoreRecorded]
    apply live.wp_orDiscard
    rw [restoreIf, if_pos (by rfl), Program.wp_bind]
    refine Program.wp_mono (makes_restoreCpuctlBaseline live possible state) ?_
    rintro _ _ ⟨rfl, rfl⟩
    apply live.wp_orDiscard
    rw [restoreIf, if_pos (by rfl), Program.wp_bind]
    refine Program.wp_mono (makes_restoreSchedulerBaseline live possible _) ?_
    rintro _ _ ⟨rfl, rfl⟩
    apply live.wp_orDiscard
    rw [Program.wp_bind]
    refine Program.wp_mono (makes_restoreAffinityBaseline live possible _) ?_
    rintro _ _ ⟨rfl, rfl⟩
    apply live.wp_orDiscard
    rw [finishRestoration, if_pos (by rfl), Program.wp_bind, Environment.wp_cacheCall]
    rintro ⟨⟩ _ ⟨⟩
    rw [Program.wp_bind, Environment.wp_cacheCall]
    rintro ⟨⟩ _ ⟨⟩
    rw [Program.wp_bind, Environment.wp_cacheCall]
    rintro ⟨⟩ _ ⟨⟩
    have back : Unmanaged original {}
        (withAffinity original
          ((withCpuctl original state.world).withScheduler original.schedulerBaseline)) := by
      have restored := unmanaged_withAffinity (unmanaged_withScheduler
        (unmanaged_withCpuctl tracks.unmanaged))
      exact restored.mono nofun nofun nofun
    exact ⟨⟨_, lookup_forget stored, same, tracks.returned, .inr ⟨rfl, rfl⟩, back, nofun⟩,
      target_of_unneeded unneeded back⟩
  · rw [recorded]
    dsimp only
    rw [Program.wp_bind, Environment.wp_cacheCall]
    rintro ⟨⟩ _ ⟨⟩
    rw [Program.wp_bind, Environment.wp_cacheCall]
    rintro ⟨⟩ _ ⟨⟩
    have back := tracks.unmanaged
    rw [nothing] at back
    refine ⟨⟨{ entry with appliedResult := none, managedComponents := {} }, ?_, same,
      tracks.returned, .inr ⟨recorded, rfl⟩, back, nofun⟩, target_of_unneeded unneeded back⟩
    simp only [ThreadCache.clearManagedComponents, ThreadCache.setManagedComponents,
      ThreadCache.clearAppliedResult, Table.lookup_adjust, stored]
    rfl

/-- A call of `apply_result` reaches the target of its result. -/
theorem applyResult_spec (live : (Kernel.environment task.identity returned).Alive task.identity)
    (possible : original.Possible) (attainable : Attainable sched result)
    (entered : Entered sched returned original task.identity state) :
    (applyResult sched task result).wp (Kernel.environment task.identity returned).machine
      (fun _ => Reaches sched returned original task.identity result) state := by
  unfold applyResult
  cases needed : needsManagedState sched result with
  | false => exact restoreBaseline_spec live possible needed entered
  | true =>
    have matched : result.matched = true := (Bool.and_eq_true_iff.mp needed).1
    rw [if_pos rfl, Program.wp_bind]
    refine Program.wp_mono (captureBaselineIfNeeded_spec live possible entered) ?_
    rintro ⟨⟩ first ⟨entry, stored, same, recorded, tracks⟩
    rw [Program.wp_bind, Environment.wp_cacheCall]
    rintro found _ ⟨⟩
    have found : first.cache.getBaseline task.identity.key = some (baselineOf original) := by
      rw [ThreadCache.getBaseline, stored]
      exact recorded
    rw [found]
    dsimp only
    rw [if_pos isSufficient_baselineOf, applyManaged, Program.wp_bind, Environment.wp_cacheCall]
    rintro managed _ ⟨⟩
    have managed : first.cache.getManagedComponents task.identity.key =
        entry.managedComponents := by
      rw [ThreadCache.getManagedComponents, stored]
      rfl
    rw [managed, Program.wp_bind]
    refine Program.wp_mono (releaseComponents_spec live possible stored tracks.unmanaged) ?_
    rintro _ second ⟨remaining, rfl, remains, holds, unmanaged⟩
    dsimp only
    refine Program.wp_mono (attemptResult_spec live attainable matched remains holds unmanaged) ?_
    rintro outcome after ⟨stored, target⟩
    refine ⟨⟨applied sched entry result, stored, same, tracks.returned, .inl recorded,
      target.unmanaged, ?_⟩, target⟩
    rintro other ⟨⟩
    exact target

end Applying

/-! ## Tasks -/

/-- The result of a task. -/
def resultOf : TaskOutcome → Option MatchResult
  | .upToDate result => some result
  | .called result _ => some result
  | .dropped => none
  | .throttled => none

/-- A thread that is original while it has no entry, and tracked by its entry. -/
def Followed (sched : SchedConfig) (returned : MatchResult → Prop) (original : KernelThread)
    (thread : Identity) (state : CallState KernelThread) : Prop :=
  Entered sched returned original thread state ∨ state.world = original ∧
    ∀ entry, state.cache.lookup thread.key = some entry → entry.identity ≠ thread

/-- A task ended at the target of its result. -/
def TaskReaches (sched : SchedConfig) (returned : MatchResult → Prop) (original : KernelThread)
    (thread : Identity) (outcome : TaskOutcome) (state : CallState KernelThread) : Prop :=
  ∃ result, resultOf outcome = some result ∧ Reaches sched returned original thread result state

section Tasks

variable {task : DispatchTask} {returned : MatchResult → Prop} {state : CallState KernelThread}
  (live : (Kernel.environment task.identity returned).Alive task.identity)
  (possible : original.Possible) (attainable : ∀ result, returned result → Attainable sched result)

/-- An updated entry tracks the thread. -/
theorem Followed.update {thread : Identity} (followed : Followed sched returned original thread state)
    (observation : Observation) (record : ResultRecord) (fine : returned record.result) :
    Entered sched returned original thread
      ⟨state.world, state.cache.update thread observation record⟩ := by
  refine ⟨_, ThreadCache.lookup_update .., ThreadCache.next_identity .., ?_⟩
  have returnedNext : ∀ old, returned (ThreadCacheEntry.next old thread observation record).result := by
    intro old
    rw [ThreadCache.next_result]
    exact fine
  rcases followed with ⟨entry, stored, same, tracks⟩ | ⟨start, unentered⟩
  · rw [stored]
    have renewed : ThreadCacheEntry.next (some entry) thread observation record =
        entry.renew observation record := ThreadCache.next_of_identity same
    refine ⟨returnedNext _, ?_, ?_, ?_⟩
    · rw [renewed]
      exact tracks.recorded
    · rw [renewed]
      exact tracks.unmanaged
    · rw [renewed]
      exact tracks.applied
  · have fresh : ThreadCacheEntry.next (state.cache.lookup thread.key) thread observation record =
        .fresh thread observation record := by
      unfold ThreadCacheEntry.next
      split
      · rename_i entry stored
        exact if_neg (unentered entry stored)
      · rfl
    refine ⟨returnedNext _, ?_, ?_, ?_⟩
    · rw [fresh]
      exact .inr ⟨rfl, rfl⟩
    · rw [fresh, start]
      exact unmanaged_original
    · rw [fresh]
      exact nofun

include live possible attainable

/-- A call of `apply_result` for a returned result reaches its target. -/
theorem callApplyResult_spec (fine : returned result)
    (entered : Entered sched returned original task.identity state) :
    (callApplyResult sched task result).wp (Kernel.environment task.identity returned).machine
      (TaskReaches sched returned original task.identity) state := by
  rw [callApplyResult, Program.wp_bind]
  refine Program.wp_mono (applyResult_spec live possible (attainable result fine) entered) ?_
  intro outcome after reaches
  exact ⟨result, rfl, reaches⟩

/-- A task with a cached result reaches its target. -/
theorem processCached_spec {entry : ThreadCacheEntry}
    (stored : state.cache.lookup task.identity.key = some entry)
    (same : entry.identity = task.identity)
    (tracks : Tracks sched returned original entry state.world) :
    (processCached sched task entry).wp (Kernel.environment task.identity returned).machine
      (TaskReaches sched returned original task.identity) state := by
  have calls := callApplyResult_spec live possible attainable tracks.returned
    ⟨entry, stored, same, tracks⟩
  rw [processCached, Program.wp_bind, Environment.wp_cacheCall]
  rintro found _ ⟨⟩
  have found : state.cache.getAppliedResult task.identity.key = entry.appliedResult := by
    rw [ThreadCache.getAppliedResult, stored]
    rfl
  rw [found]
  cases applied : entry.appliedResult with
  | none => exact calls
  | some result =>
    have settled : TaskReaches sched returned original task.identity (.upToDate result) state :=
      ⟨result, rfl, ⟨entry, stored, same, tracks⟩, tracks.applied result applied⟩
    dsimp only
    split
    · split
      · rw [Program.wp_bind]
        refine Program.wp_mono (Kernel.quiet.wp_observing (observes_hasDrifted sched task result)) ?_
        rintro drifted _ rfl
        split
        · exact calls
        · exact settled
      · exact settled
    · exact calls

/-- A task of a followed thread reaches the target of its result. -/
theorem processDispatchTask_spec
    (followed : Followed sched returned original task.identity state) :
    (processDispatchTask sched task).wp (Kernel.environment task.identity returned).machine
      (TaskReaches sched returned original task.identity) state := by
  rw [processDispatchTask]
  apply live.wp_orDiscard
  rw [Program.wp_bind, Environment.wp_sysCall rfl]
  rintro skip answered
  obtain rfl : skip = false := answered
  rw [if_neg Bool.false_ne_true, processFresh, Program.wp_bind, Environment.wp_cacheCall]
  rintro found _ ⟨⟩
  cases found : state.cache.find task.identity task.observation with
  | some entry =>
    obtain ⟨stored, same, _⟩ := ThreadCache.find_eq_some.mp found
    rcases followed with ⟨other, storedOther, _, tracks⟩ | ⟨_, unentered⟩
    · obtain rfl := Option.some.inj (storedOther.symm.trans stored)
      exact processCached_spec live possible attainable stored same tracks
    · exact absurd same (unentered entry stored)
  | none =>
    dsimp only
    rw [processUncached, Program.wp_bind, Environment.wp_sysCall rfl]
    intro result fine
    rw [Program.wp_bind, Environment.wp_cacheCall]
    rintro ⟨⟩ _ ⟨⟩
    exact callApplyResult_spec live possible attainable fine (followed.update _ _ fine)

end Tasks

/-! ## Histories -/

/-- The states after histories of tasks of a thread that are not throttled, on a kernel whose
system calls succeed, with the result of the last task. -/
inductive Reached (sched : SchedConfig) (returned : MatchResult → Prop) (thread : Identity)
    (original : KernelThread) : CallState KernelThread → Option MatchResult → Prop where
  /-- The thread is in its original state and has no entry. -/
  | start {cache : ThreadCache}
    (unentered : ∀ entry, cache.lookup thread.key = some entry → entry.identity ≠ thread) :
    Reached sched returned thread original ⟨original, cache⟩ none
  /-- One more task. -/
  | task {state after : CallState KernelThread} {last : Option MatchResult} {task : DispatchTask}
    {outcome : TaskOutcome} (own : task.identity = thread)
    (reached : Reached sched returned thread original state last)
    (runs : Program.Run (Kernel.machine thread returned)
      ((processDispatchTask sched task).interpret (expand sched.timing)) state outcome after) :
    Reached sched returned thread original after (resultOf outcome)

/-- Every history ends at the target of its last result. -/
theorem Reached.target {returned : MatchResult → Prop} {thread : Identity}
    (validPid : FileUtils.isValidId thread.pid = true)
    (validTid : FileUtils.isValidId thread.tid = true) (possible : original.Possible)
    (retries : 1 ≤ sched.timing.cpusetRetryCount)
    (attainable : ∀ result, returned result → Attainable sched result)
    {state : CallState KernelThread} {last : Option MatchResult}
    (reached : Reached sched returned thread original state last) :
    Followed sched returned original thread state ∧
      ∀ result, last = some result → Target sched original result state.world := by
  induction reached with
  | start unentered => exact ⟨.inr ⟨rfl, unentered⟩, nofun⟩
  | task own reached runs ih =>
    subst own
    have reaches := processDispatchTask_spec (alive validPid validTid) possible attainable ih.1
    have performed := Kernel.wp_expand validPid validTid retries
      (isFor_processDispatchTask _ _) reaches
    obtain ⟨result, same, entered, target⟩ := runs.post performed
    refine ⟨.inl entered, ?_⟩
    rintro other last
    rw [same] at last
    obtain rfl := Option.some.inj last
    exact target

/-! ## The last result decides -/

/-- A result the matcher of a configuration can return. -/
def Returns (engine : RegexEngine) (config : Config) (launcherPackage : Bytes)
    (result : MatchResult) : Prop :=
  ∃ host calls, result ∈ (ThreadMatcher.ofConfig engine
    { config with launcherPackage := launcherPackage }).matchCalls host calls .empty

/-- Every result the matcher of an accepted configuration can return is attainable. -/
theorem attainable_of_returns {engine : RegexEngine} {document : Json} {config : Config}
    (accepted : ConfigParser.parse document = some config) {launcherPackage : Bytes}
    (returns : Returns engine config launcherPackage result) : Attainable config.sched result := by
  have valid := ConfigParser.parse_valid accepted
  obtain ⟨host, calls, returned⟩ := returns
  have priority : ConfigParser.isValidPrioValue
      (config.sched.getPrioValue result.prioClass result.effectiveState) = true := by
    unfold SchedConfig.getPrioValue
    split
    · rfl
    · split
      · rfl
      · exact valid.prio_values ‹_› _
  rcases matchCalls_source returned with ⟨unresolved, unlimited⟩ | ⟨rule, threadRule, index, source⟩
  · refine ⟨fun resolved => ?_, priority, fun limited => ?_⟩
    · rw [unresolved] at resolved
      cases resolved
    · rw [unlimited] at limited
      cases limited
  · refine ⟨fun resolved => ?_, priority, fun _ => by rw [source.rule_index]; omega⟩
    have named : result.cpumaskName ≠ [] := of_decide_eq_true (Bool.and_eq_true_iff.mp resolved).2
    rw [source.cpumask_name] at named
    obtain ⟨_, cpus, _, _, stored, same⟩ := resolved_mask valid named
    rw [same]
    exact valid.cpus_ne_nil stored

/-- Two threads are in the same state but for the nice value. -/
structure SameButNice (first second : KernelThread) : Prop where
  /-- The cpuset group. -/
  cpuset : first.cpuset = second.cpuset
  /-- The CPUs. -/
  affinity : first.affinity = second.affinity
  /-- The policy. -/
  policy : first.policy = second.policy
  /-- The real-time priority. -/
  priority : first.priority = second.priority
  /-- The cpuctl group. -/
  cpuctl : first.cpuctl = second.cpuctl

/-- The nice value is decided by the result: its priority value names one, or the scheduler
state is not managed and the original one was recorded with its nice value. -/
def NiceDecided (sched : SchedConfig) (original : KernelThread) (result : MatchResult) : Prop :=
  let prioValue := sched.getPrioValue result.prioClass result.effectiveState
  if (managedBy sched result).priority then 100 ≤ prioValue ∧ prioValue ≤ 139
  else PrioritySetter.isPlainPolicy original.policy = true

/-- Two threads at one target are in the same state, up to a nice value the result does not
decide. -/
theorem Target.same {first second : KernelThread} (left : Target sched original result first)
    (right : Target sched original result second) :
    SameButNice first second ∧ (NiceDecided sched original result → first.nice = second.nice) := by
  have scheduler : first.policy = second.policy ∧ first.priority = second.priority ∧
      (NiceDecided sched original result → first.nice = second.nice) := by
    unfold NiceDecided
    cases managed : (managedBy sched result).priority with
    | true =>
      have appliedLeft := left.scheduler managed
      have appliedRight := right.scheduler managed
      refine ⟨Option.some.inj (appliedLeft.policy.symm.trans appliedRight.policy),
        appliedLeft.priority.trans appliedRight.priority.symm, fun decided => ?_⟩
      exact (appliedLeft.nice decided).trans (appliedRight.nice decided).symm
    | false =>
      have restoredLeft := left.unmanaged.scheduler managed
      have restoredRight := right.unmanaged.scheduler managed
      refine ⟨restoredLeft.policy.trans restoredRight.policy.symm,
        restoredLeft.priority.trans restoredRight.priority.symm, fun decided => ?_⟩
      exact (restoredLeft.nice decided).trans (restoredRight.nice decided).symm
  obtain ⟨policy, priority, nice⟩ := scheduler
  refine ⟨⟨?_, ?_, policy, priority, ?_⟩, nice⟩
  · cases managed : (managedBy sched result).affinity with
    | true => exact (left.affinity managed).cpuset.trans (right.affinity managed).cpuset.symm
    | false =>
      exact (left.unmanaged.cpuset managed).trans (right.unmanaged.cpuset managed).symm
  · cases managed : (managedBy sched result).affinity with
    | true => exact (left.affinity managed).affinity.trans (right.affinity managed).affinity.symm
    | false =>
      exact (left.unmanaged.affinity managed).trans (right.unmanaged.affinity managed).symm
  · cases managed : (managedBy sched result).cpuctl with
    | true => exact (left.cpuctl managed).trans (right.cpuctl managed).symm
    | false =>
      exact (left.unmanaged.cpuctl managed).trans (right.unmanaged.cpuctl managed).symm

/-- Histories under an accepted configuration that end with the same result leave the thread in
the same state: at the targets of the result in the components it manages and in the original
state elsewhere. The nice value is the same when the result decides it. -/
theorem sameState_of_lastResult (engine : RegexEngine) (document : Json) (config : Config)
    (accepted : ConfigParser.parse document = some config) (launcherPackage : Bytes)
    (thread : Identity) (validPid : FileUtils.isValidId thread.pid = true)
    (validTid : FileUtils.isValidId thread.tid = true) (original : KernelThread)
    (possible : original.Possible) (result : MatchResult) (first second : CallState KernelThread)
    (left : Reached config.sched (Returns engine config launcherPackage) thread original first
      (some result))
    (right : Reached config.sched (Returns engine config launcherPackage) thread original second
      (some result)) :
    Target config.sched original result first.world ∧
      Target config.sched original result second.world ∧
      SameButNice first.world second.world ∧
      (NiceDecided config.sched original result → first.world.nice = second.world.nice) := by
  have retries := ConfigParser.parse_cpusetRetryCount accepted
  have attainable : ∀ result, Returns engine config launcherPackage result →
      Attainable config.sched result := fun _ returns => attainable_of_returns accepted returns
  have targetLeft := (left.target validPid validTid possible retries attainable).2 result rfl
  have targetRight := (right.target validPid validTid possible retries attainable).2 result rfl
  exact ⟨targetLeft, targetRight, targetLeft.same targetRight⟩

/-! ## A thread that renames itself -/

/-- A document with two priority classes, one with a nice value and one without. -/
def niceDocument : Json :=
  let object (members : List (String × Json)) : Json :=
    .object (members.map fun member => (Bytes.ascii member.1, member.2))
  let text (literal : String) : Json := .string (Bytes.ascii literal)
  object [("modules", object [("sched", object
    [("prio", object
        [("high", object [("bg", .int 110)]), ("plain", object [("bg", .int (-1))])]),
      ("rules", .array [object
        [("name", text "app"),
          ("regex", text "app"),
          ("rules", .array
            [object [("k", text "Render"), ("pc", text "high")],
              object [("k", text "Idle"), ("pc", text "plain")]])]])])])]

/-- The configuration of that document. -/
def niceConfig : Config := (ConfigParser.parse niceDocument).getD {}

/-- The result for a thread name. -/
def namedResult (name : String) : MatchResult :=
  (ThreadMatcher.ofConfig literalEngine niceConfig).matchFresh plainHost (separatorCall "app" name)

/-- The thread. -/
def renamingThread : Identity := ⟨10, 11, 100, 101⟩

/-- Its original state. -/
def renamingOriginal : KernelThread where
  cpuset := Bytes.ascii "/foreground"
  affinity := CpuSet.fromVector [0, 1]
  policy := PrioritySetter.normalPolicy
  priority := 0
  nice := 0
  cpuctl := Bytes.ascii "/"

/-- A task of the thread under a name. -/
def namedTask (name : String) : DispatchTask :=
  ⟨renamingThread, Bytes.ascii name, .bg, cpusetMount, Bytes.ascii "app", []⟩

/-- The answers of the kernel and the matcher during a task under a name. -/
def namedRespond (name : String) (state : CallState KernelThread) :
    (operation : SysOp) → Option (SysSig.Res operation × CallState KernelThread)
  | .cache call => some ((call.run state.cache).1, ⟨state.world, (call.run state.cache).2⟩)
  | .attempt owner change =>
    if owner.tid = renamingThread.tid then some (true, ⟨state.world.apply change, state.cache⟩)
    else none
  | .processStartTime _ _ => some (renamingThread.processStartTime, state)
  | .threadStartTime _ _ _ => some (renamingThread.threadStartTime, state)
  | .threadInProcess _ pid _ => some (decide (pid = renamingThread.pid), state)
  | .threadCgroupPaths _ _ => some (⟨state.world.cpuset, state.world.cpuctl, true⟩, state)
  | .schedGetaffinity _ => some (some state.world.affinity, state)
  | .schedGetscheduler _ => some (state.world.policy, state)
  | .schedGetparam _ => some (some state.world.priority, state)
  | .getpriority _ => some (some state.world.nice, state)
  | .shouldSkipSchedule _ => some (false, state)
  | .matchThread _ => some (namedResult name, state)
  | _ => none

/-- Every such answer is possible. -/
theorem namedRespond_valid {returned : MatchResult → Prop} {name : String}
    (fine : returned (namedResult name)) {state after : CallState KernelThread} {operation : SysOp}
    {response : SysSig.Res operation}
    (answered : namedRespond name state operation = some (response, after)) :
    (Kernel.machine renamingThread returned).step state operation response after := by
  cases operation with
  | cache call => cases answered; exact ⟨call.step_run state.cache, rfl⟩
  | attempt owner change =>
    rw [namedRespond] at answered
    split at answered
    · cases answered
      exact ⟨rfl, rfl, (if_pos ‹_›).symm⟩
    · cases answered
  | processStartTime use pid => cases answered; exact ⟨fun _ => rfl, rfl⟩
  | threadStartTime use pid tid => cases answered; exact ⟨fun _ => rfl, rfl⟩
  | threadInProcess use pid tid => cases answered; exact ⟨fun _ => rfl, rfl⟩
  | threadCgroupPaths pid tid => cases answered; exact ⟨fun _ => rfl, rfl⟩
  | schedGetaffinity tid => cases answered; exact ⟨fun _ => rfl, rfl⟩
  | schedGetscheduler tid => cases answered; exact ⟨fun _ => rfl, rfl⟩
  | schedGetparam tid => cases answered; exact ⟨fun _ => rfl, rfl⟩
  | getpriority tid => cases answered; exact ⟨fun _ => rfl, rfl⟩
  | shouldSkipSchedule task => cases answered; exact ⟨rfl, rfl⟩
  | matchThread task => cases answered; exact ⟨fine, rfl⟩
  | _ => cases answered

/-- The state after one task under each name. -/
def playNames : List String → CallState KernelThread → Option MatchResult →
    Option (CallState KernelThread × Option MatchResult)
  | [], state, last => some (state, last)
  | name :: names, state, _ =>
    ((((processDispatchTask niceConfig.sched (namedTask name)).interpret
      (expand niceConfig.sched.timing)).exec (namedRespond name) state).bind fun found =>
        playNames names found.2 (resultOf found.1))

/-- Played tasks are a history. -/
theorem reached_playNames {returned : MatchResult → Prop} {names : List String}
    (fine : ∀ name ∈ names, returned (namedResult name))
    {state after : CallState KernelThread} {last found : Option MatchResult}
    (reached : Reached niceConfig.sched returned renamingThread renamingOriginal state last)
    (played : playNames names state last = some (after, found)) :
    Reached niceConfig.sched returned renamingThread renamingOriginal after found := by
  induction names generalizing state last with
  | nil =>
    cases played
    exact reached
  | cons name names ih =>
    obtain ⟨⟨outcome, middle⟩, executed, rest⟩ := Option.bind_eq_some_iff.mp played
    have runs := Program.run_of_exec (namedRespond_valid (fine name List.mem_cons_self)) executed
    exact ih (fun other member => fine other (List.mem_cons_of_mem _ member))
      (.task rfl reached runs) rest

/-- The matcher returns the results of both names. -/
theorem returns_namedResult {name : String} (member : name ∈ ["Render", "Idle"]) :
    Returns literalEngine niceConfig [] (namedResult name) := by
  have listed : namedResult name ∈ (ThreadMatcher.ofConfig literalEngine
      { niceConfig with launcherPackage := [] }).matchCalls plainHost
        [separatorCall "app" name] .empty := by
    rcases List.mem_cons.mp member with rfl | idle
    · decide
    · obtain rfl := List.mem_singleton.mp idle
      decide
  exact ⟨_, _, listed⟩

/-- The original state is one the kernel can have. -/
theorem possible_renamingOriginal : renamingOriginal.Possible := by
  constructor <;> decide

/-- The names under which the thread is seen end with the state of the last one. -/
theorem reached_names {names : List String} (known : ∀ name ∈ names, name ∈ ["Render", "Idle"])
    {after : CallState KernelThread} {found : Option MatchResult}
    (played : playNames names ⟨renamingOriginal, ∅⟩ none = some (after, found)) :
    Reached niceConfig.sched (Returns literalEngine niceConfig []) renamingThread renamingOriginal
      after found :=
  reached_playNames (fun name member => returns_namedResult (known name member))
    (.start (by simp)) played

/-- The final state of a played history. -/
theorem exists_of_played (names : List String) (name : String) (nice : Int)
    (ends : (playNames names ⟨renamingOriginal, ∅⟩ none).map
      (fun found => (found.2, found.1.world.nice)) = some (some (namedResult name), nice)) :
    ∃ state, playNames names ⟨renamingOriginal, ∅⟩ none = some (state, some (namedResult name)) ∧
      state.world.nice = nice := by
  obtain ⟨⟨state, found⟩, ran, same⟩ := Option.map_eq_some_iff.mp ends
  obtain ⟨rfl, left⟩ := Prod.mk.inj same
  exact ⟨state, ran, left⟩

/-- Two histories that end with the class of the nice value leave the thread with it. -/
theorem sameState_of_lastResult_renamed : ∃ first second : CallState KernelThread,
    SameButNice first.world second.world ∧ first.world.nice = second.world.nice ∧
      second.world.nice = -10 := by
  obtain ⟨first, ranFirst, _⟩ := exists_of_played ["Idle", "Render"] "Render" (-10) (by decide)
  obtain ⟨second, ranSecond, nice⟩ := exists_of_played ["Render"] "Render" (-10) (by decide)
  obtain ⟨_, _, same, decided⟩ := sameState_of_lastResult literalEngine niceDocument niceConfig rfl
    [] renamingThread (by decide) (by decide) renamingOriginal possible_renamingOriginal
    (namedResult "Render") first second (reached_names (by decide) ranFirst)
    (reached_names (by decide) ranSecond)
  have named : NiceDecided niceConfig.sched renamingOriginal (namedResult "Render") := by
    unfold NiceDecided
    decide
  exact ⟨first, second, same, decided named, nice⟩

/-- A policy without a nice value keeps the nice value of an earlier result. -/
theorem sameState_fails :
    ¬ ∀ (engine : RegexEngine) (document : Json) (config : Config),
      ConfigParser.parse document = some config → ∀ (launcherPackage : Bytes) (thread : Identity),
      FileUtils.isValidId thread.pid = true → FileUtils.isValidId thread.tid = true →
      ∀ original : KernelThread, original.Possible →
      ∀ (result : MatchResult) (first second : CallState KernelThread),
      Reached config.sched (Returns engine config launcherPackage) thread original first
        (some result) →
      Reached config.sched (Returns engine config launcherPackage) thread original second
        (some result) →
      first.world = second.world := by
  intro claim
  obtain ⟨first, ranFirst, reniced⟩ := exists_of_played ["Render", "Idle"] "Idle" (-10) (by decide)
  obtain ⟨second, ranSecond, plain⟩ := exists_of_played ["Idle"] "Idle" 0 (by decide)
  have same := claim literalEngine niceDocument niceConfig rfl [] renamingThread (by decide)
    (by decide) renamingOriginal possible_renamingOriginal (namedResult "Idle") first second
    (reached_names (by decide) ranFirst) (reached_names (by decide) ranSecond)
  rw [same, plain] at reniced
  cases reniced

end Convergence

end ReUperf
