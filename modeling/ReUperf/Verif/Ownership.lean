import ReUperf.Main.Restoration

/-!
# Ownership of calls

A task makes its setter calls and its keyed cache calls for its own identity, and so does the
restoration of one stored baseline. This is read off the program texts once; every argument
about several threads uses it.
-/

namespace ReUperf

open Effect FileUtils

/-- The identity a keyed cache call is made for. -/
def CacheCall.owner : CacheCall → Option Identity
  | .find owner _ | .update owner _ _ | .getAppliedResult owner | .updateAppliedResult owner _
  | .clearAppliedResult owner | .getManagedComponents owner | .setManagedComponents owner _
  | .clearManagedComponents owner | .setBaseline owner _ | .getBaseline owner
  | .clearBaseline owner | .eraseThreadIfIdentity owner => some owner
  | _ => none

/-- An operation a task of the identity may perform. -/
def SysOp.IsFor (identity : Identity) : SysOp → Prop
  | .cache call => call.owner = some identity
  | .attempt owner _ => owner = identity
  | .processStartTime use _ | .threadStartTime use _ _ | .threadInProcess use _ _ =>
    use = .discard ∨ use = .skip
  | .stopWorkers | .startWorkers | .initCgroups | .exit _ | .storeScan _ | .taskDone _
  | .openProc | .readProc | .openTask _ | .readTask _ | .budgetExhausted | .afterThreadRead
  | .processName _ => False
  | _ => True

/-- Whether an operation is a call of the cache. -/
def SysOp.isCache : SysOp → Bool
  | .cache _ => true
  | _ => false

/-- Whether an operation changes a thread. -/
def SysOp.isAttempt : SysOp → Bool
  | .attempt _ _ => true
  | _ => false

/-- A call a task of the identity may make: setters change threads, the worker itself does not. -/
def CallOp.IsFor (identity : Identity) : CallOp → Prop
  | .sys operation => operation.IsFor identity ∧ operation.isAttempt = false
  | .setter call => call.thread = identity

/-- The thread whose scheduling state an operation reads has this ID. -/
def SysOp.SeesOnly (tid : Int) : SysOp → Prop
  | .threadCgroupPaths _ other | .schedGetaffinity other | .statusAffinity other
  | .schedGetscheduler other | .schedGetparam other | .getpriority other => other = tid
  | _ => True

/-- Whether an operation records a baseline. -/
def SysOp.recordsBaseline : SysOp → Bool
  | .cache (.setBaseline _ _) => true
  | _ => false

/-- An operation a task of the identity may perform besides recording a baseline. It reads the
scheduling state of no other thread. -/
structure SysOp.Serves (identity : Identity) (operation : SysOp) : Prop where
  /-- A task of the identity may perform it. -/
  isFor : operation.IsFor identity
  /-- It reads the identity's thread. -/
  sees : operation.SeesOnly identity.tid
  /-- It records no baseline. -/
  plain : operation.recordsBaseline = false

/-- A call a task of the identity may make besides recording a baseline. -/
def CallOp.Serves (identity : Identity) : CallOp → Prop
  | .sys operation => operation.Serves identity ∧ operation.isAttempt = false
  | .setter call => call.thread = identity

/-- A call besides the record of a baseline is a call. -/
theorem CallOp.Serves.isFor {identity : Identity} {call : CallOp} (serves : call.Serves identity) :
    call.IsFor identity := by
  cases call with
  | sys operation => exact ⟨serves.1.isFor, serves.2⟩
  | setter call => exact serves

/-! ## Effects of cache calls -/

namespace CacheCall

variable {call : CacheCall} {cache after : ThreadCache} {response : call.Res}

/-- A keyed call leaves the entries under other keys. -/
theorem lookup_of_owner {owner : Identity} {key : CacheKey}
    (step : call.Step cache response after) (own : call.owner = some owner)
    (differ : key ≠ owner.key) : after.lookup key = cache.lookup key := by
  cases call with
  | find other _ => cases step; rfl
  | getAppliedResult other => cases step; rfl
  | getManagedComponents other => cases step; rfl
  | getBaseline other => cases step; rfl
  | update other observation record =>
    cases step
    cases own
    exact ThreadCache.lookup_update_ne differ
  | eraseThreadIfIdentity other =>
    cases step
    cases own
    exact ThreadCache.lookup_eraseThreadIfIdentity_ne differ
  | updateAppliedResult other _ => cases step; cases own; exact Table.lookup_adjust_ne differ
  | clearAppliedResult other => cases step; cases own; exact Table.lookup_adjust_ne differ
  | setManagedComponents other _ => cases step; cases own; exact Table.lookup_adjust_ne differ
  | clearManagedComponents other => cases step; cases own; exact Table.lookup_adjust_ne differ
  | setBaseline other _ => cases step; cases own; exact Table.lookup_adjust_ne differ
  | clearBaseline other => cases step; cases own; exact Table.lookup_adjust_ne differ
  | _ => cases own

/-- Every call keeps the cache keyed. -/
theorem keyed (step : call.Step cache response after) (kept : cache.Keyed) : after.Keyed := by
  cases call with
  | getAllBaselines => rw [step.2]; exact kept
  | find _ _ => cases step; exact kept
  | getAppliedResult _ => cases step; exact kept
  | getManagedComponents _ => cases step; exact kept
  | getBaseline _ => cases step; exact kept
  | getPidsWithBaselines => cases step; exact kept
  | identitySnapshot => cases step; exact kept
  | update owner observation record => cases step; exact kept.update owner observation record
  | updateAppliedResult _ _ => cases step; exact kept.adjust (by intro entry; rfl) _
  | clearAppliedResult _ => cases step; exact kept.adjust (by intro entry; rfl) _
  | setManagedComponents _ _ => cases step; exact kept.adjust (by intro entry; rfl) _
  | clearManagedComponents _ => cases step; exact kept.adjust (by intro entry; rfl) _
  | setBaseline _ _ => cases step; exact kept.adjust (by intro entry; rfl) _
  | clearBaseline _ => cases step; exact kept.adjust (by intro entry; rfl) _
  | retainLiveThreads findings => cases step; exact kept.retain _
  | clearSchedulingStatePreservingBaselines => cases step; exact kept.clearSchedulingState
  | eraseThreadIfIdentity owner => cases step; exact kept.eraseThreadIfIdentity owner
  | resetForPid _ => cases step; exact kept.retain _
  | clear => cases step; exact ThreadCache.keyed_empty

/-- A call other than an update leaves only entries of identities that had one. -/
theorem identity_of_step {key : CacheKey} {entry : ThreadCacheEntry}
    (step : call.Step cache response after)
    (plain : ∀ owner observation record, call ≠ .update owner observation record)
    (stored : after.lookup key = some entry) :
    ∃ old, cache.lookup key = some old ∧ old.identity = entry.identity := by
  have adjusted : ∀ (change : ThreadCacheEntry → ThreadCacheEntry) (owner : CacheKey),
      (cache.adjust change owner).lookup key = some entry →
      (∀ entry, (change entry).identity = entry.identity) →
      ∃ old, cache.lookup key = some old ∧ old.identity = entry.identity := by
    intro change owner stored same
    by_cases here : key = owner
    · subst here
      rw [Table.lookup_adjust] at stored
      obtain ⟨old, found, rfl⟩ := Option.map_eq_some_iff.mp stored
      exact ⟨old, found, (same old).symm⟩
    · rw [Table.lookup_adjust_ne here] at stored
      exact ⟨entry, stored, rfl⟩
  have retained : ∀ keep : CacheKey → ThreadCacheEntry → Bool,
      (cache.retain keep).lookup key = some entry →
      ∃ old, cache.lookup key = some old ∧ old.identity = entry.identity :=
    fun keep stored => ⟨entry, (Table.lookup_retain_eq_some.mp stored).1, rfl⟩
  cases call with
  | update owner observation record => exact absurd rfl (plain owner observation record)
  | getAllBaselines => rw [step.2] at stored; exact ⟨entry, stored, rfl⟩
  | find _ _ => cases step; exact ⟨entry, stored, rfl⟩
  | getAppliedResult _ => cases step; exact ⟨entry, stored, rfl⟩
  | getManagedComponents _ => cases step; exact ⟨entry, stored, rfl⟩
  | getBaseline _ => cases step; exact ⟨entry, stored, rfl⟩
  | getPidsWithBaselines => cases step; exact ⟨entry, stored, rfl⟩
  | identitySnapshot => cases step; exact ⟨entry, stored, rfl⟩
  | updateAppliedResult _ _ => cases step; exact adjusted _ _ stored fun _ => rfl
  | clearAppliedResult _ => cases step; exact adjusted _ _ stored fun _ => rfl
  | setManagedComponents _ _ => cases step; exact adjusted _ _ stored fun _ => rfl
  | clearManagedComponents _ => cases step; exact adjusted _ _ stored fun _ => rfl
  | setBaseline _ _ => cases step; exact adjusted _ _ stored fun _ => rfl
  | clearBaseline _ => cases step; exact adjusted _ _ stored fun _ => rfl
  | retainLiveThreads findings => cases step; exact retained _ stored
  | resetForPid _ => cases step; exact retained _ stored
  | eraseThreadIfIdentity owner =>
    cases step
    exact ⟨entry, ThreadCache.lookup_of_eraseThreadIfIdentity stored, rfl⟩
  | clearSchedulingStatePreservingBaselines =>
    cases step
    rw [ThreadCache.clearSchedulingStatePreservingBaselines, Table.lookup_mapValues] at stored
    obtain ⟨old, found, rfl⟩ := Option.map_eq_some_iff.mp stored
    exact ⟨old, (Table.lookup_retain_eq_some.mp found).1, rfl⟩
  | clear =>
    cases step
    simp at stored

end CacheCall

/-! ## Calls of the programs -/

section Calls

variable {identity : Identity}

/-- A permitted setter call. -/
theorem serves_setterCall {call : SetterCall} (own : call.thread = identity) :
    (setterCall call).Calls (CallOp.Serves identity) := (Program.calls_op _ _).mpr own

/-- A permitted cache call. -/
theorem serves_cacheCall {call : CacheCall} (own : call.owner = some identity)
    (plain : (SysOp.cache call).recordsBaseline = false) :
    (cacheCall call).Calls (CallOp.Serves identity) :=
  (Program.calls_op _ _).mpr ⟨⟨own, trivial, plain⟩, rfl⟩

/-- A permitted system operation. -/
theorem serves_sysCall {operation : SysOp} (serves : operation.Serves identity)
    (calm : operation.isAttempt = false) :
    (sysCall operation).Calls (CallOp.Serves identity) :=
  (Program.calls_op _ _).mpr ⟨serves, calm⟩

/-- A lifted program makes the calls of its operations. -/
theorem serves_lift {α : Type} {program : SysProgram α}
    (calls : program.Calls fun operation : SysOp => operation.Serves identity ∧
      operation.isAttempt = false) :
    (lift program).Calls (CallOp.Serves identity) :=
  calls.interpret fun _ own => serves_sysCall own.1 own.2

/-- Checking any identity is permitted. -/
theorem serves_identityMatches {use : ReadUse} (task : use = .discard ∨ use = .skip)
    (other : Identity) : (identityMatches use other).Calls fun operation : SysOp =>
      operation.Serves identity ∧ operation.isAttempt = false := by
  unfold identityMatches getProcessStartTime getThreadStartTime isThreadInProcess
  refine .bind (.ite (fun _ => (Program.calls_op _ _).mpr ⟨⟨task, trivial, rfl⟩, rfl⟩)
    fun _ => trivial) fun _ => ?_
  refine .ite (fun _ => ?_) fun _ => trivial
  refine .bind (.ite (fun _ => (Program.calls_op _ _).mpr ⟨⟨task, trivial, rfl⟩, rfl⟩)
    fun _ => trivial) fun _ => ?_
  refine .ite (fun _ => ?_) fun _ => trivial
  exact .ite (fun _ => (Program.calls_op _ _).mpr ⟨⟨task, trivial, rfl⟩, rfl⟩) fun _ => trivial

/-- Reading the groups of the thread is permitted. -/
theorem serves_cgroupPaths (pid : Int) :
    (getThreadCgroupPathsUncached pid identity.tid).Calls fun operation : SysOp =>
      operation.Serves identity ∧ operation.isAttempt = false := by
  unfold getThreadCgroupPathsUncached
  exact .ite (fun _ => (Program.calls_op _ _).mpr ⟨⟨trivial, rfl, rfl⟩, rfl⟩) fun _ => trivial

/-- Continuing under the identity is permitted when the continuation and the erasure are. -/
theorem calls_orDiscard {α : Type} {allowed : CallOp → Prop}
    (wider : ∀ call : CallOp, call.Serves identity → allowed call) {lost : α}
    {rest : CallProgram α} (calls : rest.Calls allowed) :
    (orDiscard identity lost rest).Calls allowed := by
  unfold orDiscard
  refine .bind ((serves_lift (serves_identityMatches (.inl rfl) identity)).mono wider) fun _ => ?_
  exact .ite (fun _ => calls) fun _ => .bind ((serves_cacheCall rfl rfl).mono wider)
    fun _ => trivial

/-- Continuing under the identity is permitted when the continuation is. -/
theorem serves_orDiscard {α : Type} {lost : α} {rest : CallProgram α}
    (calls : rest.Calls (CallOp.Serves identity)) :
    (orDiscard identity lost rest).Calls (CallOp.Serves identity) :=
  calls_orDiscard (fun _ serves => serves) calls

end Calls

namespace ScanWorker

variable (sched : SchedConfig) (task : DispatchTask)

/-- Checking the task's identity is permitted. -/
theorem serves_isCurrentTaskIdentity :
    (isCurrentTaskIdentity .skip task).Calls (CallOp.Serves task.identity) :=
  serves_lift (serves_identityMatches (.inr rfl) task.identity)

/-- Reading a baseline is permitted. -/
theorem serves_readBaseline : (readBaseline task).Calls (CallOp.Serves task.identity) := by
  unfold readBaseline
  refine .bind (serves_setterCall rfl) fun affinity => ?_
  refine .bind (serves_setterCall rfl) fun scheduler => ?_
  exact .bind (serves_lift (serves_cgroupPaths _)) fun _ => trivial

/-- A guarded restoration is permitted when the restoring calls are. -/
theorem serves_restoreGuarded {α : Type} {part : Option α} {restore : α → CallProgram Bool}
    (calls : ∀ value, (restore value).Calls (CallOp.Serves task.identity)) :
    (restoreGuarded task part restore).Calls (CallOp.Serves task.identity) := by
  cases part with
  | none => trivial
  | some value =>
    refine .bind (serves_isCurrentTaskIdentity task) fun _ => ?_
    exact .ite (fun _ => .bind (calls value) fun _ => trivial) fun _ => trivial

/-- Restoring the group and the CPUs is permitted. -/
theorem serves_restoreAffinityBaseline (baseline : ThreadBaseline) :
    (restoreAffinityBaseline task baseline).Calls (CallOp.Serves task.identity) := by
  unfold restoreAffinityBaseline
  refine .bind (serves_restoreGuarded task fun _ => serves_setterCall rfl) fun moved => ?_
  cases moved with
  | none => trivial
  | some moved =>
    refine .bind (serves_restoreGuarded task fun _ => serves_setterCall rfl) fun pinned => ?_
    cases pinned with
    | none => trivial
    | some pinned => exact .ite (fun _ => serves_isCurrentTaskIdentity task) fun _ => trivial

/-- Restoring a required part is permitted when the restoring calls are. -/
theorem serves_restoreRequired {α : Type} {part : Option α} {restore : α → CallProgram Bool}
    (calls : ∀ value, (restore value).Calls (CallOp.Serves task.identity)) :
    (restoreRequired task part restore).Calls (CallOp.Serves task.identity) := by
  unfold restoreRequired
  refine .bind (serves_isCurrentTaskIdentity task) fun _ => .ite (fun _ => ?_) fun _ => trivial
  cases part with
  | none => trivial
  | some value =>
    refine .bind (calls value) fun _ => ?_
    exact .ite (fun _ => serves_isCurrentTaskIdentity task) fun _ => trivial

/-- Restoring the scheduler state is permitted. -/
theorem serves_restoreSchedulerBaseline (baseline : ThreadBaseline) :
    (restoreSchedulerBaseline task baseline).Calls (CallOp.Serves task.identity) :=
  serves_restoreRequired task fun _ => serves_setterCall rfl

/-- Restoring the cpuctl group is permitted. -/
theorem serves_restoreCpuctlBaseline (baseline : ThreadBaseline) :
    (restoreCpuctlBaseline task baseline).Calls (CallOp.Serves task.identity) :=
  serves_restoreRequired task fun _ => serves_setterCall rfl

/-- Restoring a baseline is permitted. -/
theorem serves_restoreBaseline :
    (restoreBaseline task).Calls (CallOp.Serves task.identity) := by
  unfold restoreBaseline
  refine .bind (serves_cacheCall rfl rfl) fun found => ?_
  cases found with
  | none =>
    exact .bind (serves_cacheCall rfl rfl) fun _ =>
      .bind (serves_cacheCall rfl rfl) fun _ => trivial
  | some baseline =>
    unfold restoreRecorded restoreIf
    refine serves_orDiscard (.bind (.ite (fun _ => serves_restoreCpuctlBaseline task baseline)
      fun _ => trivial) fun cpuctl => ?_)
    refine serves_orDiscard (.bind (.ite (fun _ => serves_restoreSchedulerBaseline task baseline)
      fun _ => trivial) fun scheduler => ?_)
    refine serves_orDiscard (.bind (serves_restoreAffinityBaseline task baseline)
      fun affinity => ?_)
    refine serves_orDiscard (.ite (fun _ => ?_) fun _ => trivial)
    refine .bind (serves_cacheCall rfl rfl) fun _ => .bind (serves_cacheCall rfl rfl) fun _ => ?_
    exact .bind (serves_cacheCall rfl rfl) fun _ => trivial

/-- Releasing a component is permitted when its restoration is. -/
theorem serves_releaseComponent {release : Bool} {restore : CallProgram Bool}
    (calls : restore.Calls (CallOp.Serves task.identity)) (managed released : ManagedComponents) :
    (releaseComponent task release restore managed released).Calls
      (CallOp.Serves task.identity) := by
  unfold releaseComponent
  refine .ite (fun _ => .bind calls fun _ => ?_) fun _ => trivial
  exact .ite (fun _ => .bind (serves_cacheCall rfl rfl) fun _ => trivial) fun _ => trivial

/-- Releasing the components a result no longer manages is permitted. -/
theorem serves_releaseComponents (result : MatchResult) (baseline : ThreadBaseline)
    (managed : ManagedComponents) :
    (releaseComponents sched task result baseline managed).Calls
      (CallOp.Serves task.identity) := by
  unfold releaseComponents
  refine .bind (serves_releaseComponent task (serves_restoreAffinityBaseline task _) _ _) ?_
  rintro (_ | first)
  · trivial
  refine .bind (serves_releaseComponent task (serves_restoreSchedulerBaseline task _) _ _) ?_
  rintro (_ | second)
  · trivial
  exact serves_releaseComponent task (serves_restoreCpuctlBaseline task _) _ _

/-- Attempting a result is permitted. -/
theorem serves_attemptResult (result : MatchResult) (managed : ManagedComponents) :
    (attemptResult sched task result managed).Calls (CallOp.Serves task.identity) := by
  unfold attemptResult CpusetSetter.applyWithResult PrioritySetter.applyWithResult
    CpuctlSetter.applyWithResult recordApplied
  refine .bind (.ite (fun _ => trivial) fun _ => .ite (fun _ => trivial) fun _ =>
    .ite (fun _ => trivial) fun _ => serves_setterCall rfl) fun affinity => ?_
  refine serves_orDiscard (.bind (.ite (fun _ => trivial) fun _ => serves_setterCall rfl)
    fun priority => ?_)
  refine serves_orDiscard (.bind (.ite (fun _ => trivial) fun _ => .ite (fun _ => trivial)
    fun _ => serves_setterCall rfl) fun cpuctl => ?_)
  refine serves_orDiscard (.bind (serves_cacheCall rfl rfl) fun _ =>
    .ite (fun _ => ?_) fun _ => ?_)
  · exact .bind (serves_cacheCall rfl rfl) fun _ => trivial
  · exact serves_orDiscard trivial

/-- Applying a result that manages something is permitted. -/
theorem serves_applyManaged (result : MatchResult) (baseline : ThreadBaseline) :
    (applyManaged sched task result baseline).Calls (CallOp.Serves task.identity) := by
  unfold applyManaged
  refine .bind (serves_cacheCall rfl rfl) fun managed => ?_
  refine .bind (serves_releaseComponents sched task result baseline managed) ?_
  rintro (_ | remaining)
  · trivial
  · exact serves_attemptResult sched task result remaining

/-- Looking for drift is permitted. -/
theorem serves_hasDrifted (applied : MatchResult) :
    (hasDrifted sched task applied).Calls (CallOp.Serves task.identity) := by
  unfold hasDrifted affinityDrifted schedulerDrifted isCgroupChanged
  refine .bind (.ite (fun _ => serves_setterCall rfl) fun _ => trivial) fun affinity => ?_
  refine .bind (.ite (fun _ => serves_setterCall rfl) fun _ => trivial) fun scheduler => ?_
  refine .bind (.ite (fun _ => ?_) fun _ => trivial) fun cgroup => trivial
  refine .bind (serves_sysCall ⟨trivial, trivial, rfl⟩ rfl) fun due =>
    .ite (fun _ => ?_) fun _ => trivial
  exact .bind (serves_lift (serves_cgroupPaths _)) fun _ => trivial

/-- Capturing a baseline makes its calls for the identity. -/
theorem isFor_captureBaselineIfNeeded :
    (captureBaselineIfNeeded task).Calls (CallOp.IsFor task.identity) := by
  have wider : ∀ call : CallOp, call.Serves task.identity → call.IsFor task.identity :=
    fun _ serves => serves.isFor
  unfold captureBaselineIfNeeded
  refine .bind ((serves_readBaseline task).mono wider) fun baseline => ?_
  refine .bind ((serves_isCurrentTaskIdentity task).mono wider) fun _ => ?_
  exact .ite (fun _ => (Program.calls_op _ _).mpr ⟨rfl, rfl⟩) fun _ => trivial

/-- Applying a result makes its calls for the identity. -/
theorem isFor_applyResult (result : MatchResult) :
    (applyResult sched task result).Calls (CallOp.IsFor task.identity) := by
  have wider : ∀ call : CallOp, call.Serves task.identity → call.IsFor task.identity :=
    fun _ serves => serves.isFor
  unfold applyResult
  refine .ite (fun _ => ?_) fun _ => (serves_restoreBaseline task).mono wider
  refine .bind (isFor_captureBaselineIfNeeded task) fun _ => ?_
  refine .bind ((serves_cacheCall rfl rfl).mono wider) fun found => ?_
  cases found with
  | none => trivial
  | some baseline =>
    exact .ite (fun _ => (serves_applyManaged sched task result baseline).mono wider)
      fun _ => trivial

/-- A task makes its calls for its own identity. -/
theorem isFor_processDispatchTask :
    (processDispatchTask sched task).Calls (CallOp.IsFor task.identity) := by
  have wider : ∀ call : CallOp, call.Serves task.identity → call.IsFor task.identity :=
    fun _ serves => serves.isFor
  have applies : ∀ result, (callApplyResult sched task result).Calls
      (CallOp.IsFor task.identity) := fun result =>
    .bind (isFor_applyResult sched task result) fun _ => trivial
  have skips : (sysCall (.shouldSkipSchedule task)).Calls (CallOp.Serves task.identity) :=
    serves_sysCall ⟨trivial, trivial, rfl⟩ rfl
  have matching : (sysCall (.matchThread task)).Calls (CallOp.Serves task.identity) :=
    serves_sysCall ⟨trivial, trivial, rfl⟩ rfl
  unfold processDispatchTask
  refine calls_orDiscard wider (.bind (skips.mono wider) fun skipped =>
    .ite (fun _ => trivial) fun _ => ?_)
  refine .bind ((serves_cacheCall rfl rfl).mono wider) fun found => ?_
  cases found with
  | none =>
    refine .bind (matching.mono wider) fun result => ?_
    exact .bind ((serves_cacheCall rfl rfl).mono wider) fun _ => applies result
  | some entry =>
    refine .bind ((serves_cacheCall rfl rfl).mono wider) fun applied => ?_
    cases applied with
    | none => exact applies entry.result
    | some applied =>
      refine .ite (fun _ => .ite (fun _ => ?_) fun _ => trivial) fun _ => applies entry.result
      refine .bind ((serves_hasDrifted sched task applied).mono wider) fun drifted => ?_
      exact .ite (fun _ => applies entry.result) fun _ => trivial

end ScanWorker

/-! ## Operations of setter calls -/

namespace CpusetSetter

section Takeover

variable {allowed : SysOp → Prop} {operations : TakeoverOperations}

/-- The rest of the sequence runs after a check. -/
theorem calls_whileIdentity (identity : operations.identity.Calls allowed)
    {result : AffinityTakeoverResult} {rest : SysProgram AffinityTakeoverResult}
    (calls : rest.Calls allowed) : (operations.whileIdentity result rest).Calls allowed :=
  .bind identity fun _ => .ite (fun _ => calls) fun _ => trivial

/-- The sequence makes the calls of its operations. -/
theorem calls_run (setAffinity : operations.setAffinity.Calls allowed)
    (moveTarget : operations.moveTarget.Calls allowed)
    (moveParent : operations.moveParent.Calls allowed)
    (verifyCpuset : operations.verifyCpuset.Calls allowed)
    (verifyAffinity : operations.verifyAffinity.Calls allowed)
    (identity : operations.identity.Calls allowed) (remaining : Nat)
    (result : AffinityTakeoverResult) : (operations.run remaining result).Calls allowed := by
  induction remaining generalizing result with
  | zero => trivial
  | succ remaining ih =>
    have finishes : ∀ result,
        (operations.finishAttempt (operations.run remaining) result).Calls allowed := by
      intro result
      refine calls_whileIdentity identity (.bind setAffinity fun post => ?_)
      refine calls_whileIdentity identity (.bind verifyCpuset fun cpuset => ?_)
      exact .bind verifyAffinity fun affinity => .ite (fun _ => trivial) fun _ => ih _
    refine calls_whileIdentity identity (.bind setAffinity fun pre => ?_)
    refine calls_whileIdentity identity (.bind moveTarget fun moved => ?_)
    refine .ite (fun _ => finishes _) fun _ => ?_
    refine calls_whileIdentity identity (.bind setAffinity fun preParent => ?_)
    refine calls_whileIdentity identity (.bind moveParent fun parent => ?_)
    refine calls_whileIdentity identity (.bind setAffinity fun preTarget => ?_)
    exact calls_whileIdentity identity (.bind moveTarget fun moved => finishes _)

end Takeover

end CpusetSetter

section Setters

/-- An operation a setter may perform for a thread. -/
def SysOp.IsSetterFor (thread : Identity) (operation : SysOp) : Prop :=
  operation.IsFor thread ∧ operation.isCache = false

/-- An operation a setter may perform for a thread, with what it reads. -/
def SysOp.ServesSetter (thread : Identity) (operation : SysOp) : Prop :=
  operation.Serves thread ∧ operation.isCache = false

variable {thread : Identity} {timing : TimingConfig}

/-- A permitted operation. -/
theorem servesSetter_perform {operation : SysOp} (own : operation.IsFor thread)
    (sees : operation.SeesOnly thread.tid) (plain : operation.recordsBaseline = false)
    (outside : operation.isCache = false) :
    (perform operation).Calls (SysOp.ServesSetter thread) :=
  (Program.calls_op _ _).mpr ⟨⟨own, sees, plain⟩, outside⟩

/-- Pinning a thread is permitted. -/
theorem servesSetter_setAffinity (cpus : List Int) :
    (CpuMask.setAffinity thread cpus).Calls (SysOp.ServesSetter thread) :=
  .ite (fun _ => trivial) fun _ => servesSetter_perform rfl trivial rfl rfl

/-- Reading the CPUs of a thread is permitted. -/
theorem servesSetter_getAffinityFromStatus :
    (CpuMask.getAffinityFromStatus thread).Calls (SysOp.ServesSetter thread) := by
  unfold CpuMask.getAffinityFromStatus
  refine .bind (servesSetter_perform trivial rfl rfl rfl) fun current => ?_
  cases current with
  | some set => trivial
  | none => exact servesSetter_perform trivial rfl rfl rfl

/-- Comparing the CPUs of a thread is permitted. -/
theorem servesSetter_isAffinityChanged (expected : List Int) :
    (CpuMask.isAffinityChanged thread expected).Calls (SysOp.ServesSetter thread) := by
  unfold CpuMask.isAffinityChanged
  refine .ite (fun _ => trivial) fun _ =>
    .bind (servesSetter_perform trivial rfl rfl rfl) fun current => ?_
  cases current with
  | some set => trivial
  | none => exact .bind servesSetter_getAffinityFromStatus fun _ => trivial

/-- Moving a thread to the group of a mask is permitted. -/
theorem servesSetter_moveToCpusetCgroup (cpumaskName : Bytes) :
    (CpusetSetter.moveToCpusetCgroup timing thread cpumaskName).Calls
      (SysOp.ServesSetter thread) := by
  have writes : ∀ path tries,
      (CpusetSetter.writeTasks timing thread path tries).Calls (SysOp.ServesSetter thread) := by
    intro path tries
    induction tries with
    | zero => exact .bind (servesSetter_perform trivial trivial rfl rfl) fun _ => trivial
    | succ remaining ih =>
      refine .bind (servesSetter_perform rfl trivial rfl rfl) fun ok =>
        .ite (fun _ => trivial) fun _ => ?_
      refine .bind (.ite (fun _ => servesSetter_perform trivial trivial rfl rfl)
        fun _ => trivial) fun _ => ih
  unfold CpusetSetter.moveToCpusetCgroup
  refine .ite (fun _ => trivial) fun _ => .ite (fun _ => trivial) fun _ => ?_
  refine .bind ?_ fun ready => .ite (fun _ => writes _ _) fun _ => trivial
  refine .bind (servesSetter_perform trivial trivial rfl rfl) fun known => ?_
  cases known with
  | some ready => trivial
  | none =>
    refine .bind (servesSetter_perform trivial trivial rfl rfl) fun cpus => ?_
    refine .bind (servesSetter_perform trivial trivial rfl rfl) fun mems => ?_
    refine .bind (servesSetter_perform trivial trivial rfl rfl) fun tasksReady => ?_
    exact .bind (servesSetter_perform trivial trivial rfl rfl) fun _ => trivial

/-- Checking the identity is permitted. -/
theorem servesSetter_identityMatches :
    (identityMatches .skip thread).Calls (SysOp.ServesSetter thread) := by
  unfold identityMatches getProcessStartTime getThreadStartTime isThreadInProcess
  refine .bind (.ite (fun _ => servesSetter_perform (.inr rfl) trivial rfl rfl)
    fun _ => trivial) fun _ => ?_
  refine .ite (fun _ => ?_) fun _ => trivial
  refine .bind (.ite (fun _ => servesSetter_perform (.inr rfl) trivial rfl rfl)
    fun _ => trivial) fun _ => ?_
  refine .ite (fun _ => ?_) fun _ => trivial
  exact .ite (fun _ => servesSetter_perform (.inr rfl) trivial rfl rfl) fun _ => trivial

/-- Setting a policy and the nice value is permitted. -/
theorem servesSetter_setSchedulerThenNice (policy priority nice : Int) :
    (PrioritySetter.setSchedulerThenNice thread policy priority nice).Calls
      (SysOp.ServesSetter thread) :=
  .bind (servesSetter_perform rfl trivial rfl rfl) fun _ =>
    .ite (fun _ => servesSetter_perform rfl trivial rfl rfl) fun _ => trivial

/-- A setter call performs operations for its thread, reads no other and none of them is of the
cache. -/
theorem servesSetter_expand (call : SetterCall) :
    (expand timing (.setter call)).Calls (SysOp.ServesSetter call.thread) := by
  cases call with
  | captureAffinity thread => exact servesSetter_getAffinityFromStatus
  | captureScheduler thread =>
    refine .bind (servesSetter_perform trivial rfl rfl rfl) fun policy => .ite (fun _ => trivial)
      fun _ => .bind (servesSetter_perform trivial rfl rfl rfl) fun param => ?_
    cases param with
    | none => trivial
    | some priority =>
      refine .ite (fun _ => .bind (servesSetter_perform trivial rfl rfl rfl) fun nice => ?_)
        fun _ => trivial
      cases nice <;> trivial
  | isAffinityChanged thread expected => exact servesSetter_isAffinityChanged expected
  | isSchedChanged thread expectedPrio =>
    refine .bind (.bind (servesSetter_perform trivial rfl rfl rfl) fun policy =>
      .ite (fun _ => trivial) fun _ =>
        .bind (servesSetter_perform trivial rfl rfl rfl) fun param => ?_) fun _ => trivial
    refine .ite (fun _ => .bind (servesSetter_perform trivial rfl rfl rfl) fun nice => ?_)
      fun _ => trivial
    cases nice <;> trivial
  | takeover thread cpumaskName expectedCpus =>
    show ((CpusetSetter.takeoverOperations timing thread cpumaskName expectedCpus).run
      CpusetSetter.maxAttempts {}).Calls _
    apply CpusetSetter.calls_run
    · exact servesSetter_setAffinity _
    · exact servesSetter_moveToCpusetCgroup _
    · exact .ite (fun _ => trivial) fun _ => servesSetter_perform rfl trivial rfl rfl
    · exact .bind (.ite (fun _ => servesSetter_perform trivial rfl rfl rfl) fun _ => trivial)
        fun _ => trivial
    · exact .bind (servesSetter_isAffinityChanged _) fun _ => trivial
    · exact servesSetter_identityMatches
  | setPriority thread prioValue =>
    refine .ite (fun _ => trivial) fun _ => .ite (fun _ => trivial) fun _ =>
      .ite (fun _ => servesSetter_perform rfl trivial rfl rfl) fun _ =>
      .ite (fun _ => servesSetter_setSchedulerThenNice _ _ _) fun _ =>
      .ite (fun _ => servesSetter_perform rfl trivial rfl rfl) fun _ =>
      .ite (fun _ => servesSetter_perform rfl trivial rfl rfl) fun _ =>
      .ite (fun _ => servesSetter_perform rfl trivial rfl rfl) fun _ => trivial
  | migrateThread thread path =>
    exact .bind (servesSetter_perform trivial trivial rfl rfl) fun _ =>
      .ite (fun _ => servesSetter_perform rfl trivial rfl rfl) fun _ => trivial
  | restoreCpusetCgroup thread path =>
    exact .ite (fun _ => trivial) fun _ => servesSetter_perform rfl trivial rfl rfl
  | restoreAffinity thread cpus =>
    exact .ite (fun _ => trivial) fun _ => servesSetter_setAffinity _
  | restoreScheduler thread baseline =>
    exact .ite (fun _ => trivial) fun _ =>
      .ite (fun _ => servesSetter_setSchedulerThenNice _ _ _) fun _ =>
        servesSetter_perform rfl trivial rfl rfl
  | restoreCpuctlCgroup thread path =>
    exact .ite (fun _ => trivial) fun _ => servesSetter_perform rfl trivial rfl rfl

/-- A setter call performs operations for its thread, none of them of the cache. -/
theorem isSetterFor_expand (call : SetterCall) :
    (expand timing (.setter call)).Calls (SysOp.IsSetterFor call.thread) :=
  (servesSetter_expand call).mono fun _ serves => ⟨serves.1.isFor, serves.2⟩

end Setters

namespace Main

/-- Restoring a part is permitted when the restoring calls are. -/
theorem serves_restorePart {identity : Identity} {α : Type} {part : Option α}
    {restore : α → CallProgram Bool}
    (calls : ∀ value, (restore value).Calls (CallOp.Serves identity)) :
    (restorePart part restore).Calls (CallOp.Serves identity) := by
  cases part with
  | none => trivial
  | some value => exact calls value

/-- Restoring a stored baseline makes its calls for its own identity. -/
theorem isFor_restoreStored (entry : StoredThreadBaseline) :
    (restoreStored entry).Calls (CallOp.IsFor entry.identity) := by
  suffices serves : (restoreStored entry).Calls (CallOp.Serves entry.identity) from
    serves.mono fun _ own => own.isFor
  have restoredCpuctl : ∀ {rest : Bool → CallProgram Bool},
      (∀ cpuctl, (rest cpuctl).Calls (CallOp.Serves entry.identity)) →
      (restoreStoredCpuctl entry rest).Calls (CallOp.Serves entry.identity) := by
    intro rest calls
    unfold restoreStoredCpuctl
    cases entry.baseline.cpuctlPath with
    | none => exact calls true
    | some path => exact serves_orDiscard (.bind (serves_setterCall rfl) calls)
  refine serves_orDiscard (restoredCpuctl fun cpuctl => ?_)
  refine serves_orDiscard (.bind (serves_restorePart fun _ => serves_setterCall rfl)
    fun scheduler => ?_)
  refine serves_orDiscard (.bind (serves_restorePart fun _ => serves_setterCall rfl)
    fun cpuset => ?_)
  refine serves_orDiscard (.bind (serves_restorePart fun _ => serves_setterCall rfl)
    fun affinity => ?_)
  refine serves_orDiscard (.ite (fun _ => ?_) fun _ => trivial)
  refine .bind (serves_cacheCall rfl rfl) fun _ => .bind (serves_cacheCall rfl rfl) fun _ => ?_
  exact .bind (serves_cacheCall rfl rfl) fun _ => trivial

end Main

end ReUperf
