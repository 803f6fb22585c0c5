import ReUperf.Verif.Ownership

/-!
# The worker's calls on one cache

The meaning of the worker's calls for runs in which one task follows another. Cache calls act
on the cache; what system operations answer and what setter calls do is left to an
environment, so one set of rules serves every assumption about the kernel.
-/

namespace ReUperf

open Effect FileUtils

/-! ## Recorded parts -/

/-- Every managed component has its parts recorded. -/
structure ManagedComponents.CoveredBy (managed : ManagedComponents) (baseline : ThreadBaseline) :
    Prop where
  /-- A managed affinity has its group and its CPUs recorded. -/
  affinity : managed.affinity = true →
    baseline.affinity.isSome = true ∧ baseline.cpusetPath.isSome = true
  /-- A managed scheduler state is recorded. -/
  priority : managed.priority = true → baseline.scheduler.isSome = true
  /-- A managed cpuctl group is recorded. -/
  cpuctl : managed.cpuctl = true → baseline.cpuctlPath.isSome = true

namespace ScanWorker

variable {sched : SchedConfig} {result : MatchResult} {managed : ManagedComponents}
  {baseline : ThreadBaseline}

/-- A baseline is sufficient when it covers the components of the result. -/
theorem isSufficient_iff :
    isSufficient sched result baseline = true ↔
      (ManagedComponents.add sched {} result).CoveredBy baseline := by
  simp only [isSufficient, ManagedComponents.add, Bool.false_or, Bool.not_eq_true',
    Bool.or_eq_false_iff, Bool.and_eq_false_iff, Option.isNone_eq_false_iff]
  constructor
  · rintro ⟨⟨affinity, priority⟩, cpuctl⟩
    exact ⟨by grind, by grind, by grind⟩
  · rintro ⟨affinity, priority, cpuctl⟩
    refine ⟨⟨?_, ?_⟩, ?_⟩ <;> grind

/-- Nothing managed is covered. -/
theorem coveredBy_none : ManagedComponents.CoveredBy {} baseline := ⟨nofun, nofun, nofun⟩

/-- The components of a result are added under a sufficient baseline. -/
theorem coveredBy_add (covered : managed.CoveredBy baseline)
    (sufficient : isSufficient sched result baseline = true) :
    (ManagedComponents.add sched managed result).CoveredBy baseline := by
  have needed := isSufficient_iff.mp sufficient
  simp only [ManagedComponents.add, Bool.false_or] at needed
  constructor
  · intro either
    rcases Bool.or_eq_true_iff.mp either with before | now
    · exact covered.affinity before
    · exact needed.affinity now
  · intro either
    rcases Bool.or_eq_true_iff.mp either with before | now
    · exact covered.priority before
    · exact needed.priority now
  · intro either
    rcases Bool.or_eq_true_iff.mp either with before | now
    · exact covered.cpuctl before
    · exact needed.cpuctl now

end ScanWorker

/-- Adding parts covers what was covered. -/
theorem ManagedComponents.CoveredBy.merge {managed : ManagedComponents}
    {existing : ThreadBaseline} (covered : managed.CoveredBy existing) (added : ThreadBaseline) :
    managed.CoveredBy (existing.merge added) where
  affinity holds := by
    obtain ⟨affinity, cpuset⟩ := covered.affinity holds
    simp [ThreadBaseline.merge, affinity, cpuset]
  priority holds := by simp [ThreadBaseline.merge, covered.priority holds]
  cpuctl holds := by simp [ThreadBaseline.merge, covered.cpuctl holds]

/-- Adding parts to an entry covers what was covered. -/
theorem ManagedComponents.CoveredBy.addBaseline {managed : ManagedComponents}
    {entry : ThreadCacheEntry} (covered : managed.CoveredBy (entry.baseline.getD {}))
    (added : ThreadBaseline) :
    managed.CoveredBy ((entry.addBaseline added).baseline.getD {}) := by
  cases recorded : entry.baseline with
  | none =>
    rw [recorded] at covered
    constructor
    · intro holds
      have impossible := (covered.affinity holds).1
      cases impossible
    · intro holds
      have impossible := covered.priority holds
      cases impossible
    · intro holds
      have impossible := covered.cpuctl holds
      cases impossible
  | some existing =>
    rw [recorded] at covered
    simpa [ThreadCacheEntry.addBaseline, recorded] using covered.merge added

/-! ## Observations -/

/-- Whether a setter call only looks at the thread. -/
def SetterCall.observes : SetterCall → Bool
  | .captureAffinity _ | .captureScheduler _ | .isAffinityChanged _ _ | .isSchedChanged _ _ => true
  | _ => false

/-- Whether an operation only looks: it changes no thread, makes no pause and is none of the
cache. -/
def SysOp.looks : SysOp → Bool
  | .attempt _ _ => false
  | .sleep _ => false
  | .cache _ => false
  | _ => true

/-- Reading the CPUs of a thread only looks. -/
theorem looks_getAffinityFromStatus (thread : Identity) :
    (CpuMask.getAffinityFromStatus thread).Calls (SysOp.looks · = true) := by
  unfold CpuMask.getAffinityFromStatus
  refine .bind ((Program.calls_op _ _).mpr rfl) fun current => ?_
  cases current with
  | some set => trivial
  | none => exact (Program.calls_op _ _).mpr rfl

/-- Comparing the CPUs of a thread only looks. -/
theorem looks_isAffinityChanged (thread : Identity) (expected : List Int) :
    (CpuMask.isAffinityChanged thread expected).Calls (SysOp.looks · = true) := by
  unfold CpuMask.isAffinityChanged
  refine .ite (fun _ => trivial) fun _ => ?_
  refine .bind ((Program.calls_op _ _).mpr rfl) fun current => ?_
  cases current with
  | some set => trivial
  | none => exact .bind (looks_getAffinityFromStatus thread) fun _ => trivial

/-- An observing setter call only looks. -/
theorem looks_expand {timing : TimingConfig} {call : SetterCall} (observes : call.observes = true) :
    (expand timing (.setter call)).Calls (SysOp.looks · = true) := by
  cases call with
  | captureAffinity thread => exact looks_getAffinityFromStatus thread
  | isAffinityChanged thread expected => exact looks_isAffinityChanged thread expected
  | captureScheduler thread =>
    refine .bind ((Program.calls_op _ _).mpr rfl) fun policy => .ite (fun _ => trivial) fun _ => ?_
    refine .bind ((Program.calls_op _ _).mpr rfl) fun param => ?_
    cases param with
    | none => trivial
    | some priority =>
      refine .ite (fun _ => .bind ((Program.calls_op _ _).mpr rfl) fun nice => ?_) fun _ => trivial
      cases nice <;> trivial
  | isSchedChanged thread expectedPrio =>
    refine .bind (.bind ((Program.calls_op _ _).mpr rfl) fun policy =>
      .ite (fun _ => trivial) fun _ => ?_) fun _ => trivial
    refine .bind ((Program.calls_op _ _).mpr rfl) fun param => ?_
    refine .ite (fun _ => .bind ((Program.calls_op _ _).mpr rfl) fun nice => ?_) fun _ => trivial
    cases nice <;> trivial
  | _ => cases observes

/-- Whether a call changes neither a thread nor the cache. -/
def CallOp.observes : CallOp → Bool
  | .setter call => call.observes
  | .sys operation => !operation.isCache

/-- What reads of the identity of a live thread answer. -/
def Identity.Sees (thread : Identity) : (operation : SysOp) → SysSig.Res operation → Prop
  | .processStartTime _ pid, found => pid = thread.pid → found = thread.processStartTime
  | .threadStartTime _ pid tid, found =>
    (pid, tid) = thread.key → found = thread.threadStartTime
  | .threadInProcess _ pid tid, found => tid = thread.tid → found = decide (pid = thread.pid)
  | _, _ => True

/-! ## Environments -/

/-- What surrounds the worker: the answers system operations may give, and what setter calls
may answer and do. -/
structure Environment (κ : Type) where
  /-- The operation may give this answer. -/
  reads : κ → (operation : SysOp) → SysSig.Res operation → Prop
  /-- The setter call may give this answer and leave this world. -/
  effect : κ → (call : SetterCall) → call.Res → κ → Prop

/-- The world and the cache. -/
structure CallState (κ : Type) where
  /-- The world. -/
  world : κ
  /-- The cache. -/
  cache : ThreadCache

namespace Environment

variable {κ α : Type}

/-- The meaning of the calls in an environment. -/
def machine (env : Environment κ) : Machine CallSig (CallState κ) where
  step state operation :=
    match operation with
    | .setter call => fun response after =>
      env.effect state.world call response after.world ∧ after.cache = state.cache
    | .sys (.cache call) => fun response after =>
      call.Step state.cache response after.cache ∧ after.world = state.world
    | .sys operation => fun response after => env.reads state.world operation response ∧ after = state

variable {env : Environment κ} {state : CallState κ}

@[simp] theorem wp_setterCall {call : SetterCall} {post : call.Res → CallState κ → Prop} :
    (setterCall call).wp env.machine post state ↔
      ∀ response world, env.effect state.world call response world →
        post response ⟨world, state.cache⟩ := by
  constructor
  · intro holds response world effect
    exact holds response ⟨world, state.cache⟩ ⟨effect, rfl⟩
  · rintro holds response ⟨world, cache⟩ ⟨effect, rfl⟩
    exact holds response world effect

@[simp] theorem wp_cacheCall {call : CacheCall} {post : call.Res → CallState κ → Prop} :
    (cacheCall call).wp env.machine post state ↔
      ∀ response cache, call.Step state.cache response cache →
        post response ⟨state.world, cache⟩ := by
  constructor
  · intro holds response cache step
    exact holds response ⟨state.world, cache⟩ ⟨step, rfl⟩
  · rintro holds response ⟨world, cache⟩ ⟨step, rfl⟩
    exact holds response cache step

/-- An operation that is none of the cache only reads the world. -/
@[simp] theorem wp_sysCall {operation : SysOp} (plain : operation.isCache = false)
    {post : SysSig.Res operation → CallState κ → Prop} :
    (sysCall operation).wp env.machine post state ↔
      ∀ response, env.reads state.world operation response → post response state := by
  cases operation with
  | cache call => cases plain
  | _ =>
    constructor
    · intro holds response reads
      exact holds response state ⟨reads, rfl⟩
    · rintro holds response _ ⟨reads, rfl⟩
      exact holds response reads

/-! ## A live thread -/

/-- The environment answers reads of the thread's start times and membership truthfully. -/
structure Alive (env : Environment κ) (thread : Identity) : Prop where
  /-- The process ID is one the kernel gives. -/
  validPid : isValidId thread.pid = true
  /-- So is the thread ID. -/
  validTid : isValidId thread.tid = true
  /-- The start time of the process. -/
  processStartTime : ∀ {world use response},
    env.reads world (.processStartTime use thread.pid) response →
      response = thread.processStartTime
  /-- The start time of the thread. -/
  threadStartTime : ∀ {world use response},
    env.reads world (.threadStartTime use thread.pid thread.tid) response →
      response = thread.threadStartTime
  /-- The thread belongs to its process. -/
  threadInProcess : ∀ {world use response},
    env.reads world (.threadInProcess use thread.pid thread.tid) response → response = true

variable {thread : Identity}

/-- A check is three reads. -/
theorem lift_identityMatches (use : ReadUse) (identity : Identity) :
    lift (identityMatches use identity) = (do
      if (← lift (getProcessStartTime use identity.pid)) = identity.processStartTime then
        if (← lift (getThreadStartTime use identity.pid identity.tid)) = identity.threadStartTime
        then lift (isThreadInProcess use identity.pid identity.tid)
        else pure false
      else pure false) := by
  simp only [lift, identityMatches, Program.interpret_bind, Program.interpret_ite,
    Program.interpret_pure]

/-- Reading the start time of a process. -/
theorem wp_getProcessStartTime {use : ReadUse} {pid : Int} {post : Nat → CallState κ → Prop} :
    (lift (getProcessStartTime use pid)).wp env.machine post state ↔
      if isValidId pid = true then
        ∀ found, env.reads state.world (.processStartTime use pid) found → post found state
      else post 0 state := by
  unfold getProcessStartTime
  split
  · exact wp_sysCall rfl
  · exact Iff.rfl

/-- Reading the start time of a thread. -/
theorem wp_getThreadStartTime {use : ReadUse} {pid tid : Int}
    {post : Nat → CallState κ → Prop} :
    (lift (getThreadStartTime use pid tid)).wp env.machine post state ↔
      if (isValidId pid && isValidId tid) = true then
        ∀ found, env.reads state.world (.threadStartTime use pid tid) found → post found state
      else post 0 state := by
  unfold getThreadStartTime
  split
  · exact wp_sysCall rfl
  · exact Iff.rfl

/-- Reading the membership of a thread. -/
theorem wp_isThreadInProcess {use : ReadUse} {pid tid : Int}
    {post : Bool → CallState κ → Prop} :
    (lift (isThreadInProcess use pid tid)).wp env.machine post state ↔
      if (isValidId pid && isValidId tid) = true then
        ∀ member, env.reads state.world (.threadInProcess use pid tid) member → post member state
      else post false state := by
  unfold isThreadInProcess
  split
  · exact wp_sysCall rfl
  · exact Iff.rfl

/-- The check of a live thread's identity succeeds. -/
theorem Alive.wp_identityMatches (alive : env.Alive thread) {use : ReadUse}
    {post : Bool → CallState κ → Prop} (holds : post true state) :
    (lift (identityMatches use thread)).wp env.machine post state := by
  have validKey : (isValidId thread.pid && isValidId thread.tid) = true := by
    rw [alive.validPid, alive.validTid]
    rfl
  rw [lift_identityMatches, Program.wp_bind, wp_getProcessStartTime, if_pos alive.validPid]
  intro started processRead
  rw [if_pos (alive.processStartTime processRead), Program.wp_bind, wp_getThreadStartTime,
    if_pos validKey]
  intro began threadRead
  rw [if_pos (alive.threadStartTime threadRead), wp_isThreadInProcess, if_pos validKey]
  intro member memberRead
  rw [alive.threadInProcess memberRead]
  exact holds

/-- A check succeeds only when its three reads can answer with what the identity says. -/
theorem wp_identityMatches {use : ReadUse} {identity : Identity}
    {post : Bool → CallState κ → Prop}
    (holds : ∀ ok, (ok = true → isValidId identity.pid = true ∧ isValidId identity.tid = true ∧
      env.reads state.world (.processStartTime use identity.pid) identity.processStartTime ∧
      env.reads state.world (.threadStartTime use identity.pid identity.tid)
        identity.threadStartTime ∧
      env.reads state.world (.threadInProcess use identity.pid identity.tid) true) →
      post ok state) :
    (lift (identityMatches use identity)).wp env.machine post state := by
  have fails : post false state := holds false nofun
  by_cases validKey : (isValidId identity.pid && isValidId identity.tid) = true
  · obtain ⟨validPid, validTid⟩ := Bool.and_eq_true_iff.mp validKey
    rw [lift_identityMatches, Program.wp_bind, wp_getProcessStartTime, if_pos validPid]
    intro started processRead
    split
    · rename_i sameProcess
      subst sameProcess
      rw [Program.wp_bind, wp_getThreadStartTime, if_pos validKey]
      intro began threadRead
      split
      · rename_i sameThread
        subst sameThread
        rw [wp_isThreadInProcess, if_pos validKey]
        intro member memberRead
        refine holds member fun success => ⟨validPid, validTid, processRead, threadRead, ?_⟩
        rw [← success]
        exact memberRead
      · exact fails
    · exact fails
  · have ends : ((lift (isThreadInProcess use identity.pid identity.tid)).wp env.machine post
        state) := by
      rw [wp_isThreadInProcess, if_neg validKey]
      exact fails
    have continues : ∀ found, (if found = identity.processStartTime then (do
        if (← lift (getThreadStartTime use identity.pid identity.tid)) = identity.threadStartTime
        then lift (isThreadInProcess use identity.pid identity.tid)
        else pure false) else pure false : CallProgram Bool).wp env.machine post state := by
      intro found
      split
      · rw [Program.wp_bind, wp_getThreadStartTime, if_neg validKey]
        split
        · exact ends
        · exact fails
      · exact fails
    rw [lift_identityMatches, Program.wp_bind, wp_getProcessStartTime]
    split
    · exact fun found _ => continues found
    · exact continues 0

/-- A step that depends on a live thread's identity is taken. -/
theorem Alive.wp_orDiscard (alive : env.Alive thread) {lost : α} {rest : CallProgram α}
    {post : α → CallState κ → Prop} (holds : rest.wp env.machine post state) :
    (orDiscard thread lost rest).wp env.machine post state := by
  rw [orDiscard, Program.wp_bind]
  exact alive.wp_identityMatches (by simpa using holds)

/-- The groups of a live thread are read from the world. -/
theorem Alive.wp_getThreadCgroupPaths (alive : env.Alive thread)
    {post : ThreadCgroupPaths → CallState κ → Prop}
    (holds : ∀ paths, env.reads state.world (.threadCgroupPaths thread.pid thread.tid) paths →
      post paths state) :
    (lift (getThreadCgroupPathsUncached thread.pid thread.tid)).wp env.machine post state := by
  have validKey : (isValidId thread.pid && isValidId thread.tid) = true := by
    rw [alive.validPid, alive.validTid]
    rfl
  have shape : lift (getThreadCgroupPathsUncached thread.pid thread.tid) =
      sysCall (.threadCgroupPaths thread.pid thread.tid) := by
    rw [getThreadCgroupPathsUncached, if_pos validKey]
    rfl
  rw [shape, wp_sysCall rfl]
  exact holds

/-- Every program keeps the cache keyed. -/
theorem wp_keyed {program : CallProgram α} (keyed : state.cache.Keyed) :
    program.wp env.machine (fun _ after => after.cache.Keyed) state := by
  refine Program.wp_of_step (fun state : CallState κ => state.cache.Keyed) ?_ keyed
  intro before operation response after kept stepped
  cases operation with
  | setter call =>
    have same := stepped.2
    rw [same]
    exact kept
  | sys operation =>
    cases operation with
    | cache call => exact CacheCall.keyed stepped.1 kept
    | _ =>
      have same := stepped.2
      rw [same]
      exact kept

/-! ## Observing calls -/

/-- Observing setter calls leave the world. -/
def Quiet (env : Environment κ) : Prop :=
  ∀ {world call response after}, SetterCall.observes call = true →
    env.effect world call response after → after = world

/-- A program of observing calls leaves the world and the cache. -/
theorem Quiet.wp_observing (quiet : env.Quiet) {program : CallProgram α}
    (calls : program.Calls (CallOp.observes · = true)) :
    program.wp env.machine (fun _ after => after = state) state := by
  refine calls.wp_invariant (· = state) ?_ rfl
  rintro before operation response after observes rfl stepped
  cases operation with
  | setter call =>
    obtain ⟨effect, kept⟩ := stepped
    have same := quiet observes effect
    cases after
    simp_all
  | sys operation =>
    cases operation with
    | cache call => cases observes
    | _ => exact stepped.2

end Environment

namespace ScanWorker

/-- A lifted system program without cache calls observes. -/
theorem observes_lift {α : Type} {program : SysProgram α}
    (calls : program.Calls (SysOp.isCache · = false)) :
    (lift program).Calls (CallOp.observes · = true) := by
  refine calls.interpret fun operation plain => (Program.calls_op _ _).mpr ?_
  rw [CallOp.observes, plain]
  rfl

/-- Reading the groups of a thread observes. -/
theorem observes_cgroupPaths (pid tid : Int) :
    (lift (getThreadCgroupPathsUncached pid tid)).Calls (CallOp.observes · = true) := by
  apply observes_lift
  unfold getThreadCgroupPathsUncached
  exact .ite (fun _ => (Program.calls_op _ _).mpr rfl) fun _ => trivial

/-- Asking whether a thread left its groups observes. -/
theorem observes_isCgroupChanged (task : DispatchTask) (result : MatchResult) :
    (isCgroupChanged task result).Calls (CallOp.observes · = true) := by
  unfold isCgroupChanged
  refine .ite (fun _ => ?_) fun _ => trivial
  refine .bind ((Program.calls_op _ _).mpr rfl) fun due => ?_
  refine .ite (fun _ => ?_) fun _ => trivial
  exact .bind (observes_cgroupPaths _ _) fun _ => trivial

/-- Asking whether a thread left its state observes. -/
theorem observes_hasDrifted (sched : SchedConfig) (task : DispatchTask) (applied : MatchResult) :
    (hasDrifted sched task applied).Calls (CallOp.observes · = true) := by
  unfold hasDrifted
  refine .bind ?_ fun affinityChanged => .bind ?_ fun schedChanged => .bind ?_ fun _ => trivial
  · unfold affinityDrifted
    exact .ite (fun _ => (Program.calls_op _ _).mpr rfl) fun _ => trivial
  · unfold schedulerDrifted
    exact .ite (fun _ => (Program.calls_op _ _).mpr rfl) fun _ => trivial
  · exact observes_isCgroupChanged task applied

/-- Reading a baseline observes. -/
theorem observes_readBaseline (task : DispatchTask) :
    (readBaseline task).Calls (CallOp.observes · = true) := by
  unfold readBaseline
  refine .bind ((Program.calls_op _ _).mpr rfl) fun affinity => ?_
  refine .bind ((Program.calls_op _ _).mpr rfl) fun scheduler => ?_
  exact .bind (observes_cgroupPaths _ _) fun _ => trivial

end ScanWorker

end ReUperf
