import ReUperf.Verif.CallMachine

/-!
# A kernel whose system calls succeed

The state of one live thread under system calls that all succeed: a tasks write sets the group
below its mount point, `sched_setaffinity` the CPUs, `sched_setscheduler` the policy and its
priority, and `setpriority` the nice value alone. The setters' programs are run on it once, and
an environment says what each setter call makes of the thread.
-/

namespace ReUperf

open Effect FileUtils

/-- The path below a mount point. -/
def groupBelow (mount path : Bytes) : Option Bytes :=
  if mount.isPrefixOf path then some (path.drop mount.length) else none

/-- A path below the mount point is found. -/
@[simp] theorem groupBelow_append (mount group : Bytes) :
    groupBelow mount (mount ++ group) = some group := by
  have below : mount.isPrefixOf (mount ++ group) = true :=
    List.isPrefixOf_iff_prefix.mpr (List.prefix_append mount group)
  rw [groupBelow, if_pos below, List.drop_left]

/-- No path of the cpu controller is one of the cpuset controller. -/
@[simp] theorem groupBelow_cpuctl (group : Bytes) :
    groupBelow cpusetMount (cpuctlMount ++ group) = none := rfl

/-- What the kernel keeps of a thread. -/
structure KernelThread where
  /-- Its cpuset group as `/proc` reports it. -/
  cpuset : Bytes
  /-- The CPUs it may run on. -/
  affinity : CpuSet
  /-- Its policy. -/
  policy : Int
  /-- Its real-time priority. -/
  priority : Int
  /-- Its nice value. -/
  nice : Int
  /-- Its cpuctl group as `/proc` reports it. -/
  cpuctl : Bytes
  deriving DecidableEq

namespace KernelThread

/-- What holds of every thread: it is in groups, may run somewhere and has a policy. -/
structure Possible (world : KernelThread) : Prop where
  /-- The path of its cpuset group has a slash at least. -/
  cpuset : world.cpuset ≠ []
  /-- Some CPU is left to it. -/
  affinity : world.affinity.toVector ≠ []
  /-- Its policy is no error code. -/
  policy : 0 ≤ world.policy
  /-- The path of its cpuctl group has a slash at least. -/
  cpuctl : world.cpuctl ≠ []

/-- Move the thread to the group of a directory. -/
def move (world : KernelThread) (path : Bytes) : KernelThread :=
  match groupBelow cpusetMount path with
  | some group => { world with cpuset := group }
  | none =>
    match groupBelow cpuctlMount path with
    | some group => { world with cpuctl := group }
    | none => world

/-- Moving to a cpuset group. -/
@[simp] theorem move_cpuset (world : KernelThread) (group : Bytes) :
    world.move (cpusetMount ++ group) = { world with cpuset := group } := by
  rw [move, groupBelow_append]

/-- Moving to a cpuctl group. -/
@[simp] theorem move_cpuctl (world : KernelThread) (group : Bytes) :
    world.move (cpuctlMount ++ group) = { world with cpuctl := group } := by
  rw [move, groupBelow_cpuctl, groupBelow_append]

/-- The effect of a system call that succeeds. -/
def apply (world : KernelThread) : Attempt → KernelThread
  | .tasks path => world.move path
  | .affinity cpus => { world with affinity := cpus }
  | .scheduler policy priority => { world with policy := policy, priority := priority }
  | .nice value => { world with nice := value }

/-- The scheduler state a capture reads. -/
def schedulerBaseline (world : KernelThread) : SchedulerBaseline where
  policy := world.policy
  priority := world.priority
  nice := if PrioritySetter.isPlainPolicy world.policy then world.nice else 0

/-- Set a policy, then the nice value. -/
def setSchedulerThenNice (world : KernelThread) (policy priority nice : Int) : KernelThread :=
  { world with policy := policy, priority := priority, nice := nice }

/-- The thread with a priority value. -/
def withPriority (world : KernelThread) (prioValue : Int) : KernelThread :=
  if prioValue = 0 then world
  else if 1 ≤ prioValue ∧ prioValue ≤ 98 then
    { world with policy := schedFifo, priority := prioValue }
  else if 100 ≤ prioValue ∧ prioValue ≤ 139 then
    world.setSchedulerThenNice PrioritySetter.normalPolicy 0 (prioValue - 120)
  else if prioValue = -1 then { world with policy := PrioritySetter.normalPolicy, priority := 0 }
  else if prioValue = -2 then { world with policy := PrioritySetter.batchPolicy, priority := 0 }
  else { world with policy := PrioritySetter.idlePolicy, priority := 0 }

/-- The thread with a recorded scheduler state. -/
def withScheduler (world : KernelThread) (baseline : SchedulerBaseline) : KernelThread :=
  if PrioritySetter.isPlainPolicy baseline.policy then
    world.setSchedulerThenNice baseline.policy baseline.priority baseline.nice
  else { world with policy := baseline.policy, priority := baseline.priority }

end KernelThread

/-! ## System calls -/

namespace Kernel

variable (thread : Identity) (returned : MatchResult → Prop)

/-- What operations that change nothing answer: reads tell the state of the thread, groups
exist, tasks are not throttled, and the matcher returns one of its results. -/
def Answers (world : KernelThread) : (operation : SysOp) → SysSig.Res operation → Prop
  | .schedGetaffinity tid, found => tid = thread.tid → found = some world.affinity
  | .schedGetscheduler tid, found => tid = thread.tid → found = world.policy
  | .schedGetparam tid, found => tid = thread.tid → found = some world.priority
  | .getpriority tid, found => tid = thread.tid → found = some world.nice
  | .threadCgroupPaths pid tid, found =>
    (pid, tid) = thread.key → found = ⟨world.cpuset, world.cpuctl, true⟩
  | .findGroupCheck _, known => known ≠ some false
  | .readGroupFile _, text => text ≠ []
  | .groupFileExists _, present => present = true
  | .dirExists _, present => present = true
  | .shouldSkipSchedule _, skip => skip = false
  | .matchThread _, result => returned result
  | operation, response => thread.Sees operation response

/-- The machine of the system operations. -/
def machine : Machine SysSig (CallState KernelThread) where
  step state operation :=
    match operation with
    | .cache call => fun response after =>
      call.Step state.cache response after.cache ∧ after.world = state.world
    | .attempt owner change => fun ok after =>
      ok = true ∧ after.cache = state.cache ∧
        after.world = if owner.tid = thread.tid then state.world.apply change else state.world
    | operation => fun response after =>
      Answers thread returned state.world operation response ∧ after = state

variable {thread : Identity} {returned : MatchResult → Prop} {state : CallState KernelThread}
  {α : Type}

/-- A system call for the thread succeeds. -/
theorem wp_attempt {change : Attempt} {post : Bool → CallState KernelThread → Prop}
    (holds : post true ⟨state.world.apply change, state.cache⟩) :
    (perform (.attempt thread change)).wp (machine thread returned) post state := by
  rintro ok ⟨world, cache⟩ ⟨rfl, kept, changed⟩
  rw [if_pos rfl] at changed
  dsimp only at kept changed
  rw [kept, changed]
  exact holds

/-- An operation that changes nothing. -/
theorem wp_read {operation : SysOp} (plain : operation.isCache = false)
    (calm : operation.isAttempt = false)
    {post : SysSig.Res operation → CallState KernelThread → Prop}
    (holds : ∀ response, Answers thread returned state.world operation response →
      post response state) :
    (perform operation).wp (machine thread returned) post state := by
  cases operation with
  | cache call => cases plain
  | attempt owner change => cases calm
  | _ =>
    rintro response after ⟨answered, rfl⟩
    exact holds response answered

/-! ## Setter programs -/

section Setters

variable {timing : TimingConfig}

/-- The check of the thread's identity succeeds. -/
theorem wp_identityMatches (validPid : isValidId thread.pid = true)
    (validTid : isValidId thread.tid = true) {use : ReadUse}
    {post : Bool → CallState KernelThread → Prop} (holds : post true state) :
    (identityMatches use thread).wp (machine thread returned) post state := by
  have validKey : (isValidId thread.pid && isValidId thread.tid) = true := by
    rw [validPid, validTid]
    rfl
  rw [identityMatches, getProcessStartTime, if_pos validPid, Program.wp_bind]
  refine wp_read rfl rfl fun started processRead => ?_
  have sameProcess : started = thread.processStartTime := processRead rfl
  rw [if_pos sameProcess, getThreadStartTime, if_pos validKey, Program.wp_bind]
  refine wp_read rfl rfl fun began threadRead => ?_
  have sameThread : began = thread.threadStartTime := threadRead rfl
  rw [if_pos sameThread, isThreadInProcess, if_pos validKey]
  refine wp_read rfl rfl fun member memberRead => ?_
  have belongs : member = decide (thread.pid = thread.pid) := memberRead rfl
  rw [belongs, decide_eq_true rfl]
  exact holds

/-- The groups of the thread are read. -/
theorem wp_cgroupPaths (validPid : isValidId thread.pid = true)
    (validTid : isValidId thread.tid = true)
    {post : ThreadCgroupPaths → CallState KernelThread → Prop}
    (holds : post ⟨state.world.cpuset, state.world.cpuctl, true⟩ state) :
    (getThreadCgroupPathsUncached thread.pid thread.tid).wp (machine thread returned) post
      state := by
  have validKey : (isValidId thread.pid && isValidId thread.tid) = true := by
    rw [validPid, validTid]
    rfl
  rw [getThreadCgroupPathsUncached, if_pos validKey]
  refine wp_read rfl rfl fun paths read => ?_
  rw [show paths = ⟨state.world.cpuset, state.world.cpuctl, true⟩ from read rfl]
  exact holds

/-- Pinning the thread. -/
theorem wp_setAffinity {cpus : List Int} (some : cpus ≠ [])
    {post : Bool → CallState KernelThread → Prop}
    (holds : post true ⟨{ state.world with affinity := CpuSet.fromVector cpus }, state.cache⟩) :
    (CpuMask.setAffinity thread cpus).wp (machine thread returned) post state := by
  rw [CpuMask.setAffinity, if_neg some]
  exact wp_attempt holds

/-- Groups are ready. -/
theorem wp_isGroupReady (path : Bytes) {post : Bool → CallState KernelThread → Prop}
    (holds : post true state) :
    (CpusetSetter.isGroupReady path).wp (machine thread returned) post state := by
  rw [CpusetSetter.isGroupReady, Program.wp_bind]
  refine wp_read rfl rfl fun known remembered => ?_
  cases known with
  | some ready =>
    cases ready with
    | true => exact holds
    | false => exact absurd rfl remembered
  | none =>
    rw [Program.wp_bind]
    refine wp_read rfl rfl fun cpus cpusRead => ?_
    rw [Program.wp_bind]
    refine wp_read rfl rfl fun mems memsRead => ?_
    rw [Program.wp_bind]
    refine wp_read rfl rfl fun present presentRead => ?_
    have someCpus : cpus ≠ [] := cpusRead
    have someMems : mems ≠ [] := memsRead
    have ready : (cpus ≠ [] && mems ≠ [] && present) = true := by
      rw [show present = true from presentRead, decide_eq_true someCpus, decide_eq_true someMems]
      rfl
    dsimp only
    rw [Program.wp_bind, ready]
    exact wp_read rfl rfl fun _ _ => holds

/-- Moving the thread to the group of a mask. -/
theorem wp_moveToCpusetCgroup (validTid : isValidId thread.tid = true)
    (retries : 1 ≤ timing.cpusetRetryCount) {cpumaskName : Bytes} (named : cpumaskName ≠ [])
    {post : Bool → CallState KernelThread → Prop}
    (holds : post true
      ⟨{ state.world with cpuset := CpusetSetter.expectedGroup cpumaskName }, state.cache⟩) :
    (CpusetSetter.moveToCpusetCgroup timing thread cpumaskName).wp (machine thread returned) post
      state := by
  have positive : ¬ thread.tid ≤ 0 := by
    have bounds := of_decide_eq_true validTid
    omega
  obtain ⟨remaining, tries⟩ : ∃ remaining, timing.cpusetRetryCount.toNat = remaining + 1 :=
    ⟨timing.cpusetRetryCount.toNat - 1, by omega⟩
  rw [CpusetSetter.moveToCpusetCgroup, if_neg positive, if_neg named, Program.wp_bind]
  apply wp_isGroupReady
  rw [if_pos rfl, tries, CpusetSetter.writeTasks, Program.wp_bind]
  apply wp_attempt
  rw [KernelThread.apply, ← cpusetMount_expectedGroup, KernelThread.move_cpuset]
  exact holds

/-- The thread is seen in its group. -/
theorem wp_verifyCpuset (validPid : isValidId thread.pid = true)
    (validTid : isValidId thread.tid = true) {cpumaskName : Bytes}
    (moved : state.world.cpuset = CpusetSetter.expectedGroup cpumaskName)
    {post : Bool → CallState KernelThread → Prop} (holds : post true state) :
    (CpusetSetter.verifyCpuset thread cpumaskName).wp (machine thread returned) post state := by
  rw [CpusetSetter.verifyCpuset, Program.wp_bind]
  apply wp_cgroupPaths validPid validTid
  rw [moved]
  simpa using holds

/-- The thread is seen with its CPUs. -/
theorem wp_verifyAffinity {cpus : List Int} (some : cpus ≠ [])
    (pinned : state.world.affinity = CpuSet.fromVector cpus)
    {post : Bool → CallState KernelThread → Prop} (holds : post true state) :
    (CpusetSetter.verifyAffinity thread cpus).wp (machine thread returned) post state := by
  rw [CpusetSetter.verifyAffinity, CpuMask.isAffinityChanged, if_neg some, Program.wp_bind,
    Program.wp_bind]
  refine wp_read rfl rfl fun current read => ?_
  rw [show current = .some state.world.affinity from read rfl, pinned]
  simpa using holds

/-- The first attempt of a takeover succeeds. -/
theorem wp_takeover (validPid : isValidId thread.pid = true)
    (validTid : isValidId thread.tid = true) (retries : 1 ≤ timing.cpusetRetryCount)
    {cpumaskName : Bytes} (named : cpumaskName ≠ []) {cpus : List Int} (some : cpus ≠ [])
    {post : AffinityTakeoverResult → CallState KernelThread → Prop}
    (holds : ∀ result, result.success = true → post result
      ⟨{ state.world with
          cpuset := CpusetSetter.expectedGroup cpumaskName
          affinity := CpuSet.fromVector cpus }, state.cache⟩) :
    (CpusetSetter.takeover timing thread cpumaskName cpus).wp (machine thread returned) post
      state := by
  have goesOn : ∀ {result rest} {state : CallState KernelThread},
      Program.wp (machine thread returned) rest post state →
      ((CpusetSetter.takeoverOperations timing thread cpumaskName cpus).whileIdentity result
        rest).wp (machine thread returned) post state := by
    intro result rest state continues
    rw [CpusetSetter.TakeoverOperations.whileIdentity, Program.wp_bind]
    apply wp_identityMatches validPid validTid
    rw [if_pos rfl]
    exact continues
  apply goesOn
  rw [Program.wp_bind]
  apply wp_setAffinity some
  apply goesOn
  rw [Program.wp_bind]
  apply wp_moveToCpusetCgroup validTid retries named
  rw [if_pos rfl]
  apply goesOn
  rw [Program.wp_bind]
  apply wp_setAffinity some
  apply goesOn
  rw [Program.wp_bind]
  apply wp_verifyCpuset validPid validTid rfl
  rw [Program.wp_bind]
  apply wp_verifyAffinity some rfl
  exact holds _ rfl

/-- Setting the policy and the nice value. -/
theorem wp_setSchedulerThenNice {policy priority nice : Int}
    {post : Bool → CallState KernelThread → Prop}
    (holds : post true
      ⟨state.world.setSchedulerThenNice policy priority nice, state.cache⟩) :
    (PrioritySetter.setSchedulerThenNice thread policy priority nice).wp (machine thread returned)
      post state := by
  rw [PrioritySetter.setSchedulerThenNice, Program.wp_bind]
  apply wp_attempt
  rw [if_pos rfl]
  exact wp_attempt holds

/-- Setting a priority value. -/
theorem wp_setPriority (validTid : isValidId thread.tid = true) {prioValue : Int}
    (valid : ConfigParser.isValidPrioValue prioValue = true)
    {post : Bool → CallState KernelThread → Prop}
    (holds : post true ⟨state.world.withPriority prioValue, state.cache⟩) :
    (PrioritySetter.setPriority thread prioValue).wp (machine thread returned) post state := by
  have positive : ¬ thread.tid ≤ 0 := by
    have bounds := of_decide_eq_true validTid
    omega
  simp only [ConfigParser.isValidPrioValue, Bool.or_eq_true, decide_eq_true_eq] at valid
  rw [PrioritySetter.setPriority, if_neg positive]
  unfold KernelThread.withPriority at holds
  split
  · rwa [if_pos ‹_›] at holds
  rw [if_neg ‹_›] at holds
  split
  · rw [if_pos ‹_›] at holds
    exact wp_attempt holds
  rw [if_neg ‹_›] at holds
  split
  · rw [if_pos ‹_›] at holds
    exact wp_setSchedulerThenNice holds
  rw [if_neg ‹_›] at holds
  split
  · rw [if_pos ‹_›] at holds
    exact wp_attempt holds
  rw [if_neg ‹_›] at holds
  split
  · rw [if_pos ‹_›] at holds
    exact wp_attempt holds
  rw [if_neg ‹_›] at holds
  split
  · exact wp_attempt holds
  · omega

/-- Reading the scheduler state. -/
theorem wp_captureScheduler (policy : 0 ≤ state.world.policy)
    {post : Option SchedulerBaseline → CallState KernelThread → Prop}
    (holds : post (some state.world.schedulerBaseline) state) :
    (PrioritySetter.captureSchedulerBaseline thread).wp (machine thread returned) post state := by
  rw [PrioritySetter.captureSchedulerBaseline, Program.wp_bind]
  refine wp_read rfl rfl fun found policyRead => ?_
  obtain rfl : found = state.world.policy := policyRead rfl
  rw [if_neg (Int.not_lt.mpr policy), Program.wp_bind]
  refine wp_read rfl rfl fun param paramRead => ?_
  obtain rfl : param = some state.world.priority := paramRead rfl
  unfold KernelThread.schedulerBaseline at holds
  dsimp only
  split
  · rename_i plain
    rw [if_pos plain] at holds
    rw [Program.wp_bind]
    refine wp_read rfl rfl fun nice niceRead => ?_
    obtain rfl : nice = some state.world.nice := niceRead rfl
    exact holds
  · rename_i realtime
    rw [if_neg realtime] at holds
    exact holds

end Setters

/-! ## Setter calls -/

/-- What a setter call answers and makes of the thread. -/
def Outcome (world : KernelThread) : (call : SetterCall) → call.Res → KernelThread → Prop
  | .captureAffinity _, cpus, after => cpus = world.affinity.toVector ∧ after = world
  | .captureScheduler _, found, after =>
    (0 ≤ world.policy → found = some world.schedulerBaseline) ∧ after = world
  | .isAffinityChanged _ _, _, after => after = world
  | .isSchedChanged _ _, _, after => after = world
  | .takeover _ cpumaskName cpus, result, after => cpumaskName ≠ [] → cpus ≠ [] →
    result.success = true ∧ after =
      { world with
        cpuset := CpusetSetter.expectedGroup cpumaskName
        affinity := CpuSet.fromVector cpus }
  | .setPriority _ prioValue, ok, after => ConfigParser.isValidPrioValue prioValue = true →
    ok = true ∧ after = world.withPriority prioValue
  | .migrateThread _ path, ok, after => ok = true ∧ after = world.move path
  | .restoreCpusetCgroup _ path, ok, after => path ≠ [] → ok = true ∧ after = world.move path
  | .restoreAffinity _ cpus, ok, after => cpus ≠ [] →
    ok = true ∧ after = { world with affinity := CpuSet.fromVector cpus }
  | .restoreScheduler _ baseline, ok, after => 0 ≤ baseline.policy →
    ok = true ∧ after = world.withScheduler baseline
  | .restoreCpuctlCgroup _ path, ok, after => path ≠ [] → ok = true ∧ after = world.move path

variable (thread returned) in
/-- The environment of the worker's calls for the thread. -/
def environment : Environment KernelThread where
  reads := Answers thread returned
  effect world call response after :=
    if call.thread = thread then Outcome world call response after else after = world

/-- A call for the thread has its outcome. -/
theorem effect_own {world after : KernelThread} {call : SetterCall} {response : call.Res}
    (own : call.thread = thread) :
    (environment thread returned).effect world call response after ↔
      Outcome world call response after := by
  change (if call.thread = thread then _ else _) ↔ _
  rw [if_pos own]

/-- Observations leave the thread. -/
theorem quiet : (environment thread returned).Quiet := by
  intro world call response after observes effect
  by_cases own : call.thread = thread
  · have outcome := (effect_own own).mp effect
    cases call with
    | captureAffinity _ => exact outcome.2
    | captureScheduler _ => exact outcome.2
    | isAffinityChanged _ _ => exact outcome
    | isSchedChanged _ _ => exact outcome
    | _ => cases observes
  · have outcome : if call.thread = thread then _ else _ := effect
    rwa [if_neg own] at outcome

/-! ## From setter calls to their outcomes -/

section Expansion

variable {timing : TimingConfig}

/-- A program that only looks changes nothing. -/
theorem wp_looks {program : SysProgram α} (looks : program.Calls (SysOp.looks · = true)) :
    program.wp (machine thread returned) (fun _ after => after = state) state := by
  refine looks.wp_invariant (· = state) ?_ rfl
  rintro before operation response after only rfl stepped
  cases operation with
  | attempt owner change => cases only
  | cache call => cases only
  | sleep duration => exact stepped.2
  | _ => exact stepped.2

/-- A setter's program leaves the cache. -/
theorem wp_cache {program : SysProgram α} (calls : program.Calls (SysOp.IsSetterFor thread)) :
    program.wp (machine thread returned) (fun _ after => after.cache = state.cache) state := by
  refine calls.wp_invariant (fun after : CallState KernelThread => after.cache = state.cache) ?_ rfl
  rintro before operation response after ⟨_, plain⟩ kept stepped
  cases operation with
  | cache call => cases plain
  | attempt owner change => exact stepped.2.1.trans kept
  | _ =>
    obtain ⟨_, rfl⟩ := stepped
    exact kept

/-- A setter call for the thread has its outcome. -/
theorem wp_expand_setter (validPid : isValidId thread.pid = true)
    (validTid : isValidId thread.tid = true) (retries : 1 ≤ timing.cpusetRetryCount)
    {call : SetterCall} (own : call.thread = thread) :
    (expand timing (.setter call)).wp (machine thread returned)
      (fun response after => Outcome state.world call response after.world) state := by
  have positive : ¬ thread.tid ≤ 0 := by
    have bounds := of_decide_eq_true validTid
    omega
  cases call with
  | captureAffinity other =>
    obtain rfl : other = thread := own
    rw [expand, CpuMask.getAffinityFromStatus, Program.wp_bind]
    refine wp_read rfl rfl fun current read => ?_
    rw [show current = some state.world.affinity from read rfl]
    exact ⟨rfl, rfl⟩
  | captureScheduler other =>
    obtain rfl : other = thread := own
    by_cases policy : 0 ≤ state.world.policy
    · exact wp_captureScheduler policy ⟨fun _ => rfl, rfl⟩
    · refine Program.wp_mono (wp_looks (looks_expand rfl)) ?_
      rintro found _ rfl
      exact ⟨fun possible => absurd possible policy, rfl⟩
  | isAffinityChanged other expected =>
    obtain rfl : other = thread := own
    exact Program.wp_mono (wp_looks (looks_expand rfl)) fun _ _ same => congrArg _ same
  | isSchedChanged other expectedPrio =>
    obtain rfl : other = thread := own
    exact Program.wp_mono (wp_looks (looks_expand rfl)) fun _ _ same => congrArg _ same
  | takeover other cpumaskName cpus =>
    obtain rfl : other = thread := own
    by_cases named : cpumaskName = []
    · exact Program.wp_of_forall fun _ _ proper => absurd named proper
    by_cases none : cpus = []
    · exact Program.wp_of_forall fun _ _ _ some => absurd none some
    · exact wp_takeover validPid validTid retries named none fun result success _ _ =>
        ⟨success, rfl⟩
  | setPriority other prioValue =>
    obtain rfl : other = thread := own
    by_cases valid : ConfigParser.isValidPrioValue prioValue = true
    · exact wp_setPriority validTid valid fun _ => ⟨rfl, rfl⟩
    · exact Program.wp_of_forall fun _ _ proper => absurd proper valid
  | migrateThread other path =>
    obtain rfl : other = thread := own
    rw [expand, CpuctlSetter.migrateThread, Program.wp_bind]
    refine wp_read rfl rfl fun present answered => ?_
    rw [show present = true from answered, if_pos rfl]
    exact wp_attempt ⟨rfl, rfl⟩
  | restoreCpusetCgroup other path =>
    obtain rfl : other = thread := own
    by_cases none : path = []
    · exact Program.wp_of_forall fun _ _ some => absurd none some
    · rw [expand, CpusetSetter.restoreCpusetCgroup, if_neg (not_or.mpr ⟨positive, none⟩)]
      exact wp_attempt fun _ => ⟨rfl, rfl⟩
  | restoreAffinity other cpus =>
    obtain rfl : other = thread := own
    by_cases none : cpus = []
    · exact Program.wp_of_forall fun _ _ some => absurd none some
    · rw [expand, CpusetSetter.restoreAffinity, if_neg (not_or.mpr ⟨positive, none⟩)]
      exact wp_setAffinity none fun _ => ⟨rfl, rfl⟩
  | restoreScheduler other baseline =>
    obtain rfl : other = thread := own
    by_cases policy : baseline.policy < 0
    · exact Program.wp_of_forall fun _ _ possible => absurd policy (Int.not_lt.mpr possible)
    · rw [expand, PrioritySetter.restoreScheduler, if_neg (not_or.mpr ⟨positive, policy⟩)]
      unfold Outcome KernelThread.withScheduler
      by_cases plain : PrioritySetter.isPlainPolicy baseline.policy = true
      · rw [if_pos plain]
        exact wp_setSchedulerThenNice fun _ => ⟨rfl, (if_pos plain).symm⟩
      · rw [if_neg plain]
        exact wp_attempt fun _ => ⟨rfl, (if_neg plain).symm⟩
  | restoreCpuctlCgroup other path =>
    obtain rfl : other = thread := own
    by_cases none : path = []
    · exact Program.wp_of_forall fun _ _ some => absurd none some
    · rw [expand, CpuctlSetter.restoreCpuctlCgroup, if_neg (not_or.mpr ⟨positive, none⟩)]
      exact wp_attempt fun _ => ⟨rfl, rfl⟩

/-- What the worker's calls promise in the environment, they promise on the kernel. -/
theorem wp_expand (validPid : isValidId thread.pid = true)
    (validTid : isValidId thread.tid = true) (retries : 1 ≤ timing.cpusetRetryCount)
    {program : CallProgram α} (calls : program.Calls (CallOp.IsFor thread))
    {post : α → CallState KernelThread → Prop}
    (holds : program.wp (environment thread returned).machine post state) :
    (program.interpret (expand timing)).wp (machine thread returned) post state := by
  rw [Program.wp_interpret]
  refine calls.wp_of_refines ?_ holds
  intro before operation response after own run
  cases operation with
  | setter call =>
    have own : call.thread = thread := own
    have outcome : (expand timing (.setter call)).wp (machine thread returned)
        (fun response after => Outcome before.world call response after.world) before :=
      wp_expand_setter validPid validTid retries own
    have cached : (expand timing (.setter call)).wp (machine thread returned)
        (fun _ after => after.cache = before.cache) before :=
      wp_cache (own ▸ isSetterFor_expand call)
    exact ⟨(effect_own own).mpr (run.post outcome), run.post cached⟩
  | sys operation =>
    have stepped : (machine thread returned).step before operation response after := by
      have performs : (perform operation).wp (machine thread returned)
          (fun response after => (machine thread returned).step before operation response after)
          before := fun _ _ step => step
      exact run.post performs
    cases operation with
    | cache call => exact stepped
    | attempt owner change => cases own.2
    | _ => exact stepped

end Expansion

end Kernel

end ReUperf
