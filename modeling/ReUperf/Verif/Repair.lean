import ReUperf.Lib.Trace
import ReUperf.Verif.Convergence

/-!
# Repair and steady state

The state of one thread between whom others may change what is managed of it. When every system
call succeeds, a task that looks at the groups brings the thread back to the target of its
result, whatever was changed, and the tasks after it that observe the same make no call that
changes the thread.
-/

namespace ReUperf

open Effect FileUtils ScanWorker

namespace Convergence

variable {sched : SchedConfig} {original world : KernelThread} {result : MatchResult}
  {task : DispatchTask} {returned : MatchResult → Prop} {entry : ThreadCacheEntry}
  {state : CallState KernelThread} {observation : Observation}

/-! ## Records of a changed thread -/

/-- What the entry of the thread says of it, whoever changed what is managed. -/
structure Records (sched : SchedConfig) (returned : MatchResult → Prop) (original : KernelThread)
    (entry : ThreadCacheEntry) (world : KernelThread) : Prop where
  /-- The cached result was returned by the matcher. -/
  returned : returned entry.result
  /-- The original state is recorded completely, or not at all while nothing is managed. -/
  recorded : entry.baseline = some (baselineOf original) ∨
    entry.baseline = none ∧ entry.managedComponents = {}
  /-- What is not managed is original. -/
  unmanaged : Unmanaged original entry.managedComponents world
  /-- What the applied result manages is managed. -/
  applied : ∀ result, entry.appliedResult = some result →
    entry.managedComponents = managedBy sched result

/-- Nothing remains to do for the result of an entry on a thread at its target: it is applied, or
it manages nothing and no original state is recorded. -/
def Rests (sched : SchedConfig) (entry : ThreadCacheEntry) : Prop :=
  entry.appliedResult = some entry.result ∨
    needsManagedState sched entry.result = false ∧ entry.appliedResult = none ∧
      entry.baseline = none

/-- The entry after a task of the thread with an observation and a result. -/
structure Leaves (sched : SchedConfig) (returned : MatchResult → Prop) (original : KernelThread)
    (thread : Identity) (observation : Observation) (result : MatchResult)
    (entry : ThreadCacheEntry) (state : CallState KernelThread) : Prop where
  /-- The entry is stored. -/
  stored : state.cache.lookup thread.key = some entry
  /-- It is of the thread. -/
  same : entry.identity = thread
  /-- It is for the observation. -/
  isFor : entry.isFor observation = true
  /-- It has the result. -/
  computed : entry.result = result
  /-- It records what is known of the thread. -/
  records : Records sched returned original entry state.world
  /-- The components of the result are managed. -/
  managed : entry.managedComponents = managedBy sched result
  /-- Nothing remains to do on a thread at its target. -/
  rests : Rests sched entry

/-- A task of the thread with an observation and a result is over. -/
def Done (sched : SchedConfig) (returned : MatchResult → Prop) (original : KernelThread)
    (thread : Identity) (observation : Observation) (result : MatchResult)
    (state : CallState KernelThread) : Prop :=
  ∃ entry, Leaves sched returned original thread observation result entry state

section Applying

variable (live : (Kernel.environment task.identity returned).Alive task.identity)

include live

/-- Capturing records the original state and does nothing else. -/
theorem captureBaselineIfNeeded_records (possible : original.Possible)
    (records : Records sched returned original entry state.world)
    (stored : state.cache.lookup task.identity.key = some entry) :
    (captureBaselineIfNeeded task).wp (Kernel.environment task.identity returned).machine
      (fun _ after => after.world = state.world ∧
        ∃ next, after.cache.lookup task.identity.key = some next ∧
          next = { entry with baseline := some (baselineOf original) }) state := by
  have reads : (readBaseline task).wp (Kernel.environment task.identity returned).machine
      (fun added after => after = state ∧
        entry.addBaseline added = { entry with baseline := some (baselineOf original) }) state := by
    rcases records.recorded with recorded | ⟨recorded, nothing⟩
    · refine Program.wp_mono (Kernel.quiet.wp_observing (observes_readBaseline task)) ?_
      rintro added after rfl
      rw [ThreadCacheEntry.addBaseline, recorded]
      dsimp only
      rw [merge_baselineOf]
      exact ⟨rfl, rfl⟩
    · have unmanaged := records.unmanaged
      rw [nothing] at unmanaged
      refine Program.wp_mono (readBaseline_spec live ?_ ?_ ?_ ?_) ?_
      · rw [unmanaged.cpuset rfl]
        exact possible.cpuset
      · rw [unmanaged.affinity rfl]
        exact possible.affinity
      · rw [(unmanaged.scheduler rfl).policy]
        exact possible.policy
      · rw [unmanaged.cpuctl rfl]
        exact possible.cpuctl
      · rintro added after ⟨rfl, rfl⟩
        rw [ThreadCacheEntry.addBaseline, recorded, ← baselineOf_eq unmanaged]
        exact ⟨rfl, rfl⟩
  rw [captureBaselineIfNeeded, Program.wp_bind]
  refine Program.wp_mono reads ?_
  rintro added _ ⟨rfl, complete⟩
  rw [Program.wp_bind]
  apply live.wp_identityMatches
  rw [if_pos rfl, Environment.wp_cacheCall]
  rintro ⟨⟩ cache ⟨⟩
  refine ⟨rfl, _, ?_, complete⟩
  rw [ThreadCache.setBaseline, Table.lookup_adjust, stored]
  rfl

variable (possible : original.Possible)

include possible

/-- A managing result is applied, and the entry of the thread says so. -/
theorem applyResult_done (attainable : Attainable sched entry.result)
    (needed : needsManagedState sched entry.result = true)
    (stored : state.cache.lookup task.identity.key = some entry)
    (same : entry.identity = task.identity) (isFor : entry.isFor observation = true)
    (records : Records sched returned original entry state.world) :
    (applyResult sched task entry.result).wp (Kernel.environment task.identity returned).machine
      (fun _ after => Done sched returned original task.identity observation entry.result after ∧
        Target sched original entry.result after.world) state := by
  have matched : entry.result.matched = true := (Bool.and_eq_true_iff.mp needed).1
  rw [applyResult, if_pos needed, Program.wp_bind]
  refine Program.wp_mono (captureBaselineIfNeeded_records live possible records stored) ?_
  rintro ⟨⟩ first ⟨sameWorld, next, storedNext, made⟩
  have recorded : next.baseline = some (baselineOf original) := made ▸ rfl
  have managedSame : entry.managedComponents = next.managedComponents := made ▸ rfl
  have unmanaged := records.unmanaged
  rw [← sameWorld, managedSame] at unmanaged
  rw [Program.wp_bind, Environment.wp_cacheCall]
  rintro found _ ⟨⟩
  have found : first.cache.getBaseline task.identity.key = some (baselineOf original) := by
    rw [ThreadCache.getBaseline, storedNext]
    exact recorded
  rw [found]
  dsimp only
  rw [if_pos isSufficient_baselineOf, applyManaged, Program.wp_bind, Environment.wp_cacheCall]
  rintro managed _ ⟨⟩
  have managed : first.cache.getManagedComponents task.identity.key = next.managedComponents := by
    rw [ThreadCache.getManagedComponents, storedNext]
    rfl
  rw [managed, Program.wp_bind]
  refine Program.wp_mono (releaseComponents_spec live possible storedNext unmanaged) ?_
  rintro _ second ⟨remaining, rfl, remains, holds, unmanaged⟩
  dsimp only
  refine Program.wp_mono (attemptResult_spec live attainable matched remains holds unmanaged) ?_
  rintro _ after ⟨storedLast, target⟩
  have resultSame : next.result = entry.result := made ▸ rfl
  refine ⟨⟨_, storedLast, made ▸ same, made ▸ isFor, resultSame, ?_, rfl,
    .inl (congrArg some resultSame.symm)⟩, target⟩
  refine ⟨made ▸ records.returned, .inl recorded, target.unmanaged, ?_⟩
  rintro other ⟨⟩
  rfl

/-- The parts of the original state are put back one after the other. -/
theorem restoreRecorded_makes :
    (restoreRecorded task (baselineOf original)).wp
      (Kernel.environment task.identity returned).machine
      (fun _ after => after =
        ⟨withAffinity original
          ((withCpuctl original state.world).withScheduler original.schedulerBaseline),
        ((state.cache.clearBaseline task.identity.key).clearAppliedResult
          task.identity.key).clearManagedComponents task.identity.key⟩) state := by
  rw [restoreRecorded]
  apply live.wp_orDiscard
  rw [restoreIf, if_pos (by rfl), Program.wp_bind]
  refine Program.wp_mono (makes_restoreCpuctlBaseline live possible state) ?_
  rintro _ _ ⟨rfl, rfl⟩
  apply live.wp_orDiscard
  rw [restoreIf, if_pos (by rfl), Program.wp_bind]
  refine Program.wp_mono (makes_restoreSchedulerBaseline live possible _) ?_
  rintro _ _ ⟨rfl, rfl⟩
  apply live.wp_orDiscard
  rw [Program.wp_bind]
  refine Program.wp_mono (makes_restoreAffinityBaseline live possible _) ?_
  rintro _ _ ⟨rfl, rfl⟩
  apply live.wp_orDiscard
  rw [finishRestoration, if_pos (by rfl), Program.wp_bind, Environment.wp_cacheCall]
  rintro ⟨⟩ _ ⟨⟩
  rw [Program.wp_bind, Environment.wp_cacheCall]
  rintro ⟨⟩ _ ⟨⟩
  rw [Program.wp_bind, Environment.wp_cacheCall]
  rintro ⟨⟩ _ ⟨⟩
  rfl

omit live possible in
/-- A task with nothing to manage is over when the entry has forgotten everything. -/
theorem done_of_forgotten {after : CallState KernelThread}
    (unneeded : needsManagedState sched entry.result = false)
    (stored : after.cache.lookup task.identity.key = some
      { entry with baseline := none, appliedResult := none, managedComponents := {} })
    (same : entry.identity = task.identity) (isFor : entry.isFor observation = true)
    (fine : returned entry.result) (back : Unmanaged original {} after.world) :
    Done sched returned original task.identity observation entry.result after ∧
      Target sched original entry.result after.world :=
  ⟨⟨_, stored, same, isFor, rfl, ⟨fine, .inr ⟨rfl, rfl⟩, back, nofun⟩,
    (managedBy_of_unneeded unneeded).symm, .inr ⟨unneeded, rfl, rfl⟩⟩,
    target_of_unneeded unneeded back⟩

/-- A result that manages nothing gives the thread its original state back. -/
theorem restoreBaseline_done (unneeded : needsManagedState sched entry.result = false)
    (stored : state.cache.lookup task.identity.key = some entry)
    (same : entry.identity = task.identity) (isFor : entry.isFor observation = true)
    (records : Records sched returned original entry state.world) :
    (restoreBaseline task).wp (Kernel.environment task.identity returned).machine
      (fun _ after => Done sched returned original task.identity observation entry.result after ∧
        Target sched original entry.result after.world) state := by
  rw [restoreBaseline, Program.wp_bind, Environment.wp_cacheCall]
  rintro found _ ⟨⟩
  have found : state.cache.getBaseline task.identity.key = entry.baseline := by
    rw [ThreadCache.getBaseline, stored]
    rfl
  rw [found]
  rcases records.recorded with recorded | ⟨recorded, nothing⟩
  · rw [recorded]
    refine Program.wp_mono (restoreRecorded_makes live possible) ?_
    rintro _ _ rfl
    have restored := unmanaged_withAffinity (unmanaged_withScheduler
      (unmanaged_withCpuctl records.unmanaged))
    exact done_of_forgotten unneeded (lookup_forget stored) same isFor records.returned restored
  · rw [recorded]
    dsimp only
    rw [Program.wp_bind, Environment.wp_cacheCall]
    rintro ⟨⟩ _ ⟨⟩
    rw [Program.wp_bind, Environment.wp_cacheCall]
    rintro ⟨⟩ _ ⟨⟩
    have back := records.unmanaged
    rw [nothing] at back
    have cleared : ((state.cache.clearAppliedResult task.identity.key).clearManagedComponents
        task.identity.key).lookup task.identity.key = some
        { entry with baseline := none, appliedResult := none, managedComponents := {} } := by
      simp only [ThreadCache.clearManagedComponents, ThreadCache.setManagedComponents,
        ThreadCache.clearAppliedResult, Table.lookup_adjust, stored]
      rw [← recorded]
      rfl
    exact done_of_forgotten unneeded cleared same isFor records.returned back

end Applying

/-! ## Tasks -/

/-- An updated entry is for the observation. -/
theorem isFor_next (old : Option ThreadCacheEntry) (thread : Identity) (observation : Observation)
    (record : ResultRecord) :
    (ThreadCacheEntry.next old thread observation record).isFor observation = true := by
  unfold ThreadCacheEntry.next
  split
  · split <;> simp [ThreadCacheEntry.isFor, ThreadCacheEntry.renew, ThreadCacheEntry.fresh]
  · simp [ThreadCacheEntry.isFor, ThreadCacheEntry.fresh]

/-- A thread that is original while it has no entry, and recorded by its entry. -/
def Known (sched : SchedConfig) (returned : MatchResult → Prop) (original : KernelThread)
    (thread : Identity) (state : CallState KernelThread) : Prop :=
  (∃ entry, state.cache.lookup thread.key = some entry ∧ entry.identity = thread ∧
      Records sched returned original entry state.world) ∨
    state.world = original ∧
      ∀ entry, state.cache.lookup thread.key = some entry → entry.identity ≠ thread

/-- A thread is known after a task. -/
theorem Done.known {thread : Identity}
    (done : Done sched returned original thread observation result state) :
    Known sched returned original thread state := by
  obtain ⟨entry, leaves⟩ := done
  exact .inl ⟨entry, leaves.stored, leaves.same, leaves.records⟩

/-- An updated entry records the thread. -/
theorem Known.update {thread : Identity} (known : Known sched returned original thread state)
    (observation : Observation) (record : ResultRecord) (fine : returned record.result) :
    Records sched returned original
      (.next (state.cache.lookup thread.key) thread observation record) state.world := by
  have returnedNext : ∀ old,
      returned (ThreadCacheEntry.next old thread observation record).result := by
    intro old
    rw [ThreadCache.next_result]
    exact fine
  rcases known with ⟨entry, stored, same, records⟩ | ⟨start, unentered⟩
  · have renewed : ThreadCacheEntry.next (state.cache.lookup thread.key) thread observation
        record = entry.renew observation record := by
      rw [stored]
      exact ThreadCache.next_of_identity same
    refine ⟨returnedNext _, ?_, ?_, ?_⟩
    · rw [renewed]
      exact records.recorded
    · rw [renewed]
      exact records.unmanaged
    · rw [renewed]
      exact records.applied
  · have fresh : ThreadCacheEntry.next (state.cache.lookup thread.key) thread observation record =
        .fresh thread observation record := by
      unfold ThreadCacheEntry.next
      split
      · rename_i entry stored
        exact if_neg (unentered entry stored)
      · rfl
    refine ⟨returnedNext _, ?_, ?_, ?_⟩
    · rw [fresh]
      exact .inr ⟨rfl, rfl⟩
    · rw [fresh, start]
      exact unmanaged_original
    · rw [fresh]
      exact nofun

section Tasks

variable (live : (Kernel.environment task.identity returned).Alive task.identity)
  (possible : original.Possible) (attainable : ∀ result, returned result → Attainable sched result)

include live possible attainable

/-- A call of `apply_result` for the entry's own result brings the thread to its target. -/
theorem callApplyResult_done (stored : state.cache.lookup task.identity.key = some entry)
    (same : entry.identity = task.identity) (isFor : entry.isFor observation = true)
    (records : Records sched returned original entry state.world) :
    (callApplyResult sched task entry.result).wp (Kernel.environment task.identity returned).machine
      (fun outcome after => resultOf outcome = some entry.result ∧
        Done sched returned original task.identity observation entry.result after ∧
        Target sched original entry.result after.world) state := by
  rw [callApplyResult, Program.wp_bind]
  have calls : (applyResult sched task entry.result).wp
      (Kernel.environment task.identity returned).machine
      (fun _ after => Done sched returned original task.identity observation entry.result after ∧
        Target sched original entry.result after.world) state := by
    cases needed : needsManagedState sched entry.result with
    | true =>
      exact applyResult_done live possible (attainable _ records.returned) needed stored same
        isFor records
    | false =>
      rw [applyResult, if_neg (by rw [needed]; exact Bool.false_ne_true)]
      exact restoreBaseline_done live possible needed stored same isFor records
  exact Program.wp_mono calls fun _ _ done => ⟨rfl, done⟩

/-- A task that needs a new result brings the thread to its target. -/
theorem processUncached_done (known : Known sched returned original task.identity state) :
    (processUncached sched task).wp (Kernel.environment task.identity returned).machine
      (fun outcome after => ∃ result, resultOf outcome = some result ∧
        Done sched returned original task.identity task.observation result after ∧
        Target sched original result after.world) state := by
  rw [processUncached, Program.wp_bind, Environment.wp_sysCall rfl]
  intro result fine
  rw [Program.wp_bind, Environment.wp_cacheCall]
  rintro ⟨⟩ _ ⟨⟩
  have records := known.update task.observation
    ⟨result, task.cpusetBase, CpuctlSetter.getCpuctlBase result.effectiveState⟩ fine
  generalize updated : ThreadCacheEntry.next (state.cache.lookup task.identity.key) task.identity
    task.observation
    ⟨result, task.cpusetBase, CpuctlSetter.getCpuctlBase result.effectiveState⟩ = next at records
  have stored := ThreadCache.lookup_update state.cache task.identity task.observation
    ⟨result, task.cpusetBase, CpuctlSetter.getCpuctlBase result.effectiveState⟩
  rw [updated] at stored
  have same : next.identity = task.identity := updated ▸ ThreadCache.next_identity ..
  have isFor : next.isFor task.observation = true := updated ▸ isFor_next ..
  have computed : next.result = result := updated ▸ ThreadCache.next_result ..
  have calls : (callApplyResult sched task next.result).wp
      (Kernel.environment task.identity returned).machine
      (fun outcome after => ∃ result, resultOf outcome = some result ∧
        Done sched returned original task.identity task.observation result after ∧
        Target sched original result after.world)
      ⟨state.world, state.cache.update task.identity task.observation
        ⟨result, task.cpusetBase, CpuctlSetter.getCpuctlBase result.effectiveState⟩⟩ :=
    Program.wp_mono (callApplyResult_done live possible attainable stored same isFor records)
      fun _ _ done => ⟨_, done⟩
  rw [computed] at calls
  exact calls

/-- A task leaves its thread managed as its result says. -/
theorem processDispatchTask_done (known : Known sched returned original task.identity state) :
    (processDispatchTask sched task).wp (Kernel.environment task.identity returned).machine
      (fun outcome after => ∃ result, resultOf outcome = some result ∧
        Done sched returned original task.identity task.observation result after ∧
        (outcome = .upToDate result ∧ after.world = state.world ∨
          Target sched original result after.world)) state := by
  rw [processDispatchTask]
  apply live.wp_orDiscard
  rw [Program.wp_bind, Environment.wp_sysCall rfl]
  rintro skip answered
  obtain rfl : skip = false := answered
  rw [if_neg Bool.false_ne_true, processFresh, Program.wp_bind, Environment.wp_cacheCall]
  rintro found _ ⟨⟩
  cases found : state.cache.find task.identity task.observation with
  | none =>
    refine Program.wp_mono (processUncached_done live possible attainable known) ?_
    rintro outcome after ⟨result, computed, done, target⟩
    exact ⟨result, computed, done, .inr target⟩
  | some entry =>
    obtain ⟨stored, same, isFor⟩ := ThreadCache.find_eq_some.mp found
    have records : Records sched returned original entry state.world := by
      rcases known with ⟨other, storedOther, _, records⟩ | ⟨_, unentered⟩
      · obtain rfl := Option.some.inj (storedOther.symm.trans stored)
        exact records
      · exact absurd same (unentered entry stored)
    have calls : (callApplyResult sched task entry.result).wp
        (Kernel.environment task.identity returned).machine
        (fun outcome after => ∃ result, resultOf outcome = some result ∧
          Done sched returned original task.identity task.observation result after ∧
          (outcome = .upToDate result ∧ after.world = state.world ∨
            Target sched original result after.world)) state :=
      Program.wp_mono (callApplyResult_done live possible attainable stored same isFor records)
        fun _ _ done => ⟨_, done.1, done.2.1, .inr done.2.2⟩
    dsimp only
    rw [processCached, Program.wp_bind, Environment.wp_cacheCall]
    rintro found _ ⟨⟩
    have found : state.cache.getAppliedResult task.identity.key = entry.appliedResult := by
      rw [ThreadCache.getAppliedResult, stored]
      rfl
    rw [found]
    cases applied : entry.appliedResult with
    | none => exact calls
    | some result =>
      dsimp only
      split
      · rename_i equal
        obtain rfl : result = entry.result := isResultEqual_iff.mp equal
        have done : Done sched returned original task.identity task.observation entry.result
            state :=
          ⟨entry, stored, same, isFor, rfl, records, records.applied _ applied, .inl applied⟩
        split
        · rw [Program.wp_bind]
          refine Program.wp_mono (Kernel.quiet.wp_observing
            (observes_hasDrifted sched task _)) ?_
          rintro drifted _ rfl
          split
          · exact calls
          · exact ⟨_, rfl, done, .inl ⟨rfl, rfl⟩⟩
        · exact ⟨_, rfl, done, .inl ⟨rfl, rfl⟩⟩
      · exact calls

end Tasks

/-! ## Finding drift -/

/-- A system program is performed as it is. -/
theorem expand_lift {timing : TimingConfig} {α : Type} (program : SysProgram α) :
    (lift program).interpret (expand timing) = program := by
  induction program with
  | ret value => rfl
  | call operation next ih =>
    rw [lift, Program.interpret, Program.interpret_bind, Program.interpret_op, expand]
    exact congrArg (Program.call operation) (funext ih)

/-- The scheduler states the kernel gives a thread: the policy is no error code, and only a
real-time policy has a priority. -/
structure Scheduled (world : KernelThread) : Prop where
  /-- The policy is no error code. -/
  policy : 0 ≤ world.policy
  /-- Only a real-time policy has a priority. -/
  priority : PrioritySetter.isPlainPolicy world.policy = true → world.priority = 0

/-- What `get_current_sched` reads of a thread. -/
def currentSched (world : KernelThread) : PrioritySetter.CurrentSched :=
  ⟨world.policy, if PrioritySetter.isPlainPolicy world.policy = true then world.nice + 120
    else world.priority⟩

/-- The policy a priority value asks for is one of four. -/
theorem expectedPolicy_cases {prioValue : Int}
    (valid : ConfigParser.isValidPrioValue prioValue = true) (managed : prioValue ≠ 0) :
    (1 ≤ prioValue ∧ prioValue ≤ 98 ∧
        PrioritySetter.expectedPolicyForPriority prioValue = some schedFifo) ∨
      ∃ policy, PrioritySetter.expectedPolicyForPriority prioValue = some policy ∧
        PrioritySetter.isPlainPolicy policy = true ∧ ¬ (1 ≤ prioValue ∧ prioValue ≤ 98) := by
  simp only [ConfigParser.isValidPrioValue, Bool.or_eq_true, decide_eq_true_eq] at valid
  unfold PrioritySetter.expectedPolicyForPriority
  rw [if_neg managed]
  by_cases realtime : 1 ≤ prioValue ∧ prioValue ≤ 98
  · rw [if_pos realtime]
    exact .inl ⟨realtime.1, realtime.2, rfl⟩
  rw [if_neg realtime]
  by_cases niced : 100 ≤ prioValue ∧ prioValue ≤ 139
  · rw [if_pos niced]
    exact .inr ⟨_, rfl, rfl, realtime⟩
  rw [if_neg niced]
  have plain : prioValue = -1 ∨ prioValue = -2 ∨ prioValue = -3 := by omega
  rcases plain with rfl | rfl | rfl
  · exact .inr ⟨_, rfl, rfl, realtime⟩
  · exact .inr ⟨_, rfl, rfl, realtime⟩
  · exact .inr ⟨_, rfl, rfl, realtime⟩

/-- No plain policy is an error code. -/
theorem nonneg_of_plain {policy : Int} (plain : PrioritySetter.isPlainPolicy policy = true) :
    ¬ policy < 0 := by
  rcases Bool.or_eq_true_iff.mp plain with either | idle
  · rcases Bool.or_eq_true_iff.mp either with normal | batch
    · rw [of_decide_eq_true normal]
      decide
    · rw [of_decide_eq_true batch]
      decide
  · rw [of_decide_eq_true idle]
    decide

/-- A thread differs from a priority value exactly when it lacks its scheduler state. -/
theorem differs_eq_false_iff {prioValue : Int}
    (valid : ConfigParser.isValidPrioValue prioValue = true) (managed : prioValue ≠ 0)
    (scheduled : Scheduled world) :
    PrioritySetter.differs (currentSched world) prioValue = false ↔
      SchedulerApplied prioValue world := by
  have asked : ∀ {policy}, PrioritySetter.expectedPolicyForPriority prioValue = some policy →
      ((PrioritySetter.expectedPolicyForPriority prioValue).any (world.policy ≠ ·) = true ↔
        world.policy ≠ policy) := by
    intro policy expected
    simp [expected]
  unfold PrioritySetter.differs currentSched
  dsimp only
  rcases expectedPolicy_cases valid managed with
    ⟨low, high, expected⟩ | ⟨policy, expected, plain, other⟩
  · have realtime : 1 ≤ prioValue ∧ prioValue ≤ 98 := ⟨low, high⟩
    by_cases same : world.policy = schedFifo
    · have possible : ¬ world.policy < 0 := by rw [same]; decide
      rw [if_neg possible, if_neg (by rw [asked expected]; exact not_not.mpr same),
        if_pos realtime, same, if_neg (by decide)]
      constructor
      · intro agrees
        have priority : world.priority = prioValue := by simpa using agrees
        exact ⟨by rw [expected, same], by rw [if_pos realtime, priority], by omega⟩
      · intro applied
        have priority := applied.priority
        rw [if_pos realtime] at priority
        simpa using priority
    · constructor
      · intro agrees
        split at agrees
        · cases agrees
        · rw [if_pos ((asked expected).mpr same)] at agrees
          cases agrees
      · intro applied
        exact absurd (Option.some.inj (applied.policy.symm.trans expected)) same
  · by_cases same : world.policy = policy
    · have isPlain : PrioritySetter.isPlainPolicy world.policy = true := same ▸ plain
      rw [if_neg (nonneg_of_plain isPlain), if_neg (by rw [asked expected]; exact not_not.mpr same),
        if_neg other, if_pos isPlain]
      constructor
      · intro agrees
        refine ⟨by rw [expected, same], by rw [if_neg other, scheduled.priority isPlain], ?_⟩
        intro niced
        rw [if_pos niced] at agrees
        have nice : world.nice + 120 = prioValue := by simpa using agrees
        omega
      · intro applied
        by_cases niced : 100 ≤ prioValue ∧ prioValue ≤ 139
        · rw [if_pos niced, applied.nice niced]
          simp
        · rw [if_neg niced]
    · constructor
      · intro agrees
        split at agrees
        · cases agrees
        · rw [if_pos ((asked expected).mpr same)] at agrees
          cases agrees
      · intro applied
        exact absurd (Option.some.inj (applied.policy.symm.trans expected)) same

/-- A thread with the scheduler state of a priority value has one the kernel gives. -/
theorem SchedulerApplied.scheduled {prioValue : Int}
    (valid : ConfigParser.isValidPrioValue prioValue = true) (managed : prioValue ≠ 0)
    (applied : SchedulerApplied prioValue world) : Scheduled world := by
  rcases expectedPolicy_cases valid managed with ⟨_, _, expected⟩ | ⟨policy, expected, plain, other⟩
  · have same : world.policy = schedFifo :=
      Option.some.inj (applied.policy.symm.trans expected)
    exact ⟨by rw [same]; decide, fun plain => absurd plain (by rw [same]; decide)⟩
  · have same : world.policy = policy := Option.some.inj (applied.policy.symm.trans expected)
    have priority := applied.priority
    rw [if_neg other] at priority
    exact ⟨Int.not_lt.mp (nonneg_of_plain (same ▸ plain)), fun _ => priority⟩

/-- A thread at a target has a scheduler state the kernel gives. -/
theorem Target.scheduled (attainable : Attainable sched result) (given : Scheduled original)
    (target : Target sched original result world) : Scheduled world := by
  cases managed : (managedBy sched result).priority with
  | true =>
    have nonzero : sched.getPrioValue result.prioClass result.effectiveState ≠ 0 := by
      unfold managedBy at managed
      split at managed
      · exact of_decide_eq_true managed
      · cases managed
    exact (target.scheduler managed).scheduled attainable.priority nonzero
  | false =>
    have restored := target.unmanaged.scheduler managed
    refine ⟨restored.policy ▸ given.policy, fun plain => ?_⟩
    rw [restored.policy] at plain
    exact restored.priority.trans (given.priority plain)

/-- The thread is in the groups of a result. -/
structure InGroups (result : MatchResult) (world : KernelThread) : Prop where
  /-- The cpuset group. -/
  cpuset : hasResolvedAffinity result = true →
    world.cpuset = CpusetSetter.expectedGroup result.cpumaskName
  /-- The cpuctl group. -/
  cpuctl : result.enableLimit = true → world.cpuctl = CpuctlSetter.expectedGroup result

/-- The thread is in the groups of a result, and has its CPUs and its scheduler state. -/
structure InPlace (sched : SchedConfig) (result : MatchResult) (world : KernelThread) : Prop
    extends InGroups result world where
  /-- The CPUs. -/
  affinity : hasResolvedAffinity result = true → world.affinity =
    CpuSet.fromVector (sched.getCpusForAffinity result.affinityClass result.effectiveState)
  /-- The scheduler state. -/
  scheduler : sched.getPrioValue result.prioClass result.effectiveState ≠ 0 →
    SchedulerApplied (sched.getPrioValue result.prioClass result.effectiveState) world

/-- The thread of a managing result is at its target when it is in place and the rest is
original. -/
theorem target_iff (needed : needsManagedState sched result = true)
    (unmanaged : Unmanaged original (managedBy sched result) world) :
    Target sched original result world ↔ InPlace sched result world := by
  have managed := managedBy_of_needed needed
  have affinity : (managedBy sched result).affinity = hasResolvedAffinity result := by
    rw [managed]
    rfl
  have priority : (managedBy sched result).priority = true ↔
      sched.getPrioValue result.prioClass result.effectiveState ≠ 0 := by
    rw [managed]
    exact decide_eq_true_iff
  have cpuctl : (managedBy sched result).cpuctl = result.enableLimit := by
    rw [managed]
    rfl
  constructor
  · intro target
    exact ⟨⟨fun resolved => (target.affinity (affinity.trans resolved)).cpuset,
      fun limited => target.cpuctl (cpuctl.trans limited)⟩,
      fun resolved => (target.affinity (affinity.trans resolved)).affinity,
      fun nonzero => target.scheduler (priority.mpr nonzero)⟩
  · intro inPlace
    exact ⟨fun held => ⟨inPlace.cpuset (affinity.symm.trans held),
      inPlace.affinity (affinity.symm.trans held)⟩,
      fun held => inPlace.scheduler (priority.mp held),
      fun held => inPlace.cpuctl (cpuctl.symm.trans held), unmanaged⟩

/-- The promise that a task looks at the groups. -/
def looksAtGroups : (operation : SysOp) → SysSig.Res operation → Prop
  | .shouldCheckCgroup _, due => due = true
  | _, _ => True

section Drift

variable {timing : TimingConfig}

/-- Comparing the CPUs finds whether they are those of the result. -/
theorem wp_affinityDrifted (attainable : Attainable sched result) :
    ((affinityDrifted sched task result).interpret (expand timing)).wp
      (Kernel.machine task.identity returned)
      (fun drifted after => after = state ∧ (drifted = false ↔
        (hasResolvedAffinity result = true → state.world.affinity = CpuSet.fromVector
          (sched.getCpusForAffinity result.affinityClass result.effectiveState)))) state := by
  unfold affinityDrifted
  split
  · rename_i resolved
    have cpus := attainable.affinity resolved
    rw [Program.interpret_op, expand, CpuMask.isAffinityChanged, if_neg cpus, Program.wp_bind]
    refine Kernel.wp_read rfl rfl fun current read => ?_
    rw [show current = some state.world.affinity from read rfl]
    refine ⟨rfl, ?_⟩
    rw [decide_eq_false_iff_not, not_not]
    exact ⟨fun same _ => same, fun same => same resolved⟩
  · rename_i unresolved
    exact ⟨rfl, fun _ resolved => absurd resolved unresolved, fun _ => rfl⟩

/-- Comparing the scheduler state finds whether it is that of the result. -/
theorem wp_schedulerDrifted (attainable : Attainable sched result)
    (scheduled : Scheduled state.world) :
    ((schedulerDrifted sched task result).interpret (expand timing)).wp
      (Kernel.machine task.identity returned)
      (fun drifted after => after = state ∧ (drifted = false ↔
        (sched.getPrioValue result.prioClass result.effectiveState ≠ 0 →
          SchedulerApplied (sched.getPrioValue result.prioClass result.effectiveState)
            state.world))) state := by
  unfold schedulerDrifted
  dsimp only
  split
  · rename_i managed
    have exact := differs_eq_false_iff attainable.priority managed scheduled
    have compared : PrioritySetter.differs (currentSched state.world)
        (sched.getPrioValue result.prioClass result.effectiveState) = false ↔
        (sched.getPrioValue result.prioClass result.effectiveState ≠ 0 →
          SchedulerApplied (sched.getPrioValue result.prioClass result.effectiveState)
            state.world) :=
      exact.trans ⟨fun applied _ => applied, fun applied => applied managed⟩
    rw [currentSched] at compared
    rw [Program.interpret_op, expand, PrioritySetter.isSchedChanged, Program.wp_bind,
      PrioritySetter.getCurrentSched, Program.wp_bind]
    refine Kernel.wp_read rfl rfl fun found policyRead => ?_
    obtain rfl : found = state.world.policy := policyRead rfl
    rw [if_neg (Int.not_lt.mpr scheduled.policy), Program.wp_bind]
    refine Kernel.wp_read rfl rfl fun param paramRead => ?_
    obtain rfl : param = some state.world.priority := paramRead rfl
    split
    · rename_i plain
      rw [if_pos plain] at compared
      rw [Program.wp_bind]
      refine Kernel.wp_read rfl rfl fun nice niceRead => ?_
      obtain rfl : nice = some state.world.nice := niceRead rfl
      exact ⟨rfl, compared⟩
    · rename_i realtime
      rw [if_neg realtime] at compared
      exact ⟨rfl, compared⟩
  · rename_i unmanaged
    exact ⟨rfl, fun _ managed => absurd managed unmanaged, fun _ => rfl⟩

/-- What `is_cgroup_changed` compares once it looks. -/
theorem groups_compared (attainable : Attainable sched result) {paths : ThreadCgroupPaths}
    (read : paths = ⟨world.cpuset, world.cpuctl, true⟩) :
    (!paths.readable
        || (hasResolvedAffinity result && paths.cpuset ≠ CpusetSetter.expectedGroup
          result.cpumaskName)
        || ((result.enableLimit && decide (0 ≤ result.threadRuleIndex)) &&
          paths.cpuctl ≠ CpuctlSetter.expectedGroup result)) = false ↔ InGroups result world := by
  subst read
  simp only [Bool.not_true, Bool.false_or, Bool.or_eq_false_iff, Bool.and_eq_false_iff,
    decide_eq_false_iff_not, ne_eq, not_not]
  constructor
  · rintro ⟨cpuset, cpuctl⟩
    refine ⟨fun resolved => ?_, fun limited => ?_⟩
    · exact cpuset.resolve_left (by rw [resolved]; exact nofun)
    · rcases cpuctl with (unlimited | negative) | same
      · rw [limited] at unlimited
        cases unlimited
      · exact absurd (attainable.cpuctl limited) negative
      · exact same
  · intro inGroups
    refine ⟨?_, ?_⟩
    · cases resolved : hasResolvedAffinity result with
      | false => exact .inl rfl
      | true => exact .inr (inGroups.cpuset resolved)
    · cases limited : result.enableLimit with
      | false => exact .inl (.inl rfl)
      | true => exact .inr (inGroups.cpuctl limited)

variable (validPid : isValidId task.identity.pid = true)
  (validTid : isValidId task.identity.tid = true) (attainable : Attainable sched result)

include validPid validTid attainable

/-- A thread in the groups of the result is not found outside, and one outside is found when the
task looks. -/
theorem wp_isCgroupChanged {promise : (operation : SysOp) → SysSig.Res operation → Prop} :
    ((isCgroupChanged task result).interpret (expand timing)).wp
      ((Kernel.machine task.identity returned).promising promise)
      (fun drifted after => after = state ∧ (InGroups result state.world → drifted = false) ∧
        (promise = looksAtGroups → drifted = false → InGroups result state.world)) state := by
  unfold isCgroupChanged
  dsimp only
  split
  · rw [Program.interpret_bind, Program.wp_bind, Program.interpret_op]
    rintro due after ⟨⟨_, rfl⟩, promised⟩
    rw [Program.wp_ret]
    split
    · rw [Program.interpret_bind, expand_lift, Program.wp_bind]
      apply Program.wp_promising
      apply Kernel.wp_cgroupPaths validPid validTid
      have compared : _ ↔ InGroups result after.world := groups_compared attainable rfl
      exact ⟨rfl, compared.mpr, fun _ => compared.mp⟩
    · rename_i early
      refine ⟨rfl, fun _ => rfl, fun looks => ?_⟩
      subst looks
      have due : due = true := promised
      exact absurd due early
  · rename_i neither
    refine ⟨rfl, fun _ => rfl, fun _ _ => ⟨fun resolved => ?_, fun limited => ?_⟩⟩
    · rw [resolved] at neither
      exact absurd rfl neither
    · rw [limited, decide_eq_true (attainable.cpuctl limited), Bool.and_self, Bool.or_true]
        at neither
      exact absurd rfl neither

/-- A thread in place is not found to have drifted, and one out of place is when the task looks
at the groups. -/
theorem wp_hasDrifted {promise : (operation : SysOp) → SysSig.Res operation → Prop}
    (scheduled : Scheduled state.world) :
    ((hasDrifted sched task result).interpret (expand timing)).wp
      ((Kernel.machine task.identity returned).promising promise)
      (fun drifted after => after = state ∧
        (InPlace sched result state.world → drifted = false) ∧
        (promise = looksAtGroups → drifted = false → InPlace sched result state.world)) state := by
  rw [hasDrifted, Program.interpret_bind, Program.wp_bind]
  refine Program.wp_mono (Program.wp_promising (wp_affinityDrifted attainable)) ?_
  rintro affinity _ ⟨rfl, affinityExact⟩
  rw [Program.interpret_bind, Program.wp_bind]
  refine Program.wp_mono (Program.wp_promising (wp_schedulerDrifted attainable scheduled)) ?_
  rintro scheduler _ ⟨rfl, schedulerExact⟩
  rw [Program.interpret_bind, Program.wp_bind]
  refine Program.wp_mono (wp_isCgroupChanged validPid validTid attainable) ?_
  rintro groups _ ⟨rfl, unmoved, found⟩
  refine ⟨rfl, fun inPlace => ?_, fun looks none => ?_⟩
  · rw [affinityExact.mpr inPlace.affinity, schedulerExact.mpr inPlace.scheduler,
      unmoved inPlace.toInGroups]
    rfl
  · obtain ⟨either, inside⟩ := Bool.or_eq_false_iff.mp none
    obtain ⟨pinned, scheduled⟩ := Bool.or_eq_false_iff.mp either
    exact ⟨found looks inside, affinityExact.mp pinned, schedulerExact.mp scheduled⟩

end Drift

/-! ## Tasks on machines of the kernel -/

/-- Programs that change no thread do on the machine what they do on the kernel. -/
def Follows {τ : Type} (thread : Identity) (returned : MatchResult → Prop)
    (N : Machine SysSig τ) (embed : CallState KernelThread → τ) : Prop :=
  ∀ {α : Type} {program : SysProgram α} {post : α → τ → Prop} {state : CallState KernelThread},
    (program.Calls fun operation : SysOp => operation.isAttempt = false) →
    program.wp (Kernel.machine thread returned) (fun value after => post value (embed after))
      state →
    program.wp N post (embed state)

section Follows

variable {τ : Type} {N : Machine SysSig τ} {embed : CallState KernelThread → τ}
  {timing : TimingConfig} {post : TaskOutcome → τ → Prop}

/-- A check of an identity changes no thread. -/
theorem calm_identityMatches (use : ReadUse) (thread : Identity) :
    (identityMatches use thread).Calls fun operation : SysOp => operation.isAttempt = false := by
  unfold identityMatches getProcessStartTime getThreadStartTime isThreadInProcess
  refine .bind (.ite (fun _ => (Program.calls_op _ _).mpr rfl) fun _ => trivial) fun _ => ?_
  refine .ite (fun _ => ?_) fun _ => trivial
  refine .bind (.ite (fun _ => (Program.calls_op _ _).mpr rfl) fun _ => trivial) fun _ => ?_
  exact .ite (fun _ => .ite (fun _ => (Program.calls_op _ _).mpr rfl) fun _ => trivial)
    fun _ => trivial

/-- Looking for drift changes no thread. -/
theorem calm_hasDrifted (applied : MatchResult) :
    ((hasDrifted sched task applied).interpret (expand timing)).Calls fun operation : SysOp =>
      operation.isAttempt = false := by
  refine ((observes_hasDrifted sched task applied).and
    (serves_hasDrifted sched task applied)).interpret ?_
  rintro operation ⟨observes, serves⟩
  cases operation with
  | sys operation => exact (Program.calls_op _ _).mpr serves.2
  | setter call =>
    refine (looks_expand observes).mono fun operation looks => ?_
    cases operation with
    | attempt owner change => cases looks
    | _ => rfl

/-- The kernel itself, whatever its answers promise. -/
theorem follows_promising {promise : (operation : SysOp) → SysSig.Res operation → Prop} :
    Follows task.identity returned ((Kernel.machine task.identity returned).promising promise)
      id := fun _ holds => Program.wp_promising holds

/-- The kernel with a list of the calls that change a thread. -/
theorem follows_logging {log : List SysOp} :
    Follows task.identity returned
      ((Kernel.machine task.identity returned).logging SysOp.isAttempt) (·, log) :=
  fun calm holds => calm.wp_logging holds

variable (follows : Follows task.identity returned N embed)

include follows

/-- A cache call changes no thread. -/
theorem Follows.wp_cache {call : CacheCall} {post : call.Res → τ → Prop}
    (holds : ∀ response cache, call.Step state.cache response cache →
      post response (embed ⟨state.world, cache⟩)) :
    (perform (.cache call)).wp N post (embed state) := by
  refine follows ((Program.calls_op _ _).mpr rfl) ?_
  rintro response ⟨world, cache⟩ ⟨step, same⟩
  obtain rfl : world = state.world := same
  exact holds response cache step

/-- A task looks for its entry first. -/
theorem Follows.wp_task (validPid : isValidId task.identity.pid = true)
    (validTid : isValidId task.identity.tid = true)
    (absent : state.cache.find task.identity task.observation = none →
      ((processUncached sched task).interpret (expand timing)).wp N post (embed state))
    (present : ∀ entry, state.cache.lookup task.identity.key = some entry →
      entry.identity = task.identity → entry.isFor task.observation = true →
      ((processCached sched task entry).interpret (expand timing)).wp N post (embed state)) :
    ((processDispatchTask sched task).interpret (expand timing)).wp N post (embed state) := by
  rw [processDispatchTask, orDiscard, Program.interpret_bind, expand_lift, Program.wp_bind]
  refine follows (calm_identityMatches _ _) ?_
  apply Kernel.wp_identityMatches validPid validTid
  rw [if_pos rfl, Program.interpret_bind, Program.wp_bind, Program.interpret_op]
  refine follows ((Program.calls_op _ _).mpr rfl) ?_
  refine Kernel.wp_read rfl rfl fun skip answered => ?_
  obtain rfl : skip = false := answered
  rw [if_neg Bool.false_ne_true, processFresh, Program.interpret_bind, Program.wp_bind,
    Program.interpret_op]
  refine follows.wp_cache ?_
  rintro _ cache ⟨⟩
  cases found : state.cache.find task.identity task.observation with
  | none => exact absent found
  | some entry =>
    obtain ⟨stored, same, isFor⟩ := ThreadCache.find_eq_some.mp found
    exact present entry stored same isFor

/-- A task with an entry compares the applied result, and looks for drift when it is the one to
apply. -/
theorem Follows.wp_processCached
    (stored : state.cache.lookup task.identity.key = some entry)
    (differs : entry.appliedResult ≠ some entry.result →
      ((callApplyResult sched task entry.result).interpret (expand timing)).wp N post (embed state))
    (unneeded : entry.appliedResult = some entry.result →
      needsManagedState sched entry.result = false → post (.upToDate entry.result) (embed state))
    (needed : entry.appliedResult = some entry.result →
      needsManagedState sched entry.result = true →
      ((hasDrifted sched task entry.result).interpret (expand timing)).wp N
        (fun drifted after => (drifted = false → post (.upToDate entry.result) after) ∧
          (drifted = true → ((callApplyResult sched task entry.result).interpret
            (expand timing)).wp N post after)) (embed state)) :
    ((processCached sched task entry).interpret (expand timing)).wp N post (embed state) := by
  rw [processCached, Program.interpret_bind, Program.wp_bind, Program.interpret_op]
  refine follows.wp_cache ?_
  rintro _ cache ⟨⟩
  have found : state.cache.getAppliedResult task.identity.key = entry.appliedResult := by
    rw [ThreadCache.getAppliedResult, stored]
    rfl
  rw [found]
  cases applied : entry.appliedResult with
  | none => exact differs (by rw [applied]; exact (Option.some_ne_none _).symm)
  | some result =>
    dsimp only
    by_cases equal : result = entry.result
    · subst equal
      rw [if_pos (isResultEqual_iff.mpr rfl)]
      cases managing : needsManagedState sched entry.result with
      | false => exact unneeded applied managing
      | true =>
        rw [if_pos rfl, Program.interpret_bind, Program.wp_bind]
        refine Program.wp_mono (needed applied managing) ?_
        rintro drifted after ⟨quiet, repairs⟩
        cases drifted with
        | false => exact quiet rfl
        | true => exact repairs rfl
    · rw [if_neg (mt isResultEqual_iff.mp equal)]
      exact differs (by rw [applied]; exact fun same => equal (Option.some.inj same))

end Follows

/-! ## Repair -/

/-- The entry of a known thread records it. -/
theorem Known.records {thread : Identity} (known : Known sched returned original thread state)
    (stored : state.cache.lookup thread.key = some entry) (same : entry.identity = thread) :
    Records sched returned original entry state.world := by
  rcases known with ⟨other, storedOther, _, records⟩ | ⟨_, unentered⟩
  · obtain rfl := Option.some.inj (storedOther.symm.trans stored)
    exact records
  · exact absurd same (unentered entry stored)

/-- A call of `apply_result` is reported with its result. -/
theorem wp_callApplyResult {τ : Type} {N : Machine SysSig τ} {start : τ} {timing : TimingConfig}
    {post : TaskOutcome → τ → Prop} (holds : ∀ ended after, post (.called result ended) after) :
    ((callApplyResult sched task result).interpret (expand timing)).wp N post start := by
  rw [callApplyResult, Program.interpret_bind, Program.wp_bind]
  exact Program.wp_of_forall fun ended after => holds ended after

section Tasks

variable (validPid : isValidId task.identity.pid = true)
  (validTid : isValidId task.identity.tid = true)
  (attainable : ∀ result, returned result → Attainable sched result)

include validPid validTid attainable

/-- A task that looks at the groups and finds nothing to do finds the thread in place. -/
theorem upToDate_inPlace {timing : TimingConfig} (scheduled : Scheduled state.world)
    (known : Known sched returned original task.identity state) :
    ((processDispatchTask sched task).interpret (expand timing)).wp
      ((Kernel.machine task.identity returned).promising looksAtGroups)
      (fun outcome after => ∀ applied, outcome = .upToDate applied →
        needsManagedState sched applied = true → InPlace sched applied after.world) state := by
  refine follows_promising.wp_task validPid validTid (fun _ => ?_) fun entry stored same _ => ?_
  · rw [processUncached, Program.interpret_bind, Program.wp_bind]
    refine Program.wp_of_forall fun result after => ?_
    rw [Program.interpret_bind, Program.wp_bind]
    refine Program.wp_of_forall fun _ _ => wp_callApplyResult ?_
    rintro _ _ _ ⟨⟩
  · have records := known.records stored same
    have called : ∀ start, ((callApplyResult sched task entry.result).interpret (expand timing)).wp
        ((Kernel.machine task.identity returned).promising looksAtGroups)
        (fun outcome after => ∀ applied, outcome = .upToDate applied →
          needsManagedState sched applied = true → InPlace sched applied after.world) start := by
      intro start
      apply wp_callApplyResult
      rintro _ _ _ ⟨⟩
    refine follows_promising.wp_processCached stored (fun _ => called state)
      (fun _ unneeded => ?_) fun _ _ => ?_
    · rintro _ ⟨⟩ needed
      rw [unneeded] at needed
      cases needed
    · refine Program.wp_mono (wp_hasDrifted validPid validTid (attainable _ records.returned)
        scheduled) ?_
      rintro drifted _ ⟨rfl, _, found⟩
      refine ⟨fun quiet => ?_, fun _ => called _⟩
      rintro _ ⟨⟩ _
      exact found rfl quiet

variable (possible : original.Possible) (retries : 1 ≤ sched.timing.cpusetRetryCount)

include possible retries

/-- A task leaves its thread managed as its result says. -/
theorem task_done (known : Known sched returned original task.identity state) :
    ((processDispatchTask sched task).interpret (expand sched.timing)).wp
      (Kernel.machine task.identity returned)
      (fun outcome after => ∃ result, resultOf outcome = some result ∧
        Done sched returned original task.identity task.observation result after ∧
        (outcome = .upToDate result ∧ after.world = state.world ∨
          Target sched original result after.world)) state :=
  Kernel.wp_expand validPid validTid retries (isFor_processDispatchTask _ _)
    (processDispatchTask_done (alive validPid validTid) possible attainable known)

/-- A task that looks at the groups leaves its thread at the target of its result. -/
theorem task_repairs (scheduled : Scheduled state.world)
    (known : Known sched returned original task.identity state) :
    ((processDispatchTask sched task).interpret (expand sched.timing)).wp
      ((Kernel.machine task.identity returned).promising looksAtGroups)
      (fun outcome after => ∃ result, resultOf outcome = some result ∧
        Done sched returned original task.identity task.observation result after ∧
        Target sched original result after.world) state := by
  have done := task_done validPid validTid attainable possible retries known
  have found : ((processDispatchTask sched task).interpret (expand sched.timing)).wp
      ((Kernel.machine task.identity returned).promising looksAtGroups)
      (fun outcome after => ∀ applied, outcome = .upToDate applied →
        needsManagedState sched applied = true → InPlace sched applied after.world) state :=
    upToDate_inPlace validPid validTid attainable scheduled known
  refine Program.wp_mono (Program.wp_and (Program.wp_promising done) found) ?_
  rintro outcome after ⟨⟨result, computed, ⟨entry, leaves⟩, ended⟩, inPlace⟩
  refine ⟨result, computed, ⟨entry, leaves⟩, ?_⟩
  rcases ended with ⟨settled, _⟩ | target
  · have unmanaged := leaves.records.unmanaged
    rw [leaves.managed] at unmanaged
    cases needed : needsManagedState sched result with
    | true => exact (target_iff needed unmanaged).mpr (inPlace result settled needed)
    | false =>
      rw [managedBy_of_unneeded needed] at unmanaged
      exact target_of_unneeded needed unmanaged
  · exact target

/-! ## Steady tasks -/

omit possible retries in
/-- A task of a thread at its target that observes what the last one did changes no thread. -/
theorem steady_logged {log : List SysOp} (scheduled : Scheduled state.world)
    (done : Done sched returned original task.identity task.observation result state)
    (target : Target sched original result state.world) :
    ((processDispatchTask sched task).interpret (expand sched.timing)).wp
      ((Kernel.machine task.identity returned).logging SysOp.isAttempt)
      (fun outcome after => resultOf outcome = some result ∧ after.2 = log ∧
        after.1.world = state.world) (state, log) := by
  obtain ⟨entry, leaves⟩ := done
  obtain rfl := leaves.computed
  refine follows_logging.wp_task validPid validTid (fun absent => ?_) fun other stored _ _ => ?_
  · have present := ThreadCache.find_eq_some.mpr ⟨leaves.stored, leaves.same, leaves.isFor⟩
    rw [absent] at present
    cases present
  obtain rfl : other = entry := Option.some.inj (stored.symm.trans leaves.stored)
  refine follows_logging.wp_processCached stored (fun differs => ?_) (fun _ _ => ⟨rfl, rfl, rfl⟩)
    fun _ needed => ?_
  · obtain ⟨unneeded, _, nothing⟩ := leaves.rests.resolve_left differs
    rw [callApplyResult, applyResult, if_neg (by rw [unneeded]; exact Bool.false_ne_true),
      restoreBaseline, Program.interpret_bind, Program.interpret_bind, Program.wp_bind,
      Program.wp_bind, Program.interpret_op]
    refine follows_logging.wp_cache ?_
    rintro _ cache ⟨⟩
    have baseline : state.cache.getBaseline task.identity.key = none := by
      rw [ThreadCache.getBaseline, stored]
      exact nothing
    rw [baseline]
    dsimp only
    rw [Program.interpret_bind, Program.wp_bind, Program.interpret_op]
    refine follows_logging.wp_cache ?_
    rintro ⟨⟩ cache ⟨⟩
    rw [Program.interpret_bind, Program.wp_bind, Program.interpret_op]
    refine follows_logging.wp_cache ?_
    rintro ⟨⟩ cache ⟨⟩
    exact ⟨rfl, rfl, rfl⟩
  · have unmanaged := leaves.records.unmanaged
    rw [leaves.managed] at unmanaged
    have inPlace := (target_iff needed unmanaged).mp target
    refine follows_logging (calm_hasDrifted _) (Program.wp_of_promising ?_)
    refine Program.wp_mono (wp_hasDrifted validPid validTid
      (attainable _ leaves.records.returned) scheduled) ?_
    rintro drifted _ ⟨rfl, unmoved, _⟩
    rw [unmoved inPlace]
    exact ⟨fun _ => ⟨rfl, rfl, rfl⟩, fun found => absurd found Bool.false_ne_true⟩

/-- After such a task the thread is as settled as before. -/
theorem steady_task {log : List SysOp} (scheduled : Scheduled state.world)
    (done : Done sched returned original task.identity task.observation result state)
    (target : Target sched original result state.world) :
    ((processDispatchTask sched task).interpret (expand sched.timing)).wp
      ((Kernel.machine task.identity returned).logging SysOp.isAttempt)
      (fun _ after => (after.2 = log ∧ after.1.world = state.world) ∧
        Done sched returned original task.identity task.observation result after.1)
      (state, log) := by
  have quiet : ((processDispatchTask sched task).interpret (expand sched.timing)).wp
      ((Kernel.machine task.identity returned).logging SysOp.isAttempt)
      (fun outcome after => resultOf outcome = some result ∧ after.2 = log ∧
        after.1.world = state.world) (state, log) :=
    steady_logged validPid validTid attainable scheduled done target
  have leaves := task_done validPid validTid attainable possible retries done.known
  refine Program.wp_mono (Program.wp_and quiet (Program.wp_logging leaves)) ?_
  rintro outcome after ⟨⟨computed, unchanged⟩, other, computedAgain, done, _⟩
  obtain rfl : result = other := Option.some.inj (computed.symm.trans computedAgain)
  exact ⟨unchanged, done⟩

end Tasks

/-- Tasks of a thread at its target that observe what the last one did change no thread. -/
theorem steady_tasks {thread : Identity} {log : List SysOp}
    (validPid : isValidId thread.pid = true) (validTid : isValidId thread.tid = true)
    (attainable : ∀ result, returned result → Attainable sched result)
    (possible : original.Possible) (retries : 1 ≤ sched.timing.cpusetRetryCount)
    {later : List DispatchTask}
    (same : ∀ next ∈ later, next.identity = thread ∧ next.observation = observation)
    (scheduled : Scheduled state.world)
    (done : Done sched returned original thread observation result state)
    (target : Target sched original result state.world) :
    ((later.mapM (processDispatchTask sched)).interpret (expand sched.timing)).wp
      ((Kernel.machine thread returned).logging SysOp.isAttempt)
      (fun _ after => after.2 = log ∧ after.1.world = state.world) (state, log) := by
  induction later generalizing state with
  | nil => exact ⟨rfl, rfl⟩
  | cons next rest ih =>
    obtain ⟨rfl, rfl⟩ := same next List.mem_cons_self
    rw [List.mapM_cons, Program.interpret_bind, Program.wp_bind]
    refine Program.wp_mono (steady_task validPid validTid attainable possible retries scheduled
      done target) ?_
    rintro outcome ⟨middle, _⟩ ⟨⟨rfl, kept⟩, done⟩
    dsimp only at kept done
    rw [← kept] at scheduled target
    rw [Program.interpret_bind, Program.wp_bind]
    refine Program.wp_mono (ih (fun other member => same other (List.mem_cons_of_mem _ member))
      scheduled done target) ?_
    rintro outcomes ⟨after, _⟩ ⟨rfl, keptLast⟩
    exact ⟨rfl, keptLast.trans kept⟩

/-! ## Changed threads -/

/-- The states after tasks of a thread on a kernel whose system calls succeed, when others change
what the last result manages between the tasks, with the last result. -/
inductive Disturbed (sched : SchedConfig) (returned : MatchResult → Prop) (thread : Identity)
    (original : KernelThread) : CallState KernelThread → Option MatchResult → Prop where
  /-- The thread is in its original state and has no entry. -/
  | start {cache : ThreadCache}
    (unentered : ∀ entry, cache.lookup thread.key = some entry → entry.identity ≠ thread) :
    Disturbed sched returned thread original ⟨original, cache⟩ none
  /-- One more task. -/
  | task {state after : CallState KernelThread} {last : Option MatchResult} {task : DispatchTask}
    {outcome : TaskOutcome} (own : task.identity = thread)
    (disturbed : Disturbed sched returned thread original state last)
    (runs : Program.Run (Kernel.machine thread returned)
      ((processDispatchTask sched task).interpret (expand sched.timing)) state outcome after) :
    Disturbed sched returned thread original after (resultOf outcome)
  /-- Somebody else changes what the last result manages. -/
  | change {state : CallState KernelThread} {result : MatchResult} {world : KernelThread}
    (disturbed : Disturbed sched returned thread original state (some result))
    (scheduled : Scheduled world)
    (unmanaged : Unmanaged original (managedBy sched result) world) :
    Disturbed sched returned thread original ⟨world, state.cache⟩ (some result)

/-- Whoever changed what is managed, the entry records the thread. -/
theorem Disturbed.known {thread : Identity} (validPid : isValidId thread.pid = true)
    (validTid : isValidId thread.tid = true) (possible : original.Possible)
    (given : Scheduled original) (retries : 1 ≤ sched.timing.cpusetRetryCount)
    (attainable : ∀ result, returned result → Attainable sched result)
    {last : Option MatchResult} (disturbed : Disturbed sched returned thread original state last) :
    Known sched returned original thread state ∧ Scheduled state.world ∧
      ∀ result, last = some result →
        ∃ observation, Done sched returned original thread observation result state := by
  induction disturbed with
  | start unentered => exact ⟨.inr ⟨rfl, unentered⟩, given, nofun⟩
  | task own disturbed runs ih =>
    subst own
    obtain ⟨known, scheduled, _⟩ := ih
    obtain ⟨result, computed, done, ended⟩ :=
      runs.post (task_done validPid validTid attainable possible retries known)
    refine ⟨done.known, ?_, ?_⟩
    · rcases ended with ⟨_, sameWorld⟩ | target
      · rw [sameWorld]
        exact scheduled
      · obtain ⟨entry, leaves⟩ := done
        have fine : returned result := leaves.computed ▸ leaves.records.returned
        exact target.scheduled (attainable result fine) given
    · rintro other same
      rw [computed] at same
      obtain rfl := Option.some.inj same
      exact ⟨_, done⟩
  | @change state result world _ scheduled unmanaged ih =>
    obtain ⟨_, _, last⟩ := ih
    obtain ⟨observation, entry, leaves⟩ := last _ rfl
    have records : Records sched returned original entry world :=
      ⟨leaves.records.returned, leaves.records.recorded, leaves.managed ▸ unmanaged,
        leaves.records.applied⟩
    have done : Done sched returned original thread observation result ⟨world, state.cache⟩ :=
      ⟨entry, leaves.stored, leaves.same, leaves.isFor, leaves.computed, records, leaves.managed,
        leaves.rests⟩
    refine ⟨done.known, scheduled, ?_⟩
    rintro _ ⟨⟩
    exact ⟨observation, done⟩

/-- Under an accepted configuration, whatever others changed of what is managed: after a task
that looks at the groups, any number of tasks that observe the same thread name, command line and
process state make no call that changes the thread, until somebody else changes it again. -/
theorem tasks_steady (engine : RegexEngine) (document : Json) (config : Config)
    (accepted : ConfigParser.parse document = some config) (launcherPackage : Bytes)
    (thread : Identity) (validPid : isValidId thread.pid = true)
    (validTid : isValidId thread.tid = true) (original : KernelThread)
    (possible : original.Possible) (given : Scheduled original)
    (before : CallState KernelThread) (last : Option MatchResult)
    (disturbed : Disturbed config.sched (Returns engine config launcherPackage) thread original
      before last)
    (task : DispatchTask) (own : task.identity = thread) (outcome : TaskOutcome)
    (state : CallState KernelThread)
    (runs : Program.Run
      ((Kernel.machine thread (Returns engine config launcherPackage)).promising looksAtGroups)
      ((processDispatchTask config.sched task).interpret (expand config.sched.timing)) before
      outcome state)
    (later : List DispatchTask)
    (same : ∀ next ∈ later, next.identity = thread ∧ next.observation = task.observation)
    (outcomes : List TaskOutcome) (after : CallState KernelThread) (attempts : List SysOp)
    (followed : Program.Run
      ((Kernel.machine thread (Returns engine config launcherPackage)).logging SysOp.isAttempt)
      ((later.mapM (processDispatchTask config.sched)).interpret (expand config.sched.timing))
      (state, []) outcomes (after, attempts)) :
    attempts = [] ∧ after.world = state.world := by
  have retries := ConfigParser.parse_cpusetRetryCount accepted
  have attainable : ∀ result, Returns engine config launcherPackage result →
      Attainable config.sched result := fun _ returns => attainable_of_returns accepted returns
  obtain ⟨known, scheduled, _⟩ :=
    disturbed.known validPid validTid possible given retries attainable
  subst own
  obtain ⟨result, _, done, target⟩ :=
    runs.post (task_repairs validPid validTid attainable possible retries scheduled known)
  obtain ⟨entry, leaves⟩ := done
  have fine : Returns engine config launcherPackage result :=
    leaves.computed ▸ leaves.records.returned
  exact followed.post (steady_tasks validPid validTid attainable possible retries same
    (target.scheduled (attainable result fine) given) ⟨entry, leaves⟩ target)

/-! ## A thread somebody renices -/

/-- The original state of the renamed thread is one the kernel gives. -/
theorem scheduled_renamingOriginal : Scheduled renamingOriginal := ⟨by decide, fun _ => rfl⟩

/-- The answers during a task under a name are possible, and no group is to be looked at. -/
theorem namedRespond_promising {returned : MatchResult → Prop} {name : String}
    (fine : returned (namedResult name)) {state after : CallState KernelThread} {operation : SysOp}
    {response : SysSig.Res operation}
    (answered : namedRespond name state operation = some (response, after)) :
    ((Kernel.machine renamingThread returned).promising looksAtGroups).step state operation response
      after := by
  refine ⟨namedRespond_valid fine answered, ?_⟩
  cases operation with
  | shouldCheckCgroup task => cases answered
  | _ => trivial

/-- A task under the name, from a state. -/
def renderTask (state : CallState KernelThread) : Option (TaskOutcome × CallState KernelThread) :=
  ((processDispatchTask niceConfig.sched (namedTask "Render")).interpret
    (expand niceConfig.sched.timing)).exec (namedRespond "Render") state

/-- The thread after somebody reniced it. -/
def reniced (state : CallState KernelThread) : CallState KernelThread :=
  ⟨{ renamingOriginal with nice := 5 }, state.cache⟩

/-- A renamed thread is left alone by the next two tasks under its new name. -/
theorem tasks_steady_renamed : ∃ (outcome : TaskOutcome) (state : CallState KernelThread)
    (outcomes : List TaskOutcome) (after : CallState KernelThread) (attempts : List SysOp),
    renderTask ⟨renamingOriginal, ∅⟩ = some (outcome, state) ∧
    Program.Run
      ((Kernel.machine renamingThread (Returns literalEngine niceConfig [])).logging
        SysOp.isAttempt)
      (([namedTask "Render", namedTask "Render"].mapM
        (processDispatchTask niceConfig.sched)).interpret (expand niceConfig.sched.timing))
      (state, []) outcomes (after, attempts) ∧
    attempts = [] ∧ after.world = state.world := by
  have fine : Returns literalEngine niceConfig [] (namedResult "Render") :=
    returns_namedResult (by decide)
  have played : ((renderTask ⟨renamingOriginal, ∅⟩).bind fun found =>
      ((([namedTask "Render", namedTask "Render"].mapM
        (processDispatchTask niceConfig.sched)).interpret
          (expand niceConfig.sched.timing)).exec (namedRespond "Render") found.2).map
            fun last => (found, last)).isSome = true := by decide
  obtain ⟨found, whole⟩ := Option.isSome_iff_exists.mp played
  obtain ⟨⟨outcome, state⟩, first, rest⟩ := Option.bind_eq_some_iff.mp whole
  obtain ⟨⟨outcomes, after⟩, second, _⟩ := Option.map_eq_some_iff.mp rest
  have runs := Program.run_of_exec (namedRespond_promising fine) first
  obtain ⟨attempts, followed⟩ := (Program.run_of_exec (namedRespond_valid fine) second).logging []
  have steady := tasks_steady literalEngine niceDocument niceConfig rfl [] renamingThread
    (by decide) (by decide) renamingOriginal possible_renamingOriginal scheduled_renamingOriginal
    ⟨renamingOriginal, ∅⟩ none (.start (by simp)) (namedTask "Render") rfl outcome state runs
    [namedTask "Render", namedTask "Render"] (by decide) outcomes after attempts followed
  exact ⟨outcome, state, outcomes, after, attempts, first, followed, steady⟩

end Convergence

end ReUperf
