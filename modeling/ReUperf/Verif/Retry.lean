import ReUperf.Verif.CallMachine

/-!
# Retry of failed takeovers

A task returns early when the result recorded as applied is the result it was computed for.
A later attempt at the same result may have failed without touching that record. The module
proves that this is the only way an early return can follow a failed attempt, and exhibits
it.
-/

namespace ReUperf

open Effect ScanWorker

/-- Whether a setter call reported success. An observation always does. -/
def SetterCall.granted : (call : SetterCall) → call.Res → Bool
  | .takeover _ _ _, result => result.success
  | .setPriority _ _, ok => ok
  | .migrateThread _ _, ok => ok
  | .restoreCpusetCgroup _ _, ok => ok
  | .restoreAffinity _ _, ok => ok
  | .restoreScheduler _ _, ok => ok
  | .restoreCpuctlCgroup _ _, ok => ok
  | .captureAffinity _, _ => true
  | .captureScheduler _, _ => true
  | .isAffinityChanged _ _, _ => true
  | .isSchedChanged _ _, _ => true

/-- Everything but reads of the thread's identity answers at will; the world notes whether
every setter call so far reported success. -/
def retryEnvironment (thread : Identity) : Environment Bool where
  reads _ := thread.Sees
  effect granted call response after := after = (granted && call.granted response)

namespace Retry

variable {thread : Identity} {sched : SchedConfig} {task : DispatchTask} {result : MatchResult}

/-- A thread with valid IDs is alive in the environment. -/
theorem alive (validPid : FileUtils.isValidId thread.pid = true)
    (validTid : FileUtils.isValidId thread.tid = true) :
    (retryEnvironment thread).Alive thread where
  validPid := validPid
  validTid := validTid
  processStartTime reads := reads rfl
  threadStartTime reads := reads rfl
  threadInProcess reads := by simpa using reads rfl

/-- Observations leave the note. -/
theorem quiet : (retryEnvironment thread).Quiet := by
  intro granted call response after observes effect
  have succeeds : call.granted response = true := by
    cases call <;> first | rfl | cases observes
  rw [effect, succeeds, Bool.and_true]

/-! ## Single programs -/

/-- The program leaves the cache, and reports success when all its setter calls do. -/
def Reports (thread : Identity) (program : CallProgram Bool) : Prop :=
  ∀ state, program.wp (retryEnvironment thread).machine
    (fun ok after => after.cache = state.cache ∧
      (after.world = true → state.world = true ∧ ok = true)) state

/-- Returning success reports. -/
theorem reports_pure : Reports thread (pure true) :=
  fun _ => ⟨rfl, fun granted => ⟨granted, rfl⟩⟩

/-- A setter call leaves the cache and notes its success. -/
theorem wp_granted (call : SetterCall) (state : CallState Bool) :
    (setterCall call).wp (retryEnvironment thread).machine
      (fun response after => after.cache = state.cache ∧
        (after.world = true → state.world = true ∧ call.granted response = true)) state := by
  rw [Environment.wp_setterCall]
  rintro response granted rfl
  exact ⟨rfl, fun both => by simpa using both⟩

/-- Reports are composed by guards that hold. -/
theorem Reports.bind {program : CallProgram Bool} {rest : Bool → CallProgram Bool}
    (first : Reports thread program) (second : Reports thread (rest true))
    (failed : ∀ state : CallState Bool, (rest false).wp (retryEnvironment thread).machine
      (fun _ after => after.cache = state.cache ∧ (after.world = true → state.world = true)) state) :
    Reports thread (program >>= rest) := by
  intro state
  rw [Program.wp_bind]
  refine Program.wp_mono (first state) ?_
  rintro ok middle ⟨kept, promised⟩
  cases ok with
  | true =>
    refine Program.wp_mono (second middle) ?_
    rintro ok after ⟨same, later⟩
    refine ⟨same.trans kept, fun granted => ?_⟩
    obtain ⟨before, succeeded⟩ := later granted
    exact ⟨(promised before).1, succeeded⟩
  | false =>
    refine Program.wp_mono (failed middle) ?_
    rintro ok after ⟨same, later⟩
    refine ⟨same.trans kept, fun granted => ?_⟩
    have impossible := (promised (later granted)).2
    cases impossible

section Restoring

variable (live : (retryEnvironment task.identity).Alive task.identity)

include live

/-- The check of the identity reports. -/
theorem reports_isCurrentTaskIdentity (use : ReadUse) :
    Reports task.identity (isCurrentTaskIdentity use task) :=
  fun _ => live.wp_identityMatches ⟨rfl, fun granted => ⟨granted, rfl⟩⟩

/-- A guarded restoration is skipped by none of a live thread's checks. -/
theorem restoreGuarded_spec {α : Type} {part : Option α} {restore : α → CallProgram Bool}
    (reports : ∀ value, Reports task.identity (restore value)) (state : CallState Bool) :
    (restoreGuarded task part restore).wp (retryEnvironment task.identity).machine
      (fun restored after => after.cache = state.cache ∧
        (after.world = true → state.world = true ∧ restored = some true)) state := by
  cases part with
  | none => exact ⟨rfl, fun granted => ⟨granted, rfl⟩⟩
  | some value =>
    rw [restoreGuarded, Program.wp_bind]
    apply live.wp_identityMatches
    rw [if_pos rfl, Program.wp_bind]
    refine Program.wp_mono (reports value state) ?_
    rintro ok after ⟨kept, promised⟩
    refine ⟨kept, fun granted => ?_⟩
    obtain ⟨before, succeeded⟩ := promised granted
    exact ⟨before, congrArg some succeeded⟩

/-- The restoration of the cpuset group and the CPUs reports. -/
theorem reports_restoreAffinityBaseline (baseline : ThreadBaseline) :
    Reports task.identity (restoreAffinityBaseline task baseline) := by
  intro state
  rw [restoreAffinityBaseline, Program.wp_bind]
  refine Program.wp_mono (restoreGuarded_spec live (fun path =>
    wp_granted (.restoreCpusetCgroup task.identity path)) state) ?_
  rintro moved middle ⟨keptFirst, movedPromise⟩
  cases moved with
  | none =>
    refine ⟨keptFirst, fun granted => ?_⟩
    have impossible := (movedPromise granted).2
    cases impossible
  | some moved =>
    dsimp only
    rw [Program.wp_bind]
    refine Program.wp_mono (restoreGuarded_spec live (fun cpus =>
      wp_granted (.restoreAffinity task.identity cpus)) middle) ?_
    rintro pinned last ⟨keptSecond, pinnedPromise⟩
    have kept := keptSecond.trans keptFirst
    cases pinned with
    | none =>
      refine ⟨kept, fun granted => ?_⟩
      have impossible := (pinnedPromise granted).2
      cases impossible
    | some pinned =>
      dsimp only
      have promise : last.world = true → state.world = true ∧ moved = true ∧ pinned = true := by
        intro granted
        obtain ⟨before, pinnedOk⟩ := pinnedPromise granted
        obtain ⟨start, movedOk⟩ := movedPromise before
        exact ⟨start, Option.some.inj movedOk, Option.some.inj pinnedOk⟩
      split
      · refine Program.wp_mono (reports_isCurrentTaskIdentity live .skip last) ?_
        rintro ok after ⟨same, checked⟩
        refine ⟨same.trans kept, fun granted => ?_⟩
        exact ⟨(promise (checked granted).1).1, (checked granted).2⟩
      · rename_i incomplete
        refine ⟨kept, fun granted => ?_⟩
        obtain ⟨start, rfl, rfl⟩ := promise granted
        exact absurd rfl incomplete

/-- The restoration of a recorded part reports. -/
theorem reports_restoreRequired {α : Type} {part : Option α} {restore : α → CallProgram Bool}
    (recorded : part.isSome = true) (reports : ∀ value, Reports task.identity (restore value)) :
    Reports task.identity (restoreRequired task part restore) := by
  obtain ⟨value, rfl⟩ := Option.isSome_iff_exists.mp recorded
  intro state
  rw [restoreRequired, Program.wp_bind]
  apply live.wp_identityMatches
  rw [if_pos rfl]
  refine Reports.bind (reports value) ?_ ?_ state
  · exact reports_isCurrentTaskIdentity live .skip
  · intro middle
    exact ⟨rfl, id⟩

end Restoring

/-! ## Releasing and attempting -/

/-- Whether a result can be applied when every setter call succeeds. -/
structure Applicable (sched : SchedConfig) (result : MatchResult) : Prop where
  /-- A resolved affinity has CPUs. -/
  affinity : hasResolvedAffinity result = true →
    sched.getCpusForAffinity result.affinityClass result.effectiveState ≠ []
  /-- A limit has a group. -/
  cpuctl : result.enableLimit = true → 0 ≤ result.threadRuleIndex

/-- The cache has an entry of the thread that differs from the given one at most in what is
managed, and what is managed is recorded. -/
def Keeps (identity : Identity) (entry : ThreadCacheEntry) (cache : ThreadCache) : Prop :=
  ∃ components : ManagedComponents, components.CoveredBy (entry.baseline.getD {}) ∧
    cache.lookup identity.key = some { entry with managedComponents := components }

/-- A stored entry whose components are covered is kept. -/
theorem Keeps.of_lookup {identity : Identity} {entry : ThreadCacheEntry} {cache : ThreadCache}
    (stored : cache.lookup identity.key = some entry)
    (covered : entry.managedComponents.CoveredBy (entry.baseline.getD {})) :
    Keeps identity entry cache := ⟨entry.managedComponents, covered, stored⟩

/-- Recording covered components keeps the entry. -/
theorem Keeps.setManagedComponents {identity : Identity} {entry : ThreadCacheEntry}
    {cache : ThreadCache} (keeps : Keeps identity entry cache) {components : ManagedComponents}
    (covered : components.CoveredBy (entry.baseline.getD {})) :
    Keeps identity entry (cache.setManagedComponents identity.key components) := by
  obtain ⟨old, _, stored⟩ := keeps
  exact ⟨components, covered, by simp [ThreadCache.setManagedComponents, stored]⟩

section Applying

variable {entry : ThreadCacheEntry} {managed : ManagedComponents}

/-- Releasing a component keeps the entry, and goes on when the setter calls succeed. -/
theorem releaseComponent_spec {release : Bool} {restore : CallProgram Bool}
    {released : ManagedComponents} {state : CallState Bool}
    (reports : release = true → Reports task.identity restore)
    (covered : managed.CoveredBy (entry.baseline.getD {}))
    (fewer : released.CoveredBy (entry.baseline.getD {}))
    (keeps : Keeps task.identity entry state.cache) :
    (releaseComponent task release restore managed released).wp
      (retryEnvironment task.identity).machine
      (fun remaining after => Keeps task.identity entry after.cache ∧
        (∀ components, remaining = some components →
          components.CoveredBy (entry.baseline.getD {})) ∧
        (after.world = true → state.world = true ∧ remaining.isSome = true)) state := by
  unfold releaseComponent
  split
  · rename_i due
    rw [Program.wp_bind]
    refine Program.wp_mono (reports due state) ?_
    rintro restored middle ⟨same, promised⟩
    rw [← same] at keeps
    cases restored with
    | true =>
      rw [if_pos rfl, Program.wp_bind, Environment.wp_cacheCall]
      rintro ⟨⟩ cache ⟨⟩
      refine ⟨keeps.setManagedComponents fewer, ?_, fun granted => ⟨(promised granted).1, rfl⟩⟩
      rintro components ⟨⟩
      exact fewer
    | false =>
      refine ⟨keeps, nofun, fun granted => ?_⟩
      have impossible := (promised granted).2
      cases impossible
  · refine ⟨keeps, ?_, fun granted => ⟨granted, rfl⟩⟩
    rintro components ⟨⟩
    exact covered

variable (live : (retryEnvironment task.identity).Alive task.identity)

include live

/-- Releasing what a result no longer manages keeps the entry, and goes on when the setter
calls succeed. -/
theorem releaseComponents_spec {state : CallState Bool}
    (covered : managed.CoveredBy (entry.baseline.getD {}))
    (keeps : Keeps task.identity entry state.cache) :
    (releaseComponents sched task result (entry.baseline.getD {}) managed).wp
      (retryEnvironment task.identity).machine
      (fun remaining after => Keeps task.identity entry after.cache ∧
        (∀ components, remaining = some components →
          components.CoveredBy (entry.baseline.getD {})) ∧
        (after.world = true → state.world = true ∧ remaining.isSome = true)) state := by
  have managedOf : ∀ {before needed}, shouldRestoreManagedComponent before needed = true →
      before = true := by
    intro before needed due
    exact (Bool.and_eq_true_iff.mp due).1
  rw [releaseComponents, Program.wp_bind]
  refine Program.wp_mono (releaseComponent_spec
    (fun _ => reports_restoreAffinityBaseline live _) covered ⟨nofun, covered.2, covered.3⟩
    keeps) ?_
  rintro (_ | first) middle ⟨keepsFirst, coveredFirst, promisedFirst⟩
  · exact ⟨keepsFirst, nofun, promisedFirst⟩
  have remains := coveredFirst first rfl
  dsimp only
  rw [Program.wp_bind]
  refine Program.wp_mono (releaseComponent_spec (fun due => reports_restoreRequired live
    (remains.priority (managedOf due)) fun scheduler =>
      wp_granted (.restoreScheduler task.identity scheduler))
    remains ⟨remains.1, nofun, remains.3⟩ keepsFirst) ?_
  rintro (_ | second) last ⟨keepsSecond, coveredSecond, promisedSecond⟩
  · exact ⟨keepsSecond, nofun, fun granted =>
      ⟨(promisedFirst (promisedSecond granted).1).1, (promisedSecond granted).2⟩⟩
  have left := coveredSecond second rfl
  dsimp only
  refine Program.wp_mono (releaseComponent_spec (fun due => reports_restoreRequired live
    (left.cpuctl (managedOf due)) fun path =>
      wp_granted (.restoreCpuctlCgroup task.identity path))
    left ⟨left.1, left.2, nofun⟩ keepsSecond) ?_
  rintro remaining after ⟨keepsThird, coveredThird, promisedThird⟩
  refine ⟨keepsThird, coveredThird, fun granted => ?_⟩
  obtain ⟨before, proceeds⟩ := promisedThird granted
  exact ⟨(promisedFirst (promisedSecond before).1).1, proceeds⟩

/-- A takeover keeps the cache; it succeeds only on an applicable result, and does so when the
setter call succeeds. -/
theorem applyAffinity_spec (matched : result.matched = true) (state : CallState Bool) :
    (CpusetSetter.applyWithResult sched task.identity result).wp
      (retryEnvironment task.identity).machine
      (fun taken after => after.cache = state.cache ∧
        ((!hasResolvedAffinity result || taken.success) = true → hasResolvedAffinity result = true →
          sched.getCpusForAffinity result.affinityClass result.effectiveState ≠ []) ∧
        (after.world = true → state.world = true ∧ (Applicable sched result →
          (!hasResolvedAffinity result || taken.success) = true))) state := by
  have validTid : ¬ task.identity.tid ≤ 0 := by
    have valid := live.validTid
    simp only [FileUtils.isValidId, decide_eq_true_eq] at valid
    omega
  rw [CpusetSetter.applyWithResult, if_neg validTid]
  by_cases resolved : hasResolvedAffinity result = true
  · rw [if_neg (by simp [matched, resolved])]
    by_cases missing : sched.getCpusForAffinity result.affinityClass result.effectiveState = []
    · simp only [if_pos missing]
      refine ⟨rfl, fun success => ?_, fun granted => ⟨granted, fun applicable => ?_⟩⟩
      · simp [resolved, AffinityTakeoverResult.success] at success
      · exact absurd missing (applicable.affinity resolved)
    · simp only [if_neg missing]
      refine Program.wp_mono (wp_granted _ state) ?_
      rintro taken after ⟨same, promised⟩
      refine ⟨same, fun _ _ => missing, fun granted => ?_⟩
      obtain ⟨before, success⟩ := promised granted
      have success : taken.success = true := success
      exact ⟨before, fun _ => by rw [success, Bool.or_true]⟩
  · rw [if_pos (by simp [resolved])]
    refine ⟨rfl, fun _ resolves => absurd resolves resolved, fun granted => ⟨granted, fun _ => ?_⟩⟩
    simp [resolved]

omit live in
/-- Setting the priority keeps the cache and succeeds when the setter call does. -/
theorem applyPriority_spec : Reports task.identity
    (PrioritySetter.applyWithResult sched task.identity result) := by
  unfold PrioritySetter.applyWithResult
  dsimp only
  split
  · exact reports_pure
  · exact fun state => wp_granted (.setPriority task.identity _) state

omit live in
/-- Moving to the cpuctl group keeps the cache; it succeeds only on an applicable result, and
does so when the setter call succeeds. -/
theorem applyCpuctl_spec (sched : SchedConfig) (matched : result.matched = true) (state : CallState Bool) :
    (CpuctlSetter.applyWithResult task.identity result).wp
      (retryEnvironment task.identity).machine
      (fun moved after => after.cache = state.cache ∧
        (moved = true → result.enableLimit = true → 0 ≤ result.threadRuleIndex) ∧
        (after.world = true → state.world = true ∧ (Applicable sched result → moved = true)))
      state := by
  unfold CpuctlSetter.applyWithResult
  by_cases limited : result.enableLimit = true
  · rw [if_neg (by simp [matched, limited])]
    by_cases missing : result.threadRuleIndex < 0
    · rw [if_pos missing]
      refine ⟨rfl, nofun, fun granted => ⟨granted, fun applicable => ?_⟩⟩
      have found := applicable.cpuctl limited
      omega
    · rw [if_neg missing]
      refine Program.wp_mono (wp_granted (.migrateThread task.identity _) state) ?_
      rintro moved after ⟨same, promised⟩
      refine ⟨same, fun _ _ => by omega, fun granted => ?_⟩
      obtain ⟨before, success⟩ := promised granted
      exact ⟨before, fun _ => success⟩
  · rw [if_pos (by simp [limited])]
    exact ⟨rfl, fun _ limits => absurd limits limited, fun granted => ⟨granted, fun _ => rfl⟩⟩

/-- What an attempt leaves. -/
def AttemptLeaves (sched : SchedConfig) (identity : Identity) (result : MatchResult)
    (entry : ThreadCacheEntry) (outcome : ApplyOutcome) (after : CallState Bool) : Prop :=
  match outcome with
  | .applied => Applicable sched result ∧
    Keeps identity { entry with appliedResult := some result } after.cache
  | .incomplete => Keeps identity entry after.cache ∧
    (Applicable sched result → after.world = false)
  | _ => False

/-- An attempt ends in success, or in a failed setter call of an applicable result. -/
theorem attemptResult_spec (matched : result.matched = true) {state : CallState Bool}
    (covered : managed.CoveredBy (entry.baseline.getD {}))
    (sufficient : isSufficient sched result (entry.baseline.getD {}) = true)
    (keeps : Keeps task.identity entry state.cache) :
    (attemptResult sched task result managed).wp (retryEnvironment task.identity).machine
      (AttemptLeaves sched task.identity result entry) state := by
  rw [attemptResult, Program.wp_bind]
  refine Program.wp_mono (applyAffinity_spec live matched state) ?_
  rintro taken first ⟨sameFirst, applicableAffinity, promisedFirst⟩
  apply live.wp_orDiscard
  rw [Program.wp_bind]
  refine Program.wp_mono (applyPriority_spec first) ?_
  rintro priority second ⟨sameSecond, promisedSecond⟩
  apply live.wp_orDiscard
  rw [Program.wp_bind]
  refine Program.wp_mono (applyCpuctl_spec sched matched second) ?_
  rintro moved third ⟨sameThird, applicableCpuctl, promisedThird⟩
  rw [← sameFirst, ← sameSecond, ← sameThird] at keeps
  rw [recordApplied]
  apply live.wp_orDiscard
  rw [Program.wp_bind, Environment.wp_cacheCall]
  rintro ⟨⟩ cache ⟨⟩
  have kept := keeps.setManagedComponents (coveredBy_add covered sufficient)
  split
  · rename_i complete
    rw [Bool.and_eq_true, Bool.and_eq_true] at complete
    obtain ⟨⟨affinityDone, _⟩, cpuctlDone⟩ := complete
    rw [Program.wp_bind, Environment.wp_cacheCall]
    rintro ⟨⟩ cache ⟨⟩
    refine ⟨⟨applicableAffinity affinityDone, applicableCpuctl cpuctlDone⟩, ?_⟩
    obtain ⟨components, fewer, stored⟩ := kept
    exact ⟨components, fewer, by simp [ThreadCache.updateAppliedResult, stored]⟩
  · rename_i partly
    apply live.wp_orDiscard
    refine ⟨kept, fun applicable => ?_⟩
    by_contra granted
    rw [Bool.not_eq_false] at granted
    obtain ⟨beforeThird, movedOk⟩ := promisedThird granted
    obtain ⟨beforeSecond, priorityOk⟩ := promisedSecond beforeThird
    obtain ⟨_, takenOk⟩ := promisedFirst beforeSecond
    exact partly (by rw [takenOk applicable, priorityOk, movedOk applicable]; rfl)

/-- What a restoration leaves. -/
def RestorationLeaves (identity : Identity) (entry : ThreadCacheEntry) (outcome : ApplyOutcome)
    (after : CallState Bool) : Prop :=
  match outcome with
  | .restored =>
    Keeps identity { entry with appliedResult := none, baseline := none } after.cache
  | .incomplete => Keeps identity entry after.cache ∧ after.world = false
  | _ => False

omit live in
/-- Recording a restoration forgets the baseline and the applied result. -/
theorem finishRestoration_spec {restored : Bool} {state : CallState Bool}
    (failed : restored = true ∨ state.world = false)
    (keeps : Keeps task.identity entry state.cache) :
    (finishRestoration task restored).wp (retryEnvironment task.identity).machine
      (RestorationLeaves task.identity entry) state := by
  obtain ⟨components, covered, stored⟩ := keeps
  cases restored with
  | true =>
    rw [finishRestoration, if_pos rfl]
    rw [Program.wp_bind, Environment.wp_cacheCall]
    rintro ⟨⟩ _ ⟨⟩
    rw [Program.wp_bind, Environment.wp_cacheCall]
    rintro ⟨⟩ _ ⟨⟩
    rw [Program.wp_bind, Environment.wp_cacheCall]
    rintro ⟨⟩ _ ⟨⟩
    refine ⟨{}, coveredBy_none, ?_⟩
    simp [ThreadCache.clearBaseline, ThreadCache.clearAppliedResult,
      ThreadCache.clearManagedComponents, ThreadCache.setManagedComponents, stored]
  | false =>
    rw [finishRestoration, if_neg (by simp)]
    exact ⟨⟨components, covered, stored⟩, failed.resolve_left (by simp)⟩

/-- A restoration ends in success, or keeps the entry after a failed setter call. -/
theorem restoreRecorded_spec {state : CallState Bool}
    (keeps : Keeps task.identity entry state.cache) (baseline : ThreadBaseline) :
    (restoreRecorded task baseline).wp (retryEnvironment task.identity).machine
      (RestorationLeaves task.identity entry) state := by
  have optional : ∀ {recorded : Bool} {restore : CallProgram Bool},
      (recorded = true → Reports task.identity restore) →
      Reports task.identity (restoreIf recorded restore) := by
    intro recorded restore reports
    cases recorded with
    | true => exact reports rfl
    | false => exact reports_pure
  rw [restoreRecorded]
  apply live.wp_orDiscard
  rw [Program.wp_bind]
  refine Program.wp_mono (optional (fun recorded => reports_restoreRequired live recorded
    fun path => wp_granted (.restoreCpuctlCgroup task.identity path)) state) ?_
  rintro cpuctl first ⟨sameFirst, promisedFirst⟩
  apply live.wp_orDiscard
  rw [Program.wp_bind]
  refine Program.wp_mono (optional (fun recorded => reports_restoreRequired live recorded
    fun scheduler => wp_granted (.restoreScheduler task.identity scheduler)) first) ?_
  rintro scheduler second ⟨sameSecond, promisedSecond⟩
  apply live.wp_orDiscard
  rw [Program.wp_bind]
  refine Program.wp_mono (reports_restoreAffinityBaseline live baseline second) ?_
  rintro affinity third ⟨sameThird, promisedThird⟩
  apply live.wp_orDiscard
  rw [← sameFirst, ← sameSecond, ← sameThird] at keeps
  refine finishRestoration_spec ?_ keeps
  by_cases granted : third.world = true
  · obtain ⟨beforeThird, affinityOk⟩ := promisedThird granted
    obtain ⟨beforeSecond, schedulerOk⟩ := promisedSecond beforeThird
    obtain ⟨_, cpuctlOk⟩ := promisedFirst beforeSecond
    exact .inl (by rw [cpuctlOk, schedulerOk, affinityOk]; rfl)
  · exact .inr (by simpa using granted)

/-- Restoring a thread that is no longer managed ends in success or in a failed setter call. -/
theorem restoreBaseline_spec {state : CallState Bool}
    (keeps : Keeps task.identity entry state.cache) :
    (restoreBaseline task).wp (retryEnvironment task.identity).machine
      (RestorationLeaves task.identity entry) state := by
  rw [restoreBaseline, Program.wp_bind, Environment.wp_cacheCall]
  rintro found cache ⟨⟩
  obtain ⟨components, covered, stored⟩ := keeps
  cases recorded : entry.baseline with
  | none =>
    simp only [ThreadCache.getBaseline, stored, recorded, Option.bind_some]
    rw [Program.wp_bind, Environment.wp_cacheCall]
    rintro ⟨⟩ _ ⟨⟩
    rw [Program.wp_bind, Environment.wp_cacheCall]
    rintro ⟨⟩ _ ⟨⟩
    refine ⟨{}, coveredBy_none, ?_⟩
    simp [ThreadCache.clearAppliedResult, ThreadCache.clearManagedComponents,
      ThreadCache.setManagedComponents, stored, recorded]
  | some baseline =>
    simp only [ThreadCache.getBaseline, stored, recorded, Option.bind_some]
    exact restoreRecorded_spec live ⟨components, covered, stored⟩ baseline

/-- Capturing leaves a baseline with every part it had. -/
theorem captureBaselineIfNeeded_spec {state : CallState Bool}
    (keeps : Keeps task.identity entry state.cache) :
    (captureBaselineIfNeeded task).wp (retryEnvironment task.identity).machine
      (fun _ after => after.world = state.world ∧ ∃ baseline,
        Keeps task.identity (entry.addBaseline baseline) after.cache) state := by
  rw [captureBaselineIfNeeded, Program.wp_bind]
  refine Program.wp_mono (quiet.wp_observing (observes_readBaseline task)) ?_
  rintro baseline _ rfl
  rw [Program.wp_bind]
  apply live.wp_identityMatches
  rw [if_pos rfl, Environment.wp_cacheCall]
  rintro ⟨⟩ cache ⟨⟩
  obtain ⟨components, covered, stored⟩ := keeps
  refine ⟨rfl, baseline, components, covered.addBaseline baseline, ?_⟩
  simp [ThreadCache.setBaseline, stored, ThreadCacheEntry.addBaseline]

end Applying

/-! ## One call of `apply_result` -/

/-- A result recorded as applied manages something, is applicable and has its parts recorded. -/
structure Settled (sched : SchedConfig) (entry : ThreadCacheEntry) (result : MatchResult) :
    Prop where
  /-- It manages something. -/
  managed : needsManagedState sched result = true
  /-- It is applicable. -/
  applicable : Applicable sched result
  /-- Its parts are recorded. -/
  sufficient : isSufficient sched result (entry.baseline.getD {}) = true

/-- More recorded parts settle what was settled. -/
theorem Settled.addBaseline {entry : ThreadCacheEntry} (settled : Settled sched entry result)
    (added : ThreadBaseline) : Settled sched (entry.addBaseline added) result where
  managed := settled.managed
  applicable := settled.applicable
  sufficient := isSufficient_iff.mpr ((isSufficient_iff.mp settled.sufficient).addBaseline added)

/-- The result recorded as applied after a call, given the one before it. -/
def Recorded (before : Option MatchResult) (result : MatchResult) (outcome : ApplyOutcome)
    (granted : Bool) (after : Option MatchResult) : Prop :=
  match outcome with
  | .applied => after = some result
  | .restored => after = none
  | .incomplete => after = before ∧ (before = some result → granted = false)
  | .discarded => False

/-- What a call of `apply_result` makes of an entry. -/
structure Becomes (sched : SchedConfig) (identity : Identity) (entry : ThreadCacheEntry)
    (result : MatchResult) (outcome : ApplyOutcome) (after : CallState Bool)
    (next : ThreadCacheEntry) : Prop where
  /-- The entry is stored. -/
  keeps : Keeps identity next after.cache
  /-- It is of the same thread. -/
  sameIdentity : next.identity = entry.identity
  /-- It has the same match result. -/
  sameResult : next.result = entry.result
  /-- Its applied result is settled. -/
  settled : ∀ applied, next.appliedResult = some applied → Settled sched next applied
  /-- Its applied result follows from the outcome. -/
  recorded : Recorded entry.appliedResult result outcome after.world next.appliedResult

/-- What an attempt at a managing result makes of a settled entry. -/
theorem AttemptLeaves.becomes {entry : ThreadCacheEntry} {identity : Identity}
    {outcome : ApplyOutcome} {after : CallState Bool}
    (leaves : AttemptLeaves sched identity result entry outcome after)
    (settled : ∀ applied, entry.appliedResult = some applied → Settled sched entry applied)
    (managed : needsManagedState sched result = true)
    (sufficient : isSufficient sched result (entry.baseline.getD {}) = true) :
    ∃ next, Becomes sched identity entry result outcome after next := by
  cases outcome with
  | applied =>
    obtain ⟨applicable, keeps⟩ := leaves
    refine ⟨_, keeps, rfl, rfl, ?_, rfl⟩
    rintro applied ⟨⟩
    exact ⟨managed, applicable, sufficient⟩
  | incomplete =>
    obtain ⟨keeps, failed⟩ := leaves
    exact ⟨entry, keeps, rfl, rfl, settled, rfl, fun same => failed (settled _ same).applicable⟩
  | restored => exact leaves.elim
  | discarded => exact leaves.elim

/-- What a restoration makes of a settled entry. -/
theorem RestorationLeaves.becomes {entry : ThreadCacheEntry} {identity : Identity}
    {outcome : ApplyOutcome} {after : CallState Bool}
    (leaves : RestorationLeaves identity entry outcome after)
    (settled : ∀ applied, entry.appliedResult = some applied → Settled sched entry applied) :
    ∃ next, Becomes sched identity entry result outcome after next := by
  cases outcome with
  | restored => exact ⟨_, leaves, rfl, rfl, nofun, rfl⟩
  | incomplete => exact ⟨entry, leaves.1, rfl, rfl, settled, rfl, fun _ => leaves.2⟩
  | applied => exact leaves.elim
  | discarded => exact leaves.elim

/-- One call records the result when it succeeds, and fails on the recorded result only after
a failed setter call. -/
theorem applyResult_spec (live : (retryEnvironment task.identity).Alive task.identity)
    {entry : ThreadCacheEntry} {state : CallState Bool}
    (keeps : Keeps task.identity entry state.cache)
    (settled : ∀ applied, entry.appliedResult = some applied → Settled sched entry applied) :
    (applyResult sched task result).wp (retryEnvironment task.identity).machine
      (fun outcome after => ∃ next,
        Becomes sched task.identity entry result outcome after next) state := by
  unfold applyResult
  by_cases managed : needsManagedState sched result = true
  · have matched : result.matched = true := (Bool.and_eq_true_iff.mp managed).1
    rw [if_pos managed, Program.wp_bind]
    refine Program.wp_mono (captureBaselineIfNeeded_spec live keeps) ?_
    rintro ⟨⟩ first ⟨_, added, keeps⟩
    have settled : ∀ applied, (entry.addBaseline added).appliedResult = some applied →
        Settled sched (entry.addBaseline added) applied :=
      fun applied same => (settled applied same).addBaseline added
    -- The captured baseline makes a new entry; what is said of it holds of the old one.
    have lifts : ∀ outcome after,
        (∃ next, Becomes sched task.identity (entry.addBaseline added) result outcome after next) →
          ∃ next, Becomes sched task.identity entry result outcome after next := by
      rintro outcome after ⟨next, becomes⟩
      exact ⟨next, becomes.keeps, becomes.sameIdentity, becomes.sameResult, becomes.settled,
        becomes.recorded⟩
    refine Program.wp_mono ?_ lifts
    have stuck : ∀ {after : CallState Bool},
        Keeps task.identity (entry.addBaseline added) after.cache →
        ((entry.addBaseline added).appliedResult = some result → after.world = false) →
        ∃ next, Becomes sched task.identity (entry.addBaseline added) result .incomplete after
          next :=
      fun keeps failed => ⟨_, keeps, rfl, rfl, settled, rfl, failed⟩
    rw [Program.wp_bind, Environment.wp_cacheCall]
    rintro found cache ⟨⟩
    obtain ⟨baseline, recorded⟩ : ∃ baseline, (entry.addBaseline added).baseline = some baseline :=
      ⟨_, rfl⟩
    obtain ⟨components, covered, stored⟩ := keeps
    simp only [ThreadCache.getBaseline, stored, recorded, Option.bind_some]
    have same : (entry.addBaseline added).baseline.getD {} = baseline := by rw [recorded]; rfl
    split
    · rename_i sufficient
      rw [applyManaged, Program.wp_bind, Environment.wp_cacheCall]
      rintro managedNow cache ⟨⟩
      rw [← same] at sufficient ⊢
      simp only [ThreadCache.getManagedComponents, stored, Option.map_some, Option.getD_some]
      rw [Program.wp_bind]
      refine Program.wp_mono
        (releaseComponents_spec live covered ⟨components, covered, stored⟩) ?_
      rintro (_ | remaining) second ⟨keeps, remains, promised⟩
      · refine stuck keeps fun _ => ?_
        by_contra granted
        rw [Bool.not_eq_false] at granted
        have impossible := (promised granted).2
        cases impossible
      · refine Program.wp_mono
          (attemptResult_spec live matched (remains _ rfl) sufficient keeps) ?_
        intro outcome after leaves
        exact leaves.becomes settled managed sufficient
    · rename_i insufficient
      refine stuck ⟨components, covered, stored⟩ fun applied => ?_
      have sufficient := (settled _ applied).sufficient
      rw [same] at sufficient
      exact absurd sufficient insufficient
  · rw [if_neg managed]
    refine Program.wp_mono (restoreBaseline_spec live keeps) ?_
    intro outcome after leaves
    exact leaves.becomes settled

/-! ## One task -/

/-- The result recorded as applied to a thread. -/
def appliedTo (cache : ThreadCache) (identity : Identity) : Option MatchResult :=
  match cache.lookup identity.key with
  | none => none
  | some entry => if entry.identity = identity then entry.appliedResult else none

/-- What is recorded of a thread between two of its tasks. -/
structure Consistent (sched : SchedConfig) (identity : Identity) (cache : ThreadCache) : Prop where
  /-- What is managed is recorded. -/
  covered : ∀ {entry}, cache.lookup identity.key = some entry → entry.identity = identity →
    entry.managedComponents.CoveredBy (entry.baseline.getD {})
  /-- The applied result is settled. -/
  settled : ∀ {entry applied}, cache.lookup identity.key = some entry →
    entry.identity = identity → entry.appliedResult = some applied → Settled sched entry applied

/-- An update leaves an entry that is as consistent as the one before it. -/
theorem Consistent.next {identity : Identity} {cache : ThreadCache}
    (consistent : Consistent sched identity cache) (observation : Observation)
    (record : ResultRecord) {next : ThreadCacheEntry}
    (made : ThreadCacheEntry.next (cache.lookup identity.key) identity observation record = next) :
    next.appliedResult = appliedTo cache identity ∧
      next.managedComponents.CoveredBy (next.baseline.getD {}) ∧
      ∀ applied, next.appliedResult = some applied → Settled sched next applied := by
  cases found : cache.lookup identity.key with
  | none =>
    rw [found] at made
    subst made
    refine ⟨by simp only [appliedTo, found]; rfl, coveredBy_none, ?_⟩
    intro applied impossible
    cases impossible
  | some entry =>
    rw [found] at made
    by_cases same : entry.identity = identity
    · rw [ThreadCache.next_of_identity same] at made
      subst made
      have covered := consistent.covered found same
      refine ⟨by simp only [appliedTo, found, if_pos same]; rfl, covered, ?_⟩
      intro applied recorded
      obtain ⟨managed, applicable, sufficient⟩ := consistent.settled found same recorded
      exact ⟨managed, applicable, sufficient⟩
    · rw [ThreadCacheEntry.next, if_neg same] at made
      subst made
      refine ⟨by simp only [appliedTo, found, if_neg same]; rfl, coveredBy_none, ?_⟩
      intro applied impossible
      cases impossible

/-- What a task leaves. -/
def TaskLeaves (sched : SchedConfig) (identity : Identity) (before : ThreadCache)
    (outcome : TaskOutcome) (after : CallState Bool) : Prop :=
  match outcome with
  | .dropped => False
  | .throttled => after.cache = before
  | .upToDate applied => after.cache = before ∧ ∃ entry,
    before.lookup identity.key = some entry ∧ entry.identity = identity ∧
      entry.appliedResult = some applied ∧ entry.result = applied
  | .called result ended => ∃ next, Keeps identity next after.cache ∧
    next.identity = identity ∧ next.result = result ∧
    (∀ applied, next.appliedResult = some applied → Settled sched next applied) ∧
    Recorded (appliedTo before identity) result ended after.world next.appliedResult

section Tasks

variable (live : (retryEnvironment task.identity).Alive task.identity)

include live

/-- A call of `apply_result` for the entry's own result. -/
theorem callApplyResult_spec {entry : ThreadCacheEntry} (before : ThreadCache)
    (state : CallState Bool) (same : entry.identity = task.identity)
    (applied : appliedTo before task.identity = entry.appliedResult)
    (keeps : Keeps task.identity entry state.cache)
    (settled : ∀ applied, entry.appliedResult = some applied → Settled sched entry applied) :
    (callApplyResult sched task entry.result).wp (retryEnvironment task.identity).machine
      (TaskLeaves sched task.identity before) state := by
  rw [callApplyResult, Program.wp_bind]
  refine Program.wp_mono (applyResult_spec live keeps settled) ?_
  rintro ended after ⟨next, becomes⟩
  refine ⟨next, becomes.keeps, becomes.sameIdentity.trans same, becomes.sameResult,
    becomes.settled, ?_⟩
  rw [applied]
  exact becomes.recorded

/-- A task whose cached result is still for it. -/
theorem processCached_spec {entry : ThreadCacheEntry} {state : CallState Bool}
    (consistent : Consistent sched task.identity state.cache)
    (stored : state.cache.lookup task.identity.key = some entry)
    (same : entry.identity = task.identity) :
    (processCached sched task entry).wp (retryEnvironment task.identity).machine
      (TaskLeaves sched task.identity state.cache) state := by
  have recorded : appliedTo state.cache task.identity = entry.appliedResult := by
    simp only [appliedTo, stored, if_pos same]
  have calls := callApplyResult_spec live state.cache state same recorded
    (.of_lookup stored (consistent.covered stored same)) fun _ => consistent.settled stored same
  have early : ∀ {applied}, entry.appliedResult = some applied → applied = entry.result →
      TaskLeaves sched task.identity state.cache (.upToDate applied) state :=
    fun applied equal => ⟨rfl, entry, stored, same, applied, equal.symm⟩
  rw [processCached, Program.wp_bind, Environment.wp_cacheCall]
  rintro found cache ⟨⟩
  simp only [ThreadCache.getAppliedResult, stored, Option.bind_some]
  cases applied : entry.appliedResult with
  | none => exact calls
  | some result =>
    dsimp only
    split
    · rename_i equal
      rw [isResultEqual_iff] at equal
      split
      · rw [Program.wp_bind]
        refine Program.wp_mono (quiet.wp_observing (observes_hasDrifted sched task result)) ?_
        rintro drifted _ rfl
        split
        · exact calls
        · exact early applied equal
      · exact early applied equal
    · exact calls

/-- A task that needs a new result. -/
theorem processUncached_spec {state : CallState Bool}
    (consistent : Consistent sched task.identity state.cache) :
    (processUncached sched task).wp (retryEnvironment task.identity).machine
      (TaskLeaves sched task.identity state.cache) state := by
  rw [processUncached, Program.wp_bind, Environment.wp_sysCall rfl]
  intro result _
  rw [Program.wp_bind, Environment.wp_cacheCall]
  rintro ⟨⟩ cache ⟨⟩
  have stored := ThreadCache.lookup_update state.cache task.identity task.observation
    ⟨result, task.cpusetBase, CpuctlSetter.getCpuctlBase result.effectiveState⟩
  obtain ⟨recorded, covered, settled⟩ := consistent.next task.observation
    ⟨result, task.cpusetBase, CpuctlSetter.getCpuctlBase result.effectiveState⟩ rfl
  have calls := callApplyResult_spec live state.cache ⟨state.world, _⟩
    (ThreadCache.next_identity _ _ _ _) recorded.symm (.of_lookup stored covered) settled
  rw [ThreadCache.next_result] at calls
  exact calls

/-- A task of a live thread. -/
theorem processDispatchTask_spec (state : CallState Bool)
    (consistent : Consistent sched task.identity state.cache) :
    (processDispatchTask sched task).wp (retryEnvironment task.identity).machine
      (TaskLeaves sched task.identity state.cache) state := by
  rw [processDispatchTask]
  apply live.wp_orDiscard
  rw [Program.wp_bind, Environment.wp_sysCall rfl]
  intro skipped _
  split
  · rfl
  · rw [processFresh, Program.wp_bind, Environment.wp_cacheCall]
    rintro found cache ⟨⟩
    cases found : state.cache.find task.identity task.observation with
    | none => exact processUncached_spec live consistent
    | some entry =>
      obtain ⟨stored, same, _⟩ := ThreadCache.find_eq_some.mp found
      exact processCached_spec live consistent stored same

end Tasks

/-! ## Runs of tasks -/

/-- The state between two tasks of a thread. -/
structure History where
  /-- The cache. -/
  cache : ThreadCache
  /-- The result and the end of the most recent call of `apply_result`. -/
  last : Option (MatchResult × ApplyOutcome)

/-- The most recent call after a task. -/
def lastCall (last : Option (MatchResult × ApplyOutcome)) :
    TaskOutcome → Option (MatchResult × ApplyOutcome)
  | .called result ended => some (result, ended)
  | _ => last

/-- A task can run from a cache, ending so, with or without a failed setter call, and leave
another. -/
def TaskRuns (sched : SchedConfig) (task : DispatchTask) (before : ThreadCache)
    (outcome : TaskOutcome) (granted : Bool) (after : ThreadCache) : Prop :=
  Program.Run (retryEnvironment task.identity).machine (processDispatchTask sched task)
    ⟨true, before⟩ outcome ⟨granted, after⟩

/-- The states between the tasks of a thread in the runs whose tasks are all allowed. -/
inductive Reached (sched : SchedConfig) (thread : Identity)
    (allowed : History → TaskOutcome → Bool → Prop) : History → Prop where
  /-- Nothing is recorded of the thread. -/
  | start {cache : ThreadCache}
      (fresh : ∀ entry, cache.lookup thread.key = some entry → entry.identity ≠ thread) :
      Reached sched thread allowed ⟨cache, none⟩
  /-- A task of the thread. -/
  | task {history : History} {task : DispatchTask} {outcome : TaskOutcome} {granted : Bool}
      {cache : ThreadCache} (reached : Reached sched thread allowed history)
      (own : task.identity = thread)
      (runs : TaskRuns sched task history.cache outcome granted cache)
      (ok : allowed history outcome granted) :
      Reached sched thread allowed ⟨cache, lastCall history.last outcome⟩

/-- No setter call fails in a call of `apply_result` for the result that is recorded as
applied when the task begins. -/
def Undisturbed (thread : Identity) (history : History) (outcome : TaskOutcome)
    (granted : Bool) : Prop :=
  ∀ result ended, outcome = .called result ended →
    appliedTo history.cache thread = some result → granted = true

/-- Whether a call of `apply_result` ended fully applied or fully restored. -/
def succeeded : ApplyOutcome → Bool
  | .applied | .restored => true
  | _ => false

/-- After a failed call, a task that is not throttled calls `apply_result`, and an early return
follows a successful call for an equal result. -/
def RetriesFailure (last : Option (MatchResult × ApplyOutcome)) (outcome : TaskOutcome) : Prop :=
  (∀ result ended, last = some (result, ended) → succeeded ended = false →
      outcome = .throttled ∨ ∃ next again, outcome = .called next again) ∧
    ∀ applied, outcome = .upToDate applied →
      ∃ result ended, last = some (result, ended) ∧ succeeded ended = true ∧
        isResultEqual applied result = true

/-- What holds between two tasks: an entry whose applied result is its match result tells that
the most recent call applied that result. -/
structure Invariant (sched : SchedConfig) (thread : Identity) (history : History) : Prop where
  /-- The records are consistent. -/
  consistent : Consistent sched thread history.cache
  /-- The applied result is that of the most recent call. -/
  recent : ∀ {entry}, history.cache.lookup thread.key = some entry → entry.identity = thread →
    entry.appliedResult = some entry.result → history.last = some (entry.result, .applied)

/-- An allowed task keeps the invariant. -/
theorem Invariant.step {history : History} {outcome : TaskOutcome} {granted : Bool}
    {cache : ThreadCache} (invariant : Invariant sched task.identity history)
    (leaves : TaskLeaves sched task.identity history.cache outcome ⟨granted, cache⟩)
    (undisturbed : Undisturbed task.identity history outcome granted) :
    Invariant sched task.identity ⟨cache, lastCall history.last outcome⟩ := by
  cases outcome with
  | dropped => exact leaves.elim
  | throttled =>
    have same : cache = history.cache := leaves
    subst same
    exact invariant
  | upToDate applied =>
    have same : cache = history.cache := leaves.1
    subst same
    exact invariant
  | called result ended =>
    obtain ⟨next, ⟨components, covered, stored⟩, _, sameResult, settled, recorded⟩ := leaves
    refine ⟨⟨?_, ?_⟩, ?_⟩
    · rintro entry found _
      obtain rfl := Option.some.inj (stored.symm.trans found)
      exact covered
    · rintro entry applied found _ same
      obtain rfl := Option.some.inj (stored.symm.trans found)
      obtain ⟨managed, applicable, sufficient⟩ := settled applied same
      exact ⟨managed, applicable, sufficient⟩
    · rintro entry found _ same
      obtain rfl := Option.some.inj (stored.symm.trans found)
      have same : next.appliedResult = some next.result := same
      rw [sameResult] at same
      -- The entry's result is that of this call, so only this call can have recorded it.
      cases ended with
      | applied => exact congrArg (fun result => some (result, ApplyOutcome.applied)) sameResult.symm
      | restored =>
        have nothing : next.appliedResult = none := recorded
        rw [nothing] at same
        cases same
      | incomplete =>
        obtain ⟨kept, failed⟩ := recorded
        rw [kept] at same
        have impossible := (failed same).symm.trans (undisturbed result _ rfl same)
        cases impossible
      | discarded => exact recorded.elim

/-- The invariant holds in every run of allowed tasks. -/
theorem Reached.invariant (validPid : FileUtils.isValidId thread.pid = true)
    (validTid : FileUtils.isValidId thread.tid = true) {history : History}
    (reached : Reached sched thread (Undisturbed thread) history) :
    Invariant sched thread history := by
  induction reached with
  | start fresh =>
    refine ⟨⟨?_, ?_⟩, ?_⟩
    · exact fun found same => absurd same (fresh _ found)
    · exact fun found same _ => absurd same (fresh _ found)
    · exact fun found same _ => absurd same (fresh _ found)
  | @task history task outcome granted cache reached own runs ok ih =>
    subst own
    have leaves : TaskLeaves sched task.identity history.cache outcome ⟨granted, cache⟩ :=
      runs.post
        (processDispatchTask_spec (alive validPid validTid) ⟨true, history.cache⟩ ih.consistent)
    exact ih.step leaves ok

/-- In every run in which no setter call fails in a call for the result recorded as applied,
every failed call is followed by another one. -/
theorem retriesFailure_of_undisturbed (validPid : FileUtils.isValidId thread.pid = true)
    (validTid : FileUtils.isValidId thread.tid = true) {history : History}
    (reached : Reached sched thread (Undisturbed thread) history) (own : task.identity = thread)
    {outcome : TaskOutcome} {granted : Bool} {cache : ThreadCache}
    (runs : TaskRuns sched task history.cache outcome granted cache) :
    RetriesFailure history.last outcome := by
  have invariant := reached.invariant validPid validTid
  subst own
  have leaves := runs.post
    (processDispatchTask_spec (alive validPid validTid) ⟨true, history.cache⟩ invariant.consistent)
  have recent : ∀ applied, outcome = .upToDate applied →
      history.last = some (applied, .applied) := by
    rintro applied rfl
    obtain ⟨_, entry, stored, same, recorded, rfl⟩ := leaves
    exact invariant.recent stored same recorded
  constructor
  · intro result ended last failed
    cases outcome with
    | dropped => exact leaves.elim
    | throttled => exact .inl rfl
    | upToDate applied =>
      have equal := (recent applied rfl).symm.trans last
      obtain ⟨rfl, rfl⟩ := Prod.mk.inj (Option.some.inj equal)
      cases failed
    | called next again => exact .inr ⟨next, again, rfl⟩
  · intro applied early
    exact ⟨applied, .applied, recent applied early, rfl, isResultEqual_iff.mpr rfl⟩

/-! ## Played runs -/

/-- One task with the responses of its surroundings. -/
structure Turn where
  /-- The task. -/
  task : DispatchTask
  /-- The match result of the task. -/
  result : MatchResult
  /-- Which setter calls succeed. -/
  grants : SetterCall → Bool

/-- The response of a setter call in a turn; nothing drifts. -/
def Turn.setter (turn : Turn) : (call : SetterCall) → call.Res
  | .captureAffinity _ => [0, 1]
  | .captureScheduler _ => some ⟨0, 0, 0⟩
  | .isAffinityChanged _ _ => false
  | .isSchedChanged _ _ => false
  | .takeover thread name cpus =>
    let taken := turn.grants (.takeover thread name cpus)
    { cpusetVerified := taken, affinityVerified := taken }
  | .setPriority thread prio => turn.grants (.setPriority thread prio)
  | .migrateThread thread path => turn.grants (.migrateThread thread path)
  | .restoreCpusetCgroup thread path => turn.grants (.restoreCpusetCgroup thread path)
  | .restoreAffinity thread cpus => turn.grants (.restoreAffinity thread cpus)
  | .restoreScheduler thread baseline => turn.grants (.restoreScheduler thread baseline)
  | .restoreCpuctlCgroup thread path => turn.grants (.restoreCpuctlCgroup thread path)

/-- The response of a call in a turn. -/
def Turn.respond (turn : Turn) (state : CallState Bool) :
    (operation : CallOp) → Option (CallSig.Res operation × CallState Bool)
  | .setter call =>
    some (turn.setter call, ⟨state.world && call.granted (turn.setter call), state.cache⟩)
  | .sys (.cache call) => some ((call.run state.cache).1, ⟨state.world, (call.run state.cache).2⟩)
  | .sys (.processStartTime _ _) => some (turn.task.identity.processStartTime, state)
  | .sys (.threadStartTime _ _ _) => some (turn.task.identity.threadStartTime, state)
  | .sys (.threadInProcess _ pid _) => some (decide (pid = turn.task.identity.pid), state)
  | .sys (.threadCgroupPaths _ _) =>
    some (⟨Bytes.ascii "/foreground", Bytes.ascii "/", true⟩, state)
  | .sys (.shouldSkipSchedule _) => some (false, state)
  | .sys (.shouldCheckCgroup _) => some (false, state)
  | .sys (.matchThread _) => some (turn.result, state)
  | _ => none

/-- Every response of a turn is possible. -/
theorem Turn.respond_valid (turn : Turn) {state after : CallState Bool} {operation : CallOp}
    {response : CallSig.Res operation}
    (answered : turn.respond state operation = some (response, after)) :
    (retryEnvironment turn.task.identity).machine.step state operation response after := by
  cases operation with
  | setter call =>
    cases answered
    exact ⟨rfl, rfl⟩
  | sys operation =>
    cases operation with
    | cache call =>
      cases answered
      exact ⟨call.step_run state.cache, rfl⟩
    | processStartTime use pid =>
      cases answered
      exact ⟨fun _ => rfl, rfl⟩
    | threadStartTime use pid tid =>
      cases answered
      exact ⟨fun _ => rfl, rfl⟩
    | threadInProcess use pid tid =>
      cases answered
      exact ⟨fun _ => rfl, rfl⟩
    | threadCgroupPaths pid tid => cases answered; exact ⟨trivial, rfl⟩
    | shouldSkipSchedule task => cases answered; exact ⟨trivial, rfl⟩
    | shouldCheckCgroup task => cases answered; exact ⟨trivial, rfl⟩
    | matchThread task => cases answered; exact ⟨trivial, rfl⟩
    | _ => cases answered

/-- Play a turn. -/
def Turn.play (sched : SchedConfig) (turn : Turn) (before : ThreadCache) :
    Option (TaskOutcome × CallState Bool) :=
  (processDispatchTask sched turn.task).exec turn.respond ⟨true, before⟩

/-- A played turn is a run of its task. -/
theorem Turn.play_runs {turn : Turn} {before : ThreadCache} {outcome : TaskOutcome}
    {after : CallState Bool} (played : turn.play sched before = some (outcome, after)) :
    TaskRuns sched turn.task before outcome after.world after.cache :=
  Program.run_of_exec turn.respond_valid played

/-- Play turns one after the other. -/
def playAll (sched : SchedConfig) : List Turn → History → Option History
  | [], history => some history
  | turn :: rest, history =>
    match turn.play sched history.cache with
    | some (outcome, after) => playAll sched rest ⟨after.cache, lastCall history.last outcome⟩
    | none => none

/-- Played turns of a thread are a run. -/
theorem reached_playAll {turns : List Turn} (own : ∀ turn ∈ turns, turn.task.identity = thread)
    {first last : History} (reached : Reached sched thread (fun _ _ _ => True) first)
    (played : playAll sched turns first = some last) :
    Reached sched thread (fun _ _ _ => True) last := by
  induction turns generalizing first with
  | nil =>
    cases played
    exact reached
  | cons turn rest ih =>
    rw [playAll] at played
    cases turned : turn.play sched first.cache with
    | none =>
      rw [turned] at played
      cases played
    | some found =>
      obtain ⟨outcome, after⟩ := found
      rw [turned] at played
      have ownTurn := own turn List.mem_cons_self
      have next := Reached.task reached ownTurn (Turn.play_runs turned) trivial
      exact ih (fun other member => own other (List.mem_cons_of_mem _ member)) next played

/-- Two masks with an affinity class each. -/
def twoMasks : SchedConfig where
  cpumask := (AList.insert (Bytes.ascii "big") [1] (AList.insert (Bytes.ascii "little") [0] ∅))
  affinity :=
    let scene (name : String) : AffinityScene := ⟨Bytes.ascii name, Bytes.ascii name, Bytes.ascii name⟩
    (AList.insert (Bytes.ascii "fast") (scene "big")
      (AList.insert (Bytes.ascii "slow") (scene "little") ∅))

/-- A thread. -/
def renamedThread : Identity := ⟨10, 11, 100, 101⟩

/-- The result of the first thread rule: the little mask and the first limit group. -/
def slowResult : MatchResult where
  matched := true
  affinityClass := Bytes.ascii "slow"
  cpumaskName := Bytes.ascii "little"
  enableLimit := true
  effectiveState := .top
  matchedRuleName := Bytes.ascii "app"
  threadRuleIndex := 0

/-- The result of the second thread rule: the big mask and the second limit group. -/
def fastResult : MatchResult where
  matched := true
  affinityClass := Bytes.ascii "fast"
  cpumaskName := Bytes.ascii "big"
  enableLimit := true
  effectiveState := .top
  matchedRuleName := Bytes.ascii "app"
  threadRuleIndex := 1

/-- A turn of the thread under a name. -/
def renamedTurn (name : String) (result : MatchResult) (grants : SetterCall → Bool) : Turn where
  task := ⟨renamedThread, Bytes.ascii name, .top, cpusetMount, Bytes.ascii "app", []⟩
  result := result
  grants := grants

/-- Whether a setter call is a takeover. -/
def isTakeover : SetterCall → Bool
  | .takeover _ _ _ => true
  | _ => false

/-- Whether a setter call is a move to a limit group. -/
def isMigration : SetterCall → Bool
  | .migrateThread _ _ => true
  | _ => false

/-- A thread is taken over by the first rule, renames itself and is moved to the second rule's
limit group by a takeover that fails, renames itself back and is not moved to the first rule's
limit group. -/
def renamedTurns : List Turn :=
  [renamedTurn "a" slowResult fun _ => true, renamedTurn "b" fastResult (!isTakeover ·),
    renamedTurn "a" slowResult (!isMigration ·)]

/-- A thread that is taken over at once is left alone by its next task. -/
theorem retriesFailure_of_undisturbed_repeated :
    RetriesFailure (some (slowResult, .applied)) (.upToDate slowResult) := by
  let turn := renamedTurn "a" slowResult fun _ => true
  have start : Reached twoMasks renamedThread (Undisturbed renamedThread) ⟨∅, none⟩ :=
    .start (by simp)
  have ends : ((turn.play twoMasks ∅).bind fun first =>
      (turn.play twoMasks first.2.cache).map fun second => (first.1, second.1)) =
      some (.called slowResult .applied, .upToDate slowResult) := by decide
  obtain ⟨⟨first, middle⟩, begun, ends⟩ := Option.bind_eq_some_iff.mp ends
  obtain ⟨⟨second, after⟩, repeated, ends⟩ := Option.map_eq_some_iff.mp ends
  obtain ⟨rfl, rfl⟩ := Prod.mk.inj ends
  have undisturbed : Undisturbed renamedThread ⟨∅, none⟩ (.called slowResult .applied)
      middle.world := by
    intro result ended _ recorded
    cases recorded
  exact retriesFailure_of_undisturbed (by decide) (by decide)
    (.task start rfl (Turn.play_runs begun) undisturbed) rfl (Turn.play_runs repeated)

/-- After the failed call a task with the first rule's result returns early. -/
theorem retriesFailure_fails :
    ¬ ∀ (history : History) (task : DispatchTask) (outcome : TaskOutcome) (granted : Bool)
      (cache : ThreadCache), Reached twoMasks renamedThread (fun _ _ _ => True) history →
      task.identity = renamedThread → TaskRuns twoMasks task history.cache outcome granted cache →
      RetriesFailure history.last outcome := by
  intro claim
  let last := renamedTurn "a" slowResult fun _ => true
  have start : Reached twoMasks renamedThread (fun _ _ _ => True) ⟨∅, none⟩ := .start (by simp)
  have ends : ((playAll twoMasks renamedTurns ⟨∅, none⟩).bind fun history =>
      (last.play twoMasks history.cache).map fun found => (history.last, found.1)) =
      some (some (slowResult, .incomplete), .upToDate slowResult) := by decide
  obtain ⟨history, played, ends⟩ := Option.bind_eq_some_iff.mp ends
  obtain ⟨⟨outcome, after⟩, turned, ends⟩ := Option.map_eq_some_iff.mp ends
  obtain ⟨recent, rfl⟩ := Prod.mk.inj ends
  have reached := reached_playAll (by decide) start played
  have retries := (claim history last.task _ _ _ reached rfl (Turn.play_runs turned)).1
    slowResult .incomplete recent rfl
  rcases retries with throttled | ⟨_, _, called⟩
  · cases throttled
  · cases called

end Retry

end ReUperf
