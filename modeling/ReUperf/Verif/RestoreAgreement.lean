import ReUperf.Main.Restoration
import ReUperf.Lib.Loop
import ReUperf.Verif.CallMachine

/-!
# The two restorations agree

A worker restores a thread that is no longer managed, and `main` restores every thread before it
exchanges the scheduler. Both are compared with one abstract restoration: check the identity before
every part, restore the recorded parts in one order, check again, and forget the baseline if every
part was restored. The identity may be lost between any two restore operations, so what a check
finds depends on the number of operations performed.
-/

namespace ReUperf

open Effect FileUtils

/-! ## Restore operations -/

/-- What `/proc` tells at one moment. -/
structure ProcView where
  /-- The start time of a process. -/
  processStartTime : Int → Nat
  /-- The start time of a thread. -/
  threadStartTime : Int → Int → Nat
  /-- Whether a thread belongs to a process. -/
  threadInProcess : Int → Int → Bool

namespace ProcView

variable (view : ProcView)

/-- The start time read for a process. -/
def processSeen (pid : Int) : Nat := if isValidId pid then view.processStartTime pid else 0

/-- The start time read for a thread. -/
def threadSeen (pid tid : Int) : Nat :=
  if isValidId pid && isValidId tid then view.threadStartTime pid tid else 0

/-- The membership read for a thread. -/
def memberSeen (pid tid : Int) : Bool :=
  isValidId pid && isValidId tid && view.threadInProcess pid tid

/-- Whether a check of an identity succeeds. -/
def shows (identity : Identity) : Bool :=
  view.processSeen identity.pid = identity.processStartTime &&
    (view.threadSeen identity.pid identity.tid = identity.threadStartTime &&
      view.memberSeen identity.pid identity.tid)

end ProcView

/-- What a restoration meets. -/
structure RestoreHost where
  /-- What `/proc` tells after a number of restore operations. -/
  view : Nat → ProcView
  /-- Whether a restore operation succeeds. -/
  outcome : SetterCall → Bool

/-- A restoration under way. -/
structure RestoreRun where
  /-- The restore operations performed so far. -/
  performed : List SetterCall
  /-- The cache. -/
  cache : ThreadCache

namespace RestoreRun

/-- One more operation is performed. -/
def push (run : RestoreRun) (call : SetterCall) : RestoreRun :=
  { run with performed := run.performed ++ [call] }

/-- A call of the cache is made. -/
def call (run : RestoreRun) (call : CacheCall) : RestoreRun :=
  { run with cache := (call.run run.cache).2 }

/-- The entry of a lost identity is erased. -/
def discard (run : RestoreRun) (identity : Identity) : RestoreRun :=
  run.call (.eraseThreadIfIdentity identity)

/-- What is recorded of an identity is forgotten. -/
def forget (run : RestoreRun) (identity : Identity) : RestoreRun :=
  ((run.call (.clearBaseline identity)).call (.clearAppliedResult identity)).call
    (.clearManagedComponents identity)

end RestoreRun

namespace RestoreHost

variable (host : RestoreHost)

/-- Whether a check of an identity succeeds now. -/
def holds (identity : Identity) (run : RestoreRun) : Bool :=
  (host.view run.performed.length).shows identity

/-- How the calls of a restoration are answered. -/
def answer (run : RestoreRun) :
    (operation : CallOp) → Option (CallSig.Res operation × RestoreRun)
  | .sys (.cache call) => some ((call.run run.cache).1, run.call call)
  | .sys (.processStartTime _ pid) =>
    some ((host.view run.performed.length).processStartTime pid, run)
  | .sys (.threadStartTime _ pid tid) =>
    some ((host.view run.performed.length).threadStartTime pid tid, run)
  | .sys (.threadInProcess _ pid tid) =>
    some ((host.view run.performed.length).threadInProcess pid tid, run)
  | .setter (.restoreCpuctlCgroup thread path) =>
    some (host.outcome (.restoreCpuctlCgroup thread path),
      run.push (.restoreCpuctlCgroup thread path))
  | .setter (.restoreScheduler thread baseline) =>
    some (host.outcome (.restoreScheduler thread baseline),
      run.push (.restoreScheduler thread baseline))
  | .setter (.restoreCpusetCgroup thread path) =>
    some (host.outcome (.restoreCpusetCgroup thread path),
      run.push (.restoreCpusetCgroup thread path))
  | .setter (.restoreAffinity thread cpus) =>
    some (host.outcome (.restoreAffinity thread cpus), run.push (.restoreAffinity thread cpus))
  | _ => none

end RestoreHost

/-! ## The abstract restoration -/

/-- The restore operations of a recorded part. -/
def partCalls {α : Type} (part : Option α) (call : α → SetterCall) : List SetterCall :=
  (part.map call).toList

/-- The restore operations of a baseline, in the reverse order of its application. -/
def ThreadBaseline.restoreCalls (baseline : ThreadBaseline) (identity : Identity) :
    List SetterCall :=
  partCalls baseline.cpuctlPath (.restoreCpuctlCgroup identity) ++
    (partCalls baseline.scheduler (.restoreScheduler identity) ++
      (partCalls baseline.cpusetPath (.restoreCpusetCgroup identity) ++
        partCalls baseline.affinity (.restoreAffinity identity)))

variable {host : RestoreHost} {identity : Identity}

/-- Perform restore operations while the identity holds, and forget what is recorded when all of
them succeeded. -/
def RestoreHost.restored (host : RestoreHost) (identity : Identity) :
    List SetterCall → Bool → RestoreRun → RestoreRun
  | [], ok, run =>
    if host.holds identity run then
      if ok then run.forget identity else run
    else run.discard identity
  | call :: rest, ok, run =>
    if host.holds identity run then
      host.restored identity rest (ok && host.outcome call) (run.push call)
    else run.discard identity

/-- Once the identity is lost, the entry is erased and nothing else happens. -/
theorem restored_of_lost {run : RestoreRun} (lost : ¬ host.holds identity run = true)
    (calls : List SetterCall) (ok : Bool) :
    host.restored identity calls ok run = run.discard identity := by
  cases calls with
  | nil => rw [RestoreHost.restored, if_neg lost]
  | cons call rest => rw [RestoreHost.restored, if_neg lost]

/-- While the identity holds, the next operation is performed. -/
theorem restored_cons {run : RestoreRun} (holds : host.holds identity run = true)
    (call : SetterCall) (rest : List SetterCall) (ok : Bool) :
    host.restored identity (call :: rest) ok run =
      host.restored identity rest (ok && host.outcome call) (run.push call) := by
  rw [RestoreHost.restored, if_pos holds]

/-- The operations of a restoration are a first part of those that were to be performed. -/
theorem restored_performed (calls : List SetterCall) (ok : Bool) (run : RestoreRun) :
    ∃ done, done <+: calls ∧
      (host.restored identity calls ok run).performed = run.performed ++ done := by
  induction calls generalizing ok run with
  | nil =>
    refine ⟨[], List.nil_prefix, ?_⟩
    rw [RestoreHost.restored, List.append_nil]
    split
    · split <;> rfl
    · rfl
  | cons call rest ih =>
    by_cases holds : host.holds identity run = true
    · obtain ⟨done, first, performed⟩ := ih (ok && host.outcome call) (run.push call)
      refine ⟨call :: done, List.cons_prefix_cons.mpr ⟨rfl, first⟩, ?_⟩
      rw [restored_cons holds, performed, RestoreRun.push, List.append_assoc]
      rfl
    · refine ⟨[], List.nil_prefix, ?_⟩
      rw [restored_of_lost holds, List.append_nil]
      rfl

/-- A restoration leaves the cache as it is, or forgets what is recorded, or erases the entry. -/
theorem restored_cache (calls : List SetterCall) (ok : Bool) (run : RestoreRun) :
    (host.restored identity calls ok run).cache = run.cache ∨
      (host.restored identity calls ok run).cache = (run.forget identity).cache ∨
      (host.restored identity calls ok run).cache = (run.discard identity).cache := by
  induction calls generalizing ok run with
  | nil =>
    rw [RestoreHost.restored]
    split
    · split
      · exact .inr (.inl rfl)
      · exact .inl rfl
    · exact .inr (.inr rfl)
  | cons call rest ih =>
    by_cases holds : host.holds identity run = true
    · rw [restored_cons holds]
      exact ih (ok && host.outcome call) (run.push call)
    · rw [restored_of_lost holds]
      exact .inr (.inr rfl)

/-! ## Calls -/

section Calls

variable {run : RestoreRun}

/-- An answered call. -/
theorem ends_answer {operation : CallOp} {response : CallSig.Res operation}
    {after : RestoreRun} {post : CallSig.Res operation → RestoreRun → Prop}
    (answered : host.answer run operation = some (response, after))
    (holds : post response after) :
    (Program.op (S := CallSig) operation).Ends host.answer post run :=
  ⟨response, after, answered, holds⟩

/-- The start time of a process is read. -/
theorem ends_getProcessStartTime {use : ReadUse} {pid : Int} {post : Nat → RestoreRun → Prop}
    (holds : post ((host.view run.performed.length).processSeen pid) run) :
    (lift (getProcessStartTime use pid)).Ends host.answer post run := by
  unfold ProcView.processSeen at holds
  by_cases valid : isValidId pid = true
  · rw [if_pos valid] at holds
    rw [getProcessStartTime, if_pos valid]
    exact ends_answer rfl holds
  · rw [if_neg valid] at holds
    rw [getProcessStartTime, if_neg valid]
    exact holds

/-- The start time of a thread is read. -/
theorem ends_getThreadStartTime {use : ReadUse} {pid tid : Int} {post : Nat → RestoreRun → Prop}
    (holds : post ((host.view run.performed.length).threadSeen pid tid) run) :
    (lift (getThreadStartTime use pid tid)).Ends host.answer post run := by
  unfold ProcView.threadSeen at holds
  by_cases valid : (isValidId pid && isValidId tid) = true
  · rw [if_pos valid] at holds
    rw [getThreadStartTime, if_pos valid]
    exact ends_answer rfl holds
  · rw [if_neg valid] at holds
    rw [getThreadStartTime, if_neg valid]
    exact holds

/-- The membership of a thread is read. -/
theorem ends_isThreadInProcess {use : ReadUse} {pid tid : Int} {post : Bool → RestoreRun → Prop}
    (holds : post ((host.view run.performed.length).memberSeen pid tid) run) :
    (lift (isThreadInProcess use pid tid)).Ends host.answer post run := by
  unfold ProcView.memberSeen at holds
  by_cases valid : (isValidId pid && isValidId tid) = true
  · rw [valid, Bool.true_and] at holds
    rw [isThreadInProcess, if_pos valid]
    exact ends_answer rfl holds
  · rw [Bool.not_eq_true] at valid
    rw [valid, Bool.false_and] at holds
    rw [isThreadInProcess, valid]
    exact holds

/-- A check of the identity. -/
theorem ends_identityMatches {use : ReadUse} {post : Bool → RestoreRun → Prop}
    (holds : post (host.holds identity run) run) :
    (lift (identityMatches use identity)).Ends host.answer post run := by
  unfold RestoreHost.holds ProcView.shows at holds
  rw [Environment.lift_identityMatches, Program.ends_bind]
  apply ends_getProcessStartTime
  by_cases sameProcess : (host.view run.performed.length).processSeen identity.pid =
      identity.processStartTime
  · rw [decide_eq_true sameProcess, Bool.true_and] at holds
    rw [if_pos sameProcess, Program.ends_bind]
    apply ends_getThreadStartTime
    by_cases sameThread : (host.view run.performed.length).threadSeen identity.pid identity.tid =
        identity.threadStartTime
    · rw [decide_eq_true sameThread, Bool.true_and] at holds
      rw [if_pos sameThread]
      exact ends_isThreadInProcess holds
    · rw [decide_eq_false sameThread, Bool.false_and] at holds
      rw [if_neg sameThread]
      exact holds
  · rw [decide_eq_false sameProcess, Bool.false_and] at holds
    rw [if_neg sameProcess]
    exact holds

/-- A check of the identity before the rest of a restoration. -/
theorem ends_orDiscard {α : Type} {lost : α} {rest : CallProgram α} {calls : List SetterCall}
    {ok : Bool}
    (continues : host.holds identity run = true →
      rest.Ends host.answer (fun _ after => after = host.restored identity calls ok run) run) :
    (orDiscard identity lost rest).Ends host.answer
      (fun _ after => after = host.restored identity calls ok run) run := by
  rw [orDiscard, Program.ends_bind]
  apply ends_identityMatches
  by_cases holds : host.holds identity run = true
  · rw [if_pos holds]
    exact continues holds
  · rw [if_neg holds, Program.ends_bind]
    apply ends_answer rfl
    exact (restored_of_lost holds calls ok).symm

/-- A program performs one restore operation and returns whether it succeeded. -/
def RestoreHost.Performs (host : RestoreHost) (program : CallProgram Bool) (call : SetterCall) :
    Prop :=
  ∀ (run : RestoreRun) (post : Bool → RestoreRun → Prop),
    post (host.outcome call) (run.push call) → program.Ends host.answer post run

/-- Restoring the cpuctl group. -/
theorem performs_restoreCpuctl (path : Bytes) :
    host.Performs (setterCall (.restoreCpuctlCgroup identity path))
      (.restoreCpuctlCgroup identity path) :=
  fun _ _ holds => ends_answer rfl holds

/-- Restoring the scheduler state. -/
theorem performs_restoreScheduler (scheduler : SchedulerBaseline) :
    host.Performs (setterCall (.restoreScheduler identity scheduler))
      (.restoreScheduler identity scheduler) :=
  fun _ _ holds => ends_answer rfl holds

/-- Restoring the cpuset group. -/
theorem performs_restoreCpuset (path : Bytes) :
    host.Performs (setterCall (.restoreCpusetCgroup identity path))
      (.restoreCpusetCgroup identity path) :=
  fun _ _ holds => ends_answer rfl holds

/-- Restoring the CPUs. -/
theorem performs_restoreAffinity (cpus : List Int) :
    host.Performs (setterCall (.restoreAffinity identity cpus)) (.restoreAffinity identity cpus) :=
  fun _ _ holds => ends_answer rfl holds

variable {α β : Type} {part : Option α} {call : α → SetterCall} {calls : List SetterCall}
  {ok : Bool}

/-- A part that is not recorded has no operations. -/
@[simp] theorem partCalls_none : partCalls (none : Option α) call = [] := rfl

/-- A recorded part has one. -/
@[simp] theorem partCalls_some (value : α) : partCalls (some value) call = [call value] := rfl

/-! ## The restoration of `main` -/

namespace Main

/-- A part is restored before the rest. -/
theorem ends_restorePart {restore : α → CallProgram Bool} {rest : Bool → CallProgram β}
    (performs : ∀ value, host.Performs (restore value) (call value))
    (holds : host.holds identity run = true)
    (continues : ∀ restored after, (rest restored).Ends host.answer
      (fun _ last => last = host.restored identity calls (ok && restored) after) after) :
    (restorePart part restore >>= rest).Ends host.answer
      (fun _ after => after = host.restored identity (partCalls part call ++ calls) ok run)
      run := by
  rw [Program.ends_bind]
  cases part with
  | none =>
    have unchanged := continues true run
    rw [Bool.and_true] at unchanged
    exact unchanged
  | some value =>
    apply performs value
    rw [partCalls_some, List.singleton_append, restored_cons holds]
    exact continues _ _

/-- The cpuctl group is restored before the rest. -/
theorem ends_restoreStoredCpuctl {entry : StoredThreadBaseline} {rest : Bool → CallProgram Bool}
    (holds : host.holds entry.identity run = true)
    (continues : ∀ restored after, (rest restored).Ends host.answer
      (fun _ last => last = host.restored entry.identity calls restored after) after) :
    (restoreStoredCpuctl entry rest).Ends host.answer
      (fun _ after => after = host.restored entry.identity
        (partCalls entry.baseline.cpuctlPath (.restoreCpuctlCgroup entry.identity) ++ calls) true
        run) run := by
  unfold restoreStoredCpuctl
  cases entry.baseline.cpuctlPath with
  | none => exact continues true run
  | some path =>
    apply ends_orDiscard
    intro _
    rw [Program.ends_bind]
    apply performs_restoreCpuctl path
    rw [partCalls_some, List.singleton_append, restored_cons holds, Bool.true_and]
    exact continues _ _

/-- The end of the restoration. -/
theorem ends_finishStored {entry : StoredThreadBaseline} (restored : Bool)
    (holds : host.holds entry.identity run = true) :
    (finishStored entry restored).Ends host.answer
      (fun _ after => after = host.restored entry.identity [] restored run) run := by
  rw [RestoreHost.restored, if_pos holds, finishStored]
  cases restored with
  | false => exact rfl
  | true =>
    rw [if_pos rfl, Program.ends_bind]
    apply ends_answer rfl
    rw [Program.ends_bind]
    apply ends_answer rfl
    rw [Program.ends_bind]
    apply ends_answer rfl
    exact rfl

/-- Restoring a stored baseline is the abstract restoration. -/
theorem ends_restoreStored (entry : StoredThreadBaseline) (run : RestoreRun) :
    (restoreStored entry).Ends host.answer
      (fun _ after => after = host.restored entry.identity
        (entry.baseline.restoreCalls entry.identity) true run) run := by
  rw [restoreStored, ThreadBaseline.restoreCalls]
  apply ends_orDiscard
  intro holds
  apply ends_restoreStoredCpuctl holds
  intro cpuctl run
  apply ends_orDiscard
  intro holds
  apply ends_restorePart performs_restoreScheduler holds
  intro scheduler run
  apply ends_orDiscard
  intro holds
  apply ends_restorePart performs_restoreCpuset holds
  intro cpuset run
  apply ends_orDiscard
  intro holds
  rw [← List.append_nil (partCalls _ _)]
  apply ends_restorePart performs_restoreAffinity holds
  intro affinity run
  apply ends_orDiscard
  intro holds
  exact ends_finishStored _ holds

end Main

/-! ## The restoration of a worker -/

namespace ScanWorker

variable {task : DispatchTask}

/-- A part that has to be recorded is restored between two checks before the rest. What the second
check finds makes no difference to what the restoration leaves. -/
theorem ends_restoreIf {restore : α → CallProgram Bool} {rest : Bool → CallProgram β}
    (performs : ∀ value, host.Performs (restore value) (call value))
    (holds : host.holds task.identity run = true)
    (continues : ∀ restored after, (rest restored).Ends host.answer
      (fun _ last => last = host.restored task.identity calls (ok && restored) after) after) :
    (restoreIf part.isSome (restoreRequired task part restore) >>= rest).Ends host.answer
      (fun _ after => after = host.restored task.identity (partCalls part call ++ calls) ok run)
      run := by
  rw [Program.ends_bind]
  cases part with
  | none =>
    have unchanged := continues true run
    rw [Bool.and_true] at unchanged
    exact unchanged
  | some value =>
    rw [partCalls_some, List.singleton_append, restored_cons holds, restoreIf, Option.isSome_some,
      if_pos rfl, restoreRequired, Program.ends_bind]
    apply ends_identityMatches
    rw [if_pos holds, Program.ends_bind]
    apply performs value
    by_cases succeeded : host.outcome (call value) = true
    · rw [succeeded, if_pos rfl]
      apply ends_identityMatches
      have goesOn := continues (host.holds task.identity (run.push (call value)))
        (run.push (call value))
      by_cases still : host.holds task.identity (run.push (call value)) = true
      · rw [still] at goesOn ⊢
        exact goesOn
      · rw [restored_of_lost still] at goesOn ⊢
        exact goesOn
    · rw [Bool.not_eq_true] at succeeded
      rw [succeeded]
      exact continues false _

/-- A part is restored after a check before the rest. -/
theorem ends_restoreGuarded {restore : α → CallProgram Bool} {rest : Option Bool → CallProgram β}
    (performs : ∀ value, host.Performs (restore value) (call value))
    (continues : ∀ found after, (found = none → ¬ host.holds task.identity after = true) →
      (rest found).Ends host.answer
        (fun _ last => last = host.restored task.identity calls (ok && found.getD false) after)
        after) :
    (restoreGuarded task part restore >>= rest).Ends host.answer
      (fun _ after => after = host.restored task.identity (partCalls part call ++ calls) ok run)
      run := by
  rw [Program.ends_bind]
  cases part with
  | none =>
    have unchanged := continues (some true) run fun absent => absurd absent (Option.some_ne_none _)
    rw [Option.getD_some, Bool.and_true] at unchanged
    exact unchanged
  | some value =>
    rw [partCalls_some, List.singleton_append, restoreGuarded, Program.ends_bind]
    apply ends_identityMatches
    by_cases holds : host.holds task.identity run = true
    · rw [if_pos holds, Program.ends_bind, restored_cons holds]
      apply performs value
      exact continues (some _) _ fun absent => absurd absent (Option.some_ne_none _)
    · have lost := continues none run fun _ => holds
      rw [restored_of_lost holds] at lost
      rw [if_neg holds, restored_of_lost holds]
      exact lost

/-- The cpuset group and the CPUs are restored before the end. -/
theorem ends_restoreAffinityBaseline {baseline : ThreadBaseline} {rest : Bool → CallProgram β}
    (continues : ∀ restored after, (rest restored).Ends host.answer
      (fun _ last => last = host.restored task.identity [] (ok && restored) after) after) :
    (restoreAffinityBaseline task baseline >>= rest).Ends host.answer
      (fun _ after => after = host.restored task.identity
        (partCalls baseline.cpusetPath (.restoreCpusetCgroup task.identity) ++
          partCalls baseline.affinity (.restoreAffinity task.identity)) ok run) run := by
  rw [restoreAffinityBaseline, Program.bind_assoc]
  apply ends_restoreGuarded performs_restoreCpuset
  intro moved middle absent
  cases moved with
  | none =>
    have goesOn := continues false middle
    rw [restored_of_lost (absent rfl)] at goesOn ⊢
    exact goesOn
  | some moved =>
    rw [Option.getD_some, ← List.append_nil (partCalls baseline.affinity _)]
    dsimp only
    rw [Program.bind_assoc]
    apply ends_restoreGuarded performs_restoreAffinity
    intro pinned after absent
    cases pinned with
    | none =>
      have goesOn := continues false after
      rw [restored_of_lost (absent rfl)] at goesOn ⊢
      exact goesOn
    | some pinned =>
      rw [Option.getD_some, Bool.and_assoc]
      by_cases both : (moved && pinned) = true
      · have goesOn := continues (host.holds task.identity after) after
        dsimp only
        rw [if_pos both, Program.ends_bind]
        apply ends_identityMatches
        by_cases holds : host.holds task.identity after = true
        · rw [both]
          rw [holds] at goesOn ⊢
          exact goesOn
        · rw [restored_of_lost holds] at goesOn ⊢
          exact goesOn
      · rw [Bool.not_eq_true] at both
        dsimp only
        rw [both]
        exact continues false after

/-- The end of the restoration. -/
theorem ends_finishRestoration (restored : Bool) (holds : host.holds task.identity run = true) :
    (finishRestoration task restored).Ends host.answer
      (fun _ after => after = host.restored task.identity [] restored run) run := by
  rw [RestoreHost.restored, if_pos holds, finishRestoration]
  cases restored with
  | false => exact rfl
  | true =>
    rw [if_pos rfl, Program.ends_bind]
    apply ends_answer rfl
    rw [Program.ends_bind]
    apply ends_answer rfl
    rw [Program.ends_bind]
    apply ends_answer rfl
    exact rfl

/-- Restoring a recorded baseline is the abstract restoration. -/
theorem ends_restoreRecorded (task : DispatchTask) (baseline : ThreadBaseline)
    (run : RestoreRun) :
    (restoreRecorded task baseline).Ends host.answer
      (fun _ after => after = host.restored task.identity
        (baseline.restoreCalls task.identity) true run) run := by
  rw [restoreRecorded, ThreadBaseline.restoreCalls]
  apply ends_orDiscard
  intro holds
  apply ends_restoreIf performs_restoreCpuctl holds
  intro cpuctl run
  apply ends_orDiscard
  intro holds
  apply ends_restoreIf performs_restoreScheduler holds
  intro scheduler run
  apply ends_orDiscard
  intro _
  apply ends_restoreAffinityBaseline
  intro affinity run
  apply ends_orDiscard
  intro holds
  exact ends_finishRestoration _ holds

end ScanWorker

end Calls

/-! ## Agreement -/

/-- A cache with one entry, under the key of its identity. -/
def ThreadCache.only (entry : ThreadCacheEntry) : ThreadCache :=
  AList.singleton entry.identity.key entry

/-- An entry of which nothing recorded remains. -/
def ThreadCacheEntry.forgotten (entry : ThreadCacheEntry) : ThreadCacheEntry :=
  { entry with baseline := none, appliedResult := none, managedComponents := {} }

namespace ThreadCache

/-- The entry is stored. -/
theorem lookup_only (entry : ThreadCacheEntry) :
    (only entry).lookup entry.identity.key = some entry := by
  rw [only, ← AList.insert_empty]
  exact AList.lookup_insert _

/-- Changing the entry. -/
theorem adjust_only (entry : ThreadCacheEntry) (change : ThreadCacheEntry → ThreadCacheEntry)
    (same : (change entry).identity = entry.identity) :
    Table.adjust change entry.identity.key (only entry) = only (change entry) := by
  rw [Table.adjust, lookup_only]
  dsimp only
  rw [only, AList.insert_singleton_eq, only, same]

/-- Erasing the entry. -/
theorem eraseThreadIfIdentity_only (entry : ThreadCacheEntry) :
    (only entry).eraseThreadIfIdentity entry.identity = ∅ := by
  rw [eraseThreadIfIdentity, lookup_only]
  dsimp only
  have erased : List.kerase entry.identity.key
      [(⟨entry.identity.key, entry⟩ : Sigma fun _ : CacheKey => ThreadCacheEntry)] = [] :=
    List.kerase_cons_eq rfl
  rw [if_pos rfl]
  exact AList.ext erased

/-- Forgetting everything recorded. -/
theorem forget_only (entry : ThreadCacheEntry) :
    (((only entry).clearBaseline entry.identity.key).clearAppliedResult
      entry.identity.key).clearManagedComponents entry.identity.key = only entry.forgotten := by
  have first : (only entry).clearBaseline entry.identity.key =
      only { entry with baseline := none } := adjust_only entry _ rfl
  have second : (only { entry with baseline := none }).clearAppliedResult entry.identity.key =
      only { entry with baseline := none, appliedResult := none } :=
    adjust_only { entry with baseline := none } _ rfl
  have third : (only { entry with baseline := none, appliedResult := none }).clearManagedComponents
      entry.identity.key = only entry.forgotten :=
    adjust_only { entry with baseline := none, appliedResult := none } _ rfl
  rw [first, second, third]

/-- Reading the baselines. -/
theorem getAllBaselines_only {entry : ThreadCacheEntry} {baseline : ThreadBaseline}
    (recorded : entry.baseline = some baseline) :
    (only entry).getAllBaselines = [⟨entry.identity, baseline⟩] := by
  rw [getAllBaselines, only, Table.toPairs, AList.singleton_entries]
  simp [recorded]

end ThreadCache

/-- What a restoration leaves of a cache with one entry. -/
theorem restored_only (entry : ThreadCacheEntry) (calls : List SetterCall)
    (performed : List SetterCall) :
    (host.restored entry.identity calls true ⟨performed, .only entry⟩).cache = ∅ ∨
      (host.restored entry.identity calls true ⟨performed, .only entry⟩).cache =
        .only entry.forgotten ∨
      (host.restored entry.identity calls true ⟨performed, .only entry⟩).cache = .only entry := by
  have forgotten : (RestoreRun.forget ⟨performed, .only entry⟩ entry.identity).cache =
      .only entry.forgotten := ThreadCache.forget_only entry
  have discarded : (RestoreRun.discard ⟨performed, .only entry⟩ entry.identity).cache = ∅ :=
    ThreadCache.eraseThreadIfIdentity_only entry
  rcases @restored_cache host entry.identity calls true
    ⟨performed, .only entry⟩ with kept | cleared | erased
  · exact .inr (.inr kept)
  · exact .inr (.inl (cleared.trans forgotten))
  · exact .inl (erased.trans discarded)

/-- The two restorations of an entry perform the same operations in the same order, a first part of
those its baseline asks for, and leave the same cache: without the entry, with nothing recorded in
it, or with the entry as it was. -/
theorem restorations_agree (host : RestoreHost) {entry : ThreadCacheEntry}
    {baseline : ThreadBaseline} {task : DispatchTask} (recorded : entry.baseline = some baseline)
    (same : task.identity = entry.identity) :
    ∃ outcome allRestored after,
      (ScanWorker.restoreBaseline task).exec host.answer ⟨[], .only entry⟩ =
        some (outcome, after) ∧
      Main.restoreAllThreadBaselines.exec host.answer ⟨[], .only entry⟩ =
        some (allRestored, after) ∧
      after.performed <+: baseline.restoreCalls entry.identity ∧
      (after.cache = ∅ ∨ after.cache = .only entry.forgotten ∨ after.cache = .only entry) := by
  have worker : (ScanWorker.restoreBaseline task).Ends host.answer
      (fun _ after => after = host.restored entry.identity
        (baseline.restoreCalls entry.identity) true ⟨[], .only entry⟩) ⟨[], .only entry⟩ := by
    have stored : (ThreadCache.only entry).getBaseline task.identity.key = some baseline := by
      rw [ThreadCache.getBaseline, same, ThreadCache.lookup_only, Option.bind_some, recorded]
    rw [ScanWorker.restoreBaseline, Program.ends_bind, ← same]
    refine ends_answer rfl ?_
    dsimp only [CacheCall.run]
    rw [stored]
    exact ScanWorker.ends_restoreRecorded task baseline _
  have main : Main.restoreAllThreadBaselines.Ends host.answer
      (fun _ after => after = host.restored entry.identity
        (baseline.restoreCalls entry.identity) true ⟨[], .only entry⟩) ⟨[], .only entry⟩ := by
    rw [Main.restoreAllThreadBaselines, Program.ends_bind]
    refine ends_answer rfl ?_
    dsimp only [CacheCall.run]
    rw [ThreadCache.getAllBaselines_only recorded, Main.restoreEach, Program.ends_bind]
    refine Program.ends_mono (Main.ends_restoreStored _ _) fun _ after reached => ?_
    exact reached
  obtain ⟨outcome, after, workerRun, rfl⟩ := Program.ends_iff_exec.mp worker
  obtain ⟨allRestored, _, mainRun, rfl⟩ := Program.ends_iff_exec.mp main
  obtain ⟨done, first, performed⟩ := @restored_performed host entry.identity
    (baseline.restoreCalls entry.identity) true ⟨[], .only entry⟩
  refine ⟨outcome, allRestored, _, workerRun, mainRun, ?_, restored_only entry _ _⟩
  rw [performed]
  exact first

/-- An entry with two recorded parts. -/
def recordedEntry : ThreadCacheEntry where
  identity := ⟨7, 8, 1, 2⟩
  threadName := []
  cmdline := []
  actualState := .fg
  result := { effectiveState := .fg }
  cpusetBase := []
  cpuctlBase := []
  baseline := some { scheduler := some ⟨0, 0, 5⟩, affinity := some [0, 1] }

/-- A task for its thread. -/
def recordedTask : DispatchTask := ⟨recordedEntry.identity, [], .fg, [], [], []⟩

/-- The identity is lost after the first operation. -/
def lossyHost : RestoreHost where
  view performed := ⟨fun _ => if performed = 0 then 1 else 0, fun _ _ => 2, fun _ _ => true⟩
  outcome _ := true

theorem restorations_agree_lossy :
    ∃ after,
      ((ScanWorker.restoreBaseline recordedTask).exec lossyHost.answer
        ⟨[], .only recordedEntry⟩).map Prod.snd = some after ∧
      (Main.restoreAllThreadBaselines.exec lossyHost.answer
        ⟨[], .only recordedEntry⟩).map Prod.snd = some after := by
  obtain ⟨outcome, allRestored, after, worker, main, -⟩ :=
    @restorations_agree lossyHost recordedEntry _ recordedTask rfl rfl
  exact ⟨after, by rw [worker]; rfl, by rw [main]; rfl⟩

end ReUperf
