import ReUperf.Core.CgroupInit
import ReUperf.Scheduler.GroupPaths
import ReUperf.Verif.AcceptedConfig
import ReUperf.Verif.MatchCache

/-!
# Agreement on the groups

The matcher, the setters, the drift check and the initialiser each compute the names of
groups on their own. This module relates them: what a match result says about its source in
the configuration, what a successful initialisation has created, and that the paths computed
from the two are the same.
-/

namespace ReUperf

open Effect

variable {engine : RegexEngine}

/-! ## The source of a result -/

/-- A compiled thread rule stands at its source index in the configured rule. -/
theorem compileThreadRule_source {ignoreCase : Bool} {rule : ThreadRule} {index : Nat}
    {compiled : CompiledThreadRule engine}
    (compiles : compileThreadRule engine ignoreCase rule index = some compiled) :
    compiled.rule = rule ∧ compiled.sourceRuleIndex = index := by
  unfold compileThreadRule at compiles
  dsimp only at compiles
  split at compiles
  · obtain rfl := Option.some.inj compiles
    exact ⟨rfl, rfl⟩
  · split at compiles
    · simp at compiles
    · obtain ⟨pattern, _, rfl⟩ := Option.map_eq_some_iff.mp compiles
      exact ⟨rfl, rfl⟩

/-- A compiled process rule keeps the configured rule, and its thread rules keep their place. -/
theorem compileProcessRule_source {ignoreCase : Bool} {launcher : Bytes} {rule : ProcessRule}
    {compiled : CompiledProcessRule engine}
    (compiles : compileProcessRule engine ignoreCase launcher rule = some compiled) :
    compiled.rule = rule ∧ ∀ threadRule ∈ compiled.threadRules,
      rule.threadRules[threadRule.sourceRuleIndex]? = some threadRule.rule := by
  unfold compileProcessRule at compiles
  dsimp only at compiles
  split at compiles
  · simp at compiles
  · obtain ⟨pattern, _, rfl⟩ := Option.map_eq_some_iff.mp compiles
    refine ⟨rfl, fun threadRule member => ?_⟩
    obtain ⟨indexed, listed, compiledRule⟩ := List.mem_filterMap.mp member
    obtain ⟨sameRule, sameIndex⟩ := compileThreadRule_source compiledRule
    rw [sameRule, sameIndex]
    exact List.mem_zipIdx_iff_getElem?.mp listed

/-- What a result with a thread rule says: the rule and the thread rule it comes from. -/
structure MatchResult.ComesFrom (result : MatchResult) (config : Config) (rule : ProcessRule)
    (threadRule : ThreadRule) (index : Nat) : Prop where
  /-- The rule is configured. -/
  rule_mem : rule ∈ config.sched.rules
  /-- The thread rule has that index in the rule. -/
  threadRule_at : rule.threadRules[index]? = some threadRule
  /-- The result names the rule. -/
  rule_name : result.matchedRuleName = rule.name
  /-- The result has the index. -/
  rule_index : result.threadRuleIndex = index
  /-- The result has the affinity class of the thread rule. -/
  affinity_class : result.affinityClass = threadRule.affinityClass
  /-- The result has the limit flag of the thread rule. -/
  enable_limit : result.enableLimit = threadRule.enableLimit
  /-- The result has the utilisation clamp of the thread rule. -/
  uclamp_max : result.uclampMax = threadRule.uclampMax
  /-- The result has the CPU share of the thread rule. -/
  cpu_share : result.cpuShare = threadRule.cpuShare
  /-- The mask name is the one of the affinity class in the effective state. -/
  cpumask_name : result.cpumaskName =
    config.sched.getCpumaskNameForAffinity result.affinityClass result.effectiveState

/-- A result manages neither affinity nor limits, or it comes from a thread rule. -/
theorem search_source (config : Config) (args : MatchArgs) :
    let result := (ThreadMatcher.ofConfig engine config).search args
    (hasResolvedAffinity result = false ∧ result.enableLimit = false) ∨
      ∃ rule threadRule index, result.ComesFrom config rule threadRule index := by
  intro result
  cases found : (ThreadMatcher.ofConfig engine config).compiledRules.find? (·.accepts args) with
  | none =>
    left
    simp [result, ThreadMatcher.search, found, hasResolvedAffinity]
  | some compiled =>
    have value : result = compiled.result config.sched args := by
      simp only [result, ThreadMatcher.search, found]
      rfl
    obtain ⟨rule, member, compiles⟩ := List.mem_filterMap.mp (List.mem_of_find?_eq_some found)
    obtain ⟨same, places⟩ := compileProcessRule_source compiles
    subst same
    cases chosen : compiled.threadRules.find? (·.accepts args) with
    | none =>
      left
      simp [value, CompiledProcessRule.result, chosen, MatchResult.withThreadRule,
        MatchResult.withCpumask, hasResolvedAffinity]
    | some threadRule =>
      right
      refine ⟨compiled.rule, threadRule.rule, threadRule.sourceRuleIndex, member,
        places _ (List.mem_of_find?_eq_some chosen), ?_, ?_, ?_, ?_, ?_, ?_, ?_⟩ <;>
        simp [value, CompiledProcessRule.result, chosen, MatchResult.withThreadRule,
          MatchResult.withCpumask]

/-- A result of a sequence of calls is the result of a search, or that of an unreadable
process. -/
theorem mem_matchCalls {matcher : ThreadMatcher engine} {host : HashHost}
    {rest calls : List (MatchCall × CallTimes)} {cache : ProcessCache}
    (recorded : Recorded matcher calls cache) {result : MatchResult}
    (member : result ∈ matcher.matchCalls host rest cache) :
    (∃ state, result = { effectiveState := state }) ∨ ∃ args, result = matcher.search args := by
  induction rest generalizing calls cache with
  | nil => simp [ThreadMatcher.matchCalls] at member
  | cons call rest ih =>
    rcases List.mem_cons.mp member with rfl | later
    · unfold ThreadMatcher.matchImpl
      dsimp only
      split
      · exact .inl ⟨_, rfl⟩
      · split
        · rename_i cached after found
          have answered : (ProcessCache.getCachedProcessResult host
              matcher.config.sched.timing.processCacheTtlMs call.1.args.cacheKey call.2.looked
                cache).1 = some cached := by
            rw [found]
          obtain ⟨earlier, _, _, matched, rfl⟩ :=
            recorded _ _ (ProcessCache.holds_of_getCachedProcessResult answered).1
          exact .inr ⟨earlier.1.args, toResult_toCacheEntry matched _⟩
        · split <;> exact .inr ⟨_, rfl⟩
    · exact ih (recorded.matchImpl call) later

/-- A returned result manages neither affinity nor limits, or it comes from a thread rule. -/
theorem matchCalls_source {config : Config} {host : HashHost}
    {calls : List (MatchCall × CallTimes)} {result : MatchResult}
    (returned : result ∈ (ThreadMatcher.ofConfig engine config).matchCalls host calls .empty) :
    (hasResolvedAffinity result = false ∧ result.enableLimit = false) ∨
      ∃ rule threadRule index, result.ComesFrom config rule threadRule index := by
  rcases mem_matchCalls (recorded_empty _) returned with ⟨state, rfl⟩ | ⟨args, rfl⟩
  · exact .inl (by simp [hasResolvedAffinity])
  · exact search_source config args

/-! ## Traces of a successful initialisation -/

/-- The directory exists after the calls of the trace. -/
def DirectoryPresent (path : Bytes) (trace : List (Event FileSig)) : Prop :=
  ⟨.dirExists path, true⟩ ∈ trace ∨ ⟨.mkdir path, true⟩ ∈ trace

/-- The file was written with the content. -/
def FileWritten (path content : Bytes) (trace : List (Event FileSig)) : Prop :=
  ⟨.writeKernelControlFile path content, true⟩ ∈ trace

/-- A longer trace has the directory too. -/
theorem DirectoryPresent.mono {path : Bytes} {trace longer : List (Event FileSig)}
    (present : DirectoryPresent path trace) (subset : trace ⊆ longer) :
    DirectoryPresent path longer :=
  present.imp (@subset _) (@subset _)

namespace FileUtils

/-- A directory is present when it existed or was made. -/
theorem directoryPresent_of_mkdirUnlessExists {path : Bytes} {trace : List (Event FileSig)}
    (made : (mkdirUnlessExists path).Produces trace true) : DirectoryPresent path trace := by
  obtain ⟨_, found, second, rfl, asked, later⟩ := Program.produces_bind.mp made
  obtain rfl := Program.produces_op.mp asked
  cases found with
  | true => exact .inl (by simp)
  | false =>
    obtain rfl := Program.produces_op.mp later
    exact .inr (by simp)

/-- A directory is present after it was made with its ancestors. -/
theorem directoryPresent_of_mkdirRecursive {path : Bytes} {trace : List (Event FileSig)}
    (made : (mkdirRecursive path).Produces trace true) : DirectoryPresent path trace := by
  obtain ⟨_, found, second, rfl, asked, later⟩ := Program.produces_bind.mp made
  obtain rfl := Program.produces_op.mp asked
  cases found with
  | true => exact .inl (by simp)
  | false =>
    obtain ⟨first, parents, third, rfl, _, last⟩ := Program.produces_bind.mp later
    cases parents with
    | true =>
      exact (directoryPresent_of_mkdirUnlessExists last).mono fun event member => by simp [member]
    | false => simp at last

end FileUtils

namespace ControlFileTransaction

/-- A successful write wrote its value. -/
theorem fileWritten_of_write {transaction after : ControlFileTransaction} {path value : Bytes}
    {rollbackRequired : Bool} {trace : List (Event FileSig)}
    (wrote : (transaction.write path value rollbackRequired).Produces trace (true, after)) :
    FileWritten path value trace := by
  have plain : ∀ {result : ControlFileTransaction} {trace : List (Event FileSig)},
      (do
        let written ← FileUtils.writeKernelControlFile path value
        pure (written, result) : FileProgram _).Produces trace (true, after) →
      FileWritten path value trace := by
    intro result trace wrote
    obtain ⟨_, written, second, rfl, asked, last⟩ := Program.produces_bind.mp wrote
    obtain rfl := Program.produces_op.mp asked
    obtain ⟨rfl, same⟩ := Program.produces_pure.mp last
    obtain rfl := (Prod.mk.inj same).1
    simp [FileWritten]
  unfold write at wrote
  split at wrote
  · obtain ⟨first, original, second, rfl, _, later⟩ := Program.produces_bind.mp wrote
    split at later
    · simp at later
    · exact List.mem_append_right _ (plain later)
  · exact plain wrote

end ControlFileTransaction

namespace CgroupInitializer

/-- A guarded step succeeds after its check passed. -/
theorem produces_orFail {check : FileProgram Bool} {transaction after : ControlFileTransaction}
    {rest : FileProgram (Bool × ControlFileTransaction)} {trace : List (Event FileSig)}
    (succeeded : (orFail check transaction rest).Produces trace (true, after)) :
    ∃ first second, trace = first ++ second ∧ check.Produces first true ∧
      rest.Produces second (true, after) := by
  obtain ⟨first, passed, second, rfl, asked, later⟩ := Program.produces_bind.mp succeeded
  cases passed with
  | true => exact ⟨first, second, rfl, asked, later⟩
  | false => simp at later

/-- A step after a write succeeds after the write did. -/
theorem produces_writeOrFail {transaction after : ControlFileTransaction} {path value : Bytes}
    {rollbackRequired : Bool}
    {rest : ControlFileTransaction → FileProgram (Bool × ControlFileTransaction)}
    {trace : List (Event FileSig)}
    (succeeded :
      (writeOrFail transaction path value rollbackRequired rest).Produces trace (true, after)) :
    ∃ first middle second, trace = first ++ second ∧ FileWritten path value first ∧
      (rest middle).Produces second (true, after) := by
  obtain ⟨first, ⟨written, middle⟩, second, rfl, asked, later⟩ := Program.produces_bind.mp succeeded
  cases written with
  | true =>
    exact ⟨first, middle, second, rfl, ControlFileTransaction.fileWritten_of_write asked, later⟩
  | false => simp at later

/-- A loop without failures ran every step successfully. -/
theorem produces_forEach {α : Type}
    {step : α → ControlFileTransaction → FileProgram (Bool × ControlFileTransaction)}
    {elements : List α} {transaction after : ControlFileTransaction}
    {trace : List (Event FileSig)}
    (succeeded : (forEach step elements transaction).Produces trace (0, after)) :
    ∀ element ∈ elements, ∃ before middle part, part ⊆ trace ∧
      (step element before).Produces part (true, middle) := by
  induction elements generalizing transaction trace with
  | nil => simp
  | cons head rest ih =>
    obtain ⟨first, ⟨done, middle⟩, second, rfl, stepped, later⟩ :=
      Program.produces_bind.mp succeeded
    obtain ⟨third, ⟨failed, last⟩, fourth, rfl, looped, ended⟩ := Program.produces_bind.mp later
    obtain ⟨rfl, same⟩ := Program.produces_pure.mp ended
    obtain ⟨counted, rfl⟩ := Prod.mk.inj same
    have noneFailed : failed = 0 := by omega
    have succeeded : done = true := by
      by_contra unsuccessful
      rw [if_neg unsuccessful] at counted
      omega
    subst noneFailed succeeded
    intro element member
    rcases List.mem_cons.mp member with rfl | member
    · exact ⟨transaction, middle, first, by simp, stepped⟩
    · obtain ⟨before, middle, part, subset, ran⟩ := ih looped element member
      exact ⟨before, middle, part, fun event inPart => by simp [subset inPart], ran⟩

/-- A loop whose success is the absence of failures ran every step successfully. -/
theorem produces_forEach_success {α : Type}
    {step : α → ControlFileTransaction → FileProgram (Bool × ControlFileTransaction)}
    {elements : List α} {transaction after : ControlFileTransaction}
    {trace : List (Event FileSig)}
    (succeeded : (do
      let (failed, transaction) ← forEach step elements transaction
      pure (decide (failed = 0), transaction) : FileProgram _).Produces trace (true, after)) :
    ∀ element ∈ elements, ∃ before middle part, part ⊆ trace ∧
      (step element before).Produces part (true, middle) := by
  obtain ⟨first, ⟨failed, last⟩, second, rfl, looped, ended⟩ := Program.produces_bind.mp succeeded
  obtain ⟨rfl, same⟩ := Program.produces_pure.mp ended
  obtain ⟨counted, rfl⟩ := Prod.mk.inj same
  obtain rfl := of_decide_eq_true counted.symm
  simpa using produces_forEach looped

/-- A group configured successfully has its directory and its CPU list. -/
theorem initCpusetGroup_spec {parentMems : Bytes} {cpumask : Bytes × List Int}
    {transaction after : ControlFileTransaction} {trace : List (Event FileSig)}
    (succeeded : (initCpusetGroup parentMems cpumask transaction).Produces trace (true, after)) :
    DirectoryPresent (cpusetGroupPath cpumask.1) trace ∧
      FileWritten (cpusetGroupPath cpumask.1 ++ Bytes.ascii "/cpus") (cpuMaskToString cpumask.2)
        trace := by
  obtain ⟨ready, wasReady, rest, rfl, _, succeeded⟩ := Program.produces_bind.mp succeeded
  obtain ⟨made, rest, rfl, madeGroup, succeeded⟩ := produces_orFail succeeded
  obtain ⟨cpus, rest, rfl, _, succeeded⟩ := produces_orFail succeeded
  obtain ⟨mems, rest, rfl, _, succeeded⟩ := produces_orFail succeeded
  obtain ⟨tasks, rest, rfl, _, succeeded⟩ := produces_orFail succeeded
  obtain ⟨nonempty, rest, rfl, _, succeeded⟩ := produces_orFail succeeded
  obtain ⟨first, middle, rest, rfl, written, _⟩ := produces_writeOrFail succeeded
  exact ⟨(FileUtils.directoryPresent_of_mkdirRecursive madeGroup).mono fun event member => by
    simp [member], by simp [FileWritten] at written ⊢; simp [written]⟩

/-- A successful initialisation of a configuration with affinity rules has every cpuset group. -/
theorem initCpuset_spec {config : Config} {transaction after : ControlFileTransaction}
    {trace : List (Event FileSig)} (required : requiresCpuset config = true)
    (succeeded : (initCpuset config transaction).Produces trace (true, after))
    {name : Bytes} {cpus : List Int} (stored : config.sched.cpumask.lookup name = some cpus) :
    DirectoryPresent (cpusetGroupPath name) trace ∧
      FileWritten (cpusetGroupPath name ++ Bytes.ascii "/cpus") (cpuMaskToString cpus) trace := by
  rw [initCpuset, if_pos required] at succeeded
  obtain ⟨mount, rest, rfl, _, succeeded⟩ := produces_orFail succeeded
  obtain ⟨parent, rest, rfl, _, succeeded⟩ := produces_orFail succeeded
  obtain ⟨file, rest, rfl, _, succeeded⟩ := produces_orFail succeeded
  obtain ⟨read, parentCpus, rest, rfl, _, succeeded⟩ := Program.produces_bind.mp succeeded
  obtain ⟨nonempty, rest, rfl, _, succeeded⟩ := produces_orFail succeeded
  obtain ⟨readMems, parentMems, rest, rfl, _, succeeded⟩ := Program.produces_bind.mp succeeded
  obtain ⟨nonemptyMems, rest, rfl, _, succeeded⟩ := produces_orFail succeeded
  obtain ⟨before, middle, part, subset, configured⟩ :=
    produces_forEach_success succeeded (name, cpus) (Table.mem_inOrder.mpr stored)
  obtain ⟨present, written⟩ := initCpusetGroup_spec configured
  exact ⟨present.mono fun event member => by simp [subset member],
    by have := subset written; simp [FileWritten, this]⟩

/-- The limit file has the configured value, if there is one. -/
def LimitWritten (childPath filename : Bytes) (configured : Option Int)
    (trace : List (Event FileSig)) : Prop :=
  ∀ value, configured = some value →
    FileWritten (childPath ++ Bytes.ascii "/" ++ filename) (Bytes.decimal value) trace

/-- A limit set successfully has the configured value. -/
theorem writeOptionalLimit_spec {transaction after : ControlFileTransaction}
    {childPath parentPath filename : Bytes} {configured : Option Int}
    {trace : List (Event FileSig)}
    (succeeded : (writeOptionalLimit transaction childPath parentPath filename
      configured).Produces trace (true, after)) :
    LimitWritten childPath filename configured trace := by
  rintro value rfl
  obtain ⟨first, present, second, rfl, _, later⟩ := Program.produces_bind.mp succeeded
  cases present with
  | true =>
    exact List.mem_append_right _ (ControlFileTransaction.fileWritten_of_write later)
  | false => simp at later

/-- A limit-enabled thread rule configured successfully has its group and its limits. -/
theorem initCpuctlSubGroup_spec {rule : ProcessRule} {threadRule : ThreadRule} {index : Nat}
    {transaction after : ControlFileTransaction} {trace : List (Event FileSig)}
    (limited : threadRule.enableLimit = true)
    (succeeded :
      (initCpuctlSubGroup rule (threadRule, index) transaction).Produces trace (true, after)) :
    DirectoryPresent (subPath rule.name index) trace ∧
      LimitWritten (subPath rule.name index) (Bytes.ascii "cpu.uclamp.max") threadRule.uclampMax
        trace ∧
      LimitWritten (subPath rule.name index) (Bytes.ascii "cpu.shares") threadRule.cpuShare
        trace := by
  rw [initCpuctlSubGroup, if_pos limited] at succeeded
  obtain ⟨made, rest, rfl, madeGroup, succeeded⟩ := produces_orFail succeeded
  obtain ⟨first, ⟨clamped, middle⟩, rest, rfl, clamp, succeeded⟩ :=
    Program.produces_bind.mp succeeded
  obtain ⟨second, ⟨shared, last⟩, rest, rfl, share, succeeded⟩ :=
    Program.produces_bind.mp succeeded
  obtain ⟨rfl, same⟩ := Program.produces_pure.mp succeeded
  obtain ⟨both, rfl⟩ := Prod.mk.inj same
  obtain ⟨rfl, rfl⟩ := (Bool.and_eq_true _ _).mp both.symm
  refine ⟨(FileUtils.directoryPresent_of_mkdirRecursive madeGroup).mono fun event member => by
    simp [member], fun value set => ?_, fun value set => ?_⟩
  · have := writeOptionalLimit_spec clamp value set
    simp only [FileWritten] at this ⊢
    simp [this]
  · have := writeOptionalLimit_spec share value set
    simp only [FileWritten] at this ⊢
    simp [this]

/-- A successful initialisation of a configuration with limits has the group of every
limit-enabled thread rule. -/
theorem initCpuctl_spec {config : Config} {transaction after : ControlFileTransaction}
    {trace : List (Event FileSig)} (required : requiresCpuctl config = true)
    (succeeded : (initCpuctl config transaction).Produces trace (true, after))
    {rule : ProcessRule} (member : rule ∈ config.sched.rules) {threadRule : ThreadRule}
    {index : Nat} (place : rule.threadRules[index]? = some threadRule)
    (limited : threadRule.enableLimit = true) :
    DirectoryPresent (subPath rule.name index) trace ∧
      LimitWritten (subPath rule.name index) (Bytes.ascii "cpu.uclamp.max") threadRule.uclampMax
        trace ∧
      LimitWritten (subPath rule.name index) (Bytes.ascii "cpu.shares") threadRule.cpuShare
        trace := by
  rw [initCpuctl, if_pos required] at succeeded
  obtain ⟨mount, rest, rfl, _, succeeded⟩ := produces_orFail succeeded
  obtain ⟨made, rest, rfl, _, succeeded⟩ := produces_orFail succeeded
  obtain ⟨before, middle, part, subset, ruleDone⟩ := produces_forEach_success succeeded rule member
  obtain ⟨madeRule, inner, rfl, _, ruleDone⟩ := produces_orFail ruleDone
  obtain ⟨start, done, sub, subsetSub, configured⟩ := produces_forEach_success ruleDone
    (threadRule, index) (List.mem_zipIdx_iff_getElem?.mpr place)
  obtain ⟨present, clamped, shared⟩ := initCpuctlSubGroup_spec limited configured
  have widen : sub ⊆ mount ++ (made ++ rest) := fun event inSub => by
    simp [subset (List.mem_append_right _ (subsetSub inSub))]
  exact ⟨present.mono widen, fun value set => widen (clamped value set),
    fun value set => widen (shared value set)⟩

/-- A successful initialisation initialised both controllers. -/
theorem init_spec {config : Config} {trace : List (Event FileSig)}
    (succeeded : (init config).Produces trace true) :
    ∃ first middle second after, trace = first ++ second ∧
      (initCpuset config {}).Produces first (true, middle) ∧
      (initCpuctl config middle).Produces second (true, after) := by
  obtain ⟨both, ⟨ready, after⟩, rest, rfl, controllers, later⟩ := Program.produces_bind.mp succeeded
  cases ready with
  | true =>
    obtain ⟨rfl, _⟩ := Program.produces_pure.mp later
    obtain ⟨first, ⟨cpusetReady, middle⟩, second, rfl, cpuset, cpuctl⟩ :=
      Program.produces_bind.mp controllers
    cases cpusetReady with
    | true => exact ⟨first, middle, second, after, by simp, cpuset, cpuctl⟩
    | false => simp at cpuctl
  | false =>
    obtain ⟨_, _, _, _, _, last⟩ := Program.produces_bind.mp later
    simp at last

end CgroupInitializer

/-! ## Paths -/

/-- A thread rule's group is determined by its rule's name and its index, when names have no
slash. -/
theorem subPath_inj {left right : Bytes} {first second : Nat} (leftName : 47 ∉ left)
    (rightName : 47 ∉ right)
    (same : CgroupInitializer.subPath left first = CgroupInitializer.subPath right second) :
    left = right ∧ first = second := by
  have separator : Bytes.ascii "/A" = [47, 65] := rfl
  simp only [CgroupInitializer.subPath, CgroupInitializer.rulePath, List.append_assoc,
    List.append_cancel_left_eq, separator, List.cons_append, List.nil_append] at same
  obtain ⟨name, rest⟩ := Bytes.append_separator_inj leftName rightName same
  simp only [List.cons.injEq, true_and] at rest
  exact ⟨name, by have := Bytes.natural_injective rest; omega⟩

/-- The setter's group of a result is the initialiser's group of its thread rule. -/
theorem MatchResult.ComesFrom.targetPath {result : MatchResult} {config : Config}
    {rule : ProcessRule} {threadRule : ThreadRule} {index : Nat}
    (source : result.ComesFrom config rule threadRule index) :
    CpuctlSetter.targetPath result = CgroupInitializer.subPath rule.name index := by
  have number : Bytes.decimal (result.threadRuleIndex + 1) = Bytes.natural (index + 1) := by
    rw [source.rule_index]
    exact Bytes.decimal_ofNat (index + 1)
  have parent : Bytes.ascii "/dev/cpuctl/ReUperf/" =
      CgroupInitializer.reuperfPath ++ Bytes.ascii "/" := rfl
  rw [CpuctlSetter.targetPath, CgroupInitializer.subPath, CgroupInitializer.rulePath, number,
    source.rule_name, parent]

/-! ## Agreement -/

/-- Matcher, setter, drift check and initialiser agree on the cpuset group of a result. -/
structure CpusetAgrees (config : Config) (result : MatchResult) : Prop where
  /-- The initialiser creates cpuset groups. -/
  required : CgroupInitializer.requiresCpuset config = true
  /-- The group is created with the CPUs the setter asks for. -/
  created : ∃ cpus, config.sched.cpumask.lookup result.cpumaskName = some cpus ∧ cpus ≠ [] ∧
    config.sched.getCpusForAffinity result.affinityClass result.effectiveState = cpus ∧
    ∀ trace, (CgroupInitializer.init config).Produces trace true →
      DirectoryPresent (CpusetSetter.targetPath result.cpumaskName) trace ∧
        FileWritten (CpusetSetter.targetPath result.cpumaskName ++ Bytes.ascii "/cpus")
          (cpuMaskToString cpus) trace
  /-- The drift check expects the group the setter moves the thread to. -/
  expected : cpusetMount ++ CpusetSetter.expectedGroup result.cpumaskName =
    CpusetSetter.targetPath result.cpumaskName

/-- Matcher, setter, drift check and initialiser agree on the cpuctl group of a result. -/
structure CpuctlAgrees (config : Config) (result : MatchResult) : Prop where
  /-- The result has the index of a thread rule. -/
  index_nonneg : 0 ≤ result.threadRuleIndex
  /-- The initialiser creates cpuctl groups. -/
  required : CgroupInitializer.requiresCpuctl config = true
  /-- The group is created for the thread rule whose limits the result carries. -/
  created : ∃ rule threadRule, rule ∈ config.sched.rules ∧ rule.name = result.matchedRuleName ∧
    rule.threadRules[result.threadRuleIndex.toNat]? = some threadRule ∧
    threadRule.enableLimit = true ∧ threadRule.uclampMax = result.uclampMax ∧
    threadRule.cpuShare = result.cpuShare ∧
    ∀ trace, (CgroupInitializer.init config).Produces trace true →
      DirectoryPresent (CpuctlSetter.targetPath result) trace ∧
        CgroupInitializer.LimitWritten (CpuctlSetter.targetPath result)
          (Bytes.ascii "cpu.uclamp.max") threadRule.uclampMax trace ∧
        CgroupInitializer.LimitWritten (CpuctlSetter.targetPath result)
          (Bytes.ascii "cpu.shares") threadRule.cpuShare trace
  /-- The drift check expects the group the setter moves the thread to. -/
  expected : cpuctlMount ++ CpuctlSetter.expectedGroup result = CpuctlSetter.targetPath result

/-- Limit-enabled thread rules at distinct places of a configuration have distinct groups. -/
def LimitGroupsDistinct (config : Config) : Prop :=
  ∀ rule ∈ config.sched.rules, ∀ other ∈ config.sched.rules, ∀ first second threadRule otherRule,
    rule.threadRules[first]? = some threadRule → other.threadRules[second]? = some otherRule →
    threadRule.enableLimit = true → otherRule.enableLimit = true →
    CgroupInitializer.subPath rule.name first = CgroupInitializer.subPath other.name second →
    rule = other ∧ first = second

/-- A resolved mask name is that of a mask, whose CPUs the class resolves to. -/
theorem resolved_mask {sched : SchedConfig} (valid : sched.Valid) {affinityClass : Bytes}
    {state : ProcessState} (resolved : sched.getCpumaskNameForAffinity affinityClass state ≠ []) :
    ∃ scene cpus, sched.affinity.lookup affinityClass = some scene ∧
      scene.at state = sched.getCpumaskNameForAffinity affinityClass state ∧
      sched.cpumask.lookup (sched.getCpumaskNameForAffinity affinityClass state) = some cpus ∧
      sched.getCpusForAffinity affinityClass state = cpus := by
  have named := resolved
  unfold SchedConfig.getCpumaskNameForAffinity at named
  split at named
  · exact absurd rfl named
  · rename_i proper
    split at named
    · exact absurd rfl named
    · rename_i scene stored
      have name : sched.getCpumaskNameForAffinity affinityClass state = scene.at state := by
        rw [SchedConfig.getCpumaskNameForAffinity, if_neg proper, stored]
      rcases valid.scene_masks stored state with empty | ⟨cpus, mask⟩
      · exact absurd empty named
      · refine ⟨scene, cpus, stored, name.symm, by rw [name, mask], ?_⟩
        rw [SchedConfig.getCpusForAffinity, name, if_neg named, mask]
        rfl

/-- A result with a resolved affinity has its cpuset group. -/
theorem MatchResult.ComesFrom.cpusetAgrees {result : MatchResult} {config : Config}
    {rule : ProcessRule} {threadRule : ThreadRule} {index : Nat} (valid : config.sched.Valid)
    (source : result.ComesFrom config rule threadRule index)
    (resolved : hasResolvedAffinity result = true) : CpusetAgrees config result := by
  obtain ⟨⟨named, notAuto⟩, mask⟩ : (result.affinityClass ≠ [] ∧
      result.affinityClass ≠ Bytes.ascii "auto") ∧ result.cpumaskName ≠ [] := by
    simpa [hasResolvedAffinity] using resolved
  obtain ⟨scene, cpus, stored, sceneMask, lookup, resolvedCpus⟩ :=
    resolved_mask valid (source.cpumask_name ▸ mask)
  rw [← source.cpumask_name] at sceneMask lookup
  have required : CgroupInitializer.requiresCpuset config = true := by
    refine List.any_eq_true.mpr ⟨rule, source.rule_mem, List.any_eq_true.mpr
      ⟨threadRule, List.mem_of_getElem? source.threadRule_at, ?_⟩⟩
    rw [source.affinity_class] at named notAuto stored
    rw [CgroupInitializer.usesCpuset, if_neg (by simp [named, notAuto]), stored]
    have used : scene.at result.effectiveState ≠ [] := sceneMask ▸ mask
    cases state : result.effectiveState <;> rw [state] at used <;>
      simp only [AffinityScene.at] at used <;> simp [used]
  refine ⟨required, ⟨cpus, lookup, valid.cpus_ne_nil lookup, resolvedCpus, fun trace ready => ?_⟩,
    cpusetMount_expectedGroup _⟩
  obtain ⟨first, middle, second, after, rfl, cpuset, _⟩ := CgroupInitializer.init_spec ready
  obtain ⟨present, written⟩ := CgroupInitializer.initCpuset_spec required cpuset lookup
  exact ⟨present.mono (List.subset_append_left _ _), List.mem_append_left _ written⟩

/-- A result with a limit has its cpuctl group. -/
theorem MatchResult.ComesFrom.cpuctlAgrees {result : MatchResult} {config : Config}
    {rule : ProcessRule} {threadRule : ThreadRule} {index : Nat}
    (source : result.ComesFrom config rule threadRule index) (limited : result.enableLimit = true) :
    CpuctlAgrees config result := by
  have ruleLimited : threadRule.enableLimit = true := source.enable_limit ▸ limited
  have required : CgroupInitializer.requiresCpuctl config = true :=
    List.any_eq_true.mpr ⟨rule, source.rule_mem, List.any_eq_true.mpr
      ⟨threadRule, List.mem_of_getElem? source.threadRule_at, ruleLimited⟩⟩
  refine ⟨by rw [source.rule_index]; omega, required, ⟨rule, threadRule, source.rule_mem,
    source.rule_name.symm, ?_, ruleLimited, source.uclamp_max.symm, source.cpu_share.symm,
    fun trace ready => ?_⟩, cpuctlMount_expectedGroup _⟩
  · rw [source.rule_index]
    exact source.threadRule_at
  · obtain ⟨first, middle, second, after, rfl, _, cpuctl⟩ := CgroupInitializer.init_spec ready
    obtain ⟨present, clamped, shared⟩ := CgroupInitializer.initCpuctl_spec required cpuctl
      source.rule_mem source.threadRule_at ruleLimited
    rw [source.targetPath]
    exact ⟨present.mono (List.subset_append_right _ _),
      fun value set => List.mem_append_right _ (clamped value set),
      fun value set => List.mem_append_right _ (shared value set)⟩

/-- The thread rules of a valid configuration have distinct groups. -/
theorem limitGroupsDistinct_of_valid {config : Config} (valid : config.sched.Valid) :
    LimitGroupsDistinct config := by
  intro rule member other otherMember first second _ _ _ _ _ _ same
  obtain ⟨name, index⟩ := subPath_inj
    (ConfigParser.slash_notMem_of_isSafeCgroupComponent (valid.rule_names rule member))
    (ConfigParser.slash_notMem_of_isSafeCgroupComponent (valid.rule_names other otherMember)) same
  exact ⟨List.inj_on_of_nodup_map valid.rules_nodup member otherMember name, index⟩

/-- For every accepted configuration and every result its matcher can return, matcher, setters,
drift check and initialiser agree on the result's groups, and limit-enabled thread rules do
not share a group. -/
theorem groups_agree (engine : RegexEngine) (document : Json) (config : Config)
    (accepted : ConfigParser.parse document = some config) (launcherPackage : Bytes) :
    let config : Config := { config with launcherPackage := launcherPackage }
    (∀ host calls, ∀ result ∈ (ThreadMatcher.ofConfig engine config).matchCalls host calls .empty,
      (hasResolvedAffinity result = true → CpusetAgrees config result) ∧
        (result.enableLimit = true → CpuctlAgrees config result)) ∧
      LimitGroupsDistinct config := by
  intro launched
  have parsed : config.sched.Valid := ConfigParser.parse_valid accepted
  have valid : launched.sched.Valid := parsed
  refine ⟨fun host calls result returned => ?_, limitGroupsDistinct_of_valid valid⟩
  rcases matchCalls_source returned with ⟨unresolved, unlimited⟩ | ⟨rule, threadRule, index, source⟩
  · simp [unresolved, unlimited]
  · exact ⟨source.cpusetAgrees valid, source.cpuctlAgrees⟩

/-- A document with one mask, one class and one limit-enabled thread rule. -/
def limitDocument : Json :=
  let object (members : List (String × Json)) : Json :=
    .object (members.map fun member => (Bytes.ascii member.1, member.2))
  let text (literal : String) : Json := .string (Bytes.ascii literal)
  object [("modules", object [("sched", object
    [("affinity", object [("hot", object [("bg", text "big")])]),
      ("cpumask", object [("big", .array [.int 4, .int 5])]),
      ("rules", .array [object
        [("name", text "app"),
          ("regex", text "app"),
          ("rules", .array [object
            [("ac", text "hot"),
              ("enable_limit", .bool true),
              ("k", text "Render"),
              ("uclamp_max", .int 50)]])]])])])]

/-- The configuration of that document. -/
def limitConfig : Config := (ConfigParser.parse limitDocument).getD {}

/-- The result for a thread of the rule. -/
def limitResult : MatchResult :=
  (ThreadMatcher.ofConfig literalEngine limitConfig).matchFresh plainHost
    (separatorCall "app" "RenderThread")

/-- The thread's result has both groups. -/
theorem groups_agree_limitResult :
    CpusetAgrees limitConfig limitResult ∧ CpuctlAgrees limitConfig limitResult :=
  have agree := ((groups_agree literalEngine limitDocument limitConfig rfl []).1 plainHost
    [separatorCall "app" "RenderThread"] limitResult (by decide))
  ⟨agree.1 (by decide), agree.2 (by decide)⟩

end ReUperf
