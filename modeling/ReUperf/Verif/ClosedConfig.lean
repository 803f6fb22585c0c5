import ReUperf.Verif.AcceptedConfig

/-!
# Closed configurations

Whatever a document whose root is an object contains, the parser accepts it, every number of the
resulting configuration is in range, and every name is safe and refers to something. The ranges
are those the parser checks; the module proves that nothing gets past the checks and that the
defaults pass them.
-/

namespace ReUperf

/-- The intervals and limits are in range. -/
structure TimingConfig.InRange (timing : TimingConfig) : Prop where
  /-- `event_throttle_ms`. -/
  eventThrottleMs : 0 ≤ timing.eventThrottleMs ∧ timing.eventThrottleMs ≤ 5000
  /-- `min_schedule_interval_ms`. -/
  minScheduleIntervalMs : 0 ≤ timing.minScheduleIntervalMs ∧ timing.minScheduleIntervalMs ≤ 60000
  /-- `schedule_cleanup_interval_ms`. -/
  scheduleCleanupIntervalMs :
    100 ≤ timing.scheduleCleanupIntervalMs ∧ timing.scheduleCleanupIntervalMs ≤ 600000
  /-- `cgroup_check_interval_ms`. -/
  cgroupCheckIntervalMs : 0 ≤ timing.cgroupCheckIntervalMs ∧ timing.cgroupCheckIntervalMs ≤ 60000
  /-- `cpuset_retry_count`. -/
  cpusetRetryCount : 1 ≤ timing.cpusetRetryCount ∧ timing.cpusetRetryCount ≤ 20
  /-- `cpuset_retry_interval_ms`. -/
  cpusetRetryIntervalMs : 0 ≤ timing.cpusetRetryIntervalMs ∧ timing.cpusetRetryIntervalMs ≤ 1000
  /-- `cpuset_group_check_ttl_ms`. -/
  cpusetGroupCheckTtlMs : 0 ≤ timing.cpusetGroupCheckTtlMs ∧ timing.cpusetGroupCheckTtlMs ≤ 60000
  /-- `process_cache_ttl_ms`. -/
  processCacheTtlMs : 0 ≤ timing.processCacheTtlMs ∧ timing.processCacheTtlMs ≤ 60000
  /-- `file_cache_ttl_ms`. -/
  fileCacheTtlMs : 0 ≤ timing.fileCacheTtlMs ∧ timing.fileCacheTtlMs ≤ 60000
  /-- `cgroup_cache_ttl_ms`. -/
  cgroupCacheTtlMs : 0 ≤ timing.cgroupCacheTtlMs ∧ timing.cgroupCacheTtlMs ≤ 60000
  /-- `monitor_initial_restart_delay_s`. -/
  monitorInitialRestartDelayS :
    0 ≤ timing.monitorInitialRestartDelayS ∧ timing.monitorInitialRestartDelayS ≤ 60
  /-- `monitor_restart_retry_delay_s`. -/
  monitorRestartRetryDelayS :
    1 ≤ timing.monitorRestartRetryDelayS ∧ timing.monitorRestartRetryDelayS ≤ 300
  /-- `config_retry_initial_delay_s`. -/
  configRetryInitialDelayS :
    1 ≤ timing.configRetryInitialDelayS ∧ timing.configRetryInitialDelayS ≤ 60
  /-- `config_retry_max_delay_s`. -/
  configRetryMaxDelayS : 1 ≤ timing.configRetryMaxDelayS ∧ timing.configRetryMaxDelayS ≤ 300
  /-- A delay does not exceed the longest one. -/
  configRetry : timing.configRetryInitialDelayS ≤ timing.configRetryMaxDelayS

/-- The intervals, budgets and batches are in range. -/
structure SchedConfig.InRange (sched : SchedConfig) : Prop where
  /-- `refresh_interval_ms`. -/
  refreshIntervalMs : 1 ≤ sched.refreshIntervalMs ∧ sched.refreshIntervalMs ≤ 600000
  /-- `highspeed_sched_ms`. -/
  highspeedSchedMs : 1 ≤ sched.highspeedSchedMs ∧ sched.highspeedSchedMs ≤ 60000
  /-- `top_scan_budget_us`. -/
  topScanBudgetUs : 500 ≤ sched.topScanBudgetUs ∧ sched.topScanBudgetUs ≤ 20000
  /-- `full_scan_budget_us`. -/
  fullScanBudgetUs : 1000 ≤ sched.fullScanBudgetUs ∧ sched.fullScanBudgetUs ≤ 50000
  /-- `scan_batch_size`. -/
  scanBatchSize : 1 ≤ sched.scanBatchSize ∧ sched.scanBatchSize ≤ 256
  /-- `scan_batch_yield_us`. -/
  scanBatchYieldUs : 0 ≤ sched.scanBatchYieldUs ∧ sched.scanBatchYieldUs ≤ 1000
  /-- `timing`. -/
  timing : sched.timing.InRange

/-- The values of a thread rule refer to something or are in range. -/
structure ThreadRule.Closed (sched : SchedConfig) (rule : ThreadRule) : Prop where
  /-- The affinity class. -/
  affinityClass : rule.affinityClass = [] ∨ rule.affinityClass = Bytes.ascii "auto" ∨
    ∃ scene, sched.affinity.lookup rule.affinityClass = some scene
  /-- The priority class. -/
  prioClass : rule.prioClass = [] ∨ rule.prioClass = Bytes.ascii "auto" ∨
    ∃ scene, sched.prio.lookup rule.prioClass = some scene
  /-- The utilisation clamp. -/
  uclampMax : ∀ value, rule.uclampMax = some value → 0 ≤ value ∧ value ≤ 100
  /-- The CPU share. -/
  cpuShare : ∀ value, rule.cpuShare = some value → 0 ≤ value ∧ value ≤ 1024

/-- Every number of the configuration is in range, and every name refers to something. -/
structure SchedConfig.Closed (sched : SchedConfig) : Prop where
  /-- The numbers. -/
  inRange : sched.InRange
  /-- A mask has a safe name and is a non-empty, increasing list of CPU indices. -/
  cpumask : ∀ name cpus, sched.cpumask.lookup name = some cpus →
    ConfigParser.isSafeCgroupComponent name = true ∧ cpus ≠ [] ∧ cpus.Pairwise (· < ·) ∧
      ∀ cpu ∈ cpus, 0 ≤ cpu ∧ cpu < ConfigParser.cpuSetSize
  /-- A scene names masks or nothing. -/
  affinity : ∀ name scene, sched.affinity.lookup name = some scene →
    ∀ state, scene.at state = [] ∨ ∃ cpus, sched.cpumask.lookup (scene.at state) = some cpus
  /-- Priority values have a meaning. -/
  prio : ∀ name scene, sched.prio.lookup name = some scene → ∀ state,
    scene.at state = 0 ∨ (1 ≤ scene.at state ∧ scene.at state ≤ 98) ∨
      (100 ≤ scene.at state ∧ scene.at state ≤ 139) ∨ (-3 ≤ scene.at state ∧ scene.at state ≤ -1)
  /-- Rule names can be directory names. -/
  ruleNames : ∀ rule ∈ sched.rules, ConfigParser.isSafeCgroupComponent rule.name = true
  /-- Rule names are distinct. -/
  ruleNamesDistinct : (sched.rules.map (·.name)).Nodup
  /-- Every rule has an expression. -/
  regexStr : ∀ rule ∈ sched.rules, rule.regexStr ≠ []
  /-- The thread rules. -/
  threadRules : ∀ rule ∈ sched.rules, ∀ threadRule ∈ rule.threadRules, threadRule.Closed sched

namespace ConfigParser

/-! ## Numbers -/

/-- The timing section is in range. -/
theorem parseTiming_inRange (sched : Json) : (parseTiming sched).InRange := by
  unfold parseTiming
  split
  · next members found =>
    have bounds : ∀ {name : String} {defaultValue minValue maxValue : Int},
        minValue ≤ defaultValue → defaultValue ≤ maxValue →
          minValue ≤ parseBoundedInt (.object members) name defaultValue minValue maxValue ∧
            parseBoundedInt (.object members) name defaultValue minValue maxValue ≤ maxValue :=
      fun lower upper => parseBoundedInt_bounds lower upper
    have initial := @bounds "config_retry_initial_delay_s" 1 1 60 (by decide) (by decide)
    have longest := @bounds "config_retry_max_delay_s" 5 1 300 (by decide) (by decide)
    constructor
    case configRetryMaxDelayS =>
      dsimp only
      split
      · omega
      · exact longest
    case configRetry =>
      dsimp only
      split
      · exact le_refl _
      · omega
    all_goals exact bounds (by decide) (by decide)
  · constructor <;> decide

/-- A parsed scheduler section is in range. -/
theorem parseSchedSection_inRange (sched : Json) : (parseSchedSection sched).InRange := by
  constructor
  case timing => exact parseTiming_inRange sched
  all_goals exact parseBoundedInt_bounds (by decide) (by decide)

/-- A parsed limit is in range. -/
theorem parseLimit_bounds {json : Json} {name : String} {maxValue value : Int}
    (parsed : parseLimit json name maxValue = some value) : 0 ≤ value ∧ value ≤ maxValue := by
  rw [parseLimit, Option.filter_eq_some_iff] at parsed
  simpa using parsed.2

/-- A priority value with a meaning is in one of four ranges. -/
theorem ranges_of_isValidPrioValue {value : Int} (valid : isValidPrioValue value = true) :
    value = 0 ∨ (1 ≤ value ∧ value ≤ 98) ∨ (100 ≤ value ∧ value ≤ 139) ∨
      (-3 ≤ value ∧ value ≤ -1) := by
  simp only [isValidPrioValue, Bool.or_eq_true, decide_eq_true_eq] at valid
  omega

/-! ## Masks -/

/-- A parsed mask is increasing. -/
theorem parseCpus_increasing (elements : List Json) : (parseCpus elements).Pairwise (· < ·) := by
  unfold parseCpus
  dsimp only
  generalize (elements.filterMap fun cpu => cpu.int?.filter
    fun value => decide (0 ≤ value ∧ value < cpuSetSize)) = cpus
  have ordered : ((cpus.insertionSort (· ≤ ·)).destutter (· ≠ ·)).Pairwise (· ≤ ·) :=
    (List.pairwise_insertionSort _ _).sublist (List.destutter_sublist _ _)
  have distinct : ((cpus.insertionSort (· ≤ ·)).destutter (· ≠ ·)).IsChain (· ≠ ·) :=
    List.isChain_destutter _ _
  have increasing : ((cpus.insertionSort (· ≤ ·)).destutter (· ≠ ·)).IsChain (· < ·) := by
    rw [List.isChain_iff_getElem]
    intro position within
    have below := List.isChain_iff_getElem.mp ordered.isChain position within
    have differ := List.isChain_iff_getElem.mp distinct position within
    exact lt_of_le_of_ne below differ
  exact List.isChain_iff_pairwise.mp increasing

/-- The masks of the mask section have safe names and are increasing. -/
theorem parseCpumask_closed {sched : Json} {name : Bytes} {cpus : List Int}
    (stored : (parseCpumask sched).lookup name = some cpus) :
    isSafeCgroupComponent name = true ∧ cpus.Pairwise (· < ·) := by
  unfold parseCpumask at stored
  split at stored
  · revert stored
    refine foldl_keeps (fun masks : Table Bytes (List Int) => masks.lookup name = some cpus →
      isSafeCgroupComponent name = true ∧ cpus.Pairwise (· < ·)) ?_ ?_
    · intro masks member ih stored
      unfold addCpumask at stored
      split at stored
      · next safe =>
        split at stored
        · exact ih stored
        split at stored
        · exact ih stored
        by_cases same : name = member.1
        · rw [same, AList.lookup_insert] at stored
          obtain rfl := Option.some.inj stored
          rw [same]
          exact ⟨safe, parseCpus_increasing _⟩
        · rw [AList.lookup_insert_ne same] at stored
          exact ih stored
      · exact ih stored
    · intro none
      rw [AList.lookup_empty] at none
      cases none
  · rw [AList.lookup_empty] at stored
    cases stored

/-! ## Rules -/

/-- A parsed process rule has an expression. -/
theorem parseProcessRule_regexStr {name : Bytes} {json : Json} {rule : ProcessRule}
    (parsed : parseProcessRule name json = some rule) : rule.regexStr ≠ [] := by
  unfold parseProcessRule at parsed
  split at parsed
  · cases parsed
  split at parsed
  · cases parsed
  next present =>
  obtain rfl := Option.some.inj parsed
  exact present

/-- The thread rules of a parsed process rule have limits in range. -/
theorem parseProcessRule_limits {name : Bytes} {json : Json} {rule : ProcessRule}
    (parsed : parseProcessRule name json = some rule) :
    ∀ threadRule ∈ rule.threadRules,
      (∀ value, threadRule.uclampMax = some value → 0 ≤ value ∧ value ≤ 100) ∧
        ∀ value, threadRule.cpuShare = some value → 0 ≤ value ∧ value ≤ 1024 := by
  unfold parseProcessRule at parsed
  split at parsed
  · cases parsed
  split at parsed
  · cases parsed
  obtain rfl := Option.some.inj parsed
  intro threadRule member
  have member : threadRule ∈ parseThreadRules json := member
  unfold parseThreadRules at member
  split at member
  · obtain ⟨element, -, read⟩ := List.mem_filterMap.mp member
    unfold parseThreadRule at read
    split at read
    · obtain rfl := Option.some.inj read
      exact ⟨fun value => parseLimit_bounds, fun value => parseLimit_bounds⟩
    · cases read
  · cases member

/-- A rule of the rule section was parsed from an element. -/
theorem parsed_of_mem_parseRules {sched : Json} {rule : ProcessRule}
    (member : rule ∈ parseRules sched) :
    ∃ name json, parseProcessRule name json = some rule := by
  unfold parseRules at member
  split at member
  · revert member
    refine foldl_keeps (fun reader : RuleReader => rule ∈ reader.rules →
      ∃ name json, parseProcessRule name json = some rule) ?_ ?_
    · intro reader json ih member
      unfold addRule at member
      split at member
      · exact ih member
      dsimp only at member
      split at member
      · exact ih member
      split at member
      · exact ih member
      rcases List.mem_append.mp member with old | new
      · exact ih old
      · exact ⟨_, _, Option.mem_toList.mp new⟩
    · intro impossible
      cases impossible
  · cases member

/-! ## Documents -/

/-- A validated class name is empty, `auto` or the name of a class. -/
theorem validateClass_closed {α : Type} (classes : Table Bytes α) (className : Bytes) :
    validateClass classes className = [] ∨ validateClass classes className = Bytes.ascii "auto" ∨
      ∃ scene, classes.lookup (validateClass classes className) = some scene := by
  by_cases replaced : className ≠ [] ∧ className ≠ Bytes.ascii "auto" ∧
      classes.lookup className = none
  · rw [validateClass, if_pos replaced]
    exact .inr (.inl rfl)
  · rw [validateClass, if_neg replaced]
    by_cases empty : className = []
    · exact .inl empty
    by_cases auto : className = Bytes.ascii "auto"
    · exact .inr (.inl auto)
    have known : classes.lookup className ≠ none := fun none => replaced ⟨empty, auto, none⟩
    exact .inr (.inr (Option.ne_none_iff_exists'.mp known))

/-- A parsed scheduler section is closed. -/
theorem parseSchedSection_closed (sched : Json) : (parseSchedSection sched).Closed := by
  have valid := parseSchedSection_valid sched
  constructor
  case inRange => exact parseSchedSection_inRange sched
  case cpumask =>
    intro name cpus stored
    have closed := @parseCpumask_closed sched name cpus stored
    exact ⟨closed.1, valid.cpus_ne_nil stored, closed.2, valid.cpus_bounds stored⟩
  case affinity => exact fun name scene stored => valid.scene_masks stored
  case prio =>
    exact fun name scene stored state => ranges_of_isValidPrioValue (valid.prio_values stored state)
  case ruleNames => exact valid.rule_names
  case ruleNamesDistinct => exact valid.rules_nodup
  case regexStr =>
    intro rule member
    obtain ⟨parsed, listed, rfl⟩ := List.mem_map.mp member
    obtain ⟨name, json, same⟩ := parsed_of_mem_parseRules listed
    have present : parsed.regexStr ≠ [] := parseProcessRule_regexStr same
    exact present
  case threadRules =>
    intro rule member threadRule inRule
    obtain ⟨parsed, listed, rfl⟩ := List.mem_map.mp member
    obtain ⟨before, within, rfl⟩ := List.mem_map.mp inRule
    obtain ⟨name, json, same⟩ := parsed_of_mem_parseRules listed
    have limits := parseProcessRule_limits same before within
    exact ⟨validateClass_closed _ _, validateClass_closed _ _, limits.1, limits.2⟩

/-- The section of a disabled scheduler is closed. -/
theorem disabled_closed : SchedConfig.Closed { enable := false } := by
  have none : ∀ {α : Type} {name : Bytes} {value : α},
      ¬ (∅ : Table Bytes α).lookup name = some value := by
    intro α name value stored
    rw [AList.lookup_empty] at stored
    cases stored
  constructor
  case inRange =>
    constructor
    case timing => constructor <;> decide
    all_goals decide
  case cpumask => exact fun name cpus stored => absurd stored none
  case affinity => exact fun name scene stored => absurd stored none
  case prio => exact fun name scene stored => absurd stored none
  case ruleNames => exact fun rule member => absurd member List.not_mem_nil
  case ruleNamesDistinct => exact List.nodup_nil
  case regexStr => exact fun rule member => absurd member List.not_mem_nil
  case threadRules => exact fun rule member => absurd member List.not_mem_nil

/-- Every accepted configuration is closed. -/
theorem closed_of_parse {document : Json} {config : Config}
    (accepted : parse document = some config) : config.sched.Closed :=
  parse_sched parseSchedSection_closed disabled_closed accepted

/-- Every object is accepted, whatever its members are, and the configuration is closed. -/
theorem parse_object_closed (members : List (Bytes × Json)) :
    ∃ config, parse (.object members) = some config ∧ config.sched.Closed := by
  have accepted : ∃ config, parse (.object members) = some config := ⟨_, rfl⟩
  obtain ⟨config, accepted⟩ := accepted
  exact ⟨config, accepted, closed_of_parse accepted⟩

end ConfigParser

end ReUperf
