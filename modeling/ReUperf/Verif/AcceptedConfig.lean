import ReUperf.Config.Parser

/-!
# Accepted configurations

What holds of every configuration the parser accepts: its masks are non-empty lists of CPU
indices under safe names, every name a scene or a thread rule uses is the name of something,
priority values have a meaning, and rule names are safe and distinct. Later proofs use these
facts and not the parser.
-/

namespace ReUperf

/-- The parts of a configuration fit together. -/
structure SchedConfig.Valid (sched : SchedConfig) : Prop where
  /-- Every mask is non-empty. -/
  cpus_ne_nil : ∀ {name cpus}, sched.cpumask.lookup name = some cpus → cpus ≠ []
  /-- Every mask consists of CPU indices. -/
  cpus_bounds : ∀ {name cpus}, sched.cpumask.lookup name = some cpus →
    ∀ cpu ∈ cpus, 0 ≤ cpu ∧ cpu < ConfigParser.cpuSetSize
  /-- A scene names masks or nothing. -/
  scene_masks : ∀ {name scene}, sched.affinity.lookup name = some scene →
    ∀ state, scene.at state = [] ∨ ∃ cpus, sched.cpumask.lookup (scene.at state) = some cpus
  /-- Priority values have a meaning. -/
  prio_values : ∀ {name scene}, sched.prio.lookup name = some scene →
    ∀ state, ConfigParser.isValidPrioValue (scene.at state) = true
  /-- Rule names can be directory names. -/
  rule_names : ∀ rule ∈ sched.rules, ConfigParser.isSafeCgroupComponent rule.name = true
  /-- Rule names are distinct. -/
  rules_nodup : (sched.rules.map (·.name)).Nodup

namespace ConfigParser

/-! ## Names -/

/-- A code point that may stand in a name is not a slash. -/
theorem ne_slash_of_isSafeCodepoint {byte : UInt8} (safe : isSafeCodepoint 1 byte.toNat = true) :
    byte ≠ 47 := by
  rintro rfl
  simp [isSafeCodepoint] at safe

/-- A continuation byte is not a slash. -/
theorem ne_slash_of_isContinuation {byte : UInt8} (continuation : isContinuation byte = true) :
    byte ≠ 47 := by
  rintro rfl
  exact absurd continuation (by decide)

/-- A safe text has no slash. -/
theorem slash_notMem_of_isSafeText {text : Bytes} (safe : isSafeText text = true) :
    47 ∉ text := by
  have high : ∀ {byte : UInt8}, ¬ byte < 0x80 → byte ≠ 47 := by
    rintro byte large rfl
    exact large (by decide)
  induction text using isSafeText.induct with
  | case1 => simp
  | case2 lead rest ascii ih =>
    unfold isSafeText at safe
    rw [if_pos ascii, Bool.and_eq_true] at safe
    simp [(ne_slash_of_isSafeCodepoint safe.1).symm, ih safe.2]
  | case3 lead large two second rest ih =>
    simp only [isSafeText, if_neg large, two, if_true, Bool.and_eq_true] at safe
    simp [(high large).symm, (ne_slash_of_isContinuation safe.1.1).symm, ih safe.2]
  | case4 lead large two => simp [isSafeText, if_neg large, two] at safe
  | case5 lead large notTwo three second third rest ih =>
    simp only [isSafeText, if_neg large, if_neg notTwo, three, if_true, Bool.and_eq_true] at safe
    simp [(high large).symm, (ne_slash_of_isContinuation safe.1.1.1).symm,
      (ne_slash_of_isContinuation safe.1.1.2).symm, ih safe.2]
  | case6 lead rest large notTwo three short =>
    unfold isSafeText at safe
    simp only [if_neg large, if_neg notTwo, three, if_true] at safe
    exact absurd safe (by decide)
  | case7 lead large notTwo notThree four second third fourth rest ih =>
    simp only [isSafeText, if_neg large, if_neg notTwo, if_neg notThree, four, if_true,
      Bool.and_eq_true] at safe
    simp [(high large).symm, (ne_slash_of_isContinuation safe.1.1.1.1).symm,
      (ne_slash_of_isContinuation safe.1.1.1.2).symm,
      (ne_slash_of_isContinuation safe.1.1.2).symm, ih safe.2]
  | case8 lead rest large notTwo notThree four short =>
    unfold isSafeText at safe
    simp only [if_neg large, if_neg notTwo, if_neg notThree, four, if_true] at safe
    exact absurd safe (by decide)
  | case9 lead rest large notTwo notThree notFour =>
    unfold isSafeText at safe
    simp only [if_neg large, if_neg notTwo, if_neg notThree, if_neg notFour] at safe
    exact absurd safe (by decide)

/-- A safe name has no slash. -/
theorem slash_notMem_of_isSafeCgroupComponent {name : Bytes}
    (safe : isSafeCgroupComponent name = true) : 47 ∉ name := by
  unfold isSafeCgroupComponent at safe
  split at safe
  · simp only [Bool.and_eq_true] at safe
    exact slash_notMem_of_isSafeText safe.2
  · simp at safe

/-- A safe name is not empty. -/
theorem ne_nil_of_isSafeCgroupComponent {name : Bytes}
    (safe : isSafeCgroupComponent name = true) : name ≠ [] := by
  rintro rfl
  simp [isSafeCgroupComponent] at safe

/-! ## Sections -/

/-- A fact every step of a fold keeps holds at its end. -/
theorem foldl_keeps {α β : Type} (fact : β → Prop) {step : β → α → β} {elements : List α}
    (keeps : ∀ state element, fact state → fact (step state element)) {start : β}
    (holds : fact start) : fact (elements.foldl step start) := by
  induction elements generalizing start with
  | nil => exact holds
  | cons element rest ih => exact ih (keeps start element holds)

/-- A parsed mask consists of CPU indices. -/
theorem parseCpus_bounds {elements : List Json} {cpu : Int} (member : cpu ∈ parseCpus elements) :
    0 ≤ cpu ∧ cpu < cpuSetSize := by
  have sorted := (List.destutter_sublist (· ≠ ·) _).subset member
  rw [List.mem_insertionSort] at sorted
  obtain ⟨element, _, kept⟩ := List.mem_filterMap.mp sorted
  simpa using (Option.filter_eq_some_iff.mp kept).2

/-- The masks of the mask section are non-empty lists of CPU indices. -/
theorem parseCpumask_valid {sched : Json} {name : Bytes} {cpus : List Int}
    (stored : (parseCpumask sched).lookup name = some cpus) :
    cpus ≠ [] ∧ ∀ cpu ∈ cpus, 0 ≤ cpu ∧ cpu < cpuSetSize := by
  unfold parseCpumask at stored
  split at stored
  · revert stored
    refine foldl_keeps (fun masks : Table Bytes (List Int) =>
      masks.lookup name = some cpus → cpus ≠ [] ∧ ∀ cpu ∈ cpus, 0 ≤ cpu ∧ cpu < cpuSetSize)
      (fun masks member ih stored => ?_) (by simp)
    unfold addCpumask at stored
    split at stored
    · split at stored
      · exact ih stored
      · split at stored
        · exact ih stored
        · rename_i nonempty
          by_cases same : name = member.1
          · subst same
            rw [AList.lookup_insert] at stored
            obtain rfl := Option.some.inj stored
            exact ⟨nonempty, fun cpu => parseCpus_bounds⟩
          · rw [AList.lookup_insert_ne same] at stored
            exact ih stored
    · exact ih stored
  · simp at stored

/-- A parsed priority value has a meaning. -/
theorem parsePrioValue_valid (json : Json) (stateName : String) :
    isValidPrioValue (parsePrioValue json stateName 0) = true := by
  unfold parsePrioValue
  split
  · decide
  · split
    · assumption
    · decide

/-- The priority values of the priority section have a meaning. -/
theorem parsePrio_valid {sched : Json} {name : Bytes} {scene : PrioScene}
    (stored : (parsePrio sched).lookup name = some scene) (state : ProcessState) :
    isValidPrioValue (scene.at state) = true := by
  have scenes : ∀ json, isValidPrioValue ((parsePrioScene json).at state) = true := by
    intro json
    cases state <;> simp only [PrioScene.at, parsePrioScene, parsePrioValue_valid]
    split <;> exact parsePrioValue_valid ..
  unfold parsePrio at stored
  split at stored
  · revert stored
    refine foldl_keeps (fun scenes : Table Bytes PrioScene =>
      scenes.lookup name = some scene → isValidPrioValue (scene.at state) = true)
      (fun table member ih stored => ?_) (by simp)
    split at stored
    · by_cases same : name = member.1
      · subst same
        rw [AList.lookup_insert] at stored
        obtain rfl := Option.some.inj stored
        exact scenes _
      · rw [AList.lookup_insert_ne same] at stored
        exact ih stored
    · exact ih stored
  · simp at stored

/-! ## Rules -/

/-- The rules kept so far have safe, distinct names among the names seen. -/
structure RuleReader.Valid (reader : RuleReader) : Prop where
  /-- The names of the rules were seen. -/
  seen : ∀ rule ∈ reader.rules, rule.name ∈ reader.ruleNames
  /-- The names of the rules are safe. -/
  safe : ∀ rule ∈ reader.rules, isSafeCgroupComponent rule.name = true
  /-- The names of the rules are distinct. -/
  nodup : (reader.rules.map (·.name)).Nodup

/-- A parsed process rule has the given name. -/
theorem parseProcessRule_name {name : Bytes} {json : Json} {rule : ProcessRule}
    (parsed : parseProcessRule name json = some rule) : rule.name = name := by
  unfold parseProcessRule at parsed
  split at parsed
  · simp at parsed
  · split at parsed
    · simp at parsed
    · obtain rfl := Option.some.inj parsed
      rfl

/-- Reading an element keeps the names safe and distinct. -/
theorem RuleReader.Valid.addRule {reader : RuleReader} (valid : reader.Valid) (json : Json) :
    (addRule reader json).Valid := by
  unfold ConfigParser.addRule
  split
  · exact valid
  · dsimp only
    split
    · exact valid
    · split
      · exact valid
      · rename_i safe fresh
        have named : ∀ rule ∈ (parseProcessRule ((json.stringAt "name").getD []) json).toList,
            rule.name = (json.stringAt "name").getD [] := by
          intro rule member
          exact parseProcessRule_name (Option.mem_toList.mp member)
        refine ⟨fun rule member => ?_, fun rule member => ?_, ?_⟩
        · rcases List.mem_append.mp member with old | new
          · exact List.mem_cons_of_mem _ (valid.seen rule old)
          · simp [named rule new]
        · rcases List.mem_append.mp member with old | new
          · exact valid.safe rule old
          · rw [named rule new]
            exact not_not.mp safe
        · rw [List.map_append]
          refine valid.nodup.append ?_ ?_
          · cases parseProcessRule ((json.stringAt "name").getD []) json <;> simp
          · intro name old new
            obtain ⟨rule, member, rfl⟩ := List.mem_map.mp old
            obtain ⟨added, addedMember, same⟩ := List.mem_map.mp new
            rw [named added addedMember] at same
            exact fresh (same ▸ valid.seen rule member)

/-- The rules of the rule section have safe, distinct names. -/
theorem parseRules_valid (sched : Json) :
    (∀ rule ∈ parseRules sched, isSafeCgroupComponent rule.name = true) ∧
      ((parseRules sched).map (·.name)).Nodup := by
  unfold parseRules
  split
  · rename_i elements _
    have valid : (elements.foldl addRule {}).Valid :=
      foldl_keeps _ (fun reader json valid => valid.addRule json) ⟨by simp, by simp, by simp⟩
    exact ⟨valid.safe, valid.nodup⟩
  · simp

/-! ## References -/

/-- A validated mask name is empty or names a mask. -/
theorem validateAffinityMask_valid (masks : Table Bytes (List Int)) (maskName : Bytes) :
    validateAffinityMask masks maskName = [] ∨
      ∃ cpus, masks.lookup (validateAffinityMask masks maskName) = some cpus := by
  by_cases cleared : maskName ≠ [] ∧ masks.lookup maskName = none
  · rw [validateAffinityMask, if_pos cleared]
    exact .inl rfl
  · rw [validateAffinityMask, if_neg cleared]
    by_cases empty : maskName = []
    · exact .inl empty
    · exact .inr (Option.ne_none_iff_exists'.mp fun missing => cleared ⟨empty, missing⟩)

/-- A parsed scheduler section is valid. -/
theorem parseSchedSection_valid (sched : Json) : (parseSchedSection sched).Valid := by
  unfold parseSchedSection validateReferences
  refine ⟨fun stored => (parseCpumask_valid stored).1, fun stored => (parseCpumask_valid stored).2,
    fun stored state => ?_, fun stored => parsePrio_valid stored, fun rule member => ?_, ?_⟩
  · dsimp only at stored ⊢
    rw [Table.lookup_mapValues, Option.map_eq_some_iff] at stored
    obtain ⟨scene, _, rfl⟩ := stored
    cases state <;> exact validateAffinityMask_valid ..
  · obtain ⟨parsed, listed, rfl⟩ := List.mem_map.mp member
    exact (parseRules_valid sched).1 parsed listed
  · simpa [Function.comp_def] using (parseRules_valid sched).2

/-- The section of a disabled scheduler is valid. -/
theorem disabled_valid : SchedConfig.Valid { enable := false } where
  cpus_ne_nil stored := by simp at stored
  cpus_bounds stored := by simp at stored
  scene_masks stored := by simp at stored
  prio_values stored := by simp at stored
  rule_names := by simp
  rules_nodup := by simp

/-- What holds of every parsed scheduler section and of a disabled scheduler holds of every accepted
configuration. -/
theorem parse_sched {fact : SchedConfig → Prop} (parsed : ∀ sched, fact (parseSchedSection sched))
    (disabled : fact { enable := false }) {document : Json} {config : Config}
    (accepted : parse document = some config) : fact config.sched := by
  unfold parse at accepted
  split at accepted
  · obtain rfl := Option.some.inj accepted
    unfold parseSched
    dsimp only
    split
    · split
      · exact parsed _
      · exact disabled
    · exact disabled
  · simp at accepted

/-- Every accepted configuration is valid. -/
theorem parse_valid {document : Json} {config : Config} (accepted : parse document = some config) :
    config.sched.Valid :=
  parse_sched parseSchedSection_valid disabled_valid accepted

/-- Every accepted configuration lets a write to a cpuset group be tried at least once. -/
theorem parse_cpusetRetryCount {document : Json} {config : Config}
    (accepted : parse document = some config) : 1 ≤ config.sched.timing.cpusetRetryCount := by
  have parsed : ∀ sched, 1 ≤ (parseSchedSection sched).timing.cpusetRetryCount := by
    intro sched
    show 1 ≤ (parseTiming sched).cpusetRetryCount
    unfold parseTiming
    split
    · exact (parseBoundedInt_bounds (by decide) (by decide)).1
    · decide
  have fact := @parse_sched fun sched => 1 ≤ sched.timing.cpusetRetryCount
  exact fact parsed (by decide) accepted

/-- The bounds of the budgets of an accepted configuration. -/
structure Budgeted (sched : SchedConfig) : Prop where
  /-- A scan of the top application has time. -/
  top : 500 ≤ sched.topScanBudgetUs
  /-- A full scan has time. -/
  full : 1000 ≤ sched.fullScanBudgetUs
  /-- A pause follows a read. -/
  batchSize : 1 ≤ sched.scanBatchSize
  /-- A pause has a length. -/
  batchYieldUs : 0 ≤ sched.scanBatchYieldUs

/-- Every accepted configuration has budgets within their bounds. -/
theorem parse_budgeted {document : Json} {config : Config}
    (accepted : parse document = some config) : Budgeted config.sched := by
  refine parse_sched (fun sched => ?_) ?_ accepted
  · constructor
    · exact (parseBoundedInt_bounds (by decide) (by decide)).1
    · exact (parseBoundedInt_bounds (by decide) (by decide)).1
    · exact (parseBoundedInt_bounds (by decide) (by decide)).1
    · exact (parseBoundedInt_bounds (by decide) (by decide)).1
  · constructor <;> decide

end ConfigParser

end ReUperf
