import ReUperf.Verif.ClosedConfig

/-!
# Narrowed integers

The parser narrows an integer of a document to 32 bits before it checks its range. The module tells
for every bounded integer of the scheduler section when the configuration treats it by its value:
keeps it only when it is in range, and otherwise takes the default, drops the entry or leaves the
limit out.
-/

namespace ReUperf.ConfigParser

/-! ## Numbers of the section -/

/-- A bounded number of the scheduler section or of its timing section. -/
structure BoundedField where
  /-- Whether it is part of the timing section. -/
  timing : Bool
  /-- Its name. -/
  name : String
  /-- Its default. -/
  defaultValue : Int
  /-- The least value. -/
  minValue : Int
  /-- The greatest value. -/
  maxValue : Int
  /-- Its value in a configuration. -/
  value : SchedConfig → Int

/-- The bounded numbers of the section itself. -/
def sectionFields : List BoundedField :=
  [⟨false, "refresh_interval_ms", 2000, 1, 600000, (·.refreshIntervalMs)⟩,
    ⟨false, "highspeed_sched_ms", 300, 1, 60000, (·.highspeedSchedMs)⟩,
    ⟨false, "top_scan_budget_us", 4000, 500, 20000, (·.topScanBudgetUs)⟩,
    ⟨false, "full_scan_budget_us", 12000, 1000, 50000, (·.fullScanBudgetUs)⟩,
    ⟨false, "scan_batch_size", 32, 1, 256, (·.scanBatchSize)⟩,
    ⟨false, "scan_batch_yield_us", 0, 0, 1000, (·.scanBatchYieldUs)⟩]

/-- The bounded numbers of the timing section. -/
def timingFields : List BoundedField :=
  [⟨true, "event_throttle_ms", 50, 0, 5000, (·.timing.eventThrottleMs)⟩,
    ⟨true, "min_schedule_interval_ms", 200, 0, 60000, (·.timing.minScheduleIntervalMs)⟩,
    ⟨true, "schedule_cleanup_interval_ms", 5000, 100, 600000,
      (·.timing.scheduleCleanupIntervalMs)⟩,
    ⟨true, "cgroup_check_interval_ms", 1000, 0, 60000, (·.timing.cgroupCheckIntervalMs)⟩,
    ⟨true, "cpuset_retry_count", 3, 1, 20, (·.timing.cpusetRetryCount)⟩,
    ⟨true, "cpuset_retry_interval_ms", 10, 0, 1000, (·.timing.cpusetRetryIntervalMs)⟩,
    ⟨true, "cpuset_group_check_ttl_ms", 1000, 0, 60000, (·.timing.cpusetGroupCheckTtlMs)⟩,
    ⟨true, "process_cache_ttl_ms", 100, 0, 60000, (·.timing.processCacheTtlMs)⟩,
    ⟨true, "file_cache_ttl_ms", 100, 0, 60000, (·.timing.fileCacheTtlMs)⟩,
    ⟨true, "cgroup_cache_ttl_ms", 100, 0, 60000, (·.timing.cgroupCacheTtlMs)⟩,
    ⟨true, "monitor_initial_restart_delay_s", 1, 0, 60, (·.timing.monitorInitialRestartDelayS)⟩,
    ⟨true, "monitor_restart_retry_delay_s", 5, 1, 300, (·.timing.monitorRestartRetryDelayS)⟩,
    ⟨true, "config_retry_initial_delay_s", 1, 1, 60, (·.timing.configRetryInitialDelayS)⟩,
    ⟨true, "config_retry_max_delay_s", 5, 1, 300, (·.timing.configRetryMaxDelayS)⟩]

/-- The bounded numbers. -/
def boundedFields : List BoundedField := sectionFields ++ timingFields

namespace BoundedField

variable (field : BoundedField)

/-- A value is in range. -/
def InRange (value : Int) : Prop := field.minValue ≤ value ∧ value ≤ field.maxValue

/-- The object the number is a member of. -/
def holder? (sched : Json) : Option Json :=
  if field.timing then
    match sched.find "timing" with
    | some (.object members) => some (.object members)
    | _ => none
  else some sched

/-- The document has an integer as the number. -/
def Carries (sched : Json) (value : Int) : Prop :=
  ∃ holder, field.holder? sched = some holder ∧ holder.find field.name = some (.int value)

/-- The least value other numbers leave it: the longest delay is not below the first one. -/
def floor (sched : Json) : Int :=
  if field.name = "config_retry_max_delay_s" then
    (parseTiming sched).configRetryInitialDelayS
  else field.minValue

/-- The integer is in range, or it is out of range also when narrowed, or its narrowed value is no
other than the default; and the default is not raised. -/
def Kept (sched : Json) (value : Int) : Prop :=
  field.InRange value ∨
    (field.floor sched ≤ field.defaultValue ∧
      (¬ field.InRange (Json.toInt32 value) ∨ Json.toInt32 value = field.defaultValue)) ∨
    (field.floor sched = field.defaultValue ∧ Json.toInt32 value ≤ field.defaultValue)

end BoundedField

/-- An integer of 32 bits is narrowed to itself. -/
theorem toInt32_eq {value : Int} (lower : -2147483648 ≤ value) (upper : value < 2147483648) :
    Json.toInt32 value = value := by
  unfold Json.toInt32
  omega

/-- A bounded number of an object that has an integer there. -/
theorem parseBoundedInt_eq {json : Json} {name : String} {defaultValue minValue maxValue value : Int}
    (carries : json.find name = some (.int value)) :
    parseBoundedInt json name defaultValue minValue maxValue =
      if Json.toInt32 value < minValue ∨ Json.toInt32 value > maxValue then defaultValue
      else Json.toInt32 value := by
  rw [parseBoundedInt, Json.intAt, carries]
  rfl

/-- A bounded number is not below its least value. -/
theorem parseBoundedInt_raised (holder : Json) {name : String}
    {defaultValue minValue maxValue : Int} (lower : minValue ≤ defaultValue)
    (upper : defaultValue ≤ maxValue) :
    parseBoundedInt holder name defaultValue minValue maxValue =
      max minValue (parseBoundedInt holder name defaultValue minValue maxValue) := by
  have bounds := @parseBoundedInt_bounds holder name _ _ _ lower upper
  omega

/-- A bounded number of the section is parsed from the section. -/
theorem value_eq_of_section {field : BoundedField} (member : field ∈ sectionFields)
    {sched holder : Json} (isHolder : field.holder? sched = some holder) :
    field.value (parseSchedSection sched) = max (field.floor sched)
      (parseBoundedInt holder field.name field.defaultValue field.minValue field.maxValue) := by
  simp only [sectionFields, List.mem_cons, List.not_mem_nil, or_false] at member
  rcases member with rfl | rfl | rfl | rfl | rfl | rfl
  all_goals
    obtain rfl := Option.some.inj isHolder
    exact parseBoundedInt_raised _ (by decide) (by decide)

/-- The timing section is the object its numbers are members of. -/
theorem timing_of_holder {field : BoundedField} (member : field ∈ timingFields)
    {sched holder : Json} (isHolder : field.holder? sched = some holder) :
    ∃ members, sched.find "timing" = some (.object members) ∧ holder = .object members := by
  have timing : field.timing = true := by
    simp only [timingFields, List.mem_cons, List.not_mem_nil, or_false] at member
    rcases member with rfl | rfl | rfl | rfl | rfl | rfl | rfl | rfl | rfl | rfl | rfl | rfl | rfl |
      rfl
    all_goals rfl
  rw [BoundedField.holder?, if_pos timing] at isHolder
  split at isHolder
  · next members found =>
    obtain rfl := Option.some.inj isHolder
    exact ⟨members, found, rfl⟩
  · cases isHolder

/-- A bounded number of the timing section is parsed from that section; the longest delay is raised
to the first one. -/
theorem value_eq_of_timing {field : BoundedField} (member : field ∈ timingFields)
    {sched holder : Json} (isHolder : field.holder? sched = some holder) :
    field.value (parseSchedSection sched) = max (field.floor sched)
      (parseBoundedInt holder field.name field.defaultValue field.minValue field.maxValue) := by
  obtain ⟨members, found, rfl⟩ := timing_of_holder member isHolder
  simp only [timingFields, List.mem_cons, List.not_mem_nil, or_false] at member
  have timing : (parseSchedSection sched).timing = parseTiming sched := rfl
  rcases member with rfl | rfl | rfl | rfl | rfl | rfl | rfl | rfl | rfl | rfl | rfl | rfl | rfl |
    rfl
  case inr.inr.inr.inr.inr.inr.inr.inr.inr.inr.inr.inr.inr =>
    have first : (parseTiming sched).configRetryInitialDelayS =
        parseBoundedInt (.object members) "config_retry_initial_delay_s" 1 1 60 := by
      rw [parseTiming, found]
    have longest : (parseTiming sched).configRetryMaxDelayS =
        if parseBoundedInt (.object members) "config_retry_max_delay_s" 5 1 300 <
            parseBoundedInt (.object members) "config_retry_initial_delay_s" 1 1 60
          then parseBoundedInt (.object members) "config_retry_initial_delay_s" 1 1 60
          else parseBoundedInt (.object members) "config_retry_max_delay_s" 5 1 300 := by
      rw [parseTiming, found]
    have floor : BoundedField.floor
        ⟨true, "config_retry_max_delay_s", 5, 1, 300, (·.timing.configRetryMaxDelayS)⟩ sched =
          (parseTiming sched).configRetryInitialDelayS := if_pos rfl
    rw [floor, first]
    dsimp only
    rw [timing, longest]
    split <;> omega
  all_goals
    dsimp only
    rw [BoundedField.floor, if_neg (by decide), ← parseBoundedInt_raised _ (by decide) (by decide)]
    rw [timing, parseTiming, found]

/-- A bounded number is parsed from its object, and may be raised by other numbers. -/
theorem value_eq_parse {field : BoundedField} (member : field ∈ boundedFields) {sched holder : Json}
    (isHolder : field.holder? sched = some holder) :
    field.value (parseSchedSection sched) = max (field.floor sched)
      (parseBoundedInt holder field.name field.defaultValue field.minValue field.maxValue) := by
  rcases List.mem_append.mp member with plain | timing
  · exact value_eq_of_section plain isHolder
  · exact value_eq_of_timing timing isHolder

/-- A bounded number is the narrowed integer, if that is in range, or the default, or what other
numbers leave it. -/
theorem value_eq {field : BoundedField} (member : field ∈ boundedFields) {sched : Json}
    {value : Int} (carries : field.Carries sched value) :
    field.value (parseSchedSection sched) = max (field.floor sched)
      (if Json.toInt32 value < field.minValue ∨ Json.toInt32 value > field.maxValue
        then field.defaultValue else Json.toInt32 value) := by
  obtain ⟨holder, isHolder, carried⟩ := carries
  rw [value_eq_parse member isHolder, parseBoundedInt_eq carried]

end ReUperf.ConfigParser
