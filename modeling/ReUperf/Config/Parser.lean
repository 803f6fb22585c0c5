import Mathlib.Data.List.Destutter
import Mathlib.Data.List.Sort
import ReUperf.Config.Json
import ReUperf.Config.Types

/-!
# Configuration parser

The parser of `config_parser.hpp`. A document is refused only when its root is not an
object; an invalid part of it is dropped or replaced by its default, and names that refer to
nothing are cleared at the end.
-/

namespace ReUperf.ConfigParser

/-! ## Names of groups -/

/-- Whether a code point may stand in the name of a group, given the width of its encoding. -/
def isSafeCodepoint (width codepoint : Nat) : Bool :=
  let overlong := (width = 2 ∧ codepoint < 0x80) ∨ (width = 3 ∧ codepoint < 0x800)
    ∨ (width = 4 ∧ codepoint < 0x10000)
  let unicodeSpace := codepoint = 0x85 ∨ codepoint = 0xa0 ∨ codepoint = 0x1680
    ∨ (0x2000 ≤ codepoint ∧ codepoint ≤ 0x200a) ∨ codepoint = 0x2028 ∨ codepoint = 0x2029
    ∨ codepoint = 0x202f ∨ codepoint = 0x205f ∨ codepoint = 0x3000
  let invisible := codepoint ≤ 0x1f ∨ codepoint = 0x7f ∨ unicodeSpace
    ∨ (0x200b ≤ codepoint ∧ codepoint ≤ 0x200f) ∨ (0x202a ≤ codepoint ∧ codepoint ≤ 0x202e)
    ∨ codepoint = 0x2060 ∨ (0x2066 ≤ codepoint ∧ codepoint ≤ 0x2069) ∨ codepoint = 0xfeff
  !decide (overlong ∨ codepoint > 0x10ffff ∨ (0xd800 ≤ codepoint ∧ codepoint ≤ 0xdfff)
    ∨ invisible ∨ codepoint = 0x2f ∨ codepoint = 0x5c ∨ codepoint = 0x3a)

/-- Whether a byte continues a code point. -/
def isContinuation (byte : UInt8) : Bool := byte &&& 0xc0 = 0x80

/-- Add the payload of a continuation byte to a code point. -/
def appendContinuation (codepoint : Nat) (byte : UInt8) : Nat :=
  codepoint * 64 + (byte &&& 0x3f).toNat

/-- Whether a text is UTF-8 whose code points may all stand in the name of a group. -/
def isSafeText : Bytes → Bool
  | [] => true
  | lead :: rest =>
    if lead < 0x80 then isSafeCodepoint 1 lead.toNat && isSafeText rest
    else if lead &&& 0xe0 = 0xc0 then
      match rest with
      | second :: rest =>
        isContinuation second
          && isSafeCodepoint 2 (appendContinuation (lead &&& 0x1f).toNat second)
          && isSafeText rest
      | [] => false
    else if lead &&& 0xf0 = 0xe0 then
      match rest with
      | second :: third :: rest =>
        isContinuation second && isContinuation third
          && isSafeCodepoint 3
            (appendContinuation (appendContinuation (lead &&& 0x0f).toNat second) third)
          && isSafeText rest
      | _ => false
    else if lead &&& 0xf8 = 0xf0 then
      match rest with
      | second :: third :: fourth :: rest =>
        isContinuation second && isContinuation third && isContinuation fourth
          && isSafeCodepoint 4
            (appendContinuation (appendContinuation
              (appendContinuation (lead &&& 0x07).toNat second) third) fourth)
          && isSafeText rest
      | _ => false
    else false

/-- Whether a byte is ASCII white space. -/
def isAsciiSpace (byte : UInt8) : Bool := byte ∈ [32, 9, 10, 13, 12, 11]

/-- Whether a name may be the name of a group directory. -/
def isSafeCgroupComponent (name : Bytes) : Bool :=
  match name.head?, name.getLast? with
  | some front, some back =>
    name ≠ Bytes.ascii "." && name ≠ Bytes.ascii ".." && decide (name.length ≤ 128)
      && !isAsciiSpace front && !isAsciiSpace back && isSafeText name
  | _, _ => false

/-! ## Scalars -/

/-- An integer member within bounds, or the default. -/
def parseBoundedInt (json : Json) (name : String) (defaultValue minValue maxValue : Int) : Int :=
  let value := (json.intAt name).getD defaultValue
  if value < minValue ∨ value > maxValue then defaultValue else value

/-- A bounded member is within its bounds when its default is. -/
theorem parseBoundedInt_bounds {json : Json} {name : String} {defaultValue minValue maxValue : Int}
    (lower : minValue ≤ defaultValue) (upper : defaultValue ≤ maxValue) :
    minValue ≤ parseBoundedInt json name defaultValue minValue maxValue ∧
      parseBoundedInt json name defaultValue minValue maxValue ≤ maxValue := by
  unfold parseBoundedInt
  dsimp only
  split <;> omega

/-- The timing section. -/
def parseTiming (sched : Json) : TimingConfig :=
  match sched.find "timing" with
  | some (.object members) =>
    let parse := parseBoundedInt (.object members)
    let initialDelay := parse "config_retry_initial_delay_s" 1 1 60
    let maxDelay := parse "config_retry_max_delay_s" 5 1 300
    { eventThrottleMs := parse "event_throttle_ms" 50 0 5000
      minScheduleIntervalMs := parse "min_schedule_interval_ms" 200 0 60000
      scheduleCleanupIntervalMs := parse "schedule_cleanup_interval_ms" 5000 100 600000
      cgroupCheckIntervalMs := parse "cgroup_check_interval_ms" 1000 0 60000
      cpusetRetryCount := parse "cpuset_retry_count" 3 1 20
      cpusetRetryIntervalMs := parse "cpuset_retry_interval_ms" 10 0 1000
      cpusetGroupCheckTtlMs := parse "cpuset_group_check_ttl_ms" 1000 0 60000
      processCacheTtlMs := parse "process_cache_ttl_ms" 100 0 60000
      fileCacheTtlMs := parse "file_cache_ttl_ms" 100 0 60000
      cgroupCacheTtlMs := parse "cgroup_cache_ttl_ms" 100 0 60000
      monitorInitialRestartDelayS := parse "monitor_initial_restart_delay_s" 1 0 60
      monitorRestartRetryDelayS := parse "monitor_restart_retry_delay_s" 5 1 300
      configRetryInitialDelayS := initialDelay
      configRetryMaxDelayS := if maxDelay < initialDelay then initialDelay else maxDelay }
  | _ => {}

/-- The logging section. -/
def parseLog (sched : Json) : LogConfig :=
  match sched.find "log" with
  | some (.object members) =>
    { level := ((Json.object members).stringAt "level").getD ({} : LogConfig).level
      output := ((Json.object members).stringAt "output").getD ({} : LogConfig).output }
  | _ => {}

/-! ## CPU masks -/

/-- The number of CPUs a mask can name. -/
def cpuSetSize : Int := 1024

/-- The CPUs of a mask: the valid indices, sorted, each once. -/
def parseCpus (elements : List Json) : List Int :=
  let cpus := elements.filterMap fun cpu =>
    cpu.int?.filter fun value => decide (0 ≤ value ∧ value < cpuSetSize)
  (cpus.insertionSort (· ≤ ·)).destutter (· ≠ ·)

/-- Add one member of the mask section. -/
def addCpumask (masks : Table Bytes (List Int)) (member : Bytes × Json) : Table Bytes (List Int) :=
  if isSafeCgroupComponent member.1 then
    match member.2.elements? with
    | none => masks
    | some elements =>
      if parseCpus elements = [] then masks else masks.insert member.1 (parseCpus elements)
  else masks

/-- The mask section. -/
def parseCpumask (sched : Json) : Table Bytes (List Int) :=
  match sched.find "cpumask" with
  | some (.object members) => members.foldl addCpumask ∅
  | _ => ∅

/-! ## Classes -/

/-- The scene of an affinity class. -/
def parseAffinityScene (json : Json) : AffinityScene where
  bg := (json.stringAt "bg").getD []
  fg := (json.stringAt "fg").getD []
  top := ((json.stringAt "touch").or (json.stringAt "top")).getD []

/-- The affinity section. -/
def parseAffinity (sched : Json) : Table Bytes AffinityScene :=
  match sched.find "affinity" with
  | some (.object members) =>
    members.foldl (fun scenes member =>
      match member.2 with
      | .object fields => scenes.insert member.1 (parseAffinityScene (.object fields))
      | _ => scenes) ∅
  | _ => ∅

/-- Whether a priority value has a meaning. -/
def isValidPrioValue (value : Int) : Bool :=
  value = 0 || decide (1 ≤ value ∧ value ≤ 98) || decide (100 ≤ value ∧ value ≤ 139)
    || value = -1 || value = -2 || value = -3

/-- The priority value of a state, or the default. -/
def parsePrioValue (json : Json) (stateName : String) (defaultValue : Int) : Int :=
  match json.intAt stateName with
  | none => defaultValue
  | some value => if isValidPrioValue value then value else defaultValue

/-- The scene of a priority class. -/
def parsePrioScene (json : Json) : PrioScene where
  bg := parsePrioValue json "bg" 0
  fg := parsePrioValue json "fg" 0
  top := if (json.find "touch").isSome then parsePrioValue json "touch" 0
    else parsePrioValue json "top" 0

/-- The priority section. -/
def parsePrio (sched : Json) : Table Bytes PrioScene :=
  match sched.find "prio" with
  | some (.object members) =>
    members.foldl (fun scenes member =>
      match member.2 with
      | .object fields => scenes.insert member.1 (parsePrioScene (.object fields))
      | _ => scenes) ∅
  | _ => ∅

/-! ## Rules -/

/-- A limit within bounds, or none. -/
def parseLimit (json : Json) (name : String) (maxValue : Int) : Option Int :=
  (json.intAt name).filter fun value => decide (0 ≤ value ∧ value ≤ maxValue)

/-- A thread rule; nothing when the value is not an object. -/
def parseThreadRule (json : Json) : Option ThreadRule :=
  match json with
  | .object members =>
    let json := Json.object members
    some
      { keyword := (json.stringAt "k").getD (Bytes.ascii ".")
        affinityClass := (json.stringAt "ac").getD (Bytes.ascii "auto")
        prioClass := (json.stringAt "pc").getD (Bytes.ascii "auto")
        uclampMax := parseLimit json "uclamp_max" 100
        cpuShare := parseLimit json "cpu_share" 1024
        enableLimit := (json.boolAt "enable_limit").getD false }
  | _ => none

/-- The thread rules of a process rule. -/
def parseThreadRules (rule : Json) : List ThreadRule :=
  match rule.find "rules" with
  | some (.array elements) => elements.filterMap parseThreadRule
  | _ => []

/-- The rules read so far and the names seen. -/
structure RuleReader where
  /-- The names of the rules seen, also of those dropped after their name was read. -/
  ruleNames : List Bytes := []
  /-- The rules kept. -/
  rules : List ProcessRule := []

/-- The body of a process rule whose name is accepted; nothing when its expression is missing
or empty. -/
def parseProcessRule (name : Bytes) (rule : Json) : Option ProcessRule :=
  match rule.stringAt "regex" with
  | none => none
  | some regexStr =>
    if regexStr = [] then none
    else some
      { name := name
        regexStr := regexStr
        pinned := (rule.boolAt "pinned").getD false
        topfore := (rule.boolAt "topfore").getD false
        threadRules := parseThreadRules rule }

/-- Read one element of the rule section. -/
def addRule (reader : RuleReader) (rule : Json) : RuleReader :=
  match rule.members? with
  | none => reader
  | some _ =>
    let name := (rule.stringAt "name").getD []
    if ¬ isSafeCgroupComponent name then reader
    else if name ∈ reader.ruleNames then reader
    else
      { ruleNames := name :: reader.ruleNames
        rules := reader.rules ++ (parseProcessRule name rule).toList }

/-- The rule section. -/
def parseRules (sched : Json) : List ProcessRule :=
  match sched.find "rules" with
  | some (.array elements) => (elements.foldl addRule {}).rules
  | _ => []

/-! ## References -/

/-- Clear a mask name that no mask has. -/
def validateAffinityMask (masks : Table Bytes (List Int)) (maskName : Bytes) : Bytes :=
  if maskName ≠ [] ∧ masks.lookup maskName = none then [] else maskName

/-- Replace a class name that no class has by `auto`. -/
def validateClass {α : Type} (classes : Table Bytes α) (className : Bytes) : Bytes :=
  if className ≠ [] ∧ className ≠ Bytes.ascii "auto" ∧ classes.lookup className = none then
    Bytes.ascii "auto"
  else className

/-- Clear the names that refer to nothing. -/
def validateReferences (sched : SchedConfig) : SchedConfig :=
  let affinity := sched.affinity.mapValues fun scene =>
    { bg := validateAffinityMask sched.cpumask scene.bg
      fg := validateAffinityMask sched.cpumask scene.fg
      top := validateAffinityMask sched.cpumask scene.top : AffinityScene }
  { sched with
    affinity := affinity
    rules := sched.rules.map fun rule =>
      { rule with
        threadRules := rule.threadRules.map fun threadRule =>
          { threadRule with
            affinityClass := validateClass affinity threadRule.affinityClass
            prioClass := validateClass sched.prio threadRule.prioClass } } }

/-! ## Documents -/

/-- The scheduler section of an object that has one. -/
def parseSchedSection (sched : Json) : SchedConfig :=
  validateReferences
    { enable := (sched.boolAt "enable").getD true
      caseInsensitive := (sched.boolAt "case_insensitive").getD false
      refreshIntervalMs := parseBoundedInt sched "refresh_interval_ms" 2000 1 600000
      highspeedSchedMs := parseBoundedInt sched "highspeed_sched_ms" 300 1 60000
      topScanBudgetUs := parseBoundedInt sched "top_scan_budget_us" 4000 500 20000
      fullScanBudgetUs := parseBoundedInt sched "full_scan_budget_us" 12000 1000 50000
      scanBatchSize := parseBoundedInt sched "scan_batch_size" 32 1 256
      scanBatchYieldUs := parseBoundedInt sched "scan_batch_yield_us" 0 0 1000
      timing := parseTiming sched
      log := parseLog sched
      cpumask := parseCpumask sched
      affinity := parseAffinity sched
      prio := parsePrio sched
      rules := parseRules sched }

/-- The scheduler section of a document; without one the scheduler is disabled. -/
def parseSched (document : Json) : SchedConfig :=
  match document.find "modules" with
  | some (.object members) =>
    match (Json.object members).find "sched" with
    | some (.object fields) => parseSchedSection (.object fields)
    | _ => { enable := false }
  | _ => { enable := false }

/-- Parse a document; nothing when its root is not an object. -/
def parse (document : Json) : Option Config :=
  match document with
  | .object members =>
    let document := Json.object members
    let metaSection := match document.find "meta" with
      | some (.object fields) => Json.object fields
      | _ => .null
    some
      { metaName := (metaSection.stringAt "name").getD []
        metaAuthor := (metaSection.stringAt "author").getD []
        sched := parseSched document }
  | _ => none

end ReUperf.ConfigParser
