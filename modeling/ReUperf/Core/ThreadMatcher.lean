import Mathlib.Logic.Function.Basic
import ReUperf.Config.Types

/-!
# Thread matcher

The matcher of `thread_matcher.hpp`: compilation of the configured rules, the search for the
rule of a process and of a thread, and the cache of match results. The regular expression
library is a parameter. A search that throws is a search without an answer.
-/

namespace ReUperf

/-- The result of matching one thread. -/
@[ext] structure MatchResult where
  /-- Whether a process rule matched. -/
  matched : Bool := false
  /-- The affinity class of the matched thread rule. -/
  affinityClass : Bytes := []
  /-- The priority class of the matched thread rule. -/
  prioClass : Bytes := []
  /-- The resolved mask name, which names the cpuset group. -/
  cpumaskName : Bytes := []
  /-- The utilisation clamp of the matched thread rule. -/
  uclampMax : Option Int := none
  /-- The CPU share of the matched thread rule. -/
  cpuShare : Option Int := none
  /-- Whether the thread moves to the rule's cpuctl group. -/
  enableLimit : Bool := false
  /-- The state the classes are resolved in. -/
  effectiveState : ProcessState
  /-- The name of the matched process rule. -/
  matchedRuleName : Bytes := []
  /-- The index of the matched thread rule in the configuration, or `-1`. -/
  threadRuleIndex : Int := -1
  /-- Whether the matched process rule is pinned. -/
  pinned : Bool := false
  /-- Whether the matched process rule promotes foreground processes. -/
  topfore : Bool := false
  deriving DecidableEq

/-- Whether a result moves the thread to a cpuset group. -/
def hasResolvedAffinity (result : MatchResult) : Bool :=
  result.affinityClass ≠ [] && result.affinityClass ≠ Bytes.ascii "auto" && result.cpumaskName ≠ []

/-- Whether a background process is dispatched: one that a rule matches or that has a baseline,
but no kernel thread without a baseline that only the default rule matches. -/
def shouldDispatchBackgroundProcess (result : MatchResult) (hasBaseline kernelThread : Bool) :
    Bool :=
  if kernelThread && !hasBaseline && result.matchedRuleName = Bytes.ascii "Default rule" then false
  else result.matched || hasBaseline

/-- Whether a component that was managed is so no longer. -/
def shouldRestoreManagedComponent (previouslyManaged currentlyManaged : Bool) : Bool :=
  previouslyManaged && !currentlyManaged

/-- Field by field comparison of two results. -/
def isResultEqual (a b : MatchResult) : Bool :=
  a.matched == b.matched && a.affinityClass == b.affinityClass && a.prioClass == b.prioClass
    && a.cpumaskName == b.cpumaskName && a.effectiveState == b.effectiveState
    && a.enableLimit == b.enableLimit && a.uclampMax == b.uclampMax && a.cpuShare == b.cpuShare
    && a.threadRuleIndex == b.threadRuleIndex && a.matchedRuleName == b.matchedRuleName
    && a.pinned == b.pinned && a.topfore == b.topfore

/-- The comparison covers every field. -/
@[simp] theorem isResultEqual_iff {a b : MatchResult} : isResultEqual a b = true ↔ a = b := by
  simp only [isResultEqual, Bool.and_eq_true, beq_iff_eq, MatchResult.ext_iff]
  tauto

/-! ## Resolution of class names -/

namespace SchedConfig

/-- The mask name of an affinity class in a state; empty when there is none. -/
def getCpumaskNameForAffinity (sched : SchedConfig) (affinityClass : Bytes)
    (effectiveState : ProcessState) : Bytes :=
  if affinityClass = [] ∨ affinityClass = Bytes.ascii "auto" then []
  else match sched.affinity.lookup affinityClass with
    | none => []
    | some scene => scene.at effectiveState

/-- The CPUs of an affinity class in a state; empty when there are none. -/
def getCpusForAffinity (sched : SchedConfig) (affinityClass : Bytes)
    (effectiveState : ProcessState) : List Int :=
  let cpumaskName := sched.getCpumaskNameForAffinity affinityClass effectiveState
  if cpumaskName = [] then []
  else (sched.cpumask.lookup cpumaskName).getD []

/-- The priority value of a priority class in a state; zero when there is none. -/
def getPrioValue (sched : SchedConfig) (prioClass : Bytes) (state : ProcessState) : Int :=
  if prioClass = [] ∨ prioClass = Bytes.ascii "auto" then 0
  else match sched.prio.lookup prioClass with
    | none => 0
    | some scene => scene.at state

end SchedConfig

/-! ## Compilation of the rules -/

/-- The regular expression library. -/
structure RegexEngine where
  /-- A compiled expression. -/
  Regex : Type
  /-- Compile an expression, ignoring case when asked to; nothing when it is invalid. -/
  compile : Bytes → Bool → Option Regex
  /-- Search a text for an expression; nothing when the search throws. -/
  search : Bytes → Regex → Option Bool

/-- A thread rule with its compiled keyword. -/
structure CompiledThreadRule (engine : RegexEngine) where
  /-- The configured rule. -/
  rule : ThreadRule
  /-- The compiled keyword; that of a main thread rule is never searched for. -/
  pattern : Option engine.Regex
  /-- The index of the rule in the configuration. -/
  sourceRuleIndex : Nat
  /-- Whether the rule is for the main thread. -/
  isMainThreadRule : Bool

/-- A process rule with its compiled expressions. -/
structure CompiledProcessRule (engine : RegexEngine) where
  /-- The configured rule. -/
  rule : ProcessRule
  /-- The compiled expression. -/
  pattern : engine.Regex
  /-- The thread rules that could be compiled. -/
  threadRules : List (CompiledThreadRule engine)

/-- The longest expression that is compiled. -/
def kMaxRegexLength : Nat := 500

/-- An expression without its case prefix. -/
structure RegexPattern where
  /-- The expression. -/
  pattern : Bytes
  /-- Whether the prefix asked to ignore case. -/
  caseInsensitive : Bool

/-- Take the case prefix off an expression. -/
def parseRegexPattern (pattern : Bytes) : RegexPattern :=
  if pattern.take 4 = Bytes.ascii "(?i)" then ⟨pattern.drop 4, true⟩ else ⟨pattern, false⟩

/-- The bytes `escape_regex_literal` escapes: the metacharacters and the terminator, which
`strchr` finds as well. -/
def metacharacters : Bytes := Bytes.ascii "\\^$.|?*+()[]\x7b\x7d" ++ [0]

/-- Escape the metacharacters of a literal. -/
def escapeRegexLiteral (value : Bytes) : Bytes :=
  value.flatMap fun character =>
    if character ∈ metacharacters then Bytes.ascii "\\" ++ [character] else [character]

/-- Expand the launcher macro. -/
def expandProcessRegex (regexStr launcher : Bytes) : Bytes :=
  if regexStr = Bytes.ascii "/HOME_PACKAGE/" then
    Bytes.ascii "^" ++ escapeRegexLiteral launcher ++ Bytes.ascii "$"
  else regexStr

/-- Expand the main thread macro. -/
def expandThreadRegex (keyword processName : Bytes) : Bytes :=
  if keyword = Bytes.ascii "/MAIN_THREAD/" then processName else keyword

variable {engine : RegexEngine}

/-- Compile a thread rule; nothing when its keyword is too long or invalid. -/
def compileThreadRule (engine : RegexEngine) (ignoreCase : Bool) (rule : ThreadRule)
    (sourceRuleIndex : Nat) : Option (CompiledThreadRule engine) :=
  let threadRegex := parseRegexPattern rule.keyword
  if threadRegex.pattern = Bytes.ascii "/MAIN_THREAD/" then
    some ⟨rule, engine.compile (Bytes.ascii "^$") false, sourceRuleIndex, true⟩
  else
    let expanded := expandThreadRegex threadRegex.pattern []
    if expanded.length > kMaxRegexLength then none
    else
      (engine.compile expanded (threadRegex.caseInsensitive || ignoreCase)).map fun pattern =>
        ⟨rule, some pattern, sourceRuleIndex, false⟩

/-- Compile a process rule; nothing when its expression is too long or invalid. -/
def compileProcessRule (engine : RegexEngine) (ignoreCase : Bool) (launcher : Bytes)
    (rule : ProcessRule) : Option (CompiledProcessRule engine) :=
  let processRegex := parseRegexPattern rule.regexStr
  let expanded := expandProcessRegex processRegex.pattern launcher
  if expanded.length > kMaxRegexLength then none
  else
    (engine.compile expanded (processRegex.caseInsensitive || ignoreCase)).map fun pattern =>
      ⟨rule, pattern, rule.threadRules.zipIdx.filterMap fun indexed =>
        compileThreadRule engine ignoreCase indexed.1 indexed.2⟩

/-- A matcher: the configuration and its compiled rules. -/
structure ThreadMatcher (engine : RegexEngine) where
  /-- The configuration. -/
  config : Config
  /-- The rules that could be compiled, in order. -/
  compiledRules : List (CompiledProcessRule engine)

/-- The matcher of a configuration. -/
def ThreadMatcher.ofConfig (engine : RegexEngine) (config : Config) : ThreadMatcher engine where
  config := config
  compiledRules := config.sched.rules.filterMap
    (compileProcessRule engine config.sched.caseInsensitive config.launcherPackage)

/-! ## Matching -/

/-- What a match depends on. -/
@[ext] structure MatchArgs where
  /-- The process name. -/
  procName : Bytes
  /-- The thread name. -/
  threadName : Bytes
  /-- The observed state of the process. -/
  actualState : ProcessState
  /-- The command line. -/
  cmdline : Bytes
  /-- Whether the thread is the main thread. -/
  isMainThread : Bool
  deriving DecidableEq

/-- Whether a process rule matches: its expression is found in the command line or in the
process name, and neither search throws. -/
def CompiledProcessRule.accepts (rule : CompiledProcessRule engine) (args : MatchArgs) : Bool :=
  let cmdlineMatched :=
    if args.cmdline = [] then some false else engine.search args.cmdline rule.pattern
  match cmdlineMatched, engine.search args.procName rule.pattern with
  | some inCmdline, some inName => inCmdline || inName
  | _, _ => false

/-- Whether a thread rule matches. -/
def CompiledThreadRule.accepts (rule : CompiledThreadRule engine) (args : MatchArgs) : Bool :=
  if rule.isMainThreadRule then args.isMainThread
  else ((rule.pattern.bind (engine.search args.threadName)).getD false)

/-- The state a process rule resolves the classes in. -/
def ProcessRule.effectiveState (rule : ProcessRule) (actualState : ProcessState) : ProcessState :=
  if rule.pinned then .top
  else if rule.topfore ∧ actualState = .fg then .top
  else actualState

/-- Copy the classes of the matched thread rule into a result. -/
def MatchResult.withThreadRule (result : MatchResult) :
    Option (CompiledThreadRule engine) → MatchResult
  | none => result
  | some compiled =>
    { result with
      affinityClass := compiled.rule.affinityClass
      prioClass := compiled.rule.prioClass
      uclampMax := compiled.rule.uclampMax
      cpuShare := compiled.rule.cpuShare
      enableLimit := compiled.rule.enableLimit
      threadRuleIndex := compiled.sourceRuleIndex }

/-- Resolve the mask name of a result. -/
def MatchResult.withCpumask (sched : SchedConfig) (result : MatchResult) : MatchResult :=
  { result with
    cpumaskName := sched.getCpumaskNameForAffinity result.affinityClass result.effectiveState }

/-- The result of a matched process rule. -/
def CompiledProcessRule.result (sched : SchedConfig) (rule : CompiledProcessRule engine)
    (args : MatchArgs) : MatchResult :=
  let base : MatchResult :=
    { matched := true
      matchedRuleName := rule.rule.name
      effectiveState := rule.rule.effectiveState args.actualState
      pinned := rule.rule.pinned
      topfore := rule.rule.topfore }
  (base.withThreadRule (rule.threadRules.find? (·.accepts args))).withCpumask sched

/-- The result of the search through the rules, without the cache. -/
def ThreadMatcher.search (matcher : ThreadMatcher engine) (args : MatchArgs) : MatchResult :=
  match matcher.compiledRules.find? (·.accepts args) with
  | none => { effectiveState := args.actualState }
  | some rule => rule.result matcher.config.sched args

/-! ## The match cache -/

/-- One remembered result. -/
structure ProcessCacheEntry where
  /-- The name of the matched process rule. -/
  matchedRuleName : Bytes
  /-- The affinity class. -/
  affinityClass : Bytes
  /-- The priority class. -/
  prioClass : Bytes
  /-- The mask name. -/
  cpumaskName : Bytes
  /-- The utilisation clamp. -/
  uclampMax : Option Int
  /-- The CPU share. -/
  cpuShare : Option Int
  /-- Whether the thread moves to the rule's cpuctl group. -/
  enableLimit : Bool
  /-- The state the classes were resolved in. -/
  effectiveState : ProcessState
  /-- The index of the thread rule. -/
  threadRuleIndex : Int
  /-- Whether the process rule is pinned. -/
  pinned : Bool
  /-- Whether the process rule promotes foreground processes. -/
  topfore : Bool
  /-- When the entry was made, in nanoseconds. -/
  timestamp : Int
  deriving DecidableEq

/-- The entry that remembers a result. -/
def MatchResult.toCacheEntry (result : MatchResult) (timestamp : Int) : ProcessCacheEntry where
  matchedRuleName := result.matchedRuleName
  affinityClass := result.affinityClass
  prioClass := result.prioClass
  cpumaskName := result.cpumaskName
  uclampMax := result.uclampMax
  cpuShare := result.cpuShare
  enableLimit := result.enableLimit
  effectiveState := result.effectiveState
  threadRuleIndex := result.threadRuleIndex
  pinned := result.pinned
  topfore := result.topfore
  timestamp := timestamp

/-- The result an entry stands for. -/
def ProcessCacheEntry.toResult (entry : ProcessCacheEntry) : MatchResult where
  matched := true
  matchedRuleName := entry.matchedRuleName
  affinityClass := entry.affinityClass
  prioClass := entry.prioClass
  cpumaskName := entry.cpumaskName
  uclampMax := entry.uclampMax
  cpuShare := entry.cpuShare
  enableLimit := entry.enableLimit
  effectiveState := entry.effectiveState
  threadRuleIndex := entry.threadRuleIndex
  pinned := entry.pinned
  topfore := entry.topfore

/-- The number of buckets of the cache. -/
def kCacheBuckets : Nat := 16

/-- The most entries a bucket holds. -/
def kMaxProcessCacheEntriesPerBucket : Nat := 256

/-- One bucket of the cache. -/
abbrev CacheBucket : Type := Table Bytes ProcessCacheEntry

/-- The cache: its buckets by number. -/
abbrev ProcessCache : Type := Nat → CacheBucket

/-- The cache of a new matcher. -/
def ProcessCache.empty : ProcessCache := fun _ => ∅

/-- What the standard library leaves open about its hash tables. -/
structure HashHost where
  /-- The hash of a string. -/
  hash : Bytes → Nat
  /-- The order in which a bucket is iterated. -/
  iteration : CacheBucket → List Bytes

/-- The readings of the clock during one call. -/
structure CallTimes where
  /-- When the cache is searched. -/
  looked : Int
  /-- When the new entry is made. -/
  made : Int
  /-- When the new entry is stored. -/
  stored : Int

/-- The milliseconds between two readings, as `duration_cast` truncates them. -/
def elapsedMs (now earlier : Int) : Int := (now - earlier).tdiv 1000000

namespace ProcessCache

variable (host : HashHost)

/-- The bucket of a key. -/
def getCacheBucket (key : Bytes) : Nat := host.hash key % kCacheBuckets

/-- Change one bucket. -/
def onBucket (change : CacheBucket → CacheBucket) (key : Bytes) (cache : ProcessCache) :
    ProcessCache :=
  Function.update cache (getCacheBucket host key) (change (cache (getCacheBucket host key)))

/-- The remembered result of a key, dropping an expired one. -/
def getCachedProcessResult (ttl : Int) (key : Bytes) (now : Int) (cache : ProcessCache) :
    Option ProcessCacheEntry × ProcessCache :=
  match (cache (getCacheBucket host key)).lookup key with
  | none => (none, cache)
  | some entry =>
    if elapsedMs now entry.timestamp < ttl then (some entry, cache)
    else (none, onBucket host (·.erase key) key cache)

/-- The key of an oldest entry: the first one in iteration order that no entry precedes. -/
def oldest (bucket : CacheBucket) : Option Bytes :=
  (host.iteration bucket).find? fun key =>
    match bucket.lookup key with
    | none => false
    | some entry => bucket.toPairs.all fun other => entry.timestamp ≤ other.2.timestamp

/-- Make room for a new key in a full bucket. -/
def evict (key : Bytes) (bucket : CacheBucket) : CacheBucket :=
  if bucket.lookup key = none ∧ bucket.entries.length ≥ kMaxProcessCacheEntriesPerBucket then
    match oldest host bucket with
    | none => bucket
    | some found => bucket.erase found
  else bucket

/-- Remember a result: drop the expired entries, make room and store the new one. -/
def cacheProcessResult (ttl : Int) (key : Bytes) (entry : ProcessCacheEntry) (now : Int)
    (cache : ProcessCache) : ProcessCache :=
  onBucket host (fun bucket =>
    let live := bucket.retain fun _ stored => !decide (elapsedMs now stored.timestamp ≥ ttl)
    (evict host key live).insert key entry) key cache

end ProcessCache

/-! ## Matching through the cache -/

/-- The number of a state. -/
def ProcessState.toInt : ProcessState → Int
  | .bg => 0
  | .fg => 1
  | .top => 2

/-- The separator of the fields of a cache key. -/
def keySeparator : Bytes := Bytes.ascii "#|#"

/-- The key a call is remembered under. -/
def MatchArgs.cacheKey (args : MatchArgs) : Bytes :=
  args.procName ++ keySeparator ++ args.threadName ++ keySeparator ++ args.cmdline ++ keySeparator
    ++ Bytes.decimal args.actualState.toInt ++ keySeparator
    ++ Bytes.decimal (if args.isMainThread then 1 else 0)

/-- The name `/proc` reading returns for a process it cannot read. -/
def deadName : Bytes := Bytes.ascii "[dead]"

/-- Match through the cache. -/
def ThreadMatcher.matchImpl (matcher : ThreadMatcher engine) (host : HashHost) (args : MatchArgs)
    (times : CallTimes) (cache : ProcessCache) : MatchResult × ProcessCache :=
  let ttl := matcher.config.sched.timing.processCacheTtlMs
  if args.procName = deadName then
    ({ effectiveState := args.actualState },
      ProcessCache.onBucket host (·.erase args.cacheKey) args.cacheKey cache)
  else
    match ProcessCache.getCachedProcessResult host ttl args.cacheKey times.looked cache with
    | (some cached, cache) => (cached.toResult, cache)
    | (none, cache) =>
      let result := matcher.search args
      if result.matched ∧ result.matchedRuleName ≠ [] then
        (result, ProcessCache.cacheProcessResult host ttl args.cacheKey
          (result.toCacheEntry times.made) times.stored cache)
      else (result, cache)

/-- A call of one of the two entry points. -/
inductive MatchCall
  /-- `match`, with the IDs that decide whether the thread is the main thread. -/
  | thread (procName threadName : Bytes) (actualState : ProcessState) (pid tid : Int)
      (cmdline : Bytes)
  /-- `match_process_only`, which matches as the main thread. -/
  | process (procName threadName : Bytes) (actualState : ProcessState) (pid : Int)
      (cmdline : Bytes)

/-- What a call's result depends on. -/
def MatchCall.args : MatchCall → MatchArgs
  | .thread procName threadName actualState pid tid cmdline =>
    ⟨procName, threadName, actualState, cmdline, tid = pid⟩
  | .process procName threadName actualState _ cmdline =>
    ⟨procName, threadName, actualState, cmdline, true⟩

/-- The results of a sequence of calls on one matcher. -/
def ThreadMatcher.matchCalls (matcher : ThreadMatcher engine) (host : HashHost) :
    List (MatchCall × CallTimes) → ProcessCache → List MatchResult
  | [], _ => []
  | (call, times) :: rest, cache =>
    (matcher.matchImpl host call.args times cache).1 ::
      matcher.matchCalls host rest (matcher.matchImpl host call.args times cache).2

/-- The result a call has on a matcher with an empty cache. -/
def ThreadMatcher.matchFresh (matcher : ThreadMatcher engine) (host : HashHost)
    (call : MatchCall × CallTimes) : MatchResult :=
  (matcher.matchImpl host call.1.args call.2 .empty).1

end ReUperf
