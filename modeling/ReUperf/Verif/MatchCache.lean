import ReUperf.Core.ThreadMatcher

/-!
# The match cache

A remembered result is the search result of the call that left it. `Recorded` states that
for every entry of the cache; each operation keeps it, so a call is answered with the result
of an earlier call under the same key. A key is a concatenation of the call's fields, so
calls with other arguments can share it; a sequence of calls is answered as by empty caches
when no call finds an entry that such a call left within the time entries live.
-/

namespace ReUperf

variable {engine : RegexEngine}

/-! ## Entries -/

/-- An entry stands for the result it was made from. -/
theorem toResult_toCacheEntry {result : MatchResult} (matched : result.matched = true)
    (timestamp : Int) : (result.toCacheEntry timestamp).toResult = result := by
  ext <;> simp [MatchResult.toCacheEntry, ProcessCacheEntry.toResult, matched]

/-- The cache holds this entry under this key. -/
def ProcessCache.Holds (cache : ProcessCache) (key : Bytes) (entry : ProcessCacheEntry) : Prop :=
  ∃ bucket, (cache bucket).lookup key = some entry

namespace ProcessCache

variable {host : HashHost} {cache : ProcessCache} {key : Bytes} {entry : ProcessCacheEntry}

/-- An empty cache holds nothing. -/
theorem not_holds_empty : ¬ ProcessCache.empty.Holds key entry := by
  rintro ⟨bucket, stored⟩
  simp [ProcessCache.empty] at stored

/-- A change that adds nothing to a bucket adds nothing to the cache. -/
theorem Holds.of_onBucket {change : CacheBucket → CacheBucket} {target : Bytes}
    (other : Bytes → ProcessCacheEntry → Prop)
    (changed : ∀ bucket name content, (change bucket).lookup name = some content →
      bucket.lookup name = some content ∨ other name content)
    (holds : (onBucket host change target cache).Holds key entry) :
    cache.Holds key entry ∨ other key entry := by
  obtain ⟨bucket, stored⟩ := holds
  by_cases same : bucket = getCacheBucket host target
  · subst same
    rw [onBucket, Function.update_self] at stored
    exact (changed _ _ _ stored).imp_left fun kept => ⟨_, kept⟩
  · rw [onBucket, Function.update_of_ne same] at stored
    exact .inl ⟨bucket, stored⟩

/-- Removing a key adds nothing. -/
theorem lookup_of_erase {bucket : CacheBucket} {name target : Bytes}
    (stored : (bucket.erase target).lookup name = some entry) :
    bucket.lookup name = some entry := by
  by_cases same : name = target
  · subst same
    simp at stored
  · rwa [AList.lookup_erase_ne same] at stored

/-- Erasing a key of the cache adds nothing. -/
theorem Holds.of_erase {target : Bytes}
    (holds : (onBucket host (·.erase target) target cache).Holds key entry) :
    cache.Holds key entry :=
  (Holds.of_onBucket (fun _ _ => False)
    (fun _ _ _ stored => .inl (lookup_of_erase stored)) holds).resolve_right id

/-- Making room adds nothing. -/
theorem lookup_of_evict {bucket : CacheBucket} {name target : Bytes}
    (stored : (evict host target bucket).lookup name = some entry) :
    bucket.lookup name = some entry := by
  unfold evict at stored
  split at stored
  · split at stored
    · exact stored
    · exact lookup_of_erase stored
  · exact stored

/-- Storing an entry adds that entry. -/
theorem Holds.of_cacheProcessResult {ttl now : Int} {target : Bytes} {added : ProcessCacheEntry}
    (holds : (cacheProcessResult host ttl target added now cache).Holds key entry) :
    cache.Holds key entry ∨ (key = target ∧ entry = added) := by
  refine Holds.of_onBucket (fun name content => name = target ∧ content = added)
    (fun bucket name content stored => ?_) holds
  by_cases same : name = target
  · subst same
    rw [AList.lookup_insert] at stored
    exact .inr ⟨rfl, (Option.some.inj stored).symm⟩
  · rw [AList.lookup_insert_ne same] at stored
    exact .inl (Table.lookup_retain_eq_some.mp (lookup_of_evict stored)).1

/-- A lookup adds nothing. -/
theorem Holds.of_getCachedProcessResult {ttl now : Int} {target : Bytes}
    (holds : (getCachedProcessResult host ttl target now cache).2.Holds key entry) :
    cache.Holds key entry := by
  unfold getCachedProcessResult at holds
  split at holds
  · exact holds
  · split at holds
    · exact holds
    · exact holds.of_erase

/-- A lookup that answers finds a live entry of the cache. -/
theorem holds_of_getCachedProcessResult {ttl now : Int}
    (answered : (getCachedProcessResult host ttl key now cache).1 = some entry) :
    cache.Holds key entry ∧ elapsedMs now entry.timestamp < ttl := by
  unfold getCachedProcessResult at answered
  split at answered
  · simp at answered
  · split at answered
    · obtain rfl := Option.some.inj answered
      exact ⟨⟨_, ‹_›⟩, ‹_›⟩
    · simp at answered

end ProcessCache

/-! ## The invariant -/

/-- Every remembered result is the search result of one of the calls. -/
def Recorded (matcher : ThreadMatcher engine) (calls : List (MatchCall × CallTimes))
    (cache : ProcessCache) : Prop :=
  ∀ key entry, cache.Holds key entry → ∃ call ∈ calls, call.1.args.cacheKey = key ∧
    (matcher.search call.1.args).matched = true ∧
    entry = (matcher.search call.1.args).toCacheEntry call.2.made

/-- An empty cache remembers nothing. -/
theorem recorded_empty (matcher : ThreadMatcher engine) : Recorded matcher [] .empty :=
  fun _ _ holds => absurd holds ProcessCache.not_holds_empty

/-- A match keeps the invariant, with its call recorded. -/
theorem Recorded.matchImpl {matcher : ThreadMatcher engine} {host : HashHost}
    {calls : List (MatchCall × CallTimes)} {cache : ProcessCache}
    (recorded : Recorded matcher calls cache) (call : MatchCall × CallTimes) :
    Recorded matcher (calls ++ [call]) (matcher.matchImpl host call.1.args call.2 cache).2 := by
  have widen : ∀ key entry, cache.Holds key entry → ∃ earlier ∈ calls ++ [call],
      earlier.1.args.cacheKey = key ∧ (matcher.search earlier.1.args).matched = true ∧
      entry = (matcher.search earlier.1.args).toCacheEntry earlier.2.made := by
    intro key entry holds
    obtain ⟨earlier, member, rest⟩ := recorded key entry holds
    exact ⟨earlier, List.mem_append_left _ member, rest⟩
  intro key entry holds
  unfold ThreadMatcher.matchImpl at holds
  dsimp only at holds
  split at holds
  · exact widen key entry holds.of_erase
  · split at holds
    · rename_i cached after found
      have kept : after = (ProcessCache.getCachedProcessResult host
          matcher.config.sched.timing.processCacheTtlMs call.1.args.cacheKey call.2.looked cache).2 := by
        rw [found]
      exact widen key entry (kept ▸ holds).of_getCachedProcessResult
    · rename_i after found
      have kept : after = (ProcessCache.getCachedProcessResult host
          matcher.config.sched.timing.processCacheTtlMs call.1.args.cacheKey call.2.looked cache).2 := by
        rw [found]
      split at holds
      · rename_i storable
        rcases holds.of_cacheProcessResult with old | ⟨rfl, rfl⟩
        · exact widen key entry (kept ▸ old).of_getCachedProcessResult
        · exact ⟨call, by simp, rfl, storable.1, rfl⟩
      · exact widen key entry (kept ▸ holds).of_getCachedProcessResult

/-! ## Results -/

/-- Without a cache a call is answered by the search, unless the process is unreadable. -/
theorem matchFresh_eq (matcher : ThreadMatcher engine) (host : HashHost)
    (call : MatchCall × CallTimes) :
    matcher.matchFresh host call =
      if call.1.args.procName = deadName then { effectiveState := call.1.args.actualState }
      else matcher.search call.1.args := by
  have missed : ProcessCache.getCachedProcessResult host
      matcher.config.sched.timing.processCacheTtlMs call.1.args.cacheKey call.2.looked .empty =
        (none, .empty) := by
    simp [ProcessCache.getCachedProcessResult, ProcessCache.empty]
  unfold ThreadMatcher.matchFresh ThreadMatcher.matchImpl
  dsimp only
  split
  · rfl
  · rw [missed]
    dsimp only
    split <;> rfl

/-- A call is answered as without a cache when every recorded call under its key has its
arguments or left an entry that has expired. -/
theorem matchImpl_eq_matchFresh {matcher : ThreadMatcher engine} {host : HashHost}
    {calls : List (MatchCall × CallTimes)} {cache : ProcessCache}
    (recorded : Recorded matcher calls cache) {call : MatchCall × CallTimes}
    (apart : ∀ earlier ∈ calls, earlier.1.args.cacheKey = call.1.args.cacheKey →
      earlier.1.args = call.1.args ∨
        matcher.config.sched.timing.processCacheTtlMs ≤ elapsedMs call.2.looked earlier.2.made) :
    (matcher.matchImpl host call.1.args call.2 cache).1 = matcher.matchFresh host call := by
  rw [matchFresh_eq]
  unfold ThreadMatcher.matchImpl
  dsimp only
  split
  · rfl
  · split
    · rename_i cached after found
      have answered : (ProcessCache.getCachedProcessResult host
          matcher.config.sched.timing.processCacheTtlMs call.1.args.cacheKey call.2.looked
            cache).1 = some cached := by
        rw [found]
      obtain ⟨holds, live⟩ := ProcessCache.holds_of_getCachedProcessResult answered
      obtain ⟨earlier, member, sameKey, matched, rfl⟩ := recorded _ _ holds
      rcases apart earlier member sameKey with same | expired
      · rw [toResult_toCacheEntry matched, same]
      · exact absurd live (not_lt.mpr expired)
    · split <;> rfl

/-- Calls are answered as by empty caches, given the calls that came before. -/
theorem matchCalls_eq_matchFresh_of_recorded {matcher : ThreadMatcher engine} {host : HashHost}
    (rest : List (MatchCall × CallTimes)) {calls : List (MatchCall × CallTimes)}
    {cache : ProcessCache} (recorded : Recorded matcher calls cache)
    (apart : (calls ++ rest).Pairwise fun earlier later =>
      earlier.1.args.cacheKey = later.1.args.cacheKey → earlier.1.args = later.1.args ∨
        matcher.config.sched.timing.processCacheTtlMs ≤ elapsedMs later.2.looked earlier.2.made) :
    matcher.matchCalls host rest cache = rest.map (matcher.matchFresh host) := by
  induction rest generalizing calls cache with
  | nil => rfl
  | cons call rest ih =>
    have first : (matcher.matchImpl host call.1.args call.2 cache).1 =
        matcher.matchFresh host call :=
      matchImpl_eq_matchFresh recorded fun earlier member =>
        (List.pairwise_append.mp apart).2.2 earlier member call List.mem_cons_self
    rw [ThreadMatcher.matchCalls, List.map_cons, first,
      ih (recorded.matchImpl call) (by simpa using apart)]

/-- The second of two calls under one key is answered with the result of the first while the
entry lives, so the pair is answered as by empty caches exactly when the searches agree. -/
theorem matchCalls_pair_iff {matcher : ThreadMatcher engine} {host : HashHost}
    {first second : MatchCall × CallTimes}
    (sameKey : first.1.args.cacheKey = second.1.args.cacheKey)
    (readable : first.1.args.procName ≠ deadName) (alsoReadable : second.1.args.procName ≠ deadName)
    (matched : (matcher.search first.1.args).matched = true)
    (named : (matcher.search first.1.args).matchedRuleName ≠ [])
    (live : elapsedMs second.2.looked first.2.made < matcher.config.sched.timing.processCacheTtlMs) :
    matcher.matchCalls host [first, second] .empty =
        [first, second].map (matcher.matchFresh host) ↔
      matcher.search first.1.args = matcher.search second.1.args := by
  have stored : (matcher.matchImpl host first.1.args first.2 .empty).2 =
      ProcessCache.cacheProcessResult host matcher.config.sched.timing.processCacheTtlMs
        second.1.args.cacheKey ((matcher.search first.1.args).toCacheEntry first.2.made)
        first.2.stored .empty := by
    simp [ThreadMatcher.matchImpl, readable, ProcessCache.getCachedProcessResult,
      ProcessCache.empty, matched, named, sameKey]
  have fresh := matchFresh_eq matcher host first
  have answered : (matcher.matchImpl host second.1.args second.2
      (matcher.matchImpl host first.1.args first.2 .empty).2).1 =
        matcher.search first.1.args := by
    have served : ((matcher.search first.1.args).toCacheEntry first.2.made).timestamp =
        first.2.made := rfl
    rw [stored]
    simp [ThreadMatcher.matchImpl, alsoReadable, ProcessCache.getCachedProcessResult,
      ProcessCache.cacheProcessResult, ProcessCache.onBucket, served, live,
      toResult_toCacheEntry matched]
  rw [if_neg readable] at fresh
  simp only [ThreadMatcher.matchCalls, List.map_cons, List.map_nil, List.cons.injEq, and_true]
  rw [answered, matchFresh_eq matcher host second, if_neg alsoReadable]
  exact and_iff_right rfl

/-! ## Distinct keys -/

/-- The number of a state is one character of the key. -/
theorem decimal_toInt_length (state : ProcessState) : (Bytes.decimal state.toInt).length = 1 := by
  cases state <;> rfl

/-- Distinct states have distinct numbers. -/
theorem decimal_toInt_inj {left right : ProcessState}
    (same : Bytes.decimal left.toInt = Bytes.decimal right.toInt) : left = right := by
  have bounds : ∀ state : ProcessState, 0 ≤ state.toInt := by intro state; cases state <;> decide
  have numbers := Bytes.decimal_inj (bounds left) (bounds right) same
  revert numbers
  cases left <;> cases right <;> decide

/-- Calls whose process and thread names lack the separator's first byte have distinct keys
when they have distinct arguments. -/
theorem args_eq_of_cacheKey_eq {left right : MatchArgs}
    (leftNames : 35 ∉ left.procName ∧ 35 ∉ left.threadName)
    (rightNames : 35 ∉ right.procName ∧ 35 ∉ right.threadName)
    (same : left.cacheKey = right.cacheKey) : left = right := by
  have separator : keySeparator = [35, 124, 35] := rfl
  simp only [MatchArgs.cacheKey, separator, List.append_assoc, List.cons_append,
    List.nil_append] at same
  obtain ⟨procName, same⟩ := Bytes.append_separator_inj leftNames.1 rightNames.1 same
  simp only [List.cons.injEq, true_and] at same
  obtain ⟨threadName, same⟩ := Bytes.append_separator_inj leftNames.2 rightNames.2 same
  simp only [List.cons.injEq, true_and] at same
  have flagLength : ∀ flag : Bool, (Bytes.decimal (if flag then 1 else 0)).length = 1 := by decide
  obtain ⟨cmdline, same⟩ := List.append_inj' same (by
    simp [decimal_toInt_length, flagLength])
  simp only [List.cons.injEq, true_and] at same
  obtain ⟨state, same⟩ := List.append_inj same (by simp [decimal_toInt_length])
  simp only [List.cons.injEq, true_and] at same
  have flag : left.isMainThread = right.isMainThread := by
    revert same
    cases left.isMainThread <;> cases right.isMainThread <;> decide
  exact MatchArgs.ext procName threadName (decimal_toInt_inj state) cmdline flag

/-! ## Transparency -/

/-- The match cache is transparent for every sequence of calls in which calls under one key
have the same arguments or lie a lifetime of an entry apart. -/
theorem matchCalls_eq_matchFresh (engine : RegexEngine) (config : Config) (host : HashHost)
    (calls : List (MatchCall × CallTimes))
    (apart : calls.Pairwise fun earlier later =>
      earlier.1.args.cacheKey = later.1.args.cacheKey → earlier.1.args = later.1.args ∨
        config.sched.timing.processCacheTtlMs ≤ elapsedMs later.2.looked earlier.2.made) :
    (ThreadMatcher.ofConfig engine config).matchCalls host calls .empty =
      calls.map ((ThreadMatcher.ofConfig engine config).matchFresh host) :=
  matchCalls_eq_matchFresh_of_recorded calls (recorded_empty _) apart

/-- A regular expression library restricted to expressions without metacharacters, which are
searched for literally. -/
def literalEngine : RegexEngine where
  Regex := Bytes
  compile pattern _ := some pattern
  search text pattern := some (text.tails.any (pattern.isPrefixOf ·))

/-- A hash table that puts every string in one bucket. -/
def plainHost : HashHost where
  hash _ := 0
  iteration bucket := bucket.keys

/-- A configuration with one rule, whose thread rule is for thread names with the separator's
first byte. -/
def separatorConfig : Config where
  sched :=
    { rules :=
        [{ name := Bytes.ascii "app"
           regexStr := Bytes.ascii "a"
           threadRules :=
            [{ keyword := Bytes.ascii "#"
               affinityClass := Bytes.ascii "auto"
               prioClass := Bytes.ascii "high" }] }] }

/-- A call at the start of the clock for a thread of a background process. -/
def separatorCall (procName threadName : String) : MatchCall × CallTimes :=
  (.thread (Bytes.ascii procName) (Bytes.ascii threadName) .bg 10 11 [], ⟨0, 0, 0⟩)

/-- Three calls without collisions are answered as by empty caches. -/
theorem matchCalls_eq_matchFresh_distinct :
    (ThreadMatcher.ofConfig literalEngine separatorConfig).matchCalls plainHost
        [separatorCall "app" "a#b", separatorCall "app" "b", separatorCall "app" "a#b"] .empty =
      [separatorCall "app" "a#b", separatorCall "app" "b", separatorCall "app" "a#b"].map
        ((ThreadMatcher.ofConfig literalEngine separatorConfig).matchFresh plainHost) :=
  matchCalls_eq_matchFresh literalEngine separatorConfig plainHost _ (by decide)

/-- The names `a#|#b`, `c` and `a`, `b#|#c` share a key, and the second call is answered with
the result of the first. -/
theorem matchCalls_collision :
    (ThreadMatcher.ofConfig literalEngine separatorConfig).matchCalls plainHost
        [separatorCall "a#|#b" "c", separatorCall "a" "b#|#c"] .empty ≠
      [separatorCall "a#|#b" "c", separatorCall "a" "b#|#c"].map
        ((ThreadMatcher.ofConfig literalEngine separatorConfig).matchFresh plainHost) := by
  decide

end ReUperf
