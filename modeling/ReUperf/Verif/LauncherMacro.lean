import ReUperf.Core.ThreadMatcher
import ReUperf.Lib.EcmaPattern

/-!
# The launcher macro

A process rule for the launcher has a macro in place of an expression. The matcher builds its
pattern from the launcher's package name. The module reads that pattern by the grammar of
ECMAScript: the characters of the name, each one standing for itself, between anchors. So the rule
is for the launcher and for no other process.
-/

namespace ReUperf

open EcmaPattern

/-- The engine searches for a pattern as it reads: a pattern that has one reading, of anchors and
single characters, compiles and is found where its terms match, and the anchors match at the ends of
the text only. -/
structure RegexEngine.ReadsPattern (engine : RegexEngine) (pattern : Bytes) : Prop where
  /-- It compiles. -/
  compiles : ∀ terms, (∀ reading, Derives pattern reading ↔ reading = [terms]) → IsPlain terms →
    ∃ regex, engine.compile pattern false = some regex
  /-- It is searched for. -/
  searches : ∀ terms, (∀ reading, Derives pattern reading ↔ reading = [terms]) → IsPlain terms →
    ∀ regex, engine.compile pattern false = some regex → ∀ text,
      ∃ found, engine.search text regex = some found ∧ (found = true ↔ FoundIn text terms)

variable {engine : RegexEngine} {config : Config} {rule : ProcessRule}

/-- The text of the launcher macro. -/
def homePackage : Bytes := Bytes.ascii "/HOME_PACKAGE/"

/-- An escaped literal is read as its characters. -/
theorem literalText_escapeRegexLiteral (value : Bytes) :
    LiteralText value (escapeRegexLiteral value) := by
  have escapes : ∀ byte ∈ metacharacters, isIdentifierPart byte = false := by
    have all : metacharacters.all (fun byte => !isIdentifierPart byte) = true := by decide
    simpa using all
  have covers : ∀ byte ∈ syntaxCharacters, byte ∈ metacharacters := by
    have all : syntaxCharacters.all (fun byte => byte ∈ metacharacters) = true := by decide
    simpa using all
  induction value with
  | nil => exact .nil
  | cons byte value ih =>
    have split : escapeRegexLiteral (byte :: value) =
        (if byte ∈ metacharacters then Bytes.ascii "\\" ++ [byte] else [byte]) ++
          escapeRegexLiteral value := rfl
    rw [split]
    by_cases special : byte ∈ metacharacters
    · rw [if_pos special]
      exact .cons (.escaped (escapes byte special)) ih
    · rw [if_neg special]
      have plain : byte ∉ syntaxCharacters := fun member => special (covers byte member)
      exact .cons (.plain plain) ih

/-- The pattern of the macro is the escaped launcher between anchors. -/
theorem expandProcessRegex_homePackage (launcher : Bytes) :
    expandProcessRegex homePackage launcher = anchored (escapeRegexLiteral launcher) := by
  rw [expandProcessRegex, homePackage, if_pos rfl]
  rfl

/-- The pattern of the macro has one reading. -/
theorem derives_homePackage_iff (launcher : Bytes) (reading : Reading) :
    Derives (expandProcessRegex homePackage launcher) reading ↔
      reading = [anchoredTerms launcher] := by
  rw [expandProcessRegex_homePackage]
  exact derives_anchored_iff (literalText_escapeRegexLiteral launcher) reading

/-- The macro has no case prefix. -/
theorem parseRegexPattern_homePackage :
    parseRegexPattern homePackage = ⟨homePackage, false⟩ := by
  have unprefixed : homePackage.take 4 ≠ Bytes.ascii "(?i)" := by decide
  rw [parseRegexPattern, if_neg unprefixed]

/-- The rule of the macro is compiled. -/
theorem compileProcessRule_homePackage {launcher : Bytes} {pattern : engine.Regex}
    (isMacro : rule.regexStr = homePackage)
    (short : (expandProcessRegex homePackage launcher).length ≤ kMaxRegexLength)
    (compiles : engine.compile (expandProcessRegex homePackage launcher) false = some pattern) :
    ∃ compiled, compileProcessRule engine false launcher rule = some compiled ∧
      compiled.rule = rule ∧ compiled.pattern = pattern := by
  have parsed : parseRegexPattern rule.regexStr = ⟨homePackage, false⟩ := by
    rw [isMacro, parseRegexPattern_homePackage]
  have kept : ¬ (expandProcessRegex homePackage launcher).length > kMaxRegexLength := by omega
  let threadRules := rule.threadRules.zipIdx.filterMap fun indexed =>
    compileThreadRule engine false indexed.1 indexed.2
  have compiled : compileProcessRule engine false launcher rule =
      some ⟨rule, pattern, threadRules⟩ := by
    rw [compileProcessRule, parsed]
    dsimp only
    rw [if_neg kept, Bool.or_false, compiles]
    rfl
  exact ⟨_, compiled, rfl, rfl⟩

/-- The compiled rule of the configuration. -/
theorem compiledRules_homePackage {pattern : engine.Regex} (listed : rule ∈ config.sched.rules)
    (isMacro : rule.regexStr = homePackage) (sensitive : config.sched.caseInsensitive = false)
    (short : (expandProcessRegex homePackage config.launcherPackage).length ≤ kMaxRegexLength)
    (compiles :
      engine.compile (expandProcessRegex homePackage config.launcherPackage) false = some pattern) :
    ∃ compiled ∈ (ThreadMatcher.ofConfig engine config).compiledRules,
      compiled.rule = rule ∧ compiled.pattern = pattern := by
  obtain ⟨compiled, compiles, same, expression⟩ :=
    compileProcessRule_homePackage isMacro short compiles
  have member : compiled ∈ (ThreadMatcher.ofConfig engine config).compiledRules := by
    have built : (ThreadMatcher.ofConfig engine config).compiledRules =
        config.sched.rules.filterMap
          (compileProcessRule engine config.sched.caseInsensitive config.launcherPackage) := rfl
    rw [built, sensitive]
    exact List.mem_filterMap.mpr ⟨rule, listed, compiles⟩
  exact ⟨compiled, member, same, expression⟩

/-- A compiled rule whose expression is found in one text only accepts that text, in the command
line or as the process name. -/
theorem accepts_iff_of_search {compiled : CompiledProcessRule engine} {launcher : Bytes}
    (searches : ∀ text, engine.search text compiled.pattern = some (decide (text = launcher)))
    (args : MatchArgs) :
    compiled.accepts args = true ↔
      (args.cmdline ≠ [] ∧ args.cmdline = launcher) ∨ args.procName = launcher := by
  by_cases silent : args.cmdline = []
  · simp [CompiledProcessRule.accepts, searches, silent]
  · simp [CompiledProcessRule.accepts, searches, silent]

/-- The pattern of the launcher macro reads as the characters of the launcher between anchors and as
nothing else. Its rule is compiled, and its expression is found in a text exactly when the text is
the launcher. -/
theorem launcherMacro_literal (listed : rule ∈ config.sched.rules)
    (isMacro : rule.regexStr = homePackage) (sensitive : config.sched.caseInsensitive = false)
    (short : (expandProcessRegex homePackage config.launcherPackage).length ≤ kMaxRegexLength)
    (reads : engine.ReadsPattern (expandProcessRegex homePackage config.launcherPackage)) :
    (∀ reading, Derives (expandProcessRegex homePackage config.launcherPackage) reading ↔
        reading = [.lineStart :: config.launcherPackage.map Term.literal ++ [.lineEnd]]) ∧
      ∃ compiled ∈ (ThreadMatcher.ofConfig engine config).compiledRules,
        compiled.rule = rule ∧
        engine.compile (expandProcessRegex homePackage config.launcherPackage) false =
          some compiled.pattern ∧
        (∀ text,
          engine.search text compiled.pattern = some (decide (text = config.launcherPackage))) ∧
        ∀ args, compiled.accepts args = true ↔
          (args.cmdline ≠ [] ∧ args.cmdline = config.launcherPackage) ∨
            args.procName = config.launcherPackage := by
  have unique := derives_homePackage_iff config.launcherPackage
  have plain := isPlain_anchoredTerms config.launcherPackage
  obtain ⟨pattern, compiles⟩ := reads.compiles _ unique plain
  obtain ⟨compiled, member, same, expression⟩ :=
    compiledRules_homePackage listed isMacro sensitive short compiles
  have searches : ∀ text,
      engine.search text compiled.pattern = some (decide (text = config.launcherPackage)) := by
    intro text
    obtain ⟨found, searched, iff⟩ := reads.searches _ unique plain _ compiles text
    rw [foundIn_anchoredTerms, ← decide_eq_true_iff (p := text = config.launcherPackage)] at iff
    rw [expression, searched, Bool.eq_iff_iff.mpr iff]
  rw [← expression] at compiles
  exact ⟨unique, compiled, member, same, compiles, searches, accepts_iff_of_search searches⟩

/-- A configuration with a rule for the launcher. -/
def homeConfig : Config where
  launcherPackage := Bytes.ascii "com.example.home"
  sched := { rules := [{ name := Bytes.ascii "launcher", regexStr := homePackage }] }

/-- An engine for the pattern of that rule: a compiled expression is the text it stands for. -/
def homeEngine : RegexEngine where
  Regex := Bytes
  compile pattern ignoreCase :=
    if pattern = Bytes.ascii "^com\\.example\\.home$" ∧ ignoreCase = false then
      some (Bytes.ascii "com.example.home")
    else none
  search text expression := some (decide (text = expression))

/-- The engine searches for that pattern as it reads. -/
theorem homeEngine_readsPattern :
    homeEngine.ReadsPattern (expandProcessRegex homePackage homeConfig.launcherPackage) := by
  have compiles : homeEngine.compile
      (expandProcessRegex homePackage homeConfig.launcherPackage) false =
        some homeConfig.launcherPackage := by
    have same : expandProcessRegex homePackage homeConfig.launcherPackage =
        Bytes.ascii "^com\\.example\\.home$" := by decide
    have chosen : expandProcessRegex homePackage homeConfig.launcherPackage =
        Bytes.ascii "^com\\.example\\.home$" ∧ false = false := ⟨same, rfl⟩
    exact if_pos (e := none) chosen
  constructor
  · intro _ _ _
    exact ⟨_, compiles⟩
  · intro terms unique _ expression compiled text
    have own := (unique _).mp ((derives_homePackage_iff homeConfig.launcherPackage _).mpr rfl)
    have sameTerms : anchoredTerms homeConfig.launcherPackage = terms := by simpa using own
    have sameText : homeConfig.launcherPackage = expression :=
      Option.some.inj (compiles.symm.trans compiled)
    rw [← sameTerms, ← sameText]
    have found : ∀ launcher : Bytes,
        decide (text = launcher) = true ↔ FoundIn text (anchoredTerms launcher) := by
      intro launcher
      rw [foundIn_anchoredTerms, decide_eq_true_iff]
    exact ⟨_, rfl, found _⟩

theorem launcherMacro_literal_example :
    ∃ compiled ∈ (ThreadMatcher.ofConfig homeEngine homeConfig).compiledRules,
      compiled.accepts ⟨Bytes.ascii "com.example.home", [], .fg, [], true⟩ = true ∧
      compiled.accepts ⟨Bytes.ascii "comXexampleYhome", [], .fg, [], true⟩ = false := by
  obtain ⟨-, compiled, member, -, -, -, accepts⟩ :=
    @launcherMacro_literal homeEngine homeConfig _ (List.mem_singleton.mpr rfl) rfl rfl
      (by decide +kernel) homeEngine_readsPattern
  refine ⟨compiled, member, (accepts _).mpr (.inr rfl), ?_⟩
  rw [Bool.eq_false_iff]
  intro accepted
  rcases (accepts _).mp accepted with ⟨silent, -⟩ | name
  · exact silent rfl
  · exact absurd name (by decide +kernel)

end ReUperf
