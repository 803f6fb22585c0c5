import ReUperf.Verif.LauncherMacro
import ReUperf.Verif.ShellCommands

/-!
# What the launcher finder finds

The scanner of package names accepts the names of a grammar: segments joined by dots. The fold over
the candidates keeps the first one of the best kind. So the launcher of a run is a package name, and
a rule with the launcher macro is always short enough to be compiled.
-/

namespace ReUperf.LauncherFinder

open Effect

/-! ## Package names -/

/-- A byte a segment goes on with. -/
def IsPart (byte : UInt8) : Prop := isAlnum byte = true ∨ byte = 95

/-- A segment of a package name: a letter, then letters, digits and underscores. -/
def IsSegment (segment : Bytes) : Prop :=
  ∃ first rest, segment = first :: rest ∧ isAlpha first = true ∧ ∀ byte ∈ rest, IsPart byte

/-- A package name: two segments or more, joined by dots. -/
structure IsPackageName (pkg : Bytes) : Prop where
  /-- It is short. -/
  short : pkg.length ≤ 128
  /-- Its segments. -/
  segments : ∃ segments : List Bytes, 2 ≤ segments.length ∧
    (∀ segment ∈ segments, IsSegment segment) ∧ pkg = [46].intercalate segments

/-- A letter goes on a segment too. -/
theorem isAlnum_of_isAlpha {byte : UInt8} (alpha : isAlpha byte = true) : isAlnum byte = true := by
  rw [isAlnum, alpha, Bool.true_or]

/-- A dot is no part of a segment. -/
theorem ne_dot_of_isPart {byte : UInt8} (part : IsPart byte) : byte ≠ 46 := by
  intro dot
  rw [dot, IsPart] at part
  exact absurd part (by decide)

/-- Joining one more text puts a separator after it. -/
theorem intercalate_cons {text : Bytes} {texts : List Bytes} (more : texts ≠ []) :
    [46].intercalate (text :: texts) = text ++ 46 :: [46].intercalate texts := by
  obtain ⟨second, rest, rfl⟩ := List.exists_cons_of_ne_nil more
  simp [List.intercalate, List.intersperse]

/-- Joining a longer text. -/
theorem intercalate_cons_cons (byte : UInt8) (text : Bytes) (texts : List Bytes) :
    [46].intercalate ((byte :: text) :: texts) = byte :: [46].intercalate (text :: texts) := by
  cases texts with
  | nil => simp [List.intercalate]
  | cons second rest => simp [List.intercalate, List.intersperse]

/-- The scanner passes over the rest of a segment. -/
theorem validSegments_parts {word : Bytes} (parts : ∀ byte ∈ word, IsPart byte)
    (hasSeparator : Bool) (rest : Bytes) :
    validSegments false hasSeparator (word ++ rest) = validSegments false hasSeparator rest := by
  induction word with
  | nil => rfl
  | cons byte word ih =>
    have part := parts byte List.mem_cons_self
    have accepted : ¬ (!isAlnum byte && decide (byte ≠ 95)) = true := by
      rcases part with alnum | underscore
      · simp [alnum]
      · simp [underscore]
    rw [List.cons_append, validSegments, if_neg (ne_dot_of_isPart part),
      if_neg Bool.false_ne_true, if_neg accepted]
    exact ih fun other member => parts other (List.mem_cons_of_mem _ member)

/-- The scanner passes over a segment. -/
theorem validSegments_segment {segment : Bytes} (valid : IsSegment segment) (hasSeparator : Bool)
    (rest : Bytes) :
    validSegments true hasSeparator (segment ++ rest) =
      validSegments false hasSeparator rest := by
  obtain ⟨first, word, rfl, alpha, parts⟩ := valid
  have noDot := ne_dot_of_isPart (.inl (isAlnum_of_isAlpha alpha))
  rw [List.cons_append, validSegments, if_neg noDot, if_pos rfl, if_neg (by simp [alpha])]
  exact validSegments_parts parts hasSeparator rest

/-- The scanner accepts joined segments. -/
theorem validSegments_intercalate {segments : List Bytes}
    (valid : ∀ segment ∈ segments, IsSegment segment) {hasSeparator : Bool}
    (filled : segments ≠ []) (enough : hasSeparator = true ∨ 2 ≤ segments.length) :
    validSegments true hasSeparator ([46].intercalate segments) = true := by
  induction segments generalizing hasSeparator with
  | nil => exact absurd rfl filled
  | cons segment rest ih =>
    have own := valid segment List.mem_cons_self
    have others : ∀ segment ∈ rest, IsSegment segment :=
      fun other member => valid other (List.mem_cons_of_mem _ member)
    by_cases last : rest = []
    · have separated : hasSeparator = true := by
        rcases enough with separated | two
        · exact separated
        · simp [last] at two
      have alone : [46].intercalate [segment] = segment ++ [] := by simp [List.intercalate]
      rw [last, alone, validSegments_segment own, separated]
      rfl
    · rw [intercalate_cons last, validSegments_segment own, validSegments, if_pos rfl,
        if_neg Bool.false_ne_true]
      exact ih others last (.inl rfl)

/-- What the scanner accepts are joined segments, of which it may have passed over the start of the
first one. -/
theorem segments_of_validSegments {text : Bytes} {segmentStart hasSeparator : Bool}
    (accepted : validSegments segmentStart hasSeparator text = true) :
    ∃ first rest, text = [46].intercalate (first :: rest) ∧
      (if segmentStart = true then IsSegment first else ∀ byte ∈ first, IsPart byte) ∧
      (∀ segment ∈ rest, IsSegment segment) ∧ (hasSeparator = true ∨ rest ≠ []) := by
  induction text generalizing segmentStart hasSeparator with
  | nil =>
    rw [validSegments, Bool.and_eq_true, Bool.not_eq_true'] at accepted
    refine ⟨[], [], rfl, ?_, by simp, .inl accepted.1⟩
    rw [if_neg (by simp [accepted.2])]
    simp
  | cons byte text ih =>
    rw [validSegments] at accepted
    by_cases dot : byte = 46
    · rw [if_pos dot] at accepted
      cases segmentStart with
      | true => exact absurd accepted (by simp)
      | false =>
        rw [if_neg Bool.false_ne_true] at accepted
        obtain ⟨first, rest, rfl, own, others, -⟩ := ih accepted
        rw [if_pos rfl] at own
        have joined : [46].intercalate ([] :: first :: rest) =
            46 :: [46].intercalate (first :: rest) := by
          rw [intercalate_cons (List.cons_ne_nil _ _), List.nil_append]
        refine ⟨[], first :: rest, ?_, by simp, ?_, .inr (List.cons_ne_nil _ _)⟩
        · rw [joined, dot]
        · intro segment member
          rcases List.mem_cons.mp member with same | later
          · rw [same]
            exact own
          · exact others segment later
    · rw [if_neg dot] at accepted
      cases segmentStart with
      | true =>
        rw [if_pos rfl] at accepted
        by_cases alpha : isAlpha byte = true
        · rw [if_neg (by simp [alpha])] at accepted
          obtain ⟨first, rest, rfl, own, others, separated⟩ := ih accepted
          rw [if_neg Bool.false_ne_true] at own
          refine ⟨byte :: first, rest, (intercalate_cons_cons _ _ _).symm, ?_, others, separated⟩
          rw [if_pos rfl]
          exact ⟨byte, first, rfl, alpha, own⟩
        · rw [if_pos (by simp [alpha])] at accepted
          exact absurd accepted (by simp)
      | false =>
        rw [if_neg Bool.false_ne_true] at accepted
        by_cases refused : (!isAlnum byte && decide (byte ≠ 95)) = true
        · rw [if_pos refused] at accepted
          exact absurd accepted (by simp)
        · rw [if_neg refused] at accepted
          obtain ⟨first, rest, rfl, own, others, separated⟩ := ih accepted
          rw [if_neg Bool.false_ne_true] at own
          have part : IsPart byte := by
            by_cases alnum : isAlnum byte = true
            · exact .inl alnum
            · simp only [alnum, Bool.not_false, Bool.true_and, decide_eq_true_eq,
                not_not] at refused
              exact .inr refused
          refine ⟨byte :: first, rest, (intercalate_cons_cons _ _ _).symm, ?_, others, separated⟩
          rw [if_neg Bool.false_ne_true]
          intro other member
          rcases List.mem_cons.mp member with same | later
          · rw [same]
            exact part
          · exact own other later

/-- The scanner refuses a text that ends with a dot. -/
theorem validSegments_dot (front : Bytes) (segmentStart hasSeparator : Bool) :
    validSegments segmentStart hasSeparator (front ++ [46]) = false := by
  induction front generalizing segmentStart hasSeparator with
  | nil => cases segmentStart <;> cases hasSeparator <;> rfl
  | cons byte front ih =>
    rw [List.cons_append, validSegments, ih, ih]
    simp

/-- A text is accepted exactly when it is a package name. The tests of its first and its last
character refuse nothing else. -/
theorem isValidPackage_iff (pkg : Bytes) : isValidPackage pkg = true ↔ IsPackageName pkg := by
  constructor
  · intro accepted
    rw [isValidPackage] at accepted
    by_cases refused : pkg = [] ∨ 128 < pkg.length ∨ pkg.head? = some 46 ∨ pkg.getLast? = some 46
    · rw [if_pos refused] at accepted
      exact absurd accepted (by simp)
    · rw [if_neg refused] at accepted
      have short : pkg.length ≤ 128 := by
        have notLong : ¬ 128 < pkg.length := fun long => refused (.inr (.inl long))
        omega
      obtain ⟨first, rest, joined, own, others, separated⟩ := segments_of_validSegments accepted
      rw [if_pos rfl] at own
      have more : rest ≠ [] := separated.resolve_left (by simp)
      have count := List.length_pos_iff.mpr more
      refine ⟨short, first :: rest, ?_, ?_, joined⟩
      · rw [List.length_cons]
        omega
      · intro segment member
        rcases List.mem_cons.mp member with same | later
        · rw [same]
          exact own
        · exact others segment later
  · intro valid
    obtain ⟨short, segments, two, each, joined⟩ := valid
    have filled : segments ≠ [] := by
      intro none
      simp [none] at two
    have accepted : validSegments true false pkg = true := by
      rw [joined]
      exact validSegments_intercalate each filled (.inr two)
    have notEmpty : pkg ≠ [] := by
      intro none
      rw [none] at accepted
      exact absurd accepted (by decide)
    have notLong : ¬ 128 < pkg.length := by omega
    have start : pkg.head? ≠ some 46 := by
      intro dot
      obtain ⟨rest, rfl⟩ := List.head?_eq_some_iff.mp dot
      rw [validSegments, if_pos rfl, if_pos rfl] at accepted
      exact absurd accepted (by simp)
    have ending : pkg.getLast? ≠ some 46 := by
      intro dot
      obtain ⟨front, rfl⟩ := List.getLast?_eq_some_iff.mp dot
      rw [validSegments_dot] at accepted
      exact absurd accepted (by simp)
    rw [isValidPackage, if_neg]
    · exact accepted
    · rintro (none | long | first | last)
      · exact notEmpty none
      · exact notLong long
      · exact start first
      · exact ending last

/-! ## The choice -/

/-- How much a package looks like a launcher; less is more. -/
def rank (pkg : Bytes) : Nat :=
  if isHomePackage pkg then if startsComAndroid pkg then 1 else 0 else 2

/-- A package is the first of the best ones of a list. -/
def IsBest (candidates : List Bytes) (pkg : Bytes) : Prop :=
  ∃ front back, candidates = front ++ pkg :: back ∧ (∀ other ∈ front, rank pkg < rank other) ∧
    ∀ other ∈ back, rank pkg ≤ rank other

/-- What is chosen among some candidates. -/
def IsChosen (candidates : List Bytes) (pkg : Bytes) : Prop :=
  (candidates = [] ∧ pkg = defaultLauncher) ∨ IsBest candidates pkg

/-- The first package of a rank; empty when there is none. -/
def firstOf (kind : Nat) (candidates : List Bytes) : Bytes :=
  (candidates.find? fun pkg => rank pkg = kind).getD []

/-- A rank is one of three. -/
theorem rank_le (pkg : Bytes) : rank pkg ≤ 2 := by
  unfold rank
  split
  · split <;> omega
  · omega

/-- One more package is the first of its rank when there was none. -/
theorem firstOf_snoc {candidates : List Bytes} (filled : ∀ pkg ∈ candidates, pkg ≠ [])
    (kind : Nat) (pkg : Bytes) :
    firstOf kind (candidates ++ [pkg]) =
      if rank pkg = kind ∧ firstOf kind candidates = [] then pkg else firstOf kind candidates := by
  rw [firstOf, firstOf, List.find?_append]
  cases found : candidates.find? fun pkg => rank pkg = kind with
  | none =>
    by_cases own : rank pkg = kind
    · simp [own]
    · simp [own]
  | some first =>
    have some : first ≠ [] := filled first (List.mem_of_find?_eq_some found)
    simp [some]

/-- The fold keeps the first package of each rank. -/
theorem foldl_consider {candidates : List Bytes} (filled : ∀ pkg ∈ candidates, pkg ≠ []) :
    candidates.foldl Choice.consider {} =
      ⟨firstOf 0 candidates, firstOf 1 candidates, firstOf 2 candidates⟩ := by
  induction candidates using List.reverseRecOn with
  | nil => rfl
  | append_singleton front pkg ih =>
    have before : ∀ pkg ∈ front, pkg ≠ [] :=
      fun other member => filled other (List.mem_append_left _ member)
    rw [List.foldl_append, ih before, List.foldl_cons, List.foldl_nil, firstOf_snoc before,
      firstOf_snoc before, firstOf_snoc before, Choice.consider, rank]
    cases isHomePackage pkg <;> cases startsComAndroid pkg <;> grind

/-- The first package of a rank before which there is none is the best one. -/
theorem isBest_of_firstOf {candidates : List Bytes} {kind : Nat}
    (none : ∀ better < kind, firstOf better candidates = [])
    (filled : ∀ pkg ∈ candidates, pkg ≠ []) (found : firstOf kind candidates ≠ []) :
    IsBest candidates (firstOf kind candidates) := by
  have least : ∀ other ∈ candidates, kind ≤ rank other := by
    intro other member
    by_contra less
    have missing := none (rank other) (by omega)
    have some : (candidates.find? fun pkg => rank pkg = rank other).isSome := by
      rw [List.find?_isSome]
      exact ⟨other, member, by simp⟩
    obtain ⟨first, search⟩ := Option.isSome_iff_exists.mp some
    rw [firstOf, search] at missing
    exact filled first (List.mem_of_find?_eq_some search) missing
  cases search : candidates.find? fun pkg => rank pkg = kind with
  | none =>
    rw [firstOf, search] at found
    exact absurd rfl found
  | some first =>
    obtain ⟨own, front, back, split, others⟩ := List.find?_eq_some_iff_append.mp search
    have same : firstOf kind candidates = first := by rw [firstOf, search, Option.getD_some]
    have rankOf : rank first = kind := by simpa using own
    rw [same]
    refine ⟨front, back, split, ?_, ?_⟩
    · intro other member
      have differs : rank other ≠ kind := by simpa using others other member
      have lower := least other (by rw [split]; exact List.mem_append_left _ member)
      omega
    · intro other member
      have inside : other ∈ front ++ first :: back :=
        List.mem_append_right _ (List.mem_cons_of_mem _ member)
      rw [← split] at inside
      have lower := least other inside
      omega

/-- The launcher is chosen among the candidates. -/
theorem isChosen_launcherOf {candidates : List Bytes} (filled : ∀ pkg ∈ candidates, pkg ≠ []) :
    IsChosen candidates (launcherOf candidates) := by
  rw [launcherOf, foldl_consider filled, Choice.launcher]
  dsimp only
  by_cases zero : firstOf 0 candidates = []
  · rw [if_neg (by simp [zero])]
    by_cases one : firstOf 1 candidates = []
    · rw [if_neg (by simp [one])]
      by_cases two : firstOf 2 candidates = []
      · rw [if_neg (by simp [two])]
        refine .inl ⟨?_, rfl⟩
        by_contra some
        obtain ⟨pkg, rest, same⟩ := List.exists_cons_of_ne_nil some
        have bound := rank_le pkg
        have missing : ∀ kind ≤ 2, firstOf kind candidates = [] := by
          intro kind small
          obtain rfl | rfl | rfl : kind = 0 ∨ kind = 1 ∨ kind = 2 := by omega
          · exact zero
          · exact one
          · exact two
        have own := missing (rank pkg) bound
        have member : pkg ∈ candidates := by simp [same]
        rw [firstOf, same, List.find?_cons_of_pos (by simp)] at own
        exact filled pkg member own
      · rw [if_pos two]
        refine .inr (isBest_of_firstOf ?_ filled two)
        intro better less
        obtain rfl | rfl : better = 0 ∨ better = 1 := by omega
        · exact zero
        · exact one
    · rw [if_pos one]
      refine .inr (isBest_of_firstOf ?_ filled one)
      intro better less
      obtain rfl : better = 0 := by omega
      exact zero
  · rw [if_pos zero]
    exact .inr (isBest_of_firstOf (fun better less => absurd less (by omega)) filled zero)

/-- Every candidate is a package name. -/
theorem isPackageName_of_mem {result pkg : Bytes} (member : pkg ∈ candidatesOf result) :
    IsPackageName pkg :=
  (isValidPackage_iff pkg).mp (List.mem_filter.mp member).2

/-- A package name is not empty. -/
theorem ne_nil_of_isPackageName {pkg : Bytes} (valid : IsPackageName pkg) : pkg ≠ [] := by
  intro none
  rw [none, ← isValidPackage_iff] at valid
  exact absurd valid (by decide)

/-- What is chosen among candidates is a package name. -/
theorem isPackageName_of_isChosen {candidates : List Bytes} {pkg : Bytes}
    (each : ∀ pkg ∈ candidates, IsPackageName pkg) (chosen : IsChosen candidates pkg) :
    IsPackageName pkg := by
  rcases chosen with ⟨-, default⟩ | best
  · rw [default, ← isValidPackage_iff]
    decide
  · obtain ⟨front, back, split, -⟩ := best
    exact each pkg (by rw [split]; exact List.mem_append_right _ List.mem_cons_self)

/-! ## Runs -/

variable {fuel : Nat} {world after : CommandWorld} {launcher : Bytes}

/-- What a run of the finder leaves, and what its last command returned. -/
theorem find_commands (run : Program.Run commandMachine.withSpin (find fuel) world launcher after) :
    Released world after ∧ ∃ result, IsChosen (candidatesOf result) launcher ∧
      (result = [] ∨ after.ended = true ∧ after.output.length ≤ kMaxOutputSize ∧
        result = trimLineEnds after.output) := by
  have chosen : ∀ result, IsChosen (candidatesOf result) (launcherOf (candidatesOf result)) :=
    fun result => isChosen_launcherOf fun pkg member =>
      ne_nil_of_isPackageName (isPackageName_of_mem member)
  have holds : (find fuel).wp commandMachine.withSpin (fun launcher after =>
      Released world after ∧ ∃ result, IsChosen (candidatesOf result) launcher ∧
        (result = [] ∨ after.ended = true ∧ after.output.length ≤ kMaxOutputSize ∧
          result = trimLineEnds after.output)) world := by
    rw [find, Program.wp_bind]
    refine Program.wp_mono (executeCommand_released fuel resolveActivity 5000) ?_
    intro result middle first
    rw [Program.wp_ite]
    by_cases none : candidatesOf result = []
    · rw [if_pos none, Program.wp_bind]
      refine Program.wp_mono (executeCommand_released fuel queryActivities 5000) ?_
      intro answer last second
      exact ⟨first.1.trans second.1, answer, chosen answer, second.2⟩
    · rw [if_neg none]
      exact ⟨first.1, result, chosen result, first.2⟩
  exact run.post holds

/-- The launcher a run finds is a package name. -/
theorem isPackageName_of_find
    (run : Program.Run commandMachine.withSpin (find fuel) world launcher after) :
    IsPackageName launcher := by
  obtain ⟨-, result, chosen, -⟩ := find_commands run
  exact isPackageName_of_isChosen (fun pkg member => isPackageName_of_mem member) chosen

/-- An answer that names two packages. -/
def twoPackages : Bytes :=
  Bytes.ascii "    packageName=com.android.launcher3\n    packageName=com.example.home\n"

/-- A run on that answer. -/
theorem run_twoPackages : ∃ after, Program.Run commandMachine.withSpin (find 3) {}
    (Bytes.ascii "com.example.home") after := by
  have executed : ((find 3).exec (Looping.respondWithSpin (respondText twoPackages))
      {}).map Prod.fst = some (Bytes.ascii "com.example.home") := by
    decide
  obtain ⟨⟨launcher, after⟩, ran, same⟩ := Option.map_eq_some_iff.mp executed
  obtain rfl : launcher = Bytes.ascii "com.example.home" := same
  exact ⟨after, Looping.run_of_exec step_of_respondText ran⟩

/-- Every run of the finder ends with the descriptors it began with, none of them used or closed
while it was not open. It signals no process group but that of a child that was not waited for yet,
and leaves no child unless `waitpid` failed. -/
theorem find_released (run : Program.Run commandMachine.withSpin (find fuel) world launcher after) :
    after.descriptors = world.descriptors ∧ after.children.misused = world.children.misused ∧
      (after.waitFailed = false → after.children = world.children) := by
  have released := (find_commands run).1
  refine ⟨released.descriptors, released.signals, fun working => ?_⟩
  rcases released.children with same | failed
  · exact same
  · rw [working] at failed
    exact absurd failed Bool.false_ne_true

theorem find_released_twoPackages : ∃ after,
    Program.Run commandMachine.withSpin (find 3) {} (Bytes.ascii "com.example.home") after ∧
      after.descriptors = {} ∧ (after.waitFailed = false → after.children = {}) := by
  obtain ⟨after, run⟩ := run_twoPackages
  have released := find_released run
  exact ⟨after, run, released.1, released.2.2⟩

/-- The launcher a run finds is a package name. It is the default, or the first of the best packages
that an output names, which was read until its end or a failed read and is not too long. -/
theorem find_best (run : Program.Run commandMachine.withSpin (find fuel) world launcher after) :
    IsPackageName launcher ∧ (launcher = defaultLauncher ∨ after.ended = true ∧
      after.output.length ≤ kMaxOutputSize ∧
        IsBest (candidatesOf (trimLineEnds after.output)) launcher) := by
  refine ⟨isPackageName_of_find run, ?_⟩
  obtain ⟨-, result, chosen, read⟩ := find_commands run
  rcases chosen with ⟨-, default⟩ | best
  · exact .inl default
  · rcases read with empty | ⟨ended, bounded, same⟩
    · obtain ⟨front, back, split, -⟩ := best
      rw [empty] at split
      exact absurd split.symm (List.append_ne_nil_of_right_ne_nil _ (List.cons_ne_nil _ _))
    · rw [same] at best
      exact .inr ⟨ended, bounded, best⟩

theorem find_best_twoPackages : ∃ after,
    Program.Run commandMachine.withSpin (find 3) {} (Bytes.ascii "com.example.home") after ∧
      after.ended = true ∧
      IsBest (candidatesOf (trimLineEnds after.output)) (Bytes.ascii "com.example.home") := by
  obtain ⟨after, run⟩ := run_twoPackages
  rcases (find_best run).2 with default | best
  · exact absurd default (by decide)
  · exact ⟨after, run, best.1, best.2.2⟩

/-- Escaping at most doubles a text. -/
theorem length_escapeRegexLiteral_le (value : Bytes) :
    (escapeRegexLiteral value).length ≤ 2 * value.length := by
  induction value with
  | nil => exact Nat.le_refl _
  | cons byte value ih =>
    have escaped : (if byte ∈ metacharacters then Bytes.ascii "\\" ++ [byte] else [byte]).length ≤
        2 := by
      split
      · rfl
      · exact Nat.le_succ 1
    have split : escapeRegexLiteral (byte :: value) =
        (if byte ∈ metacharacters then Bytes.ascii "\\" ++ [byte] else [byte]) ++
          escapeRegexLiteral value := rfl
    rw [split, List.length_append, List.length_cons]
    omega

/-- Whatever launcher a run finds, a rule with the launcher macro is compiled, and accepts the
processes whose command line or name is the launcher. -/
theorem find_rule {engine : RegexEngine} {config : Config} {rule : ProcessRule}
    (run : Program.Run commandMachine.withSpin (find fuel) world launcher after)
    (found : config.launcherPackage = launcher) (listed : rule ∈ config.sched.rules)
    (isMacro : rule.regexStr = homePackage) (sensitive : config.sched.caseInsensitive = false)
    (reads : engine.ReadsPattern (expandProcessRegex homePackage launcher)) :
    ∃ compiled ∈ (ThreadMatcher.ofConfig engine config).compiledRules, compiled.rule = rule ∧
      ∀ args, compiled.accepts args = true ↔
        (args.cmdline ≠ [] ∧ args.cmdline = launcher) ∨ args.procName = launcher := by
  have short : (expandProcessRegex homePackage launcher).length ≤ kMaxRegexLength := by
    have bound := length_escapeRegexLiteral_le launcher
    have name := (isPackageName_of_find run).short
    have length : (expandProcessRegex homePackage launcher).length =
        (escapeRegexLiteral launcher).length + 2 := by
      rw [expandProcessRegex_homePackage, EcmaPattern.anchored]
      simp
    rw [length, kMaxRegexLength]
    omega
  have unique := derives_homePackage_iff launcher
  have plain := EcmaPattern.isPlain_anchoredTerms launcher
  obtain ⟨pattern, compiles⟩ := reads.compiles _ unique plain
  rw [← found] at short compiles
  obtain ⟨compiled, member, same, expression⟩ :=
    compiledRules_homePackage listed isMacro sensitive short compiles
  rw [found] at compiles
  have searches : ∀ text,
      engine.search text compiled.pattern = some (decide (text = launcher)) := by
    intro text
    obtain ⟨search, searched, iff⟩ := reads.searches _ unique plain _ compiles text
    rw [EcmaPattern.foundIn_anchoredTerms, ← decide_eq_true_iff (p := text = launcher)] at iff
    rw [expression, searched, Bool.eq_iff_iff.mpr iff]
  exact ⟨compiled, member, same, accepts_iff_of_search searches⟩

theorem find_rule_twoPackages :
    ∃ compiled ∈ (ThreadMatcher.ofConfig homeEngine homeConfig).compiledRules, ∀ args,
      compiled.accepts args = true ↔
        (args.cmdline ≠ [] ∧ args.cmdline = Bytes.ascii "com.example.home") ∨
          args.procName = Bytes.ascii "com.example.home" := by
  obtain ⟨after, run⟩ := run_twoPackages
  obtain ⟨compiled, member, -, accepts⟩ := @find_rule _ _ _ _ homeEngine homeConfig _ run rfl
    (List.mem_singleton.mpr rfl) rfl rfl homeEngine_readsPattern
  exact ⟨compiled, member, accepts⟩

end ReUperf.LauncherFinder
