import ReUperf.Config.Parser
import ReUperf.Scheduler.GroupPaths
import ReUperf.System.CgroupLookup

/-!
# Own paths

The cpu group of a thread that ReUperf limits has the name of a rule in its path. The state of a
process is told by words that occur in its paths, so a path of ReUperf's own should tell nothing.
The module tells for which rule names it does not.
-/

namespace ReUperf.FileUtils

/-- The cpu group of a rule with a number. -/
def ownPath (name : Bytes) (number : Int) : Bytes :=
  Bytes.ascii "/ReUperf/" ++ name ++ Bytes.ascii "/A" ++ Bytes.decimal number

/-- The setter moves threads to such groups. -/
theorem expectedGroup_eq_ownPath (result : MatchResult) : CpuctlSetter.expectedGroup result =
    ownPath result.matchedRuleName (result.threadRuleIndex + 1) := rfl

/-- The words that tell a state. -/
def stateWords : List Bytes :=
  [Bytes.ascii "top-app", Bytes.ascii "foreground", Bytes.ascii "background"]

/-- A path tells no state when no word occurs in it. -/
theorem cgroupPathToState_eq_other (path : Bytes) :
    cgroupPathToState path = .other ↔ ∀ word ∈ stateWords, ¬ word <:+: path := by
  have longer : Bytes.ascii "background" <:+: Bytes.ascii "system-background" := by
    decide
  rw [cgroupPathToState, stateWords, List.forall_mem_cons, List.forall_mem_cons,
    List.forall_mem_cons, ← Bytes.occursIn_iff, ← Bytes.occursIn_iff, ← Bytes.occursIn_iff]
  by_cases top : Bytes.occursIn (Bytes.ascii "top-app") path = true
  · rw [if_pos top]
    exact iff_of_false CgroupState.noConfusion fun none => none.1 top
  rw [if_neg top]
  by_cases fg : Bytes.occursIn (Bytes.ascii "foreground") path = true
  · rw [if_pos fg]
    exact iff_of_false CgroupState.noConfusion fun none => none.2.1 fg
  rw [if_neg fg]
  by_cases bg : Bytes.occursIn (Bytes.ascii "background") path = true
  · rw [bg, Bool.true_or, if_pos rfl]
    exact iff_of_false CgroupState.noConfusion fun none => none.2.2.1 rfl
  · have shorter : ¬ Bytes.occursIn (Bytes.ascii "system-background") path = true := by
      intro occurs
      exact bg (Bytes.occursIn_iff.mpr (longer.trans (Bytes.occursIn_iff.mp occurs)))
    rw [Bool.eq_false_of_not_eq_true bg, Bool.eq_false_of_not_eq_true shorter, Bool.or_false,
      if_neg Bool.false_ne_true]
    exact iff_of_true rfl ⟨top, fg, Bool.false_ne_true, List.forall_mem_nil _⟩

/-- A word that tells a state has no slash, and has a letter. -/
theorem slash_notMem_of_mem_stateWords {word : Bytes} (member : word ∈ stateWords) :
    47 ∉ word ∧ ∃ letter ∈ word, 65 < letter := by
  have all : ∀ word ∈ stateWords, 47 ∉ word ∧ ∃ letter ∈ word, 65 < letter := by
    decide
  exact all word member

/-- A word that tells a state occurs in a path of ReUperf's own when it occurs in the name. -/
theorem infix_ownPath {word : Bytes} (member : word ∈ stateWords) (name : Bytes) (number : Int) :
    word <:+: ownPath name number ↔ word <:+: name := by
  obtain ⟨absent, letter, inWord, high⟩ := slash_notMem_of_mem_stateWords member
  have segments : ownPath name number = [] ++ 47 :: (Bytes.ascii "ReUperf" ++
      47 :: (name ++ 47 :: (Bytes.ascii "A" ++ Bytes.decimal number))) := by
    rw [ownPath, List.append_assoc, List.append_assoc]
    rfl
  have root : ¬ word <:+: [] := by
    intro occurs
    rw [List.infix_nil.mp occurs] at inWord
    exact List.not_mem_nil inWord
  have directory : ¬ word <:+: Bytes.ascii "ReUperf" := by
    have all : ∀ word ∈ stateWords, ¬ word <:+: Bytes.ascii "ReUperf" := by decide
    exact all word member
  have leaf : ¬ word <:+: Bytes.ascii "A" ++ Bytes.decimal number := by
    intro occurs
    have low : letter ≤ 65 := by
      rcases List.mem_append.mp (occurs.subset inWord) with capital | digit
      · have first : Bytes.ascii "A" = [65] := rfl
        rw [first, List.mem_singleton] at capital
        rw [capital]
        decide
      · exact UInt8.le_trans (Bytes.le_of_mem_decimal digit) (by decide)
    exact UInt8.not_lt.mpr low high
  rw [segments, Bytes.infix_append_separator absent, Bytes.infix_append_separator absent,
    Bytes.infix_append_separator absent, or_iff_right root, or_iff_right directory,
    or_iff_left leaf]

/-- The state of a process in a group of ReUperf's own is told by the words in the rule name. -/
theorem cgroupPathsToStateInfo_ownPath (name cpusetPath : Bytes) (number : Int) :
    cgroupPathsToStateInfo (ownPath name number) cpusetPath =
      ⟨cgroupPathToState (ownPath name number), true⟩ := by
  have owned : (Bytes.ascii "/ReUperf/").isPrefixOf (ownPath name number) = true := by
    rw [List.isPrefixOf_iff_prefix, ownPath, List.append_assoc, List.append_assoc]
    exact List.prefix_append _ _
  rw [cgroupPathsToStateInfo, owned, Bool.true_or]
  by_cases other : cgroupPathToState (ownPath name number) = .other
  · rw [other, if_neg (not_not.mpr rfl), if_pos rfl]
  · rw [if_pos other]

/-- A path of ReUperf's own tells no state, whatever the number and the cpuset group are, exactly
when no word that tells a state occurs in the rule name. -/
theorem ownPath_hides_iff (name : Bytes) :
    (∀ number cpusetPath, cgroupPathsToStateInfo (ownPath name number) cpusetPath =
      ⟨.other, true⟩) ↔ ∀ word ∈ stateWords, ¬ word <:+: name := by
  constructor
  · intro hidden word member occurs
    have told := hidden 1 []
    rw [cgroupPathsToStateInfo_ownPath] at told
    have other := (cgroupPathToState_eq_other _).mp (congrArg CgroupStateInfo.state told)
    exact other word member ((infix_ownPath member name 1).mpr occurs)
  · intro none number cpusetPath
    have other : cgroupPathToState (ownPath name number) = .other := by
      rw [cgroupPathToState_eq_other]
      intro word member occurs
      exact none word member ((infix_ownPath member name number).mp occurs)
    rw [cgroupPathsToStateInfo_ownPath, other]

/-- The groups of a rule with the name `top-app` tell a state. -/
theorem ownPath_hides_fails : ¬ ∀ name, ConfigParser.isSafeCgroupComponent name = true →
    ∀ number cpusetPath, cgroupPathsToStateInfo (ownPath name number) cpusetPath =
      ⟨.other, true⟩ := by
  intro claim
  have safe : ConfigParser.isSafeCgroupComponent (Bytes.ascii "top-app") = true := by
    decide +kernel
  have told := congrArg CgroupStateInfo.state (claim (Bytes.ascii "top-app") safe 1 [])
  have top : (cgroupPathsToStateInfo (ownPath (Bytes.ascii "top-app") 1) []).state = .top := by
    decide +kernel
  rw [top] at told
  cases told

end ReUperf.FileUtils
