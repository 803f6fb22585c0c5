import ReUperf.Verif.ControlFiles

/-!
# Values of control files

The initialiser goes on past the failure of a group, writes some control files under the protection
of its transaction and others without it, and puts the protected ones back when anything failed.
The module proves what the control files hold afterwards, for every tree of groups and files and
every way in which directories cannot be made, values cannot be remembered and writes fail: the
values before, when the initialisation fails, and the configured or inherited ones when it does not.
-/

namespace ReUperf

open Effect FileUtils

namespace ControlValues

open CgroupInitializer

variable {reliable : Bool} {world middle after : FileWorld} {looked written kind : Bytes → Prop}
  {transaction : ControlFileTransaction}

/-! ## What the parts of the initialiser touch -/

/-- A control file of a group. -/
theorem inDir_control (dir : Bytes) {name : Bytes} (plain : 47 ∉ name) :
    InDir dir (dir ++ Bytes.ascii "/" ++ name) :=
  ⟨name, plain, List.append_assoc dir [47] name⟩

section Calls

variable {transaction : ControlFileTransaction}

/-- The control files of a cpuset group that the initialiser touches. -/
theorem control_of_cpuset (child : Bytes) :
    InDir child (child ++ Bytes.ascii "/cpus") ∧ InDir child (child ++ Bytes.ascii "/mems") ∧
      InDir child (child ++ Bytes.ascii "/tasks") :=
  ⟨⟨Bytes.ascii "cpus", by decide, rfl⟩, ⟨Bytes.ascii "mems", by decide, rfl⟩,
    ⟨Bytes.ascii "tasks", by decide, rfl⟩⟩

/-- The exclusive flags of a cpuset group. -/
theorem control_of_exclusive (child : Bytes) :
    ∀ name ∈ exclusiveFiles, InDir child (child ++ Bytes.ascii "/" ++ name) := by
  intro name member
  apply inDir_control
  revert name
  decide

/-- The limits of a cpuctl group. -/
def limitFiles : List Bytes := [Bytes.ascii "cpu.uclamp.max", Bytes.ascii "cpu.shares"]

/-- The limits of a cpuctl group lie in it. -/
theorem control_of_limit (group : Bytes) :
    ∀ name ∈ limitFiles, InDir group (group ++ Bytes.ascii "/" ++ name) := by
  intro name member
  apply inDir_control
  revert name
  decide

/-- A file of the group of a limited thread rule. -/
def InLimitGroup (rule : ProcessRule) (file : Bytes) : Prop :=
  ∃ index threadRule, rule.threadRules[index]? = some threadRule ∧ threadRule.enableLimit = true ∧
    InDir (subPath rule.name index) file

/-- A file of the group of a limited thread rule of a configuration. -/
def InLimitGroups (config : Config) (file : Bytes) : Prop :=
  ∃ rule ∈ config.sched.rules, InLimitGroup rule file

end Calls

/-! ## Steps of the initialiser -/

variable {goal : FileWorld → Prop}

/-- A cpuset group is complete: it exists with CPUs and memory nodes. -/
structure Complete (tree : FileTree) (child : Bytes) : Prop where
  /-- It exists. -/
  dir : child ∈ tree.dirs
  /-- It has CPUs. -/
  cpus : tree.contents (child ++ Bytes.ascii "/cpus") ≠ []
  /-- It has memory nodes. -/
  mems : tree.contents (child ++ Bytes.ascii "/mems") ≠ []

/-- An exclusive flag that exists is cleared. -/
def Cleared (file : Bytes) (world : FileWorld) : Prop :=
  world.files file = none ∨ world.files file = some (Bytes.ascii "0")

/-- A cleared flag stays cleared when other files are written. -/
theorem Cleared.later {dir file : Bytes} (cleared : Cleared file world) (later : Later world after)
    (there : world.found dir = true) (own : InDir dir file)
    (frame : Frame looked written world after) (other : ¬ written file) : Cleared file after :=
  cleared.imp (later.isNone there own) (frame.files_eq other)

/-- A cpuset group holds its CPUs and the memory nodes of its parent, and is not exclusive. -/
structure CpusetHolds (parentMems : Bytes) (cpumask : Bytes × List Int) (world : FileWorld) :
    Prop where
  /-- Its CPUs are those of its mask. -/
  cpus : world.files (cpusetGroupPath cpumask.1 ++ Bytes.ascii "/cpus") =
    some (cpuMaskToString cpumask.2)
  /-- Its memory nodes are those of its parent. -/
  mems : world.files (cpusetGroupPath cpumask.1 ++ Bytes.ascii "/mems") = some parentMems
  /-- Its exclusive flags are cleared. -/
  flags : ∀ name ∈ exclusiveFiles,
    Cleared (cpusetGroupPath cpumask.1 ++ Bytes.ascii "/" ++ name) world

/-- A cpuset group holds its values when its files are not written. -/
theorem CpusetHolds.later {parentMems : Bytes} {cpumask : Bytes × List Int}
    (holds : CpusetHolds parentMems cpumask world) (later : Later world after)
    (frame : Frame looked written world after)
    (other : ∀ file, InDir (cpusetGroupPath cpumask.1) file → ¬ written file) :
    CpusetHolds parentMems cpumask after := by
  obtain ⟨cpus, mems, -⟩ := control_of_cpuset (cpusetGroupPath cpumask.1)
  have there : world.found (cpusetGroupPath cpumask.1) = true :=
    FileTree.found_of_inDir cpus (by rw [holds.cpus]; rfl)
  refine ⟨frame.files_eq (other _ cpus) holds.cpus, frame.files_eq (other _ mems) holds.mems, ?_⟩
  intro name member
  have own := control_of_exclusive (cpusetGroupPath cpumask.1) name member
  exact (holds.flags name member).later later there own frame (other _ own)

/-- A complete group stays complete when its files are not written. -/
theorem Complete.later {child : Bytes} (complete : Complete world.toFileTree child)
    (later : Later world after) (frame : Frame looked written world after)
    (other : ∀ file, InDir child file → ¬ written file) : Complete after.toFileTree child := by
  obtain ⟨cpus, mems, -⟩ := control_of_cpuset child
  have there := FileTree.found_of_mem complete.dir
  refine ⟨later.dirs complete.dir, ?_, ?_⟩
  · rw [FileTree.contents, frame.files _ (other _ cpus) child there cpus]
    exact complete.cpus
  · rw [FileTree.contents, frame.files _ (other _ mems) child there mems]
    exact complete.mems

/-- A limit of some group. -/
def IsLimitFile (file : Bytes) : Prop :=
  ∃ group, ∃ name ∈ limitFiles, file = group ++ Bytes.ascii "/" ++ name

/-- A file that a failed initialisation must put back. -/
def Guarded (tree : FileTree) (file : Bytes) : Prop :=
  IsLimitFile file ∨
    ∃ name, Complete tree (cpusetGroupPath name) ∧ InDir (cpusetGroupPath name) file

/-- The groups of a configuration were not looked at, and those that were complete are. -/
structure Untouched (tree : FileTree) (world : FileWorld) : Prop where
  /-- No file of a group was looked for. -/
  asked : ∀ name file, InDir (cpusetGroupPath name) file → file ∉ world.asked
  /-- Complete groups are complete. -/
  complete : ∀ name, Complete tree (cpusetGroupPath name) →
    Complete world.toFileTree (cpusetGroupPath name)

/-- The cpuset groups of a configuration hold their values. -/
structure CpusetsHold (config : Config) (world : FileWorld) : Prop where
  /-- Their parent has memory nodes. -/
  filled : world.contents (cpusetParentPath ++ Bytes.ascii "/mems") ≠ []
  /-- They hold the CPUs of their masks and the memory nodes of their parent. -/
  groups : ∀ name cpus, config.sched.cpumask.lookup name = some cpus →
    CpusetHolds (world.contents (cpusetParentPath ++ Bytes.ascii "/mems")) (name, cpus) world

/-- The parent of the cpuset groups is none of them. -/
theorem parent_ne_group {name file : Bytes} (parent : InDir cpusetParentPath file) :
    ¬ InDir (cpusetGroupPath name) file := by
  intro group
  have same : cpusetParentPath = cpusetGroupPath name := parent.unique group
  have lengths := congrArg List.length same
  rw [cpusetGroupPath, List.length_append, List.length_append] at lengths
  have longer : 0 < (Bytes.ascii "/ReUperf_").length := by decide
  omega

/-- Only the CPUs of the parent of the cpuset groups were looked for. -/
structure Begun (tree : FileTree) (world : FileWorld) : Prop where
  /-- What must be put back can be. -/
  protects : Protects (Guarded tree) {} world
  /-- What any run keeps is kept. -/
  later : Later { toFileTree := tree } world
  /-- Nothing was written. -/
  frame : Frame (fun file => file = cpusetParentPath ++ Bytes.ascii "/cpus") (fun _ => False)
    { toFileTree := tree } world

variable {tree : FileTree}

/-- A read does not touch the groups. -/
theorem Begun.noteRead (begun : Begun tree world) (path value : Bytes) :
    Begun tree (world.noteRead path value) := by
  obtain ⟨later, frame⟩ : Later world (world.noteRead path value) ∧
      Frame (fun file => file = cpusetParentPath ++ Bytes.ascii "/cpus") (fun _ => False) world
        (world.noteRead path value) := frame_noteRead path value
  exact ⟨begun.protects.later later frame fun _ _ impossible => impossible,
    begun.later.trans later, begun.frame.trans begun.later frame⟩

/-- The groups are untouched then. -/
theorem Begun.untouched (begun : Begun tree world) : Untouched tree world where
  asked name file own asked := by
    have other : file ≠ cpusetParentPath ++ Bytes.ascii "/cpus" := by
      intro same
      rw [same] at own
      exact parent_ne_group (control_of_cpuset cpusetParentPath).1 own
    exact absurd (begun.frame.asked file other asked) (Finset.notMem_empty file)
  complete name complete :=
    @Complete.later { toFileTree := tree } _ _ _ _ complete begun.later begun.frame
      fun _ _ impossible => impossible

/-- A value was read from a file, and it is the file's unless the file was written. -/
structure Inherited (world : FileWorld) (file value : Bytes) : Prop where
  /-- It was read. -/
  read : (file, value) ∈ world.reads
  /-- It is a value. -/
  filled : value ≠ []
  /-- It is the one the file has. -/
  current : world.firstValues file = none → world.contents file = value

/-- An inherited value stays one. -/
theorem Inherited.later {file value : Bytes} (inherited : Inherited world file value)
    (later : Later world after) : Inherited after file value where
  read := later.reads inherited.read
  filled := inherited.filled
  current unwritten := by
    have unwrittenBefore : world.firstValues file = none := by
      cases known : world.firstValues file with
      | none => rfl
      | some first =>
        rw [later.kept file first known] at unwritten
        cases unwritten
    have same := inherited.current unwrittenBefore
    have present : (world.files file).isSome = true := by
      apply isSome_of_contents
      rw [same]
      exact inherited.filled
    obtain ⟨dir, inside, own⟩ := world.inDirs file present
    rw [FileTree.contents, later.same dir (FileTree.found_of_mem inside) file own unwritten]
    exact same

/-- A limit holds the configured value, or without one an inherited value, if there is a file. -/
def LimitHolds (child parent filename : Bytes) (configured : Option Int) (world : FileWorld) :
    Prop :=
  match configured with
  | some value => world.files (child ++ Bytes.ascii "/" ++ filename) = some (Bytes.decimal value)
  | none => world.files (child ++ Bytes.ascii "/" ++ filename) = none ∨
      ∃ inherited, Inherited world (parent ++ Bytes.ascii "/" ++ filename) inherited ∧
        world.files (child ++ Bytes.ascii "/" ++ filename) = some inherited

/-- A limit stays when its file is not written. -/
theorem LimitHolds.later {child parent filename : Bytes} {configured : Option Int}
    (holds : LimitHolds child parent filename configured world) (later : Later world after)
    (there : world.found child = true) (plain : 47 ∉ filename)
    (frame : Frame looked written world after)
    (other : ¬ written (child ++ Bytes.ascii "/" ++ filename)) :
    LimitHolds child parent filename configured after := by
  cases configured with
  | some value => exact frame.files_eq other holds
  | none =>
    rcases holds with missing | ⟨value, inherited, value_eq⟩
    · exact .inl (later.isNone there (inDir_control child plain) missing)
    · exact .inr ⟨value, inherited.later later, frame.files_eq other value_eq⟩

/-- The group of a limited thread rule holds its limits. -/
structure LimitsHold (rule : ProcessRule) (indexed : ThreadRule × Nat) (world : FileWorld) :
    Prop where
  /-- It exists. -/
  there : world.found (subPath rule.name indexed.2) = true
  /-- It holds the clamp. -/
  clamp : LimitHolds (subPath rule.name indexed.2) (rulePath rule.name)
    (Bytes.ascii "cpu.uclamp.max") indexed.1.uclampMax world
  /-- It holds the share. -/
  share : LimitHolds (subPath rule.name indexed.2) (rulePath rule.name)
    (Bytes.ascii "cpu.shares") indexed.1.cpuShare world

/-- The limits of a group stay when its files are not written. -/
theorem LimitsHold.later {rule : ProcessRule} {indexed : ThreadRule × Nat}
    (holds : LimitsHold rule indexed world) (later : Later world after)
    (frame : Frame looked written world after)
    (other : ∀ file, InDir (subPath rule.name indexed.2) file → ¬ written file) :
    LimitsHold rule indexed after := by
  have own := control_of_limit (subPath rule.name indexed.2)
  have plain : ∀ name ∈ limitFiles, 47 ∉ name := by decide
  have clamp : Bytes.ascii "cpu.uclamp.max" ∈ limitFiles := List.mem_cons_self
  have share : Bytes.ascii "cpu.shares" ∈ limitFiles := List.mem_cons_of_mem _ List.mem_cons_self
  exact ⟨later.found _ holds.there,
    holds.clamp.later later holds.there (plain _ clamp) frame (other _ (own _ clamp)),
    holds.share.later later holds.there (plain _ share) frame (other _ (own _ share))⟩

/-- The group of a thread rule tells its rule's name and its index. -/
theorem subPath_eq {left right : Bytes} {first second : Nat}
    (same : subPath left first = subPath right second) : left = right ∧ first = second := by
  have plain : ∀ index : Nat, 47 ∉ (65 : UInt8) :: Bytes.natural (index + 1) := by
    intro index slash
    rcases List.mem_cons.mp slash with capital | digit
    · exact absurd capital (by decide)
    · exact absurd (Bytes.lt_of_mem_natural digit) (by decide)
  have split : ∀ (name : Bytes) (index : Nat),
      subPath name index = rulePath name ++ 47 :: 65 :: Bytes.natural (index + 1) :=
    fun name index => List.append_assoc (rulePath name) [47, 65] _
  rw [split, split] at same
  obtain ⟨names, indices⟩ := Bytes.append_last_separator_inj (plain first) (plain second) same
  have digits := Bytes.natural_injective (List.cons.inj indices).2
  exact ⟨List.append_cancel_left names, by omega⟩

/-- A later process rule gives limits to the same group. -/
def Overridden (later : List ProcessRule) (name : Bytes) (index : Nat) : Prop :=
  ∃ rule ∈ later, rule.name = name ∧
    ∃ threadRule, rule.threadRules[index]? = some threadRule ∧ threadRule.enableLimit = true

/-- Every group with limits holds those of the last rule that gives it limits. -/
def CpuctlsHold (rules : List ProcessRule) (world : FileWorld) : Prop :=
  ∀ before rule later, rules = before ++ rule :: later → ∀ indexed ∈ rule.threadRules.zipIdx,
    indexed.1.enableLimit = true → ¬ Overridden later rule.name indexed.2 →
      LimitsHold rule indexed world

/-- One more rule gives limits to its groups. -/
theorem CpuctlsHold.snoc {rules : List ProcessRule} {rule : ProcessRule}
    (holds : CpuctlsHold rules world) (later : Later world after)
    (frame : Frame looked (InLimitGroup rule) world after)
    (last : ∀ indexed ∈ rule.threadRules.zipIdx, indexed.1.enableLimit = true →
      LimitsHold rule indexed after) : CpuctlsHold (rules ++ [rule]) after := by
  intro before other rest split indexed member limited topmost
  rcases List.eq_nil_or_concat rest with rfl | ⟨front, ending, rfl⟩
  · obtain ⟨-, same⟩ := List.append_inj' split rfl
    obtain rfl := (List.cons.inj same).1
    exact last indexed member limited
  · rw [List.concat_eq_append] at split topmost
    have regrouped : rules ++ [rule] = (before ++ other :: front) ++ [ending] := by
      rw [split, List.append_assoc]
      rfl
    obtain ⟨front_eq, ending_eq⟩ := List.append_inj' regrouped rfl
    obtain rfl := (List.cons.inj ending_eq).1
    have notFront : ¬ Overridden front other.name indexed.2 :=
      fun ⟨rule, inside, found⟩ => topmost ⟨rule, List.mem_append_left _ inside, found⟩
    refine (holds before other front front_eq indexed member limited notFront).later later frame ?_
    intro file mine theirs
    obtain ⟨index, threadRule, place, alsoLimited, own⟩ := theirs
    obtain ⟨names, indices⟩ := subPath_eq (mine.unique own)
    rw [← indices] at place
    exact topmost ⟨rule, List.mem_append_right _ List.mem_cons_self, names.symm, threadRule, place,
      alsoLimited⟩

/-- No cpuset path is the group of a thread rule. -/
theorem cpuset_ne_subPath {rest name : Bytes} {index : Nat} :
    cpusetParentPath ++ rest ≠ subPath name index := by
  intro same
  -- the names of the controllers differ in the tenth letter
  have letters : (cpusetParentPath ++ rest)[9]? = (subPath name index)[9]? := by rw [same]
  rw [subPath, rulePath, List.append_assoc, List.append_assoc, List.append_assoc,
    List.getElem?_append_left (by decide), List.getElem?_append_left (by decide)]
    at letters
  exact absurd letters (by decide)

/-- The cpuset groups hold their values while cpuctl groups are initialised. -/
theorem CpusetsHold.later {config : Config} (holds : CpusetsHold config world)
    (later : Later world after)
    (frame : Frame (InLimitGroups config) (InLimitGroups config) world after) :
    CpusetsHold config after := by
  have apart : ∀ rest file, InDir (cpusetParentPath ++ rest) file →
      ¬ InLimitGroups config file := by
    intro rest file own limited
    obtain ⟨rule, -, index, threadRule, -, -, other⟩ := limited
    exact cpuset_ne_subPath (own.unique other)
  obtain ⟨-, parent, -⟩ := control_of_cpuset cpusetParentPath
  have there : world.found cpusetParentPath = true :=
    FileTree.found_of_inDir parent (isSome_of_contents holds.filled)
  have outside : ¬ InLimitGroups config (cpusetParentPath ++ Bytes.ascii "/mems") := by
    apply apart []
    rw [List.append_nil]
    exact parent
  have same : after.contents (cpusetParentPath ++ Bytes.ascii "/mems") =
      world.contents (cpusetParentPath ++ Bytes.ascii "/mems") := by
    rw [FileTree.contents, frame.files _ outside _ there parent]
    rfl
  refine ⟨by rw [same]; exact holds.filled, fun name cpus configured => ?_⟩
  rw [same]
  refine (holds.groups name cpus configured).later later frame fun file own => ?_
  apply apart (Bytes.ascii "/ReUperf_" ++ name)
  rw [← List.append_assoc]
  exact own

/-- A run of the initialisation whose rollback writes succeed. -/
inductive InitRun (config : Config) (world : FileWorld) : Bool → FileWorld → Prop
  /-- The groups are initialised, and nothing is put back. -/
  | ready {transaction : ControlFileTransaction} {after : FileWorld}
    (succeeded : Program.Run (machine false) (initControllers config) world (true, transaction)
      after) :
    InitRun config world true after
  /-- Something failed, and the values are put back. -/
  | rolledBack {transaction : ControlFileTransaction} {middle after : FileWorld} {success : Bool}
    (failed : Program.Run (machine false) (initControllers config) world (false, transaction)
      middle)
    (restored : Program.Run (machine true) transaction.rollback middle success after) :
    InitRun config world false after

/-- Reliable writes are writes. -/
theorem step_of_reliable {operation : FileOp} {response : FileSig.Res operation}
    (stepped : Step true world operation response after) :
    Step false world operation response after := by
  cases operation with
  | writeKernelControlFile path content =>
    exact stepped.imp id fun failed =>
      ⟨failed.1, fun reliable => (by cases reliable), failed.2.2⟩
  | dirExists path | fileExists path | readFile path | mkdir path | usleep microseconds =>
    exact stepped

/-- These are runs of the initialiser. -/
theorem InitRun.run {config : Config} {ready : Bool} (run : InitRun config world ready after) :
    Program.Run (machine false) (init config) world ready after := by
  rw [init, Program.run_bind]
  cases run with
  | ready succeeded => exact ⟨_, _, succeeded, .ret true after⟩
  | rolledBack failed restored =>
    have back : Program.Run (machine false) _ _ _ after :=
      restored.mono fun _ _ _ _ stepped => step_of_reliable stepped
    exact ⟨_, _, failed, Program.run_bind.mpr ⟨_, _, back, .ret false after⟩⟩

/-- Responses of a tree in which some files cannot be written. -/
def respond (broken : Finset Bytes) (world : FileWorld) :
    (operation : FileOp) → Option (FileSig.Res operation × FileWorld)
  | .dirExists path => some (decide (path ∈ world.dirs), world)
  | .fileExists path => some (world.found path, { world with asked := insert path world.asked })
  | .readFile path => some (world.contents path, world.noteRead path (world.contents path))
  | .mkdir path => some (world.found path, world)
  | .writeKernelControlFile path content =>
    if path ∈ broken then some (false, world)
    else if (world.files path).isSome = true then some (true, world.write path content)
    else some (false, world)
  | .usleep _ => some ((), world)

/-- The responses are possible, and reliable ones when no file is broken. -/
theorem step_of_respond {broken : Finset Bytes} (whole : reliable = true → broken = ∅)
    {operation : FileOp} {response : FileSig.Res operation}
    (responds : respond broken world operation = some (response, after)) :
    Step reliable world operation response after := by
  cases operation with
  | dirExists path | fileExists path => cases responds; exact ⟨rfl, rfl⟩
  | readFile path => cases responds; exact ⟨.inl rfl, rfl⟩
  | mkdir path => cases responds; exact .inl ⟨id, rfl⟩
  | usleep microseconds => cases responds; rfl
  | writeKernelControlFile path content =>
    rw [respond] at responds
    split at responds
    · next member =>
      cases responds
      refine .inr ⟨rfl, fun reliable => ?_, rfl⟩
      rw [whole reliable] at member
      exact absurd member (Finset.notMem_empty path)
    · split at responds
      · next present => cases responds; exact .inl ⟨rfl, present, rfl⟩
      · next missing =>
        cases responds
        exact .inr ⟨rfl, fun _ => Option.not_isSome_iff_eq_none.mp missing, rfl⟩

end ControlValues

end ReUperf
