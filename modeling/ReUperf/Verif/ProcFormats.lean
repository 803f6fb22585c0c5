import Mathlib.Data.List.DropRight
import ReUperf.System.StatusFiles

/-!
# Formats of `/proc` files

The kernel ends every line of a `cgroup` or `status` file, and writes no line end inside one: it
refuses group names with one and escapes those of a thread name. What it writes so is read back,
whatever the groups and the thread are named.
-/

namespace ReUperf

/-! ## Lines -/

namespace Bytes

variable {separator : UInt8}

/-- Words that can stand between separators. -/
def AreWords (separator : UInt8) (words : List Bytes) : Prop :=
  ∀ word ∈ words, word ≠ [] ∧ separator ∉ word

/-- A begun line ends at the separator. -/
theorem collect_delimited {word : Bytes} (clean : separator ∉ word) (begun rest : Bytes) :
    getlines.collect separator begun (word ++ separator :: rest) =
      (begun.reverse ++ word) :: getlines.collect separator [] rest := by
  induction word generalizing begun with
  | nil => simp [getlines.collect]
  | cons byte word ih =>
    rw [List.mem_cons, not_or] at clean
    rw [List.cons_append, getlines.collect, if_neg (Ne.symm clean.1), ih clean.2]
    simp

/-- A begun line ends with the text. -/
theorem collect_last {word : Bytes} (clean : separator ∉ word) {begun : Bytes}
    (filled : begun.reverse ++ word ≠ []) :
    getlines.collect separator begun word = [begun.reverse ++ word] := by
  induction word generalizing begun with
  | nil =>
    have some : begun ≠ [] := by simpa using filled
    rw [getlines.collect, if_neg some, List.append_nil]
  | cons byte word ih =>
    rw [List.mem_cons, not_or] at clean
    rw [getlines.collect, if_neg (Ne.symm clean.1), ih clean.2 (by simp)]
    simp

/-- Words are read back from between their separators. -/
theorem getlines_intercalate {words : List Bytes} (are : AreWords separator words) :
    getlines separator ([separator].intercalate words) = words := by
  induction words with
  | nil => rfl
  | cons word rest ih =>
    obtain ⟨filled, clean⟩ := are word List.mem_cons_self
    have later := ih fun other member => are other (List.mem_cons_of_mem _ member)
    cases rest with
    | nil =>
      rw [List.intercalate_singleton, getlines]
      exact collect_last clean filled
    | cons second rest =>
      rw [List.intercalate_cons_cons, List.append_assoc, List.singleton_append, getlines,
        collect_delimited clean]
      exact congrArg (word :: ·) later

/-- What `read_file` returns of a file of lines. -/
def readBack (lines : List Bytes) : Bytes := (lines.flatMap (· ++ [10])).rdropWhile (· = 10)

/-- Words that end with a separator stand between separators. -/
theorem flatMap_terminated {words : List Bytes} (some : words ≠ []) :
    words.flatMap (· ++ [separator]) = [separator].intercalate words ++ [separator] := by
  induction words with
  | nil => exact absurd rfl some
  | cons word rest ih =>
    cases rest with
    | nil => simp
    | cons second rest =>
      rw [List.flatMap_cons, ih (List.cons_ne_nil _ _), List.intercalate_cons_cons]
      simp

/-- Joined lines do not end with a line end. -/
theorem getLast_intercalate {lines : List Bytes} (are : AreWords 10 lines)
    (some : [10].intercalate lines ≠ []) : ([10].intercalate lines).getLast some ≠ 10 := by
  induction lines with
  | nil => exact absurd rfl some
  | cons line rest ih =>
    obtain ⟨filled, clean⟩ := are line List.mem_cons_self
    have later : AreWords 10 rest := fun other member => are other (List.mem_cons_of_mem _ member)
    cases rest with
    | nil =>
      simp only [List.intercalate_singleton]
      intro last
      exact clean (last ▸ List.getLast_mem filled)
    | cons second rest =>
      have tail : [10].intercalate (second :: rest) ≠ [] := by
        intro empty
        have read := getlines_intercalate later
        rw [empty] at read
        exact absurd read (List.cons_ne_nil _ _).symm
      simp only [List.intercalate_cons_cons, List.append_assoc, List.singleton_append]
      rw [List.getLast_append_of_ne_nil _ (List.cons_ne_nil _ _), List.getLast_cons tail]
      exact ih later tail

/-- Reading takes the last line end away. -/
theorem readBack_eq {lines : List Bytes} (are : AreWords 10 lines) :
    readBack lines = [10].intercalate lines := by
  by_cases some : lines = []
  · rw [some]
    rfl
  · rw [readBack, flatMap_terminated some, List.rdropWhile_concat_pos _ _ _ (by simp)]
    refine List.rdropWhile_eq_self_iff.mpr fun filled => ?_
    rw [decide_eq_true_eq]
    exact getLast_intercalate are filled

/-- The lines are read back. -/
theorem getlines_readBack {lines : List Bytes} (are : AreWords 10 lines) :
    getlines 10 (readBack lines) = lines := by
  rw [readBack_eq are]
  exact getlines_intercalate are

end Bytes

/-! ## Group files -/

namespace FileUtils

/-- A hierarchy as a line of a `cgroup` file tells it. -/
structure Hierarchy where
  /-- Its number. -/
  id : Bytes
  /-- Its controllers. -/
  controllers : List Bytes
  /-- The group of the thread in it. -/
  path : Bytes

namespace Hierarchy

/-- The line of a hierarchy. -/
def line (hierarchy : Hierarchy) : Bytes :=
  hierarchy.id ++ 58 :: ([44].intercalate hierarchy.controllers ++ 58 :: hierarchy.path)

/-- What the kernel writes: no separator in a number or a controller, and no line end in a path,
which has a slash at least. The path is free otherwise. -/
structure Written (hierarchy : Hierarchy) : Prop where
  /-- The number. -/
  id : 58 ∉ hierarchy.id ∧ 10 ∉ hierarchy.id
  /-- The controllers stand between commas. -/
  controllers : Bytes.AreWords 44 hierarchy.controllers
  /-- They have no separator of the line. -/
  plain : ∀ controller ∈ hierarchy.controllers, 58 ∉ controller ∧ 10 ∉ controller
  /-- The path. -/
  path : hierarchy.path ≠ [] ∧ 10 ∉ hierarchy.path

variable {hierarchy : Hierarchy}

/-- A byte that is no comma and in no controller is not in their list. -/
theorem notMem_controllers {byte : UInt8} (other : byte ≠ 44) {controllers : List Bytes}
    (clean : ∀ controller ∈ controllers, byte ∉ controller) :
    byte ∉ [44].intercalate controllers := by
  induction controllers with
  | nil => exact List.not_mem_nil
  | cons first rest ih =>
    have here := clean first List.mem_cons_self
    have later := ih fun controller member => clean controller (List.mem_cons_of_mem _ member)
    cases rest with
    | nil => simpa using here
    | cons second rest =>
      rw [List.intercalate_cons_cons]
      simp only [List.mem_append, List.mem_singleton, not_or]
      exact ⟨⟨here, other⟩, later⟩

/-- A text up to a separator it does not have, and what follows the separator. -/
theorem split_at {separator : UInt8} {word : Bytes} (clean : separator ∉ word) (rest : Bytes) :
    (word ++ separator :: rest).takeWhile (· ≠ separator) = word ∧
      (word ++ separator :: rest).dropWhile (· ≠ separator) = separator :: rest := by
  have all : ∀ byte ∈ word, decide (byte ≠ separator) = true := by
    intro byte member
    rw [decide_eq_true_eq]
    rintro rfl
    exact clean member
  have ends : ∀ byte, (separator :: rest).head? = some byte →
      decide (byte ≠ separator) = false := by
    rintro byte ⟨⟩
    simp
  exact ⟨Bytes.takeWhile_word all ends, Bytes.dropWhile_word all ends⟩

/-- A line is taken apart at its first two colons, whatever the path has. -/
theorem parseCgroupLine_line (written : hierarchy.Written) :
    parseCgroupLine hierarchy.line =
      some ([44].intercalate hierarchy.controllers, hierarchy.path) := by
  have controllers := notMem_controllers (by decide) fun controller member =>
    (written.plain controller member).1
  rw [parseCgroupLine, line, (split_at written.id.1 _).2]
  dsimp only
  rw [(split_at controllers _).2, (split_at controllers _).1]

/-- A line of the kernel is a line. -/
theorem line_isWord (written : hierarchy.Written) : hierarchy.line ≠ [] ∧ 10 ∉ hierarchy.line := by
  have controllers := notMem_controllers (by decide) fun controller member =>
    (written.plain controller member).2
  refine ⟨by simp [line], ?_⟩
  simp only [line, List.mem_append, List.mem_cons, not_or]
  exact ⟨written.id.2, by decide, controllers, by decide, written.path.2⟩

end Hierarchy

variable {hierarchies : List Hierarchy}

/-- The group of the thread in the hierarchy of a controller; empty when there is none. -/
def pathIn (hierarchies : List Hierarchy) (controller : Bytes) : Bytes :=
  ((hierarchies.find? fun hierarchy => hierarchy.controllers.contains controller).map
    (·.path)).getD []

/-- The lines of hierarchies are lines. -/
theorem lines_areWords (written : ∀ hierarchy ∈ hierarchies, hierarchy.Written) :
    Bytes.AreWords 10 (hierarchies.map Hierarchy.line) := by
  intro line member
  obtain ⟨hierarchy, listed, rfl⟩ := List.mem_map.mp member
  exact Hierarchy.line_isWord (written hierarchy listed)

/-- The lookup of a process finds the group of a controller. -/
theorem cgroupPathOf_readBack (written : ∀ hierarchy ∈ hierarchies, hierarchy.Written)
    (controller : Bytes) :
    cgroupPathOf (Bytes.readBack (hierarchies.map Hierarchy.line)) controller =
      pathIn hierarchies controller := by
  rw [cgroupPathOf, Bytes.getlines_readBack (lines_areWords written), pathIn]
  congr 1
  induction hierarchies with
  | nil => rfl
  | cons hierarchy rest ih =>
    have here := written hierarchy List.mem_cons_self
    have later := ih fun other member => written other (List.mem_cons_of_mem _ member)
    rw [List.map_cons, List.findSome?_cons, Hierarchy.parseCgroupLine_line here]
    dsimp only
    rw [Bytes.getlines_intercalate here.controllers]
    have filled : hierarchy.path.isEmpty = false := List.isEmpty_eq_false_iff.mpr here.path.1
    rw [List.find?_cons, filled]
    cases listed : hierarchy.controllers.contains controller with
    | true => rfl
    | false => exact later

/-! ### Groups of a thread -/

/-- Whether a hierarchy has a controller of a kind. -/
def Hierarchy.has (hierarchy : Hierarchy) (kind : Bytes → Bool) : Bool :=
  hierarchy.controllers.any kind

/-- No name is one of both controllers. -/
theorem isCpuctlController_of_cpuset {controller : Bytes}
    (cpuset : isCpusetController controller = true) : isCpuctlController controller = false := by
  rw [isCpusetController, decide_eq_true_eq] at cpuset
  rw [cpuset]
  decide

/-- Noting the controllers of a line sets the paths of their kinds. -/
theorem foldl_noteController (path : Bytes) (controllers : List Bytes)
    (paths : ThreadCgroupPaths) :
    controllers.foldl (noteController path) paths =
      { paths with
        cpuset := if controllers.any isCpusetController then path else paths.cpuset
        cpuctl := if controllers.any isCpuctlController then path else paths.cpuctl } := by
  induction controllers generalizing paths with
  | nil => rfl
  | cons controller rest ih =>
    rw [List.foldl_cons, ih, List.any_cons, List.any_cons, noteController]
    cases cpuset : isCpusetController controller with
    | true =>
      rw [isCpuctlController_of_cpuset cpuset]
      simp
    | false =>
      cases cpuctl : isCpuctlController controller with
      | true => simp
      | false => simp

/-- The group in the last hierarchy that has a controller of a kind. -/
def lastPath (kind : Bytes → Bool) (hierarchies : List Hierarchy) : Bytes :=
  (((hierarchies.filter (·.has kind)).getLast?).map (·.path)).getD []

/-- The groups of a thread are those of the last hierarchies with the controllers. -/
theorem parseThreadCgroupPaths_readBack (written : ∀ hierarchy ∈ hierarchies, hierarchy.Written)
    (some : hierarchies ≠ []) :
    parseThreadCgroupPaths (Bytes.readBack (hierarchies.map Hierarchy.line)) =
      ⟨lastPath isCpusetController hierarchies, lastPath isCpuctlController hierarchies, true⟩ := by
  have areWords := lines_areWords written
  have filled : Bytes.readBack (hierarchies.map Hierarchy.line) ≠ [] := by
    intro empty
    have read := Bytes.getlines_readBack areWords
    rw [empty] at read
    exact some (List.map_eq_nil_iff.mp read.symm)
  rw [parseThreadCgroupPaths, if_neg filled, Bytes.getlines_readBack areWords]
  -- The paths noted so far are those of the hierarchies read so far.
  have noted : ∀ later before : List Hierarchy, (∀ hierarchy ∈ later, hierarchy.Written) →
      (later.map Hierarchy.line).foldl noteCgroupLine
        ⟨lastPath isCpusetController before, lastPath isCpuctlController before, true⟩ =
      ⟨lastPath isCpusetController (before ++ later),
        lastPath isCpuctlController (before ++ later), true⟩ := by
    intro later
    induction later with
    | nil => intro before _; rw [List.append_nil]; rfl
    | cons hierarchy rest ih =>
      intro before written
      have here := written hierarchy List.mem_cons_self
      have last : ∀ kind, lastPath kind (before ++ [hierarchy]) =
          if hierarchy.controllers.any kind then hierarchy.path else lastPath kind before := by
        intro kind
        rw [lastPath, List.filter_append, List.filter_cons, Hierarchy.has]
        cases has : hierarchy.controllers.any kind with
        | true => simp
        | false => simp [lastPath]
      rw [List.map_cons, List.foldl_cons, noteCgroupLine, Hierarchy.parseCgroupLine_line here]
      dsimp only
      rw [Bytes.getlines_intercalate here.controllers, foldl_noteController]
      dsimp only
      rw [← last, ← last, ih (before ++ [hierarchy]) fun other member =>
        written other (List.mem_cons_of_mem _ member), List.append_assoc, List.singleton_append]
  exact noted hierarchies [] written

/-- A controller that is listed once is in the first hierarchy that has it and in the last. -/
theorem lastPath_eq_pathIn {kind : Bytes → Bool} {controller : Bytes}
    (once : (hierarchies.flatMap (·.controllers)).Nodup)
    (only : ∀ listed ∈ hierarchies.flatMap (·.controllers),
      kind listed = true ↔ listed = controller) :
    lastPath kind hierarchies = pathIn hierarchies controller := by
  have same : ∀ hierarchy ∈ hierarchies, hierarchy.has kind =
      hierarchy.controllers.contains controller := by
    intro hierarchy member
    rw [Bool.eq_iff_iff, Hierarchy.has, List.any_eq_true, List.contains_iff_mem]
    constructor
    · rintro ⟨listed, here, holds⟩
      have known := (only listed (List.mem_flatMap.mpr ⟨hierarchy, member, here⟩)).mp holds
      exact known ▸ here
    · intro here
      have known := only controller (List.mem_flatMap.mpr ⟨hierarchy, member, here⟩)
      exact ⟨controller, here, known.mpr rfl⟩
  have apart := (List.nodup_flatMap.mp once).2.filter
    fun hierarchy => hierarchy.controllers.contains controller
  have holds : ∀ hierarchy ∈ hierarchies.filter
      (fun hierarchy => hierarchy.controllers.contains controller),
      controller ∈ hierarchy.controllers := by
    intro hierarchy member
    exact List.contains_iff_mem.mp (List.mem_filter.mp member).2
  rw [lastPath, pathIn, List.filter_congr same, ← List.head?_filter]
  cases found : hierarchies.filter fun hierarchy => hierarchy.controllers.contains controller with
  | nil => rfl
  | cons first rest =>
    cases rest with
    | nil => rfl
    | cons second rest =>
      rw [found] at apart holds
      have disjoint := List.rel_of_pairwise_cons apart List.mem_cons_self
      exact (disjoint (holds first List.mem_cons_self)
        (holds second (List.mem_cons_of_mem _ List.mem_cons_self))).elim

/-- Both parsers read from a `cgroup` file of the kernel in which every controller is listed once
the group of the thread in each hierarchy, whatever the groups are named; so they agree. -/
theorem groups_read (hierarchies : List Hierarchy) (some : hierarchies ≠ [])
    (written : ∀ hierarchy ∈ hierarchies, hierarchy.Written)
    (once : (hierarchies.flatMap (·.controllers)).Nodup)
    (plain : Bytes.ascii "cpuctl" ∉ hierarchies.flatMap (·.controllers)) :
    (∀ controller, cgroupPathOf (Bytes.readBack (hierarchies.map Hierarchy.line)) controller =
      pathIn hierarchies controller) ∧
    parseThreadCgroupPaths (Bytes.readBack (hierarchies.map Hierarchy.line)) =
      ⟨pathIn hierarchies cpusetController, pathIn hierarchies cpuController, true⟩ := by
  refine ⟨cgroupPathOf_readBack written, ?_⟩
  have cpuset : lastPath isCpusetController hierarchies = pathIn hierarchies cpusetController :=
    lastPath_eq_pathIn once fun listed _ => decide_eq_true_iff
  have cpuctl : lastPath isCpuctlController hierarchies = pathIn hierarchies cpuController := by
    refine lastPath_eq_pathIn once fun listed member => ?_
    rw [isCpuctlController, Bool.or_eq_true, decide_eq_true_eq, decide_eq_true_eq]
    constructor
    · rintro (cpu | other)
      · exact cpu
      · rw [other] at member
        exact absurd member plain
    · exact .inl
  rw [parseThreadCgroupPaths_readBack written some, cpuset, cpuctl]

/-- The hierarchies of a thread in a group whose name looks like a line. -/
def spoofingHierarchies : List Hierarchy :=
  [⟨Bytes.ascii "4", [Bytes.ascii "cpuset"], Bytes.ascii "/a:cpuset:/top-app"⟩,
    ⟨Bytes.ascii "2", [Bytes.ascii "cpu", Bytes.ascii "cpuacct"], Bytes.ascii "/foreground"⟩]

/-- A group whose name looks like a line is read as what it is. -/
theorem groups_read_spoofing :
    parseThreadCgroupPaths (Bytes.readBack (spoofingHierarchies.map Hierarchy.line)) =
      ⟨Bytes.ascii "/a:cpuset:/top-app", Bytes.ascii "/foreground", true⟩ := by
  have written : ∀ hierarchy ∈ spoofingHierarchies, hierarchy.Written := by
    intro hierarchy member
    rcases List.mem_cons.mp member with rfl | member
    · exact ⟨by decide, by unfold Bytes.AreWords; decide, by decide,
        by decide⟩
    · obtain rfl := List.mem_singleton.mp member
      exact ⟨by decide, by unfold Bytes.AreWords; decide, by decide,
        by decide⟩
  have read := groups_read spoofingHierarchies (by decide) written (by decide)
    (by decide)
  have cpuset : pathIn spoofingHierarchies cpusetController = Bytes.ascii "/a:cpuset:/top-app" := by
    decide
  have cpuctl : pathIn spoofingHierarchies cpuController = Bytes.ascii "/foreground" := by
    decide
  rw [cpuset, cpuctl] at read
  exact read.2

/-! ## Status files -/

/-- How the kernel writes a name to a `status` file. -/
def escapeName (comm : Bytes) : Bytes :=
  comm.flatMap fun byte =>
    if byte = 10 then [92, 110] else if byte = 92 then [92, 92] else [byte]

/-- The line of a name. -/
def nameLine (comm : Bytes) : Bytes := Bytes.ascii "Name:\t" ++ escapeName comm

/-- The line of the process of a thread. -/
def tgidLine (tgid : Nat) : Bytes := Bytes.ascii "Tgid:\t" ++ Bytes.natural tgid

/-- A `status` file once it is read. -/
def statusContent (comm : Bytes) (before : List Bytes) (tgid : Nat) (after : List Bytes) : Bytes :=
  Bytes.readBack (nameLine comm :: (before ++ tgidLine tgid :: after))

/-- An escaped name has no line end. -/
theorem notMem_escapeName (comm : Bytes) : 10 ∉ escapeName comm := by
  intro member
  obtain ⟨byte, _, here⟩ := List.mem_flatMap.mp member
  split at here
  · exact absurd here (by decide)
  · split at here
    · exact absurd here (by decide)
    · rename_i notEnd _
      exact notEnd (List.mem_singleton.mp here).symm

/-- A name without line ends and backslashes is written as it is. -/
theorem escapeName_plain {comm : Bytes} (plain : 10 ∉ comm ∧ 92 ∉ comm) :
    escapeName comm = comm := by
  induction comm with
  | nil => rfl
  | cons byte rest ih =>
    simp only [List.mem_cons, not_or] at plain
    rw [escapeName, List.flatMap_cons, if_neg (Ne.symm plain.1.1), if_neg (Ne.symm plain.2.1)]
    exact congrArg (byte :: ·) (ih ⟨plain.1.2, plain.2.2⟩)

section Status

variable {comm : Bytes} {before after : List Bytes} {tgid : Nat}

/-- The lines of a `status` file are lines. -/
theorem statusLines_areWords (first : Bytes.AreWords 10 before) (last : Bytes.AreWords 10 after) :
    Bytes.AreWords 10 (nameLine comm :: (before ++ tgidLine tgid :: after)) := by
  have nameKey : 10 ∉ Bytes.ascii "Name:\t" := by decide
  have tgidKey : 10 ∉ Bytes.ascii "Tgid:\t" := by decide
  intro line member
  rcases List.mem_cons.mp member with rfl | member
  · refine ⟨List.append_ne_nil_of_left_ne_nil (by decide) _, ?_⟩
    rw [nameLine, List.mem_append, not_or]
    exact ⟨nameKey, notMem_escapeName comm⟩
  rcases List.mem_append.mp member with here | member
  · exact first line here
  rcases List.mem_cons.mp member with rfl | here
  · refine ⟨List.append_ne_nil_of_left_ne_nil (by decide) _, ?_⟩
    rw [tgidLine, List.mem_append, not_or]
    exact ⟨tgidKey, fun digit => absurd (Bytes.lt_of_mem_natural digit) (by decide)⟩
  · exact last line here

end Status

/-- A text is found where it stands first. -/
theorem find_append {part : Bytes} (filled : part ≠ []) (rest : Bytes) :
    Bytes.find part (part ++ rest) = some 0 := by
  obtain ⟨byte, more, rfl⟩ := List.exists_cons_of_ne_nil filled
  have start : (byte :: more).isPrefixOf (byte :: (more ++ rest)) = true :=
    List.isPrefixOf_iff_prefix.mpr (List.prefix_append (byte :: more) rest)
  rw [List.cons_append, Bytes.find, if_pos start]

/-- The name is read up to the end of its line, without the blanks before it. -/
theorem parseProcessName_nameLine (comm tail : Bytes) :
    parseProcessNameFromStatus (nameLine comm ++ 10 :: tail) =
      (escapeName comm).dropWhile CpuMask.isBlank := by
  have split : nameLine comm ++ 10 :: tail =
      Bytes.ascii "Name:" ++ 9 :: (escapeName comm ++ 10 :: tail) := by
    have key : Bytes.ascii "Name:\t" = Bytes.ascii "Name:" ++ [9] := by decide
    rw [nameLine, key]
    simp
  have start : Bytes.find (Bytes.ascii "Name:") (nameLine comm ++ 10 :: tail) = some 0 := by
    rw [split]
    exact find_append (by decide) _
  have skipped : ((nameLine comm ++ 10 :: tail).drop (0 + 5)).dropWhile CpuMask.isBlank =
      (escapeName comm).dropWhile CpuMask.isBlank ++ 10 :: tail := by
    have length : (Bytes.ascii "Name:").length = 0 + 5 := by decide
    rw [split, ← length, List.drop_left, List.dropWhile_cons_of_pos (by decide),
      List.dropWhile_append]
    cases left : (escapeName comm).dropWhile CpuMask.isBlank with
    | nil => rw [List.isEmpty_nil, if_pos rfl, List.dropWhile_cons_of_neg (by decide)]; rfl
    | cons byte rest => rfl
  have clean : 10 ∉ (escapeName comm).dropWhile CpuMask.isBlank := fun member =>
    notMem_escapeName comm ((List.dropWhile_suffix _).subset member)
  have filled : nameLine comm ++ 10 :: tail ≠ [] := by simp
  rw [parseProcessNameFromStatus, if_neg filled, start]
  dsimp only
  rw [skipped, if_pos (by simp), (Hierarchy.split_at clean tail).1]

/-- The line of the process is read as its number. -/
theorem strtol_tgidLine {tgid : Nat} (small : (tgid : Int) ≤ Bytes.longMax) :
    Bytes.strtol (((tgidLine tgid).drop 5).takeWhile (· ≠ 0)) = some ((tgid : Int), []) := by
  have rest : (tgidLine tgid).drop 5 = 9 :: Bytes.natural tgid := by
    have key : Bytes.ascii "Tgid:\t" = Bytes.ascii "Tgid:" ++ [9] := by decide
    have length : (Bytes.ascii "Tgid:").length = 5 := by decide
    rw [tgidLine, key, List.append_assoc, ← length, List.drop_left]
    rfl
  have nonzero : ∀ byte ∈ 9 :: Bytes.natural tgid, decide (byte ≠ 0) = true := by
    intro byte member
    rw [decide_eq_true_eq]
    rintro rfl
    rcases List.mem_cons.mp member with zero | digit
    · exact absurd zero (by decide)
    · exact absurd (Bytes.lt_of_mem_natural digit) (by decide)
  have whole : (9 :: Bytes.natural tgid).takeWhile (· ≠ 0) = 9 :: Bytes.natural tgid :=
    List.takeWhile_eq_self_iff.mpr nonzero
  have white : ∀ byte ∈ ([9] : Bytes), Bytes.isSpace byte = true :=
    List.forall_mem_singleton.mpr (by decide)
  have read := @Bytes.strtol_natural tgid small [9] [] white (by simp)
  rw [List.append_nil, List.singleton_append] at read
  rw [rest, whole, read]

/-- The line of the process is one, and that of the name is not. -/
theorem isTgidLine_lines (comm : Bytes) (tgid : Nat) :
    isTgidLine (tgidLine tgid) = true ∧ isTgidLine (nameLine comm) = false := by
  have tgidKey : Bytes.ascii "Tgid:\t" = Bytes.ascii "Tgid:" ++ [9] := by decide
  have nameKey : Bytes.ascii "Name:\t" = Bytes.ascii "Name:" ++ [9] := by decide
  have tgidLength : (Bytes.ascii "Tgid:").length = 5 := by decide
  have nameLength : (Bytes.ascii "Name:").length = 5 := by decide
  constructor
  · rw [isTgidLine, tgidLine, tgidKey, List.append_assoc, ← tgidLength, List.take_left]
    exact decide_eq_true rfl
  · rw [isTgidLine, nameLine, nameKey, List.append_assoc, ← nameLength, List.take_left]
    decide

/-- Whatever name a thread gives itself, its `status` file is read as the name the kernel wrote,
without blanks before it, and as a file of its own process and of no other. A name without blanks
before it, line ends and backslashes is read from the `status` file as from the `comm` file. -/
theorem status_read (comm : Bytes) (before after : List Bytes) (tgid : Nat)
    (first : Bytes.AreWords 10 before) (last : Bytes.AreWords 10 after)
    (others : ∀ line ∈ before, isTgidLine line = false) (valid : isValidId tgid = true) :
    parseProcessNameFromStatus (statusContent comm before tgid after) =
      (escapeName comm).dropWhile CpuMask.isBlank ∧
    (∀ pid, statusIsInProcess (statusContent comm before tgid after) pid = decide (pid = tgid)) ∧
    (comm ≠ [] → 10 ∉ comm ∧ 92 ∉ comm → comm.dropWhile CpuMask.isBlank = comm →
      parseProcessNameFromStatus (statusContent comm before tgid after) =
        threadCommOf (Bytes.readBack [comm])) := by
  have areWords := @statusLines_areWords comm before after tgid first last
  obtain ⟨tail, content⟩ : ∃ tail, statusContent comm before tgid after =
      nameLine comm ++ 10 :: tail := by
    obtain ⟨second, rest, more⟩ := List.exists_cons_of_ne_nil
      (List.append_ne_nil_of_right_ne_nil before (List.cons_ne_nil (tgidLine tgid) after))
    refine ⟨[10].intercalate (second :: rest), ?_⟩
    rw [statusContent, Bytes.readBack_eq areWords, more, List.intercalate_cons_cons,
      List.append_assoc, List.singleton_append]
  have name : parseProcessNameFromStatus (statusContent comm before tgid after) =
      (escapeName comm).dropWhile CpuMask.isBlank := by
    rw [content, parseProcessName_nameLine]
  refine ⟨name, fun pid => ?_, fun filled plain unindented => ?_⟩
  · have found : (nameLine comm :: (before ++ tgidLine tgid :: after)).find? isTgidLine =
        some (tgidLine tgid) := by
      obtain ⟨isTgid, isName⟩ := isTgidLine_lines comm tgid
      have none : before.find? isTgidLine = none :=
        List.find?_eq_none.mpr fun line member => by rw [others line member]; decide
      rw [List.find?_cons_of_neg (by rw [isName]; decide), List.find?_append, none,
        Option.none_or, List.find?_cons_of_pos isTgid]
    have bounds := of_decide_eq_true valid
    have small : (tgid : Int) ≤ Bytes.longMax := by
      unfold Bytes.longMax
      omega
    have some : statusContent comm before tgid after ≠ [] := by rw [content]; simp
    rw [statusIsInProcess, if_neg some, statusContent, Bytes.getlines_readBack areWords, found]
    dsimp only
    rw [strtol_tgidLine small]
    dsimp only
    rw [valid, Bool.true_and]
    exact decide_eq_decide.mpr eq_comm
  · have read : Bytes.readBack [comm] = comm := by
      have word : Bytes.AreWords 10 [comm] := fun other member =>
        List.mem_singleton.mp member ▸ ⟨filled, plain.1⟩
      rw [Bytes.readBack_eq word, List.intercalate_singleton]
    rw [name, escapeName_plain plain, unindented, read, threadCommOf, if_neg filled]

/-- A thread cannot name itself into another process. -/
theorem status_read_spoofing :
    parseProcessNameFromStatus (statusContent (Bytes.ascii " a\nTgid:\t1")
        [Bytes.ascii "Umask:\t0077"] 42 [Bytes.ascii "Ngid:\t0"]) =
      Bytes.ascii "a\\nTgid:\t1" ∧
    statusIsInProcess (statusContent (Bytes.ascii " a\nTgid:\t1") [Bytes.ascii "Umask:\t0077"] 42
        [Bytes.ascii "Ngid:\t0"]) 1 = false := by
  have first : Bytes.AreWords 10 [Bytes.ascii "Umask:\t0077"] := by
    unfold Bytes.AreWords
    decide
  have last : Bytes.AreWords 10 [Bytes.ascii "Ngid:\t0"] := by
    unfold Bytes.AreWords
    decide
  obtain ⟨name, process, _⟩ := status_read (Bytes.ascii " a\nTgid:\t1") _ _ 42 first last
    (by decide) (by decide)
  refine ⟨name.trans (by decide), (process 1).trans (by decide)⟩

/-! ## Command lines -/

/-- The first argument is read from a `cmdline` file, in which a zero byte ends every argument. -/
theorem processCmdlineOf_arguments {first : Bytes} (clean : 0 ∉ first) (rest : List Bytes) :
    processCmdlineOf (((first :: rest).flatMap (· ++ [0])).rdropWhile (· = 10)) = first := by
  have kept : ((first :: rest).flatMap (· ++ [0])).rdropWhile (· = 10) =
      first ++ 0 :: rest.flatMap (· ++ [0]) := by
    have ended : (first :: rest).flatMap (· ++ [0]) = [0].intercalate (first :: rest) ++ [0] :=
      Bytes.flatMap_terminated (List.cons_ne_nil first rest)
    rw [ended, List.rdropWhile_concat_neg _ _ _ (by decide), ← ended, List.flatMap_cons,
      List.append_assoc]
    rfl
  rw [kept]
  exact (Hierarchy.split_at clean _).1

end FileUtils

end ReUperf
