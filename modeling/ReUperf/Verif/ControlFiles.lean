import Mathlib.Data.Finset.Basic
import Mathlib.Data.List.DropRight
import ReUperf.Core.CgroupInit

/-!
# Control files

Trees of groups and their control files, and the machine of file operations on them: directories
cannot always be made, values cannot always be remembered and writes can fail. The module says what
any run keeps of a tree, what a part of a run leaves alone, and what the transaction of the
initialiser can put back.
-/

namespace ReUperf

open Effect FileUtils

/-! ## Trees of groups -/

/-- A file lies in a directory. -/
def InDir (dir file : Bytes) : Prop := ∃ name, 47 ∉ name ∧ file = dir ++ 47 :: name

/-- A file lies in one directory. -/
theorem InDir.unique {dir other file : Bytes} (first : InDir dir file) (second : InDir other file) :
    dir = other := by
  obtain ⟨name, plain, rfl⟩ := first
  obtain ⟨another, alsoPlain, same⟩ := second
  exact (Bytes.append_last_separator_inj plain alsoPlain same).1

/-- A text without the newlines at its end, as `read_file` returns it. -/
def withoutNewlines (content : Bytes) : Bytes := content.rdropWhile (· = 10)

/-- Directories, and the contents of the files in them. -/
structure FileTree where
  /-- The directories. -/
  dirs : Finset Bytes
  /-- The contents of each file. -/
  files : Bytes → Option Bytes
  /-- A file lies in a directory. -/
  inDirs : ∀ file, (files file).isSome = true → ∃ dir ∈ dirs, InDir dir file

namespace FileTree

/-- What a file is read as; empty when there is none. -/
def contents (tree : FileTree) (path : Bytes) : Bytes := withoutNewlines ((tree.files path).getD [])

/-- Whether a path is a file or a directory. -/
def found (tree : FileTree) (path : Bytes) : Bool :=
  (tree.files path).isSome || decide (path ∈ tree.dirs)

/-- Write a file that exists. -/
def write (tree : FileTree) (path content : Bytes) : FileTree where
  dirs := tree.dirs
  files file := if file = path then (tree.files file).map fun _ => content else tree.files file
  inDirs file found := by
    by_cases own : file = path
    · rw [if_pos own, Option.isSome_map] at found
      exact tree.inDirs file found
    · rw [if_neg own] at found
      exact tree.inDirs file found

/-- A directory is made; the kernel puts control files into it. -/
structure Makes (tree : FileTree) (path : Bytes) (after : FileTree) : Prop where
  /-- Nothing had its path. -/
  fresh : tree.found path = false
  /-- It exists. -/
  dirs : after.dirs = insert path tree.dirs
  /-- Other files stay as they are. -/
  files : ∀ file, ¬ InDir path file → after.files file = tree.files file

/-- Directories are found. -/
theorem found_of_mem {tree : FileTree} {path : Bytes} (inside : path ∈ tree.dirs) :
    tree.found path = true := by
  rw [found, decide_eq_true inside, Bool.or_true]

/-- The directory of a file is found. -/
theorem found_of_inDir {tree : FileTree} {dir file : Bytes} (own : InDir dir file)
    (present : (tree.files file).isSome = true) : tree.found dir = true := by
  obtain ⟨other, inside, alsoOwn⟩ := tree.inDirs file present
  rw [own.unique alsoOwn]
  exact found_of_mem inside

end FileTree

/-! ## The machine -/

/-- A tree of groups, and what an initialisation has done. -/
structure FileWorld extends FileTree where
  /-- The files that were looked for. -/
  asked : Finset Bytes := ∅
  /-- The reads with what they returned. -/
  reads : List (Bytes × Bytes) := []
  /-- The value each file had before it was first written. -/
  firstValues : Bytes → Option Bytes := fun _ => none

/-- Remember a read. -/
def FileWorld.noteRead (world : FileWorld) (path value : Bytes) : FileWorld :=
  { world with reads := world.reads ++ [(path, value)] }

/-- Write a file that exists. -/
def FileWorld.write (world : FileWorld) (path content : Bytes) : FileWorld where
  toFileTree := world.toFileTree.write path content
  asked := world.asked
  reads := world.reads
  firstValues file :=
    if file = path then (world.firstValues file).or (world.files file) else world.firstValues file

namespace ControlValues

/-- One file operation. Making a directory may fail, and it succeeds where something is. The reading
of a file may fail once the file was looked for: so may every read that remembers a value, and no
read that tells whether a group was complete. A write may fail, and then changes nothing, unless
writes are reliable. -/
def Step (reliable : Bool) : FileWorld → (operation : FileOp) → FileSig.Res operation → FileWorld →
    Prop
  | world, .dirExists path, response, after =>
    response = decide (path ∈ world.dirs) ∧ after = world
  | world, .fileExists path, response, after =>
    response = world.found path ∧ after = { world with asked := insert path world.asked }
  | world, .readFile path, response, after =>
    (response = world.contents path ∨ (path ∈ world.asked ∧ response = [])) ∧
      after = world.noteRead path response
  | world, .mkdir path, response, after =>
    ((response = true → world.found path = true) ∧ after = world) ∨
      (response = true ∧ ∃ tree, world.toFileTree.Makes path tree ∧
        after = { world with toFileTree := tree })
  | world, .writeKernelControlFile path content, response, after =>
    (response = true ∧ (world.files path).isSome = true ∧ after = world.write path content) ∨
      (response = false ∧ (reliable = true → world.files path = none) ∧ after = world)
  | world, .usleep _, _, after => after = world

/-- The machine of file operations. -/
def machine (reliable : Bool) : Machine FileSig FileWorld where
  step := Step reliable

/-! ## What any run keeps -/

variable {reliable : Bool} {world middle after : FileWorld}

/-- What any run keeps of the directories there are and of the files in them. -/
structure Later (world after : FileWorld) : Prop where
  /-- What is there stays. -/
  found : ∀ path, world.found path = true → after.found path = true
  /-- Directories stay. -/
  dirs : world.dirs ⊆ after.dirs
  /-- Reads are remembered. -/
  reads : world.reads ⊆ after.reads
  /-- Files neither come nor go. -/
  present : ∀ dir, world.found dir = true → ∀ file, InDir dir file →
    (after.files file).isSome = (world.files file).isSome
  /-- First values are remembered. -/
  kept : ∀ file value, world.firstValues file = some value → after.firstValues file = some value
  /-- A first value is the value before. -/
  first : ∀ dir, world.found dir = true → ∀ file, InDir dir file → world.firstValues file = none →
    ∀ value, after.firstValues file = some value → world.files file = some value
  /-- A file that was never written is as before. -/
  same : ∀ dir, world.found dir = true → ∀ file, InDir dir file → after.firstValues file = none →
    after.files file = world.files file

/-- Nothing has changed. -/
theorem Later.refl (world : FileWorld) : Later world world where
  found _ there := there
  dirs := Finset.Subset.refl _
  reads := fun _ member => member
  present _ _ _ _ := rfl
  kept _ _ known := known
  first _ _ _ _ unwritten value known := by
    rw [unwritten] at known
    cases known
  same _ _ _ _ _ := rfl

/-- One run after another. -/
theorem Later.trans (before : Later world middle) (next : Later middle after) :
    Later world after where
  found path there := next.found path (before.found path there)
  dirs := before.dirs.trans next.dirs
  reads := fun _ member => next.reads (before.reads member)
  present dir there file own :=
    (next.present dir (before.found dir there) file own).trans (before.present dir there file own)
  kept file value known := next.kept file value (before.kept file value known)
  first dir there file own unwritten value known := by
    cases seen : middle.firstValues file with
    | none =>
      rw [← before.same dir there file own seen]
      exact next.first dir (before.found dir there) file own seen value known
    | some other =>
      have last := next.kept file other seen
      rw [known] at last
      obtain rfl := Option.some.inj last
      exact before.first dir there file own unwritten value seen
  same dir there file own unwritten := by
    have unwrittenYet : middle.firstValues file = none := by
      cases seen : middle.firstValues file with
      | none => rfl
      | some value =>
        rw [next.kept file value seen] at unwritten
        cases unwritten
    rw [next.same dir (before.found dir there) file own unwritten,
      before.same dir there file own unwrittenYet]

/-- What a run leaves alone that only touches files of a kind. -/
structure Frame (looked written : Bytes → Prop) (world after : FileWorld) : Prop where
  /-- No other file is looked for. -/
  asked : ∀ file, ¬ looked file → file ∈ after.asked → file ∈ world.asked
  /-- No other file is written. -/
  first : ∀ file, ¬ written file → after.firstValues file = world.firstValues file
  /-- Other files stay as they are. -/
  files : ∀ file, ¬ written file → ∀ dir, world.found dir = true → InDir dir file →
    after.files file = world.files file

variable {looked written : Bytes → Prop}

/-- One run after another. -/
theorem Frame.trans (before : Frame looked written world middle) (later : Later world middle)
    (next : Frame looked written middle after) : Frame looked written world after where
  asked file other member := before.asked file other (next.asked file other member)
  first file other := (next.first file other).trans (before.first file other)
  files file other dir there own :=
    (next.files file other dir (later.found dir there) own).trans
      (before.files file other dir there own)

/-- What leaves more alone leaves less alone. -/
theorem Frame.mono {lookedMore writtenMore : Bytes → Prop}
    (frame : Frame looked written world after)
    (looks : ∀ file, looked file → lookedMore file)
    (writes : ∀ file, written file → writtenMore file) :
    Frame lookedMore writtenMore world after where
  asked file other := frame.asked file fun own => other (looks file own)
  first file other := frame.first file fun own => other (writes file own)
  files file other := frame.files file fun own => other (writes file own)

open CgroupInitializer

/-! ## What is kept through a run -/

/-- A value that is not written stays. -/
theorem Frame.files_eq {file value : Bytes} (frame : Frame looked written world after)
    (other : ¬ written file) (holds : world.files file = some value) :
    after.files file = some value := by
  have present : (world.files file).isSome = true := by rw [holds]; rfl
  obtain ⟨dir, inside, own⟩ := world.inDirs file present
  rw [frame.files file other dir (FileTree.found_of_mem inside) own]
  exact holds

/-- A file that exists goes on existing. -/
theorem Later.isSome {file : Bytes} (later : Later world after)
    (present : (world.files file).isSome = true) : (after.files file).isSome = true := by
  obtain ⟨dir, inside, own⟩ := world.inDirs file present
  rw [later.present dir (FileTree.found_of_mem inside) file own]
  exact present

/-- A file that a directory has not does not come into it. -/
theorem Later.isNone {dir file : Bytes} (later : Later world after)
    (there : world.found dir = true) (own : InDir dir file) (missing : world.files file = none) :
    after.files file = none := by
  have absent := later.present dir there file own
  rw [missing, Option.isSome_none] at absent
  exact Option.not_isSome_iff_eq_none.mp (by rw [absent]; decide)

/-- A file with contents exists. -/
theorem isSome_of_contents {tree : FileTree} {path : Bytes} (filled : tree.contents path ≠ []) :
    (tree.files path).isSome = true := by
  cases found : tree.files path with
  | some value => rfl
  | none =>
    rw [FileTree.contents, found] at filled
    exact absurd rfl filled

/-- A value is remembered for a file as it was before the file was first written. -/
def Remembers (world : FileWorld) (file value : Bytes) : Prop :=
  match world.firstValues file with
  | none => world.contents file = value
  | some first => withoutNewlines first = value

/-- What is remembered stays right. -/
theorem Remembers.later {file value : Bytes} (remembers : Remembers world file value)
    (later : Later world after) (present : (world.files file).isSome = true) :
    Remembers after file value := by
  obtain ⟨dir, inside, own⟩ := world.inDirs file present
  have there := FileTree.found_of_mem inside
  unfold Remembers at remembers ⊢
  cases known : world.firstValues file with
  | some first =>
    rw [known] at remembers
    rw [later.kept file first known]
    exact remembers
  | none =>
    rw [known] at remembers
    cases seen : after.firstValues file with
    | none =>
      show withoutNewlines ((after.files file).getD []) = value
      rw [later.same dir there file own seen]
      exact remembers
    | some first =>
      have before := later.first dir there file own known first seen
      show withoutNewlines first = value
      rw [← remembers]
      show _ = withoutNewlines ((world.files file).getD [])
      rw [before]
      rfl

/-- A transaction can put back every file of a kind that was written. -/
structure Protects (kind : Bytes → Prop) (transaction : ControlFileTransaction)
    (world : FileWorld) : Prop where
  /-- It is open. -/
  opened : transaction.finalized = false
  /-- What it remembers is listed. -/
  listed : ∀ file value, transaction.originalValues.lookup file = some value →
    file ∈ transaction.writeOrder
  /-- What it remembers exists. -/
  present : ∀ file value, transaction.originalValues.lookup file = some value →
    (world.files file).isSome = true
  /-- What it remembers of the kind is right. -/
  remembers : ∀ file value, kind file → transaction.originalValues.lookup file = some value →
    Remembers world file value
  /-- It remembers a file of the kind before it is written. -/
  covers : ∀ file, kind file → transaction.originalValues.lookup file = none →
    world.firstValues file = none

variable {kind : Bytes → Prop} {transaction : ControlFileTransaction}

/-- A run that writes no file of the kind keeps the protection. -/
theorem Protects.later (protects : Protects kind transaction world) (later : Later world after)
    (frame : Frame looked written world after) (other : ∀ file, kind file → ¬ written file) :
    Protects kind transaction after where
  opened := protects.opened
  listed := protects.listed
  present file value known := later.isSome (protects.present file value known)
  remembers file value own known :=
    (protects.remembers file value own known).later later (protects.present file value known)
  covers file own unknown := by
    rw [frame.first file (other file own)]
    exact protects.covers file own unknown

/-- A read changes nothing but the note of it. -/
theorem frame_noteRead (path value : Bytes) :
    Later world (world.noteRead path value) ∧
      Frame looked written world (world.noteRead path value) :=
  ⟨⟨fun _ there => there, Finset.Subset.refl _, fun _ member => List.mem_append_left _ member,
    fun _ _ _ _ => rfl, fun _ _ known => known, (Later.refl world).first, fun _ _ _ _ _ => rfl⟩,
    fun _ _ member => member, fun _ _ => rfl, fun _ _ _ _ _ => rfl⟩

end ControlValues

end ReUperf
