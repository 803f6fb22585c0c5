import ReUperf.Config.Types
import ReUperf.Lib.Trace

/-!
# Initialisation of the groups

The initialiser of `cgroup_init.hpp`: it creates a cpuset group for every CPU mask and a
cpuctl group for every limit-enabled thread rule, and writes their control files through a
transaction that can put the previous values back. The directories it lists only for its
log are left out.
-/

namespace ReUperf

open Effect

/-! ## Files -/

/-- The file operations of the initialiser. -/
inductive FileOp
  /-- Whether a directory exists. -/
  | dirExists (path : Bytes)
  /-- Whether a file exists. -/
  | fileExists (path : Bytes)
  /-- The contents of a file; empty when it cannot be read. -/
  | readFile (path : Bytes)
  /-- Create a directory; true also when it exists already. -/
  | mkdir (path : Bytes)
  /-- Write a control file. -/
  | writeKernelControlFile (path content : Bytes)
  /-- Pause. -/
  | usleep (microseconds : Nat)

/-- The signature of the file operations. -/
def FileSig : Signature where
  Op := FileOp
  Res
    | .dirExists _ | .fileExists _ | .mkdir _ | .writeKernelControlFile _ _ => Bool
    | .readFile _ => Bytes
    | .usleep _ => Unit

/-- A program of file operations. -/
abbrev FileProgram (α : Type) : Type := Program FileSig α

namespace FileUtils

/-- Whether a directory exists. -/
def dirExists (path : Bytes) : FileProgram Bool := Program.op (S := FileSig) (.dirExists path)

/-- Whether a file exists. -/
def fileExists (path : Bytes) : FileProgram Bool := Program.op (S := FileSig) (.fileExists path)

/-- The contents of a file. -/
def readFile (path : Bytes) : FileProgram Bytes := Program.op (S := FileSig) (.readFile path)

/-- Create a directory. -/
def mkdir (path : Bytes) : FileProgram Bool := Program.op (S := FileSig) (.mkdir path)

/-- Write a control file. -/
def writeKernelControlFile (path content : Bytes) : FileProgram Bool :=
  Program.op (S := FileSig) (.writeKernelControlFile path content)

/-- The proper ancestors of a path, outermost first. -/
def ancestors (path : Bytes) : List Bytes :=
  (path.zipIdx.filter fun indexed => indexed.1 = 47 ∧ 0 < indexed.2).map fun indexed =>
    path.take indexed.2

/-- Create a directory unless it exists. -/
def mkdirUnlessExists (path : Bytes) : FileProgram Bool := do
  if ← dirExists path then pure true else mkdir path

/-- Create the missing directories of a list, up to the first failure. -/
def mkdirAll : List Bytes → FileProgram Bool
  | [] => pure true
  | path :: rest => do
    if ← mkdirUnlessExists path then mkdirAll rest else pure false

/-- Create a directory and its ancestors. -/
def mkdirRecursive (path : Bytes) : FileProgram Bool := do
  if ← dirExists path then pure true
  else if ← mkdirAll (ancestors path) then mkdirUnlessExists path
  else pure false

end FileUtils

open FileUtils

/-! ## Transactions -/

/-- The control files written so far with the values they had. -/
structure ControlFileTransaction where
  /-- Whether the transaction is committed or rolled back. -/
  finalized : Bool := false
  /-- The previous value of each file. -/
  originalValues : Table Bytes Bytes := ∅
  /-- The files in the order of their first write. -/
  writeOrder : List Bytes := []

namespace ControlFileTransaction

/-- Write a control file, remembering its previous value when a rollback needs it. -/
def write (transaction : ControlFileTransaction) (path value : Bytes) (rollbackRequired : Bool) :
    FileProgram (Bool × ControlFileTransaction) := do
  if rollbackRequired ∧ transaction.originalValues.lookup path = none then
    let original ← readFile path
    if original = [] then pure (false, transaction)
    else
      let written ← writeKernelControlFile path value
      pure (written,
        { transaction with
          originalValues := transaction.originalValues.insert path original
          writeOrder := transaction.writeOrder ++ [path] })
  else
    let written ← writeKernelControlFile path value
    pure (written, transaction)

/-- Put back the previous values of the files of a list. -/
def restore (transaction : ControlFileTransaction) : List Bytes → FileProgram Bool
  | [] => pure true
  | path :: rest =>
    match transaction.originalValues.lookup path with
    | none => transaction.restore rest
    | some original => do
      let written ← writeKernelControlFile path original
      let success ← transaction.restore rest
      pure (written && success)

/-- Put back every previous value, the last written file first. -/
def rollback (transaction : ControlFileTransaction) : FileProgram Bool :=
  if transaction.finalized then pure true else transaction.restore transaction.writeOrder.reverse

end ControlFileTransaction

/-! ## Control values -/

/-- The rest of a CPU list after a CPU that is written or starts a run. -/
def cpuListTail (previous : Int) : List Int → Bytes
  | [] => []
  | cpu :: rest =>
    (if cpu = previous + 1 then
      if rest.head? = some (cpu + 1) then [] else Bytes.ascii "-" ++ Bytes.decimal cpu
    else Bytes.ascii "," ++ Bytes.decimal cpu) ++ cpuListTail cpu rest

/-- CPUs in the list format of the kernel, as `CpuMask::to_string` writes them. -/
def cpuMaskToString (cpus : List Int) : Bytes :=
  match cpus.insertionSort (· ≤ ·) with
  | [] => []
  | first :: rest => Bytes.decimal first ++ cpuListTail first rest

namespace CgroupInitializer

/-- The value of a limit: the configured one, or the inherited one. -/
def resolveLimitValue (configured : Option Int) (inherited : Bytes) : Bytes :=
  match configured with
  | some value => Bytes.decimal value
  | none => inherited

/-! ## Requirements -/

/-- Whether a thread rule's affinity class names a mask in some state. -/
def usesCpuset (sched : SchedConfig) (threadRule : ThreadRule) : Bool :=
  if threadRule.affinityClass = [] ∨ threadRule.affinityClass = Bytes.ascii "auto" then false
  else match sched.affinity.lookup threadRule.affinityClass with
    | none => false
    | some scene => scene.bg ≠ [] || scene.fg ≠ [] || scene.top ≠ []

/-- Whether some thread rule needs cpuset groups. -/
def requiresCpuset (config : Config) : Bool :=
  config.sched.rules.any fun rule => rule.threadRules.any (usesCpuset config.sched)

/-- Whether some thread rule needs cpuctl groups. -/
def requiresCpuctl (config : Config) : Bool :=
  config.sched.rules.any fun rule => rule.threadRules.any (·.enableLimit)

/-! ## Paths -/

/-- The parent of the cpuset groups. -/
def cpusetParentPath : Bytes := Bytes.ascii "/dev/cpuset/top-app"

/-- The cpuset group of a mask. -/
def cpusetGroupPath (maskName : Bytes) : Bytes :=
  cpusetParentPath ++ Bytes.ascii "/ReUperf_" ++ maskName

/-- The parent of the cpuctl groups. -/
def reuperfPath : Bytes := Bytes.ascii "/dev/cpuctl/ReUperf"

/-- The cpuctl group of a process rule. -/
def rulePath (ruleName : Bytes) : Bytes := reuperfPath ++ Bytes.ascii "/" ++ ruleName

/-- The cpuctl group of the thread rule with an index. -/
def subPath (ruleName : Bytes) (index : Nat) : Bytes :=
  rulePath ruleName ++ Bytes.ascii "/A" ++ Bytes.natural (index + 1)

/-! ## Groups -/

/-- Wait until a control file exists. -/
def ensureCgroupFileExists (path : Bytes) : Nat → FileProgram Bool
  | 0 => pure false
  | retries + 1 => do
    if ← fileExists path then pure true
    else
      Program.op (S := FileSig) (.usleep 5000)
      ensureCgroupFileExists path retries

/-- The number of times a control file is looked for. -/
def maxRetries : Nat := 5

/-- Continue when a check passes. -/
def orFail (check : FileProgram Bool) (transaction : ControlFileTransaction)
    (rest : FileProgram (Bool × ControlFileTransaction)) :
    FileProgram (Bool × ControlFileTransaction) := do
  if ← check then rest else pure (false, transaction)

/-- Continue when a write succeeds. -/
def writeOrFail (transaction : ControlFileTransaction) (path value : Bytes)
    (rollbackRequired : Bool)
    (rest : ControlFileTransaction → FileProgram (Bool × ControlFileTransaction)) :
    FileProgram (Bool × ControlFileTransaction) := do
  let (written, transaction) ← transaction.write path value rollbackRequired
  if written then rest transaction else pure (false, transaction)

/-- Whether a group directory exists with CPUs and memory nodes. -/
def groupWasReady (childPath : Bytes) : FileProgram Bool := do
  if ← dirExists childPath then
    let cpus ← readFile (childPath ++ Bytes.ascii "/cpus")
    let mems ← readFile (childPath ++ Bytes.ascii "/mems")
    pure (cpus ≠ [] && mems ≠ [])
  else pure false

/-- Clear the exclusive flags that exist. -/
def clearExclusive (childPath : Bytes) (rollbackRequired : Bool) :
    List Bytes → ControlFileTransaction → FileProgram (Bool × ControlFileTransaction)
  | [], transaction => pure (true, transaction)
  | filename :: rest, transaction => do
    if ← fileExists (childPath ++ Bytes.ascii "/" ++ filename) then
      let (written, transaction) ← transaction.write (childPath ++ Bytes.ascii "/" ++ filename)
        (Bytes.ascii "0") rollbackRequired
      let (ready, transaction) ← clearExclusive childPath rollbackRequired rest transaction
      pure (written && ready, transaction)
    else clearExclusive childPath rollbackRequired rest transaction

/-- The exclusive flags of a cpuset group. -/
def exclusiveFiles : List Bytes := [Bytes.ascii "cpu_exclusive", Bytes.ascii "mem_exclusive"]

/-- Create and configure the cpuset group of a mask. -/
def initCpusetGroup (parentMems : Bytes) (cpumask : Bytes × List Int)
    (transaction : ControlFileTransaction) : FileProgram (Bool × ControlFileTransaction) := do
  let childPath := cpusetGroupPath cpumask.1
  let wasReady ← groupWasReady childPath
  orFail (mkdirRecursive childPath) transaction <|
    orFail (ensureCgroupFileExists (childPath ++ Bytes.ascii "/cpus") maxRetries) transaction <|
    orFail (ensureCgroupFileExists (childPath ++ Bytes.ascii "/mems") maxRetries) transaction <|
    orFail (ensureCgroupFileExists (childPath ++ Bytes.ascii "/tasks") maxRetries) transaction <|
    orFail (pure (cpuMaskToString cpumask.2 ≠ [])) transaction <|
    writeOrFail transaction (childPath ++ Bytes.ascii "/cpus") (cpuMaskToString cpumask.2)
      wasReady fun transaction =>
    writeOrFail transaction (childPath ++ Bytes.ascii "/mems") parentMems wasReady fun transaction =>
    clearExclusive childPath wasReady exclusiveFiles transaction

/-- Run a step for every element, also after failures, and count the failures. -/
def forEach {α : Type}
    (step : α → ControlFileTransaction → FileProgram (Bool × ControlFileTransaction)) :
    List α → ControlFileTransaction → FileProgram (Nat × ControlFileTransaction)
  | [], transaction => pure (0, transaction)
  | element :: rest, transaction => do
    let (done, transaction) ← step element transaction
    let (failed, transaction) ← forEach step rest transaction
    pure (failed + (if done then 0 else 1), transaction)

/-- Create and configure the cpuset groups. -/
def initCpuset (config : Config) (transaction : ControlFileTransaction) :
    FileProgram (Bool × ControlFileTransaction) :=
  if requiresCpuset config then
    orFail (dirExists (Bytes.ascii "/dev/cpuset")) transaction <|
    orFail (dirExists cpusetParentPath) transaction <|
    orFail (fileExists (cpusetParentPath ++ Bytes.ascii "/cpus")) transaction do
      let parentCpus ← readFile (cpusetParentPath ++ Bytes.ascii "/cpus")
      orFail (pure (parentCpus ≠ [])) transaction do
        let parentMems ← readFile (cpusetParentPath ++ Bytes.ascii "/mems")
        orFail (pure (parentMems ≠ [])) transaction do
          let (failed, transaction) ←
            forEach (initCpusetGroup parentMems) config.sched.cpumask.inOrder transaction
          pure (failed = 0, transaction)
  else pure (true, transaction)

/-- Write a limit of a cpuctl group; a missing file is an error only for a configured limit. -/
def writeOptionalLimit (transaction : ControlFileTransaction) (childPath parentPath : Bytes)
    (filename : Bytes) (configured : Option Int) :
    FileProgram (Bool × ControlFileTransaction) := do
  let childFile := childPath ++ Bytes.ascii "/" ++ filename
  if ← fileExists childFile then
    match configured with
    | some _ => transaction.write childFile (resolveLimitValue configured []) true
    | none => do
      let inherited ← readFile (parentPath ++ Bytes.ascii "/" ++ filename)
      if inherited = [] then pure (false, transaction)
      else transaction.write childFile (resolveLimitValue none inherited) true
  else pure (configured.isNone, transaction)

/-- Create and configure the cpuctl group of a thread rule, if it is limit-enabled. -/
def initCpuctlSubGroup (rule : ProcessRule) (indexed : ThreadRule × Nat)
    (transaction : ControlFileTransaction) : FileProgram (Bool × ControlFileTransaction) :=
  if indexed.1.enableLimit then
    orFail (mkdirRecursive (subPath rule.name indexed.2)) transaction do
      let (clamped, transaction) ← writeOptionalLimit transaction (subPath rule.name indexed.2)
        (rulePath rule.name) (Bytes.ascii "cpu.uclamp.max") indexed.1.uclampMax
      let (shared, transaction) ← writeOptionalLimit transaction (subPath rule.name indexed.2)
        (rulePath rule.name) (Bytes.ascii "cpu.shares") indexed.1.cpuShare
      pure (clamped && shared, transaction)
  else pure (true, transaction)

/-- Create the cpuctl groups of a process rule. -/
def initCpuctlRule (rule : ProcessRule) (transaction : ControlFileTransaction) :
    FileProgram (Bool × ControlFileTransaction) :=
  orFail (mkdirRecursive (rulePath rule.name)) transaction do
    let (failed, transaction) ← forEach (initCpuctlSubGroup rule) rule.threadRules.zipIdx transaction
    pure (failed = 0, transaction)

/-- Create and configure the cpuctl groups. -/
def initCpuctl (config : Config) (transaction : ControlFileTransaction) :
    FileProgram (Bool × ControlFileTransaction) :=
  if requiresCpuctl config then
    orFail (dirExists (Bytes.ascii "/dev/cpuctl")) transaction <|
    orFail (mkdirRecursive reuperfPath) transaction do
      let (failed, transaction) ← forEach initCpuctlRule config.sched.rules transaction
      pure (failed = 0, transaction)
  else pure (true, transaction)

/-- Create and configure the groups of both controllers. -/
def initControllers (config : Config) : FileProgram (Bool × ControlFileTransaction) := do
  let (cpusetReady, transaction) ← initCpuset config {}
  if cpusetReady then initCpuctl config transaction else pure (false, transaction)

/-- Create and configure every group, or put the control values back. -/
def init (config : Config) : FileProgram Bool := do
  let (ready, transaction) ← initControllers config
  if ready then pure true
  else
    let _ ← transaction.rollback
    pure false

end CgroupInitializer

end ReUperf
