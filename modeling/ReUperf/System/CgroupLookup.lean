import ReUperf.System.Operations

/-!
# Lookup of cgroup paths

How `file_utils.hpp` tells the state of a process from its `cgroup` file. The path of a process in
the hierarchy of a controller is cached under the process ID for a time the configuration sets, so
a lookup may be answered without reading the file.
-/

namespace ReUperf

open Effect

namespace Bytes

/-- The lines of a text, as `std::getline` reads them: a separator at the end begins no line. -/
def getlines (separator : UInt8) (text : Bytes) : List Bytes :=
  collect [] text
where
  /-- The lines of a text that goes on with a begun line, whose bytes are in reverse order. -/
  collect (begun : Bytes) : Bytes → List Bytes
    | [] => if begun = [] then [] else [begun.reverse]
    | byte :: rest =>
      if byte = separator then begun.reverse :: collect [] rest else collect (byte :: begun) rest

/-- Whether a text occurs in another one. -/
def occursIn (part text : Bytes) : Bool := text.tails.any (part.isPrefixOf ·)

/-- A text occurs in another one when it is a part of it. -/
theorem occursIn_iff {part text : Bytes} : occursIn part text = true ↔ part <:+: text := by
  rw [occursIn, List.any_eq_true, List.infix_iff_prefix_suffix]
  constructor
  · intro ⟨rest, tail, start⟩
    exact ⟨rest, List.isPrefixOf_iff_prefix.mp start, (List.mem_tails _ _).mp tail⟩
  · intro ⟨rest, start, tail⟩
    exact ⟨rest, (List.mem_tails _ _).mpr tail, List.isPrefixOf_iff_prefix.mpr start⟩

end Bytes

/-! ## Cache -/

/-- The key of a cached path. -/
structure CgroupCacheKey where
  /-- The process. -/
  pid : Int
  /-- The controller. -/
  controller : Bytes
  deriving DecidableEq

/-- A cached path. -/
structure CgroupCacheEntry where
  /-- The path. -/
  path : Bytes
  /-- When it was looked up, in nanoseconds of the steady clock. -/
  timestamp : Int
  deriving DecidableEq

/-- The cache of cgroup paths. -/
abbrev CgroupCache : Type := Table CgroupCacheKey CgroupCacheEntry

/-- The size from which on old paths are removed. -/
def kMaxCgroupCacheSize : Nat := 1000

namespace CgroupCache

/-- Whether a path is young enough. -/
def isFresh (ttlMs now : Int) (entry : CgroupCacheEntry) : Bool :=
  decide ((now - entry.timestamp).tdiv 1000000 < ttlMs)

/-- The path under a key, unless it is too old. -/
def find (ttlMs now : Int) (key : CgroupCacheKey) (cache : CgroupCache) : Option Bytes :=
  (cache.lookup key).bind fun entry => if isFresh ttlMs now entry then some entry.path else none

/-- Cache a path. A full cache drops its old entries and, if none is old, its first one; which one
is the first is up to the hash table. -/
def store (ttlMs now : Int) (first key : CgroupCacheKey) (path : Bytes) (cache : CgroupCache) :
    CgroupCache :=
  let cache :=
    if kMaxCgroupCacheSize ≤ cache.entries.length then
      let cache := cache.retain fun _ entry => isFresh ttlMs now entry
      if kMaxCgroupCacheSize ≤ cache.entries.length then cache.erase first else cache
    else cache
  cache.insert key ⟨path, now⟩

end CgroupCache

/-! ## Lookup -/

/-- One operation of a lookup. -/
inductive CgroupOp
  /-- The steady clock. -/
  | now
  /-- A path in the cache. -/
  | find (key : CgroupCacheKey) (now : Int)
  /-- The `cgroup` file of a process; empty when it cannot be read. -/
  | readFile (pid : Int)
  /-- Cache a path. -/
  | store (key : CgroupCacheKey) (path : Bytes) (now : Int)

/-- The signature of a lookup. -/
@[reducible] def CgroupSig : Signature where
  Op := CgroupOp
  Res
    | .now => Int
    | .find _ _ => Option Bytes
    | .readFile _ => Bytes
    | .store _ _ _ => Unit

/-- A program of lookups. -/
abbrev CgroupProgram (α : Type) : Type := Program CgroupSig α

/-- Perform one operation of a lookup. -/
abbrev cgroupOp (operation : CgroupOp) : CgroupProgram (CgroupSig.Res operation) :=
  Program.op (S := CgroupSig) operation

namespace FileUtils

/-- The controllers and the path of a line of a `cgroup` file. -/
def parseCgroupLine (line : Bytes) : Option (Bytes × Bytes) :=
  match line.dropWhile (· ≠ 58) with
  | [] => none
  | _ :: rest =>
    match rest.dropWhile (· ≠ 58) with
    | [] => none
    | _ :: path => some (rest.takeWhile (· ≠ 58), path)

/-- The path of a `cgroup` file in the hierarchy of a controller; empty when there is none. -/
def cgroupPathOf (content controller : Bytes) : Bytes :=
  ((Bytes.getlines 10 content).findSome? fun line =>
    match parseCgroupLine line with
    | none => none
    | some (controllers, path) =>
      if (Bytes.getlines 44 controllers).contains controller && !path.isEmpty then some path
      else none).getD []

/-- The path of a process in the hierarchy of a controller. -/
def getCgroupPath (pid : Int) (controller : Bytes) : CgroupProgram Bytes := do
  let now ← cgroupOp .now
  match ← cgroupOp (.find ⟨pid, controller⟩ now) with
  | some path => pure path
  | none =>
    let content ← cgroupOp (.readFile pid)
    let path := cgroupPathOf content controller
    cgroupOp (.store ⟨pid, controller⟩ path now)
    pure path

/-- The state a path tells. -/
def cgroupPathToState (path : Bytes) : CgroupState :=
  if Bytes.occursIn (Bytes.ascii "top-app") path then .top
  else if Bytes.occursIn (Bytes.ascii "foreground") path then .fg
  else if Bytes.occursIn (Bytes.ascii "background") path ||
    Bytes.occursIn (Bytes.ascii "system-background") path then .bg
  else .other

/-- Whether a cpuset group is one of ReUperf's. -/
def isReuperfCpusetPath (cpusetPath : Bytes) : Bool :=
  (Bytes.ascii "/top-app/ReUperf_").isPrefixOf cpusetPath ||
    (Bytes.ascii "/ReUperf_").isPrefixOf cpusetPath

/-- The state two paths tell, and whether one of them is ReUperf's. The cpu controller decides; a
cpuset group of ReUperf's own tells nothing. -/
def cgroupPathsToStateInfo (cpuPath cpusetPath : Bytes) : CgroupStateInfo :=
  let reuperfOwned :=
    (Bytes.ascii "/ReUperf/").isPrefixOf cpuPath || isReuperfCpusetPath cpusetPath
  let cpuState := cgroupPathToState cpuPath
  if cpuState ≠ .other then ⟨cpuState, reuperfOwned⟩
  else if reuperfOwned then ⟨.other, true⟩
  else ⟨cgroupPathToState cpusetPath, false⟩

/-- The controller that decides the state. -/
def cpuController : Bytes := Bytes.ascii "cpu"

/-- The other controller. -/
def cpusetController : Bytes := Bytes.ascii "cpuset"

/-- The state of a process. The order of the two lookups is up to the compiler. -/
def getCgroupStateInfo (pid : Int) : CgroupProgram CgroupStateInfo := do
  let cpuPath ← getCgroupPath pid cpuController
  let cpusetPath ← getCgroupPath pid cpusetController
  pure (cgroupPathsToStateInfo cpuPath cpusetPath)

end FileUtils

end ReUperf
