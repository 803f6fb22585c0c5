import Mathlib.Data.List.DropRight
import ReUperf.Lib.Freshness
import ReUperf.Lib.Loop
import ReUperf.Lib.Recency
import ReUperf.Lib.Text

/-!
# Reading and writing files

How `file_utils.hpp` reads a file through a cache and writes one. A content is cached for a time the
configuration sets. The cache holds so many files at most and gives up the one that was used least
recently. Files of the kernel are never cached. Each section under the mutex of the cache is one
operation, and a file is read in one operation.
-/

namespace ReUperf

open Effect

/-! ## The cache -/

/-- A cached content. -/
structure FileCacheEntry where
  /-- The content. -/
  content : Bytes
  /-- When the call that read it began, in nanoseconds of the steady clock. -/
  timestamp : Int
  deriving DecidableEq

/-- The size from which on an entry is given up for a new one. -/
def kMaxCacheSize : Nat := 1000

/-- The cache of files. -/
structure FileCache where
  /-- `file_cache`. -/
  fileCache : Table Bytes FileCacheEntry := ∅
  /-- `file_cache_lru` with the positions in `file_cache_order`. -/
  recent : IndexedList Bytes := {}

namespace FileCache

/-- Make a path the one used last. -/
def touchFileCacheEntry (path : Bytes) (cache : FileCache) : FileCache :=
  { cache with recent := cache.recent.touch path }

/-- Drop a path. -/
def eraseFileCacheEntry (path : Bytes) (cache : FileCache) : FileCache where
  fileCache := cache.fileCache.erase path
  recent := cache.recent.forget path

/-- The entry of a path, unless it is too old. -/
def young (ttlMs now : Int) (path : Bytes) (cache : FileCache) : Option FileCacheEntry :=
  (cache.fileCache.lookup path).filter fun entry => decide (ageMs now entry.timestamp < ttlMs)

/-- Give up the path used least recently when there is no room for a new one. -/
def makeRoom (path : Bytes) (cache : FileCache) : FileCache :=
  let replacing := (cache.fileCache.lookup path).isSome
  if !replacing ∧ kMaxCacheSize ≤ cache.fileCache.entries.length then
    match cache.recent.keys with
    | [] => cache
    | oldest :: _ => cache.eraseFileCacheEntry oldest
  else cache

/-- Cache a content. -/
def store (path content : Bytes) (now : Int) (cache : FileCache) : FileCache :=
  let cache := cache.makeRoom path
  let cache := { cache with fileCache := cache.fileCache.insert path ⟨content, now⟩ }
  cache.touchFileCacheEntry path

end FileCache

/-- A section under the mutex of the cache. -/
inductive CacheSection
  /-- `read_file` looks a path up. -/
  | find (path : Bytes) (ttlMs now : Int)
  /-- It stores what it has read. -/
  | store (path content : Bytes) (now : Int)
  /-- `invalidate_file_cache`. -/
  | invalidate (path : Bytes)

namespace CacheSection

/-- What a section finds. -/
def found (cache : FileCache) : CacheSection → Option FileCacheEntry
  | .find path ttlMs now => cache.young ttlMs now path
  | _ => none

/-- What a section leaves. -/
def run (cache : FileCache) : CacheSection → FileCache
  | .find path ttlMs now =>
    if (cache.young ttlMs now path).isSome then cache.touchFileCacheEntry path else cache
  | .store path content now => cache.store path content now
  | .invalidate path => cache.eraseFileCacheEntry path

end CacheSection

/-! ## Operations -/

/-- How a file is opened. -/
structure OpenFlags where
  /-- `O_CREAT`. -/
  create : Bool
  /-- `O_TRUNC`. -/
  truncate : Bool
  deriving DecidableEq

/-- What `write` answers. -/
inductive WriteResult
  /-- Some bytes were written. -/
  | wrote (count : Nat)
  /-- A signal came. -/
  | interrupted
  /-- Another error. -/
  | failed
  deriving DecidableEq

/-- One operation on files. -/
inductive AccessOp
  /-- The steady clock. -/
  | now
  /-- Look a path up in the cache. -/
  | findCached (path : Bytes) (now : Int)
  /-- Cache a content. -/
  | storeCached (path content : Bytes) (now : Int)
  /-- Drop a path from the cache. -/
  | invalidate (path : Bytes)
  /-- Read a whole file; nothing when it cannot be opened. -/
  | readAll (path : Bytes)
  /-- `open` for writing; nothing when it fails. -/
  | openFile (path : Bytes) (flags : OpenFlags)
  /-- `write`. -/
  | write (fd : Int) (bytes : Bytes)
  /-- `close`. -/
  | close (fd : Int)

/-- The signature of files. -/
@[reducible] def AccessSig : Signature where
  Op := AccessOp
  Res
    | .now => Int
    | .findCached _ _ => Option Bytes
    | .storeCached _ _ _ => Unit
    | .invalidate _ => Unit
    | .readAll _ => Option Bytes
    | .openFile _ _ => Option Int
    | .write _ _ => WriteResult
    | .close _ => Unit

/-- A program on files. -/
abbrev AccessProgram (α : Type) : Type := Looping AccessSig α

/-- Perform one operation on files. -/
abbrev accessOp (operation : AccessOp) : AccessProgram (AccessSig.Res operation) :=
  Looping.op (S := AccessSig) operation

/-! ## Functions -/

namespace FileAccess

/-- Whether a path is one of the kernel's. -/
def isDynamicKernelPath (path : Bytes) : Bool :=
  (Bytes.ascii "/proc/").isPrefixOf path || (Bytes.ascii "/dev/cpuset/").isPrefixOf path ||
    (Bytes.ascii "/dev/cpuctl/").isPrefixOf path

/-- Read a file and cache what it has. -/
def readUncached (path : Bytes) (cacheable : Bool) (now : Int) : AccessProgram Bytes := do
  match ← accessOp (.readAll path) with
  | none => pure []
  | some text =>
    let content := text.rdropWhile (· = 10)
    if cacheable then
      accessOp (.storeCached path content now)
      pure content
    else pure content

/-- The content of a file without the line ends at its end; empty when it cannot be opened. -/
def readFile (path : Bytes) : AccessProgram Bytes := do
  let cacheable := !isDynamicKernelPath path
  let now ← accessOp .now
  if cacheable then
    match ← accessOp (.findCached path now) with
    | some content => pure content
    | none => readUncached path cacheable now
  else readUncached path cacheable now

/-- Write once; ends with whether everything was written. -/
def writeSome (fd : Int) (rest : Bytes) : AccessProgram (Bytes ⊕ Bool) := do
  if rest = [] then pure (.inr true)
  else
    match ← accessOp (.write fd rest) with
    | .interrupted => pure (.inl rest)
    | .failed => pure (.inr false)
    | .wrote count => if count = 0 then pure (.inr false) else pure (.inl (rest.drop count))

/-- Write a content to a file. -/
def writeOpenFile (fuel : Nat) (path content : Bytes) (flags : OpenFlags) : AccessProgram Bool := do
  match ← accessOp (.openFile path flags) with
  | none => pure false
  | some fd =>
    let written ← Looping.loop (writeSome fd) fuel content
    accessOp (.close fd)
    if written then
      accessOp (.invalidate path)
      pure true
    else pure false

/-- Write a control file of the kernel. -/
def writeKernelControlFile (fuel : Nat) (path content : Bytes) : AccessProgram Bool :=
  writeOpenFile fuel path content ⟨false, false⟩

/-- Move a thread to a group. -/
def writeCgroupTasks (fuel : Nat) (path : Bytes) (tid : Int) : AccessProgram Bool :=
  writeKernelControlFile fuel (path ++ Bytes.ascii "/tasks") (Bytes.decimal tid)

end FileAccess

end ReUperf
