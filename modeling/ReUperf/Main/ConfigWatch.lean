import ReUperf.Config.Types
import ReUperf.Lib.Fnv
import ReUperf.Lib.Loop
import ReUperf.System.Inotify

/-!
# The watch on the configuration

How the main loop of `main.cpp` decides to reload the configuration file, and what it remembers of a
reload. It asks a watcher whether the file was written, compares the modification time and a hash of
the file with those of the last file it loaded, and waits longer and longer before it tries the same
broken file again. The watcher reads inotify records until there are none, so its loop is given fuel.
-/

namespace ReUperf

open Effect

namespace Main

/-! ## The watcher -/

/-- What `read` answers to the watcher. -/
inductive WatcherRead
  /-- Some records. -/
  | bytes (buffer : Bytes)
  /-- There are no records. -/
  | again
  /-- A signal came. -/
  | interrupted
  /-- Another error, or nothing was read. -/
  | failed

/-- One operation of the watcher. -/
inductive WatcherOp
  /-- `inotify_init1`; nothing when it fails. -/
  | inotifyInit
  /-- `inotify_add_watch` for the directory of the file. -/
  | addWatch (fd : Int)
  /-- `read` the watch, which does not block. -/
  | read (fd : Int)
  /-- `close`. -/
  | close (fd : Int)

/-- The signature of the watcher. -/
@[reducible] def WatcherSig : Signature where
  Op := WatcherOp
  Res
    | .inotifyInit => Option Int
    | .addWatch _ => Bool
    | .read _ => WatcherRead
    | .close _ => Unit

/-- A program of the watcher. -/
abbrev WatcherProgram (α : Type) : Type := Looping WatcherSig α

/-- Perform one operation of the watcher. -/
abbrev watcherOp (operation : WatcherOp) : WatcherProgram (WatcherSig.Res operation) :=
  Looping.op (S := WatcherSig) operation

namespace ConfigFileWatcher

/-- The name of the file in its directory. -/
def watchBasename (configPath : Bytes) : Bytes :=
  (configPath.reverse.takeWhile (· ≠ 47)).reverse

/-- What the records read so far tell. -/
structure Findings where
  /-- The file was written, or records were lost. -/
  configChanged : Bool
  /-- The watch is of no use any more. -/
  rewatchNeeded : Bool
  deriving DecidableEq

/-- Whether a record tells that the file was written. -/
def tellsChange (basename record : Bytes) : Bool :=
  decide (0 < Inotify.len record) && decide (basename = Inotify.name record) &&
    Inotify.hasFlag (Inotify.mask record)
      (Inotify.inModify ||| Inotify.inCloseWrite ||| Inotify.inMovedTo ||| Inotify.inAttrib)

/-- Note what one record tells. -/
def noteEvent (basename record : Bytes) : StateM Findings Unit := modify fun findings =>
  { configChanged := findings.configChanged ||
      Inotify.hasFlag (Inotify.mask record) Inotify.inQOverflow || tellsChange basename record
    rewatchNeeded := findings.rewatchNeeded || Inotify.hasFlag (Inotify.mask record)
      (Inotify.inIgnored ||| Inotify.inDeleteSelf ||| Inotify.inMoveSelf) }

/-- Note what the records of a buffer tell. A record that is cut off spoils the watch. -/
def noteEvents (basename buffer : Bytes) (findings : Findings) : Findings :=
  let (truncated, findings) :=
    (Inotify.framing.forEach (noteEvent basename) buffer.length buffer).run findings
  { findings with rewatchNeeded := findings.rewatchNeeded || truncated }

/-- Read once. -/
def readEvents (basename : Bytes) (fd : Int) (findings : Findings) :
    WatcherProgram (Findings ⊕ Findings) := do
  match ← watcherOp (.read fd) with
  | .again => pure (.inr findings)
  | .interrupted => pure (.inl findings)
  | .failed => pure (.inr { findings with rewatchNeeded := true })
  | .bytes buffer => pure (.inl (noteEvents basename buffer findings))

/-- Close the watch. -/
def stop (inotifyFd : Int) : WatcherProgram Int := do
  if 0 ≤ inotifyFd then
    watcherOp (.close inotifyFd)
    pure (-1)
  else pure inotifyFd

/-- Watch the directory anew; the descriptor is negative when this fails. -/
def start (inotifyFd : Int) : WatcherProgram Int := do
  let _ ← stop inotifyFd
  match ← watcherOp .inotifyInit with
  | none => pure (-1)
  | some fd =>
    if ← watcherOp (.addWatch fd) then pure fd
    else
      watcherOp (.close fd)
      pure (-1)

/-- Read what there is, and watch anew when the watch is of no use any more. -/
def drain (fuel : Nat) (basename : Bytes) (inotifyFd : Int) (configChanged : Bool) :
    WatcherProgram (Bool × Int) := do
  let findings ← Looping.loop (readEvents basename inotifyFd) fuel ⟨configChanged, false⟩
  if findings.rewatchNeeded then
    let stopped ← stop inotifyFd
    let inotifyFd ← start stopped
    pure (findings.configChanged, inotifyFd)
  else pure (findings.configChanged, inotifyFd)

/-- Whether the file was written since the last call. The flag is cleared by the call that returns
it, so it is not set when a call begins. -/
def checkAndClear (fuel : Nat) (configPath : Bytes) (inotifyFd : Int) :
    WatcherProgram (Bool × Int) := do
  if inotifyFd < 0 then
    let inotifyFd ← start inotifyFd
    if inotifyFd < 0 then pure (false, inotifyFd)
    else drain fuel (watchBasename configPath) inotifyFd false
  else drain fuel (watchBasename configPath) inotifyFd false

end ConfigFileWatcher

/-! ## The hash of a file -/

/-- The basis of the hash. -/
def fnvOffset : BitVec 64 := 1469598103934665603

/-- The prime of the hash. -/
def fnvPrime : BitVec 64 := 1099511628211

/-- Read a file in pieces of a buffer's size. -/
def hashPieces : (rounds : Nat) → (rest : Bytes) → (hash : BitVec 64) → BitVec 64
  | 0, _, hash => hash
  | rounds + 1, rest, hash =>
    let piece := rest.take 4096
    if piece = [] then hash
    else hashPieces rounds (rest.drop 4096) (Fnv.hash fnvPrime hash piece)

/-- The hash of a file; zero when it cannot be opened. -/
def computeConfigHash : Option Bytes → BitVec 64
  | none => 0
  | some content => hashPieces (content.length + 1) content fnvOffset

/-! ## The decision -/

/-- The delays of the configuration in use, in seconds. -/
structure RetryTiming where
  /-- `config_retry_initial_delay_s`. -/
  initialDelayS : Int
  /-- `config_retry_max_delay_s`. -/
  maxDelayS : Int
  deriving DecidableEq

/-- What the main loop remembers of the configuration file. -/
structure ConfigWatch where
  /-- `last_mtime`. -/
  lastMtime : Int
  /-- `last_config_hash`. -/
  lastConfigHash : BitVec 64
  /-- `failed_config_hash`. -/
  failedConfigHash : BitVec 64 := 0
  /-- `config_retry_delay_seconds`. -/
  retryDelaySeconds : Int
  /-- `next_config_retry`, in nanoseconds of the steady clock; nothing for the earliest time. -/
  nextConfigRetry : Option Int := none
  deriving DecidableEq

/-- What one round of the main loop sees of the configuration file. -/
structure ConfigCheck where
  /-- Whether the watcher saw it written. -/
  changedInotify : Bool
  /-- Its modification time; zero when there is none. -/
  mtime : Int
  /-- Its content; nothing when it cannot be opened. -/
  content : Option Bytes
  /-- The time, in nanoseconds of the steady clock. -/
  now : Int
  deriving DecidableEq

/-- What a reload leaves. -/
structure AttemptOutcome where
  /-- `reload_succeeded`. -/
  succeeded : Bool
  /-- The delays of the configuration that is in use afterwards. -/
  timing : RetryTiming
  /-- Whether the new configuration was taken over, which sets the delay, before something threw. -/
  delayReset : Bool := false
  deriving DecidableEq

/-- The hash a round computes. -/
def ConfigCheck.hash (check : ConfigCheck) : BitVec 64 := computeConfigHash check.content

namespace ConfigWatch

/-- The watch when the main loop begins. -/
def initial (check : ConfigCheck) (timing : RetryTiming) : ConfigWatch where
  lastMtime := check.mtime
  lastConfigHash := check.hash
  retryDelaySeconds := timing.initialDelayS

/-- Whether the file is not the one that was loaded last. -/
def changedFallback (watch : ConfigWatch) (check : ConfigCheck) : Bool :=
  (check.mtime ≠ watch.lastMtime && 0 < check.mtime) ||
    (check.hash ≠ watch.lastConfigHash && check.hash ≠ 0)

/-- Whether the file failed to load and it is too early to try it again. -/
def retryDeferred (watch : ConfigWatch) (check : ConfigCheck) : Bool :=
  check.hash ≠ 0 && check.hash = watch.failedConfigHash &&
    match watch.nextConfigRetry with
    | none => false
    | some next => check.now < next

/-- Whether the round reloads the configuration. -/
def attempts (watch : ConfigWatch) (check : ConfigCheck) : Bool :=
  (check.changedInotify || watch.changedFallback check) && !watch.retryDeferred check

/-- What is remembered of a reload. -/
def settle (watch : ConfigWatch) (check : ConfigCheck) (outcome : AttemptOutcome) : ConfigWatch :=
  let delay :=
    if outcome.delayReset then outcome.timing.initialDelayS else watch.retryDelaySeconds
  if outcome.succeeded then
    { lastMtime := check.mtime, lastConfigHash := check.hash
      retryDelaySeconds := outcome.timing.initialDelayS }
  else if check.hash ≠ 0 then
    let delay :=
      if watch.failedConfigHash = check.hash then min (delay * 2) outcome.timing.maxDelayS
      else outcome.timing.initialDelayS
    { watch with
      failedConfigHash := check.hash, retryDelaySeconds := delay
      nextConfigRetry := some (check.now + delay * 1000000000) }
  else { watch with retryDelaySeconds := delay }

/-- One round of the main loop, with what a reload would leave. -/
def round (watch : ConfigWatch) (check : ConfigCheck) (outcome : AttemptOutcome) : ConfigWatch :=
  if watch.attempts check then watch.settle check outcome else watch

end ConfigWatch

end Main

end ReUperf
