import Mathlib.Data.List.DropRight
import ReUperf.Lib.Loop
import ReUperf.Lib.Reading
import ReUperf.System.CgroupLookup

/-!
# The launcher finder

The finder of `launcher_finder.hpp`. It asks the package manager for the activities that take the
home intent, through a shell whose output it reads from a pipe, and takes the package that looks
most like a launcher. The loops over the pipe and over the child end when the system lets them, so
they are given fuel; the process that becomes the shell is part of the environment.
-/

namespace ReUperf

open Effect

/-! ## Operations -/

/-- What `poll` answers. -/
inductive PollResult
  /-- The time is over. -/
  | timedOut
  /-- Something can be read, or the other end is closed. -/
  | ready
  /-- A signal came. -/
  | interrupted
  /-- Another error. -/
  | failed

/-- What `read` answers. -/
inductive ReadResult
  /-- Some bytes, at most the size of the buffer. -/
  | bytes (chunk : Bytes)
  /-- The other end is closed. -/
  | closed
  /-- Nothing to read yet. -/
  | again
  /-- A signal came. -/
  | interrupted
  /-- Another error. -/
  | failed

/-- What `waitpid` answers. -/
inductive WaitResult
  /-- The child has ended. -/
  | reaped
  /-- The child has not ended. -/
  | running
  /-- A signal came. -/
  | interrupted
  /-- There is no such child. -/
  | noChild
  /-- Another error. -/
  | failed

/-- The signals the finder sends. -/
inductive Signal
  /-- `SIGTERM`. -/
  | term
  /-- `SIGKILL`. -/
  | kill

/-- One operation of the finder. -/
inductive CommandOp
  /-- A pipe: the descriptors of its two ends. -/
  | pipe
  /-- A child whose shell runs a command into the second end of the pipe. -/
  | fork (command : Bytes)
  /-- Give the child a process group of its own. A failure is only logged. -/
  | setpgid (pid : Int)
  /-- `fcntl` with `F_GETFL`, then with `F_SETFL`: whether reads no longer block. -/
  | setNonblocking (fd : Int)
  /-- The steady clock, in nanoseconds. -/
  | now
  /-- `poll` for at most some milliseconds. -/
  | poll (fd timeoutMs : Int)
  /-- `read` into a buffer of 4096 bytes. -/
  | read (fd : Int)
  /-- `close`. -/
  | close (fd : Int)
  /-- `waitpid`, which blocks or not. -/
  | waitpid (pid : Int) (noHang : Bool)
  /-- `kill` of the process group of the child. A failure is only logged. -/
  | kill (pid : Int) (signal : Signal)
  /-- Pause. -/
  | usleep (microseconds : Nat)

/-- The signature of the operations of the finder. -/
@[reducible] def CommandSig : Signature where
  Op := CommandOp
  Res
    | .pipe => Option (Int × Int)
    | .fork _ => Option Int
    | .setNonblocking _ => Bool
    | .now => Int
    | .poll _ _ => PollResult
    | .read _ => ReadResult
    | .waitpid _ _ => WaitResult
    | .setpgid _ | .close _ | .kill _ _ | .usleep _ => Unit

/-- A program of the finder. -/
abbrev CommandProgram (α : Type) : Type := Looping CommandSig α

/-- Perform one operation of the finder. -/
abbrev commandOp (operation : CommandOp) : CommandProgram (CommandSig.Res operation) :=
  Looping.op (S := CommandSig) operation

namespace LauncherFinder

/-! ## Packages -/

/-- `std::tolower` in the C locale. -/
def toLower (byte : UInt8) : UInt8 := if 65 ≤ byte ∧ byte ≤ 90 then byte + 32 else byte

/-- `std::isalpha` in the C locale. -/
def isAlpha (byte : UInt8) : Bool := (65 ≤ byte && byte ≤ 90) || (97 ≤ byte && byte ≤ 122)

/-- `std::isalnum` in the C locale. -/
def isAlnum (byte : UInt8) : Bool := isAlpha byte || Bytes.isDigit byte

/-- Whether a package looks like a launcher. -/
def isHomePackage (pkg : Bytes) : Bool :=
  let lower := pkg.map toLower
  Bytes.occursIn (Bytes.ascii "home") lower || Bytes.occursIn (Bytes.ascii "launcher") lower

/-- The loop over the characters of a package. -/
def validSegments : (segmentStart hasSeparator : Bool) → Bytes → Bool
  | segmentStart, hasSeparator, [] => hasSeparator && !segmentStart
  | segmentStart, hasSeparator, character :: rest =>
    if character = 46 then
      if segmentStart then false else validSegments true true rest
    else if segmentStart then
      if !isAlpha character then false else validSegments false hasSeparator rest
    else if !isAlnum character && character ≠ 95 then false
    else validSegments false hasSeparator rest

/-- Whether a text is a package name. -/
def isValidPackage (pkg : Bytes) : Bool :=
  if pkg = [] ∨ 128 < pkg.length ∨ pkg.head? = some 46 ∨ pkg.getLast? = some 46 then false
  else validSegments true false pkg

/-! ## Candidates -/

/-- Line ends at the end of a text are dropped. -/
def trimLineEnds (text : Bytes) : Bytes := text.rdropWhile fun byte => byte = 10 || byte = 13

/-- The text of a field, from its name's first place in a line. -/
def packageField : Bytes := Bytes.ascii "packageName="

/-- The package a line names, valid or not. -/
def packageOfLine (line : Bytes) : Option Bytes :=
  (line.tails.find? fun rest => packageField.isPrefixOf rest).map fun rest =>
    trimLineEnds (rest.drop packageField.length)

/-- The valid packages of an output, in its order. -/
def candidatesOf (result : Bytes) : List Bytes :=
  ((Bytes.getlines 10 result).filterMap packageOfLine).filter isValidPackage

/-- The first package of each kind; empty while there is none. -/
structure Choice where
  /-- A launcher whose name does not start with `com.android`. -/
  nonComAndroidHome : Bytes := []
  /-- A launcher whose name does. -/
  comAndroidHome : Bytes := []
  /-- Another package. -/
  otherPkg : Bytes := []

/-- Whether a package starts with `com.android`. -/
def startsComAndroid (pkg : Bytes) : Bool := (Bytes.ascii "com.android").isPrefixOf pkg

/-- Consider one more candidate. -/
def Choice.consider (choice : Choice) (pkg : Bytes) : Choice :=
  if isHomePackage pkg && !startsComAndroid pkg then
    if choice.nonComAndroidHome = [] then { choice with nonComAndroidHome := pkg } else choice
  else if isHomePackage pkg && startsComAndroid pkg then
    if choice.comAndroidHome = [] then { choice with comAndroidHome := pkg } else choice
  else if choice.otherPkg = [] then { choice with otherPkg := pkg }
  else choice

/-- The launcher when there is no candidate. -/
def defaultLauncher : Bytes := Bytes.ascii "com.miui.home"

/-- The package the choice ends with. -/
def Choice.launcher (choice : Choice) : Bytes :=
  if choice.nonComAndroidHome ≠ [] then choice.nonComAndroidHome
  else if choice.comAndroidHome ≠ [] then choice.comAndroidHome
  else if choice.otherPkg ≠ [] then choice.otherPkg
  else defaultLauncher

/-- The launcher among some candidates. -/
def launcherOf (candidates : List Bytes) : Bytes :=
  (candidates.foldl Choice.consider {}).launcher

/-! ## Commands -/

/-- The longest output. -/
def kMaxOutputSize : Nat := 64 * 1024

/-- How reading the pipe ends. -/
inductive Reading
  /-- All of the output was read, or a read failed. -/
  | pipeClosed
  /-- The time is over. -/
  | timedOut
  /-- The output is too long. -/
  | outputTooLarge
  /-- `poll` failed. -/
  | ioFailed
  deriving DecidableEq

/-- One read. It ends with how reading ends, or with nothing when the pipe is empty. -/
def readChunk (fd : Int) (result : Bytes) :
    CommandProgram (Bytes ⊕ (Option Reading × Bytes)) := do
  match ← commandOp (.read fd) with
  | .bytes chunk =>
    if kMaxOutputSize < result.length + chunk.length then
      pure (.inr (some .outputTooLarge, result))
    else pure (.inl (result ++ chunk))
  | .closed => pure (.inr (some .pipeClosed, result))
  | .again => pure (.inr (none, result))
  | .interrupted => pure (.inl result)
  | .failed => pure (.inr (some .pipeClosed, result))

/-- Wait for output until the deadline, then read what there is. -/
def pollRound (fuel : Nat) (fd deadline : Int) (result : Bytes) :
    CommandProgram (Bytes ⊕ (Reading × Bytes)) := do
  let now ← commandOp .now
  if deadline ≤ now then pure (.inr (.timedOut, result))
  else
    match ← commandOp (.poll fd ((deadline - now).tdiv 1000000)) with
    | .timedOut => pure (.inr (.timedOut, result))
    | .interrupted => pure (.inl result)
    | .failed => pure (.inr (.ioFailed, result))
    | .ready =>
      match ← Looping.loop (readChunk fd) fuel result with
      | (some reading, result) => pure (.inr (reading, result))
      | (none, result) => pure (.inl result)

/-- Wait for a child that was asked to end, a number of times; true when nothing is left to do. -/
def awaitTermination (childPid : Int) : (attempts : Nat) → CommandProgram Bool
  | 0 => pure false
  | attempts + 1 => do
    match ← commandOp (.waitpid childPid true) with
    | .reaped | .noChild | .failed => pure true
    | .running | .interrupted =>
      commandOp (.usleep 10000)
      awaitTermination childPid attempts

/-- Wait for a killed child. -/
def awaitKilled (childPid : Int) (_ : Unit) : CommandProgram (Unit ⊕ Unit) := do
  match ← commandOp (.waitpid childPid false) with
  | .interrupted => pure (.inl ())
  | .reaped | .running | .noChild | .failed => pure (.inr ())

/-- End a child and what it started. -/
def terminateChild (fuel : Nat) (childPid : Int) : CommandProgram Unit := do
  commandOp (.kill childPid .term)
  if ← awaitTermination childPid 10 then pure ()
  else
    commandOp (.kill childPid .kill)
    Looping.loop (awaitKilled childPid) fuel ()

/-- Wait for a child that closed its output until the deadline; whether it has ended by itself. -/
def waitRound (fuel : Nat) (childPid deadline : Int) (_ : Unit) :
    CommandProgram (Unit ⊕ Bool) := do
  match ← commandOp (.waitpid childPid true) with
  | .reaped => pure (.inr true)
  | .interrupted => pure (.inl ())
  | .noChild | .failed => pure (.inr false)
  | .running =>
    let now ← commandOp .now
    if deadline ≤ now then
      terminateChild fuel childPid
      pure (.inr false)
    else
      commandOp (.usleep 10000)
      pure (.inl ())

/-- Read the output of a child and wait for it. -/
def collectOutput (fuel : Nat) (readFd childPid timeoutMs : Int) : CommandProgram Bytes := do
  let started ← commandOp .now
  let deadline := started + timeoutMs * 1000000
  let (reading, result) ← Looping.loop (pollRound fuel readFd deadline) fuel []
  commandOp (.close readFd)
  if reading ≠ .pipeClosed then
    terminateChild fuel childPid
    pure []
  else if ← Looping.loop (waitRound fuel childPid deadline) fuel () then
    pure (trimLineEnds result)
  else pure []

/-- The output of a shell command; empty when it does not end in time. -/
def executeCommand (fuel : Nat) (cmd : Bytes) (timeoutMs : Int) : CommandProgram Bytes := do
  match ← commandOp .pipe with
  | none => pure []
  | some (readFd, writeFd) =>
    match ← commandOp (.fork cmd) with
    | none =>
      commandOp (.close readFd)
      commandOp (.close writeFd)
      pure []
    | some childPid =>
      commandOp (.setpgid childPid)
      commandOp (.close writeFd)
      if ← commandOp (.setNonblocking readFd) then collectOutput fuel readFd childPid timeoutMs
      else
        commandOp (.close readFd)
        terminateChild fuel childPid
        pure []

/-! ## The launcher -/

/-- The command that asks for the preferred activity. -/
def resolveActivity : Bytes :=
  Bytes.ascii "cmd package resolve-activity -a android.intent.action.MAIN " ++
    Bytes.ascii "-c android.intent.category.HOME 2>/dev/null | grep 'packageName='"

/-- The command that asks for every activity. -/
def queryActivities : Bytes :=
  Bytes.ascii "cmd package query-activities -a android.intent.action.MAIN " ++
    Bytes.ascii "-c android.intent.category.HOME 2>/dev/null | grep 'packageName='"

/-- The package of the launcher. -/
def find (fuel : Nat) : CommandProgram Bytes := do
  let result ← executeCommand fuel resolveActivity 5000
  let candidates := candidatesOf result
  if candidates = [] then
    let result ← executeCommand fuel queryActivities 5000
    pure (launcherOf (candidatesOf result))
  else pure (launcherOf candidates)

end LauncherFinder

end ReUperf
