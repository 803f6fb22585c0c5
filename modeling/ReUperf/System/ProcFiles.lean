import ReUperf.Config.Parser
import ReUperf.Lib.Reading

/-!
# Files of a thread

How the scheduler reads the `stat` and the `status` file of a process or a thread: the start time of
`file_utils.hpp` and the CPU list that `cpu_mask.hpp` falls back to. The CPU list is read by a loop
whose condition its body moves, so the loop takes a number of rounds and answers nothing when they
are used up.
-/

namespace ReUperf

namespace FileUtils

/-- The number of a start time field; zero when it is not one. -/
def parseStartTime (field : Bytes) : Nat :=
  match Bytes.strtoull (field.takeWhile (· ≠ 0)) with
  | some (value, rest) => if rest = [] then value else 0
  | none => 0

/-- Read fields up to the last one of a count, which has the start time. -/
def startTimeField : (count : Nat) → (fields : Bytes) → Nat
  | 0, _ => 0
  | count + 1, fields =>
    match Bytes.getline 32 fields with
    | none => 0
    | some (field, rest) =>
      if count ≠ 0 ∨ field = [] then startTimeField count rest else parseStartTime field

/-- The start time in a `stat` file: its field 22, where the text after the name starts with
field 3. -/
def parseStartTimeFromStat (stat : Bytes) : Nat :=
  match Bytes.rfind 41 stat with
  | none => 0
  | some closingParen =>
    if stat.length ≤ closingParen + 2 then 0 else startTimeField 20 (stat.drop (closingParen + 2))

end FileUtils

namespace CpuMask

/-- The CPUs from one to another, in their order. -/
def cpuRange (startCpu endCpu : Int) : List Int :=
  (List.range (endCpu - startCpu + 1).toNat).map fun step : Nat => startCpu + step

/-- The CPUs of one item of a list, a number or a range; nothing when it is refused. -/
def parseCpuItem (item : Bytes) : Option (List Int) :=
  let dashPos := item.idxOf 45
  if 0 < dashPos ∧ dashPos < item.length then
    match Bytes.stoi (item.take dashPos), Bytes.stoi (item.drop (dashPos + 1)) with
    | some startCpu, some endCpu =>
      if startCpu < 0 ∨ endCpu < startCpu ∨ ConfigParser.cpuSetSize ≤ endCpu then none
      else some (cpuRange startCpu endCpu)
    | _, _ => none
  else
    match Bytes.stoi item with
    | some cpu => if cpu < 0 ∨ ConfigParser.cpuSetSize ≤ cpu then none else some [cpu]
    | none => none

/-- A byte the loop passes over before an item. -/
def isBlank (byte : UInt8) : Bool := byte = 32 || byte = 9

/-- The loop over a CPU list. The outer option is empty when the rounds are used up, the inner one
when the list is refused. -/
def parseCpuItems : (rounds : Nat) → (value : Bytes) → (cpus : List Int) →
    Option (Option (List Int))
  | 0, _, _ => none
  | rounds + 1, value, cpus =>
    match value.dropWhile isBlank with
    | [] => some (some cpus)
    | first :: rest =>
      match parseCpuItem ((first :: rest).takeWhile (· ≠ 44)) with
      | none => some none
      | some more =>
        parseCpuItems rounds (((first :: rest).dropWhile (· ≠ 44)).drop 1) (cpus ++ more)

/-- The CPUs in a `status` file, line by line; empty when there is no list or it is refused. The
outer option is empty when the rounds are used up. -/
def parseStatus : (rounds : Nat) → (content : Bytes) → Option (List Int)
  | 0, _ => none
  | rounds + 1, content =>
    match Bytes.getline 10 content with
    | none => some []
    | some (line, rest) =>
      if line.take 17 = Bytes.ascii "Cpus_allowed_list" ∧ 58 ∈ line then
        (parseCpuItems (line.length + 1) (line.drop (line.idxOf 58 + 1)) []).map (·.getD [])
      else parseStatus rounds rest

end CpuMask

end ReUperf
