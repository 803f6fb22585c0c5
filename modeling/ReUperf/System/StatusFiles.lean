import ReUperf.System.CgroupLookup
import ReUperf.System.ProcFiles

/-!
# Status and group files of threads

How `file_utils.hpp` takes the text of the `status`, `comm`, `cmdline` and `cgroup` files of a
process or a thread apart, once it is read. The groups of a thread are read by a parser of their
own, which knows two names of the cpu controller and takes the last line that lists one.
-/

namespace ReUperf.FileUtils

/-- The name of a process or thread without one. -/
def deadText : Bytes := Bytes.ascii "[dead]"

/-- The name in a `status` file. -/
def parseProcessNameFromStatus (statusContent : Bytes) : Bytes :=
  if statusContent = [] then deadText
  else
    match Bytes.find (Bytes.ascii "Name:") statusContent with
    | none => deadText
    | some start =>
      let text := (statusContent.drop (start + 5)).dropWhile CpuMask.isBlank
      if 10 ∈ text then text.takeWhile (· ≠ 10) else deadText

/-- Whether a line has the process of a thread. -/
def isTgidLine (line : Bytes) : Bool := line.take 5 = Bytes.ascii "Tgid:"

/-- Whether the `status` file of a thread names a process. -/
def statusIsInProcess (status : Bytes) (pid : Int) : Bool :=
  if status = [] then false
  else
    match (Bytes.getlines 10 status).find? isTgidLine with
    | none => false
    | some line =>
      match Bytes.strtol ((line.drop 5).takeWhile (· ≠ 0)) with
      | none => false
      | some (tgid, _) => isValidId tgid && tgid = pid

/-- The name in a `comm` file. -/
def threadCommOf (comm : Bytes) : Bytes := if comm = [] then deadText else comm

/-- The first argument in a `cmdline` file. -/
def processCmdlineOf (cmdline : Bytes) : Bytes := cmdline.takeWhile (· ≠ 0)

/-- The cpuset controller. -/
def isCpusetController (controller : Bytes) : Bool := controller = Bytes.ascii "cpuset"

/-- The names of the cpu controller. -/
def isCpuctlController (controller : Bytes) : Bool :=
  controller = Bytes.ascii "cpu" || controller = Bytes.ascii "cpuctl"

/-- Note the path of a hierarchy for one of its controllers. -/
def noteController (path : Bytes) (paths : ThreadCgroupPaths) (controller : Bytes) :
    ThreadCgroupPaths :=
  if isCpusetController controller then { paths with cpuset := path }
  else if isCpuctlController controller then { paths with cpuctl := path }
  else paths

/-- Note the path of a line of a `cgroup` file. -/
def noteCgroupLine (paths : ThreadCgroupPaths) (line : Bytes) : ThreadCgroupPaths :=
  match parseCgroupLine line with
  | none => paths
  | some (controllers, path) =>
    (Bytes.getlines 44 controllers).foldl (noteController path) paths

/-- The groups in the `cgroup` file of a thread. -/
def parseThreadCgroupPaths (cgroups : Bytes) : ThreadCgroupPaths :=
  if cgroups = [] then {}
  else (Bytes.getlines 10 cgroups).foldl noteCgroupLine { readable := true }

end ReUperf.FileUtils
