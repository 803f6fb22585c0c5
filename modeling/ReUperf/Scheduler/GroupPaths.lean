import ReUperf.Core.ThreadMatcher

/-!
# Group paths

The directories the setters move threads to, and the paths below the controller's mount point
that the drift check compares with the group `/proc` reports.
-/

namespace ReUperf

namespace CpusetSetter

/-- The directory of the cpuset group of a mask. -/
def targetPath (cpumaskName : Bytes) : Bytes :=
  Bytes.ascii "/dev/cpuset/top-app/ReUperf_" ++ cpumaskName

/-- The directory threads are moved to when a move to their group is refused. -/
def parentPath : Bytes := Bytes.ascii "/dev/cpuset/top-app"

/-- The cpuset group of a mask as `/proc` reports it. -/
def expectedGroup (cpumaskName : Bytes) : Bytes :=
  Bytes.ascii "/top-app/ReUperf_" ++ cpumaskName

end CpusetSetter

namespace CpuctlSetter

/-- The directory of the cpuctl group of a result. -/
def targetPath (result : MatchResult) : Bytes :=
  Bytes.ascii "/dev/cpuctl/ReUperf/" ++ result.matchedRuleName ++ Bytes.ascii "/A"
    ++ Bytes.decimal (result.threadRuleIndex + 1)

/-- The cpuctl group of a result as `/proc` reports it. -/
def expectedGroup (result : MatchResult) : Bytes :=
  Bytes.ascii "/ReUperf/" ++ result.matchedRuleName ++ Bytes.ascii "/A"
    ++ Bytes.decimal (result.threadRuleIndex + 1)

end CpuctlSetter

/-- The mount point of the cpuset controller. -/
def cpusetMount : Bytes := Bytes.ascii "/dev/cpuset"

/-- The mount point of the cpu controller. -/
def cpuctlMount : Bytes := Bytes.ascii "/dev/cpuctl"

/-- The group of a mask is reported where the setter puts it. -/
theorem cpusetMount_expectedGroup (cpumaskName : Bytes) :
    cpusetMount ++ CpusetSetter.expectedGroup cpumaskName = CpusetSetter.targetPath cpumaskName :=
  rfl

/-- The group of a result is reported where the setter puts it. -/
theorem cpuctlMount_expectedGroup (result : MatchResult) :
    cpuctlMount ++ CpuctlSetter.expectedGroup result = CpuctlSetter.targetPath result := rfl

end ReUperf
