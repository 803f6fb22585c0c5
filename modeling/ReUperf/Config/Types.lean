import ReUperf.Lib.Table
import ReUperf.Lib.Text

/-!
# Configuration

The configuration of the scheduler as `config_types.hpp` declares it, with the defaults of
its fields. The three named maps of the scheduler section are tables; iterating one of them
visits the names in byte order, as `std::map` does.
-/

namespace ReUperf

/-- The scheduling state of a process. -/
inductive ProcessState
  /-- A background process. -/
  | bg
  /-- A foreground process. -/
  | fg
  /-- The top application. -/
  | top
  deriving DecidableEq, Repr

/-- The logging section. -/
structure LogConfig where
  /-- The level below which nothing is logged. -/
  level : Bytes := Bytes.ascii "info"
  /-- The log file. -/
  output : Bytes := Bytes.ascii "/data/adb/ReUperf/ReUperf.log"
  deriving DecidableEq

/-- One rule for the threads of a process. -/
structure ThreadRule where
  /-- The regular expression the thread name is searched for. -/
  keyword : Bytes
  /-- The affinity class of a matched thread. -/
  affinityClass : Bytes
  /-- The priority class of a matched thread. -/
  prioClass : Bytes
  /-- The utilisation clamp of the rule's cpuctl group. -/
  uclampMax : Option Int := none
  /-- The CPU share of the rule's cpuctl group. -/
  cpuShare : Option Int := none
  /-- Whether matched threads move to the rule's cpuctl group. -/
  enableLimit : Bool := false
  deriving DecidableEq

/-- One rule for a process. -/
structure ProcessRule where
  /-- The name of the rule. -/
  name : Bytes := []
  /-- The regular expression the command line or the process name is searched for. -/
  regexStr : Bytes := []
  /-- Whether a matched process always counts as the top application. -/
  pinned : Bool := false
  /-- Whether a matched foreground process counts as the top application. -/
  topfore : Bool := false
  /-- The rules for its threads, in order of preference. -/
  threadRules : List ThreadRule := []
  deriving DecidableEq

/-- The CPU mask names of an affinity class. -/
structure AffinityScene where
  /-- The mask in the background. -/
  bg : Bytes := []
  /-- The mask in the foreground. -/
  fg : Bytes := []
  /-- The mask as the top application. -/
  top : Bytes := []
  deriving DecidableEq

/-- The mask name of a scene in a state. -/
def AffinityScene.at (scene : AffinityScene) : ProcessState → Bytes
  | .bg => scene.bg
  | .fg => scene.fg
  | .top => scene.top

/-- The priority values of a priority class. -/
structure PrioScene where
  /-- The value in the background. -/
  bg : Int := 0
  /-- The value in the foreground. -/
  fg : Int := 0
  /-- The value as the top application. -/
  top : Int := 0
  deriving DecidableEq

/-- The priority value of a scene in a state. -/
def PrioScene.at (scene : PrioScene) : ProcessState → Int
  | .bg => scene.bg
  | .fg => scene.fg
  | .top => scene.top

/-- The intervals and limits of the scheduler's activities. -/
structure TimingConfig where
  /-- The delay in which process events are collected. -/
  eventThrottleMs : Int := 50
  /-- The interval in which a task with an unchanged state is dropped. -/
  minScheduleIntervalMs : Int := 200
  /-- The age at which scheduling records are dropped. -/
  scheduleCleanupIntervalMs : Int := 5000
  /-- The interval between two group checks of a thread. -/
  cgroupCheckIntervalMs : Int := 1000
  /-- How often a refused move to a cpuset group is tried. -/
  cpusetRetryCount : Int := 3
  /-- The pause between two such tries. -/
  cpusetRetryIntervalMs : Int := 10
  /-- How long a group's readiness is remembered. -/
  cpusetGroupCheckTtlMs : Int := 1000
  /-- How long a match result is remembered. -/
  processCacheTtlMs : Int := 100
  /-- How long the contents of an ordinary file are remembered. -/
  fileCacheTtlMs : Int := 100
  /-- How long the group of a process is remembered. -/
  cgroupCacheTtlMs : Int := 100
  /-- The delay before the process monitor is first restarted. -/
  monitorInitialRestartDelayS : Int := 1
  /-- The delay between two restarts of the process monitor. -/
  monitorRestartRetryDelayS : Int := 5
  /-- The first delay after a failed reload. -/
  configRetryInitialDelayS : Int := 1
  /-- The longest delay after a failed reload. -/
  configRetryMaxDelayS : Int := 5
  deriving DecidableEq

/-- The scheduler section. -/
structure SchedConfig where
  /-- Whether the scheduler runs. -/
  enable : Bool := true
  /-- The interval between two full scans. -/
  refreshIntervalMs : Int := 2000
  /-- The interval between two scans of the top application. -/
  highspeedSchedMs : Int := 300
  /-- The time a scan of the top application may take. -/
  topScanBudgetUs : Int := 4000
  /-- The time one pass of a full scan may take. -/
  fullScanBudgetUs : Int := 12000
  /-- The reads between two pauses of a scan. -/
  scanBatchSize : Int := 32
  /-- The length of such a pause. -/
  scanBatchYieldUs : Int := 0
  /-- Whether every regular expression ignores case. -/
  caseInsensitive : Bool := false
  /-- Intervals and limits. -/
  timing : TimingConfig := {}
  /-- The logging section. -/
  log : LogConfig := {}
  /-- The CPUs of each mask name. -/
  cpumask : Table Bytes (List Int) := ∅
  /-- The scene of each affinity class. -/
  affinity : Table Bytes AffinityScene := ∅
  /-- The scene of each priority class. -/
  prio : Table Bytes PrioScene := ∅
  /-- The process rules, in order of preference. -/
  rules : List ProcessRule := []

/-- A parsed configuration. -/
structure Config where
  /-- The name of the configuration. -/
  metaName : Bytes := []
  /-- The author of the configuration. -/
  metaAuthor : Bytes := []
  /-- The scheduler section. -/
  sched : SchedConfig := {}
  /-- The package of the launcher, which `/HOME_PACKAGE/` stands for. -/
  launcherPackage : Bytes := []

end ReUperf
