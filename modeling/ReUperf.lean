import ReUperf.Lib.Handles
import ReUperf.Lib.Pool
import ReUperf.Verif.CacheRepresentation
import ReUperf.Verif.Cadence
import ReUperf.Verif.CarriedStates
import ReUperf.Verif.CgroupFreshness
import ReUperf.Verif.ComponentNames
import ReUperf.Verif.ConfigReloads
import ReUperf.Verif.ConfigWatcher
import ReUperf.Verif.ControlValues
import ReUperf.Verif.Convergence
import ReUperf.Verif.CpuLists
import ReUperf.Verif.DispatchBudget
import ReUperf.Verif.DispatchIdentity
import ReUperf.Verif.EventBatches
import ReUperf.Verif.EventPath
import ReUperf.Verif.FileCache
import ReUperf.Verif.FileWrites
import ReUperf.Verif.FullCycle
import ReUperf.Verif.FullScan
import ReUperf.Verif.Groups
import ReUperf.Verif.Launcher
import ReUperf.Verif.LauncherMacro
import ReUperf.Verif.MonitorLifecycle
import ReUperf.Verif.Narrowing
import ReUperf.Verif.OwnPath
import ReUperf.Verif.ProcEvents
import ReUperf.Verif.ProcFormats
import ReUperf.Verif.Pruning
import ReUperf.Verif.Recovery
import ReUperf.Verif.ReloadAtomicity
import ReUperf.Verif.Repair
import ReUperf.Verif.RescanRequests
import ReUperf.Verif.RestoreAgreement
import ReUperf.Verif.Retry
import ReUperf.Verif.Revalidation
import ReUperf.Verif.RuleFilter
import ReUperf.Verif.ScanIdentity
import ReUperf.Verif.SchedulerRoundTrip
import ReUperf.Verif.SharedEntries
import ReUperf.Verif.StartTimes
import ReUperf.Verif.Takeover
import ReUperf.Verif.Wakeups
import ReUperf.Verif.WorkerQueue
