import ReUperf.Main.Handler
import ReUperf.Verif.FullCycle
import ReUperf.Verif.FullScan
import ReUperf.Verif.ScanIdentity

/-!
# The event path and the full cycle

A new process may be dispatched by the handler of process events or by a full cycle. The two decide
on their own what to dispatch it as. The module proves that they agree on a process that ReUperf
has not managed before: the handler hands over no thread in another state than the cycle, and for a
process that a rule matches it hands over every thread the cycle does, or requests a full scan.
-/

namespace ReUperf

open Effect FileUtils Main

/-! ## What a scan records -/

namespace ScanContent

variable {content : ScanContent} {scan start : FullScanState} {pid other : Int}

/-- The state the groups of a process tell. -/
def stateOf (content : ScanContent) (pid : Int) : ProcessState :=
  actualState (content.cgroup pid).state

/-- The result of matching a process in the state its groups tell. -/
def resultOf (content : ScanContent) (pid : Int) : MatchResult :=
  content.matchProcess pid (content.processName pid) (content.stateOf pid)
    (content.processCmdline pid)

/-- The record of a process whose groups are not ReUperf's. -/
def record (content : ScanContent) (hasBaseline : Bool) (pid : Int) : PidRecord :=
  .settled (content.startOf pid) (content.stateOf pid) hasBaseline
    (decide (content.processCmdline pid = [])) (content.resultOf pid)

/-- The scan of a process that is read. -/
theorem scanPid_observed (scan : FullScanState) (observed : Observed content pid) :
    ∃ position found, content.scanPid scan pid = (FullScanState.recordResult
      (withThreads (content.listed scan pid) position found)
      (content.resultFor (content.observe scan pid))).nextPid := by
  obtain ⟨found, shape⟩ :=
    @threads_shape content pid (content.tidList pid) (content.listed scan pid)
  refine ⟨(content.listed scan pid).tidIndex + (content.tidList pid).length, found, ?_⟩
  rw [scanPid, if_neg observed.started, if_neg observed.named, shape]
  rfl

/-- The scan of a process records nothing of others. -/
theorem recordOf_scanPid_ne (differ : other ≠ pid) :
    (content.scanPid scan pid).recordOf other = scan.recordOf other := by
  by_cases started : content.startOf pid = 0
  · rw [scanPid, if_pos started]
    rfl
  by_cases named : content.processName pid = deadName
  · rw [scanPid, if_neg started, if_pos named]
    rfl
  have live : Observed content pid := ⟨started, named⟩
  obtain ⟨position, found, shape⟩ := scanPid_observed scan live
  rw [shape]
  have observed : (content.observe scan pid).recordOf other = scan.recordOf other := by
    rw [observe, FullScanState.recordOf_recordState_ne _ differ]
    exact FullScanState.recordOf_recordLive_ne differ
  have matched := @FullScanState.recordOf_recordResult_ne
    (withThreads (content.listed scan pid) position found) other
    (content.resultFor (content.observe scan pid)) differ
  exact matched.trans observed

/-- The groups of a process tell its state, unless they are ReUperf's. -/
theorem stateFor_visible (visible : (content.cgroup pid).reuperfOwned = false)
    (background : scan.currentState = .bg) :
    scan.stateFor (content.cgroup pid) = content.stateOf pid := by
  rw [stateOf, FullScanState.stateFor]
  cases state : (content.cgroup pid).state with
  | top => rfl
  | fg => rfl
  | bg => rfl
  | other =>
    rw [visible]
    cases scan.previousStates.lookup scan.currentPid with
    | none => exact background
    | some previous =>
      dsimp only
      rw [if_neg (by simp)]
      exact background

/-- The scan of a process settles its record. -/
theorem recordOf_scanPid (visible : (content.cgroup pid).reuperfOwned = false)
    (observed : Observed content pid) (fresh : scan.recordOf pid = {}) :
    (content.scanPid scan pid).recordOf pid =
      content.record (decide (pid ∈ scan.baselinePids)) pid := by
  obtain ⟨position, found, shape⟩ := scanPid_observed scan observed
  rw [shape]
  let read : FullScanState := { scan.clearCurrentPid with
    currentPid := pid
    currentProcessStartTime := content.startOf pid
    currentProcName := content.processName pid
    currentCmdline := content.processCmdline pid }
  have state : read.recordLive.stateFor (content.cgroup pid) = content.stateOf pid :=
    stateFor_visible visible rfl
  have seen : content.observe scan pid = read.recordLive.recordState (content.stateOf pid) := by
    rw [← state]
    rfl
  have begun : (content.observe scan pid).recordOf pid =
      .begun (content.startOf pid) (content.stateOf pid) := by
    rw [seen]
    exact @FullScanState.recordOf_begun read (content.stateOf pid) fresh
  have result : content.resultFor (content.observe scan pid) = content.resultOf pid := by
    rw [seen]
    rfl
  have settled := @FullScanState.recordOf_settled
    (withThreads (content.listed scan pid) position found) (content.resultOf pid) (by
      show (content.observe scan pid).recordOf pid =
        .begun (content.startOf pid) (content.observe scan pid).currentState
      rw [begun, seen]
      rfl)
  rw [result]
  refine settled.trans ?_
  rw [record]
  show PidRecord.settled _ (content.observe scan pid).currentState _ _ _ = _
  rw [seen]
  rfl

/-- A process that was gone when its name was read has no name. -/
theorem dead_of_mem_scanPid (dead : ∀ other ∈ scan.deadPids, content.processName other = deadName) :
    ∀ other ∈ (content.scanPid scan pid).deadPids, content.processName other = deadName := by
  intro other member
  by_cases started : content.startOf pid = 0
  · rw [scanPid, if_pos started] at member
    exact dead other member
  by_cases named : content.processName pid = deadName
  · rw [scanPid, if_neg started, if_pos named] at member
    rcases Finset.mem_insert.mp member with rfl | earlier
    · exact named
    · exact dead other earlier
  · have live : Observed content pid := ⟨started, named⟩
    obtain ⟨position, found, shape⟩ := scanPid_observed scan live
    rw [shape] at member
    exact dead other member

/-- The scan of a process keeps the processes with a baseline. -/
theorem baselinePids_scanPid (scan : FullScanState) (pid : Int) :
    (content.scanPid scan pid).baselinePids = scan.baselinePids := by
  by_cases started : content.startOf pid = 0
  · rw [scanPid, if_pos started]
    rfl
  by_cases named : content.processName pid = deadName
  · rw [scanPid, if_neg started, if_pos named]
    rfl
  · have live : Observed content pid := ⟨started, named⟩
    obtain ⟨position, found, shape⟩ := scanPid_observed scan live
    rw [shape]
    rfl

/-- The scan of other processes records nothing of a process. -/
theorem recordOf_foldl_ne {pids : List Int} (absent : pid ∉ pids) (scan : FullScanState) :
    (pids.foldl content.scanPid scan).recordOf pid = scan.recordOf pid := by
  induction pids generalizing scan with
  | nil => rfl
  | cons first rest ih =>
    rw [List.mem_cons, not_or] at absent
    rw [List.foldl_cons, ih absent.2, recordOf_scanPid_ne absent.1]

/-- The scan of processes settles the record of each. -/
theorem recordOf_foldl (visible : (content.cgroup pid).reuperfOwned = false)
    (observed : Observed content pid) {pids : List Int} (unique : pids.Nodup) (member : pid ∈ pids)
    (fresh : scan.recordOf pid = {}) :
    (pids.foldl content.scanPid scan).recordOf pid =
      content.record (decide (pid ∈ scan.baselinePids)) pid := by
  induction pids generalizing scan with
  | nil => exact absurd member List.not_mem_nil
  | cons first rest ih =>
    obtain ⟨apart, unique⟩ := List.nodup_cons.mp unique
    rw [List.foldl_cons]
    by_cases own : pid = first
    · subst own
      rw [recordOf_foldl_ne apart, recordOf_scanPid visible observed fresh]
    · have later : pid ∈ rest := (List.mem_cons.mp member).resolve_left own
      have untouched : (content.scanPid scan first).recordOf pid = {} := by
        rw [recordOf_scanPid_ne own, fresh]
      rw [ih unique later untouched, baselinePids_scanPid]

/-- A process that was gone when its name was read has no name. -/
theorem dead_of_mem_foldl (pids : List Int)
    (dead : ∀ other ∈ scan.deadPids, content.processName other = deadName) :
    ∀ other ∈ (pids.foldl content.scanPid scan).deadPids, content.processName other = deadName := by
  induction pids generalizing scan with
  | nil => exact dead
  | cons first rest ih => exact ih (dead_of_mem_scanPid dead)

/-- Every process is listed once. -/
theorem nodup_pidList (content : ScanContent) : content.pidList.Nodup :=
  (List.perm_insertionSort _ _).nodup_iff.mpr (List.nodup_dedup _)

variable {cache : ThreadCache} {priorStates : Table Int (Nat × ProcessState)}

/-- A finished scan has the record of a process whose groups are not ReUperf's. -/
theorem recordOf_scanned (visible : (content.cgroup pid).reuperfOwned = false)
    (observed : Observed content pid) (listed : pid ∈ content.pidList) :
    (content.scanned (.beginFrom cache priorStates) content.pidList.length).recordOf pid =
      content.record (decide (pid ∈ cache.getPidsWithBaselines)) pid := by
  rw [scanned, List.take_length]
  exact @recordOf_foldl content (content.enumerated (.beginFrom cache priorStates)) pid visible
    observed content.pidList content.nodup_pidList listed rfl

/-- A finished scan has not found a process with a name gone. -/
theorem not_dead_scanned (named : content.processName pid ≠ deadName) :
    pid ∉ (content.scanned (.beginFrom cache priorStates) content.pidList.length).deadPids := by
  intro gone
  rw [scanned] at gone
  have dead := @dead_of_mem_foldl content (content.enumerated (.beginFrom cache priorStates))
    (content.pidList.take content.pidList.length) (fun other none => by cases none)
  exact named (dead pid gone)

end ScanContent

/-! ## What a process is dispatched as -/

/-- Whether a process is in a set. -/
def PidRecord.among (record : PidRecord) : ScanPhase → Bool
  | .topApp => record.topApp
  | .pinned => record.pinned
  | .topfore => record.topfore
  | .foreground => record.foreground
  | .background => record.background

/-- The first set a process with a record is in. -/
def PidRecord.firstPhase (record : PidRecord) : Option ScanPhase := scanPhases.find? record.among

/-- The sets that a scan publishes are those of the records. -/
theorem firstPhase_published {scan : FullScanState} {pid : Int} (alive : pid ∉ scan.deadPids) :
    FullCycle.firstPhase (publishedPids scan) pid = (scan.recordOf pid).firstPhase := by
  have same : ∀ phase, decide (pid ∈ publishedPids scan phase) =
      (scan.recordOf pid).among phase := by
    intro phase
    cases phase with
    | topApp | foreground | background => rfl
    | pinned | topfore => exact decide_eq_decide.mpr (by simp [publishedPids, alive])
  rw [FullCycle.firstPhase, PidRecord.firstPhase, funext same]

/-- The set a rule puts a process without a baseline in, as the handler decides. -/
def rulePhaseOf (result : MatchResult) (state : ProcessState) (kernelThread : Bool) :
    Option ScanPhase :=
  if result.matched = false then none
  else if result.pinned then some .pinned
  else if result.topfore && state = .fg then some .topfore
  else if state = .fg then some .foreground
  else if state = .bg && shouldDispatchBackgroundProcess result false kernelThread then
    some .background
  else none

/-- A thread rule does not change what the process rule says about the state. -/
theorem result_state {engine : RegexEngine} (sched : SchedConfig)
    (rule : CompiledProcessRule engine) (args : MatchArgs) :
    (rule.result sched args).effectiveState = rule.rule.effectiveState args.actualState ∧
      (rule.result sched args).pinned = rule.rule.pinned ∧
      (rule.result sched args).topfore = rule.rule.topfore := by
  unfold CompiledProcessRule.result
  cases rule.threadRules.find? (·.accepts args) with
  | none => exact ⟨rfl, rfl, rfl⟩
  | some threadRule => exact ⟨rfl, rfl, rfl⟩

/-- The state of a matched result. -/
theorem search_effectiveState {engine : RegexEngine} {matcher : ThreadMatcher engine}
    {args : MatchArgs} (matched : (matcher.search args).matched = true) :
    (matcher.search args).effectiveState =
      if (matcher.search args).pinned then .top
      else if (matcher.search args).topfore ∧ args.actualState = .fg then .top
      else args.actualState := by
  rw [ThreadMatcher.search] at matched ⊢
  split
  · next none =>
    rw [none] at matched
    cases matched
  · next rule found =>
    obtain ⟨effective, pinned, topfore⟩ := result_state matcher.config.sched rule args
    rw [effective, pinned, topfore]
    rfl

/-- The first set of a process of the top application. -/
theorem firstPhase_settled_top {startTime : Nat} {hasBaseline kernelThread : Bool}
    {result : MatchResult} :
    (PidRecord.settled startTime .top hasBaseline kernelThread result).firstPhase =
      some .topApp := rfl

/-- The first set of another process that a rule matches is the one the handler decides on. -/
theorem firstPhase_settled_rule {startTime : Nat} {state : ProcessState} {kernelThread : Bool}
    {result : MatchResult} (other : state ≠ .top) (matched : result.matched = true)
    (effective : result.effectiveState = if result.pinned then .top
      else if result.topfore ∧ state = .fg then .top else state) :
    (PidRecord.settled startTime state false kernelThread result).firstPhase =
      rulePhaseOf result state kernelThread := by
  have order : scanPhases = [.topApp, .pinned, .topfore, .foreground, .background] := rfl
  rw [PidRecord.firstPhase, order, rulePhaseOf, if_neg (by rw [matched]; decide)]
  cases pinned : result.pinned with
  | true =>
    cases state with
    | top => exact absurd rfl other
    | fg | bg => simp [PidRecord.among, PidRecord.settled, PidRecord.begun, matched, pinned]
  | false =>
    rw [pinned, if_neg Bool.false_ne_true] at effective
    cases state with
    | top => exact absurd rfl other
    | fg =>
      cases topfore : result.topfore <;>
        simp [PidRecord.among, PidRecord.settled, PidRecord.begun, matched, pinned, topfore,
          effective]
    | bg =>
      have below : result.effectiveState ≠ .top := by simp [effective]
      cases wanted : shouldDispatchBackgroundProcess result false kernelThread <;>
        simp [PidRecord.among, PidRecord.settled, PidRecord.begun, pinned, below, wanted]

/-! ## The machine -/

/-- What a scan and the handler read, and the configured rules. -/
structure EventScene (engine : RegexEngine) extends ProcSnapshot where
  /-- The entries of `/proc`. -/
  entries : List Bytes
  /-- What the groups of a process tell. -/
  cgroup : Int → CgroupStateInfo
  /-- The configuration. -/
  config : Config

variable {engine : RegexEngine}

/-- What a scan reads, with the results of the rules. -/
def EventScene.content (scene : EventScene engine) : ScanContent where
  toProcContent := scene.toProcContent
  entries := scene.entries
  cgroup := scene.cgroup
  matchProcess _ procName state cmdline :=
    (ThreadMatcher.ofConfig engine scene.config).search ⟨procName, procName, state, cmdline, true⟩

namespace EventPath

/-- One operation of the handler on a fixed `/proc`. A process has a baseline only if it was managed
before or a worker took a task of it. -/
def Step (scene : EventScene engine) (managed : Int → Prop) :
    FixedWorld → (operation : HandlerOp) → HandlerSig.Res operation → FixedWorld → Prop
  | world, .cgroupStateInfo pid, response, after => response = scene.cgroup pid ∧ after = world
  | world, .matchProcess pid procName state cmdline, response, after =>
    response = scene.content.matchProcess pid procName state cmdline ∧ after = world
  | world, .hasBaselineForPid pid, response, after =>
    (response = true →
      managed pid ∨ ∃ handoff ∈ world.accepted, handoff.task.identity.pid = pid) ∧ after = world
  | world, .dispatch operation, response, after =>
    scene.Step FullCycle.anyTime world operation response after
  | world, _, _, after => after = world

/-- The machine of the handler on a fixed `/proc`. -/
def machine (scene : EventScene engine) (managed : Int → Prop) : Machine HandlerSig FixedWorld where
  step := Step scene managed

/-- The task of a thread of a process that is dispatched in a state. -/
def taskIn (proc : ProcContent) (state : ProcessState) (pid tid : Int) : DispatchTask where
  identity := proc.identity pid tid
  threadName := proc.threadName pid tid
  state := state
  cpusetBase := kCpusetBase
  procName := proc.processName pid
  cmdline := proc.processCmdline pid

/-- A full cycle on a fixed `/proc`: a scan, in as many calls as it takes, and the dispatch of the
sets it publishes, in as many iterations as it takes. The log lists the tasks handed over. -/
inductive FullCycleOf (scene : EventScene engine) (setup : CycleSetup) (managed : Int → Prop) :
    List Handoff → Prop where
  /-- The cycle is closed. -/
  | closed {priorStates : Table Int (Nat × ProcessState)} {initial middle last : ScanWorld}
      {scan found : FullScanState} {fuel : Nat} {idle current : CycleState}
      {world after : FixedWorld}
      (known : ∀ pid ∈ initial.cache.getPidsWithBaselines, managed pid)
      (scanned : scene.content.Reaches priorStates initial scan middle)
      (finished : Program.Run scene.content.machine.withSpin (advanceFullScan fuel scan) middle
        (true, found) last)
      (inactive : idle.fullCycleActive = false) (opened : world.closed = false)
      (dispatched : FullCycle.Reaches scene.toProcContent setup idle world current after)
      (published : current.cachedPids = publishedPids found) (closed : after.closed = true) :
      FullCycleOf scene setup managed after.log

/-- The handler treats a process as a full cycle with this log does. -/
structure TreatsAlike (scene : EventScene engine) (cycleLog : List Handoff) (pid : Int)
    (after : FixedWorld) : Prop where
  /-- The task of every thread the handler handed over is the one the cycle handed over. -/
  same : ∀ handoff ∈ after.accepted, handoff.task.identity.pid = pid →
    ∃ other, (cycleLog.filter fun other => other.isAccepted &&
        decide (other.task.identity.key = handoff.task.identity.key)) = [other] ∧
      other.worker = handoff.worker ∧ other.task = handoff.task
  /-- If a rule matches the process, the handler handed over every thread the cycle handed over,
  or it requested a full scan. -/
  whole : (scene.content.resultOf pid).matched = true → after.rescan = true ∨
    ∀ other ∈ cycleLog, other.isAccepted = true → other.task.identity.pid = pid →
      ∃ handoff ∈ after.accepted, handoff.task = other.task

/-! ## Operations of the handler -/

variable {scene : EventScene engine} {managed : Int → Prop} {world : FixedWorld} {pid other : Int}

/-- A dispatch does in the handler what it does alone. -/
theorem wp_asHandler {α : Type} {program : DispatchProgram α} {post : α → FixedWorld → Prop} :
    (Looping.interpret asHandlerOp program).wp (machine scene managed).withSpin post world ↔
      program.wp (scene.toProcContent.machine FullCycle.anyTime).withSpin post world :=
  Looping.wp_interpret_rename (fun _ _ _ => Iff.rfl) program post world

/-- An operation of a dispatch does in the handler what it does alone. -/
theorem wp_asHandlerOp {operation : DispatchOp}
    {post : DispatchSig.Res operation → FixedWorld → Prop} :
    (asHandlerOp operation).wp (machine scene managed).withSpin post world ↔
      (dispatchOp operation).wp (scene.toProcContent.machine FullCycle.anyTime).withSpin post
        world := Iff.rfl

/-- What the handler does keeps the request for a full rescan. -/
theorem rescan_kept {α : Type} (program : HandlerProgram α) :
    program.wp (machine scene managed).withSpin
      (fun _ after => world.rescan = true → after.rescan = true) world := by
  refine Program.wp_of_step (fun state : FixedWorld => world.rescan = true → state.rescan = true)
    ?_ id
  intro state operation response after kept stepped requested
  cases operation with
  | none => exact response.elim
  | some operation =>
    have before : state.rescan = true := kept requested
    cases operation with
    | dispatch operation => exact ProcContent.rescan_of_step stepped before
    | cgroupStateInfo pid | matchProcess pid procName state cmdline | hasBaselineForPid pid =>
      rw [stepped.2]
      exact before
    | resetForPid pid | forgetState pid | invalidateCaches pid | beginBudget =>
      rw [show after = state from stepped]
      exact before

/-! ## What the handler hands over -/

/-- The tasks taken of a process are those of its threads in wanted states. -/
structure HandedOver (proc : ProcContent) (setup : CycleSetup) (pid : Int)
    (wanted : ProcessState → Prop) (processed : Finset Int) (world : FixedWorld) : Prop where
  /-- Every task taken is the task of a live thread, taken by its worker. -/
  good : ∀ handoff ∈ world.accepted, handoff.task.identity.pid = pid → ∃ tid state,
    proc.Live pid tid ∧ wanted state ∧ handoff.task = taskIn proc state pid tid ∧
      handoff.worker = workerIndex setup.hashing setup.workers (proc.identity pid tid)
  /-- The task of every dispatched thread was taken. -/
  sent : ∀ tid ∈ processed, proc.Live pid tid → ∃ handoff ∈ world.accepted, ∃ state,
    wanted state ∧ handoff.task = taskIn proc state pid tid

/-- Only the tasks the workers took matter. -/
theorem HandedOver.frame {proc : ProcContent} {setup : CycleSetup} {wanted : ProcessState → Prop}
    {processed : Finset Int} {before after : FixedWorld}
    (handed : HandedOver proc setup pid wanted processed before)
    (same : after.accepted = before.accepted) :
    HandedOver proc setup pid wanted processed after where
  good := by
    rw [same]
    exact handed.good
  sent := by
    rw [same]
    exact handed.sent

/-- The tasks taken of a process stay as they are. -/
def Untouched (pid : Int) (before world : FixedWorld) : Prop :=
  ∀ handoff, handoff.task.identity.pid = pid →
    (handoff ∈ world.accepted ↔ handoff ∈ before.accepted)

/-- Only the tasks the workers took matter. -/
theorem Untouched.frame {start before after : FixedWorld} (kept : Untouched pid start before)
    (same : after.accepted = before.accepted) : Untouched pid start after := by
  intro handoff own
  rw [same]
  exact kept handoff own

/-- A task that a worker took is among the tasks taken. -/
theorem mem_accepted_append {handoff last : Handoff} (took : last.isAccepted = true) :
    handoff ∈ FixedWorld.accepted { world with log := world.log ++ [last] } ↔
      handoff ∈ world.accepted ∨ handoff = last := by
  rw [FixedWorld.accepted_append world took, List.mem_append, List.mem_singleton]

/-- Handing over a thread of a process keeps the account of its tasks. -/
theorem accounts_handedOver {proc : ProcContent} {setup : CycleSetup} {phase : ScanPhase}
    {wanted : ProcessState → Prop} (want : wanted phase.state) :
    proc.Accounts FullCycle.anyTime (phase.request setup.hashing setup.workers {pid})
      (HandedOver proc setup pid wanted) where
  frame := HandedOver.frame
  sent := by
    intro processed world number tid result handed member live fresh passable took
    obtain rfl : number = pid := Finset.mem_singleton.mp member
    have taken : Handoff.isAccepted ⟨workerIndex setup.hashing setup.workers
        (proc.identity number tid), taskIn proc phase.state number tid, result⟩ = true := by
      rcases took with rfl | rfl <;> rfl
    have task : proc.taskFor (phase.request setup.hashing setup.workers {number}) number tid =
        taskIn proc phase.state number tid := rfl
    rw [task]
    constructor
    · intro handoff listed own
      rcases (mem_accepted_append taken).mp listed with earlier | rfl
      · exact handed.good handoff earlier own
      · exact ⟨tid, phase.state, live, want, rfl, rfl⟩
    · intro other inside alive
      rcases Finset.mem_insert.mp inside with rfl | earlier
      · exact ⟨_, (mem_accepted_append taken).mpr (.inr rfl), phase.state, want, rfl⟩
      · obtain ⟨handoff, listed, eq⟩ := handed.sent other earlier alive
        exact ⟨handoff, (mem_accepted_append taken).mpr (.inl listed), eq⟩

/-- Handing over a thread of another process keeps the tasks of a process. -/
theorem accounts_untouched {proc : ProcContent} {setup : CycleSetup} {phase : ScanPhase}
    {before : FixedWorld} (differ : other ≠ pid) :
    proc.Accounts FullCycle.anyTime (phase.request setup.hashing setup.workers {other})
      (fun _ world => Untouched pid before world) where
  frame := Untouched.frame
  sent := by
    intro processed world number tid result kept member live fresh passable took handoff own
    obtain rfl : number = other := Finset.mem_singleton.mp member
    have taken : Handoff.isAccepted ⟨workerIndex setup.hashing setup.workers
        (proc.identity number tid),
        proc.taskFor (phase.request setup.hashing setup.workers {number}) number tid, result⟩ =
          true := by
      rcases took with rfl | rfl <;> rfl
    have apart : handoff ≠ ⟨workerIndex setup.hashing setup.workers (proc.identity number tid),
        proc.taskFor (phase.request setup.hashing setup.workers {number}) number tid, result⟩ := by
      intro same
      rw [same] at own
      exact differ own
    rw [← kept handoff own]
    exact (mem_accepted_append taken).trans (or_iff_left apart)

/-! ## The dispatch of one process -/

variable {setup : CycleSetup} {inv : Finset Int → FixedWorld → Prop}

/-- A dispatch of one process as one of any set can go on. -/
def Stands (proc : ProcContent) (pid : Int) (world : FixedWorld) (dispatch : DispatchState) :
    Prop :=
  ∀ request : DispatchRequest, request.pids = {pid} →
    ProcContent.Standing proc FullCycle.anyTime request world dispatch

/-- A dispatch that begins. -/
theorem stands_fresh {proc : ProcContent} (positive : 0 < pid) (processed : Finset Int) :
    Stands proc pid world ⟨{}, processed⟩ := by
  intro request own
  apply ProcContent.standing_fresh
  intro number member
  rw [own] at member
  rw [Finset.mem_singleton.mp member]
  exact positive

/-- A dispatch of a process hands over every owed thread of it, or it stops; it can go on as one of
another set. -/
theorem wp_dispatchSingle (workers : setup.workers ≠ 0) (positive : 0 < pid) {phase : ScanPhase}
    (accounts : scene.toProcContent.Accounts FullCycle.anyTime
      (phase.request setup.hashing setup.workers {pid}) inv)
    {dispatch : DispatchState} (stands : Stands scene.toProcContent pid world dispatch)
    (holds : inv dispatch.processed world) :
    (setup.dispatchSingle pid dispatch phase).wp (machine scene managed).withSpin
      (fun found after => inv found.2.processed after ∧
        Stands scene.toProcContent pid after found.2 ∧
        dispatch.processed ⊆ found.2.processed ∧
        (found.1 = false →
          scene.toProcContent.Done FullCycle.anyTime found.2.processed pid)) world := by
  have positives : ∀ number ∈ (phase.request setup.hashing setup.workers {pid}).pids,
      0 < number := by
    intro number member
    rw [Finset.mem_singleton.mp member]
    exact positive
  have dispatched := ProcContent.wp_dispatchPidsToWorkers accounts setup.fuel positives workers
    (stands _ rfl) holds
  rw [CycleSetup.dispatchSingle, wp_asHandler]
  refine Program.wp_mono (Program.wp_and dispatched
    (ProcContent.wp_dispatchPidsToWorkers_fresh setup.fuel)) fun found after reached => ?_
  obtain ⟨stopped, next⟩ := found
  obtain ⟨⟨holds, grows, standing, done⟩, fresh⟩ := reached
  refine ⟨holds, ?_, grows, fun finished => ?_⟩
  · cases stopped with
    | true =>
      have standing := standing rfl
      intro request own
      refine ⟨standing.stands, ?_, ?_, standing.passed⟩
      · rw [own]
        exact standing.member
      · rw [own]
        exact standing.before
    | false =>
      obtain ⟨cursor, processed⟩ := next
      obtain rfl : cursor = {} := fresh rfl
      exact stands_fresh positive processed
  · exact done finished pid (Finset.mem_singleton_self pid)

/-- The first dispatch of a process. -/
theorem wp_dispatchInitial (workers : setup.workers ≠ 0) (positive : 0 < pid)
    (accounts : scene.content.stateOf pid = .top → scene.toProcContent.Accounts FullCycle.anyTime
      (ScanPhase.topApp.request setup.hashing setup.workers {pid}) inv)
    (holds : inv ∅ world) :
    (setup.dispatchInitial pid (scene.cgroup pid).state).wp (machine scene managed).withSpin
      (fun found after => inv found.2.processed after ∧
        Stands scene.toProcContent pid after found.2 ∧
        (scene.content.stateOf pid ≠ .top → after = world) ∧
        (found.1 = false → scene.content.stateOf pid = .top →
          scene.toProcContent.Done FullCycle.anyTime found.2.processed pid)) world := by
  rw [CycleSetup.dispatchInitial, Program.wp_ite]
  split
  · next top =>
    have isTop : scene.content.stateOf pid = .top := by
      rw [ScanContent.stateOf, show (scene.content.cgroup pid).state = .top from top]
      rfl
    refine Program.wp_mono (wp_dispatchSingle workers positive (accounts isTop)
      (stands_fresh positive ∅) holds) fun found after reached => ?_
    obtain ⟨holds, stands, -, done⟩ := reached
    exact ⟨holds, stands, fun other => absurd isTop other, fun finished _ => done finished⟩
  · next other =>
    have notTop : scene.content.stateOf pid ≠ .top := by
      intro isTop
      rw [ScanContent.stateOf] at isTop
      cases state : (scene.content.cgroup pid).state with
      | top => exact other state
      | fg | bg | other =>
        rw [state] at isTop
        cases isTop
    exact ⟨holds, stands_fresh positive ∅, fun _ => rfl, fun _ isTop => absurd isTop notTop⟩

/-- What the handler decides on; a process may have a baseline if it is known to be managed. -/
theorem wp_rulePhase {result : MatchResult} {state : ProcessState} {cmdline : Bytes} :
    (rulePhase pid result state cmdline).wp (machine scene managed).withSpin
      (fun phase after => after = world ∧
        ((state = .bg → ¬ managed pid ∧
            ∀ handoff ∈ world.accepted, handoff.task.identity.pid ≠ pid) →
          phase = rulePhaseOf result state (decide (cmdline = [])))) world := by
  rw [rulePhase, rulePhaseOf]
  by_cases unmatched : result.matched = false
  · rw [if_pos unmatched, if_pos unmatched]
    exact ⟨rfl, fun _ => rfl⟩
  rw [if_neg unmatched, if_neg unmatched]
  by_cases pinned : result.pinned = true
  · rw [if_pos pinned, if_pos pinned]
    exact ⟨rfl, fun _ => rfl⟩
  rw [if_neg pinned, if_neg pinned]
  by_cases topfore : (result.topfore && decide (state = .fg)) = true
  · rw [if_pos topfore, if_pos topfore]
    exact ⟨rfl, fun _ => rfl⟩
  rw [if_neg topfore, if_neg topfore]
  by_cases foreground : state = .fg
  · rw [if_pos foreground, if_pos foreground]
    exact ⟨rfl, fun _ => rfl⟩
  rw [if_neg foreground, if_neg foreground]
  by_cases background : state = .bg
  · rw [if_pos background, Program.wp_bind]
    intro response after stepped
    obtain ⟨known, rfl⟩ : (response = true → managed pid ∨
      ∃ handoff ∈ world.accepted, handoff.task.identity.pid = pid) ∧ after = world := stepped
    have none (unmanaged : state = .bg → ¬ managed pid ∧
        ∀ handoff ∈ after.accepted, handoff.task.identity.pid ≠ pid) : response = false := by
      rw [← Bool.not_eq_true]
      intro baseline
      obtain ⟨fresh, unsent⟩ := unmanaged background
      rcases known baseline with old | ⟨handoff, taken, own⟩
      · exact fresh old
      · exact unsent handoff taken own
    rw [Program.wp_ret, Program.wp_ite]
    split
    · next wanted =>
      refine ⟨rfl, fun unmanaged => ?_⟩
      rw [none unmanaged] at wanted
      rw [wanted, decide_eq_true background]
      rfl
    · next unwanted =>
      refine ⟨rfl, fun unmanaged => ?_⟩
      rw [none unmanaged] at unwanted
      rw [if_neg (by rw [Bool.and_eq_true]; exact fun both => unwanted both.2)]
  · rw [if_neg background,
      if_neg (by rw [Bool.and_eq_true]; exact fun both => background (of_decide_eq_true both.1))]
    exact ⟨rfl, fun _ => rfl⟩

/-- The dispatch of a process as the rules want it. -/
theorem wp_dispatchByRule (workers : setup.workers ≠ 0) (positive : 0 < pid)
    {phase : Option ScanPhase} (accounts : ∀ wanted, phase = some wanted →
      scene.toProcContent.Accounts FullCycle.anyTime
        (wanted.request setup.hashing setup.workers {pid}) inv)
    {dispatch : DispatchState} (stands : Stands scene.toProcContent pid world dispatch)
    (holds : inv dispatch.processed world) :
    (setup.dispatchByRule pid dispatch phase).wp (machine scene managed).withSpin
      (fun incomplete after => ∃ processed, inv processed after ∧ dispatch.processed ⊆ processed ∧
        (incomplete = false → phase ≠ none →
          scene.toProcContent.Done FullCycle.anyTime processed pid)) world := by
  cases phase with
  | none =>
    refine ⟨dispatch.processed, holds, Finset.Subset.refl _, fun _ some => ?_⟩
    exact absurd rfl some
  | some wanted =>
    rw [CycleSetup.dispatchByRule, Program.wp_bind]
    refine Program.wp_mono (wp_dispatchSingle workers positive (accounts wanted rfl) stands holds)
      fun found after reached => ?_
    obtain ⟨holds, -, grows, done⟩ := reached
    exact ⟨found.2.processed, holds, grows, fun finished _ => done finished⟩

/-- How a process is dispatched: nothing of it remains, or a full scan is requested. -/
def Dispatched (scene : EventScene engine) (pid : Int) (allowed : Option ScanPhase → Prop)
    (processed : Finset Int) (after : FixedWorld) : Prop :=
  after.rescan = true ∨ scene.processName pid = deadName ∨
    ∃ phase, allowed phase ∧ (scene.content.stateOf pid = .top ∨ phase ≠ none →
      scene.toProcContent.Done FullCycle.anyTime processed pid)

/-- The dispatch of a new process. -/
theorem wp_incrementalDispatch (workers : setup.workers ≠ 0) (positive : 0 < pid)
    {allowed : Option ScanPhase → Prop}
    (initial : scene.content.stateOf pid = .top → scene.toProcContent.Accounts FullCycle.anyTime
      (ScanPhase.topApp.request setup.hashing setup.workers {pid}) inv)
    (ruled : ∀ middle, (scene.content.stateOf pid ≠ .top → middle = world) →
      (rulePhase pid (scene.content.resultOf pid) (scene.content.stateOf pid)
        (scene.processCmdline pid)).wp (machine scene managed).withSpin
          (fun phase after => after = middle ∧ allowed phase) middle)
    (byRule : ∀ phase, allowed (some phase) → scene.toProcContent.Accounts FullCycle.anyTime
      (phase.request setup.hashing setup.workers {pid}) inv)
    (frame : ∀ {processed : Finset Int} {before after : FixedWorld}, inv processed before →
      after.accepted = before.accepted → inv processed after)
    (holds : inv ∅ world) :
    (setup.incrementalDispatch pid).wp (machine scene managed).withSpin
      (fun _ after => ∃ processed, inv processed after ∧
        Dispatched scene pid allowed processed after) world := by
  rw [CycleSetup.incrementalDispatch, Program.wp_bind]
  intro _ begun stepped
  obtain rfl : begun = world := stepped
  rw [Program.wp_ret, Program.wp_bind, wp_asHandlerOp, ProcContent.wp_processName, Program.wp_ite]
  split
  · next dead => exact ⟨∅, holds, .inr (.inl dead)⟩
  rw [Program.wp_bind, wp_asHandlerOp, ProcContent.wp_processCmdline, Program.wp_bind]
  intro cgroup middle stepped
  obtain ⟨rfl, rfl⟩ : cgroup = scene.cgroup pid ∧ middle = begun := stepped
  rw [Program.wp_ret, Program.wp_bind]
  refine Program.wp_mono (wp_dispatchInitial workers positive initial holds)
    fun found first reached => ?_
  obtain ⟨incomplete, dispatch⟩ := found
  obtain ⟨holds, stands, still, whole⟩ := reached
  dsimp only at holds stands still whole ⊢
  rw [Program.wp_bind]
  intro result second stepped
  obtain ⟨rfl, rfl⟩ : result = scene.content.resultOf pid ∧ second = first := stepped
  rw [Program.wp_ret, Program.wp_bind]
  refine Program.wp_mono (ruled second still) fun phase third reached => ?_
  obtain ⟨rfl, wanted⟩ := reached
  rw [Program.wp_bind]
  refine Program.wp_mono (wp_dispatchByRule workers positive
    (fun phase same => byRule phase (same ▸ wanted)) stands holds) fun ruleIncomplete last reached => ?_
  obtain ⟨processed, holds, grows, done⟩ := reached
  rw [Program.wp_ite]
  split
  · rw [wp_asHandlerOp, ProcContent.wp_requestRescan]
    exact ⟨processed, frame holds rfl, .inl rfl⟩
  · next complete =>
    rw [Bool.or_eq_true, not_or] at complete
    refine ⟨processed, holds, .inr (.inr ⟨phase, wanted, fun listed => ?_⟩)⟩
    rcases listed with top | some
    · intro tid owed
      exact grows (whole (by simpa using complete.1) top tid owed)
    · exact done (by simpa using complete.2) some

/-! ## The two decisions -/

/-- The set the handler puts a new process in, by the rules. -/
def eventPhase (scene : EventScene engine) (pid : Int) : Option ScanPhase :=
  rulePhaseOf (scene.content.resultOf pid) (scene.content.stateOf pid)
    (decide (scene.processCmdline pid = []))

/-- The states the handler dispatches a new process in. -/
def Wanted (scene : EventScene engine) (pid : Int) (state : ProcessState) : Prop :=
  (scene.content.stateOf pid = .top ∧ state = .top) ∨
    ∃ phase, eventPhase scene pid = some phase ∧ state = phase.state

/-- The state of a result that a rule gives. -/
theorem resultOf_effectiveState (matched : (scene.content.resultOf pid).matched = true) :
    (scene.content.resultOf pid).effectiveState =
      if (scene.content.resultOf pid).pinned then .top
      else if (scene.content.resultOf pid).topfore ∧ scene.content.stateOf pid = .fg then .top
      else scene.content.stateOf pid :=
  search_effectiveState matched

/-- Only the rules that match put a process in a set. -/
theorem matched_of_eventPhase {phase : ScanPhase} (wanted : eventPhase scene pid = some phase) :
    (scene.content.resultOf pid).matched = true := by
  by_contra unmatched
  rw [eventPhase, rulePhaseOf, if_pos (by simpa using unmatched)] at wanted
  cases wanted

/-- A rule puts a process of the top application in no set but the pinned one. -/
theorem eventPhase_of_top (top : scene.content.stateOf pid = .top) {phase : ScanPhase}
    (wanted : eventPhase scene pid = some phase) : phase = .pinned := by
  have matched := matched_of_eventPhase wanted
  rw [eventPhase, rulePhaseOf, top, if_neg (by rw [matched]; decide)] at wanted
  by_cases pinned : (scene.content.resultOf pid).pinned = true
  · rw [if_pos pinned] at wanted
    exact (Option.some.inj wanted).symm
  · simp [pinned] at wanted

variable {found : FullScanState}

/-- What a finished scan says of a process. -/
structure ScanFacts (scene : EventScene engine) (found : FullScanState) (pid : Int) : Prop where
  /-- The process is recorded as what it is. -/
  record : ScanContent.Observed scene.content pid →
    found.recordOf pid = scene.content.record false pid
  /-- A process that is recorded was not gone. -/
  alive : ScanContent.Observed scene.content pid → pid ∉ found.deadPids

/-- The first set of a process of the top application. -/
theorem firstPhase_of_top (facts : ScanFacts scene found pid)
    (observed : ScanContent.Observed scene.content pid) (top : scene.content.stateOf pid = .top) :
    FullCycle.firstPhase (publishedPids found) pid = some .topApp := by
  rw [firstPhase_published (facts.alive observed), facts.record observed, ScanContent.record, top]
  exact firstPhase_settled_top

/-- The first set of another process that a rule matches. -/
theorem firstPhase_of_matched (facts : ScanFacts scene found pid)
    (observed : ScanContent.Observed scene.content pid) (other : scene.content.stateOf pid ≠ .top)
    (matched : (scene.content.resultOf pid).matched = true) :
    FullCycle.firstPhase (publishedPids found) pid = eventPhase scene pid := by
  rw [firstPhase_published (facts.alive observed), facts.record observed, ScanContent.record]
  exact firstPhase_settled_rule other matched (resultOf_effectiveState matched)

/-- The states the handler dispatches a process in are that of its first set. -/
theorem firstPhase_of_wanted (facts : ScanFacts scene found pid)
    (observed : ScanContent.Observed scene.content pid) {state : ProcessState}
    (wanted : Wanted scene pid state) : ∃ phase,
    FullCycle.firstPhase (publishedPids found) pid = some phase ∧ state = phase.state := by
  by_cases top : scene.content.stateOf pid = .top
  · have first := firstPhase_of_top facts observed top
    rcases wanted with ⟨-, rfl⟩ | ⟨phase, chosen, rfl⟩
    · exact ⟨.topApp, first, rfl⟩
    · obtain rfl := eventPhase_of_top top chosen
      exact ⟨.topApp, first, rfl⟩
  · rcases wanted with ⟨impossible, -⟩ | ⟨phase, chosen, rfl⟩
    · exact absurd impossible top
    · refine ⟨phase, ?_, rfl⟩
      rw [firstPhase_of_matched facts observed top (matched_of_eventPhase chosen)]
      exact chosen

/-- The handler dispatches a process that a rule matches if it is in a set. -/
theorem dispatched_of_firstPhase (facts : ScanFacts scene found pid)
    (observed : ScanContent.Observed scene.content pid)
    (matched : (scene.content.resultOf pid).matched = true) {phase : ScanPhase}
    (first : FullCycle.firstPhase (publishedPids found) pid = some phase) :
    scene.content.stateOf pid = .top ∨ eventPhase scene pid ≠ none := by
  by_cases top : scene.content.stateOf pid = .top
  · exact .inl top
  · rw [firstPhase_of_matched facts observed top matched] at first
    refine .inr ?_
    rw [first]
    exact Option.some_ne_none phase

/-! ## One batch of events -/

/-- What the handler has done about a new process. -/
structure Handled (scene : EventScene engine) (setup : CycleSetup) (pid : Int)
    (after : FixedWorld) : Prop where
  /-- Every task taken is the task of a live thread, taken by its worker. -/
  good : ∀ handoff ∈ after.accepted, handoff.task.identity.pid = pid → ∃ tid state,
    scene.Live pid tid ∧ Wanted scene pid state ∧
      handoff.task = taskIn scene.toProcContent state pid tid ∧
      handoff.worker = workerIndex setup.hashing setup.workers (scene.identity pid tid)
  /-- The task of every live thread was taken, or a full scan is requested. -/
  whole : after.rescan = true ∨
    (scene.content.stateOf pid = .top ∨ eventPhase scene pid ≠ none →
      ∀ tid, scene.Live pid tid → ∃ handoff ∈ after.accepted, ∃ state,
        Wanted scene pid state ∧ handoff.task = taskIn scene.toProcContent state pid tid)

/-- What was done about a process stays done. -/
theorem Handled.congr {after : FixedWorld} (handled : Handled scene setup pid world)
    (kept : Untouched pid world after) (rescan : world.rescan = true → after.rescan = true) :
    Handled scene setup pid after where
  good handoff taken own := handled.good handoff ((kept handoff own).mp taken) own
  whole := by
    rcases handled.whole with requested | whole
    · exact .inl (rescan requested)
    · refine .inr fun wanted tid live => ?_
      obtain ⟨handoff, taken, state, want, task⟩ := whole wanted tid live
      have own : handoff.task.identity.pid = pid := by
        rw [task]
        rfl
      exact ⟨handoff, (kept handoff own).mpr taken, state, want, task⟩

/-- The dispatch of a fresh process. -/
theorem wp_dispatchFresh (workers : setup.workers ≠ 0) (positive : 0 < pid)
    (fresh : ¬ managed pid)
    (unsent : ∀ handoff ∈ world.accepted, handoff.task.identity.pid ≠ pid) :
    (setup.incrementalDispatch pid).wp (machine scene managed).withSpin
      (fun _ after => Handled scene setup pid after) world := by
  have begun : HandedOver scene.toProcContent setup pid (Wanted scene pid) ∅ world := by
    constructor
    · intro handoff taken own
      exact absurd own (unsent handoff taken)
    · intro tid none
      cases none
  have decides : ∀ middle, (scene.content.stateOf pid ≠ .top → middle = world) →
      (rulePhase pid (scene.content.resultOf pid) (scene.content.stateOf pid)
        (scene.processCmdline pid)).wp (machine scene managed).withSpin
          (fun phase after => after = middle ∧ phase = eventPhase scene pid) middle := by
    intro middle still
    refine Program.wp_mono wp_rulePhase fun phase after reached => ?_
    refine ⟨reached.1, reached.2 fun background => ⟨fresh, ?_⟩⟩
    rw [still (by rw [background]; decide)]
    exact unsent
  have dispatched : (setup.incrementalDispatch pid).wp (machine scene managed).withSpin
      (fun _ after => ∃ processed,
        HandedOver scene.toProcContent setup pid (Wanted scene pid) processed after ∧
        Dispatched scene pid (fun phase => phase = eventPhase scene pid) processed after) world :=
    wp_incrementalDispatch workers positive (fun top => accounts_handedOver (.inl ⟨top, rfl⟩))
      decides (fun phase wanted => accounts_handedOver (.inr ⟨phase, wanted.symm, rfl⟩))
      HandedOver.frame begun
  refine Program.wp_mono dispatched fun _ after reached => ?_
  obtain ⟨processed, handed, ended⟩ := reached
  refine ⟨handed.good, ?_⟩
  rcases ended with requested | dead | ⟨phase, rfl, done⟩
  · exact .inl requested
  · exact .inr fun _ tid live => absurd dead live.processNamed
  · exact .inr fun wanted tid live => handed.sent tid (done wanted tid live.owed) live

/-- The dispatch of another process. -/
theorem wp_dispatchOther (workers : setup.workers ≠ 0) (positive : 0 < other)
    (differ : other ≠ pid) :
    (setup.incrementalDispatch other).wp (machine scene managed).withSpin
      (fun _ after => Untouched pid world after) world := by
  have anything : ∀ middle, (scene.content.stateOf other ≠ .top → middle = world) →
      (rulePhase other (scene.content.resultOf other) (scene.content.stateOf other)
        (scene.processCmdline other)).wp (machine scene managed).withSpin
          (fun _ after => after = middle ∧ True) middle :=
    fun middle _ => Program.wp_mono wp_rulePhase fun phase after reached => ⟨reached.1, trivial⟩
  have dispatched : (setup.incrementalDispatch other).wp (machine scene managed).withSpin
      (fun _ after => ∃ processed, (fun _ after => Untouched pid world after) processed after ∧
        Dispatched scene other (fun _ => True) processed after) world :=
    wp_incrementalDispatch workers positive (fun _ => accounts_untouched differ) anything
      (fun _ _ => accounts_untouched differ) Untouched.frame (fun _ _ => Iff.rfl)
  refine Program.wp_mono dispatched fun _ after reached => ?_
  obtain ⟨processed, kept, -⟩ := reached
  exact kept

/-- Forgetting a process hands nothing over. -/
theorem wp_forgetProcess {post : Unit → FixedWorld → Prop} (holds : post () world) :
    (forgetProcess other).wp (machine scene managed).withSpin post world := by
  rw [forgetProcess, Program.wp_bind]
  intro _ first stepped
  obtain rfl : first = world := stepped
  rw [Program.wp_ret, Program.wp_bind]
  intro _ second stepped
  obtain rfl : second = first := stepped
  rw [Program.wp_ret]
  intro _ third stepped
  obtain rfl : third = second := stepped
  exact holds

/-- Other new processes are dispatched. -/
theorem wp_handleNew_other (workers : setup.workers ≠ 0) (pids : List Int) (absent : pid ∉ pids) :
    (setup.handleNew pids).wp (machine scene managed).withSpin
      (fun _ after => Untouched pid world after) world := by
  induction pids generalizing world with
  | nil => exact fun _ _ => Iff.rfl
  | cons first rest ih =>
    rw [List.mem_cons, not_or] at absent
    rw [CycleSetup.handleNew, Program.wp_ite]
    split
    · next positive =>
      rw [Program.wp_bind]
      apply wp_forgetProcess
      rw [Program.wp_bind]
      refine Program.wp_mono (wp_dispatchOther workers positive (Ne.symm absent.1))
        fun _ middle kept => ?_
      refine Program.wp_mono (ih absent.2) fun _ after still => ?_
      intro handoff own
      exact (still handoff own).trans (kept handoff own)
    · exact ih absent.2

/-- A fresh process is dispatched among others. -/
theorem wp_handleNew (workers : setup.workers ≠ 0) (positive : 0 < pid) (fresh : ¬ managed pid)
    (pids : List Int) (unique : pids.Nodup) (member : pid ∈ pids)
    (unsent : ∀ handoff ∈ world.accepted, handoff.task.identity.pid ≠ pid) :
    (setup.handleNew pids).wp (machine scene managed).withSpin
      (fun _ after => Handled scene setup pid after) world := by
  induction pids generalizing world with
  | nil => exact absurd member List.not_mem_nil
  | cons first rest ih =>
    obtain ⟨apart, unique⟩ := List.nodup_cons.mp unique
    rw [CycleSetup.handleNew, Program.wp_ite]
    by_cases own : pid = first
    · subst own
      rw [if_pos positive, Program.wp_bind]
      apply wp_forgetProcess
      rw [Program.wp_bind]
      refine Program.wp_mono (wp_dispatchFresh workers positive fresh unsent)
        fun _ middle handled => ?_
      refine Program.wp_mono (Program.wp_and (wp_handleNew_other workers rest apart)
        (rescan_kept _)) fun _ after reached => ?_
      exact handled.congr reached.1 reached.2
    · have later : pid ∈ rest := (List.mem_cons.mp member).resolve_left own
      split
      · next other =>
        rw [Program.wp_bind]
        apply wp_forgetProcess
        rw [Program.wp_bind]
        refine Program.wp_mono (wp_dispatchOther workers other (Ne.symm own))
          fun _ middle kept => ?_
        refine ih unique later fun handoff taken same => ?_
        exact unsent handoff ((kept handoff same).mp taken) same
      · exact ih unique later unsent

/-- Forgetting recycled processes hands nothing over. -/
theorem wp_handleRecycled (pids : List Int) {post : Unit → FixedWorld → Prop}
    (holds : post () world) :
    (CycleSetup.handleRecycled pids).wp (machine scene managed).withSpin post world := by
  induction pids with
  | nil => exact holds
  | cons first rest ih =>
    rw [CycleSetup.handleRecycled, Program.wp_bind]
    exact wp_forgetProcess ih

/-- Forgetting dead processes hands nothing over. -/
theorem wp_handleDead (pids : List Int) {post : Unit → FixedWorld → Prop}
    (holds : post () world) :
    (CycleSetup.handleDead pids).wp (machine scene managed).withSpin post world := by
  induction pids with
  | nil => exact holds
  | cons first rest ih =>
    rw [CycleSetup.handleDead, Program.wp_bind]
    intro _ middle stepped
    obtain rfl : middle = world := stepped
    rw [Program.wp_ret, Program.wp_bind]
    intro _ after stepped
    obtain rfl : after = middle := stepped
    rw [Program.wp_ret]
    exact ih

/-- The handler of a batch deals with a fresh process in it. -/
theorem wp_handle (workers : setup.workers ≠ 0) (positive : 0 < pid) (fresh : ¬ managed pid)
    {call : HandlerCall} (called : pid ∈ call.newPids)
    (unsent : ∀ handoff ∈ world.accepted, handoff.task.identity.pid ≠ pid) :
    (setup.handle call).wp (machine scene managed).withSpin
      (fun _ after => Handled scene setup pid after) world := by
  have dropped : (CycleSetup.handleDropped call.eventsDropped).wp
      (machine scene managed).withSpin (fun _ after => after.accepted = world.accepted) world := by
    rw [CycleSetup.handleDropped, Program.wp_ite]
    split
    · rw [wp_asHandlerOp, ProcContent.wp_requestRescan]
      rfl
    · exact rfl
  have sorted : remainingPids call.newPids {} = call.newPids.sort (· ≤ ·) :=
    if_neg (lt_irrefl 0)
  rw [CycleSetup.handle, Program.wp_bind]
  refine Program.wp_mono dropped fun _ middle same => ?_
  rw [← same] at unsent
  rw [Program.wp_bind]
  apply wp_handleRecycled
  rw [Program.wp_bind, sorted]
  refine Program.wp_mono (wp_handleNew workers positive fresh _ (Finset.sort_nodup _ _)
    ((Finset.mem_sort _).mpr called) unsent) fun _ after handled => ?_
  exact wp_handleDead _ handled

/-! ## Agreement -/

/-- What a finished scan says of a fresh process whose groups are not ReUperf's. -/
theorem scanFacts {priorStates : Table Int (Nat × ProcessState)} {initial middle last : ScanWorld}
    {scan : FullScanState} {fuel : Nat}
    (scanned : scene.content.Reaches priorStates initial scan middle)
    (finished : Program.Run scene.content.machine.withSpin (advanceFullScan fuel scan) middle
      (true, found) last) (listed : pid ∈ scene.content.pidList)
    (visible : (scene.cgroup pid).reuperfOwned = false)
    (unmanaged : pid ∉ initial.cache.getPidsWithBaselines) : ScanFacts scene found pid := by
  obtain ⟨-, stands⟩ := scanned.between
  obtain ⟨whole, -⟩ := (finished.post (ScanContent.wp_advanceFullScan fuel stands)).1 rfl
  have whole : found = scene.content.scanned (.beginFrom initial.cache priorStates)
      scene.content.pidList.length := whole
  constructor
  · intro observed
    rw [whole, ScanContent.recordOf_scanned visible observed listed, decide_eq_false unmanaged]
  · intro observed
    rw [whole]
    exact ScanContent.not_dead_scanned observed.named

/-- A live thread is one of a process that a scan reads. -/
theorem observed_of_live {tid : Int} (live : scene.Live pid tid) :
    ScanContent.Observed scene.content pid :=
  ⟨live.processStarted, live.processNamed⟩

/-- The handler treats a fresh process as every full cycle does, whatever else is in its batch:
the tasks it hands over are tasks that the cycle hands over, to the same workers and in the same
states, and if a rule matches the process they are all of them, or a full scan is requested. -/
theorem treatsAlike (workers : setup.workers ≠ 0) {cycleLog : List Handoff}
    (cycle : FullCycleOf scene setup managed cycleLog) (listed : pid ∈ scene.content.pidList)
    (visible : (scene.cgroup pid).reuperfOwned = false) (fresh : ¬ managed pid)
    {call : HandlerCall} (called : pid ∈ call.newPids)
    (unsent : ∀ handoff ∈ world.accepted, handoff.task.identity.pid ≠ pid) {after : FixedWorld}
    (run : Program.Run (machine scene managed).withSpin (setup.handle call) world () after) :
    TreatsAlike scene cycleLog pid after := by
  obtain @⟨_, initial, middle, last, scan, found, _, _, current, _, cycleWorld, known, scanned,
    finished, inactive, opened, dispatched, published, closed⟩ := cycle
  have unmanaged := fun baseline => fresh (known pid baseline)
  have facts := scanFacts scanned finished listed visible unmanaged
  have settled := dispatched.settled workers inactive opened
  have once := settled.closed closed
  obtain ⟨processed, ledger⟩ := settled.booked closed
  rw [published] at once ledger
  have positive : 0 < pid := by
    obtain ⟨count, found⟩ := List.mem_iff_getElem?.mp listed
    exact ScanContent.pos_of_found found
  have handled := run.post (wp_handle workers positive fresh called unsent)
  constructor
  · intro handoff taken own
    obtain ⟨tid, state, live, wanted, task, worker⟩ := handled.good handoff taken own
    obtain ⟨phase, first, rfl⟩ := firstPhase_of_wanted facts (observed_of_live live) wanted
    obtain ⟨result, single⟩ := once pid tid phase first live
    refine ⟨FullCycle.handoffFor scene.toProcContent setup (publishedPids found) phase pid tid result,
      ?_, ?_, ?_⟩
    · rw [task]
      exact single
    · rw [worker]
      rfl
    · rw [task]
      rfl
  · intro matched
    rcases handled.whole with requested | whole
    · exact .inl requested
    · refine .inr fun other inLog took own => ?_
      obtain ⟨owner, tid, phase, first, live, eq⟩ :=
        ledger.good other (List.mem_filter.mpr ⟨inLog, took⟩)
      obtain rfl : owner = pid := by
        rw [← own, eq]
        rfl
      have observed := observed_of_live live
      obtain ⟨handoff, taken, state, wanted, task⟩ :=
        whole (dispatched_of_firstPhase facts observed matched first) tid live
      obtain ⟨same, again, rfl⟩ := firstPhase_of_wanted facts observed wanted
      obtain rfl := Option.some.inj (first.symm.trans again)
      refine ⟨handoff, taken, ?_⟩
      rw [task, eq]
      rfl

/-! ## A promoted process -/

/-- An engine whose expressions are found in every text. -/
def everywhere : RegexEngine := ⟨Unit, fun _ _ => some (), fun _ _ => some true⟩

/-- One process in the foreground, which a rule promotes to the top. -/
def promoted : EventScene everywhere where
  toProcSnapshot := FullCycle.lonely
  entries := [Bytes.ascii "7"]
  cgroup _ := ⟨.fg, false⟩
  config := { sched := { rules := [{ name := Bytes.ascii "Games", topfore := true }] } }

/-- The sets of a scan. -/
def setsOf (pids : ScanPhase → Finset Int) : List (Finset Int) := scanPhases.map pids

/-- The list of the sets tells each of them. -/
theorem sets_eq {left right : ScanPhase → Finset Int} (same : setsOf left = setsOf right) :
    left = right := by
  funext phase
  have member : phase ∈ scanPhases := by cases phase <;> decide
  exact List.map_inj_left.mp same phase member

/-- The sets the process is in. -/
def promotedPids (phase : ScanPhase) : Finset Int :=
  if phase = .topfore ∨ phase = .foreground then {7} else ∅

/-- The answers of a handler that nothing hinders. -/
def answer (scene : EventScene engine) : FixedWorld → (operation : HandlerOp) →
    Option (HandlerSig.Res operation × FixedWorld)
  | world, .cgroupStateInfo pid => some (scene.cgroup pid, world)
  | world, .matchProcess pid procName state cmdline =>
    some (scene.content.matchProcess pid procName state cmdline, world)
  | world, .hasBaselineForPid _ => some (false, world)
  | world, .resetForPid _ => some ((), world)
  | world, .forgetState _ => some ((), world)
  | world, .invalidateCaches _ => some ((), world)
  | world, .beginBudget => some ((), world)
  | world, .dispatch operation => scene.answer (fun _ => false) world operation

/-- The answers are possible. -/
theorem step_of_answer {operation : HandlerOp} {response : HandlerSig.Res operation}
    {after : FixedWorld} (answered : answer scene world operation = some (response, after)) :
    (machine scene managed).step world operation response after := by
  cases operation with
  | dispatch operation =>
    have answered : scene.toProcContent.answer (fun _ => false) world operation =
        some (response, after) := answered
    exact ProcContent.step_of_answer (fun _ => trivial) answered
  | cgroupStateInfo pid | matchProcess pid procName state cmdline =>
    cases answered
    exact ⟨rfl, rfl⟩
  | hasBaselineForPid pid =>
    cases answered
    exact ⟨fun impossible => absurd impossible Bool.false_ne_true, rfl⟩
  | resetForPid pid | forgetState pid | invalidateCaches pid | beginBudget =>
    cases answered
    exact rfl

/-- The directories of the promoted process in their order. -/
theorem lists_promoted : promoted.content.Lists promoted.entries
    fun pid => (promoted.tasks pid).getD [] where
  proc := .refl _
  task pid names found := by
    have found : promoted.tasks pid = some names := found
    rw [found, Option.getD_some]

/-- A full cycle dispatches the promoted process. -/
theorem fullCycleOf_promoted : ∃ cycleLog,
    FullCycleOf promoted FullCycle.lonelySetup (fun _ => False) cycleLog ∧
      cycleLog.map (fun handoff => (handoff.task.identity.key, handoff.task.state)) =
        [((7, 7), .top)] := by
  have scans : ((advanceFullScan 5 (.beginFrom ∅ ∅)).exec (Looping.respondWithSpin
      (promoted.content.answer promoted.entries fun pid => (promoted.tasks pid).getD [])) {}).map
        (fun found => (found.1.1, setsOf (publishedPids found.1.2))) =
      some (true, setsOf promotedPids) := by decide +kernel
  have closes : (Program.exec (S := CycleSig.withSpin)
      (Looping.respondWithSpin (FullCycle.answer promoted.toProcContent promotedPids))
      (FullCycle.lonelySetup.scanIteration {}) {}).map
        (fun found => (found.2.closed, setsOf found.1.cachedPids,
          found.2.log.map fun handoff => (handoff.task.identity.key, handoff.task.state))) =
      some (true, setsOf promotedPids, [((7, 7), .top)]) := by decide +kernel
  obtain ⟨⟨⟨finished, found⟩, last⟩, scanned, seen⟩ := Option.map_eq_some_iff.mp scans
  obtain ⟨complete, published⟩ := Prod.mk.inj seen
  obtain rfl : finished = true := complete
  obtain ⟨⟨current, after⟩, executed, seen⟩ := Option.map_eq_some_iff.mp closes
  obtain ⟨closed, seen⟩ := Prod.mk.inj seen
  obtain ⟨cached, log⟩ := Prod.mk.inj seen
  have positive : ∀ phase, ∀ pid ∈ promotedPids phase, 0 < pid := by
    intro phase pid member
    rw [promotedPids] at member
    split at member
    · rw [Finset.mem_singleton.mp member]
      decide
    · cases member
  have finishes : Program.Run promoted.content.machine.withSpin
      (advanceFullScan 5 (.beginFrom ∅ ∅)) {} (true, found) last :=
    Looping.run_of_exec (ScanContent.step_of_answer lists_promoted) scanned
  have iterates : FullCycle.Reaches promoted.toProcContent FullCycle.lonelySetup {} {} current
      after :=
    .iterate .start (Program.run_of_exec (FullCycle.step_of_answer positive) executed)
  have sets : current.cachedPids = publishedPids found :=
    (sets_eq cached).trans (sets_eq published).symm
  have known : ∀ pid ∈ (∅ : ThreadCache).getPidsWithBaselines, False := by
    intro pid member
    cases member
  have begins : promoted.content.Reaches ∅ {} (.beginFrom ∅ ∅) {} := .start
  have inactive : ({} : CycleState).fullCycleActive = false := rfl
  have opened : ({} : FixedWorld).closed = false := rfl
  have cycle : FullCycleOf promoted FullCycle.lonelySetup (fun _ => False) after.log :=
    .closed known begins finishes inactive opened iterates sets closed
  exact ⟨after.log, cycle, log⟩

/-- The handler and a full cycle dispatch the promoted process in the same state. -/
theorem treatsAlike_promoted : ∃ (cycleLog : List Handoff) (after : FixedWorld),
    after.accepted.map (fun handoff => (handoff.task.identity.key, handoff.task.state)) =
      [((7, 7), .top)] ∧ TreatsAlike promoted cycleLog 7 after := by
  have handles : ((FullCycle.lonelySetup.handle { newPids := {7} }).exec
      (Looping.respondWithSpin (answer promoted)) {}).map (fun found => found.2.accepted.map
        fun handoff => (handoff.task.identity.key, handoff.task.state)) =
      some [((7, 7), .top)] := by decide +kernel
  obtain ⟨⟨_, after⟩, executed, log⟩ := Option.map_eq_some_iff.mp handles
  obtain ⟨cycleLog, cycle, -⟩ := fullCycleOf_promoted
  exact ⟨cycleLog, after, log, treatsAlike (by decide) cycle (by decide +kernel) rfl not_false
    (Finset.mem_singleton_self 7) (fun handoff taken => by cases taken)
    (Looping.run_of_exec step_of_answer executed)⟩

end EventPath

end ReUperf
