import ReUperf.Verif.FixedProc

/-!
# Full cycles

A full cycle may take many iterations of the main loop: the scan and each of the five dispatches
may stop for want of budget or of room in a queue. The module proves that on a `/proc` that does
not change, a cycle that is closed has handed over every live thread of the five sets of
processes exactly once, to the worker of its identity and with the state of the first set its
process is in.
-/

namespace ReUperf

open Effect FileUtils Main

/-- The contents of `/proc`, where the kernel gives every thread ID to one thread. -/
structure ProcSnapshot extends ProcContent where
  /-- A thread ID is listed for one process. -/
  tid_unique : ∀ {pid other tid}, tid ∈ toProcContent.threads pid →
    tid ∈ toProcContent.threads other → pid = other

namespace FullCycle

variable (proc : ProcContent) (setup : CycleSetup)

/-! ## The machine -/

/-- The budget of a dispatch may end at any time. -/
def anyTime : ProcContent.ExhaustionRule := fun _ _ => True

/-- One operation of the main loop on a fixed `/proc`. A full rescan may be requested at any
time. The log lists the tasks handed over since the last cycle began. -/
def Step : FixedWorld → (operation : CycleOp) → CycleSig.Res operation → FixedWorld → Prop
  | world, .exchangeRescan, response, after =>
    (world.rescan = true → response = true) ∧
      after = { world with rescan := false, closed := false }
  | world, .fullScanDue, _, after => after = world
  | world, .beginBudget _, _, after => after = world
  | world, .beginScan, _, after => after = { world with log := [] }
  | world, .advanceScan, _, after => after = world
  | world, .publishScan, response, after =>
    (∀ phase, ∀ pid ∈ response phase, 0 < pid) ∧ after = world
  | world, .endCycle, _, after => after = { world with closed := true }
  | world, .dispatch operation, response, after => proc.Step anyTime world operation response after

/-- The machine of the main loop on a fixed `/proc`. -/
def machine : Machine CycleSig FixedWorld where
  step := Step proc

/-- The states a main loop can reach from one without an active cycle. -/
inductive Reaches (cycle : CycleState) (world : FixedWorld) : CycleState → FixedWorld → Prop where
  /-- No iteration. -/
  | start : Reaches cycle world cycle world
  /-- One more iteration. -/
  | iterate {current next : CycleState} {middle after : FixedWorld}
      (reached : Reaches cycle world current middle)
      (run : Program.Run (machine proc).withSpin (setup.scanIteration current) middle next after) :
      Reaches cycle world next after

/-! ## What a closed cycle has done -/

/-- The first set a process is in, in the order of dispatch. -/
def firstPhase (pids : ScanPhase → Finset Int) (pid : Int) : Option ScanPhase :=
  scanPhases.find? fun phase => pid ∈ pids phase

/-- The task a worker gets for a thread. -/
def handoffFor (pids : ScanPhase → Finset Int) (phase : ScanPhase) (pid tid : Int)
    (result : EnqueueResult) : Handoff :=
  ⟨workerIndex setup.hashing setup.workers (proc.identity pid tid),
    proc.taskFor (phase.request setup.hashing setup.workers (pids phase)) pid tid, result⟩

/-- Every live thread of the processes was taken by its worker once, with the state of the first
set of its process. -/
def ExactlyOnce (pids : ScanPhase → Finset Int) (log : List Handoff) : Prop :=
  ∀ pid tid phase, firstPhase pids pid = some phase → proc.Live pid tid →
    ∃ result, (log.filter fun handoff =>
        handoff.isAccepted && decide (handoff.task.identity.key = (pid, tid))) =
      [handoffFor proc setup pids phase pid tid result]

/-! ## The ledger -/

variable {proc setup} {pids : ScanPhase → Finset Int}

/-- The tasks taken are those of the threads dispatched. -/
structure Ledger (proc : ProcContent) (setup : CycleSetup) (pids : ScanPhase → Finset Int)
    (processed : Finset Int) (world : FixedWorld) : Prop where
  /-- Every task taken is the task of a live thread. -/
  good : ∀ handoff ∈ world.accepted, ∃ pid tid phase, firstPhase pids pid = some phase ∧
    proc.Live pid tid ∧ handoff = handoffFor proc setup pids phase pid tid handoff.result
  /-- Every dispatched thread had its task taken once. -/
  once : ∀ tid, (world.accepted.filter fun handoff => handoff.task.identity.tid = tid).length =
    if tid ∈ processed then 1 else 0

/-- The threads of the first sets are dispatched. -/
def DoneFor (proc : ProcContent) (pids : ScanPhase → Finset Int) (phases : List ScanPhase)
    (processed : Finset Int) : Prop :=
  ∀ phase ∈ phases, ∀ pid ∈ pids phase, proc.Done anyTime processed pid

/-- The first set of a process is one of the sets, and the process is in it. -/
theorem firstPhase_member {phase : ScanPhase} {pid : Int}
    (first : firstPhase pids pid = some phase) : phase ∈ scanPhases ∧ pid ∈ pids phase := by
  rw [firstPhase] at first
  have inside := List.find?_some first
  exact ⟨List.mem_of_find?_eq_some first, of_decide_eq_true inside⟩

/-- A process with a thread that is not dispatched is in no set dispatched before. -/
theorem firstPhase_eq {taken rest : List ScanPhase} {phase : ScanPhase} {pid tid : Int}
    {processed : Finset Int} (split : scanPhases = taken ++ phase :: rest)
    (done : DoneFor proc pids taken processed) (member : pid ∈ pids phase)
    (live : proc.Live pid tid) (fresh : tid ∉ processed) : firstPhase pids pid = some phase := by
  have before : taken.find? (fun phase => decide (pid ∈ pids phase)) = none := by
    rw [List.find?_eq_none]
    intro earlier listed inside
    exact fresh (done earlier listed pid (of_decide_eq_true inside) tid live.owed)
  rw [firstPhase, split, List.find?_append, before, Option.none_or, List.find?_cons_of_pos]
  exact decide_eq_true member

/-- Handing over a thread keeps the ledger. -/
theorem accounts {taken rest : List ScanPhase} {phase : ScanPhase}
    (split : scanPhases = taken ++ phase :: rest) :
    proc.Accounts anyTime (phase.request setup.hashing setup.workers (pids phase))
      (fun processed world => Ledger proc setup pids processed world ∧
        DoneFor proc pids taken processed) where
  frame := by
    rintro processed world after ⟨⟨good, once⟩, done⟩ same
    exact ⟨⟨by rw [same]; exact good, by rw [same]; exact once⟩, done⟩
  sent := by
    rintro processed world pid tid result ⟨⟨good, once⟩, done⟩ member live fresh passable took
    have first := firstPhase_eq split done member live fresh
    have taken : Handoff.isAccepted (handoffFor proc setup pids phase pid tid result) = true := by
      rcases took with rfl | rfl <;> rfl
    have more := FixedWorld.accepted_append world taken
    change Ledger proc setup pids (insert tid processed) { world with
      log := world.log ++ [handoffFor proc setup pids phase pid tid result] } ∧ _
    refine ⟨⟨?_, ?_⟩, fun earlier listed other inside number alive =>
      Finset.mem_insert_of_mem (done earlier listed other inside number alive)⟩
    · rw [more]
      intro handoff listed
      rcases List.mem_append.mp listed with earlier | last
      · exact good handoff earlier
      · obtain rfl := List.mem_singleton.mp last
        exact ⟨pid, tid, phase, first, live, rfl⟩
    · intro number
      rw [more, List.filter_append, List.length_append, once number]
      by_cases same : tid = number
      · subst same
        have this : (handoffFor proc setup pids phase pid tid result).task.identity.tid = tid := rfl
        simp [fresh, this]
      · have other : (handoffFor proc setup pids phase pid tid result).task.identity.tid ≠ number :=
          same
        simp [other, Ne.symm same]

/-- When the threads of all sets are dispatched, the ledger says that each was taken once. -/
theorem exactlyOnce_of_ledger {proc : ProcSnapshot} {processed : Finset Int} {world : FixedWorld}
    (ledger : Ledger proc.toProcContent setup pids processed world)
    (done : DoneFor proc.toProcContent pids scanPhases processed) :
    ExactlyOnce proc.toProcContent setup pids world.log := by
  intro pid tid phase first live
  obtain ⟨among, inside⟩ := firstPhase_member first
  have sent := done phase among pid inside tid live.owed
  have single := ledger.once tid
  rw [if_pos sent, List.length_eq_one_iff] at single
  obtain ⟨handoff, single⟩ := single
  have ofTid : ∀ other ∈ world.accepted, other.task.identity.tid = tid →
      other = handoffFor proc.toProcContent setup pids phase pid tid other.result := by
    intro other listed same
    obtain ⟨owner, number, stage, found, alive, eq⟩ := ledger.good other listed
    have number_eq : number = tid := by
      rw [← same, eq]
      rfl
    subst number_eq
    obtain rfl := proc.tid_unique alive.listed live.listed
    obtain rfl := Option.some.inj (found.symm.trans first)
    exact eq
  have listed : handoff ∈ world.accepted ∧ handoff.task.identity.tid = tid := by
    have member : handoff ∈ world.accepted.filter fun other => other.task.identity.tid = tid := by
      rw [single]
      exact List.mem_singleton_self handoff
    exact ⟨List.mem_of_mem_filter member, by simpa using List.of_mem_filter member⟩
  refine ⟨handoff.result, ?_⟩
  rw [← ofTid handoff listed.1 listed.2, ← single, FixedWorld.accepted, List.filter_filter]
  refine List.filter_congr fun other inLog => ?_
  cases took : other.isAccepted with
  | false => simp
  | true =>
    have accepted : other ∈ world.accepted := List.mem_filter.mpr ⟨inLog, took⟩
    have keys : other.task.identity.key = (pid, tid) ↔ other.task.identity.tid = tid := by
      constructor
      · exact fun same => congrArg Prod.snd same
      · intro same
        rw [ofTid other accepted same]
        rfl
    simp [keys]

/-! ## One iteration -/

variable {cycle : CycleState} {world : FixedWorld}

/-- A dispatch does in the main loop what it does alone. -/
theorem wp_liftDispatch {α : Type} {program : DispatchProgram α} {post : α → FixedWorld → Prop} :
    (liftDispatch program).wp (machine proc).withSpin post world ↔
      program.wp (proc.machine anyTime).withSpin post world :=
  Looping.wp_interpret_rename (fun _ _ _ => Iff.rfl) program post world

/-- A dispatch does not close a cycle. -/
theorem dispatch_keeps_closed {α : Type} (program : DispatchProgram α) :
    program.wp (proc.machine anyTime).withSpin (fun _ after => after.closed = world.closed) world := by
  refine Program.wp_of_step (fun state : FixedWorld => state.closed = world.closed) ?_ rfl
  intro state operation response after same stepped
  cases operation with
  | none => exact response.elim
  | some operation => rw [ProcContent.closed_of_step stepped, same]

/-- What the sets dispatched so far and the next set have in common. -/
structure Dispatching (proc : ProcContent) (setup : CycleSetup) (cycle : CycleState)
    (world : FixedWorld) : Prop where
  /-- The sets are sets of processes. -/
  positive : ∀ phase, ∀ pid ∈ cycle.cachedPids phase, 0 < pid
  /-- The tasks taken are those of the threads dispatched. -/
  ledger : Ledger proc setup cycle.cachedPids cycle.processedTids world
  /-- The threads of the sets before are dispatched. -/
  done : DoneFor proc cycle.cachedPids (scanPhases.take cycle.fullScanPhase) cycle.processedTids
  /-- The dispatch of the next set stands somewhere among its processes. -/
  standing : ∀ phase rest, scanPhases.drop cycle.fullScanPhase = phase :: rest →
    ProcContent.Standing proc anyTime (phase.request setup.hashing setup.workers (cycle.cachedPids phase)) world
      ⟨cycle.cursor phase, cycle.processedTids⟩
  /-- The dispatch of the sets after it has not begun. -/
  fresh : ∀ phase rest, scanPhases.drop cycle.fullScanPhase = phase :: rest →
    ∀ later ∈ rest, cycle.cursor later = {}

theorem wp_asExhausted {post : Bool → FixedWorld → Prop} :
    (asCycleOp .exhausted).wp (machine proc).withSpin post world ↔
      ∀ answer, post answer world := by
  constructor
  · exact fun holds answer => holds answer world ⟨trivial, rfl⟩
  · rintro holds answer _ ⟨-, rfl⟩
    exact holds answer

theorem wp_asRequestRescan {post : Unit → FixedWorld → Prop} :
    (asCycleOp .requestRescan).wp (machine proc).withSpin post world ↔
      post () { world with rescan := true } := by
  constructor
  · exact fun holds => holds () _ rfl
  · rintro holds _ _ rfl
    exact holds

/-- The dispatch of the sets keeps the account of what was dispatched. -/
theorem wp_dispatchPhases (workers : setup.workers ≠ 0) (phases : List ScanPhase)
    (left : scanPhases.drop cycle.fullScanPhase = phases)
    (dispatching : Dispatching proc setup cycle world) :
    (setup.dispatchPhases phases cycle).wp (machine proc).withSpin
      (fun found after => Dispatching proc setup found.2 after ∧
        found.2.fullCycleActive = cycle.fullCycleActive ∧
        found.2.scanActive = cycle.scanActive ∧ after.closed = world.closed) world := by
  induction phases generalizing cycle world with
  | nil =>
    rw [CycleSetup.dispatchPhases, Program.wp_bind, wp_asExhausted]
    exact fun _ => ⟨dispatching, rfl, rfl, rfl⟩
  | cons phase rest ih =>
    have split : scanPhases = scanPhases.take cycle.fullScanPhase ++ phase :: rest := by
      rw [← left, List.take_append_drop]
    obtain ⟨taken, dropped⟩ := ProcContent.take_succ_of_drop left
    have others : ∀ later ∈ rest, later ≠ phase := by
      have distinct : scanPhases.Nodup := by decide
      rw [split] at distinct
      have apart := (List.nodup_cons.mp (List.nodup_append.mp distinct).2.1).1
      intro later member same
      exact apart (same ▸ member)
    rw [CycleSetup.dispatchPhases, Program.wp_bind, wp_asExhausted]
    intro ended
    rw [Program.wp_ite]
    split
    · exact ⟨dispatching, rfl, rfl, rfl⟩
    rw [Program.wp_bind, CycleSetup.dispatchSet, wp_liftDispatch]
    have dispatched := ProcContent.wp_dispatchPidsToWorkers (accounts split) setup.fuel
      (dispatching.positive phase) workers (dispatching.standing phase rest left)
      ⟨dispatching.ledger, dispatching.done⟩
    refine Program.wp_mono (Program.wp_and dispatched (dispatch_keeps_closed _))
      fun found after reached => ?_
    obtain ⟨incomplete, dispatch⟩ := found
    obtain ⟨⟨⟨ledger, done⟩, grows, standing, finished⟩, closed⟩ := reached
    dsimp only
    cases incomplete with
    | true =>
      rw [if_pos rfl]
      refine ⟨⟨dispatching.positive, ledger, done, ?_, ?_⟩, rfl, rfl, closed⟩
      · intro next remaining same
        obtain ⟨rfl, rfl⟩ := List.cons.inj (left.symm.trans same)
        dsimp only
        rw [Function.update_self]
        exact standing rfl
      · intro next remaining same later member
        obtain ⟨rfl, rfl⟩ := List.cons.inj (left.symm.trans same)
        dsimp only
        rw [Function.update_of_ne (others later member)]
        exact dispatching.fresh _ _ left later member
    | false =>
      rw [if_neg Bool.false_ne_true, ← closed]
      refine ih dropped ⟨dispatching.positive, ledger, ?_, ?_, ?_⟩
      · dsimp only
        rw [taken]
        intro earlier member
        rcases List.mem_append.mp member with before | last
        · exact done earlier before
        · obtain rfl := List.mem_singleton.mp last
          exact finished rfl
      · intro next remaining same
        have member : next ∈ rest := by
          rw [← dropped, same]
          exact List.mem_cons_self
        dsimp only
        rw [Function.update_of_ne (others next member),
          dispatching.fresh _ _ left next member]
        exact ProcContent.standing_fresh (dispatching.positive next) _
      · intro next remaining same later member
        have member : later ∈ rest := by
          rw [← dropped, same]
          exact List.mem_cons_of_mem _ member
        dsimp only
        rw [Function.update_of_ne (others later member)]
        exact dispatching.fresh _ _ left later member

/-- What holds while the scan of a cycle goes on. -/
structure Scanning (cycle : CycleState) (world : FixedWorld) : Prop where
  /-- No set is dispatched. -/
  phase : cycle.fullScanPhase = 0
  /-- No dispatch has begun. -/
  fresh : ∀ phase, cycle.cursor phase = {}
  /-- No thread is dispatched. -/
  processed : cycle.processedTids = ∅
  /-- No task was handed over. -/
  log : world.log = []

/-- What holds while a full cycle is active. -/
structure Active (proc : ProcContent) (setup : CycleSetup) (cycle : CycleState)
    (world : FixedWorld) : Prop where
  /-- The cycle is active. -/
  active : cycle.fullCycleActive = true
  /-- The scan goes on. -/
  scanning : cycle.scanActive = true → Scanning cycle world
  /-- The scan has ended. -/
  dispatching : cycle.scanActive = false → Dispatching proc setup cycle world
  /-- The cycle is not closed. -/
  closed : world.closed = false

/-- What holds between two iterations. -/
structure Between (proc : ProcContent) (setup : CycleSetup) (cycle : CycleState)
    (world : FixedWorld) : Prop where
  /-- An active cycle is gone on with by the next iteration. -/
  pending : cycle.fullCycleActive = true → world.rescan = true
  /-- The active cycle. -/
  active : cycle.fullCycleActive = true → Active proc setup cycle world
  /-- A closed cycle. -/
  closed : world.closed = true → ExactlyOnce proc setup cycle.cachedPids world.log

/-- What holds between two iterations, with the account of a closed cycle. -/
structure Settled (proc : ProcContent) (setup : CycleSetup) (cycle : CycleState)
    (world : FixedWorld) : Prop extends Between proc setup cycle world where
  /-- The tasks taken are those of the threads dispatched. -/
  booked : world.closed = true → ∃ processed, Ledger proc setup cycle.cachedPids processed world

/-- A cycle whose scan has ended has dispatched nothing. -/
theorem dispatching_of_scanning {pids : ScanPhase → Finset Int}
    (positive : ∀ phase, ∀ pid ∈ pids phase, 0 < pid) (scanning : Scanning cycle world) :
    Dispatching proc setup { cycle with cachedPids := pids, scanActive := false } world where
  positive := positive
  ledger := by
    constructor
    · intro handoff listed
      rw [FixedWorld.accepted, scanning.log] at listed
      cases listed
    · intro tid
      dsimp only
      rw [FixedWorld.accepted, scanning.log, scanning.processed]
      rfl
  done phase member := by
    dsimp only at member
    rw [scanning.phase] at member
    cases member
  standing phase rest left := by
    dsimp only
    rw [scanning.fresh phase]
    exact ProcContent.standing_fresh (positive phase) _
  fresh phase rest left later member := scanning.fresh later

/-- Only the directories and the tasks handed over matter to the dispatch of the sets. -/
theorem Dispatching.congr {after : FixedWorld} (dispatching : Dispatching proc setup cycle world)
    (streams : after.streams = world.streams) (log : after.log = world.log) :
    Dispatching proc setup cycle after where
  positive := dispatching.positive
  ledger := by
    have same : after.accepted = world.accepted := congrArg (List.filter _) log
    constructor
    · rw [same]
      exact dispatching.ledger.good
    · rw [same]
      exact dispatching.ledger.once
  done := dispatching.done
  standing phase rest left := by
    have standing := dispatching.standing phase rest left
    exact { standing with stands := standing.stands.congr_streams streams }
  fresh := dispatching.fresh

/-- Requesting a rescan keeps an active cycle. -/
theorem Active.request (active : Active proc setup cycle world) :
    Active proc setup cycle { world with rescan := true } where
  active := active.active
  scanning scans := { active.scanning scans with log := (active.scanning scans).log }
  dispatching ended := (active.dispatching ended).congr rfl rfl
  closed := active.closed

/-- An active cycle survives the start of an iteration. -/
theorem Active.exchange (active : Active proc setup cycle world) :
    Active proc setup cycle { world with rescan := false, closed := false } where
  active := active.active
  scanning scans := { active.scanning scans with log := (active.scanning scans).log }
  dispatching ended := (active.dispatching ended).congr rfl rfl
  closed := rfl

/-- Forgetting cursors changes nothing else. -/
theorem wp_resetCursors (phases : List ScanPhase) :
    (CycleSetup.resetCursors phases cycle).wp (machine proc).withSpin
      (fun next after => after = world ∧ (∀ phase ∈ phases, next.cursor phase = {}) ∧
        (∀ phase, cycle.cursor phase = {} → next.cursor phase = {}) ∧
        next = { cycle with cursor := next.cursor }) world := by
  induction phases generalizing cycle with
  | nil => exact ⟨rfl, by simp, fun _ fresh => fresh, rfl⟩
  | cons phase rest ih =>
    rw [CycleSetup.resetCursors, Program.wp_bind, wp_liftDispatch, ProcContent.wp_reset]
    refine Program.wp_mono ih fun next after reached => ?_
    obtain ⟨same, fresh, kept, shape⟩ := reached
    refine ⟨same, ?_, ?_, shape⟩
    · intro other member
      rcases List.mem_cons.mp member with own | later
      · refine kept other ?_
        rw [own]
        exact Function.update_self ..
      · exact fresh other later
    · intro other none
      refine kept other ?_
      by_cases own : other = phase
      · rw [own]
        exact Function.update_self ..
      · dsimp only
        rw [Function.update_of_ne own]
        exact none

/-- A cycle begins with its scan. -/
theorem wp_ensureCycle (closed : world.closed = false)
    (active : cycle.fullCycleActive = true → Active proc setup cycle world) :
    (CycleSetup.ensureCycle cycle).wp (machine proc).withSpin (Active proc setup) world := by
  rw [CycleSetup.ensureCycle, Program.wp_ite]
  split
  · next running => exact active running
  rw [CycleSetup.beginCycle, Program.wp_bind]
  refine Program.wp_mono (wp_resetCursors scanPhases) fun next middle reached => ?_
  obtain ⟨rfl, fresh, -, shape⟩ := reached
  rw [Program.wp_bind]
  intro _ after stepped
  obtain rfl : after = { middle with log := [] } := stepped
  rw [shape]
  constructor
  · rfl
  · intro _
    constructor
    · rfl
    · intro phase
      exact fresh phase (by cases phase <;> decide)
    · rfl
    · rfl
  · intro ended
    cases ended
  · exact closed

/-- A scan that ends publishes the sets to be dispatched. -/
theorem wp_ensureScan (active : Active proc setup cycle world) :
    (CycleSetup.ensureScan cycle).wp (machine proc).withSpin (Active proc setup) world := by
  rw [CycleSetup.ensureScan, Program.wp_ite]
  split
  · next scans =>
    rw [CycleSetup.continueScan, Program.wp_bind]
    intro finished middle stepped
    obtain rfl : middle = world := stepped
    rw [Program.wp_ret, Program.wp_ite]
    split
    · rw [Program.wp_bind]
      intro pids after published
      obtain ⟨positive, rfl⟩ : (∀ phase, ∀ pid ∈ pids phase, 0 < pid) ∧ after = middle := published
      exact ⟨active.active, fun running => absurd running Bool.false_ne_true,
        fun _ => dispatching_of_scanning positive (active.scanning scans), active.closed⟩
    · rw [Program.wp_bind, wp_asRequestRescan]
      exact active.request
  · exact active

/-- The dispatch of a cycle keeps it active. -/
theorem wp_dispatchCycle (workers : setup.workers ≠ 0) (active : Active proc setup cycle world) :
    (setup.dispatchCycle cycle).wp (machine proc).withSpin
      (fun found after => Active proc setup found.2 after) world := by
  rw [CycleSetup.dispatchCycle, Program.wp_ite]
  split
  · exact active
  · next ended =>
    have ended : cycle.scanActive = false := by simpa using ended
    refine Program.wp_mono (wp_dispatchPhases workers _ rfl (active.dispatching ended))
      fun found after reached => ?_
    obtain ⟨dispatching, running, scans, closed⟩ := reached
    refine ⟨running.trans active.active, fun impossible => ?_, fun _ => dispatching,
      closed.trans active.closed⟩
    rw [scans, ended] at impossible
    cases impossible

/-- A requested rescan leaves the cycle as it must be between two iterations. -/
theorem settled_of_active (active : Active proc setup cycle world) :
    Settled proc setup cycle { world with rescan := true } where
  pending _ := rfl
  active _ := active.request
  closed closed := by
    have opened := active.closed
    rw [show world.closed = true from closed] at opened
    cases opened
  booked closed := by
    have opened := active.closed
    rw [show world.closed = true from closed] at opened
    cases opened

section Snapshot

variable {proc : ProcSnapshot} {setup : CycleSetup} {cycle : CycleState} {world : FixedWorld}

/-- A cycle is closed when nothing remains. -/
theorem wp_closeCycle {incomplete : Bool} (active : Active proc.toProcContent setup cycle world) :
    (CycleSetup.closeCycle cycle incomplete).wp (machine proc.toProcContent).withSpin
      (Settled proc.toProcContent setup) world := by
  have later : (do asCycleOp .requestRescan; pure cycle : CycleProgram CycleState).wp
      (machine proc.toProcContent).withSpin (Settled proc.toProcContent setup) world := by
    rw [Program.wp_bind, wp_asRequestRescan]
    exact settled_of_active active
  rw [CycleSetup.closeCycle, Program.wp_ite]
  split
  · exact later
  next ended =>
  rw [Program.wp_bind, wp_asExhausted]
  intro exhausted
  rw [Program.wp_ite]
  split
  · exact later
  rw [Program.wp_ite]
  split
  · exact later
  next whole =>
  have scans : cycle.scanActive = false := by
    rw [Bool.or_eq_true, not_or] at ended
    simpa using ended.1
  have dispatching := active.dispatching scans
  have done : DoneFor proc.toProcContent cycle.cachedPids scanPhases cycle.processedTids := by
    have done := dispatching.done
    rw [List.take_of_length_le (show scanPhases.length ≤ _ by simpa [scanPhases] using whole)]
      at done
    exact done
  have exact_once := exactlyOnce_of_ledger dispatching.ledger done
  rw [Program.wp_bind]
  intro _ after stepped
  obtain rfl : after = { world with closed := true } := stepped
  have between : Between proc.toProcContent setup
      { cycle with fullCycleActive := false, fullScanPhase := 0, processedTids := ∅ }
      { world with closed := true } := by
    constructor
    · intro impossible
      cases impossible
    · intro impossible
      cases impossible
    · exact fun _ => exact_once
  have ledger := dispatching.ledger
  exact ⟨between, fun _ => ⟨cycle.processedTids, ledger.good, ledger.once⟩⟩

/-- The dispatches of the high-speed path neither begin nor close a cycle. -/
theorem wp_dispatchFast (phases : List ScanPhase) (processed : Finset Int)
    (idle : cycle.fullCycleActive = false) (closed : world.closed = false) :
    (setup.dispatchFast phases cycle processed).wp (machine proc.toProcContent).withSpin
      (fun next after => next.fullCycleActive = false ∧ after.closed = false) world := by
  induction phases generalizing processed cycle world with
  | nil => exact ⟨idle, closed⟩
  | cons phase rest ih =>
    rw [CycleSetup.dispatchFast, Program.wp_bind, CycleSetup.dispatchSet, wp_liftDispatch]
    refine Program.wp_mono (dispatch_keeps_closed _) fun found after same => ?_
    have closed : after.closed = false := same.trans closed
    dsimp only
    rw [Program.wp_ite]
    split
    · exact ⟨idle, closed⟩
    rw [Program.wp_ite]
    split
    · exact ⟨idle, closed⟩
    rw [Program.wp_bind, wp_asExhausted]
    intro ended
    rw [Program.wp_ite]
    split
    · exact ⟨idle, closed⟩
    · exact ih found.2.processed idle closed

/-- Without an active cycle nothing is pending. -/
theorem settled_of_idle (idle : cycle.fullCycleActive = false) (opened : world.closed = false) :
    Settled proc.toProcContent setup cycle world where
  pending running := by
    rw [idle] at running
    cases running
  active running := by
    rw [idle] at running
    cases running
  closed closed := by
    rw [opened] at closed
    cases closed
  booked closed := by
    rw [opened] at closed
    cases closed

/-- The high-speed path leaves what holds between two iterations. -/
theorem wp_highSpeed (idle : cycle.fullCycleActive = false) (opened : world.closed = false) :
    (setup.highSpeed cycle).wp (machine proc.toProcContent).withSpin
      (Settled proc.toProcContent setup) world := by
  rw [CycleSetup.highSpeed, Program.wp_bind]
  intro _ after stepped
  obtain rfl : after = world := stepped
  rw [Program.wp_ret]
  refine Program.wp_mono (wp_dispatchFast _ ∅ idle opened) fun next after reached => ?_
  exact settled_of_idle reached.1 reached.2

/-- A full cycle leaves what holds between two iterations. -/
theorem wp_fullCycle (workers : setup.workers ≠ 0) (closed : world.closed = false)
    (active : cycle.fullCycleActive = true → Active proc.toProcContent setup cycle world) :
    (setup.fullCycle cycle).wp (machine proc.toProcContent).withSpin
      (Settled proc.toProcContent setup) world := by
  rw [CycleSetup.fullCycle, Program.wp_bind]
  intro _ after stepped
  obtain rfl : after = world := stepped
  rw [Program.wp_ret, Program.wp_bind]
  refine Program.wp_mono (wp_ensureCycle closed active) fun begun middle running => ?_
  rw [Program.wp_bind]
  refine Program.wp_mono (wp_ensureScan running) fun scanned later running => ?_
  rw [Program.wp_bind]
  refine Program.wp_mono (wp_dispatchCycle workers running) fun found last running => ?_
  exact wp_closeCycle running

/-- One iteration keeps what holds between two. -/
theorem wp_scanIteration (workers : setup.workers ≠ 0)
    (between : Between proc.toProcContent setup cycle world) :
    (setup.scanIteration cycle).wp (machine proc.toProcContent).withSpin
      (Settled proc.toProcContent setup) world := by
  rw [CycleSetup.scanIteration, CycleSetup.runFullScan, Program.wp_bind, Program.wp_bind]
  intro requested after stepped
  obtain ⟨honest, rfl⟩ : (world.rescan = true → requested = true) ∧
    after = { world with rescan := false, closed := false } := stepped
  have active : cycle.fullCycleActive = true → Active proc.toProcContent setup cycle
      { world with rescan := false, closed := false } :=
    fun running => (between.active running).exchange
  rw [Program.wp_ret, Program.wp_ite]
  split
  · exact wp_fullCycle workers rfl active
  next quiet =>
  intro due after stepped
  obtain rfl : after = _ := stepped
  rw [Program.wp_ret, Program.wp_ite]
  split
  · exact wp_fullCycle workers rfl active
  · refine wp_highSpeed ?_ rfl
    cases running : cycle.fullCycleActive with
    | false => rfl
    | true => exact absurd (honest (between.pending running)) quiet

/-- What holds between two iterations holds after any number of them. -/
theorem Reaches.settled (workers : setup.workers ≠ 0) {current : CycleState} {after : FixedWorld}
    (idle : cycle.fullCycleActive = false) (opened : world.closed = false)
    (reached : Reaches proc.toProcContent setup cycle world current after) :
    Settled proc.toProcContent setup current after := by
  induction reached with
  | start => exact settled_of_idle idle opened
  | iterate reached run ih => exact run.post (wp_scanIteration workers ih.toBetween)

/-- In every run of the main loop on a fixed `/proc`, when a full cycle is closed, every live
thread of the five sets of processes was accepted by exactly one call of `enqueue`, of the worker
of its identity and with the state of the first set of its process. -/
theorem dispatches_once (workers : setup.workers ≠ 0) {current : CycleState} {after : FixedWorld}
    (idle : cycle.fullCycleActive = false) (opened : world.closed = false)
    (reached : Reaches proc.toProcContent setup cycle world current after)
    (closed : after.closed = true) :
    ExactlyOnce proc.toProcContent setup current.cachedPids after.log :=
  (reached.settled workers idle opened).closed closed

end Snapshot

/-! ## A cycle that closes -/

/-- A main loop that nothing hinders, whose scan finds these sets of processes. -/
def answer (proc : ProcContent) (pids : ScanPhase → Finset Int) :
    FixedWorld → (operation : CycleOp) → Option (CycleSig.Res operation × FixedWorld)
  | world, .exchangeRescan => some (true, { world with rescan := false, closed := false })
  | world, .fullScanDue => some (true, world)
  | world, .beginBudget _ => some ((), world)
  | world, .beginScan => some ((), { world with log := [] })
  | world, .advanceScan => some (true, world)
  | world, .publishScan => some (pids, world)
  | world, .endCycle => some ((), { world with closed := true })
  | world, .dispatch operation => proc.answer (fun _ => false) world operation

/-- The answers are possible on the machine of the main loop. -/
theorem step_of_answer {proc : ProcContent} {pids : ScanPhase → Finset Int}
    (positive : ∀ phase, ∀ pid ∈ pids phase, 0 < pid) {world after : FixedWorld}
    {operation : CycleSig.withSpin.Op} {response : CycleSig.withSpin.Res operation}
    (answered : Looping.respondWithSpin (answer proc pids) world operation =
      some (response, after)) : (machine proc).withSpin.step world operation response after := by
  cases operation with
  | none => exact response.elim
  | some operation =>
    cases operation with
    | dispatch operation =>
      have never : ∀ reads, anyTime reads ((fun _ => false) reads) := fun _ => trivial
      exact ProcContent.step_of_answer never answered
    | exchangeRescan =>
      cases answered
      exact ⟨fun _ => rfl, rfl⟩
    | publishScan =>
      cases answered
      exact ⟨positive, rfl⟩
    | fullScanDue | beginBudget fullScan | beginScan | advanceScan | endCycle =>
      cases answered
      exact rfl

/-- One process with one thread. -/
def lonely : ProcSnapshot where
  toProcContent := ProcContent.lonely
  tid_unique {pid other tid} first second := by
    have owner : ∀ number : Int, tid ∈ ProcContent.lonely.threads number → number = 7 := by
      intro number listed
      by_contra another
      simp [ProcContent.threads, ProcContent.lonely, another] at listed
    rw [owner pid first, owner other second]

/-- The process is the top application, and in the background too. -/
def lonelyPids (phase : ScanPhase) : Finset Int :=
  if phase = .topApp ∨ phase = .background then {7} else ∅

/-- Four workers. -/
def lonelySetup : CycleSetup := ⟨⟨fun _ => 0, fun _ => 0⟩, 4, 3⟩

/-- The cycle of the lonely process closes with one task handed over. -/
theorem dispatches_once_lonely : ∃ (current : CycleState) (after : FixedWorld),
    after.log.map (fun handoff => handoff.task.identity.key) = [(7, 7)] ∧
      ExactlyOnce lonely.toProcContent lonelySetup current.cachedPids after.log := by
  have closes : (Program.exec (S := CycleSig.withSpin)
      (Looping.respondWithSpin (answer lonely.toProcContent lonelyPids))
      (lonelySetup.scanIteration {}) {}).map
        (fun found => (found.2.closed, found.2.log.map fun handoff => handoff.task.identity.key)) =
      some (true, [(7, 7)]) := by decide +kernel
  obtain ⟨⟨current, after⟩, executed, seen⟩ := Option.map_eq_some_iff.mp closes
  obtain ⟨closed, keys⟩ := Prod.mk.inj seen
  have positive : ∀ phase, ∀ pid ∈ lonelyPids phase, 0 < pid := by
    intro phase pid member
    rw [lonelyPids] at member
    split at member
    · rw [Finset.mem_singleton.mp member]
      decide
    · cases member
  exact ⟨current, after, keys, dispatches_once (by decide) rfl rfl
    (.iterate .start (Program.run_of_exec (step_of_answer positive) executed)) closed⟩

end FullCycle

end ReUperf
