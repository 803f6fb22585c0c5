import ReUperf.Lib.History
import ReUperf.Main.FullScan
import ReUperf.Main.Handler

/-!
# Carried states

ReUperf moves threads to groups of its own, and then their paths no longer tell the state of the
process. A scan takes the state from the one before it, for the same process. Between two scans the
handler of process events forgets states. The module tells which states are carried from one scan
to the next, over every run of scans and handlers.
-/

namespace ReUperf

open Effect Effect.History FileUtils Main

namespace CarriedStates

/-! ## The machines -/

/-- What a scan was told. -/
structure View where
  /-- The number of operations. -/
  calls : Nat := 0
  /-- What the groups of each process told last. -/
  told : Int → CgroupStateInfo := fun _ => {}

/-- One operation of a scan, answered in any way. -/
def View.Step : View → (operation : SysOp) → SysSig.Res operation → View → Prop
  | view, .cgroupStateInfo pid, response, after =>
    after = ⟨view.calls + 1, Function.update view.told pid response⟩
  | view, _, _, after => after = { view with calls := view.calls + 1 }

/-- The machine of a scan. -/
def scanMachine : Machine SysSig View where
  step := View.Step

/-- The states of processes. -/
abbrev ProcessStates : Type := Table Int (Nat × ProcessState)

/-- One operation of the handler, answered in any way. -/
def handlerStep : ProcessStates → (operation : HandlerOp) → HandlerSig.Res operation →
    ProcessStates → Prop
  | states, .forgetState pid, _, after => after = states.erase pid
  | states, _, _, after => after = states

/-- The machine of the handler. -/
def handlerMachine : Machine HandlerSig ProcessStates where
  step := handlerStep

/-! ## Runs -/

/-- The variables of `main` that a state passes through. -/
structure Keeper where
  /-- `cached_process_states`. -/
  cachedProcessStates : ProcessStates := ∅
  /-- `full_scan_state`. -/
  scan : FullScanState := {}
  /-- What the scan was told. -/
  view : View := {}

/-- A step of a run. -/
inductive StateEvent
  /-- A scan begins. -/
  | begun
  /-- A scan is finished. -/
  | published (scan : FullScanState) (view : View)
  /-- The handler is called. -/
  | handled (call : HandlerCall)

/-- Scans and calls of the handler, in any order. -/
inductive Runs (setup : CycleSetup) : List StateEvent → Keeper → Prop where
  /-- Nothing is cached. -/
  | start : Runs setup [] {}
  /-- A scan begins with what is cached. -/
  | begin {history : List StateEvent} {keeper : Keeper} (runs : Runs setup history keeper)
      (idle : keeper.scan.active = false) (cache : ThreadCache) :
      Runs setup (history ++ [.begun]) { keeper with
        scan := .beginFrom cache keeper.cachedProcessStates, view := {} }
  /-- A pass of a scan that does not finish it. -/
  | pass {history : List StateEvent} {keeper : Keeper} (runs : Runs setup history keeper)
      {fuel : Nat} {next : FullScanState} {after : View}
      (run : Program.Run scanMachine.withSpin (advanceFullScan fuel keeper.scan) keeper.view
        (false, next) after) : Runs setup history { keeper with scan := next, view := after }
  /-- The last pass of a scan; what it recorded is cached. -/
  | publish {history : List StateEvent} {keeper : Keeper} (runs : Runs setup history keeper)
      {fuel : Nat} {next : FullScanState} {after : View}
      (run : Program.Run scanMachine.withSpin (advanceFullScan fuel keeper.scan) keeper.view
        (true, next) after) :
      Runs setup (history ++ [.published next after])
        ⟨next.observedStates, { next with active := false }, after⟩
  /-- A call of the handler. -/
  | handle {history : List StateEvent} {keeper : Keeper} (runs : Runs setup history keeper)
      {call : HandlerCall} {after : ProcessStates}
      (run : Program.Run handlerMachine.withSpin (setup.handle call) keeper.cachedProcessStates ()
        after) :
      Runs setup (history ++ [.handled call]) { keeper with cachedProcessStates := after }

/-! ## What is carried -/

/-- The handler forgets the state of a process. -/
def Forgets (call : HandlerCall) (pid : Int) : Prop :=
  pid ∈ call.recycledPids ∨ (0 < pid ∧ pid ∈ call.newPids)

instance (call : HandlerCall) (pid : Int) : Decidable (Forgets call pid) :=
  inferInstanceAs (Decidable (_ ∨ _))

/-- A scan is finished. -/
def StateEvent.IsPublished : StateEvent → Prop
  | .published _ _ => True
  | _ => False

/-- Before the next scan begins, the handler does not forget the state of a process. -/
def Remembered (pid : Int) (events : List StateEvent) : Prop :=
  ∀ waiting later, events = waiting ++ .begun :: later →
    ∀ call, .handled call ∈ waiting → ¬ Forgets call pid

/-- The groups of a process are ReUperf's and tell no state. -/
def View.Hides (view : View) (pid : Int) : Prop := view.told pid = ⟨.other, true⟩

/-- The state a path tells, if it tells one. -/
def recognised : CgroupState → Option ProcessState
  | .top => some .top
  | .fg => some .fg
  | .bg => some .bg
  | .other => none

/-- Which states the scans of a history carry. -/
structure Carries (history : List StateEvent) : Prop where
  /-- The state of a hidden process is that of the scan before, if the handler did not forget it;
  the background is recorded when it did. -/
  same : ∀ before first firstView between second view after,
    history = before ++ .published first firstView :: between ++ .published second view :: after →
    (∀ event ∈ between, ¬ event.IsPublished) → ∀ pid startTime state next,
    first.observedStates.lookup pid = some (startTime, state) →
    second.observedStates.lookup pid = some (startTime, next) → view.Hides pid →
    (next = state ↔ state = .bg ∨ Remembered pid between)
  /-- A state is the one its groups tell, or the background, or it was recorded by the scan before
  for a process with the same start time. -/
  own : ∀ before second view after, history = before ++ .published second view :: after →
    ∀ pid startTime state, second.observedStates.lookup pid = some (startTime, state) →
    recognised (view.told pid).state = some state ∨ state = .bg ∨
      ∃ earlier first firstView between,
        before = earlier ++ .published first firstView :: between ∧
        (∀ event ∈ between, ¬ event.IsPublished) ∧
        first.observedStates.lookup pid = some (startTime, state)

/-! ## Scans -/

/-- The state of a process, given what was cached of it. -/
def carriedState (prior : Option (Nat × ProcessState)) (startTime : Nat)
    (told : CgroupStateInfo) : ProcessState :=
  match recognised told.state with
  | some state => state
  | none =>
    match prior with
    | none => .bg
    | some (earlier, state) => if told.reuperfOwned ∧ earlier = startTime then state else .bg

/-- Every state a scan has recorded follows from what was cached and what the scan was told. -/
structure Tells (prior : Int → Option (Nat × ProcessState)) (scan : FullScanState) (view : View) :
    Prop where
  /-- What was cached when the scan began. -/
  previous : ∀ pid, scan.previousStates.lookup pid = prior pid
  /-- What is recorded. -/
  observed : ∀ pid startTime state, scan.observedStates.lookup pid = some (startTime, state) →
    state = carriedState (prior pid) startTime (view.told pid)

/-- A scan goes on and records no state. -/
structure Follows (scan next : FullScanState) (view after : View) : Prop where
  /-- No state is recorded, but one may be withdrawn. -/
  observed : ∀ pid found, next.observedStates.lookup pid = some found →
    scan.observedStates.lookup pid = some found
  /-- What was cached stays. -/
  previous : next.previousStates = scan.previousStates
  /-- The scan is not told a state. -/
  told : after.told = view.told

variable {scan middle next : FullScanState} {view between after : View}
  {prior : Int → Option (Nat × ProcessState)} {pid : Int}

/-- What a scan does not change, it does not change in two steps. -/
theorem Follows.trans (first : Follows scan middle view between)
    (second : Follows middle next between after) : Follows scan next view after where
  observed pid found recorded := first.observed pid found (second.observed pid found recorded)
  previous := second.previous.trans first.previous
  told := second.told.trans first.told

/-- A scan with the same records. -/
theorem Follows.of_eq (observed : next.observedStates = scan.observedStates)
    (previous : next.previousStates = scan.previousStates) (told : after.told = view.told) :
    Follows scan next view after where
  observed pid found recorded := by
    rw [← observed]
    exact recorded
  previous := previous
  told := told

/-- A scan that records no state has recorded what follows. -/
theorem Tells.follow (tells : Tells prior scan view) (follows : Follows scan next view after) :
    Tells prior next after where
  previous pid := by
    rw [follows.previous]
    exact tells.previous pid
  observed pid startTime state recorded := by
    rw [follows.told]
    exact tells.observed pid startTime state (follows.observed pid _ recorded)

/-- Whether an operation tells a state. -/
def tellsState : SysOp → Bool
  | .cgroupStateInfo _ => true
  | _ => false

/-- An operation that tells no state. -/
theorem wp_quiet {operation : SysOp} (quiet : tellsState operation = false)
    {post : SysSig.Res operation → View → Prop}
    (holds : ∀ response after, after.told = view.told → post response after) :
    (scanOp operation).wp scanMachine.withSpin post view := by
  intro response after stepped
  apply holds
  have stepped : View.Step view operation response after := stepped
  cases operation with
  | cgroupStateInfo pid => cases quiet
  | _ => rw [stepped]

/-- Listing a directory tells no state. -/
theorem wp_readIds {readEntry : ScanProgram DirEntry}
    (quiet : ∀ (view : View) (post : DirEntry → View → Prop),
      (∀ response after, after.told = view.told → post response after) →
        readEntry.wp scanMachine.withSpin post view)
    (fuel : Nat) (ids : List Int) :
    (Looping.loop (readId readEntry) fuel ids).wp scanMachine.withSpin
      (fun _ after => after.told = view.told) view := by
  refine Looping.wp_loop (fun _ after => after.told = view.told) ?_ fuel rfl
  intro ids middle told
  rw [readId, Program.wp_bind]
  apply wp_quiet rfl
  intro exhausted first same
  have told := same.trans told
  rw [Program.wp_ite]
  split
  · exact told
  rw [Program.wp_bind]
  apply quiet
  intro entry second same
  have told := same.trans told
  cases entry with
  | finished | failed => exact told
  | name text =>
    dsimp only
    rw [Program.wp_bind]
    apply wp_quiet rfl
    intro _ third same
    have told := same.trans told
    cases parseId text with
    | none => exact told
    | some id => exact told

/-- Listing the processes records no state. -/
theorem wp_listPids (fuel : Nat) (scan : FullScanState) :
    (scan.listPids fuel).wp scanMachine.withSpin
      (fun found after => Follows scan found.2 view after) view := by
  rw [FullScanState.listPids, Program.wp_bind]
  refine Program.wp_mono (wp_readIds (fun view post holds => wp_quiet rfl holds) fuel
    scan.pids) fun found after told => ?_
  obtain ⟨ids, ended⟩ := found
  cases ended with
  | paused => exact .of_eq rfl rfl told
  | finished => exact .of_eq rfl rfl told
  | failed => exact .of_eq rfl rfl told

/-- Listing the processes records no state. -/
theorem wp_enumeratePids (fuel : Nat) (scan : FullScanState) :
    (scan.enumeratePids fuel).wp scanMachine.withSpin
      (fun found after => Follows scan found.2 view after) view := by
  rw [FullScanState.enumeratePids, Program.wp_ite]
  split
  · exact .of_eq rfl rfl rfl
  rw [Program.wp_ite]
  split
  · exact wp_listPids fuel scan
  rw [Program.wp_bind]
  apply wp_quiet rfl
  intro opened after told
  rw [Program.wp_ite]
  split
  · refine Program.wp_mono (wp_listPids fuel _) fun found last follows => ?_
    exact ⟨follows.observed, follows.previous, follows.told.trans told⟩
  · exact .of_eq rfl rfl told

/-- Listing the threads of a process records no state. -/
theorem wp_listTids (fuel : Nat) (scan : FullScanState) :
    (scan.listTids fuel).wp scanMachine.withSpin
      (fun found after => Follows scan found.2 view after) view := by
  rw [FullScanState.listTids, Program.wp_bind]
  refine Program.wp_mono (wp_readIds (fun view post holds => wp_quiet rfl holds) fuel
    scan.currentTids) fun found after told => ?_
  obtain ⟨ids, ended⟩ := found
  cases ended with
  | paused => exact .of_eq rfl rfl told
  | finished => exact .of_eq rfl rfl told
  | failed => exact .of_eq rfl rfl told

/-- Listing the threads of a process records no state. -/
theorem wp_enumerateCurrentTids (fuel : Nat) (scan : FullScanState) :
    (scan.enumerateCurrentTids fuel).wp scanMachine.withSpin
      (fun found after => Follows scan found.2 view after) view := by
  rw [FullScanState.enumerateCurrentTids, Program.wp_ite]
  split
  · exact .of_eq rfl rfl rfl
  rw [Program.wp_ite]
  split
  · exact wp_listTids fuel scan
  rw [Program.wp_bind]
  apply wp_quiet rfl
  intro opened after told
  rw [Program.wp_ite]
  split
  · refine Program.wp_mono (wp_listTids fuel _) fun found last follows => ?_
    exact ⟨follows.observed, follows.previous, follows.told.trans told⟩
  · exact .of_eq rfl rfl told

/-- Recording a thread records no state. -/
theorem follows_recordThread (scan : FullScanState) (tid : Int) (startTime : Nat)
    (told : after.told = view.told) :
    Follows scan ({ scan with tidIndex := scan.tidIndex + 1 }.recordThread tid startTime) view
      after := by
  rw [FullScanState.recordThread]
  split
  · exact .of_eq rfl rfl told
  · exact .of_eq rfl rfl told

/-- Reading threads records no state. -/
theorem wp_readThreads (tids : List Int) (scan : FullScanState) :
    (readThreads tids scan).wp scanMachine.withSpin
      (fun found after => Follows scan found.2 view after) view := by
  induction tids generalizing scan view with
  | nil => exact .of_eq rfl rfl rfl
  | cons tid rest ih =>
    rw [readThreads, Program.wp_bind]
    apply wp_quiet rfl
    intro exhausted first told
    rw [Program.wp_ite]
    split
    · exact .of_eq rfl rfl told
    have goOn : ∀ startTime (middle : View), middle.told = view.told →
        (scanOp .afterThreadRead >>= fun _ => readThreads rest
          ({ scan with tidIndex := scan.tidIndex + 1 }.recordThread tid startTime)).wp
            scanMachine.withSpin (fun found after => Follows scan found.2 view after) middle := by
      intro startTime middle told
      rw [Program.wp_bind]
      apply wp_quiet rfl
      intro _ counted same
      refine Program.wp_mono (ih _) fun found after follows => ?_
      exact (follows_recordThread scan tid startTime (same.trans told)).trans follows
    rw [scanThreadStartTime]
    split
    · rw [Program.wp_bind]
      apply wp_quiet rfl
      intro startTime middle same
      exact goOn startTime middle (same.trans told)
    · exact goOn 0 first told

/-- Reading a start time tells no state. -/
theorem wp_scanStartTime {use : ReadUse} {post : Nat → View → Prop}
    (holds : ∀ response after, after.told = view.told → post response after) :
    (scanStartTime use pid).wp scanMachine.withSpin post view := by
  rw [scanStartTime]
  split
  · exact wp_quiet rfl holds
  · exact holds 0 view rfl

/-- Checking the current process records no state. -/
theorem wp_verifyProcess (scan : FullScanState) :
    (verifyProcess scan).wp scanMachine.withSpin
      (fun found after => found.elim (fun next => Follows scan next view after)
        fun found => Follows scan found.2 view after) view := by
  rw [verifyProcess, Program.wp_bind]
  apply wp_quiet rfl
  intro exhausted first told
  rw [Program.wp_ite]
  split
  · exact .of_eq rfl rfl told
  rw [Program.wp_bind]
  apply wp_scanStartTime
  intro verified second same
  have told := same.trans told
  rw [Program.wp_ite]
  split
  · refine ⟨fun pid found recorded => ?_, rfl, told⟩
    have recorded : (scan.observedStates.erase scan.currentPid).lookup pid = some found := recorded
    by_cases this : pid = scan.currentPid
    · rw [this, AList.lookup_erase] at recorded
      cases recorded
    · rw [AList.lookup_erase_ne this] at recorded
      exact recorded
  rw [Program.wp_bind]
  apply wp_quiet rfl
  intro result third same
  exact .of_eq rfl rfl (same.trans told)

/-- Going on with the current process records no state. -/
theorem wp_continueProcess (fuel : Nat) (scan : FullScanState) :
    (continueProcess fuel scan).wp scanMachine.withSpin
      (fun found after => found.elim (fun next => Follows scan next view after)
        fun found => Follows scan found.2 view after) view := by
  rw [continueProcess, Program.wp_bind]
  refine Program.wp_mono (wp_enumerateCurrentTids fuel scan) fun found middle listed => ?_
  dsimp only
  rw [Program.wp_ite]
  split
  · exact listed
  rw [Program.wp_bind]
  refine Program.wp_mono (wp_readThreads _ found.2) fun read last follows => ?_
  have follows := listed.trans follows
  rw [Program.wp_ite]
  split
  · exact follows
  refine Program.wp_mono (wp_verifyProcess read.2) fun outcome after verified => ?_
  cases outcome with
  | inl next => exact follows.trans verified
  | inr found => exact follows.trans verified

/-- The state recorded for a process without a state of its own follows from what was cached. -/
theorem stateFor_eq (scan : FullScanState) (told : CgroupStateInfo)
    (background : scan.currentState = .bg) :
    scan.stateFor told = carriedState (scan.previousStates.lookup scan.currentPid)
      scan.currentProcessStartTime told := by
  rw [FullScanState.stateFor, carriedState.eq_def, background]
  cases told.state with
  | top | fg | bg | other => rfl

/-- Reading a process records the state that follows. -/
theorem wp_readProcess (scan : FullScanState) (pid : Int) (tells : Tells prior scan view) :
    (readProcess scan pid).wp scanMachine.withSpin
      (fun found after => Tells prior found.2 after) view := by
  rw [readProcess, Program.wp_bind]
  apply wp_scanStartTime
  intro startTime first told
  rw [Program.wp_bind]
  apply wp_quiet rfl
  intro _ second same
  have told := same.trans told
  dsimp only
  rw [Program.wp_ite]
  split
  · exact tells.follow (.of_eq rfl rfl told)
  rw [Program.wp_bind]
  apply wp_quiet rfl
  intro name third same
  have told := same.trans told
  rw [Program.wp_ite]
  split
  · exact tells.follow (.of_eq rfl rfl told)
  rw [Program.wp_bind]
  apply wp_quiet rfl
  intro cmdline fourth same
  have told := same.trans told
  rw [Program.wp_bind]
  intro response last stepped
  obtain rfl : last = ⟨fourth.calls + 1, Function.update fourth.told pid response⟩ := stepped
  rw [Program.wp_ret]
  refine ⟨tells.previous, fun other found state recorded => ?_⟩
  dsimp only
  by_cases same : other = pid
  · rw [same] at recorded ⊢
    rw [Function.update_self]
    have recorded := (AList.lookup_insert _).symm.trans recorded
    obtain ⟨rfl, rfl⟩ := Prod.mk.inj (Option.some.inj recorded)
    rw [stateFor_eq _ _ rfl, ← tells.previous pid]
    rfl
  · rw [Function.update_of_ne same, told]
    have recorded := (AList.lookup_insert_ne same).symm.trans recorded
    exact tells.observed other found state recorded

/-- One step of a scan. -/
theorem wp_scanNext (fuel : Nat) (scan : FullScanState) (tells : Tells prior scan view) :
    (scanNext fuel scan).wp scanMachine.withSpin
      (fun found after => found.elim (fun next => Tells prior next after)
        fun found => Tells prior found.2 after) view := by
  rw [scanNext]
  split
  · exact tells
  next pid here =>
  rw [Program.wp_bind]
  apply wp_quiet rfl
  intro exhausted first told
  have tells := tells.follow (.of_eq rfl rfl told)
  have goOn : ∀ {scan : FullScanState} {view : View}, Tells prior scan view →
      (continueProcess fuel scan).wp scanMachine.withSpin
        (fun found after => found.elim (fun next => Tells prior next after)
          fun found => Tells prior found.2 after) view := by
    intro scan view tells
    refine Program.wp_mono (wp_continueProcess fuel scan) fun outcome after follows => ?_
    cases outcome with
    | inl next => exact tells.follow follows
    | inr found => exact tells.follow follows
  rw [Program.wp_ite]
  split
  · exact tells
  rw [Program.wp_ite]
  split
  · exact goOn tells
  rw [Program.wp_bind]
  refine Program.wp_mono (wp_readProcess scan pid tells) fun read second tells => ?_
  dsimp only
  rw [Program.wp_ite]
  split
  · exact goOn tells
  · exact tells

/-- A pass of a scan records the states that follow. -/
theorem wp_advanceFullScan (fuel : Nat) (scan : FullScanState) (tells : Tells prior scan view) :
    (advanceFullScan fuel scan).wp scanMachine.withSpin
      (fun found after => Tells prior found.2 after) view := by
  rw [advanceFullScan, Program.wp_ite]
  split
  · exact tells
  rw [Program.wp_bind]
  refine Program.wp_mono (wp_enumeratePids fuel scan) fun listed first follows => ?_
  have tells := tells.follow follows
  dsimp only
  rw [Program.wp_ite]
  split
  · exact tells
  rw [Program.wp_bind]
  refine Program.wp_mono (Looping.wp_loop (fun scan after => Tells prior scan after)
    (fun scan view tells => wp_scanNext fuel scan tells) fuel tells)
    fun finished second tells => ?_
  rw [Program.wp_ite]
  split
  · exact tells
  rw [Program.wp_bind]
  apply wp_quiet rfl
  intro _ after told
  exact tells.follow (.of_eq rfl rfl told)

/-! ## The handler -/

section Handler

variable {setup : CycleSetup} {states : ProcessStates}

/-- Whether an operation forgets a state. -/
def forgetsState : HandlerOp → Bool
  | .forgetState _ => true
  | _ => false

/-- An operation that forgets no state. -/
theorem wp_handlerOp {operation : HandlerOp} (quiet : forgetsState operation = false)
    {post : HandlerSig.Res operation → ProcessStates → Prop}
    (holds : ∀ response, post response states) :
    (handlerOp operation).wp handlerMachine.withSpin post states := by
  intro response after stepped
  have stepped : handlerStep states operation response after := stepped
  cases operation with
  | forgetState pid => cases quiet
  | _ =>
    rw [show after = states from stepped]
    exact holds response

/-- A dispatch forgets no state. -/
theorem wp_dispatch {α : Type} (program : DispatchProgram α) :
    (Looping.interpret asHandlerOp program).wp handlerMachine.withSpin
      (fun _ after => after = states) states := by
  have quiet : ∀ operation (post : DispatchSig.Res operation → ProcessStates → Prop) states,
      (asHandlerOp operation).wp handlerMachine.withSpin post states ↔
        ∀ response after, after = states → post response after := by
    intro operation post states
    exact Iff.rfl
  rw [@Looping.wp_interpret_rename _ _ _ ⟨fun states _ _ after => after = states⟩ _ _ _ quiet]
  apply Program.wp_of_step (· = states)
  · intro current operation response after same stepped
    cases operation with
    | none => exact response.elim
    | some operation => exact (show after = current from stepped).trans same
  · rfl

/-- Forgetting a process erases its state. -/
theorem wp_forgetProcess (pid : Int) :
    (forgetProcess pid).wp handlerMachine.withSpin (fun _ after => after = states.erase pid)
      states := by
  rw [forgetProcess, Program.wp_bind]
  apply wp_handlerOp rfl
  intro _
  rw [Program.wp_bind]
  intro _ after stepped
  obtain rfl : after = states.erase pid := stepped
  rw [Program.wp_ret]
  apply wp_handlerOp rfl
  intro _
  rfl

/-- The dispatch of a new process forgets no state. -/
theorem wp_incrementalDispatch (pid : Int) :
    (setup.incrementalDispatch pid).wp handlerMachine.withSpin (fun _ after => after = states)
      states := by
  rw [CycleSetup.incrementalDispatch, Program.wp_bind]
  apply wp_handlerOp rfl
  intro _
  rw [Program.wp_bind]
  apply wp_handlerOp rfl
  intro procName
  rw [Program.wp_ite]
  split
  · rfl
  rw [Program.wp_bind]
  apply wp_handlerOp rfl
  intro cmdline
  rw [Program.wp_bind]
  apply wp_handlerOp rfl
  intro cgroup
  have initial : (setup.dispatchInitial pid cgroup.state).wp handlerMachine.withSpin
      (fun _ after => after = states) states := by
    rw [CycleSetup.dispatchInitial, Program.wp_ite]
    split
    · exact wp_dispatch _
    · rfl
  rw [Program.wp_bind]
  refine Program.wp_mono initial fun found after same => ?_
  rw [same, Program.wp_bind]
  apply wp_handlerOp rfl
  intro result
  have phases : ∀ cmdline, (rulePhase pid result (actualState cgroup.state) cmdline).wp
      handlerMachine.withSpin (fun _ after => after = states) states := by
    intro cmdline
    rw [rulePhase]
    repeat' first | rw [Program.wp_ite]; split | rfl
    rw [Program.wp_bind]
    apply wp_handlerOp rfl
    intro hasBaseline
    rw [Program.wp_ite]
    split
    · rfl
    · rfl
  rw [Program.wp_bind]
  refine Program.wp_mono (phases cmdline) fun phase after same => ?_
  rw [same, Program.wp_bind]
  have byRule : (setup.dispatchByRule pid found.2 phase).wp handlerMachine.withSpin
      (fun _ after => after = states) states := by
    cases phase with
    | none => rfl
    | some phase =>
      rw [CycleSetup.dispatchByRule, Program.wp_bind]
      exact Program.wp_mono (wp_dispatch _) fun found after same => same
  refine Program.wp_mono byRule fun incomplete after same => ?_
  rw [same, Program.wp_ite]
  split
  · apply wp_handlerOp rfl
    intro _
    rfl
  · rfl

/-- Some states are forgotten, and the others stay. -/
def Forgot (forgets : Int → Prop) (states after : ProcessStates) : Prop :=
  ∀ pid, (forgets pid → after.lookup pid = none) ∧
    (¬ forgets pid → after.lookup pid = states.lookup pid)

/-- Nothing is forgotten. -/
theorem forgot_none (forgets : Int → Prop) (states : ProcessStates) (none : ∀ pid, ¬ forgets pid) :
    Forgot forgets states states :=
  fun pid => ⟨fun impossible => absurd impossible (none pid), fun _ => rfl⟩

/-- One state is forgotten. -/
theorem forgot_erase (states : ProcessStates) (pid : Int) :
    Forgot (· = pid) states (states.erase pid) := by
  intro other
  constructor
  · intro same
    rw [same, AList.lookup_erase]
  · intro differ
    rw [AList.lookup_erase_ne differ]

/-- States are forgotten one after another. -/
theorem Forgot.trans {first second : Int → Prop} {middle after : ProcessStates}
    (before : Forgot first states middle) (later : Forgot second middle after) :
    Forgot (fun pid => first pid ∨ second pid) states after := by
  intro pid
  by_cases again : second pid
  · exact ⟨fun _ => (later pid).1 again, fun stays => absurd (.inr again) stays⟩
  · have either : (first pid ∨ second pid) ↔ first pid := or_iff_left again
    rw [(later pid).2 again]
    exact ⟨fun forgets => (before pid).1 (either.mp forgets),
      fun stays => (before pid).2 fun forgets => stays (either.mpr forgets)⟩

/-- The same states are forgotten. -/
theorem Forgot.congr {first second : Int → Prop} {after : ProcessStates}
    (forgot : Forgot first states after) (same : ∀ pid, first pid ↔ second pid) :
    Forgot second states after := by
  intro pid
  rw [← same pid]
  exact forgot pid

/-- Recycled processes are forgotten. -/
theorem wp_handleRecycled (pids : List Int) :
    (CycleSetup.handleRecycled pids).wp handlerMachine.withSpin
      (fun _ after => Forgot (· ∈ pids) states after) states := by
  induction pids generalizing states with
  | nil => exact forgot_none _ states fun pid => List.not_mem_nil
  | cons first rest ih =>
    rw [CycleSetup.handleRecycled, Program.wp_bind]
    refine Program.wp_mono (wp_forgetProcess first) fun _ middle same => ?_
    rw [same]
    refine Program.wp_mono ih fun _ after forgot => ?_
    exact ((forgot_erase states first).trans forgot).congr fun pid => List.mem_cons.symm

/-- New processes are forgotten. -/
theorem wp_handleNew (pids : List Int) :
    (setup.handleNew pids).wp handlerMachine.withSpin
      (fun _ after => Forgot (fun pid => 0 < pid ∧ pid ∈ pids) states after) states := by
  induction pids generalizing states with
  | nil => exact forgot_none _ states fun pid listed => List.not_mem_nil listed.2
  | cons first rest ih =>
    rw [CycleSetup.handleNew, Program.wp_ite]
    split
    · next positive =>
      rw [Program.wp_bind]
      refine Program.wp_mono (wp_forgetProcess first) fun _ middle same => ?_
      rw [same, Program.wp_bind]
      refine Program.wp_mono (wp_incrementalDispatch first) fun _ middle same => ?_
      rw [same]
      refine Program.wp_mono ih fun _ after forgot => ?_
      refine ((forgot_erase states first).trans forgot).congr fun pid => ?_
      rw [List.mem_cons, and_or_left]
      refine or_congr_left ⟨fun this => ?_, And.right⟩
      rw [this]
      exact ⟨positive, rfl⟩
    · next negative =>
      refine Program.wp_mono ih fun _ after forgot => forgot.congr fun pid => ?_
      rw [List.mem_cons, and_or_left]
      refine (or_iff_right fun this => negative ?_).symm
      rw [← this.2]
      exact this.1

/-- No state of a dead process is forgotten. -/
theorem wp_handleDead (pids : List Int) :
    (CycleSetup.handleDead pids).wp handlerMachine.withSpin (fun _ after => after = states)
      states := by
  induction pids with
  | nil => rfl
  | cons first rest ih =>
    rw [CycleSetup.handleDead, Program.wp_bind]
    apply wp_handlerOp rfl
    intro _
    rw [Program.wp_bind]
    apply wp_handlerOp rfl
    intro _
    exact ih

/-- The processes of a set, in their order. -/
theorem mem_remainingPids {pids : Finset Int} {pid : Int} :
    pid ∈ remainingPids pids {} ↔ pid ∈ pids := by
  rw [remainingPids, if_neg (by decide)]
  exact Finset.mem_sort _

/-- The handler forgets the recycled and the new processes. -/
theorem wp_handle (call : HandlerCall) :
    (setup.handle call).wp handlerMachine.withSpin
      (fun _ after => Forgot (Forgets call) states after) states := by
  have dropped : (CycleSetup.handleDropped call.eventsDropped).wp handlerMachine.withSpin
      (fun _ after => after = states) states := by
    rw [CycleSetup.handleDropped, Program.wp_ite]
    split
    · apply wp_handlerOp rfl
      intro _
      rfl
    · rfl
  rw [CycleSetup.handle, Program.wp_bind]
  refine Program.wp_mono dropped fun _ first same => ?_
  rw [same, Program.wp_bind]
  refine Program.wp_mono (wp_handleRecycled _) fun _ second recycled => ?_
  rw [Program.wp_bind]
  refine Program.wp_mono (wp_handleNew _) fun _ third new => ?_
  refine Program.wp_mono (wp_handleDead _) fun _ after same => ?_
  rw [same]
  refine (recycled.trans new).congr fun pid => ?_
  rw [mem_remainingPids, mem_remainingPids]
  exact Iff.rfl

end Handler

/-! ## What is cached -/

/-- What is cached of a process after one more event. -/
def cachedAfter (pid : Int) (cached : Option (Nat × ProcessState)) :
    StateEvent → Option (Nat × ProcessState)
  | .begun => cached
  | .published scan _ => scan.observedStates.lookup pid
  | .handled call => if Forgets call pid then none else cached

/-- What is cached of a process after a history. -/
def cachedOf (history : List StateEvent) (pid : Int) : Option (Nat × ProcessState) :=
  history.foldl (cachedAfter pid) none

/-- What is cached after one more event. -/
theorem cachedOf_snoc (history : List StateEvent) (event : StateEvent) (pid : Int) :
    cachedOf (history ++ [event]) pid = cachedAfter pid (cachedOf history pid) event := by
  rw [cachedOf, List.foldl_append]
  rfl

/-- Between two scans what is cached is what the first one recorded, unless it is forgotten. -/
theorem cachedOf_append {before waiting : List StateEvent} {scan : FullScanState} {view : View}
    (unpublished : ∀ event ∈ waiting, ¬ event.IsPublished) (pid : Int) :
    ((∀ call, .handled call ∈ waiting → ¬ Forgets call pid) →
      cachedOf (before ++ .published scan view :: waiting) pid = scan.observedStates.lookup pid) ∧
    ((∃ call, .handled call ∈ waiting ∧ Forgets call pid) →
      cachedOf (before ++ .published scan view :: waiting) pid = none) := by
  induction waiting using List.reverseRecOn with
  | nil =>
    rw [cachedOf_snoc]
    refine ⟨fun _ => rfl, fun impossible => ?_⟩
    obtain ⟨call, none, -⟩ := impossible
    exact absurd none List.not_mem_nil
  | append_singleton waiting event ih =>
    obtain ⟨kept, lost⟩ := ih fun other member =>
      unpublished other (List.mem_append_left _ member)
    rw [← List.cons_append, ← List.append_assoc, cachedOf_snoc]
    constructor
    · intro remembered
      have earlier := kept fun call member => remembered call (List.mem_append_left _ member)
      rw [earlier]
      cases event with
      | begun => rfl
      | published scan view =>
        exact absurd trivial (unpublished _ (List.mem_append_right _ List.mem_cons_self))
      | handled call =>
        exact if_neg (remembered call (List.mem_append_right _ List.mem_cons_self))
    · intro forgotten
      obtain ⟨call, member, forgets⟩ := forgotten
      cases event with
      | begun =>
        rcases List.mem_append.mp member with earlier | impossible
        · exact lost ⟨call, earlier, forgets⟩
        · cases List.mem_singleton.mp impossible
      | published scan view =>
        exact absurd trivial (unpublished _ (List.mem_append_right _ List.mem_cons_self))
      | handled other =>
        by_cases again : Forgets other pid
        · exact if_pos again
        · rw [cachedAfter, if_neg again]
          rcases List.mem_append.mp member with earlier | this
          · exact lost ⟨call, earlier, forgets⟩
          · obtain rfl := StateEvent.handled.inj (List.mem_singleton.mp this)
            exact absurd forgets again

/-- A scan is in progress since an event, and only the handler was called since. -/
def Scanning (history : List StateEvent) (scan : FullScanState) (view : View) : Prop :=
  ∃ before rest, history = before ++ .begun :: rest ∧
    (∀ event ∈ rest, ∃ call, event = .handled call) ∧ Tells (cachedOf before) scan view

/-- A finished scan has recorded what follows from what was cached when it began. -/
def Grounded (history : List StateEvent) : StateEvent → Prop
  | .published scan view => Scanning history scan view
  | _ => True

/-- What holds after every run. -/
structure Holds (history : List StateEvent) (keeper : Keeper) : Prop where
  /-- What is cached. -/
  cached : ∀ pid, keeper.cachedProcessStates.lookup pid = cachedOf history pid
  /-- A scan in progress. -/
  scanning : keeper.scan.active = true → Scanning history keeper.scan keeper.view
  /-- The finished scans. -/
  grounded : AllFit Grounded history

variable {setup : CycleSetup} {history : List StateEvent} {keeper : Keeper}

/-- Only an active scan is advanced. -/
theorem active_of_advance {fuel : Nat} {finished : Bool}
    (run : Program.Run scanMachine.withSpin (advanceFullScan fuel scan) view (finished, next) after)
    (changed : finished = true ∨ next.active = true) : scan.active = true := by
  cases active : scan.active with
  | true => rfl
  | false =>
    have same : (advanceFullScan fuel scan).wp scanMachine.withSpin
        (fun found _ => found = (false, scan)) view := by
      rw [advanceFullScan, if_pos active]
      rfl
    obtain ⟨rfl, rfl⟩ := Prod.mk.inj (run.post same)
    rcases changed with impossible | impossible
    · cases impossible
    · rw [active] at impossible
      cases impossible

/-- What holds in the beginning holds after every run. -/
theorem Runs.holds (runs : Runs setup history keeper) : Holds history keeper := by
  induction runs with
  | start =>
    refine ⟨fun pid => rfl, fun impossible => ?_, allFit_nil⟩
    cases impossible
  | @begin history keeper runs idle cache ih =>
    refine ⟨fun pid => ?_, fun _ => ?_, ih.grounded.snoc trivial⟩
    · rw [cachedOf_snoc]
      exact ih.cached pid
    · refine ⟨history, [], rfl, fun event none => absurd none List.not_mem_nil, ih.cached, ?_⟩
      intro pid startTime state impossible
      cases impossible
  | @pass history keeper runs fuel next after run ih =>
    refine ⟨ih.cached, fun active => ?_, ih.grounded⟩
    obtain ⟨before, rest, split, handled, tells⟩ :=
      ih.scanning (active_of_advance run (.inr active))
    exact ⟨before, rest, split, handled, run.post (wp_advanceFullScan fuel _ tells)⟩
  | @publish history keeper runs fuel next after run ih =>
    obtain ⟨before, rest, split, handled, tells⟩ := ih.scanning (active_of_advance run (.inl rfl))
    refine ⟨fun pid => ?_, fun impossible => ?_, ih.grounded.snoc ?_⟩
    · rw [cachedOf_snoc]
      rfl
    · cases impossible
    · exact ⟨before, rest, split, handled, run.post (wp_advanceFullScan fuel _ tells)⟩
  | @handle history keeper runs call after run ih =>
    have forgot := run.post (wp_handle call)
    refine ⟨fun pid => ?_, fun active => ?_, ih.grounded.snoc trivial⟩
    · rw [cachedOf_snoc, cachedAfter]
      by_cases forgets : Forgets call pid
      · rw [if_pos forgets]
        exact (forgot pid).1 forgets
      · rw [if_neg forgets, ← ih.cached pid]
        exact (forgot pid).2 forgets
    · obtain ⟨before, rest, split, handled, tells⟩ := ih.scanning active
      refine ⟨before, rest ++ [.handled call], ?_, fun event member => ?_, tells⟩
      · rw [split, List.append_assoc, List.cons_append]
      · rcases List.mem_append.mp member with earlier | this
        · exact handled event earlier
        · exact ⟨call, List.mem_singleton.mp this⟩

/-! ## What the next scan records -/

variable {before rest later waiting : List StateEvent} {first : FullScanState} {firstView : View}

/-- A scan that is in progress after another one began after it. -/
theorem split_begun {between : List StateEvent}
    (same : before ++ .published first firstView :: between = waiting ++ .begun :: rest)
    (handled : ∀ event ∈ rest, ∃ call, event = .handled call) :
    ∃ middle, between = middle ++ .begun :: rest ∧
      waiting = before ++ .published first firstView :: middle := by
  rcases List.append_eq_append_iff.mp same with ⟨middle, split, tail⟩ | ⟨middle, split, tail⟩
  · cases middle with
    | nil => cases (List.cons.inj tail).1
    | cons event middle =>
      obtain ⟨rfl, more⟩ := List.cons.inj tail
      exact ⟨middle, more, split⟩
  · cases middle with
    | nil => cases (List.cons.inj tail).1
    | cons event middle =>
      obtain ⟨-, tail⟩ := List.cons.inj tail
      have member : StateEvent.published first firstView ∈ rest := by
        rw [tail]
        exact List.mem_append_right _ List.mem_cons_self
      obtain ⟨call, impossible⟩ := handled _ member
      cases impossible

/-- A state is remembered when no call before the scan forgets it. -/
theorem remembered_iff (handled : ∀ event ∈ rest, ∃ call, event = .handled call) :
    Remembered pid (waiting ++ .begun :: rest) ↔
      ∀ call, .handled call ∈ waiting → ¬ Forgets call pid := by
  constructor
  · intro remembered
    exact remembered waiting rest rfl
  · intro kept other more same call member
    apply kept call
    rcases List.append_eq_append_iff.mp same with ⟨middle, split, tail⟩ | ⟨middle, split, tail⟩
    · cases middle with
      | nil =>
        rw [List.append_nil] at split
        rw [split] at member
        exact member
      | cons event middle =>
        obtain ⟨-, tail⟩ := List.cons.inj tail
        have again : StateEvent.begun ∈ rest := by
          rw [tail]
          exact List.mem_append_right _ List.mem_cons_self
        obtain ⟨call, impossible⟩ := handled _ again
        cases impossible
    · rw [split]
      exact List.mem_append_left _ member

/-- What is cached was recorded by the last scan. -/
theorem published_of_cachedOf {found : Nat × ProcessState} (cached : cachedOf history pid = some found) :
    ∃ earlier first firstView between,
      history = earlier ++ .published first firstView :: between ∧
      (∀ event ∈ between, ¬ event.IsPublished) ∧
      first.observedStates.lookup pid = some found := by
  induction history using List.reverseRecOn with
  | nil => cases cached
  | append_singleton history event ih =>
    rw [cachedOf_snoc] at cached
    have extend : cachedOf history pid = some found → ¬ event.IsPublished →
        ∃ earlier first firstView between,
          history ++ [event] = earlier ++ .published first firstView :: between ∧
          (∀ event ∈ between, ¬ event.IsPublished) ∧
          first.observedStates.lookup pid = some found := by
      intro cached unpublished
      obtain ⟨earlier, first, firstView, between, split, none, recorded⟩ := ih cached
      refine ⟨earlier, first, firstView, between ++ [event], ?_, fun other member => ?_, recorded⟩
      · rw [split, List.append_assoc, List.cons_append]
      · rcases List.mem_append.mp member with earlier | this
        · exact none other earlier
        · rw [List.mem_singleton.mp this]
          exact unpublished
    cases event with
    | begun => exact extend cached id
    | published scan view =>
      refine ⟨history, scan, view, [], rfl, fun event none => ?_, cached⟩
      exact absurd none List.not_mem_nil
    | handled call =>
      rw [cachedAfter] at cached
      split at cached
      · cases cached
      · exact extend cached id

/-- In every run, a scan carries the state of a hidden process over from the scan before exactly
when the handler did not forget it between the two, or the state is the background; and it carries
none over from a process with another start time. -/
theorem carries_of_runs {setup : CycleSetup} {history : List StateEvent} {keeper : Keeper}
    (runs : Runs setup history keeper) : Carries history := by
  have grounded := runs.holds.grounded
  constructor
  · intro before first firstView between second view after split unpublished pid startTime state
      next earlier recorded hidden
    obtain ⟨start, rest, same, handled, tells⟩ := grounded _ _ _ split
    obtain ⟨waiting, middle, this⟩ := split_begun same handled
    have follows := tells.observed pid startTime next recorded
    rw [show view.told pid = ⟨.other, true⟩ from hidden] at follows
    have none : ∀ event ∈ waiting, ¬ event.IsPublished := by
      intro event member
      apply unpublished event
      rw [middle]
      exact List.mem_append_left _ member
    obtain ⟨kept, lost⟩ := @cachedOf_append before waiting first firstView none pid
    rw [middle, remembered_iff handled]
    by_cases remembered : ∀ call, .handled call ∈ waiting → ¬ Forgets call pid
    · rw [this, kept remembered, earlier] at follows
      have carried : next = state := by
        rw [follows, carriedState.eq_def]
        exact if_pos ⟨rfl, rfl⟩
      exact iff_of_true carried (.inr remembered)
    · rw [or_iff_left remembered]
      have forgotten : ∃ call, .handled call ∈ waiting ∧ Forgets call pid := by
        by_contra never
        exact remembered fun call member forgets => never ⟨call, member, forgets⟩
      rw [this, lost forgotten] at follows
      have background : next = .bg := by
        rw [follows, carriedState.eq_def]
        rfl
      rw [background]
      exact eq_comm
  · intro before second view after split pid startTime state recorded
    obtain ⟨start, rest, same, handled, tells⟩ := grounded _ _ _ split
    have follows := tells.observed pid startTime state recorded
    rw [carriedState.eq_def] at follows
    cases told : recognised (view.told pid).state with
    | some own =>
      rw [told] at follows
      exact .inl (congrArg some follows.symm)
    | none =>
      right
      rw [told] at follows
      cases cached : cachedOf start pid with
      | none =>
        rw [cached] at follows
        exact .inl follows
      | some found =>
        rw [cached] at follows
        dsimp only at follows
        split at follows
        · next owned =>
          right
          obtain ⟨earlier, first, firstView, between, from', none, was⟩ :=
            published_of_cachedOf cached
          refine ⟨earlier, first, firstView, between ++ .begun :: rest, ?_, fun event member => ?_,
            ?_⟩
          · rw [same, from', List.append_assoc, List.cons_append]
          · rcases List.mem_append.mp member with waiting | member
            · exact none event waiting
            · rcases List.mem_cons.mp member with begun | member
              · rw [begun]
                exact id
              · obtain ⟨call, this⟩ := handled event member
                rw [this]
                exact id
          · rw [was, follows, ← owned.2]
        · exact .inl follows

/-! ## A state that is not carried -/

/-- The answers of a scan that finds the process 7, whose groups tell something. -/
def playScan (cgroup : CgroupStateInfo) (view : View) :
    (operation : SysOp) → Option (SysSig.Res operation × View)
  | .cgroupStateInfo pid => some (cgroup, ⟨view.calls + 1, Function.update view.told pid cgroup⟩)
  | .budgetExhausted => some (false, { view with calls := view.calls + 1 })
  | .afterThreadRead => some ((), { view with calls := view.calls + 1 })
  | .openProc => some (true, { view with calls := view.calls + 1 })
  | .readProc => some
    (if view.calls ≤ 2 then .name (Bytes.ascii "7") else .finished, { view with calls := view.calls + 1 })
  | .openTask _ => some (false, { view with calls := view.calls + 1 })
  | .processStartTime _ _ => some (1, { view with calls := view.calls + 1 })
  | .processName _ => some (Bytes.ascii "app", { view with calls := view.calls + 1 })
  | .processCmdline _ => some (Bytes.ascii "app", { view with calls := view.calls + 1 })
  | .matchProcess _ _ state _ =>
    some ({ effectiveState := state }, { view with calls := view.calls + 1 })
  | .cache call => some ((call.run ∅).1, { view with calls := view.calls + 1 })
  | _ => none

/-- The answers of a handler whose budget has ended when it dispatches a process. -/
def playHandler (states : ProcessStates) :
    (operation : HandlerOp) → Option (HandlerSig.Res operation × ProcessStates)
  | .forgetState pid => some ((), states.erase pid)
  | .resetForPid _ => some ((), states)
  | .invalidateCaches _ => some ((), states)
  | .beginBudget => some ((), states)
  | .cgroupStateInfo _ => some (⟨.top, false⟩, states)
  | .matchProcess _ _ state _ => some ({ effectiveState := state }, states)
  | .dispatch (.processName _) => some (Bytes.ascii "app", states)
  | .dispatch (.processCmdline _) => some (Bytes.ascii "app", states)
  | .dispatch (.openTask _) => some (none, states)
  | .dispatch .exhausted => some (true, states)
  | .dispatch .requestRescan => some ((), states)
  | _ => none

/-- The answers of a scan are possible. -/
theorem step_of_playScan {cgroup : CgroupStateInfo} {operation : SysOp}
    {response : SysSig.Res operation}
    (played : playScan cgroup view operation = some (response, after)) :
    scanMachine.step view operation response after := by
  cases operation with
  | cgroupStateInfo pid | budgetExhausted | afterThreadRead | openProc | readProc | openTask pid
  | processStartTime use pid | processName pid | processCmdline pid
  | matchProcess pid procName state cmdline | cache call =>
    cases played
    exact rfl
  | _ => cases played

/-- The answers of the handler are possible. -/
theorem step_of_playHandler {states left : ProcessStates} {operation : HandlerOp}
    {response : HandlerSig.Res operation}
    (played : playHandler states operation = some (response, left)) :
    handlerMachine.step states operation response left := by
  cases operation with
  | forgetState pid | resetForPid pid | invalidateCaches pid | beginBudget | cgroupStateInfo pid
  | matchProcess pid procName state cmdline =>
    cases played
    exact rfl
  | dispatch operation =>
    cases operation with
    | processName pid | processCmdline pid | openTask pid | exhausted | requestRescan =>
      cases played
      exact rfl
    | _ => cases played
  | _ => cases played

/-- A scan of the process 7. -/
def scanOf (cgroup : CgroupStateInfo) (states : ProcessStates) :
    Option ((Bool × FullScanState) × View) :=
  (advanceFullScan 5 (.beginFrom ∅ states)).exec (Looping.respondWithSpin (playScan cgroup)) {}

/-- The setup of the main loop. -/
def setupOfOne : CycleSetup := ⟨⟨fun _ => 0, fun _ => 0⟩, 1, 5⟩

/-- The process 7 is found in the top application, the handler is called, and the process is found
in groups of ReUperf's own. -/
def scenario (call : HandlerCall) :
    Option (((Bool × FullScanState) × View) × ((Bool × FullScanState) × View)) :=
  (scanOf ⟨.top, false⟩ ∅).bind fun first =>
    ((setupOfOne.handle call).exec (Looping.respondWithSpin playHandler)
      first.1.2.observedStates).bind fun handled =>
        (scanOf ⟨.other, true⟩ handled.2).map fun second => (first, second)

/-- The run of a scenario in which both scans are finished. -/
theorem runs_of_scenario {call : HandlerCall} {first second : FullScanState}
    {firstView view : View}
    (played : scenario call = some (((true, first), firstView), ((true, second), view))) :
    ∃ keeper, Runs setupOfOne
      [.begun, .published first firstView, .handled call, .begun, .published second view] keeper := by
  obtain ⟨scanned, firstPlayed, played⟩ := Option.bind_eq_some_iff.mp played
  obtain ⟨handled, handlerPlayed, played⟩ := Option.bind_eq_some_iff.mp played
  obtain ⟨again, secondPlayed, same⟩ := Option.map_eq_some_iff.mp played
  obtain ⟨rfl, rfl⟩ := Prod.mk.inj same
  have begun := Runs.begin (@Runs.start setupOfOne) rfl ∅
  have published := begun.publish (Looping.run_of_exec step_of_playScan firstPlayed)
  have reported := published.handle (Looping.run_of_exec step_of_playHandler handlerPlayed)
  have begunAgain := reported.begin rfl ∅
  exact ⟨_, begunAgain.publish (Looping.run_of_exec step_of_playScan secondPlayed)⟩

/-- What is seen of a scenario: whether both scans are finished and the second one is told that
the groups are ReUperf's, and the two states recorded. -/
def seenOf (found : ((Bool × FullScanState) × View) × ((Bool × FullScanState) × View)) :
    Bool × Option (Nat × ProcessState) × Option (Nat × ProcessState) :=
  (found.1.1.1 && found.2.1.1 && decide (found.2.2.told 7 = ⟨.other, true⟩),
    found.1.1.2.observedStates.lookup 7, found.2.1.2.observedStates.lookup 7)

/-- A run in which the second scan is told that the groups are ReUperf's. -/
theorem runs_of_seenOf {call : HandlerCall} {state next : ProcessState}
    (played : (scenario call).map seenOf = some (true, some (1, state), some (1, next))) :
    ∃ first firstView second view keeper,
      Runs setupOfOne
        [.begun, .published first firstView, .handled call, .begun, .published second view] keeper ∧
      first.observedStates.lookup 7 = some (1, state) ∧
      second.observedStates.lookup 7 = some (1, next) ∧ view.Hides 7 := by
  obtain ⟨⟨⟨⟨finished, first⟩, firstView⟩, ⟨finishedAgain, second⟩, view⟩, played, seen⟩ :=
    Option.map_eq_some_iff.mp played
  obtain ⟨complete, states⟩ := Prod.mk.inj seen
  obtain ⟨recorded, recordedAgain⟩ := Prod.mk.inj states
  rw [Bool.and_eq_true, Bool.and_eq_true, decide_eq_true_eq] at complete
  obtain ⟨⟨complete, completeAgain⟩, hidden⟩ := complete
  obtain rfl : finished = true := complete
  obtain rfl : finishedAgain = true := completeAgain
  obtain ⟨keeper, runs⟩ := runs_of_scenario played
  exact ⟨first, firstView, second, view, keeper, runs, recorded, recordedAgain, hidden⟩

/-- Between the two scans of a scenario no scan is finished. -/
theorem unpublished_handled (call : HandlerCall) :
    ∀ event ∈ [StateEvent.handled call, .begun], ¬ event.IsPublished := by
  intro event member
  rcases List.mem_cons.mp member with this | member
  · rw [this]
    exact id
  · rw [List.mem_singleton.mp member]
    exact id

/-- The state of a hidden process is carried over when another process is reported dead. -/
theorem carries_of_runs_dead : ∃ first firstView second view,
    first.observedStates.lookup 7 = some (1, .top) ∧
    second.observedStates.lookup 7 = some (1, .top) ∧ view.Hides 7 ∧
    Carries [.begun, .published first firstView, .handled { deadPids := {8} }, .begun,
      .published second view] := by
  have played : (scenario { deadPids := {8} }).map seenOf =
      some (true, some (1, .top), some (1, .top)) := by decide +kernel
  obtain ⟨first, firstView, second, view, keeper, runs, top, still, hidden⟩ := runs_of_seenOf played
  exact ⟨first, firstView, second, view, top, still, hidden, carries_of_runs runs⟩

/-- A process of the top application that is reported late is taken for one in the background when
ReUperf hides its groups. -/
theorem carries_fails : ¬ ∀ (setup : CycleSetup) (history : List StateEvent) (keeper : Keeper),
    Runs setup history keeper → ∀ before first firstView between second view after,
      history = before ++ .published first firstView :: between ++ .published second view :: after →
      (∀ event ∈ between, ¬ event.IsPublished) → ∀ pid startTime state next,
      first.observedStates.lookup pid = some (startTime, state) →
      second.observedStates.lookup pid = some (startTime, next) → view.Hides pid →
      next = state := by
  intro claim
  have played : (scenario { newPids := {7} }).map seenOf =
      some (true, some (1, .top), some (1, .bg)) := by decide +kernel
  obtain ⟨first, firstView, second, view, keeper, runs, top, bg, hidden⟩ := runs_of_seenOf played
  have same := claim setupOfOne _ keeper runs [.begun] first firstView
    [.handled { newPids := {7} }, .begun] second view [] rfl (unpublished_handled _) 7 1 .top .bg
    top bg hidden
  cases same

end CarriedStates

end ReUperf
