import ReUperf.Main.Cycle

/-!
# Rescan requests

Dropped events, incremental dispatches that remain incomplete, overflows of the monitor and
failures of the event handler request a full scan by setting `full_rescan_needed`. The main loop
uses the same flag to remind itself of a full cycle that is not closed, and clears it at the start
of every iteration. The module proves when no request is lost that way: when the main loop closes
a full cycle with the flag clear, nothing may have been requested since that cycle began.
-/

namespace ReUperf

open Effect Main

/-! ## Histories -/

/-- What has happened to a main loop, as far as full scans are concerned. -/
inductive RescanEvent
  /-- A full rescan was requested. -/
  | requested
  /-- A full cycle began. -/
  | begun
  /-- A full cycle completed. -/
  | completed
  deriving DecidableEq

/-- Every request was made before the beginning of a full cycle that has since completed. -/
def Compensated (history : List RescanEvent) : Prop :=
  ∀ before after, history = before ++ .requested :: after →
    ∃ idle during since, after = idle ++ .begun :: (during ++ .completed :: since) ∧
      .begun ∉ during

/-- Whether something was requested since the last cycle began. -/
def requestedSince (history : List RescanEvent) : Bool :=
  history.foldl
    (fun requested event => match event with
      | .requested => true
      | .begun => false
      | .completed => requested)
    false

/-- A cycle has begun and nothing else has since. -/
def InCycle (history : List RescanEvent) : Prop :=
  ∃ before during, history = before ++ .begun :: during ∧ .begun ∉ during

variable {history : List RescanEvent}

/-- Requests are made since the last cycle began when the part of the history after its
beginning has one. -/
theorem requestedSince_inCycle {before during : List RescanEvent} (quiet : .begun ∉ during) :
    requestedSince (before ++ .begun :: during) = decide (.requested ∈ during) := by
  rw [requestedSince, List.foldl_append, List.foldl_cons]
  induction during using List.reverseRecOn with
  | nil => rfl
  | append_singleton earlier event ih =>
    have before : .begun ∉ earlier := fun member => quiet (List.mem_append_left _ member)
    rw [List.foldl_append, List.foldl_cons, List.foldl_nil, ih before]
    cases event with
    | requested => simp
    | begun => exact absurd (List.mem_append_right _ (List.mem_singleton_self _)) quiet
    | completed => simp

/-- What happens next, unless it is the beginning of a cycle, happens in the cycle. -/
theorem InCycle.append {events : List RescanEvent} (inCycle : InCycle history)
    (quiet : .begun ∉ events) : InCycle (history ++ events) := by
  obtain ⟨before, during, rfl, none⟩ := inCycle
  refine ⟨before, during ++ events, ?_, ?_⟩
  · rw [List.append_assoc, List.cons_append]
  · rw [List.mem_append, not_or]
    exact ⟨none, quiet⟩

/-- The beginning of a cycle is in the cycle. -/
theorem inCycle_begun (history : List RescanEvent) : InCycle (history ++ [.begun]) :=
  ⟨history, [], rfl, List.not_mem_nil⟩

/-- A cycle without requests compensates every request made before it. -/
theorem compensated_completed (inCycle : InCycle history)
    (quiet : requestedSince history = false) : Compensated (history ++ [.completed]) := by
  obtain ⟨earlier, during, rfl, none⟩ := inCycle
  rw [requestedSince_inCycle none, decide_eq_false_iff_not] at quiet
  intro before after split
  have notLast : .requested ∉ .begun :: (during ++ [RescanEvent.completed]) := by
    rw [List.mem_cons, List.mem_append, List.mem_singleton]
    rintro (impossible | inside | impossible)
    · cases impossible
    · exact quiet inside
    · cases impossible
  rw [List.append_assoc, List.cons_append, List.append_eq_append_iff] at split
  rcases split with ⟨between, rfl, left⟩ | ⟨between, rfl, right⟩
  · -- the request would be in the cycle
    refine absurd ?_ notLast
    rw [left]
    exact List.mem_append_right _ List.mem_cons_self
  · cases between with
    | nil =>
      refine absurd ?_ notLast
      rw [List.nil_append] at right
      rw [← right]
      exact List.mem_cons_self
    | cons event rest =>
      obtain ⟨rfl, rfl⟩ := List.cons.inj right
      exact ⟨rest, during, [], rfl, none⟩

/-! ## The machine -/

/-- The flag of a main loop with what has happened to it. -/
structure RescanWorld where
  /-- `full_rescan_needed`. -/
  fullRescanNeeded : Bool := true
  /-- The requests and the cycles so far. -/
  history : List RescanEvent := []

namespace RescanWorld

variable (world : RescanWorld)

/-- Some number of requests from other threads. -/
def request (count : Nat) : RescanWorld where
  fullRescanNeeded := world.fullRescanNeeded || decide (0 < count)
  history := world.history ++ List.replicate count .requested

/-- Set the flag, or leave it, without a request. -/
def mark (marked : Bool) : RescanWorld :=
  { world with fullRescanNeeded := world.fullRescanNeeded || marked }

/-- Add an event. -/
def record (event : RescanEvent) : RescanWorld :=
  { world with history := world.history ++ [event] }

/-- A cycle may be closed: the flag is set, or nothing was requested since the cycle began. -/
def KeepsRequests : Prop :=
  world.fullRescanNeeded = true ∨ requestedSince world.history = false

instance : DecidablePred KeepsRequests := fun world =>
  inferInstanceAs (Decidable (world.fullRescanNeeded = true ∨ requestedSince world.history = false))

end RescanWorld

namespace RescanRequests

variable (allowed : RescanWorld → Prop)

/-- What an operation of the main loop does to the flag. A cycle is closed in the allowed worlds
only. -/
def Perform : RescanWorld → (operation : CycleOp) → CycleSig.Res operation → RescanWorld → Prop
  | world, .exchangeRescan, response, after =>
    response = world.fullRescanNeeded ∧ after = { world with fullRescanNeeded := false }
  | world, .fullScanDue, _, after => after = world
  | world, .beginBudget _, _, after => after = world
  | world, .beginScan, _, after => after = world.record .begun
  | world, .advanceScan, _, after => after = world
  | world, .publishScan, _, after => after = world
  | world, .endCycle, _, after => allowed world ∧ after = world.record .completed
  | world, .dispatch .requestRescan, _, after => after = world.mark true
  | world, .dispatch _, _, after => after = world

/-- An operation of the main loop, before which other threads make some number of requests. -/
def Step (world : RescanWorld) (operation : CycleOp) (response : CycleSig.Res operation)
    (after : RescanWorld) : Prop :=
  ∃ count, Perform allowed (world.request count) operation response after

/-- The machine of the main loop among other threads. -/
def machine : Machine CycleSig RescanWorld where
  step := Step allowed

/-- The states of the main loop between two iterations. -/
inductive Reaches (setup : CycleSetup) : CycleState → RescanWorld → Prop where
  /-- The loop begins. -/
  | start : Reaches setup {} {}
  /-- Other threads make requests. -/
  | request {cycle : CycleState} {world : RescanWorld} (count : Nat)
      (reached : Reaches setup cycle world) : Reaches setup cycle (world.request count)
  /-- The configuration is reloaded, or the monitor is started again. -/
  | mark {cycle : CycleState} {world : RescanWorld} (marked : Bool)
      (reached : Reaches setup cycle world) : Reaches setup cycle (world.mark marked)
  /-- A reload forgets the cycle, whether it succeeds or not. -/
  | reload {cycle : CycleState} {world : RescanWorld} (reached : Reaches setup cycle world) :
      Reaches setup {} world
  /-- An iteration. -/
  | iterate {cycle next : CycleState} {world after : RescanWorld}
      (reached : Reaches setup cycle world)
      (run : Program.Run (machine allowed).withSpin (setup.scanIteration cycle) world next after) :
      Reaches setup next after

/-! ## Operations that neither begin nor close a cycle -/

variable {allowed} {world : RescanWorld} {cycle : CycleState} {setup : CycleSetup}

/-- Requests, or marks, may have been added. -/
structure Quiet (world after : RescanWorld) : Prop where
  /-- The flag is not cleared. -/
  keeps : world.fullRescanNeeded = true → after.fullRescanNeeded = true
  /-- The history grows by requests, which set the flag. -/
  grows : ∃ count, after.history = world.history ++ List.replicate count .requested ∧
    (0 < count → after.fullRescanNeeded = true)

/-- Nothing is quiet. -/
theorem Quiet.refl (world : RescanWorld) : Quiet world world where
  keeps needed := needed
  grows := ⟨0, (List.append_nil _).symm, fun impossible => absurd impossible (by decide)⟩

/-- Requests are quiet. -/
theorem Quiet.request (world : RescanWorld) (count : Nat) : Quiet world (world.request count) where
  keeps needed := by rw [RescanWorld.request, needed, Bool.true_or]
  grows := by
    refine ⟨count, rfl, fun positive => ?_⟩
    rw [RescanWorld.request, decide_eq_true positive, Bool.or_true]

/-- Marks after requests are quiet. -/
theorem Quiet.mark {after : RescanWorld} (quiet : Quiet world after) (marked : Bool) :
    Quiet world (after.mark marked) where
  keeps needed := by rw [RescanWorld.mark, quiet.keeps needed, Bool.true_or]
  grows := by
    obtain ⟨count, grown, sets⟩ := quiet.grows
    refine ⟨count, grown, fun positive => ?_⟩
    rw [RescanWorld.mark, sets positive, Bool.true_or]

/-- A cycle goes on while nothing but requests happens. -/
theorem Quiet.inCycle {after : RescanWorld} (quiet : Quiet world after)
    (inCycle : InCycle world.history) : InCycle after.history := by
  obtain ⟨count, grown, -⟩ := quiet.grows
  have requests : .begun ∉ List.replicate count RescanEvent.requested := by
    intro member
    cases List.eq_of_mem_replicate member
  rw [grown]
  exact inCycle.append requests

/-- With the flag clear, every request is compensated. -/
def Settled (world : RescanWorld) : Prop :=
  world.fullRescanNeeded = false → Compensated world.history

/-- Requests set the flag. -/
theorem Quiet.settled {after : RescanWorld} (quiet : Quiet world after) (settled : Settled world) :
    Settled after := by
  intro clear
  obtain ⟨count, grown, sets⟩ := quiet.grows
  have none : count = 0 := by
    by_contra some
    have needed := sets (Nat.pos_of_ne_zero some)
    rw [clear] at needed
    cases needed
  have before : world.fullRescanNeeded = false := by
    by_contra needed
    have kept := quiet.keeps (by simpa using needed)
    rw [clear] at kept
    cases kept
  rw [grown, none, List.replicate_zero, List.append_nil]
  exact settled before

/-- The operations of a dispatch are quiet. -/
theorem quiet_dispatch {operation : DispatchOp} {response : DispatchSig.Res operation}
    {after : RescanWorld} (stepped : Step allowed world (.dispatch operation) response after) :
    Quiet world after := by
  obtain ⟨count, stepped⟩ := stepped
  have requests := Quiet.request world count
  cases operation with
  | requestRescan =>
    rw [show after = (world.request count).mark true from stepped]
    exact requests.mark true
  | _ =>
    rw [show after = world.request count from stepped]
    exact requests

/-- A dispatch keeps what quiet operations keep. -/
theorem wp_liftDispatch {α : Type} {inv : RescanWorld → Prop}
    (steady : ∀ {world after}, Quiet world after → inv world → inv after)
    (program : DispatchProgram α) (holds : inv world) :
    (liftDispatch program).wp (machine allowed).withSpin (fun _ after => inv after) world := by
  let dispatching : Machine DispatchSig RescanWorld :=
    ⟨fun state operation => (machine allowed).step state (.dispatch operation)⟩
  refine (Looping.wp_interpret_rename (M := dispatching) (fun _ _ _ => Iff.rfl) program _ world).mpr ?_
  refine Program.wp_of_step inv ?_ holds
  intro state operation response after kept stepped
  cases operation with
  | none => exact response.elim
  | some operation => exact steady (quiet_dispatch stepped) kept

/-- An operation of a dispatch keeps what quiet operations keep. -/
theorem wp_asCycleOp {inv : RescanWorld → Prop}
    (steady : ∀ {world after}, Quiet world after → inv world → inv after)
    (operation : DispatchOp) (holds : inv world) :
    (asCycleOp operation).wp (machine allowed).withSpin (fun _ after => inv after) world :=
  fun _ _ stepped => steady (quiet_dispatch stepped) holds

/-- The reminder to go on sets the flag. -/
theorem wp_requestRescan (holds : InCycle world.history) :
    (asCycleOp .requestRescan).wp (machine allowed).withSpin
      (fun _ after => after.fullRescanNeeded = true ∧ InCycle after.history) world := by
  intro _ after stepped
  have inCycle := (quiet_dispatch stepped).inCycle holds
  obtain ⟨count, stepped⟩ := stepped
  obtain rfl : after = (world.request count).mark true := stepped
  exact ⟨Bool.or_true _, inCycle⟩

/-! ## One iteration -/

/-- What holds between two iterations. -/
structure Between (cycle : CycleState) (world : RescanWorld) : Prop where
  /-- The flag reminds of an active cycle. -/
  active : cycle.fullCycleActive = true →
    world.fullRescanNeeded = true ∧ InCycle world.history
  /-- Without an active cycle nothing is lost. -/
  idle : cycle.fullCycleActive = false → Settled world

/-- Quiet operations keep what holds between two iterations. -/
theorem Between.quiet {after : RescanWorld} (between : Between cycle world)
    (quiet : Quiet world after) : Between cycle after where
  active running :=
    ⟨quiet.keeps (between.active running).1, quiet.inCycle (between.active running).2⟩
  idle ended := quiet.settled (between.idle ended)

/-- A reload forgets the cycle. -/
theorem Between.reload (between : Between cycle world) : Between {} world where
  active running := absurd running Bool.false_ne_true
  idle _ clear := by
    cases running : cycle.fullCycleActive with
    | false => exact between.idle running clear
    | true =>
      have needed := (between.active running).1
      rw [clear] at needed
      cases needed

/-- What holds while a cycle is active. -/
structure Active (cycle : CycleState) (world : RescanWorld) : Prop where
  /-- The cycle is active. -/
  active : cycle.fullCycleActive = true
  /-- The cycle has begun. -/
  inCycle : InCycle world.history

/-- The dispatches of a cycle leave it active. -/
theorem wp_dispatchPhases (phases : List ScanPhase) (active : Active cycle world) :
    (setup.dispatchPhases phases cycle).wp (machine allowed).withSpin
      (fun found after => Active found.2 after) world := by
  induction phases generalizing cycle world with
  | nil =>
    rw [CycleSetup.dispatchPhases, Program.wp_bind]
    exact Program.wp_mono (wp_asCycleOp Quiet.inCycle .exhausted active.inCycle)
      fun _ after inCycle => ⟨active.active, inCycle⟩
  | cons phase rest ih =>
    rw [CycleSetup.dispatchPhases, Program.wp_bind]
    refine Program.wp_mono (wp_asCycleOp Quiet.inCycle .exhausted active.inCycle)
      fun ended after inCycle => ?_
    rw [Program.wp_ite]
    split
    · exact ⟨active.active, inCycle⟩
    rw [Program.wp_bind, CycleSetup.dispatchSet]
    refine Program.wp_mono (wp_liftDispatch Quiet.inCycle _ inCycle) fun found later inCycle => ?_
    dsimp only
    rw [Program.wp_ite]
    split
    · exact ⟨active.active, inCycle⟩
    · exact ih ⟨active.active, inCycle⟩

/-- Forgetting cursors leaves the cycle active. -/
theorem wp_resetCursors (phases : List ScanPhase) :
    (CycleSetup.resetCursors phases cycle).wp (machine allowed).withSpin
      (fun next _ => next.fullCycleActive = cycle.fullCycleActive) world := by
  induction phases generalizing cycle world with
  | nil => rfl
  | cons phase rest ih =>
    rw [CycleSetup.resetCursors, Program.wp_bind]
    exact Program.wp_of_forall fun cursor after => ih

/-- A cycle that is not active begins. -/
theorem wp_ensureCycle (inCycle : cycle.fullCycleActive = true → InCycle world.history) :
    (CycleSetup.ensureCycle cycle).wp (machine allowed).withSpin Active world := by
  rw [CycleSetup.ensureCycle, Program.wp_ite]
  split
  · next running => exact ⟨running, inCycle running⟩
  rw [CycleSetup.beginCycle, Program.wp_bind]
  refine Program.wp_mono (wp_resetCursors scanPhases) fun next middle running => ?_
  rw [Program.wp_bind]
  intro _ after stepped
  obtain ⟨count, stepped⟩ := stepped
  obtain rfl : after = (middle.request count).record .begun := stepped
  exact ⟨running, inCycle_begun _⟩

/-- The scan of a cycle leaves it active. -/
theorem wp_ensureScan (active : Active cycle world) :
    (CycleSetup.ensureScan cycle).wp (machine allowed).withSpin Active world := by
  rw [CycleSetup.ensureScan, Program.wp_ite]
  split
  · rw [CycleSetup.continueScan, Program.wp_bind]
    intro finished middle stepped
    obtain ⟨count, stepped⟩ := stepped
    obtain rfl : middle = world.request count := stepped
    have inCycle := (Quiet.request world count).inCycle active.inCycle
    rw [Program.wp_ret, Program.wp_ite]
    split
    · rw [Program.wp_bind]
      intro pids after stepped
      obtain ⟨more, stepped⟩ := stepped
      obtain rfl : after = (world.request count).request more := stepped
      exact ⟨active.active, (Quiet.request _ more).inCycle inCycle⟩
    · rw [Program.wp_bind]
      exact Program.wp_mono (wp_requestRescan inCycle)
        fun _ after reached => ⟨active.active, reached.2⟩
  · exact active

/-- A cycle is closed, or the flag reminds of it. -/
theorem wp_closeCycle {incomplete : Bool} (active : Active cycle world) :
    (CycleSetup.closeCycle cycle incomplete).wp
      (machine RescanWorld.KeepsRequests).withSpin Between world := by
  have later : ∀ {world : RescanWorld}, InCycle world.history →
      (do asCycleOp .requestRescan; pure cycle : CycleProgram CycleState).wp
        (machine RescanWorld.KeepsRequests).withSpin Between world := by
    intro world inCycle
    rw [Program.wp_bind]
    refine Program.wp_mono (wp_requestRescan inCycle) fun _ after reached => ?_
    exact ⟨fun _ => reached, fun ended => absurd active.active (by rw [ended]; decide)⟩
  rw [CycleSetup.closeCycle, Program.wp_ite]
  split
  · exact later active.inCycle
  rw [Program.wp_bind]
  refine Program.wp_mono (wp_asCycleOp Quiet.inCycle .exhausted active.inCycle)
    fun exhausted middle inCycle => ?_
  rw [Program.wp_ite]
  split
  · exact later inCycle
  rw [Program.wp_ite]
  split
  · exact later inCycle
  rw [Program.wp_bind]
  intro _ after stepped
  obtain ⟨count, keeps, rfl⟩ := stepped
  have inCycle := (Quiet.request middle count).inCycle inCycle
  refine ⟨fun running => absurd running Bool.false_ne_true, fun _ clear => ?_⟩
  -- the flag is clear, so nothing was requested since the cycle began
  rcases keeps with needed | quiet
  · rw [show (middle.request count).fullRescanNeeded = false from clear] at needed
    cases needed
  · exact compensated_completed inCycle quiet

/-- The high-speed path leaves nothing lost. -/
theorem wp_dispatchFast (phases : List ScanPhase) (processed : Finset Int)
    (idle : cycle.fullCycleActive = false) (settled : Settled world) :
    (setup.dispatchFast phases cycle processed).wp (machine allowed).withSpin
      (fun next after => next.fullCycleActive = false ∧ Settled after) world := by
  induction phases generalizing processed cycle world with
  | nil => exact ⟨idle, settled⟩
  | cons phase rest ih =>
    rw [CycleSetup.dispatchFast, Program.wp_bind, CycleSetup.dispatchSet]
    refine Program.wp_mono (wp_liftDispatch Quiet.settled _ settled) fun found after settled => ?_
    dsimp only
    rw [Program.wp_ite]
    split
    · exact ⟨idle, settled⟩
    rw [Program.wp_ite]
    split
    · exact ⟨idle, settled⟩
    rw [Program.wp_bind]
    refine Program.wp_mono (wp_asCycleOp Quiet.settled .exhausted settled)
      fun ended after settled => ?_
    rw [Program.wp_ite]
    split
    · exact ⟨idle, settled⟩
    · exact ih found.2.processed idle settled

/-- Without an active cycle and with nothing lost, the loop may go on. -/
theorem between_of_settled (idle : cycle.fullCycleActive = false) (settled : Settled world) :
    Between cycle world where
  active running := absurd (idle.symm.trans running) Bool.false_ne_true
  idle _ := settled

/-- The high-speed path keeps what holds between two iterations. -/
theorem wp_highSpeed (idle : cycle.fullCycleActive = false) (settled : Settled world) :
    (setup.highSpeed cycle).wp (machine allowed).withSpin Between world := by
  rw [CycleSetup.highSpeed, Program.wp_bind]
  intro _ after stepped
  obtain ⟨count, stepped⟩ := stepped
  obtain rfl : after = world.request count := stepped
  rw [Program.wp_ret]
  have settled := (Quiet.request world count).settled settled
  exact Program.wp_mono (wp_dispatchFast _ ∅ idle settled)
    fun next after reached => between_of_settled reached.1 reached.2

/-- A full cycle leaves what holds between two iterations. -/
theorem wp_fullCycle (inCycle : cycle.fullCycleActive = true → InCycle world.history) :
    (setup.fullCycle cycle).wp (machine RescanWorld.KeepsRequests).withSpin Between world := by
  rw [CycleSetup.fullCycle, Program.wp_bind]
  intro _ after stepped
  obtain ⟨count, stepped⟩ := stepped
  obtain rfl : after = world.request count := stepped
  rw [Program.wp_ret, Program.wp_bind]
  have inCycle : cycle.fullCycleActive = true → InCycle (world.request count).history :=
    fun running => (Quiet.request world count).inCycle (inCycle running)
  refine Program.wp_mono (wp_ensureCycle inCycle) fun begun middle active => ?_
  rw [Program.wp_bind]
  refine Program.wp_mono (wp_ensureScan active) fun scanned later active => ?_
  rw [Program.wp_bind, CycleSetup.dispatchCycle, Program.wp_ite]
  split
  · exact wp_closeCycle active
  · exact Program.wp_mono (wp_dispatchPhases _ active) fun found last active =>
      wp_closeCycle active

/-- One iteration keeps what holds between two. -/
theorem wp_scanIteration (between : Between cycle world) :
    (setup.scanIteration cycle).wp (machine RescanWorld.KeepsRequests).withSpin Between world := by
  rw [CycleSetup.scanIteration, CycleSetup.runFullScan, Program.wp_bind, Program.wp_bind]
  intro requested middle stepped
  obtain ⟨count, rfl, rfl⟩ := stepped
  have between := between.quiet (Quiet.request world count)
  rw [Program.wp_ret, Program.wp_ite]
  split
  · exact wp_fullCycle fun running => (between.active running).2
  next clear =>
  have clear : (world.request count).fullRescanNeeded = false := by simpa using clear
  have idle : cycle.fullCycleActive = false := by
    cases running : cycle.fullCycleActive with
    | false => rfl
    | true => exact absurd (between.active running).1 (by rw [clear]; decide)
  intro due after stepped
  obtain ⟨more, stepped⟩ := stepped
  obtain rfl : after = _ := stepped
  rw [Program.wp_ret, Program.wp_ite]
  split
  · exact wp_fullCycle fun running => absurd (idle.symm.trans running) Bool.false_ne_true
  · refine wp_highSpeed idle ((Quiet.request _ more).settled ?_)
    exact fun _ => between.idle idle clear

/-- What holds between two iterations holds after any number of them. -/
theorem Reaches.between (reached : Reaches RescanWorld.KeepsRequests setup cycle world) :
    Between cycle world := by
  induction reached with
  | start =>
    refine between_of_settled rfl ?_
    intro clear
    cases clear
  | request count reached ih => exact ih.quiet (Quiet.request _ count)
  | mark marked reached ih => exact ih.quiet ((Quiet.refl _).mark marked)
  | reload reached ih => exact ih.reload
  | iterate reached run ih => exact run.post (wp_scanIteration ih)

/-- In every run in which no full cycle is closed with the flag clear and a request made since it
began, whenever no full cycle is active and the flag is clear, every request was made before the
beginning of a full cycle that has since completed. -/
theorem compensated_of_keepsRequests
    (reached : Reaches RescanWorld.KeepsRequests setup cycle world)
    (idle : cycle.fullCycleActive = false) (clear : world.fullRescanNeeded = false) :
    Compensated world.history :=
  reached.between.idle idle clear

/-! ## A request that is lost -/

/-- A main loop that finds no processes, whose scans end when they are told to. -/
def answer (allowed : RescanWorld → Prop) [DecidablePred allowed] (finished : Bool) :
    RescanWorld → (operation : CycleOp) → Option (CycleSig.Res operation × RescanWorld)
  | world, .exchangeRescan =>
    some (world.fullRescanNeeded, { world with fullRescanNeeded := false })
  | world, .fullScanDue => some (false, world)
  | world, .beginBudget _ => some ((), world)
  | world, .beginScan => some ((), world.record .begun)
  | world, .advanceScan => some (finished, world)
  | world, .publishScan => some (fun _ => ∅, world)
  | world, .endCycle => if allowed world then some ((), world.record .completed) else none
  | world, .dispatch .exhausted => some (false, world)
  | world, .dispatch .requestRescan => some ((), world.mark true)
  | _, .dispatch _ => none

/-- No request changes nothing. -/
theorem request_zero (world : RescanWorld) : world.request 0 = world := by
  rw [RescanWorld.request, List.replicate_zero, List.append_nil]
  exact congrArg (fun needed => RescanWorld.mk needed world.history) (Bool.or_false _)

/-- The answers are possible on the machine of the main loop. -/
theorem step_of_answer [DecidablePred allowed] {finished : Bool} {after : RescanWorld}
    {operation : CycleSig.withSpin.Op} {response : CycleSig.withSpin.Res operation}
    (answered : Looping.respondWithSpin (answer allowed finished) world operation =
      some (response, after)) : (machine allowed).withSpin.step world operation response after := by
  cases operation with
  | none => exact response.elim
  | some operation =>
    refine ⟨0, ?_⟩
    rw [request_zero]
    rw [Looping.respondWithSpin] at answered
    cases operation with
    | dispatch operation =>
      cases operation with
      | exhausted | requestRescan =>
        cases answered
        exact rfl
      | _ => cases answered
    | exchangeRescan =>
      cases answered
      exact ⟨rfl, rfl⟩
    | endCycle =>
      rw [answer] at answered
      split at answered
      · next holds =>
        cases answered
        exact ⟨holds, rfl⟩
      · cases answered
    | fullScanDue | beginBudget fullScan | beginScan | advanceScan | publishScan =>
      cases answered
      exact rfl

/-- A main loop whose dispatches find no processes. -/
def idleSetup : CycleSetup := ⟨⟨fun _ => 0, fun _ => 0⟩, 4, 1⟩

/-- The state a main loop leaves, apart from its cursors. -/
def seen (found : CycleState × RescanWorld) : Bool × Bool × List RescanEvent :=
  (found.1.fullCycleActive, found.2.fullRescanNeeded, found.2.history)

/-- A request before the first scan is compensated by the cycle of the first iteration. -/
theorem compensated_of_keepsRequests_early : ∃ cycle world,
    Reaches RescanWorld.KeepsRequests idleSetup cycle world ∧
      world.history = [.requested, .begun, .completed] ∧ Compensated world.history := by
  have closes : (Program.exec (S := CycleSig.withSpin)
      (Looping.respondWithSpin (answer RescanWorld.KeepsRequests true))
      (idleSetup.scanIteration {}) (RescanWorld.request {} 1)).map seen =
      some (false, false, [.requested, .begun, .completed]) := by decide +kernel
  obtain ⟨⟨cycle, world⟩, executed, same⟩ := Option.map_eq_some_iff.mp closes
  obtain ⟨idle, rest⟩ := Prod.mk.inj same
  obtain ⟨clear, history⟩ := Prod.mk.inj rest
  have reached : Reaches RescanWorld.KeepsRequests idleSetup cycle world :=
    .iterate (.request 1 .start) (Program.run_of_exec step_of_answer executed)
  exact ⟨cycle, world, reached, history, compensated_of_keepsRequests reached idle clear⟩

/-- A request that comes while the scan of a cycle is unfinished is consumed by the iteration
that goes on with the cycle, and the cycle it is made in is the last one. -/
theorem compensated_fails : ∃ cycle world,
    Reaches (fun _ => True) idleSetup cycle world ∧ cycle.fullCycleActive = false ∧
      world.fullRescanNeeded = false ∧ ¬ Compensated world.history := by
  have closes : ((Program.exec (S := CycleSig.withSpin)
      (Looping.respondWithSpin (answer (fun _ => True) false)) (idleSetup.scanIteration {}) {}).bind
        fun found => Program.exec (S := CycleSig.withSpin)
          (Looping.respondWithSpin (answer (fun _ => True) true))
          (idleSetup.scanIteration found.1) (found.2.request 1)).map seen =
      some (false, false, [.begun, .requested, .completed]) := by decide +kernel
  obtain ⟨⟨cycle, world⟩, executed, same⟩ := Option.map_eq_some_iff.mp closes
  obtain ⟨⟨middle, between⟩, first, second⟩ := Option.bind_eq_some_iff.mp executed
  obtain ⟨idle, rest⟩ := Prod.mk.inj same
  obtain ⟨clear, history⟩ := Prod.mk.inj rest
  have begun : Reaches (fun _ => True) idleSetup middle between :=
    .iterate .start (Program.run_of_exec step_of_answer first)
  have reached : Reaches (fun _ => True) idleSetup cycle world :=
    .iterate (.request 1 begun) (Program.run_of_exec step_of_answer second)
  refine ⟨cycle, world, reached, idle, clear, fun compensated => ?_⟩
  have history : world.history = [.begun] ++ .requested :: [.completed] := history
  obtain ⟨before, during, since, split, -⟩ := compensated _ _ history
  have member : RescanEvent.begun ∈ [RescanEvent.completed] := by
    rw [split]
    exact List.mem_append_right _ List.mem_cons_self
  cases List.mem_singleton.mp member

end RescanRequests

end ReUperf
