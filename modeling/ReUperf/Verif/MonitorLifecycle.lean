import ReUperf.Core.ProcMonitor
import ReUperf.Lib.Handles

/-!
# The life of the monitor

The monitor is started and stopped again and again, any call it makes can fail, and its thread can
end by itself at any time. The module shows what holds between any two of these calls: the
descriptors that are open are those of the monitor, there is one thread at most, and the thread
never uses a descriptor that was closed.
-/

namespace ReUperf

open Effect

/-- How far the thread of the monitor is. -/
inductive MonitorThreadState
  /-- In its loop. -/
  | looping
  /-- It has stored that it does not run. -/
  | leaving
  /-- It has ended. -/
  | ended
  deriving DecidableEq

/-- A monitor with what the system knows of it. -/
structure MonitorWorld where
  /-- `running_`. -/
  running : Bool := false
  /-- `started_`. -/
  started : Bool := false
  /-- The thread that was not joined, with the descriptors it uses. -/
  thread : Option (MonitorFds × MonitorThreadState) := none
  /-- The open descriptors. -/
  descriptors : Handles Int := {}
  /-- Whether a thread was constructed while there was one, which ends the program. -/
  terminated : Bool := false

namespace MonitorWorld

/-- One step of the monitor's thread. -/
inductive ThreadStep : MonitorWorld → MonitorWorld → Prop where
  /-- The thread uses its descriptors. -/
  | use {world : MonitorWorld} {fds : MonitorFds} (loops : world.thread = some (fds, .looping)) :
      ThreadStep world { world with
        descriptors := (world.descriptors.use fds.inotifyFd).use fds.stopFd }
  /-- The thread leaves its loop, for whatever reason. -/
  | leave {world : MonitorWorld} {fds : MonitorFds} (loops : world.thread = some (fds, .looping)) :
      ThreadStep world { world with running := false, thread := some (fds, .leaving) }
  /-- The thread ends. -/
  | finish {world : MonitorWorld} {fds : MonitorFds}
      (leaves : world.thread = some (fds, .leaving)) :
      ThreadStep world { world with started := false, thread := some (fds, .ended) }

/-- What the operations of the controlling thread do. -/
def answers : MonitorWorld → (operation : MonitorControlOp) → MonitorControlSig.Res operation →
    MonitorWorld → Prop
  | world, .loadStarted, value, after => value = world.started ∧ after = world
  | world, .exchangeStarted, value, after =>
    value = world.started ∧ after = { world with started := false }
  | world, .exchangeRunning, value, after =>
    value = world.running ∧ after = { world with running := false }
  | world, .storeRunning value, _, after => after = { world with running := value }
  | world, .storeStarted value, _, after => after = { world with started := value }
  | world, .joinable, value, after => value = world.thread.isSome ∧ after = world
  | world, .inotifyInit, none, after | world, .eventFd, none, after => after = world
  | world, .inotifyInit, some fd, after | world, .eventFd, some fd, after =>
    0 ≤ fd ∧ fd ∉ world.descriptors.held ∧
      after = { world with descriptors := world.descriptors.acquire fd }
  | world, .addWatch fd, _, after | world, .signalStop fd, _, after =>
    after = { world with descriptors := world.descriptors.use fd }
  | world, .spawn fds, true, after =>
    after = { world with
      thread := some (fds, .looping), terminated := world.terminated || world.thread.isSome }
  | world, .spawn _, false, after => after = world
  | world, .join, _, after =>
    (∃ fds, world.thread = some (fds, .ended)) ∧ after = { world with thread := none }
  | world, .close fd, _, after =>
    after = { world with descriptors := world.descriptors.release fd }

/-- The controlling thread beside the monitor's thread, which can take steps before each of its
operations. -/
def machine : Machine MonitorControlSig MonitorWorld where
  step world operation response after :=
    ∃ middle, Relation.ReflTransGen ThreadStep world middle ∧
      answers middle operation response after

/-! ## The invariant -/

/-- What the flags are when the thread is somewhere. -/
def flagsOf : MonitorThreadState → Bool × Bool
  | .looping => (true, true)
  | .leaving => (false, true)
  | .ended => (false, false)

/-- Two open descriptors. -/
structure Opened (fds : MonitorFds) : Prop where
  /-- The watch is open. -/
  inotify : 0 ≤ fds.inotifyFd
  /-- The stop signal is open. -/
  stop : 0 ≤ fds.stopFd
  /-- They are two. -/
  differ : fds.inotifyFd ≠ fds.stopFd

/-- The open descriptors of a started monitor. -/
def handlesOf (fds : MonitorFds) : Handles Int :=
  (Handles.acquire {} fds.inotifyFd).acquire fds.stopFd

/-- A monitor with a thread that uses its descriptors. -/
structure Threaded (fds : MonitorFds) (state : MonitorThreadState) (world : MonitorWorld) : Prop where
  /-- The monitor's descriptors are open. -/
  opened : Opened fds
  /-- They are the only ones, and no other was used. -/
  descriptors : world.descriptors = handlesOf fds
  /-- The thread uses them. -/
  thread : world.thread = some (fds, state)
  /-- No second thread was constructed. -/
  terminated : world.terminated = false

/-- Between two calls the monitor is stopped, or it has a thread whose state the flags tell. -/
def Owned (fds : MonitorFds) (world : MonitorWorld) : Prop :=
  (fds = {} ∧ world = {}) ∨
    ∃ state, Threaded fds state world ∧ (world.running, world.started) = flagsOf state

variable {world after : MonitorWorld} {fds : MonitorFds} {state : MonitorThreadState}

/-- The descriptors of a started monitor can be used. -/
theorem Threaded.usable (threaded : Threaded fds state world) :
    fds.inotifyFd ∈ world.descriptors.held ∧ fds.stopFd ∈ world.descriptors.held := by
  rw [threaded.descriptors, handlesOf]
  simp

/-- A monitor without a thread stands still. -/
theorem eq_of_threadless (none : world.thread = none)
    (steps : Relation.ReflTransGen ThreadStep world after) : after = world := by
  induction steps with
  | refl => rfl
  | tail _ step ih =>
    subst ih
    cases step with
    | use loops => simp [none] at loops
    | leave loops => simp [none] at loops
    | finish leaves => simp [none] at leaves

/-- A step of the thread leaves the descriptors, and no flag is set by it. -/
theorem Threaded.step (threaded : Threaded fds state world) (step : ThreadStep world after) :
    ∃ next, Threaded fds next after ∧
      ((world.running, world.started) = flagsOf state →
        (after.running, after.started) = flagsOf next) ∧
      (world.running = false → after.running = false) ∧
      (world.started = false → after.started = false) := by
  obtain ⟨opened, descriptors, thread, terminated⟩ := threaded
  have mine : ∀ {other next}, world.thread = some (other, next) → other = fds ∧ next = state := by
    intro other next same
    rw [thread, Option.some.injEq] at same
    exact ⟨(congrArg Prod.fst same).symm, (congrArg Prod.snd same).symm⟩
  cases step with
  | @use other loops =>
    obtain ⟨rfl, rfl⟩ := mine loops
    have usable := Threaded.usable ⟨opened, descriptors, thread, terminated⟩
    have same : (world.descriptors.use other.inotifyFd).use other.stopFd = world.descriptors := by
      rw [Handles.use_of_mem usable.1, Handles.use_of_mem usable.2]
    exact ⟨_, ⟨opened, same.trans descriptors, thread, terminated⟩, id, id, id⟩
  | leave loops =>
    obtain ⟨rfl, rfl⟩ := mine loops
    refine ⟨.leaving, ⟨opened, descriptors, rfl, terminated⟩, fun flags => ?_, fun _ => rfl, id⟩
    have started : world.started = true := congrArg Prod.snd flags
    exact Prod.ext rfl started
  | finish leaves =>
    obtain ⟨rfl, rfl⟩ := mine leaves
    refine ⟨.ended, ⟨opened, descriptors, rfl, terminated⟩, fun flags => ?_, id, fun _ => rfl⟩
    have running : world.running = false := congrArg Prod.fst flags
    exact Prod.ext running rfl

/-- Any number of steps of the thread. -/
theorem Threaded.steps (threaded : Threaded fds state world)
    (steps : Relation.ReflTransGen ThreadStep world after) :
    ∃ next, Threaded fds next after ∧
      ((world.running, world.started) = flagsOf state →
        (after.running, after.started) = flagsOf next) ∧
      (world.running = false → after.running = false) ∧
      (world.started = false → after.started = false) := by
  induction steps with
  | refl => exact ⟨state, threaded, id, id, id⟩
  | tail _ step ih =>
    obtain ⟨middle, holds, flags, running, started⟩ := ih
    obtain ⟨next, now, later, stays, remains⟩ := holds.step step
    exact ⟨next, now, fun given => later (flags given), fun off => stays (running off),
      fun off => remains (started off)⟩

/-- Steps of the thread keep what holds between two calls. -/
theorem Owned.steps (owned : Owned fds world)
    (steps : Relation.ReflTransGen ThreadStep world after) : Owned fds after := by
  rcases owned with ⟨none, stopped⟩ | ⟨state, threaded, flags⟩
  · have same : after = world := eq_of_threadless (by rw [stopped]) steps
    exact .inl ⟨none, same.trans stopped⟩
  · obtain ⟨next, now, later, -⟩ := threaded.steps steps
    exact .inr ⟨next, now, later flags⟩

/-! ## Stopping -/

/-- A monitor that is being stopped: its flags are off. -/
structure Stopping (fds : MonitorFds) (world : MonitorWorld) : Prop where
  /-- It has a thread. -/
  threaded : ∃ state, Threaded fds state world
  /-- It does not run. -/
  running : world.running = false
  /-- It is not started. -/
  started : world.started = false

/-- The thread does not set the flags. -/
theorem Stopping.steps (stopping : Stopping fds world)
    (steps : Relation.ReflTransGen ThreadStep world after) : Stopping fds after := by
  obtain ⟨⟨state, threaded⟩, running, started⟩ := stopping
  obtain ⟨next, now, -, stays, remains⟩ := threaded.steps steps
  exact ⟨⟨next, now⟩, stays running, remains started⟩

/-- Nothing is left open when the descriptors of a monitor are closed. -/
theorem release_handlesOf (opened : Opened fds) :
    ((handlesOf fds).release fds.inotifyFd).release fds.stopFd = {} := by
  have first : (handlesOf fds).release fds.inotifyFd = Handles.acquire {} fds.stopFd := by
    rw [handlesOf, Handles.acquire_comm]
    refine Handles.release_acquire ?_
    rw [Handles.mem_acquire]
    simp [opened.differ]
  rw [first]
  exact Handles.release_acquire (Finset.notMem_empty _)

/-- Without a thread nothing happens before an operation. -/
theorem wp_op_threadless {operation : MonitorControlOp}
    {post : MonitorControlSig.Res operation → MonitorWorld → Prop} (none : world.thread = none)
    (holds : ∀ response after, answers world operation response after → post response after) :
    (controlOp operation).wp machine post world := by
  rw [Program.wp_op]
  intro response after stepped
  obtain ⟨middle, steps, answered⟩ := stepped
  rw [eq_of_threadless none steps] at answered
  exact holds response after answered

/-- An open descriptor is closed, when there is no thread. -/
theorem closeIfOpen_open {post : Unit → MonitorWorld → Prop} {fd : Int} (opened : 0 ≤ fd)
    (none : world.thread = none)
    (holds : post () { world with descriptors := world.descriptors.release fd }) :
    (ProcMonitor.closeIfOpen fd).wp machine post world := by
  rw [ProcMonitor.closeIfOpen, if_pos opened]
  refine wp_op_threadless none fun _ after closed => ?_
  rw [show after = _ from closed]
  exact holds

/-- Joining and closing leave nothing of a monitor that is being stopped. -/
theorem joinAndClose_stopping (stopping : Stopping fds world) :
    (ProcMonitor.joinAndClose fds).wp machine (fun fds after => fds = {} ∧ after = {}) world := by
  rw [ProcMonitor.joinAndClose, Program.wp_bind, Program.wp_op]
  intro joinable asked stepped
  obtain ⟨middle, steps, value, rfl⟩ := stepped
  have now := stopping.steps steps
  have isThere : joinable = true := by
    obtain ⟨state, threaded⟩ := now.threaded
    rw [value, threaded.thread]
    rfl
  rw [if_pos isThere, Program.wp_bind, Program.wp_op]
  intro _ joined stepped
  obtain ⟨middle, steps, -, rfl⟩ := stepped
  obtain ⟨⟨last, still⟩, running, started⟩ := now.steps steps
  have closing : { middle with thread := none } =
      { descriptors := handlesOf fds : MonitorWorld } := by
    obtain ⟨runs, starts, thread, descriptors, terminated⟩ := middle
    rw [show runs = false from running, show starts = false from started,
      show descriptors = handlesOf fds from still.descriptors,
      show terminated = false from still.terminated]
  rw [closing, Program.wp_bind]
  refine closeIfOpen_open still.opened.inotify rfl ?_
  rw [Program.wp_bind]
  refine closeIfOpen_open still.opened.stop rfl ?_
  dsimp only
  rw [release_handlesOf still.opened]
  exact ⟨rfl, rfl⟩

/-- Joining and closing do nothing to a monitor that is stopped. -/
theorem joinAndClose_stopped :
    (ProcMonitor.joinAndClose {}).wp machine (fun fds after => fds = {} ∧ after = {}) {} := by
  rw [ProcMonitor.joinAndClose, Program.wp_bind]
  refine wp_op_threadless rfl fun joinable asked answered => ?_
  obtain ⟨rfl, rfl⟩ := answered
  exact ⟨rfl, rfl⟩

/-- A stopped monitor has no thread and no open descriptor. -/
theorem stop_stopped (owned : Owned fds world) :
    (ProcMonitor.stop fds).wp machine (fun fds after => fds = {} ∧ after = {}) world := by
  rw [ProcMonitor.stop, Program.wp_bind, Program.wp_op]
  intro wasStarted first stepped
  obtain ⟨middle, steps, -, rfl⟩ := stepped
  rw [Program.wp_bind, Program.wp_op]
  intro wasRunning second stepped
  obtain ⟨later, more, value, rfl⟩ := stepped
  rcases owned.steps steps with ⟨rfl, rfl⟩ | ⟨state, threaded, -⟩
  · obtain rfl := eq_of_threadless rfl more
    obtain rfl : wasRunning = false := value
    exact joinAndClose_stopped
  · have marked : Threaded fds state { middle with started := false } :=
      ⟨threaded.opened, threaded.descriptors, threaded.thread, threaded.terminated⟩
    obtain ⟨next, now, -, -, remains⟩ := marked.steps more
    have stopping : Stopping fds { later with running := false } :=
      ⟨⟨next, now.opened, now.descriptors, now.thread, now.terminated⟩, rfl, remains rfl⟩
    rw [Program.wp_ite]
    split
    · rw [Program.wp_bind, Program.wp_op]
      intro _ signalled stepped
      obtain ⟨last, steps, rfl⟩ := stepped
      have still := stopping.steps steps
      obtain ⟨⟨final, held⟩, running, started⟩ := still
      have same : { last with descriptors := last.descriptors.use fds.stopFd } = last := by
        rw [Handles.use_of_mem held.usable.2]
      rw [same]
      exact joinAndClose_stopping ⟨⟨final, held⟩, running, started⟩
    · exact joinAndClose_stopping stopping

/-! ## Starting -/

/-- The thread starts with the descriptors, or nothing is left. -/
theorem startThread_owned (opened : Opened fds) :
    (ProcMonitor.startThread fds).wp machine (fun result after => Owned result.2 after)
      { descriptors := handlesOf fds } := by
  rw [ProcMonitor.startThread, Program.wp_bind]
  refine wp_op_threadless rfl fun _ first stored => ?_
  rw [show first = _ from stored, Program.wp_bind]
  refine wp_op_threadless rfl fun _ second stored => ?_
  rw [show second = _ from stored, Program.wp_bind]
  refine wp_op_threadless rfl fun spawned third answered => ?_
  rw [Program.wp_ite]
  cases spawned with
  | true =>
    rw [if_pos rfl, show third = _ from answered]
    exact .inr ⟨.looping, ⟨opened, rfl, rfl, rfl⟩, rfl⟩
  | false =>
    rw [if_neg Bool.false_ne_true, show third = _ from answered, Program.wp_bind]
    refine wp_op_threadless rfl fun _ fourth stored => ?_
    rw [show fourth = _ from stored, Program.wp_bind]
    refine wp_op_threadless rfl fun _ fifth stored => ?_
    rw [show fifth = _ from stored, Program.wp_bind]
    refine wp_op_threadless rfl fun _ sixth closed => ?_
    rw [show sixth = _ from closed, Program.wp_bind]
    refine wp_op_threadless rfl fun _ last closed => ?_
    rw [show last = _ from closed]
    dsimp only
    rw [release_handlesOf opened]
    exact .inl ⟨rfl, rfl⟩

/-- A stopped monitor is started, or nothing is left open. -/
theorem openAndStart_owned :
    (ProcMonitor.openAndStart {}).wp machine (fun result after => Owned result.2 after) {} := by
  have stopped : Owned {} {} := .inl ⟨rfl, rfl⟩
  rw [ProcMonitor.openAndStart, Program.wp_bind]
  refine wp_op_threadless rfl fun watch first answered => ?_
  cases watch with
  | none =>
    rw [show first = _ from answered]
    exact stopped
  | some inotifyFd =>
    obtain ⟨positive, -, rfl⟩ := answered
    have usable : inotifyFd ∈ (Handles.acquire {} inotifyFd).held := by simp
    have watched : (Handles.acquire {} inotifyFd).release inotifyFd = {} :=
      Handles.release_acquire (Finset.notMem_empty _)
    have closes : ∀ result : Option Bool,
        (controlOp (.close inotifyFd) >>= fun _ => pure (result, {})).wp machine
          (fun result after => Owned result.2 after)
          { descriptors := Handles.acquire {} inotifyFd } := by
      intro result
      rw [Program.wp_bind]
      refine wp_op_threadless rfl fun _ last closed => ?_
      rw [show last = _ from closed]
      dsimp only
      rw [watched]
      exact stopped
    rw [Program.wp_bind]
    refine wp_op_threadless rfl fun added second watching => ?_
    rw [show second = _ from watching]
    dsimp only
    rw [Handles.use_of_mem usable, Program.wp_ite]
    split
    · rw [Program.wp_bind]
      refine wp_op_threadless rfl fun signal third answered => ?_
      cases signal with
      | none =>
        rw [show third = _ from answered]
        exact closes (some false)
      | some stopFd =>
        obtain ⟨nonnegative, fresh, rfl⟩ := answered
        have differ : inotifyFd ≠ stopFd := by
          intro same
          rw [same] at fresh
          exact fresh (by simp)
        exact startThread_owned ⟨positive, nonnegative, differ⟩
    · exact closes (some false)

/-- Starting a monitor keeps what holds between two calls. -/
theorem start_owned (owned : Owned fds world) :
    (ProcMonitor.start fds).wp machine (fun result after => Owned result.2 after) world := by
  rw [ProcMonitor.start, Program.wp_bind, Program.wp_op]
  intro started first stepped
  obtain ⟨middle, steps, -, rfl⟩ := stepped
  have held := owned.steps steps
  rw [Program.wp_ite]
  split
  · exact held
  · rw [Program.wp_bind, Program.wp_op]
    intro joinable second stepped
    obtain ⟨middle, steps, value, rfl⟩ := stepped
    replace held := held.steps steps
    rw [Program.wp_ite]
    split
    · rw [Program.wp_bind]
      refine Program.wp_mono (stop_stopped held) ?_
      rintro _ _ ⟨rfl, rfl⟩
      exact openAndStart_owned
    · next closed =>
      rcases held with ⟨rfl, rfl⟩ | ⟨state, threaded, -⟩
      · exact openAndStart_owned
      · refine absurd ?_ closed
        rw [value, threaded.thread]
        exact .inl rfl

/-! ## Runs -/

/-- A call of the program that owns the monitor. -/
inductive Call
  /-- Start the monitor. -/
  | start
  /-- Stop it. -/
  | stop
  deriving DecidableEq

/-- Make one call. -/
def perform (fds : MonitorFds) : Call → MonitorControlProgram MonitorFds
  | .start => do
    let result ← ProcMonitor.start fds
    pure result.2
  | .stop => ProcMonitor.stop fds

/-- Make several calls. -/
def performAll (fds : MonitorFds) : List Call → MonitorControlProgram MonitorFds
  | [] => pure fds
  | call :: calls => do
    let fds ← perform fds call
    performAll fds calls

/-- One call keeps what holds between two calls, and stopping leaves nothing. -/
theorem perform_owned (owned : Owned fds world) (call : Call) :
    (perform fds call).wp machine
      (fun fds after => Owned fds after ∧ (call = .stop → fds = {} ∧ after = {})) world := by
  cases call with
  | start =>
    rw [perform, Program.wp_bind]
    refine Program.wp_mono (start_owned owned) fun result after held => ?_
    exact ⟨held, fun same => Call.noConfusion same⟩
  | stop =>
    refine Program.wp_mono (stop_stopped owned) fun fds after stopped => ?_
    exact ⟨.inl stopped, fun _ => stopped⟩

/-- Several calls keep it, and nothing is left when the last one stops the monitor. -/
theorem performAll_owned (owned : Owned fds world) (calls : List Call) :
    (performAll fds calls).wp machine (fun fds after => Owned fds after ∧
      (calls.getLast? = some .stop → fds = {} ∧ after = {})) world := by
  induction calls generalizing fds world with
  | nil => exact ⟨owned, fun none => absurd none (by simp)⟩
  | cons call calls ih =>
    rw [performAll, Program.wp_bind]
    refine Program.wp_mono (perform_owned owned call) fun middle between held => ?_
    cases calls with
    | nil =>
      refine ⟨held.1, fun last => held.2 ?_⟩
      simpa using last
    | cons next rest =>
      refine Program.wp_mono (ih held.1) fun fds after reached => ?_
      rw [List.getLast?_cons_cons]
      exact reached

/-- However often the monitor is started and stopped, whichever calls fail, and whenever its thread
ends by itself: no thread is constructed beside another, no descriptor is used or closed that is not
open, and the open ones are those of the monitor. A started monitor has a thread that has not ended,
and after a stop nothing is left. -/
theorem run_owned {calls : List Call}
    (run : Program.Run machine (performAll {} calls) {} fds after) :
    after.terminated = false ∧ after.descriptors.misused = false ∧
      (∀ fd, fd ∈ after.descriptors.held ↔ 0 ≤ fd ∧ (fd = fds.inotifyFd ∨ fd = fds.stopFd)) ∧
      (after.started = true → ∃ state, after.thread = some (fds, state) ∧ state ≠ .ended) ∧
      (calls.getLast? = some .stop → after = {}) := by
  have start : Owned {} {} := .inl ⟨rfl, rfl⟩
  have reached := run.post (performAll_owned start calls)
  rcases reached.1 with ⟨rfl, rfl⟩ | ⟨state, threaded, flags⟩
  · refine ⟨rfl, rfl, fun fd => ?_, fun started => absurd started Bool.false_ne_true, fun _ => rfl⟩
    have closed : fd ∉ (∅ : Finset Int) := Finset.notMem_empty fd
    refine iff_of_false closed fun own => ?_
    have negative : fd = -1 := own.2.elim id id
    omega
  · have opened := threaded.opened
    refine ⟨threaded.terminated, ?_, fun fd => ?_, fun started => ?_, fun last => ?_⟩
    · rw [threaded.descriptors]
      rfl
    · have positive := opened.inotify
      have nonnegative := opened.stop
      rw [threaded.descriptors, handlesOf, Handles.mem_acquire, Handles.mem_acquire]
      simp only [Finset.notMem_empty, or_false]
      constructor
      · rintro (rfl | rfl)
        · exact ⟨nonnegative, .inr rfl⟩
        · exact ⟨positive, .inl rfl⟩
      · intro own
        exact own.2.symm
    · refine ⟨state, threaded.thread, ?_⟩
      rintro rfl
      have off : after.started = false := congrArg Prod.snd flags
      rw [off] at started
      exact absurd started Bool.false_ne_true
    · exact (reached.2 last).2

/-- Answers under which every call works, and the thread ends when it is joined. -/
def respondWorking (world : MonitorWorld) : (operation : MonitorControlOp) →
    Option (MonitorControlSig.Res operation × MonitorWorld)
  | .loadStarted => some (world.started, world)
  | .exchangeStarted => some (world.started, { world with started := false })
  | .exchangeRunning => some (world.running, { world with running := false })
  | .storeRunning value => some ((), { world with running := value })
  | .storeStarted value => some ((), { world with started := value })
  | .joinable => some (world.thread.isSome, world)
  | .inotifyInit =>
    if 3 ∉ world.descriptors.held then
      some (some 3, { world with descriptors := world.descriptors.acquire 3 })
    else none
  | .eventFd =>
    if 4 ∉ world.descriptors.held then
      some (some 4, { world with descriptors := world.descriptors.acquire 4 })
    else none
  | .addWatch fd => some (true, { world with descriptors := world.descriptors.use fd })
  | .signalStop fd => some ((), { world with descriptors := world.descriptors.use fd })
  | .spawn fds => some (true, { world with
      thread := some (fds, .looping), terminated := world.terminated || world.thread.isSome })
  | .join =>
    match world.thread with
    | some (_, .looping) => some ((), { world with running := false, started := false, thread := none })
    | _ => none
  | .close fd => some ((), { world with descriptors := world.descriptors.release fd })

/-- Such answers are possible. -/
theorem step_of_respondWorking {operation : MonitorControlOp}
    {response : MonitorControlSig.Res operation}
    (answered : respondWorking world operation = some (response, after)) :
    machine.step world operation response after := by
  cases operation with
  | inotifyInit | eventFd =>
    rw [respondWorking] at answered
    split at answered
    · next fresh =>
      cases answered
      exact ⟨world, .refl, by decide, fresh, rfl⟩
    · cases answered
  | join =>
    rw [respondWorking] at answered
    split at answered
    · next fds loops =>
      cases answered
      have leaves := Relation.ReflTransGen.single (ThreadStep.leave loops)
      exact ⟨_, leaves.tail (.finish rfl), ⟨fds, rfl⟩, rfl⟩
    · cases answered
  | loadStarted | exchangeStarted | exchangeRunning | joinable =>
    cases answered
    exact ⟨world, .refl, rfl, rfl⟩
  | storeRunning | storeStarted | addWatch | signalStop | spawn | close =>
    cases answered
    exact ⟨world, .refl, rfl⟩

theorem run_owned_working : ∃ after,
    Program.Run machine (performAll {} [.start]) {} ⟨3, 4⟩ after ∧ after.started = true ∧
      (∀ fd, fd ∈ after.descriptors.held ↔ 0 ≤ fd ∧ (fd = 3 ∨ fd = 4)) ∧
      ∃ state, after.thread = some (⟨3, 4⟩, state) ∧ state ≠ .ended := by
  have executed : ((performAll {} [.start]).exec respondWorking {}).map
      (fun found => (found.1, found.2.started)) = some (⟨3, 4⟩, true) := by
    rfl
  obtain ⟨⟨fds, after⟩, ran, same⟩ := Option.map_eq_some_iff.mp executed
  obtain ⟨rfl, started⟩ := Prod.mk.inj same
  have run := Program.run_of_exec step_of_respondWorking ran
  have owned := run_owned run
  exact ⟨after, run, started, owned.2.2.1, owned.2.2.2.1 started⟩

end MonitorWorld

end ReUperf
