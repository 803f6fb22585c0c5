import Mathlib.Logic.Relation

/-!
# Loops that wait for work

A thread runs a loop while a flag is set. It waits on a condition variable until there is work or the
flag is cleared. Producers add work in sections under the mutex and notify it afterwards. The owner
starts the loop, and stops it by clearing the flag outside the mutex, notifying and joining the
thread. The thread tests the flag and the work, and then it blocks; a notification between the two
is lost. Work is added under the mutex, so no wakeup is lost for it, but the flag is not.
-/

namespace Waiting

/-- A loop that waits for work. -/
structure WaitLoop (W : Type) where
  /-- Whether there is work. -/
  hasWork : W → Bool
  /-- A producer's section: what it leaves, and whether it notifies afterwards. -/
  put : (running : Bool) → W → W → (notifies : Bool) → Prop
  /-- The section in which the thread takes work. -/
  take : (running : Bool) → W → W
  /-- Whether the thread waits for more work, for some time, before it takes it. -/
  pauses : Bool
  /-- What starting does to the work. -/
  begin : W → W
  /-- What stopping leaves. -/
  clear : W → W
  /-- A producer that does not notify adds no work where there was none. -/
  silent : ∀ {running before after}, put running before after false → hasWork after = true →
    hasWork before = true

/-- Where the thread is. -/
inductive Phase
  /-- At the head of its loop. -/
  | looping
  /-- Before it locks the mutex. -/
  | entering
  /-- Before it tests what it waits for, under the mutex. -/
  | checking
  /-- It has found nothing and is about to block, still under the mutex. -/
  | committed
  /-- It waits. -/
  | blocked
  /-- It was woken and is about to lock the mutex again. -/
  | woken
  /-- It has found what it waited for, under the mutex. -/
  | ready
  /-- It waits for more work. -/
  | pausing
  /-- It does what it took. -/
  | busy
  /-- It has left its loop. -/
  | ended
  deriving DecidableEq

/-- Where the owner is. -/
inductive Owner
  /-- Between two calls. -/
  | idle
  /-- It starts the loop and has set the flag. -/
  | starting
  /-- It stops the loop and has cleared the flag. -/
  | stored
  /-- It has notified and joins the thread. -/
  | notified
  deriving DecidableEq

/-- A loop, its producers and its owner. -/
structure WaitState (W : Type) where
  /-- The flag. -/
  running : Bool := false
  /-- The work. -/
  work : W
  /-- The thread, if it is joinable. -/
  thread : Option Phase := none
  /-- The owner. -/
  owner : Owner := .idle
  /-- The producers that are about to notify. -/
  notifying : Nat := 0
  /-- Whether the notification of the stop came between the test and the block. -/
  missed : Bool := false
  /-- Whether a thread was constructed where there was a joinable one. -/
  doubled : Bool := false

/-- A notification wakes a blocked thread. -/
def wake : Option Phase → Option Phase
  | some .blocked => some .woken
  | thread => thread

/-- The thread has the mutex. -/
def Phase.locks : Phase → Bool
  | .checking | .committed | .ready => true
  | .looping | .entering | .blocked | .woken | .pausing | .busy | .ended => false

variable {W : Type} (loop : WaitLoop W)

/-- One step of the thread. -/
inductive WorkerStep : WaitState W → WaitState W → Prop where
  /-- It tests the flag. -/
  | test {state : WaitState W} (looping : state.thread = some .looping) :
    WorkerStep state { state with
      thread := some (if state.running then .entering else .ended) }
  /-- It locks the mutex. -/
  | lock {state : WaitState W}
      (entering : state.thread = some .entering ∨ state.thread = some .woken) :
    WorkerStep state { state with thread := some .checking }
  /-- It tests what it waits for. -/
  | check {state : WaitState W} (checking : state.thread = some .checking) :
    WorkerStep state { state with
      thread := some (if !state.running || loop.hasWork state.work then .ready else .committed) }
  /-- It blocks. -/
  | block {state : WaitState W} (committed : state.thread = some .committed) :
    WorkerStep state { state with thread := some .blocked }
  /-- It leaves when the flag is cleared and there is no work. -/
  | leave {state : WaitState W} (ready : state.thread = some .ready)
      (idle : state.running = false ∧ loop.hasWork state.work = false) :
    WorkerStep state { state with thread := some .ended }
  /-- It waits for more work. -/
  | pause {state : WaitState W} (ready : state.thread = some .ready)
      (due : ¬ (state.running = false ∧ loop.hasWork state.work = false))
      (pauses : loop.pauses = true) :
    WorkerStep state { state with thread := some .pausing }
  /-- It takes work. -/
  | take {state : WaitState W}
      (ready : (state.thread = some .ready ∧ loop.pauses = false ∧
        ¬ (state.running = false ∧ loop.hasWork state.work = false)) ∨
          state.thread = some .pausing) :
    WorkerStep state { state with
      thread := some .busy, work := loop.take state.running state.work }
  /-- It has done what it took. -/
  | finish {state : WaitState W} (busy : state.thread = some .busy) :
    WorkerStep state { state with thread := some .looping }

/-- One step of the thread, a producer or the owner. -/
inductive Step : WaitState W → WaitState W → Prop where
  /-- The thread moves. -/
  | worker {state after : WaitState W} (moved : WorkerStep loop state after) : Step state after
  /-- The thread wakes without being notified. -/
  | spurious {state : WaitState W} (blocked : state.thread = some .blocked) :
    Step state { state with thread := some .woken }
  /-- A producer adds work. -/
  | put {state : WaitState W} {work : W} {notifies : Bool}
      (free : ∀ phase ∈ state.thread, phase.locks = false)
      (puts : loop.put state.running state.work work notifies) :
    Step state { state with
      work := work, notifying := state.notifying + if notifies then 1 else 0 }
  /-- A producer notifies. -/
  | notify {state : WaitState W} (about : 0 < state.notifying) :
    Step state { state with notifying := state.notifying - 1, thread := wake state.thread }
  /-- The owner starts the loop, if the flag is not set. -/
  | startStore {state : WaitState W} (idle : state.owner = .idle) (off : state.running = false) :
    Step state { state with running := true, owner := .starting, work := loop.begin state.work }
  /-- The thread is constructed. -/
  | startSpawn {state : WaitState W} (starting : state.owner = .starting) :
    Step state { state with
      owner := .idle, thread := some .looping, doubled := state.doubled || state.thread.isSome }
  /-- The thread cannot be constructed. -/
  | startFail {state : WaitState W} (starting : state.owner = .starting) :
    Step state { state with owner := .idle, running := false }
  /-- The owner stops the loop. -/
  | stopStore {state : WaitState W} (idle : state.owner = .idle) :
    Step state { state with owner := .stored, running := false }
  /-- It notifies. -/
  | stopNotify {state : WaitState W} (stored : state.owner = .stored) :
    Step state { state with
      owner := .notified, thread := wake state.thread
      missed := decide (state.thread = some .committed) }
  /-- It has joined the thread, and clears the work. -/
  | stopJoin {state : WaitState W} (notified : state.owner = .notified)
      (gone : state.thread = none ∨ state.thread = some .ended) :
    Step state { state with
      owner := .idle, thread := none, work := loop.clear state.work, missed := false }

/-- The states that some steps reach. -/
abbrev Reaches (state after : WaitState W) : Prop := Relation.ReflTransGen (Step loop) state after

/-! ## The invariant -/

/-- What holds of every reachable state. -/
structure Kept (state : WaitState W) : Prop where
  /-- No thread is constructed beside another. -/
  alone : state.doubled = false
  /-- A thread that is about to block has no work. -/
  committed : state.thread = some .committed → loop.hasWork state.work = false
  /-- A blocked thread has no work, or a notification is on its way. -/
  blocked : state.thread = some .blocked → loop.hasWork state.work = true → 0 < state.notifying
  /-- A blocked thread whose flag is cleared will be notified, or the notification was missed. -/
  stopped : state.thread = some .blocked → state.running = false →
    state.owner = .stored ∨ state.missed = true
  /-- A notification before the block is missed. -/
  window : state.thread = some .committed → state.owner = .notified → state.missed = true
  /-- Between two calls the flag tells whether there is a thread. -/
  idle : state.owner = .idle → (state.running = true ↔ state.thread.isSome)
  /-- While the loop is started there is no thread. -/
  starting : state.owner = .starting → state.running = true ∧ state.thread = none
  /-- While it is stopped the flag is cleared. -/
  stopping : state.owner = .stored ∨ state.owner = .notified → state.running = false
  /-- A notification is only missed while the thread is joined. -/
  missed : state.missed = true → state.owner = .notified
  /-- A thread that has left its loop is about to be joined. -/
  ended : state.thread = some .ended → state.running = false

variable {loop} {state after : WaitState W}

/-- A notified thread is not blocked. -/
theorem wake_ne_blocked (thread : Option Phase) : wake thread ≠ some .blocked := by
  cases thread with
  | none => simp [wake]
  | some phase => cases phase <;> simp [wake]

/-- A notification does nothing to a thread that is not blocked. -/
theorem wake_eq {thread : Option Phase} {phase : Phase} (other : phase ≠ .woken)
    (woken : wake thread = some phase) : thread = some phase := by
  cases thread with
  | none => simp [wake] at woken
  | some current => cases current <;> simp_all [wake]

@[simp] theorem isSome_wake (thread : Option Phase) : (wake thread).isSome = thread.isSome := by
  cases thread with
  | none => rfl
  | some phase => cases phase <;> rfl

/-- A thread that is there has an owner that does not start it. -/
theorem Kept.owner_cases (kept : Kept loop state) (there : state.thread.isSome = true) :
    (state.owner = .idle ∧ state.running = true) ∨
      ((state.owner = .stored ∨ state.owner = .notified) ∧ state.running = false) := by
  cases owner : state.owner with
  | idle => exact .inl ⟨rfl, (kept.idle owner).mpr there⟩
  | starting =>
    rw [(kept.starting owner).2] at there
    cases there
  | stored => exact .inr ⟨.inl rfl, kept.stopping (.inl owner)⟩
  | notified => exact .inr ⟨.inr rfl, kept.stopping (.inr owner)⟩

/-- A step of the thread keeps it. -/
theorem Kept.worker (kept : Kept loop state) (moved : WorkerStep loop state after) :
    Kept loop after := by
  -- Where the thread goes, the owner and the flag stay.
  have moves : ∀ {phase : Phase} {work : W}, state.thread.isSome = true →
      (phase = .committed → state.running = true ∧ loop.hasWork work = false) →
      (phase = .blocked → loop.hasWork work = false ∧
        (state.running = false → state.owner = .stored ∨ state.missed = true)) →
      (phase = .ended → state.running = false) →
        Kept loop { state with thread := some phase, work := work } := by
    intro phase work there committed blocked ended
    have owner := kept.owner_cases there
    refine ⟨kept.alone, fun same => ?_, fun same work => ?_, fun same => ?_, fun same notified => ?_,
      fun idle => ?_, fun starting => ?_, kept.stopping, kept.missed, fun same => ?_⟩
    · exact (committed (Option.some.inj same)).2
    · rw [(blocked (Option.some.inj same)).1] at work
      cases work
    · exact (blocked (Option.some.inj same)).2
    · have runs := (committed (Option.some.inj same)).1
      have stops := kept.stopping (.inr notified)
      rw [runs] at stops
      cases stops
    · have runs := (kept.idle idle).mpr there
      exact iff_of_true runs rfl
    · have none := (kept.starting starting).2
      rw [none] at there
      cases there
    · exact ended (Option.some.inj same)
  have present : ∀ {phase}, state.thread = some phase → state.thread.isSome = true := by
    intro phase same
    rw [same]
    rfl
  cases moved with
  | test looping =>
    refine moves (present looping) (fun same => ?_) (fun same => ?_) fun same => ?_
    · split at same <;> cases same
    · split at same <;> cases same
    · split at same
      · cases same
      · next off => simpa using off
  | lock entering =>
    have there := entering.elim present present
    exact moves there (fun same => by cases same) (fun same => by cases same) fun same => by
      cases same
  | check checking =>
    refine moves (present checking) (fun same => ?_) (fun same => ?_) fun same => ?_
    · split at same
      · cases same
      · next none => simpa using none
    · split at same <;> cases same
    · split at same <;> cases same
  | block committed =>
    refine moves (present committed) (fun same => by cases same) (fun _ => ?_) fun same => by
      cases same
    refine ⟨kept.committed committed, fun off => ?_⟩
    rcases kept.owner_cases (present committed) with ⟨-, on⟩ | ⟨stored | notified, -⟩
    · rw [off] at on
      cases on
    · exact .inl stored
    · exact .inr (kept.window committed notified)
  | leave ready idle =>
    exact moves (present ready) (fun same => by cases same) (fun same => by cases same) fun _ =>
      idle.1
  | pause ready due pauses =>
    exact moves (present ready) (fun same => by cases same) (fun same => by cases same) fun same => by
      cases same
  | take ready =>
    have there := ready.elim (fun holds => present holds.1) present
    exact moves there (fun same => by cases same) (fun same => by cases same) fun same => by
      cases same
  | finish busy =>
    exact moves (present busy) (fun same => by cases same) (fun same => by cases same) fun same => by
      cases same

/-- Waking the thread keeps it. -/
theorem Kept.wakes (kept : Kept loop state) (notifying : Nat) :
    Kept loop { state with notifying := notifying, thread := wake state.thread } where
  alone := kept.alone
  committed same := kept.committed (wake_eq (by decide) same)
  blocked same := absurd same (wake_ne_blocked _)
  stopped same := absurd same (wake_ne_blocked _)
  window same := kept.window (wake_eq (by decide) same)
  idle same := by
    rw [isSome_wake]
    exact kept.idle same
  starting same := by
    obtain ⟨runs, none⟩ := kept.starting same
    refine ⟨runs, ?_⟩
    dsimp only
    rw [none]
    rfl
  stopping := kept.stopping
  missed := kept.missed
  ended same := kept.ended (wake_eq (by decide) same)

/-- Without a thread little is asked. -/
theorem kept_of_none (none : state.thread = none) (alone : state.doubled = false)
    (idle : state.owner = .idle → state.running = false)
    (starting : state.owner = .starting → state.running = true)
    (stopping : state.owner = .stored ∨ state.owner = .notified → state.running = false)
    (missed : state.missed = true → state.owner = .notified) : Kept loop state := by
  have absent : ∀ {phase}, state.thread ≠ some phase := by
    rw [none]
    exact fun same => by cases same
  refine ⟨alone, fun same => absurd same absent, fun same => absurd same absent,
    fun same => absurd same absent, fun same => absurd same absent, fun same => ?_,
    fun same => ⟨starting same, none⟩, stopping, missed, fun same => absurd same absent⟩
  rw [idle same, none]
  simp

/-- Between two calls there is no thread when the flag is cleared. -/
theorem Kept.thread_eq_none (kept : Kept loop state) (idle : state.owner = .idle)
    (off : state.running = false) : state.thread = none := by
  have absent : ¬ state.thread.isSome = true := by
    rw [← kept.idle idle, off]
    exact Bool.false_ne_true
  simpa using absent

/-- No notification was missed before the owner notifies. -/
theorem Kept.missed_eq_false (kept : Kept loop state) (other : state.owner ≠ .notified) :
    state.missed = false := by
  cases missed : state.missed with
  | false => rfl
  | true => exact absurd (kept.missed missed) other

/-- A step of the thread, a producer or the owner keeps it. -/
theorem Kept.step (kept : Kept loop state) (step : Step loop state after) : Kept loop after := by
  cases step with
  | worker moved => exact kept.worker moved
  | spurious blocked =>
    have woken := kept.wakes state.notifying
    rw [blocked] at woken
    exact woken
  | @put work notifies free puts =>
    refine ⟨kept.alone, fun same => ?_, fun same works => ?_, kept.stopped, kept.window, kept.idle,
      kept.starting, kept.stopping, kept.missed, kept.ended⟩
    · have locks := free .committed same
      cases locks
    · cases notifies with
      | true => exact Nat.succ_pos _
      | false => exact kept.blocked same (loop.silent puts works)
  | notify about => exact kept.wakes (state.notifying - 1)
  | startStore idle off =>
    have missed := kept.missed_eq_false (by rw [idle]; decide)
    refine kept_of_none (kept.thread_eq_none idle off) kept.alone (fun same => ?_) (fun _ => rfl)
      (fun stops => ?_) fun gone => ?_
    · cases same
    · rcases stops with same | same <;> cases same
    · rw [missed] at gone
      cases gone
  | startSpawn starting =>
    obtain ⟨runs, none⟩ := kept.starting starting
    have missed := kept.missed_eq_false (by rw [starting]; decide)
    have looping : ∀ {phase : Phase}, phase ≠ .looping → some Phase.looping ≠ some phase :=
      fun other same => other (Option.some.inj same).symm
    refine ⟨?_, fun same => ?_, fun same => ?_, fun same => ?_, fun same => ?_,
      fun _ => iff_of_true runs rfl, fun same => ?_, fun stops => ?_, fun gone => ?_, fun same => ?_⟩
    · rw [kept.alone, none]
      rfl
    all_goals first | exact absurd same (looping (by decide)) | skip
    · cases same
    · rcases stops with same | same <;> cases same
    · rw [missed] at gone
      cases gone
  | startFail starting =>
    have missed := kept.missed_eq_false (by rw [starting]; decide)
    refine kept_of_none (kept.starting starting).2 kept.alone (fun _ => rfl) (fun same => ?_)
      (fun _ => rfl) fun gone => ?_
    · cases same
    · rw [missed] at gone
      cases gone
  | stopStore idle =>
    have missed := kept.missed_eq_false (by rw [idle]; decide)
    refine ⟨kept.alone, kept.committed, kept.blocked, fun _ _ => .inl rfl, fun _ same => ?_,
      fun same => ?_, fun same => ?_, fun _ => rfl, fun gone => ?_, fun _ => rfl⟩
    · cases same
    · cases same
    · cases same
    · rw [missed] at gone
      cases gone
  | stopNotify stored =>
    have woken := kept.wakes state.notifying
    refine ⟨kept.alone, woken.committed, woken.blocked, fun same => absurd same (wake_ne_blocked _),
      fun same _ => ?_, fun same => ?_, fun same => ?_, fun _ => kept.stopping (.inl stored),
      fun _ => rfl, woken.ended⟩
    · exact decide_eq_true (wake_eq (by decide) same)
    · cases same
    · cases same
  | stopJoin notified gone =>
    have off := kept.stopping (.inr notified)
    refine kept_of_none rfl kept.alone (fun _ => off) (fun same => ?_) (fun _ => off) fun gone => ?_
    · cases same
    · cases gone

/-- What holds of a loop that was never started. -/
theorem kept_initial (work : W) : Kept loop { work := work } :=
  kept_of_none rfl rfl (fun _ => rfl) (fun same => by cases same) (fun _ => rfl)
    fun gone => by cases gone

/-- What holds of every reachable state. -/
theorem Reaches.kept {work : W} (reached : Reaches loop { work := work } state) :
    Kept loop state := by
  induction reached with
  | refl => exact kept_initial work
  | tail _ step ih => exact ih.step step

/-! ## Stopping -/

/-- The steps a thread has left once the flag is cleared. -/
def rank : Option Phase → Nat
  | some .looping => 1
  | some .busy => 2
  | some .pausing => 3
  | some .ready => 4
  | some .checking => 5
  | some .entering | some .woken => 6
  | some .committed | some .blocked | some .ended | none => 0

/-- A thread that will not wait is on its way out of its loop. -/
structure Leaving (state : WaitState W) : Prop where
  /-- The flag is cleared. -/
  off : state.running = false
  /-- There is a thread. -/
  there : state.thread.isSome = true
  /-- It is not about to block. -/
  uncommitted : state.thread ≠ some .committed
  /-- It does not wait. -/
  unblocked : state.thread ≠ some .blocked

/-- A thread that is joined is on its way out unless the notification was missed. -/
theorem Kept.leaving (kept : Kept loop state) (notified : state.owner = .notified)
    (there : state.thread.isSome = true) (seen : state.missed = false) : Leaving state := by
  have off := kept.stopping (.inr notified)
  refine ⟨off, there, fun same => ?_, fun same => ?_⟩
  · rw [kept.window same notified] at seen
    cases seen
  · rcases kept.stopped same off with stored | missed
    · rw [notified] at stored
      cases stored
    · rw [missed] at seen
      cases seen

/-- Each step of such a thread leaves fewer. -/
theorem Leaving.step (leaving : Leaving state) (moved : WorkerStep loop state after) :
    Leaving after ∧ rank after.thread < rank state.thread := by
  have goes : ∀ {phase : Phase} {work : W}, phase ≠ .committed → phase ≠ .blocked →
      rank (some phase) < rank state.thread →
        Leaving { state with thread := some phase, work := work } ∧
          rank (some phase) < rank state.thread :=
    fun committed blocked less => ⟨⟨leaving.off, rfl, fun same => committed (Option.some.inj same),
      fun same => blocked (Option.some.inj same)⟩, less⟩
  cases moved with
  | test looping =>
    have out : (if state.running then Phase.entering else Phase.ended) = .ended := by
      rw [leaving.off]
      rfl
    rw [out]
    exact goes (by decide) (by decide) (by rw [looping]; decide)
  | lock entering =>
    refine goes (by decide) (by decide) ?_
    rcases entering with same | same
    · rw [same]
      decide
    · rw [same]
      decide
  | check checking =>
    have found : (if !state.running || loop.hasWork state.work then Phase.ready
        else Phase.committed) = .ready := by
      rw [leaving.off]
      rfl
    rw [found]
    exact goes (by decide) (by decide) (by rw [checking]; decide)
  | block committed => exact absurd committed leaving.uncommitted
  | leave ready idle => exact goes (by decide) (by decide) (by rw [ready]; decide)
  | pause ready due pauses => exact goes (by decide) (by decide) (by rw [ready]; decide)
  | take ready =>
    refine goes (by decide) (by decide) ?_
    rcases ready with ⟨same, -⟩ | same
    · rw [same]
      decide
    · rw [same]
      decide
  | finish busy => exact goes (by decide) (by decide) (by rw [busy]; decide)

/-- Such a thread can go on until it has left its loop. -/
theorem Leaving.progress (leaving : Leaving state) :
    state.thread = some .ended ∨ ∃ after, WorkerStep loop state after := by
  obtain ⟨phase, same⟩ := Option.isSome_iff_exists.mp leaving.there
  cases phase with
  | looping => exact .inr ⟨_, .test same⟩
  | entering => exact .inr ⟨_, .lock (.inl same)⟩
  | checking => exact .inr ⟨_, .check same⟩
  | committed => exact absurd same leaving.uncommitted
  | blocked => exact absurd same leaving.unblocked
  | woken => exact .inr ⟨_, .lock (.inr same)⟩
  | ready =>
    by_cases idle : loop.hasWork state.work = false
    · exact .inr ⟨_, .leave same ⟨leaving.off, idle⟩⟩
    · cases pauses : loop.pauses with
      | true => exact .inr ⟨_, .pause same (fun none => idle none.2) pauses⟩
      | false => exact .inr ⟨_, .take (.inl ⟨same, pauses, fun none => idle none.2⟩)⟩
  | pausing => exact .inr ⟨_, .take (.inr same)⟩
  | busy => exact .inr ⟨_, .finish same⟩
  | ended => exact .inl same

/-- So it leaves its loop. -/
theorem Leaving.ends (leaving : Leaving state) :
    ∃ after, Relation.ReflTransGen (WorkerStep loop) state after ∧
      after.thread = some .ended := by
  generalize count : rank state.thread = left
  induction left using Nat.strongRecOn generalizing state with
  | _ left ih =>
    have goes : state.thread = some .ended ∨ ∃ next, WorkerStep loop state next :=
      leaving.progress
    rcases goes with gone | ⟨next, moved⟩
    · exact ⟨state, .refl, gone⟩
    · obtain ⟨again, less⟩ := leaving.step moved
      rw [count] at less
      obtain ⟨after, steps, gone⟩ := ih _ less again rfl
      exact ⟨after, .head moved steps, gone⟩

/-- A blocked thread does nothing of its own. -/
theorem not_workerStep_of_blocked (blocked : state.thread = some .blocked) :
    ¬ WorkerStep loop state after := by
  intro moved
  cases moved <;> simp_all

/-- A thread that is joined leaves its loop by itself exactly when it neither waits nor is about to
block, and it only does when the notification was missed. -/
theorem Kept.ends_iff (kept : Kept loop state) (notified : state.owner = .notified)
    (there : state.thread.isSome = true) :
    ((∃ after, Relation.ReflTransGen (WorkerStep loop) state after ∧
        after.thread = some .ended) ↔
      ¬ (state.thread = some .committed ∨ state.thread = some .blocked)) ∧
    ((state.thread = some .committed ∨ state.thread = some .blocked) → state.missed = true) := by
  have off := kept.stopping (.inr notified)
  refine ⟨⟨fun ends waits => ?_, fun runs => ?_⟩, fun waits => ?_⟩
  · obtain ⟨after, steps, gone⟩ := ends
    have stays : ∀ {middle : WaitState W}, Relation.ReflTransGen (WorkerStep loop) state middle →
        middle.thread = some .committed ∨ middle.thread = some .blocked := by
      intro middle steps
      induction steps with
      | refl => exact waits
      | tail _ moved ih =>
        rcases ih with committed | blocked
        · cases moved <;> simp_all
        · exact absurd moved (not_workerStep_of_blocked blocked)
    rcases stays steps with same | same
    · rw [gone] at same
      cases same
    · rw [gone] at same
      cases same
  · have leaving : Leaving state :=
      ⟨off, there, fun same => runs (.inl same), fun same => runs (.inr same)⟩
    exact leaving.ends
  · rcases waits with committed | blocked
    · exact kept.window committed notified
    · refine (kept.stopped blocked off).resolve_left fun stored => ?_
      rw [notified] at stored
      cases stored

/-- The state of a loop whose stop was missed. -/
def missedState (loop : WaitLoop W) (work : W) : WaitState W where
  running := false
  work := loop.begin work
  thread := some .blocked
  owner := .notified
  missed := true

/-- A stop can be missed. -/
theorem reaches_missedState {work : W} (none : loop.hasWork (loop.begin work) = false) :
    Reaches loop { work := work } (missedState loop work) := by
  have begun : Reaches loop { work := work } { running := true, owner := .starting, work := _ } :=
    .single (.startStore rfl rfl)
  have spawned := begun.tail (.startSpawn rfl)
  have tested := spawned.tail (.worker (.test rfl))
  have locked := tested.tail (.worker (.lock (.inl rfl)))
  have checked := locked.tail (.worker (.check rfl))
  have stored := checked.tail (.stopStore rfl)
  have notified := stored.tail (.stopNotify rfl)
  rw [if_pos rfl, none] at notified
  exact notified.tail (.worker (.block rfl))

end Waiting
