import ReUperf.Core.LauncherFinder
import ReUperf.Lib.Handles

/-!
# Shell commands

The machine of the finder knows the descriptors and the children of the program, and what was read
of the last pipe. On it every run of a command gives back the descriptors it opened, uses none that
is closed, waits for its child unless `waitpid` itself fails, and signals the child's process group
only while the child is there, so that no other group can have got its number. What it returns is
nothing, or all that was read of an output until its end or a failed read.
-/

namespace ReUperf.LauncherFinder

open Effect

/-- What the system knows of the program. -/
structure CommandWorld where
  /-- Its open descriptors. -/
  descriptors : Handles Int := {}
  /-- Its children, until they are waited for. -/
  children : Handles Int := {}
  /-- Whether `waitpid` failed. -/
  waitFailed : Bool := false
  /-- What was read of the last pipe. -/
  output : Bytes := []
  /-- Whether its end was read, or a read failed. -/
  ended : Bool := false

/-- The operations of the finder. -/
def commandMachine : Machine CommandSig CommandWorld where
  step
    | world, .pipe, none, after => after = world
    | world, .pipe, some (readFd, writeFd), after =>
      readFd ∉ world.descriptors.held ∧ writeFd ∉ world.descriptors.held ∧ readFd ≠ writeFd ∧
        after = { world with
          descriptors := (world.descriptors.acquire readFd).acquire writeFd
          output := [], ended := false }
    | world, .fork _, none, after => after = world
    | world, .fork _, some pid, after =>
      pid ∉ world.children.held ∧
        after = { world with children := world.children.acquire pid }
    | world, .setpgid pid, _, after => after = { world with children := world.children.use pid }
    | world, .setNonblocking fd, _, after =>
      after = { world with descriptors := world.descriptors.use fd }
    | world, .now, _, after => after = world
    | world, .poll fd _, _, after =>
      after = { world with descriptors := world.descriptors.use fd }
    | world, .read fd, .bytes chunk, after =>
      chunk ≠ [] ∧ chunk.length ≤ 4096 ∧ after = { world with
        descriptors := world.descriptors.use fd, output := world.output ++ chunk }
    | world, .read fd, .closed, after | world, .read fd, .failed, after =>
      after = { world with descriptors := world.descriptors.use fd, ended := true }
    | world, .read fd, .again, after | world, .read fd, .interrupted, after =>
      after = { world with descriptors := world.descriptors.use fd }
    | world, .close fd, _, after =>
      after = { world with descriptors := world.descriptors.release fd }
    | world, .waitpid pid _, .reaped, after =>
      pid ∈ world.children.held ∧ after = { world with children := world.children.release pid }
    | world, .waitpid _ noHang, .running, after => noHang = true ∧ after = world
    | world, .waitpid _ _, .interrupted, after => after = world
    | world, .waitpid _ _, .noChild, after | world, .waitpid _ _, .failed, after =>
      after = { world with waitFailed := true }
    | world, .kill pid _, _, after => after = { world with children := world.children.use pid }
    | world, .usleep _, _, after => after = world

/-- A child is waited for, or `waitpid` failed; nothing else happened to what the program holds. -/
structure Ended (pid : Int) (before after : CommandWorld) : Prop where
  /-- The descriptors are the same. -/
  descriptors : after.descriptors = before.descriptors
  /-- The child is gone, or lost. -/
  children :
    (after.children = before.children.release pid ∧ after.waitFailed = before.waitFailed) ∨
      (after.children = before.children ∧ after.waitFailed = true)
  /-- The output stays. -/
  output : after.output = before.output
  /-- Its end stays. -/
  ended : after.ended = before.ended

/-- A program ends as it began, unless `waitpid` failed. -/
structure Released (before after : CommandWorld) : Prop where
  /-- The descriptors are the same, and none was misused. -/
  descriptors : after.descriptors = before.descriptors
  /-- No process group was signalled that is not a child's. -/
  signals : after.children.misused = before.children.misused
  /-- The children are the same. -/
  children : after.children = before.children ∨ after.waitFailed = true
  /-- A failure is not forgotten. -/
  failure : before.waitFailed = true → after.waitFailed = true

/-- One program after another. -/
theorem Released.trans {first second third : CommandWorld} (before : Released first second)
    (after : Released second third) : Released first third := by
  constructor
  · rw [after.descriptors, before.descriptors]
  · rw [after.signals, before.signals]
  · rcases after.children with same | failed
    · rcases before.children with unchanged | failed
      · exact .inl (same.trans unchanged)
      · exact .inr (after.failure failed)
    · exact .inr failed
  · exact fun failed => after.failure (before.failure failed)

/-- A program that ends its only new child, and holds no new descriptor any more. -/
theorem Ended.released {pid : Int} {start middle after : CommandWorld}
    (ended : Ended pid middle after) (alone : pid ∉ start.children.held)
    (descriptors : middle.descriptors = start.descriptors)
    (children : middle.children = start.children.acquire pid)
    (waitFailed : middle.waitFailed = start.waitFailed) : Released start after := by
  have fds : after.descriptors = start.descriptors := ended.descriptors.trans descriptors
  rcases ended.children with ⟨gone, failure⟩ | ⟨lost, failure⟩
  · have back : after.children = start.children := by
      rw [gone, children, Handles.release_acquire alone]
    refine ⟨fds, by rw [back], .inl back, fun failed => ?_⟩
    rw [failure, waitFailed, failed]
  · have same : after.children.misused = start.children.misused := by
      rw [lost, children]
      rfl
    exact ⟨fds, same, .inr failure, fun _ => failure⟩

/-! ## Waiting -/

variable {world : CommandWorld} {pid : Int}

/-- A child of the program can be used. -/
theorem use_child (mine : pid ∈ world.children.held) :
    { world with children := world.children.use pid } = world := by
  rw [Handles.use_of_mem mine]

/-- An open descriptor can be used. -/
theorem use_descriptor {fd : Int} (mine : fd ∈ world.descriptors.held) :
    { world with descriptors := world.descriptors.use fd } = world := by
  rw [Handles.use_of_mem mine]

/-- A child that was asked to end is waited for, or it is still there. -/
theorem awaitTermination_ended (attempts : Nat) (mine : pid ∈ world.children.held) :
    (awaitTermination pid attempts).wp commandMachine.withSpin
      (fun done after => if done = true then Ended pid world after else after = world) world := by
  induction attempts with
  | zero => exact rfl
  | succ attempts ih =>
    rw [awaitTermination, Program.wp_bind, Looping.wp_op]
    intro response after stepped
    cases response with
    | reaped =>
      obtain ⟨-, rfl⟩ := stepped
      exact ⟨rfl, .inl ⟨rfl, rfl⟩, rfl, rfl⟩
    | noChild =>
      obtain rfl := stepped
      exact ⟨rfl, .inr ⟨rfl, rfl⟩, rfl, rfl⟩
    | failed =>
      obtain rfl := stepped
      exact ⟨rfl, .inr ⟨rfl, rfl⟩, rfl, rfl⟩
    | running =>
      obtain ⟨-, rfl⟩ := stepped
      rw [Program.wp_bind, Looping.wp_op]
      intro _ after slept
      obtain rfl := slept
      exact ih
    | interrupted =>
      obtain rfl := stepped
      rw [Program.wp_bind, Looping.wp_op]
      intro _ after slept
      obtain rfl := slept
      exact ih

/-- A killed child is waited for. -/
theorem awaitKilled_ended (fuel : Nat) :
    (Looping.loop (awaitKilled pid) fuel ()).wp commandMachine.withSpin
      (fun _ after => Ended pid world after) world := by
  refine Looping.wp_loop (fun _ after => after = world) ?_ fuel rfl
  intro _ state same
  obtain rfl := same
  rw [awaitKilled, Program.wp_bind, Looping.wp_op]
  intro response after stepped
  cases response with
  | reaped =>
    obtain ⟨-, rfl⟩ := stepped
    exact ⟨rfl, .inl ⟨rfl, rfl⟩, rfl, rfl⟩
  | running => exact absurd stepped.1 Bool.false_ne_true
  | noChild =>
    obtain rfl := stepped
    exact ⟨rfl, .inr ⟨rfl, rfl⟩, rfl, rfl⟩
  | failed =>
    obtain rfl := stepped
    exact ⟨rfl, .inr ⟨rfl, rfl⟩, rfl, rfl⟩
  | interrupted => exact stepped

/-- A child that is there is ended and waited for. -/
theorem terminateChild_ended (fuel : Nat) (mine : pid ∈ world.children.held) :
    (terminateChild fuel pid).wp commandMachine.withSpin (fun _ after => Ended pid world after)
      world := by
  rw [terminateChild, Program.wp_bind, Looping.wp_op]
  intro _ after sent
  rw [sent, use_child mine, Program.wp_bind]
  refine Program.wp_mono (awaitTermination_ended 10 mine) fun done after reached => ?_
  rw [Program.wp_ite]
  by_cases gone : done = true
  · rw [if_pos gone] at reached ⊢
    exact reached
  · rw [if_neg gone] at reached ⊢
    rw [reached, Program.wp_bind, Looping.wp_op]
    intro _ after sent
    rw [sent, use_child mine]
    exact awaitKilled_ended fuel

/-- A child that closed its output is waited for. -/
theorem waitRound_ended (fuel : Nat) (deadline : Int) (mine : pid ∈ world.children.held) :
    (Looping.loop (waitRound fuel pid deadline) fuel ()).wp commandMachine.withSpin
      (fun _ after => Ended pid world after) world := by
  refine Looping.wp_loop (fun _ after => after = world) ?_ fuel rfl
  intro _ state same
  obtain rfl := same
  rw [waitRound, Program.wp_bind, Looping.wp_op]
  intro response after stepped
  cases response with
  | reaped =>
    obtain ⟨-, rfl⟩ := stepped
    exact ⟨rfl, .inl ⟨rfl, rfl⟩, rfl, rfl⟩
  | interrupted => exact stepped
  | noChild =>
    obtain rfl := stepped
    exact ⟨rfl, .inr ⟨rfl, rfl⟩, rfl, rfl⟩
  | failed =>
    obtain rfl := stepped
    exact ⟨rfl, .inr ⟨rfl, rfl⟩, rfl, rfl⟩
  | running =>
    obtain ⟨-, rfl⟩ := stepped
    rw [Program.wp_bind, Looping.wp_op]
    intro now after read
    obtain rfl := read
    rw [Program.wp_ite]
    by_cases late : deadline ≤ now
    · rw [if_pos late, Program.wp_bind]
      exact terminateChild_ended fuel mine
    · rw [if_neg late, Program.wp_bind, Looping.wp_op]
      intro _ after slept
      exact slept

/-! ## Reading -/

/-- The bytes collected are those read, and what the program holds did not change. -/
structure Collecting (start : CommandWorld) (result : Bytes) (world : CommandWorld) : Prop where
  /-- The descriptors are the same. -/
  descriptors : world.descriptors = start.descriptors
  /-- The children are the same. -/
  children : world.children = start.children
  /-- No wait failed. -/
  waitFailed : world.waitFailed = start.waitFailed
  /-- Nothing was read that is not in the result. -/
  output : world.output = result
  /-- The result is not too long. -/
  bounded : result.length ≤ kMaxOutputSize

/-- How reading ends: the descriptors and the children are those of the start, and an output that
was read to its end is in the result. -/
structure Collected (start : CommandWorld) (reading : Reading) (result : Bytes)
    (world : CommandWorld) : Prop where
  /-- The descriptors are the same. -/
  descriptors : world.descriptors = start.descriptors
  /-- The children are the same. -/
  children : world.children = start.children
  /-- No wait failed. -/
  waitFailed : world.waitFailed = start.waitFailed
  /-- The output has ended and is the result. -/
  complete : reading = .pipeClosed →
    world.ended = true ∧ world.output = result ∧ result.length ≤ kMaxOutputSize

variable {start : CommandWorld} {fd : Int}

/-- Reading that ended otherwise. -/
theorem Collecting.stopped {reading : Reading} {result : Bytes}
    (collecting : Collecting start result world) (early : reading ≠ .pipeClosed) :
    Collected start reading result world :=
  ⟨collecting.descriptors, collecting.children, collecting.waitFailed, fun same =>
    absurd same early⟩

/-- One read collects what it reads. -/
theorem readChunk_collecting {result : Bytes} (mine : fd ∈ start.descriptors.held)
    (collecting : Collecting start result world) :
    (readChunk fd result).wp commandMachine.withSpin
      (fun outcome after => outcome.elim (fun next => Collecting start next after) fun found =>
        found.1.elim (Collecting start found.2 after) fun reading =>
          Collected start reading found.2 after) world := by
  have usable : world.descriptors.use fd = world.descriptors := by
    rw [collecting.descriptors, Handles.use_of_mem mine]
  rw [readChunk, Program.wp_bind, Looping.wp_op]
  intro response after stepped
  have done : after.ended = true → after.descriptors = world.descriptors →
      after.children = world.children → after.waitFailed = world.waitFailed →
      after.output = world.output → Collected start .pipeClosed result after := by
    intro ended descriptors children waitFailed output
    constructor
    · rw [descriptors, collecting.descriptors]
    · rw [children, collecting.children]
    · rw [waitFailed, collecting.waitFailed]
    · intro _
      exact ⟨ended, output.trans collecting.output, collecting.bounded⟩
  cases response with
  | bytes chunk =>
    obtain ⟨-, -, rfl⟩ := stepped
    rw [Program.wp_ite, usable]
    by_cases long : kMaxOutputSize < result.length + chunk.length
    · rw [if_pos long]
      exact ⟨collecting.descriptors, collecting.children, collecting.waitFailed,
        fun same => absurd same (by decide)⟩
    · rw [if_neg long]
      refine ⟨collecting.descriptors, collecting.children, collecting.waitFailed, ?_, ?_⟩
      · rw [← collecting.output]
      · rw [List.length_append]
        omega
  | closed =>
    obtain rfl := stepped
    exact done rfl usable rfl rfl rfl
  | failed =>
    obtain rfl := stepped
    exact done rfl usable rfl rfl rfl
  | again =>
    obtain rfl := stepped
    exact ⟨usable.trans collecting.descriptors, collecting.children, collecting.waitFailed,
      collecting.output, collecting.bounded⟩
  | interrupted =>
    obtain rfl := stepped
    exact ⟨usable.trans collecting.descriptors, collecting.children, collecting.waitFailed,
      collecting.output, collecting.bounded⟩

/-- One round collects what is there. -/
theorem pollRound_collecting (fuel : Nat) (deadline : Int) {result : Bytes}
    (mine : fd ∈ start.descriptors.held) (collecting : Collecting start result world) :
    (pollRound fuel fd deadline result).wp commandMachine.withSpin
      (fun outcome after => outcome.elim (fun next => Collecting start next after) fun found =>
        Collected start found.1 found.2 after) world := by
  have usable : world.descriptors.use fd = world.descriptors := by
    rw [collecting.descriptors, Handles.use_of_mem mine]
  rw [pollRound, Program.wp_bind, Looping.wp_op]
  intro now after read
  obtain rfl := read
  rw [Program.wp_ite]
  by_cases late : deadline ≤ now
  · rw [if_pos late]
    exact collecting.stopped (by simp)
  · rw [if_neg late, Program.wp_bind, Looping.wp_op]
    intro response polled stepped
    obtain rfl : polled = after := by
      rw [stepped, usable]
    cases response with
    | timedOut => exact collecting.stopped (by simp)
    | interrupted => exact collecting
    | failed => exact collecting.stopped (by simp)
    | ready =>
      rw [Program.wp_bind]
      refine Program.wp_mono (Looping.wp_loop (fun next state => Collecting start next state)
        (fun current state holds => readChunk_collecting mine holds) fuel collecting) ?_
      intro found after reached
      obtain ⟨reading, result⟩ := found
      cases reading with
      | none => exact reached
      | some reading => exact reached

/-- A command whose child runs leaves no descriptor and no child, and returns all that was
read until the pipe ended, or nothing. -/
theorem collectOutput_released (fuel : Nat) (timeoutMs : Int)
    (fresh : fd ∉ start.descriptors.held) (alone : pid ∉ start.children.held)
    (descriptors : world.descriptors = start.descriptors.acquire fd)
    (children : world.children = start.children.acquire pid)
    (waitFailed : world.waitFailed = start.waitFailed) (empty : world.output = []) :
    (collectOutput fuel fd pid timeoutMs).wp commandMachine.withSpin
      (fun result after => Released start after ∧ (result = [] ∨ after.ended = true ∧
        after.output.length ≤ kMaxOutputSize ∧ result = trimLineEnds after.output)) world := by
  have opened : fd ∈ world.descriptors.held := by
    rw [descriptors]
    simp
  rw [collectOutput, Program.wp_bind, Looping.wp_op]
  intro started after read
  obtain rfl := read
  rw [Program.wp_bind]
  have begun : Collecting after [] after :=
    ⟨rfl, rfl, rfl, empty, Nat.zero_le _⟩
  refine Program.wp_mono (Looping.wp_loop (fun next state => Collecting after next state)
    (fun current state holds => pollRound_collecting fuel _ opened holds) fuel begun) ?_
  intro found state collected
  obtain ⟨reading, result⟩ := found
  rw [Program.wp_bind, Looping.wp_op]
  intro _ closed shut
  have fds : closed.descriptors = start.descriptors := by
    have held : state.descriptors = start.descriptors.acquire fd :=
      collected.descriptors.trans descriptors
    rw [shut, held]
    exact Handles.release_acquire fresh
  have kids : closed.children = start.children.acquire pid := by
    rw [shut]
    exact (collected.children).trans children
  have failures : closed.waitFailed = start.waitFailed := by
    rw [shut]
    exact (collected.waitFailed).trans waitFailed
  have mine : pid ∈ closed.children.held := by
    rw [kids]
    simp
  rw [Program.wp_ite]
  by_cases early : reading ≠ .pipeClosed
  · rw [if_pos early, Program.wp_bind]
    refine Program.wp_mono (terminateChild_ended fuel mine) fun _ after ended => ?_
    exact ⟨ended.released alone fds kids failures, .inl rfl⟩
  · rw [if_neg early, Program.wp_bind]
    have complete := collected.complete (not_not.mp early)
    refine Program.wp_mono (waitRound_ended fuel _ mine) fun exited after ended => ?_
    have released := ended.released alone fds kids failures
    rw [Program.wp_ite]
    by_cases itself : exited = true
    · have output : after.output = result := by
        rw [ended.output, shut]
        exact complete.2.1
      rw [if_pos itself]
      refine ⟨released, .inr ⟨?_, ?_, ?_⟩⟩
      · rw [ended.ended, shut]
        exact complete.1
      · rw [output]
        exact complete.2.2
      · rw [output]
    · rw [if_neg itself]
      exact ⟨released, .inl rfl⟩

/-- A command leaves no descriptor and no child, misuses none, and returns all that was
read until the pipe ended, or nothing. -/
theorem executeCommand_released (fuel : Nat) (cmd : Bytes) (timeoutMs : Int) :
    (executeCommand fuel cmd timeoutMs).wp commandMachine.withSpin
      (fun result after => Released world after ∧ (result = [] ∨ after.ended = true ∧
        after.output.length ≤ kMaxOutputSize ∧ result = trimLineEnds after.output)) world := by
  have same : Released world world := ⟨rfl, rfl, .inl rfl, id⟩
  rw [executeCommand, Program.wp_bind, Looping.wp_op]
  intro ends piped stepped
  cases ends with
  | none =>
    obtain rfl := stepped
    exact ⟨same, .inl rfl⟩
  | some ends =>
    obtain ⟨readFd, writeFd⟩ := ends
    obtain ⟨freshRead, freshWrite, differ, rfl⟩ := stepped
    have writeClosed : ((world.descriptors.acquire readFd).acquire writeFd).release writeFd =
        world.descriptors.acquire readFd := by
      refine Handles.release_acquire ?_
      rw [Handles.mem_acquire, not_or]
      exact ⟨differ.symm, freshWrite⟩
    have readClosed : ((world.descriptors.acquire readFd).acquire writeFd).release readFd =
        world.descriptors.acquire writeFd := by
      rw [Handles.acquire_comm]
      refine Handles.release_acquire ?_
      rw [Handles.mem_acquire, not_or]
      exact ⟨differ, freshRead⟩
    rw [Program.wp_bind, Looping.wp_op]
    intro child forked stepped
    cases child with
    | none =>
      obtain rfl := stepped
      rw [Program.wp_bind, Looping.wp_op]
      intro _ first closed
      rw [Program.wp_bind, Looping.wp_op]
      intro _ second shut
      have fds : second.descriptors = world.descriptors := by
        rw [shut, closed, readClosed]
        exact Handles.release_acquire freshWrite
      have kids : second.children = world.children := by
        rw [shut, closed]
      refine ⟨⟨fds, by rw [kids], .inl kids, fun failed => ?_⟩, .inl rfl⟩
      rw [shut, closed]
      exact failed
    | some pid =>
      obtain ⟨alone, rfl⟩ := stepped
      have mine : pid ∈ (world.children.acquire pid).held := by simp
      rw [Program.wp_bind, Looping.wp_op]
      intro _ grouped stepped
      obtain rfl := stepped.trans (use_child mine)
      rw [Program.wp_bind, Looping.wp_op]
      intro _ shut closed
      have oneEnd : shut.descriptors = world.descriptors.acquire readFd := by
        rw [closed]
        exact writeClosed
      have child : shut.children = world.children.acquire pid := by
        rw [closed]
      have noFailure : shut.waitFailed = world.waitFailed := by
        rw [closed]
      have empty : shut.output = [] := by
        rw [closed]
      have usable : readFd ∈ shut.descriptors.held := by
        rw [oneEnd]
        simp
      rw [Program.wp_bind, Looping.wp_op]
      intro nonblocking ready stepped
      obtain rfl := stepped.trans (use_descriptor usable)
      rw [Program.wp_ite]
      by_cases set : nonblocking = true
      · rw [if_pos set]
        exact collectOutput_released fuel timeoutMs freshRead alone oneEnd child noFailure empty
      · rw [if_neg set, Program.wp_bind, Looping.wp_op]
        intro _ bare released
        have fds : bare.descriptors = world.descriptors := by
          rw [released, oneEnd]
          exact Handles.release_acquire freshRead
        have kids : bare.children = world.children.acquire pid := by
          rw [released, child]
        have failures : bare.waitFailed = world.waitFailed := by
          rw [released, noFailure]
        have still : pid ∈ bare.children.held := by
          rw [kids]
          exact mine
        rw [Program.wp_bind]
        refine Program.wp_mono (terminateChild_ended fuel still) fun _ after ended => ?_
        exact ⟨ended.released alone fds kids failures, .inl rfl⟩

/-! ## Answers -/

/-- A system on which every command writes one text and ends. -/
def respondText (text : Bytes) (world : CommandWorld) :
    (operation : CommandOp) → Option (CommandSig.Res operation × CommandWorld)
  | .pipe =>
    if 3 ∉ world.descriptors.held ∧ 4 ∉ world.descriptors.held then
      some (some (3, 4), { world with
        descriptors := (world.descriptors.acquire 3).acquire 4, output := [], ended := false })
    else none
  | .fork _ =>
    if 7 ∉ world.children.held then
      some (some 7, { world with children := world.children.acquire 7 })
    else none
  | .setpgid pid => some ((), { world with children := world.children.use pid })
  | .setNonblocking fd => some (true, { world with descriptors := world.descriptors.use fd })
  | .now => some (0, world)
  | .poll fd _ => some (.ready, { world with descriptors := world.descriptors.use fd })
  | .read fd =>
    if world.output = [] ∧ text ≠ [] ∧ text.length ≤ 4096 then
      some (.bytes text, { world with
        descriptors := world.descriptors.use fd, output := world.output ++ text })
    else some (.closed, { world with descriptors := world.descriptors.use fd, ended := true })
  | .close fd => some ((), { world with descriptors := world.descriptors.release fd })
  | .waitpid pid _ =>
    if pid ∈ world.children.held then
      some (.reaped, { world with children := world.children.release pid })
    else none
  | .kill pid _ => some ((), { world with children := world.children.use pid })
  | .usleep _ => some ((), world)

/-- Such a system is one of the machine. -/
theorem step_of_respondText {text : Bytes} {world after : CommandWorld} {operation : CommandOp}
    {response : CommandSig.Res operation}
    (answered : respondText text world operation = some (response, after)) :
    commandMachine.step world operation response after := by
  unfold respondText at answered
  split at answered
  case h_1 =>
    split at answered
    · next fresh =>
      cases answered
      exact ⟨fresh.1, fresh.2, by decide, rfl⟩
    · cases answered
  case h_2 =>
    split at answered
    · next fresh =>
      cases answered
      exact ⟨fresh, rfl⟩
    · cases answered
  case h_7 =>
    split at answered
    · next filled =>
      cases answered
      exact ⟨filled.2.1, filled.2.2, rfl⟩
    · cases answered
      exact rfl
  case h_9 =>
    split at answered
    · next mine =>
      cases answered
      exact ⟨mine, rfl⟩
    · cases answered
  all_goals
    cases answered
    exact rfl

end ReUperf.LauncherFinder
