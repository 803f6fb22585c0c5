import ReUperf.Lib.Handles
import ReUperf.System.FileAccess

/-!
# Writing a file

A write may take only some of the bytes, be interrupted or fail. The module shows that a file is
reported as written exactly when the system took every byte of the content, in order and once, and
that the descriptor is closed on every path.
-/

namespace ReUperf

open Effect FileAccess

/-- What the system knows of the writes of one thread. -/
structure WriteWorld where
  /-- The open descriptors. -/
  descriptors : Handles Int := {}
  /-- The paths that were opened. -/
  opens : List Bytes := []
  /-- The bytes taken since the last one was opened. -/
  taken : Bytes := []
  /-- The paths dropped from the cache. -/
  dropped : List Bytes := []

namespace WriteWorld

/-- What the operations do. A write takes some of the bytes, from the first one on. -/
def machine : Machine AccessSig WriteWorld where
  step
    | world, .openFile path _, some fd, after =>
      0 ≤ fd ∧ fd ∉ world.descriptors.held ∧ after = { world with
        descriptors := world.descriptors.acquire fd, opens := world.opens ++ [path], taken := [] }
    | world, .openFile _ _, none, after => after = world
    | world, .write fd bytes, .wrote count, after =>
      count ≤ bytes.length ∧ after = { world with
        descriptors := world.descriptors.use fd, taken := world.taken ++ bytes.take count }
    | world, .write fd _, .interrupted, after | world, .write fd _, .failed, after =>
      after = { world with descriptors := world.descriptors.use fd }
    | world, .close fd, _, after =>
      after = { world with descriptors := world.descriptors.release fd }
    | world, .invalidate path, _, after => after = { world with dropped := world.dropped ++ [path] }
    | world, .now, _, after | world, .findCached _ _, _, after
    | world, .storeCached _ _ _, _, after | world, .readAll _, _, after => after = world

variable {world after : WriteWorld} {path content : Bytes} {flags : OpenFlags} {fd : Int}

/-- While a file is written: what was taken and what is left are the content. -/
structure Writing (start : WriteWorld) (fd : Int) (content rest : Bytes) (world : WriteWorld) :
    Prop where
  /-- Nothing but the bytes has changed. -/
  same : world = { start with taken := world.taken }
  /-- The descriptor is open. -/
  opened : fd ∈ start.descriptors.held
  /-- The bytes. -/
  split : world.taken ++ rest = content

variable {start : WriteWorld} {rest : Bytes}

/-- One write takes some of what is left, or ends. -/
theorem writeSome_writing (writing : Writing start fd content rest world) :
    (writeSome fd rest).wp machine.withSpin (fun outcome after => outcome.elim
      (fun next => Writing start fd content next after)
      fun complete => ∃ left, Writing start fd content left after ∧ (complete = true ↔ left = []))
      world := by
  have usable : world.descriptors.use fd = world.descriptors := by
    rw [writing.same]
    exact Handles.use_of_mem writing.opened
  rw [writeSome, Program.wp_ite]
  split
  · next empty => exact ⟨rest, writing, iff_of_true rfl empty⟩
  · next more =>
    rw [Program.wp_bind, Looping.wp_op]
    intro result after stepped
    cases result with
    | wrote count =>
      obtain ⟨small, rfl⟩ := stepped
      rw [usable]
      dsimp only
      rw [Program.wp_ite]
      split
      · next zero =>
        refine ⟨rest, ⟨?_, writing.opened, ?_⟩, iff_of_false Bool.false_ne_true more⟩
        · rw [writing.same]
        · rw [zero, List.take_zero, List.append_nil]
          exact writing.split
      · refine ⟨?_, writing.opened, ?_⟩
        · rw [writing.same]
        · rw [List.append_assoc, List.take_append_drop]
          exact writing.split
    | interrupted =>
      obtain rfl : after = _ := stepped
      rw [usable]
      exact writing
    | failed =>
      obtain rfl : after = _ := stepped
      rw [usable]
      exact ⟨rest, writing, iff_of_false Bool.false_ne_true more⟩

/-- A descriptor is opened. -/
def openedAs (world : WriteWorld) (path : Bytes) (fd : Int) : WriteWorld :=
  { world with
    descriptors := world.descriptors.acquire fd, opens := world.opens ++ [path], taken := [] }

/-- How a write ends. -/
structure Written (path content : Bytes) (world : WriteWorld) (complete : Bool)
    (after : WriteWorld) : Prop where
  /-- No descriptor is left open, and none was used that was not. -/
  descriptors : after.descriptors = world.descriptors
  /-- A complete write has written the content and dropped the path from the cache. -/
  all : complete = true → after.opens = world.opens ++ [path] ∧ after.taken = content ∧
    after.dropped = world.dropped ++ [path]
  /-- Another one has written less, or could not open the file. -/
  less : complete = false → after.dropped = world.dropped ∧
    (after = world ∨ (after.opens = world.opens ++ [path] ∧ after.taken <+: content ∧
      after.taken ≠ content))

/-- Every write ends so. -/
theorem writeOpenFile_written (fuel : Nat) :
    (writeOpenFile fuel path content flags).wp machine.withSpin
      (fun complete after => Written path content world complete after) world := by
  rw [writeOpenFile, Program.wp_bind, Looping.wp_op]
  intro opened first stepped
  cases opened with
  | none =>
    obtain rfl : first = _ := stepped
    exact ⟨rfl, fun done => absurd done Bool.false_ne_true, fun _ => ⟨rfl, .inl rfl⟩⟩
  | some fd =>
    obtain ⟨-, fresh, stored⟩ := stepped
    have same : first = world.openedAs path fd := stored
    have begun : Writing (world.openedAs path fd) fd content content (world.openedAs path fd) :=
      ⟨rfl, by simp [openedAs], rfl⟩
    rw [same]
    dsimp only
    rw [Program.wp_bind]
    refine Program.wp_mono (Looping.wp_loop _ (fun _ _ => writeSome_writing) fuel begun) ?_
    intro complete middle ended
    obtain ⟨left, writing, all⟩ := ended
    have closes : { middle with descriptors := middle.descriptors.release fd } =
        { world with opens := world.opens ++ [path], taken := middle.taken } := by
      rw [writing.same]
      simp only [openedAs, Handles.release_acquire fresh]
    have split := writing.split
    rw [Program.wp_bind, Looping.wp_op]
    intro _ second closed
    rw [show second = _ from closed, closes, Program.wp_ite]
    split
    · next done =>
      rw [Program.wp_bind, Looping.wp_op]
      intro _ last dropped
      rw [show last = _ from dropped]
      rw [all.mp done, List.append_nil] at split
      exact ⟨rfl, fun _ => ⟨rfl, split, rfl⟩, fun failed => absurd failed (by decide)⟩
    · next failed =>
      refine ⟨rfl, fun done => absurd done Bool.false_ne_true, fun _ => ⟨rfl, .inr ⟨rfl, ?_, ?_⟩⟩⟩
      · rw [← split]
        exact List.prefix_append _ _
      · intro done
        have bytes : middle.taken ++ left = middle.taken ++ [] := by
          rw [split, List.append_nil, ← done]
        exact failed (all.mpr (List.append_cancel_left bytes))

/-- However the system splits, interrupts or refuses the writes: when a file is reported as written, the
system took exactly the content, each byte once and in order, and the path was dropped from the cache.
When it is not, the file could not be opened or less than the content was taken, and the path was kept.
The descriptor is closed once in every case, and no other is used. -/
theorem run_written {fuel : Nat} {complete : Bool}
    (run : Program.Run machine.withSpin (writeOpenFile fuel path content flags) world complete
      after) :
    after.descriptors = world.descriptors ∧
    (complete = true → after.opens = world.opens ++ [path] ∧ after.taken = content ∧
      after.dropped = world.dropped ++ [path]) ∧
    (complete = false → after.dropped = world.dropped ∧
      (after = world ∨ (after.opens = world.opens ++ [path] ∧ after.taken <+: content ∧
        after.taken ≠ content))) := by
  have written := run.post (writeOpenFile_written fuel)
  exact ⟨written.descriptors, written.all, written.less⟩

/-- Answers of a system that takes one byte at a time. -/
def respondByte (world : WriteWorld) :
    (operation : AccessOp) → Option (AccessSig.Res operation × WriteWorld)
  | .openFile path _ =>
    if 3 ∉ world.descriptors.held then some (some 3, world.openedAs path 3) else none
  | .write fd bytes =>
    if bytes = [] then none
    else some (.wrote 1, { world with
      descriptors := world.descriptors.use fd, taken := world.taken ++ bytes.take 1 })
  | .close fd => some ((), { world with descriptors := world.descriptors.release fd })
  | .invalidate path => some ((), { world with dropped := world.dropped ++ [path] })
  | _ => none

/-- Such answers are possible. -/
theorem step_of_respondByte {operation : AccessOp} {response : AccessSig.Res operation}
    (answered : respondByte world operation = some (response, after)) :
    machine.step world operation response after := by
  cases operation with
  | openFile path flags =>
    rw [respondByte] at answered
    split at answered
    · next fresh =>
      cases answered
      exact ⟨by decide, fresh, rfl⟩
    · cases answered
  | write fd bytes =>
    rw [respondByte] at answered
    split at answered
    · cases answered
    · next more =>
      cases answered
      exact ⟨List.length_pos_of_ne_nil more, rfl⟩
  | close | invalidate =>
    cases answered
    rfl
  | now | findCached | storeCached | readAll => cases answered

theorem run_written_byByte : ∃ after : WriteWorld,
    Program.Run machine.withSpin
      (writeKernelControlFile 3 (Bytes.ascii "/dev/cpuset/tasks") [49, 50]) {} true after ∧
    after.taken = [49, 50] ∧ after.descriptors = {} := by
  have executed : ((writeKernelControlFile 3 (Bytes.ascii "/dev/cpuset/tasks") [49, 50]).exec
      (Looping.respondWithSpin respondByte) {}).map Prod.fst = some true := by
    rfl
  obtain ⟨⟨_, after⟩, ran, rfl⟩ := Option.map_eq_some_iff.mp executed
  have run := Looping.run_of_exec step_of_respondByte ran
  have written := run_written run
  exact ⟨after, run, (written.2.1 rfl).2.1, written.1⟩

end WriteWorld

end ReUperf
