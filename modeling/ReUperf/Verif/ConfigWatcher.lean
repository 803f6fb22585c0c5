import ReUperf.Lib.Handles
import ReUperf.Main.ConfigWatch

/-!
# What the configuration watcher reports

The watcher reads the records of an inotify watch that does not block. Other programs write the file
while it reads. The module shows that one call reports every write whose record was queued before
it, unless a read failed, that it reports nothing else, and that over any number of calls it holds
one descriptor at most.
-/

namespace ReUperf

open Effect

namespace Main

/-- What a record of the directory means for the watcher. -/
def WrittenBy (basename : Bytes) (event : InotifyEvent) : Prop :=
  Inotify.hasFlag event.mask Inotify.inQOverflow = true ∨
    (0 < event.name.length + event.padding ∧ basename = event.name ∧
      Inotify.hasFlag event.mask (Inotify.inModify ||| Inotify.inCloseWrite |||
        Inotify.inMovedTo ||| Inotify.inAttrib) = true)

instance (basename : Bytes) (event : InotifyEvent) : Decidable (WrittenBy basename event) :=
  inferInstanceAs (Decidable (_ ∨ _))

namespace ConfigFileWatcher

/-- What the system knows of the watcher. -/
structure WatcherWorld where
  /-- The open descriptors. -/
  descriptors : Handles Int := {}
  /-- The records nobody has read. -/
  queue : List InotifyEvent := []
  /-- The records the watcher has read. -/
  consumed : List InotifyEvent := []
  /-- Whether a read failed. -/
  readFailed : Bool := false

/-- What the operations of the watcher do. A new watch has an empty queue, and a read finds nothing
only when the queue is empty. -/
def answers : WatcherWorld → (operation : WatcherOp) → WatcherSig.Res operation →
    WatcherWorld → Prop
  | world, .inotifyInit, none, after => after = world
  | world, .inotifyInit, some fd, after =>
    0 ≤ fd ∧ fd ∉ world.descriptors.held ∧ after = { world with
      descriptors := world.descriptors.acquire fd, queue := [] }
  | world, .addWatch fd, _, after =>
    after = { world with descriptors := world.descriptors.use fd }
  | world, .read fd, .bytes buffer, after =>
    ∃ events rest, world.queue = events ++ rest ∧ events ≠ [] ∧
      buffer = events.flatMap InotifyEvent.encode ∧ after = { world with
        descriptors := world.descriptors.use fd, queue := rest
        consumed := world.consumed ++ events }
  | world, .read fd, .again, after =>
    world.queue = [] ∧ after = { world with descriptors := world.descriptors.use fd }
  | world, .read fd, .interrupted, after =>
    after = { world with descriptors := world.descriptors.use fd }
  | world, .read fd, .failed, after =>
    after = { world with descriptors := world.descriptors.use fd, readFailed := true }
  | world, .close fd, _, after =>
    after = { world with descriptors := world.descriptors.release fd }

/-- The watcher among programs that write files: records can be queued before each operation. -/
def machine : Machine WatcherSig WatcherWorld where
  step world operation response after :=
    ∃ events, answers { world with queue := world.queue ++ events } operation response after

/-! ## Records -/

variable {basename : Bytes} {events : List InotifyEvent} {world : WatcherWorld}

/-- The findings of some records. -/
def findingsOf (basename : Bytes) (findings : Findings) (events : List InotifyEvent) : Findings :=
  events.foldl (fun findings event => ((noteEvent basename event.encode).run findings).2) findings

/-- A buffer of whole records is noted record by record. -/
theorem noteEvents_encode (findings : Findings) :
    noteEvents basename (events.flatMap InotifyEvent.encode) findings =
      findingsOf basename findings events := by
  have whole : ∀ record ∈ events.map InotifyEvent.encode, Inotify.framing.IsRecord record := by
    intro record member
    obtain ⟨event, -, rfl⟩ := List.mem_map.mp member
    exact event.isRecord_encode
  have ended : Inotify.framing.Incomplete [] := .inl (by decide)
  have buffered : events.flatMap InotifyEvent.encode =
      (events.map InotifyEvent.encode).flatten ++ [] := by
    rw [List.append_nil, List.flatMap_def]
  have walked := Framing.forEach_flatten (noteEvent basename) whole ended (Nat.le_refl _)
  have noted : ∀ start : Findings,
      (((events.map InotifyEvent.encode).forM (noteEvent basename)).run start).2 =
        findingsOf basename start events := by
    clear walked buffered whole
    induction events with
    | nil => exact fun start => rfl
    | cons event events ih => exact fun start => ih _
  rw [noteEvents, buffered, walked, ← noted findings]
  exact congrArg (Findings.mk _) (Bool.or_false _)

/-- One record is noted as what it means. -/
theorem noteEvent_encode (findings : Findings) (event : InotifyEvent) :
    ((noteEvent basename event.encode).run findings).2.configChanged = true ↔
      findings.configChanged = true ∨ WrittenBy basename event := by
  have run : ((noteEvent basename event.encode).run findings).2.configChanged =
      (findings.configChanged ||
        Inotify.hasFlag (Inotify.mask event.encode) Inotify.inQOverflow ||
        tellsChange basename event.encode) := rfl
  rw [run, tellsChange, InotifyEvent.mask_encode, InotifyEvent.len_encode,
    InotifyEvent.name_encode, WrittenBy]
  simp [or_assoc, and_assoc]

/-- Records tell that the file was written when one of them does. -/
theorem findingsOf_configChanged (findings : Findings) (events : List InotifyEvent) :
    (findingsOf basename findings events).configChanged = true ↔
      findings.configChanged = true ∨ ∃ event ∈ events, WrittenBy basename event := by
  induction events generalizing findings with
  | nil => simp [findingsOf]
  | cons event events ih =>
    have split : findingsOf basename findings (event :: events) =
        findingsOf basename ((noteEvent basename event.encode).run findings).2 events := rfl
    rw [split, ih, noteEvent_encode, or_assoc]
    simp

/-! ## Descriptors -/

/-- The descriptors of a watcher: the one it has, or none. -/
def handlesOf (inotifyFd : Int) : Handles Int :=
  if inotifyFd < 0 then {} else Handles.acquire {} inotifyFd

/-- A stopped watcher holds nothing. -/
theorem release_handlesOf {fd : Int} (opened : 0 ≤ fd) : (handlesOf fd).release fd = {} := by
  rw [handlesOf, if_neg (by omega)]
  exact Handles.release_acquire (Finset.notMem_empty _)

/-- The descriptor of a watcher can be used. -/
theorem use_handlesOf {fd : Int} (opened : 0 ≤ fd) : (handlesOf fd).use fd = handlesOf fd := by
  refine Handles.use_of_mem ?_
  rw [handlesOf, if_neg (by omega)]
  simp

/-- Nothing but the descriptors and the queue changes. -/
structure Unread (before after : WatcherWorld) : Prop where
  /-- Nothing is read. -/
  consumed : after.consumed = before.consumed
  /-- No read failed. -/
  readFailed : after.readFailed = before.readFailed

/-- Stopping closes the descriptor. -/
theorem stop_unread {fd : Int} (held : world.descriptors = handlesOf fd) :
    (stop fd).wp machine.withSpin (fun next after =>
      next < 0 ∧ after.descriptors = {} ∧ Unread world after) world := by
  rw [stop, Program.wp_ite]
  by_cases opened : 0 ≤ fd
  · rw [if_pos opened, Program.wp_bind, Looping.wp_op]
    intro _ after stepped
    obtain ⟨events, rfl⟩ := stepped
    refine ⟨by decide, ?_, rfl, rfl⟩
    dsimp only
    rw [held, release_handlesOf opened]
  · rw [if_neg opened]
    refine ⟨by omega, ?_, rfl, rfl⟩
    rw [held, handlesOf, if_pos (by omega)]

/-- Starting opens a new descriptor or none. -/
theorem start_unread {fd : Int} (held : world.descriptors = handlesOf fd) :
    (start fd).wp machine.withSpin (fun next after =>
      after.descriptors = handlesOf next ∧ Unread world after) world := by
  rw [start, Program.wp_bind]
  refine Program.wp_mono (stop_unread held) fun _ stopped closed => ?_
  obtain ⟨-, none, ⟨consumed, failed⟩⟩ := closed
  rw [Program.wp_bind, Looping.wp_op]
  intro watch first stepped
  obtain ⟨events, answered⟩ := stepped
  cases watch with
  | none =>
    obtain rfl : first = _ := answered
    exact ⟨none, consumed, failed⟩
  | some next =>
    obtain ⟨opened, -, rfl⟩ := answered
    have usable : next ∈ (stopped.descriptors.acquire next).held := by simp
    have fresh : next ∉ stopped.descriptors.held := by
      rw [none]
      exact Finset.notMem_empty _
    rw [Program.wp_bind, Looping.wp_op]
    intro added second stepped
    obtain ⟨more, rfl⟩ := stepped
    dsimp only
    rw [Program.wp_ite, Handles.use_of_mem usable]
    split
    · refine ⟨?_, consumed, failed⟩
      dsimp only
      rw [none, handlesOf, if_neg (by omega)]
    · rw [Program.wp_bind, Looping.wp_op]
      intro _ last stepped
      obtain ⟨rest, rfl⟩ := stepped
      refine ⟨?_, consumed, failed⟩
      dsimp only
      rw [Handles.release_acquire fresh, none]
      rfl

/-! ## Reading -/

/-- The findings are those of the records read since the call began, among which are all those that
were queued before it, once nothing is left. -/
structure Noted (basename : Bytes) (fd : Int) (start : WatcherWorld) (findings : Findings)
    (world : WatcherWorld) : Prop where
  /-- The descriptor is open. -/
  descriptors : world.descriptors = handlesOf fd
  /-- The records read and those left begin with those there were. -/
  queue : ∃ read added, world.consumed = start.consumed ++ read ∧
    read ++ world.queue = start.queue ++ added ∧
    (findings.configChanged = true ↔ ∃ event ∈ read, WrittenBy basename event)
  /-- No read failed that is not noted. -/
  readFailed : world.readFailed = true → start.readFailed = true

variable {start : WatcherWorld} {fd : Int} {findings : Findings}

/-- More records are queued. -/
theorem Noted.more (noted : Noted basename fd start findings world) (events : List InotifyEvent) :
    Noted basename fd start findings { world with queue := world.queue ++ events } := by
  obtain ⟨descriptors, ⟨read, added, consumed, split, found⟩, failed⟩ := noted
  refine ⟨descriptors, ⟨read, added ++ events, consumed, ?_, found⟩, failed⟩
  dsimp only
  rw [← List.append_assoc, split, List.append_assoc]

/-- How reading ends: every record was read that was queued when the call began, or a read failed. -/
structure Drained (basename : Bytes) (fd : Int) (start : WatcherWorld) (findings : Findings)
    (world : WatcherWorld) : Prop where
  /-- The descriptor is open. -/
  descriptors : world.descriptors = handlesOf fd
  /-- The findings are those of the records read. -/
  read : ∃ read, world.consumed = start.consumed ++ read ∧
    (findings.configChanged = true ↔ ∃ event ∈ read, WrittenBy basename event) ∧
    (world.readFailed = false → ∀ event ∈ start.queue, event ∈ read)

/-- One read notes what it reads, or ends the reading. -/
theorem readEvents_noted (opened : 0 ≤ fd) (noted : Noted basename fd start findings world) :
    (readEvents basename fd findings).wp machine.withSpin (fun outcome after =>
      outcome.elim (fun next => Noted basename fd start next after)
        fun found => Drained basename fd start found after) world := by
  rw [readEvents, Program.wp_bind, Looping.wp_op]
  intro response after stepped
  obtain ⟨events, answered⟩ := stepped
  obtain ⟨descriptors, ⟨read, added, consumed, split, found⟩, failed⟩ := noted.more events
  have usable : world.descriptors.use fd = world.descriptors := by
    rw [noted.descriptors, use_handlesOf opened]
  cases response with
  | bytes buffer =>
    obtain ⟨taken, rest, queued, -, rfl, rfl⟩ := answered
    dsimp only
    rw [noteEvents_encode]
    refine ⟨usable.trans descriptors, ⟨read ++ taken, added, ?_, ?_, ?_⟩, failed⟩
    · dsimp only
      rw [← List.append_assoc]
      exact congrArg (· ++ taken) consumed
    · dsimp only at queued split ⊢
      rw [List.append_assoc, ← queued, split]
    · rw [findingsOf_configChanged, found]
      simp only [List.mem_append, or_and_right, exists_or]
  | again =>
    obtain ⟨empty, rfl⟩ := answered
    refine ⟨usable.trans descriptors, read, consumed, found, fun _ event member => ?_⟩
    rw [empty, List.append_nil] at split
    rw [split]
    exact List.mem_append_left _ member
  | interrupted =>
    obtain rfl : after = _ := answered
    exact ⟨usable.trans descriptors, ⟨read, added, consumed, split, found⟩, failed⟩
  | failed =>
    obtain rfl : after = _ := answered
    exact ⟨usable.trans descriptors, read, consumed, found, fun working =>
      absurd working (by simp)⟩

/-- What one call does: it reports the records it reads, which are all those queued before it when
its watch is open and no read fails. -/
structure Reports (basename : Bytes) (fd : Int) (before : WatcherWorld) (reported : Bool × Int)
    (after : WatcherWorld) : Prop where
  /-- The watcher holds its descriptor and no other. -/
  descriptors : after.descriptors = handlesOf reported.2
  /-- The records read are reported, and nothing else is. -/
  read : ∃ read, after.consumed = before.consumed ++ read ∧
    (reported.1 = true ↔ ∃ event ∈ read, WrittenBy basename event) ∧
    (0 ≤ fd → after.readFailed = false → ∀ event ∈ before.queue, event ∈ read)

/-- Reading what there is reports it. -/
theorem drain_reports (fuel : Nat) (opened : 0 ≤ fd) (held : world.descriptors = handlesOf fd) :
    (drain fuel basename fd false).wp machine.withSpin
      (fun reported after => Reports basename fd world reported after) world := by
  have begun : Noted basename fd world ⟨false, false⟩ world :=
    ⟨held, ⟨[], [], by simp, by simp, by simp⟩, id⟩
  have looped : (Looping.loop (readEvents basename fd) fuel ⟨false, false⟩).wp machine.withSpin
      (fun found after => Drained basename fd world found after) world :=
    Looping.wp_loop (fun current state => Noted basename fd world current state)
      (fun current state noted => readEvents_noted opened noted) fuel begun
  rw [drain, Program.wp_bind]
  refine Program.wp_mono looped fun found drained done => ?_
  obtain ⟨descriptors, read, consumed, tells, complete⟩ := done
  rw [Program.wp_ite]
  split
  · rw [Program.wp_bind]
    refine Program.wp_mono (stop_unread descriptors) fun stopped closed idle => ?_
    obtain ⟨negative, none, unread⟩ := idle
    have bare : closed.descriptors = handlesOf stopped := by
      rw [none, handlesOf, if_pos negative]
    rw [Program.wp_bind]
    refine Program.wp_mono (start_unread bare) fun next after again => ?_
    refine ⟨again.1, read, ?_, tells, fun _ working => complete ?_⟩
    · rw [again.2.consumed, unread.consumed, consumed]
    · rw [← unread.readFailed, ← again.2.readFailed, working]
  · exact ⟨descriptors, read, consumed, tells, fun _ => complete⟩

/-- A call reports what it reads. -/
theorem checkAndClear_reports (fuel : Nat) (configPath : Bytes)
    (held : world.descriptors = handlesOf fd) :
    (checkAndClear fuel configPath fd).wp machine.withSpin
      (fun reported after => Reports (watchBasename configPath) fd world reported after) world := by
  rw [checkAndClear, Program.wp_ite]
  by_cases closed : fd < 0
  · rw [if_pos closed, Program.wp_bind]
    refine Program.wp_mono (start_unread held) fun next opened started => ?_
    obtain ⟨descriptors, unread⟩ := started
    rw [Program.wp_ite]
    by_cases still : next < 0
    · rw [if_pos still]
      refine ⟨descriptors, [], ?_, by simp, fun open' => absurd closed (by omega)⟩
      rw [unread.consumed, List.append_nil]
    · rw [if_neg still]
      refine Program.wp_mono (drain_reports fuel (by omega) descriptors) ?_
      intro reported after done
      obtain ⟨last, read, consumed, tells, -⟩ := done
      refine ⟨last, read, ?_, tells, fun open' => absurd closed (by omega)⟩
      rw [consumed, unread.consumed]
  · rw [if_neg closed]
    exact drain_reports fuel (by omega) held

/-! ## Runs -/

/-- The calls of several rounds of the main loop. -/
def checks (fuel : Nat) (configPath : Bytes) : (count : Nat) → WatcherProgram (List Bool × Int)
  | 0 => pure ([], -1)
  | count + 1 => do
    let (earlier, fd) ← checks fuel configPath count
    let (reported, fd) ← checkAndClear fuel configPath fd
    pure (earlier ++ [reported], fd)

/-- Over several calls the records read are reported, and nothing else is. -/
theorem checks_reports (fuel : Nat) (configPath : Bytes) (count : Nat) :
    (checks fuel configPath count).wp machine.withSpin (fun found after =>
      after.descriptors = handlesOf found.2 ∧
        (true ∈ found.1 ↔ ∃ event ∈ after.consumed, WrittenBy (watchBasename configPath) event))
      {} := by
  induction count with
  | zero => exact ⟨rfl, by simp⟩
  | succ count ih =>
    rw [checks, Program.wp_bind]
    refine Program.wp_mono ih fun found middle before => ?_
    obtain ⟨earlier, fd⟩ := found
    obtain ⟨held, told⟩ := before
    rw [Program.wp_bind]
    refine Program.wp_mono (checkAndClear_reports fuel configPath held) fun reported after done => ?_
    obtain ⟨next, read, consumed, tells, -⟩ := done
    refine ⟨next, ?_⟩
    have here : true ∈ [reported.1] ↔ reported.1 = true := by
      rw [List.mem_singleton, eq_comm]
    dsimp only at told ⊢
    rw [List.mem_append, told, here, tells, consumed]
    simp only [List.mem_append, or_and_right, exists_or]

variable {fuel count : Nat} {configPath : Bytes} {results : List Bool} {reported : Bool × Int}
  {between : List InotifyEvent} {after : WatcherWorld}

/-- After any number of calls, over which the watch may fail, be closed and be opened again, the next
call reports every write whose record was queued before it, if its watch is open and no read fails.
All calls together report exactly the writes whose records were read. The watcher holds its
descriptor and no other, and has used and closed none that was not open. -/
theorem run_reports
    (earlier : Program.Run machine.withSpin (checks fuel configPath count) {} (results, fd) world)
    (call : Program.Run machine.withSpin (checkAndClear fuel configPath fd)
      { world with queue := world.queue ++ between } reported after) :
    (0 ≤ fd → after.readFailed = false →
      (∃ event ∈ world.queue ++ between, WrittenBy (watchBasename configPath) event) →
      reported.1 = true) ∧
    ((true ∈ results ∨ reported.1 = true) ↔
      ∃ event ∈ after.consumed, WrittenBy (watchBasename configPath) event) ∧
    after.descriptors.misused = false ∧
    ∀ other, other ∈ after.descriptors.held ↔ 0 ≤ other ∧ other = reported.2 := by
  obtain ⟨held, told⟩ := earlier.post (checks_reports fuel configPath count)
  have reports : (checkAndClear fuel configPath fd).wp machine.withSpin
      (fun reported after => Reports (watchBasename configPath) fd
        { world with queue := world.queue ++ between } reported after)
      { world with queue := world.queue ++ between } :=
    checkAndClear_reports fuel configPath held
  obtain ⟨next, read, consumed, tells, complete⟩ := call.post reports
  refine ⟨fun opened working written => ?_, ?_, ?_, fun other => ?_⟩
  · obtain ⟨event, queued, writes⟩ := written
    exact tells.mpr ⟨event, complete opened working event queued, writes⟩
  · dsimp only at told
    rw [told, tells, consumed]
    simp only [List.mem_append, or_and_right, exists_or]
  · rw [next, handlesOf]
    split <;> rfl
  · rw [next, handlesOf]
    split
    · refine iff_of_false (Finset.notMem_empty other) fun own => ?_
      omega
    · rw [Handles.mem_acquire]
      have none : other ∉ (∅ : Finset Int) := Finset.notMem_empty other
      constructor
      · intro own
        have same : other = reported.2 := own.resolve_right none
        exact ⟨by omega, same⟩
      · exact fun own => .inl own.2

/-- The configuration file is written. -/
def written : InotifyEvent :=
  ⟨1, 0x8, 0, Bytes.ascii "config.json", 5, by decide, by decide, by decide⟩

/-- Answers under which every call works. -/
def respondWorking (world : WatcherWorld) :
    (operation : WatcherOp) → Option (WatcherSig.Res operation × WatcherWorld)
  | .inotifyInit =>
    if 3 ∉ world.descriptors.held then
      some (some 3, { world with descriptors := world.descriptors.acquire 3, queue := [] })
    else none
  | .addWatch fd => some (true, { world with descriptors := world.descriptors.use fd })
  | .read fd =>
    if world.queue.isEmpty then
      some (.again, { world with descriptors := world.descriptors.use fd })
    else some (.bytes (world.queue.flatMap InotifyEvent.encode), { world with
      descriptors := world.descriptors.use fd, queue := []
      consumed := world.consumed ++ world.queue })
  | .close fd => some ((), { world with descriptors := world.descriptors.release fd })

/-- Such answers are possible. -/
theorem step_of_respondWorking {operation : WatcherOp} {response : WatcherSig.Res operation}
    (answered : respondWorking world operation = some (response, after)) :
    machine.step world operation response after := by
  have quiet : { world with queue := world.queue ++ [] } = world := by
    rw [List.append_nil]
  refine ⟨[], ?_⟩
  rw [quiet]
  cases operation with
  | inotifyInit =>
    rw [respondWorking] at answered
    split at answered
    · next fresh =>
      cases answered
      exact ⟨by decide, fresh, rfl⟩
    · cases answered
  | read fd =>
    rw [respondWorking] at answered
    split at answered
    · next empty =>
      cases answered
      exact ⟨List.isEmpty_iff.mp empty, rfl⟩
    · next left =>
      cases answered
      have some : world.queue ≠ [] := fun none => left (List.isEmpty_iff.mpr none)
      exact ⟨world.queue, [], (List.append_nil _).symm, some, rfl, rfl⟩
  | addWatch | close =>
    cases answered
    rfl

theorem run_reports_written : ∃ world after : WatcherWorld,
    Program.Run machine.withSpin (checks 2 (Bytes.ascii "/data/config.json") 1) {} ([false], 3)
      world ∧
    Program.Run machine.withSpin (checkAndClear 2 (Bytes.ascii "/data/config.json") 3)
      { world with queue := world.queue ++ [written] } (true, 3) after ∧
    after.descriptors.misused = false ∧
    ∀ other, other ∈ after.descriptors.held ↔ 0 ≤ other ∧ other = 3 := by
  have first : (checks 2 (Bytes.ascii "/data/config.json") 1).exec
      (Looping.respondWithSpin respondWorking) {} =
        some (([false], 3), { descriptors := Handles.acquire {} 3 }) := by
    rfl
  have second : ((checkAndClear 2 (Bytes.ascii "/data/config.json") 3).exec
      (Looping.respondWithSpin respondWorking)
        { descriptors := Handles.acquire {} 3, queue := [] ++ [written] }).map Prod.fst =
        some (true, 3) := by
    decide
  obtain ⟨⟨_, after⟩, ran, rfl⟩ := Option.map_eq_some_iff.mp second
  have earlier := Looping.run_of_exec step_of_respondWorking first
  have call := Looping.run_of_exec step_of_respondWorking ran
  have reports := run_reports earlier call
  exact ⟨_, after, earlier, call, reports.2.2⟩

end ConfigFileWatcher

end Main

end ReUperf
