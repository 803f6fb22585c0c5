import ReUperf.Verif.AcceptedConfig
import ReUperf.Verif.FixedProc

/-!
# Budgeted dispatch

A dispatch is called again and again, each time with a fresh budget, while `/proc` does not
change, no queue is full and only the pauses of the budget let time pass. The module proves when
such calls come to an end: a thread is given up when the budget ends between its reads, and a
later call starts with it again, so the calls end exactly when the pauses of a call's first reads
leave time for every thread.
-/

namespace ReUperf

open Effect FileUtils Main

namespace ProcContent

variable (proc : ProcContent)

/-- The number of entries of the task directory of a process. -/
def entries (pid : Int) : Nat := ((proc.tasks pid).getD []).length

/-- The reads of a thread after which the budget is checked for the last time. -/
def readsToDecide (pid tid : Int) : Nat := if proc.threadStartOf pid tid = 0 then 1 else 3

/-- A thread whose reads may be given up for want of budget. -/
structure Readable (pid tid : Int) : Prop where
  /-- The thread is listed. -/
  listed : tid ∈ proc.threads pid
  /-- The process has a name. -/
  processNamed : proc.processName pid ≠ deadName
  /-- The process has a start time. -/
  processStarted : proc.startOf pid ≠ 0
  /-- The thread has a name. -/
  threadNamed : proc.threadName pid tid ≠ deadName

/-- A budget that ends after some number of reads leaves time for every thread. -/
def Fits (ended : Nat → Bool) (pids : Finset Int) (processed : Finset Int) : Prop :=
  ∀ pid ∈ pids, ∀ tid, proc.Readable pid tid → tid ∉ processed →
    ended (proc.readsToDecide pid tid) = false

/-- What is left to read of a process before its threads are dispatched. -/
def loads (cursor : ScanCursor) : Nat :=
  (if cursor.processNameLoaded then 0 else 1) + (if cursor.processStartTimeLoaded then 0 else 1) +
    (if cursor.cmdlineLoaded then 0 else 1)

/-- What is left to do for the process of a cursor. -/
def work (world : FixedWorld) (cursor : ScanCursor) : Nat :=
  loads cursor +
    if cursor.tidEnumerationComplete then cursor.tids.length - cursor.tidIndex
    else match cursor.taskDir with
      | some handle => 2 * (world.streams handle).length + cursor.tids.length + 1
      | none => 2 * proc.entries cursor.pid + 2

/-- What is left to do for a process that no cursor stands at. -/
def pidWork (pid : Int) : Nat := 2 * proc.entries pid + 6

/-- What is left to do for a process. -/
def workAt (world : FixedWorld) (cursor : ScanCursor) (pid : Int) : Nat :=
  if cursor.pid = pid then proc.work world cursor else proc.pidWork pid

/-- What is left to do for some processes. -/
def pidsWork : List Int → Nat
  | [] => 0
  | pid :: rest => proc.pidWork pid + pidsWork rest

/-- What is left to do for some processes, at the first of which a cursor may stand. -/
def workLeft (world : FixedWorld) (cursor : ScanCursor) : List Int → Nat
  | [] => 0
  | pid :: rest => proc.workAt world cursor pid + proc.pidsWork rest

/-- A call has not more to do than at its beginning, and less once it has read something. -/
structure Progress (limit left : Nat) (world : FixedWorld) : Prop where
  /-- Not more. -/
  bound : left ≤ limit
  /-- Less. -/
  less : 0 < world.reads → left < limit

variable {proc} {ended : Nat → Bool} {world : FixedWorld} {limit left : Nat}

/-- Less work is progress. -/
theorem Progress.mono {after : FixedWorld} {fewer : Nat} (progress : Progress limit left world)
    (decreased : fewer < left) : Progress limit fewer after := by
  have := progress.bound
  constructor
  · omega
  · intro _
    omega

/-- Without a read the work may stay as it is. -/
theorem Progress.quiet {after : FixedWorld} {fewer : Nat} (progress : Progress limit left world)
    (decreased : fewer ≤ left) (reads : after.reads = world.reads) :
    Progress limit fewer after := by
  have := progress.bound
  constructor
  · omega
  · intro read
    have := progress.less (reads ▸ read)
    omega

/-- A budget does not end before the first read. -/
theorem Progress.of_ended (progress : Progress limit left world) (start : ended 0 = false)
    (spent : ended world.reads = true) : left < limit := by
  refine progress.less (Nat.pos_of_ne_zero fun none => ?_)
  rw [none, start] at spent
  cases spent

/-- The work once the threads are listed. -/
theorem work_listed (proc : ProcContent) (world : FixedWorld) {cursor : ScanCursor} (listed : cursor.tidEnumerationComplete = true) :
    proc.work world cursor = loads cursor + (cursor.tids.length - cursor.tidIndex) := by
  rw [work, if_pos listed]

/-- The work while the threads are listed. -/
theorem work_open (proc : ProcContent) (world : FixedWorld) {cursor : ScanCursor} {handle : Nat}
    (unlisted : cursor.tidEnumerationComplete = false) (opened : cursor.taskDir = some handle) :
    proc.work world cursor =
      loads cursor + (2 * (world.streams handle).length + cursor.tids.length + 1) := by
  rw [work, unlisted, if_neg Bool.false_ne_true, opened]

/-- The work before the threads are listed. -/
theorem work_unlisted (proc : ProcContent) (world : FixedWorld) {cursor : ScanCursor}
    (unlisted : cursor.tidEnumerationComplete = false) (none : cursor.taskDir = none) :
    proc.work world cursor = loads cursor + (2 * proc.entries cursor.pid + 2) := by
  rw [work, unlisted, if_neg Bool.false_ne_true, none]

/-! ## Operations -/

/-- The budget ends after some number of reads. -/
def endsAfter (ended : Nat → Bool) : ExhaustionRule := fun reads answer => answer = ended reads

section Operations

@[simp] theorem ends_exhausted {post : Bool → FixedWorld → Prop} :
    (dispatchOp .exhausted).Ends (proc.answer ended) post world ↔
      post (ended world.reads) world := by
  constructor
  · rintro ⟨_, _, ⟨⟩, holds⟩
    exact holds
  · exact fun holds => ⟨_, _, rfl, holds⟩

@[simp] theorem ends_afterThreadRead {post : Unit → FixedWorld → Prop} :
    (dispatchOp .afterThreadRead).Ends (proc.answer ended) post world ↔ post () world.tick := by
  constructor
  · rintro ⟨_, _, ⟨⟩, holds⟩
    exact holds
  · exact fun holds => ⟨_, _, rfl, holds⟩

@[simp] theorem ends_closeDir {handle : Nat} {post : Unit → FixedWorld → Prop} :
    (dispatchOp (.closeDir handle)).Ends (proc.answer ended) post world ↔ post () world := by
  constructor
  · rintro ⟨_, _, ⟨⟩, holds⟩
    exact holds
  · exact fun holds => ⟨_, _, rfl, holds⟩

@[simp] theorem ends_processName {pid : Int} {post : Bytes → FixedWorld → Prop} :
    (dispatchOp (.processName pid)).Ends (proc.answer ended) post world ↔
      post (proc.processName pid) world := by
  constructor
  · rintro ⟨_, _, ⟨⟩, holds⟩
    exact holds
  · exact fun holds => ⟨_, _, rfl, holds⟩

@[simp] theorem ends_processCmdline {pid : Int} {post : Bytes → FixedWorld → Prop} :
    (dispatchOp (.processCmdline pid)).Ends (proc.answer ended) post world ↔
      post (proc.processCmdline pid) world := by
  constructor
  · rintro ⟨_, _, ⟨⟩, holds⟩
    exact holds
  · exact fun holds => ⟨_, _, rfl, holds⟩

@[simp] theorem ends_threadName {pid tid : Int} {post : Bytes → FixedWorld → Prop} :
    (dispatchOp (.threadName pid tid)).Ends (proc.answer ended) post world ↔
      post (proc.threadName pid tid) world := by
  constructor
  · rintro ⟨_, _, ⟨⟩, holds⟩
    exact holds
  · exact fun holds => ⟨_, _, rfl, holds⟩

@[simp] theorem ends_processStartTime {pid : Int} {post : Nat → FixedWorld → Prop} :
    (Main.processStartTime pid).Ends (proc.answer ended) post world ↔
      post (proc.startOf pid) world := by
  unfold Main.processStartTime startOf
  split
  · constructor
    · rintro ⟨_, _, ⟨⟩, holds⟩
      exact holds
    · exact fun holds => ⟨_, _, rfl, holds⟩
  · exact Iff.rfl

@[simp] theorem ends_threadStartTime {pid tid : Int} {post : Nat → FixedWorld → Prop} :
    (Main.threadStartTime pid tid).Ends (proc.answer ended) post world ↔
      post (proc.threadStartOf pid tid) world := by
  unfold Main.threadStartTime threadStartOf
  split
  · constructor
    · rintro ⟨_, _, ⟨⟩, holds⟩
      exact holds
    · exact fun holds => ⟨_, _, rfl, holds⟩
  · exact Iff.rfl

@[simp] theorem ends_enqueue {worker : Nat} {task : DispatchTask}
    {post : EnqueueResult → FixedWorld → Prop} :
    (dispatchOp (.enqueue worker task)).Ends (proc.answer ended) post world ↔
      post .queued { world with log := world.log ++ [⟨worker, task, .queued⟩] } := by
  constructor
  · rintro ⟨_, _, ⟨⟩, holds⟩
    exact holds
  · exact fun holds => ⟨_, _, rfl, holds⟩

/-- Reading an empty directory ends it. -/
theorem ends_readDir_nil {handle : Nat} {post : DirEntry → FixedWorld → Prop}
    (empty : world.streams handle = []) (holds : post .finished world) :
    (dispatchOp (.readDir handle)).Ends (proc.answer ended) post world := by
  refine ⟨.finished, world, ?_, holds⟩
  change proc.answer ended world (.readDir handle) = _
  simp only [answer, empty]

/-- Reading a directory takes its next entry. -/
theorem ends_readDir_cons {handle : Nat} {name : Bytes} {rest : List Bytes}
    {post : DirEntry → FixedWorld → Prop} (found : world.streams handle = name :: rest)
    (holds : post (.name name) (world.setStream handle rest)) :
    (dispatchOp (.readDir handle)).Ends (proc.answer ended) post world := by
  refine ⟨.name name, world.setStream handle rest, ?_, holds⟩
  change proc.answer ended world (.readDir handle) = _
  simp only [answer, found]

/-- A task directory that cannot be opened. -/
theorem ends_openTask_none {pid : Int} {post : Option Nat → FixedWorld → Prop}
    (missing : proc.tasks pid = none) (holds : post none world) :
    (dispatchOp (.openTask pid)).Ends (proc.answer ended) post world := by
  refine ⟨none, world, ?_, holds⟩
  change proc.answer ended world (.openTask pid) = _
  simp only [answer, missing]

/-- A task directory lists its entries. -/
theorem ends_openTask_some {pid : Int} {names : List Bytes} {post : Option Nat → FixedWorld → Prop}
    (found : proc.tasks pid = some names) (holds : post (some 0) (world.setStream 0 names)) :
    (dispatchOp (.openTask pid)).Ends (proc.answer ended) post world := by
  refine ⟨some 0, world.setStream 0 names, ?_, holds⟩
  change proc.answer ended world (.openTask pid) = _
  simp only [answer, found]

@[simp] theorem ends_reset {cursor : ScanCursor} {post : ScanCursor → FixedWorld → Prop} :
    cursor.reset.Ends (proc.answer ended) post world ↔ post {} world := by
  unfold ScanCursor.reset
  cases cursor.taskDir with
  | none => exact Iff.rfl
  | some handle => exact ends_closeDir

end Operations

/-! ## One process -/

/-- Listing threads makes progress. -/
theorem ends_readTids {cursor : ScanCursor} {handle fuel rest : Nat} (start : ended 0 = false)
    (unlisted : cursor.tidEnumerationComplete = false) (opened : cursor.taskDir = some handle)
    (enough : limit < fuel)
    (progress : Progress limit (proc.work world cursor + rest) world) :
    (Looping.loop (ScanCursor.readTid handle) fuel cursor).Ends (proc.answer ended)
      (fun found after => Progress limit (proc.work after found.2 + rest) after ∧
        (found.1 = false → proc.work after found.2 + rest < limit)) world := by
  have fuelled : (world.streams handle).length < fuel := by
    have before := work_open proc world unlisted opened
    have := progress.bound
    omega
  refine Looping.ends_loop
    (fun current state => current.tidEnumerationComplete = false ∧
      current.taskDir = some handle ∧ Progress limit (proc.work state current + rest) state)
    (fun _ state => (state.streams handle).length) ?_ ⟨unlisted, opened, progress⟩ fuelled
  rintro current state ⟨unlisted, opened, progress⟩
  have before := work_open proc state unlisted opened
  rw [ScanCursor.readTid, Looping.ends_bind, ends_exhausted]
  cases spent : ended state.reads with
  | true => exact ⟨progress, fun _ => progress.of_ended start spent⟩
  | false =>
    rw [if_neg Bool.false_ne_true, Looping.ends_bind]
    cases left : state.streams handle with
    | nil =>
      refine ends_readDir_nil left ?_
      rw [Looping.ends_bind, ends_closeDir]
      refine ⟨progress.mono ?_, fun impossible => absurd impossible.symm Bool.false_ne_true⟩
      rw [before]
      have shorter : (FileUtils.sortUnique current.tids).length ≤ current.tids.length := by
        rw [FileUtils.sortUnique, List.length_insertionSort]
        exact (List.dedup_sublist _).length_le
      have listed : proc.work state (current.listed current.tids) =
          loads current + (FileUtils.sortUnique current.tids).length := work_listed proc state rfl
      change proc.work state (current.listed current.tids) + rest < _
      omega
    | cons name names =>
      refine ends_readDir_cons left ?_
      rw [Looping.ends_bind, ends_afterThreadRead]
      rw [left, List.length_cons] at before
      have moved : ∀ next : ScanCursor, next.tidEnumerationComplete = false →
          next.taskDir = some handle → loads next = loads current →
          next.tids.length ≤ current.tids.length + 1 →
          Progress limit (proc.work (state.setStream handle names).tick next + rest)
            (state.setStream handle names).tick := by
        intro next unlisted opened loaded longer
        have after := work_open proc (state.setStream handle names).tick unlisted opened
        rw [FixedWorld.tick_streams, FixedWorld.setStream_self] at after
        refine progress.mono ?_
        omega
      have shorter : ((state.setStream handle names).tick.streams handle).length <
          names.length + 1 := by
        rw [FixedWorld.tick_streams, FixedWorld.setStream_self]
        exact Nat.lt_succ_self _
      cases FileUtils.parseId name with
      | none => exact ⟨⟨unlisted, opened, moved current unlisted opened rfl (by omega)⟩, shorter⟩
      | some tid =>
        refine ⟨⟨unlisted, opened, moved _ unlisted opened rfl ?_⟩, shorter⟩
        rw [List.length_append, List.length_singleton]

/-- Listing the threads of a process makes progress. -/
theorem ends_enumerateTids {cursor : ScanCursor} {fuel rest : Nat} (start : ended 0 = false)
    (stands : proc.CursorFor world cursor) (positive : 0 < cursor.pid) (enough : limit < fuel)
    (progress : Progress limit (proc.work world cursor + rest) world) :
    (cursor.enumerateTids fuel).Ends (proc.answer ended)
      (fun found after => Progress limit (proc.work after found.2 + rest) after ∧
        (found.1 = false → proc.work after found.2 + rest < limit)) world := by
  unfold ScanCursor.enumerateTids
  cases complete : cursor.tidEnumerationComplete with
  | true =>
    rw [if_pos rfl]
    exact ⟨progress, fun impossible => absurd impossible.symm Bool.false_ne_true⟩
  | false =>
    rw [if_neg Bool.false_ne_true, if_neg (by omega)]
    cases opened : cursor.taskDir with
    | some handle => exact ends_readTids start complete opened enough progress
    | none =>
      have before := work_unlisted proc world complete opened
      dsimp only
      rw [Looping.ends_bind]
      cases content : proc.tasks cursor.pid with
      | none =>
        refine ends_openTask_none content ⟨progress.quiet ?_ rfl,
          fun impossible => absurd impossible.symm Bool.false_ne_true⟩
        have empty := (stands.whenUnlisted complete).2 opened
        have after : ∀ next : ScanCursor, next.tidEnumerationComplete = true →
            loads next = loads cursor → next.tids = [] →
            proc.work world next ≤ proc.work world cursor := by
          intro next listed loaded none
          rw [work_listed proc world listed, before, loaded, none, List.length_nil]
          omega
        refine Nat.add_le_add_right (after _ ?_ ?_ ?_) rest
        · rfl
        · rfl
        · exact empty
      | some names =>
        refine ends_openTask_some content ?_
        refine ends_readTids start rfl rfl enough (progress.quiet ?_ rfl)
        have entries : proc.entries cursor.pid = names.length := by
          rw [entries, content, Option.getD_some]
        have after : ∀ next : ScanCursor, next.tidEnumerationComplete = false →
            next.taskDir = some 0 → loads next = loads cursor → next.tids = [] →
            proc.work (world.setStream 0 names) next ≤ proc.work world cursor := by
          intro next unlisted opened loaded none
          rw [work_open proc _ unlisted opened, FixedWorld.setStream_self, loaded, none,
            List.length_nil]
          omega
        refine Nat.add_le_add_right (after _ ?_ ?_ ?_ ?_) rest <;> rfl

/-! ## Threads -/

/-- A budget that ends once stays ended. -/
def StaysEnded (ended : Nat → Bool) : Prop :=
  ∀ earlier later : Nat, earlier ≤ later → ended earlier = true → ended later = true

/-- A thread is given up only when something was read before it. -/
theorem ends_dispatchThread {request : DispatchRequest} {cursor : ScanCursor} {tid : Int}
    (stays : StaysEnded ended) (ready : proc.Ready world cursor)
    (member : tid ∈ proc.threads cursor.pid)
    (fits : proc.Readable cursor.pid tid → ended (proc.readsToDecide cursor.pid tid) = false)
    (progress : Progress limit left world) :
    (dispatchThread request cursor tid).Ends (proc.answer ended)
      (fun outcome _ => outcome ≠ .lost ∧ (outcome = .postponed → left < limit)) world := by
  rw [dispatchThread, Looping.ends_bind, ends_threadName, Looping.ends_bind,
    ends_afterThreadRead]
  split
  · exact ⟨by decide, fun impossible => by cases impossible⟩
  next named =>
  have readable : proc.Readable cursor.pid tid := by
    refine ⟨member, ?_, ?_, named⟩
    · rw [← ready.name]
      exact ready.named
    · rw [← ready.startTime]
      exact ready.started
  have decided := fits readable
  rw [Looping.ends_bind, ends_exhausted]
  split
  · next spent =>
    refine ⟨by decide, fun _ => progress.less (Nat.pos_of_ne_zero fun none => ?_)⟩
    have early : 1 ≤ proc.readsToDecide cursor.pid tid := by
      rw [readsToDecide]
      split <;> omega
    rw [FixedWorld.tick, none] at spent
    rw [stays _ _ early spent] at decided
    cases decided
  rw [Looping.ends_bind, ends_threadStartTime, Looping.ends_bind, ends_afterThreadRead]
  split
  · exact ⟨by decide, fun impossible => by cases impossible⟩
  next started =>
  rw [Looping.ends_bind, ends_processStartTime, Looping.ends_bind, ends_afterThreadRead,
    if_neg (not_not.mpr ready.startTime.symm), Looping.ends_bind, ends_exhausted]
  split
  · next spent =>
    refine ⟨by decide, fun _ => progress.less (Nat.pos_of_ne_zero fun none => ?_)⟩
    rw [readsToDecide, if_neg started] at decided
    rw [FixedWorld.tick, FixedWorld.tick, FixedWorld.tick, none, decided] at spent
    cases spent
  rw [enqueueTask, Looping.ends_bind, ends_enqueue]
  exact ⟨by decide, fun impossible => by cases impossible⟩

/-- A later list of dispatched threads leaves time for every thread too. -/
theorem Fits.mono {pids processed more : Finset Int} (fits : proc.Fits ended pids processed)
    (grows : processed ⊆ more) : proc.Fits ended pids more :=
  fun pid member tid readable fresh => fits pid member tid readable fun known => fresh (grows known)

/-- How a dispatch of threads ends: it stops with less to do, or goes on to the next process. -/
structure Stopped (proc : ProcContent) (limit rest : Nat) (pid : Int)
    (found : Bool × DispatchState) (after : FixedWorld) : Prop where
  /-- There is less to do. -/
  less : found.1 = true → proc.work after found.2.cursor + rest < limit
  /-- The cursor stands at the process. -/
  pid : found.1 = true → found.2.cursor.pid = pid
  /-- The next process is begun. -/
  next : found.1 = false → Progress limit rest after

/-- Dispatching the threads of a process makes progress. -/
theorem ends_dispatchTids {request : DispatchRequest} {rest : Nat} (start : ended 0 = false)
    (stays : StaysEnded ended) (tids : List Int) (dispatch : DispatchState)
    (ready : proc.Ready world dispatch.cursor) (member : dispatch.cursor.pid ∈ request.pids)
    (left : dispatch.cursor.tids.drop dispatch.cursor.tidIndex = tids)
    (fits : proc.Fits ended request.pids dispatch.processed)
    (progress : Progress limit (proc.work world dispatch.cursor + rest) world) :
    (dispatchTids request tids dispatch).Ends (proc.answer ended)
      (Stopped proc limit rest dispatch.cursor.pid) world := by
  induction tids generalizing dispatch world with
  | nil =>
    refine ⟨fun stopped => absurd stopped Bool.false_ne_true,
      fun stopped => absurd stopped Bool.false_ne_true, fun _ => progress.quiet ?_ rfl⟩
    exact Nat.le_add_left rest _
  | cons tid tids ih =>
    obtain ⟨taken, left⟩ := take_succ_of_drop left
    have listed : tid ∈ proc.threads dispatch.cursor.pid := by
      refine (ready.stands.whenListed ready.listed tid).mp ?_
      exact List.mem_of_mem_take (taken ▸ List.mem_append_right _ (List.mem_singleton_self tid))
    have work := work_listed proc world ready.listed
    have inside : dispatch.cursor.tidIndex < dispatch.cursor.tids.length := by
      have length := congrArg List.length taken
      rw [List.length_append, List.length_singleton, List.length_take, List.length_take] at length
      omega
    have further : ∀ (after : FixedWorld) (next : ScanCursor), next.tidEnumerationComplete = true →
        loads next = loads dispatch.cursor → next.tids = dispatch.cursor.tids →
        next.tidIndex = dispatch.cursor.tidIndex + 1 →
        Progress limit (proc.work after next + rest) after := by
      intro after next listed loaded tids position
      have work' := work_listed proc after listed
      rw [loaded, tids, position] at work'
      refine progress.mono ?_
      omega
    rw [dispatchTids, Looping.ends_bind, ends_exhausted]
    split
    · next spent =>
      exact ⟨fun _ => progress.of_ended start spent, fun _ => rfl, fun stopped => by cases stopped⟩
    split
    · exact ih _ (ready.advance _) member left fits (further world _ ready.listed rfl rfl rfl)
    next fresh =>
    rw [Looping.ends_bind]
    refine Looping.ends_mono (ends_dispatchThread stays ready listed
      (fun readable => fits _ member tid readable fresh) progress) fun outcome after reached => ?_
    cases outcome with
    | skipped =>
      exact ih _ ((ready.advance _).congr after) member left fits
        (further after _ ready.listed rfl rfl rfl)
    | sent =>
      exact ih _ ((ready.advance _).congr after) member left
        (fits.mono (Finset.subset_insert _ _)) (further after _ ready.listed rfl rfl rfl)
    | postponed =>
      refine ⟨fun _ => ?_, fun _ => rfl, fun stopped => by cases stopped⟩
      have same := work_listed proc after ready.listed
      have := reached.2 rfl
      dsimp only
      omega
    | lost => exact absurd rfl reached.1

/-- What holds of every run of a dispatch holds of the run with these responses. -/
theorem ends_and_wp {α : Type} {program : DispatchProgram α} {left right : α → FixedWorld → Prop}
    (ends : program.Ends (proc.answer ended) left world)
    (holds : program.wp (proc.machine (endsAfter ended)).withSpin right world) :
    program.Ends (proc.answer ended) (fun value after => left value after ∧ right value after)
      world :=
  Looping.ends_and_wp
    (fun answered => @step_of_answer proc (endsAfter ended) ended (fun _ => rfl) _ _ _ _ answered)
    ends holds

/-- A read that need not be made again makes progress. -/
theorem Progress.load {cursor next : ScanCursor} {rest : Nat}
    (listed : cursor.tidEnumerationComplete = true)
    (progress : Progress limit (proc.work world cursor + rest) world)
    (complete : next.tidEnumerationComplete = cursor.tidEnumerationComplete)
    (tids : next.tids = cursor.tids) (position : next.tidIndex = cursor.tidIndex)
    (loaded : loads next < loads cursor) :
    Progress limit (proc.work world.tick next + rest) world.tick := by
  have before := work_listed proc world listed
  have after := work_listed proc world.tick (complete.trans listed)
  rw [tids, position] at after
  refine progress.mono ?_
  omega

/-- Reading the name makes progress. -/
theorem ends_loadName {cursor : ScanCursor} {rest : Nat}
    (listed : cursor.tidEnumerationComplete = true)
    (progress : Progress limit (proc.work world cursor + rest) world) :
    (loadName cursor).Ends (proc.answer ended)
      (fun next after => Progress limit (proc.work after next + rest) after) world := by
  unfold loadName
  split
  · exact progress
  · next unread =>
    rw [Looping.ends_bind, ends_processName, Looping.ends_bind, ends_afterThreadRead]
    refine progress.load listed rfl rfl rfl ?_
    have one : (if cursor.processNameLoaded then 0 else 1) = 1 := if_neg unread
    simp only [loads, ↓reduceIte]
    omega

/-- Reading the start time makes progress. -/
theorem ends_loadStartTime {cursor : ScanCursor} {rest : Nat}
    (listed : cursor.tidEnumerationComplete = true)
    (progress : Progress limit (proc.work world cursor + rest) world) :
    (loadStartTime cursor).Ends (proc.answer ended)
      (fun next after => Progress limit (proc.work after next + rest) after) world := by
  unfold loadStartTime
  split
  · exact progress
  · next unread =>
    rw [Looping.ends_bind, ends_processStartTime, Looping.ends_bind, ends_afterThreadRead]
    refine progress.load listed rfl rfl rfl ?_
    have one : (if cursor.processStartTimeLoaded then 0 else 1) = 1 := if_neg unread
    simp only [loads, ↓reduceIte]
    omega

/-- Reading the command line makes progress. -/
theorem ends_loadCmdline {cursor : ScanCursor} {rest : Nat}
    (listed : cursor.tidEnumerationComplete = true)
    (progress : Progress limit (proc.work world cursor + rest) world) :
    (loadCmdline cursor).Ends (proc.answer ended)
      (fun next after => Progress limit (proc.work after next + rest) after) world := by
  unfold loadCmdline
  split
  · exact progress
  · next unread =>
    rw [Looping.ends_bind, ends_processCmdline, Looping.ends_bind, ends_afterThreadRead]
    refine progress.load listed rfl rfl rfl ?_
    have one : (if cursor.cmdlineLoaded then 0 else 1) = 1 := if_neg unread
    simp only [loads, ↓reduceIte]
    omega

/-- A dispatch of a listed process makes progress. -/
theorem ends_dispatchListed {request : DispatchRequest} {rest : Nat} (start : ended 0 = false)
    (stays : StaysEnded ended) (dispatch : DispatchState)
    (stands : proc.CursorFor world dispatch.cursor)
    (listed : dispatch.cursor.tidEnumerationComplete = true)
    (member : dispatch.cursor.pid ∈ request.pids)
    (fits : proc.Fits ended request.pids dispatch.processed)
    (progress : Progress limit (proc.work world dispatch.cursor + rest) world) :
    (dispatchListed request dispatch).Ends (proc.answer ended)
      (Stopped proc limit rest dispatch.cursor.pid) world := by
  have finished : ∀ {cursor : ScanCursor} {after : FixedWorld},
      Progress limit (proc.work after cursor + rest) after →
      Stopped proc limit rest dispatch.cursor.pid (false, { dispatch with cursor := cursor })
        after := by
    intro cursor after progress
    refine ⟨fun stopped => absurd stopped Bool.false_ne_true,
      fun stopped => absurd stopped Bool.false_ne_true, fun _ => progress.quiet ?_ rfl⟩
    exact Nat.le_add_left rest _
  have stopped : ∀ {cursor : ScanCursor} {after : FixedWorld},
      cursor.pid = dispatch.cursor.pid → ended after.reads = true →
      Progress limit (proc.work after cursor + rest) after →
      Stopped proc limit rest dispatch.cursor.pid (true, { dispatch with cursor := cursor })
        after := by
    intro cursor after pid spent progress
    exact ⟨fun _ => progress.of_ended start spent, fun _ => pid, fun stopped => by cases stopped⟩
  have named : (loadName dispatch.cursor).wp (proc.machine (endsAfter ended)).withSpin
      (fun loaded after => proc.CursorFor after loaded ∧ loaded.pid = dispatch.cursor.pid ∧
        loaded.tidEnumerationComplete = true ∧
        loaded.processName = proc.processName dispatch.cursor.pid) world :=
    wp_loadName stands fun loaded after _ stands pid complete _ _ name =>
      ⟨stands, pid, complete.trans listed, name⟩
  rw [dispatchListed, Looping.ends_bind]
  refine Looping.ends_mono (ends_and_wp (ends_loadName listed progress) named)
    fun cursor world reached => ?_
  obtain ⟨progress, stands, pid, listed, name⟩ := reached
  split
  · exact finished progress
  next hasName =>
  rw [Looping.ends_bind, ends_exhausted]
  split
  · next spent => exact stopped pid spent progress
  have started : (loadStartTime cursor).wp (proc.machine (endsAfter ended)).withSpin
      (fun loaded after => proc.CursorFor after loaded ∧ loaded.pid = cursor.pid ∧
        loaded.tidEnumerationComplete = true ∧ loaded.processName = cursor.processName ∧
        loaded.processStartTime = proc.startOf cursor.pid) world :=
    wp_loadStartTime stands fun loaded after _ stands pid complete _ _ name start =>
      ⟨stands, pid, complete.trans listed, name, start⟩
  rw [Looping.ends_bind]
  refine Looping.ends_mono (ends_and_wp (ends_loadStartTime listed progress) started)
    fun next world reached => ?_
  obtain ⟨progress, stands, pidS, listed, nameS, startTime⟩ := reached
  split
  · exact finished progress
  next hasStart =>
  rw [Looping.ends_bind, ends_exhausted]
  split
  · next spent => exact stopped (pidS.trans pid) spent progress
  have loaded : (loadCmdline next).wp (proc.machine (endsAfter ended)).withSpin
      (fun loaded after => proc.CursorFor after loaded ∧ loaded.pid = next.pid ∧
        loaded.tidEnumerationComplete = true ∧ loaded.processName = next.processName ∧
        loaded.processStartTime = next.processStartTime ∧
        loaded.cmdline = proc.processCmdline next.pid) world :=
    wp_loadCmdline stands fun loaded after _ stands pid complete _ _ name start cmdline =>
      ⟨stands, pid, complete.trans listed, name, start, cmdline⟩
  rw [Looping.ends_bind]
  refine Looping.ends_mono (ends_and_wp (ends_loadCmdline listed progress) loaded)
    fun last world reached => ?_
  obtain ⟨progress, stands, pidC, listed, nameC, startC, cmdline⟩ := reached
  have same : last.pid = dispatch.cursor.pid := pidC.trans (pidS.trans pid)
  have ready : proc.Ready world last :=
    { stands := stands
      listed := listed
      name := by rw [nameC, nameS, name, same]
      startTime := by rw [startC, startTime, pid, same]
      cmdline := by rw [cmdline, pidC]
      named := by rw [nameC, nameS]; exact hasName
      started := by rw [startC]; exact hasStart }
  rw [← same]
  exact ends_dispatchTids start stays _ ⟨last, dispatch.processed⟩ ready
    (same ▸ member) rfl fits progress

/-- Standing at a process does not add to what is left to do. -/
theorem ends_standAt {cursor : ScanCursor} {pid : Int} {rest : Nat}
    (stands : proc.CursorFor world cursor)
    (progress : Progress limit (proc.workAt world cursor pid + rest) world) :
    (standAt cursor pid).Ends (proc.answer ended)
      (fun next after => proc.CursorFor after next ∧ next.pid = pid ∧
        Progress limit (proc.work after next + rest) after) world := by
  unfold standAt
  split
  · next other =>
    rw [ScanCursor.beginPid, Looping.ends_bind, ends_reset]
    refine ⟨cursorFor_fresh pid, rfl, progress.quiet ?_ rfl⟩
    have fresh : proc.work world { pid := pid } = 3 + (2 * proc.entries pid + 2) :=
      work_unlisted proc world rfl rfl
    rw [workAt, if_neg other, pidWork]
    change proc.work world { pid := pid } + rest ≤ _
    omega
  · next same =>
    rw [workAt, if_pos (not_not.mp same)] at progress
    exact ⟨stands, not_not.mp same, progress⟩

/-- A dispatch of one process makes progress. -/
theorem ends_dispatchPid {request : DispatchRequest} {fuel rest : Nat} {pid : Int}
    (start : ended 0 = false) (stays : StaysEnded ended) (enough : limit < fuel)
    {dispatch : DispatchState} (stands : proc.CursorFor world dispatch.cursor)
    (member : pid ∈ request.pids) (positive : 0 < pid)
    (fits : proc.Fits ended request.pids dispatch.processed)
    (progress : Progress limit (proc.workAt world dispatch.cursor pid + rest) world) :
    (dispatchPid request fuel pid dispatch).Ends (proc.answer ended)
      (Stopped proc limit rest pid) world := by
  rw [dispatchPid, Looping.ends_bind]
  refine Looping.ends_mono (ends_standAt stands progress) fun cursor world reached => ?_
  obtain ⟨stands, own, begun⟩ := reached
  subst own
  have passed : proc.Passed (endsAfter ended) cursor.tids.toFinset cursor :=
    fun tid taken _ => List.mem_toFinset.mpr (List.mem_of_mem_take taken)
  have account := wp_enumerateTids fuel stands passed positive
  rw [Looping.ends_bind]
  refine Looping.ends_mono (ends_and_wp (ends_enumerateTids start stands positive enough begun)
    account) fun found world reached => ?_
  obtain ⟨complete, next⟩ := found
  obtain ⟨⟨progress, less⟩, ⟨stands, pid, -⟩, -, listed⟩ := reached
  dsimp only
  cases complete with
  | false =>
    rw [if_pos rfl]
    exact ⟨fun _ => less rfl, fun _ => pid, fun stopped => by cases stopped⟩
  | true =>
    rw [if_neg (by decide), Looping.ends_bind, ends_exhausted]
    split
    · next spent =>
      exact ⟨fun _ => progress.of_ended start spent, fun _ => pid, fun stopped => by cases stopped⟩
    have same : next.pid = cursor.pid := pid
    rw [← same]
    exact ends_dispatchListed start stays ⟨next, dispatch.processed⟩ stands
      (listed rfl) (same ▸ member) fits progress

/-! ## Many processes -/

/-- A cursor at no process leaves the work of every process as it is. -/
theorem workLeft_fresh (pids : List Int) (positive : ∀ pid ∈ pids, 0 < pid) :
    proc.workLeft world {} pids = proc.pidsWork pids := by
  cases pids with
  | nil => rfl
  | cons pid rest =>
    have other : ({} : ScanCursor).pid ≠ pid := by
      intro same
      have zero : (0 : Int) = pid := same
      have := positive pid List.mem_cons_self
      omega
    rw [workLeft, workAt, if_neg other, pidsWork]

/-- Nothing need be kept by the handover of threads. -/
theorem accounts_trivial (rule : ExhaustionRule) (request : DispatchRequest) :
    proc.Accounts rule request fun _ _ => True :=
  ⟨fun _ _ => trivial, fun _ _ _ _ _ _ => trivial⟩

/-- Dispatching processes one after the other makes progress. A dispatch that stops stands at one
of them. -/
theorem ends_dispatchPids {request : DispatchRequest} {fuel : Nat}
    (start : ended 0 = false) (stays : StaysEnded ended) (enough : limit < fuel)
    (positive : ∀ pid ∈ request.pids, 0 < pid) (pids : List Int)
    (dispatch : DispatchState) (stands : proc.CursorFor world dispatch.cursor)
    (passed : proc.Passed (endsAfter ended) dispatch.processed dispatch.cursor)
    (members : ∀ pid ∈ pids, pid ∈ request.pids)
    (fits : proc.Fits ended request.pids dispatch.processed)
    (progress : Progress limit (proc.workLeft world dispatch.cursor pids) world) :
    (dispatchPids request fuel pids dispatch).Ends (proc.answer ended)
      (fun found after => found.1 = true → ∃ before rest,
        pids = before ++ found.2.cursor.pid :: rest ∧
        proc.work after found.2.cursor + proc.pidsWork rest < limit) world := by
  induction pids generalizing dispatch world with
  | nil => exact fun stopped => absurd stopped Bool.false_ne_true
  | cons pid pids ih =>
    have member := members pid List.mem_cons_self
    have account := wp_dispatchPid (accounts_trivial (endsAfter ended) request) fuel stands member
      (positive pid member) passed trivial
    rw [dispatchPids, Looping.ends_bind]
    refine Looping.ends_mono (ends_and_wp (ends_dispatchPid start stays enough stands member
      (positive pid member) fits progress) account) fun found world reached => ?_
    obtain ⟨stopped, next⟩ := found
    obtain ⟨⟨less, own, rest⟩, advanced, -⟩ := reached
    dsimp only
    cases stopped with
    | true =>
      rw [if_pos rfl]
      refine fun _ => ⟨[], pids, ?_, less rfl⟩
      rw [List.nil_append, own rfl]
    | false =>
      rw [if_neg Bool.false_ne_true, Looping.ends_bind, ends_reset]
      have members' : ∀ other ∈ pids, other ∈ request.pids :=
        fun other listed => members other (List.mem_cons_of_mem _ listed)
      have progress := rest rfl
      rw [← workLeft_fresh pids fun other listed => positive other (members' other listed)]
        at progress
      refine Looping.ends_mono (ih ⟨{}, next.processed⟩ (cursorFor_fresh 0)
        (passed_of_start rfl) members' (fits.mono advanced.grows) progress)
        fun found after reached stopped => ?_
      obtain ⟨before, rest, split, less⟩ := reached stopped
      exact ⟨pid :: before, rest, by rw [split, List.cons_append], less⟩

/-- What is left to do for a dispatch. -/
def dispatchLeft (proc : ProcContent) (request : DispatchRequest) (world : FixedWorld)
    (cursor : ScanCursor) : Nat :=
  proc.workLeft world cursor (remainingPids request.pids cursor)

/-- A fresh cursor stands before all processes, in increasing order. -/
theorem remainingPids_fresh (pids : Finset Int) :
    (remainingPids pids {}).Pairwise (· < ·) ∧ ∀ pid, pid ∈ remainingPids pids {} ↔ pid ∈ pids := by
  rw [remainingPids, if_neg (by decide)]
  exact ⟨pids.sortedLT_sort.pairwise, fun pid => Finset.mem_sort _⟩

/-- The processes from one of them on. -/
theorem remainingPids_split {pids : Finset Int} {cursor : ScanCursor} {before rest : List Int}
    (positive : 0 < cursor.pid) (split : remainingPids pids {} = before ++ cursor.pid :: rest) :
    remainingPids pids cursor = cursor.pid :: rest := by
  have sorted := (remainingPids_fresh pids).1
  rw [split] at sorted
  obtain ⟨-, later, apart⟩ := List.pairwise_append.mp sorted
  rw [remainingPids, if_neg (by decide)] at split
  rw [remainingPids, if_pos positive, split, List.filter_append, List.filter_cons_of_pos (by simp)]
  have none : before.filter (cursor.pid ≤ ·) = [] := by
    rw [List.filter_eq_nil_iff]
    intro other listed
    have := apart other listed cursor.pid List.mem_cons_self
    simp only [decide_eq_true_eq]
    omega
  have all : rest.filter (cursor.pid ≤ ·) = rest := by
    rw [List.filter_eq_self]
    intro other listed
    have := (List.pairwise_cons.mp later).1 other listed
    exact decide_eq_true (by omega)
  rw [none, all, List.nil_append]

/-- A call of a dispatch with a fresh budget ends with less to do, or with nothing. -/
theorem ends_dispatchPidsToWorkers {request : DispatchRequest} {fuel : Nat}
    (start : ended 0 = false) (stays : StaysEnded ended)
    (positive : ∀ pid ∈ request.pids, 0 < pid) {dispatch : DispatchState}
    (standing : Standing proc (endsAfter ended) request world dispatch)
    (fits : proc.Fits ended request.pids dispatch.processed) (fresh : world.reads = 0)
    (enough : dispatchLeft proc request world dispatch.cursor < fuel) :
    (dispatchPidsToWorkers request fuel dispatch).Ends (proc.answer ended)
      (fun found after => found.1 = true → dispatchLeft proc request after found.2.cursor <
        dispatchLeft proc request world dispatch.cursor) world := by
  have whole := (remainingPids_fresh request.pids).2
  obtain ⟨earlier, suffix⟩ : ∃ earlier, remainingPids request.pids {} =
      earlier ++ remainingPids request.pids dispatch.cursor := by
    rcases standing.member with none | member
    · refine ⟨[], ?_⟩
      rw [remainingPids, remainingPids, if_neg (by decide), if_neg (by omega), List.nil_append]
    · obtain ⟨earlier, rest, split⟩ := List.append_of_mem ((whole _).mpr member)
      exact ⟨earlier, by rw [remainingPids_split (positive _ member) split, split]⟩
  have members : ∀ pid ∈ remainingPids request.pids dispatch.cursor, pid ∈ request.pids := by
    intro pid listed
    refine (whole pid).mp ?_
    rw [suffix]
    exact List.mem_append_right _ listed
  rw [dispatchPidsToWorkers]
  split
  · rw [Looping.ends_bind, ends_reset]
    exact fun stopped => absurd stopped Bool.false_ne_true
  split
  · rw [Looping.ends_bind, ends_reset]
    exact fun stopped => absurd stopped Bool.false_ne_true
  · next pid rest left =>
    have stay : leaveGone dispatch.cursor pid = pure dispatch.cursor := by
      refine if_neg fun gone => gone.2 ?_
      rcases standing.member with none | member
      · omega
      · obtain ⟨earlier, after, split⟩ := List.append_of_mem ((whole _).mpr member)
        rw [remainingPids_split gone.1 split] at left
        exact (List.cons.inj left).1.symm
    rw [stay, pure_bind]
    have limit : dispatchLeft proc request world dispatch.cursor =
        proc.workLeft world dispatch.cursor (pid :: rest) := by rw [dispatchLeft, left]
    rw [left] at members suffix
    have progress : Progress (dispatchLeft proc request world dispatch.cursor)
        (proc.workLeft world dispatch.cursor (pid :: rest)) world :=
      ⟨limit.ge, fun read => by omega⟩
    refine Looping.ends_mono (ends_dispatchPids start stays enough positive (pid :: rest)
      dispatch standing.stands standing.passed members fits progress)
      fun found after reached stopped => ?_
    obtain ⟨before, later, split, less⟩ := reached stopped
    have here : 0 < found.2.cursor.pid := by
      refine positive _ (members _ ?_)
      rw [split]
      exact List.mem_append_right _ List.mem_cons_self
    rw [split, ← List.append_assoc] at suffix
    rw [dispatchLeft, remainingPids_split here suffix, workLeft, workAt, if_pos rfl]
    exact less

end ProcContent

/-! ## Repeated calls -/

/-- Calls, each with the cursor and the dispatched threads of the one before, come to an end. -/
inductive Finishes {σ : Type}
    (call : DispatchState → σ → Option ((Bool × DispatchState) × σ)) : DispatchState → σ → Prop
  /-- A call reports that nothing remains. -/
  | done {dispatch next : DispatchState} {world after : σ}
      (called : call dispatch world = some ((false, next), after)) : Finishes call dispatch world
  /-- A call reports that something remains, and later calls come to an end. -/
  | again {dispatch next : DispatchState} {world after : σ}
      (called : call dispatch world = some ((true, next), after))
      (later : Finishes call next after) : Finishes call dispatch world

namespace Finishes

variable {σ τ : Type} {call : DispatchState → σ → Option ((Bool × DispatchState) × σ)}
  {callSeen : DispatchState → τ → Option ((Bool × DispatchState) × τ)} {seen : σ → τ}

/-- Calls that only see a part of the state come to an end when the calls do. -/
theorem map_iff (same : ∀ dispatch world,
      (call dispatch world).map (Prod.map id seen) = callSeen dispatch (seen world))
    {dispatch : DispatchState} {world : σ} :
    Finishes call dispatch world ↔ Finishes callSeen dispatch (seen world) := by
  constructor
  · intro finishes
    induction finishes with
    | done called => exact .done (by rw [← same, called]; rfl)
    | again called later ih => exact .again (by rw [← same, called]; rfl) ih
  · intro finishes
    generalize state : seen world = part at finishes
    induction finishes generalizing world with
    | done called =>
      rw [← state, ← same, Option.map_eq_some_iff] at called
      obtain ⟨⟨found, after⟩, called, eq⟩ := called
      obtain ⟨rfl, -⟩ := Prod.mk.inj eq
      exact .done called
    | again called later ih =>
      rw [← state, ← same, Option.map_eq_some_iff] at called
      obtain ⟨⟨found, after⟩, called, eq⟩ := called
      obtain ⟨rfl, rfl⟩ := Prod.mk.inj eq
      exact .again called (ih rfl)

end Finishes

namespace ProcContent

/-- A fresh budget. -/
def renew (world : FixedWorld) : FixedWorld := { world with reads := 0 }

/-- One call with a fresh budget. -/
def call (proc : ProcContent) (ended : Nat → Bool) (request : DispatchRequest) (fuel : Nat)
    (dispatch : DispatchState) (world : FixedWorld) :
    Option ((Bool × DispatchState) × FixedWorld) :=
  (dispatchPidsToWorkers request fuel dispatch).exec
    (Looping.respondWithSpin (proc.answer ended)) (renew world)

variable {proc : ProcContent} {ended : Nat → Bool} {request : DispatchRequest} {fuel : Nat}
  {dispatch next : DispatchState} {world after : FixedWorld} {answer : Bool}

/-- What holds of every run of a dispatch holds of a call. -/
theorem post_of_call {post : Bool × DispatchState → FixedWorld → Prop}
    (called : proc.call ended request fuel dispatch world = some ((answer, next), after))
    (holds : (dispatchPidsToWorkers request fuel dispatch).wp
      (proc.machine (endsAfter ended)).withSpin post (renew world)) : post (answer, next) after :=
  Looping.post_of_exec
    (fun answered => @step_of_answer proc (endsAfter ended) ended (fun _ => rfl) _ _ _ _ answered)
    called holds

/-- A fresh budget does not move the cursor. -/
theorem Standing.renew {rule : ExhaustionRule} (standing : Standing proc rule request world dispatch) :
    Standing proc rule request (renew world) dispatch :=
  { standing with stands := standing.stands.congr_streams rfl }

/-- Calls whose budget leaves time for every thread come to an end: each that does not report the
end leaves less to do. -/
theorem finishes_of_fits (start : ended 0 = false) (stays : StaysEnded ended)
    (positive : ∀ pid ∈ request.pids, 0 < pid) (workers : request.workers ≠ 0)
    (standing : Standing proc (endsAfter ended) request world dispatch)
    (fits : proc.Fits ended request.pids dispatch.processed)
    (enough : dispatchLeft proc request world dispatch.cursor < fuel) :
    Finishes (proc.call ended request fuel) dispatch world := by
  induction left : dispatchLeft proc request world dispatch.cursor using Nat.strong_induction_on
    generalizing dispatch world with
  | _ left' ih =>
    have same : dispatchLeft proc request (renew world) dispatch.cursor =
        dispatchLeft proc request world dispatch.cursor := rfl
    have ends := ends_dispatchPidsToWorkers start stays positive standing.renew fits rfl
      (same.trans_lt enough)
    have account := wp_dispatchPidsToWorkers (accounts_trivial (endsAfter ended) request) fuel
      positive workers standing.renew trivial
    obtain ⟨⟨stopped, next⟩, after, called, less, -, grows, stands, -⟩ :=
      Program.ends_iff_exec.mp (ends_and_wp ends account)
    cases stopped with
    | false => exact .done called
    | true =>
      have fewer := less rfl
      rw [same, left] at fewer
      exact .again called
        (ih _ fewer (stands rfl) (fits.mono grows) ((less rfl).trans (same.trans_lt enough)) rfl)

/-- Calls whose budget does not leave time for some thread never come to an end. -/
theorem fits_of_finishes (stays : StaysEnded ended) (positive : ∀ pid ∈ request.pids, 0 < pid)
    (workers : request.workers ≠ 0)
    (standing : Standing proc (endsAfter ended) request world dispatch)
    (finishes : Finishes (proc.call ended request fuel) dispatch world) :
    proc.Fits ended request.pids dispatch.processed := by
  intro pid member tid readable fresh
  by_contra spent
  have spent : ended (proc.readsToDecide pid tid) = true := by simpa using spent
  have three : ended 3 = true := by
    refine stays _ _ ?_ spent
    rw [readsToDecide]
    split <;> omega
  have owed : proc.Owed (endsAfter ended) pid tid :=
    { listed := readable.listed
      processNamed := readable.processNamed
      processStarted := readable.processStarted
      threadNamed := readable.threadNamed
      started := fun none reads going => by
        rw [readsToDecide, if_pos none] at spent
        have going : false = ended (reads + 1) := going
        rw [stays 1 _ (by omega) spent] at going
        cases going }
  have accounts : proc.Accounts (endsAfter ended) request
      fun processed _ => processed = dispatch.processed := by
    refine ⟨fun same _ => same, fun _ _ _ _ passable _ => ?_⟩
    obtain ⟨reads, going⟩ := passable
    have going : false = ended (reads + 3) := going
    rw [stays 3 _ (by omega) three] at going
    cases going
  generalize known : dispatch.processed = processed at fresh accounts
  induction finishes with
  | done called =>
    have reached := post_of_call called
      (wp_dispatchPidsToWorkers accounts fuel positive workers standing.renew known)
    obtain ⟨same, -, -, done⟩ := reached
    have taken := done rfl pid member tid owed
    rw [same] at taken
    exact fresh taken
  | again called later ih =>
    have reached := post_of_call called
      (wp_dispatchPidsToWorkers accounts fuel positive workers standing.renew known)
    exact ih (reached.2.2.1 rfl) reached.1

end ProcContent

/-! ## The clock -/

/-- A fixed `/proc` and the steady clock. -/
structure ClockedWorld where
  /-- What changes while `/proc` does not. -/
  fixed : FixedWorld := {}
  /-- The time, in microseconds. -/
  now : Int := 0
  /-- The budget of the current call. -/
  budget : ScanBudget

namespace ClockedWorld

/-- The answers when only the pauses of the budget let time pass. -/
def answer (proc : ProcContent) :
    ClockedWorld → (operation : DispatchOp) → Option (DispatchSig.Res operation × ClockedWorld)
  | world, .exhausted => some (world.budget.exhausted world.now, world)
  | world, .afterThreadRead =>
    some ((), ⟨world.fixed.tick, world.now + world.budget.afterThreadRead.1,
      world.budget.afterThreadRead.2⟩)
  | world, operation =>
    (proc.answer (fun _ => false) world.fixed operation).map
      (Prod.map id fun after => { world with fixed := after })

end ClockedWorld

namespace SchedConfig

variable (sched : SchedConfig)

/-- The budget of a full scan, or of the high-speed path. -/
def budgetUs (fullScan : Bool) : Int :=
  if fullScan then sched.fullScanBudgetUs else sched.topScanBudgetUs

/-- A budget that begins now. -/
def beginBudget (fullScan : Bool) (now : Int) : ScanBudget :=
  .create now (sched.budgetUs fullScan) sched.scanBatchSize sched.scanBatchYieldUs

/-- The pauses of a call's first reads. -/
def pauses (reads : Nat) : Int := (reads / sched.scanBatchSize.toNat : Nat) * sched.scanBatchYieldUs

/-- The number of reads after which a budget has ended. -/
def budgetEnds (fullScan : Bool) (reads : Nat) : Bool :=
  decide (sched.budgetUs fullScan ≤ sched.pauses reads)

/-- One call of a dispatch with a fresh budget. -/
def budgetedCall (fullScan : Bool) (proc : ProcContent) (request : DispatchRequest) (fuel : Nat)
    (dispatch : DispatchState) (world : ClockedWorld) :
    Option ((Bool × DispatchState) × ClockedWorld) :=
  (dispatchPidsToWorkers request fuel dispatch).exec
    (Looping.respondWithSpin (ClockedWorld.answer proc))
    ⟨ProcContent.renew world.fixed, world.now, sched.beginBudget fullScan world.now⟩

/-- The pauses of a call's first reads leave time for every thread: for the three reads of a
thread with a start time, and for the first of a thread without one. -/
def LeavesTime (fullScan : Bool) (proc : ProcContent) (pids processed : Finset Int) : Prop :=
  ∀ pid ∈ pids, ∀ tid, proc.Readable pid tid → tid ∉ processed →
    sched.pauses (proc.readsToDecide pid tid) < sched.budgetUs fullScan

/-- The clock shows the pauses since the budget began. -/
structure Clocked (fullScan : Bool) (world : ClockedWorld) : Prop where
  /-- The reads counted. -/
  reads : world.budget.threadReads = world.fixed.reads
  /-- The reads between two pauses. -/
  batchSize : world.budget.batchSize = sched.scanBatchSize
  /-- The length of a pause. -/
  batchYieldUs : world.budget.batchYieldUs = sched.scanBatchYieldUs
  /-- The time left. -/
  left : world.budget.deadline - world.now =
    sched.budgetUs fullScan - sched.pauses world.fixed.reads

variable {sched} {fullScan : Bool} {world : ClockedWorld}

/-- One more read adds a pause after every batch. -/
theorem pauses_succ (reads : Nat) : sched.pauses (reads + 1) = sched.pauses reads +
    if (reads + 1) % sched.scanBatchSize.toNat = 0 then sched.scanBatchYieldUs else 0 := by
  rw [pauses, pauses, Nat.succ_div]
  by_cases whole : sched.scanBatchSize.toNat ∣ reads + 1
  · rw [if_pos whole, if_pos (Nat.mod_eq_zero_of_dvd whole), Int.natCast_add, Int.natCast_one,
      Int.add_mul, Int.one_mul]
  · rw [if_neg whole, if_neg fun none => whole (Nat.dvd_of_mod_eq_zero none),
      Nat.add_zero, Int.add_zero]

/-- A fresh budget has all its time. -/
theorem clocked_begin (budgeted : ConfigParser.Budgeted sched) (fixed : FixedWorld) (now : Int) :
    sched.Clocked fullScan ⟨ProcContent.renew fixed, now, sched.beginBudget fullScan now⟩ where
  reads := rfl
  batchSize := max_eq_left budgeted.batchSize
  batchYieldUs := max_eq_left budgeted.batchYieldUs
  left := by
    have none : sched.pauses 0 = 0 := by
      rw [pauses, Nat.zero_div, Int.natCast_zero, Int.zero_mul]
    change now + sched.budgetUs fullScan - now = sched.budgetUs fullScan - sched.pauses 0
    omega

/-- Counting a read lets the pause pass. -/
theorem Clocked.tick (budgeted : ConfigParser.Budgeted sched)
    (clocked : sched.Clocked fullScan world) :
    sched.Clocked fullScan ⟨world.fixed.tick, world.now + world.budget.afterThreadRead.1,
      world.budget.afterThreadRead.2⟩ where
  reads := congrArg (· + 1) clocked.reads
  batchSize := clocked.batchSize
  batchYieldUs := clocked.batchYieldUs
  left := by
    have pause : world.budget.afterThreadRead.1 =
        if (world.fixed.reads + 1) % sched.scanBatchSize.toNat = 0
          then sched.scanBatchYieldUs else 0 := by
      have yield := budgeted.batchYieldUs
      simp only [ScanBudget.afterThreadRead, clocked.reads, clocked.batchSize,
        clocked.batchYieldUs]
      split <;> split <;> omega
    have left := clocked.left
    have more : sched.pauses (world.fixed.reads + 1) = _ := pauses_succ world.fixed.reads
    change world.budget.deadline - (world.now + world.budget.afterThreadRead.1) =
      sched.budgetUs fullScan - sched.pauses (world.fixed.reads + 1)
    rw [pause, more]
    omega

/-- Only counting a read counts one. -/
theorem reads_of_answer {proc : ProcContent} {ended : Nat → Bool} {world after : FixedWorld}
    {operation : DispatchOp} {response : DispatchSig.Res operation}
    (other : operation ≠ .afterThreadRead)
    (answered : proc.answer ended world operation = some (response, after)) :
    after.reads = world.reads := by
  cases operation with
  | afterThreadRead => exact absurd rfl other
  | openTask pid =>
    rw [ProcContent.answer] at answered
    split at answered <;> cases answered <;> rfl
  | readDir handle =>
    rw [ProcContent.answer] at answered
    split at answered <;> cases answered <;> rfl
  | _ =>
    cases answered
    rfl

/-- The clock decides when the budget ends as the number of reads does. -/
theorem Clocked.answer_map (proc : ProcContent) (clocked : sched.Clocked fullScan world)
    (operation : DispatchOp) :
    (ClockedWorld.answer proc world operation).map (Prod.map id ClockedWorld.fixed) =
      proc.answer (sched.budgetEnds fullScan) world.fixed operation := by
  cases operation with
  | exhausted =>
    have same : world.budget.exhausted world.now =
        sched.budgetEnds fullScan world.fixed.reads := by
      have left := clocked.left
      rw [ScanBudget.exhausted, budgetEnds, decide_eq_decide]
      omega
    simp only [ClockedWorld.answer, ProcContent.answer, same]
    rfl
  | afterThreadRead => rfl
  | openTask pid =>
    change ((proc.answer (fun _ => false) world.fixed (.openTask pid)).map _).map _ = _
    rw [Option.map_map]
    exact Option.map_id'
  | readDir handle =>
    change ((proc.answer (fun _ => false) world.fixed (.readDir handle)).map _).map _ = _
    rw [Option.map_map]
    exact Option.map_id'
  | _ => rfl

/-- The clock shows the pauses after every operation. -/
theorem Clocked.keeps {proc : ProcContent} (budgeted : ConfigParser.Budgeted sched)
    (clocked : sched.Clocked fullScan world) {operation : DispatchOp}
    {response : DispatchSig.Res operation} {after : ClockedWorld}
    (answered : ClockedWorld.answer proc world operation = some (response, after)) :
    sched.Clocked fullScan after := by
  have other : operation ≠ .exhausted → operation ≠ .afterThreadRead →
      (proc.answer (fun _ => false) world.fixed operation).map
        (Prod.map id fun fixed => { world with fixed := fixed }) = some (response, after) →
      sched.Clocked fullScan after := by
    intro _ unread moved
    obtain ⟨⟨result, fixed⟩, seen, eq⟩ := Option.map_eq_some_iff.mp moved
    obtain ⟨-, rfl⟩ := Prod.mk.inj eq
    have reads : fixed.reads = world.fixed.reads := reads_of_answer unread seen
    refine ⟨clocked.reads.trans reads.symm, clocked.batchSize, clocked.batchYieldUs, ?_⟩
    dsimp only
    rw [reads]
    exact clocked.left
  cases operation with
  | exhausted =>
    cases answered
    exact clocked
  | afterThreadRead =>
    cases answered
    exact clocked.tick budgeted
  | _ => exact other (by simp) (by simp) answered

/-- A call whose budget the clock ends is the call whose budget ends after a number of reads. -/
theorem budgetedCall_map (budgeted : ConfigParser.Budgeted sched) (proc : ProcContent)
    (request : DispatchRequest) (fuel : Nat) (dispatch : DispatchState) (world : ClockedWorld) :
    (sched.budgetedCall fullScan proc request fuel dispatch world).map
        (Prod.map id ClockedWorld.fixed) =
      proc.call (sched.budgetEnds fullScan) request fuel dispatch world.fixed := by
  have begun : sched.Clocked fullScan _ := clocked_begin budgeted world.fixed world.now
  refine Program.exec_map ?_ ?_ _ begun
  · intro state operation clocked
    cases operation with
    | none => rfl
    | some operation => exact clocked.answer_map proc operation
  · intro state operation response after clocked answered
    cases operation with
    | none => exact response.elim
    | some operation => exact clocked.keeps budgeted answered

/-- A budget of an accepted configuration has not ended at its beginning. -/
theorem budgetEnds_zero (budgeted : ConfigParser.Budgeted sched) :
    sched.budgetEnds fullScan 0 = false := by
  have top := budgeted.top
  have full := budgeted.full
  rw [budgetEnds, pauses, Nat.zero_div, Int.natCast_zero, Int.zero_mul, decide_eq_false_iff_not,
    budgetUs]
  split <;> omega

/-- A budget of an accepted configuration stays ended. -/
theorem budgetEnds_stays (budgeted : ConfigParser.Budgeted sched) :
    ProcContent.StaysEnded (sched.budgetEnds fullScan) := by
  intro earlier later order spent
  rw [budgetEnds, decide_eq_true_eq] at spent ⊢
  refine spent.trans ?_
  rw [pauses, pauses]
  refine Int.mul_le_mul_of_nonneg_right ?_ budgeted.batchYieldUs
  exact Int.ofNat_le.mpr (Nat.div_le_div_right order)

/-- Repeated calls come to an end exactly when the pauses leave time for every thread. -/
theorem finishes_iff_leavesTime (budgeted : ConfigParser.Budgeted sched) (fullScan : Bool)
    (proc : ProcContent) (request : DispatchRequest) (workers : request.workers ≠ 0)
    (positive : ∀ pid ∈ request.pids, 0 < pid) (fuel : Nat)
    (enough : proc.pidsWork (remainingPids request.pids {}) < fuel) (processed : Finset Int)
    (world : ClockedWorld) :
    Finishes (sched.budgetedCall fullScan proc request fuel) ⟨{}, processed⟩ world ↔
      sched.LeavesTime fullScan proc request.pids processed := by
  have stays : ProcContent.StaysEnded (sched.budgetEnds fullScan) := budgetEnds_stays budgeted
  have leaves : sched.LeavesTime fullScan proc request.pids processed ↔
      proc.Fits (sched.budgetEnds fullScan) request.pids processed := by
    simp only [LeavesTime, ProcContent.Fits, budgetEnds, decide_eq_false_iff_not, Int.not_le]
  have standing : ProcContent.Standing proc
      (ProcContent.endsAfter (sched.budgetEnds fullScan)) request world.fixed
      ⟨{}, processed⟩ := ProcContent.standing_fresh positive processed
  rw [Finishes.map_iff (budgetedCall_map budgeted proc request fuel), leaves]
  constructor
  · exact fun finishes => ProcContent.fits_of_finishes stays positive workers standing finishes
  · intro fits
    refine ProcContent.finishes_of_fits (budgetEnds_zero budgeted) stays positive workers standing
      fits ?_
    rw [ProcContent.dispatchLeft, ProcContent.workLeft_fresh]
    · exact enough
    · exact fun pid listed =>
        positive pid (((ProcContent.remainingPids_fresh request.pids).2 pid).mp listed)

/-- For every accepted configuration, every set of processes and every contents of `/proc`,
repeated calls of a dispatch, each with a fresh budget, come to an end exactly when the pauses of a
call's first reads leave time for every thread. -/
theorem finishes_iff (document : Json) (config : Config)
    (accepted : ConfigParser.parse document = some config) (fullScan : Bool) (proc : ProcContent)
    (request : DispatchRequest) (workers : request.workers ≠ 0)
    (positive : ∀ pid ∈ request.pids, 0 < pid) (fuel : Nat)
    (enough : proc.pidsWork (remainingPids request.pids {}) < fuel) (processed : Finset Int)
    (world : ClockedWorld) :
    Finishes (config.sched.budgetedCall fullScan proc request fuel) ⟨{}, processed⟩ world ↔
      config.sched.LeavesTime fullScan proc request.pids processed :=
  finishes_iff_leavesTime (ConfigParser.parse_budgeted accepted) fullScan proc request workers
    positive fuel enough processed world

/-- A document whose budget for the high-speed path is as long as half a pause. -/
def pausingDocument : Json :=
  let object (members : List (String × Json)) : Json :=
    .object (members.map fun member => (Bytes.ascii member.1, member.2))
  object [("modules", object [("sched", object
    [("scan_batch_size", .int 1), ("scan_batch_yield_us", .int 1000),
      ("top_scan_budget_us", .int 500)])])]

/-- Its configuration. -/
def pausingConfig : Config := (ConfigParser.parse pausingDocument).getD {}

/-- The dispatch of the process with one thread. -/
def lonelyRequest : DispatchRequest := ⟨⟨fun _ => 0, fun _ => 0⟩, 4, {7}, .top, kCpusetBase⟩

/-- The processes of that dispatch are numbered from one. -/
theorem lonelyRequest_positive : ∀ pid ∈ lonelyRequest.pids, 0 < pid := by
  intro pid member
  rw [Finset.mem_singleton.mp member]
  decide

/-- The budget of a full scan leaves time for the thread. -/
theorem finishes_iff_lonely : Finishes
    (pausingConfig.sched.budgetedCall true ProcContent.lonely lonelyRequest 9) ⟨{}, ∅⟩
    { budget := pausingConfig.sched.beginBudget true 0 } := by
  refine (finishes_iff pausingDocument pausingConfig rfl true ProcContent.lonely lonelyRequest
    (by decide) lonelyRequest_positive 9 (by decide +kernel) ∅ _).mpr ?_
  intro pid member tid readable fresh
  rw [ProcContent.readsToDecide]
  split <;> decide +kernel

/-- The budget of the high-speed path ends at every read of the thread. -/
theorem finishes_fails :
    ¬ ∀ (document : Json) (config : Config), ConfigParser.parse document = some config →
      ∀ (fullScan : Bool) (proc : ProcContent) (request : DispatchRequest), request.workers ≠ 0 →
      (∀ pid ∈ request.pids, 0 < pid) → ∀ fuel : Nat,
      proc.pidsWork (remainingPids request.pids {}) < fuel →
      ∀ (processed : Finset Int) (world : ClockedWorld),
      Finishes (config.sched.budgetedCall fullScan proc request fuel) ⟨{}, processed⟩ world := by
  intro claim
  have finishes := claim pausingDocument pausingConfig rfl false ProcContent.lonely lonelyRequest
    (by decide) lonelyRequest_positive 9 (by decide +kernel) ∅
    { budget := pausingConfig.sched.beginBudget false 0 }
  have accepted : ConfigParser.parse pausingDocument = some pausingConfig := rfl
  have leaves := (finishes_iff_leavesTime (ConfigParser.parse_budgeted accepted) false
    ProcContent.lonely lonelyRequest (by decide) lonelyRequest_positive 9 (by decide +kernel) ∅
    _).mp finishes
  have readable : ProcContent.lonely.Readable 7 7 :=
    ⟨by decide, by decide, by decide, by decide⟩
  have less := leaves 7 (Finset.mem_singleton_self 7) 7 readable (Finset.notMem_empty 7)
  revert less
  decide +kernel

end SchedConfig

end ReUperf
