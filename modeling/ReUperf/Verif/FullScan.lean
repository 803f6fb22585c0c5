import ReUperf.Main.FullScan
import ReUperf.Verif.FixedProc

/-!
# Full scans of a fixed `/proc`

A full scan may be cut wherever its budget ends and go on in a later call. The module proves that
on a `/proc` that does not change the cuts do not matter: when a call reports that the scan is
finished, its state is the one that a single call without a limit on its budget leaves, however
the directories were read and however often `/proc` had to be opened.
-/

namespace ReUperf

open Effect FileUtils Main

/-- What a full scan reads, and the results of matching. -/
structure ScanContent extends ProcContent where
  /-- The entries of `/proc`. -/
  entries : List Bytes
  /-- What the groups of a process tell. -/
  cgroup : Int → CgroupStateInfo
  /-- `match_process_only`. -/
  matchProcess : Int → Bytes → ProcessState → Bytes → MatchResult

namespace ScanContent

variable (content : ScanContent)

/-- The processes of `/proc`. -/
def pidList : List Int := sortUnique (content.entries.filterMap parseId)

/-- The threads of a process. -/
def tidList (pid : Int) : List Int := sortUnique (content.threads pid)

end ScanContent

/-! ## The machine -/

/-- A directory a scan reads. -/
inductive ScanDir
  /-- `/proc`. -/
  | proc
  /-- The task directory of the current process. -/
  | task
  deriving DecidableEq

/-- What changes while `/proc` does not. -/
structure ScanWorld where
  /-- What remains to be read of a directory. -/
  left : ScanDir → List Bytes := fun _ => []
  /-- The thread cache. -/
  cache : ThreadCache := ∅

/-- Leave these entries to be read of a directory. -/
def ScanWorld.setLeft (world : ScanWorld) (dir : ScanDir) (names : List Bytes) : ScanWorld :=
  { world with left := Function.update world.left dir names }

@[simp] theorem ScanWorld.setLeft_self (world : ScanWorld) (dir : ScanDir) (names : List Bytes) :
    (world.setLeft dir names).left dir = names := Function.update_self ..

@[simp] theorem ScanWorld.setLeft_cache (world : ScanWorld) (dir : ScanDir) (names : List Bytes) :
    (world.setLeft dir names).cache = world.cache := rfl

namespace ScanContent

variable (content : ScanContent)

/-- Read one entry. A read of `/proc` may fail. -/
def ReadEntry (dir : ScanDir) (world : ScanWorld) (response : DirEntry) (after : ScanWorld) : Prop :=
  (dir = .proc ∧ response = .failed ∧ after = world) ∨
    match world.left dir with
    | [] => response = .finished ∧ after = world
    | name :: rest => response = .name name ∧ after = world.setLeft dir rest

/-- One operation of a full scan on a fixed `/proc`. The budget may end at any time, `/proc` may
fail to open, and a directory lists its entries in any order. -/
def Step : ScanWorld → (operation : SysOp) → SysSig.Res operation → ScanWorld → Prop
  | world, .openProc, response, after =>
    (response = false ∧ after = world) ∨
      (response = true ∧ ∃ order, order.Perm content.entries ∧ after = world.setLeft .proc order)
  | world, .readProc, response, after => ReadEntry .proc world response after
  | world, .openTask pid, response, after =>
    match content.tasks pid with
    | none => response = false ∧ after = world
    | some names => response = true ∧ ∃ order, order.Perm names ∧ after = world.setLeft .task order
  | world, .readTask _, response, after => ReadEntry .task world response after
  | world, .processStartTime _ pid, response, after =>
    response = content.processStartTime pid ∧ after = world
  | world, .threadStartTime _ pid tid, response, after =>
    response = content.threadStartTime pid tid ∧ after = world
  | world, .processName pid, response, after => response = content.processName pid ∧ after = world
  | world, .processCmdline pid, response, after =>
    response = content.processCmdline pid ∧ after = world
  | world, .cgroupStateInfo pid, response, after => response = content.cgroup pid ∧ after = world
  | world, .matchProcess pid procName state cmdline, response, after =>
    response = content.matchProcess pid procName state cmdline ∧ after = world
  | world, .cache call, response, after =>
    call.Step world.cache response after.cache ∧ after = { world with cache := after.cache }
  | world, _, _, after => after = world

/-- The machine of a full scan on a fixed `/proc`. -/
def machine : Machine SysSig ScanWorld where
  step := content.Step

/-- The answers of a machine on which the budget never ends and directories list their entries in
the given order. -/
def answer (listing : List Bytes) (taskListing : Int → List Bytes) :
    ScanWorld → (operation : SysOp) → Option (SysSig.Res operation × ScanWorld)
  | world, .budgetExhausted => some (false, world)
  | world, .afterThreadRead => some ((), world)
  | world, .openProc => some (true, world.setLeft .proc listing)
  | world, .readProc => some <|
    match world.left .proc with
    | [] => (.finished, world)
    | name :: rest => (.name name, world.setLeft .proc rest)
  | world, .openTask pid => some <|
    match content.tasks pid with
    | none => (false, world)
    | some _ => (true, world.setLeft .task (taskListing pid))
  | world, .readTask _ => some <|
    match world.left .task with
    | [] => (.finished, world)
    | name :: rest => (.name name, world.setLeft .task rest)
  | world, .processStartTime _ pid => some (content.processStartTime pid, world)
  | world, .threadStartTime _ pid tid => some (content.threadStartTime pid tid, world)
  | world, .processName pid => some (content.processName pid, world)
  | world, .processCmdline pid => some (content.processCmdline pid, world)
  | world, .cgroupStateInfo pid => some (content.cgroup pid, world)
  | world, .matchProcess pid procName state cmdline =>
    some (content.matchProcess pid procName state cmdline, world)
  | world, .cache call =>
    some ((call.run world.cache).1, { world with cache := (call.run world.cache).2 })
  | _, _ => none

/-- The given orders are orders of the directories. -/
structure Lists (listing : List Bytes) (taskListing : Int → List Bytes) : Prop where
  /-- The processes. -/
  proc : listing.Perm content.entries
  /-- The threads. -/
  task : ∀ pid names, content.tasks pid = some names → (taskListing pid).Perm names

/-- The states between two passes of a scan that began with the cache of a world and prior
states. -/
inductive Reaches (priorStates : Table Int (Nat × ProcessState)) (initial : ScanWorld) :
    FullScanState → ScanWorld → Prop where
  /-- No pass. -/
  | start : Reaches priorStates initial (.beginFrom initial.cache priorStates) initial
  /-- A pass that does not finish the scan. -/
  | pass {scan next : FullScanState} {world after : ScanWorld} {fuel : Nat}
      (reached : Reaches priorStates initial scan world)
      (run : Program.Run content.machine.withSpin (advanceFullScan fuel scan) world
        (false, next) after) : Reaches priorStates initial next after

/-! ## What a scan finds -/

/-- What is recorded of a process before its threads are read. -/
def observe (scan : FullScanState) (pid : Int) : FullScanState :=
  let scan := FullScanState.recordLive { scan.clearCurrentPid with
    currentPid := pid
    currentProcessStartTime := content.startOf pid
    currentProcName := content.processName pid }
  let scan := { scan with currentCmdline := content.processCmdline pid }
  scan.recordState (scan.stateFor (content.cgroup pid))

/-- The threads of a process are listed. -/
def listed (scan : FullScanState) (pid : Int) : FullScanState :=
  { content.observe scan pid with
    currentTids := content.tidList pid, tidEnumerationComplete := true }

/-- Some entries of the task directory of a process are read. -/
def listing (scan : FullScanState) (pid : Int) (opened : Bool) (ids : List Int) : FullScanState :=
  { content.observe scan pid with taskDir := opened, currentTids := ids }

/-- Read one thread. -/
def thread (pid : Int) (scan : FullScanState) (tid : Int) : FullScanState :=
  { scan with tidIndex := scan.tidIndex + 1 }.recordThread tid (content.threadStartOf pid tid)

/-- The result of matching the current process. -/
def resultFor (scan : FullScanState) : MatchResult :=
  content.matchProcess scan.currentPid scan.currentProcName scan.currentState scan.currentCmdline

/-- The current process is matched. -/
def settle (scan : FullScanState) : FullScanState :=
  (scan.recordResult (content.resultFor scan)).nextPid

/-- The whole of a process is scanned. -/
def scanPid (scan : FullScanState) (pid : Int) : FullScanState :=
  if content.startOf pid = 0 then scan.nextPid
  else if content.processName pid = deadName then
    FullScanState.nextPid { scan with deadPids := insert pid scan.deadPids }
  else content.settle ((content.tidList pid).foldl (content.thread pid) (content.listed scan pid))

/-- The processes are listed. -/
def enumerated (start : FullScanState) : FullScanState :=
  { start with pids := content.pidList, pidEnumerationComplete := true }

/-- A number of processes is scanned. -/
def scanned (start : FullScanState) (count : Nat) : FullScanState :=
  (content.pidList.take count).foldl content.scanPid (content.enumerated start)

end ScanContent

/-! ## Directories -/

namespace ScanContent

variable {content : ScanContent} {world : ScanWorld}

/-- An operation whose effect is determined. -/
theorem wp_exact {operation : SysOp} {response : SysSig.Res operation} {after : ScanWorld}
    (exactly : ∀ answer next, content.Step world operation answer next ↔
      answer = response ∧ next = after) {post : SysSig.Res operation → ScanWorld → Prop} :
    (scanOp operation).wp content.machine.withSpin post world ↔ post response after := by
  constructor
  · exact fun holds => holds response after ((exactly _ _).mpr ⟨rfl, rfl⟩)
  · intro holds answer next stepped
    obtain ⟨rfl, rfl⟩ := (exactly answer next).mp stepped
    exact holds

/-- An operation that changes nothing and may answer anything. -/
theorem wp_any {operation : SysOp}
    (any : ∀ answer next, content.Step world operation answer next ↔ next = world)
    {post : SysSig.Res operation → ScanWorld → Prop} :
    (scanOp operation).wp content.machine.withSpin post world ↔ ∀ answer, post answer world := by
  constructor
  · exact fun holds answer => holds answer world ((any _ _).mpr rfl)
  · intro holds answer next stepped
    obtain rfl := (any answer next).mp stepped
    exact holds answer

/-- What a listing of a directory leaves. -/
structure ListingOf (dir : ScanDir) (world : ScanWorld) (ids : List Int)
    (found : List Int × ListingEnd) (after : ScanWorld) : Prop where
  /-- Only the directory is read. -/
  same : after = world.setLeft dir (after.left dir)
  /-- A listing that is cut can go on. -/
  paused : found.2 = .paused →
    found.1 ++ (after.left dir).filterMap parseId = ids ++ (world.left dir).filterMap parseId
  /-- A listing that is finished has every entry. -/
  finished : found.2 = .finished → found.1 = ids ++ (world.left dir).filterMap parseId
  /-- Only reads of `/proc` fail. -/
  failed : found.2 = .failed → dir = .proc

/-- Listing a directory. -/
theorem wp_readIds {dir : ScanDir} {readEntry : ScanProgram DirEntry}
    (reads : ∀ (world : ScanWorld) (post : DirEntry → ScanWorld → Prop),
      (∀ response after, ReadEntry dir world response after → post response after) →
        readEntry.wp content.machine.withSpin post world)
    (fuel : Nat) (ids : List Int) :
    (Looping.loop (readId readEntry) fuel ids).wp content.machine.withSpin
      (ListingOf dir world ids) world := by
  have same : world = world.setLeft dir (world.left dir) := by
    rw [ScanWorld.setLeft, Function.update_eq_self]
  refine Looping.wp_loop
    (fun current state => state = world.setLeft dir (state.left dir) ∧
      current ++ (state.left dir).filterMap parseId = ids ++ (world.left dir).filterMap parseId)
    ?_ fuel ⟨same, rfl⟩
  rintro current state ⟨same, account⟩
  rw [readId, Program.wp_bind, wp_any fun _ _ => Iff.rfl]
  intro ended
  rw [Program.wp_ite]
  split
  · refine ⟨same, fun _ => account, fun impossible => ?_, fun impossible => ?_⟩
    · cases impossible
    · cases impossible
  rw [Program.wp_bind]
  refine reads state _ fun response after read => ?_
  rcases read with ⟨own, rfl, rfl⟩ | read
  · refine ⟨same, fun impossible => ?_, fun impossible => ?_, fun _ => own⟩
    · cases impossible
    · cases impossible
  split at read
  · next left =>
    obtain ⟨rfl, rfl⟩ := read
    refine ⟨same, fun impossible => ?_, fun _ => ?_, fun impossible => ?_⟩
    · cases impossible
    · rw [← account, left, List.filterMap_nil, List.append_nil]
    · cases impossible
  · next name rest left =>
    obtain ⟨rfl, rfl⟩ := read
    have moved : state.setLeft dir rest =
        world.setLeft dir ((state.setLeft dir rest).left dir) := by
      rw [ScanWorld.setLeft_self]
      rw [same]
      simp only [ScanWorld.setLeft, Function.update_idem]
    rw [left, List.filterMap_cons] at account
    rw [Program.wp_bind, wp_any fun _ _ => Iff.rfl]
    intro _
    cases parsed : parseId name with
    | none =>
      rw [parsed] at account
      refine ⟨moved, ?_⟩
      rw [ScanWorld.setLeft_self]
      exact account
    | some id =>
      rw [parsed] at account
      refine ⟨moved, ?_⟩
      rw [ScanWorld.setLeft_self, List.append_assoc]
      exact account

/-- The order in which a directory is read does not matter. -/
theorem sortUnique_eq {left right : List Int} (perm : left.Perm right) :
    sortUnique left = sortUnique right := by
  have sorted : ∀ ids : List Int, (sortUnique ids).Pairwise (· ≤ ·) :=
    fun ids => List.pairwise_insertionSort (· ≤ ·) ids.dedup
  have same : (sortUnique left).Perm (sortUnique right) :=
    (List.perm_insertionSort _ _).trans
      ((List.Perm.dedup perm).trans (List.perm_insertionSort _ _).symm)
  exact same.eq_of_pairwise' (sorted left) (sorted right)

/-! ## The state of a scan -/

variable {start scan : FullScanState} {count : Nat} {pid : Int}

/-- A scan with another position among the threads and other threads found. -/
def withThreads (scan : FullScanState) (position : Nat) (found : Table CacheKey Nat) :
    FullScanState :=
  { scan with tidIndex := position, liveThreads := found }

/-- Reading a thread changes the position and the threads found. -/
theorem thread_shape (pid : Int) (scan : FullScanState) (tid : Int) :
    ∃ found, content.thread pid scan tid = withThreads scan (scan.tidIndex + 1) found := by
  unfold thread FullScanState.recordThread
  split
  · exact ⟨scan.liveThreads, rfl⟩
  · exact ⟨_, rfl⟩

/-- Reading several threads changes the position and the threads found. -/
theorem threads_shape (pid : Int) (tids : List Int) (scan : FullScanState) :
    ∃ found, tids.foldl (content.thread pid) scan =
      withThreads scan (scan.tidIndex + tids.length) found := by
  induction tids generalizing scan with
  | nil => exact ⟨scan.liveThreads, rfl⟩
  | cons tid rest ih =>
    obtain ⟨first, one⟩ := thread_shape pid scan tid
    obtain ⟨found, more⟩ := ih (withThreads scan (scan.tidIndex + 1) first)
    have position : scan.tidIndex + (tid :: rest).length = scan.tidIndex + 1 + rest.length := by
      rw [List.length_cons]
      omega
    rw [List.foldl_cons, one, more, position]
    exact ⟨found, rfl⟩

/-- A scan between two processes. -/
structure Idle (content : ScanContent) (start : FullScanState) (count : Nat)
    (scan : FullScanState) : Prop where
  /-- The scan is active. -/
  active : scan.active = start.active
  /-- The processes are listed. -/
  complete : scan.pidEnumerationComplete = true
  /-- The processes. -/
  pids : scan.pids = content.pidList
  /-- The number of processes scanned. -/
  pidIndex : scan.pidIndex = start.pidIndex + count
  /-- The scan stands at no process. -/
  currentPid : scan.currentPid = 0

/-- The scan of a process leaves the scan between two processes. -/
theorem Idle.scanPid (idle : Idle content start count scan) (pid : Int) :
    Idle content start (count + 1) (content.scanPid scan pid) := by
  have next : ∀ {other : FullScanState}, other.active = scan.active →
      other.pidEnumerationComplete = scan.pidEnumerationComplete → other.pids = scan.pids →
      other.pidIndex = scan.pidIndex → Idle content start (count + 1) other.nextPid := by
    intro other active complete pids pidIndex
    constructor
    · exact active.trans idle.active
    · exact complete.trans idle.complete
    · exact pids.trans idle.pids
    · show other.pidIndex + 1 = _
      rw [pidIndex, idle.pidIndex, Nat.add_assoc]
    · rfl
  unfold ScanContent.scanPid
  split
  · exact next rfl rfl rfl rfl
  split
  · exact next rfl rfl rfl rfl
  · obtain ⟨found, shape⟩ := threads_shape pid (content.tidList pid) (content.listed scan pid)
    rw [settle, shape]
    exact next rfl rfl rfl rfl

/-- One more process is scanned. -/
theorem scanned_succ (found : content.pidList[count]? = some pid) :
    content.scanned start (count + 1) = content.scanPid (content.scanned start count) pid := by
  have more : content.pidList.take (count + 1) = content.pidList.take count ++ [pid] := by
    rw [List.take_add_one, found]
    rfl
  rw [scanned, more, List.foldl_append]
  rfl

/-- After some processes the scan is between two. -/
theorem idle_scanned (currentPid : start.currentPid = 0) (within : count ≤ content.pidList.length) :
    Idle content start count (content.scanned start count) := by
  induction count with
  | zero => exact ⟨rfl, rfl, rfl, rfl, currentPid⟩
  | succ count ih =>
    have inside : content.pidList[count]? = some content.pidList[count] :=
      List.getElem?_eq_getElem within
    rw [scanned_succ inside]
    exact (ih (Nat.le_of_lt within)).scanPid _

/-- A process that is read before its threads. -/
structure Observed (content : ScanContent) (pid : Int) : Prop where
  /-- It has a start time. -/
  started : content.startOf pid ≠ 0
  /-- It has a name. -/
  named : content.processName pid ≠ deadName

/-- Where a scan stands within a process. -/
inductive Within (content : ScanContent) (scan : FullScanState) (pid : Int) :
    FullScanState → ScanWorld → Prop where
  /-- Among the entries of the task directory. -/
  | listing {world : ScanWorld} {ids : List Int} {opened : Bool}
      (open_ids : opened = true →
        (ids ++ (world.left .task).filterMap parseId).Perm (content.threads pid))
      (closed_ids : opened = false → ids = []) :
      Within content scan pid (content.listing scan pid opened ids) world
  /-- Among the threads. -/
  | reading {world : ScanWorld} {taken rest : List Int}
      (split : content.tidList pid = taken ++ rest) :
      Within content scan pid (taken.foldl (content.thread pid) (content.listed scan pid)) world

/-- Where a scan stands after a number of processes. -/
inductive Position (content : ScanContent) (start : FullScanState) (count : Nat) :
    FullScanState → ScanWorld → Prop where
  /-- Between two processes. -/
  | between {world : ScanWorld} : Position content start count (content.scanned start count) world
  /-- Within a process. -/
  | within {current : FullScanState} {world : ScanWorld} {pid : Int}
      (found : content.pidList[count]? = some pid) (observed : Observed content pid)
      (stands : Within content (content.scanned start count) pid current world) :
      Position content start count current world

/-! ## One process -/

theorem wp_scanStartTime {use : ReadUse} {post : Nat → ScanWorld → Prop} :
    (scanStartTime use pid).wp content.machine.withSpin post world ↔
      post (content.startOf pid) world := by
  unfold scanStartTime ProcContent.startOf
  split
  · exact wp_exact fun _ _ => Iff.rfl
  · exact Iff.rfl

theorem wp_scanThreadStartTime {tid : Int} {post : Nat → ScanWorld → Prop} :
    (scanThreadStartTime pid tid).wp content.machine.withSpin post world ↔
      post (content.threadStartOf pid tid) world := by
  unfold scanThreadStartTime ProcContent.threadStartOf
  split
  · exact wp_exact fun _ _ => Iff.rfl
  · exact Iff.rfl

/-- A process is read, or passed over. -/
theorem wp_readProcess (scan : FullScanState) (pid : Int) :
    (readProcess scan pid).wp content.machine.withSpin
      (fun found after => after = world ∧
        (found = (false, content.scanPid scan pid) ∨
          (Observed content pid ∧ found = (true, content.observe scan pid)))) world := by
  rw [readProcess, Program.wp_bind, wp_scanStartTime, Program.wp_bind,
    wp_any fun _ _ => Iff.rfl]
  intro _
  rw [Program.wp_ite]
  split
  · next unstarted =>
    refine ⟨rfl, .inl ?_⟩
    rw [scanPid, if_pos unstarted]
    rfl
  next started =>
  rw [Program.wp_bind, wp_exact fun _ _ => Iff.rfl]
  dsimp only
  rw [Program.wp_ite]
  split
  · next dead =>
    refine ⟨rfl, .inl ?_⟩
    rw [scanPid, if_neg started, if_pos dead]
    rfl
  next named =>
  rw [Program.wp_bind, wp_exact fun _ _ => Iff.rfl, Program.wp_bind, wp_exact fun _ _ => Iff.rfl]
  exact ⟨rfl, .inr ⟨⟨started, named⟩, rfl⟩⟩

/-- Reading entries of `/proc`. -/
theorem wp_readProc (world : ScanWorld) (post : DirEntry → ScanWorld → Prop)
    (holds : ∀ response after, ReadEntry .proc world response after → post response after) :
    (scanOp .readProc).wp content.machine.withSpin post world := holds

/-- Reading entries of a task directory. -/
theorem wp_readTask (pid : Int) (world : ScanWorld) (post : DirEntry → ScanWorld → Prop)
    (holds : ∀ response after, ReadEntry .task world response after → post response after) :
    (scanOp (.readTask pid)).wp content.machine.withSpin post world := holds

/-- The threads of a process are listed, or the listing is cut. -/
theorem wp_listTids (fuel : Nat) {ids : List Int}
    (account : (ids ++ (world.left .task).filterMap parseId).Perm (content.threads pid)) :
    (FullScanState.listTids fuel (content.listing scan pid true ids)).wp content.machine.withSpin
      (fun found after => after.cache = world.cache ∧
        (found = (true, content.listed scan pid) ∨
          ∃ more, found = (false, content.listing scan pid true more) ∧
            (more ++ (after.left .task).filterMap parseId).Perm (content.threads pid))) world := by
  rw [FullScanState.listTids, Program.wp_bind]
  refine Program.wp_mono (wp_readIds (wp_readTask _) fuel ids) fun found after listing => ?_
  obtain ⟨more, ended⟩ := found
  have cache : after.cache = world.cache := by
    rw [listing.same]
    rfl
  cases ended with
  | paused =>
    refine ⟨cache, .inr ⟨more, rfl, ?_⟩⟩
    rw [show more ++ _ = _ from listing.paused rfl]
    exact account
  | finished =>
    have whole : more = ids ++ (world.left .task).filterMap parseId := listing.finished rfl
    have same : sortUnique more = content.tidList pid := by
      rw [whole]
      exact sortUnique_eq account
    refine ⟨cache, .inl ?_⟩
    show (true, _) = _
    rw [same]
    rfl
  | failed => cases listing.failed rfl

/-- The threads of the current process are listed, or the listing is cut. -/
theorem wp_enumerateCurrentTids (fuel : Nat) {ids : List Int} {opened : Bool}
    (open_ids : opened = true →
      (ids ++ (world.left .task).filterMap parseId).Perm (content.threads pid))
    (closed_ids : opened = false → ids = []) :
    (FullScanState.enumerateCurrentTids fuel (content.listing scan pid opened ids)).wp
      content.machine.withSpin
      (fun found after => after.cache = world.cache ∧
        (found = (true, content.listed scan pid) ∨
          ∃ more, found = (false, content.listing scan pid true more) ∧
            (more ++ (after.left .task).filterMap parseId).Perm (content.threads pid))) world := by
  have unlisted : (content.listing scan pid opened ids).tidEnumerationComplete = false := rfl
  rw [FullScanState.enumerateCurrentTids, Program.wp_ite, if_neg (by rw [unlisted]; decide),
    Program.wp_ite]
  cases opened with
  | true =>
    have isOpen : (content.listing scan pid true ids).taskDir = true := rfl
    rw [if_pos isOpen]
    exact wp_listTids fuel (open_ids rfl)
  | false =>
  have isClosed : (content.listing scan pid false ids).taskDir = false := rfl
  rw [closed_ids rfl] at isClosed ⊢
  rw [if_neg (by rw [isClosed]; decide), Program.wp_bind]
  intro response after stepped
  have stepped : content.Step world (.openTask pid) response after := stepped
  rw [Step] at stepped
  split at stepped
  · next missing =>
    obtain ⟨rfl, rfl⟩ := stepped
    have none : content.tidList pid = [] := by
      rw [tidList, ProcContent.threads, missing]
      rfl
    refine ⟨rfl, .inl ?_⟩
    rw [listed, none]
    rfl
  · next names found =>
    obtain ⟨rfl, order, perm, rfl⟩ := stepped
    have account : ([] ++ ((world.setLeft .task order).left .task).filterMap parseId).Perm
        (content.threads pid) := by
      rw [ScanWorld.setLeft_self, List.nil_append, ProcContent.threads, found]
      exact perm.filterMap parseId
    exact @wp_listTids content (world.setLeft .task order) scan pid fuel [] account

/-- The threads of the current process are read, or the reading is cut. -/
theorem wp_readThreads (rest : List Int) {taken : List Int} :
    (readThreads rest (taken.foldl (content.thread pid) (content.listed scan pid))).wp
      content.machine.withSpin
      (fun found after => after = world ∧
        ∃ more left, taken ++ rest = more ++ left ∧
          found.2 = more.foldl (content.thread pid) (content.listed scan pid) ∧
          (found.1 = true → left = [])) world := by
  induction rest generalizing taken with
  | nil => exact ⟨rfl, taken, [], rfl, rfl, fun _ => rfl⟩
  | cons tid rest ih =>
    rw [readThreads, Program.wp_bind, wp_any fun _ _ => Iff.rfl]
    intro ended
    rw [Program.wp_ite]
    split
    · refine ⟨rfl, taken, tid :: rest, rfl, rfl, fun impossible => ?_⟩
      cases impossible
    obtain ⟨found, shape⟩ := threads_shape pid taken (content.listed scan pid)
    have current :
        (taken.foldl (content.thread pid) (content.listed scan pid)).currentPid = pid := by
      rw [shape]
      rfl
    have same : content.threadStartOf
        (taken.foldl (content.thread pid) (content.listed scan pid)).currentPid tid =
          content.threadStartOf pid tid := by rw [current]
    rw [Program.wp_bind, wp_scanThreadStartTime, same, Program.wp_bind,
      wp_any fun _ _ => Iff.rfl]
    intro _
    have next := @ih (taken ++ [tid])
    rw [List.foldl_append, List.append_assoc] at next
    exact next

/-- The process is still the one that was read. -/
theorem wp_verifyProcess (observed : Observed content pid) :
    (verifyProcess ((content.tidList pid).foldl (content.thread pid)
        (content.listed scan pid))).wp content.machine.withSpin
      (fun outcome after => after = world ∧
        (outcome = .inl (content.scanPid scan pid) ∨ outcome = .inr (false,
          (content.tidList pid).foldl (content.thread pid) (content.listed scan pid)))) world := by
  have settled : content.settle ((content.tidList pid).foldl (content.thread pid)
      (content.listed scan pid)) = content.scanPid scan pid := by
    rw [scanPid, if_neg observed.started, if_neg observed.named]
  obtain ⟨found, shape⟩ := threads_shape pid (content.tidList pid) (content.listed scan pid)
  rw [← settled, shape, verifyProcess, Program.wp_bind, wp_any fun _ _ => Iff.rfl]
  intro ended
  rw [Program.wp_ite]
  split
  · exact ⟨rfl, .inr rfl⟩
  rw [Program.wp_bind, wp_scanStartTime]
  have same : ¬ content.startOf (withThreads (content.listed scan pid)
      ((content.listed scan pid).tidIndex + (content.tidList pid).length) found).currentPid ≠
        (withThreads (content.listed scan pid)
          ((content.listed scan pid).tidIndex + (content.tidList pid).length)
            found).currentProcessStartTime := fun differ => differ rfl
  rw [Program.wp_ite, if_neg same, Program.wp_bind, wp_exact fun _ _ => Iff.rfl]
  exact ⟨rfl, .inl rfl⟩

/-- A process is scanned to its end, or the scan is cut. -/
theorem wp_continueProcess (fuel : Nat) (observed : Observed content pid)
    {current : FullScanState} (stands : Within content scan pid current world) :
    (continueProcess fuel current).wp content.machine.withSpin
      (fun outcome after => after.cache = world.cache ∧
        (outcome = .inl (content.scanPid scan pid) ∨
          ∃ next, outcome = .inr (false, next) ∧ Within content scan pid next after)) world := by
  have listed : (current.enumerateCurrentTids fuel).wp content.machine.withSpin
      (fun found after => after.cache = world.cache ∧
        (found.1 = false → Within content scan pid found.2 after) ∧
        (found.1 = true → ∃ taken rest, content.tidList pid = taken ++ rest ∧
          found.2 = taken.foldl (content.thread pid) (content.listed scan pid))) world := by
    cases stands with
    | listing open_ids closed_ids =>
      refine Program.wp_mono (wp_enumerateCurrentTids fuel open_ids closed_ids)
        fun found after reached => ?_
      obtain ⟨cache, rfl | ⟨more, rfl, account⟩⟩ := reached
      · refine ⟨cache, fun impossible => ?_, fun _ => ⟨[], content.tidList pid, rfl, rfl⟩⟩
        cases impossible
      · refine ⟨cache, fun _ => .listing (fun _ => account) fun impossible => ?_,
          fun impossible => ?_⟩
        · cases impossible
        · cases impossible
    | @reading _ taken rest split =>
      obtain ⟨found, shape⟩ := threads_shape pid taken (content.listed scan pid)
      have complete : (taken.foldl (content.thread pid)
          (content.listed scan pid)).tidEnumerationComplete = true := by
        rw [shape]
        rfl
      rw [FullScanState.enumerateCurrentTids, if_pos complete]
      refine ⟨rfl, fun impossible => ?_, fun _ => ⟨taken, rest, split, rfl⟩⟩
      cases impossible
  rw [continueProcess, Program.wp_bind]
  refine Program.wp_mono listed fun found middle reached => ?_
  obtain ⟨complete, scanning⟩ := found
  obtain ⟨cache, cut, whole⟩ := reached
  dsimp only at cut whole ⊢
  rw [Program.wp_ite]
  split
  · next incomplete => exact ⟨cache, .inr ⟨scanning, rfl, cut incomplete⟩⟩
  next finished =>
  obtain ⟨taken, rest, split, rfl⟩ := whole (by simpa using finished)
  obtain ⟨found, shape⟩ := threads_shape pid taken (content.listed scan pid)
  have remaining : (taken.foldl (content.thread pid) (content.listed scan pid)).currentTids.drop
      (taken.foldl (content.thread pid) (content.listed scan pid)).tidIndex = rest := by
    have tids : (taken.foldl (content.thread pid) (content.listed scan pid)).currentTids =
        content.tidList pid := by
      rw [shape]
      rfl
    have position : (taken.foldl (content.thread pid) (content.listed scan pid)).tidIndex =
        taken.length := by
      rw [shape]
      exact Nat.zero_add _
    rw [tids, position, split, List.drop_left]
  rw [remaining, Program.wp_bind]
  refine Program.wp_mono (wp_readThreads rest) fun found after reached => ?_
  obtain ⟨done, scanning⟩ := found
  obtain ⟨rfl, more, left, same, standing, whole⟩ := reached
  rw [← split] at same
  obtain rfl : scanning = _ := standing
  dsimp only
  rw [Program.wp_ite]
  split
  · exact ⟨cache, .inr ⟨_, rfl, .reading same⟩⟩
  next finished =>
  have none : left = [] := whole (by simpa using finished)
  rw [none, List.append_nil] at same
  rw [← same]
  refine Program.wp_mono (wp_verifyProcess observed) fun outcome last reached => ?_
  obtain ⟨rfl, rfl | rfl⟩ := reached
  · exact ⟨cache, .inl rfl⟩
  · exact ⟨cache, .inr ⟨_, rfl, .reading (List.append_nil _).symm⟩⟩

/-! ## One pass -/

/-- A process of `/proc` has a positive ID. -/
theorem pos_of_found (found : content.pidList[count]? = some pid) : 0 < pid := by
  have member : pid ∈ content.entries.filterMap parseId :=
    ProcContent.mem_sortUnique.mp (List.mem_of_getElem? found)
  obtain ⟨name, -, parsed⟩ := List.mem_filterMap.mp member
  exact pos_of_parseId parsed

/-- What a scan within a process has in common with the scan before it. -/
structure SameList (scan current : FullScanState) : Prop where
  /-- Whether it is active. -/
  active : current.active = scan.active
  /-- Whether the processes are listed. -/
  complete : current.pidEnumerationComplete = scan.pidEnumerationComplete
  /-- The processes. -/
  pids : current.pids = scan.pids
  /-- The position. -/
  pidIndex : current.pidIndex = scan.pidIndex

/-- A scan within a process stands at it. -/
theorem Within.frame {current : FullScanState} (stands : Within content scan pid current world) :
    SameList scan current ∧ current.currentPid = pid := by
  cases stands with
  | listing open_ids closed_ids => exact ⟨⟨rfl, rfl, rfl, rfl⟩, rfl⟩
  | @reading _ taken rest split =>
    obtain ⟨found, shape⟩ := threads_shape pid taken (content.listed scan pid)
    rw [shape]
    exact ⟨⟨rfl, rfl, rfl, rfl⟩, rfl⟩

/-- A scan has the list of processes wherever it stands. -/
theorem Position.frame {current : FullScanState}
    (position : Position content start count current world) :
    SameList (content.scanned start count) current := by
  cases position with
  | between => exact ⟨rfl, rfl, rfl, rfl⟩
  | within found observed stands => exact stands.frame.1

/-- One process is scanned, or the scan is cut, or it is finished. -/
theorem wp_scanNext (fuel : Nat) (fresh : start.currentPid = 0) (first : start.pidIndex = 0)
    (bound : count ≤ content.pidList.length) {current : FullScanState}
    (position : Position content start count current world) :
    (scanNext fuel current).wp content.machine.withSpin
      (fun outcome after => after.cache = world.cache ∧
        ((outcome = .inl (content.scanned start (count + 1)) ∧
            count < content.pidList.length) ∨
          (outcome = .inr (true, content.scanned start count) ∧
            count = content.pidList.length) ∨
          ∃ next, outcome = .inr (false, next) ∧ Position content start count next after)) world := by
  have idle : Idle content start count (content.scanned start count) := idle_scanned fresh bound
  have frame := position.frame
  have here : current.pids[current.pidIndex]? = content.pidList[count]? := by
    rw [frame.pids, frame.pidIndex, idle.pids, idle.pidIndex, first, Nat.zero_add]
  -- a process that is observed is scanned from where the scan stands
  have goOn : ∀ {pid : Int} {current : FullScanState}, content.pidList[count]? = some pid →
      Observed content pid → Within content (content.scanned start count) pid current world →
        (continueProcess fuel current).wp content.machine.withSpin
          (fun outcome after => after.cache = world.cache ∧
            ((outcome = .inl (content.scanned start (count + 1)) ∧
                count < content.pidList.length) ∨
              (outcome = .inr (true, content.scanned start count) ∧
                count = content.pidList.length) ∨
              ∃ next, outcome = .inr (false, next) ∧
                Position content start count next after)) world := by
    intro pid current found observed stands
    refine Program.wp_mono (wp_continueProcess fuel observed stands) fun outcome after reached => ?_
    obtain ⟨cache, rfl | ⟨next, rfl, stands⟩⟩ := reached
    · refine ⟨cache, .inl ⟨?_, (List.getElem?_eq_some_iff.mp found).1⟩⟩
      rw [scanned_succ found]
    · exact ⟨cache, .inr (.inr ⟨next, rfl, .within found observed stands⟩)⟩
  rw [scanNext, here]
  cases found : content.pidList[count]? with
  | none =>
    have whole : content.pidList.length ≤ count := List.getElem?_eq_none_iff.mp found
    cases position with
    | between => exact ⟨rfl, .inr (.inl ⟨rfl, Nat.le_antisymm bound whole⟩)⟩
    | within present observed stands =>
      rw [found] at present
      cases present
  | some pid =>
    dsimp only
    rw [Program.wp_bind, wp_any fun _ _ => Iff.rfl]
    intro ended
    rw [Program.wp_ite]
    split
    · exact ⟨rfl, .inr (.inr ⟨current, rfl, position⟩)⟩
    rw [Program.wp_ite]
    cases position with
    | between =>
      have other : (content.scanned start count).currentPid ≠ pid := by
        have positive := pos_of_found found
        rw [idle.currentPid]
        omega
      rw [if_neg other, Program.wp_bind]
      refine Program.wp_mono (wp_readProcess _ pid) fun read after reached => ?_
      obtain ⟨rfl, rfl | ⟨observed, rfl⟩⟩ := reached
      · refine ⟨rfl, .inl ⟨?_, (List.getElem?_eq_some_iff.mp found).1⟩⟩
        rw [scanned_succ found]
      · have opens : Within content (content.scanned start count) pid
            (content.listing (content.scanned start count) pid false []) after :=
          .listing (fun impossible => absurd impossible Bool.false_ne_true) fun _ => rfl
        exact goOn found observed opens
    | within present observed stands =>
      obtain rfl := Option.some.inj (found.symm.trans present)
      rw [if_pos stands.frame.2]
      exact goOn present observed stands

variable {cache : ThreadCache} {priorStates : Table Int (Nat × ProcessState)}

/-- Some entries of `/proc` are read. -/
def enumerating (start : FullScanState) (opened : Bool) (ids : List Int) : FullScanState :=
  { start with procDir := opened, pids := ids }

/-- Where a scan stands between two passes. -/
inductive Between (content : ScanContent) (start : FullScanState) :
    FullScanState → ScanWorld → Prop where
  /-- Among the entries of `/proc`. -/
  | enumerating {world : ScanWorld} {ids : List Int} {opened : Bool}
      (open_ids : opened = true → (ids ++ (world.left .proc).filterMap parseId).Perm
        (content.entries.filterMap parseId)) :
      Between content start (enumerating start opened ids) world
  /-- Among the processes. -/
  | scanning {current : FullScanState} {world : ScanWorld} {count : Nat}
      (bound : count ≤ content.pidList.length)
      (position : Position content start count current world) :
      Between content start current world

/-- The processes are listed, or the listing is cut. -/
theorem wp_listPids (fuel : Nat) {ids : List Int}
    (account : (ids ++ (world.left .proc).filterMap parseId).Perm
      (content.entries.filterMap parseId)) :
    (FullScanState.listPids fuel (enumerating (.beginFrom cache priorStates) true ids)).wp
      content.machine.withSpin
      (fun found after => after.cache = world.cache ∧
        (found = (true, content.enumerated (.beginFrom cache priorStates)) ∨
          found.1 = false ∧
            Between content (.beginFrom cache priorStates) found.2 after)) world := by
  rw [FullScanState.listPids, Program.wp_bind]
  refine Program.wp_mono (wp_readIds wp_readProc fuel ids) fun found after listing => ?_
  obtain ⟨more, ended⟩ := found
  have kept : after.cache = world.cache := by
    rw [listing.same]
    rfl
  cases ended with
  | paused =>
    have rest : more ++ (after.left .proc).filterMap parseId =
        ids ++ (world.left .proc).filterMap parseId := listing.paused rfl
    have stands : Between content (.beginFrom cache priorStates)
        (enumerating (.beginFrom cache priorStates) true more) after := by
      refine .enumerating fun _ => ?_
      rw [rest]
      exact account
    exact ⟨kept, .inr ⟨rfl, stands⟩⟩
  | failed =>
    have stands : Between content (.beginFrom cache priorStates)
        (enumerating (.beginFrom cache priorStates) false more) after :=
      .enumerating fun impossible => absurd impossible Bool.false_ne_true
    exact ⟨kept, .inr ⟨rfl, stands⟩⟩
  | finished =>
    have whole : more = ids ++ (world.left .proc).filterMap parseId := listing.finished rfl
    have same : sortUnique more = content.pidList := by
      rw [whole]
      exact sortUnique_eq account
    refine ⟨kept, .inl ?_⟩
    show (true, _) = _
    rw [same]
    rfl

/-- Listing the processes leads to the first of them, or is cut. -/
theorem wp_enumeratePids (fuel : Nat) {current : FullScanState}
    (between : Between content (.beginFrom cache priorStates) current world) :
    (current.enumeratePids fuel).wp content.machine.withSpin
      (fun found after => after.cache = world.cache ∧
        (found.1 = true → ∃ count, count ≤ content.pidList.length ∧
          Position content (.beginFrom cache priorStates) count found.2 after) ∧
        (found.1 = false → Between content (.beginFrom cache priorStates) found.2 after)) world := by
  have listed : ∀ {world : ScanWorld} {ids : List Int},
      (ids ++ (world.left .proc).filterMap parseId).Perm (content.entries.filterMap parseId) →
        (FullScanState.listPids fuel (enumerating (.beginFrom cache priorStates) true ids)).wp
          content.machine.withSpin
          (fun found after => after.cache = world.cache ∧
            (found.1 = true → ∃ count, count ≤ content.pidList.length ∧
              Position content (.beginFrom cache priorStates) count found.2 after) ∧
            (found.1 = false → Between content (.beginFrom cache priorStates) found.2 after))
          world := by
    intro world ids account
    refine Program.wp_mono (wp_listPids fuel account) fun found after reached => ?_
    obtain ⟨kept, rfl | ⟨cut, stands⟩⟩ := reached
    · refine ⟨kept, fun _ => ⟨0, Nat.zero_le _, .between⟩, fun impossible => ?_⟩
      cases impossible
    · refine ⟨kept, fun impossible => ?_, fun _ => stands⟩
      rw [cut] at impossible
      cases impossible
  cases between with
  | scanning bound position =>
    have complete : current.pidEnumerationComplete = true := by
      rw [position.frame.complete]
      exact (idle_scanned rfl bound).complete
    rw [FullScanState.enumeratePids, if_pos complete]
    refine ⟨rfl, fun _ => ⟨_, bound, position⟩, fun impossible => ?_⟩
    cases impossible
  | @enumerating _ ids opened open_ids =>
    have incomplete : (ScanContent.enumerating (.beginFrom cache priorStates) opened
        ids).pidEnumerationComplete = false := rfl
    rw [FullScanState.enumeratePids, if_neg (by rw [incomplete]; decide), Program.wp_ite]
    cases opened with
    | true =>
      have isOpen : (ScanContent.enumerating (.beginFrom cache priorStates) true
          ids).procDir = true := rfl
      rw [if_pos isOpen]
      exact listed (open_ids rfl)
    | false =>
      have isClosed : (ScanContent.enumerating (.beginFrom cache priorStates) false
          ids).procDir = false := rfl
      rw [if_neg (by rw [isClosed]; decide), Program.wp_bind]
      intro response after stepped
      rcases stepped with ⟨rfl, rfl⟩ | ⟨rfl, order, perm, rfl⟩
      · refine ⟨rfl, fun impossible => ?_, fun _ => .enumerating open_ids⟩
        cases impossible
      · have account : ([] ++ ((world.setLeft .proc order).left .proc).filterMap parseId).Perm
            (content.entries.filterMap parseId) := by
          rw [ScanWorld.setLeft_self, List.nil_append]
          exact perm.filterMap parseId
        exact listed account

/-- The processes are scanned, or the scan is cut. -/
theorem wp_scanRest (fuel : Nat) (bound : count ≤ content.pidList.length)
    {current : FullScanState}
    (position : Position content (.beginFrom cache priorStates) count current world) :
    (Looping.loop (scanNext fuel) fuel current).wp content.machine.withSpin
      (fun found after => after.cache = world.cache ∧
        (found = (true, content.scanned (.beginFrom cache priorStates) content.pidList.length) ∨
          found.1 = false ∧
            Between content (.beginFrom cache priorStates) found.2 after)) world := by
  refine Looping.wp_loop
    (fun current state => state.cache = world.cache ∧ ∃ count, count ≤ content.pidList.length ∧
      Position content (.beginFrom cache priorStates) count current state)
    ?_ fuel ⟨rfl, count, bound, position⟩
  rintro current state ⟨same, count, bound, position⟩
  refine Program.wp_mono (wp_scanNext fuel rfl rfl bound position) fun outcome after reached => ?_
  obtain ⟨still, ⟨rfl, more⟩ | ⟨rfl, rfl⟩ | ⟨next, rfl, stands⟩⟩ := reached
  · exact ⟨still.trans same, count + 1, more, .between⟩
  · exact ⟨still.trans same, .inl rfl⟩
  · exact ⟨still.trans same, .inr ⟨rfl, .scanning bound stands⟩⟩

/-- One pass of a scan leaves the scan of every process, or a scan that can go on. -/
theorem wp_advanceFullScan (fuel : Nat) {current : FullScanState}
    (between : Between content (.beginFrom cache priorStates) current world) :
    (advanceFullScan fuel current).wp content.machine.withSpin
      (fun found after =>
        (found.1 = true →
          found.2 = content.scanned (.beginFrom cache priorStates) content.pidList.length ∧
          after.cache = world.cache.retainLiveThreads found.2.findings) ∧
        (found.1 = false → after.cache = world.cache ∧
          Between content (.beginFrom cache priorStates) found.2 after)) world := by
  have active : current.active = true := by
    cases between with
    | enumerating open_ids => rfl
    | scanning bound position =>
      rw [position.frame.active]
      exact (idle_scanned rfl bound).active
  rw [advanceFullScan, if_neg (by rw [active]; decide), Program.wp_bind]
  refine Program.wp_mono (wp_enumeratePids fuel between) fun found middle reached => ?_
  obtain ⟨complete, scan⟩ := found
  obtain ⟨kept, whole, cut⟩ := reached
  dsimp only at whole cut ⊢
  rw [Program.wp_ite]
  split
  · next incomplete =>
    refine ⟨fun impossible => ?_, fun _ => ⟨kept, cut incomplete⟩⟩
    cases impossible
  next finished =>
  obtain ⟨count, bound, position⟩ := whole (by simpa using finished)
  rw [Program.wp_bind]
  refine Program.wp_mono (wp_scanRest fuel bound position) fun found after reached => ?_
  obtain ⟨same, rfl | ⟨unfinished, stands⟩⟩ := reached
  · rw [if_neg (show ¬ true = false by decide), Program.wp_bind]
    intro _ last stepped
    obtain ⟨called, shape⟩ := stepped
    have retained : last.cache = after.cache.retainLiveThreads
        (content.scanned (.beginFrom cache priorStates) content.pidList.length).findings :=
      (congrArg Prod.snd called).symm
    refine ⟨fun _ => ⟨rfl, ?_⟩, fun impossible => ?_⟩
    · rw [retained, same, kept]
    · cases impossible
  · rw [if_pos unfinished]
    refine ⟨fun impossible => ?_, fun _ => ⟨same.trans kept, stands⟩⟩
    cases impossible

/-- A scan that is not finished can go on, and the cache is as it was. -/
theorem Reaches.between {initial : ScanWorld} (reached : content.Reaches priorStates initial scan world) :
    world.cache = initial.cache ∧
      Between content (.beginFrom initial.cache priorStates) scan world := by
  induction reached with
  | start => exact ⟨rfl, .enumerating fun impossible => absurd impossible Bool.false_ne_true⟩
  | pass reached run ih =>
    obtain ⟨kept, stands⟩ := (run.post (wp_advanceFullScan _ ih.2)).2 rfl
    exact ⟨kept.trans ih.1, stands⟩

/-! ## A scan without a limit -/

variable {listing : List Bytes} {taskListing : Int → List Bytes}

/-- The answers are possible on the machine of a fixed `/proc`. -/
theorem step_of_answer (lists : content.Lists listing taskListing) {after : ScanWorld}
    {operation : SysOp} {response : SysSig.Res operation}
    (answered : content.answer listing taskListing world operation = some (response, after)) :
    content.machine.step world operation response after := by
  cases operation with
  | openProc =>
    cases answered
    exact .inr ⟨rfl, listing, lists.proc, rfl⟩
  | readProc =>
    refine .inr ?_
    rw [answer] at answered
    split at answered
    · cases answered
      exact ⟨rfl, rfl⟩
    · cases answered
      exact ⟨rfl, rfl⟩
  | readTask pid =>
    refine .inr ?_
    rw [answer] at answered
    split at answered
    · cases answered
      exact ⟨rfl, rfl⟩
    · cases answered
      exact ⟨rfl, rfl⟩
  | openTask pid =>
    show content.Step world (.openTask pid) response after
    rw [answer] at answered
    rw [Step]
    split at answered
    · cases answered
      exact ⟨rfl, rfl⟩
    · next names found =>
      cases answered
      exact ⟨rfl, taskListing pid, lists.task pid names found, rfl⟩
  | processStartTime use pid | threadStartTime use pid tid | processName pid | processCmdline pid
  | cgroupStateInfo pid | matchProcess pid procName state cmdline =>
    cases answered
    exact ⟨rfl, rfl⟩
  | budgetExhausted | afterThreadRead =>
    cases answered
    exact rfl
  | cache call =>
    cases answered
    exact ⟨call.step_run world.cache, rfl⟩
  | _ => cases answered

section Answers

/-- An operation that is answered. -/
theorem ends_answered {operation : SysOp} {response : SysSig.Res operation} {after : ScanWorld}
    (answered : content.answer listing taskListing world operation = some (response, after))
    {post : SysSig.Res operation → ScanWorld → Prop} :
    Looping.Ends (content.answer listing taskListing) (scanOp operation) post world ↔
      post response after := by
  constructor
  · rintro ⟨other, next, same, holds⟩
    obtain ⟨rfl, rfl⟩ := Prod.mk.inj (Option.some.inj (answered.symm.trans same))
    exact holds
  · exact fun holds => ⟨response, after, answered, holds⟩

@[simp] theorem ends_budgetExhausted {post : Bool → ScanWorld → Prop} :
    Looping.Ends (content.answer listing taskListing) (scanOp .budgetExhausted) post world ↔
      post false world := ends_answered rfl

@[simp] theorem ends_afterThreadRead {post : Unit → ScanWorld → Prop} :
    Looping.Ends (content.answer listing taskListing) (scanOp .afterThreadRead) post world ↔
      post () world := ends_answered rfl

@[simp] theorem ends_scanStartTime {use : ReadUse} {post : Nat → ScanWorld → Prop} :
    Looping.Ends (content.answer listing taskListing) (scanStartTime use pid) post world ↔
      post (content.startOf pid) world := by
  unfold scanStartTime ProcContent.startOf
  split
  · exact ends_answered rfl
  · exact Iff.rfl

@[simp] theorem ends_scanThreadStartTime {tid : Int} {post : Nat → ScanWorld → Prop} :
    Looping.Ends (content.answer listing taskListing) (scanThreadStartTime pid tid) post world ↔
      post (content.threadStartOf pid tid) world := by
  unfold scanThreadStartTime ProcContent.threadStartOf
  split
  · exact ends_answered rfl
  · exact Iff.rfl

/-- What the next read of a directory leads to. -/
def AfterRead (dir : ScanDir) (world : ScanWorld) (post : DirEntry → ScanWorld → Prop) : Prop :=
  match world.left dir with
  | [] => post .finished world
  | name :: rest => post (.name name) (world.setLeft dir rest)

theorem ends_readProc (world : ScanWorld) (post : DirEntry → ScanWorld → Prop)
    (holds : AfterRead .proc world post) :
    Looping.Ends (content.answer listing taskListing) (scanOp .readProc) post world := by
  rw [AfterRead] at holds
  split at holds
  · next left => exact (ends_answered (by rw [answer, left])).mpr holds
  · next left => exact (ends_answered (by rw [answer, left])).mpr holds

theorem ends_readTask (pid : Int) (world : ScanWorld) (post : DirEntry → ScanWorld → Prop)
    (holds : AfterRead .task world post) :
    Looping.Ends (content.answer listing taskListing) (scanOp (.readTask pid)) post world := by
  rw [AfterRead] at holds
  split at holds
  · next left => exact (ends_answered (by rw [answer, left])).mpr holds
  · next left => exact (ends_answered (by rw [answer, left])).mpr holds

end Answers

/-- A directory is read to its end. -/
theorem ends_readIds {dir : ScanDir} {readEntry : ScanProgram DirEntry}
    (reads : ∀ (world : ScanWorld) (post : DirEntry → ScanWorld → Prop),
      AfterRead dir world post →
        Looping.Ends (content.answer listing taskListing) readEntry post world)
    {fuel : Nat} {ids : List Int} (enough : (world.left dir).length < fuel) :
    Looping.Ends (content.answer listing taskListing) (Looping.loop (readId readEntry) fuel ids)
      (fun found _ => found.2 = .finished) world := by
  refine Looping.ends_loop (fun _ _ => True) (fun _ state => (state.left dir).length) ?_ trivial
    enough
  intro current state _
  rw [readId, Looping.ends_bind, ends_budgetExhausted, if_neg Bool.false_ne_true,
    Looping.ends_bind]
  refine reads state _ ?_
  rw [AfterRead]
  split
  · exact rfl
  · next name rest left =>
    have shorter : ((state.setLeft dir rest).left dir).length < (state.left dir).length := by
      rw [ScanWorld.setLeft_self, left, List.length_cons]
      omega
    rw [Looping.ends_bind, ends_afterThreadRead]
    cases parseId name with
    | none => exact ⟨trivial, shorter⟩
    | some id => exact ⟨trivial, shorter⟩

/-- The processes are listed. -/
theorem ends_enumeratePids (lists : content.Lists listing taskListing) {fuel : Nat}
    (enough : content.entries.length < fuel) :
    Looping.Ends (content.answer listing taskListing)
      (FullScanState.enumeratePids fuel (.beginFrom cache priorStates))
      (fun found _ => found = (true, content.enumerated (.beginFrom cache priorStates))) world := by
  have unlisted :
      (FullScanState.beginFrom cache priorStates).pidEnumerationComplete = false := rfl
  have isClosed : (FullScanState.beginFrom cache priorStates).procDir = false := rfl
  rw [FullScanState.enumeratePids, if_neg (by rw [unlisted]; decide),
    if_neg (by rw [isClosed]; decide), Looping.ends_bind]
  refine (ends_answered rfl).mpr ?_
  rw [if_pos rfl]
  have left : ((world.setLeft .proc listing).left .proc).length < fuel := by
    rw [ScanWorld.setLeft_self, lists.proc.length_eq]
    exact enough
  have finishes : Looping.Ends (content.answer listing taskListing)
      (FullScanState.listPids fuel (enumerating (.beginFrom cache priorStates) true []))
      (fun found _ => found.1 = true) (world.setLeft .proc listing) := by
    rw [FullScanState.listPids, Looping.ends_bind]
    refine Looping.ends_mono (ends_readIds ends_readProc left) fun found after ended => ?_
    obtain ⟨ids, outcome⟩ := found
    obtain rfl : outcome = .finished := ended
    exact rfl
  have account : ([] ++ ((world.setLeft .proc listing).left .proc).filterMap parseId).Perm
      (content.entries.filterMap parseId) := by
    rw [ScanWorld.setLeft_self, List.nil_append]
    exact lists.proc.filterMap parseId
  refine Looping.ends_mono (Looping.ends_and_wp (step_of_answer lists) finishes
    (wp_listPids fuel account)) fun found after reached => ?_
  obtain ⟨complete, -, same | ⟨cut, -⟩⟩ := reached
  · exact same
  · rw [complete] at cut
    cases cut

/-- The threads of a process are listed. -/
theorem ends_enumerateCurrentTids {fuel : Nat}
    (enough : ∀ names, content.tasks pid = some names → (taskListing pid).length < fuel) :
    Looping.Ends (content.answer listing taskListing)
      ((content.observe scan pid).enumerateCurrentTids fuel)
      (fun found _ => found.1 = true) world := by
  have unlisted : (content.observe scan pid).tidEnumerationComplete = false := rfl
  have isClosed : (content.observe scan pid).taskDir = false := rfl
  have stands : (content.observe scan pid).currentPid = pid := rfl
  rw [FullScanState.enumerateCurrentTids, if_neg (by rw [unlisted]; decide),
    if_neg (by rw [isClosed]; decide), Looping.ends_bind, stands]
  cases found : content.tasks pid with
  | none =>
    refine (ends_answered (by rw [answer, found])).mpr ?_
    exact rfl
  | some names =>
    refine (ends_answered (by rw [answer, found])).mpr ?_
    rw [if_pos rfl, FullScanState.listTids, Looping.ends_bind]
    have left : ((world.setLeft .task (taskListing pid)).left .task).length < fuel := by
      rw [ScanWorld.setLeft_self]
      exact enough names found
    refine Looping.ends_mono (ends_readIds (ends_readTask _) left) fun found after ended => ?_
    obtain ⟨ids, outcome⟩ := found
    obtain rfl : outcome = .finished := ended
    exact rfl

/-- The threads of a process are read. -/
theorem ends_readThreads (tids : List Int) (scan : FullScanState) :
    Looping.Ends (content.answer listing taskListing) (readThreads tids scan)
      (fun found _ => found.1 = true) world := by
  induction tids generalizing scan with
  | nil => exact rfl
  | cons tid rest ih =>
    rw [readThreads, Looping.ends_bind, ends_budgetExhausted, if_neg Bool.false_ne_true,
      Looping.ends_bind, ends_scanThreadStartTime, Looping.ends_bind, ends_afterThreadRead]
    exact ih _

/-- A process is checked and matched. -/
theorem ends_verifyProcess (scan : FullScanState) :
    Looping.Ends (content.answer listing taskListing) (verifyProcess scan)
      (fun outcome _ => outcome.isLeft = true) world := by
  rw [verifyProcess, Looping.ends_bind, ends_budgetExhausted, if_neg Bool.false_ne_true,
    Looping.ends_bind, ends_scanStartTime, Looping.ends_ite]
  split
  · exact rfl
  · rw [Looping.ends_bind]
    refine (ends_answered rfl).mpr ?_
    exact rfl

/-- A process is read. -/
theorem ends_readProcess (scan : FullScanState) (pid : Int) :
    Looping.Ends (content.answer listing taskListing) (readProcess scan pid)
      (fun _ _ => True) world := by
  rw [readProcess, Looping.ends_bind, ends_scanStartTime, Looping.ends_bind, ends_afterThreadRead]
  dsimp only
  rw [Looping.ends_ite]
  split
  · trivial
  rw [Looping.ends_bind]
  refine (ends_answered rfl).mpr ?_
  rw [Looping.ends_ite]
  split
  · trivial
  rw [Looping.ends_bind]
  refine (ends_answered rfl).mpr ?_
  rw [Looping.ends_bind]
  refine (ends_answered rfl).mpr ?_
  trivial

/-- A process is scanned to its end. -/
theorem ends_continueProcess {fuel : Nat}
    (enough : ∀ names, content.tasks pid = some names → (taskListing pid).length < fuel) :
    Looping.Ends (content.answer listing taskListing)
      (continueProcess fuel (content.observe scan pid))
      (fun outcome _ => outcome.isLeft = true) world := by
  rw [continueProcess, Looping.ends_bind]
  refine Looping.ends_mono (ends_enumerateCurrentTids enough) fun found middle complete => ?_
  obtain ⟨listed, current⟩ := found
  obtain rfl : listed = true := complete
  dsimp only
  rw [if_neg (show ¬ true = false by decide), Looping.ends_bind]
  refine Looping.ends_mono (ends_readThreads _ _) fun found after complete => ?_
  obtain ⟨finished, current⟩ := found
  obtain rfl : finished = true := complete
  dsimp only
  rw [if_neg (show ¬ true = false by decide)]
  exact ends_verifyProcess current

/-- Fuel for every loop of a scan. -/
structure Fits (content : ScanContent) (fuel : Nat) : Prop where
  /-- The entries of `/proc`. -/
  entries : content.entries.length < fuel
  /-- The processes. -/
  pids : content.pidList.length < fuel
  /-- The entries of task directories. -/
  tasks : ∀ pid ∈ content.pidList, ((content.tasks pid).getD []).length < fuel

/-- The longest task directory of some processes. -/
def mostTasks (content : ScanContent) : List Int → Nat
  | [] => 0
  | pid :: rest => max ((content.tasks pid).getD []).length (content.mostTasks rest)

theorem le_mostTasks {pids : List Int} (member : pid ∈ pids) :
    ((content.tasks pid).getD []).length ≤ content.mostTasks pids := by
  induction pids with
  | nil => cases member
  | cons first rest ih =>
    rw [mostTasks]
    rcases List.mem_cons.mp member with rfl | later
    · exact Nat.le_max_left _ _
    · exact (ih later).trans (Nat.le_max_right _ _)

/-- The fuel a scan needs. -/
def enough (content : ScanContent) : Nat :=
  max content.entries.length (max content.pidList.length (content.mostTasks content.pidList))

/-- More fuel than a scan needs fits. -/
theorem fits_of_enough {fuel : Nat} (more : content.enough < fuel) : content.Fits fuel := by
  unfold enough at more
  constructor
  · omega
  · omega
  · intro pid member
    have bound : ((content.tasks pid).getD []).length ≤ content.mostTasks content.pidList :=
      le_mostTasks member
    omega

/-- One process is scanned, or the scan is finished. -/
theorem ends_scanNext (lists : content.Lists listing taskListing) {fuel : Nat}
    (fits : content.Fits fuel) (bound : count ≤ content.pidList.length) :
    Looping.Ends (content.answer listing taskListing)
      (scanNext fuel (content.scanned (.beginFrom cache priorStates) count))
      (fun outcome _ =>
        (outcome = .inl (content.scanned (.beginFrom cache priorStates) (count + 1)) ∧
            count < content.pidList.length) ∨
          outcome = .inr (true, content.scanned (.beginFrom cache priorStates) count)) world := by
  have finishes : Looping.Ends (content.answer listing taskListing)
      (scanNext fuel (content.scanned (.beginFrom cache priorStates) count))
      (fun outcome _ => ∀ next, outcome ≠ .inr (false, next)) world := by
    have idle : Idle content (.beginFrom cache priorStates) count
        (content.scanned (.beginFrom cache priorStates) count) := idle_scanned rfl bound
    rw [scanNext]
    cases found : (content.scanned (.beginFrom cache priorStates) count).pids[
        (content.scanned (.beginFrom cache priorStates) count).pidIndex]? with
    | none =>
      intro next same
      cases same
    | some pid =>
      rw [idle.pids, idle.pidIndex] at found
      have other : (content.scanned (.beginFrom cache priorStates) count).currentPid ≠ pid := by
        have positive := pos_of_found found
        rw [idle.currentPid]
        omega
      dsimp only
      rw [Looping.ends_bind, ends_budgetExhausted, if_neg Bool.false_ne_true, if_neg other,
        Looping.ends_bind]
      refine Looping.ends_mono (Looping.ends_and_wp (step_of_answer lists)
        (ends_readProcess _ pid) (wp_readProcess _ pid)) fun found after reached => ?_
      obtain ⟨-, -, rfl | ⟨observed, rfl⟩⟩ := reached
      · intro next same
        cases same
      · have listed : ∀ names, content.tasks pid = some names →
            (taskListing pid).length < fuel := by
          intro names opened
          have bound := fits.tasks pid (List.mem_of_getElem? found)
          rw [opened] at bound
          rw [(lists.task pid names opened).length_eq]
          exact bound
        refine Looping.ends_mono (ends_continueProcess listed) fun outcome last left => ?_
        intro next same
        rw [same] at left
        cases left
  refine Looping.ends_mono (Looping.ends_and_wp (step_of_answer lists) finishes
    (wp_scanNext fuel rfl rfl bound .between)) fun outcome after reached => ?_
  obtain ⟨uncut, -, more | ⟨rfl, -⟩ | ⟨next, same, -⟩⟩ := reached
  · exact .inl more
  · exact .inr rfl
  · exact absurd same (uncut next)

/-- The processes are scanned. -/
theorem ends_scanRest (lists : content.Lists listing taskListing) {fuel : Nat}
    (fits : content.Fits fuel) :
    Looping.Ends (content.answer listing taskListing)
      (Looping.loop (scanNext fuel) fuel (content.enumerated (.beginFrom cache priorStates)))
      (fun found _ => found.1 = true) world := by
  refine Looping.ends_loop
    (fun current _ => ∃ count, count ≤ content.pidList.length ∧
      current = content.scanned (.beginFrom cache priorStates) count)
    (fun current _ => content.pidList.length - current.pidIndex) ?_
    ⟨0, Nat.zero_le _, rfl⟩ ?_
  · rintro current state ⟨count, bound, rfl⟩
    refine Looping.ends_mono (ends_scanNext lists fits bound) fun outcome after reached => ?_
    rcases reached with ⟨rfl, more⟩ | rfl
    · have position : (content.scanned (.beginFrom cache priorStates) count).pidIndex =
          0 + count := (idle_scanned rfl bound).pidIndex
      have next : (content.scanned (.beginFrom cache priorStates) (count + 1)).pidIndex =
          0 + (count + 1) := (idle_scanned rfl more).pidIndex
      refine ⟨⟨count + 1, more, rfl⟩, ?_⟩
      rw [position, next]
      omega
    · exact rfl
  · exact Nat.lt_of_le_of_lt (Nat.sub_le _ _) fits.pids

/-- One pass without a limit finishes the scan. -/
theorem ends_advanceFullScan (lists : content.Lists listing taskListing) {fuel : Nat}
    (fits : content.Fits fuel) :
    Looping.Ends (content.answer listing taskListing)
      (advanceFullScan fuel (.beginFrom cache priorStates))
      (fun found _ => found.1 = true) world := by
  have active : (FullScanState.beginFrom cache priorStates).active = true := rfl
  rw [advanceFullScan, if_neg (by rw [active]; decide), Looping.ends_bind]
  refine Looping.ends_mono (ends_enumeratePids lists fits.entries) fun found middle listed => ?_
  obtain rfl := listed
  dsimp only
  rw [if_neg (show ¬ true = false by decide), Looping.ends_bind]
  refine Looping.ends_mono (ends_scanRest lists fits) fun found after complete => ?_
  obtain ⟨finished, scan⟩ := found
  obtain rfl : finished = true := complete
  dsimp only
  rw [if_neg (show ¬ true = false by decide), Looping.ends_bind]
  refine (ends_answered rfl).mpr ?_
  exact rfl

/-- For every `/proc` that stays as it is and every way to cut the scan: when a call reports that
the scan is finished, a single call without a limit on its budget finishes too, whatever the order
it reads the directories in, and leaves the same state and the same cache. -/
theorem budgeted_eq_unlimited {initial after : ScanWorld} {last : FullScanState} {fuel : Nat}
    (reached : content.Reaches priorStates initial scan world)
    (run : Program.Run content.machine.withSpin (advanceFullScan fuel scan) world
      (true, last) after)
    (lists : content.Lists listing taskListing) {supply : Nat} (more : content.enough < supply) :
    ∃ final, Program.exec (S := SysSig.withSpin)
        (Looping.respondWithSpin (content.answer listing taskListing))
        (advanceFullScan supply (.beginFrom initial.cache priorStates)) initial =
      some ((true, last), final) ∧ final.cache = after.cache := by
  obtain ⟨kept, stands⟩ := reached.between
  obtain ⟨whole, retained⟩ := (run.post (wp_advanceFullScan fuel stands)).1 rfl
  have fresh : Between content (.beginFrom initial.cache priorStates)
      (.beginFrom initial.cache priorStates) initial :=
    .enumerating fun impossible => absurd impossible Bool.false_ne_true
  have finishes : Looping.Ends (content.answer listing taskListing)
      (advanceFullScan supply (.beginFrom initial.cache priorStates))
      (fun found _ => found.1 = true) initial :=
    ends_advanceFullScan lists (fits_of_enough more)
  have unlimited := Looping.ends_and_wp (step_of_answer lists) finishes
    (wp_advanceFullScan supply fresh)
  obtain ⟨⟨finished, found⟩, final, executed, complete, results, -⟩ :=
    Program.ends_iff_exec.mp unlimited
  obtain rfl : finished = true := complete
  obtain ⟨same, cached⟩ := results rfl
  have same : found = last := same.trans whole.symm
  refine ⟨final, ?_, ?_⟩
  · rw [← same]
    exact executed
  · rw [cached, retained, kept]
    exact congrArg (fun scan => initial.cache.retainLiveThreads (FullScanState.findings scan)) same

/-! ## A scan that is cut -/

/-- A `/proc` with one process, which is the top application. -/
def lonely : ScanContent where
  toProcContent := .lonely
  entries := [Bytes.ascii "self", Bytes.ascii "7"]
  cgroup _ := ⟨.top, false⟩
  matchProcess _ _ state _ := { effectiveState := state }

/-- The answers when the budget has ended. -/
def answerExhausted (content : ScanContent) (listing : List Bytes)
    (taskListing : Int → List Bytes) :
    ScanWorld → (operation : SysOp) → Option (SysSig.Res operation × ScanWorld)
  | world, .budgetExhausted => some (true, world)
  | world, operation => content.answer listing taskListing world operation

/-- The budget may have ended. -/
theorem step_of_answerExhausted (lists : content.Lists listing taskListing) {after : ScanWorld}
    {operation : SysOp} {response : SysSig.Res operation}
    (answered : content.answerExhausted listing taskListing world operation =
      some (response, after)) : content.machine.step world operation response after := by
  cases operation with
  | budgetExhausted =>
    cases answered
    exact rfl
  | _ => exact step_of_answer lists answered

/-- The entries of the directories in their order. -/
theorem lists_lonely : lonely.Lists lonely.entries fun pid => (lonely.tasks pid).getD [] where
  proc := .refl _
  task pid names found := by rw [found, Option.getD_some]

/-- A scan that is cut before it reads an entry of `/proc` finds the process in its second
pass. -/
theorem budgeted_eq_unlimited_lonely : ∃ last final, last.topAppPids = {7} ∧
    Program.exec (S := SysSig.withSpin)
        (Looping.respondWithSpin (lonely.answer lonely.entries fun pid => (lonely.tasks pid).getD []))
        (advanceFullScan 5 (.beginFrom ∅ ∅)) {} = some ((true, last), final) := by
  have passes : ((Program.exec (S := SysSig.withSpin)
      (Looping.respondWithSpin
        (lonely.answerExhausted lonely.entries fun pid => (lonely.tasks pid).getD []))
      (advanceFullScan 5 (.beginFrom ∅ ∅)) {}).bind fun found =>
        (Program.exec (S := SysSig.withSpin)
          (Looping.respondWithSpin
            (lonely.answer lonely.entries fun pid => (lonely.tasks pid).getD []))
          (advanceFullScan 5 found.1.2) found.2).map fun next =>
            (found.1.1, next.1.1, next.1.2.topAppPids)) =
      some (false, true, {7}) := by decide +kernel
  obtain ⟨⟨⟨cut, scan⟩, world⟩, first, rest⟩ := Option.bind_eq_some_iff.mp passes
  obtain ⟨⟨⟨finished, last⟩, after⟩, second, seen⟩ := Option.map_eq_some_iff.mp rest
  obtain ⟨unfinished, seen⟩ := Prod.mk.inj seen
  obtain ⟨complete, found⟩ := Prod.mk.inj seen
  obtain rfl : cut = false := unfinished
  obtain rfl : finished = true := complete
  have reached : lonely.Reaches ∅ {} scan world :=
    .pass .start (Looping.run_of_exec (step_of_answerExhausted lists_lonely) first)
  obtain ⟨final, executed, -⟩ := budgeted_eq_unlimited reached
    (Looping.run_of_exec (step_of_answer lists_lonely) second) lists_lonely
    (show lonely.enough < 5 by decide +kernel)
  exact ⟨last, final, found, executed⟩

end ScanContent

end ReUperf
