import ReUperf.Lib.Trace
import ReUperf.Verif.CallMachine

/-!
# Revalidation of the identity

A task checks its identity by three reads before it changes a thread. The module follows the
operations of a task and tells at which attempts that check is fresh. Two setters make a second
attempt on the strength of one check: the repeated write to a cpuset group, and the nice value
set after a policy. These are the only ones.
-/

namespace ReUperf

open Effect FileUtils ScanWorker

/-- Whether an operation changes a thread or pauses. -/
def SysOp.disturbs : SysOp → Bool
  | .attempt _ _ => true
  | .sleep _ => true
  | _ => false

namespace Revalidation

variable {identity : Identity}

/-- The reads of a successful check. -/
def check (identity : Identity) (use : ReadUse) : List (Event SysSig) :=
  [⟨.processStartTime use identity.pid, identity.processStartTime⟩,
    ⟨.threadStartTime use identity.pid identity.tid, identity.threadStartTime⟩,
    ⟨.threadInProcess use identity.pid identity.tid, true⟩]

/-- A check succeeded, and nothing disturbed the thread since. -/
def Fresh (identity : Identity) (trace : List (Event SysSig)) : Prop :=
  ∃ earlier use between, trace = earlier ++ check identity use ++ between ∧
    ∀ event ∈ between, event.1.disturbs = false

/-- After a trace, every attempt of the rest is made while the check is fresh. -/
def Revalidated (identity : Identity) : List (Event SysSig) → List (Event SysSig) → Prop
  | _, [] => True
  | trace, event :: rest => (event.1.isAttempt = true → Fresh identity trace) ∧
    Revalidated identity (trace ++ [event]) rest

/-- A successful check is fresh. -/
theorem fresh_check (trace : List (Event SysSig)) (use : ReadUse) :
    Fresh identity (trace ++ check identity use) :=
  ⟨trace, use, [], by rw [List.append_nil], by simp⟩

/-- An operation that disturbs nothing keeps a check fresh. -/
theorem Fresh.append {trace rest : List (Event SysSig)} (fresh : Fresh identity trace)
    (calm : ∀ event ∈ rest, event.1.disturbs = false) : Fresh identity (trace ++ rest) := by
  obtain ⟨earlier, use, between, rfl, quiet⟩ := fresh
  refine ⟨earlier, use, between ++ rest, by rw [List.append_assoc], fun event member => ?_⟩
  rcases List.mem_append.mp member with here | there
  · exact quiet event here
  · exact calm event there

/-- An operation that only looks disturbs nothing. -/
theorem undisturbed (operation : SysOp) (looks : operation.looks = true) :
    operation.disturbs = false := by
  cases operation <;> first | rfl | cases looks

/-- An operation that disturbs nothing attempts nothing. -/
theorem unattempted (operation : SysOp) (calm : operation.disturbs = false) :
    operation.isAttempt = false := by
  cases operation <;> first | rfl | cases calm

/-- No check is fresh after a disturbance. -/
theorem not_fresh_of_disturbs {trace : List (Event SysSig)} {event : Event SysSig}
    (disturbs : event.1.disturbs = true) : ¬ Fresh identity (trace ++ [event]) := by
  rintro ⟨earlier, use, between, same, quiet⟩
  rcases List.eq_nil_or_concat' between with rfl | ⟨start, last, rfl⟩
  · -- The trace ends with the check, whose last read disturbs nothing.
    rw [List.append_nil] at same
    have ends : (trace ++ [event]).getLast? = (earlier ++ check identity use).getLast? :=
      congrArg List.getLast? same
    rw [List.getLast?_append, List.getLast?_append] at ends
    have equal : event = ⟨.threadInProcess use identity.pid identity.tid, true⟩ :=
      Option.some.inj ends
    rw [equal] at disturbs
    cases disturbs
  · rw [← List.append_assoc] at same
    obtain ⟨_, equal⟩ := List.append_inj' same rfl
    obtain rfl := List.singleton_inj.mp equal
    have calm := quiet event (by simp)
    rw [disturbs] at calm
    cases calm

/-- The law holds of a sequence when it holds of both parts. -/
theorem revalidated_append {trace first second : List (Event SysSig)} :
    Revalidated identity trace (first ++ second) ↔
      Revalidated identity trace first ∧ Revalidated identity (trace ++ first) second := by
  induction first generalizing trace with
  | nil => simp [Revalidated]
  | cons event rest ih =>
    rw [List.cons_append, Revalidated, Revalidated, ih, List.append_assoc, and_assoc]
    rfl

/-- The law holds of operations that attempt nothing. -/
theorem revalidated_of_calm {trace rest : List (Event SysSig)}
    (calm : ∀ event ∈ rest, event.1.isAttempt = false) : Revalidated identity trace rest := by
  induction rest generalizing trace with
  | nil => trivial
  | cons event rest ih =>
    refine ⟨fun attempts => ?_, ih fun other member => calm other (List.mem_cons_of_mem _ member)⟩
    rw [calm event List.mem_cons_self] at attempts
    cases attempts

/-! ## Programs -/

section Programs

variable {S : Signature} {handler : (operation : S.Op) → SysProgram (S.Res operation)}
  {fine : Expansion handler → Prop} {α β : Type}

/-- In every run the law holds exactly when every call is fine. The program may assume a fresh
check at its start when it needs one. -/
def Obeys (identity : Identity) (fine : Expansion handler → Prop) (needs : Prop)
    (program : Program S α) : Prop :=
  ∀ trace, (needs → Fresh identity trace) → ∀ (steps : List (Expansion handler)) (value : α),
    program.Produces (steps.map Expansion.event) value →
      (Revalidated identity trace (Expansion.flatten steps) ↔ ∀ step ∈ steps, fine step)

/-- Every call the program makes is fine and attempts nothing, and a true value comes with a
fresh check. -/
def Checks (identity : Identity) (fine : Expansion handler → Prop) (program : Program S Bool) :
    Prop :=
  ∀ trace (steps : List (Expansion handler)) (value : Bool),
    program.Produces (steps.map Expansion.event) value →
      Revalidated identity trace (Expansion.flatten steps) ∧ (∀ step ∈ steps, fine step) ∧
        (value = true → Fresh identity (trace ++ Expansion.flatten steps))

variable {identity : Identity} {needs : Prop}

/-- Returning a value obeys. -/
theorem obeys_pure (value : α) : Obeys identity fine needs (pure value : Program S α) := by
  rintro trace _ steps result ⟨none, _⟩
  obtain rfl := List.map_eq_nil_iff.mp none
  simp [Revalidated]

/-- A program that needs nothing may be given something. -/
theorem Obeys.anyway {program : Program S α} (obeys : Obeys identity fine False program) :
    Obeys identity fine needs program :=
  fun trace _ => obeys trace False.elim

/-- Sequencing obeys. -/
theorem Obeys.bind {program : Program S α} {rest : α → Program S β}
    (first : Obeys identity fine needs program)
    (second : ∀ value, Obeys identity fine False (rest value)) :
    Obeys identity fine needs (program >>= rest) := by
  intro trace fresh steps value produced
  obtain ⟨before, middle, after, same, head, tail⟩ := Program.produces_bind.mp produced
  obtain ⟨front, back, rfl, rfl, rfl⟩ := List.map_eq_append_iff.mp same
  rw [Expansion.flatten_append, revalidated_append, first trace fresh front middle head,
    second middle _ False.elim back value tail, List.forall_mem_append]

/-- A branch obeys. -/
theorem Obeys.ite {condition : Prop} [Decidable condition] {left right : Program S α}
    (first : condition → Obeys identity fine needs left)
    (second : ¬ condition → Obeys identity fine needs right) :
    Obeys identity fine needs (if condition then left else right) := by
  split
  · exact first ‹_›
  · exact second ‹_›

/-- What follows a successful check may need a fresh one. -/
theorem Checks.guard {program : Program S Bool} {left right : Program S α}
    (checks : Checks identity fine program) (first : Obeys identity fine True left)
    (second : Obeys identity fine False right) :
    Obeys identity fine needs (program >>= fun ok => if ok = true then left else right) := by
  intro trace _ steps value produced
  obtain ⟨before, middle, after, same, head, tail⟩ := Program.produces_bind.mp produced
  obtain ⟨front, back, rfl, rfl, rfl⟩ := List.map_eq_append_iff.mp same
  obtain ⟨lawful, allFine, checked⟩ := checks trace front middle head
  rw [Expansion.flatten_append, revalidated_append, List.forall_mem_append,
    and_iff_right lawful, and_iff_right allFine]
  split at tail
  · exact first _ (fun _ => checked ‹_›) back value tail
  · exact second _ False.elim back value tail

/-- A check obeys. -/
theorem Checks.obeys {program : Program S Bool} (checks : Checks identity fine program) :
    Obeys identity fine needs program := by
  intro trace _ steps value produced
  obtain ⟨lawful, allFine, _⟩ := checks trace steps value produced
  exact iff_of_true lawful allFine

/-- One call obeys when the law holds of its operations exactly when it is fine. -/
theorem obeys_op {operation : S.Op}
    (lawful : ∀ trace, (needs → Fresh identity trace) → ∀ step : Expansion handler,
      step.operation = operation → (Revalidated identity trace step.inner ↔ fine step)) :
    Obeys identity fine needs (Program.op operation) := by
  intro trace fresh steps value produced
  rw [Program.produces_op] at produced
  obtain ⟨step, rest, rfl, same, none⟩ := List.map_eq_cons_iff.mp produced
  obtain rfl := List.map_eq_nil_iff.mp none
  have operated : step.operation = operation := congrArg Sigma.fst same
  rw [Expansion.flatten_cons, Expansion.flatten_nil, List.append_nil, List.forall_mem_singleton]
  exact lawful trace fresh step operated

/-- The operations of every run are told by its value, and every call is fine. -/
def Emits (fine : Expansion handler → Prop) (program : Program S α)
    (trace : α → List (Event SysSig)) : Prop :=
  ∀ (steps : List (Expansion handler)) (value : α),
    program.Produces (steps.map Expansion.event) value →
      Expansion.flatten steps = trace value ∧ ∀ step ∈ steps, fine step

/-- Returning a value emits nothing. -/
theorem emits_pure (value : α) : Emits fine (pure value : Program S α) fun _ => [] := by
  rintro steps result ⟨none, _⟩
  obtain rfl := List.map_eq_nil_iff.mp none
  exact ⟨rfl, by simp⟩

/-- A read is made when its IDs are valid. -/
def readTrace (valid : Bool) (event : Event SysSig) : List (Event SysSig) :=
  if valid then [event] else []

/-- A read of any other kind attempts nothing. -/
theorem revalidated_readTrace {trace : List (Event SysSig)} {valid : Bool} {event : Event SysSig}
    (calm : event.1.isAttempt = false) : Revalidated identity trace (readTrace valid event) := by
  apply revalidated_of_calm
  intro other listed
  unfold readTrace at listed
  split at listed
  · rw [List.mem_singleton.mp listed]
    exact calm
  · cases listed

/-- A guarded read emits itself when its guard holds. -/
theorem emits_read {valid : Bool} {program : Program S α} {unread : α} {event : α → Event SysSig}
    (emits : Emits fine program fun found => [event found]) :
    Emits fine (if valid = true then program else pure unread)
      fun found => readTrace valid (event found) := by
  intro steps value produced
  cases valid with
  | true => exact emits steps value produced
  | false =>
    obtain ⟨none, _⟩ := produced
    obtain rfl := List.map_eq_nil_iff.mp none
    exact ⟨rfl, by simp⟩

/-- Three reads, of which the last can succeed only when all are made, check the identity. -/
theorem checks_of_reads (use : ReadUse) {first second : Program S Nat} {third : Program S Bool}
    (process : Emits fine first fun found =>
      readTrace (isValidId identity.pid) ⟨.processStartTime use identity.pid, found⟩)
    (thread : Emits fine second fun found =>
      readTrace (isValidId identity.pid && isValidId identity.tid)
        ⟨.threadStartTime use identity.pid identity.tid, found⟩)
    (member : Emits fine third fun found =>
      readTrace (isValidId identity.pid && isValidId identity.tid)
        ⟨.threadInProcess use identity.pid identity.tid, found⟩)
    (guarded : (isValidId identity.pid && isValidId identity.tid) = false →
      ∀ trace, ¬ third.Produces trace true) :
    Checks identity fine (do
      if (← first) = identity.processStartTime then
        if (← second) = identity.threadStartTime then third else pure false
      else pure false) := by
  intro trace steps value produced
  obtain ⟨before, started, after, same, head, tail⟩ := Program.produces_bind.mp produced
  obtain ⟨front, back, rfl, rfl, rfl⟩ := List.map_eq_append_iff.mp same
  obtain ⟨firstTrace, firstFine⟩ := process front started head
  rw [Expansion.flatten_append, revalidated_append, List.forall_mem_append, firstTrace]
  split at tail
  · rename_i sameProcess
    obtain ⟨before, began, after, same, head, tail⟩ := Program.produces_bind.mp tail
    obtain ⟨middle, last, rfl, rfl, rfl⟩ := List.map_eq_append_iff.mp same
    obtain ⟨secondTrace, secondFine⟩ := thread middle began head
    rw [Expansion.flatten_append, revalidated_append, List.forall_mem_append, secondTrace]
    split at tail
    · rename_i sameThread
      obtain ⟨thirdTrace, thirdFine⟩ := member last value tail
      rw [thirdTrace]
      refine ⟨⟨revalidated_readTrace rfl, revalidated_readTrace rfl, revalidated_readTrace rfl⟩,
        ⟨firstFine, secondFine, thirdFine⟩, ?_⟩
      rintro rfl
      cases valid : isValidId identity.pid && isValidId identity.tid with
      | false => exact absurd tail (guarded valid _)
      | true =>
        have validPid : isValidId identity.pid = true := (Bool.and_eq_true_iff.mp valid).1
        simp only [readTrace, validPid, if_true, sameProcess, sameThread]
        exact fresh_check trace use
    · obtain ⟨none, rfl⟩ := tail
      obtain rfl := List.map_eq_nil_iff.mp none
      exact ⟨⟨revalidated_readTrace rfl, revalidated_readTrace rfl, trivial⟩,
        ⟨firstFine, secondFine, by simp⟩, nofun⟩
  · obtain ⟨none, rfl⟩ := tail
    obtain rfl := List.map_eq_nil_iff.mp none
    exact ⟨⟨revalidated_readTrace rfl, trivial⟩, ⟨firstFine, by simp⟩, nofun⟩

end Programs

/-! ## The takeover -/

section Takeover

/-- One system operation as a call that performs itself. -/
abbrev SysStep : Type := Expansion (S := SysSig) (T := SysSig) perform

/-- A single operation is its own trace. -/
theorem inner_perform (step : SysStep) : step.inner = [step.event] := by
  have produced := step.produced
  rw [perform, Program.produces_op] at produced
  exact produced

/-- Every trace of system operations is made of such steps. -/
theorem exists_steps (trace : List (Event SysSig)) : ∃ steps : List SysStep,
    steps.map Expansion.event = trace ∧ Expansion.flatten steps = trace := by
  induction trace with
  | nil => exact ⟨[], rfl, rfl⟩
  | cons event rest ih =>
    obtain ⟨steps, events, flat⟩ := ih
    refine ⟨⟨event.1, event.2, [event], Program.produces_op.mpr rfl⟩ :: steps, ?_, ?_⟩
    · rw [List.map_cons, events]
      rfl
    · rw [Expansion.flatten_cons, flat]
      rfl

/-- A refused write of the thread's ID to a cpuset group. -/
def refused (identity : Identity) (path : Bytes) : Event SysSig :=
  ⟨.attempt identity (.tasks path), false⟩

/-- A step that is no refused write to the group, unless such writes are not repeated. -/
def NotRepeated (timing : TimingConfig) (identity : Identity) (cpumaskName : Bytes)
    (step : SysStep) : Prop :=
  timing.cpusetRetryCount.toNat < 2 ∨
    step.event ≠ refused identity (CpusetSetter.targetPath cpumaskName)

variable {timing : TimingConfig} {cpumaskName : Bytes} {needs : Prop} {α : Type}

/-- An operation that attempts nothing is no refused write. -/
theorem notRepeated_of_calm {step : SysStep}
    (calm : step.operation.isAttempt = false) : NotRepeated timing identity cpumaskName step := by
  right
  intro same
  have operated : step.operation = .attempt identity (.tasks (CpusetSetter.targetPath cpumaskName)) :=
    congrArg Sigma.fst same
  rw [operated] at calm
  cases calm

/-- A program that disturbs nothing keeps a check fresh, and what follows it may need one. -/
theorem Obeys.afterCalm {β : Type} {program : SysProgram α} {rest : α → SysProgram β}
    (calm : program.Calls (SysOp.disturbs · = false))
    (second : ∀ value, Obeys identity (NotRepeated timing identity cpumaskName) needs (rest value)) :
    Obeys identity (NotRepeated timing identity cpumaskName) needs (program >>= rest) := by
  intro trace fresh steps value produced
  obtain ⟨before, middle, after, same, head, tail⟩ := Program.produces_bind.mp produced
  obtain ⟨front, back, rfl, rfl, rfl⟩ := List.map_eq_append_iff.mp same
  have quiet : ∀ step ∈ front, step.operation.disturbs = false := by
    intro step listed
    exact calm.of_produces head step.event (List.mem_map_of_mem listed)
  have quietTrace : ∀ event ∈ Expansion.flatten front, event.1.disturbs = false := by
    intro event listed
    obtain ⟨step, member, inside⟩ := List.mem_flatMap.mp listed
    rw [inner_perform] at inside
    rw [List.mem_singleton.mp inside]
    exact quiet step member
  rw [Expansion.flatten_append, revalidated_append, List.forall_mem_append,
    and_iff_right (revalidated_of_calm fun event listed =>
      unattempted event.1 (quietTrace event listed)),
    and_iff_right (fun step listed => notRepeated_of_calm (unattempted _ (quiet step listed)))]
  exact second middle _ (fun needed => (fresh needed).append quietTrace) back value tail

/-- A program that disturbs nothing obeys. -/
theorem obeys_of_calm {program : SysProgram α}
    (calm : program.Calls (SysOp.disturbs · = false)) :
    Obeys identity (NotRepeated timing identity cpumaskName) needs program := by
  have obeys := Obeys.afterCalm calm fun value : α =>
    (obeys_pure value : Obeys identity (NotRepeated timing identity cpumaskName) needs _)
  rwa [show (program >>= fun value => pure value) = program from Program.bind_ret program] at obeys

/-- One attempt after a fresh check obeys unless it is a write to the group. -/
theorem obeys_attempt {change : Attempt}
    (other : change ≠ .tasks (CpusetSetter.targetPath cpumaskName)) :
    Obeys identity (NotRepeated timing identity cpumaskName) True
      (perform (.attempt identity change)) := by
  refine obeys_op fun trace fresh step operated => ?_
  rw [inner_perform]
  refine iff_of_true ⟨fun _ => fresh trivial, trivial⟩ (.inr fun same => ?_)
  have operation : step.operation = .attempt identity (.tasks (CpusetSetter.targetPath cpumaskName)) :=
    congrArg Sigma.fst same
  rw [operated] at operation
  cases operation
  exact other rfl

/-- The steps of a system program perform its trace. -/
theorem flatten_perform (steps : List SysStep) :
    Expansion.flatten steps = steps.map Expansion.event := by
  induction steps with
  | nil => rfl
  | cons step rest ih =>
    rw [Expansion.flatten_cons, ih, inner_perform]
    rfl

/-- One read emits itself. -/
theorem emits_perform {operation : SysOp} (calm : operation.isAttempt = false) :
    Emits (NotRepeated timing identity cpumaskName) (perform operation)
      fun found => [⟨operation, found⟩] := by
  intro steps value produced
  rw [flatten_perform]
  refine ⟨Program.produces_op.mp produced, fun step member => notRepeated_of_calm ?_⟩
  have performed : step.event ∈ steps.map Expansion.event := List.mem_map_of_mem member
  rw [Program.produces_op.mp produced, List.mem_singleton] at performed
  have operated : step.operation = operation := congrArg Sigma.fst performed
  rw [operated]
  exact calm

/-- The check between two steps of the takeover. -/
theorem checks_identityMatches (use : ReadUse) :
    Checks identity (NotRepeated timing identity cpumaskName) (identityMatches use identity) := by
  apply checks_of_reads use
  · exact emits_read (emits_perform rfl)
  · exact emits_read (emits_perform rfl)
  · exact emits_read (emits_perform rfl)
  · intro invalid trace produced
    rw [isThreadInProcess, invalid] at produced
    obtain ⟨_, impossible⟩ := produced
    cases impossible

/-- Pinning the thread needs a fresh check. -/
theorem obeys_setAffinity (cpus : List Int) :
    Obeys identity (NotRepeated timing identity cpumaskName) True
      (CpuMask.setAffinity identity cpus) :=
  .ite (fun _ => obeys_pure true) fun _ => obeys_attempt nofun

/-- The parent is no group of a mask. -/
theorem parentPath_ne_targetPath :
    CpusetSetter.parentPath ≠ CpusetSetter.targetPath cpumaskName := by
  intro same
  have lengths := congrArg List.length same
  rw [CpusetSetter.targetPath, List.length_append] at lengths
  have shorter : CpusetSetter.parentPath.length <
      (Bytes.ascii "/dev/cpuset/top-app/ReUperf_").length := by decide
  omega

/-- Moving the thread to the parent needs a fresh check. -/
theorem obeys_moveToTopAppParent :
    Obeys identity (NotRepeated timing identity cpumaskName) True
      (CpusetSetter.moveToTopAppParent identity) := by
  refine .ite (fun _ => obeys_pure false) fun _ => obeys_attempt fun same => ?_
  exact parentPath_ne_targetPath (Attempt.tasks.inj same)

/-- Asking whether the group is ready disturbs nothing. -/
theorem calm_isGroupReady (path : Bytes) :
    (CpusetSetter.isGroupReady path).Calls (SysOp.disturbs · = false) := by
  unfold CpusetSetter.isGroupReady
  refine .bind ((Program.calls_op _ _).mpr rfl) fun known => ?_
  cases known with
  | some ready => trivial
  | none =>
    refine .bind ((Program.calls_op _ _).mpr rfl) fun cpus => ?_
    refine .bind ((Program.calls_op _ _).mpr rfl) fun mems => ?_
    refine .bind ((Program.calls_op _ _).mpr rfl) fun tasksReady => ?_
    exact .bind ((Program.calls_op _ _).mpr rfl) fun _ => trivial

/-- Reading the groups and the CPUs of the thread disturbs nothing. -/
theorem calm_verifyCpuset :
    (CpusetSetter.verifyCpuset identity cpumaskName).Calls (SysOp.disturbs · = false) := by
  unfold CpusetSetter.verifyCpuset getThreadCgroupPathsUncached
  exact .bind (.ite (fun _ => (Program.calls_op _ _).mpr rfl) fun _ => trivial) fun _ => trivial

/-- A repeated write to the group follows no fresh check. -/
theorem not_revalidated_writeTasks {path : Bytes} {remaining : Nat} {ok : Bool}
    {trace rest : List (Event SysSig)} (stale : ¬ Fresh identity trace)
    (produced : (CpusetSetter.writeTasks timing identity path (remaining + 1)).Produces rest ok) :
    ¬ Revalidated identity trace rest := by
  rw [CpusetSetter.writeTasks, Program.produces_bind] at produced
  obtain ⟨first, written, second, rfl, head, _⟩ := produced
  rw [Program.produces_op.mp head]
  rintro ⟨attempted, _⟩
  exact stale (attempted rfl)

/-- No check is fresh after a pause that follows a disturbance. -/
theorem not_fresh_pause {remaining : Nat} {trace rest : List (Event SysSig)}
    (stale : ¬ Fresh identity trace)
    (produced : (CpusetSetter.pauseBeforeRetry timing remaining).Produces rest ()) :
    ¬ Fresh identity (trace ++ rest) := by
  unfold CpusetSetter.pauseBeforeRetry at produced
  split at produced
  · rw [Program.produces_op.mp produced]
    exact not_fresh_of_disturbs rfl
  · rw [produced.1, List.append_nil]
    exact stale

/-- Writes to the group need a fresh check, and are fine when none is repeated. -/
theorem obeys_writeTasks :
    Obeys identity (NotRepeated timing identity cpumaskName) True
      (CpusetSetter.writeTasks timing identity (CpusetSetter.targetPath cpumaskName)
        timing.cpusetRetryCount.toNat) := by
  intro trace fresh steps value produced
  have fineIff : (∀ step ∈ steps, NotRepeated timing identity cpumaskName step) ↔
      timing.cpusetRetryCount.toNat < 2 ∨
        refused identity (CpusetSetter.targetPath cpumaskName) ∉ Expansion.flatten steps := by
    rw [flatten_perform]
    constructor
    · intro fine
      by_contra repeated
      rw [not_or, not_not] at repeated
      obtain ⟨step, member, same⟩ := List.mem_map.mp repeated.2
      exact (fine step member).elim repeated.1 fun other => other same
    · rintro (few | none) step member
      · exact .inl few
      · exact .inr fun same => none (same ▸ List.mem_map_of_mem member)
  rw [fineIff]
  rw [← flatten_perform] at produced
  clear fineIff
  generalize Expansion.flatten steps = rest at produced ⊢
  generalize timing.cpusetRetryCount.toNat = tries at produced ⊢
  cases tries with
  | zero =>
    -- Without a try the group is only forgotten.
    obtain ⟨first, _, second, rfl, head, none, _⟩ := Program.produces_bind.mp produced
    rw [Program.produces_op.mp head, none]
    exact iff_of_true ⟨nofun, trivial⟩ (.inl (by omega))
  | succ remaining =>
    rw [CpusetSetter.writeTasks, Program.produces_bind] at produced
    obtain ⟨first, written, second, rfl, head, tail⟩ := produced
    rw [Program.produces_op.mp head]
    cases written with
    | true =>
      obtain ⟨rfl, rfl⟩ := tail
      refine iff_of_true ⟨fun _ => fresh trivial, trivial⟩ (.inr ?_)
      simp [refused]
    | false =>
      obtain ⟨pause, _, writes, rfl, paused, wrote⟩ := Program.produces_bind.mp tail
      cases remaining with
      | zero =>
        -- The only try needs no pause and leaves the group forgotten.
        obtain ⟨rfl, _⟩ : pause = [] ∧ _ := paused
        obtain ⟨forgotten, _, last, rfl, forgets, rfl, _⟩ := Program.produces_bind.mp wrote
        rw [Program.produces_op.mp forgets]
        exact iff_of_true ⟨fun _ => fresh trivial, nofun, trivial⟩ (.inl (by omega))
      | succ remaining =>
        refine iff_of_false ?_ ?_
        · rintro ⟨_, later⟩
          have split : Revalidated identity _ (pause ++ writes) := later
          obtain ⟨_, repeated⟩ := revalidated_append.mp split
          exact not_revalidated_writeTasks (not_fresh_pause (not_fresh_of_disturbs rfl) paused)
            wrote repeated
        · rintro (few | none)
          · omega
          · exact none (by simp [refused])

/-- Moving the thread to the group needs a fresh check. -/
theorem obeys_moveToCpusetCgroup :
    Obeys identity (NotRepeated timing identity cpumaskName) True
      (CpusetSetter.moveToCpusetCgroup timing identity cpumaskName) := by
  unfold CpusetSetter.moveToCpusetCgroup
  refine .ite (fun _ => obeys_pure false) fun _ => .ite (fun _ => obeys_pure true) fun _ => ?_
  refine .afterCalm (calm_isGroupReady _) fun ready => ?_
  exact .ite (fun _ => obeys_writeTasks) fun _ => obeys_pure false

/-! The sequence checks the identity before each of its moves and pinnings. -/

variable {expectedCpus : List Int}

/-- The rest of the sequence may need a fresh check. -/
theorem obeys_whileIdentity {result : AffinityTakeoverResult}
    {rest : SysProgram AffinityTakeoverResult}
    (obeys : Obeys identity (NotRepeated timing identity cpumaskName) True rest) :
    Obeys identity (NotRepeated timing identity cpumaskName) needs
      ((CpusetSetter.takeoverOperations timing identity cpumaskName expectedCpus).whileIdentity
        result rest) :=
  (checks_identityMatches .skip).guard obeys (obeys_pure result)

/-- The end of an attempt obeys when another attempt does. -/
theorem obeys_finishAttempt {again : AffinityTakeoverResult → SysProgram AffinityTakeoverResult}
    (obeys : ∀ result, Obeys identity (NotRepeated timing identity cpumaskName) False
      (again result)) (result : AffinityTakeoverResult) :
    Obeys identity (NotRepeated timing identity cpumaskName) False
      ((CpusetSetter.takeoverOperations timing identity cpumaskName expectedCpus).finishAttempt
        again result) := by
  refine obeys_whileIdentity (.bind (obeys_setAffinity _) fun pinned => ?_)
  refine obeys_whileIdentity (.bind (obeys_of_calm calm_verifyCpuset) fun seen => ?_)
  have verified : Obeys identity (NotRepeated timing identity cpumaskName) False
      (CpusetSetter.verifyAffinity identity expectedCpus) :=
    .bind (obeys_of_calm ((looks_isAffinityChanged _ _).mono undisturbed)) fun changed => obeys_pure (!changed)
  exact .bind verified fun held => .ite (fun _ => obeys_pure _) fun _ => obeys _

/-- The recovery obeys when what follows it does. -/
theorem obeys_recover {finish : AffinityTakeoverResult → SysProgram AffinityTakeoverResult}
    (obeys : ∀ result, Obeys identity (NotRepeated timing identity cpumaskName) False
      (finish result)) (result : AffinityTakeoverResult) :
    Obeys identity (NotRepeated timing identity cpumaskName) False
      ((CpusetSetter.takeoverOperations timing identity cpumaskName expectedCpus).recover
        finish result) := by
  refine obeys_whileIdentity (.bind (obeys_setAffinity _) fun pinned => ?_)
  refine obeys_whileIdentity (.bind obeys_moveToTopAppParent fun parent => ?_)
  refine obeys_whileIdentity (.bind (obeys_setAffinity _) fun repinned => ?_)
  exact obeys_whileIdentity (.bind obeys_moveToCpusetCgroup fun moved => obeys _)

/-- The takeover makes its own checks. -/
theorem obeys_takeover :
    Obeys identity (NotRepeated timing identity cpumaskName) False
      (CpusetSetter.takeover timing identity cpumaskName expectedCpus) := by
  have runs : ∀ remaining result, Obeys identity (NotRepeated timing identity cpumaskName) False
      ((CpusetSetter.takeoverOperations timing identity cpumaskName expectedCpus).run
        remaining result) := by
    intro remaining
    induction remaining with
    | zero => exact fun result => obeys_pure result
    | succ remaining ih =>
      intro result
      refine obeys_whileIdentity (.bind (obeys_setAffinity _) fun pinned => ?_)
      refine obeys_whileIdentity (.bind obeys_moveToCpusetCgroup fun moved => ?_)
      exact .ite (fun _ => obeys_finishAttempt ih _)
        fun _ => obeys_recover (obeys_finishAttempt ih) _
  exact runs _ _

end Takeover

/-! ## The worker's calls -/

/-- A call of the worker with the operations it performed. -/
abbrev CallStep (timing : TimingConfig) : Type :=
  Expansion (S := CallSig) (T := SysSig) (expand timing)

/-- The call makes no second attempt on the strength of one check. A takeover repeats a refused
write unless it may write only once, and a nice value follows a policy that was set. -/
def Uninterrupted (timing : TimingConfig) (step : CallStep timing) : Prop :=
  match step.operation with
  | .setter (.takeover thread cpumaskName _) =>
    timing.cpusetRetryCount.toNat < 2 ∨
      refused thread (CpusetSetter.targetPath cpumaskName) ∉ step.inner
  | .setter (.setPriority thread prioValue) =>
    100 ≤ prioValue ∧ prioValue ≤ 139 →
      ⟨.attempt thread (.scheduler PrioritySetter.normalPolicy 0), true⟩ ∉ step.inner
  | .setter (.restoreScheduler thread baseline) =>
    PrioritySetter.isPlainPolicy baseline.policy = true →
      ⟨.attempt thread (.scheduler baseline.policy baseline.priority), true⟩ ∉ step.inner
  | _ => True

section Calls

variable {timing : TimingConfig} {needs : Prop} {α : Type}

/-- A call that attempts nothing obeys. -/
theorem obeys_calmCall {operation : CallOp}
    (calm : (expand timing operation).Calls (SysOp.isAttempt · = false))
    (plain : ∀ step : CallStep timing, step.operation = operation → Uninterrupted timing step) :
    Obeys identity (Uninterrupted timing) needs (Program.op (S := CallSig) operation) := by
  refine obeys_op fun trace _ step operated => iff_of_true ?_ (plain step operated)
  obtain ⟨performed, response, inner, produced⟩ := step
  obtain rfl : performed = operation := operated
  exact revalidated_of_calm (calm.of_produces produced)

/-- A cache call obeys. -/
theorem obeys_cacheCall (call : CacheCall) :
    Obeys identity (Uninterrupted timing) needs (cacheCall call) := by
  refine obeys_calmCall ((Program.calls_op _ _).mpr rfl) ?_
  rintro ⟨performed, response, inner, produced⟩ rfl
  trivial

/-- An operation that attempts nothing obeys. -/
theorem obeys_sysCall {operation : SysOp} (calm : operation.isAttempt = false) :
    Obeys identity (Uninterrupted timing) needs (sysCall operation) := by
  refine obeys_calmCall ((Program.calls_op _ _).mpr calm) ?_
  rintro ⟨performed, response, inner, produced⟩ rfl
  trivial

/-- One read of the worker emits itself. -/
theorem emits_sysCall {operation : SysOp} :
    Emits (Uninterrupted timing) (sysCall operation) fun found => [⟨operation, found⟩] := by
  intro steps value produced
  rw [Program.produces_op] at produced
  obtain ⟨step, rest, rfl, same, none⟩ := List.map_eq_cons_iff.mp produced
  obtain rfl := List.map_eq_nil_iff.mp none
  obtain ⟨performed, response, inner, performs⟩ := step
  cases same
  rw [Expansion.flatten_cons, Expansion.flatten_nil, List.append_nil, List.forall_mem_singleton]
  exact ⟨Program.produces_op.mp performs, trivial⟩

/-- The worker's check. -/
theorem checks_lift (use : ReadUse) :
    Checks identity (Uninterrupted timing) (lift (identityMatches use identity)) := by
  have guarded : ∀ {β : Type} {valid : Bool} {program : SysProgram β} {unread : β},
      lift (if valid = true then program else pure unread) =
        if valid = true then lift program else pure unread := by
    intro β valid program unread
    rw [lift, Program.interpret_ite, Program.interpret_pure]
  rw [Environment.lift_identityMatches, getProcessStartTime, getThreadStartTime, isThreadInProcess,
    guarded, guarded, guarded]
  apply checks_of_reads use
  · exact emits_read emits_sysCall
  · exact emits_read emits_sysCall
  · exact emits_read emits_sysCall
  · intro invalid trace produced
    rw [invalid] at produced
    obtain ⟨_, impossible⟩ := produced
    cases impossible

/-- What follows a check that erases the entry may need a fresh one. -/
theorem obeys_orDiscard {lost : α} {rest : CallProgram α}
    (obeys : Obeys identity (Uninterrupted timing) True rest) :
    Obeys identity (Uninterrupted timing) needs (orDiscard identity lost rest) :=
  (checks_lift .discard).guard obeys (.bind (obeys_cacheCall _) fun _ => obeys_pure lost)

/-- Reading the groups of a thread obeys. -/
theorem obeys_cgroupPaths (pid tid : Int) :
    Obeys identity (Uninterrupted timing) needs (lift (getThreadCgroupPathsUncached pid tid)) := by
  have shape : lift (getThreadCgroupPathsUncached pid tid) =
      if (isValidId pid && isValidId tid) = true then sysCall (.threadCgroupPaths pid tid)
      else pure {} := by
    rw [getThreadCgroupPathsUncached, lift, Program.interpret_ite, Program.interpret_op,
      Program.interpret_pure]
  rw [shape]
  exact .ite (fun _ => obeys_sysCall rfl) fun _ => obeys_pure _

/-! ### Setter calls -/

/-- An observing call obeys. -/
theorem obeys_observing {call : SetterCall} (observes : call.observes = true) :
    Obeys identity (Uninterrupted timing) needs (setterCall call) := by
  refine obeys_calmCall ((looks_expand observes).mono fun operation looks =>
    unattempted operation (undisturbed operation looks)) ?_
  rintro ⟨performed, response, inner, produced⟩ rfl
  cases call <;> trivial

/-- A takeover obeys, and needs no check before it. -/
theorem obeys_takeoverCall (cpumaskName : Bytes) (expectedCpus : List Int) :
    Obeys identity (Uninterrupted timing) needs
      (setterCall (.takeover identity cpumaskName expectedCpus)) := by
  refine Obeys.anyway (obeys_op ?_)
  rintro trace _ ⟨performed, response, inner, produced⟩ rfl
  obtain ⟨steps, made, flat⟩ := exists_steps inner
  have law := obeys_takeover trace False.elim steps response (made ▸ produced)
  rw [flat] at law
  show Revalidated identity trace inner ↔ timing.cpusetRetryCount.toNat < 2 ∨
    refused identity (CpusetSetter.targetPath cpumaskName) ∉ inner
  rw [law, ← made]
  constructor
  · intro fine
    by_contra repeated
    rw [not_or, not_not] at repeated
    obtain ⟨step, member, same⟩ := List.mem_map.mp repeated.2
    exact (fine step member).elim repeated.1 fun other => other same
  · rintro (few | none) step member
    · exact .inl few
    · exact .inr fun same => none (same ▸ List.mem_map_of_mem member)

/-- A single attempt under a guard needs a fresh check. -/
theorem revalidated_attempt {trace inner : List (Event SysSig)} {change : Attempt}
    {condition : Prop} [Decidable condition] {unmade response : Bool}
    (fresh : Fresh identity trace)
    (produced : (if condition then pure unmade else perform (.attempt identity change) :
      SysProgram Bool).Produces inner response) : Revalidated identity trace inner := by
  split at produced
  · rw [produced.1]
    trivial
  · rw [Program.produces_op.mp produced]
    exact ⟨fun _ => fresh, trivial⟩

/-- Moving the thread back to its cpuset group needs a fresh check. -/
theorem obeys_restoreCpusetCgroup (path : Bytes) :
    Obeys identity (Uninterrupted timing) True
      (setterCall (.restoreCpusetCgroup identity path)) := by
  refine obeys_op ?_
  rintro trace fresh ⟨performed, response, inner, produced⟩ rfl
  exact iff_of_true (revalidated_attempt (fresh trivial) produced) trivial

/-- Moving the thread back to its cpuctl group needs a fresh check. -/
theorem obeys_restoreCpuctlCgroup (path : Bytes) :
    Obeys identity (Uninterrupted timing) True
      (setterCall (.restoreCpuctlCgroup identity path)) := by
  refine obeys_op ?_
  rintro trace fresh ⟨performed, response, inner, produced⟩ rfl
  exact iff_of_true (revalidated_attempt (fresh trivial) produced) trivial

/-- Giving the thread its CPUs back needs a fresh check. -/
theorem obeys_restoreAffinity (cpus : List Int) :
    Obeys identity (Uninterrupted timing) True (setterCall (.restoreAffinity identity cpus)) := by
  refine obeys_op ?_
  rintro trace fresh ⟨performed, response, inner, produced⟩ rfl
  refine iff_of_true ?_ trivial
  show Revalidated identity trace inner
  have restored : (CpusetSetter.restoreAffinity identity cpus).Produces inner response := produced
  unfold CpusetSetter.restoreAffinity at restored
  split at restored
  · rw [restored.1]
    trivial
  · exact revalidated_attempt (fresh trivial) restored

/-- Moving the thread to a group that exists needs a fresh check. -/
theorem obeys_migrateThread (path : Bytes) :
    Obeys identity (Uninterrupted timing) True (setterCall (.migrateThread identity path)) := by
  refine obeys_op ?_
  rintro trace fresh ⟨performed, response, inner, produced⟩ rfl
  refine iff_of_true ?_ trivial
  obtain ⟨first, found, second, rfl, head, tail⟩ := Program.produces_bind.mp produced
  show Revalidated identity trace (first ++ second)
  rw [Program.produces_op.mp head]
  refine ⟨nofun, ?_⟩
  have still : Fresh identity (trace ++ [⟨.dirExists path, found⟩]) :=
    (fresh trivial).append fun event listed => by rw [List.mem_singleton.mp listed]; rfl
  split at tail
  · rw [Program.produces_op.mp tail]
    exact ⟨fun _ => still, trivial⟩
  · rw [tail.1]
    trivial

/-- A nice value follows a policy that was set on the strength of the same check. -/
theorem revalidated_setSchedulerThenNice {trace inner : List (Event SysSig)}
    {policy priority nice : Int} {response : Bool} (fresh : Fresh identity trace)
    (produced : (PrioritySetter.setSchedulerThenNice identity policy priority nice).Produces
      inner response) :
    Revalidated identity trace inner ↔
      ⟨.attempt identity (.scheduler policy priority), true⟩ ∉ inner := by
  obtain ⟨first, ok, second, rfl, head, tail⟩ := Program.produces_bind.mp produced
  rw [Program.produces_op.mp head]
  cases ok with
  | true =>
    rw [if_pos rfl] at tail
    rw [Program.produces_op.mp tail]
    refine iff_of_false ?_ fun none => none List.mem_cons_self
    rintro ⟨_, attempted, _⟩
    exact not_fresh_of_disturbs rfl (attempted rfl)
  | false =>
    rw [tail.1]
    refine iff_of_true ⟨fun _ => fresh, trivial⟩ ?_
    simp

/-- Giving the thread a priority needs a fresh check. -/
theorem obeys_setPriority (prioValue : Int) :
    Obeys identity (Uninterrupted timing) True (setterCall (.setPriority identity prioValue)) := by
  refine obeys_op ?_
  rintro trace fresh ⟨performed, response, inner, produced⟩ rfl
  show Revalidated identity trace inner ↔ (100 ≤ prioValue ∧ prioValue ≤ 139 →
    ⟨.attempt identity (.scheduler PrioritySetter.normalPolicy 0), true⟩ ∉ inner)
  have single : ∀ {change}, (perform (.attempt identity change)).Produces inner response →
      Revalidated identity trace inner := by
    intro change made
    rw [Program.produces_op.mp made]
    exact ⟨fun _ => fresh trivial, trivial⟩
  have unmade : ∀ {ok : Bool}, (pure ok : SysProgram Bool).Produces inner response →
      inner = [] := fun made => made.1
  have applied : (PrioritySetter.setPriority identity prioValue).Produces inner response :=
    produced
  unfold PrioritySetter.setPriority at applied
  split at applied
  · rw [unmade applied]
    exact iff_of_true trivial fun _ => by simp
  split at applied
  · rw [unmade applied]
    exact iff_of_true trivial fun _ => by simp
  split at applied
  · exact iff_of_true (single applied) fun nice => by omega
  split at applied
  · rename_i nice
    rw [forall_prop_of_true nice]
    exact revalidated_setSchedulerThenNice (fresh trivial) applied
  rename_i notNice
  refine iff_of_true ?_ fun nice => absurd nice notNice
  split at applied
  · exact single applied
  split at applied
  · exact single applied
  split at applied
  · exact single applied
  · rw [unmade applied]
    trivial

/-- Giving the thread its scheduler state back needs a fresh check. -/
theorem obeys_restoreScheduler (baseline : SchedulerBaseline) :
    Obeys identity (Uninterrupted timing) True
      (setterCall (.restoreScheduler identity baseline)) := by
  refine obeys_op ?_
  rintro trace fresh ⟨performed, response, inner, produced⟩ rfl
  show Revalidated identity trace inner ↔ (PrioritySetter.isPlainPolicy baseline.policy = true →
    ⟨.attempt identity (.scheduler baseline.policy baseline.priority), true⟩ ∉ inner)
  have restored : (PrioritySetter.restoreScheduler identity baseline).Produces inner response :=
    produced
  unfold PrioritySetter.restoreScheduler at restored
  split at restored
  · rw [restored.1]
    exact iff_of_true trivial fun _ => by simp
  split at restored
  · rename_i plain
    rw [forall_prop_of_true plain]
    exact revalidated_setSchedulerThenNice (fresh trivial) restored
  · rename_i realtime
    rw [Program.produces_op.mp restored]
    exact iff_of_true ⟨fun _ => fresh trivial, trivial⟩ fun plain => absurd plain realtime

end Calls

/-! ## Tasks -/

section Tasks

variable {timing : TimingConfig} {needs : Prop} {α : Type} (sched : SchedConfig)
  (task : DispatchTask)

/-- Checking the task's identity obeys. -/
theorem obeys_isCurrentTaskIdentity :
    Obeys task.identity (Uninterrupted timing) needs (isCurrentTaskIdentity .skip task) :=
  (checks_lift .skip).obeys

/-- Capturing a baseline obeys. -/
theorem obeys_captureBaselineIfNeeded :
    Obeys task.identity (Uninterrupted timing) needs (captureBaselineIfNeeded task) := by
  unfold captureBaselineIfNeeded readBaseline
  refine .bind (.bind (obeys_observing rfl) fun affinity => ?_) fun baseline => ?_
  · refine .bind (obeys_observing rfl) fun scheduler => ?_
    exact .bind (obeys_cgroupPaths _ _) fun cgroups => obeys_pure _
  · exact (checks_lift .skip).guard (obeys_cacheCall _) (obeys_pure ())

/-- A guarded restoration checks the identity for the restoring call. -/
theorem obeys_restoreGuarded {part : Option α} {restore : α → CallProgram Bool}
    (obeys : ∀ value, Obeys task.identity (Uninterrupted timing) True (restore value)) :
    Obeys task.identity (Uninterrupted timing) needs (restoreGuarded task part restore) := by
  cases part with
  | none => exact obeys_pure (some true)
  | some value =>
    refine (checks_lift .skip).guard (.bind (obeys value) fun restored => ?_) (obeys_pure none)
    exact obeys_pure (some restored)

/-- Restoring the group and the CPUs obeys. -/
theorem obeys_restoreAffinityBaseline (baseline : ThreadBaseline) :
    Obeys task.identity (Uninterrupted timing) needs (restoreAffinityBaseline task baseline) := by
  unfold restoreAffinityBaseline
  refine .bind (obeys_restoreGuarded task fun path => obeys_restoreCpusetCgroup path) fun moved => ?_
  cases moved with
  | none => exact obeys_pure false
  | some moved =>
    refine .bind (obeys_restoreGuarded task fun cpus => obeys_restoreAffinity cpus) fun pinned => ?_
    cases pinned with
    | none => exact obeys_pure false
    | some pinned =>
      exact .ite (fun _ => obeys_isCurrentTaskIdentity task) fun _ => obeys_pure false

/-- A required restoration checks the identity for the restoring call. -/
theorem obeys_restoreRequired {part : Option α} {restore : α → CallProgram Bool}
    (obeys : ∀ value, Obeys task.identity (Uninterrupted timing) True (restore value)) :
    Obeys task.identity (Uninterrupted timing) needs (restoreRequired task part restore) := by
  refine (checks_lift .skip).guard ?_ (obeys_pure false)
  cases part with
  | none => exact obeys_pure false
  | some value =>
    refine .bind (obeys value) fun restored => ?_
    exact .ite (fun _ => obeys_isCurrentTaskIdentity task) fun _ => obeys_pure false

/-- Restoring the scheduler state obeys. -/
theorem obeys_restoreSchedulerBaseline (baseline : ThreadBaseline) :
    Obeys task.identity (Uninterrupted timing) needs (restoreSchedulerBaseline task baseline) :=
  obeys_restoreRequired task fun scheduler => obeys_restoreScheduler scheduler

/-- Restoring the cpuctl group obeys. -/
theorem obeys_restoreCpuctlBaseline (baseline : ThreadBaseline) :
    Obeys task.identity (Uninterrupted timing) needs (restoreCpuctlBaseline task baseline) :=
  obeys_restoreRequired task fun path => obeys_restoreCpuctlCgroup path

/-- The end of a restoration obeys. -/
theorem obeys_finishRestoration (restored : Bool) :
    Obeys task.identity (Uninterrupted timing) needs (finishRestoration task restored) := by
  refine .ite (fun _ => ?_) fun _ => obeys_pure _
  refine .bind (obeys_cacheCall _) fun _ => .bind (obeys_cacheCall _) fun _ => ?_
  exact .bind (obeys_cacheCall _) fun _ => obeys_pure _

/-- Restoring a baseline obeys. -/
theorem obeys_restoreBaseline :
    Obeys task.identity (Uninterrupted timing) needs (restoreBaseline task) := by
  unfold restoreBaseline
  refine .bind (obeys_cacheCall _) fun found => ?_
  cases found with
  | none =>
    refine .bind (obeys_cacheCall _) fun _ => .bind (obeys_cacheCall _) fun _ => ?_
    exact obeys_pure _
  | some baseline =>
    unfold restoreRecorded restoreIf
    refine obeys_orDiscard (.bind (.ite (fun _ => obeys_restoreCpuctlBaseline task baseline)
      fun _ => obeys_pure true) fun cpuctl => ?_)
    refine obeys_orDiscard (.bind (.ite (fun _ => obeys_restoreSchedulerBaseline task baseline)
      fun _ => obeys_pure true) fun scheduler => ?_)
    refine obeys_orDiscard (.bind (obeys_restoreAffinityBaseline task baseline) fun affinity => ?_)
    exact obeys_orDiscard (obeys_finishRestoration task _)

/-- Releasing a component obeys when its restoration does. -/
theorem obeys_releaseComponent {release : Bool} {restore : CallProgram Bool}
    (obeys : Obeys task.identity (Uninterrupted timing) needs restore)
    (managed released : ManagedComponents) :
    Obeys task.identity (Uninterrupted timing) needs
      (releaseComponent task release restore managed released) := by
  refine .ite (fun _ => .bind obeys fun restored => ?_) fun _ => obeys_pure (some managed)
  refine .ite (fun _ => ?_) fun _ => obeys_pure none
  exact .bind (obeys_cacheCall _) fun _ => obeys_pure (some released)

/-- Releasing the components a result no longer manages obeys. -/
theorem obeys_releaseComponents (result : MatchResult) (baseline : ThreadBaseline)
    (managed : ManagedComponents) :
    Obeys task.identity (Uninterrupted timing) needs
      (releaseComponents sched task result baseline managed) := by
  unfold releaseComponents
  refine .bind (obeys_releaseComponent task (obeys_restoreAffinityBaseline task _) _ _) ?_
  rintro (_ | first)
  · exact obeys_pure none
  refine .bind (obeys_releaseComponent task (obeys_restoreSchedulerBaseline task _) _ _) ?_
  rintro (_ | second)
  · exact obeys_pure none
  exact obeys_releaseComponent task (obeys_restoreCpuctlBaseline task _) _ _

/-- Attempting a result obeys: the takeover makes its own checks, and each of the other calls
follows one. -/
theorem obeys_attemptResult (result : MatchResult) (managed : ManagedComponents) :
    Obeys task.identity (Uninterrupted timing) needs
      (attemptResult sched task result managed) := by
  unfold attemptResult CpusetSetter.applyWithResult PrioritySetter.applyWithResult
    CpuctlSetter.applyWithResult recordApplied
  refine .bind (.ite (fun _ => obeys_pure _) fun _ => .ite (fun _ => obeys_pure _) fun _ =>
    .ite (fun _ => obeys_pure _) fun _ => obeys_takeoverCall _ _) fun affinity => ?_
  refine obeys_orDiscard (.bind (.ite (fun _ => obeys_pure _) fun _ => obeys_setPriority _)
    fun priority => ?_)
  refine obeys_orDiscard (.bind (.ite (fun _ => obeys_pure _) fun _ => .ite
    (fun _ => obeys_pure _) fun _ => obeys_migrateThread _) fun cpuctl => ?_)
  refine obeys_orDiscard (.bind (obeys_cacheCall _) fun _ => .ite (fun _ => ?_) fun _ => ?_)
  · exact .bind (obeys_cacheCall _) fun _ => obeys_pure _
  · exact obeys_orDiscard (obeys_pure _)

/-- Applying a result obeys. -/
theorem obeys_applyResult (result : MatchResult) :
    Obeys task.identity (Uninterrupted timing) needs (applyResult sched task result) := by
  unfold applyResult
  refine .ite (fun _ => ?_) fun _ => obeys_restoreBaseline task
  refine .bind (obeys_captureBaselineIfNeeded task) fun _ => ?_
  refine .bind (obeys_cacheCall _) fun found => ?_
  cases found with
  | none => exact obeys_pure _
  | some baseline =>
    refine .ite (fun _ => ?_) fun _ => obeys_pure _
    unfold applyManaged
    refine .bind (obeys_cacheCall _) fun managed => ?_
    refine .bind (obeys_releaseComponents sched task result baseline managed) ?_
    rintro (_ | remaining)
    · exact obeys_pure _
    · exact obeys_attemptResult sched task result remaining

/-- Looking for drift obeys. -/
theorem obeys_hasDrifted (applied : MatchResult) :
    Obeys task.identity (Uninterrupted timing) needs (hasDrifted sched task applied) := by
  unfold hasDrifted affinityDrifted schedulerDrifted isCgroupChanged
  refine .bind (.ite (fun _ => obeys_observing rfl) fun _ => obeys_pure false)
    fun affinity => ?_
  refine .bind (.ite (fun _ => obeys_observing rfl) fun _ => obeys_pure false)
    fun scheduler => ?_
  refine .bind (.ite (fun _ => ?_) fun _ => obeys_pure false) fun cgroup => obeys_pure _
  refine .bind (obeys_sysCall rfl) fun due => .ite (fun _ => ?_) fun _ => obeys_pure false
  exact .bind (obeys_cgroupPaths _ _) fun paths => obeys_pure _

/-- A task obeys. -/
theorem obeys_processDispatchTask :
    Obeys task.identity (Uninterrupted timing) needs (processDispatchTask sched task) := by
  have applies : ∀ result, Obeys task.identity (Uninterrupted timing) False
      (callApplyResult sched task result) := fun result =>
    .bind (obeys_applyResult sched task result) fun outcome => obeys_pure _
  unfold processDispatchTask
  refine obeys_orDiscard (.bind (obeys_sysCall rfl) fun skipped =>
    .ite (fun _ => obeys_pure _) fun _ => ?_)
  refine .bind (obeys_cacheCall _) fun found => ?_
  cases found with
  | none =>
    refine .bind (obeys_sysCall rfl) fun result => ?_
    exact .bind (obeys_cacheCall _) fun _ => applies result
  | some entry =>
    refine .bind (obeys_cacheCall _) fun applied => ?_
    cases applied with
    | none => exact applies entry.result
    | some applied =>
      refine .ite (fun _ => .ite (fun _ => ?_) fun _ => obeys_pure _) fun _ => applies entry.result
      refine .bind (obeys_hasDrifted sched task applied) fun drifted => ?_
      exact .ite (fun _ => applies entry.result) fun _ => obeys_pure _

end Tasks

/-! ## Every run of a task -/

/-- In every run of a task the identity is revalidated before each attempt exactly when no call
makes a second attempt on the strength of one check. -/
theorem revalidated_iff_uninterrupted (timing : TimingConfig) (sched : SchedConfig)
    (task : DispatchTask) (steps : List (CallStep timing)) (outcome : TaskOutcome)
    (produced : (processDispatchTask sched task).Produces (steps.map Expansion.event) outcome) :
    Revalidated task.identity [] (Expansion.flatten steps) ↔
      ∀ step ∈ steps, Uninterrupted timing step :=
  (obeys_processDispatchTask sched task : Obeys _ _ False _) [] False.elim steps outcome produced

/-! ## Runs with one priority class -/

/-- Two attempts without a check between them. -/
def adjacentAttempts : List (Event SysSig) → Bool
  | first :: second :: rest =>
    (first.1.isAttempt && second.1.isAttempt) || adjacentAttempts (second :: rest)
  | _ => false

/-- The law fails where two attempts are adjacent. -/
theorem not_revalidated_of_adjacent {trace rest : List (Event SysSig)}
    (adjacent : adjacentAttempts rest = true) : ¬ Revalidated identity trace rest := by
  induction rest generalizing trace with
  | nil => cases adjacent
  | cons first rest ih =>
    rintro ⟨_, later⟩
    cases rest with
    | nil => cases adjacent
    | cons second rest =>
      rcases Bool.or_eq_true_iff.mp adjacent with both | further
      · obtain ⟨attempted, repeated⟩ := Bool.and_eq_true_iff.mp both
        have disturbs : first.1.disturbs = true := by
          cases calm : first.1.disturbs with
          | true => rfl
          | false => rw [unattempted _ calm] at attempted; cases attempted
        exact not_fresh_of_disturbs disturbs (later.1 repeated)
      · exact ih further later

/-- A refused write to a group, or a policy without a real-time priority that was set. -/
def invitesSecond : Event SysSig → Bool
  | ⟨.attempt _ (.tasks _), ok⟩ => !ok
  | ⟨.attempt _ (.scheduler policy _), ok⟩ => PrioritySetter.isPlainPolicy policy && ok
  | _ => false

/-- Calls without such an operation are fine. -/
theorem uninterrupted_of_none {timing : TimingConfig} {step : CallStep timing}
    (none : ∀ event ∈ step.inner, invitesSecond event = false) : Uninterrupted timing step := by
  obtain ⟨operation, response, inner, produced⟩ := step
  have absent : ∀ event, invitesSecond event = true → event ∉ inner := by
    intro event invites member
    have silent := none event member
    rw [invites] at silent
    cases silent
  cases operation with
  | sys operation => trivial
  | setter call =>
    cases call with
    | takeover thread cpumaskName expectedCpus => exact .inr (absent _ rfl)
    | setPriority thread prioValue => exact fun _ => absent _ rfl
    | restoreScheduler thread baseline =>
      intro plain
      refine absent _ ?_
      rw [invitesSecond, plain]
      rfl
    | _ => trivial

/-- A thread. -/
def checkedThread : Identity := ⟨10, 11, 100, 101⟩

/-- A configuration with one priority class. -/
def classConfig (prioValue : Int) : SchedConfig where
  prio := AList.insert (Bytes.ascii "high") ⟨prioValue, prioValue, prioValue⟩ ∅

/-- A task of the thread. -/
def checkedTask : DispatchTask :=
  ⟨checkedThread, Bytes.ascii "worker", .top, cpusetMount, Bytes.ascii "app", []⟩

/-- Responses of a live thread whose rule has the class and whose system calls succeed. -/
def classRespond (cache : ThreadCache) :
    (operation : SysOp) → Option (SysSig.Res operation × ThreadCache)
  | .cache call => some (call.run cache)
  | .processStartTime _ _ => some (checkedThread.processStartTime, cache)
  | .threadStartTime _ _ _ => some (checkedThread.threadStartTime, cache)
  | .threadInProcess _ _ _ => some (true, cache)
  | .threadCgroupPaths _ _ => some ({}, cache)
  | .schedGetaffinity _ => some (some (CpuSet.fromVector [0, 1]), cache)
  | .schedGetscheduler _ => some (PrioritySetter.normalPolicy, cache)
  | .schedGetparam _ | .getpriority _ => some (some 0, cache)
  | .shouldSkipSchedule _ => some (false, cache)
  | .matchThread _ =>
    some ({ matched := true, prioClass := Bytes.ascii "high", effectiveState := .top }, cache)
  | .attempt _ _ => some (true, cache)
  | _ => none

/-- The run of the task with these responses. -/
def classRun (prioValue : Int) : Option (TaskOutcome × List (Event SysSig)) :=
  ((processDispatchTask (classConfig prioValue) checkedTask).interpret (expand {})).record
    classRespond ∅

/-- A real-time priority is set on the strength of its own check. -/
theorem revalidated_iff_uninterrupted_realtime :
    ∃ (steps : List (CallStep {})) (outcome : TaskOutcome),
      (processDispatchTask (classConfig 50) checkedTask).Produces
        (steps.map Expansion.event) outcome ∧
      (Expansion.flatten steps).any (·.1.isAttempt) = true ∧
      Revalidated checkedThread [] (Expansion.flatten steps) := by
  have attempts : (classRun 50).any (fun found => found.2.any (·.1.isAttempt) &&
      found.2.all fun event => !invitesSecond event) = true := by decide
  obtain ⟨⟨outcome, trace⟩, recorded, holds⟩ := (Option.any_eq_true _ _).mp attempts
  obtain ⟨attempted, silent⟩ := Bool.and_eq_true_iff.mp holds
  obtain ⟨steps, rfl, produced⟩ :=
    Program.produces_interpret.mp (Program.produces_of_record recorded)
  refine ⟨steps, outcome, produced, attempted,
    (revalidated_iff_uninterrupted {} (classConfig 50) checkedTask steps outcome produced).mpr ?_⟩
  intro step member
  refine uninterrupted_of_none fun event listed => ?_
  have performed : event ∈ Expansion.flatten steps := List.mem_flatMap.mpr ⟨step, member, listed⟩
  simpa using List.all_eq_true.mp silent event performed

/-- A nice value is set on the strength of the check before its policy. -/
theorem revalidated_fails :
    ¬ ∀ (timing : TimingConfig) (sched : SchedConfig) (task : DispatchTask)
      (trace : List (Event SysSig)) (outcome : TaskOutcome),
      ((processDispatchTask sched task).interpret (expand timing)).Produces trace outcome →
        Revalidated task.identity [] trace := by
  intro claim
  have adjacent : (classRun 110).any (fun found => adjacentAttempts found.2) = true := by decide
  obtain ⟨⟨outcome, trace⟩, recorded, holds⟩ := (Option.any_eq_true _ _).mp adjacent
  exact not_revalidated_of_adjacent holds
    (claim {} (classConfig 110) checkedTask trace outcome (Program.produces_of_record recorded))

end Revalidation

end ReUperf
