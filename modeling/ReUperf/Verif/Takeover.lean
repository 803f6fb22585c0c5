import ReUperf.Lib.Trace
import ReUperf.Scheduler.CpusetSetter

/-!
# Takeover sequence

Every run of the takeover sequence calls its six operations one after another. The module proves
which calls these are, whatever the operations do and answer: attempts of one form, cut only where
the identity no longer holds, and a result that tells what the last attempt verified.
-/

namespace ReUperf.CpusetSetter

open Effect

/-! ## Calls -/

/-- An operation of the sequence. -/
inductive Callback
  /-- Pin the thread. -/
  | setAffinity
  /-- Move the thread to the group. -/
  | moveTarget
  /-- Move the thread to the parent group. -/
  | moveParent
  /-- Look whether the thread is in the group. -/
  | verifyCpuset
  /-- Look whether the thread has the CPUs. -/
  | verifyAffinity
  /-- Check the identity. -/
  | identity
  deriving DecidableEq

/-- A call and its answer. -/
abbrev Call : Type := Callback × Bool

namespace TakeoverOperations

/-- The program of an operation. -/
def callback (operations : TakeoverOperations) : Callback → SysProgram Bool
  | .setAffinity => operations.setAffinity
  | .moveTarget => operations.moveTarget
  | .moveParent => operations.moveParent
  | .verifyCpuset => operations.verifyCpuset
  | .verifyAffinity => operations.verifyAffinity
  | .identity => operations.identity

/-- The trace is that of the calls, one after another. -/
inductive Performs (operations : TakeoverOperations) : List Call → List (Event SysSig) → Prop where
  /-- No call. -/
  | nil : Performs operations [] []
  /-- One call, then others. -/
  | cons {callback : Callback} {answer : Bool} {calls : List Call}
      {first rest : List (Event SysSig)}
      (produced : (operations.callback callback).Produces first answer)
      (later : Performs operations calls rest) :
      Performs operations ((callback, answer) :: calls) (first ++ rest)

end TakeoverOperations

/-! ## Attempts -/

/-- The calls of a whole attempt but the checks of the identity, and the answers of its two
verifications. -/
inductive Completed : List Call → Bool → Bool → Prop where
  /-- The first move succeeds. -/
  | direct (pre post cpuset affinity : Bool) : Completed
      [(.setAffinity, pre), (.moveTarget, true), (.setAffinity, post), (.verifyCpuset, cpuset),
        (.verifyAffinity, affinity)] cpuset affinity
  /-- The first move fails. -/
  | recovered (pre preParent parent preTarget moved post cpuset affinity : Bool) : Completed
      [(.setAffinity, pre), (.moveTarget, false), (.setAffinity, preParent), (.moveParent, parent),
        (.setAffinity, preTarget), (.moveTarget, moved), (.setAffinity, post),
        (.verifyCpuset, cpuset), (.verifyAffinity, affinity)] cpuset affinity

/-- The calls of an attempt that may be cut. -/
def Begun (attempt : List Call) : Prop :=
  attempt ≠ [] ∧ ∃ rest cpuset affinity, Completed (attempt ++ rest) cpuset affinity

/-- The calls but the checks of the identity. -/
def executed (calls : List Call) : List Call := calls.filter fun call => call.1 ≠ .identity

/-- Calls with a check of the identity before each of them. -/
def checked (calls : List Call) : List Call :=
  calls.flatMap fun call => [(.identity, true), call]

/-- The identity was found lost. -/
def Lost (calls : List Call) : Prop := calls.getLast? = some (.identity, false)

/-- The last attempt reached its verifications, and both answered true. -/
def Verified (attempts : List (List Call)) : Prop :=
  ∃ last, attempts.getLast? = some last ∧ Completed last true true

/-- The calls of a sequence, and the attempts they form. -/
structure Conducted (maxAttempts : Nat) (calls : List Call) (attempts : List (List Call)) :
    Prop where
  /-- Nothing but the attempts is executed, in their order. -/
  inOrder : executed calls = attempts.flatten
  /-- Each attempt is one, or the beginning of one. -/
  begun : ∀ attempt ∈ attempts, Begun attempt
  /-- An attempt that another one follows is whole, and not both its verifications are true. -/
  unverified : ∀ attempt ∈ attempts.dropLast, ∃ cpuset affinity,
    Completed attempt cpuset affinity ∧ (cpuset && affinity) = false
  /-- There are not too many. -/
  bounded : attempts.length ≤ maxAttempts
  /-- Nothing is called once the identity is lost. -/
  stopped : (.identity, false) ∉ calls.dropLast
  /-- The calls end where the identity is lost, or with a whole attempt that is verified or the
  last one allowed. -/
  ended : Lost calls ∨
    ((∀ attempt ∈ attempts, ∃ cpuset affinity, Completed attempt cpuset affinity) ∧
      (attempts.length = maxAttempts ∨ Verified attempts))

/-- What the sequence has called and returned, if it had begun a number of attempts before. -/
def Outcome (maxAttempts before : Nat) (calls : List Call) (result : AffinityTakeoverResult) :
    Prop :=
  ∃ attempts, Conducted maxAttempts calls attempts ∧
    result.attempts = before + attempts.length ∧ (result.success = true ↔ Verified attempts)

/-! ## Sequences of attempts -/

section Attempts

variable {maxAttempts before : Nat} {calls rest : List Call} {attempt : List Call}
  {result : AffinityTakeoverResult} {cpuset affinity : Bool}

/-- A whole attempt is the beginning of one. -/
theorem Completed.begun (whole : Completed attempt cpuset affinity) : Begun attempt := by
  constructor
  · intro none
    rw [none] at whole
    cases whole
  · exact ⟨[], cpuset, affinity, by rw [List.append_nil]; exact whole⟩

/-- The verifications of an attempt are part of its calls. -/
theorem Completed.unique {otherCpuset otherAffinity : Bool}
    (whole : Completed attempt cpuset affinity)
    (other : Completed attempt otherCpuset otherAffinity) :
    cpuset = otherCpuset ∧ affinity = otherAffinity := by
  cases whole with
  | direct pre post => cases other with
    | direct => exact ⟨rfl, rfl⟩
  | recovered => cases other with
    | recovered => exact ⟨rfl, rfl⟩

/-- A sequence that is allowed no attempt. -/
theorem outcome_exhausted (unverified : result.success = false) :
    Outcome 0 result.attempts [] result := by
  refine ⟨[], ⟨rfl, ?_, ?_, le_refl _, ?_, ?_⟩, rfl, ?_⟩
  · intro attempt member
    cases member
  · intro attempt member
    cases member
  · intro member
    cases member
  · right
    constructor
    · intro attempt member
      cases member
    · left
      rfl
  · rw [unverified]
    constructor
    · intro impossible
      cases impossible
    · intro verified
      obtain ⟨last, none, -⟩ := verified
      cases none

/-- The identity is lost before an attempt. -/
theorem outcome_refused (unverified : result.success = false) :
    Outcome (maxAttempts + 1) result.attempts [(.identity, false)] result := by
  refine ⟨[], ⟨rfl, ?_, ?_, Nat.zero_le _, ?_, .inl rfl⟩, rfl, ?_⟩
  · intro attempt member
    cases member
  · intro attempt member
    cases member
  · intro member
    cases member
  · rw [unverified]
    constructor
    · intro impossible
      cases impossible
    · intro verified
      obtain ⟨last, none, -⟩ := verified
      cases none

/-- The beginning of a whole attempt is not whole. -/
theorem Completed.proper {otherCpuset otherAffinity : Bool}
    (whole : Completed (attempt ++ rest) cpuset affinity) (more : rest ≠ []) :
    ¬ Completed attempt otherCpuset otherAffinity := by
  intro completed
  cases completed with
  | direct =>
    cases whole
    exact more rfl
  | recovered =>
    cases whole
    exact more rfl

/-- The identity is lost within an attempt. -/
theorem outcome_cut (held : (.identity, false) ∉ calls) (started : executed calls ≠ [])
    (whole : Completed (executed calls ++ rest) cpuset affinity) (more : rest ≠ [])
    (unverified : result.success = false) (counted : result.attempts = before + 1) :
    Outcome (maxAttempts + 1) before (calls ++ [(.identity, false)]) result := by
  have same : executed (calls ++ [(.identity, false)]) = executed calls := by
    rw [executed, List.filter_append]
    exact List.append_nil _
  have lost : Lost (calls ++ [(.identity, false)]) := List.getLast?_concat
  refine ⟨[executed calls], ⟨?_, ?_, ?_, ?_, ?_, .inl lost⟩, counted, ?_⟩
  · rw [same]
    exact (List.append_nil _).symm
  · intro attempt member
    rw [List.mem_singleton.mp member]
    exact ⟨started, rest, cpuset, affinity, whole⟩
  · intro attempt member
    cases member
  · show 1 ≤ maxAttempts + 1
    omega
  · rw [List.dropLast_concat]
    exact held
  · rw [unverified]
    constructor
    · intro impossible
      cases impossible
    · intro verified
      obtain ⟨last, only, completed⟩ := verified
      obtain rfl := Option.some.inj only
      exact absurd completed (whole.proper more)

/-- An attempt is verified. -/
theorem outcome_verified (whole : Completed (executed calls) true true)
    (held : (.identity, false) ∉ calls) (verified : result.success = true)
    (counted : result.attempts = before + 1) : Outcome (maxAttempts + 1) before calls result := by
  have last : Verified [executed calls] := ⟨executed calls, rfl, whole⟩
  refine ⟨[executed calls], ⟨?_, ?_, ?_, ?_, ?_, ?_⟩, counted, ?_⟩
  · exact (List.append_nil _).symm
  · intro attempt member
    rw [List.mem_singleton.mp member]
    exact whole.begun
  · intro attempt member
    cases member
  · show 1 ≤ maxAttempts + 1
    omega
  · exact fun member => held (List.dropLast_subset _ member)
  · right
    constructor
    · intro attempt member
      rw [List.mem_singleton.mp member]
      exact ⟨true, true, whole⟩
    · exact .inr last
  · exact iff_of_true verified last

/-- An attempt that is not verified is followed by the rest of the sequence. -/
theorem Outcome.again (later : Outcome maxAttempts (before + 1) rest result)
    (whole : Completed (executed calls) cpuset affinity) (failed : (cpuset && affinity) = false)
    (held : (.identity, false) ∉ calls) :
    Outcome (maxAttempts + 1) before (calls ++ rest) result := by
  obtain ⟨attempts, conducted, counted, success⟩ := later
  have uncompleted : ¬ Completed (executed calls) true true := by
    intro verified
    obtain ⟨rfl, rfl⟩ := whole.unique verified
    cases failed
  have lasts : Verified (executed calls :: attempts) ↔ Verified attempts := by
    cases attempts with
    | nil =>
      constructor
      · intro verified
        obtain ⟨last, only, verified⟩ := verified
        obtain rfl := Option.some.inj only
        exact absurd verified uncompleted
      · intro verified
        obtain ⟨last, none, -⟩ := verified
        cases none
    | cons next others => rw [Verified, List.getLast?_cons_cons, Verified]
  refine ⟨executed calls :: attempts, ⟨?_, ?_, ?_, ?_, ?_, ?_⟩, ?_, ?_⟩
  · rw [executed, List.filter_append, List.flatten_cons, ← conducted.inOrder]
    rfl
  · intro attempt member
    rcases List.mem_cons.mp member with rfl | member
    · exact whole.begun
    · exact conducted.begun attempt member
  · intro attempt member
    cases attempts with
    | nil => cases member
    | cons next others =>
      rw [List.dropLast_cons_cons] at member
      rcases List.mem_cons.mp member with rfl | member
      · exact ⟨cpuset, affinity, whole, failed⟩
      · exact conducted.unverified attempt member
  · have bounded := conducted.bounded
    rw [List.length_cons]
    omega
  · intro member
    rw [List.dropLast_append] at member
    split at member
    · exact held (List.dropLast_subset _ member)
    · rcases List.mem_append.mp member with first | second
      · exact held first
      · exact conducted.stopped second
  · rcases conducted.ended with lost | ⟨completed, last⟩
    · left
      rw [Lost, List.getLast?_append, lost]
      rfl
    · right
      constructor
      · intro attempt member
        rcases List.mem_cons.mp member with rfl | member
        · exact ⟨cpuset, affinity, whole⟩
        · exact completed attempt member
      · rw [List.length_cons, lasts]
        exact last.imp_left fun equal => by omega
  · rw [List.length_cons, counted]
    omega
  · rw [lasts, success]

end Attempts

/-! ## Runs -/

namespace TakeoverOperations

variable {operations : TakeoverOperations} {α : Type}

/-- Every run of a program is one of calls that meet a specification. -/
def Factors (operations : TakeoverOperations) (program : SysProgram α)
    (spec : List Call → α → Prop) : Prop :=
  ∀ trace value, program.Produces trace value →
    ∃ calls, operations.Performs calls trace ∧ spec calls value

theorem factors_pure {value : α} {spec : List Call → α → Prop} (holds : spec [] value) :
    operations.Factors (pure value) spec := by
  intro trace result produced
  obtain ⟨rfl, rfl⟩ := produced
  exact ⟨[], .nil, holds⟩

theorem factors_call (callback : Callback) {rest : Bool → SysProgram α}
    {spec : List Call → α → Prop}
    (later : ∀ answer, operations.Factors (rest answer)
      fun calls value => spec ((callback, answer) :: calls) value) :
    operations.Factors (operations.callback callback >>= rest) spec := by
  intro trace value produced
  obtain ⟨first, answer, second, rfl, called, remaining⟩ := Program.produces_bind.mp produced
  obtain ⟨calls, performed, holds⟩ := later answer second value remaining
  exact ⟨(callback, answer) :: calls, .cons called performed, holds⟩

theorem Factors.mono {program : SysProgram α} {spec weaker : List Call → α → Prop}
    (factors : operations.Factors program spec)
    (implies : ∀ calls value, spec calls value → weaker calls value) :
    operations.Factors program weaker := by
  intro trace value produced
  obtain ⟨calls, performed, holds⟩ := factors trace value produced
  exact ⟨calls, performed, implies calls value holds⟩

/-- Either the identity is lost, or the rest is run. -/
theorem factors_whileIdentity {result : AffinityTakeoverResult}
    {rest : SysProgram AffinityTakeoverResult} {spec : List Call → AffinityTakeoverResult → Prop}
    (lost : spec [(.identity, false)] result)
    (held : operations.Factors rest fun calls value => spec ((.identity, true) :: calls) value) :
    operations.Factors (operations.whileIdentity result rest) spec := by
  refine factors_call .identity fun answer => ?_
  cases answer with
  | false => exact factors_pure lost
  | true => exact held

/-- The end of an attempt whose move is done. -/
theorem factors_finishAttempt {again : AffinityTakeoverResult → SysProgram AffinityTakeoverResult}
    {maxAttempts before : Nat} {calls : List Call} {result : AffinityTakeoverResult}
    (next : ∀ result : AffinityTakeoverResult, result.success = false →
      operations.Factors (again result) (Outcome maxAttempts result.attempts))
    (held : (.identity, false) ∉ calls) (started : executed calls ≠ [])
    (whole : ∀ post cpuset affinity, Completed (executed calls ++ [(.setAffinity, post),
      (.verifyCpuset, cpuset), (.verifyAffinity, affinity)]) cpuset affinity)
    (unverified : result.success = false) (counted : result.attempts = before + 1) :
    operations.Factors (operations.finishAttempt again result)
      fun more value => Outcome (maxAttempts + 1) before (calls ++ more) value := by
  have joined : ∀ more, executed (calls ++ more) = executed calls ++ executed more :=
    fun more => List.filter_append _ _
  apply factors_whileIdentity
  · exact outcome_cut held started (whole false false false) (List.cons_ne_nil _ _) unverified
      counted
  apply factors_call .setAffinity
  intro post
  have heldPost : (.identity, false) ∉ calls ++ [(.identity, true), (.setAffinity, post)] := by
    simp [held]
  have startedPost : executed (calls ++ [(.identity, true), (.setAffinity, post)]) ≠ [] := by
    simp [joined, started]
  have wholePost : Completed (executed (calls ++ [(.identity, true), (.setAffinity, post)]) ++
      [(.verifyCpuset, false), (.verifyAffinity, false)]) false false := by
    rw [joined, List.append_assoc]
    exact whole post false false
  apply factors_whileIdentity
  · have cut : Outcome (maxAttempts + 1) before
        (calls ++ [(.identity, true), (.setAffinity, post)] ++ [(.identity, false)])
        { result with postAffinitySucceeded := post } :=
      outcome_cut heldPost startedPost wholePost (List.cons_ne_nil _ _) unverified counted
    rw [List.append_assoc] at cut
    exact cut
  apply factors_call .verifyCpuset
  intro cpuset
  apply factors_call .verifyAffinity
  intro affinity
  have heldLast : (.identity, false) ∉ calls ++ [(.identity, true), (.setAffinity, post),
      (.identity, true), (.verifyCpuset, cpuset), (.verifyAffinity, affinity)] := by
    simp [held]
  have wholeLast : Completed (executed (calls ++ [(.identity, true), (.setAffinity, post),
      (.identity, true), (.verifyCpuset, cpuset), (.verifyAffinity, affinity)])) cpuset
        affinity := by
    rw [joined]
    exact whole post cpuset affinity
  dsimp only
  by_cases verified : (cpuset && affinity) = true
  · obtain ⟨rfl, rfl⟩ := Bool.and_eq_true_iff.mp verified
    rw [AffinityTakeoverResult.success, if_pos verified]
    exact factors_pure (outcome_verified wholeLast heldLast verified counted)
  · rw [AffinityTakeoverResult.success, if_neg verified]
    have failed : (cpuset && affinity) = false := Bool.eq_false_iff.mpr verified
    have rest := next { result with
      postAffinitySucceeded := post, cpusetVerified := cpuset, affinityVerified := affinity } failed
    refine rest.mono fun more value later => ?_
    have later : Outcome maxAttempts (before + 1) more value := by
      rw [← counted]
      exact later
    have again := later.again wholeLast failed heldLast
    rw [List.append_assoc] at again
    exact again

/-- One attempt, and the attempts after it. -/
theorem factors_attempt {again : AffinityTakeoverResult → SysProgram AffinityTakeoverResult}
    {maxAttempts : Nat} {result : AffinityTakeoverResult}
    (next : ∀ result : AffinityTakeoverResult, result.success = false →
      operations.Factors (again result) (Outcome maxAttempts result.attempts))
    (unverified : result.success = false) :
    operations.Factors (operations.attempt again result)
      (Outcome (maxAttempts + 1) result.attempts) := by
  apply factors_whileIdentity
  · exact outcome_refused unverified
  apply factors_call .setAffinity
  intro pre
  apply factors_whileIdentity
  · have held : (.identity, false) ∉ checked [(.setAffinity, pre)] := by simp [checked]
    exact outcome_cut held (List.cons_ne_nil _ _) (.direct pre false false false)
      (List.cons_ne_nil _ _) unverified rfl
  apply factors_call .moveTarget
  intro moved
  cases moved with
  | true =>
    have held : (.identity, false) ∉ checked [(.setAffinity, pre), (.moveTarget, true)] := by
      simp [checked]
    exact factors_finishAttempt next held (List.cons_ne_nil _ _)
      (fun post cpuset affinity => .direct pre post cpuset affinity) unverified rfl
  | false =>
    apply factors_whileIdentity
    · have held : (.identity, false) ∉ checked [(.setAffinity, pre), (.moveTarget, false)] := by
        simp [checked]
      exact outcome_cut held (List.cons_ne_nil _ _)
        (.recovered pre false false false false false false false) (List.cons_ne_nil _ _)
        unverified rfl
    apply factors_call .setAffinity
    intro preParent
    apply factors_whileIdentity
    · have held : (.identity, false) ∉ checked
          [(.setAffinity, pre), (.moveTarget, false), (.setAffinity, preParent)] := by
        simp [checked]
      exact outcome_cut held (List.cons_ne_nil _ _)
        (.recovered pre preParent false false false false false false) (List.cons_ne_nil _ _)
        unverified rfl
    apply factors_call .moveParent
    intro parent
    apply factors_whileIdentity
    · have held : (.identity, false) ∉ checked
          [(.setAffinity, pre), (.moveTarget, false), (.setAffinity, preParent),
            (.moveParent, parent)] := by simp [checked]
      exact outcome_cut held (List.cons_ne_nil _ _)
        (.recovered pre preParent parent false false false false false) (List.cons_ne_nil _ _)
        unverified rfl
    apply factors_call .setAffinity
    intro preTarget
    apply factors_whileIdentity
    · have held : (.identity, false) ∉ checked
          [(.setAffinity, pre), (.moveTarget, false), (.setAffinity, preParent),
            (.moveParent, parent), (.setAffinity, preTarget)] := by simp [checked]
      exact outcome_cut held (List.cons_ne_nil _ _)
        (.recovered pre preParent parent preTarget false false false false) (List.cons_ne_nil _ _)
        unverified rfl
    apply factors_call .moveTarget
    intro moved
    have held : (.identity, false) ∉ checked
        [(.setAffinity, pre), (.moveTarget, false), (.setAffinity, preParent),
          (.moveParent, parent), (.setAffinity, preTarget), (.moveTarget, moved)] := by
      simp [checked]
    exact factors_finishAttempt next held (List.cons_ne_nil _ _)
      (fun post cpuset affinity =>
        .recovered pre preParent parent preTarget moved post cpuset affinity) unverified rfl

/-- The attempts that are left. -/
theorem factors_run (remaining : Nat) {result : AffinityTakeoverResult}
    (unverified : result.success = false) :
    operations.Factors (operations.run remaining result) (Outcome remaining result.attempts) := by
  induction remaining generalizing result with
  | zero => exact factors_pure (outcome_exhausted unverified)
  | succ remaining ih => exact factors_attempt (fun result => ih) unverified

/-- The calls of a takeover sequence are those of attempts of one form, each but the last whole
and not verified; they are cut only where the identity is lost, and the sequence succeeds exactly
when its last attempt is verified. -/
theorem runTakeoverSequence_conducted (operations : TakeoverOperations) (maxAttempts : Int)
    {trace : List (Event SysSig)} {result : AffinityTakeoverResult}
    (produced : (runTakeoverSequence operations maxAttempts.toNat).Produces trace result) :
    ∃ calls attempts, operations.Performs calls trace ∧
      Conducted maxAttempts.toNat calls attempts ∧
      result.attempts = attempts.length ∧ (result.success = true ↔ Verified attempts) := by
  obtain ⟨calls, performed, attempts, conducted, counted, success⟩ :=
    factors_run maxAttempts.toNat rfl trace result produced
  have counted : result.attempts = attempts.length := counted.trans (Nat.zero_add _)
  exact ⟨calls, attempts, performed, conducted, counted, success⟩

/-- Operations of one system operation each. -/
def single : TakeoverOperations where
  setAffinity := perform (.groupFileExists (Bytes.ascii "set affinity"))
  moveTarget := perform (.groupFileExists (Bytes.ascii "move target"))
  moveParent := perform (.groupFileExists (Bytes.ascii "move parent"))
  verifyCpuset := perform (.groupFileExists (Bytes.ascii "verify cpuset"))
  verifyAffinity := perform (.groupFileExists (Bytes.ascii "verify affinity"))
  identity := perform (.groupFileExists (Bytes.ascii "identity"))

/-- Every operation succeeds. -/
def answerTrue : Unit → (operation : SysOp) → Option (SysSig.Res operation × Unit)
  | state, .groupFileExists _ => some (true, state)
  | _, _ => none

/-- A sequence whose operations succeed ends with its first attempt. -/
theorem runTakeoverSequence_conducted_single : ∃ trace calls attempts,
    trace.length = 9 ∧ single.Performs calls trace ∧ Conducted 2 calls attempts ∧
      attempts.length = 1 ∧ Verified attempts := by
  have recorded : ((runTakeoverSequence single 2).record answerTrue ()).map
      (fun found => (found.1.attempts, found.1.success, found.2.length)) = some (1, true, 9) := by
    decide +kernel
  obtain ⟨⟨result, trace⟩, recorded, seen⟩ := Option.map_eq_some_iff.mp recorded
  obtain ⟨one, seen⟩ := Prod.mk.inj seen
  obtain ⟨succeeded, nine⟩ := Prod.mk.inj seen
  have produced : (runTakeoverSequence single (2 : Int).toNat).Produces trace result :=
    Program.produces_of_record recorded
  obtain ⟨calls, attempts, performed, conducted, counted, success⟩ :=
    runTakeoverSequence_conducted single 2 produced
  exact ⟨trace, calls, attempts, nine, performed, conducted, counted.symm.trans one,
    success.mp succeeded⟩

end TakeoverOperations

end ReUperf.CpusetSetter
