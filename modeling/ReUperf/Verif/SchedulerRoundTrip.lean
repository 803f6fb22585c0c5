import ReUperf.Lib.Loop
import ReUperf.Scheduler.PrioritySetter

/-!
# The round trip of the scheduler state

A thread's scheduler state is captured, priority values are set, and the state is restored, by
system calls that all succeed. The kernel or-s a flag into the policy it reports, and the setter
compares the policy with that flag. So the nice value is captured and restored for a plain policy
without the flag only, while a priority value may change it under every policy.
-/

namespace ReUperf

open Effect PrioritySetter

/-! ## The kernel's side -/

/-- A scheduling policy. -/
inductive SchedPolicy
  /-- `SCHED_OTHER`. -/
  | other
  /-- `SCHED_FIFO`. -/
  | fifo
  /-- `SCHED_RR`. -/
  | rr
  /-- `SCHED_BATCH`. -/
  | batch
  /-- `SCHED_IDLE`. -/
  | idle
  deriving DecidableEq

namespace SchedPolicy

/-- The policies there are. -/
def all : List SchedPolicy := [other, fifo, rr, batch, idle]

/-- The number of a policy. -/
def number : SchedPolicy → Nat
  | other => 0
  | fifo => 1
  | rr => 2
  | batch => 3
  | idle => 5

/-- The real-time priorities a policy runs with. -/
def Allows (policy : SchedPolicy) (priority : Int) : Prop :=
  if policy = fifo ∨ policy = rr then 1 ≤ priority ∧ priority ≤ 99 else priority = 0

instance (policy : SchedPolicy) (priority : Int) : Decidable (policy.Allows priority) :=
  inferInstanceAs (Decidable
    (if policy = fifo ∨ policy = rr then 1 ≤ priority ∧ priority ≤ 99 else priority = 0))

end SchedPolicy

/-- `SCHED_RESET_ON_FORK`. -/
def schedResetOnFork : Nat := 0x40000000

/-- The scheduler state of a thread. -/
@[ext] structure SchedState where
  /-- Its policy. -/
  policy : SchedPolicy
  /-- Whether its children start with the default policy. -/
  resetOnFork : Bool
  /-- Its real-time priority. -/
  priority : Int
  /-- Its nice value. -/
  nice : Int
  /-- The policy runs with the priority. -/
  allowed : policy.Allows priority
  /-- The nice value is in its range. -/
  inRange : -20 ≤ nice ∧ nice ≤ 19

/-- A policy with its flag or-ed in. -/
def policyWord (policy : SchedPolicy) (resetOnFork : Bool) : Int :=
  (policy.number ||| if resetOnFork then schedResetOnFork else 0 : Nat)

/-- A policy and its flag from the word that stands for them. -/
def readPolicyWord (word : Int) : Option (SchedPolicy × Bool) :=
  (SchedPolicy.all.flatMap fun policy => [(policy, false), (policy, true)]).find? fun read =>
    policyWord read.1 read.2 = word

namespace SchedState

/-- What `sched_getscheduler` returns. -/
def rawPolicy (state : SchedState) : Int := policyWord state.policy state.resetOnFork

/-- `sched_setscheduler`: it sets the policy, its flag and the real-time priority. -/
def setScheduler (state : SchedState) (word priority : Int) : Option SchedState :=
  (readPolicyWord word).bind fun read =>
    if allowed : read.1.Allows priority then
      some { state with policy := read.1, resetOnFork := read.2, priority, allowed }
    else none

/-- `setpriority`: it sets the nice value, brought into its range. -/
def setNice (state : SchedState) (value : Int) : SchedState :=
  { state with nice := max (-20) (min 19 value), inRange := by omega }

end SchedState

variable {thread : Identity}

/-- What the kernel answers when every system call for the thread succeeds. -/
def answerScheduler (thread : Identity) (state : SchedState) :
    (operation : SysOp) → Option (SysSig.Res operation × SchedState)
  | .schedGetscheduler tid => if tid = thread.tid then some (state.rawPolicy, state) else none
  | .schedGetparam tid => if tid = thread.tid then some (some state.priority, state) else none
  | .getpriority tid => if tid = thread.tid then some (some state.nice, state) else none
  | .attempt owner (.scheduler word priority) =>
    if owner.tid = thread.tid then (state.setScheduler word priority).map fun after => (true, after)
    else none
  | .attempt owner (.nice value) =>
    if owner.tid = thread.tid then some (true, state.setNice value) else none
  | _ => none

/-- A policy word is read back. -/
theorem readPolicyWord_policyWord (policy : SchedPolicy) (resetOnFork : Bool) :
    readPolicyWord (policyWord policy resetOnFork) = some (policy, resetOnFork) := by
  cases policy with
  | _ => cases resetOnFork with
    | _ => decide

/-- The policies without a real-time priority have their own words when the flag is off. -/
theorem isPlainPolicy_rawPolicy (state : SchedState) :
    isPlainPolicy state.rawPolicy = true ↔
      state.resetOnFork = false ∧ state.policy ≠ .fifo ∧ state.policy ≠ .rr := by
  have decided : ∀ policy : SchedPolicy, ∀ flag : Bool,
      isPlainPolicy (policyWord policy flag) = true ↔
        flag = false ∧ policy ≠ .fifo ∧ policy ≠ .rr := by
    intro policy flag
    cases policy with
    | _ => cases flag with
      | _ => decide
  exact decided state.policy state.resetOnFork

/-- No policy word is negative. -/
theorem rawPolicy_nonneg (state : SchedState) : ¬ state.rawPolicy < 0 := by
  rw [SchedState.rawPolicy, policyWord]
  omega

/-- Setting a policy that runs with the priority succeeds. -/
theorem SchedState.setScheduler_policyWord (state : SchedState) {policy : SchedPolicy}
    {priority : Int} (resetOnFork : Bool) (allowed : policy.Allows priority) :
    state.setScheduler (policyWord policy resetOnFork) priority =
      some { state with policy, resetOnFork, priority, allowed } := by
  rw [setScheduler, readPolicyWord_policyWord, Option.bind_some, dif_pos allowed]

/-- An answered operation. -/
theorem ends_answered {operation : SysOp} {response : SysSig.Res operation}
    {state after : SchedState} {post : SysSig.Res operation → SchedState → Prop}
    (answered : answerScheduler thread state operation = some (response, after))
    (holds : post response after) :
    (perform operation).Ends (answerScheduler thread) post state :=
  ⟨response, after, answered, holds⟩

section Calls

variable {state : SchedState} {post : Bool → SchedState → Prop}

/-- Setting a policy that runs with the priority. -/
theorem ends_setScheduler {policy : SchedPolicy} {priority : Int} {resetOnFork : Bool}
    (allowed : policy.Allows priority)
    (holds : post true { state with policy, resetOnFork, priority, allowed }) :
    (perform (.attempt thread (.scheduler (policyWord policy resetOnFork) priority))).Ends
      (answerScheduler thread) post state := by
  have answered : answerScheduler thread state
      (.attempt thread (.scheduler (policyWord policy resetOnFork) priority)) =
        some (true, { state with policy, resetOnFork, priority, allowed }) := by
    rw [answerScheduler, if_pos rfl, state.setScheduler_policyWord resetOnFork allowed]
    rfl
  exact ends_answered answered holds

/-- Setting a nice value. -/
theorem ends_setNiceValue {value : Int} (holds : post true (state.setNice value)) :
    (setNiceValue thread value).Ends (answerScheduler thread) post state := by
  have answered : answerScheduler thread state (.attempt thread (.nice value)) =
      some (true, state.setNice value) := by
    rw [answerScheduler, if_pos rfl]
  exact ends_answered answered holds

/-- Setting a policy, then a nice value. -/
theorem ends_setSchedulerThenNice {policy : SchedPolicy} {priority nice : Int}
    {resetOnFork : Bool} (allowed : policy.Allows priority)
    (holds : post true
      (SchedState.setNice { state with policy, resetOnFork, priority, allowed } nice)) :
    (setSchedulerThenNice thread (policyWord policy resetOnFork) priority nice).Ends
      (answerScheduler thread) post state := by
  rw [setSchedulerThenNice, Program.ends_bind]
  apply ends_setScheduler allowed
  rw [if_pos rfl]
  exact ends_setNiceValue holds

/-- What a capture reads. -/
def SchedState.captured (state : SchedState) : SchedulerBaseline where
  policy := state.rawPolicy
  priority := state.priority
  nice := if isPlainPolicy state.rawPolicy then state.nice else 0

/-- Capturing the scheduler state. -/
theorem ends_captureSchedulerBaseline {post : Option SchedulerBaseline → SchedState → Prop}
    (holds : post (some state.captured) state) :
    (captureSchedulerBaseline thread).Ends (answerScheduler thread) post state := by
  have policyRead : answerScheduler thread state (.schedGetscheduler thread.tid) =
      some (state.rawPolicy, state) := by
    rw [answerScheduler, if_pos rfl]
  have paramRead : answerScheduler thread state (.schedGetparam thread.tid) =
      some (some state.priority, state) := by
    rw [answerScheduler, if_pos rfl]
  have niceRead : answerScheduler thread state (.getpriority thread.tid) =
      some (some state.nice, state) := by
    rw [answerScheduler, if_pos rfl]
  rw [captureSchedulerBaseline, Program.ends_bind]
  apply ends_answered policyRead
  rw [if_neg (rawPolicy_nonneg state), Program.ends_bind]
  apply ends_answered paramRead
  dsimp only
  unfold SchedState.captured at holds
  by_cases plain : isPlainPolicy state.rawPolicy = true
  · rw [if_pos plain] at holds
    rw [if_pos plain, Program.ends_bind]
    exact ends_answered niceRead holds
  · rw [if_neg plain] at holds
    rw [if_neg plain]
    exact holds

end Calls

/-! ## The round trip -/

namespace PrioritySetter

/-- Set one priority value after the other. -/
def setPriorities (thread : Identity) : List Int → SysProgram Unit
  | [] => pure ()
  | prioValue :: rest => do
    let _ ← setPriority thread prioValue
    setPriorities thread rest

/-- Capture the scheduler state, set priority values and restore what was captured. -/
def roundTrip (thread : Identity) (prioValues : List Int) : SysProgram Bool := do
  match ← captureSchedulerBaseline thread with
  | none => pure false
  | some baseline =>
    setPriorities thread prioValues
    restoreScheduler thread baseline

/-- Whether a priority value names a nice value. -/
def namesNice (prioValue : Int) : Bool := 100 ≤ prioValue && prioValue ≤ 139

/-- The nice value after a priority value. -/
def niceAfter (nice prioValue : Int) : Int :=
  if namesNice prioValue then prioValue - 120 else nice

/-- A priority value changes the nice value only when it names one. -/
theorem ends_setPriority (positive : 0 < thread.tid) (state : SchedState) (prioValue : Int) :
    (setPriority thread prioValue).Ends (answerScheduler thread)
      (fun _ after => after.nice = niceAfter state.nice prioValue) state := by
  have normal : normalPolicy = policyWord .other false := by decide
  have batch : batchPolicy = policyWord .batch false := by decide
  have idle : idlePolicy = policyWord .idle false := by decide
  have fifo : schedFifo = policyWord .fifo false := by decide
  have unnamed : ¬ (100 ≤ prioValue ∧ prioValue ≤ 139) →
      state.nice = niceAfter state.nice prioValue := by
    intro outside
    have names : namesNice prioValue = false := by simpa [namesNice] using outside
    rw [niceAfter, names]
    rfl
  rw [setPriority, if_neg (by omega)]
  by_cases zero : prioValue = 0
  · rw [if_pos zero]
    exact unnamed (by omega)
  rw [if_neg zero]
  by_cases realTime : 1 ≤ prioValue ∧ prioValue ≤ 98
  · have allowed : SchedPolicy.fifo.Allows prioValue := ⟨realTime.1, by omega⟩
    rw [if_pos realTime, fifo]
    exact ends_setScheduler allowed (unnamed (by omega))
  rw [if_neg realTime]
  by_cases nice : 100 ≤ prioValue ∧ prioValue ≤ 139
  · have names : namesNice prioValue = true := by simpa [namesNice] using nice
    rw [if_pos nice, normal]
    refine ends_setSchedulerThenNice rfl ?_
    have clamped : max (-20) (min 19 (prioValue - 120)) = prioValue - 120 := by omega
    rw [niceAfter, names, if_pos rfl]
    exact clamped
  rw [if_neg nice]
  by_cases first : prioValue = -1
  · rw [if_pos first, setPolicy, normal]
    exact ends_setScheduler rfl (unnamed nice)
  rw [if_neg first]
  by_cases second : prioValue = -2
  · rw [if_pos second, setPolicy, batch]
    exact ends_setScheduler rfl (unnamed nice)
  rw [if_neg second]
  by_cases third : prioValue = -3
  · rw [if_pos third, setPolicy, idle]
    exact ends_setScheduler rfl (unnamed nice)
  rw [if_neg third]
  exact unnamed nice

/-- The nice value after a sequence of priority values. -/
theorem ends_setPriorities (positive : 0 < thread.tid) (prioValues : List Int)
    (state : SchedState) :
    (setPriorities thread prioValues).Ends (answerScheduler thread)
      (fun _ after => after.nice = prioValues.foldl niceAfter state.nice) state := by
  induction prioValues generalizing state with
  | nil => rfl
  | cons prioValue rest ih =>
    rw [setPriorities, Program.ends_bind]
    refine Program.ends_mono (ends_setPriority positive state prioValue) fun _ middle set => ?_
    rw [List.foldl_cons, ← set]
    exact ih middle

/-- Restoring what was captured gives everything back except the nice value, which it gives back
under a plain policy only. -/
theorem ends_restoreScheduler (positive : 0 < thread.tid) (before state : SchedState) :
    (restoreScheduler thread before.captured).Ends (answerScheduler thread)
      (fun ok after => ok = true ∧
        (after = before ↔
          isPlainPolicy before.rawPolicy = true ∨ state.nice = before.nice)) state := by
  have valid : ¬ (thread.tid ≤ 0 ∨ before.captured.policy < 0) := by
    rintro (negative | negative)
    · omega
    · exact rawPolicy_nonneg before negative
  have word : before.captured.policy = policyWord before.policy before.resetOnFork := rfl
  have priority : before.captured.priority = before.priority := rfl
  rw [restoreScheduler, if_neg valid, word, priority]
  by_cases plain : isPlainPolicy before.rawPolicy = true
  · have nice : before.captured.nice = before.nice := if_pos plain
    have plainWord : isPlainPolicy (policyWord before.policy before.resetOnFork) = true := plain
    rw [if_pos plainWord, nice]
    refine ends_setSchedulerThenNice before.allowed ⟨rfl, iff_of_true ?_ (.inl plain)⟩
    have bounds := before.inRange
    have clamped : max (-20) (min 19 before.nice) = before.nice := by omega
    exact SchedState.ext rfl rfl rfl clamped
  · have notPlain : ¬ isPlainPolicy (policyWord before.policy before.resetOnFork) = true := plain
    rw [if_neg notPlain]
    refine ends_setScheduler before.allowed ⟨rfl, ?_⟩
    constructor
    · intro same
      exact .inr (SchedState.ext_iff.mp same).2.2.2
    · rintro (other | same)
      · exact absurd other plain
      · exact SchedState.ext rfl rfl rfl same

/-- The nice value after some priority values is that of the last one that names one. -/
theorem foldl_niceAfter (prioValues : List Int) (nice : Int) :
    prioValues.foldl niceAfter nice =
      ((prioValues.filter namesNice).getLast?.map fun prioValue => prioValue - 120).getD nice := by
  induction prioValues generalizing nice with
  | nil => rfl
  | cons prioValue rest ih =>
    rw [List.foldl_cons, ih]
    by_cases names : namesNice prioValue = true
    · rw [List.filter_cons_of_pos names, List.getLast?_cons, niceAfter, if_pos names]
      cases (rest.filter namesNice).getLast? <;> rfl
    · rw [List.filter_cons_of_neg names, niceAfter, if_neg names]

/-- The round trip runs to its end, and the thread has its scheduler state back exactly when its
policy is plain and without the flag, or the last priority value that names a nice value names the
one it had. -/
theorem roundTrip_restores_iff (positive : 0 < thread.tid) (before : SchedState)
    (prioValues : List Int) :
    ∃ after,
      (roundTrip thread prioValues).exec (answerScheduler thread) before = some (true, after) ∧
      (after = before ↔
        (before.resetOnFork = false ∧ before.policy ≠ .fifo ∧ before.policy ≠ .rr) ∨
          ∀ prioValue, (prioValues.filter namesNice).getLast? = some prioValue →
            prioValue - 120 = before.nice) := by
  have ends : (roundTrip thread prioValues).Ends (answerScheduler thread)
      (fun ok after => ok = true ∧ (after = before ↔
        isPlainPolicy before.rawPolicy = true ∨
          prioValues.foldl niceAfter before.nice = before.nice)) before := by
    rw [roundTrip, Program.ends_bind]
    apply ends_captureSchedulerBaseline
    dsimp only
    rw [Program.ends_bind]
    refine Program.ends_mono (ends_setPriorities positive prioValues before) fun _ middle set => ?_
    rw [← set]
    exact ends_restoreScheduler positive before middle
  obtain ⟨ok, after, executed, rfl, restored⟩ := Program.ends_iff_exec.mp ends
  refine ⟨after, executed, ?_⟩
  rw [restored, isPlainPolicy_rawPolicy, foldl_niceAfter]
  refine or_congr_right ?_
  cases (prioValues.filter namesNice).getLast? with
  | none => simp
  | some prioValue => simp

/-- A thread whose children do not inherit its policy. -/
def flaggedState : SchedState where
  policy := .other
  resetOnFork := true
  priority := 0
  nice := -10
  allowed := rfl
  inRange := by decide

/-- A thread with that state. -/
def flaggedThread : Identity := ⟨7, 7, 1, 1⟩

/-- One priority value later the thread does not have its nice value back. -/
theorem roundTrip_loses_nice :
    ¬ ∀ (thread : Identity) (before after : SchedState) (prioValues : List Int) (ok : Bool),
      0 < thread.tid →
      (roundTrip thread prioValues).exec (answerScheduler thread) before = some (ok, after) →
      after = before := by
  intro restores
  have played : ((roundTrip flaggedThread [120]).exec (answerScheduler flaggedThread)
      flaggedState).map (fun found => found.2.nice) = some 0 := by decide +kernel
  obtain ⟨⟨ok, after⟩, executed, nice⟩ := Option.map_eq_some_iff.mp played
  have same := restores flaggedThread flaggedState after [120] ok (by decide) executed
  have kept : flaggedState.nice = 0 := same ▸ nice
  exact absurd kept (by decide)

theorem roundTrip_restores_iff_flagged :
    ∃ after, (roundTrip flaggedThread [120, 110]).exec (answerScheduler flaggedThread)
      flaggedState = some (true, after) ∧ after = flaggedState := by
  obtain ⟨after, executed, restored⟩ :=
    @roundTrip_restores_iff flaggedThread (by decide) flaggedState [120, 110]
  refine ⟨after, executed, restored.mpr (.inr ?_)⟩
  intro prioValue last
  have named : (List.filter namesNice [120, 110]).getLast? = some 110 := by decide +kernel
  have same : 110 = prioValue := Option.some.inj (named.symm.trans last)
  rw [← same]
  rfl

end PrioritySetter

end ReUperf
