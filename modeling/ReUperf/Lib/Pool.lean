import Mathlib.Logic.Relation
import Mathlib.Logic.Function.Basic
import ReUperf.Lib.Program

/-!
# Interleaved programs and rely-guarantee proofs

A pool is a set of agents that run programs over one shared state. A step of the pool is
one operation of one agent, the start of an idle agent's next job, or a step of the
environment, so every interleaving at the granularity of single operations is a run.

A program is proved safe against a `Contract`: whatever steps the others take within the
rely, every operation of the program keeps the shared invariant and stays within the
guarantee. `Triple` is the Hoare form of that judgement. `PoolSystem.reachable_safe`
composes the contracts: when each agent's guarantee lies within the others' relies,
every reachable state of the pool satisfies the invariant and every operation performed
in it the guarantee of its agent.
-/

namespace Effect

variable {S : Signature} {σ ι α β : Type}

/-! ## Pools -/

/-- The jobs, the operations and the environment of a pool of agents. -/
structure PoolSystem (S : Signature) (σ ι : Type) where
  /-- The meaning of one operation on the shared state. -/
  machine : Machine S σ
  /-- A step that no agent takes. -/
  environment : σ → σ → Prop
  /-- An idle agent may start this program, leaving this state. -/
  job : ι → σ → Program S Unit → σ → Prop

/-- The shared state and what each agent has left to run. -/
structure Pool (S : Signature) (σ ι : Type) where
  /-- The shared state. -/
  state : σ
  /-- The rest of each agent's program; a returned program is an idle agent. -/
  control : ι → Program S Unit

namespace PoolSystem

variable [DecidableEq ι] (system : PoolSystem S σ ι)

/-- One step of the pool. -/
inductive Step : Pool S σ ι → Pool S σ ι → Prop where
  /-- The environment moves. -/
  | environment {pool : Pool S σ ι} {after : σ} (moved : system.environment pool.state after) :
      Step pool ⟨after, pool.control⟩
  /-- An idle agent starts a job. -/
  | start {pool : Pool S σ ι} {agent : ι} {program : Program S Unit} {after : σ}
      (idle : pool.control agent = .ret ()) (started : system.job agent pool.state program after) :
      Step pool ⟨after, Function.update pool.control agent program⟩
  /-- An agent performs its next operation. -/
  | operate {pool : Pool S σ ι} {agent : ι} {operation : S.Op}
      {next : S.Res operation → Program S Unit} {response : S.Res operation} {after : σ}
      (running : pool.control agent = .call operation next)
      (stepped : system.machine.step pool.state operation response after) :
      Step pool ⟨after, Function.update pool.control agent (next response)⟩

/-- The pools that some run from the given one reaches. -/
abbrev Reaches (pool after : Pool S σ ι) : Prop := Relation.ReflTransGen system.Step pool after

end PoolSystem

/-- The pool in which every agent is idle. -/
def Pool.idle (state : σ) : Pool S σ ι := ⟨state, fun _ => .ret ()⟩

/-! ## Contracts -/

/-- What an agent assumes of the others' steps and promises of its own. -/
structure Contract (σ : Type) where
  /-- What the others may do. -/
  rely : σ → σ → Prop
  /-- What this agent does. -/
  guar : σ → σ → Prop
  /-- Doing nothing is within the rely. -/
  rely_refl : ∀ state, rely state state
  /-- Several steps of the others are within the rely. -/
  rely_trans : ∀ {first second third}, rely first second → rely second third → rely first third

/-- A fact about the state that the others' steps keep. -/
def Contract.Stable (C : Contract σ) (fact : σ → Prop) : Prop :=
  ∀ {state after}, fact state → C.rely state after → fact after

/-- Stable facts are closed under conjunction. -/
theorem Contract.Stable.and {C : Contract σ} {left right : σ → Prop} (first : C.Stable left)
    (second : C.Stable right) : C.Stable fun state => left state ∧ right state :=
  fun holds relied => ⟨first holds.1 relied, second holds.2 relied⟩

/-- A fact that does not mention the state is stable. -/
theorem Contract.Stable.const {C : Contract σ} (fact : Prop) : C.Stable fun _ => fact :=
  fun holds _ => holds

/-- A quantified stable fact is stable. -/
theorem Contract.Stable.forall {C : Contract σ} {κ : Sort*} {fact : κ → σ → Prop}
    (each : ∀ index, C.Stable (fact index)) : C.Stable fun state => ∀ index, fact index state :=
  fun holds relied index => each index (holds index) relied

namespace Program

/-- Under any interference within the rely, every operation of the program keeps the
invariant and the guarantee, and a returned value satisfies the postcondition. -/
def Safe (M : Machine S σ) (inv : σ → Prop) (C : Contract σ) :
    Program S α → (α → σ → Prop) → σ → Prop
  | ret value, post, state => post value state
  | call operation next, post, state =>
    ∀ before, C.rely state before → inv before → ∀ response after,
      M.step before operation response after →
        inv after ∧ C.guar before after ∧ (next response).Safe M inv C post after

variable {M : Machine S σ} {inv : σ → Prop} {C : Contract σ}

/-- Sequencing composes safety. -/
theorem safe_bind (program : Program S α) (rest : α → Program S β) (post : β → σ → Prop)
    (state : σ) :
    (program >>= rest).Safe M inv C post state ↔
      program.Safe M inv C (fun value after => (rest value).Safe M inv C post after) state := by
  induction program generalizing state with
  | ret value => rfl
  | call operation next ih => simp only [call_bind, Safe, ih]

/-- A weaker postcondition is easier to reach. -/
theorem safe_mono {program : Program S α} {post weaker : α → σ → Prop} {state : σ}
    (safe : program.Safe M inv C post state)
    (implies : ∀ value after, post value after → weaker value after) :
    program.Safe M inv C weaker state := by
  induction program generalizing state with
  | ret value => exact implies _ _ safe
  | call operation next ih =>
    intro before relied holds response after stepped
    obtain ⟨kept, promised, rest⟩ := safe before relied holds response after stepped
    exact ⟨kept, promised, ih response rest⟩

/-- Two postconditions are reached together when each is. -/
theorem safe_and {program : Program S α} {left right : α → σ → Prop} {state : σ}
    (first : program.Safe M inv C left state) (second : program.Safe M inv C right state) :
    program.Safe M inv C (fun value after => left value after ∧ right value after) state := by
  induction program generalizing state with
  | ret value => exact ⟨first, second⟩
  | call operation next ih =>
    intro before relied holds response after stepped
    obtain ⟨kept, promised, rest⟩ := first before relied holds response after stepped
    exact ⟨kept, promised, ih response rest (second before relied holds response after stepped).2.2⟩

/-- The others' steps keep safety when they keep the postcondition. -/
theorem safe_stable {program : Program S α} {post : α → σ → Prop} {state after : σ}
    (safe : program.Safe M inv C post state) (relied : C.rely state after)
    (stable : ∀ value, C.Stable (post value)) : program.Safe M inv C post after := by
  cases program with
  | ret value => exact stable value safe relied
  | call operation next =>
    intro before later holds response final stepped
    exact safe before (C.rely_trans relied later) holds response final stepped

end Program

/-- From every state in the precondition the program is safe and ends in the
postcondition. -/
def Triple (M : Machine S σ) (inv : σ → Prop) (C : Contract σ) (pre : σ → Prop)
    (program : Program S α) (post : α → σ → Prop) : Prop :=
  ∀ state, pre state → program.Safe M inv C post state

namespace Triple

variable {M : Machine S σ} {inv : σ → Prop} {C : Contract σ} {pre : σ → Prop}

/-- Returning a value. -/
protected theorem pure {value : α} {post : α → σ → Prop}
    (implies : ∀ state, pre state → post value state) :
    Triple M inv C pre (pure value : Program S α) post := implies

/-- Sequencing. -/
protected theorem bind {program : Program S α} {rest : α → Program S β}
    {middle : α → σ → Prop} {post : β → σ → Prop} (first : Triple M inv C pre program middle)
    (second : ∀ value, Triple M inv C (middle value) (rest value) post) :
    Triple M inv C pre (program >>= rest) post := by
  intro state holds
  rw [Program.safe_bind]
  exact Program.safe_mono (first state holds) second

/-- A stronger precondition and a weaker postcondition. -/
theorem weaken {program : Program S α} {stronger : σ → Prop} {post weaker : α → σ → Prop}
    (triple : Triple M inv C pre program post) (before : ∀ state, stronger state → pre state)
    (after : ∀ value state, post value state → weaker value state) :
    Triple M inv C stronger program weaker :=
  fun state holds => Program.safe_mono (triple state (before state holds)) after

/-- Two judgements of one program hold together. -/
protected theorem and {program : Program S α} {other : σ → Prop} {left right : α → σ → Prop}
    (first : Triple M inv C pre program left) (second : Triple M inv C other program right) :
    Triple M inv C (fun state => pre state ∧ other state) program
      (fun value state => left value state ∧ right value state) :=
  fun state holds => Program.safe_and (first state holds.1) (second state holds.2)

/-- One operation, from a stable precondition. -/
protected theorem op {operation : S.Op} {post : S.Res operation → σ → Prop}
    (stable : C.Stable pre)
    (steps : ∀ before, pre before → inv before → ∀ response after,
      M.step before operation response after →
        inv after ∧ C.guar before after ∧ post response after) :
    Triple M inv C pre (Program.op operation) post :=
  fun _ holds before relied kept response after stepped =>
    steps before (stable holds relied) kept response after stepped

/-- A branch. -/
protected theorem ite {condition : Prop} [Decidable condition] {left right : Program S α}
    {post : α → σ → Prop} (first : condition → Triple M inv C pre left post)
    (second : ¬ condition → Triple M inv C pre right post) :
    Triple M inv C pre (if condition then left else right) post := by
  split
  · exact first ‹_›
  · exact second ‹_›

/-- A program all of whose operations keep a stable fact keeps it. -/
theorem of_calls {allowed : S.Op → Prop} {program : Program S α} (calls : program.Calls allowed)
    (stable : C.Stable pre)
    (steps : ∀ operation, allowed operation → ∀ before, pre before → inv before →
      ∀ response after, M.step before operation response after →
        inv after ∧ C.guar before after ∧ pre after) :
    Triple M inv C pre program (fun _ => pre) := by
  induction program with
  | ret value => exact fun _ holds => holds
  | call operation next ih =>
    intro state holds before relied kept response after stepped
    obtain ⟨kept, promised, held⟩ :=
      steps operation calls.1 before (stable holds relied) kept response after stepped
    exact ⟨kept, promised, ih response (calls.2 response) after held⟩

end Triple

/-! ## Composition -/

namespace PoolSystem

variable (system : PoolSystem S σ ι)

/-- The obligations under which the agents' contracts fit together. -/
structure Discharged (inv : σ → Prop) (contract : ι → Contract σ) : Prop where
  /-- The environment keeps the invariant and every rely. -/
  environment : ∀ {state after}, inv state → system.environment state after →
    inv after ∧ ∀ agent, (contract agent).rely state after
  /-- A job starts safely and its start is within the others' relies. -/
  start : ∀ {agent state program after}, inv state → system.job agent state program after →
    inv after ∧ (∀ other, other ≠ agent → (contract other).rely state after) ∧
      program.Safe system.machine inv (contract agent) (fun _ _ => True) after
  /-- Each guarantee lies within the others' relies. -/
  share : ∀ {agent other state after}, other ≠ agent → inv state → inv after →
    (contract agent).guar state after → (contract other).rely state after

variable {system} {inv : σ → Prop} {contract : ι → Contract σ}

/-- A pool in a state of the invariant whose agents are all safe. -/
def PoolSafe (system : PoolSystem S σ ι) (inv : σ → Prop) (contract : ι → Contract σ)
    (pool : Pool S σ ι) : Prop :=
  inv pool.state ∧ ∀ agent, (pool.control agent).Safe system.machine inv (contract agent)
    (fun _ _ => True) pool.state

/-- One step of the pool keeps it safe. -/
theorem Discharged.step [DecidableEq ι] (discharged : system.Discharged inv contract) {pool after : Pool S σ ι}
    (safe : system.PoolSafe inv contract pool) (step : system.Step pool after) :
    system.PoolSafe inv contract after := by
  obtain ⟨kept, agents⟩ := safe
  have relied : ∀ agent {next}, (contract agent).rely pool.state next →
      (pool.control agent).Safe system.machine inv (contract agent) (fun _ _ => True) next :=
    fun agent _ relies => Program.safe_stable (agents agent) relies fun _ => fun _ _ => trivial
  cases step with
  | environment moved =>
    obtain ⟨keeps, relies⟩ := discharged.environment kept moved
    exact ⟨keeps, fun agent => relied agent (relies agent)⟩
  | @start mover program next idle started =>
    obtain ⟨keeps, relies, begun⟩ := discharged.start kept started
    refine ⟨keeps, fun agent => ?_⟩
    by_cases same : agent = mover
    · subst same
      simpa using begun
    · simpa [Function.update_of_ne same] using relied agent (relies agent same)
  | @operate mover operation rest response next running stepped =>
    have moverSafe := agents mover
    rw [running] at moverSafe
    obtain ⟨keeps, promised, continued⟩ :=
      moverSafe pool.state ((contract mover).rely_refl _) kept response next stepped
    refine ⟨keeps, fun agent => ?_⟩
    by_cases same : agent = mover
    · subst same
      simpa using continued
    · simpa [Function.update_of_ne same] using
        relied agent (discharged.share same kept keeps promised)

/-- Every reachable pool is safe. -/
theorem Discharged.reachable_safe [DecidableEq ι] (discharged : system.Discharged inv contract)
    {start pool : Pool S σ ι} (initial : system.PoolSafe inv contract start)
    (reached : system.Reaches start pool) : system.PoolSafe inv contract pool := by
  induction reached with
  | refl => exact initial
  | tail _ step ih => exact discharged.step ih step

/-- The pool of idle agents is safe when its state satisfies the invariant. -/
theorem PoolSafe.idle {state : σ} (kept : inv state) :
    system.PoolSafe inv contract (Pool.idle state) := ⟨kept, fun _ => trivial⟩

/-- Every operation performed in a safe pool is within its agent's guarantee. -/
theorem PoolSafe.operate {pool : Pool S σ ι} (safe : system.PoolSafe inv contract pool)
    {agent : ι} {operation : S.Op} {next : S.Res operation → Program S Unit}
    {response : S.Res operation} {after : σ} (running : pool.control agent = .call operation next)
    (stepped : system.machine.step pool.state operation response after) :
    (contract agent).guar pool.state after := by
  have agentSafe := safe.2 agent
  rw [running] at agentSafe
  exact (agentSafe pool.state ((contract agent).rely_refl _) safe.1 response after stepped).2.1

end PoolSystem

/-! ## Operations of agents -/

/-- The operations of a signature, each with the agent that performs it. -/
@[reducible] def Signature.byAgents (S : Signature) (ι : Type) : Signature where
  Op := ι × S.Op
  Res operation := S.Res operation.2

/-- A program performed by an agent. -/
def Program.byAgent (agent : ι) (program : Program S α) : Program (S.byAgents ι) α :=
  program.interpret fun operation => Program.op (S := S.byAgents ι) (agent, operation)

/-- A program performed by an agent makes its own calls. -/
theorem Program.Calls.byAgent {allowed : S.Op → Prop} {program : Program S α}
    (calls : program.Calls allowed) (agent : ι) :
    (program.byAgent agent).Calls fun operation : ι × S.Op =>
      operation.1 = agent ∧ allowed operation.2 :=
  calls.interpret fun _ own => (Program.calls_op _ _).mpr ⟨rfl, own⟩

/-! ## Driven runs -/

/-- Perform up to `count` operations of a program with responses computed from the state. -/
def Program.drive (respond : σ → (operation : S.Op) → Option (S.Res operation × σ)) :
    Nat → Program S α → σ → Program S α × σ
  | count + 1, .call operation next, state =>
    match respond state operation with
    | some (response, after) => (next response).drive respond count after
    | none => (.call operation next, state)
  | _, program, state => (program, state)

/-- Driving one agent of a pool is a run of the pool. -/
theorem PoolSystem.reaches_drive [DecidableEq ι] {system : PoolSystem S σ ι}
    {respond : σ → (operation : S.Op) → Option (S.Res operation × σ)}
    (valid : ∀ {state operation response after},
      respond state operation = some (response, after) →
        system.machine.step state operation response after)
    (agent : ι) (count : Nat) (pool : Pool S σ ι) :
    system.Reaches pool
      ⟨((pool.control agent).drive respond count pool.state).2,
        Function.update pool.control agent
          ((pool.control agent).drive respond count pool.state).1⟩ := by
  induction count generalizing pool with
  | zero =>
    cases shape : pool.control agent <;>
      simp only [Program.drive] <;> rw [← shape, Function.update_eq_self]
  | succ count ih =>
    cases shape : pool.control agent with
    | ret value => simp only [Program.drive]; rw [← shape, Function.update_eq_self]
    | call operation next =>
      simp only [Program.drive]
      cases answered : respond pool.state operation with
      | none => simp only; rw [← shape, Function.update_eq_self]
      | some found =>
        obtain ⟨response, after⟩ := found
        have first : system.Step pool ⟨after, Function.update pool.control agent (next response)⟩ :=
          .operate shape (valid answered)
        have rest := ih ⟨after, Function.update pool.control agent (next response)⟩
        simp only [Function.update_self, Function.update_idem] at rest
        exact .head first rest

end Effect
