import Mathlib.Tactic.Basic

/-!
# Programs over an effect signature

A program is a tree: it returns a value, or it calls one operation and continues with
the response. The tree says which calls are made and in which order, and nothing about
what they do. A `Machine` gives the operations a meaning as a relation on a state, so one
program text has as many meanings as there are machines. `wp` is the weakest
precondition of a program under a machine whose responses are chosen by the
environment, and `wp_iff_run` ties it to the runs of the program.
-/

namespace Effect

/-- The operations a program may call and the type of each one's response. -/
structure Signature where
  /-- The operations. -/
  Op : Type
  /-- The response of an operation. -/
  Res : Op → Type

/-- A program over a signature: a value, or one call and a continuation. -/
inductive Program (S : Signature) (α : Type) : Type where
  /-- Return a value. -/
  | ret (value : α)
  /-- Call an operation and continue with its response. -/
  | call (op : S.Op) (next : S.Res op → Program S α)

/-- The meaning of the operations of a signature on a state. Several responses, and
several next states, may be possible. -/
structure Machine (S : Signature) (σ : Type) where
  /-- The operation may answer with this response and leave this state. -/
  step : σ → (op : S.Op) → S.Res op → σ → Prop

namespace Program

variable {S T : Signature} {α β γ σ : Type}

/-- Run a program and continue with its value. -/
def bind : Program S α → (α → Program S β) → Program S β
  | ret value, rest => rest value
  | call op next, rest => call op fun response => (next response).bind rest

instance : Monad (Program S) where
  pure := ret
  bind := bind

/-- The program that calls one operation and returns its response. -/
def op (operation : S.Op) : Program S (S.Res operation) := call operation ret

@[simp] theorem ret_bind (value : α) (rest : α → Program S β) :
    (ret value >>= rest) = rest value := rfl

@[simp] theorem call_bind (operation : S.Op) (next : S.Res operation → Program S α)
    (rest : α → Program S β) :
    (call operation next >>= rest) = call operation fun response => next response >>= rest := rfl

/-- Returning the value of a program changes nothing. -/
theorem bind_ret (program : Program S α) : (program >>= ret) = program := by
  induction program with
  | ret value => rfl
  | call operation next ih =>
    rw [call_bind]
    exact congrArg (call operation) (funext ih)

/-- Sequencing is associative. -/
theorem bind_assoc (program : Program S α) (first : α → Program S β) (second : β → Program S γ) :
    (program >>= first >>= second) = (program >>= fun value => first value >>= second) := by
  induction program with
  | ret value => rfl
  | call operation next ih =>
    simp only [call_bind]
    exact congrArg (call operation) (funext ih)

instance : LawfulMonad (Program S) :=
  LawfulMonad.mk' (Program S) bind_ret (fun _ _ => rfl) bind_assoc

/-! ## Weakest preconditions and runs -/

/-- Every run of the program from this state ends with a value and a state that satisfy
the postcondition. -/
def wp (M : Machine S σ) : Program S α → (α → σ → Prop) → σ → Prop
  | ret value, post, state => post value state
  | call operation next, post, state =>
    ∀ response after, M.step state operation response after → (next response).wp M post after

variable {M : Machine S σ}

@[simp] theorem wp_ret (value : α) (post : α → σ → Prop) (state : σ) :
    (ret value : Program S α).wp M post state = post value state := rfl

@[simp] theorem wp_pure (value : α) (post : α → σ → Prop) (state : σ) :
    (pure value : Program S α).wp M post state = post value state := rfl

@[simp] theorem wp_op (operation : S.Op) (post : S.Res operation → σ → Prop) (state : σ) :
    (op operation).wp M post state =
      ∀ response after, M.step state operation response after → post response after := rfl

/-- The precondition of a sequence is that of its first part for the precondition of the
rest. -/
@[simp] theorem wp_bind (program : Program S α) (rest : α → Program S β)
    (post : β → σ → Prop) (state : σ) :
    (program >>= rest).wp M post state =
      program.wp M (fun value => (rest value).wp M post) state := by
  induction program generalizing state with
  | ret value => rfl
  | call operation next ih =>
    simp only [call_bind, wp]
    exact forall_congr fun response => forall_congr fun after => by rw [ih]

@[simp] theorem wp_ite (condition : Prop) [Decidable condition] (left right : Program S α)
    (post : α → σ → Prop) (state : σ) :
    (if condition then left else right).wp M post state =
      if condition then left.wp M post state else right.wp M post state := by
  split <;> rfl

/-- A weaker postcondition has a weaker precondition. -/
theorem wp_mono {program : Program S α} {post weaker : α → σ → Prop} {state : σ}
    (holds : program.wp M post state)
    (implies : ∀ value after, post value after → weaker value after) :
    program.wp M weaker state := by
  induction program generalizing state with
  | ret value => exact implies _ _ holds
  | call operation next ih =>
    intro response after stepped
    exact ih response (holds response after stepped)

/-- A postcondition of every value and state has a precondition of every state. -/
theorem wp_of_forall {program : Program S α} {post : α → σ → Prop} {state : σ}
    (holds : ∀ value after, post value after) : program.wp M post state := by
  induction program generalizing state with
  | ret value => exact holds value state
  | call operation next ih => exact fun response after _ => ih response

/-- Two postconditions hold together when each does. -/
theorem wp_and {program : Program S α} {left right : α → σ → Prop} {state : σ}
    (first : program.wp M left state) (second : program.wp M right state) :
    program.wp M (fun value after => left value after ∧ right value after) state := by
  induction program generalizing state with
  | ret value => exact ⟨first, second⟩
  | call operation next ih =>
    intro response after stepped
    exact ih response (first response after stepped) (second response after stepped)

/-- The program can run from the first state, return the value and leave the second. -/
inductive Run (M : Machine S σ) : Program S α → σ → α → σ → Prop where
  /-- A returned value ends the run. -/
  | ret (value : α) (state : σ) : Run M (.ret value) state value state
  /-- One call, then a run of the continuation. -/
  | call {operation : S.Op} {next : S.Res operation → Program S α} {state middle after : σ}
      {response : S.Res operation} {value : α} (stepped : M.step state operation response middle)
      (rest : Run M (next response) middle value after) :
      Run M (.call operation next) state value after

/-- The weakest precondition holds exactly when every run ends in the postcondition. -/
theorem wp_iff_run (program : Program S α) (post : α → σ → Prop) (state : σ) :
    program.wp M post state ↔
      ∀ value after, Run M program state value after → post value after := by
  constructor
  · intro holds value after run
    induction run with
    | ret value state => exact holds
    | call stepped rest ih => exact ih (holds _ _ stepped)
  · intro runs
    induction program generalizing state with
    | ret value => exact runs _ _ (.ret value state)
    | call operation next ih =>
      intro response middle stepped
      exact ih response middle fun value after run => runs value after (.call stepped run)

/-- What the precondition promises holds at the end of every run. -/
theorem Run.post {program : Program S α} {post : α → σ → Prop} {state after : σ} {value : α}
    (run : Run M program state value after) (holds : program.wp M post state) :
    post value after :=
  (wp_iff_run program post state).mp holds value after run

/-- A run of a sequence is a run of its first part and one of the rest. -/
theorem run_bind {program : Program S α} {rest : α → Program S β} {state after : σ} {value : β} :
    Run M (program >>= rest) state value after ↔
      ∃ result middle, Run M program state result middle ∧ Run M (rest result) middle value after := by
  constructor
  · intro run
    induction program generalizing state with
    | ret result => exact ⟨result, state, .ret result state, run⟩
    | call operation next ih =>
      cases run with
      | call stepped later =>
        obtain ⟨result, middle, first, second⟩ := ih _ later
        exact ⟨result, middle, .call stepped first, second⟩
  · intro ⟨result, middle, first, second⟩
    induction first with
    | ret result state => exact second
    | call stepped _ ih => exact .call stepped (ih second)

/-- A run is one of every machine that has its steps. -/
theorem Run.mono {N : Machine S σ} {program : Program S α} {state after : σ} {value : α}
    (run : Run M program state value after)
    (refines : ∀ state operation response after, M.step state operation response after →
      N.step state operation response after) : Run N program state value after := by
  induction run with
  | ret value state => exact .ret value state
  | call stepped _ ih => exact .call (refines _ _ _ _ stepped) ih

/-- Run a program with responses computed from the state; nothing when one is missing. -/
def exec (respond : σ → (operation : S.Op) → Option (S.Res operation × σ)) :
    Program S α → σ → Option (α × σ)
  | ret value, state => some (value, state)
  | call operation next, state =>
    match respond state operation with
    | some (response, after) => (next response).exec respond after
    | none => none

/-- An executed program is a run that keeps an invariant when every response computed under the
invariant is possible and keeps it. -/
theorem run_of_exec_inv {respond : σ → (operation : S.Op) → Option (S.Res operation × σ)}
    {inv : σ → Prop}
    (valid : ∀ {state operation response after}, inv state →
      respond state operation = some (response, after) →
        M.step state operation response after ∧ inv after)
    {program : Program S α} {state after : σ} {value : α} (holds : inv state)
    (executed : program.exec respond state = some (value, after)) :
    Run M program state value after ∧ inv after := by
  induction program generalizing state with
  | ret result =>
    cases executed
    exact ⟨.ret _ _, holds⟩
  | call operation next ih =>
    rw [exec] at executed
    cases answered : respond state operation with
    | none =>
      rw [answered] at executed
      cases executed
    | some found =>
      obtain ⟨response, middle⟩ := found
      rw [answered] at executed
      have stepped := valid holds answered
      have rest := ih response stepped.2 executed
      exact ⟨.call stepped.1 rest.1, rest.2⟩

/-- An executed program is a run when every computed response is possible. -/
theorem run_of_exec {respond : σ → (operation : S.Op) → Option (S.Res operation × σ)}
    (valid : ∀ {state operation response after},
      respond state operation = some (response, after) → M.step state operation response after)
    {program : Program S α} {state after : σ} {value : α}
    (executed : program.exec respond state = some (value, after)) :
    Run M program state value after := by
  have always : ∀ {state operation response after}, True →
      respond state operation = some (response, after) →
        M.step state operation response after ∧ True :=
    fun _ answered => ⟨valid answered, trivial⟩
  exact (run_of_exec_inv always trivial executed).1

/-! ## Calls a program can make -/

/-- Every operation the program can call, whatever the responses, satisfies the predicate. -/
def Calls (allowed : S.Op → Prop) : Program S α → Prop
  | ret _ => True
  | call operation next => allowed operation ∧ ∀ response, (next response).Calls allowed

@[simp] theorem calls_pure (allowed : S.Op → Prop) (value : α) :
    (pure value : Program S α).Calls allowed := trivial

@[simp] theorem calls_op (allowed : S.Op → Prop) (operation : S.Op) :
    (op operation).Calls allowed ↔ allowed operation := by
  simp [op, Calls]

/-- A sequence makes the calls of its parts. -/
theorem Calls.bind {allowed : S.Op → Prop} {program : Program S α} {rest : α → Program S β}
    (first : program.Calls allowed) (second : ∀ value, (rest value).Calls allowed) :
    (program >>= rest).Calls allowed := by
  induction program with
  | ret value => exact second value
  | call operation next ih => exact ⟨first.1, fun response => ih response (first.2 response)⟩

/-- A branch makes the calls of one of its arms. -/
theorem Calls.ite {allowed : S.Op → Prop} {condition : Prop} [Decidable condition]
    {left right : Program S α} (first : condition → left.Calls allowed)
    (second : ¬ condition → right.Calls allowed) :
    (if condition then left else right).Calls allowed := by
  split
  · exact first ‹_›
  · exact second ‹_›

/-- A program that only calls allowed operations also only calls operations of a wider kind. -/
theorem Calls.mono {allowed wider : S.Op → Prop} {program : Program S α}
    (calls : program.Calls allowed) (implies : ∀ operation, allowed operation → wider operation) :
    program.Calls wider := by
  induction program with
  | ret value => trivial
  | call operation next ih =>
    exact ⟨implies operation calls.1, fun response => ih response (calls.2 response)⟩

/-- Operations of two kinds are of both. -/
theorem Calls.and {first second : S.Op → Prop} {program : Program S α}
    (left : program.Calls first) (right : program.Calls second) :
    program.Calls fun operation => first operation ∧ second operation := by
  induction program with
  | ret value => trivial
  | call operation next ih =>
    exact ⟨⟨left.1, right.1⟩, fun response => ih response (left.2 response) (right.2 response)⟩

/-- An invariant kept by every operation the program can call is kept by the program. -/
theorem Calls.wp_invariant {allowed : S.Op → Prop} {program : Program S α} (inv : σ → Prop)
    (calls : program.Calls allowed)
    (keeps : ∀ state operation response after, allowed operation → inv state →
      M.step state operation response after → inv after)
    {state : σ} (holds : inv state) : program.wp M (fun _ => inv) state := by
  induction program generalizing state with
  | ret value => exact holds
  | call operation next ih =>
    intro response after stepped
    exact ih response (calls.2 response) (keeps _ _ _ _ calls.1 holds stepped)

/-- A machine whose steps another machine has too, for the operations the program can call,
keeps what the other machine promises. -/
theorem Calls.wp_of_refines {N : Machine S σ} {allowed : S.Op → Prop} {program : Program S α}
    (calls : program.Calls allowed)
    (refines : ∀ state operation response after, allowed operation →
      M.step state operation response after → N.step state operation response after)
    {post : α → σ → Prop} {state : σ} (holds : program.wp N post state) :
    program.wp M post state := by
  induction program generalizing state with
  | ret value => exact holds
  | call operation next ih =>
    intro response after stepped
    exact ih response (calls.2 response)
      (holds response after (refines _ _ _ _ calls.1 stepped))

/-- An invariant kept by every operation is kept by every program. -/
theorem wp_of_step {program : Program S α} (inv : σ → Prop)
    (keeps : ∀ state operation response after, inv state →
      M.step state operation response after → inv after)
    {state : σ} (holds : inv state) : program.wp M (fun _ => inv) state := by
  induction program generalizing state with
  | ret value => exact holds
  | call operation next ih =>
    intro response after stepped
    exact ih response (keeps _ _ _ _ holds stepped)

/-! ## Interpretation -/

/-- Replace every operation by a program over another signature. -/
def interpret (handler : (operation : S.Op) → Program T (S.Res operation)) :
    Program S α → Program T α
  | ret value => ret value
  | call operation next => handler operation >>= fun response => (next response).interpret handler

@[simp] theorem interpret_pure (handler : (operation : S.Op) → Program T (S.Res operation))
    (value : α) : (pure value : Program S α).interpret handler = pure value := rfl

@[simp] theorem interpret_op (handler : (operation : S.Op) → Program T (S.Res operation))
    (operation : S.Op) : (op operation).interpret handler = handler operation :=
  bind_ret (handler operation)

@[simp] theorem interpret_ite (handler : (operation : S.Op) → Program T (S.Res operation))
    (condition : Prop) [Decidable condition] (left right : Program S α) :
    (if condition then left else right).interpret handler =
      if condition then left.interpret handler else right.interpret handler :=
  apply_ite _ _ _ _

/-- Interpretation distributes over sequencing. -/
@[simp] theorem interpret_bind (handler : (operation : S.Op) → Program T (S.Res operation))
    (program : Program S α) (rest : α → Program S β) :
    (program >>= rest).interpret handler =
      (program.interpret handler >>= fun value => (rest value).interpret handler) := by
  induction program with
  | ret value => rfl
  | call operation next ih => simp [interpret, ih]

end Program

/-- The machine on which one operation is a whole run of its handler. -/
def Machine.through {S T : Signature} {σ : Type} (M : Machine T σ)
    (handler : (operation : S.Op) → Program T (S.Res operation)) : Machine S σ where
  step state operation response after := Program.Run M (handler operation) state response after

namespace Program

variable {S T : Signature} {α β γ σ : Type}

/-- Interpreting a program is running it on the machine of its handlers. -/
theorem wp_interpret {M : Machine T σ}
    (handler : (operation : S.Op) → Program T (S.Res operation)) (program : Program S α)
    (post : α → σ → Prop) (state : σ) :
    (program.interpret handler).wp M post state ↔
      program.wp (M.through handler) post state := by
  induction program generalizing state with
  | ret value => rfl
  | call operation next ih =>
    simp only [interpret, wp_bind]
    rw [wp_iff_run]
    exact forall_congr' fun response => forall_congr' fun after =>
      imp_congr_right fun _ => ih response after

/-- Interpreted programs make the calls of their handlers. -/
theorem Calls.interpret {handler : (operation : S.Op) → Program T (S.Res operation)}
    {source : S.Op → Prop} {allowed : T.Op → Prop} {program : Program S α}
    (calls : program.Calls source)
    (handled : ∀ operation, source operation → (handler operation).Calls allowed) :
    (program.interpret handler).Calls allowed := by
  induction program with
  | ret value => trivial
  | call operation next ih =>
    exact (handled operation calls.1).bind fun response => ih response (calls.2 response)

/-! ## Exceptions -/

/-- What holds when a program returns and when it throws. -/
def caught (returned : α → σ → Prop) (thrown : σ → Prop) : Option α → σ → Prop
  | some value => returned value
  | none => thrown

/-- Run a program whose operations may throw; nothing is returned when one does. -/
def attempt (handler : (operation : S.Op) → Program T (Option (S.Res operation))) :
    Program S α → Program T (Option α)
  | ret value => ret (some value)
  | call operation next => handler operation >>= fun
    | some response => (next response).attempt handler
    | none => ret none

/-- An attempted operation returns or throws. -/
theorem wp_attempt_op {M : Machine T σ}
    (handler : (operation : S.Op) → Program T (Option (S.Res operation))) (operation : S.Op)
    (returned : S.Res operation → σ → Prop) (thrown : σ → Prop) (state : σ) :
    ((op operation).attempt handler).wp M (caught returned thrown) state =
      (handler operation).wp M (caught returned thrown) state := by
  simp only [op, attempt, wp_bind]
  congr 1
  funext answer after
  cases answer <;> rfl

/-- The rest of a sequence is attempted when its first part returns. -/
theorem wp_attempt_bind {M : Machine T σ}
    (handler : (operation : S.Op) → Program T (Option (S.Res operation)))
    (program : Program S α) (rest : α → Program S β) (returned : β → σ → Prop)
    (thrown : σ → Prop) (state : σ) :
    ((program >>= rest).attempt handler).wp M (caught returned thrown) state =
      (program.attempt handler).wp M (caught (fun value =>
        ((rest value).attempt handler).wp M (caught returned thrown)) thrown) state := by
  induction program generalizing state with
  | ret value => rfl
  | call operation next ih =>
    simp only [call_bind, attempt, wp_bind]
    congr 1
    funext answer after
    cases answer with
    | none => rfl
    | some response => exact ih response after

end Program

end Effect
