import ReUperf.Lib.Program

/-!
# Loops

A program is a finite tree, so a loop without a bound on its rounds is given fuel. Where the
fuel ends the program calls an operation that has no response: such a run does not go on, and
nothing is said about it. `wp_loop` is the rule of partial correctness. `Ends` is total
correctness under computed responses: the run reaches its end, so it has fuel enough.
-/

namespace Effect

variable {S : Signature} {σ α β τ : Type}

/-- A signature with one more operation, which never answers. -/
@[reducible] def Signature.withSpin (S : Signature) : Signature where
  Op := Option S.Op
  Res
    | some operation => S.Res operation
    | none => Empty

/-- The machine of the operations that answer. -/
def Machine.withSpin (M : Machine S σ) : Machine S.withSpin σ where
  step
    | state, some operation, response, after => M.step state operation response after
    | _, none, response, _ => response.elim

/-- A program with loops. -/
abbrev Looping (S : Signature) (α : Type) : Type := Program S.withSpin α

namespace Looping

/-- Call an operation that answers. -/
def op (operation : S.Op) : Looping S (S.Res operation) :=
  Program.op (S := S.withSpin) (some operation)

/-- Do not go on. -/
def spin : Looping S α := .call none Empty.elim

/-- Repeat a body, which tells how to go on or with which value to end. -/
def loop (body : τ → Looping S (τ ⊕ β)) : Nat → τ → Looping S β
  | 0, _ => spin
  | fuel + 1, state => do
    match ← body state with
    | .inl next => loop body fuel next
    | .inr value => pure value

/-- Replace every operation by a program over another signature. -/
def interpret {T : Signature} (handler : (operation : S.Op) → Looping T (S.Res operation)) :
    Looping S α → Looping T α :=
  Program.interpret (S := S.withSpin) fun
    | some operation => handler operation
    | none => spin

variable {M : Machine S σ}

@[simp] theorem wp_op (operation : S.Op) (post : S.Res operation → σ → Prop) (state : σ) :
    (op operation).wp M.withSpin post state =
      ∀ response after, M.step state operation response after → post response after := rfl

@[simp] theorem wp_spin (post : α → σ → Prop) (state : σ) :
    (spin : Looping S α).wp M.withSpin post state := fun response => response.elim

/-- A loop ends in the postcondition when its body keeps an invariant or reaches it. -/
theorem wp_loop {body : τ → Looping S (τ ⊕ β)} {post : β → σ → Prop} (inv : τ → σ → Prop)
    (step : ∀ current state, inv current state →
      (body current).wp M.withSpin
        (fun outcome after => outcome.elim (fun next => inv next after)
          fun value => post value after) state)
    (fuel : Nat) {current : τ} {state : σ} (holds : inv current state) :
    (loop body fuel current).wp M.withSpin post state := by
  induction fuel generalizing current state with
  | zero => exact wp_spin post state
  | succ fuel ih =>
    rw [loop, Program.wp_bind]
    refine Program.wp_mono (step current state holds) fun outcome after reached => ?_
    cases outcome with
    | inl next => exact ih reached
    | inr value => exact reached

/-- A loop makes the calls of its body, and of the operation that never answers. -/
theorem calls_loop {allowed : S.withSpin.Op → Prop} {body : τ → Looping S (τ ⊕ β)}
    (spins : allowed none) (calls : ∀ current, (body current).Calls allowed) (fuel : Nat)
    (current : τ) : (loop body fuel current).Calls allowed := by
  induction fuel generalizing current with
  | zero => exact ⟨spins, fun response => response.elim⟩
  | succ fuel ih =>
    refine (calls current).bind fun outcome => ?_
    cases outcome with
    | inl next => exact ih next
    | inr value => trivial

/-- A program whose operations are renamed means on one machine what it means on another where
the renamed operations do the same. -/
theorem wp_interpret_rename {T : Signature} {N : Machine T σ}
    {rename : (operation : S.Op) → Looping T (S.Res operation)}
    (same : ∀ operation (post : S.Res operation → σ → Prop) (state : σ),
      (rename operation).wp N.withSpin post state ↔
        ∀ response after, M.step state operation response after → post response after)
    (program : Looping S α) (post : α → σ → Prop) (state : σ) :
    (program.interpret rename).wp N.withSpin post state ↔ program.wp M.withSpin post state := by
  induction program generalizing state with
  | ret value => exact Iff.rfl
  | call operation next ih =>
    cases operation with
    | none => exact iff_of_true (fun response => response.elim) fun response => response.elim
    | some operation =>
      rw [interpret, Program.interpret, Program.wp_bind, same]
      exact forall_congr' fun response => forall_congr' fun after => imp_congr_right fun _ =>
        ih response after

end Looping

/-! ## Total correctness -/

namespace Program

/-- With responses computed from the state, the program ends with a value and a state in the
postcondition. -/
def Ends (respond : σ → (operation : S.Op) → Option (S.Res operation × σ)) :
    Program S α → (α → σ → Prop) → σ → Prop
  | ret value, post, state => post value state
  | call operation next, post, state =>
    ∃ response after, respond state operation = some (response, after) ∧
      (next response).Ends respond post after

variable {respond : σ → (operation : S.Op) → Option (S.Res operation × σ)}

@[simp] theorem ends_pure (value : α) (post : α → σ → Prop) (state : σ) :
    (pure value : Program S α).Ends respond post state = post value state := rfl

@[simp] theorem ends_bind (program : Program S α) (rest : α → Program S β)
    (post : β → σ → Prop) (state : σ) :
    (program >>= rest).Ends respond post state =
      program.Ends respond (fun value => (rest value).Ends respond post) state := by
  induction program generalizing state with
  | ret value => rfl
  | call operation next ih =>
    simp only [call_bind, Ends, ih]

@[simp] theorem ends_ite (condition : Prop) [Decidable condition] (left right : Program S α)
    (post : α → σ → Prop) (state : σ) :
    (if condition then left else right).Ends respond post state =
      if condition then left.Ends respond post state else right.Ends respond post state := by
  split <;> rfl

/-- A weaker postcondition is easier to reach. -/
theorem ends_mono {program : Program S α} {post weaker : α → σ → Prop} {state : σ}
    (ends : program.Ends respond post state)
    (implies : ∀ value after, post value after → weaker value after) :
    program.Ends respond weaker state := by
  induction program generalizing state with
  | ret value => exact implies _ _ ends
  | call operation next ih =>
    obtain ⟨response, after, answered, rest⟩ := ends
    exact ⟨response, after, answered, ih response rest⟩

/-- A program ends in the postcondition exactly when its execution does. -/
theorem ends_iff_exec {program : Program S α} {post : α → σ → Prop} {state : σ} :
    program.Ends respond post state ↔
      ∃ value after, program.exec respond state = some (value, after) ∧ post value after := by
  induction program generalizing state with
  | ret value =>
    constructor
    · exact fun ends => ⟨value, state, rfl, ends⟩
    · rintro ⟨_, _, ⟨⟩, ends⟩
      exact ends
  | call operation next ih =>
    rw [Ends, exec]
    cases answered : respond state operation with
    | none =>
      constructor
      · rintro ⟨_, _, ⟨⟩, _⟩
      · rintro ⟨_, _, ⟨⟩, _⟩
    | some found =>
      obtain ⟨response, after⟩ := found
      constructor
      · rintro ⟨_, _, ⟨⟩, ends⟩
        exact (ih response).mp ends
      · exact fun executed => ⟨response, after, rfl, (ih response).mpr executed⟩

/-- What a program must reach, it reaches with what holds of every run. -/
theorem Ends.and_wp {M : Machine S σ}
    (valid : ∀ {state operation response after},
      respond state operation = some (response, after) → M.step state operation response after)
    {program : Program S α} {left right : α → σ → Prop} {state : σ}
    (ends : program.Ends respond left state) (holds : program.wp M right state) :
    program.Ends respond (fun value after => left value after ∧ right value after) state := by
  induction program generalizing state with
  | ret value => exact ⟨ends, holds⟩
  | call operation next ih =>
    obtain ⟨response, after, answered, rest⟩ := ends
    exact ⟨response, after, answered, ih response rest (holds _ _ (valid answered))⟩

/-- Two ways to compute the responses, of which the second sees a part of the first one's state,
execute a program in the same way. -/
theorem exec_map {seen : σ → τ} {inv : σ → Prop}
    {respondSeen : τ → (operation : S.Op) → Option (S.Res operation × τ)}
    (same : ∀ state operation, inv state →
      (respond state operation).map (Prod.map id seen) = respondSeen (seen state) operation)
    (keeps : ∀ {state operation response after}, inv state →
      respond state operation = some (response, after) → inv after)
    (program : Program S α) {state : σ} (holds : inv state) :
    (program.exec respond state).map (Prod.map id seen) =
      program.exec respondSeen (seen state) := by
  induction program generalizing state with
  | ret value => rfl
  | call operation next ih =>
    rw [exec, exec, ← same state operation holds]
    cases answered : respond state operation with
    | none => rfl
    | some found =>
      obtain ⟨response, after⟩ := found
      exact ih response (keeps holds answered)

end Program

namespace Looping

/-- Computed responses of the operations that answer. -/
def respondWithSpin (respond : σ → (operation : S.Op) → Option (S.Res operation × σ)) :
    σ → (operation : S.withSpin.Op) → Option (S.withSpin.Res operation × σ)
  | state, some operation => respond state operation
  | _, none => none

/-- The program ends in the postcondition. -/
abbrev Ends (respond : σ → (operation : S.Op) → Option (S.Res operation × σ))
    (program : Looping S α) (post : α → σ → Prop) (state : σ) : Prop :=
  Program.Ends (S := S.withSpin) (respondWithSpin respond) program post state

variable {respond : σ → (operation : S.Op) → Option (S.Res operation × σ)}

@[simp] theorem ends_op (operation : S.Op) (post : S.Res operation → σ → Prop) (state : σ) :
    Ends respond (op operation) post state ↔
      ∃ response after, respond state operation = some (response, after) ∧ post response after :=
  Iff.rfl

@[simp] theorem ends_bind (program : Looping S α) (rest : α → Looping S β)
    (post : β → σ → Prop) (state : σ) :
    Ends respond (program >>= rest) post state =
      Ends respond program (fun value => Ends respond (rest value) post) state :=
  Program.ends_bind program rest post state

@[simp] theorem ends_ite (condition : Prop) [Decidable condition] (left right : Looping S α)
    (post : α → σ → Prop) (state : σ) :
    Ends respond (if condition then left else right) post state =
      if condition then Ends respond left post state else Ends respond right post state :=
  Program.ends_ite condition left right post state

/-- A weaker postcondition is easier to reach. -/
theorem ends_mono {program : Looping S α} {post weaker : α → σ → Prop} {state : σ}
    (ends : Ends respond program post state)
    (implies : ∀ value after, post value after → weaker value after) :
    Ends respond program weaker state := Program.ends_mono ends implies

section Valid

variable {M : Machine S σ}
  (valid : ∀ {state operation response after},
    respond state operation = some (response, after) → M.step state operation response after)
include valid

/-- Possible responses are possible where the operations answer. -/
theorem step_of_respond {state after : σ} {operation : S.withSpin.Op}
    {response : S.withSpin.Res operation}
    (answered : respondWithSpin respond state operation = some (response, after)) :
    M.withSpin.step state operation response after := by
  cases operation with
  | none => exact response.elim
  | some operation => exact valid answered

/-- What a program must reach, it reaches with what holds of every run. -/
theorem ends_and_wp {program : Looping S α} {left right : α → σ → Prop} {state : σ}
    (ends : Ends respond program left state) (holds : program.wp M.withSpin right state) :
    Ends respond program (fun value after => left value after ∧ right value after) state :=
  Program.Ends.and_wp (step_of_respond valid) ends holds

/-- An execution is a run. -/
theorem run_of_exec {program : Looping S α} {state after : σ} {value : α}
    (executed : program.exec (respondWithSpin respond) state = some (value, after)) :
    Program.Run M.withSpin program state value after :=
  Program.run_of_exec (step_of_respond valid) executed

/-- What holds of every run holds of the execution. -/
theorem post_of_exec {program : Looping S α} {post : α → σ → Prop} {state after : σ} {value : α}
    (executed : program.exec (respondWithSpin respond) state = some (value, after))
    (holds : program.wp M.withSpin post state) : post value after :=
  (run_of_exec valid executed).post holds

end Valid

/-- An execution is a run that keeps an invariant when every response computed under the invariant
is possible and keeps it. -/
theorem run_of_exec_inv {M : Machine S σ} {inv : σ → Prop}
    (valid : ∀ {state operation response after}, inv state →
      respond state operation = some (response, after) →
        M.step state operation response after ∧ inv after)
    {program : Looping S α} {state after : σ} {value : α} (holds : inv state)
    (executed : program.exec (respondWithSpin respond) state = some (value, after)) :
    Program.Run M.withSpin program state value after ∧ inv after := by
  refine Program.run_of_exec_inv ?_ holds executed
  intro state operation response after holds answered
  cases operation with
  | none => exact response.elim
  | some operation => exact valid holds answered

/-- A loop ends when its body keeps an invariant and decreases a measure that the fuel
exceeds, or reaches the postcondition. -/
theorem ends_loop {body : τ → Looping S (τ ⊕ β)} {post : β → σ → Prop} (inv : τ → σ → Prop)
    (measure : τ → σ → Nat)
    (step : ∀ current state, inv current state →
      Ends respond (body current)
        (fun outcome after => outcome.elim
          (fun next => inv next after ∧ measure next after < measure current state)
          fun value => post value after) state)
    {fuel : Nat} {current : τ} {state : σ} (holds : inv current state)
    (enough : measure current state < fuel) : Ends respond (loop body fuel current) post state := by
  induction fuel generalizing current state with
  | zero => omega
  | succ fuel ih =>
    rw [loop, ends_bind]
    refine ends_mono (step current state holds) fun outcome after reached => ?_
    cases outcome with
    | inl next =>
      have decreased : measure next after < measure current state := reached.2
      exact ih reached.1 (by omega)
    | inr value => exact reached

end Looping

end Effect
