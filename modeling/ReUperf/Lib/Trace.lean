import ReUperf.Lib.Program

/-!
# Traces of programs

The trace of a run lists the calls it made with their responses. `Produces` relates a program
to its traces and values when every response is possible, so what holds of every trace holds
under every machine.
-/

namespace Effect

/-- One call and its response. -/
abbrev Event (S : Signature) : Type := Σ operation : S.Op, S.Res operation

namespace Program

variable {S : Signature} {α β : Type}

/-- The program can make the calls of the trace, with these responses, and return the value. -/
def Produces : Program S α → List (Event S) → α → Prop
  | ret result, trace, value => trace = [] ∧ value = result
  | call operation next, trace, value =>
    ∃ response rest, trace = ⟨operation, response⟩ :: rest ∧ (next response).Produces rest value

@[simp] theorem produces_ret {result value : α} {trace : List (Event S)} :
    (ret result : Program S α).Produces trace value ↔ trace = [] ∧ value = result := Iff.rfl

@[simp] theorem produces_pure {result value : α} {trace : List (Event S)} :
    (pure result : Program S α).Produces trace value ↔ trace = [] ∧ value = result := Iff.rfl

@[simp] theorem produces_op {operation : S.Op} {trace : List (Event S)}
    {value : S.Res operation} :
    (op operation).Produces trace value ↔ trace = [⟨operation, value⟩] := by
  simp only [op, Produces]
  constructor
  · rintro ⟨response, rest, rfl, rfl, rfl⟩
    rfl
  · rintro rfl
    exact ⟨value, [], rfl, rfl, rfl⟩

/-- A trace of a sequence is a trace of its first part and one of the rest. -/
theorem produces_bind {program : Program S α} {rest : α → Program S β} {trace : List (Event S)}
    {value : β} :
    (program >>= rest).Produces trace value ↔
      ∃ first middle second, trace = first ++ second ∧ program.Produces first middle ∧
        (rest middle).Produces second value := by
  induction program generalizing trace with
  | ret result =>
    constructor
    · exact fun later => ⟨[], result, trace, rfl, ⟨rfl, rfl⟩, later⟩
    · rintro ⟨_, _, second, rfl, ⟨rfl, rfl⟩, later⟩
      exact later
  | call operation next ih =>
    simp only [call_bind, Produces, ih]
    constructor
    · rintro ⟨response, later, rfl, first, middle, second, rfl, head, tail⟩
      exact ⟨_, middle, second, rfl, ⟨response, first, rfl, head⟩, tail⟩
    · rintro ⟨_, middle, second, rfl, ⟨response, first, rfl, head⟩, tail⟩
      exact ⟨response, first ++ second, rfl, first, middle, second, rfl, head, tail⟩

/-- Every call of a trace is one the program can make. -/
theorem Calls.of_produces {allowed : S.Op → Prop} {program : Program S α}
    (calls : program.Calls allowed) {trace : List (Event S)} {value : α}
    (produces : program.Produces trace value) : ∀ event ∈ trace, allowed event.1 := by
  induction program generalizing trace with
  | ret result =>
    rintro event member
    simp [produces.1] at member
  | call operation next ih =>
    obtain ⟨response, rest, rfl, later⟩ := produces
    intro event member
    rcases List.mem_cons.mp member with rfl | member
    · exact calls.1
    · exact ih response (calls.2 response) later event member

/-- Run a program with responses computed from a state, keeping its trace; nothing when a
response is missing. -/
def record {σ : Type} (respond : σ → (operation : S.Op) → Option (S.Res operation × σ)) :
    Program S α → σ → Option (α × List (Event S))
  | ret value, _ => some (value, [])
  | call operation next, state =>
    match respond state operation with
    | some (response, after) =>
      ((next response).record respond after).map fun found =>
        (found.1, ⟨operation, response⟩ :: found.2)
    | none => none

/-- A recorded trace is one of the program. -/
theorem produces_of_record {σ : Type}
    {respond : σ → (operation : S.Op) → Option (S.Res operation × σ)} {program : Program S α}
    {state : σ} {value : α} {trace : List (Event S)}
    (recorded : program.record respond state = some (value, trace)) :
    program.Produces trace value := by
  induction program generalizing state trace with
  | ret result =>
    cases recorded
    exact ⟨rfl, rfl⟩
  | call operation next ih =>
    rw [record] at recorded
    cases answered : respond state operation with
    | none =>
      rw [answered] at recorded
      cases recorded
    | some found =>
      obtain ⟨response, after⟩ := found
      rw [answered] at recorded
      obtain ⟨⟨result, rest⟩, later, same⟩ := Option.map_eq_some_iff.mp recorded
      cases same
      exact ⟨response, rest, rfl, ih response later⟩

end Program

/-! ## Expansions -/

variable {S T : Signature} {α β : Type}

/-- One call with the trace of a run of its handler. -/
structure Expansion (handler : (operation : S.Op) → Program T (S.Res operation)) where
  /-- The operation. -/
  operation : S.Op
  /-- Its response. -/
  response : S.Res operation
  /-- The operations the handler performed. -/
  inner : List (Event T)
  /-- The handler can perform them and give the response. -/
  produced : (handler operation).Produces inner response

namespace Expansion

variable {handler : (operation : S.Op) → Program T (S.Res operation)}

/-- The call as an event. -/
def event (step : Expansion handler) : Event S := ⟨step.operation, step.response⟩

/-- The operations performed in several calls. -/
def flatten (steps : List (Expansion handler)) : List (Event T) := steps.flatMap (·.inner)

@[simp] theorem flatten_nil : flatten ([] : List (Expansion handler)) = [] := rfl

@[simp] theorem flatten_cons (step : Expansion handler) (rest : List (Expansion handler)) :
    flatten (step :: rest) = step.inner ++ flatten rest := rfl

@[simp] theorem flatten_append (first second : List (Expansion handler)) :
    flatten (first ++ second) = flatten first ++ flatten second := List.flatMap_append

end Expansion

/-- The traces of an interpreted program are the flattened traces of its calls. -/
theorem Program.produces_interpret {handler : (operation : S.Op) → Program T (S.Res operation)}
    {program : Program S α} {trace : List (Event T)} {value : α} :
    (program.interpret handler).Produces trace value ↔
      ∃ steps : List (Expansion handler), trace = Expansion.flatten steps ∧
        program.Produces (steps.map Expansion.event) value := by
  induction program generalizing trace with
  | ret result =>
    constructor
    · rintro ⟨rfl, rfl⟩
      exact ⟨[], rfl, rfl, rfl⟩
    · rintro ⟨steps, rfl, none, rfl⟩
      obtain rfl := List.map_eq_nil_iff.mp none
      exact ⟨rfl, rfl⟩
  | call operation next ih =>
    rw [interpret, produces_bind]
    constructor
    · rintro ⟨first, response, second, rfl, handled, later⟩
      obtain ⟨steps, rfl, called⟩ := (ih response).mp later
      exact ⟨⟨operation, response, first, handled⟩ :: steps, rfl, response, _, rfl, called⟩
    · rintro ⟨steps, rfl, response, rest, made, called⟩
      cases steps with
      | nil => cases made
      | cons step others =>
        obtain ⟨same, rfl⟩ := List.cons.inj made
        obtain ⟨performed, answer, inner, produced⟩ := step
        cases same
        exact ⟨inner, answer, Expansion.flatten others, rfl, produced,
          (ih answer).mpr ⟨others, rfl, called⟩⟩

/-! ## Logs and promised answers -/

/-- The machine whose answers satisfy a promise. -/
def Machine.promising {S : Signature} {σ : Type} (M : Machine S σ)
    (promise : (operation : S.Op) → S.Res operation → Prop) : Machine S σ where
  step state operation response after :=
    M.step state operation response after ∧ promise operation response

/-- What a program does, it does under a promise. -/
theorem Program.wp_promising {S : Signature} {σ α : Type} {M : Machine S σ}
    {promise : (operation : S.Op) → S.Res operation → Prop} {program : Program S α}
    {post : α → σ → Prop} {state : σ} (holds : program.wp M post state) :
    program.wp (M.promising promise) post state := by
  induction program generalizing state with
  | ret value => exact holds
  | call operation next ih =>
    rintro response after ⟨stepped, _⟩
    exact ih response (holds response after stepped)

/-- A promise that every answer satisfies changes nothing. -/
theorem Program.wp_of_promising {S : Signature} {σ α : Type} {M : Machine S σ}
    {program : Program S α} {post : α → σ → Prop} {state : σ}
    (holds : program.wp (M.promising fun _ _ => True) post state) : program.wp M post state := by
  induction program generalizing state with
  | ret value => exact holds
  | call operation next ih =>
    intro response after stepped
    exact ih response (holds response after ⟨stepped, trivial⟩)

/-- The machine with a list of the operations of one kind that were performed. -/
def Machine.logging {S : Signature} {σ : Type} (M : Machine S σ) (listed : S.Op → Bool) :
    Machine S (σ × List S.Op) where
  step state operation response after :=
    M.step state.1 operation response after.1 ∧
      after.2 = if listed operation then state.2 ++ [operation] else state.2

namespace Program

variable {σ : Type} {M : Machine S σ} {listed : S.Op → Bool} {program : Program S α}
  {state : σ} {log : List S.Op}

/-- The list changes nothing else. -/
theorem wp_logging {post : α → σ → Prop} (holds : program.wp M post state) :
    program.wp (M.logging listed) (fun value after => post value after.1) (state, log) := by
  induction program generalizing state log with
  | ret value => exact holds
  | call operation next ih =>
    rintro response ⟨after, longer⟩ ⟨stepped, _⟩
    exact ih response (holds response after stepped)

/-- Every run has a list. -/
theorem Run.logging {after : σ} {value : α} (run : Run M program state value after)
    (log : List S.Op) :
    ∃ longer, Run (M.logging listed) program (state, log) value (after, longer) := by
  induction run generalizing log with
  | ret value state => exact ⟨log, .ret value _⟩
  | call stepped _ ih =>
    obtain ⟨longer, rest⟩ := ih _
    exact ⟨longer, .call ⟨stepped, rfl⟩ rest⟩

/-- A program that performs no listed operation leaves the list. -/
theorem Calls.wp_logging {post : α → σ × List S.Op → Prop}
    (calls : program.Calls fun operation => listed operation = false)
    (holds : program.wp M (fun value after => post value (after, log)) state) :
    program.wp (M.logging listed) post (state, log) := by
  have kept : program.wp (M.logging listed) (fun _ after => after.2 = log) (state, log) := by
    refine calls.wp_invariant (fun after : σ × List S.Op => after.2 = log) ?_ rfl
    rintro before operation response after plain same ⟨_, listing⟩
    rw [listing, plain, if_neg Bool.false_ne_true]
    exact same
  refine wp_mono (wp_and (Program.wp_logging holds) kept) ?_
  rintro value ⟨after, _⟩ ⟨done, rfl⟩
  exact done

end Program

end Effect
