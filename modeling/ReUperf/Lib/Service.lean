import ReUperf.Lib.Pool

/-!
# Services

Several threads call the functions of one service, which share a state. The operations of the calls
are interleaved in any way, and the environment moves between them. What a call returns is put on
record. A call is verified alone, against a contract that every call keeps and relies on, and what it
promises of the value it returns holds of every value on record.
-/

namespace Effect

variable {S : Signature} {σ ι ρ : Type}

/-- The operations of a signature, and putting a value on record. -/
@[reducible] def Signature.withRecord (S : Signature) (ρ : Type) : Signature where
  Op := S.Op ⊕ ρ
  Res
    | .inl operation => S.Res operation
    | .inr _ => Unit

/-- The machine that keeps a record beside the state. -/
def Machine.withRecord (M : Machine S σ) (ρ : Type) : Machine (S.withRecord ρ) (σ × List ρ) where
  step
    | world, .inl operation, response, after =>
      M.step world.1 operation response after.1 ∧ after.2 = world.2
    | world, .inr value, _, after => after = (world.1, world.2 ++ [value])

/-- Run a program and put its value on record. -/
def Program.recorded (program : Program S ρ) : Program (S.withRecord ρ) Unit :=
  (program.interpret fun operation => .op (S := S.withRecord ρ) (.inl operation)) >>= fun value =>
    .op (S := S.withRecord ρ) (.inr value)

/-- A service: its operations, what moves beside it, and the calls a thread can make. -/
structure Service (S : Signature) (σ ρ : Type) where
  /-- The meaning of one operation on the shared state. -/
  machine : Machine S σ
  /-- A step that no call takes. -/
  environment : σ → σ → Prop
  /-- In this state a thread may make this call. -/
  call : σ → Program S ρ → Prop

namespace Service

variable (service : Service S σ ρ)

/-- The threads that call a service. -/
def pool (ι : Type) : PoolSystem (S.withRecord ρ) (σ × List ρ) ι where
  machine := service.machine.withRecord ρ
  environment world after := service.environment world.1 after.1 ∧ after.2 = world.2
  job _ world program after := after = world ∧
    ∃ call, service.call world.1 call ∧ program = call.recorded

/-- What the calls of a service have in common: an invariant, what one call may do to the state
while others run, and what is true of a returned value from then on. -/
structure Discipline (inv : σ → Prop) (C : Contract σ) (good : ρ → σ → Prop) : Prop where
  /-- A call does to the others what it relies on from them. -/
  share : ∀ {state after}, inv state → inv after → C.guar state after → C.rely state after
  /-- The environment keeps the invariant and does what every call relies on. -/
  environment : ∀ {state after}, inv state → service.environment state after →
    inv after ∧ C.rely state after
  /-- What is true of a returned value stays true. -/
  stable : ∀ value, C.Stable (good value)
  /-- Every call is safe. -/
  safe : ∀ {state call}, inv state → service.call state call →
    call.Safe service.machine inv C good state

variable {service} {inv : σ → Prop} {C : Contract σ} {good : ρ → σ → Prop}

/-- A state that satisfies the invariant, with a record of good values. -/
def Kept (inv : σ → Prop) (good : ρ → σ → Prop) (world : σ × List ρ) : Prop :=
  inv world.1 ∧ ∀ value ∈ world.2, good value world.1

/-- The contract of a call beside a record. -/
def recordContract (ρ : Type) (C : Contract σ) : Contract (σ × List ρ) where
  rely world after := C.rely world.1 after.1
  guar world after := C.guar world.1 after.1 ∨ after.1 = world.1
  rely_refl world := C.rely_refl world.1
  rely_trans := C.rely_trans

/-- A recorded call is safe beside a record. -/
theorem Discipline.safe_recorded (discipline : service.Discipline inv C good)
    {program : Program S ρ} {world : σ × List ρ}
    (safe : program.Safe service.machine inv C good world.1) :
    program.recorded.Safe (service.machine.withRecord ρ) (Kept inv good) (recordContract ρ C)
      (fun _ _ => True) world := by
  induction program generalizing world with
  | ret value =>
    intro before relied kept _ after stepped
    obtain rfl : after = _ := stepped
    have own := discipline.stable value safe relied
    refine ⟨⟨kept.1, fun other listed => ?_⟩, .inr rfl, trivial⟩
    rcases List.mem_append.mp listed with earlier | last
    · exact kept.2 other earlier
    · rw [List.mem_singleton] at last
      rwa [last]
  | call operation next ih =>
    intro before relied kept response after stepped
    obtain ⟨stepped, recorded⟩ := stepped
    obtain ⟨held, promised, rest⟩ := safe before.1 relied kept.1 response after.1 stepped
    have shared := discipline.share kept.1 held promised
    refine ⟨⟨held, fun value listed => ?_⟩, .inl promised, ih response rest⟩
    rw [recorded] at listed
    exact discipline.stable value (kept.2 value listed) shared

/-- However the calls are interleaved, the invariant holds and every value on record is good. -/
theorem Discipline.reachable [DecidableEq ι] (discipline : service.Discipline inv C good)
    {start : σ} (initial : inv start) {pool : Pool (S.withRecord ρ) (σ × List ρ) ι}
    (reached : (service.pool ι).Reaches (.idle (start, [])) pool) :
    Kept inv good pool.state := by
  have stays : ∀ {world after : σ × List ρ}, C.rely world.1 after.1 → inv after.1 →
      after.2 = world.2 → Kept inv good world → Kept inv good after := by
    intro world after relied held recorded kept
    refine ⟨held, fun value listed => ?_⟩
    rw [recorded] at listed
    exact discipline.stable value (kept.2 value listed) relied
  have discharged : (service.pool ι).Discharged (Kept inv good)
      fun _ => recordContract ρ C := by
    constructor
    · intro world after kept moved
      obtain ⟨held, relied⟩ := discipline.environment kept.1 moved.1
      exact ⟨stays relied held moved.2 kept, fun _ => relied⟩
    · intro agent world program after kept started
      obtain ⟨rfl, call, made, rfl⟩ := started
      refine ⟨kept, fun _ _ => C.rely_refl _, ?_⟩
      exact discipline.safe_recorded (discipline.safe kept.1 made)
    · intro agent other world after _ kept held promised
      rcases promised with promised | same
      · exact discipline.share kept.1 held.1 promised
      · have still : C.rely world.1 after.1 := by
          rw [same]
          exact C.rely_refl _
        exact still
  have start : (service.pool ι).PoolSafe (Kept inv good) (fun _ => recordContract ρ C)
      (.idle (start, [])) := PoolSystem.PoolSafe.idle ⟨initial, by simp⟩
  exact (discharged.reachable_safe start reached).1

end Service

end Effect
