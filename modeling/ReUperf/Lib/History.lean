import Mathlib.Data.List.Basic

/-!
# Histories

The history of a run lists its events, the last one at the end. A property of every event and the
events before it is kept by one more event when that event has it.
-/

namespace Effect.History

variable {ε α : Type} {history before later : List ε} {event last : ε}

/-- A history that ends with an event splits at that event or before it. -/
theorem split_snoc (same : history ++ [last] = before ++ event :: later) :
    (later = [] ∧ before = history ∧ event = last) ∨
      ∃ rest, later = rest ++ [last] ∧ history = before ++ event :: rest := by
  rcases List.eq_nil_or_concat later with none | ⟨rest, final, more⟩
  · rw [none] at same
    obtain ⟨histories, events⟩ := List.append_inj' same rfl
    obtain ⟨rfl, -⟩ := List.cons.inj events
    exact .inl ⟨none, histories.symm, rfl⟩
  · rw [List.concat_eq_append] at more
    rw [more, ← List.cons_append, ← List.append_assoc] at same
    obtain ⟨histories, events⟩ := List.append_inj' same rfl
    obtain ⟨rfl, -⟩ := List.cons.inj events
    exact .inr ⟨rest, more, histories⟩

/-- Every event fits the history before it. -/
def AllFit (fits : List ε → ε → Prop) (history : List ε) : Prop :=
  ∀ before event after, history = before ++ event :: after → fits before event

variable {fits : List ε → ε → Prop}

/-- Nothing is wrong with no event. -/
theorem allFit_nil : AllFit fits [] := by
  intro before event after none
  exact absurd none.symm (List.append_ne_nil_of_right_ne_nil _ (List.cons_ne_nil _ _))

/-- One more event that fits. -/
theorem AllFit.snoc (all : AllFit fits history) (last : fits history event) :
    AllFit fits (history ++ [event]) := by
  intro before other later same
  rcases split_snoc same with ⟨-, rfl, rfl⟩ | ⟨rest, -, earlier⟩
  · exact last
  · exact all before other rest earlier

/-- The value of the last event that has one. -/
def lastOf (value : ε → Option α) (history : List ε) : Option α :=
  (history.filterMap value).getLast?

variable {value : ε → Option α}

@[simp] theorem lastOf_nil : lastOf value [] = none := rfl

/-- One more event has the last value, if it has one. -/
theorem lastOf_snoc : lastOf value (history ++ [event]) = (value event).or (lastOf value history) := by
  rw [lastOf, List.filterMap_append]
  cases found : value event with
  | none => simp [found, lastOf]
  | some content => simp [found]

/-- Events without a value leave the last one. -/
theorem lastOf_append_of_none (none : ∀ event ∈ later, value event = none) :
    lastOf value (history ++ later) = lastOf value history := by
  rw [lastOf, List.filterMap_append, List.filterMap_eq_nil_iff.mpr none, List.append_nil, lastOf]

/-- The last value is that of an event. -/
theorem mem_of_lastOf {content : α} (found : lastOf value history = some content) :
    ∃ event ∈ history, value event = some content := by
  have member := List.mem_of_getLast? found
  obtain ⟨event, listed, same⟩ := List.mem_filterMap.mp member
  exact ⟨event, listed, same⟩

/-- After an event with a value, the last value is its own or that of a later event. -/
theorem mem_of_lastOf_append {content : α} (own : value event = some content) :
    ∃ found, lastOf value (before ++ event :: later) = some found ∧
      ∃ other ∈ event :: later, value other = some found := by
  have some : (event :: later).filterMap value ≠ [] := by
    rw [List.filterMap_cons_some own]
    exact List.cons_ne_nil _ _
  obtain ⟨found, last⟩ := Option.isSome_iff_exists.mp (List.getLast?_isSome.mpr some)
  refine ⟨found, ?_, mem_of_lastOf last⟩
  rw [lastOf, List.filterMap_append, List.getLast?_append, last]
  rfl

end Effect.History
