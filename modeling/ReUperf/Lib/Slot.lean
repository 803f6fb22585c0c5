import Mathlib.Tactic.Basic

/-!
# Reused identifiers

An identifier is given to one holder after another. A holder is told by the time it started, and a
later holder of the same identifier started later. `Slot.Later` is what can become of a slot while
nobody looks.
-/

namespace Effect

/-- An identifier: when its last holder started, and whether it still lives. -/
structure Slot where
  /-- The start of the last holder. -/
  start : Nat
  /-- Whether the last holder lives. -/
  alive : Bool
  deriving DecidableEq

namespace Slot

variable {first second third : Slot}

/-- A slot whose holder lives. -/
theorem eq_of_alive {slot : Slot} (alive : slot.alive = true) : slot = ⟨slot.start, true⟩ := by
  rw [← alive]

/-- The holder may end, and later holders may follow. -/
def Later (first second : Slot) : Prop :=
  first.start < second.start ∨
    (first.start = second.start ∧ (second.alive = true → first.alive = true))

instance : DecidableRel Later := fun _ _ => inferInstanceAs (Decidable (_ ∨ _))

theorem Later.refl (slot : Slot) : Later slot slot := .inr ⟨rfl, id⟩

theorem Later.trans (before : Later first second) (after : Later second third) :
    Later first third := by
  unfold Later at *
  grind

/-- Later holders started later. -/
theorem Later.le (later : Later first second) : first.start ≤ second.start := by
  unfold Later at later
  omega

/-- A holder that lives and had started before has lived all the time. -/
theorem Later.of_le {start : Nat} (later : Later first ⟨start, true⟩)
    (begun : start ≤ first.start) : first = ⟨start, true⟩ := by
  rcases later with earlier | ⟨same, living⟩
  · exact absurd earlier (Nat.not_lt.mpr begun)
  · obtain ⟨held, alive⟩ := first
    rw [show held = start from same, show alive = true from living rfl]

/-- A holder that still lives was the holder in between. -/
theorem Later.between {start : Nat} (before : Later ⟨start, true⟩ second)
    (after : Later second ⟨start, true⟩) : second = ⟨start, true⟩ :=
  after.of_le before.le

end Slot

end Effect
