import Mathlib.Data.Finset.Basic

/-!
# Handles

A program acquires handles from its environment, uses them and gives them back. `Handles` keeps
which ones are held, and whether one was ever used or given back that was not held. A run that ends
with the handles it began with has leaked none and has given none back twice.
-/

namespace Effect

/-- The handles a program holds. -/
structure Handles (ι : Type) where
  /-- The handles acquired and not given back. -/
  held : Finset ι := ∅
  /-- Whether a handle was used or given back that was not held. -/
  misused : Bool := false

namespace Handles

variable {ι : Type} [DecidableEq ι] {handle other : ι} {handles : Handles ι}

/-- A handle is acquired. -/
def acquire (handles : Handles ι) (handle : ι) : Handles ι :=
  { handles with held := insert handle handles.held }

/-- A handle is used. -/
def use (handles : Handles ι) (handle : ι) : Handles ι :=
  { handles with misused := handles.misused || decide (handle ∉ handles.held) }

/-- A handle is given back. -/
def release (handles : Handles ι) (handle : ι) : Handles ι :=
  { handles.use handle with held := handles.held.erase handle }

@[simp] theorem mem_acquire :
    other ∈ (handles.acquire handle).held ↔ other = handle ∨ other ∈ handles.held :=
  Finset.mem_insert

/-- A held handle can be used. -/
@[simp] theorem use_of_mem (held : handle ∈ handles.held) : handles.use handle = handles := by
  simp [use, held]

/-- What was acquired and given back leaves nothing. -/
@[simp] theorem release_acquire (fresh : handle ∉ handles.held) :
    (handles.acquire handle).release handle = handles := by
  have usable := use_of_mem (mem_acquire.mpr (.inl rfl) : handle ∈ (handles.acquire handle).held)
  rw [release, usable]
  simp [acquire, Finset.erase_insert fresh]

/-- The order in which handles are acquired does not matter. -/
theorem acquire_comm :
    (handles.acquire handle).acquire other = (handles.acquire other).acquire handle := by
  simp [acquire, Finset.insert_comm]

end Handles

end Effect
