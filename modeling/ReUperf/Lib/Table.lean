import Mathlib.Data.List.AList
import Mathlib.Data.List.Sort

/-!
# Finite maps

A table is an association list whose keys are distinct. Mathlib's `AList` supplies lookup,
insertion and removal with their laws; this module adds the other operations a C++ map
offers: changing a stored value in place, keeping the entries that satisfy a test, and
listing the entries.
-/

/-- A finite map from keys to values. -/
abbrev Table (κ α : Type) : Type := AList fun _ : κ => α

namespace Table

variable {κ α β : Type} [DecidableEq κ]

/-- Change the value stored under a key, if there is one. -/
def adjust (change : α → α) (key : κ) (table : Table κ α) : Table κ α :=
  match table.lookup key with
  | some value => table.insert key (change value)
  | none => table

/-- The value under the key is changed. -/
@[simp] theorem lookup_adjust (change : α → α) (key : κ) (table : Table κ α) :
    (table.adjust change key).lookup key = (table.lookup key).map change := by
  unfold adjust
  cases stored : table.lookup key with
  | none => simpa using stored
  | some value => simp

/-- The value under another key stays. -/
theorem lookup_adjust_ne {change : α → α} {key other : κ} {table : Table κ α}
    (differ : other ≠ key) : (table.adjust change key).lookup other = table.lookup other := by
  unfold adjust
  cases table.lookup key with
  | none => rfl
  | some value => exact AList.lookup_insert_ne differ

/-- Keep the entries that satisfy a test. -/
def retain (keep : κ → α → Bool) (table : Table κ α) : Table κ α :=
  ⟨table.entries.filter fun entry => keep entry.1 entry.2,
    table.nodupKeys.sublist List.filter_sublist⟩

/-- A kept value was stored and passes the test. -/
theorem lookup_retain_eq_some {keep : κ → α → Bool} {key : κ} {table : Table κ α} {value : α} :
    (table.retain keep).lookup key = some value ↔
      table.lookup key = some value ∧ keep key value = true := by
  rw [← Option.mem_def, ← Option.mem_def, AList.mem_lookup_iff, AList.mem_lookup_iff]
  exact List.mem_filter

/-- A lookup after filtering is a filtered lookup. -/
theorem lookup_retain (keep : κ → α → Bool) (key : κ) (table : Table κ α) :
    (table.retain keep).lookup key = (table.lookup key).filter (keep key) := by
  ext value
  rw [lookup_retain_eq_some, Option.filter_eq_some_iff]

/-- Change every stored value. -/
def mapValues (change : α → β) (table : Table κ α) : Table κ β :=
  ⟨table.entries.map (.map id fun _ => change), table.nodupKeys.map₂ fun _ => change⟩

/-- A lookup after changing every value is the changed lookup. -/
@[simp] theorem lookup_mapValues (change : α → β) (key : κ) (table : Table κ α) :
    (table.mapValues change).lookup key = (table.lookup key).map change :=
  List.dlookup_map₂ key

/-- A table without a value is empty. -/
theorem eq_empty {table : Table κ α} (missing : ∀ key, table.lookup key = none) : table = ∅ := by
  refine AList.ext (List.eq_nil_iff_forall_not_mem.mpr ?_)
  rintro ⟨key, value⟩ listed
  have stored : value ∈ table.lookup key := AList.mem_lookup_iff.mpr listed
  rw [missing] at stored
  cases stored

/-- The entries as pairs. -/
def toPairs (table : Table κ α) : List (κ × α) := table.entries.map fun entry => (entry.1, entry.2)

/-- A listed pair is a stored one. -/
@[simp] theorem mem_toPairs {key : κ} {value : α} {table : Table κ α} :
    (key, value) ∈ table.toPairs ↔ table.lookup key = some value := by
  rw [← Option.mem_def, AList.mem_lookup_iff]
  simp only [toPairs, List.mem_map, Prod.mk.injEq]
  constructor
  · rintro ⟨⟨stored, content⟩, listed, rfl, rfl⟩
    exact listed
  · intro listed
    exact ⟨_, listed, rfl, rfl⟩

/-- The pairs in the order of their keys, as an ordered map iterates them. -/
def inOrder [LE κ] [DecidableLE κ] (table : Table κ α) : List (κ × α) :=
  table.toPairs.insertionSort fun first second => first.1 ≤ second.1

/-- Ordering the pairs keeps them. -/
@[simp] theorem mem_inOrder [LE κ] [DecidableLE κ] {key : κ} {value : α} {table : Table κ α} :
    (key, value) ∈ table.inOrder ↔ table.lookup key = some value := by
  rw [inOrder, List.mem_insertionSort, mem_toPairs]

end Table
