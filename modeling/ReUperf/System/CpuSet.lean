import Mathlib.Data.List.Sort
import ReUperf.Config.Parser

/-!
# CPU sets

The kernel's `cpu_set_t` and its conversions of `cpu_mask.hpp`. A set is the sorted list of its
CPU indices, so equal sets are equal values.
-/

namespace ReUperf

/-- A set of CPU indices. -/
@[ext] structure CpuSet where
  /-- The indices in increasing order. -/
  cpus : List Int
  /-- The indices increase. -/
  sorted : cpus.Pairwise (· < ·)
  /-- The indices are valid. -/
  bounds : ∀ cpu ∈ cpus, 0 ≤ cpu ∧ cpu < ConfigParser.cpuSetSize

namespace CpuSet

instance : DecidableEq CpuSet := fun left right =>
  decidable_of_iff (left.cpus = right.cpus) CpuSet.ext_iff.symm

/-- The valid indices of a list, in increasing order. -/
def normalize (cpus : List Int) : List Int :=
  ((cpus.filter fun cpu => decide (0 ≤ cpu ∧ cpu < ConfigParser.cpuSetSize)).dedup).insertionSort
    (· ≤ ·)

/-- An index of the normalized list is a valid one of the list. -/
theorem mem_normalize {cpus : List Int} {cpu : Int} :
    cpu ∈ normalize cpus ↔ cpu ∈ cpus ∧ 0 ≤ cpu ∧ cpu < ConfigParser.cpuSetSize := by
  rw [normalize, List.mem_insertionSort, List.mem_dedup, List.mem_filter, decide_eq_true_eq]

/-- The normalized list increases. -/
theorem pairwise_normalize (cpus : List Int) : (normalize cpus).Pairwise (· < ·) := by
  have ordered : (normalize cpus).Pairwise (· ≤ ·) := List.pairwise_insertionSort _ _
  have distinct : (normalize cpus).Nodup :=
    (List.perm_insertionSort _ _).nodup_iff.mpr (List.nodup_dedup _)
  exact (ordered.and distinct).imp fun both => lt_of_le_of_ne both.1 both.2

/-- The set of the valid indices of a list. -/
def fromVector (cpus : List Int) : CpuSet where
  cpus := normalize cpus
  sorted := pairwise_normalize cpus
  bounds _ member := (mem_normalize.mp member).2

/-- The indices of a set in increasing order. -/
def toVector (set : CpuSet) : List Int := set.cpus

/-- A set is rebuilt from its indices. -/
@[simp] theorem fromVector_toVector (set : CpuSet) : fromVector set.toVector = set := by
  apply CpuSet.ext
  show normalize set.cpus = set.cpus
  have kept : (set.cpus.filter fun cpu => decide (0 ≤ cpu ∧ cpu < ConfigParser.cpuSetSize)) =
      set.cpus := List.filter_eq_self.mpr fun cpu member => by simpa using set.bounds cpu member
  have distinct : set.cpus.Nodup := set.sorted.imp ne_of_lt
  rw [normalize, kept, List.Nodup.dedup distinct]
  exact List.Pairwise.insertionSort_eq (set.sorted.imp le_of_lt)

end CpuSet

end ReUperf
