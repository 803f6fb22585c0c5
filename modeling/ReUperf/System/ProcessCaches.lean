import ReUperf.System.CgroupLookup

/-!
# Forgetting a process

The cache of cgroup paths has keys of 64 bits. The ID of a process takes the lower half; the upper half
is for keys that have the ID of a thread below that of its process. `invalidate_process_caches` finds
the process of a key and drops what belongs to it.
-/

namespace ReUperf

namespace FileUtils

/-- An ID as an unsigned number. -/
def unsignedId (id : Int) : BitVec 32 := BitVec.ofInt 32 id

/-- The key of a process. -/
def processCacheKey (pid : Int) : BitVec 64 := (unsignedId pid).setWidth 64

/-- The process a key belongs to. -/
def cachedPid (key : BitVec 64) : Int :=
  if ((key >>> 32).setWidth 32).toInt = 0 then (key.setWidth 32).toInt
  else ((key >>> 32).setWidth 32).toInt

/-- Drop the paths of a process. -/
def invalidateProcessCaches (pid : Int) (cache : CgroupCache) : CgroupCache :=
  if isValidId pid then
    cache.retain fun key _ => decide (cachedPid (processCacheKey key.pid) ≠ pid)
  else cache

/-! ## Keys -/

variable {pid : Int}

/-- The number of a valid ID. -/
theorem toNat_unsignedId (valid : isValidId pid = true) :
    ((unsignedId pid).toNat : Int) = pid ∧ (unsignedId pid).toNat < 2 ^ 31 := by
  obtain ⟨positive, small⟩ := of_decide_eq_true valid
  have number : (unsignedId pid).toNat = pid.toNat := by
    rw [unsignedId, BitVec.toNat_ofInt]
    omega
  omega

/-- A valid ID is read back as a signed number. -/
theorem toInt_unsignedId (valid : isValidId pid = true) : (unsignedId pid).toInt = pid := by
  have number := toNat_unsignedId valid
  rw [BitVec.toInt_eq_toNat_of_lt (by omega)]
  exact number.1

/-- The key of a process has no upper half. -/
theorem upper_processCacheKey : ((processCacheKey pid) >>> 32).setWidth 32 = 0 := by
  ext position small
  simp [processCacheKey]

/-- Its lower half is the ID. -/
theorem lower_processCacheKey : (processCacheKey pid).setWidth 32 = unsignedId pid := by
  ext position small
  simp [processCacheKey]

/-- The key of a process belongs to it. -/
theorem cachedPid_processCacheKey (valid : isValidId pid = true) :
    cachedPid (processCacheKey pid) = pid := by
  rw [cachedPid, upper_processCacheKey, lower_processCacheKey, toInt_unsignedId valid]
  exact if_pos rfl

end FileUtils

end ReUperf
