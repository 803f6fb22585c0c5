import ReUperf.Lib.Text

/-!
# Fowler-Noll-Vo hashes

The hash takes one byte after another: it is combined with the byte by exclusive or and multiplied
by a factor. A factor with an inverse makes each step injective, in the hash and in the byte. So two
texts that differ in one byte have different hashes, and more generally two texts with different
hashes still have them after any common continuation.
-/

namespace Fnv

variable {width : Nat}

/-- Take one byte. -/
def step (factor hash : BitVec width) (byte : UInt8) : BitVec width :=
  (hash ^^^ byte.toBitVec.setWidth width) * factor

/-- Take some bytes. -/
def hash (factor start : BitVec width) (bytes : Bytes) : BitVec width :=
  bytes.foldl (step factor) start

@[simp] theorem hash_nil (factor start : BitVec width) : hash factor start [] = start := rfl

/-- Bytes that come in several pieces are taken as one. -/
theorem hash_append (factor start : BitVec width) (first second : Bytes) :
    hash factor start (first ++ second) = hash factor (hash factor start first) second :=
  List.foldl_append

section Invertible

variable {factor inverse : BitVec width} (inverts : factor * inverse = BitVec.ofNat width 1)
include inverts

/-- A product with the factor determines the other one. -/
theorem mul_factor_inj {left right : BitVec width} (same : left * factor = right * factor) :
    left = right := by
  have both : left * factor * inverse = right * factor * inverse := by rw [same]
  rw [BitVec.mul_assoc, BitVec.mul_assoc, inverts, BitVec.mul_one, BitVec.mul_one] at both
  exact both

/-- One byte keeps different hashes different. -/
theorem step_inj {left right : BitVec width} {byte : UInt8}
    (same : step factor left byte = step factor right byte) : left = right := by
  have mixed := mul_factor_inj inverts same
  rwa [BitVec.xor_left_inj] at mixed

/-- Different bytes give different hashes. -/
theorem step_byte_inj (wide : 8 ≤ width) {start : BitVec width} {first second : UInt8}
    (same : step factor start first = step factor start second) : first = second := by
  have mixed := mul_factor_inj inverts same
  rw [BitVec.xor_right_inj] at mixed
  have numbers := congrArg BitVec.toNat mixed
  rw [BitVec.toNat_setWidth_of_le wide, BitVec.toNat_setWidth_of_le wide] at numbers
  exact UInt8.toNat_inj.mp numbers

/-- A common continuation keeps different hashes different. -/
theorem hash_inj {left right : BitVec width} {bytes : Bytes}
    (same : hash factor left bytes = hash factor right bytes) : left = right := by
  induction bytes generalizing left right with
  | nil => exact same
  | cons byte bytes ih => exact step_inj inverts (ih same)

/-- Texts that differ in one byte have different hashes. -/
theorem hash_ne_of_byte (wide : 8 ≤ width) (start : BitVec width) (before after : Bytes)
    {first second : UInt8} (differ : first ≠ second) :
    hash factor start (before ++ first :: after) ≠
      hash factor start (before ++ second :: after) := by
  intro same
  rw [hash_append, hash_append] at same
  have reached : step factor (hash factor start before) first =
      step factor (hash factor start before) second := hash_inj inverts same
  exact differ (step_byte_inj inverts wide reached)

end Invertible

end Fnv
