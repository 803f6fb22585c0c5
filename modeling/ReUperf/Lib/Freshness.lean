import Mathlib.Data.List.Basic

/-!
# Freshness

A cache of what was read of a system promises that its answers are young. The log of all reads tells
what that means: an answer is as young as some read that gave it.
-/

/-- What a system answered to a read. -/
structure Reading (κ α : Type) where
  /-- When it was read. -/
  time : Int
  /-- What was read. -/
  key : κ
  /-- The answer. -/
  answer : α

namespace Reading

variable {κ α : Type} {log more : List (Reading κ α)} {key : κ} {answer : α} {since before : Int}

/-- A read at some time or later gave the answer. -/
def Since (log : List (Reading κ α)) (since : Int) (key : κ) (answer : α) : Prop :=
  ∃ time, since ≤ time ∧ ⟨time, key, answer⟩ ∈ log

/-- It gave it since any earlier time. -/
theorem Since.earlier (read : Since log since key answer) (begun : before ≤ since) :
    Since log before key answer := by
  obtain ⟨time, later, listed⟩ := read
  exact ⟨time, Int.le_trans begun later, listed⟩

/-- More reads change nothing. -/
theorem Since.longer (read : Since log since key answer) (grown : log <+: more) :
    Since more since key answer := by
  obtain ⟨time, later, listed⟩ := read
  exact ⟨time, later, grown.subset listed⟩

/-- The last read gives its answer. -/
theorem Since.last {time : Int} (later : since ≤ time) :
    Since (log ++ [⟨time, key, answer⟩]) since key answer :=
  ⟨time, later, by simp⟩

end Reading

/-- The age of an entry in milliseconds, as the clock's nanoseconds are rounded. -/
def ageMs (now timestamp : Int) : Int := (now - timestamp).tdiv 1000000

/-- An entry whose age is below a bound was made less than the bound ago. -/
theorem lt_timestamp_of_ageMs_lt {now timestamp ttlMs : Int} (young : ageMs now timestamp < ttlMs) :
    now - ttlMs * 1000000 < timestamp := by
  have split : 1000000 * ageMs now timestamp + (now - timestamp).tmod 1000000 = now - timestamp :=
    Int.mul_tdiv_add_tmod _ _
  have small : (now - timestamp).tmod 1000000 < 1000000 := Int.tmod_lt_of_pos _ (by decide)
  omega
