import Mathlib.Data.List.Basic

/-!
# Byte strings

A C++ `std::string` is a sequence of bytes. This module gives the byte strings of ASCII
literals and of decimal numbers, and the fact that distinct numbers are written differently.
-/

/-- The contents of a C++ string. -/
abbrev Bytes : Type := List UInt8

namespace Bytes

/-- The bytes of an ASCII literal. -/
def ascii (literal : String) : Bytes := literal.toList.map fun char => char.val.toUInt8

/-- The decimal digits of a natural number. -/
def natural (value : Nat) : Bytes := (Nat.toDigits 10 value).map fun char => char.val.toUInt8

/-- The decimal representation of an integer, as `std::to_string` writes it. -/
def decimal (value : Int) : Bytes :=
  if value < 0 then ascii "-" ++ natural value.natAbs else natural value.natAbs

/-- The byte of a digit has its number. -/
theorem toNat_toUInt8_of_isDigit {char : Char} (digit : char.isDigit) :
    char.val.toUInt8.toNat = char.toNat := by
  have bounds : char.val.toNat ≤ 57 := by
    simp only [Char.isDigit, ge_iff_le, Bool.and_eq_true, decide_eq_true_eq] at digit
    exact UInt32.le_iff_toNat_le.mp digit.2
  rw [UInt32.toNat_toUInt8, Nat.mod_eq_of_lt (by omega)]
  rfl

/-- A digit is recovered from its byte. -/
theorem ofNat_toUInt8_of_isDigit {char : Char} (digit : char.isDigit) :
    Char.ofNat char.val.toUInt8.toNat = char := by
  rw [toNat_toUInt8_of_isDigit digit, Char.ofNat_toNat]

/-- The bytes of a natural number are digits. -/
theorem le_of_mem_natural {value : Nat} {byte : UInt8} (member : byte ∈ natural value) :
    byte ≤ 57 := by
  obtain ⟨char, digit, rfl⟩ := List.mem_map.mp member
  have isDigit := Nat.isDigit_of_mem_toDigits (by omega) (by omega) digit
  simp only [Char.isDigit, ge_iff_le, Bool.and_eq_true, decide_eq_true_eq] at isDigit
  have bound : char.val.toNat ≤ 57 := UInt32.le_iff_toNat_le.mp isDigit.2
  rw [UInt8.le_iff_toNat_le, UInt32.toNat_toUInt8, Nat.mod_eq_of_lt (by omega)]
  exact bound

/-- No byte of a natural number is a separator. -/
theorem lt_of_mem_natural {value : Nat} {byte : UInt8} (member : byte ∈ natural value) :
    47 < byte := by
  obtain ⟨char, digit, rfl⟩ := List.mem_map.mp member
  have isDigit := Nat.isDigit_of_mem_toDigits (by omega) (by omega) digit
  simp only [Char.isDigit, ge_iff_le, Bool.and_eq_true, decide_eq_true_eq] at isDigit
  have lower : 48 ≤ char.val.toNat := UInt32.le_iff_toNat_le.mp isDigit.1
  have upper : char.val.toNat ≤ 57 := UInt32.le_iff_toNat_le.mp isDigit.2
  rw [UInt8.lt_iff_toNat_lt, UInt32.toNat_toUInt8, Nat.mod_eq_of_lt (by omega)]
  exact lower

/-- The bytes of an integer are digits and perhaps a sign. -/
theorem le_of_mem_decimal {value : Int} {byte : UInt8} (member : byte ∈ decimal value) :
    byte ≤ 57 := by
  unfold decimal at member
  split at member
  · rcases List.mem_append.mp member with minus | digit
    · have sign : ascii "-" = [45] := rfl
      rw [sign, List.mem_singleton] at minus
      rw [minus]
      decide
    · exact le_of_mem_natural digit
  · exact le_of_mem_natural member

/-- Distinct naturals have distinct digits. -/
theorem natural_injective : Function.Injective natural := by
  have recover : ∀ value, (natural value).map (fun byte => Char.ofNat byte.toNat) =
      Nat.toDigits 10 value := by
    intro value
    rw [natural, List.map_map]
    refine (List.map_congr_left fun char member => ?_).trans (List.map_id _)
    exact ofNat_toUInt8_of_isDigit
      (Nat.isDigit_of_mem_toDigits (by omega) (by omega) member)
  intro left right same
  have digits : Nat.toDigits 10 left = Nat.toDigits 10 right := by
    rw [← recover left, ← recover right, same]
  rw [← Nat.ofDigitChars_ten_toDigits (n := left), digits, Nat.ofDigitChars_ten_toDigits]

/-- A natural number is written the same as a non-negative integer. -/
theorem decimal_ofNat (value : Nat) : decimal (value : Int) = natural value := by
  rw [decimal, if_neg (by omega), Int.natAbs_natCast]

/-- Distinct non-negative integers are written differently. -/
theorem decimal_inj {left right : Int} (first : 0 ≤ left) (second : 0 ≤ right)
    (same : decimal left = decimal right) : left = right := by
  obtain ⟨left, rfl⟩ := Int.eq_ofNat_of_zero_le first
  obtain ⟨right, rfl⟩ := Int.eq_ofNat_of_zero_le second
  rw [decimal_ofNat, decimal_ofNat] at same
  exact congrArg _ (natural_injective same)

/-- Texts that a separator ends, and that do not contain it, are read back from their
concatenation with any rest. -/
theorem append_separator_inj {separator : UInt8} {left right rest other : Bytes}
    (first : separator ∉ left) (second : separator ∉ right)
    (same : left ++ separator :: rest = right ++ separator :: other) :
    left = right ∧ rest = other := by
  rcases List.append_eq_append_iff.mp same with ⟨extra, rfl, tail⟩ | ⟨extra, rfl, tail⟩ <;>
    cases extra <;> simp_all

/-- The last separator splits a text in one way. -/
theorem append_last_separator_inj {separator : UInt8} {left right rest other : Bytes}
    (restName : separator ∉ rest) (otherName : separator ∉ other)
    (same : left ++ separator :: rest = right ++ separator :: other) :
    left = right ∧ rest = other := by
  have reversed : rest.reverse ++ separator :: left.reverse =
      other.reverse ++ separator :: right.reverse := by
    have turned := congrArg List.reverse same
    rw [List.reverse_append, List.reverse_append, List.reverse_cons, List.reverse_cons,
      List.append_assoc, List.append_assoc] at turned
    exact turned
  have split := append_separator_inj (fun member => restName (List.mem_reverse.mp member))
    (fun member => otherName (List.mem_reverse.mp member)) reversed
  exact ⟨List.reverse_injective split.2, List.reverse_injective split.1⟩

/-- A word without the separator occurs in a text exactly when it occurs before a separator of the
text or after it. -/
theorem infix_append_separator {separator : UInt8} {word left right : Bytes}
    (absent : separator ∉ word) :
    word <:+: left ++ separator :: right ↔ word <:+: left ∨ word <:+: right := by
  constructor
  · intro occurs
    have outside : ∀ {rest : Bytes}, rest <+: separator :: right → separator ∉ rest → rest = [] := by
      intro rest start without
      rcases List.prefix_cons_iff.mp start with none | ⟨tail, this, -⟩
      · exact none
      · rw [this] at without
        exact absurd List.mem_cons_self without
    rcases List.infix_append_iff.mp occurs with before | after | ⟨front, back, rfl, ending, start⟩
    · exact .inl before
    · rcases List.infix_cons_iff.mp after with start | after
      · rw [outside start absent]
        exact .inl List.nil_infix
      · exact .inr after
    · have none := outside start fun member => absent (List.mem_append_right _ member)
      rw [none, List.append_nil]
      exact .inl ending.isInfix
  · intro either
    rcases either with before | after
    · exact before.trans List.infix_append_left
    · exact (List.infix_cons after).trans List.infix_append_right

end Bytes
