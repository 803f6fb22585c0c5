import ReUperf.Lib.Text

/-!
# Reading texts

The parts of the C++ library that take texts apart: `std::getline`, `std::string::rfind` and the
conversions of decimal numbers. A conversion skips white space, reads a sign and then as many
digits as there are; what follows is left. The digits that write a number are read back as it.
-/

namespace Bytes

/-- White space of the C locale. -/
def isSpace (byte : UInt8) : Bool := byte = 32 || (9 ≤ byte && byte ≤ 13)

/-- A decimal digit. -/
def isDigit (byte : UInt8) : Bool := 48 ≤ byte && byte ≤ 57

/-- The number some digits write. -/
def ofDigits (digits : Bytes) : Nat :=
  digits.foldl (fun value digit => 10 * value + (digit.toNat - 48)) 0

/-- A sign and what follows it. -/
def takeSign : Bytes → Bool × Bytes
  | 45 :: rest => (true, rest)
  | 43 :: rest => (false, rest)
  | rest => (false, rest)

/-- The number at the start of a text: whether it is negated, its digits and what follows them;
nothing when there is no digit. -/
def scanNumber (text : Bytes) : Option (Bool × Nat × Bytes) :=
  let signed := takeSign (text.dropWhile isSpace)
  let digits := signed.2.takeWhile isDigit
  if digits = [] then none else some (signed.1, ofDigits digits, signed.2.dropWhile isDigit)

/-- `std::stoi`; nothing when it throws. -/
def stoi (text : Bytes) : Option Int :=
  match scanNumber text with
  | none => none
  | some (negative, magnitude, _) =>
    let value : Int := if negative then -magnitude else magnitude
    if -2147483648 ≤ value ∧ value ≤ 2147483647 then some value else none

/-- The largest 64-bit number, `ULLONG_MAX`. -/
def ullongMax : Nat := 18446744073709551615

/-- `strtoull` with what it leaves; nothing when it reads no digit or sets `errno`. -/
def strtoull (text : Bytes) : Option (Nat × Bytes) :=
  match scanNumber text with
  | none => none
  | some (negative, magnitude, rest) =>
    if magnitude ≤ ullongMax then
      some (if negative then (ullongMax + 1 - magnitude) % (ullongMax + 1) else magnitude, rest)
    else none

/-- The largest `long`, `LONG_MAX`. -/
def longMax : Int := 9223372036854775807

/-- `strtol` with what it leaves; nothing when it reads no digit or sets `errno`. -/
def strtol (text : Bytes) : Option (Int × Bytes) :=
  match scanNumber text with
  | none => none
  | some (negative, magnitude, rest) =>
    let value : Int := if negative then -magnitude else magnitude
    if -longMax - 1 ≤ value ∧ value ≤ longMax then some (value, rest) else none

/-- `std::getline`: the text before a delimiter and the text after it; nothing at the end. -/
def getline (delimiter : UInt8) (text : Bytes) : Option (Bytes × Bytes) :=
  if text = [] then none
  else some (text.takeWhile (· ≠ delimiter), (text.dropWhile (· ≠ delimiter)).drop 1)

/-- `std::string::find`: the first position of a text. -/
def find (part : Bytes) : Bytes → Option Nat
  | [] => if part = [] then some 0 else none
  | byte :: rest =>
    if part.isPrefixOf (byte :: rest) then some 0 else (find part rest).map (· + 1)

/-- `std::string::rfind`: the last position of a byte. -/
def rfind (byte : UInt8) : Bytes → Option Nat
  | [] => none
  | head :: rest =>
    match rfind byte rest with
    | some position => some (position + 1)
    | none => if head = byte then some 0 else none

/-! ## Digits -/

/-- The bytes of a number are digits. -/
theorem isDigit_of_mem_natural {value : Nat} {byte : UInt8} (member : byte ∈ natural value) :
    isDigit byte = true := by
  have lower := lt_of_mem_natural member
  have upper := le_of_mem_natural member
  rw [UInt8.lt_iff_toNat_lt] at lower
  rw [isDigit, Bool.and_eq_true, decide_eq_true_eq, decide_eq_true_eq]
  exact ⟨UInt8.le_iff_toNat_le.mpr lower, upper⟩

/-- A number has a digit. -/
theorem natural_ne_nil (value : Nat) : natural value ≠ [] := by
  rw [natural, ne_eq, List.map_eq_nil_iff]
  exact Nat.toDigits_ne_nil

/-- The digits of a number are read back as it. -/
theorem ofDigits_natural (value : Nat) : ofDigits (natural value) = value := by
  have same : ∀ digits : List Char, (∀ digit ∈ digits, digit.isDigit = true) → ∀ start,
      (digits.map fun char => char.val.toUInt8).foldl
        (fun value digit => 10 * value + (digit.toNat - 48)) start =
      Nat.ofDigitChars 10 digits start := by
    intro digits
    induction digits with
    | nil => intro all start; rfl
    | cons digit rest ih =>
      intro all start
      have byte := toNat_toUInt8_of_isDigit (all digit List.mem_cons_self)
      have later := ih fun other member => all other (List.mem_cons_of_mem _ member)
      rw [List.map_cons, List.foldl_cons, byte, later, Nat.ofDigitChars_cons]
      rfl
  have digits : ∀ digit ∈ Nat.toDigits 10 value, digit.isDigit = true :=
    fun digit member => Nat.isDigit_of_mem_toDigits (by omega) (by omega) member
  rw [ofDigits, natural, same _ digits, Nat.ofDigitChars_ten_toDigits]

/-! ## Conversions -/

/-- A digit is not white space. -/
theorem not_isSpace_of_isDigit {byte : UInt8} (digit : isDigit byte = true) :
    isSpace byte = false := by
  simp only [isDigit, Bool.and_eq_true, decide_eq_true_eq, UInt8.le_iff_toNat_le] at digit
  have lower : 48 ≤ byte.toNat := digit.1
  have notBlank : byte ≠ 32 := by
    intro blank
    rw [blank] at lower
    exact absurd lower (by decide)
  have above : ¬ byte ≤ 13 := by
    rw [UInt8.le_iff_toNat_le]
    intro below
    exact absurd (Nat.le_trans lower below) (by decide)
  simp [isSpace, notBlank, above]

/-- Digits have no sign. -/
theorem takeSign_of_isDigit {byte : UInt8} (digit : isDigit byte = true) (rest : Bytes) :
    takeSign (byte :: rest) = (false, byte :: rest) := by
  unfold takeSign
  split
  · rename_i same
    obtain ⟨rfl, -⟩ := List.cons.inj same
    exact absurd digit (by decide)
  · rename_i same
    obtain ⟨rfl, -⟩ := List.cons.inj same
    exact absurd digit (by decide)
  · rfl

/-- A text that stops at its first byte without a property. -/
theorem stop_of_head {holds : UInt8 → Bool} {rest : Bytes}
    (ends : ∀ byte, rest.head? = some byte → holds byte = false) :
    rest.takeWhile holds = [] ∧ rest.dropWhile holds = rest := by
  cases rest with
  | nil => exact ⟨rfl, rfl⟩
  | cons byte rest =>
    have stops := ends byte rfl
    exact ⟨List.takeWhile_cons_of_neg (by simp [stops]),
      List.dropWhile_cons_of_neg (by simp [stops])⟩

/-- A word whose bytes have a property is taken up to the first byte that has not. -/
theorem takeWhile_word {holds : UInt8 → Bool} {word rest : Bytes}
    (all : ∀ byte ∈ word, holds byte = true)
    (ends : ∀ byte, rest.head? = some byte → holds byte = false) :
    (word ++ rest).takeWhile holds = word := by
  rw [List.takeWhile_append_of_pos all, (stop_of_head ends).1, List.append_nil]

/-- What is left of such a text after the word. -/
theorem dropWhile_word {holds : UInt8 → Bool} {word rest : Bytes}
    (all : ∀ byte ∈ word, holds byte = true)
    (ends : ∀ byte, rest.head? = some byte → holds byte = false) :
    (word ++ rest).dropWhile holds = rest := by
  rw [List.dropWhile_append_of_pos all, (stop_of_head ends).2]

/-- The digits at the start of a text are its number. -/
theorem scanNumber_append {digits rest : Bytes} (filled : digits ≠ [])
    (all : ∀ byte ∈ digits, isDigit byte = true)
    (ends : ∀ byte, rest.head? = some byte → isDigit byte = false) :
    scanNumber (digits ++ rest) = some (false, ofDigits digits, rest) := by
  obtain ⟨first, more, rfl⟩ := List.exists_cons_of_ne_nil filled
  have digit := all first List.mem_cons_self
  have blank : ¬ isSpace first = true := by
    rw [not_isSpace_of_isDigit digit]
    decide
  unfold scanNumber
  rw [List.cons_append, List.dropWhile_cons_of_neg blank, takeSign_of_isDigit digit,
    ← List.cons_append]
  dsimp only
  rw [takeWhile_word all ends, dropWhile_word all ends, if_neg filled]

/-- A number within the range of `int` is read back from its digits. -/
theorem stoi_natural {value : Nat} (small : value ≤ 2147483647) :
    stoi (natural value) = some (value : Int) := by
  have scanned := @scanNumber_append (natural value) [] (natural_ne_nil value)
    (fun byte member => isDigit_of_mem_natural member) (by simp)
  rw [List.append_nil, ofDigits_natural] at scanned
  rw [stoi, scanned]
  simp only [Bool.false_eq_true, if_false]
  rw [if_pos (by omega)]

/-- A number within the range of `long` is read after white space. -/
theorem strtol_natural {value : Nat} (small : (value : Int) ≤ longMax) {blanks rest : Bytes}
    (white : ∀ byte ∈ blanks, isSpace byte = true)
    (ends : ∀ byte, rest.head? = some byte → isDigit byte = false) :
    strtol (blanks ++ (natural value ++ rest)) = some ((value : Int), rest) := by
  have scanned : scanNumber (natural value ++ rest) = some (false, value, rest) := by
    rw [scanNumber_append (natural_ne_nil value) (fun _ member => isDigit_of_mem_natural member)
      ends, ofDigits_natural]
  have skipped : scanNumber (blanks ++ (natural value ++ rest)) =
      scanNumber (natural value ++ rest) := by
    unfold scanNumber
    rw [List.dropWhile_append_of_pos white]
  have positive : 0 ≤ longMax := by decide
  rw [strtol, skipped, scanned]
  simp only [Bool.false_eq_true, if_false]
  rw [if_pos (by omega)]

/-- Digits within the range of a 64-bit number are read as it. -/
theorem strtoull_digits {digits : Bytes} (filled : digits ≠ [])
    (all : ∀ byte ∈ digits, isDigit byte = true) (small : ofDigits digits ≤ ullongMax) :
    strtoull digits = some (ofDigits digits, []) := by
  have scanned := @scanNumber_append digits [] filled all (by simp)
  rw [List.append_nil] at scanned
  rw [strtoull, scanned]
  dsimp only
  rw [if_pos small, if_neg (by decide)]

/-! ## Delimiters -/

/-- A word without the delimiter is read up to it. -/
theorem getline_delimited {delimiter : UInt8} {word : Bytes} (clean : delimiter ∉ word)
    (rest : Bytes) : getline delimiter (word ++ delimiter :: rest) = some (word, rest) := by
  have all : ∀ byte ∈ word, decide (byte ≠ delimiter) = true := by
    intro byte member
    rw [decide_eq_true_eq]
    intro same
    rw [same] at member
    exact clean member
  have ends : ∀ byte, (delimiter :: rest).head? = some byte →
      decide (byte ≠ delimiter) = false := by
    intro byte first
    rw [← Option.some.inj first]
    simp
  rw [getline, if_neg (by simp), takeWhile_word all ends, dropWhile_word all ends]
  rfl

/-- A word without the delimiter is read to the end. -/
theorem getline_last {delimiter : UInt8} {word : Bytes} (clean : delimiter ∉ word)
    (filled : word ≠ []) : getline delimiter word = some (word, []) := by
  have all : ∀ byte ∈ word, decide (byte ≠ delimiter) = true := by
    intro byte member
    rw [decide_eq_true_eq]
    intro same
    rw [same] at member
    exact clean member
  have taken := @takeWhile_word _ word [] all (by simp)
  have left := @dropWhile_word _ word [] all (by simp)
  rw [List.append_nil] at taken left
  rw [getline, if_neg filled, taken, left]
  rfl

/-- What is left after a delimiter is shorter. -/
theorem length_lt_of_getline {delimiter : UInt8} {text word rest : Bytes}
    (found : getline delimiter text = some (word, rest)) : rest.length < text.length := by
  unfold getline at found
  by_cases empty : text = []
  · rw [if_pos empty] at found
    exact absurd found (by simp)
  · rw [if_neg empty, Option.some.injEq] at found
    obtain ⟨-, rfl⟩ := Prod.mk.inj found
    have filled := List.length_pos_iff.mpr empty
    have suffix := (List.dropWhile_suffix (fun byte => decide (byte ≠ delimiter))
      (l := text)).length_le
    rw [List.length_drop]
    omega

/-- The last position of a byte is the one after which it does not occur. -/
theorem rfind_append {byte : UInt8} (front : Bytes) {rest : Bytes} (clean : byte ∉ rest) :
    rfind byte (front ++ byte :: rest) = some front.length := by
  have none : ∀ {rest : Bytes}, byte ∉ rest → rfind byte rest = none := by
    intro rest absent
    induction rest with
    | nil => rfl
    | cons head rest ih =>
      rw [List.mem_cons, not_or] at absent
      rw [rfind, ih absent.2]
      exact if_neg (Ne.symm absent.1)
  induction front with
  | nil =>
    rw [List.nil_append, rfind, none clean]
    exact if_pos rfl
  | cons head front ih =>
    rw [List.cons_append, rfind, ih]
    rfl

end Bytes
