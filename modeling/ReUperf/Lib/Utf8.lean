import ReUperf.Lib.Text

/-!
# UTF-8

A text is a list of characters, each one a scalar value of Unicode, and its bytes are those that
`String.utf8EncodeChar` writes. A byte is told by the range it lies in, so that masks turn into
bounds and remainders. For each width the module says which bytes a character of that width has and
which bytes are those of a character.
-/

namespace Utf8

open String (utf8EncodeChar)

/-- The bytes of a text. -/
def encode (chars : List Char) : Bytes := chars.flatMap utf8EncodeChar

@[simp] theorem encode_nil : encode [] = [] := rfl

@[simp] theorem encode_cons (char : Char) (chars : List Char) :
    encode (char :: chars) = utf8EncodeChar char ++ encode chars := rfl

/-! ## Bytes -/

/-- What holds of the bytes one by one holds of every byte. -/
theorem forall_byte {holds : UInt8 → Prop} (each : ∀ number : Fin 256, holds (.ofFin number))
    (byte : UInt8) : holds byte := each byte.toFin

/-- A byte of one. -/
theorem lt_iff_one (byte : UInt8) : byte < 0x80 ↔ byte.toNat < 128 := UInt8.lt_iff_toNat_lt

/-- The leading bits of a byte tell the range that it lies in. -/
theorem masked_iff : ∀ byte : UInt8,
    (byte &&& 0xe0 = 0xc0 ↔ 192 ≤ byte.toNat ∧ byte.toNat < 224) ∧
      (byte &&& 0xf0 = 0xe0 ↔ 224 ≤ byte.toNat ∧ byte.toNat < 240) ∧
      (byte &&& 0xf8 = 0xf0 ↔ 240 ≤ byte.toNat ∧ byte.toNat < 248) ∧
      (byte &&& 0xc0 = 0x80 ↔ 128 ≤ byte.toNat ∧ byte.toNat < 192) :=
  forall_byte (by decide +kernel)

/-- The first byte of two. -/
theorem masked_iff_two (byte : UInt8) :
    byte &&& 0xe0 = 0xc0 ↔ 192 ≤ byte.toNat ∧ byte.toNat < 224 :=
  (masked_iff byte).1

/-- The first byte of three. -/
theorem masked_iff_three (byte : UInt8) :
    byte &&& 0xf0 = 0xe0 ↔ 224 ≤ byte.toNat ∧ byte.toNat < 240 :=
  (masked_iff byte).2.1

/-- The first byte of four. -/
theorem masked_iff_four (byte : UInt8) :
    byte &&& 0xf8 = 0xf0 ↔ 240 ≤ byte.toNat ∧ byte.toNat < 248 :=
  (masked_iff byte).2.2.1

/-- A byte after the first one. -/
theorem masked_iff_tail (byte : UInt8) :
    byte &&& 0xc0 = 0x80 ↔ 128 ≤ byte.toNat ∧ byte.toNat < 192 :=
  (masked_iff byte).2.2.2

/-- The payload of the first byte of two. -/
theorem payload_two (byte : UInt8) : (byte &&& 0x1f).toNat = byte.toNat % 32 := by
  rw [UInt8.toNat_and]
  exact Nat.and_two_pow_sub_one_eq_mod byte.toNat 5

/-- The payload of the first byte of three. -/
theorem payload_three (byte : UInt8) : (byte &&& 0x0f).toNat = byte.toNat % 16 := by
  rw [UInt8.toNat_and]
  exact Nat.and_two_pow_sub_one_eq_mod byte.toNat 4

/-- The payload of the first byte of four. -/
theorem payload_four (byte : UInt8) : (byte &&& 0x07).toNat = byte.toNat % 8 := by
  rw [UInt8.toNat_and]
  exact Nat.and_two_pow_sub_one_eq_mod byte.toNat 3

/-- The payload of a byte after the first one. -/
theorem payload_tail (byte : UInt8) : (byte &&& 0x3f).toNat = byte.toNat % 64 := by
  rw [UInt8.toNat_and]
  exact Nat.and_two_pow_sub_one_eq_mod byte.toNat 6

/-- A byte is the one of its number. -/
theorem ofNat_eq {number : Nat} {byte : UInt8} (same : number = byte.toNat) :
    UInt8.ofNat number = byte := by
  rw [same, UInt8.ofNat_toNat]

/-! ## Characters -/

/-- A number is a scalar value. -/
def IsScalar (number : Nat) : Prop :=
  number < 0xd800 ∨ (0xdfff < number ∧ number < 0x110000)

/-- A character is a scalar value. -/
theorem isScalar_toNat (char : Char) : IsScalar char.toNat := char.valid

/-- A scalar value is a character. -/
theorem exists_char {number : Nat} (scalar : IsScalar number) :
    ∃ char : Char, char.toNat = number :=
  ⟨Char.ofNatAux number scalar, rfl⟩

variable {char : Char}

/-- A byte follows the first one. -/
def IsTail (byte : UInt8) : Prop := 128 ≤ byte.toNat ∧ byte.toNat < 192

/-- The bytes of a character, told by its number. -/
theorem encodeChar_eq (char : Char) : utf8EncodeChar char =
    if char.toNat ≤ 0x7f then [.ofNat char.toNat]
    else if char.toNat ≤ 0x7ff then
      [.ofNat (char.toNat / 64 % 32 + 192), .ofNat (char.toNat % 64 + 128)]
    else if char.toNat ≤ 0xffff then
      [.ofNat (char.toNat / 4096 % 16 + 224), .ofNat (char.toNat / 64 % 64 + 128),
        .ofNat (char.toNat % 64 + 128)]
    else
      [.ofNat (char.toNat / 262144 % 8 + 240), .ofNat (char.toNat / 4096 % 64 + 128),
        .ofNat (char.toNat / 64 % 64 + 128), .ofNat (char.toNat % 64 + 128)] := rfl

/-- The bytes of a number, by their count: the shortest encoding that can hold it. -/
inductive Encodes (number : Nat) : Bytes → Prop where
  /-- One byte. -/
  | one {first : UInt8} (lead : first.toNat < 128) (value : number = first.toNat) :
    Encodes number [first]
  /-- Two bytes. -/
  | two {first second : UInt8} (lead : 192 ≤ first.toNat ∧ first.toNat < 224)
    (last : IsTail second) (shortest : 0x80 ≤ number)
    (value : number = first.toNat % 32 * 64 + second.toNat % 64) : Encodes number [first, second]
  /-- Three bytes. -/
  | three {first second third : UInt8} (lead : 224 ≤ first.toNat ∧ first.toNat < 240)
    (tail : IsTail second) (last : IsTail third) (shortest : 0x800 ≤ number)
    (value : number = (first.toNat % 16 * 64 + second.toNat % 64) * 64 + third.toNat % 64) :
    Encodes number [first, second, third]
  /-- Four bytes. -/
  | four {first second third fourth : UInt8} (lead : 240 ≤ first.toNat ∧ first.toNat < 248)
    (tail : IsTail second) (middle : IsTail third) (last : IsTail fourth)
    (shortest : 0x10000 ≤ number)
    (value : number = ((first.toNat % 8 * 64 + second.toNat % 64) * 64 + third.toNat % 64) * 64 +
      fourth.toNat % 64) :
    Encodes number [first, second, third, fourth]

/-- The bytes that encode the number of a character are its bytes. -/
theorem Encodes.encodeChar {bytes : Bytes} (encodes : Encodes char.toNat bytes) :
    utf8EncodeChar char = bytes := by
  cases encodes with
  | one lead value => rw [encodeChar_eq, if_pos (by omega), ofNat_eq value]
  | @two first second lead last shortest value =>
    obtain ⟨low, high⟩ := last
    have firstByte : UInt8.ofNat (char.toNat / 64 % 32 + 192) = first := ofNat_eq (by omega)
    have lastByte : UInt8.ofNat (char.toNat % 64 + 128) = second := ofNat_eq (by omega)
    rw [encodeChar_eq, if_neg (by omega), if_pos (by omega), firstByte, lastByte]
  | @three first second third lead tail last shortest value =>
    obtain ⟨low, high⟩ := tail
    obtain ⟨lowest, highest⟩ := last
    have firstByte : UInt8.ofNat (char.toNat / 4096 % 16 + 224) = first := ofNat_eq (by omega)
    have middleByte : UInt8.ofNat (char.toNat / 64 % 64 + 128) = second := ofNat_eq (by omega)
    have lastByte : UInt8.ofNat (char.toNat % 64 + 128) = third := ofNat_eq (by omega)
    rw [encodeChar_eq, if_neg (by omega), if_neg (by omega), if_pos (by omega), firstByte,
      middleByte, lastByte]
  | @four first second third fourth lead tail middle last shortest value =>
    obtain ⟨low, high⟩ := tail
    obtain ⟨lower, higher⟩ := middle
    obtain ⟨lowest, highest⟩ := last
    have firstByte : UInt8.ofNat (char.toNat / 262144 % 8 + 240) = first := ofNat_eq (by omega)
    have secondByte : UInt8.ofNat (char.toNat / 4096 % 64 + 128) = second := ofNat_eq (by omega)
    have thirdByte : UInt8.ofNat (char.toNat / 64 % 64 + 128) = third := ofNat_eq (by omega)
    have lastByte : UInt8.ofNat (char.toNat % 64 + 128) = fourth := ofNat_eq (by omega)
    rw [encodeChar_eq, if_neg (by omega), if_neg (by omega), if_neg (by omega), firstByte,
      secondByte, thirdByte, lastByte]

/-- The number of a byte that is written. -/
theorem toNat_ofNat_of_lt {number : Nat} (small : number < 256) :
    (UInt8.ofNat number).toNat = number := by
  rw [UInt8.toNat_ofNat', Nat.mod_eq_of_lt small]

/-- A written byte follows the first one. -/
theorem isTail_ofNat (number : Nat) : IsTail (.ofNat (number % 64 + 128)) := by
  rw [IsTail, toNat_ofNat_of_lt (by omega)]
  omega

/-- The payload of a byte that follows the first one. -/
theorem payload_ofNat (number : Nat) :
    (UInt8.ofNat (number % 64 + 128)).toNat % 64 = number % 64 := by
  rw [toNat_ofNat_of_lt (by omega)]
  omega

/-- The bytes of a character encode its number. -/
theorem encodes_encodeChar (char : Char) : Encodes char.toNat (utf8EncodeChar char) := by
  have below : char.toNat < 0x110000 := by
    rcases isScalar_toNat char with low | ⟨_, high⟩
    · omega
    · exact high
  rw [encodeChar_eq]
  by_cases single : char.toNat ≤ 0x7f
  · rw [if_pos single]
    have value := toNat_ofNat_of_lt (show char.toNat < 256 by omega)
    exact .one (by omega) value.symm
  by_cases double : char.toNat ≤ 0x7ff
  · rw [if_neg single, if_pos double]
    have lead := toNat_ofNat_of_lt (show char.toNat / 64 % 32 + 192 < 256 by omega)
    refine .two (by omega) (isTail_ofNat _) (by omega) ?_
    rw [lead, payload_ofNat]
    omega
  by_cases triple : char.toNat ≤ 0xffff
  · rw [if_neg single, if_neg double, if_pos triple]
    have lead := toNat_ofNat_of_lt (show char.toNat / 4096 % 16 + 224 < 256 by omega)
    refine .three (by omega) (isTail_ofNat _) (isTail_ofNat _) (by omega) ?_
    rw [lead, payload_ofNat, payload_ofNat]
    omega
  · rw [if_neg single, if_neg double, if_neg triple]
    have lead := toNat_ofNat_of_lt (show char.toNat / 262144 % 8 + 240 < 256 by omega)
    refine .four (by omega) (isTail_ofNat _) (isTail_ofNat _) (isTail_ofNat _) (by omega) ?_
    rw [lead, payload_ofNat, payload_ofNat, payload_ofNat]
    omega

end Utf8
