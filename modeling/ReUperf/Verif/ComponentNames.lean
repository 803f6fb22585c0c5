import ReUperf.Config.ComponentName

/-!
# Names of groups

Which names the configuration accepts for the directories of its groups. The code decodes a name by
hand; the names are told here by the characters they encode. The byte loop reads inside the name
only, and a name is accepted exactly when it is a short text of visible characters.
-/

namespace ReUperf.ConfigParser

/-- The ranges of the spaces and the invisible characters of the code. -/
def hiddenRanges : List (Nat × Nat) :=
  [(0x85, 0x85), (0xa0, 0xa0), (0x1680, 0x1680), (0x2000, 0x200a), (0x200b, 0x200f),
    (0x2028, 0x2028), (0x2029, 0x2029), (0x202a, 0x202e), (0x202f, 0x202f), (0x205f, 0x205f),
    (0x2060, 0x2060), (0x2066, 0x2069), (0x3000, 0x3000), (0xfeff, 0xfeff)]

/-- A code point may not stand in a name. -/
def IsForbidden (codepoint : Nat) : Prop :=
  codepoint ≤ 0x1f ∨ codepoint = 0x7f ∨ codepoint = '/'.toNat ∨ codepoint = '\\'.toNat ∨
    codepoint = ':'.toNat ∨ ∃ range ∈ hiddenRanges, range.1 ≤ codepoint ∧ codepoint ≤ range.2

/-- A byte is an ASCII space: a blank, or one of the controls from tab to carriage return. -/
def IsAsciiSpace (byte : UInt8) : Prop := byte.toNat = 32 ∨ (9 ≤ byte.toNat ∧ byte.toNat ≤ 13)

/-- A name is a text of allowed characters of which a group directory can be made. -/
structure IsComponentName (name : Bytes) : Prop where
  /-- There is a byte. -/
  filled : 1 ≤ name.length
  /-- There are not too many. -/
  bounded : name.length ≤ 128
  /-- The name is not that of the directory itself. -/
  notDot : name ≠ Bytes.ascii "."
  /-- The name is not that of the directory above. -/
  notDots : name ≠ Bytes.ascii ".."
  /-- The name does not begin with a space. -/
  front : ∀ byte, name.head? = some byte → ¬ IsAsciiSpace byte
  /-- The name does not end with a space. -/
  back : ∀ byte, name.getLast? = some byte → ¬ IsAsciiSpace byte
  /-- The name is well-formed UTF-8 of allowed characters. -/
  text : ∃ chars, name = Utf8.encode chars ∧ ∀ char ∈ chars, ¬ IsForbidden char.toNat

open Utf8

variable {codepoint : Nat} {bytes rest name : Bytes}

/-! ## Code points -/

/-- What is forbidden, told by numbers. -/
theorem isForbidden_iff : IsForbidden codepoint ↔
    codepoint ≤ 0x1f ∨ codepoint = 0x7f ∨ codepoint = 0x2f ∨ codepoint = 0x5c ∨
      codepoint = 0x3a ∨ codepoint = 0x85 ∨ codepoint = 0xa0 ∨ codepoint = 0x1680 ∨
      (0x2000 ≤ codepoint ∧ codepoint ≤ 0x200f) ∨ (0x2028 ≤ codepoint ∧ codepoint ≤ 0x202f) ∨
      codepoint = 0x205f ∨ codepoint = 0x2060 ∨ (0x2066 ≤ codepoint ∧ codepoint ≤ 0x2069) ∨
      codepoint = 0x3000 ∨ codepoint = 0xfeff := by
  have slash : '/'.toNat = 0x2f := rfl
  have backslash : '\\'.toNat = 0x5c := rfl
  have colon : ':'.toNat = 0x3a := rfl
  rw [IsForbidden, slash, backslash, colon]
  simp only [hiddenRanges, List.mem_cons, List.not_mem_nil, or_false, exists_eq_or_imp,
    exists_eq_left]
  omega

/-- The code's test of a code point that is not written too long. -/
theorem isSafeCodepoint_iff {width : Nat} (two : width = 2 → 0x80 ≤ codepoint)
    (three : width = 3 → 0x800 ≤ codepoint) (four : width = 4 → 0x10000 ≤ codepoint) :
    isSafeCodepoint width codepoint = true ↔ IsScalar codepoint ∧ ¬ IsForbidden codepoint := by
  rw [isForbidden_iff, IsScalar]
  simp only [isSafeCodepoint, Bool.not_eq_true', decide_eq_false_iff_not]
  omega

/-- The code's test of an encoded code point. -/
theorem isSafeCodepoint_of_encodes (encodes : Encodes codepoint bytes) :
    isSafeCodepoint bytes.length codepoint = true ↔
      IsScalar codepoint ∧ ¬ IsForbidden codepoint := by
  cases encodes with
  | one lead value => exact isSafeCodepoint_iff (by simp) (by simp) (by simp)
  | two lead last shortest value =>
    exact isSafeCodepoint_iff (fun _ => shortest) (by simp) (by simp)
  | three lead tail last shortest value =>
    exact isSafeCodepoint_iff (by simp) (fun _ => shortest) (by simp)
  | four lead tail middle last shortest value =>
    exact isSafeCodepoint_iff (by simp) (by simp) (fun _ => shortest)

/-- The code's test of a space. -/
theorem isAsciiSpace_iff : ∀ byte : UInt8, isAsciiSpace byte = true ↔ IsAsciiSpace byte := by
  unfold IsAsciiSpace
  exact forall_byte (by decide +kernel)

/-- A byte that continues a code point. -/
theorem isContinuation_iff (byte : UInt8) : isContinuation byte = true ↔ IsTail byte := by
  rw [isContinuation, decide_eq_true_eq, masked_iff_tail, IsTail]

/-- A byte that continues a code point adds its payload. -/
theorem appendContinuation_eq (codepoint : Nat) (byte : UInt8) :
    appendContinuation codepoint byte = codepoint * 64 + byte.toNat % 64 := by
  rw [appendContinuation, payload_tail]

/-- The bytes of an encoded code point, then the rest. -/
theorem isSafeText_append (encodes : Encodes codepoint bytes) (rest : Bytes) :
    isSafeText (bytes ++ rest) = (isSafeCodepoint bytes.length codepoint && isSafeText rest) := by
  cases encodes with
  | @one first lead value =>
    show isSafeText (first :: rest) = (isSafeCodepoint 1 codepoint && isSafeText rest)
    conv_lhs => unfold isSafeText
    rw [if_pos ((lt_iff_one first).mpr lead), value]
  | @two first second lead last shortest value =>
    show isSafeText (first :: second :: rest) = (isSafeCodepoint 2 codepoint && isSafeText rest)
    have wide : ¬ first < 0x80 := fun low => by
      have := (lt_iff_one first).mp low
      omega
    conv_lhs => unfold isSafeText
    rw [if_neg wide, if_pos ((masked_iff_two first).mpr lead)]
    dsimp only
    rw [(isContinuation_iff second).mpr last, appendContinuation_eq,
      payload_two, Bool.true_and, ← value]
  | @three first second third lead tail last shortest value =>
    show isSafeText (first :: second :: third :: rest) =
      (isSafeCodepoint 3 codepoint && isSafeText rest)
    have wide : ¬ first < 0x80 := fun low => by
      have := (lt_iff_one first).mp low
      omega
    have notTwo : ¬ first &&& 0xe0 = 0xc0 := fun two => by
      have := (masked_iff_two first).mp two
      omega
    conv_lhs => unfold isSafeText
    rw [if_neg wide, if_neg notTwo, if_pos ((masked_iff_three first).mpr lead)]
    dsimp only
    rw [(isContinuation_iff second).mpr tail, (isContinuation_iff third).mpr last,
      appendContinuation_eq, appendContinuation_eq, payload_three,
      Bool.true_and, Bool.true_and, ← value]
  | @four first second third fourth lead tail middle last shortest value =>
    show isSafeText (first :: second :: third :: fourth :: rest) =
      (isSafeCodepoint 4 codepoint && isSafeText rest)
    have wide : ¬ first < 0x80 := fun low => by
      have := (lt_iff_one first).mp low
      omega
    have notTwo : ¬ first &&& 0xe0 = 0xc0 := fun two => by
      have := (masked_iff_two first).mp two
      omega
    have notThree : ¬ first &&& 0xf0 = 0xe0 := fun three => by
      have := (masked_iff_three first).mp three
      omega
    conv_lhs => unfold isSafeText
    rw [if_neg wide, if_neg notTwo, if_neg notThree, if_pos ((masked_iff_four first).mpr lead)]
    dsimp only
    rw [(isContinuation_iff second).mpr tail, (isContinuation_iff third).mpr middle,
      (isContinuation_iff fourth).mpr last, appendContinuation_eq, appendContinuation_eq,
      appendContinuation_eq, payload_four, Bool.true_and, Bool.true_and,
      Bool.true_and, ← value]

/-- A code point that passes the test is not written too long. -/
theorem shortest_of_isSafeCodepoint {width : Nat} (safe : isSafeCodepoint width codepoint = true) :
    (width = 2 → 0x80 ≤ codepoint) ∧ (width = 3 → 0x800 ≤ codepoint) ∧
      (width = 4 → 0x10000 ≤ codepoint) := by
  simp only [isSafeCodepoint, Bool.not_eq_true', decide_eq_false_iff_not] at safe
  omega

/-- A safe text begins with an encoded code point. -/
theorem encodes_of_isSafeText {lead : UInt8} (safe : isSafeText (lead :: rest) = true) :
    ∃ codepoint bytes more, lead :: rest = bytes ++ more ∧ Encodes codepoint bytes := by
  unfold isSafeText at safe
  by_cases one : lead < 0x80
  · exact ⟨lead.toNat, [lead], rest, rfl, .one ((lt_iff_one lead).mp one) rfl⟩
  rw [if_neg one] at safe
  by_cases two : lead &&& 0xe0 = 0xc0
  · rw [if_pos two] at safe
    rcases rest with _ | ⟨second, rest⟩
    · simp at safe
    · simp only [Bool.and_eq_true, isContinuation_iff, appendContinuation_eq,
        payload_two] at safe
      obtain ⟨⟨last, point⟩, _⟩ := safe
      have shortest := (shortest_of_isSafeCodepoint point).1 rfl
      exact ⟨_, [lead, second], rest, rfl, .two ((masked_iff_two lead).mp two) last shortest rfl⟩
  rw [if_neg two] at safe
  by_cases three : lead &&& 0xf0 = 0xe0
  · rw [if_pos three] at safe
    rcases rest with _ | ⟨second, _ | ⟨third, rest⟩⟩
    · simp at safe
    · simp at safe
    · simp only [Bool.and_eq_true, isContinuation_iff, appendContinuation_eq,
        payload_three] at safe
      obtain ⟨⟨⟨tail, last⟩, point⟩, _⟩ := safe
      have shortest := (shortest_of_isSafeCodepoint point).2.1 rfl
      exact ⟨_, [lead, second, third], rest, rfl,
        .three ((masked_iff_three lead).mp three) tail last shortest rfl⟩
  rw [if_neg three] at safe
  by_cases four : lead &&& 0xf8 = 0xf0
  · rw [if_pos four] at safe
    rcases rest with _ | ⟨second, _ | ⟨third, _ | ⟨fourth, rest⟩⟩⟩
    · simp at safe
    · simp at safe
    · simp at safe
    · simp only [Bool.and_eq_true, isContinuation_iff, appendContinuation_eq,
        payload_four] at safe
      obtain ⟨⟨⟨⟨tail, middle⟩, last⟩, point⟩, _⟩ := safe
      have shortest := (shortest_of_isSafeCodepoint point).2.2 rfl
      exact ⟨_, [lead, second, third, fourth], rest, rfl,
        .four ((masked_iff_four lead).mp four) tail middle last shortest rfl⟩
  · simp [if_neg four] at safe

/-! ## Texts -/

/-- The first character of a text. -/
theorem isSafeText_encodeChar (char : Char) (rest : Bytes) :
    isSafeText (String.utf8EncodeChar char ++ rest) = true ↔
      ¬ IsForbidden char.toNat ∧ isSafeText rest = true := by
  have encodes := encodes_encodeChar char
  rw [isSafeText_append encodes, Bool.and_eq_true, isSafeCodepoint_of_encodes encodes]
  have scalar := isScalar_toNat char
  simp only [scalar, true_and]

/-- A text of allowed characters is safe. -/
theorem isSafeText_encode (chars : List Char) :
    isSafeText (encode chars) = true ↔ ∀ char ∈ chars, ¬ IsForbidden char.toNat := by
  induction chars with
  | nil => simp [isSafeText]
  | cons char chars ih => rw [encode_cons, isSafeText_encodeChar, ih, List.forall_mem_cons]

/-- A safe text is one of characters. -/
theorem exists_encode_of_isSafeText (text : Bytes) (safe : isSafeText text = true) :
    ∃ chars, text = encode chars := by
  -- Each code point takes at least one byte: induction on the length.
  induction size : text.length using Nat.strong_induction_on generalizing text with
  | _ bound ih =>
    cases text with
    | nil => exact ⟨[], rfl⟩
    | cons lead rest =>
      obtain ⟨codepoint, bytes, more, split, encodes⟩ := encodes_of_isSafeText safe
      rw [split, isSafeText_append encodes, Bool.and_eq_true,
        isSafeCodepoint_of_encodes encodes] at safe
      obtain ⟨⟨scalar, _⟩, later⟩ := safe
      obtain ⟨char, rfl⟩ := exists_char scalar
      have taken : 0 < bytes.length := by
        cases encodes <;> simp
      have whole : (lead :: rest).length = bytes.length + more.length := by
        rw [split, List.length_append]
      obtain ⟨chars, this⟩ := ih more.length (by omega) more later rfl
      exact ⟨char :: chars, by rw [split, encode_cons, encodes.encodeChar, this]⟩

/-- A text is safe exactly when it is one of allowed characters. -/
theorem isSafeText_iff (text : Bytes) : isSafeText text = true ↔
    ∃ chars, text = encode chars ∧ ∀ char ∈ chars, ¬ IsForbidden char.toNat := by
  constructor
  · intro safe
    obtain ⟨chars, this⟩ := exists_encode_of_isSafeText text safe
    rw [this, isSafeText_encode] at safe
    exact ⟨chars, this, safe⟩
  · intro written
    obtain ⟨chars, this, allowed⟩ := written
    rw [this, isSafeText_encode]
    exact allowed

/-- A name is accepted exactly when it is a component name. -/
theorem isSafeCgroupComponent_iff (name : Bytes) :
    isSafeCgroupComponent name = true ↔ IsComponentName name := by
  unfold isSafeCgroupComponent
  cases opening : name.head? with
  | none =>
    have empty := List.head?_eq_none_iff.mp opening
    constructor
    · intro safe
      simp at safe
    · intro holds
      have filled := holds.filled
      rw [empty] at filled
      exact absurd filled (by decide)
  | some front =>
    have filled : name ≠ [] := by
      intro empty
      rw [empty] at opening
      exact absurd opening (by simp)
    obtain ⟨back, closing⟩ : ∃ back, name.getLast? = some back :=
      ⟨_, List.getLast?_eq_some_getLast filled⟩
    have length := List.length_pos_iff.mpr filled
    rw [closing]
    simp only [Bool.and_eq_true, decide_eq_true_eq, Bool.not_eq_true', Bool.eq_false_iff, ne_eq,
      isAsciiSpace_iff, isSafeText_iff]
    constructor
    · intro safe
      obtain ⟨⟨⟨⟨⟨notDot, notDots⟩, bounded⟩, notFront⟩, notBack⟩, text⟩ := safe
      exact {
        filled := length
        bounded := bounded
        notDot := notDot
        notDots := notDots
        front := by
          intro byte first
          rw [opening, Option.some.injEq] at first
          rw [← first]
          exact notFront
        back := by
          intro byte last
          rw [closing, Option.some.injEq] at last
          rw [← last]
          exact notBack
        text := text }
    · intro holds
      exact ⟨⟨⟨⟨⟨holds.notDot, holds.notDots⟩, holds.bounded⟩, holds.front front opening⟩,
        holds.back back closing⟩, holds.text⟩

/-- A name is accepted exactly when it is a component name, and the byte loop reads inside the name
only. -/
theorem accepts_exactly (name : Bytes) :
    checkCgroupComponent name = some (isSafeCgroupComponent name) ∧
      (isSafeCgroupComponent name = true ↔ IsComponentName name) :=
  ⟨checkCgroupComponent_eq name, isSafeCgroupComponent_iff name⟩

end ReUperf.ConfigParser
