import ReUperf.Config.Parser
import ReUperf.Lib.Utf8

/-!
# The byte loop over a name

`is_safe_cgroup_component` of `config_parser.hpp` byte by byte, with the offsets at which it reads.
Its answer is missing when it reads a byte outside the name. The loop never does, and its answer is
that of `isSafeCgroupComponent`, which follows the bytes as they come.
-/

namespace ReUperf.ConfigParser

/-- The number of bytes after the first one and the payload of the first one, when the name is long
enough. -/
def leadOf (size offset : Nat) (lead : UInt8) : Option (Nat × Nat) :=
  if lead < 0x80 then some (0, lead.toNat)
  else if lead &&& 0xe0 = 0xc0 ∧ offset + 1 < size then some (1, (lead &&& 0x1f).toNat)
  else if lead &&& 0xf0 = 0xe0 ∧ offset + 2 < size then some (2, (lead &&& 0x0f).toNat)
  else if lead &&& 0xf8 = 0xf0 ∧ offset + 3 < size then some (3, (lead &&& 0x07).toNat)
  else none

/-- Append the bytes from a position on. The outer option is empty when a byte is outside the
name, the inner one when a byte does not continue a code point. -/
def readContinuations (name : Bytes) : (count position codepoint : Nat) → Option (Option Nat)
  | 0, _, codepoint => some (some codepoint)
  | count + 1, position, codepoint =>
    match name[position]? with
    | none => none
    | some byte =>
      if isContinuation byte then
        readContinuations name count (position + 1) (appendContinuation codepoint byte)
      else some none

/-- The loop from an offset on; nothing when it reads outside the name. -/
def checkFrom (name : Bytes) (offset : Nat) : Option Bool :=
  if offset < name.length then
    match name[offset]? with
    | none => none
    | some lead =>
      match leadOf name.length offset lead with
      | none => some false
      | some (more, payload) =>
        match readContinuations name more (offset + 1) payload with
        | none => none
        | some none => some false
        | some (some codepoint) =>
          if isSafeCodepoint (more + 1) codepoint then checkFrom name (offset + (more + 1))
          else some false
  else some true
termination_by name.length - offset

/-- The function with its reads; nothing when it reads outside the name. -/
def checkCgroupComponent (name : Bytes) : Option Bool :=
  if name = [] ∨ name = Bytes.ascii "." ∨ name = Bytes.ascii ".." ∨ 128 < name.length then
    some false
  else
    match name[0]?, name[name.length - 1]? with
    | some front, some back =>
      if isAsciiSpace front || isAsciiSpace back then some false else checkFrom name 0
    | _, _ => none

/-! ## The bytes as they come -/

variable {name rest : Bytes} {offset : Nat}

/-- Append the first bytes of a list; nothing when one of them does not continue a code point. -/
def continued : Nat → Bytes → Nat → Option Nat
  | 0, _, codepoint => some codepoint
  | count + 1, byte :: rest, codepoint =>
    if isContinuation byte then continued count rest (appendContinuation codepoint byte) else none
  | _ + 1, [], _ => none

/-- The byte at an offset is the first one that is left there. -/
theorem byte_of_drop {byte : UInt8} (left : name.drop offset = byte :: rest) :
    name[offset]? = some byte := by
  rw [← List.head?_drop, left, List.head?_cons]

/-- What is left after the byte at an offset. -/
theorem drop_after_byte {byte : UInt8} (left : name.drop offset = byte :: rest) :
    name.drop (offset + 1) = rest := by
  rw [← List.drop_drop, left, List.drop_succ_cons, List.drop_zero]

/-- Where enough bytes are left, none is read outside the name. -/
theorem readContinuations_eq (count position codepoint : Nat)
    (enough : count ≤ (name.drop position).length) :
    readContinuations name count position codepoint =
      some (continued count (name.drop position) codepoint) := by
  induction count generalizing position codepoint with
  | zero => rw [readContinuations, continued]
  | succ count ih =>
    cases left : name.drop position with
    | nil => simp [left] at enough
    | cons byte rest =>
      have after := drop_after_byte left
      rw [left, List.length_cons] at enough
      rw [readContinuations, byte_of_drop left, continued]
      dsimp only
      by_cases continues : isContinuation byte = true
      · rw [if_pos continues, if_pos continues, ih _ _ (by rw [after]; omega), after]
      · rw [if_neg continues, if_neg continues]

/-- A lead leaves room for the bytes after it. -/
theorem more_lt_of_leadOf {size more payload : Nat} {lead : UInt8} (inside : offset < size)
    (found : leadOf size offset lead = some (more, payload)) : offset + more < size := by
  unfold leadOf at found
  split_ifs at found with one two three four
  · obtain ⟨rfl, -⟩ := Prod.mk.inj (Option.some.inj found)
    exact inside
  · obtain ⟨rfl, -⟩ := Prod.mk.inj (Option.some.inj found)
    exact two.2
  · obtain ⟨rfl, -⟩ := Prod.mk.inj (Option.some.inj found)
    exact three.2
  · obtain ⟨rfl, -⟩ := Prod.mk.inj (Option.some.inj found)
    exact four.2

/-- Only the number of bytes that are left matters. -/
theorem leadOf_shift {size : Nat} (lead : UInt8) (inside : offset < size) :
    leadOf size offset lead = leadOf (size - offset) 0 lead := by
  have two : offset + 1 < size ↔ 0 + 1 < size - offset := by omega
  have three : offset + 2 < size ↔ 0 + 2 < size - offset := by omega
  have four : offset + 3 < size ↔ 0 + 3 < size - offset := by omega
  simp only [leadOf, two, three, four]

/-- A byte is not the first one of two encodings. -/
theorem lead_ne : ∀ lead : UInt8, (lead &&& 0xe0 = 0xc0 → ¬ lead &&& 0xf0 = 0xe0) ∧
    (lead &&& 0xe0 = 0xc0 → ¬ lead &&& 0xf8 = 0xf0) ∧
    (lead &&& 0xf0 = 0xe0 → ¬ lead &&& 0xf8 = 0xf0) :=
  Utf8.forall_byte (by decide +kernel)

/-- The first code point of a text, then the rest. -/
theorem isSafeText_cons (lead : UInt8) (rest : Bytes) :
    isSafeText (lead :: rest) =
      match leadOf (rest.length + 1) 0 lead with
      | none => false
      | some (more, payload) =>
        match continued more rest payload with
        | none => false
        | some codepoint => isSafeCodepoint (more + 1) codepoint && isSafeText (rest.drop more) := by
  obtain ⟨notThree, notFour, notBoth⟩ := lead_ne lead
  conv_lhs => unfold isSafeText
  unfold leadOf
  by_cases one : lead < 0x80
  · rw [if_pos one, if_pos one]
    rfl
  rw [if_neg one, if_neg one]
  by_cases two : lead &&& 0xe0 = 0xc0
  · rw [if_pos two]
    rcases rest with _ | ⟨second, rest⟩
    · simp [notThree two, notFour two]
    · rw [if_pos ⟨two, by simp⟩]
      by_cases tail : isContinuation second = true
      · simp [continued, tail]
      · simp [continued, tail]
  have passTwo : ¬ (lead &&& 0xe0 = 0xc0 ∧ 0 + 1 < rest.length + 1) := fun both => two both.1
  rw [if_neg two, if_neg passTwo]
  by_cases three : lead &&& 0xf0 = 0xe0
  · rw [if_pos three]
    rcases rest with _ | ⟨second, _ | ⟨third, rest⟩⟩
    · simp [notBoth three]
    · simp [notBoth three]
    · rw [if_pos ⟨three, by simp⟩]
      by_cases tail : isContinuation second = true
      · by_cases last : isContinuation third = true
        · simp [continued, tail, last]
        · simp [continued, tail, last]
      · simp [continued, tail]
  have passThree : ¬ (lead &&& 0xf0 = 0xe0 ∧ 0 + 2 < rest.length + 1) := fun both => three both.1
  rw [if_neg three, if_neg passThree]
  by_cases four : lead &&& 0xf8 = 0xf0
  · rw [if_pos four]
    rcases rest with _ | ⟨second, _ | ⟨third, _ | ⟨fourth, rest⟩⟩⟩
    · simp
    · simp
    · simp
    · rw [if_pos ⟨four, by simp⟩]
      by_cases tail : isContinuation second = true
      · by_cases middle : isContinuation third = true
        · by_cases last : isContinuation fourth = true
          · simp [continued, tail, middle, last]
          · simp [continued, tail, middle, last]
        · simp [continued, tail, middle]
      · simp [continued, tail]
  · have passFour : ¬ (lead &&& 0xf8 = 0xf0 ∧ 0 + 3 < rest.length + 1) := fun both => four both.1
    rw [if_neg four, if_neg passFour]

/-- The loop reads no byte outside the name, and follows the bytes as they come. -/
theorem checkFrom_eq (name : Bytes) (offset : Nat) :
    checkFrom name offset = some (isSafeText (name.drop offset)) := by
  -- The loop only moves forward: induction on the bytes that are left.
  induction left : name.length - offset using Nat.strong_induction_on generalizing offset with
  | _ bound ih =>
    unfold checkFrom
    by_cases inside : offset < name.length
    · rw [if_pos inside]
      obtain ⟨lead, rest, rests⟩ : ∃ lead rest, name.drop offset = lead :: rest := by
        cases found : name.drop offset with
        | nil => exact absurd (List.drop_eq_nil_iff.mp found) (by omega)
        | cons lead rest => exact ⟨lead, rest, rfl⟩
      have size : name.length - offset = rest.length + 1 := by
        rw [← List.length_drop, rests, List.length_cons]
      have after := drop_after_byte rests
      rw [byte_of_drop rests, rests, isSafeText_cons]
      dsimp only
      rw [leadOf_shift lead inside, size]
      cases found : leadOf (rest.length + 1) 0 lead with
      | none => rfl
      | some read =>
        obtain ⟨more, payload⟩ := read
        have room := more_lt_of_leadOf (by omega) found
        dsimp only
        rw [readContinuations_eq _ _ _ (by rw [after]; omega), after]
        cases value : continued more rest payload with
        | none => rfl
        | some codepoint =>
          have next : rest.drop more = name.drop (offset + (more + 1)) := by
            rw [← after, List.drop_drop]
            congr 1
            omega
          dsimp only
          by_cases safe : isSafeCodepoint (more + 1) codepoint = true
          · rw [if_pos safe, safe, Bool.true_and, next]
            exact ih _ (by omega) _ rfl
          · rw [if_neg safe, Bool.eq_false_iff.mpr safe, Bool.false_and]
    · rw [if_neg inside, List.drop_eq_nil_of_le (by omega)]
      rfl

/-- The function reads no byte outside the name, and answers as it does from the bytes as they
come. -/
theorem checkCgroupComponent_eq (name : Bytes) :
    checkCgroupComponent name = some (isSafeCgroupComponent name) := by
  unfold checkCgroupComponent isSafeCgroupComponent
  rw [List.head?_eq_getElem?, List.getLast?_eq_getElem?]
  cases opening : name[0]? with
  | none =>
    have empty : name = [] := by
      rw [List.getElem?_eq_none_iff] at opening
      exact List.eq_nil_of_length_eq_zero (by omega)
    rw [if_pos (.inl empty)]
  | some front =>
    have inside : 0 < name.length := (List.getElem?_eq_some_iff.mp opening).1
    have closing := List.getElem?_eq_getElem (show name.length - 1 < name.length by omega)
    have filled : name ≠ [] := List.ne_nil_of_length_pos inside
    rw [closing, checkFrom_eq]
    by_cases dot : name = Bytes.ascii "."
    · simp [dot]
    by_cases dots : name = Bytes.ascii ".."
    · simp [dots]
    by_cases long : 128 < name.length
    · simp [long]
    have refused : ¬ (name = [] ∨ name = Bytes.ascii "." ∨ name = Bytes.ascii ".." ∨
        128 < name.length) := by
      simp [filled, dot, dots, long]
    rw [if_neg refused]
    dsimp only
    by_cases spaces : (isAsciiSpace front || isAsciiSpace name[name.length - 1]) = true
    · rw [if_pos spaces]
      rcases (Bool.or_eq_true _ _).mp spaces with first | last
      · simp [first]
      · simp [last]
    · rw [if_neg spaces]
      obtain ⟨first, last⟩ := Bool.or_eq_false_iff.mp (Bool.eq_false_iff.mpr spaces)
      simp [dot, dots, Nat.le_of_not_lt long, first, last]

end ReUperf.ConfigParser
