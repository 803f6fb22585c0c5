import ReUperf.Lib.Reading

/-!
# The ECMAScript pattern grammar

What a pattern is, by the grammar of ECMAScript that `std::regex` reads by default: alternatives of
terms, where a term is an assertion or an atom with perhaps a quantifier. A pattern of bytes derives
its reading. What stands between the brackets of a character class is not read further, so that the
grammar accepts at least the classes there are.

A pattern of literal characters, each one escaped where it has to be, between a start anchor and an
end anchor has one reading.
-/

namespace EcmaPattern

/-! ## Readings -/

/-- How often an atom is repeated. -/
structure Quantifier where
  /-- The least number of repetitions. -/
  least : Nat
  /-- The greatest number of repetitions. -/
  greatest : Option Nat
  /-- Whether more repetitions are tried first. -/
  greedy : Bool

mutual

/-- An atom. -/
inductive Atom
  /-- A character that stands for itself. -/
  | character (value : Nat)
  /-- Any character. -/
  | any
  /-- A class with a name. -/
  | classEscape (name : UInt8)
  /-- What a group matched. -/
  | backReference (number : Nat)
  /-- A class with its content. -/
  | characterClass (content : Bytes)
  /-- A group. -/
  | group (captures : Bool) (body : List (List Term))

/-- A term. -/
inductive Term
  /-- The start anchor. -/
  | lineStart
  /-- The end anchor. -/
  | lineEnd
  /-- A word boundary, or none. -/
  | wordBoundary (negated : Bool)
  /-- A lookahead. -/
  | lookahead (negated : Bool) (body : List (List Term))
  /-- An atom, perhaps repeated. -/
  | atom (atom : Atom) (quantifier : Option Quantifier)

end

/-- The alternatives of a pattern, each one a sequence of terms. -/
abbrev Reading : Type := List (List Term)

/-- A character that stands for itself once. -/
def Term.literal (byte : UInt8) : Term := .atom (.character byte.toNat) none

/-! ## Characters -/

/-- The characters with a meaning of their own. -/
def syntaxCharacters : Bytes := Bytes.ascii "^$\\.*+?()[]\x7b\x7d|"

/-- A letter, a digit or the underscore. -/
def isIdentifierPart (byte : UInt8) : Bool :=
  (48 ≤ byte && byte ≤ 57) || (65 ≤ byte && byte ≤ 90) || (97 ≤ byte && byte ≤ 122) || byte = 95

/-- The value of a hexadecimal digit. -/
def hexValue (byte : UInt8) : Option Nat :=
  if 48 ≤ byte ∧ byte ≤ 57 then some (byte.toNat - 48)
  else if 65 ≤ byte ∧ byte ≤ 70 then some (byte.toNat - 55)
  else if 97 ≤ byte ∧ byte ≤ 102 then some (byte.toNat - 87)
  else none

/-- The character a control escape stands for. -/
def controlValue (byte : UInt8) : Option Nat :=
  if byte = 102 then some 12
  else if byte = 110 then some 10
  else if byte = 114 then some 13
  else if byte = 116 then some 9
  else if byte = 118 then some 11
  else none

/-! ## Derivations -/

/-- What follows the backslash of an atom. -/
inductive Escape : Bytes → Atom → Prop where
  /-- A decimal escape other than zero. -/
  | backReference {first : UInt8} {digits : Bytes} (nonzero : first ≠ 48)
    (all : ∀ byte ∈ first :: digits, Bytes.isDigit byte = true) :
    Escape (first :: digits) (.backReference (Bytes.ofDigits (first :: digits)))
  /-- The null character. -/
  | null : Escape [48] (.character 0)
  /-- A control escape. -/
  | control {byte : UInt8} {value : Nat} (named : controlValue byte = some value) :
    Escape [byte] (.character value)
  /-- A control letter. -/
  | controlLetter {letter : UInt8}
    (isLetter : (65 ≤ letter ∧ letter ≤ 90) ∨ (97 ≤ letter ∧ letter ≤ 122)) :
    Escape [99, letter] (.character (letter.toNat % 32))
  /-- Two hexadecimal digits. -/
  | hex {first second : UInt8} {high low : Nat} (upper : hexValue first = some high)
    (lower : hexValue second = some low) :
    Escape [120, first, second] (.character (high * 16 + low))
  /-- Four hexadecimal digits. -/
  | unicode {first second third fourth : UInt8} {a b c d : Nat} (one : hexValue first = some a)
    (two : hexValue second = some b) (three : hexValue third = some c)
    (four : hexValue fourth = some d) :
    Escape [117, first, second, third, fourth]
      (.character (((a * 16 + b) * 16 + c) * 16 + d))
  /-- A class with a name. -/
  | classEscape {name : UInt8} (named : name ∈ Bytes.ascii "dDsSwW") :
    Escape [name] (.classEscape name)
  /-- Any other character that is no part of an identifier. -/
  | identity {byte : UInt8} (other : isIdentifierPart byte = false) :
    Escape [byte] (.character byte.toNat)

/-- How often an atom is repeated, without a sign of the order in which this is tried. -/
inductive QuantifierPrefix : Bytes → Nat → Option Nat → Prop where
  /-- Any number of times. -/
  | star : QuantifierPrefix [42] 0 none
  /-- At least once. -/
  | plus : QuantifierPrefix [43] 1 none
  /-- At most once. -/
  | optional : QuantifierPrefix [63] 0 (some 1)
  /-- A number of times. -/
  | exactly {digits : Bytes} (filled : digits ≠ []) (all : ∀ byte ∈ digits, Bytes.isDigit byte = true) :
    QuantifierPrefix (123 :: digits ++ [125]) (Bytes.ofDigits digits) (some (Bytes.ofDigits digits))
  /-- At least a number of times. -/
  | atLeast {digits : Bytes} (filled : digits ≠ []) (all : ∀ byte ∈ digits, Bytes.isDigit byte = true) :
    QuantifierPrefix (123 :: digits ++ [44, 125]) (Bytes.ofDigits digits) none
  /-- Between two numbers of times. -/
  | between {least greatest : Bytes} (filled : least ≠ []) (all : ∀ byte ∈ least, Bytes.isDigit byte = true)
    (someMore : greatest ≠ []) (others : ∀ byte ∈ greatest, Bytes.isDigit byte = true) :
    QuantifierPrefix (123 :: least ++ 44 :: greatest ++ [125]) (Bytes.ofDigits least)
      (some (Bytes.ofDigits greatest))

/-- How often an atom is repeated. -/
inductive Quantifies : Bytes → Quantifier → Prop where
  /-- As often as possible. -/
  | greedy {text : Bytes} {least : Nat} {greatest : Option Nat}
    (repeats : QuantifierPrefix text least greatest) : Quantifies text ⟨least, greatest, true⟩
  /-- As seldom as possible. -/
  | lazy {text : Bytes} {least : Nat} {greatest : Option Nat}
    (repeats : QuantifierPrefix text least greatest) :
    Quantifies (text ++ [63]) ⟨least, greatest, false⟩

mutual

/-- The bytes of an atom. -/
inductive DerivesAtom : Bytes → Atom → Prop where
  /-- A character without a meaning of its own. -/
  | character {byte : UInt8} (plain : byte ∉ syntaxCharacters) :
    DerivesAtom [byte] (.character byte.toNat)
  /-- The dot. -/
  | any : DerivesAtom [46] .any
  /-- An escape. -/
  | escape {text : Bytes} {atom : Atom} (escapes : Escape text atom) :
    DerivesAtom (92 :: text) atom
  /-- A class. -/
  | characterClass (content : Bytes) :
    DerivesAtom (91 :: content ++ [93]) (.characterClass content)
  /-- A group that captures. -/
  | capture {text : Bytes} {body : Reading} (inner : Derives text body) :
    DerivesAtom (40 :: text ++ [41]) (.group true body)
  /-- A group that does not. -/
  | group {text : Bytes} {body : Reading} (inner : Derives text body) :
    DerivesAtom (40 :: 63 :: 58 :: text ++ [41]) (.group false body)

/-- The bytes of a term. -/
inductive DerivesTerm : Bytes → Term → Prop where
  /-- The start anchor. -/
  | lineStart : DerivesTerm [94] .lineStart
  /-- The end anchor. -/
  | lineEnd : DerivesTerm [36] .lineEnd
  /-- A word boundary. -/
  | wordBoundary : DerivesTerm [92, 98] (.wordBoundary false)
  /-- No word boundary. -/
  | noWordBoundary : DerivesTerm [92, 66] (.wordBoundary true)
  /-- What has to follow. -/
  | lookahead {text : Bytes} {body : Reading} (inner : Derives text body) :
    DerivesTerm (40 :: 63 :: 61 :: text ++ [41]) (.lookahead false body)
  /-- What must not follow. -/
  | negativeLookahead {text : Bytes} {body : Reading} (inner : Derives text body) :
    DerivesTerm (40 :: 63 :: 33 :: text ++ [41]) (.lookahead true body)
  /-- An atom. -/
  | atom {text : Bytes} {atom : Atom} (derives : DerivesAtom text atom) :
    DerivesTerm text (.atom atom none)
  /-- An atom that is repeated. -/
  | quantified {text more : Bytes} {atom : Atom} {quantifier : Quantifier}
    (derives : DerivesAtom text atom) (repeats : Quantifies more quantifier) :
    DerivesTerm (text ++ more) (.atom atom (some quantifier))

/-- The bytes of an alternative. -/
inductive DerivesAlternative : Bytes → List Term → Prop where
  /-- No term. -/
  | nil : DerivesAlternative [] []
  /-- One more term. -/
  | cons {text rest : Bytes} {term : Term} {terms : List Term} (first : DerivesTerm text term)
    (later : DerivesAlternative rest terms) : DerivesAlternative (text ++ rest) (term :: terms)

/-- The bytes of a pattern. -/
inductive Derives : Bytes → Reading → Prop where
  /-- One alternative. -/
  | one {text : Bytes} {terms : List Term} (derives : DerivesAlternative text terms) :
    Derives text [terms]
  /-- One more alternative. -/
  | more {text rest : Bytes} {terms : List Term} {others : Reading}
    (first : DerivesAlternative text terms) (later : Derives rest others) :
    Derives (text ++ 124 :: rest) (terms :: others)

end

/-! ## Literal characters -/

/-- The bytes of a character that stands for itself. -/
inductive Literal : UInt8 → Bytes → Prop where
  /-- A character without a meaning of its own. -/
  | plain {byte : UInt8} (plain : byte ∉ syntaxCharacters) : Literal byte [byte]
  /-- A character after a backslash. -/
  | escaped {byte : UInt8} (other : isIdentifierPart byte = false) : Literal byte [92, byte]

/-- The bytes of characters that stand for themselves. -/
inductive LiteralText : Bytes → Bytes → Prop where
  /-- No character. -/
  | nil : LiteralText [] []
  /-- One more character. -/
  | cons {byte : UInt8} {bytes text rest : Bytes} (first : Literal byte text)
    (later : LiteralText bytes rest) : LiteralText (byte :: bytes) (text ++ rest)

/-- A text that neither goes on with a quantifier nor begins another alternative. -/
def Stops (text : Bytes) : Prop :=
  ∀ byte, text.head? = some byte → byte ∉ Bytes.ascii "*+?\x7b|"

variable {byte : UInt8} {bytes piece text rest more : Bytes} {term : Term} {terms : List Term}

/-- What begins with a control escape is part of an identifier. -/
theorem isIdentifierPart_of_controlValue {value : Nat} (named : controlValue byte = some value) :
    isIdentifierPart byte = true := by
  unfold controlValue at named
  split_ifs at named with f n r t v
  · rw [f]
    decide
  · rw [n]
    decide
  · rw [r]
    decide
  · rw [t]
    decide
  · rw [v]
    decide

/-- A digit is part of an identifier. -/
theorem isIdentifierPart_of_isDigit (digit : Bytes.isDigit byte = true) :
    isIdentifierPart byte = true := by
  unfold Bytes.isDigit at digit
  simp [isIdentifierPart, digit]

/-- The name of a class is part of an identifier. -/
theorem isIdentifierPart_of_className (named : byte ∈ Bytes.ascii "dDsSwW") :
    isIdentifierPart byte = true := by
  have all : (Bytes.ascii "dDsSwW").all isIdentifierPart = true := by decide
  exact List.all_eq_true.mp all byte named

/-- After a backslash, a character that is no part of an identifier stands for itself. -/
theorem escape_of_literal {atom : Atom} (escapes : Escape piece atom)
    (other : isIdentifierPart byte = false) (same : piece ++ rest = byte :: more) :
    piece = [byte] ∧ atom = .character byte.toNat ∧ rest = more := by
  have absurdFirst : isIdentifierPart byte ≠ true := by
    rw [other]
    decide
  cases escapes with
  | backReference nonzero all =>
    have first := (List.cons.inj same).1
    rw [← first] at absurdFirst
    exact absurd (isIdentifierPart_of_isDigit (all _ List.mem_cons_self)) absurdFirst
  | null =>
    rw [← (List.cons.inj same).1] at absurdFirst
    exact absurd (by decide) absurdFirst
  | control named =>
    rw [← (List.cons.inj same).1] at absurdFirst
    exact absurd (isIdentifierPart_of_controlValue named) absurdFirst
  | controlLetter isLetter =>
    rw [← (List.cons.inj same).1] at absurdFirst
    exact absurd (by decide) absurdFirst
  | hex upper lower =>
    rw [← (List.cons.inj same).1] at absurdFirst
    exact absurd (by decide) absurdFirst
  | unicode one two three four =>
    rw [← (List.cons.inj same).1] at absurdFirst
    exact absurd (by decide) absurdFirst
  | classEscape named =>
    rw [← (List.cons.inj same).1] at absurdFirst
    exact absurd (isIdentifierPart_of_className named) absurdFirst
  | identity _ =>
    obtain ⟨first, later⟩ := List.cons.inj same
    rw [first]
    exact ⟨rfl, rfl, later⟩

/-- A character without a meaning of its own is not one with a meaning. -/
theorem ne_of_plain {other : UInt8} (plain : byte ∉ syntaxCharacters)
    (listed : other ∈ syntaxCharacters) : other ≠ byte := by
  intro same
  rw [same] at listed
  exact plain listed

/-- The characters that begin an atom other than a plain character. -/
theorem syntax_mem : 46 ∈ syntaxCharacters ∧ 92 ∈ syntaxCharacters ∧ 91 ∈ syntaxCharacters ∧
    40 ∈ syntaxCharacters ∧ 94 ∈ syntaxCharacters ∧ 36 ∈ syntaxCharacters := by
  decide

/-- The only atom a literal character begins with is that character. -/
theorem atom_of_literal {atom : Atom} {text : Bytes} (derives : DerivesAtom piece atom)
    (literal : Literal byte text) (same : piece ++ rest = text ++ more) :
    atom = .character byte.toNat ∧ rest = more := by
  obtain ⟨dot, backslash, bracket, parenthesis, -, -⟩ := syntax_mem
  cases literal with
  | plain plain =>
    cases derives with
    | character _ =>
      obtain ⟨first, later⟩ := List.cons.inj same
      rw [first]
      exact ⟨rfl, later⟩
    | any => exact absurd (List.cons.inj same).1 (ne_of_plain plain dot)
    | escape _ => exact absurd (List.cons.inj same).1 (ne_of_plain plain backslash)
    | characterClass _ => exact absurd (List.cons.inj same).1 (ne_of_plain plain bracket)
    | capture _ => exact absurd (List.cons.inj same).1 (ne_of_plain plain parenthesis)
    | group _ => exact absurd (List.cons.inj same).1 (ne_of_plain plain parenthesis)
  | escaped other =>
    cases derives with
    | character plain => exact absurd (List.cons.inj same).1.symm (ne_of_plain plain backslash)
    | any => exact absurd (List.cons.inj same).1 (by decide)
    | escape escapes => exact (escape_of_literal escapes other (List.cons.inj same).2).2
    | characterClass _ => exact absurd (List.cons.inj same).1 (by decide)
    | capture _ => exact absurd (List.cons.inj same).1 (by decide)
    | group _ => exact absurd (List.cons.inj same).1 (by decide)

/-- A quantifier begins with a sign of its own. -/
theorem not_stops_of_quantifies {quantifier : Quantifier} (repeats : Quantifies piece quantifier) :
    ¬ Stops (piece ++ rest) := by
  have signs : 42 ∈ Bytes.ascii "*+?\x7b|" ∧ 43 ∈ Bytes.ascii "*+?\x7b|" ∧
      63 ∈ Bytes.ascii "*+?\x7b|" ∧ 123 ∈ Bytes.ascii "*+?\x7b|" := by decide
  obtain ⟨star, plus, mark, brace⟩ := signs
  have begins : ∀ {text : Bytes} {least : Nat} {greatest : Option Nat},
      QuantifierPrefix text least greatest → ∀ rest, ¬ Stops (text ++ rest) := by
    intro text least greatest repeats rest stops
    cases repeats with
    | star => exact stops 42 rfl star
    | plus => exact stops 43 rfl plus
    | optional => exact stops 63 rfl mark
    | exactly _ _ => exact stops 123 rfl brace
    | atLeast _ _ => exact stops 123 rfl brace
    | between _ _ _ _ => exact stops 123 rfl brace
  cases repeats with
  | greedy repeats => exact begins repeats rest
  | lazy repeats =>
    rw [List.append_assoc]
    exact begins repeats _

/-- The only term a literal character begins with is that character. -/
theorem term_of_literal {text : Bytes} (derives : DerivesTerm piece term)
    (literal : Literal byte text) (stops : Stops more) (same : piece ++ rest = text ++ more) :
    term = .literal byte ∧ rest = more := by
  obtain ⟨-, backslash, -, parenthesis, start, finish⟩ := syntax_mem
  cases derives with
  | atom derives =>
    obtain ⟨character, later⟩ := atom_of_literal derives literal same
    rw [character]
    exact ⟨rfl, later⟩
  | quantified derives repeats =>
    rw [List.append_assoc] at same
    obtain ⟨-, later⟩ := atom_of_literal derives literal same
    rw [← later] at stops
    exact absurd stops (not_stops_of_quantifies repeats)
  | lineStart =>
    cases literal with
    | plain plain => exact absurd (List.cons.inj same).1 (ne_of_plain plain start)
    | escaped _ => exact absurd (List.cons.inj same).1 (by decide)
  | lineEnd =>
    cases literal with
    | plain plain => exact absurd (List.cons.inj same).1 (ne_of_plain plain finish)
    | escaped _ => exact absurd (List.cons.inj same).1 (by decide)
  | wordBoundary =>
    cases literal with
    | plain plain => exact absurd (List.cons.inj same).1 (ne_of_plain plain backslash)
    | escaped other =>
      rw [← (List.cons.inj (List.cons.inj same).2).1] at other
      exact absurd other (by decide)
  | noWordBoundary =>
    cases literal with
    | plain plain => exact absurd (List.cons.inj same).1 (ne_of_plain plain backslash)
    | escaped other =>
      rw [← (List.cons.inj (List.cons.inj same).2).1] at other
      exact absurd other (by decide)
  | lookahead _ =>
    cases literal with
    | plain plain => exact absurd (List.cons.inj same).1 (ne_of_plain plain parenthesis)
    | escaped _ => exact absurd (List.cons.inj same).1 (by decide)
  | negativeLookahead _ =>
    cases literal with
    | plain plain => exact absurd (List.cons.inj same).1 (ne_of_plain plain parenthesis)
    | escaped _ => exact absurd (List.cons.inj same).1 (by decide)

/-- The only atom there is does not begin with an anchor. -/
theorem head_of_atom {atom : Atom} (derives : DerivesAtom piece atom) :
    ∃ first others, piece = first :: others ∧ first ≠ 94 ∧ first ≠ 36 := by
  obtain ⟨-, -, -, -, start, finish⟩ := syntax_mem
  cases derives with
  | character plain =>
    exact ⟨_, _, rfl, (ne_of_plain plain start).symm, (ne_of_plain plain finish).symm⟩
  | any => exact ⟨_, _, rfl, by decide, by decide⟩
  | escape _ => exact ⟨_, _, rfl, by decide, by decide⟩
  | characterClass _ => exact ⟨_, _, rfl, by decide, by decide⟩
  | capture _ => exact ⟨_, _, rfl, by decide, by decide⟩
  | group _ => exact ⟨_, _, rfl, by decide, by decide⟩

/-- The only term that begins with the start anchor is the anchor. -/
theorem term_of_start (derives : DerivesTerm piece term) (same : piece ++ rest = 94 :: more) :
    term = .lineStart ∧ rest = more := by
  cases derives with
  | lineStart => exact ⟨rfl, (List.cons.inj same).2⟩
  | atom derives =>
    obtain ⟨first, others, rfl, other, -⟩ := head_of_atom derives
    exact absurd (List.cons.inj same).1 other
  | quantified derives _ =>
    obtain ⟨first, others, rfl, other, -⟩ := head_of_atom derives
    exact absurd (List.cons.inj same).1 other
  | _ => exact absurd (List.cons.inj same).1 (by decide)

/-- The only term that begins with the end anchor is the anchor. -/
theorem term_of_end (derives : DerivesTerm piece term) (same : piece ++ rest = 36 :: more) :
    term = .lineEnd ∧ rest = more := by
  cases derives with
  | lineEnd => exact ⟨rfl, (List.cons.inj same).2⟩
  | atom derives =>
    obtain ⟨first, others, rfl, -, other⟩ := head_of_atom derives
    exact absurd (List.cons.inj same).1 other
  | quantified derives _ =>
    obtain ⟨first, others, rfl, -, other⟩ := head_of_atom derives
    exact absurd (List.cons.inj same).1 other
  | _ => exact absurd (List.cons.inj same).1 (by decide)

/-- A term has a byte. -/
theorem ne_nil_of_term (derives : DerivesTerm piece term) : piece ≠ [] := by
  cases derives with
  | atom derives =>
    obtain ⟨first, others, rfl, -⟩ := head_of_atom derives
    simp
  | quantified derives _ =>
    obtain ⟨first, others, rfl, -⟩ := head_of_atom derives
    simp
  | _ => simp

/-! ## Anchored literals -/

/-- A text is the end of an alternative. -/
def EndsAlternative (rest : Bytes) : Prop := ∀ byte, rest.head? = some byte → byte = 124

/-- Literal characters and an end anchor do not go on with a quantifier or an alternative. -/
theorem stops_of_literalText (literals : LiteralText bytes text) : Stops (text ++ [36]) := by
  have listed : (Bytes.ascii "*+?\x7b|").all
      (fun byte => byte ∈ syntaxCharacters ∧ byte ≠ 92 ∧ byte ≠ 36) = true := by decide
  intro first head member
  obtain ⟨syntaxMember, notBackslash, notDollar⟩ :=
    of_decide_eq_true (List.all_eq_true.mp listed first member)
  cases literals with
  | nil => exact notDollar (Option.some.inj head).symm
  | cons literal later =>
    cases literal with
    | plain plain =>
      rw [← Option.some.inj head] at syntaxMember
      exact plain syntaxMember
    | escaped other => exact notBackslash (Option.some.inj head).symm

/-- Literal characters and an end anchor are not the end of an alternative. -/
theorem not_ends_of_literalText (literals : LiteralText bytes text)
    (same : rest = text ++ [36]) : ¬ EndsAlternative rest := by
  intro ends
  have stops := stops_of_literalText literals
  rw [← same] at stops
  cases rest with
  | nil =>
    have filled := congrArg List.length same
    simp at filled
  | cons first others =>
    have bar : (124 : UInt8) ∈ Bytes.ascii "*+?\x7b|" := by decide
    rw [← ends first rfl] at bar
    exact stops first rfl bar

/-- The only terms of literal characters and an end anchor. -/
theorem terms_of_literals (literals : LiteralText bytes text)
    (derives : DerivesAlternative piece terms) (ends : EndsAlternative rest)
    (same : piece ++ rest = text ++ [36]) :
    terms = bytes.map Term.literal ++ [.lineEnd] ∧ rest = [] := by
  induction literals generalizing piece terms with
  | nil =>
    cases derives with
    | nil => exact absurd ends (not_ends_of_literalText .nil same)
    | cons first later =>
      rw [List.append_assoc] at same
      obtain ⟨rfl, remains⟩ := term_of_end first same
      obtain ⟨none, left⟩ := List.append_eq_nil_iff.mp remains
      cases later with
      | nil => exact ⟨rfl, left⟩
      | cons second _ =>
        have empty := (List.append_eq_nil_iff.mp none).1
        exact absurd empty (ne_nil_of_term second)
  | @cons byte bytes text others literal literals ih =>
    cases derives with
    | nil => exact absurd ends (not_ends_of_literalText (.cons literal literals) same)
    | cons first later =>
      rw [List.append_assoc, List.append_assoc] at same
      obtain ⟨rfl, remains⟩ := term_of_literal first literal (stops_of_literalText literals) same
      obtain ⟨rfl, left⟩ := ih later remains
      exact ⟨rfl, left⟩

/-- The pattern of literal characters between anchors. -/
def anchored (text : Bytes) : Bytes := 94 :: text ++ [36]

/-- The reading of literal characters between anchors. -/
def anchoredTerms (bytes : Bytes) : List Term :=
  .lineStart :: bytes.map Term.literal ++ [.lineEnd]

/-- The only terms of literal characters between anchors. -/
theorem terms_of_anchored (literals : LiteralText bytes text)
    (derives : DerivesAlternative piece terms) (ends : EndsAlternative rest)
    (same : piece ++ rest = anchored text) : terms = anchoredTerms bytes ∧ rest = [] := by
  cases derives with
  | nil =>
    rw [List.nil_append] at same
    have wrong := ends 94 (by rw [same]; rfl)
    exact absurd wrong (by decide)
  | cons first later =>
    rw [List.append_assoc] at same
    obtain ⟨rfl, remains⟩ := term_of_start first same
    obtain ⟨rfl, left⟩ := terms_of_literals literals later ends remains
    exact ⟨rfl, left⟩

/-- Literal characters derive their terms. -/
theorem derives_of_literals (literals : LiteralText bytes text) :
    DerivesAlternative (text ++ [36]) (bytes.map Term.literal ++ [.lineEnd]) := by
  induction literals with
  | nil => exact @DerivesAlternative.cons [36] [] _ _ .lineEnd .nil
  | cons literal literals ih =>
    rw [List.append_assoc]
    cases literal with
    | plain plain => exact .cons (.atom (.character plain)) ih
    | escaped other => exact .cons (.atom (.escape (.identity other))) ih

/-- Literal characters between anchors have one reading. -/
theorem derives_anchored_iff (literals : LiteralText bytes text) (reading : Reading) :
    Derives (anchored text) reading ↔ reading = [anchoredTerms bytes] := by
  constructor
  · intro derives
    generalize whole : anchored text = pattern at derives
    cases derives with
    | one derives =>
      have ends : EndsAlternative [] := fun byte head => absurd head (by simp)
      have same : pattern ++ [] = anchored text := by rw [List.append_nil, whole]
      rw [(terms_of_anchored literals derives ends same).1]
    | @more piece rest terms others first later =>
      have ends : EndsAlternative (124 :: rest) := fun byte head => (Option.some.inj head).symm
      have left := (terms_of_anchored literals first ends whole.symm).2
      exact absurd left (by simp)
  · intro same
    rw [same]
    exact .one (@DerivesAlternative.cons [94] (text ++ [36]) _ _ .lineStart
      (derives_of_literals literals))

/-! ## Anchored literals in a text -/

/-- What terms of anchors and single characters match from a position on. -/
def MatchesAt (text : Bytes) : List Term → (position : Nat) → Prop
  | [], _ => True
  | .lineStart :: terms, position => position = 0 ∧ MatchesAt text terms position
  | .lineEnd :: terms, position => position = text.length ∧ MatchesAt text terms position
  | .atom (.character value) none :: terms, position =>
    text[position]?.map UInt8.toNat = some value ∧ MatchesAt text terms (position + 1)
  | _ :: _, _ => False

/-- Terms are found in a text. -/
def FoundIn (text : Bytes) (terms : List Term) : Prop :=
  ∃ position ≤ text.length, MatchesAt text terms position

/-- Terms of anchors and single characters. -/
def IsPlain (terms : List Term) : Prop :=
  ∀ term ∈ terms, term = .lineStart ∨ term = .lineEnd ∨ ∃ byte, term = .literal byte

/-- The reading of literal characters between anchors has such terms only. -/
theorem isPlain_anchoredTerms (bytes : Bytes) : IsPlain (anchoredTerms bytes) := by
  intro term member
  rcases List.mem_append.mp member with front | last
  · rcases List.mem_cons.mp front with start | literal
    · exact .inl start
    · obtain ⟨byte, -, same⟩ := List.mem_map.mp literal
      exact .inr (.inr ⟨byte, same.symm⟩)
  · exact .inr (.inl (List.mem_singleton.mp last))

/-- Literal characters and an end anchor match what is left of a text. -/
theorem matchesAt_literals (text bytes : Bytes) (position : Nat)
    (inside : position ≤ text.length) :
    MatchesAt text (bytes.map Term.literal ++ [.lineEnd]) position ↔
      text.drop position = bytes := by
  induction bytes generalizing position with
  | nil =>
    have ended : text.drop position = [] ↔ position = text.length := by
      rw [List.drop_eq_nil_iff]
      omega
    rw [ended]
    simp [MatchesAt]
  | cons byte bytes ih =>
    have step : MatchesAt text ((byte :: bytes).map Term.literal ++ [.lineEnd]) position ↔
        text[position]?.map UInt8.toNat = some byte.toNat ∧
          MatchesAt text (bytes.map Term.literal ++ [.lineEnd]) (position + 1) := Iff.rfl
    rw [step]
    cases left : text.drop position with
    | nil =>
      have outside : text[position]? = none := by
        rw [← List.head?_drop, left]
        rfl
      simp [outside]
    | cons first others =>
      have here : text[position]? = some first := by
        rw [← List.head?_drop, left]
        rfl
      have after : text.drop (position + 1) = others := by
        rw [← List.drop_drop, left]
        rfl
      have longer : position < text.length := (List.getElem?_eq_some_iff.mp here).1
      rw [here, ih (position + 1) longer, after, Option.map_some, Option.some.injEq,
        UInt8.toNat_inj, List.cons.injEq]

/-- Literal characters between anchors are found in the text they are, and in no other one. -/
theorem foundIn_anchoredTerms (text bytes : Bytes) :
    FoundIn text (anchoredTerms bytes) ↔ text = bytes := by
  have start : ∀ position, MatchesAt text (anchoredTerms bytes) position ↔
      position = 0 ∧ MatchesAt text (bytes.map Term.literal ++ [.lineEnd]) position :=
    fun position => Iff.rfl
  have whole := matchesAt_literals text bytes 0 (Nat.zero_le _)
  rw [List.drop_zero] at whole
  constructor
  · intro found
    obtain ⟨position, -, matched⟩ := found
    rw [start] at matched
    obtain ⟨rfl, rest⟩ := matched
    exact whole.mp rest
  · intro same
    exact ⟨0, Nat.zero_le _, (start 0).mpr ⟨rfl, whole.mpr same⟩⟩

end EcmaPattern
