import ReUperf.System.ProcFiles

/-!
# Start times in `stat` files

A process chooses its name, and the name stands in its `stat` file between the first parenthesis and
the last one. The parser counts fields from the last parenthesis on: it takes field 22 of what stands
between single spaces, so that no name can stand in for a field.
-/

namespace ReUperf.FileUtils

/-- The line of a `stat` file. -/
def statLine (pid comm : Bytes) (fields : List Bytes) : Bytes :=
  pid ++ Bytes.ascii " (" ++ comm ++ Bytes.ascii ") " ++ [32].intercalate fields

/-- A field that stands between two spaces after the name. -/
def IsField (field : Bytes) : Prop := field ≠ [] ∧ 32 ∉ field ∧ 41 ∉ field

/-- A decimal number of 64 bits. -/
def IsDecimal (digits : Bytes) : Prop :=
  digits ≠ [] ∧ (∀ byte ∈ digits, Bytes.isDigit byte = true) ∧ Bytes.ofDigits digits ≤ Bytes.ullongMax

/-- The text after a space. -/
def afterSpace : Bytes → Bytes
  | 32 :: rest => rest
  | rest => rest

/-- The fields after the last closing parenthesis: what stands between single spaces. -/
def followingFields (stat : Bytes) : List Bytes :=
  match Bytes.rfind 41 stat with
  | none => []
  | some closingParen => (afterSpace (stat.drop (closingParen + 1))).splitOn 32

/-- The start time a field has. -/
def fieldStartTime (field : Option Bytes) : Nat :=
  match field with
  | some field => if field = [] then 0 else parseStartTime field
  | none => 0

/-- No field is left at the end. -/
theorem startTimeField_nil (count : Nat) : startTimeField count [] = 0 := by
  cases count with
  | zero => rfl
  | succ count => rfl

/-- The only field of a text without a space. -/
theorem startTimeField_last {word : Bytes} (clean : 32 ∉ word) (count : Nat) :
    startTimeField (count + 1) word = fieldStartTime [word][count]? := by
  by_cases empty : word = []
  · rw [empty, startTimeField_nil]
    cases count with
    | zero => rfl
    | succ count => rfl
  · rw [startTimeField, Bytes.getline_last clean empty]
    dsimp only
    cases count with
    | zero =>
      rw [if_neg (by simp [empty])]
      exact (if_neg empty).symm
    | succ count =>
      rw [if_pos (.inl (Nat.succ_ne_zero count)), startTimeField_nil]
      rfl

/-- Reading up to a field finds what stands between the spaces around it. -/
theorem startTimeField_eq (count : Nat) (text : Bytes) :
    startTimeField (count + 1) text = fieldStartTime (text.splitOn 32)[count]? := by
  induction count generalizing text with
  | zero =>
    by_cases spaces : 32 ∈ text
    · obtain ⟨word, rest, rfl, clean⟩ := List.eq_append_cons_of_mem spaces
      rw [List.splitOn_append_cons_self_of_not_mem clean, startTimeField,
        Bytes.getline_delimited clean, List.getElem?_cons_zero]
      dsimp only [fieldStartTime]
      by_cases empty : word = []
      · rw [if_pos (.inr empty), if_pos empty]
        rfl
      · rw [if_neg (by simp [empty]), if_neg empty]
    · rw [List.splitOn_eq_singleton spaces, startTimeField_last spaces]
  | succ count ih =>
    by_cases spaces : 32 ∈ text
    · obtain ⟨word, rest, rfl, clean⟩ := List.eq_append_cons_of_mem spaces
      rw [List.splitOn_append_cons_self_of_not_mem clean, startTimeField,
        Bytes.getline_delimited clean, List.getElem?_cons_succ]
      dsimp only
      rw [if_pos (.inl (Nat.succ_ne_zero count)), ih]
    · rw [List.splitOn_eq_singleton spaces, startTimeField_last spaces]

/-- A decimal number is read as it. -/
theorem parseStartTime_decimal {digits : Bytes} (decimal : IsDecimal digits) :
    parseStartTime digits = Bytes.ofDigits digits := by
  obtain ⟨filled, all, small⟩ := decimal
  have nonzero : ∀ byte ∈ digits, decide (byte ≠ 0) = true := by
    intro byte member
    rw [decide_eq_true_eq]
    intro zero
    have digit := all byte member
    rw [zero] at digit
    exact absurd digit (by decide)
  have whole := @Bytes.takeWhile_word _ digits [] nonzero (by simp)
  rw [List.append_nil] at whole
  rw [parseStartTime, whole, Bytes.strtoull_digits filled all small]
  exact if_pos rfl

/-! ## Lines -/

variable {pid comm number stat : Bytes} {fields : List Bytes}

/-- A byte that is no space and in no field does not occur in the joined fields. -/
theorem notMem_intercalate {byte : UInt8} (other : byte ≠ 32)
    (clean : ∀ field ∈ fields, byte ∉ field) : byte ∉ [32].intercalate fields := by
  induction fields with
  | nil => exact List.not_mem_nil
  | cons first rest ih =>
    have here := clean first List.mem_cons_self
    have later := ih fun field member => clean field (List.mem_cons_of_mem _ member)
    cases rest with
    | nil => simpa using here
    | cons second rest =>
      rw [List.intercalate_cons_cons]
      simp only [List.mem_append, List.mem_singleton, not_or]
      exact ⟨⟨here, other⟩, later⟩

/-- A line is read from its last closing parenthesis on, which is that of the name. -/
theorem parseStartTimeFromStat_statLine (valid : ∀ field ∈ fields, IsField field)
    (twentieth : fields[19]? = some number) :
    parseStartTimeFromStat (statLine pid comm fields) = parseStartTime number := by
  have filled : fields ≠ [] := by
    intro empty
    rw [empty] at twentieth
    exact absurd twentieth (by simp)
  have split : ([32].intercalate fields).splitOn 32 = fields :=
    List.splitOn_intercalate 32 (fun field member => (valid field member).2.1) filled
  have line : statLine pid comm fields =
      (pid ++ Bytes.ascii " (" ++ comm) ++ 41 :: 32 :: [32].intercalate fields := by
    have closing : Bytes.ascii ") " = [41, 32] := by decide
    rw [statLine, closing]
    simp
  have clean : 41 ∉ 32 :: [32].intercalate fields := by
    rw [List.mem_cons, not_or]
    exact ⟨by decide, notMem_intercalate (by decide) fun field member => (valid field member).2.2⟩
  have joined : [32].intercalate fields ≠ [] := by
    intro empty
    rw [empty] at split
    rw [← split] at twentieth
    exact absurd twentieth (by simp)
  have long := List.length_pos_iff.mpr joined
  have after : ((pid ++ Bytes.ascii " (" ++ comm) ++ 41 :: 32 :: [32].intercalate fields).drop
      ((pid ++ Bytes.ascii " (" ++ comm).length + 2) = [32].intercalate fields := by
    rw [← List.drop_drop, List.drop_left]
    rfl
  rw [parseStartTimeFromStat, line, Bytes.rfind_append _ clean]
  dsimp only
  rw [if_neg, after, startTimeField_eq, split, twentieth]
  · exact if_neg (valid number (List.mem_of_getElem? twentieth)).1
  · rw [List.length_append, List.length_cons, List.length_cons]
    omega

/-- With fewer than twenty fields there is no start time. -/
theorem parseStartTimeFromStat_of_short (short : (followingFields stat).length < 20) :
    parseStartTimeFromStat stat = 0 := by
  unfold followingFields at short
  unfold parseStartTimeFromStat
  cases found : Bytes.rfind 41 stat with
  | none => rfl
  | some closingParen =>
    rw [found] at short
    dsimp only at short ⊢
    by_cases ended : stat.length ≤ closingParen + 2
    · rw [if_pos ended]
    · rw [if_neg ended, startTimeField_eq]
      obtain ⟨byte, rest, here⟩ : ∃ byte rest, stat.drop (closingParen + 1) = byte :: rest := by
        cases left : stat.drop (closingParen + 1) with
        | nil => exact absurd (List.drop_eq_nil_iff.mp left) (by omega)
        | cons byte rest => exact ⟨byte, rest, rfl⟩
      have after : stat.drop (closingParen + 2) = rest := by
        show stat.drop (closingParen + 1 + 1) = rest
        rw [← List.drop_drop, here]
        rfl
      -- The byte after the parenthesis is passed over, a space or not: no field is lost.
      have fewer : (rest.splitOn 32).length < 20 := by
        rw [here] at short
        by_cases space : byte = 32
        · rw [space] at short
          exact short
        · have whole : afterSpace (byte :: rest) = byte :: rest := by
            unfold afterSpace
            split
            · rename_i same
              exact absurd (List.cons.inj same).1 space
            · rfl
          rw [whole, List.splitOn_cons_eq_if_modifyHead, if_neg (by simpa using space),
            List.length_modifyHead] at short
          exact short
      rw [after, List.getElem?_eq_none (by omega)]
      rfl

/-- No name can spoof a start time: the number in field 22 of a line is found whatever bytes the
name has, and there is no start time without field 22. -/
theorem startTimes_unspoofed :
    (∀ pid comm fields number, (∀ field ∈ fields, IsField field) → fields[19]? = some number →
      IsDecimal number →
        parseStartTimeFromStat (statLine pid comm fields) = Bytes.ofDigits number) ∧
    ∀ stat, (followingFields stat).length < 20 → parseStartTimeFromStat stat = 0 := by
  constructor
  · intro pid comm fields number valid twentieth decimal
    rw [parseStartTimeFromStat_statLine valid twentieth, parseStartTime_decimal decimal]
  · intro stat short
    exact parseStartTimeFromStat_of_short short

/-- A name that ends one line and begins another one. -/
theorem startTimes_unspoofed_name :
    parseStartTimeFromStat (statLine (Bytes.ascii "7") (Bytes.ascii "a) S 1 (b")
      (List.replicate 19 (Bytes.ascii "1") ++ [Bytes.ascii "42"])) = 42 := by
  have valid : ∀ field ∈ List.replicate 19 (Bytes.ascii "1") ++ [Bytes.ascii "42"],
      IsField field := by
    unfold IsField
    decide +kernel
  have decimal : IsDecimal (Bytes.ascii "42") := by
    unfold IsDecimal
    decide +kernel
  have number : Bytes.ofDigits (Bytes.ascii "42") = 42 := by decide +kernel
  have read := startTimes_unspoofed.1 (Bytes.ascii "7") (Bytes.ascii "a) S 1 (b") _
    (Bytes.ascii "42") valid rfl decimal
  rw [number] at read
  exact read

end ReUperf.FileUtils
