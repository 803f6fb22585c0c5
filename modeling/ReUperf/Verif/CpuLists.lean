import ReUperf.Core.CgroupInit
import ReUperf.System.ProcFiles

/-!
# CPU lists

The list format of the kernel, written by one part of the code and read by another one. A list is
written as items, numbers and ranges, with a comma between two of them. The module reads what is
written item by item: an item that is being written stands for a run of CPUs, of which the writer
has passed a part.
-/

namespace ReUperf.CpuMask

variable {cpu previous start stop : Int} {rest cpus : List Int} {text item : Bytes}

/-! ## Runs -/

/-- A run of one CPU. -/
theorem cpuRange_self (start : Int) : cpuRange start start = [start] := by
  have one : (start - start + 1).toNat = 1 := by omega
  rw [cpuRange, one]
  simp

/-- A run with one more CPU. -/
theorem cpuRange_succ (ordered : start ≤ stop) : cpuRange start (stop + 1) = cpuRange start stop ++ [stop + 1] := by
  have more : (stop + 1 - start + 1).toNat = (stop - start + 1).toNat + 1 := by omega
  have last : start + ((stop - start + 1).toNat : Int) = stop + 1 := by omega
  rw [cpuRange, cpuRange, more, List.range_succ, List.map_append, List.map_singleton, last]

/-! ## Items -/

/-- A CPU that a mask can name. -/
def IsCpu (cpu : Int) : Prop := 0 ≤ cpu ∧ cpu < ConfigParser.cpuSetSize

/-- A CPU is read back from its digits. -/
theorem stoi_decimal (valid : IsCpu cpu) : Bytes.stoi (Bytes.decimal cpu) = some cpu := by
  obtain ⟨lower, upper⟩ := valid
  unfold ConfigParser.cpuSetSize at upper
  obtain ⟨number, rfl⟩ := Int.eq_ofNat_of_zero_le lower
  rw [Bytes.decimal_ofNat]
  exact Bytes.stoi_natural (by omega)

/-- The bytes of a CPU are digits. -/
theorem isDigit_of_mem_decimal (valid : IsCpu cpu) {byte : UInt8}
    (member : byte ∈ Bytes.decimal cpu) : Bytes.isDigit byte = true := by
  obtain ⟨number, rfl⟩ := Int.eq_ofNat_of_zero_le valid.1
  rw [Bytes.decimal_ofNat] at member
  exact Bytes.isDigit_of_mem_natural member

/-- A byte that is no digit does not occur in a CPU. -/
theorem notMem_decimal (valid : IsCpu cpu) {byte : UInt8} (other : Bytes.isDigit byte = false) :
    byte ∉ Bytes.decimal cpu := by
  intro member
  rw [isDigit_of_mem_decimal valid member] at other
  exact absurd other (by decide)

/-- A CPU has a digit. -/
theorem decimal_ne_nil (valid : IsCpu cpu) : Bytes.decimal cpu ≠ [] := by
  obtain ⟨number, rfl⟩ := Int.eq_ofNat_of_zero_le valid.1
  rw [Bytes.decimal_ofNat]
  exact Bytes.natural_ne_nil number

/-- A number is read as its CPU. -/
theorem parseCpuItem_decimal (valid : IsCpu cpu) :
    parseCpuItem (Bytes.decimal cpu) = some [cpu] := by
  obtain ⟨lower, upper⟩ := valid
  have none : (Bytes.decimal cpu).idxOf 45 = (Bytes.decimal cpu).length :=
    List.idxOf_eq_length_iff.mpr (notMem_decimal ⟨lower, upper⟩ (by decide))
  rw [parseCpuItem, none, stoi_decimal ⟨lower, upper⟩]
  dsimp only
  rw [if_neg (by omega), if_neg (by omega)]

/-- A range is read as its run. -/
theorem parseCpuItem_range (first : IsCpu start) (last : IsCpu stop) (ordered : start ≤ stop) :
    parseCpuItem (Bytes.decimal start ++ Bytes.ascii "-" ++ Bytes.decimal stop) =
      some (cpuRange start stop) := by
  have clean := notMem_decimal first (show Bytes.isDigit 45 = false by decide)
  have filled := List.length_pos_iff.mpr (decimal_ne_nil first)
  have dash : (Bytes.decimal start ++ Bytes.ascii "-" ++ Bytes.decimal stop).idxOf 45 =
      (Bytes.decimal start).length := by
    rw [List.append_assoc, List.idxOf_append_of_notMem clean]
    rfl
  have inside : 0 < (Bytes.decimal start).length ∧ (Bytes.decimal start).length <
      (Bytes.decimal start ++ Bytes.ascii "-" ++ Bytes.decimal stop).length := by
    rw [List.length_append, List.length_append]
    exact ⟨filled, by have : (Bytes.ascii "-").length = 1 := rfl; omega⟩
  have before : (Bytes.decimal start ++ Bytes.ascii "-" ++ Bytes.decimal stop).take
      (Bytes.decimal start).length = Bytes.decimal start := by
    rw [List.append_assoc, List.take_left]
  have after : (Bytes.decimal start ++ Bytes.ascii "-" ++ Bytes.decimal stop).drop
      ((Bytes.decimal start).length + 1) = Bytes.decimal stop := by
    rw [List.append_assoc, ← List.drop_drop, List.drop_left]
    rfl
  have bounds : ¬ (start < 0 ∨ stop < start ∨ ConfigParser.cpuSetSize ≤ stop) := by
    have lower := first.1
    have upper := last.2
    omega
  rw [parseCpuItem, dash, if_pos inside, before, after, stoi_decimal first, stoi_decimal last]
  dsimp only
  rw [if_neg bounds]

/-! ## Lists -/

/-- A digit is no blank. -/
theorem not_isBlank_of_isDigit {byte : UInt8} (digit : Bytes.isDigit byte = true) :
    isBlank byte = false := by
  have space := Bytes.not_isSpace_of_isDigit digit
  simp only [Bytes.isSpace, Bool.or_eq_false_iff, decide_eq_false_iff_not] at space
  have notTab : byte ≠ 9 := by
    intro tab
    rw [tab] at digit
    exact absurd digit (by decide)
  simp [isBlank, space.1, notTab]

/-- One round: an item that starts with a digit, up to a comma or the end. -/
theorem parseCpuItems_item {more : List Int} {tail : Bytes} (rounds : Nat)
    (digit : ∃ byte, item.head? = some byte ∧ Bytes.isDigit byte = true) (clean : 44 ∉ item)
    (read : parseCpuItem item = some more) (ends : ∀ byte, tail.head? = some byte → byte = 44) :
    parseCpuItems (rounds + 1) (item ++ tail) cpus =
      parseCpuItems rounds (tail.drop 1) (cpus ++ more) := by
  obtain ⟨byte, first, isDigit⟩ := digit
  obtain ⟨bytes, rfl⟩ : ∃ bytes, item = byte :: bytes := by
    cases item with
    | nil => exact absurd first (by simp)
    | cons head bytes => exact ⟨bytes, by rw [Option.some.inj first]⟩
  have notBlank : ¬ isBlank byte = true := by
    rw [not_isBlank_of_isDigit isDigit]
    decide
  have all : ∀ other ∈ byte :: bytes, decide (other ≠ 44) = true := by
    intro other member
    rw [decide_eq_true_eq]
    intro same
    rw [same] at member
    exact clean member
  have stops : ∀ other, tail.head? = some other → decide (other ≠ 44) = false := by
    intro other head
    rw [ends other head]
    decide
  have taken := Bytes.takeWhile_word all stops
  have left := Bytes.dropWhile_word all stops
  rw [List.cons_append] at taken left
  rw [parseCpuItems, List.cons_append, List.dropWhile_cons_of_neg notBlank]
  dsimp only
  rw [taken, left, read]

/-- The end of a list. -/
theorem parseCpuItems_nil (rounds : Nat) (cpus : List Int) :
    parseCpuItems (rounds + 1) [] cpus = some (some cpus) := rfl

/-- Blanks before a list are passed over. -/
theorem parseCpuItems_blanks {blanks : Bytes} (rounds : Nat)
    (all : ∀ byte ∈ blanks, isBlank byte = true) (text : Bytes) (cpus : List Int) :
    parseCpuItems rounds (blanks ++ text) cpus = parseCpuItems rounds text cpus := by
  cases rounds with
  | zero => rfl
  | succ rounds => rw [parseCpuItems, parseCpuItems, List.dropWhile_append_of_pos all]

/-- After a CPU that ends a run comes the end or a comma. -/
theorem cpuListTail_of_end (ended : rest.head? ≠ some (previous + 1)) :
    cpuListTail previous rest =
      match rest with
      | [] => []
      | cpu :: rest => Bytes.ascii "," ++ Bytes.decimal cpu ++ cpuListTail cpu rest := by
  cases rest with
  | nil => rfl
  | cons cpu rest =>
    have other : cpu ≠ previous + 1 := fun same => ended (by rw [same]; rfl)
    rw [cpuListTail, if_neg other]

/-- The first byte of a CPU is a digit. -/
theorem head_decimal (valid : IsCpu cpu) (tail : Bytes) :
    ∃ byte, (Bytes.decimal cpu ++ tail).head? = some byte ∧ Bytes.isDigit byte = true := by
  obtain ⟨byte, bytes, digits⟩ := List.exists_cons_of_ne_nil (decimal_ne_nil valid)
  refine ⟨byte, by rw [digits]; rfl, isDigit_of_mem_decimal valid ?_⟩
  rw [digits]
  exact List.mem_cons_self

/-- An item that ends a run, where the list after it is read as it was written. -/
theorem parseCpuItems_end {more : List Int} {rounds : Nat}
    (digit : ∃ byte, item.head? = some byte ∧ Bytes.isDigit byte = true) (clean : 44 ∉ item)
    (read : parseCpuItem item = some more) (ended : rest.head? ≠ some (previous + 1))
    (enough : (item ++ cpuListTail previous rest).length < rounds)
    (later : ∀ cpu after, rest = cpu :: after → ∀ rounds cpus,
      (Bytes.decimal cpu ++ cpuListTail cpu after).length < rounds →
        parseCpuItems rounds (Bytes.decimal cpu ++ cpuListTail cpu after) cpus =
          some (some (cpus ++ rest))) :
    parseCpuItems rounds (item ++ cpuListTail previous rest) cpus =
      some (some (cpus ++ more ++ rest)) := by
  have filled : 0 < item.length := by
    obtain ⟨byte, first, _⟩ := digit
    cases item with
    | nil => exact absurd first (by simp)
    | cons head bytes => simp
  rw [cpuListTail_of_end ended] at enough ⊢
  obtain ⟨rounds, rfl⟩ : ∃ fewer, rounds = fewer + 1 := ⟨rounds - 1, by omega⟩
  cases rest with
  | nil =>
    dsimp only at enough ⊢
    rw [List.append_nil] at enough
    obtain ⟨rounds, rfl⟩ : ∃ fewer, rounds = fewer + 1 := ⟨rounds - 1, by omega⟩
    rw [parseCpuItems_item _ digit clean read (by simp)]
    rw [List.drop_nil, parseCpuItems_nil, List.append_nil]
  | cons cpu after =>
    dsimp only at enough ⊢
    have comma : ∀ byte,
        (Bytes.ascii "," ++ Bytes.decimal cpu ++ cpuListTail cpu after).head? = some byte →
          byte = 44 := by
      intro byte first
      exact (Option.some.inj first).symm
    have dropped : (Bytes.ascii "," ++ Bytes.decimal cpu ++ cpuListTail cpu after).drop 1 =
        Bytes.decimal cpu ++ cpuListTail cpu after := rfl
    have shorter : (Bytes.decimal cpu ++ cpuListTail cpu after).length < rounds := by
      rw [← dropped, List.length_drop]
      rw [List.length_append] at enough
      omega
    rw [parseCpuItems_item _ digit clean read comma, dropped, later cpu after rfl _ _ shorter]

/-- A list that is written from the start of a run is read as the run and the rest. -/
theorem parseCpuItems_tail {rounds : Nat} (first : IsCpu start) (last : IsCpu previous)
    (ordered : start ≤ previous) (valid : ∀ cpu ∈ rest, IsCpu cpu)
    (run : start = previous ∨ rest.head? = some (previous + 1))
    (enough : (Bytes.decimal start ++ cpuListTail previous rest).length < rounds) :
    parseCpuItems rounds (Bytes.decimal start ++ cpuListTail previous rest) cpus =
      some (some (cpus ++ cpuRange start previous ++ rest)) := by
  -- The list after an item is written from a run of its own: induction on its length.
  induction size : rest.length using Nat.strong_induction_on
    generalizing rounds start previous rest cpus with
  | _ bound ih =>
    have later : ∀ tail : List Int, tail.length ≤ bound → (∀ cpu ∈ tail, IsCpu cpu) →
        ∀ cpu after, tail = cpu :: after → ∀ rounds cpus,
          (Bytes.decimal cpu ++ cpuListTail cpu after).length < rounds →
            parseCpuItems rounds (Bytes.decimal cpu ++ cpuListTail cpu after) cpus =
              some (some (cpus ++ tail)) := by
      intro tail short valid cpu after same rounds cpus enough
      rw [same] at short valid
      have here := valid cpu List.mem_cons_self
      have others : ∀ other ∈ after, IsCpu other :=
        fun other member => valid other (List.mem_cons_of_mem _ member)
      rw [List.length_cons] at short
      rw [ih after.length (by omega) here here le_rfl others (.inl rfl) enough rfl,
        cpuRange_self, same, List.append_assoc]
      rfl
    by_cases continues : rest.head? = some (previous + 1)
    · obtain ⟨after, same⟩ : ∃ after, rest = (previous + 1) :: after := by
        cases rest with
        | nil => exact absurd continues (by simp)
        | cons cpu after => exact ⟨after, by rw [Option.some.inj continues]⟩
      rw [same] at size valid enough ⊢
      rw [List.length_cons] at size
      have next := valid _ List.mem_cons_self
      have others : ∀ other ∈ after, IsCpu other :=
        fun other member => valid other (List.mem_cons_of_mem _ member)
      have whole : cpus ++ cpuRange start previous ++ (previous + 1) :: after =
          cpus ++ cpuRange start (previous + 1) ++ after := by
        rw [cpuRange_succ ordered]
        simp
      rw [cpuListTail, if_pos rfl] at enough ⊢
      by_cases again : after.head? = some (previous + 1 + 1)
      · -- The run goes on, and nothing is written for this CPU.
        rw [if_pos again, List.nil_append] at enough ⊢
        rw [whole]
        exact ih after.length (by omega) first next (by omega) others (.inr again) enough rfl
      · -- The run ends with this CPU.
        rw [if_neg again, ← List.append_assoc, ← List.append_assoc] at enough ⊢
        have range := parseCpuItem_range first next (by omega)
        have digit := head_decimal first (Bytes.ascii "-" ++ Bytes.decimal (previous + 1))
        rw [← List.append_assoc] at digit
        have clean : 44 ∉ Bytes.decimal start ++ Bytes.ascii "-" ++
            Bytes.decimal (previous + 1) := by
          have front := notMem_decimal first (show Bytes.isDigit 44 = false by decide)
          have back := notMem_decimal next (show Bytes.isDigit 44 = false by decide)
          have dash : 44 ∉ Bytes.ascii "-" := by decide
          simp [front, back, dash]
        rw [whole]
        exact parseCpuItems_end digit clean range again enough (later after (by omega) others)
    · -- The item is a single CPU.
      have single : start = previous := by
        rcases run with same | next
        · exact same
        · exact absurd next continues
      rw [single] at enough ⊢
      have clean := notMem_decimal last (show Bytes.isDigit 44 = false by decide)
      have digit := head_decimal last []
      rw [List.append_nil] at digit
      rw [cpuRange_self]
      exact parseCpuItems_end digit clean (parseCpuItem_decimal last) continues enough
        (later rest (by omega) valid)

/-! ## Termination -/

/-- The loop over a list ends: each round passes over at least one byte. -/
theorem parseCpuItems_ends (value : Bytes) (cpus : List Int) :
    ∃ answer, ∀ rounds, value.length < rounds → parseCpuItems rounds value cpus = some answer := by
  induction size : value.length using Nat.strong_induction_on generalizing value cpus with
  | _ bound ih =>
    cases left : value.dropWhile isBlank with
    | nil =>
      refine ⟨some cpus, fun rounds enough => ?_⟩
      obtain ⟨rounds, rfl⟩ : ∃ fewer, rounds = fewer + 1 := ⟨rounds - 1, by omega⟩
      rw [parseCpuItems, left]
    | cons first rest =>
      cases read : parseCpuItem ((first :: rest).takeWhile (· ≠ 44)) with
      | none =>
        refine ⟨none, fun rounds enough => ?_⟩
        obtain ⟨rounds, rfl⟩ : ∃ fewer, rounds = fewer + 1 := ⟨rounds - 1, by omega⟩
        rw [parseCpuItems, left]
        dsimp only
        rw [read]
      | some more =>
        have blanks := (List.dropWhile_suffix isBlank (l := value)).length_le
        have items := (List.dropWhile_suffix (fun byte => decide (byte ≠ 44))
          (l := first :: rest)).length_le
        rw [left] at blanks
        have shorter : (((first :: rest).dropWhile (· ≠ 44)).drop 1).length < bound := by
          rw [List.length_drop]
          rw [List.length_cons] at blanks items
          omega
        obtain ⟨answer, holds⟩ := ih _ shorter _ (cpus ++ more) rfl
        refine ⟨answer, fun rounds enough => ?_⟩
        obtain ⟨rounds, rfl⟩ : ∃ fewer, rounds = fewer + 1 := ⟨rounds - 1, by omega⟩
        rw [parseCpuItems, left]
        dsimp only
        rw [read]
        exact holds rounds (by omega)

/-- Reading a file line by line ends. -/
theorem parseStatus_ends (content : Bytes) :
    ∃ answer, ∀ rounds, content.length < rounds → parseStatus rounds content = some answer := by
  induction size : content.length using Nat.strong_induction_on generalizing content with
  | _ bound ih =>
    cases found : Bytes.getline 10 content with
    | none =>
      refine ⟨[], fun rounds enough => ?_⟩
      obtain ⟨rounds, rfl⟩ : ∃ fewer, rounds = fewer + 1 := ⟨rounds - 1, by omega⟩
      rw [parseStatus, found]
    | some read =>
      obtain ⟨line, rest⟩ := read
      by_cases listed : line.take 17 = Bytes.ascii "Cpus_allowed_list" ∧ 58 ∈ line
      · obtain ⟨answer, holds⟩ := parseCpuItems_ends (line.drop (line.idxOf 58 + 1)) []
        refine ⟨answer.getD [], fun rounds enough => ?_⟩
        obtain ⟨rounds, rfl⟩ : ∃ fewer, rounds = fewer + 1 := ⟨rounds - 1, by omega⟩
        rw [parseStatus, found]
        dsimp only
        rw [if_pos listed, holds _ (by rw [List.length_drop]; omega)]
        rfl
      · have shorter : rest.length < bound := by
          rw [← size]
          exact Bytes.length_lt_of_getline found
        obtain ⟨answer, holds⟩ := ih _ shorter _ rfl
        refine ⟨answer, fun rounds enough => ?_⟩
        obtain ⟨rounds, rfl⟩ : ∃ fewer, rounds = fewer + 1 := ⟨rounds - 1, by omega⟩
        rw [parseStatus, found]
        dsimp only
        rw [if_neg listed]
        exact holds rounds (by omega)

/-! ## Files -/

/-- A line of a `status` file that is not the one with the list. -/
def IsOtherLine (line : Bytes) : Prop :=
  10 ∉ line ∧ line.take 17 ≠ Bytes.ascii "Cpus_allowed_list"

/-- The lines of a file. -/
def linesOf (lines : List Bytes) : Bytes := lines.flatMap fun line => line ++ Bytes.ascii "\n"

/-- Lines without the list are passed over. -/
theorem parseStatus_lines {lines : List Bytes} (others : ∀ line ∈ lines, IsOtherLine line)
    (rounds : Nat) (content : Bytes) :
    parseStatus (rounds + lines.length) (linesOf lines ++ content) =
      parseStatus rounds content := by
  induction lines with
  | nil => rfl
  | cons line lines ih =>
    obtain ⟨clean, other⟩ := others line List.mem_cons_self
    have split : linesOf (line :: lines) ++ content =
        line ++ 10 :: (linesOf lines ++ content) := by
      have newline : Bytes.ascii "\n" = [10] := by decide
      simp [linesOf, newline]
    have skips : ¬ (line.take 17 = Bytes.ascii "Cpus_allowed_list" ∧ 58 ∈ line) :=
      fun both => other both.1
    rw [List.length_cons, ← Nat.add_assoc, split, parseStatus, Bytes.getline_delimited clean]
    dsimp only
    rw [if_neg skips]
    exact ih fun later member => others later (List.mem_cons_of_mem _ member)

/-- A list of CPUs in order, with its duplicates. -/
def sorted (cpus : List Int) : List Int := cpus.insertionSort (· ≤ ·)

/-- The line of a `status` file with a list. -/
def listLine (blanks : Bytes) (cpus : List Int) : Bytes :=
  Bytes.ascii "Cpus_allowed_list:" ++ blanks ++ cpuMaskToString cpus

/-- The text of a list is read as the list in order. -/
structure ReadsBack (cpus : List Int) : Prop where
  /-- The value of the line is read without an error, whatever blanks come before it. -/
  value : ∀ blanks : Bytes, (∀ byte ∈ blanks, isBlank byte = true) → ∀ rounds,
    (blanks ++ cpuMaskToString cpus).length < rounds →
      parseCpuItems rounds (blanks ++ cpuMaskToString cpus) [] = some (some (sorted cpus))
  /-- So is a file with the line, whatever lines there are before and after it. -/
  file : ∀ blanks : Bytes, (∀ byte ∈ blanks, isBlank byte = true) →
    ∀ lines : List Bytes, (∀ line ∈ lines, IsOtherLine line) → ∀ rest rounds,
      (linesOf lines ++ (listLine blanks cpus ++ 10 :: rest)).length < rounds →
        parseStatus rounds (linesOf lines ++ (listLine blanks cpus ++ 10 :: rest)) =
          some (sorted cpus)

/-- The text of a list begins with its first CPU. -/
theorem cpuMaskToString_cons {first : Int} (order : sorted cpus = first :: rest) :
    cpuMaskToString cpus = Bytes.decimal first ++ cpuListTail first rest := by
  unfold sorted at order
  rw [cpuMaskToString, order]

/-- No list has no text. -/
theorem cpuMaskToString_nil (order : sorted cpus = []) : cpuMaskToString cpus = [] := by
  unfold sorted at order
  rw [cpuMaskToString, order]

/-- The text of a list is read as the list in order, whatever blanks come before it. -/
theorem parseCpuItems_toString {blanks : Bytes} {rounds : Nat} (filled : cpus ≠ [])
    (valid : ∀ cpu ∈ cpus, IsCpu cpu) (all : ∀ byte ∈ blanks, isBlank byte = true)
    (enough : (blanks ++ cpuMaskToString cpus).length < rounds) :
    parseCpuItems rounds (blanks ++ cpuMaskToString cpus) [] = some (some (sorted cpus)) := by
  have same : ∀ cpu, cpu ∈ sorted cpus ↔ cpu ∈ cpus := fun cpu => List.mem_insertionSort _
  rw [List.length_append] at enough
  rw [parseCpuItems_blanks rounds all]
  cases order : sorted cpus with
  | nil =>
    obtain ⟨cpu, member⟩ := List.exists_mem_of_ne_nil cpus filled
    rw [← same, order] at member
    exact absurd member List.not_mem_nil
  | cons first rest =>
    rw [cpuMaskToString_cons order] at enough ⊢
    have valids : ∀ cpu ∈ first :: rest, IsCpu cpu := by
      intro cpu member
      rw [← order, same] at member
      exact valid cpu member
    have here := valids first List.mem_cons_self
    have others : ∀ cpu ∈ rest, IsCpu cpu :=
      fun cpu member => valids cpu (List.mem_cons_of_mem _ member)
    rw [parseCpuItems_tail here here le_rfl others (.inl rfl) (by omega), cpuRange_self]
    rfl

/-- The rest of a list has no line break. -/
theorem notMem_cpuListTail (valid : ∀ cpu ∈ rest, IsCpu cpu) : 10 ∉ cpuListTail previous rest := by
  induction rest generalizing previous with
  | nil => exact List.not_mem_nil
  | cons cpu rest ih =>
    have digits := notMem_decimal (valid cpu List.mem_cons_self)
      (show Bytes.isDigit 10 = false by decide)
    have later : 10 ∉ cpuListTail cpu rest :=
      ih fun other member => valid other (List.mem_cons_of_mem _ member)
    have dash : 10 ∉ Bytes.ascii "-" := by decide
    have comma : 10 ∉ Bytes.ascii "," := by decide
    rw [cpuListTail, List.mem_append, not_or]
    refine ⟨?_, later⟩
    by_cases follows : cpu = previous + 1
    · rw [if_pos follows]
      by_cases again : rest.head? = some (cpu + 1)
      · rw [if_pos again]
        exact List.not_mem_nil
      · rw [if_neg again, List.mem_append, not_or]
        exact ⟨dash, digits⟩
    · rw [if_neg follows, List.mem_append, not_or]
      exact ⟨comma, digits⟩

/-- The text of a list has no line break. -/
theorem notMem_cpuMaskToString (valid : ∀ cpu ∈ cpus, IsCpu cpu) : 10 ∉ cpuMaskToString cpus := by
  have valids : ∀ cpu ∈ sorted cpus, IsCpu cpu :=
    fun cpu member => valid cpu ((List.mem_insertionSort _).mp member)
  cases order : sorted cpus with
  | nil =>
    rw [cpuMaskToString_nil order]
    exact List.not_mem_nil
  | cons first rest =>
    rw [order] at valids
    have digits := notMem_decimal (valids first List.mem_cons_self)
      (show Bytes.isDigit 10 = false by decide)
    rw [cpuMaskToString_cons order, List.mem_append, not_or]
    exact ⟨digits, notMem_cpuListTail fun cpu member => valids cpu (List.mem_cons_of_mem _ member)⟩

/-- A file with the line of a list is read as the list in order. -/
theorem parseStatus_listLine {blanks rest : Bytes} {lines : List Bytes} {rounds : Nat}
    (filled : cpus ≠ []) (valid : ∀ cpu ∈ cpus, IsCpu cpu)
    (all : ∀ byte ∈ blanks, isBlank byte = true) (others : ∀ line ∈ lines, IsOtherLine line)
    (enough : (linesOf lines ++ (listLine blanks cpus ++ 10 :: rest)).length < rounds) :
    parseStatus rounds (linesOf lines ++ (listLine blanks cpus ++ 10 :: rest)) =
      some (sorted cpus) := by
  obtain ⟨answer, holds⟩ := parseStatus_ends (linesOf lines ++ (listLine blanks cpus ++ 10 :: rest))
  have more := holds (rounds + lines.length) (by omega)
  rw [parseStatus_lines others] at more
  have key : Bytes.ascii "Cpus_allowed_list:" = Bytes.ascii "Cpus_allowed_list" ++ [58] := by
    decide
  have colon : 58 ∉ Bytes.ascii "Cpus_allowed_list" := by decide
  have line : listLine blanks cpus =
      Bytes.ascii "Cpus_allowed_list" ++ 58 :: (blanks ++ cpuMaskToString cpus) := by
    rw [listLine, key]
    simp
  have index : (listLine blanks cpus).idxOf 58 = 17 := by
    rw [line, List.idxOf_append_of_notMem colon, List.idxOf_cons_self]
    decide
  have listed : (listLine blanks cpus).take 17 = Bytes.ascii "Cpus_allowed_list" ∧
      58 ∈ listLine blanks cpus := by
    rw [line]
    exact ⟨rfl, by simp⟩
  have text : (listLine blanks cpus).drop 18 = blanks ++ cpuMaskToString cpus := by
    rw [line]
    rfl
  have clean : 10 ∉ listLine blanks cpus := by
    have blank : 10 ∉ blanks := fun member => absurd (all 10 member) (by decide)
    have name : 10 ∉ Bytes.ascii "Cpus_allowed_list" := by decide
    rw [line]
    simp [blank, name, notMem_cpuMaskToString valid]
  have short : (blanks ++ cpuMaskToString cpus).length < (listLine blanks cpus).length + 1 := by
    rw [← text, List.length_drop]
    omega
  obtain ⟨rounds, rfl⟩ : ∃ fewer, rounds = fewer + 1 := ⟨rounds - 1, by omega⟩
  rw [parseStatus, Bytes.getline_delimited clean] at more
  dsimp only at more
  rw [if_pos listed, index, text, parseCpuItems_toString filled valid all short] at more
  rw [holds _ enough, ← more]
  rfl

/-- The text of every list of CPUs is read as the list in order, and the loops that read it end on
every value and every file. -/
theorem cpuLists_readBack :
    (∀ value cpus, ∃ answer, ∀ rounds, value.length < rounds →
      parseCpuItems rounds value cpus = some answer) ∧
    (∀ content, ∃ answer, ∀ rounds, content.length < rounds →
      parseStatus rounds content = some answer) ∧
    ∀ cpus : List Int, cpus ≠ [] → (∀ cpu ∈ cpus, IsCpu cpu) → ReadsBack cpus := by
  refine ⟨parseCpuItems_ends, parseStatus_ends, fun cpus filled valid => ?_⟩
  exact {
    value := fun blanks all rounds enough => parseCpuItems_toString filled valid all enough
    file := fun blanks all lines others rest rounds enough =>
      parseStatus_listLine filled valid all others enough }

/-- An unordered list with a duplicate is read back in order, with the duplicate. -/
theorem cpuLists_readBack_duplicate :
    parseCpuItems 8 (Bytes.ascii "0-1,1-2") [] = some (some [0, 1, 1, 2]) := by
  have valid : ∀ cpu ∈ [2, 0, 1, 1], IsCpu cpu := by
    unfold IsCpu
    decide
  have reads := (cpuLists_readBack.2.2 [2, 0, 1, 1] (by decide) valid).value [] (by simp) 8
  have text : cpuMaskToString [2, 0, 1, 1] = Bytes.ascii "0-1,1-2" := by decide
  have order : sorted [2, 0, 1, 1] = [0, 1, 1, 2] := by decide
  rw [List.nil_append, text, order] at reads
  exact reads (by decide)

end ReUperf.CpuMask
