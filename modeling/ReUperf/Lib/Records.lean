import Mathlib.Algebra.Group.Nat.Defs
import ReUperf.Lib.Text

/-!
# Records with a length field

A buffer holds records one after another. A record has a header of a fixed size, which tells how
many bytes follow it. A reader walks the buffer record by record and stops where no whole record is
left. Every buffer starts with such records, and what a reader does on the buffer is what it does on
them. Words of a fixed width are stored with their lowest byte first.
-/

namespace Bytes

/-! ## Words -/

/-- The bytes of a word, the lowest one first. -/
def littleEndian : (width : Nat) → (value : Nat) → Bytes
  | 0, _ => []
  | width + 1, value => UInt8.ofNat value :: littleEndian width (value / 256)

/-- The number some bytes store. -/
def ofLittleEndian : Bytes → Nat
  | [] => 0
  | byte :: rest => byte.toNat + 256 * ofLittleEndian rest

@[simp] theorem length_littleEndian (width value : Nat) :
    (littleEndian width value).length = width := by
  induction width generalizing value with
  | zero => rfl
  | succ width ih => rw [littleEndian, List.length_cons, ih]

/-- A word that fits its width is read back. -/
theorem ofLittleEndian_littleEndian {width value : Nat} (fits : value < 256 ^ width) :
    ofLittleEndian (littleEndian width value) = value := by
  induction width generalizing value with
  | zero =>
    have zero : value = 0 := by simpa using fits
    rw [zero]
    rfl
  | succ width ih =>
    have rest : value / 256 < 256 ^ width := by
      rw [Nat.pow_succ] at fits
      exact Nat.div_lt_of_lt_mul (by omega)
    have low : (UInt8.ofNat value).toNat = value % 256 := UInt8.toNat_ofNat'
    rw [littleEndian, ofLittleEndian, ih rest, low]
    omega

end Bytes

/-- How the records of a buffer are laid out. -/
structure Framing where
  /-- The size of a header. -/
  headerSize : Nat
  /-- A header is not empty. -/
  positive : 0 < headerSize
  /-- How many bytes follow a header. -/
  payloadSize : Bytes → Nat

namespace Framing

variable {framing : Framing} {buffer rest record : Bytes} {records : List Bytes}

/-- The size of the record a buffer starts with, as its header tells it. -/
def recordSize (framing : Framing) (buffer : Bytes) : Nat :=
  framing.headerSize + framing.payloadSize (buffer.take framing.headerSize)

/-- A text is one whole record. -/
structure IsRecord (framing : Framing) (record : Bytes) : Prop where
  /-- It has a header. -/
  header : framing.headerSize ≤ record.length
  /-- The header tells its size. -/
  size : framing.recordSize record = record.length

/-- A buffer does not start with a whole record. -/
def Incomplete (framing : Framing) (rest : Bytes) : Prop :=
  rest.length < framing.headerSize ∨ rest.length < framing.recordSize rest

instance : Decidable (framing.Incomplete rest) := inferInstanceAs (Decidable (_ ∨ _))

/-- Walk a buffer record by record; whether the last one is cut off. A buffer has no more records
than bytes. -/
def forEach {m : Type → Type} [Monad m] (framing : Framing) (act : Bytes → m Unit) :
    (rounds : Nat) → (buffer : Bytes) → m Bool
  | 0, _ => pure false
  | rounds + 1, buffer =>
    if buffer.length < framing.headerSize then pure false
    else if buffer.length < framing.recordSize buffer then pure true
    else do
      act (buffer.take (framing.recordSize buffer))
      forEach framing act rounds (buffer.drop (framing.recordSize buffer))

/-- The size of the record in front depends on its header only. -/
theorem recordSize_append (header : framing.headerSize ≤ record.length) :
    framing.recordSize (record ++ rest) = framing.recordSize record := by
  rw [recordSize, recordSize, List.take_append_of_le_length header]

/-- A whole record in front of a buffer is taken off it. -/
theorem IsRecord.append (whole : framing.IsRecord record) :
    framing.recordSize (record ++ rest) = record.length :=
  (recordSize_append whole.header).trans whole.size

/-- A reader acts on the whole records of a buffer, in their order, and tells whether it is cut
off. -/
theorem forEach_flatten {m : Type → Type} [Monad m] [LawfulMonad m] (act : Bytes → m Unit)
    (whole : ∀ record ∈ records, framing.IsRecord record) (incomplete : framing.Incomplete rest)
    {rounds : Nat} (enough : (records.flatten ++ rest).length ≤ rounds) :
    framing.forEach act rounds (records.flatten ++ rest) = (do
      records.forM act
      pure (decide (framing.headerSize ≤ rest.length))) := by
  have positive := framing.positive
  induction records generalizing rounds with
  | nil =>
    rw [List.flatten_nil, List.nil_append] at enough ⊢
    have none : ([] : List Bytes).forM act = pure () := rfl
    rw [none, pure_bind]
    cases rounds with
    | zero =>
      have short : ¬ framing.headerSize ≤ rest.length := by omega
      rw [decide_eq_false short]
      rfl
    | succ rounds =>
      rw [forEach]
      by_cases short : rest.length < framing.headerSize
      · rw [if_pos short, decide_eq_false (by omega)]
      · have cut : rest.length < framing.recordSize rest := incomplete.resolve_left short
        rw [if_neg short, if_pos cut, decide_eq_true (by omega)]
  | cons record records ih =>
    have own := whole record List.mem_cons_self
    have header := own.header
    have others : ∀ record ∈ records, framing.IsRecord record :=
      fun other member => whole other (List.mem_cons_of_mem _ member)
    rw [List.flatten_cons, List.append_assoc] at enough ⊢
    rw [List.length_append] at enough
    obtain ⟨rounds, rfl⟩ : ∃ less, rounds = less + 1 := ⟨rounds - 1, by omega⟩
    have size : framing.recordSize (record ++ (records.flatten ++ rest)) = record.length :=
      own.append
    have long : ¬ (record ++ (records.flatten ++ rest)).length < framing.headerSize := by
      rw [List.length_append]
      omega
    have fits : ¬ (record ++ (records.flatten ++ rest)).length < record.length := by
      rw [List.length_append]
      omega
    rw [forEach, size, if_neg long, if_neg fits, List.take_left, List.drop_left,
      ih others (by omega)]
    have split : (record :: records).forM act = act record >>= fun _ => records.forM act := rfl
    rw [split, bind_assoc]

/-- Every buffer starts with whole records, after which there is none. -/
theorem exists_records (framing : Framing) (buffer : Bytes) :
    ∃ (records : List Bytes) (rest : Bytes), buffer = records.flatten ++ rest ∧
      (∀ record ∈ records, framing.IsRecord record) ∧ framing.Incomplete rest := by
  have positive := framing.positive
  induction length : buffer.length using Nat.strongRecOn generalizing buffer with
  | _ size ih =>
    by_cases incomplete : framing.Incomplete buffer
    · exact ⟨[], buffer, rfl, by simp, incomplete⟩
    · have complete : ¬ buffer.length < framing.headerSize ∧
          ¬ buffer.length < framing.recordSize buffer := not_or.mp incomplete
      have large : framing.headerSize ≤ framing.recordSize buffer := Nat.le_add_right _ _
      have left : (buffer.drop (framing.recordSize buffer)).length < size := by
        rw [List.length_drop]
        omega
      obtain ⟨records, rest, split, whole, ended⟩ := ih _ left _ rfl
      have taken : (buffer.take (framing.recordSize buffer)).length =
          framing.recordSize buffer := by
        rw [List.length_take]
        omega
      have own : framing.IsRecord (buffer.take (framing.recordSize buffer)) := by
        constructor
        · rw [taken]
          exact large
        · rw [taken, recordSize, List.take_take, Nat.min_eq_left large]
          rfl
      refine ⟨buffer.take (framing.recordSize buffer) :: records, rest, ?_, ?_, ended⟩
      · rw [List.flatten_cons, List.append_assoc, ← split, List.take_append_drop]
      · intro record member
        rcases List.mem_cons.mp member with same | later
        · rw [same]
          exact own
        · exact whole record later

end Framing
