import Mathlib.Algebra.Order.Group.Int
import Mathlib.Algebra.Ring.Int.Defs
import Mathlib.Algebra.Ring.Nat
import StackSampler.LineTable

/-!
# Exact lines

A lookup adds up line deltas in a signed word of 64 bits.  Beside it stands the exact line, an
integer without bounds.  The pairs of the two older encodings move the line by a byte each, far too
little to leave the word.  An entry of the location table may move it by almost `2 ^ 63`, and a
single one is then enough: the addition exceeds the word, and the lookup has no answer.

The main statement is `lineAt_exact`: the answer is that of the exact line if the line stays in the
word, which deltas of up to `2 ^ 42` cannot prevent in a table of a mebibyte, and otherwise there is
none.
-/

namespace StackSampler.LineTable

/-! ## The deltas that a lookup adds -/

/-- The deltas of a table of byte deltas up to `offset`, from `address` on. -/
def lnotabDeltas (offset : Nat) : Nat → List UInt8 → List Int
  | address, length :: delta :: rest =>
      let next := advance address length.toNat
      if offset < next then [] else signedByte delta :: lnotabDeltas offset next rest
  | _, _ => []

/-- The deltas of a table of byte lengths up to `offset`, from `start` on. -/
def rangeDeltas (offset : Nat) : Nat → List UInt8 → List Int
  | start, length :: delta :: rest =>
      let moved := if signedByte delta = -128 then 0 else signedByte delta
      let next := advance start length.toNat
      moved :: if offset < next then [] else rangeDeltas offset next rest
  | _, _ => []

/-- The deltas of a location table up to code unit `unit`, from unit `start` on. -/
def locationDeltas (unit : Nat) : Nat → Nat → List UInt8 → List Int
  | fuel + 1, start, header :: rest =>
      match locationDelta (header.toNat / 8 % 16) rest with
      | none => []
      | some (delta, after) =>
          let next := advance start (header.toNat % 8 + 1)
          delta :: if unit < next then [] else locationDeltas unit fuel next after
  | _, _, _ => []

/-- The deltas that a lookup adds, in order. -/
def deltas (format : LineFormat) (table : List UInt8) (offset : UInt32) : List Int :=
  match format with
  | .lnotab => lnotabDeltas offset.toNat 0 table
  | .lineTable => rangeDeltas offset.toNat 0 table
  | .locationTable => locationDeltas (offset.toNat / 2) table.length 0 table

variable {line : Int} {offset start unit fuel : Nat} {table : List UInt8}

theorem lnotabLine_eq : lnotabLine offset start line table =
    line + (lnotabDeltas offset start table).sum := by
  fun_induction lnotabLine offset start line table with
  | case1 start line length delta rest next inside => simp [lnotabDeltas, next, inside]
  | case2 start line length delta rest next outside induction =>
      rw [induction, lnotabDeltas, if_neg outside, List.sum_cons, Int.add_assoc]
  | case3 start line table short =>
      rw [lnotabDeltas.eq_def]
      split
      · exact absurd rfl (short _ _ _)
      · simp

theorem rangeLine_eq : rangeLine offset start line table =
    line + (rangeDeltas offset start table).sum := by
  fun_induction rangeLine offset start line table with
  | case1 start line length delta rest moved next inside =>
      simp only [rangeDeltas, next, inside, if_true, List.sum_cons, List.sum_nil, moved]
      split <;> simp
  | case2 start line length delta rest moved next outside induction =>
      simp only [rangeDeltas, next, outside, if_false, List.sum_cons, induction, moved]
      split <;> simp [Int.add_assoc]
  | case3 start line table short =>
      rw [rangeDeltas.eq_def]
      split
      · exact absurd rfl (short _ _ _)
      · simp

theorem locationLine_eq : locationLine unit fuel start line table =
    (locationDeltas unit fuel start table).foldlM moveLine line := by
  fun_induction locationLine unit fuel start line table with
  | case1 fuel start line header rest broken => simp [locationDeltas, broken]
  | case2 fuel start line header rest delta after read exceeds =>
      simp [locationDeltas, read, exceeds]
  | case3 fuel start line header rest next delta after read moved fits inside =>
      simp [locationDeltas, read, next, inside, fits]
  | case4 fuel start line header rest next delta after read moved fits outside induction =>
      simp [locationDeltas, read, next, outside, fits, induction]
  | case5 fuel start line table short =>
      rw [locationDeltas.eq_def]
      split
      · exact absurd rfl (short _ _ _ rfl)
      · rfl

/-! ## Few and small deltas -/

theorem length_lnotabDeltas_le : (lnotabDeltas offset start table).length ≤ table.length := by
  fun_induction lnotabDeltas offset start table with
  | case1 => simp
  | case2 start length delta rest next outside induction =>
      simp only [List.length_cons]
      omega
  | case3 => simp

theorem length_rangeDeltas_le : (rangeDeltas offset start table).length ≤ table.length := by
  fun_induction rangeDeltas offset start table with
  | case1 start length delta rest moved next induction =>
      simp only [List.length_cons]
      split
      · simp
      · omega
  | case2 => simp

theorem length_locationDeltas_le : (locationDeltas unit fuel start table).length ≤ fuel := by
  fun_induction locationDeltas unit fuel start table with
  | case1 => simp
  | case2 fuel start header rest delta after read next induction =>
      simp only [List.length_cons]
      split
      · simp
      · omega
  | case3 => simp

/-- An entry takes a byte at least. -/
theorem length_deltas_le (format : LineFormat) (table : List UInt8) (offset : UInt32) :
    (deltas format table offset).length ≤ table.length := by
  cases format with
  | lnotab => exact length_lnotabDeltas_le
  | lineTable => exact length_rangeDeltas_le
  | locationTable => exact length_locationDeltas_le

theorem natAbs_signedByte_le (byte : UInt8) : (signedByte byte).natAbs ≤ 128 := by
  have bound := byte.toNat_lt
  rw [signedByte]
  split
  case isTrue small =>
    have low : byte.toNat < 128 := UInt8.lt_iff_toNat_lt.mp small
    omega
  case isFalse large =>
    have high : 128 ≤ byte.toNat := UInt8.le_iff_toNat_le.mp (UInt8.not_lt.mp large)
    omega

theorem natAbs_lnotabDeltas_le :
    ∀ delta ∈ lnotabDeltas offset start table, delta.natAbs ≤ 128 := by
  fun_induction lnotabDeltas offset start table with
  | case1 => simp
  | case2 start length delta rest next outside induction =>
      exact List.forall_mem_cons.mpr ⟨natAbs_signedByte_le delta, induction⟩
  | case3 => simp

theorem natAbs_rangeDeltas_le :
    ∀ delta ∈ rangeDeltas offset start table, delta.natAbs ≤ 128 := by
  fun_induction rangeDeltas offset start table with
  | case1 start length delta rest moved next induction =>
      intro move mem
      rcases List.mem_cons.mp mem with rfl | mem
      · show Int.natAbs (if signedByte delta = -128 then 0 else signedByte delta) ≤ 128
        split
        · decide
        · exact natAbs_signedByte_le delta
      · split at mem
        · cases mem
        · exact induction move mem
  | case2 => simp

theorem natAbs_sum_le {bound : Nat} (deltas : List Int)
    (small : ∀ delta ∈ deltas, delta.natAbs ≤ bound) :
    deltas.sum.natAbs ≤ deltas.length * bound := by
  induction deltas with
  | nil => simp
  | cons delta rest induction =>
      rcases List.forall_mem_cons.mp small with ⟨first, others⟩
      rw [List.sum_cons, List.length_cons, Nat.succ_mul]
      have later := induction others
      omega

/-! ## Lines in a word -/

theorem isWord_iff {line : Int} : IsWord line ↔ -2 ^ 63 ≤ line ∧ line < 2 ^ 63 := by
  have least : Int64.minValue.toInt = -2 ^ 63 := rfl
  have greatest : Int64.maxValue.toInt = 2 ^ 63 - 1 := rfl
  rw [IsWord, least, greatest]
  omega

/-- The exact line after the first `count` entries that a lookup takes. -/
def lineAfter (format : LineFormat) (firstLine : UInt32) (table : List UInt8) (offset : UInt32)
    (count : Nat) : Int :=
  firstLine.toNat + ((deltas format table offset).take count).sum

/-- The exact line that a lookup reaches. -/
def exactLine (format : LineFormat) (firstLine : UInt32) (table : List UInt8) (offset : UInt32) :
    Int :=
  firstLine.toNat + (deltas format table offset).sum

/-- The exact line fits a signed word before and after each entry that a lookup takes. -/
def StaysInWord (format : LineFormat) (firstLine : UInt32) (table : List UInt8)
    (offset : UInt32) : Prop :=
  ∀ count, IsWord (lineAfter format firstLine table offset count)

theorem moveLine_of_isWord {line delta : Int} (isWord : IsWord (line + delta)) :
    moveLine line delta = some (line + delta) :=
  if_pos isWord

theorem isWord_firstLine (firstLine : UInt32) : IsWord firstLine.toNat := by
  have bound := firstLine.toNat_lt
  rw [isWord_iff]
  omega

/-- The moves of a line that stays in a word end where the exact line does. -/
theorem foldlM_moveLine {line : Int} {deltas : List Int}
    (stays : ∀ count, IsWord (line + (deltas.take count).sum)) :
    deltas.foldlM moveLine line = some (line + deltas.sum) := by
  induction deltas generalizing line with
  | nil => simp
  | cons delta rest induction =>
      have first : IsWord (line + delta) := by simpa using stays 1
      have others (count : Nat) : IsWord (line + delta + (rest.take count).sum) := by
        simpa [Int.add_assoc] using stays (count + 1)
      rw [List.foldlM_cons, moveLine_of_isWord first, List.sum_cons, ← Int.add_assoc]
      exact induction others

/-- The moves of a line that leaves the word come to no end. -/
theorem foldlM_moveLine_eq_none {line : Int} {deltas : List Int} (starts : IsWord line)
    {count : Nat} (leaves : ¬ IsWord (line + (deltas.take count).sum)) :
    deltas.foldlM moveLine line = none := by
  induction deltas generalizing line count with
  | nil =>
      rw [List.take_nil, List.sum_nil, Int.add_zero] at leaves
      exact absurd starts leaves
  | cons delta rest induction =>
      rw [List.foldlM_cons]
      by_cases first : IsWord (line + delta)
      · cases count with
        | zero =>
            rw [List.take_zero, List.sum_nil, Int.add_zero] at leaves
            exact absurd starts leaves
        | succ count =>
            rw [List.take_succ_cons, List.sum_cons, ← Int.add_assoc] at leaves
            rw [moveLine_of_isWord first]
            exact induction first leaves
      · rw [moveLine, if_neg first]
        rfl

/-! ## Answers -/

/-- Deltas of up to `2 ^ 42` cannot take the line out of a word. -/
theorem staysInWord_of_moderate {format : LineFormat} (firstLine : UInt32) {table : List UInt8}
    {offset : UInt32} (bounded : table.length ≤ 2 ^ 20)
    (moderate : ∀ delta ∈ deltas format table offset, delta.natAbs ≤ 2 ^ 42) :
    StaysInWord format firstLine table offset := by
  intro count
  have total := natAbs_sum_le ((deltas format table offset).take count)
    fun delta mem => moderate delta (List.mem_of_mem_take mem)
  have few : ((deltas format table offset).take count).length ≤ 2 ^ 20 := by
    rw [List.length_take]
    have all := length_deltas_le format table offset
    omega
  have most : ((deltas format table offset).take count).length * 2 ^ 42 ≤ 2 ^ 62 :=
    Nat.mul_le_mul_right (2 ^ 42) few
  have first := firstLine.toNat_lt
  rw [isWord_iff, lineAfter]
  omega

/-- In a table of a mebibyte, the pairs of the two older encodings do not either. -/
theorem staysInWord_of_pairs {format : LineFormat} (isPairs : format ≠ .locationTable)
    (firstLine : UInt32) {table : List UInt8} {offset : UInt32}
    (bounded : table.length ≤ 2 ^ 20) : StaysInWord format firstLine table offset := by
  apply staysInWord_of_moderate firstLine bounded
  cases format with
  | lnotab =>
      intro delta mem
      exact (natAbs_lnotabDeltas_le delta mem).trans (by decide)
  | lineTable =>
      intro delta mem
      exact (natAbs_rangeDeltas_le delta mem).trans (by decide)
  | locationTable => exact absurd rfl isPairs

theorem lineAt_locationTable (firstLine : UInt32) (table : List UInt8) (offset : UInt32) :
    lineAt .locationTable firstLine table offset =
      ((deltas .locationTable table offset).foldlM moveLine firstLine.toNat).map clampLine := by
  rw [lineAt, reachedLine, locationLine_eq]
  rfl

/-- A line that stays in a word is reached as it is. -/
theorem lineAt_of_staysInWord {format : LineFormat} {firstLine : UInt32} {table : List UInt8}
    {offset : UInt32} (stays : StaysInWord format firstLine table offset) :
    lineAt format firstLine table offset =
      some (clampLine (exactLine format firstLine table offset)) := by
  cases format with
  | lnotab =>
      rw [lineAt, reachedLine, lnotabLine_eq]
      rfl
  | lineTable =>
      rw [lineAt, reachedLine, rangeLine_eq]
      rfl
  | locationTable =>
      rw [lineAt_locationTable, foldlM_moveLine stays]
      rfl

/-- A line that leaves the word is not reached. -/
theorem lineAt_eq_none {format : LineFormat} {firstLine : UInt32} {table : List UInt8}
    {offset : UInt32} (bounded : table.length ≤ 2 ^ 20)
    (leaves : ¬ StaysInWord format firstLine table offset) :
    lineAt format firstLine table offset = none := by
  obtain rfl : format = .locationTable := by
    by_contra isPairs
    exact leaves (staysInWord_of_pairs isPairs firstLine bounded)
  rcases not_forall.mp leaves with ⟨count, exceeds⟩
  rw [lineAt_locationTable, foldlM_moveLine_eq_none (isWord_firstLine firstLine) exceeds]
  rfl

/--
In a table of at most a mebibyte, well-formed or not: the line stays in a word in the two older
encodings, and in a location table of which the lookup takes no delta above `2 ^ 42`.  If the line
stays in a word the answer is that of the exact line.  If it does not, an addition exceeds the word
and there is no answer.
-/
theorem lineAt_exact (format : LineFormat) (firstLine : UInt32) (table : List UInt8)
    (offset : UInt32) (bounded : table.length ≤ 2 ^ 20) :
    ((format = .locationTable → ∀ delta ∈ deltas format table offset, delta.natAbs ≤ 2 ^ 42) →
      StaysInWord format firstLine table offset) ∧
    (StaysInWord format firstLine table offset →
      lineAt format firstLine table offset =
        some (clampLine (exactLine format firstLine table offset))) ∧
    (¬ StaysInWord format firstLine table offset →
      lineAt format firstLine table offset = none) := by
  refine ⟨fun moderate => ?_, lineAt_of_staysInWord, lineAt_eq_none bounded⟩
  by_cases isLocations : format = .locationTable
  · exact staysInWord_of_moderate firstLine bounded (moderate isLocations)
  · exact staysInWord_of_pairs isLocations firstLine bounded

/-- A location table of one entry, whose delta is `2 ^ 63 - 1`. -/
def hugeDelta : List UInt8 :=
  [0xe8, 0x7e, 0x7f, 0x7f, 0x7f, 0x7f, 0x7f, 0x7f, 0x7f, 0x7f, 0x7f, 0x0f]

/-- A location table that goes one line on and then three back. -/
def backAndForth : List UInt8 :=
  [0xe9, 0x02, 0xf0, 0x07, 0x00, 0x02, 0x05, 0xf8]

theorem lineAt_exact_backAndForth :
    backAndForth.length ≤ 2 ^ 20 ∧
      (∀ delta ∈ deltas .locationTable backAndForth 4, delta.natAbs ≤ 2 ^ 42) ∧
        StaysInWord .locationTable 10 backAndForth 4 ∧
          lineAt .locationTable 10 backAndForth 4 =
            some (clampLine (exactLine .locationTable 10 backAndForth 4)) := by
  have bounded : backAndForth.length ≤ 2 ^ 20 := by decide
  have moderate : ∀ delta ∈ deltas .locationTable backAndForth 4, delta.natAbs ≤ 2 ^ 42 := by
    decide
  rcases lineAt_exact .locationTable 10 backAndForth 4 bounded with ⟨stays, exact', -⟩
  exact ⟨bounded, moderate, stays fun _ => moderate, exact' (stays fun _ => moderate)⟩

/--
One entry is enough: from line one, the exact line is `2 ^ 63`, and the lookup ends the thread
instead of giving the largest line.
-/
theorem not_staysInWord_hugeDelta :
    hugeDelta.length ≤ 2 ^ 20 ∧
      exactLine .locationTable 1 hugeDelta 0 = 2 ^ 63 ∧
        ¬ StaysInWord .locationTable 1 hugeDelta 0 ∧
          lineAt .locationTable 1 hugeDelta 0 = none ∧
            clampLine (exactLine .locationTable 1 hugeDelta 0) = 4294967295 := by
  refine ⟨by decide, by decide, ?_, by decide, by decide⟩
  intro stays
  exact absurd (stays 1) (by decide)

end StackSampler.LineTable
