import Mathlib.Algebra.Order.Group.Int
import Mathlib.Algebra.Ring.Int.Defs
import Mathlib.Algebra.Ring.Nat
import StackSampler.LineTable

/-!
# Ranges as compilers write them

A compiler knows the line of each range of the bytecode, and writes the ranges as pairs of bytes.
Neither a long range nor a far jump fits one pair, so each is split: a range into pairs that do not
move the line, a jump into pairs that cover no bytecode.  The table of byte deltas has the delta up
to a change of the line before the change, and no end; the table of byte lengths has the change
first, and keeps one of its moves for a range without a line.

The main statement is `lineAt_compiled`: a lookup undoes both.
-/

namespace StackSampler.LineTable

/-! ## Ranges -/

/-- A line below `2 ^ 31`. -/
abbrev SourceLine := Fin (2 ^ 31)

/-- A range of the bytecode, of at least a byte, and what is known of its line. -/
structure LineRange (Line : Type) where
  length : Nat
  line : Line
  occupied : 0 < length

/-- The number of bytes that some ranges cover. -/
def extentOf {Line : Type} (ranges : List (LineRange Line)) : Nat :=
  (ranges.map (·.length)).sum

/-- The last of some lines, or the line before them. -/
def lastLine (line : Nat) (lines : List SourceLine) : Nat :=
  (lines.map Fin.val).getLastD line

/-- The lines of the ranges that have one. -/
def linesOf (ranges : List (LineRange (Option SourceLine))) : List SourceLine :=
  ranges.flatMap (·.line.toList)

@[simp]
theorem extentOf_nil {Line : Type} : extentOf ([] : List (LineRange Line)) = 0 :=
  rfl

@[simp]
theorem extentOf_cons {Line : Type} (range : LineRange Line) (ranges : List (LineRange Line)) :
    extentOf (range :: ranges) = range.length + extentOf ranges :=
  rfl

theorem lastLine_cons (line : Nat) (next : SourceLine) (lines : List SourceLine) :
    lastLine line (next :: lines) = lastLine next.val lines := by
  rw [lastLine, List.map_cons, List.getLastD_cons, lastLine]

theorem lastLine_append (line : Nat) (lines others : List SourceLine) :
    lastLine line (lines ++ others) = lastLine (lastLine line lines) others := by
  induction lines generalizing line with
  | nil => rfl
  | cons next lines induction => rw [List.cons_append, lastLine_cons, lastLine_cons, induction]

theorem lastLine_linesOf_cons (line : Nat) (range : LineRange (Option SourceLine))
    (ranges : List (LineRange (Option SourceLine))) :
    lastLine line (linesOf (range :: ranges)) =
      lastLine (lastLine line range.line.toList) (linesOf ranges) :=
  lastLine_append line range.line.toList (linesOf ranges)

theorem lastLine_le {line : Nat} (inRange : line ≤ limit) (lines : List SourceLine) :
    lastLine line lines ≤ limit := by
  induction lines generalizing line with
  | nil => exact inRange
  | cons next lines induction =>
      rw [lastLine_cons]
      exact induction (Nat.le_of_lt (Nat.lt_trans next.isLt (by decide)))

theorem lastLine_option (line : Nat) (next : Option SourceLine) :
    lastLine line next.toList = (next.map Fin.val).getD line := by
  cases next <;> rfl

/-! ## Pairs -/

/-- A move of the line that fits the second byte of a pair. -/
def FitsByte (move : Int) : Prop :=
  -128 ≤ move ∧ move ≤ 127

instance (move : Int) : Decidable (FitsByte move) :=
  inferInstanceAs (Decidable (_ ∧ _))

/-- A pair of a byte count and a move of the line. -/
def pair (length : Nat) (move : Int) : List UInt8 :=
  [UInt8.ofNat length, UInt8.ofInt move]

/-- The same bytes several times. -/
def repeated (count : Nat) (bytes : List UInt8) : List UInt8 :=
  (List.replicate count bytes).flatten

@[simp]
theorem repeated_zero (bytes : List UInt8) : repeated 0 bytes = [] :=
  rfl

theorem repeated_succ (count : Nat) (bytes rest : List UInt8) :
    repeated (count + 1) bytes ++ rest = bytes ++ (repeated count bytes ++ rest) := by
  rw [repeated, List.replicate_succ, List.flatten_cons, List.append_assoc, repeated]

theorem signedByte_ofInt {move : Int} (fits : FitsByte move) :
    signedByte (UInt8.ofInt move) = move := by
  rcases fits with ⟨low, high⟩
  have bound : (move % 2 ^ 8).toNat < UInt8.size := by simp only [UInt8.size]; omega
  have value : (UInt8.ofInt move).toNat = (move % 2 ^ 8).toNat := UInt8.toNat_ofNat_of_lt' bound
  simp only [signedByte, UInt8.lt_iff_toNat_lt, value, UInt8.reduceToNat]
  split <;> omega

section

variable {offset start length : Nat} {line move : Int} {rest : List UInt8}

theorem lt_advance_iff (below : offset < limit) :
    offset < advance start length ↔ offset < start + length := by
  rw [advance]
  omega

theorem advance_of_le (below : offset < limit) (reached : start + length ≤ offset) :
    advance start length = start + length := by
  rw [advance]
  omega

theorem lnotabLine_pair (below : offset < limit) (short : length ≤ 255) (fits : FitsByte move) :
    lnotabLine offset start line (pair length move ++ rest) =
      if offset < start + length then line
      else lnotabLine offset (start + length) (line + move) rest := by
  have count : (UInt8.ofNat length).toNat = length :=
    UInt8.toNat_ofNat_of_lt' (by simp only [UInt8.size]; omega)
  show lnotabLine offset start line (UInt8.ofNat length :: UInt8.ofInt move :: rest) = _
  simp only [lnotabLine, count, signedByte_ofInt fits, lt_advance_iff below]
  split
  · rfl
  · rw [advance_of_le below (by omega)]

/-- The line after a move in a table of byte lengths, where one move stands for no line. -/
def movedBy (line move : Int) : Int :=
  if move = -128 then line else line + move

theorem rangeLine_pair (below : offset < limit) (short : length ≤ 255) (fits : FitsByte move) :
    rangeLine offset start line (pair length move ++ rest) =
      if offset < start + length then movedBy line move
      else rangeLine offset (start + length) (movedBy line move) rest := by
  have count : (UInt8.ofNat length).toNat = length :=
    UInt8.toNat_ofNat_of_lt' (by simp only [UInt8.size]; omega)
  show rangeLine offset start line (UInt8.ofNat length :: UInt8.ofInt move :: rest) = _
  simp only [rangeLine, count, signedByte_ofInt fits, lt_advance_iff below, movedBy]
  split
  · rfl
  · rw [advance_of_le below (by omega)]

end

/-! ## Tables of byte deltas -/

/--
Moves the line, after some bytes.  What does not fit a byte is split into moves as far as a byte
allows, and the rest.
-/
def lnotabMove (length : Nat) (move : Int) : List UInt8 :=
  if FitsByte move then pair length move
  else
    let farthest : Int := if move < 0 then -128 else 127
    let count := move.natAbs / farthest.natAbs
    pair length farthest ++ repeated (count - 1) (pair 0 farthest) ++
      pair 0 (move - count * farthest)

/-- Moves the line after a gap of any length; nothing is written for no move after no gap. -/
def lnotabStep (gap : Nat) (move : Int) : List UInt8 :=
  if gap = 0 ∧ move = 0 then []
  else
    let count := if 255 < gap then gap / 255 else 0
    repeated count (pair 255 0) ++ lnotabMove (gap - 255 * count) move

/-- The pairs of ranges that come after a gap, whose line is `line`. -/
def lnotabFrom (gap line : Nat) : List (LineRange SourceLine) → List UInt8
  | [] => []
  | range :: rest =>
      lnotabStep gap ((range.line.val : Int) - line) ++
        lnotabFrom range.length range.line.val rest

/-- The table of byte deltas of some ranges. -/
def lnotabOf (firstLine : UInt32) (ranges : List (LineRange SourceLine)) : List UInt8 :=
  lnotabFrom 0 firstLine.toNat ranges

section

variable {offset start : Nat} {line move : Int} {rest : List UInt8}

/-- Pairs that do not move the line only lead on. -/
theorem lnotabLine_fill (below : offset < limit) (reached : start ≤ offset) (count : Nat) :
    lnotabLine offset start line (repeated count (pair 255 0) ++ rest) =
      if offset < start + 255 * count then line
      else lnotabLine offset (start + 255 * count) line rest := by
  induction count generalizing start with
  | zero => rw [Nat.mul_zero, Nat.add_zero, if_neg (Nat.not_lt.mpr reached), repeated_zero]; rfl
  | succ count induction =>
      have total : start + 255 * (count + 1) = start + 255 + 255 * count := by omega
      rw [repeated_succ, lnotabLine_pair below (by decide) (by decide), Int.add_zero, total]
      by_cases inside : offset < start + 255
      · rw [if_pos inside, if_pos (by omega)]
      · rw [if_neg inside, induction (by omega)]

/-- Pairs that cover no bytecode only move the line. -/
theorem lnotabLine_moves (below : offset < limit) (reached : start ≤ offset)
    (fits : FitsByte move) (count : Nat) :
    lnotabLine offset start line (repeated count (pair 0 move) ++ rest) =
      lnotabLine offset start (line + count * move) rest := by
  induction count generalizing line with
  | zero => simp
  | succ count induction =>
      have total : line + move + count * move = line + (count + 1 : Nat) * move := by
        rw [Int.natCast_succ, Int.add_mul, Int.one_mul, Int.add_assoc, Int.add_comm move]
      rw [repeated_succ, lnotabLine_pair below (by decide) fits, if_neg (by omega), Nat.add_zero,
        induction, total]

/--
A far move is split into moves as far as a byte allows, of which there is one at least, and a rest
that fits a byte.
-/
theorem lnotabMove_of_far (length : Nat) (far : ¬ FitsByte move) :
    ∃ farthest : Int, ∃ more : Nat, FitsByte farthest ∧
      FitsByte (move - (more + 1 : Nat) * farthest) ∧
        lnotabMove length move = pair length farthest ++ repeated more (pair 0 farthest) ++
          pair 0 (move - (more + 1 : Nat) * farthest) := by
  rw [lnotabMove, if_neg far]
  by_cases back : move < 0
  · have more : move.natAbs / 128 - 1 + 1 = move.natAbs / 128 := by
      unfold FitsByte at far
      omega
    refine ⟨-128, move.natAbs / 128 - 1, by decide, ?_, ?_⟩
    · unfold FitsByte
      omega
    · simp [back, more]
  · have more : move.natAbs / 127 - 1 + 1 = move.natAbs / 127 := by
      unfold FitsByte at far
      omega
    refine ⟨127, move.natAbs / 127 - 1, by decide, ?_, ?_⟩
    · unfold FitsByte
      omega
    · simp [back, more]

theorem lnotabLine_move (below : offset < limit) {length : Nat} (short : length ≤ 255) :
    lnotabLine offset start line (lnotabMove length move ++ rest) =
      if offset < start + length then line
      else lnotabLine offset (start + length) (line + move) rest := by
  by_cases fits : FitsByte move
  · rw [lnotabMove, if_pos fits, lnotabLine_pair below short fits]
  · rcases lnotabMove_of_far length fits with ⟨farthest, more, fitsFirst, fitsLast, split⟩
    rw [split, List.append_assoc, List.append_assoc, lnotabLine_pair below short fitsFirst]
    by_cases early : offset < start + length
    · rw [if_pos early, if_pos early]
    · have total : line + farthest + more * farthest + (move - (more + 1 : Nat) * farthest) =
          line + move := by
        rw [Int.natCast_succ, Int.add_mul, Int.one_mul]
        omega
      rw [if_neg early, if_neg early, lnotabLine_moves below (by omega) fitsFirst,
        lnotabLine_pair below (by decide) fitsLast, if_neg (by omega), Nat.add_zero, total]

/-- The line is moved where the gap ends, and not before. -/
theorem lnotabLine_step (below : offset < limit) (reached : start ≤ offset) (gap : Nat)
    (move : Int) :
    lnotabLine offset start line (lnotabStep gap move ++ rest) =
      if offset < start + gap then line
      else lnotabLine offset (start + gap) (line + move) rest := by
  rw [lnotabStep]
  split
  case isTrue none =>
    rw [none.1, none.2, if_neg (by omega), Nat.add_zero, Int.add_zero, List.nil_append]
  case isFalse =>
    generalize isCount : (if 255 < gap then gap / 255 else 0) = count
    have whole : 255 * count ≤ gap ∧ gap - 255 * count ≤ 255 := by
      split at isCount <;> omega
    have total : start + 255 * count + (gap - 255 * count) = start + gap := by omega
    rw [List.append_assoc, lnotabLine_fill below reached, lnotabLine_move below whole.2, total]
    by_cases early : offset < start + 255 * count
    · rw [if_pos early, if_pos (by omega)]
    · rw [if_neg early]

end

/-! ## Tables of byte lengths -/

/-- Covers some bytes after a move.  The pairs behind the first do not move the line. -/
def stretch (still : Int) : Nat → Nat → Int → List UInt8
  | 0, length, move => pair length move
  | more + 1, length, move => pair 254 move ++ stretch still more (length - 254) still

/-- The pairs of a range behind line `line`.  A far jump is split into moves of `127` lines. -/
def lineTableStep (length line : Nat) : Option SourceLine → List UInt8
  | none => stretch (-128) ((length - 1) / 254) length (-128)
  | some next =>
      let move := (next.val : Int) - line
      let farthest : Int := if move < 0 then -127 else 127
      let count := (move.natAbs - 1) / 127
      repeated count (pair 0 farthest) ++
        stretch 0 ((length - 1) / 254) length (move - count * farthest)

/-- The pairs of ranges that come behind line `line`. -/
def lineTableFrom (line : Nat) : List (LineRange (Option SourceLine)) → List UInt8
  | [] => []
  | range :: rest =>
      lineTableStep range.length line range.line ++
        lineTableFrom (lastLine line range.line.toList) rest

/-- The table of byte lengths of some ranges. -/
def lineTableOf (firstLine : UInt32) (ranges : List (LineRange (Option SourceLine))) :
    List UInt8 :=
  lineTableFrom firstLine.toNat ranges

section

variable {offset start : Nat} {line move : Int} {rest : List UInt8}

theorem rangeLine_moves (below : offset < limit) (reached : start ≤ offset)
    (fits : FitsByte move) (isMove : move ≠ -128) (count : Nat) :
    rangeLine offset start line (repeated count (pair 0 move) ++ rest) =
      rangeLine offset start (line + count * move) rest := by
  induction count generalizing line with
  | zero => simp
  | succ count induction =>
      have total : line + move + count * move = line + (count + 1 : Nat) * move := by
        rw [Int.natCast_succ, Int.add_mul, Int.one_mul, Int.add_assoc, Int.add_comm move]
      rw [repeated_succ, rangeLine_pair below (by decide) fits, if_neg (by omega), Nat.add_zero,
        movedBy, if_neg isMove, induction, total]

/-- The line is moved where the bytes begin. -/
theorem rangeLine_stretch (below : offset < limit) {still : Int}
    (isStill : still = 0 ∨ still = -128) (more : Nat) {length : Nat}
    (few : 254 * more ≤ length ∧ length ≤ 254 * (more + 1)) (fits : FitsByte move) :
    rangeLine offset start line (stretch still more length move ++ rest) =
      if offset < start + length then movedBy line move
      else rangeLine offset (start + length) (movedBy line move) rest := by
  induction more generalizing start length line move with
  | zero => exact rangeLine_pair below (by omega) fits
  | succ more induction =>
      have fitsStill : FitsByte still := by rcases isStill with rfl | rfl <;> decide
      have stays (line : Int) : movedBy line still = line := by
        rcases isStill with rfl | rfl <;> simp [movedBy]
      have total : start + 254 + (length - 254) = start + length := by omega
      rw [stretch, List.append_assoc, rangeLine_pair below (by decide) fits,
        induction (by omega) fitsStill, stays, total]
      by_cases early : offset < start + 254
      · rw [if_pos early, if_pos (by omega)]
      · rw [if_neg early]

/-- A range has its own line, or none and then the line before it. -/
theorem rangeLine_step (below : offset < limit) (reached : start ≤ offset) {length : Nat}
    (occupied : 0 < length) (line : Nat) (next : Option SourceLine) :
    rangeLine offset start line (lineTableStep length line next ++ rest) =
      if offset < start + length then (lastLine line next.toList : Int)
      else rangeLine offset (start + length) (lastLine line next.toList : Nat) rest := by
  have few : 254 * ((length - 1) / 254) ≤ length ∧ length ≤ 254 * ((length - 1) / 254 + 1) := by
    omega
  cases next with
  | none => exact rangeLine_stretch below (.inr rfl) _ few (by decide)
  | some next =>
      simp only [lineTableStep, List.append_assoc]
      generalize isMove : (next.val : Int) - line = move
      generalize isFarthest : (if move < 0 then -127 else 127 : Int) = farthest
      generalize isCount : (move.natAbs - 1) / 127 = count
      have fits : FitsByte farthest ∧ farthest ≠ -128 := by
        unfold FitsByte
        split at isFarthest <;> omega
      have left : FitsByte (move - count * farthest) ∧ move - count * farthest ≠ -128 := by
        unfold FitsByte
        split at isFarthest <;> subst isFarthest <;> omega
      have total : (line : Int) + count * farthest + (move - count * farthest) = next.val := by
        omega
      rw [rangeLine_moves below reached fits.1 fits.2,
        rangeLine_stretch below (.inl rfl) _ few left.1, movedBy, if_neg left.2, total]
      rfl

end

/-! ## Looking up -/

section

variable {offset start gap : Nat}

/-- Within the gap before the next range the line does not move yet. -/
theorem lnotabLine_waiting (below : offset < limit) (reached : start ≤ offset)
    (waits : offset < start + gap) (line : Nat) (ranges : List (LineRange SourceLine)) :
    lnotabLine offset start line (lnotabFrom gap line ranges) = line := by
  cases ranges with
  | nil => rfl
  | cons range rest => rw [lnotabFrom, lnotabLine_step below reached, if_pos waits]

theorem lnotabLine_next (below : offset < limit) (reached : start ≤ offset)
    (passed : start + gap ≤ offset) (line : Nat) (range : LineRange SourceLine)
    (rest : List (LineRange SourceLine)) :
    lnotabLine offset start line (lnotabFrom gap line (range :: rest)) =
      lnotabLine offset (start + gap) range.line.val
        (lnotabFrom range.length range.line.val rest) := by
  have moved : (line : Int) + (range.line.val - line) = range.line.val := by omega
  rw [lnotabFrom, lnotabLine_step below reached, if_neg (by omega), moved]

theorem lnotabLine_inside (below : offset < limit) (line : Nat)
    (before : List (LineRange SourceLine)) (range : LineRange SourceLine)
    (after : List (LineRange SourceLine)) (begins : start + gap + extentOf before ≤ offset)
    (ends : offset < start + gap + extentOf before + range.length) :
    lnotabLine offset start line (lnotabFrom gap line (before ++ range :: after)) =
      range.line.val := by
  induction before generalizing start gap line with
  | nil =>
      simp only [extentOf_nil, Nat.add_zero] at begins ends
      rw [List.nil_append, lnotabLine_next below (by omega) begins,
        lnotabLine_waiting below begins ends]
  | cons first before induction =>
      rw [extentOf_cons] at begins ends
      rw [List.cons_append, lnotabLine_next below (by omega) (by omega)]
      exact induction first.line.val (by omega) (by omega)

theorem lnotabLine_behind (below : offset < limit) (line : Nat)
    (ranges : List (LineRange SourceLine)) (passed : start + gap + extentOf ranges ≤ offset) :
    lnotabLine offset start line (lnotabFrom gap line ranges) =
      lastLine line (ranges.map (·.line)) := by
  induction ranges generalizing start gap line with
  | nil => rfl
  | cons range rest induction =>
      rw [extentOf_cons] at passed
      rw [lnotabLine_next below (by omega) (by omega), List.map_cons, lastLine_cons]
      exact induction range.line.val (by omega)

theorem rangeLine_inside (below : offset < limit) (line : Nat)
    (before : List (LineRange (Option SourceLine))) (range : LineRange (Option SourceLine))
    (after : List (LineRange (Option SourceLine))) (begins : start + extentOf before ≤ offset)
    (ends : offset < start + extentOf before + range.length) :
    rangeLine offset start line (lineTableFrom line (before ++ range :: after)) =
      lastLine (lastLine line (linesOf before)) range.line.toList := by
  induction before generalizing start line with
  | nil =>
      simp only [extentOf_nil, Nat.add_zero] at begins ends
      rw [List.nil_append, lineTableFrom, rangeLine_step below begins range.occupied,
        if_pos ends]
      rfl
  | cons first before induction =>
      rw [extentOf_cons] at begins ends
      rw [List.cons_append, lineTableFrom, rangeLine_step below (by omega) first.occupied,
        if_neg (by omega), induction _ (by omega) (by omega), lastLine_linesOf_cons]

theorem rangeLine_behind (below : offset < limit) (line : Nat)
    (ranges : List (LineRange (Option SourceLine))) (passed : start + extentOf ranges ≤ offset) :
    rangeLine offset start line (lineTableFrom line ranges) =
      lastLine line (linesOf ranges) := by
  induction ranges generalizing start line with
  | nil => rfl
  | cons range rest induction =>
      rw [extentOf_cons] at passed
      rw [lineTableFrom, rangeLine_step below (by omega) range.occupied, if_neg (by omega),
        induction _ (by omega), lastLine_linesOf_cons]

end

theorem toNat_clampLine {line : Nat} (small : line ≤ limit) : (clampLine line).toNat = line := by
  rw [clampLine, Int.toNat_natCast, Nat.min_eq_left small]
  exact UInt32.toNat_ofNat_of_lt' (Nat.lt_of_le_of_lt small (by decide))

/--
The line of an offset, in the tables that a compiler writes for some ranges.  In a range it is the
line of the range, or the last line before a range that has none.  Behind all ranges it is the last
line of the table.
-/
theorem lineAt_compiled (firstLine offset : UInt32) (below : offset.toNat < limit) :
    (∀ before range after, extentOf before ≤ offset.toNat →
      offset.toNat < extentOf before + range.length →
        (lineAt .lnotab firstLine (lnotabOf firstLine (before ++ range :: after)) offset).map
            UInt32.toNat =
          some range.line.val) ∧
    (∀ ranges, extentOf ranges ≤ offset.toNat →
      (lineAt .lnotab firstLine (lnotabOf firstLine ranges) offset).map UInt32.toNat =
        some (lastLine firstLine.toNat (ranges.map (·.line)))) ∧
    (∀ before range after, extentOf before ≤ offset.toNat →
      offset.toNat < extentOf before + range.length →
        (lineAt .lineTable firstLine (lineTableOf firstLine (before ++ range :: after))
            offset).map UInt32.toNat =
          some ((range.line.map Fin.val).getD (lastLine firstLine.toNat (linesOf before)))) ∧
    ∀ ranges, extentOf ranges ≤ offset.toNat →
      (lineAt .lineTable firstLine (lineTableOf firstLine ranges) offset).map UInt32.toNat =
        some (lastLine firstLine.toNat (linesOf ranges)) := by
  have first : firstLine.toNat ≤ limit := Nat.le_sub_one_of_lt firstLine.toNat_lt
  have shown {reached : Int} {line : Nat} (same : reached = line) (inRange : line ≤ limit) :
      some (clampLine reached).toNat = some line :=
    congrArg some (same ▸ toNat_clampLine inRange)
  refine ⟨?_, ?_, ?_, ?_⟩
  · intro before range after begins ends
    apply shown (lnotabLine_inside below _ before range after (by omega) (by omega))
    exact Nat.le_of_lt (Nat.lt_trans range.line.isLt (by decide))
  · intro ranges passed
    exact shown (lnotabLine_behind below _ ranges (by omega)) (lastLine_le first _)
  · intro before range after begins ends
    rw [← lastLine_option]
    apply shown (rangeLine_inside below _ before range after (by omega) (by omega))
    exact lastLine_le (lastLine_le first _) _
  · intro ranges passed
    exact shown (rangeLine_behind below _ ranges (by omega)) (lastLine_le first _)

example : lnotabOf 10 [⟨6, 10, by decide⟩, ⟨300, 12, by decide⟩, ⟨2, 200, by decide⟩] =
    [6, 2, 255, 0, 45, 127, 0, 61] := by
  decide

example : lineTableOf 20 [⟨6, some 20, by decide⟩, ⟨300, none, by decide⟩,
    ⟨4, some 220, by decide⟩] = [6, 0, 254, 0x80, 46, 0x80, 0, 127, 4, 73] := by
  decide

/-- A long range, a range whose line is far off, and a short one. -/
def farJump : List (LineRange SourceLine) :=
  [⟨600, 12, by decide⟩, ⟨4, 400, by decide⟩, ⟨2, 3, by decide⟩]

/-- A long range, a long one without a line, and one whose line is far off. -/
def lineless : List (LineRange (Option SourceLine)) :=
  [⟨600, some 12, by decide⟩, ⟨300, none, by decide⟩, ⟨2, some 400, by decide⟩]

theorem lineAt_compiled_farJump :
    (599 : UInt32).toNat < limit ∧ extentOf farJump ≤ (700 : UInt32).toNat ∧
      (lineAt .lnotab 10 (lnotabOf 10 farJump) 599).map UInt32.toNat = some 12 ∧
        (lineAt .lnotab 10 (lnotabOf 10 farJump) 700).map UInt32.toNat = some 3 ∧
          (lineAt .lineTable 10 (lineTableOf 10 lineless) 700).map UInt32.toNat = some 12 := by
  refine ⟨by decide, by decide, ?_, ?_, ?_⟩
  · exact (lineAt_compiled 10 599 (by decide)).1 [] _ (farJump.drop 1) (by decide) (by decide)
  · exact (lineAt_compiled 10 700 (by decide)).2.1 farJump (by decide)
  · exact (lineAt_compiled 10 700 (by decide)).2.2.1 (lineless.take 1) _ (lineless.drop 2)
      (by decide) (by decide)

end StackSampler.LineTable
