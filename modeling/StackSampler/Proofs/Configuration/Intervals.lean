import StackSampler.Configuration.Environment
import StackSampler.Proofs.Text.Numerals

/-!
# Intervals as text

An interval is a numeral with a unit, and blanks may stand before, between and behind them.  The
grammar says which texts these are; an interval is read from exactly those of them whose numeral and
whose number of microseconds fit a word, and every other text is refused as an invalid value.

The main statement is `parseInterval_exact`.
-/

namespace StackSampler.Configuration

open Text (AllBlank IsNumeral trimBlanks)

/-! ## The grammar -/

/-- The spelling of each unit, with the microseconds that it stands for; there may be none. -/
inductive IsUnit : List Char → Nat → Prop
  | bare : IsUnit [] 1
  | micros : IsUnit ['u', 's'] 1
  | millis : IsUnit ['m', 's'] 1000
  | seconds : IsUnit ['s'] 1000000

/-- A numeral of some amount, followed by a unit, with blanks before, between and behind. -/
inductive IsInterval : List Char → Nat → Nat → Prop
  | spelled {before numeral between ending after : List Char} {amount unit : Nat}
      (blankBefore : AllBlank before) (isNumeral : IsNumeral numeral amount)
      (blankBetween : AllBlank between) (isUnit : IsUnit ending unit)
      (blankAfter : AllBlank after) :
      IsInterval (before ++ numeral ++ between ++ ending ++ after) amount unit

/--
A text is an interval of so many microseconds, and these fit a word of 64 bits, as the amount in the
unit of the text does.
-/
def Denotes (text : List Char) (micros : Nat) : Prop :=
  ∃ amount unit, IsInterval text amount unit ∧ amount < UInt64.size ∧
    amount * unit < UInt64.size ∧ micros = amount * unit

/-! ## Units -/

/-- The unit is told from the end of a text, and the amount stands in front of it. -/
theorem isUnit_of_splitUnit {text amount : List Char} {unit : Nat}
    (split : splitUnit text = (amount, unit)) :
    ∃ ending, IsUnit ending unit ∧ text = amount ++ ending := by
  rw [splitUnit] at split
  split at split
  · rename_i front isMicros
    cases split
    exact ⟨_, .micros, Text.withoutEnd?_eq_some_iff.mp isMicros⟩
  · split at split
    · rename_i front isMillis
      cases split
      exact ⟨_, .millis, Text.withoutEnd?_eq_some_iff.mp isMillis⟩
    · split at split
      · rename_i front isSeconds
        cases split
        exact ⟨_, .seconds, Text.withoutEnd?_eq_some_iff.mp isSeconds⟩
      · cases split
        exact ⟨[], .bare, (List.append_nil _).symm⟩

/-- No letter of a unit stands in a text. -/
def Unitless (text : List Char) : Prop :=
  ∀ c ∈ text, c ≠ 'u' ∧ c ≠ 'm' ∧ c ≠ 's'

/-- A text without letters of units does not take part in the unit behind it. -/
theorem splitUnit_append {front ending : List Char} {unit : Nat} (unitless : Unitless front)
    (isUnit : IsUnit ending unit) : splitUnit (front ++ ending) = (front, unit) := by
  have plain : ∀ c ∈ front.reverse, c ≠ 'u' ∧ c ≠ 'm' ∧ c ≠ 's' :=
    fun c mem => unitless c (List.mem_reverse.mp mem)
  have reversed := List.reverse_reverse front
  generalize front.reverse = back at plain reversed
  subst reversed
  cases isUnit with
  | bare =>
      cases back with
      | nil => rfl
      | cons c rest =>
          have last := plain c List.mem_cons_self
          simp [splitUnit, Text.withoutEnd?, Text.behind?, Ne.symm last.2.2]
  | micros => simp [splitUnit, Text.withoutEnd?, Text.behind?]
  | millis => simp [splitUnit, Text.withoutEnd?, Text.behind?]
  | seconds =>
      cases back with
      | nil => rfl
      | cons c rest =>
          have last := plain c List.mem_cons_self
          simp [splitUnit, Text.withoutEnd?, Text.behind?, Ne.symm last.1, Ne.symm last.2.1]

theorem unitless_of_isBlank {c : Char} (blank : Text.isBlank c = true) :
    c ≠ 'u' ∧ c ≠ 'm' ∧ c ≠ 's' := by
  refine ⟨?_, ?_, ?_⟩ <;> rintro rfl <;> revert blank <;> decide

theorem unitless_of_isDigit {c : Char} (digit : Json.isDigit c = true) :
    c ≠ 'u' ∧ c ≠ 'm' ∧ c ≠ 's' := by
  refine ⟨?_, ?_, ?_⟩ <;> rintro rfl <;> revert digit <;> decide

/-- Numerals and blanks have no letters. -/
theorem unitless_numeral {numeral between : List Char} {amount : Nat}
    (isNumeral : IsNumeral numeral amount) (blank : AllBlank between) :
    Unitless (numeral ++ between) := by
  intro c mem
  rcases List.mem_append.mp mem with inNumeral | inBetween
  · rcases isNumeral.plus_or_digit c inNumeral with rfl | digit
    · decide
    · exact unitless_of_isDigit digit
  · exact unitless_of_isBlank (blank c inBetween)

/-! ## Blanks around the parts -/

theorem IsUnit.isTrimmed {ending : List Char} {unit : Nat} (isUnit : IsUnit ending unit) :
    Text.IsTrimmed ending := by
  apply Text.isTrimmed_of_unblank
  cases isUnit <;> simp [Text.isBlank]

/-- The blanks around an interval are taken away, and those before a missing unit with them. -/
theorem exists_trimBlanks_interval {before numeral between ending after : List Char}
    {amount unit : Nat} (blankBefore : AllBlank before) (isNumeral : IsNumeral numeral amount)
    (blankBetween : AllBlank between) (isUnit : IsUnit ending unit) (blankAfter : AllBlank after) :
    ∃ left, AllBlank left ∧
      trimBlanks (before ++ numeral ++ between ++ ending ++ after) = numeral ++ left ++ ending := by
  by_cases missing : ending = []
  · refine ⟨[], Text.allBlank_nil, ?_⟩
    rw [missing, List.append_nil, List.append_nil, List.append_nil, List.append_assoc _ between]
    exact Text.trimBlanks_of_trimmed blankBefore isNumeral.isTrimmed
      (blankBetween.append blankAfter)
  · refine ⟨between, blankBetween, ?_⟩
    have trimmed := isNumeral.isTrimmed.enclose isUnit.isTrimmed isNumeral.ne_nil missing between
    have same := Text.trimBlanks_of_trimmed blankBefore trimmed blankAfter
    rwa [← List.append_assoc, ← List.append_assoc] at same

/-- The amount of an interval is what stands in front of its unit, once blanks are taken away. -/
theorem IsInterval.split {text : List Char} {amount unit : Nat}
    (isInterval : IsInterval text amount unit) :
    ∃ front, splitUnit (trimBlanks text) = (front, unit) ∧
      IsNumeral (trimBlanks (trimBlanks front)) amount := by
  cases isInterval with
  | @spelled before numeral between ending after _ _ blankBefore isNumeral blankBetween isUnit
      blankAfter =>
    rcases exists_trimBlanks_interval blankBefore isNumeral blankBetween isUnit blankAfter with
      ⟨left, blankLeft, trimmed⟩
    refine ⟨numeral ++ left, ?_, ?_⟩
    · rw [trimmed, splitUnit_append (unitless_numeral isNumeral blankLeft) isUnit]
    · have once : trimBlanks (numeral ++ left) = numeral :=
        Text.trimBlanks_of_trimmed Text.allBlank_nil isNumeral.isTrimmed blankLeft
      rwa [once, Text.trimBlanks_eq_self isNumeral.isTrimmed]

/-- Blanks may have been taken away around the amount twice; all of them belong to the interval. -/
theorem isInterval_of_split {text front : List Char} {amount unit : Nat}
    (split : splitUnit (trimBlanks text) = (front, unit))
    (isNumeral : IsNumeral (trimBlanks (trimBlanks front)) amount) :
    IsInterval text amount unit := by
  rcases isUnit_of_splitUnit split with ⟨ending, isUnit, isTrimmed⟩
  rcases Text.exists_trimBlanks text with ⟨before, after, blankBefore, blankAfter, isText⟩
  rcases Text.exists_trimBlanks front with ⟨outer, outerAfter, blankOuter, blankOuterAfter, isFront⟩
  rcases Text.exists_trimBlanks (trimBlanks front) with
    ⟨inner, innerAfter, blankInner, blankInnerAfter, isInner⟩
  have spelled := IsInterval.spelled ((blankBefore.append blankOuter).append blankInner) isNumeral
    (blankInnerAfter.append blankOuterAfter) isUnit blankAfter
  have same : text = before ++ outer ++ inner ++ trimBlanks (trimBlanks front) ++
      (innerAfter ++ outerAfter) ++ ending ++ after := by
    calc
      text = before ++ (front ++ ending) ++ after := by rw [← isTrimmed, ← isText]
      _ = before ++ ((outer ++ trimBlanks front ++ outerAfter) ++ ending) ++ after := by
        rw [← isFront]
      _ = before ++ ((outer ++ (inner ++ trimBlanks (trimBlanks front) ++ innerAfter) ++
            outerAfter) ++ ending) ++ after := by rw [← isInner]
      _ = _ := by simp only [List.append_assoc]
  rwa [← same] at spelled

/-! ## Reading -/

theorem parseNumber_eq_ok_iff {option value : String} {number : UInt64} :
    parseNumber option value = .ok number ↔ IsNumeral (trimBlanks value.toList) number.toNat := by
  rw [← Text.word?_eq_some_iff, parseNumber]
  cases Text.word? (trimBlanks value.toList) with
  | none => simp
  | some read => simp

theorem parseNumber_ok_or_invalid (option value : String) :
    (∃ number, parseNumber option value = .ok number) ∨
      parseNumber option value = .error (.invalidValue option value) := by
  rw [parseNumber]
  cases Text.word? (trimBlanks value.toList) with
  | none => exact .inr rfl
  | some read => exact .inl ⟨read, rfl⟩

/-- An interval is its number in microseconds, unless these are too many. -/
theorem parseInterval_of_number {value : String} {amount : List Char} {unit : Nat}
    {number : UInt64} (split : splitUnit (trimBlanks value.toList) = (amount, unit))
    (isNumber : parseNumber intervalVariable (String.ofList (trimBlanks amount)) = .ok number) :
    parseInterval value =
      if number.toNat * unit < UInt64.size then .ok (UInt64.ofNat (number.toNat * unit))
      else .error (.invalidValue intervalVariable (String.ofList (trimBlanks value.toList))) := by
  simp only [parseInterval, split, isNumber]
  rfl

theorem parseInterval_of_refused {value : String} {amount : List Char} {unit : Nat}
    {defect : ConfigError} (split : splitUnit (trimBlanks value.toList) = (amount, unit))
    (refused : parseNumber intervalVariable (String.ofList (trimBlanks amount)) =
      .error defect) : parseInterval value = .error defect := by
  simp only [parseInterval, split, refused]
  rfl

/-- An interval is read from the texts that denote one. -/
theorem parseInterval_eq_ok_iff {text : String} {micros : UInt64} :
    parseInterval text = .ok micros ↔ Denotes text.toList micros.toNat := by
  constructor
  · intro read
    rcases split : splitUnit (trimBlanks text.toList) with ⟨front, unit⟩
    rcases parseNumber_ok_or_invalid intervalVariable (String.ofList (trimBlanks front)) with
      ⟨number, isNumber⟩ | refused
    · rw [parseInterval_of_number split isNumber] at read
      split at read
      · rename_i fits
        cases read
        refine ⟨number.toNat, unit, ?_, number.toNat_lt, fits, UInt64.toNat_ofNat_of_lt' fits⟩
        rw [parseNumber_eq_ok_iff, String.toList_ofList] at isNumber
        exact isInterval_of_split split isNumber
      · cases read
    · rw [parseInterval_of_refused split refused] at read
      cases read
  · rintro ⟨amount, unit, isInterval, small, fits, isMicros⟩
    rcases isInterval.split with ⟨front, split, isNumeral⟩
    have isNumber : parseNumber intervalVariable (String.ofList (trimBlanks front)) =
        .ok (UInt64.ofNat amount) := by
      rw [parseNumber_eq_ok_iff, String.toList_ofList, UInt64.toNat_ofNat_of_lt' small]
      exact isNumeral
    rw [parseInterval_of_number split isNumber, UInt64.toNat_ofNat_of_lt' small, if_pos fits,
      ← isMicros, UInt64.ofNat_toNat]

theorem parseInterval_ok_or_invalid (text : String) :
    (∃ micros, parseInterval text = .ok micros) ∨
      ∃ shown, parseInterval text = .error (.invalidValue intervalVariable shown) := by
  rcases split : splitUnit (trimBlanks text.toList) with ⟨front, unit⟩
  rcases parseNumber_ok_or_invalid intervalVariable (String.ofList (trimBlanks front)) with
    ⟨number, isNumber⟩ | refused
  · rw [parseInterval_of_number split isNumber]
    split
    · exact .inl ⟨_, rfl⟩
    · exact .inr ⟨_, rfl⟩
  · exact .inr ⟨_, parseInterval_of_refused split refused⟩

/--
An interval is read from exactly the texts of the grammar whose numeral and whose number of
microseconds fit a word, and it is that number of microseconds; every other text is refused as an
invalid value of the interval.
-/
theorem parseInterval_exact (text : String) :
    (∀ micros : UInt64,
        parseInterval text = .ok micros ↔ Denotes text.toList micros.toNat) ∧
      ((¬ ∃ micros, Denotes text.toList micros) ↔
        ∃ shown, parseInterval text = .error (.invalidValue intervalVariable shown)) := by
  refine ⟨fun micros => parseInterval_eq_ok_iff, ?refused, ?invalid⟩
  case refused =>
    intro denotesNone
    rcases parseInterval_ok_or_invalid text with ⟨micros, read⟩ | invalid
    · exact absurd ⟨_, parseInterval_eq_ok_iff.mp read⟩ denotesNone
    · exact invalid
  case invalid =>
    rintro ⟨shown, invalid⟩ ⟨micros, denotes⟩
    have fits : micros < UInt64.size := by
      rcases denotes with ⟨amount, unit, _, _, fits, rfl⟩
      exact fits
    have read : parseInterval text = .ok (UInt64.ofNat micros) := by
      rw [parseInterval_eq_ok_iff, UInt64.toNat_ofNat_of_lt' fits]
      exact denotes
    rw [read] at invalid
    cases invalid

example : parseInterval " +007 ms\t" = .ok 7000 := rfl

end StackSampler.Configuration
