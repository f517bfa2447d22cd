import Mathlib.Algebra.Ring.Int.Defs
import Mathlib.Data.List.Basic
import StackSampler.Json.Parsing
import StackSampler.Json.Printing

/-!
# Numbers and texts in JSON

The two kinds of token whose reading looks for their end: numbers, which end where nothing goes on
with them, and texts, which end at their quote.  Each is described by its grammar, and reading is
shown to take exactly the token, whatever follows it.  The printed numerals and texts are read back
as they were.
-/

namespace StackSampler.Json

/-! ## Digits -/

/-- Digits, of which there may be none. -/
def AllDigits (text : List Char) : Prop :=
  ∀ c ∈ text, isDigit c = true

/-- A text that does not start with a digit. -/
def NoDigit (rest : List Char) : Prop :=
  ∀ c ∈ rest.head?, isDigit c = false

/-- A text that no number goes on with. -/
def Ends (rest : List Char) : Prop :=
  ∀ c ∈ rest.head?, isDigit c = false ∧ c ≠ '.' ∧ c ≠ 'e' ∧ c ≠ 'E'

theorem ends_nil : Ends [] := by
  intro c mem
  cases mem

theorem ends_cons {c : Char} {rest : List Char} :
    Ends (c :: rest) ↔ isDigit c = false ∧ c ≠ '.' ∧ c ≠ 'e' ∧ c ≠ 'E' := by
  simp [Ends]

theorem Ends.noDigit {rest : List Char} (ends : Ends rest) : NoDigit rest :=
  fun c mem => (ends c mem).1

theorem noDigit_cons {c : Char} {rest : List Char} : NoDigit (c :: rest) ↔ isDigit c = false := by
  simp [NoDigit]

theorem digits_append {text rest : List Char} (all : AllDigits text) (ends : NoDigit rest) :
    digits (text ++ rest) = (text, rest) := by
  have stops : rest.takeWhile isDigit = [] ∧ rest.dropWhile isDigit = rest := by
    cases rest with
    | nil => exact ⟨rfl, rfl⟩
    | cons c rest => simp [noDigit_cons.mp ends]
  rw [digits, List.takeWhile_append_of_pos all, List.dropWhile_append_of_pos all, stops.1, stops.2,
    List.append_nil]

theorem someDigits_append {first : Char} {text rest : List Char} (digit : isDigit first = true)
    (all : AllDigits text) (ends : NoDigit rest) :
    someDigits (first :: text ++ rest) = .ok (first :: text, rest) := by
  have taken := digits_append (List.forall_mem_cons.mpr ⟨digit, all⟩) ends
  simp only [List.cons_append] at taken ⊢
  simp only [someDigits, digit, if_true, taken]

/-! ## Numbers -/

/-- The whole part of a number: a zero, or digits that do not start with one. -/
inductive IsWhole : List Char → Prop where
  | zero : IsWhole ['0']
  | digits {first : Char} {text : List Char} (digit : isDigit first = true)
      (nonzero : first ≠ '0') (all : AllDigits text) : IsWhole (first :: text)

/-- The fraction of a number, if it has one. -/
inductive IsFraction : List Char → Prop where
  | absent : IsFraction []
  | digits {first : Char} {text : List Char} (digit : isDigit first = true)
      (all : AllDigits text) : IsFraction ('.' :: first :: text)

/-- The sign of an exponent, if it has one. -/
inductive IsSign : List Char → Prop where
  | absent : IsSign []
  | minus : IsSign ['-']
  | plus : IsSign ['+']

/-- The exponent of a number, if it has one. -/
inductive IsExponent : List Char → Prop where
  | absent : IsExponent []
  | digits {mark first : Char} {sign text : List Char} (marks : mark = 'e' ∨ mark = 'E')
      (isSign : IsSign sign) (digit : isDigit first = true) (all : AllDigits text) :
      IsExponent (mark :: (sign ++ first :: text))

theorem IsWhole.read {text rest : List Char} (isWhole : IsWhole text) (ends : NoDigit rest) :
    wholePart (text ++ rest) = .ok (text, rest) := by
  cases isWhole with
  | zero =>
      cases rest with
      | nil => rfl
      | cons c rest => simp [wholePart, noDigit_cons.mp ends]
  | digits digit nonzero all =>
      rw [wholePart.eq_def]
      split
      case h_1 c after same =>
        exact absurd (List.cons.inj same).1 nonzero
      case h_2 => exact someDigits_append digit all ends

theorem IsFraction.read {text rest : List Char} (isFraction : IsFraction text) (ends : NoDigit rest)
    (plain : '.' ∉ rest.head?) : fraction (text ++ rest) = .ok (text.tail, rest) := by
  cases isFraction with
  | absent =>
      rw [List.nil_append, fraction.eq_def]
      split
      case h_1 => exact absurd rfl plain
      case h_2 => rfl
  | digits digit all => exact someDigits_append digit all ends

theorem IsExponent.read {text : List Char} (isExponent : IsExponent text) :
    ∃ power, (∀ rest, Ends rest → exponent (text ++ rest) = .ok (power, rest)) ∧
      (text = [] → power = none) := by
  cases isExponent with
  | absent =>
      refine ⟨none, fun rest ends => ?_, fun _ => rfl⟩
      cases rest with
      | nil => rfl
      | cons c rest =>
          rcases ends_cons.mp ends with ⟨-, -, small, large⟩
          simp [exponent, small, large]
  | @digits mark first sign text marks isSign digit all =>
      have read := fun rest (ends : Ends rest) => someDigits_append digit all ends.noDigit
      have marked : (mark == 'e' || mark == 'E') = true := by simpa using marks
      suffices found : ∃ power, ∀ rest, Ends rest →
          exponent (mark :: (sign ++ first :: text) ++ rest) = .ok (power, rest) by
        rcases found with ⟨power, found⟩
        exact ⟨power, found, nofun⟩
      let value : Int := (Text.digitsValue? 0 (first :: text)).getD 0
      cases isSign with
      | absent =>
          have unsigned : first ≠ '-' ∧ first ≠ '+' := by
            constructor <;> (rintro rfl; exact absurd digit (by decide))
          refine ⟨some value, fun rest ends => ?_⟩
          simp only [List.nil_append, List.cons_append, exponent, marked, if_true] at read ⊢
          split
          case h_1 same => exact absurd (List.cons.inj same).1 unsigned.1
          case h_2 same => exact absurd (List.cons.inj same).1 unsigned.2
          case h_3 =>
            rw [read rest ends]
            rfl
      | minus =>
          refine ⟨some (-value), fun rest ends => ?_⟩
          simp only [List.cons_append, List.nil_append, exponent, marked, if_true] at read ⊢
          rw [read rest ends]
          rfl
      | plus =>
          refine ⟨some value, fun rest ends => ?_⟩
          simp only [List.cons_append, List.nil_append, exponent, marked, if_true] at read ⊢
          rw [read rest ends]
          rfl

/-- A number that may be passed over, and is a whole one unless it says otherwise. -/
theorem read_number {whole places power : List Char} (negative : Bool) (isWhole : IsWhole whole)
    (isFraction : IsFraction places) (isExponent : IsExponent power) :
    ∃ value, (∀ rest, Ends rest →
        number negative (whole ++ places ++ power ++ rest) = (value, some rest)) ∧
      skipFault value = none ∧
      (places = [] → power = [] → value = numberValue negative whole [] none true) := by
  have afterPlaces : ∀ rest, Ends rest → NoDigit (power ++ rest) ∧ '.' ∉ (power ++ rest).head? := by
    intro rest ends
    cases isExponent with
    | absent => exact ⟨ends.noDigit, fun mem => (ends _ mem).2.1 rfl⟩
    | digits marks =>
        rcases marks with rfl | rfl <;> simp [NoDigit, isDigit]
  have afterWhole : ∀ rest, Ends rest → NoDigit (places ++ (power ++ rest)) := by
    intro rest ends
    cases isFraction with
    | absent => exact (afterPlaces rest ends).1
    | digits => simp [NoDigit, isDigit]
  rcases isExponent.read with ⟨read, exponent_eq, read_none⟩
  have passes (whole places : List Char) (read : Option Int) (plain : Bool) :
      skipFault (numberValue negative whole places read plain) = none := by
    simp only [numberValue]
    repeat' split
    all_goals rfl
  have taken : ∀ rest, Ends rest → number negative (whole ++ places ++ power ++ rest) =
      (numberValue negative whole places.tail read (places.tail.isEmpty && read.isNone),
        some rest) := by
    intro rest ends
    rw [List.append_assoc, List.append_assoc, number, isWhole.read (afterWhole rest ends)]
    simp only [isFraction.read (afterPlaces rest ends).1 (afterPlaces rest ends).2,
      exponent_eq rest ends]
  refine ⟨_, taken, passes _ _ _ _, ?_⟩
  rintro rfl rfl
  rw [read_none rfl]
  rfl

/-! ## Numerals -/

theorem isDigit_of_isDigit {c : Char} (digit : c.isDigit = true) : isDigit c = true := by
  simpa [isDigit, Char.isDigit, Char.le_def] using digit

theorem digitsValue?_eq {text : List Char} (all : AllDigits text) (value : Nat) :
    Text.digitsValue? value text = some (Nat.ofDigitChars 10 text value) := by
  induction text generalizing value with
  | nil => rfl
  | cons c rest induction =>
      rcases List.forall_mem_cons.mp all with ⟨digit, others⟩
      have bounds : '0' ≤ c ∧ c ≤ '9' := by simpa [isDigit] using digit
      simp only [Text.digitsValue?, Text.digitValue?, bounds, and_self, if_true, Option.bind_some,
        induction others, Nat.ofDigitChars_cons]

theorem allDigits_toDigits (value : Nat) : AllDigits (Nat.toDigits 10 value) :=
  fun _ mem => isDigit_of_isDigit (Nat.isDigit_of_mem_toDigits (by decide) (by decide) mem)

theorem head_toDigits_ne_zero {value : Nat} (positive : 0 < value) :
    (Nat.toDigits 10 value).head? ≠ some '0' := by
  induction value using Nat.strongRecOn with
  | ind value induction =>
      rw [Nat.toDigits_eq_if (by decide)]
      split
      · simp
        omega
      · have shorter := induction (value / 10) (by omega) (by omega)
        rwa [List.head?_append_of_ne_nil _ Nat.toDigits_ne_nil]

theorem isWhole_toDigits (value : Nat) : IsWhole (Nat.toDigits 10 value) := by
  cases value with
  | zero => exact .zero
  | succ less =>
      have nonzero := head_toDigits_ne_zero (Nat.succ_pos less)
      have all := allDigits_toDigits (less + 1)
      cases text : Nat.toDigits 10 (less + 1) with
      | nil => exact absurd text Nat.toDigits_ne_nil
      | cons first rest =>
          rw [text] at nonzero all
          rcases List.forall_mem_cons.mp all with ⟨digit, others⟩
          exact .digits digit (by simpa using nonzero) others

/-- A numeral is read back as a number without fraction and exponent. -/
theorem read_numeral (negative : Bool) (value : Nat) {rest : List Char} (ends : Ends rest) :
    number negative (Nat.toDigits 10 value ++ rest) =
      (numberValue negative (Nat.toDigits 10 value) [] none true, some rest) := by
  rcases read_number negative (isWhole_toDigits value) .absent .absent with
    ⟨read, taken, -, plain⟩
  rw [List.append_nil, List.append_nil] at taken
  rw [taken rest ends, plain rfl rfl]

theorem numberValue_natural (value : UInt64) :
    numberValue false (Nat.toDigits 10 value.toNat) [] none true = .number (.natural value) := by
  have fits : value.toNat < UInt64.size := value.toNat_lt
  rw [numberValue, digitsValue?_eq (allDigits_toDigits _), Nat.ofDigitChars_ten_toDigits]
  simp [fits]

theorem numberValue_negative {value : Int} (low : -2 ^ 63 ≤ value) (negative : value < 0) :
    numberValue true (Nat.toDigits 10 value.natAbs) [] none true = .number (.negative value) := by
  have positive : decide (0 < value.natAbs) = true := decide_eq_true (by omega)
  have small : decide (value.natAbs ≤ 1 <<< 63) = true :=
    decide_eq_true (by rw [Nat.one_shiftLeft]; omega)
  have same : -(value.natAbs : Int) = value := by omega
  rw [numberValue, digitsValue?_eq (allDigits_toDigits _), Nat.ofDigitChars_ten_toDigits]
  simp only [Option.getD_some, Bool.not_true, Bool.and_false, Bool.false_and, Bool.true_and,
    Bool.false_eq_true, if_false, positive, small, if_true, same]

/-! ## Printed texts -/

theorem hexValue?_digitChar : ∀ digit < 16, hexValue? (Nat.digitChar digit) = some digit := by
  decide

theorem toList_twoDigits {value : Nat} (small : value < 256) :
    (twoDigits value).toList = [Nat.digitChar (value / 16), Nat.digitChar (value % 16)] := by
  rw [twoDigits, Text.hexDigits]
  by_cases single : value < 16
  · have quotient : value / 16 = 0 := by omega
    have remainder : value % 16 = value := by omega
    simp [Nat.toDigits_of_lt_base single, quotient, remainder, Nat.digitChar]
  · have quotient : value / 16 < 16 := by omega
    simp [Nat.toDigits_of_base_le (by decide : 1 < 16) (Nat.le_of_not_lt single),
      Nat.toDigits_of_lt_base quotient]

theorem hexWord_cons {a b c d : Char} {w x y z : Nat} (rest : List Char)
    (first : hexValue? a = some w) (second : hexValue? b = some x)
    (third : hexValue? c = some y) (fourth : hexValue? d = some z) :
    hexWord (a :: b :: c :: d :: rest) = .ok (((w * 16 + x) * 16 + y) * 16 + z, rest) := by
  simp [hexWord, first, second, third, fourth]

/-- One printed character is read back. -/
theorem readText_escapeChar (c : Char) (fuel : Nat) (read rest : List Char) :
    readText (fuel + 1) read ((escapeChar c).toList ++ rest) = readText fuel (c :: read) rest := by
  unfold escapeChar
  split
  case h_8 quote backslash _ _ _ _ _ =>
    split
    case isTrue control =>
      have code : hexWord ('0' :: '0' :: Nat.digitChar (c.toNat / 16) ::
          Nat.digitChar (c.toNat % 16) :: rest) = .ok (c.toNat, rest) := by
        have zero : hexValue? '0' = some 0 := by decide
        rw [hexWord_cons rest zero zero (hexValue?_digitChar _ (by omega))
          (hexValue?_digitChar _ (by omega))]
        congr 2
        omega
      have plain : isLowSurrogate c.toNat = false ∧ isHighSurrogate c.toNat = false := by
        simp only [isLowSurrogate, isHighSurrogate, Bool.and_eq_false_iff, decide_eq_false_iff_not]
        omega
      simp [toList_twoDigits (show c.toNat < 256 by omega), readText, code, spelledChar, plain,
        Char.ofNat_toNat]
    case isFalse visible =>
      have unquoted : c ≠ '"' ∧ c ≠ '\\' := ⟨quote, backslash⟩
      simp [readText, unquoted, visible]
  all_goals simp [readText, escaped?]

/-- A printed text is read back, up to its closing quote. -/
theorem readText_escaped (text rest : List Char) :
    ∀ (fuel : Nat) (read : List Char), text.length < fuel →
      readText fuel read ((text.map escapeChar).flatMap String.toList ++ '"' :: rest) =
        (.ok (String.ofList (read.reverse ++ text)), some rest) := by
  induction text with
  | nil =>
      intro fuel read enough
      obtain ⟨fuel, rfl⟩ := Nat.exists_eq_add_one_of_ne_zero (Nat.ne_zero_of_lt enough)
      simp [readText]
  | cons c others induction =>
      intro fuel read enough
      obtain ⟨fuel, rfl⟩ := Nat.exists_eq_add_one_of_ne_zero (Nat.ne_zero_of_lt enough)
      rw [List.map_cons, List.flatMap_cons, List.append_assoc, readText_escapeChar,
        induction fuel (c :: read) (Nat.lt_of_succ_lt_succ enough)]
      simp

/-! ## Texts of any spelling -/

/-- What may stand between the quotes of a text. -/
inductive IsTextBody : List Char → Prop where
  | nil : IsTextBody []
  | plain {c : Char} {rest : List Char} (quote : c ≠ '"') (backslash : c ≠ '\\')
      (visible : 0x20 ≤ c.toNat) (body : IsTextBody rest) : IsTextBody (c :: rest)
  | escape {e : Char} {rest : List Char} (known : (escaped? e).isSome = true)
      (body : IsTextBody rest) : IsTextBody ('\\' :: e :: rest)
  | code {a b c d : Char} {w x y z : Nat} {rest : List Char} (first : hexValue? a = some w)
      (second : hexValue? b = some x) (third : hexValue? c = some y)
      (fourth : hexValue? d = some z) (body : IsTextBody rest) :
      IsTextBody ('\\' :: 'u' :: a :: b :: c :: d :: rest)

theorem IsTextBody.skip {body : List Char} (isBody : IsTextBody body) (rest : List Char) :
    ∀ fuel : Nat, body.length < fuel → skipText fuel (body ++ '"' :: rest) = .ok rest := by
  induction isBody with
  | nil =>
      intro fuel enough
      obtain ⟨fuel, rfl⟩ := Nat.exists_eq_add_one_of_ne_zero (Nat.ne_zero_of_lt enough)
      simp [skipText]
  | plain quote backslash visible body induction =>
      intro fuel enough
      obtain ⟨fuel, rfl⟩ := Nat.exists_eq_add_one_of_ne_zero (Nat.ne_zero_of_lt enough)
      simp [skipText, quote, backslash, Nat.not_lt.mpr visible,
        induction fuel (Nat.lt_of_succ_lt_succ enough)]
  | @escape e after known body induction =>
      intro fuel enough
      obtain ⟨fuel, rfl⟩ := Nat.exists_eq_add_one_of_ne_zero (Nat.ne_zero_of_lt enough)
      have notCode : e ≠ 'u' := by
        rintro rfl
        cases known
      have read := induction fuel (by simp at enough; omega)
      simp [skipText, known, read]
  | code first second third fourth body induction =>
      intro fuel enough
      obtain ⟨fuel, rfl⟩ := Nat.exists_eq_add_one_of_ne_zero (Nat.ne_zero_of_lt enough)
      simp [skipText, hexWord_cons _ first second third fourth,
        induction fuel (by simp at enough; omega)]

/-- What follows the code of a half of a surrogate pair. -/
theorem spelledChar_eq (unit : Nat) {body : List Char} (isBody : IsTextBody body) :
    (∃ c others, others.length ≤ body.length ∧ IsTextBody others ∧
        ∀ rest, spelledChar unit (body ++ '"' :: rest) = .ok (c, others ++ '"' :: rest)) ∨
      ∃ fault, ∀ rest, spelledChar unit (body ++ '"' :: rest) = .error fault := by
  by_cases low : isLowSurrogate unit = true
  · exact .inr ⟨.malformed, fun rest => by simp [spelledChar, low]⟩
  by_cases high : isHighSurrogate unit = true
  · -- Only another code may follow the first half of a pair.
    have refused (text : List Char) (other : text ≠ []) (quoted : text ≠ ['\\'])
        (coded : ∀ rest, text ≠ '\\' :: 'u' :: rest) :
        spelledChar unit text = .error .malformed := by
      rw [spelledChar.eq_def, if_neg low, if_pos high]
      split
      case h_1 => exact absurd rfl other
      case h_2 => exact absurd rfl quoted
      case h_3 => exact absurd rfl (coded _)
      case h_4 => rfl
    cases isBody with
    | nil => exact .inr ⟨.malformed, fun rest => refused _ nofun nofun nofun⟩
    | plain quote backslash =>
        refine .inr ⟨.malformed, fun rest => refused _ nofun ?_ ?_⟩
        · exact fun same => backslash (List.cons.inj same).1
        · exact fun rest same => backslash (List.cons.inj same).1
    | @escape e after known =>
        refine .inr ⟨.malformed, fun rest => refused _ nofun nofun ?_⟩
        intro rest same
        cases (List.cons.inj (List.cons.inj same).2).1
        cases known
    | @code a b c d w x y z after first second third fourth isBody =>
        by_cases closes : isLowSurrogate (((w * 16 + x) * 16 + y) * 16 + z) = true
        · refine .inl ⟨Char.ofNat (0x10000 + (unit - 0xD800) * 0x400 +
            (((w * 16 + x) * 16 + y) * 16 + z - 0xDC00)), after, by simp; omega, isBody,
            fun rest => ?_⟩
          simp [spelledChar, low, high, hexWord_cons _ first second third fourth, closes]
        · refine .inr ⟨.malformed, fun rest => ?_⟩
          simp [spelledChar, low, high, hexWord_cons _ first second third fourth, closes]
  · exact .inl ⟨Char.ofNat unit, body, Nat.le_refl _, isBody,
      fun rest => by simp [spelledChar, low, high]⟩

/--
Any text is taken up to its closing quote.  Halves of surrogate pairs may stand in it alone, which
matters to nobody who passes over it.
-/
theorem IsTextBody.read :
    ∀ (size : Nat) {body : List Char}, body.length ≤ size → IsTextBody body →
      ∀ read : List Char, ∃ name,
        (∀ (fuel : Nat) (rest : List Char), body.length < fuel →
          readText fuel read (body ++ '"' :: rest) = (name, some rest)) ∧
        ∀ flaw, name = .error flaw → flaw.skipped = none := by
  -- Induction on the size, since a surrogate pair takes two codes in one step.
  intro size
  induction size with
  | zero =>
      intro body short isBody read
      cases List.length_eq_zero_iff.mp (Nat.le_zero.mp short)
      refine ⟨.ok (String.ofList read.reverse), fun fuel rest enough => ?_, by simp⟩
      obtain ⟨fuel, rfl⟩ := Nat.exists_eq_add_one_of_ne_zero (Nat.ne_zero_of_lt enough)
      simp [readText]
  | succ size induction =>
      intro body short isBody read
      cases isBody with
      | nil =>
          refine ⟨.ok (String.ofList read.reverse), fun fuel rest enough => ?_, by simp⟩
          obtain ⟨fuel, rfl⟩ := Nat.exists_eq_add_one_of_ne_zero (Nat.ne_zero_of_lt enough)
          simp [readText]
      | @plain c after quote backslash visible isBody =>
          simp only [List.length_cons] at short ⊢
          rcases induction (by omega) isBody (c :: read) with ⟨name, taken, passes⟩
          refine ⟨name, fun fuel rest enough => ?_, passes⟩
          obtain ⟨fuel, rfl⟩ := Nat.exists_eq_add_one_of_ne_zero (Nat.ne_zero_of_lt enough)
          simp [readText, quote, backslash, Nat.not_lt.mpr visible, taken fuel rest (by omega)]
      | @escape e after known isBody =>
          simp only [List.length_cons] at short ⊢
          rcases Option.isSome_iff_exists.mp known with ⟨c, stands⟩
          have notCode : e ≠ 'u' := by
            rintro rfl
            cases known
          rcases induction (by omega) isBody (c :: read) with ⟨name, taken, passes⟩
          refine ⟨name, fun fuel rest enough => ?_, passes⟩
          obtain ⟨fuel, rfl⟩ := Nat.exists_eq_add_one_of_ne_zero (Nat.ne_zero_of_lt enough)
          simp [readText, stands, taken fuel rest (by omega)]
      | @code a b c d w x y z after first second third fourth isBody =>
          simp only [List.length_cons] at short ⊢
          rcases spelledChar_eq (((w * 16 + x) * 16 + y) * 16 + z) isBody with
            ⟨spelled, others, shorter, isOthers, outcome⟩ | ⟨fault, outcome⟩
          · rcases induction (by omega) isOthers (spelled :: read) with ⟨name, taken, passes⟩
            refine ⟨name, fun fuel rest enough => ?_, passes⟩
            obtain ⟨fuel, rfl⟩ := Nat.exists_eq_add_one_of_ne_zero (Nat.ne_zero_of_lt enough)
            simp [readText, hexWord_cons _ first second third fourth, outcome rest,
              taken fuel rest (by omega)]
          · refine ⟨.error ⟨fault, none⟩, fun fuel rest enough => ?_,
              fun flaw same => by cases same; rfl⟩
            obtain ⟨fuel, rfl⟩ := Nat.exists_eq_add_one_of_ne_zero (Nat.ne_zero_of_lt enough)
            have skipped := isBody.skip rest (after ++ '"' :: rest).length.succ (by
              rw [List.length_append]
              omega)
            simp only [List.length_append, List.length_cons, Nat.succ_eq_add_one] at skipped
            simp [readText, hexWord_cons _ first second third fourth, outcome rest, skipped]

end StackSampler.Json
