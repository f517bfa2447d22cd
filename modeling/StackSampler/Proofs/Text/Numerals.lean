import Mathlib.Data.List.TakeWhile
import StackSampler.Proofs.Json.Tokens
import StackSampler.Text.Numeral
import StackSampler.Text.Replace

/-!
# Numerals between blanks

Texts from outside are read without the blanks at their ends.  It is said here which text is left
when these are taken away, which texts are numerals of a word, and when a text has a given end.
-/

namespace StackSampler.Text

open Json (AllDigits isDigit)

/-! ## Blanks -/

/-- Blanks, of which there may be none. -/
def AllBlank (text : List Char) : Prop :=
  ∀ c ∈ text, isBlank c = true

/-- A text that neither starts nor ends with a blank. -/
structure IsTrimmed (text : List Char) : Prop where
  head : ∀ c ∈ text.head?, isBlank c = false
  last : ∀ c ∈ text.getLast?, isBlank c = false

theorem allBlank_nil : AllBlank [] :=
  fun _ mem => nomatch mem

theorem AllBlank.append {first second : List Char} (left : AllBlank first)
    (right : AllBlank second) : AllBlank (first ++ second) := by
  intro c mem
  rcases List.mem_append.mp mem with inFirst | inSecond
  · exact left c inFirst
  · exact right c inSecond

theorem isTrimmed_of_unblank {text : List Char} (unblank : ∀ c ∈ text, isBlank c = false) :
    IsTrimmed text where
  head c mem := unblank c (List.mem_of_mem_head? mem)
  last c mem := unblank c (List.mem_of_mem_getLast? mem)

/-- The ends of a text tell whether there are blanks at its ends. -/
theorem IsTrimmed.enclose {first last : List Char} (trimmedFirst : IsTrimmed first)
    (trimmedLast : IsTrimmed last) (someFirst : first ≠ []) (someLast : last ≠ [])
    (middle : List Char) : IsTrimmed (first ++ middle ++ last) where
  head c mem := by
    rw [List.append_assoc, List.head?_append_of_ne_nil _ someFirst] at mem
    exact trimmedFirst.head c mem
  last c mem := by
    rw [List.getLast?_append_of_ne_nil _ someLast] at mem
    exact trimmedLast.last c mem

theorem dropWhile_unblank {text : List Char} (head : ∀ c ∈ text.head?, isBlank c = false) :
    text.dropWhile isBlank = text := by
  cases text with
  | nil => rfl
  | cons c rest => exact List.dropWhile_cons_of_neg (by simp [head c rfl])

theorem trimEnd_of_trimmed {text after : List Char} (trimmed : IsTrimmed text)
    (blankAfter : AllBlank after) : trimEnd (text ++ after) = text := by
  have blank : ∀ c ∈ after.reverse, isBlank c = true :=
    fun c mem => blankAfter c (List.mem_reverse.mp mem)
  have head : ∀ c ∈ text.reverse.head?, isBlank c = false := by
    rw [List.head?_reverse]
    exact trimmed.last
  rw [trimEnd, List.reverse_append, List.dropWhile_append_of_pos blank, dropWhile_unblank head,
    List.reverse_reverse]

/-- Blanks around a text that has none at its ends are all that is taken away. -/
theorem trimBlanks_of_trimmed {before text after : List Char} (blankBefore : AllBlank before)
    (trimmed : IsTrimmed text) (blankAfter : AllBlank after) :
    trimBlanks (before ++ text ++ after) = text := by
  rw [trimBlanks, trimStart, List.append_assoc, List.dropWhile_append_of_pos blankBefore]
  cases text with
  | nil =>
      rw [List.nil_append, List.dropWhile_eq_nil_iff.mpr blankAfter]
      rfl
  | cons c rest =>
      have head : ∀ first ∈ (c :: rest ++ after).head?, isBlank first = false := trimmed.head
      rw [dropWhile_unblank head]
      exact trimEnd_of_trimmed trimmed blankAfter

theorem trimBlanks_eq_self {text : List Char} (trimmed : IsTrimmed text) :
    trimBlanks text = text := by
  have same := trimBlanks_of_trimmed allBlank_nil trimmed allBlank_nil
  rwa [List.nil_append, List.append_nil] at same

/-- What is taken away from a text are blanks. -/
theorem exists_trimBlanks (text : List Char) :
    ∃ before after, AllBlank before ∧ AllBlank after ∧
      text = before ++ trimBlanks text ++ after := by
  refine ⟨text.takeWhile isBlank, ((trimStart text).reverse.takeWhile isBlank).reverse, ?_, ?_, ?_⟩
  · exact fun c mem => List.mem_takeWhile_imp mem
  · exact fun c mem => List.mem_takeWhile_imp (List.mem_reverse.mp mem)
  · rw [trimBlanks, trimEnd, List.append_assoc, ← List.reverse_append,
      List.takeWhile_append_dropWhile, List.reverse_reverse, trimStart,
      List.takeWhile_append_dropWhile]

/-! ## Ends -/

theorem withoutEnd?_eq_some_iff {ending text front : List Char} :
    withoutEnd? ending text = some front ↔ text = front ++ ending := by
  rw [withoutEnd?, Option.map_eq_some_iff]
  constructor
  · rintro ⟨rest, behind, rfl⟩
    rw [← List.reverse_reverse text, behind?_eq_some_iff.mp behind, List.reverse_append,
      List.reverse_reverse]
  · rintro rfl
    refine ⟨front.reverse, ?_, List.reverse_reverse front⟩
    rw [List.reverse_append, behind?_append]

/-! ## Numerals -/

/-- A plus sign, which may be missing, and one or more digits, among them any leading zeros. -/
inductive IsNumeral : List Char → Nat → Prop
  | unsigned {digits : List Char} (nonempty : digits ≠ []) (all : AllDigits digits) :
      IsNumeral digits (Nat.ofDigitChars 10 digits 0)
  | plus {digits : List Char} (nonempty : digits ≠ []) (all : AllDigits digits) :
      IsNumeral ('+' :: digits) (Nat.ofDigitChars 10 digits 0)

theorem digitsValue?_eq_some_iff {text : List Char} {value total : Nat} :
    digitsValue? value text = some total ↔
      AllDigits text ∧ Nat.ofDigitChars 10 text value = total := by
  by_cases all : AllDigits text
  · rw [Json.digitsValue?_eq all, Option.some.injEq]
    exact (and_iff_right all).symm
  · refine iff_of_false ?_ fun digits => all digits.1
    intro found
    apply all
    induction text generalizing value with
    | nil => exact fun _ mem => nomatch mem
    | cons c rest induction =>
        rw [digitsValue?, Option.bind_eq_some_iff] at found
        rcases found with ⟨digit, isValue, found⟩
        rw [digitValue?] at isValue
        split at isValue
        · rename_i bounds
          refine List.forall_mem_cons.mpr ⟨by simpa [isDigit] using bounds, ?_⟩
          by_contra others
          exact others (induction others found)
        · cases isValue

theorem unsigned?_eq_some_iff {text : List Char} {value : Nat} :
    unsigned? text = some value ↔
      text ≠ [] ∧ AllDigits text ∧ Nat.ofDigitChars 10 text 0 = value := by
  cases text with
  | nil => simp [unsigned?]
  | cons c rest => simp [unsigned?, digitsValue?_eq_some_iff]

theorem not_allDigits_plus (digits : List Char) : ¬ AllDigits ('+' :: digits) := by
  intro all
  have digit := all '+' List.mem_cons_self
  simp [isDigit] at digit

/-- The texts that are read as a number without sign are the numerals. -/
theorem unsigned?_dropPlus_eq_some_iff {text : List Char} {value : Nat} :
    unsigned? (dropPlus text) = some value ↔ IsNumeral text value := by
  constructor
  · intro read
    rw [dropPlus.eq_def] at read
    split at read
    · rcases unsigned?_eq_some_iff.mp read with ⟨nonempty, all, rfl⟩
      exact .plus nonempty all
    · rcases unsigned?_eq_some_iff.mp read with ⟨nonempty, all, rfl⟩
      exact .unsigned nonempty all
  · rintro (⟨nonempty, all⟩ | ⟨nonempty, all⟩)
    · have unchanged : dropPlus text = text := by
        rw [dropPlus.eq_def]
        split
        · rename_i digits
          exact absurd all (not_allDigits_plus digits)
        · rfl
      rw [unchanged]
      exact unsigned?_eq_some_iff.mpr ⟨nonempty, all, rfl⟩
    · exact unsigned?_eq_some_iff.mpr ⟨nonempty, all, rfl⟩

/-- The texts that are read as a word are the numerals of numbers that fit one. -/
theorem word?_eq_some_iff {text : List Char} {value : UInt64} :
    word? text = some value ↔ IsNumeral text value.toNat := by
  rw [word?, Option.bind_eq_some_iff]
  constructor
  · rintro ⟨number, read, fits⟩
    split at fits
    · rename_i small
      rw [← Option.some.inj fits, Nat.toUInt64_eq, UInt64.toNat_ofNat_of_lt' small]
      exact unsigned?_dropPlus_eq_some_iff.mp read
    · cases fits
  · intro numeral
    refine ⟨value.toNat, unsigned?_dropPlus_eq_some_iff.mpr numeral, ?_⟩
    rw [if_pos value.toNat_lt_size, Nat.toUInt64_eq, UInt64.ofNat_toNat]

theorem isNumeral_toDigits (value : Nat) : IsNumeral (Nat.toDigits 10 value) value := by
  have numeral : IsNumeral (Nat.toDigits 10 value) _ :=
    .unsigned Nat.toDigits_ne_nil (Json.allDigits_toDigits value)
  rwa [Nat.ofDigitChars_ten_toDigits] at numeral

/-! ## The characters of numerals -/

theorem isBlank_of_isDigit {c : Char} (digit : isDigit c = true) : isBlank c = false := by
  have bounds : 48 ≤ c.toNat ∧ c.toNat ≤ 57 := by
    simpa [isDigit, Char.le_def, UInt32.le_iff_toNat_le] using digit
  simp [isBlank]
  omega

/-- A numeral is made of digits, but for its sign. -/
theorem IsNumeral.plus_or_digit {text : List Char} {value : Nat} (numeral : IsNumeral text value) :
    ∀ c ∈ text, c = '+' ∨ isDigit c = true := by
  cases numeral with
  | unsigned nonempty all => exact fun c mem => .inr (all c mem)
  | plus nonempty all =>
      intro c mem
      exact (List.mem_cons.mp mem).imp id (all c)

theorem IsNumeral.ne_nil {text : List Char} {value : Nat} (numeral : IsNumeral text value) :
    text ≠ [] := by
  cases numeral with
  | unsigned nonempty all => exact nonempty
  | plus nonempty all => exact List.cons_ne_nil _ _

theorem IsNumeral.isTrimmed {text : List Char} {value : Nat} (numeral : IsNumeral text value) :
    IsTrimmed text := by
  apply isTrimmed_of_unblank
  intro c mem
  rcases numeral.plus_or_digit c mem with rfl | digit
  · rfl
  · exact isBlank_of_isDigit digit

end StackSampler.Text
