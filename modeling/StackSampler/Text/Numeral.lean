/-!
# Numerals

Whole numbers are read from decimal text: an optional sign followed by one or more ASCII digits, any
number of them leading zeros, with a value that has to fit the wanted range.  Around a numeral there
may be blanks.

Addresses and identities are shown in lower-case hexadecimal after `0x`, without leading zeros.
-/

namespace StackSampler.Text

/-! ## Blanks -/

/-- The characters with the Unicode property White_Space. -/
def isBlank (c : Char) : Bool :=
  let code := c.toNat
  (0x09 ≤ code && code ≤ 0x0D) || code == 0x20 || code == 0x85 || code == 0xA0 || code == 0x1680 ||
    (0x2000 ≤ code && code ≤ 0x200A) || code == 0x2028 || code == 0x2029 || code == 0x202F ||
    code == 0x205F || code == 0x3000

/-- The characters after the leading blanks. -/
def trimStart (text : List Char) : List Char :=
  text.dropWhile isBlank

/-- The characters up to the trailing blanks. -/
def trimEnd (text : List Char) : List Char :=
  (text.reverse.dropWhile isBlank).reverse

/-- The characters between the leading and the trailing blanks. -/
def trimBlanks (text : List Char) : List Char :=
  trimEnd (trimStart text)

/-! ## Decimal numerals -/

/-- The value of an ASCII digit. -/
def digitValue? (c : Char) : Option Nat :=
  if '0' ≤ c ∧ c ≤ '9' then some (c.toNat - '0'.toNat) else none

/-- The value of a run of ASCII digits appended to the digits worth `value` so far. -/
def digitsValue? (value : Nat) : List Char → Option Nat
  | [] => some value
  | c :: rest => (digitValue? c).bind fun digit => digitsValue? (10 * value + digit) rest

/-- The value of one or more ASCII digits. -/
def unsigned? : List Char → Option Nat
  | [] => none
  | digits@(_ :: _) => digitsValue? 0 digits

/-- The characters after a plus sign, if there is one. -/
def dropPlus : List Char → List Char
  | '+' :: rest => rest
  | text => text

/-- A numeral without a minus sign whose value is below `2 ^ 64`. -/
def word? (text : List Char) : Option UInt64 :=
  (unsigned? (dropPlus text)).bind fun value =>
    if value < UInt64.size then some value.toUInt64 else none

/-- A numeral with any sign whose value is at least `-2 ^ 63` and below `2 ^ 63`. -/
def signedWord? (text : List Char) : Option Int :=
  match text with
  | '-' :: digits =>
      (unsigned? digits).bind fun value =>
        if value ≤ 1 <<< 63 then some (-(value : Int)) else none
  | _ =>
      (unsigned? (dropPlus text)).bind fun value =>
        if value < 1 <<< 63 then some (value : Int) else none

/-! ## Hexadecimal numerals -/

/-- The number in lower-case hexadecimal, without a mark in front. -/
def hexDigits (value : Nat) : String :=
  String.ofList (Nat.toDigits 16 value)

/-- The number in hexadecimal after `0x`, as addresses are shown. -/
def hexadecimal (value : Nat) : String :=
  "0x" ++ hexDigits value

end StackSampler.Text
