import StackSampler.Json.Value
import StackSampler.Text.Numeral

/-!
# Reading JSON

From a text to the tree of its value.  Reading is total: a flaw becomes part of the tree, and only
a fatal one ends the reading.
-/

namespace StackSampler.Json

/-- Whether a character may stand between the parts of a JSON text. -/
def isSpace (c : Char) : Bool :=
  c == ' ' || c == '\n' || c == '\t' || c == '\r'

/-- What is left of a text after a value: `none` when reading cannot go on. -/
abbrev Rest := Option (List Char)

/-- A value that ends the reading. -/
def stop (fault : Fault) : Value × Rest :=
  (.flawed (.fatal fault), none)

/-- Reads the rest of a word such as `true` and gives `value` for it. -/
def word (value : Value) : List Char → List Char → Value × Rest
  | [], text => (value, some text)
  | _ :: _, [] => stop .ended
  | c :: rest, d :: text => if c = d then word value rest text else stop .malformed

/-- Whether a character is an ASCII digit. -/
def isDigit (c : Char) : Bool :=
  '0' ≤ c && c ≤ '9'

/-- The value of the digits, and the text after them. -/
def digits (text : List Char) : List Char × List Char :=
  (text.takeWhile isDigit, text.dropWhile isDigit)

/-- One or more digits, and the text after them. -/
def someDigits (text : List Char) : Except Fault (List Char × List Char) :=
  match text with
  | [] => .error .ended
  | c :: _ => if isDigit c then .ok (digits text) else .error .malformed

/-- The fraction after a whole number, if there is one. -/
def fraction : List Char → Except Fault (List Char × List Char)
  | '.' :: text => someDigits text
  | text => .ok ([], text)

/-- The exponent of a number, if there is one. -/
def exponent : List Char → Except Fault (Option Int × List Char)
  | c :: text =>
      if c == 'e' || c == 'E' then
        let (negative, text) := match text with
          | '-' :: rest => (true, rest)
          | '+' :: rest => (false, rest)
          | _ => (false, text)
        (someDigits text).map fun (digits, rest) =>
          let value : Int := (Text.digitsValue? 0 digits).getD 0
          (some (if negative then -value else value), rest)
      else .ok (none, c :: text)
  | [] => .ok (none, [])

/--
Whether `mantissa` times ten to the `power` rounds to a finite number of 53 bits.  The mantissa has
`places` digits, so a power far outside the range decides without being raised.
-/
def isFinite (mantissa places : Nat) (power : Int) : Bool :=
  if mantissa = 0 || power + places ≤ 300 then true
  else if 400 < power + places then false
  else
    let bound := 1 <<< 1024 - 1 <<< 970
    if 0 ≤ power then mantissa * Nat.pow 10 power.toNat < bound
    else mantissa < bound * Nat.pow 10 (-power).toNat

/-- The value of a number given by the digits of its parts. -/
def numberValue (negative : Bool) (whole places : List Char) (power : Option Int)
    (plain : Bool) : Value :=
  let value := (Text.digitsValue? 0 whole).getD 0
  if plain && !negative && value < UInt64.size then .number (.natural value.toUInt64)
  else if plain && negative && 0 < value && value ≤ 1 <<< 63 then
    .number (.negative (-(value : Int)))
  else
    let mantissa := (Text.digitsValue? value places).getD 0
    if isFinite mantissa (whole.length + places.length) (power.getD 0 - places.length) then
      .number .other
    else .flawed ⟨.malformed, none⟩

/-- The whole part of a number: a zero alone, or digits that do not start with zero. -/
def wholePart : List Char → Except Fault (List Char × List Char)
  | '0' :: c :: text => if isDigit c then .error .malformed else .ok (['0'], c :: text)
  | text => someDigits text

/-- A number that cannot be read.  One that breaks off counts as malformed when passed over. -/
def stopNumber (fault : Fault) : Value × Rest :=
  (.flawed ⟨fault, some .malformed⟩, none)

/-- Reads a number behind its sign. -/
def number (negative : Bool) (text : List Char) : Value × Rest :=
  match wholePart text with
  | .error fault => stopNumber fault
  | .ok (whole, text) =>
      match fraction text with
      | .error fault => stopNumber fault
      | .ok (places, text') =>
          match exponent text' with
          | .error fault => stopNumber fault
          | .ok (power, rest) =>
              let plain := places.isEmpty && power.isNone
              (numberValue negative whole places power plain, some rest)

/-- The value of a hexadecimal digit. -/
def hexValue? (c : Char) : Option Nat :=
  if isDigit c then some (c.toNat - '0'.toNat)
  else if 'a' ≤ c && c ≤ 'f' then some (c.toNat - 'a'.toNat + 10)
  else if 'A' ≤ c && c ≤ 'F' then some (c.toNat - 'A'.toNat + 10)
  else none

/-- Four hexadecimal digits; the text has ended if fewer than four bytes are left of it. -/
def hexWord (text : List Char) : Except Fault (Nat × List Char) :=
  match (text.take 4).mapM hexValue? with
  | some [a, b, c, d] => .ok (((a * 16 + b) * 16 + c) * 16 + d, text.drop 4)
  | _ =>
      if (String.ofList (text.take 4)).utf8ByteSize < 4 then .error .ended else .error .malformed

/-- The character that a letter stands for behind a backslash. -/
def escaped? : Char → Option Char
  | '"' => some '"'
  | '\\' => some '\\'
  | '/' => some '/'
  | 'b' => some '\x08'
  | 'f' => some '\x0c'
  | 'n' => some '\n'
  | 'r' => some '\r'
  | 't' => some '\t'
  | _ => none

/-- Whether a 16-bit unit opens a surrogate pair. -/
def isHighSurrogate (unit : Nat) : Bool :=
  0xD800 ≤ unit && unit ≤ 0xDBFF

/-- Whether a 16-bit unit closes a surrogate pair. -/
def isLowSurrogate (unit : Nat) : Bool :=
  0xDC00 ≤ unit && unit ≤ 0xDFFF

/--
The character of the 16-bit unit `unit` that was spelled as a code, together with the text after
it.  A unit that opens a surrogate pair needs the code of its other half right behind it.
-/
def spelledChar (unit : Nat) (text : List Char) : Except Fault (Char × List Char) :=
  if isLowSurrogate unit then .error .malformed
  else if isHighSurrogate unit then
    match text with
    | [] => .error .ended
    | ['\\'] => .error .ended
    | '\\' :: 'u' :: rest =>
        match hexWord rest with
        | .error fault => .error fault
        | .ok (low, rest) =>
            if isLowSurrogate low then
              .ok (Char.ofNat (0x10000 + (unit - 0xD800) * 0x400 + (low - 0xDC00)), rest)
            else .error .malformed
    | _ => .error .malformed
  else .ok (Char.ofNat unit, text)

/-- Passes over a text up to and including its closing quote, of at most `fuel` characters. -/
def skipText : Nat → List Char → Except Fault (List Char)
  | 0, _ => .error .ended
  | _ + 1, [] => .error .ended
  | fuel + 1, c :: text =>
      if c == '"' then .ok text
      else if c == '\\' then
        match text with
        | [] => .error .ended
        | 'u' :: rest =>
            match hexWord rest with
            | .ok (_, rest) => skipText fuel rest
            | .error fault => .error fault
        | e :: rest => if (escaped? e).isSome then skipText fuel rest else .error .malformed
      else if c.toNat < 0x20 then .error .malformed
      else skipText fuel text

/--
Reads a text up to and including its closing quote, of at most `fuel` characters.  A flaw that
does not matter when the text is passed over leaves the rest to be read.
-/
def readText : Nat → List Char → List Char → Except Flaw String × Rest
  | 0, _, _ => (.error (.fatal .ended), none)
  | _ + 1, _, [] => (.error (.fatal .ended), none)
  | fuel + 1, read, c :: text =>
      let flawed (fault : Fault) (rest : List Char) : Except Flaw String × Rest :=
        match skipText rest.length.succ rest with
        | .ok rest => (.error ⟨fault, none⟩, some rest)
        | .error skipped => (.error ⟨fault, some skipped⟩, none)
      if c == '"' then (.ok (String.ofList read.reverse), some text)
      else if c == '\\' then
        match text with
        | [] => (.error (.fatal .ended), none)
        | 'u' :: rest =>
            match hexWord rest with
            | .error fault => (.error (.fatal fault), none)
            | .ok (unit, rest) =>
                match spelledChar unit rest with
                | .ok (c, rest) => readText fuel (c :: read) rest
                | .error fault => flawed fault rest
        | e :: rest =>
            match escaped? e with
            | some c => readText fuel (c :: read) rest
            | none => (.error (.fatal .malformed), none)
      else if c.toNat < 0x20 then (.error (.fatal .malformed), none)
      else readText fuel (c :: read) text

mutual

/-- Reads a value, of at most `fuel` parts. -/
def readValue : Nat → List Char → Value × Rest
  | 0, _ => stop .malformed
  | fuel + 1, text =>
      match text.dropWhile isSpace with
      | [] => stop .ended
      | 'n' :: rest => word .null ['u', 'l', 'l'] rest
      | 't' :: rest => word (.bool true) ['r', 'u', 'e'] rest
      | 'f' :: rest => word (.bool false) ['a', 'l', 's', 'e'] rest
      | '-' :: rest => number true rest
      | '"' :: rest =>
          match readText rest.length.succ [] rest with
          | (.ok value, rest) => (.text value, rest)
          | (.error flaw, rest) => (.flawed flaw, rest)
      | '[' :: rest =>
          match rest.dropWhile isSpace with
          | ']' :: rest => (.array [] none, some rest)
          | [] => (.array [] (some (.fatal .ended)), none)
          | rest =>
              let (items, ending, rest) := readItems fuel rest
              (.array items ending, rest)
      | '\x7b' :: rest =>
          match rest.dropWhile isSpace with
          | '\x7d' :: rest => (.object [] none, some rest)
          | rest =>
              let (members, ending, rest) := readMembers fuel rest
              (.object members ending, rest)
      | c :: rest => if isDigit c then number false (c :: rest) else stop .malformed

/-- Reads the items of an array from its next item on, and the closing bracket. -/
def readItems : Nat → List Char → List Value × Option Flaw × Rest
  | 0, _ => ([], some (.fatal .malformed), none)
  | fuel + 1, text =>
      match readValue fuel text with
      | (item, none) => ([item], none, none)
      | (item, some rest) =>
          match rest.dropWhile isSpace with
          | [] => ([item], some (.fatal .ended), none)
          | ',' :: rest =>
              let (items, ending, rest) := readItems fuel rest
              (item :: items, ending, rest)
          | ']' :: rest => ([item], none, some rest)
          | _ => ([item], some (.fatal .malformed), none)

/-- Reads the members of an object from its next name on, and the closing brace. -/
def readMembers : Nat → List Char → List (Except Flaw String × Value) × Option Flaw × Rest
  | 0, _ => ([], some (.fatal .malformed), none)
  | fuel + 1, text =>
      match text.dropWhile isSpace with
      | [] => ([], some (.fatal .ended), none)
      | '"' :: rest =>
          match readText rest.length.succ [] rest with
          | (.error flaw, none) => ([], some flaw, none)
          | (.ok _, none) => ([], some (.fatal .ended), none)
          | (name, some rest) =>
              match rest.dropWhile isSpace with
              | [] => ([(name, .flawed (.fatal .ended))], none, none)
              | ':' :: rest =>
                  match readValue fuel rest with
                  | (value, none) => ([(name, value)], none, none)
                  | (value, some rest) =>
                      match rest.dropWhile isSpace with
                      | [] => ([(name, value)], some (.fatal .ended), none)
                      | ',' :: rest =>
                          let (members, ending, rest) := readMembers fuel rest
                          ((name, value) :: members, ending, rest)
                      | '\x7d' :: rest => ([(name, value)], none, some rest)
                      | _ => ([(name, value)], some (.fatal .malformed), none)
              | _ => ([(name, .flawed (.fatal .malformed))], none, none)
      | _ => ([], some (.fatal .malformed), none)

end

/-- The tree of a text, and what is wrong behind its value. -/
def parse (text : String) : Value × Option Fault :=
  let chars := text.toList
  match readValue (2 * chars.length + 2) chars with
  | (value, none) => (value, none)
  | (value, some rest) => (value, if rest.all isSpace then none else some .malformed)

end StackSampler.Json
