import StackSampler.Text.Numeral
import StackSampler.Json.Value

/-!
# Writing JSON

The compact form: no blanks, members in the order given, texts with the quote, the backslash and
control characters escaped and everything else as it is.
-/

namespace StackSampler.Json

/-- A hexadecimal number of two digits. -/
def twoDigits (value : Nat) : String :=
  let digits := Text.hexDigits value
  if digits.length < 2 then "0" ++ digits else digits

/-- One character of a text. -/
def escapeChar (c : Char) : String :=
  match c with
  | '"' => "\\\""
  | '\\' => "\\\\"
  | '\n' => "\\n"
  | '\t' => "\\t"
  | '\r' => "\\r"
  | '\x08' => "\\b"
  | '\x0c' => "\\f"
  | c => if c.toNat < 0x20 then "\\u00" ++ twoDigits c.toNat else String.singleton c

/-- A text in quotes. -/
def printText (value : String) : String :=
  "\"" ++ String.join (value.toList.map escapeChar) ++ "\""

/-- A whole number. -/
def ofNat (value : UInt64) : Value :=
  .number (.natural value)

/-- A whole number of any sign. -/
def ofInt (value : Int) : Value :=
  .number (if value < 0 then .negative value else .natural value.toNat.toUInt64)

/-- A value, or null. -/
def ofOption {α : Type} (form : α → Value) : Option α → Value
  | some value => form value
  | none => .null

/-- An array of values. -/
def ofList {α : Type} (form : α → Value) (values : List α) : Value :=
  .array (values.map form) none

/-- An object with the given members. -/
def ofMembers (members : List (String × Value)) : Value :=
  .object (members.map fun (name, value) => (.ok name, value)) none

mutual

/-- The compact text of a value. -/
def print : Value → String
  | .null => "null"
  | .bool value => if value then "true" else "false"
  | .number (.natural value) => toString value.toNat
  | .number (.negative value) => toString value
  | .number .other => "0.0"
  | .text value => printText value
  | .array items _ => "[" ++ printItems items ++ "]"
  | .object members _ => "\x7b" ++ printMembers members ++ "\x7d"
  | .flawed _ => "null"

/-- The compact texts of items, separated by commas. -/
def printItems : List Value → String
  | [] => ""
  | [item] => print item
  | item :: next :: rest => print item ++ "," ++ printItems (next :: rest)

/-- The compact texts of members, separated by commas. -/
def printMembers : List (Except Flaw String × Value) → String
  | [] => ""
  | [(name, value)] => printName name ++ ":" ++ print value
  | (name, value) :: next :: rest =>
      printName name ++ ":" ++ print value ++ "," ++ printMembers (next :: rest)

/-- The name of a member. -/
def printName : Except Flaw String → String
  | .ok name => printText name
  | .error _ => printText ""

end

end StackSampler.Json
