import StackSampler.Json.Value

/-!
# Values of a given form

Taking typed content out of a JSON tree.  Objects name their fields in any order, ignore members
with other names and refuse a field given twice; the same fields may also stand in an array, in
their declared order.  Faults are met in the order of the text.
-/

namespace StackSampler.Json

/-- A form that a value may have: what is taken from it, or the first fault. -/
abbrev Form (α : Type) := Value → Except Fault α

/-- The fault of a value that is not of the wanted form. -/
def mismatch {α : Type} : Value → Except Fault α
  | .flawed flaw => .error flaw.wanted
  | _ => .error .malformed

/-- A whole number below `2 ^ 64`. -/
def natural : Form UInt64
  | .number (.natural value) => .ok value
  | value => mismatch value

/-- A whole number from `low` to `high`. -/
def integerIn (low high : Int) : Form Int
  | .number (.natural value) =>
      if low ≤ value.toNat ∧ (value.toNat : Int) ≤ high then .ok value.toNat else .error .malformed
  | .number (.negative value) =>
      if low ≤ value ∧ value ≤ high then .ok value else .error .malformed
  | value => mismatch value

/-- A signed 32-bit number. -/
def int32 : Form Int :=
  integerIn Int32.minValue.toInt Int32.maxValue.toInt

/-- An unsigned 32-bit number. -/
def word32 : Form UInt32 :=
  fun value => (integerIn 0 (UInt32.size - 1) value).map fun number => number.toNat.toUInt32

/-- A byte. -/
def byte : Form UInt8 :=
  fun value => (integerIn 0 255 value).map fun number => number.toNat.toUInt8

/-- A truth value. -/
def flag : Form Bool
  | .bool value => .ok value
  | value => mismatch value

/-- A text. -/
def string : Form String
  | .text value => .ok value
  | value => mismatch value

/-- A value of a form, or null. -/
def optional {α : Type} (form : Form α) : Form (Option α)
  | .null => .ok none
  | value => (form value).map some

/-- The items of an array of known items, whose ending may be flawed. -/
def itemsOf {α : Type} (form : Form α) (ending : Option Flaw) :
    List Value → Except Fault (List α)
  | [] => match ending with
      | none => .ok []
      | some flaw => .error flaw.wanted
  | item :: rest => do
      let first ← form item
      let others ← itemsOf form ending rest
      pure (first :: others)

/-- An array of values of a form. -/
def listOf {α : Type} (form : Form α) : Form (List α)
  | .array items ending => itemsOf form ending items
  | value => mismatch value

/-- A field of an object: its name, whether it may be left out, and a check of its value. -/
structure Field where
  name : String
  required : Bool
  check : Form Unit

/-- A field that has to be there. -/
def needed {α : Type} (name : String) (form : Form α) : Field :=
  ⟨name, true, fun value => (form value).map fun _ => ()⟩

/-- A field that may be left out. -/
def spare {α : Type} (name : String) (form : Form α) : Field :=
  ⟨name, false, fun value => (form value).map fun _ => ()⟩

/-- The values of the fields that were given. -/
abbrev Fields := List (String × Value)

/-- Adds the fields among the members to those found before. -/
def fieldsOfMembers (fields : List Field) (ending : Option Flaw) :
    Fields → List (Except Flaw String × Value) → Except Fault Fields
  | found, [] => match ending with
      | some flaw => .error flaw.wanted
      | none =>
          if fields.all fun field => !field.required || found.any (·.1 == field.name) then
            .ok found
          else .error .malformed
  | _, (.error flaw, _) :: _ => .error flaw.wanted
  | found, (.ok name, value) :: rest =>
      match fields.find? (·.name == name) with
      | none => match skipFault value with
          | some fault => .error fault
          | none => fieldsOfMembers fields ending found rest
      | some field =>
          if found.any (·.1 == name) then .error .malformed
          else match field.check value with
            | .error fault => .error fault
            | .ok () => fieldsOfMembers fields ending (found ++ [(name, value)]) rest

/-- Adds the items to the fields found before, each to the field of its place. -/
def fieldsOfItems (ending : Option Flaw) :
    List Field → Fields → List Value → Except Fault Fields
  | [], found, [] => match ending with
      | some flaw => .error flaw.wanted
      | none => .ok found
  | [], _, _ :: _ => .error .malformed
  | field :: fields, found, [] => match ending with
      | some flaw => .error flaw.wanted
      | none => if field.required then .error .malformed else fieldsOfItems ending fields found []
  | field :: fields, found, item :: rest =>
      match field.check item with
      | .error fault => .error fault
      | .ok () => fieldsOfItems ending fields (found ++ [(field.name, item)]) rest

/-- The fields of an object, or of an array that lists them in order. -/
def fieldsOf (fields : List Field) : Form Fields
  | .object members ending => fieldsOfMembers fields ending [] members
  | .array items ending => fieldsOfItems ending fields [] items
  | value => mismatch value

/-- The value of a field. -/
def Fields.value? (fields : Fields) (name : String) : Option Value :=
  (fields.find? (·.1 == name)).map (·.2)

/-- The content of a field that has to be there. -/
def Fields.get {α : Type} (fields : Fields) (name : String) (form : Form α) : Except Fault α :=
  match fields.value? name with
  | some value => form value
  | none => .error .malformed

/-- The content of a field, or its default if it was left out. -/
def Fields.getD {α : Type} (fields : Fields) (name : String) (form : Form α) (default : α) :
    Except Fault α :=
  match fields.value? name with
  | some value => form value
  | none => .ok default

/-- The content of an optional field: absent and null say the same. -/
def Fields.get? {α : Type} (fields : Fields) (name : String) (form : Form α) :
    Except Fault (Option α) :=
  fields.getD name (optional form) none

/-- A word for one of several choices, or an object whose only member gives null to that word. -/
def choice {α : Type} (choices : List (String × α)) : Form α
  | .text value => match choices.find? (·.1 == value) with
      | some (_, chosen) => .ok chosen
      | none => .error .malformed
  | .object ((.ok name, value) :: rest) ending =>
      match choices.find? (·.1 == name), value, rest, ending with
      | none, _, _, _ => .error .malformed
      | some (_, chosen), .null, [], none => .ok chosen
      | some _, .null, [], some flaw => .error flaw.wanted
      | some _, .flawed flaw, _, _ => .error flaw.wanted
      | some _, _, _, _ => .error .malformed
  | .object ((.error flaw, _) :: _) _ => .error flaw.wanted
  | .object [] (some flaw) => .error flaw.wanted
  | value => mismatch value

/-- The content of a text that has to be one value of a form. -/
def decode {α : Type} (form : Form α) (parsed : Value × Option Fault) : Except Fault α :=
  match form parsed.1, parsed.2 with
  | .error fault, _ => .error fault
  | .ok _, some fault => .error fault
  | .ok value, none => .ok value

end StackSampler.Json
