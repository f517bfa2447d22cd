/-!
# JSON values

The tree of a JSON text.  A text is read as far as it goes: where it breaks off or is malformed the
tree carries a flaw in place of what is missing, so that whoever uses the tree meets the first
flaw that matters to them, in the order of the text.
-/

namespace StackSampler.Json

/-- What is wrong with a text. -/
inductive Fault where
  /-- The text ends too early. -/
  | ended
  /-- The text is no JSON, or not of the expected form. -/
  | malformed
deriving DecidableEq, Repr

/--
A place where the text cannot be read.  A reader who only passes over the place may be less
particular than one who wants its content: it meets `skipped`, or nothing at all.
-/
structure Flaw where
  wanted : Fault
  skipped : Option Fault
deriving DecidableEq, Repr

/-- The flaw of a text that cannot be read any further. -/
def Flaw.fatal (fault : Fault) : Flaw :=
  ⟨fault, some fault⟩

/-- A number, as far as its value matters. -/
inductive Number where
  /-- A whole number written without fraction or exponent, below `2 ^ 64`. -/
  | natural (value : UInt64)
  /-- A whole number below zero, at least `-2 ^ 63`. -/
  | negative (value : Int)
  /-- Any other number. -/
  | other
deriving DecidableEq, Repr

/-- The tree of a JSON text. -/
inductive Value where
  | null
  | bool (value : Bool)
  | number (value : Number)
  | text (value : String)
  /-- Items in order; `ending` is the flaw found where the array should go on or close. -/
  | array (items : List Value) (ending : Option Flaw)
  /-- Members in order; `ending` is the flaw found where the object should go on or close. -/
  | object (members : List (Except Flaw String × Value)) (ending : Option Flaw)
  | flawed (flaw : Flaw)

mutual

/-- The first flaw met by a reader who passes over a value. -/
def skipFault : Value → Option Fault
  | .array items ending => skipItems items <|> ending.bind (·.skipped)
  | .object members ending => skipMembers members <|> ending.bind (·.skipped)
  | .flawed flaw => flaw.skipped
  | _ => none

/-- The first flaw met by a reader who passes over items. -/
def skipItems : List Value → Option Fault
  | [] => none
  | item :: rest => skipFault item <|> skipItems rest

/-- The first flaw met by a reader who passes over members. -/
def skipMembers : List (Except Flaw String × Value) → Option Fault
  | [] => none
  | (name, value) :: rest =>
      (match name with
        | .error flaw => flaw.skipped
        | .ok _ => none) <|> skipFault value <|> skipMembers rest

end

mutual

/--
The first flaw met by a reader who wants every part of a value, of which at most `depth` levels of
arrays and objects are taken.
-/
def wantFault (depth : Nat) : Value → Option Fault
  | .array items ending =>
      if depth = 0 then some .malformed
      else wantItems (depth - 1) items <|> ending.map (·.wanted)
  | .object members ending =>
      if depth = 0 then some .malformed
      else wantMembers (depth - 1) members <|> ending.map (·.wanted)
  | .flawed flaw => some flaw.wanted
  | _ => none

/-- The first flaw met by a reader who wants every part of the items. -/
def wantItems (depth : Nat) : List Value → Option Fault
  | [] => none
  | item :: rest => wantFault depth item <|> wantItems depth rest

/-- The first flaw met by a reader who wants every part of the members. -/
def wantMembers (depth : Nat) : List (Except Flaw String × Value) → Option Fault
  | [] => none
  | (name, value) :: rest =>
      (match name with
        | .error flaw => some flaw.wanted
        | .ok _ => none) <|> wantFault depth value <|> wantMembers depth rest

end

end StackSampler.Json
