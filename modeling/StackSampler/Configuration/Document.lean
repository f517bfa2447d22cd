import StackSampler.Configuration
import StackSampler.Json.Parsing
import StackSampler.Json.Printing
import StackSampler.Json.Shape

/-!
# Configurations as JSON

A configuration is written as an object with all its fields in a fixed order.  When one is read
every field may be left out, and the fields may also stand in an array.
-/

namespace StackSampler

namespace Target

/-- The word for each kind of target. -/
inductive Kind where
  | current
  | launch
  | attach
  | «where»
deriving DecidableEq, Repr

/-- The words for the kinds of target. -/
def kinds : List (String × Kind) :=
  [("current", .current), ("launch", .launch), ("attach", .attach), ("where", .where)]

/-- The value of a target of a given kind. -/
def ofContent (kind : Kind) : Json.Form Target :=
  fun value => match kind with
    | .current => match value with
        | .null => .ok .current
        | value => Json.mismatch value
    | .launch => (Json.listOf Json.string value).map .launch
    | .attach => (Json.int32 value).map fun pid => .attach (Int32.ofInt pid)
    | .where => (Json.int32 value).map fun pid => .where (Int32.ofInt pid)

/-- A target of a kind that needs no value. -/
def ofKind? : Kind → Except Json.Fault Target
  | .current => .ok .current
  | _ => .error .malformed

/-- A target: its kind and its value, in an object or an array. -/
def form : Json.Form Target
  | .array items ending => do
      let shape := [Json.needed "kind" (Json.choice kinds), Json.needed "value" (fun value => .ok value)]
      let fields ← Json.fieldsOf shape (.array items ending)
      let kind ← fields.get "kind" (Json.choice kinds)
      fields.get "value" (ofContent kind)
  | value => do
      let shape := [Json.needed "kind" (Json.choice kinds), Json.spare "value" (fun value => .ok value)]
      let fields ← Json.fieldsOf shape value
      let kind ← fields.get "kind" (Json.choice kinds)
      match fields.value? "value" with
      | some content => ofContent kind content
      | none => ofKind? kind

/-- A target as JSON. -/
def toJson : Target → Json.Value
  | .current => Json.ofMembers [("kind", .text "current")]
  | .launch command =>
      Json.ofMembers [("kind", .text "launch"), ("value", Json.ofList .text command)]
  | .attach pid => Json.ofMembers [("kind", .text "attach"), ("value", Json.ofInt pid.toInt)]
  | .where pid => Json.ofMembers [("kind", .text "where"), ("value", Json.ofInt pid.toInt)]

end Target

namespace Configuration

/-- The fields of a configuration, in their order. -/
def fields : List Json.Field :=
  [ Json.spare "interval_us" Json.natural,
    Json.spare "time_mode" (Json.choice TimeMode.choices),
    Json.spare "native" Json.flag,
    Json.spare "memory" Json.flag,
    Json.spare "output" Json.string,
    Json.spare "stealth" Json.flag,
    Json.spare "exposure_s" (Json.optional Json.natural),
    Json.spare "target" Target.form,
    Json.spare "max_depth" Json.natural,
    Json.spare "eval_symbols" (Json.listOf Json.string) ]

/-- A configuration, of which any field may be left out. -/
def form : Json.Form Configuration := fun value => do
  let given ← Json.fieldsOf fields value
  let standard : Configuration := {}
  pure
    { interval := ← given.getD "interval_us" Json.natural standard.interval
      timeMode := ← given.getD "time_mode" (Json.choice TimeMode.choices) standard.timeMode
      native := ← given.getD "native" Json.flag standard.native
      memory := ← given.getD "memory" Json.flag standard.memory
      output := ← given.getD "output" Json.string standard.output
      stealth := ← given.getD "stealth" Json.flag standard.stealth
      exposure := ← given.get? "exposure_s" Json.natural
      target := ← given.getD "target" Target.form standard.target
      maxDepth := ← given.getD "max_depth" Json.natural standard.maxDepth
      evalSymbols := ← given.getD "eval_symbols" (Json.listOf Json.string) standard.evalSymbols }

/-- The members of a configuration's object: each field's name and value. -/
def members (configuration : Configuration) : Json.Fields :=
  [ ("interval_us", Json.ofNat configuration.interval),
    ("time_mode", .text configuration.timeMode.name),
    ("native", .bool configuration.native),
    ("memory", .bool configuration.memory),
    ("output", .text configuration.output),
    ("stealth", .bool configuration.stealth),
    ("exposure_s", Json.ofOption Json.ofNat configuration.exposure),
    ("target", configuration.target.toJson),
    ("max_depth", Json.ofNat configuration.maxDepth),
    ("eval_symbols", Json.ofList .text configuration.evalSymbols) ]

/-- A configuration as JSON. -/
def toJson (configuration : Configuration) : Json.Value :=
  Json.ofMembers configuration.members

/-- Reads a configuration from JSON text. -/
def ofText (text : String) : Except Json.Fault Configuration :=
  Json.decode form (Json.parse text)

/-- Writes a configuration as compact JSON text. -/
def toText (configuration : Configuration) : String :=
  Json.print configuration.toJson

end Configuration

end StackSampler
