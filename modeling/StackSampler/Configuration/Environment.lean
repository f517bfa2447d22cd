import StackSampler.Configuration
import StackSampler.Text.Numeral

/-!
# Configurations in the environment

A launched program reads its configuration from environment variables.  Times may carry a unit,
switches may be spelled in several ways, and a variable that is not set leaves the default.
-/

namespace StackSampler.Configuration

/-- Sets the interval. -/
def intervalVariable : String := "STRATA_INTERVAL"

/-- Asks for processor time. -/
def cpuVariable : String := "STRATA_CPU"

/-- Asks for allocations. -/
def memoryVariable : String := "STRATA_MEMORY"

/-- Asks for native frames. -/
def nativeVariable : String := "STRATA_NATIVE"

/-- Sets the output path. -/
def outputVariable : String := "STRATA_OUTPUT"

/-- Asks to leave out the hosting thread. -/
def stealthVariable : String := "STRATA_STEALTH"

/-- Sets the exposure time. -/
def exposureVariable : String := "STRATA_EXPOSURE"

/-- Names a process to dump. -/
def whereVariable : String := "STRATA_WHERE"

/-- Names a process to attach to. -/
def pidVariable : String := "STRATA_PID"

/-- The number of an option, which may stand between blanks. -/
def parseNumber (option value : String) : Except ConfigError UInt64 :=
  match Text.word? (Text.trimBlanks value.toList) with
  | some number => .ok number
  | none => .error (.invalidValue option value)

/-- The process number of an option, which may stand between blanks. -/
def parsePid (option value : String) : Except ConfigError Int :=
  match Text.signedWord? (Text.trimBlanks value.toList) with
  | some number => .ok number
  | none => .error (.invalidValue option value)

/-- The lower-case form of an ASCII letter; other characters stay. -/
def lowerAscii (c : Char) : Char :=
  if 'A' ≤ c ∧ c ≤ 'Z' then Char.ofNat (c.toNat + 32) else c

/-- A switch, spelled with any case and between blanks; an empty value switches off. -/
def parseFlag (option value : String) : Except ConfigError Bool :=
  let word := String.ofList ((Text.trimBlanks value.toList).map lowerAscii)
  if ["1", "true", "yes", "on"].contains word then .ok true
  else if ["", "0", "false", "no", "off"].contains word then .ok false
  else .error (.invalidValue option value)

/-- The amount and the unit, in microseconds, of an interval without blanks at its ends. -/
def splitUnit (text : List Char) : List Char × Nat :=
  match Text.withoutEnd? ['u', 's'] text with
  | some amount => (amount, 1)
  | none =>
      match Text.withoutEnd? ['m', 's'] text with
      | some amount => (amount, 1000)
      | none =>
          match Text.withoutEnd? ['s'] text with
          | some amount => (amount, 1000000)
          | none => (text, 1)

/-- A sampling interval in microseconds: a plain number, or one in `us`, `ms` or `s`. -/
def parseInterval (value : String) : Except ConfigError UInt64 := do
  let trimmed := Text.trimBlanks value.toList
  let (amount, unit) := splitUnit trimmed
  let number ← parseNumber intervalVariable (String.ofList (Text.trimBlanks amount))
  if number.toNat * unit < UInt64.size then
    pure (UInt64.ofNat (number.toNat * unit))
  else
    .error (.invalidValue intervalVariable (String.ofList trimmed))

/-- What a variable is parsed to, or the default if it is not set. -/
def setting {α : Type} (lookup : String → Option String) (name : String)
    (parse : String → String → Except ConfigError α) : Except ConfigError (Option α) :=
  match lookup name with
  | none => .ok none
  | some value => (parse name value).map some

/-- The configuration of an environment. -/
def ofLookup (lookup : String → Option String) : Except ConfigError Configuration := do
  let interval ← setting lookup intervalVariable fun _ value => parseInterval value
  let cpu ← setting lookup cpuVariable parseFlag
  let memory ← setting lookup memoryVariable parseFlag
  let native ← setting lookup nativeVariable parseFlag
  let stealth ← setting lookup stealthVariable parseFlag
  let exposure ← setting lookup exposureVariable parseNumber
  let pid ← setting lookup pidVariable parsePid
  let wherePid ← setting lookup whereVariable parsePid
  let target ← Target.select [] pid wherePid
  let standard : Configuration := {}
  pure
    { standard with
      interval := interval.getD standard.interval
      timeMode := if cpu = some true then .cpu else standard.timeMode
      memory := memory.getD standard.memory
      native := native.getD standard.native
      stealth := stealth.getD standard.stealth
      output := (lookup outputVariable).getD standard.output
      exposure := exposure
      target := target }

/-- The configuration of a list of variables. -/
def ofVariables (settings : List (String × String)) : Except ConfigError Configuration :=
  ofLookup fun name => settings.lookup name

/-- How a switch is written. -/
def flagText (value : Bool) : String :=
  if value then "1" else "0"

/-- The variables handed to a launched command. -/
def toVariables (configuration : Configuration) : List (String × String) :=
  [ (intervalVariable, toString configuration.interval.toNat),
    (cpuVariable, flagText (configuration.timeMode == .cpu)),
    (memoryVariable, flagText configuration.memory),
    (nativeVariable, flagText configuration.native),
    (outputVariable, configuration.output),
    (stealthVariable, flagText configuration.stealth) ] ++
  match configuration.exposure with
  | some seconds => [(exposureVariable, toString seconds.toNat)]
  | none => []

end StackSampler.Configuration
