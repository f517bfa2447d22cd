import StackSampler.Native.Splice
import StackSampler.Record
import StackSampler.Text.Quoted
import StackSampler.Text.Replace

/-!
# Configurations

What a profiling run is asked to do: how often and what to measure, whom to look at, where to
write.  A configuration that cannot be carried out is refused with its first defect.
-/

namespace StackSampler

/-- How the cost of a sample is measured. -/
inductive TimeMode where
  | cpu
  | wall
deriving DecidableEq, Repr, Inhabited

/-- What a profiler is pointed at. -/
inductive Target where
  /-- The program the engine is loaded in. -/
  | current
  /-- A command to be started. -/
  | launch (command : List String)
  /-- A running program. -/
  | attach (pid : Int32)
  /-- A running program whose stacks are wanted once. -/
  | «where» (pid : Int32)
deriving DecidableEq, Repr, Inhabited

/-- What is wrong with a configuration. -/
inductive ConfigError where
  | nonPositiveInterval
  | nonPositiveExposure
  | conflictingTargets
  | cpuWithMemory
  | invalidPid (pid : Int)
  | emptyCommand
  /-- The value of an option that cannot be understood. -/
  | invalidValue (option value : String)
deriving DecidableEq, Repr

/-- The sentence that reports a defect of a configuration. -/
def ConfigError.message : ConfigError → String
  | .nonPositiveInterval => "interval must be positive"
  | .nonPositiveExposure => "exposure time must be positive"
  | .conflictingTargets =>
      "cannot attach to a process and request a where dump at the same time"
  | .cpuWithMemory => "cannot use both cpu and memory modes"
  | .invalidPid pid => "process id must be positive, got " ++ toString pid
  | .emptyCommand => "no command given"
  | .invalidValue option value => "invalid value " ++ Text.quoted value ++ " for " ++ option

/-- What a profiling run is asked to do. -/
structure Configuration where
  /-- Microseconds between two samples. -/
  interval : UInt64 := 1000
  timeMode : TimeMode := .wall
  native : Bool := false
  memory : Bool := false
  /-- Path of the output, with a place for the process. -/
  output : String := "%(pid).strata"
  /-- Whether the thread that hosts the profiler is left out. -/
  stealth : Bool := false
  /-- Seconds after which the run ends by itself. -/
  exposure : Option UInt64 := none
  target : Target := .current
  /-- The deepest stack that is captured. -/
  maxDepth : UInt64 := 500
  /-- Symbols of the interpreter's evaluation loop. -/
  evalSymbols : List String := Native.defaultEvalSymbols
deriving DecidableEq, Repr

instance : Inhabited Configuration := ⟨{}⟩

namespace TimeMode

/-- The words for the time modes. -/
def choices : List (String × TimeMode) :=
  [("cpu", .cpu), ("wall", .wall)]

/-- The word for a time mode. -/
def name : TimeMode → String
  | .cpu => "cpu"
  | .wall => "wall"

/-- The time mode of a word. -/
def ofName (word : String) : Except ConfigError TimeMode :=
  match choices.find? (·.1 == word) with
  | some (_, mode) => .ok mode
  | none => .error (.invalidValue "time mode" word)

end TimeMode

namespace Target

/-- A process number from outside: it has to be positive and fit the system's numbers. -/
def checkedPid (pid : Int) : Except ConfigError Int32 :=
  if 0 < pid ∧ pid ≤ Int32.maxValue.toInt then .ok (Int32.ofInt pid) else .error (.invalidPid pid)

/-- The target of a command line: at most one of a process to attach to and one to dump. -/
def select (command : List String) (pid wherePid : Option Int) : Except ConfigError Target :=
  match pid, wherePid with
  | some _, some _ => .error .conflictingTargets
  | some pid, none => (checkedPid pid).map .attach
  | none, some pid => (checkedPid pid).map .where
  | none, none => .ok (if command.isEmpty then .current else .launch command)

end Target

namespace Configuration

/-- Stands for the process in an output path. -/
def pidPlaceholder : String := "%(pid)"

/-- The first defect of a configuration, if it has one. -/
def defect? (configuration : Configuration) : Option ConfigError :=
  if configuration.interval = 0 then some .nonPositiveInterval
  else if configuration.exposure = some 0 then some .nonPositiveExposure
  else if configuration.memory && configuration.timeMode == .cpu then some .cpuWithMemory
  else match configuration.target with
    | .attach pid | .where pid =>
        if pid.toInt ≤ 0 then some (.invalidPid pid.toInt) else none
    | .launch command => if command.isEmpty then some .emptyCommand else none
    | .current => none

/-- What the run measures. -/
def mode (configuration : Configuration) : Mode :=
  if configuration.memory then .memory
  else match configuration.timeMode with
    | .cpu => .cpu
    | .wall => .wall

/-- Whether the run is to make one dump. -/
def asksForDump (configuration : Configuration) : Bool :=
  configuration.target matches .where _

/-- The output path for a process. -/
def outputPath (configuration : Configuration) (pid : UInt32) : String :=
  Text.replace configuration.output pidPlaceholder (toString pid.toNat)

end Configuration

end StackSampler
