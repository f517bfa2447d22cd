import StackSampler.Failure
import StackSampler.Frame

/-!
# Records

What a profile consists of: a header, the names of threads, samples with their cost, and markers
where a sample could not be captured.
-/

namespace StackSampler

/-- What a profile measures. -/
inductive Mode where
  | wall
  | cpu
  | memory
deriving DecidableEq, Repr, Inhabited

namespace Mode

/-- The code of a mode in a sample stream. -/
def code : Mode → UInt8
  | .wall => 0
  | .cpu => 1
  | .memory => 2

/-- The mode with a given code. -/
def ofCode? : UInt8 → Option Mode
  | 0 => some .wall
  | 1 => some .cpu
  | 2 => some .memory
  | _ => none

@[simp]
theorem ofCode?_code (mode : Mode) : ofCode? mode.code = some mode := by
  cases mode <;> rfl

/-- The word for a mode. -/
def name : Mode → String
  | .wall => "wall"
  | .cpu => "cpu"
  | .memory => "memory"

end Mode

/-- The first record of a profile. -/
structure Header where
  mode : Mode
  /-- The sampling interval in microseconds. -/
  interval : UInt64
  pid : UInt32
  /-- Start of the profile in nanoseconds since the epoch. -/
  startTime : UInt64
deriving DecidableEq, Repr, Inhabited

/-- The cost attributed to one sample. -/
inductive Metric where
  /-- Wall-clock microseconds since the thread's previous sample. -/
  | wallTime (micros : UInt64)
  /-- Processor microseconds consumed since the thread's previous sample. -/
  | cpuTime (micros : UInt64)
  | allocation (address size : UInt64)
  | free (address size : UInt64)
deriving DecidableEq, Repr, Inhabited

/-- One captured stack, innermost frame first. -/
structure Sample where
  thread : ThreadId
  task : Option TaskId
  metric : Metric
  frames : List Frame
deriving DecidableEq, Repr, Inhabited

/-- Stands in for a sample that could not be captured. -/
structure Marker where
  thread : ThreadId
  reason : FailureReason
deriving DecidableEq, Repr, Inhabited

/-- One record of a profile. -/
inductive Record where
  | header (header : Header)
  | threadName (thread : ThreadId) (name : String)
  | sample (sample : Sample)
  | marker (marker : Marker)
deriving DecidableEq, Repr, Inhabited

/-- The marker for a failed capture of a thread. -/
def Marker.ofError (thread : ThreadId) (error : CaptureError) : Marker :=
  ⟨thread, FailureReason.ofError error⟩

end StackSampler
