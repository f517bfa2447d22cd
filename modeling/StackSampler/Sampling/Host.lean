import StackSampler.Greenlet.Table
import StackSampler.Subject.Interpreter
import StackSampler.Task.Graph
import StackSampler.Thread.Registry

/-!
# Hosts

The program that is sampled: its interpreter, and what the system tells about its threads.  Beside
it stands the population, all that the host has reported and that captures have found out about
threads, tasks and greenlets.
-/

namespace StackSampler

/-- What comes of asking a thread for its native stack and holding it. -/
inductive NativeAnswer where
  /-- The request could not be sent. -/
  | refused (errno : Int)
  /-- The thread did not answer in time. -/
  | silent
  /-- The thread answered, but went on before it was let go. -/
  | lost
  /-- The thread answered with its instruction pointers and was held until it was let go. -/
  | held (pointers : List Address)
deriving DecidableEq, Repr

/-- The program that is sampled; `σ` is all that its answers may depend on. -/
structure Host (σ : Type) where
  interpreter : Interpreter σ
  /-- The processor time that a thread has used, if its clock can be read. -/
  cpuClock : ThreadId → StateM σ (Option Nanoseconds)
  nativeStack : ThreadId → StateM σ NativeAnswer
  /-- The native function at an instruction pointer, if it is known. -/
  symbol? : Address → Option Frame

/-- All that is known of threads, tasks and greenlets. -/
structure Population where
  threads : ThreadRegistry := ∅
  tasks : TaskGraph := {}
  greenlets : GreenletTable := {}

instance : Inhabited Population := ⟨{}⟩

end StackSampler
