import StackSampler.Failure
import StackSampler.Stack

/-!
# Thread dumps

The text of a one-shot dump: every thread with its stacks, outermost frame first, as a traceback
reads.
-/

namespace StackSampler

/-- What a dump shows of one thread. -/
structure ThreadDump where
  thread : ThreadId
  name : String
  capture : Except CaptureError (List Stack)

namespace Dump

/-- A line of the dump. -/
def line (text : String) : String :=
  text ++ "\n"

/-- The lines of a stack; the frames of a task are indented below its own line. -/
def stackText (stack : Stack) : String :=
  let (title, indent) := match stack.task with
    | some task => (line ("  Task " ++ Text.hexadecimal task.toNat ++ ":"), "    ")
    | none => ("", "  ")
  title ++ String.join (stack.frames.reverse.map fun frame => line (indent ++ frame.display))

/-- The lines of a thread below its title. -/
def stacksText : Except CaptureError (List Stack) → String
  | .error error => line ("  <capture failed: " ++ error.message ++ ">")
  | .ok stackList =>
      if stackList.all (·.frames.isEmpty) then line "  <no frames>"
      else String.join (stackList.map stackText)

/-- The lines of a thread, after an empty one. -/
def threadText (dump : ThreadDump) : String :=
  line "" ++ line ("Thread " ++ Text.hexadecimal dump.thread.toNat ++ " \"" ++ dump.name ++ "\"") ++
    stacksText dump.capture

/-- The dump below its title, which names the dumped program by `owner`. -/
def textFor (owner : String) (dumps : List ThreadDump) : String :=
  line ("Process " ++ owner ++ ": " ++ toString dumps.length ++ " threads") ++
    String.join (dumps.map threadText)

/-- The dump of all threads of a process. -/
def text (pid : UInt32) (dumps : List ThreadDump) : String :=
  textFor (toString pid.toNat) dumps

end Dump

end StackSampler
