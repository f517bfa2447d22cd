import StackSampler.Identity
import StackSampler.LineTable

/-!
# Layouts

Where a particular build of the interpreter keeps what the profiler reads: the offsets of the
fields of its structures.  Whoever starts a session knows the build and supplies its layout.
-/

namespace StackSampler

/-- The distance of a field from the start of its structure, in bytes. -/
abbrev Offset := UInt64

namespace Layout

/-- Fields of the interpreter state. -/
structure Interpreter where
  /-- Head of the list of thread states. -/
  threadsHead : Offset
  /-- Set once the interpreter shuts down. -/
  finalizing : Option Offset
deriving DecidableEq, Repr

/-- Fields of a thread state. -/
structure Thread where
  next : Offset
  threadId : Offset
  /-- The innermost frame. -/
  frame : Offset
  /-- A counter that moves with every change of the frame chain, when the build has one. -/
  generation : Option Offset
deriving DecidableEq, Repr

/-- How a frame records its last instruction. -/
inductive Instruction where
  /-- A counter of units of `unit` bytes. -/
  | index (offset : Offset) (unit : UInt32)
  /-- A pointer into the bytecode, which starts `codeStart` bytes into the code unit. -/
  | pointer (offset codeStart : Offset)
deriving DecidableEq, Repr

/-- The field that tells the interpreter's own frames from the program's. -/
structure Owner where
  offset : Offset
  /-- The value of the interpreter's own frames. -/
  shimValue : UInt8
deriving DecidableEq, Repr

/-- Fields of a frame. -/
structure Frame where
  previous : Offset
  code : Offset
  instruction : Instruction
  /-- Marks frames pushed by a fresh entry into the evaluation loop; without it all are. -/
  isEntry : Option Offset
  owner : Option Owner
deriving DecidableEq, Repr

/-- Fields of a code unit. -/
structure Code where
  name : Offset
  qualname : Option Offset
  filename : Offset
  firstLine : Offset
  lineTable : Offset
deriving DecidableEq, Repr

/-- Fields of an object with a length and inline data. -/
structure VarObject where
  length : Offset
  data : Offset
deriving DecidableEq, Repr

/-- Fields of a task. -/
structure Task where
  coroutine : Offset
  /-- The future the task is blocked on. -/
  awaiting : Offset
  state : Offset
  /-- The state of a task that is not done. -/
  pendingState : Int32
  name : Option Offset
  /-- The loop the task was created on. -/
  loop : Option Offset
deriving DecidableEq, Repr

/-- Fields of a coroutine. -/
structure Coroutine where
  frame : Offset
  /-- Whether the frame lies inside the coroutine rather than being pointed to. -/
  frameInline : Bool
  /-- The coroutine this one awaits. -/
  awaited : Option Offset
deriving DecidableEq, Repr

/-- Fields of the hash sets that hold tasks. -/
structure Container where
  /-- Points to the table of entries. -/
  setTable : Offset
  /-- One less than the number of entries. -/
  setMask : Offset
  entrySize : UInt64
  entryKey : Offset
  /-- The referent of a weak reference. -/
  weakrefObject : Offset
deriving DecidableEq, Repr

end Layout

/-- The layout of one build of the interpreter. -/
structure Layout where
  version : InterpreterVersion
  interpreter : Layout.Interpreter
  thread : Layout.Thread
  frame : Layout.Frame
  code : Layout.Code
  string : Layout.VarObject
  bytes : Layout.VarObject
  task : Layout.Task
  coroutine : Layout.Coroutine
  containers : Option Layout.Container
deriving DecidableEq, Repr

end StackSampler
