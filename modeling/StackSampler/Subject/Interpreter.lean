import StackSampler.Failure
import StackSampler.LineTable
import StackSampler.Subject.Memory

/-!
# The observed interpreter

The narrow, read-only view of a running interpreter that captures are made from.  Each question
may be answered differently from one moment to the next: the interpreter runs on while it is
observed, so its state is threaded through every question and may be moved by it.
-/

namespace StackSampler

/--
The head of a thread's frame chain.  The generation moves whenever the chain is pushed, popped or
advanced, so two equal snapshots enclose a chain that stood still.
-/
structure ThreadState where
  /-- The innermost frame. -/
  top : Option Address
  generation : UInt64
deriving DecidableEq, Repr, Inhabited

/-- A frame as the interpreter keeps it. -/
structure RawFrame where
  /-- The code unit that runs in the frame. -/
  code : Address
  /-- Byte offset of the last executed instruction. -/
  offset : UInt32
  /-- The frame of the caller. -/
  previous : Option Address
  /-- Whether a fresh entry into the evaluation loop pushed this frame. -/
  isEntry : Bool
  /-- Whether the frame is the interpreter's own and never shows up in a stack. -/
  isShim : Bool
deriving DecidableEq, Repr, Inhabited

/-- A code unit: what it is called, where it stands, and its line table. -/
structure CodeUnit where
  name : String
  qualname : Option String
  file : String
  firstLine : UInt32
  lineTable : List UInt8
deriving DecidableEq, Repr, Inhabited

/-- The name shown for a code unit: the qualified one if there is one. -/
def CodeUnit.display (code : CodeUnit) : String :=
  code.qualname.getD code.name

/-- A task as the interpreter keeps it. -/
structure TaskState where
  /-- Frames of the suspended coroutine chain, outermost first. -/
  coroutine : List Address := []
  /-- The task this one awaits directly, if it awaits a task. -/
  awaiting : Option TaskId := none
  done : Bool := false
  name : Option String := none
  loop : Option LoopId := none
deriving DecidableEq, Repr, Inhabited

/-- A collection of the interpreter whose members are tasks. -/
inductive TaskContainer where
  /-- A set of the tasks themselves. -/
  | tasks (address : Address)
  /-- A set of weak references to the tasks. -/
  | references (address : Address)
deriving DecidableEq, Repr, Inhabited

/-- Where a collection lies. -/
def TaskContainer.address : TaskContainer → Address
  | .tasks address => address
  | .references address => address

/-- A question that a capture may fail at. -/
abbrev CaptureQuery (σ : Type) (α : Type) := ExceptT CaptureError (StateM σ) α

/-- The questions an interpreter answers; `σ` is all that its answers may depend on. -/
structure Interpreter (σ : Type) where
  version : StateM σ InterpreterVersion
  /-- Every thread the interpreter knows, in the order of its list. -/
  threadIds : ReadQuery σ (List ThreadId)
  threadState : ThreadId → CaptureQuery σ ThreadState
  frame : Address → ReadQuery σ RawFrame
  code : Address → ReadQuery σ CodeUnit
  task : TaskId → ReadQuery σ TaskState
  /-- Members of a collection.  Dead references are left out. -/
  members : TaskContainer → ReadQuery σ (List TaskId)
  /-- Whether the interpreter has begun to shut down. -/
  isFinalizing : StateM σ Bool

end StackSampler
