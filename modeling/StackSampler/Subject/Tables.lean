import Std.Data.ExtTreeMap
import Std.Data.ExtTreeSet
import StackSampler.Subject.Interpreter

/-!
# Interpreters in tables

An interpreter given by the tables of its threads, frames, code units, tasks and collections.  It
answers from these tables directly, and can be changed step by step.
-/

namespace StackSampler

/-- The tables of an interpreter. -/
structure Tables where
  version : InterpreterVersion := ⟨3, 11⟩
  /-- The threads, in the order in which they appeared. -/
  order : List ThreadId := []
  threads : Std.ExtTreeMap ThreadId ThreadState := ∅
  frames : Std.ExtTreeMap Address RawFrame := ∅
  codes : Std.ExtTreeMap Address CodeUnit := ∅
  tasks : Std.ExtTreeMap TaskId TaskState := ∅
  containers : Std.ExtTreeMap Address (List TaskId) := ∅
  /-- Threads whose chain moves whenever it is looked at. -/
  restless : Std.ExtTreeSet ThreadId := ∅
  /-- Whether threads can be listed. -/
  listable : Bool := true
  finalizing : Bool := false

instance : Inhabited Tables := ⟨{}⟩

namespace Tables

/-- What stands at an address, or a fault that names the address. -/
def entry {α : Type} (address : Address) : Option α → Except ReadFault α
  | some value => .ok value
  | none => .error ⟨address, 0, ReadFault.badAddress⟩

/-- The threads, if they can be listed. -/
def threadIds (tables : Tables) : Except ReadFault (List ThreadId) :=
  if tables.listable then .ok tables.order else .error ⟨0, 0, ReadFault.badAddress⟩

/-- Moves the chain of a restless thread. -/
def stir (tables : Tables) (thread : ThreadId) : Tables :=
  if tables.restless.contains thread then
    { tables with
      threads := tables.threads.modify thread fun state =>
        { state with generation := state.generation + 1 } }
  else tables

/-- The head of a thread's chain. -/
def threadState (tables : Tables) (thread : ThreadId) : Except CaptureError ThreadState :=
  match tables.threads[thread]? with
  | some state => .ok state
  | none => .error (.unknownThread thread)

/-- The interpreter of tables that lie somewhere in `σ`. -/
def interpreterAt {σ : Type} (tables : σ → Tables) (update : (Tables → Tables) → σ → σ) :
    Interpreter σ where
  version := return (tables (← get)).version
  threadIds := do
    let now := tables (← get)
    liftM now.threadIds
  threadState thread := do
    modify (update fun now => now.stir thread)
    let now := tables (← get)
    liftM (now.threadState thread)
  frame place := do
    let now := tables (← get)
    liftM (entry place now.frames[place]?)
  code place := do
    let now := tables (← get)
    liftM (entry place now.codes[place]?)
  task place := do
    let now := tables (← get)
    liftM (entry place now.tasks[place]?)
  members container := do
    let now := tables (← get)
    liftM (entry container.address now.containers[container.address]?)
  isFinalizing := return (tables (← get)).finalizing

/-- The interpreter of its tables alone. -/
def interpreter : Interpreter Tables :=
  interpreterAt id id

/-! ### Changing the tables -/

/-- Puts a code unit at an address. -/
def putCode (tables : Tables) (place : Address) (code : CodeUnit) : Tables :=
  { tables with codes := tables.codes.insert place code }

/-- Puts a frame at an address. -/
def putFrame (tables : Tables) (place : Address) (frame : RawFrame) : Tables :=
  { tables with frames := tables.frames.insert place frame }

/-- Puts a task at an address. -/
def putTask (tables : Tables) (place : TaskId) (task : TaskState) : Tables :=
  { tables with tasks := tables.tasks.insert place task }

/-- Puts a collection of tasks at an address. -/
def putContainer (tables : Tables) (place : Address) (members : List TaskId) : Tables :=
  { tables with containers := tables.containers.insert place members }

/--
Sets the head of a thread's chain.  Unless another generation is given, a new thread starts at 0 and
a known one moves on by 1.
-/
def putThread (tables : Tables) (thread : ThreadId) (top : Option Address)
    (generation : Option UInt64) : Tables :=
  let following : UInt64 := match tables.threads[thread]? with
    | some state => state.generation + 1
    | none => 0
  { tables with
    order := if tables.threads.contains thread then tables.order else tables.order ++ [thread]
    threads := tables.threads.insert thread ⟨top, generation.getD following⟩ }

/-- A function as it is put into the tables: its name, its file and its line. -/
structure Function where
  name : String
  file : String
  line : UInt32

/-- The code unit of a function, which has the same line everywhere. -/
def Function.code (function : Function) : CodeUnit :=
  ⟨function.name, none, function.file, function.line, []⟩

/--
Puts the frames of functions from `place` on, the outermost first, each with its code unit beside
it, and gives the tables and the innermost frame.
-/
def putChain (tables : Tables) (place : Address) (previous : Option Address) :
    List Function → Tables × Option Address
  | [] => (tables, previous)
  | function :: rest =>
      let code := place + 0x10
      let frame : RawFrame := ⟨code, 0, previous, previous.isNone, false⟩
      ((tables.putCode code function.code).putFrame place frame).putChain (place + 0x20)
        (some place) rest

/-- Puts a stack, and makes it the stack of a thread if one is given. -/
def putStack (tables : Tables) (place : Address) (functions : List Function)
    (thread : Option ThreadId) : Tables :=
  let (tables, top) := tables.putChain place none functions
  match thread with
  | some thread => tables.putThread thread top none
  | none => tables

/-- Puts the frames of a coroutine chain, which are not linked to each other. -/
def putCoroutine (tables : Tables) (place : Address) : List Function → Tables
  | [] => tables
  | function :: rest =>
      let (tables, _) := tables.putChain place none [function]
      tables.putCoroutine (place + 0x20) rest

/-- Puts `count` more frames of one code unit behind `previous`, from number `index` on. -/
def putRecursion (tables : Tables) (place code : Address) (previous : Option Address)
    (index : Nat) : Nat → Tables × Option Address
  | 0 => (tables, previous)
  | count + 1 =>
      let frame : RawFrame := ⟨code, UInt32.ofNat index, previous, previous.isNone, false⟩
      (tables.putFrame place frame).putRecursion (place + 0x10) code (some place) (index + 1) count

/-- Makes a recursion of `count` frames of one function the stack of a thread. -/
def putDeepStack (tables : Tables) (place : Address) (name : String) (count : Nat)
    (thread : ThreadId) : Tables :=
  let function : Function := ⟨name, "deep.py", 1⟩
  let (tables, top) :=
    (tables.putCode place function.code).putRecursion (place + 0x10) place none 0 count
  tables.putThread thread top none

/-- Takes a thread out. -/
def dropThread (tables : Tables) (thread : ThreadId) : Tables :=
  { tables with
    order := tables.order.filter (· != thread)
    threads := tables.threads.erase thread }

/-- Takes a frame out. -/
def dropFrame (tables : Tables) (place : Address) : Tables :=
  { tables with frames := tables.frames.erase place }

/-- Takes a code unit out. -/
def dropCode (tables : Tables) (place : Address) : Tables :=
  { tables with codes := tables.codes.erase place }

/-- Takes a task out. -/
def dropTask (tables : Tables) (place : TaskId) : Tables :=
  { tables with tasks := tables.tasks.erase place }

/-- Takes a collection out. -/
def dropContainer (tables : Tables) (place : Address) : Tables :=
  { tables with containers := tables.containers.erase place }

/-- Makes a thread restless, or lets it rest. -/
def setRestless (tables : Tables) (thread : ThreadId) (restless : Bool) : Tables :=
  { tables with
    restless := if restless then tables.restless.insert thread
      else tables.restless.erase thread }

end Tables

end StackSampler
