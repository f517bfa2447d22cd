import Mathlib.Data.List.Forall2
import Mathlib.Data.List.ReduceOption
import StackSampler.Subject.Structures
import StackSampler.Subject.Tables

/-!
# Interpreters stored in memory

What it means that an image of memory stores the tables of an interpreter at the offsets of a
layout.  Each kind of object has its own relation between the bytes at an address and the entry of a
table: it says where the fields lie and what they hold, and nothing about how they are read.

`Storing.Stores` puts the relations together.  It leaves open what else lies in the image, and where
the objects are that the tables do not name, such as thread states, texts and coroutines.
-/

namespace StackSampler.Storing

open StackSampler.Stream (bytes32 bytes64)

/-! ## Fields -/

/-- A field of the structure at `base` holds these bytes.  Its address is a word. -/
structure Holds (memory : Memory) (base : Address) (field : Offset) (bytes : List UInt8) :
    Prop where
  fits : (WordOperation.place base field).Fits
  read : memory.read (base + field) bytes.length = .ok bytes

/-- A field holds a 64-bit word. -/
def HoldsWord (memory : Memory) (base : Address) (field : Offset) (word : UInt64) : Prop :=
  Holds memory base field (bytes64 word)

/-- A field holds a signed 32-bit number. -/
def HoldsInt32 (memory : Memory) (base : Address) (field : Offset) (number : Int32) : Prop :=
  Holds memory base field (bytes32 number.toUInt32)

/-- A field points to what stands at an address; null stands for nothing. -/
def HoldsPointer (memory : Memory) (base : Address) (field : Offset)
    (target : Option Address) : Prop :=
  HoldsWord memory base field (target.getD 0) ∧ target ≠ some 0

/-- As `HoldsPointer`, for a field that a layout may lack; then there is nothing to point to. -/
inductive HoldsPointer? (memory : Memory) (base : Address) :
    Option Offset → Option Address → Prop where
  | lacking : HoldsPointer? memory base none none
  | stored {field : Offset} {target : Option Address}
      (pointer : HoldsPointer memory base field target) :
      HoldsPointer? memory base (some field) target

/-! ## Texts and bytes -/

/-- An object with a length holds these bytes.  An object without bytes need not have memory for
them. -/
structure HoldsObject (layout : Layout.VarObject) (memory : Memory) (object : Address)
    (bytes : List UInt8) : Prop where
  length : HoldsWord memory object layout.length (UInt64.ofNat bytes.length)
  fits : (WordOperation.place object layout.data).Fits
  data : bytes = [] ∨ Holds memory object layout.data bytes
  small : bytes.length ≤ MemoryReader.copyLimit

/-- A field points to a text. -/
def HoldsText (layout : Layout) (memory : Memory) (base : Address) (field : Offset)
    (text : String) : Prop :=
  ∃ object, HoldsWord memory base field object ∧
    HoldsObject layout.string memory object (Text.utf8 text)

/-- A field that a layout may lack points to a text, or to nothing. -/
inductive HoldsText? (layout : Layout) (memory : Memory) (base : Address) :
    Option Offset → Option String → Prop where
  | lacking : HoldsText? layout memory base none none
  | null {field : Offset} (pointer : HoldsWord memory base field 0) :
      HoldsText? layout memory base (some field) none
  | stored {field : Offset} {object : Address} {text : String} (present : object ≠ 0)
      (pointer : HoldsWord memory base field object)
      (holds : HoldsObject layout.string memory object (Text.utf8 text)) :
      HoldsText? layout memory base (some field) (some text)

/-! ## Frames and code units -/

/--
The instruction field of a frame stands for its offset.  A counter below zero, of a frame that has
not begun, stands for the offset 0; a pointer points behind the start of the bytecode.
-/
def HoldsInstruction (layout : Layout.Instruction) (memory : Memory) (place : Address)
    (frame : RawFrame) : Prop :=
  match layout with
  | .index field unit => ∃ count : Int32, HoldsInt32 memory place field count ∧
      count.toInt.toNat * unit.toNat = frame.offset.toNat
  | .pointer field codeStart => (WordOperation.place frame.code codeStart).Fits ∧
      ∃ pointer : UInt64, HoldsWord memory place field pointer ∧
        pointer.toNat = (frame.code + codeStart).toNat + frame.offset.toNat

/--
A mark stands for `value`.  A layout may lack the field that describes it; then the value is
`default`.
-/
def HoldsMark {ι : Type} (memory : Memory) (place : Address) (field? : Option ι)
    (offset : ι → Offset) (isSet : ι → UInt8 → Bool) (default value : Bool) : Prop :=
  match field? with
  | some field => ∃ mark, Holds memory place (offset field) [mark] ∧ isSet field mark = value
  | none => value = default

/-- A frame is stored at an address. -/
structure HoldsFrame (layout : Layout.Frame) (memory : Memory) (place : Address)
    (frame : RawFrame) : Prop where
  previous : HoldsPointer memory place layout.previous frame.previous
  code : HoldsWord memory place layout.code frame.code
  instruction : HoldsInstruction layout.instruction memory place frame
  isEntry : HoldsMark memory place layout.isEntry id (fun _ mark => mark != 0) true frame.isEntry
  isShim : HoldsMark memory place layout.owner (·.offset)
    (fun owner mark => mark == owner.shimValue) false frame.isShim

/-- A code unit is stored at an address. -/
structure HoldsCode (layout : Layout) (memory : Memory) (place : Address) (code : CodeUnit) :
    Prop where
  name : HoldsText layout memory place layout.code.name code.name
  qualname : HoldsText? layout memory place layout.code.qualname code.qualname
  file : HoldsText layout memory place layout.code.filename code.file
  firstLine : ∃ line, HoldsInt32 memory place layout.code.firstLine line ∧
    line.toInt.toNat = code.firstLine.toNat
  lineTable : ∃ object, HoldsWord memory place layout.code.lineTable object ∧
    HoldsObject layout.bytes memory object code.lineTable

/-! ## Threads -/

/-- The head of a thread's chain is stored in the thread state at `node`. -/
structure HoldsThread (layout : Layout.Thread) (memory : Memory) (node : Address)
    (state : ThreadState) : Prop where
  top : HoldsPointer memory node layout.frame state.top
  generation : ∃ field, layout.generation = some field ∧
    HoldsWord memory node field state.generation

/-- A list of thread states from one address on, which ends with null. -/
inductive ThreadList (layout : Layout.Thread) (memory : Memory) :
    Address → List (ThreadId × ThreadState) → Prop where
  | nil : ThreadList layout memory 0 []
  | cons {node next : Address} {id : ThreadId} {state : ThreadState}
      {others : List (ThreadId × ThreadState)} (present : node ≠ 0)
      (named : HoldsWord memory node layout.threadId id)
      (holds : HoldsThread layout memory node state)
      (linked : HoldsWord memory node layout.next next)
      (behind : ThreadList layout memory next others) :
      ThreadList layout memory node ((id, state) :: others)

/-! ## Tasks -/

/-- The frame of a coroutine: inside it, or what it points to. -/
def HasFrame (layout : Layout.Coroutine) (memory : Memory) (coroutine frame : Address) : Prop :=
  if layout.frameInline then
    (WordOperation.place coroutine layout.frame).Fits ∧ coroutine + layout.frame = frame
  else HoldsWord memory coroutine layout.frame frame

/-- The coroutine that a coroutine awaits, or null. -/
def Awaits (layout : Layout.Coroutine) (memory : Memory) (coroutine next : Address) : Prop :=
  match layout.awaited with
  | some field => HoldsWord memory coroutine field next
  | none => next = 0

/--
The frames of a chain of coroutines, the outermost first.  The chain comes to an end, at null or at a
coroutine that has no frame.
-/
inductive CoroutineChain (layout : Layout.Coroutine) (memory : Memory) :
    Address → List Address → Prop where
  | nil : CoroutineChain layout memory 0 []
  | frameless {coroutine : Address} (present : coroutine ≠ 0)
      (without : HasFrame layout memory coroutine 0) : CoroutineChain layout memory coroutine []
  | cons {coroutine frame next : Address} {frames : List Address} (present : coroutine ≠ 0)
      (has : HasFrame layout memory coroutine frame) (isFrame : frame ≠ 0)
      (awaits : Awaits layout memory coroutine next)
      (behind : CoroutineChain layout memory next frames) :
      CoroutineChain layout memory coroutine (frame :: frames)

/-- A task is stored at an address. -/
structure HoldsTask (layout : Layout) (memory : Memory) (place : TaskId) (task : TaskState) :
    Prop where
  awaiting : HoldsPointer memory place layout.task.awaiting task.awaiting
  state : ∃ state, HoldsInt32 memory place layout.task.state state ∧
    (state != layout.task.pendingState) = task.done
  coroutine : ∃ first, HoldsWord memory place layout.task.coroutine first ∧
    CoroutineChain layout.coroutine memory first task.coroutine
  depth : task.coroutine.length ≤ Structures.coroutineLimit
  name : HoldsText? layout memory place layout.task.name task.name
  loop : HoldsPointer? memory place layout.task.loop task.loop

/-! ## Collections -/

/--
What an entry of a set stands for.  The key of a free entry is null; the reference in the key of an
entry may be dead.
-/
inductive EntryMember (layout : Layout.Container) (memory : Memory) :
    TaskContainer → Address → Option TaskId → Prop where
  | free {container : TaskContainer} : EntryMember layout memory container 0 none
  | task {place : Address} {task : TaskId} (present : task ≠ 0) :
      EntryMember layout memory (.tasks place) task (some task)
  | reference {place reference : Address} {referent : Option TaskId} (present : reference ≠ 0)
      (refers : HoldsPointer memory reference layout.weakrefObject referent) :
      EntryMember layout memory (.references place) reference referent

/-- An entry of a set, as the bytes in its table, stands for a member or for none. -/
structure HoldsEntry (layout : Layout.Container) (memory : Memory) (container : TaskContainer)
    (entry : List UInt8) (member : Option TaskId) : Prop where
  size : entry.length = layout.entrySize.toNat
  key : ∃ key, (entry.drop layout.entryKey.toNat).take 8 = bytes64 key ∧
    EntryMember layout memory container key member

/-- The table of a set: its entries lie one behind the other and stand for `slots`. -/
structure HoldsTable (layout : Layout.Container) (memory : Memory) (container : TaskContainer)
    (table : Address) (entries : List (List UInt8)) (slots : List (Option TaskId)) : Prop where
  mask : HoldsWord memory container.address layout.setMask (UInt64.ofNat (entries.length - 1))
  pointer : HoldsWord memory container.address layout.setTable table
  content : Holds memory table 0 entries.flatten
  slots : List.Forall₂ (HoldsEntry layout memory container) entries slots
  nonempty : 0 < entries.length
  few : entries.length ≤ Structures.slotLimit
  small : entries.length * layout.entrySize.toNat ≤ MemoryReader.copyLimit

/-- A collection of tasks is stored at its address, its members in the order of its table. -/
def HoldsMembers (layout : Layout) (memory : Memory) (container : TaskContainer)
    (members : List TaskId) : Prop :=
  ∃ fields table entries slots, layout.containers = some fields ∧
    HoldsTable fields memory container table entries slots ∧ slots.reduceOption = members

/-! ## Whole interpreters -/

/-- The threads of the tables are stored in the list that begins at the interpreter state. -/
def HoldsThreads (layout : Layout) (memory : Memory) (origin : Address) (tables : Tables) : Prop :=
  ∃ first listed, HoldsWord memory origin layout.interpreter.threadsHead first ∧
    ThreadList layout.thread memory first listed ∧
    listed.length ≤ Structures.threadLimit ∧
    listed.map Prod.fst = tables.order ∧
    ∀ id, tables.threads[id]? = listed.lookup id

/--
An image of memory stores the tables of an interpreter, whose state is at `origin`, at the offsets of
a layout.  Which collections hold tasks and which hold references to tasks is not in the tables.
-/
structure Stores (layout : Layout) (memory : Memory) (origin : Address) (tables : Tables)
    (collections : List TaskContainer) : Prop where
  version : layout.version = tables.version
  threads : HoldsThreads layout memory origin tables
  frames : ∀ place frame, tables.frames[place]? = some frame →
    HoldsFrame layout.frame memory place frame
  codes : ∀ place code, tables.codes[place]? = some code → HoldsCode layout memory place code
  tasks : ∀ place task, tables.tasks[place]? = some task → HoldsTask layout memory place task
  members : ∀ container ∈ collections, ∀ members,
    tables.containers[container.address]? = some members →
    HoldsMembers layout memory container members

end StackSampler.Storing
