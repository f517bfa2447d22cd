import StackSampler.Subject.Interpreter
import StackSampler.Subject.Layout
import StackSampler.Text.Utf8

/-!
# Interpreter structures in memory

An interpreter is observed by reading its structures at the places that its layout gives.  Lists
and chains may be cyclic or cut off in a memory that changes while it is read, so each has a bound.
The addresses of fields and the sizes of tables are computed with checks.
-/

namespace StackSampler

/-- The structures of one interpreter: how memory is read, where fields lie, where to start. -/
structure Structures (σ : Type) where
  memory : MemoryReader σ
  layout : Layout
  /-- The address of the interpreter state. -/
  origin : Address

namespace Structures

open Query (answered computed failed)

variable {σ : Type}

/-- The most threads that are listed. -/
def threadLimit : Nat := 4096

/-- The most frames in a chain of coroutines. -/
def coroutineLimit : Nat := 256

/-- The most slots in the table of a set. -/
def slotLimit : Nat := 1 <<< 16

/-- An address, unless it is null. -/
def present (address : Address) : Option Address :=
  if address = 0 then none else some address

/-- Reads the field at an offset of a structure, once its address is known. -/
def field {α : Type} (read : Address → ReadQuery σ α) (base : Address) (offset : Offset) :
    Query σ ReadFault α := do
  let address ← computed (.place base offset)
  answered (read address)

/-- The data of an object with a length. -/
def objectData (structures : Structures σ) (object : Address) (layout : Layout.VarObject) :
    Query σ ReadFault (List UInt8) := do
  let length ← field structures.memory.word object layout.length
  if length.toInt64 < 0 then failed ⟨object, 0, ReadFault.invalid⟩
  else field (structures.memory.bytes length.toNat) object layout.data

/-- A text object. -/
def text (structures : Structures σ) (object : Address) : Query σ ReadFault String := do
  let data ← structures.objectData object structures.layout.string
  pure (Text.ofUtf8Lenient data)

/-- The text object that a field points to. -/
def textField (structures : Structures σ) (object : Address) (offset : Offset) :
    Query σ ReadFault String := do
  let target ← field structures.memory.word object offset
  structures.text target

/-- What a field points to, if the layout has the field and it is not null. -/
def pointer? (structures : Structures σ) (object : Address) (offset : Option Offset) :
    Query σ ReadFault (Option Address) :=
  match offset with
  | some offset => do
      let target ← field structures.memory.word object offset
      pure (present target)
  | none => pure none

/-- The text object that a field points to, if the layout has the field and it is not null. -/
def text? (structures : Structures σ) (object : Address) (offset : Option Offset) :
    Query σ ReadFault (Option String) := do
  match ← structures.pointer? object offset with
  | some target => some <$> structures.text target
  | none => pure none

/-- The instruction field of a frame as it stands there. -/
def rawInstruction (structures : Structures σ) (frame : Address) : Query σ ReadFault UInt64 :=
  match structures.layout.frame.instruction with
  | .index offset _ => do
      let index ← field structures.memory.int32 frame offset
      pure index.toInt64.toUInt64
  | .pointer offset _ => field structures.memory.word frame offset

/-- Turns the bits of a word to the left, by 21 places. -/
def rotated (word : UInt64) : UInt64 :=
  (word <<< 21) ||| (word >>> 43)

/--
The generation of a thread's frame chain.  A build without a counter gets one from the address and
the instruction of the innermost frame.
-/
def generation (structures : Structures σ) (thread frame : Address) : Query σ ReadFault UInt64 :=
  match structures.layout.thread.generation with
  | some offset => field structures.memory.word thread offset
  | none =>
      if frame = 0 then pure 0
      else do
        let instruction ← structures.rawInstruction frame
        pure (rotated frame ^^^ instruction)

/-- The head of the list of threads. -/
def firstThread (structures : Structures σ) : Query σ ReadFault Address :=
  field structures.memory.word structures.origin structures.layout.interpreter.threadsHead

/-- The threads from one on, of which at most so many are listed. -/
def threadsFrom (structures : Structures σ) : Nat → Address → Query σ ReadFault (List ThreadId)
  | 0, _ => pure []
  | room + 1, current =>
      if current = 0 then pure []
      else do
        let id ← field structures.memory.word current structures.layout.thread.threadId
        let next ← field structures.memory.word current structures.layout.thread.next
        let others ← structures.threadsFrom room next
        pure (id :: others)

/-- The threads of the interpreter. -/
def threadIds (structures : Structures σ) : Query σ ReadFault (List ThreadId) := do
  let first ← structures.firstThread
  structures.threadsFrom threadLimit first

/-- The first thread of an identity from one on, of which at most so many are looked at. -/
def findThread (structures : Structures σ) (id : ThreadId) :
    Nat → Address → Query σ ReadFault (Option ThreadState)
  | 0, _ => pure none
  | room + 1, current =>
      if current = 0 then pure none
      else do
        let found ← field structures.memory.word current structures.layout.thread.threadId
        if found = id then
          let frame ← field structures.memory.word current structures.layout.thread.frame
          let generation ← structures.generation current frame
          pure (some ⟨present frame, generation⟩)
        else
          let next ← field structures.memory.word current structures.layout.thread.next
          structures.findThread id room next

/-- The head of a thread's frame chain. -/
def threadState (structures : Structures σ) (id : ThreadId) : Query σ CaptureError ThreadState := do
  let found ← ExceptT.adapt (Halt.map CaptureError.memory) do
    let first ← structures.firstThread
    structures.findThread id threadLimit first
  match found with
  | some state => pure state
  | none => failed (.unknownThread id)

/--
The byte offset of a frame's last instruction; it stays within the range of 32-bit numbers.  An
instruction before the start of the bytecode has the offset 0.
-/
def instructionOffset (structures : Structures σ) (frame code : Address) :
    Query σ ReadFault UInt32 :=
  match structures.layout.frame.instruction with
  | .index offset unit => do
      let index ← field structures.memory.int32 frame offset
      pure (UInt32.ofNat (min (index.toInt.toNat * unit.toNat) (UInt32.size - 1)))
  | .pointer offset codeStart => do
      let instruction ← field structures.memory.word frame offset
      let start ← computed (.place code codeStart)
      pure (UInt32.ofNat (min (instruction.toNat - start.toNat) (UInt32.size - 1)))

/-- A frame. -/
def frame (structures : Structures σ) (place : Address) : Query σ ReadFault RawFrame := do
  let layout := structures.layout.frame
  let previous ← field structures.memory.word place layout.previous
  let code ← field structures.memory.word place layout.code
  let offset ← structures.instructionOffset place code
  let isEntry ← match layout.isEntry with
    | some offset => do
        let mark ← field structures.memory.byte place offset
        pure (mark != 0)
    | none => pure true
  let isShim ← match layout.owner with
    | some owner => do
        let mark ← field structures.memory.byte place owner.offset
        pure (mark == owner.shimValue)
    | none => pure false
  pure ⟨code, offset, present previous, isEntry, isShim⟩

/-- A code unit. -/
def code (structures : Structures σ) (place : Address) : Query σ ReadFault CodeUnit := do
  let layout := structures.layout.code
  let qualname ← structures.text? place layout.qualname
  let table ← field structures.memory.word place layout.lineTable
  let name ← structures.textField place layout.name
  let file ← structures.textField place layout.filename
  let firstLine ← field structures.memory.int32 place layout.firstLine
  let lineTable ← structures.objectData table structures.layout.bytes
  pure ⟨name, qualname, file, UInt32.ofNat firstLine.toInt.toNat, lineTable⟩

/-- The frame of a coroutine. -/
def coroutineFrame (structures : Structures σ) (coroutine : Address) : Query σ ReadFault Address :=
  let layout := structures.layout.coroutine
  if layout.frameInline then computed (.place coroutine layout.frame)
  else field structures.memory.word coroutine layout.frame

/-- The coroutine that a coroutine awaits, or null. -/
def awaitedCoroutine (structures : Structures σ) (coroutine : Address) :
    Query σ ReadFault Address :=
  match structures.layout.coroutine.awaited with
  | some offset => field structures.memory.word coroutine offset
  | none => pure 0

/--
The frames of a chain of coroutines, of which at most so many are followed.  The chain ends at a
coroutine without a frame and at one that awaits itself.
-/
def coroutineFrames (structures : Structures σ) :
    Nat → Address → Query σ ReadFault (List Address)
  | 0, _ => pure []
  | room + 1, current =>
      if current = 0 then pure []
      else do
        let frame ← structures.coroutineFrame current
        if frame = 0 then pure []
        else
          let next ← structures.awaitedCoroutine current
          if next = current then pure [frame]
          else
            let others ← structures.coroutineFrames room next
            pure (frame :: others)

/-- A task. -/
def task (structures : Structures σ) (place : TaskId) : Query σ ReadFault TaskState := do
  let layout := structures.layout.task
  let awaiting ← field structures.memory.word place layout.awaiting
  let state ← field structures.memory.int32 place layout.state
  let first ← field structures.memory.word place layout.coroutine
  let coroutine ← structures.coroutineFrames coroutineLimit first
  let name ← structures.text? place layout.name
  let loop ← structures.pointer? place layout.loop
  pure ⟨coroutine, present awaiting, state != layout.pendingState, name, loop⟩

/-- The first `count` parts of `size` bytes each. -/
def parts (size : Nat) : Nat → List UInt8 → List (List UInt8)
  | 0, _ => []
  | count + 1, bytes => bytes.take size :: parts size count (bytes.drop size)

/-- The task of one entry of a set: its key, or what the reference in its key refers to. -/
def entryTask (structures : Structures σ) (layout : Layout.Container)
    (container : TaskContainer) (entry : List UInt8) : Query σ ReadFault (Option TaskId) := do
  let keyEnd ← computed (.sum layout.entryKey 8)
  let key := Stream.word64 ((entry.take keyEnd.toNat).drop layout.entryKey.toNat)
  if key = 0 then pure none
  else
    match container with
    | .tasks _ => pure (some key)
    | .references _ => do
        let task ← field structures.memory.word key layout.weakrefObject
        pure (present task)

/-- The tasks of several entries of a set. -/
def entryTasks (structures : Structures σ) (layout : Layout.Container)
    (container : TaskContainer) : List (List UInt8) → Query σ ReadFault (List TaskId)
  | [] => pure []
  | entry :: rest => do
      let task ← structures.entryTask layout container entry
      let others ← structures.entryTasks layout container rest
      pure (task.toList ++ others)

/-- The members of a collection of tasks. -/
def members (structures : Structures σ) (container : TaskContainer) :
    Query σ ReadFault (List TaskId) :=
  let place := container.address
  match structures.layout.containers with
  | none => failed ⟨place, 0, ReadFault.unsupported⟩
  | some layout => do
      let mask ← field structures.memory.word place layout.setMask
      let keyEnd ← computed (.sum layout.entryKey 8)
      if layout.entrySize < keyEnd || slotLimit ≤ mask.toNat then
        failed ⟨place, 0, ReadFault.invalid⟩
      else
        let slots ← computed (.sum mask 1)
        let table ← field structures.memory.word place layout.setTable
        let size ← computed (.product slots layout.entrySize)
        let entries ← answered (structures.memory.bytes size.toNat table)
        let width := layout.entrySize.toNat
        structures.entryTasks layout container (parts width (entries.length / width) entries)

/-- Whether the interpreter has begun to shut down; what cannot be read counts as no. -/
def isFinalizing (structures : Structures σ) : Query σ ReadFault Bool :=
  match structures.layout.interpreter.finalizing with
  | none => pure false
  | some offset => do
      let address ← computed (.place structures.origin offset)
      ExceptT.lift do
        match ← (structures.memory.word address).run with
        | .ok value => pure (value != 0)
        | .error _ => pure false

/-- The fault in place of an answer that there is not, since the thread ended before. -/
def exceeding (operation : WordOperation) : ReadFault :=
  ⟨operation.operand, 0, ReadFault.overflow⟩

/-- Asks a question that may fail at a read. -/
def asked {α : Type} (structures : Structures σ) (query : Query σ ReadFault α) : ReadQuery σ α :=
  query.settled structures.memory.exceed exceeding

/-- The interpreter that the structures belong to. -/
def interpreter (structures : Structures σ) : Interpreter σ where
  version := pure structures.layout.version
  threadIds := structures.asked structures.threadIds
  threadState id :=
    (structures.threadState id).settled structures.memory.exceed (.memory ∘ exceeding)
  frame place := structures.asked (structures.frame place)
  code place := structures.asked (structures.code place)
  task place := structures.asked (structures.task place)
  members container := structures.asked (structures.members container)
  isFinalizing := do
    match ← (structures.asked structures.isFinalizing).run with
    | .ok answer => pure answer
    | .error _ => pure false

end Structures

end StackSampler
