import StackSampler.Stream.Word
import StackSampler.Subject.Arithmetic

/-!
# Observed memory

The interpreter's structures are read from memory without trusting it: every read may fail, and an
object whose recorded size is implausible is refused before anything is copied.
-/

namespace StackSampler

/-- A question that observed memory may fail to answer; `σ` is all that answers depend on. -/
abbrev ReadQuery (σ : Type) (α : Type) := ExceptT ReadFault (StateM σ) α

/-- How memory is read. -/
structure MemoryReader (σ : Type) where
  /-- So many bytes at an address. -/
  read : (address : Address) → (count : Nat) → ReadQuery σ (List UInt8)
  /-- What becomes of the state when an address or a size exceeds a word, which ends the thread. -/
  exceed : WordOperation → StateM σ Unit

namespace MemoryReader

variable {σ : Type}

/-- The most bytes that are copied at once. -/
def copyLimit : Nat := 1 <<< 20

/-- A byte. -/
def byte (reader : MemoryReader σ) (address : Address) : ReadQuery σ UInt8 := do
  let bytes ← reader.read address 1
  pure (bytes.headD 0)

/-- A signed 32-bit number. -/
def int32 (reader : MemoryReader σ) (address : Address) : ReadQuery σ Int32 := do
  let bytes ← reader.read address 4
  pure (Stream.word32 bytes).toInt32

/-- A 64-bit word: a number, a size or an address. -/
def word (reader : MemoryReader σ) (address : Address) : ReadQuery σ UInt64 := do
  let bytes ← reader.read address 8
  pure (Stream.word64 bytes)

/-- So many bytes, unless they are more than are copied at once.  No bytes need no read. -/
def bytes (reader : MemoryReader σ) (count : Nat) (address : Address) :
    ReadQuery σ (List UInt8) :=
  if copyLimit < count then throw ⟨address, count, ReadFault.tooBig⟩
  else if count = 0 then pure []
  else reader.read address count

end MemoryReader

/-- A stretch of memory that can be read. -/
structure Segment where
  start : Nat
  content : Array UInt8

namespace Segment

/-- Whether a range lies inside the segment. -/
def covers (segment : Segment) (address count : Nat) : Bool :=
  segment.start ≤ address && address + count ≤ segment.start + segment.content.size

/-- The bytes of a range of the segment. -/
def slice (segment : Segment) (address count : Nat) : List UInt8 :=
  (segment.content.extract (address - segment.start) (address - segment.start + count)).toList

/-- Puts bytes into the segment, from an index on. -/
def put (content : Array UInt8) (index : Nat) : List UInt8 → Array UInt8
  | [] => content
  | byte :: rest => put (content.setIfInBounds index byte) (index + 1) rest

/-- Overwrites a range of the segment. -/
def write (segment : Segment) (address : Nat) (bytes : List UInt8) : Segment :=
  { segment with content := put segment.content (address - segment.start) bytes }

end Segment

/-- An image of memory: the stretches that can be read. -/
abbrev Memory := List Segment

namespace Memory

/-- So many bytes at an address.  They have to lie inside one segment. -/
def read (memory : Memory) (address : Address) (count : Nat) : Except ReadFault (List UInt8) :=
  match memory.find? (·.covers address.toNat count) with
  | some segment => .ok (segment.slice address.toNat count)
  | none => .error ⟨address, count, ReadFault.badAddress⟩

/-- The image with bytes overwritten in the first segment that they lie in. -/
def write (address : Address) (bytes : List UInt8) : Memory → Memory
  | [] => []
  | segment :: rest =>
      if segment.covers address.toNat bytes.length then
        segment.write address.toNat bytes :: rest
      else segment :: write address bytes rest

/-- Reads an image that lies somewhere in `σ`. -/
def reader {σ : Type} (image : σ → Memory) (exceed : WordOperation → StateM σ Unit) :
    MemoryReader σ where
  read address count := do
    let memory := image (← get)
    liftM (memory.read address count)
  exceed := exceed

end Memory

end StackSampler
