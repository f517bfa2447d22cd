/-!
# Outputs

Bytes go to an output through a buffer.  An output may be bounded: it refuses a piece that does
not fit as a whole.
-/

namespace StackSampler.Stream

/-- Why a write failed. -/
inductive WriteError where
  | full
deriving DecidableEq, Repr

/-- The sentence that reports a failed write. -/
def WriteError.message : WriteError → String
  | .full => "disk full"

/-- Something that takes bytes, possibly not more than a given number. -/
structure Output where
  taken : Array UInt8 := #[]
  limit : Option Nat := none
deriving Inhabited

namespace Output

/-- Whether so many more bytes fit. -/
def hasRoomFor (output : Output) (count : Nat) : Bool :=
  match output.limit with
  | none => true
  | some limit => output.taken.size + count ≤ limit

/-- Takes a piece, or refuses it as a whole. -/
def write (output : Output) (piece : List UInt8) : Except WriteError Output :=
  if output.hasRoomFor piece.length then .ok { output with taken := output.taken ++ piece }
  else .error .full

end Output

/-- An output behind a buffer. -/
structure Buffered where
  output : Output := {}
  /-- Bytes that the output has not been given yet. -/
  pending : Array UInt8 := #[]
deriving Inhabited

namespace Buffered

/-- The size of a buffer. -/
def capacity : Nat := 8192

/-- Hands what is pending to the output.  What the output refuses stays pending. -/
def flush (buffered : Buffered) : Except WriteError Unit × Buffered :=
  if buffered.pending.isEmpty then (.ok (), buffered)
  else
    match buffered.output.write buffered.pending.toList with
    | .ok output => (.ok (), ⟨output, #[]⟩)
    | .error error => (.error error, buffered)

/-- Puts a piece behind what is pending; one as large as the buffer goes to the output at once. -/
def put (buffered : Buffered) (piece : List UInt8) : Except WriteError Unit × Buffered :=
  if piece.length < capacity then
    (.ok (), { buffered with pending := buffered.pending ++ piece })
  else
    match buffered.output.write piece with
    | .ok output => (.ok (), { buffered with output := output })
    | .error error => (.error error, buffered)

/-- Writes a piece, after what is pending if both do not fit into the buffer. -/
def write (buffered : Buffered) (piece : List UInt8) : Except WriteError Unit × Buffered :=
  if piece.length ≤ capacity - buffered.pending.size then buffered.put piece
  else
    match buffered.flush with
    | (.ok (), flushed) => flushed.put piece
    | (.error error, after) => (.error error, after)

/-- Writes several pieces in turn, up to the first failure. -/
def writeAll (buffered : Buffered) : List (List UInt8) → Except WriteError Unit × Buffered
  | [] => (.ok (), buffered)
  | piece :: rest =>
      match buffered.write piece with
      | (.ok (), after) => after.writeAll rest
      | (.error error, after) => (.error error, after)

end Buffered

end StackSampler.Stream
