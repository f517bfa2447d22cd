/-!
# Line tables

From the offset of an instruction to the source line it belongs to.  The interpreter has shipped
three encodings of its table.  Offsets count bytes; the location table counts code units of two
bytes.  A malformed table yields the line reached after its last complete entry.
-/

namespace StackSampler

/-- The version of an interpreter. -/
structure InterpreterVersion where
  major : UInt8
  minor : UInt8
deriving DecidableEq, Repr, Inhabited

/-- The encodings of the line table. -/
inductive LineFormat where
  /-- Pairs of a byte delta and a signed line delta. -/
  | lnotab
  /-- Pairs of a byte length and a signed line delta, where `-128` stands for no line. -/
  | lineTable
  /-- Entries of a header byte and the location fields that it announces. -/
  | locationTable
deriving DecidableEq, Repr, Inhabited

namespace LineFormat

/-- The encoding an interpreter of a given version uses. -/
def forVersion (version : InterpreterVersion) : LineFormat :=
  if version.major == 3 then
    if 11 ≤ version.minor then .locationTable
    else if version.minor == 10 then .lineTable
    else .lnotab
  else if 3 < version.major then .locationTable
  else .lnotab

/-- The name of an encoding. -/
def name : LineFormat → String
  | .lnotab => "Lnotab"
  | .lineTable => "LineTable"
  | .locationTable => "LocationTable"

end LineFormat

namespace LineTable

/-- The largest offset and line. -/
def limit : Nat := UInt32.size - 1

/-- Adds a length to an offset; the sum stays at the largest offset. -/
def advance (offset length : Nat) : Nat :=
  min (offset + length) limit

/-- The signed value of a byte. -/
def signedByte (byte : UInt8) : Int :=
  if byte < 128 then byte.toNat else (byte.toNat : Int) - 256

/-- The line of `offset` in a table of byte deltas, from line `line` at `address` on. -/
def lnotabLine (offset : Nat) : Nat → Int → List UInt8 → Int
  | address, line, length :: delta :: rest =>
      let next := advance address length.toNat
      if offset < next then line
      else lnotabLine offset next (line + signedByte delta) rest
  | _, line, _ => line

/-- The line of `offset` in a table of byte lengths, from line `line` at `start` on. -/
def rangeLine (offset : Nat) : Nat → Int → List UInt8 → Int
  | start, line, length :: delta :: rest =>
      let moved := if signedByte delta = -128 then line else line + signedByte delta
      let next := advance start length.toNat
      if offset < next then moved
      else rangeLine offset next moved rest
  | _, line, _ => line

/-- A number of at most `groups` more six-bit groups, the lowest first; `shift` is the place of the
next group.  Bit 6 of a byte says that another group follows; places beyond 64 bits are lost. -/
def varintGroups : Nat → Nat → List UInt8 → Option (Nat × List UInt8)
  | 0, _, _ => none
  | _ + 1, _, [] => none
  | groups + 1, shift, byte :: rest =>
      let part := ((byte.toNat % 64) <<< shift) % UInt64.size
      if byte.toNat / 64 % 2 = 1 then
        (varintGroups groups (shift + 6) rest).map fun (value, after) => (part + value, after)
      else some (part, rest)

/-- An unsigned number of at most eleven six-bit groups, and the bytes after it. -/
def varint (bytes : List UInt8) : Option (Nat × List UInt8) :=
  varintGroups 11 0 bytes

/-- A number whose lowest bit is its sign, and the bytes after it. -/
def signedVarint (bytes : List UInt8) : Option (Int × List UInt8) :=
  (varint bytes).map fun (value, rest) =>
    (if value % 2 = 1 then -((value / 2 : Nat) : Int) else ((value / 2 : Nat) : Int), rest)

/-- The bytes after the first `count`, if there are so many. -/
def skip (count : Nat) (bytes : List UInt8) : Option (List UInt8) :=
  if count ≤ bytes.length then some (bytes.drop count) else none

/--
The line delta of a location entry with form `code`, and the bytes after the entry.  Form 15 has no
location, 14 is followed by the line delta and three column fields, 13 by the line delta alone,
10 to 12 carry the delta in the form and two column bytes, all others keep the line and carry one
column byte.
-/
def locationDelta (code : Nat) (bytes : List UInt8) : Option (Int × List UInt8) :=
  if code = 15 then some (0, bytes)
  else if code = 14 then do
    let (delta, rest) ← signedVarint bytes
    let (_, rest) ← varint rest
    let (_, rest) ← varint rest
    let (_, rest) ← varint rest
    some (delta, rest)
  else if code = 13 then signedVarint bytes
  else if 10 ≤ code then (skip 2 bytes).map fun rest => ((code : Int) - 10, rest)
  else (skip 1 bytes).map fun rest => (0, rest)

/-- A line fits a signed word of 64 bits. -/
def IsWord (line : Int) : Prop :=
  Int64.minValue.toInt ≤ line ∧ line ≤ Int64.maxValue.toInt

instance (line : Int) : Decidable (IsWord line) :=
  inferInstanceAs (Decidable (_ ∧ _))

/--
Adds a delta to a line.  The addition is checked: `none` where the exact line does not fit a word,
which ends the thread.
-/
def moveLine (line delta : Int) : Option Int :=
  if IsWord (line + delta) then some (line + delta) else none

/--
The line of code unit `unit` in a location table, from line `line` at unit `start` on.  Each entry
takes at least its header byte, so the table's length bounds the entries.
-/
def locationLine (unit : Nat) : Nat → Nat → Int → List UInt8 → Option Int
  | fuel + 1, start, line, header :: rest =>
      let next := advance start (header.toNat % 8 + 1)
      match locationDelta (header.toNat / 8 % 16) rest with
      | none => some line
      | some (delta, after) =>
          match moveLine line delta with
          | none => none
          | some moved =>
              if unit < next then some moved else locationLine unit fuel next moved after
  | _, _, line, _ => some line

/-- Lines are shown within the range of 32-bit numbers. -/
def clampLine (line : Int) : UInt32 :=
  (min line.toNat limit).toUInt32

/--
The line that a lookup reaches, before it is brought into range.  A pair of the two older encodings
moves the line by a byte, so no table that fits into memory takes it out of a word.
-/
def reachedLine (format : LineFormat) (firstLine : UInt32) (table : List UInt8)
    (offset : UInt32) : Option Int :=
  match format with
  | .lnotab => some (lnotabLine offset.toNat 0 firstLine.toNat table)
  | .lineTable => some (rangeLine offset.toNat 0 firstLine.toNat table)
  | .locationTable => locationLine (offset.toNat / 2) table.length 0 firstLine.toNat table

/--
The source line of the instruction at byte `offset` of a code unit; `none` where the addition of a
delta ends the thread.
-/
def lineAt (format : LineFormat) (firstLine : UInt32) (table : List UInt8) (offset : UInt32) :
    Option UInt32 :=
  (reachedLine format firstLine table offset).map clampLine

end LineTable

end StackSampler
