import StackSampler.Stream.Item

/-!
# Where a stream is read from

A reader asks its source for an exact number of bytes, or for one byte unless the stream has ended.
Two sources are given: a list of bytes held in memory, and a device that delivers its bytes in
pieces, may interrupt a read, and may fail.
-/

namespace StackSampler.Stream

/-- What is wrong with the bytes of a stream. -/
inductive Malformed where
  | notAStream
  | unsupportedVersion (version : UInt32)
  | unknownCode (code : UInt8)
  | unknownMode
  | notUtf8
  | undefinedText (number : UInt32)
  | undefinedFrame (number : UInt32)
  | unknownFrameKind
  | unknownMetric (tag : UInt8)
deriving DecidableEq, Repr

/-- The sentence that reports malformed bytes. -/
def Malformed.message : Malformed → String
  | .notAStream => "not a sample stream"
  | .unsupportedVersion version => "unsupported stream version " ++ toString version.toNat
  | .unknownCode code => "unknown wire code " ++ toString code.toNat
  | .unknownMode => "unknown mode"
  | .notUtf8 => "string is not utf-8"
  | .undefinedText number => "undefined string " ++ toString number.toNat
  | .undefinedFrame number => "undefined frame " ++ toString number.toNat
  | .unknownFrameKind => "unknown frame kind"
  | .unknownMetric tag => "unknown metric tag " ++ toString tag.toNat

/-- Why a stream could not be read on. -/
inductive StreamError where
  /-- The bytes end inside an item. -/
  | unexpectedEnd
  /-- The device failed. -/
  | device
  | malformed (cause : Malformed)
deriving DecidableEq, Repr

/-- The sentence that reports an error of a stream. -/
def StreamError.message : StreamError → String
  | .unexpectedEnd => "failed to fill whole buffer"
  | .device => "device failed"
  | .malformed cause => cause.message

/-- How bytes are taken from a source whose state is of type `σ`. -/
structure Source (σ : Type) where
  /-- Takes exactly so many bytes. -/
  exactly : Nat → σ → Except StreamError (List UInt8) × σ
  /-- Takes one byte; `none` at the end of the stream. -/
  next : σ → Except StreamError (Option UInt8) × σ
  /-- No more bytes than these can be taken. -/
  left : σ → Nat

/-- Bytes in memory.  Asking for more than there are takes all that are left. -/
def Source.memory : Source (List UInt8) where
  exactly count bytes :=
    let taken := bytes.take count
    if taken.length = count then (.ok taken, bytes.drop count) else (.error .unexpectedEnd, [])
  next
    | [] => (.ok none, [])
    | byte :: rest => (.ok (some byte), rest)
  left := List.length

/-- What a device does next when it is read. -/
inductive Delivery where
  /-- Hands over these bytes, as far as they are wanted. -/
  | piece (bytes : List UInt8)
  /-- Interrupts one read, which has to be repeated. -/
  | interruption
  /-- Fails every read from here on. -/
  | failure
deriving DecidableEq, Repr

/-- A device, by what it does until its bytes end. -/
abbrev Device := List Delivery

namespace Device

/-- Takes exactly `count` bytes, repeating interrupted reads. -/
def exactly : Nat → Device → Except StreamError (List UInt8) × Device
  | 0, device => (.ok [], device)
  | _ + 1, [] => (.error .unexpectedEnd, [])
  | count + 1, .interruption :: rest => exactly (count + 1) rest
  | _ + 1, .failure :: rest => (.error .device, .failure :: rest)
  | count + 1, .piece bytes :: rest =>
      let taken := bytes.take (count + 1)
      if taken.length = count + 1 then
        (.ok taken, .piece (bytes.drop (count + 1)) :: rest)
      else
        match exactly (count + 1 - bytes.length) rest with
        | (.ok more, after) => (.ok (bytes ++ more), after)
        | (.error error, after) => (.error error, after)
termination_by _ device => device.length

/-- Takes one byte; `none` at the end. -/
def next : Device → Except StreamError (Option UInt8) × Device
  | [] => (.ok none, [])
  | .interruption :: rest => next rest
  | .failure :: rest => (.error .device, .failure :: rest)
  | .piece [] :: rest => next rest
  | .piece [byte] :: rest => (.ok (some byte), rest)
  | .piece (byte :: more) :: rest => (.ok (some byte), .piece more :: rest)

/-- The number of bytes a device still holds. -/
def left : Device → Nat
  | [] => 0
  | .piece bytes :: rest => bytes.length + left rest
  | _ :: rest => left rest

/-- `bytes` in pieces of at most `size` bytes. -/
def pieces (size : Nat) (bytes : List UInt8) : Device :=
  if h : bytes = [] then []
  else .piece (bytes.take (size + 1)) :: pieces size (bytes.drop (size + 1))
termination_by bytes.length
decreasing_by
  have := List.length_pos_iff.mpr h
  simp only [List.length_drop]
  omega

/--
A device that delivers `bytes` in pieces of at most `size + 1` bytes, interrupts a read at each of
the given positions, and fails at position `failAt`.
-/
def ofBytes (size : Nat) (interruptions : List Nat) (failAt : Option Nat) (bytes : List UInt8) :
    Device :=
  let readable := match failAt with
    | some position => bytes.take position
    | none => bytes
  let ending := match failAt with
    | some position => if position ≤ bytes.length then [Delivery.failure] else []
    | none => []
  let cuts := (interruptions.filter (· ≤ readable.length)).mergeSort
  let (device, rest, _) := cuts.foldl
    (fun (device, rest, position) cut =>
      (device ++ pieces size (rest.take (cut - position)) ++ [Delivery.interruption],
        rest.drop (cut - position), max cut position))
    (([] : Device), readable, 0)
  device ++ pieces size rest ++ ending

end Device

/-- A device as a source. -/
def Source.device : Source Device where
  exactly := Device.exactly
  next := Device.next
  left := Device.left

end StackSampler.Stream
