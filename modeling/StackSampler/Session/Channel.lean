import StackSampler.Session.Delivery

/-!
# Channels

What a dump is delivered to: a file, or a named pipe with a reader.  A pipe holds only so many
bytes that have not been read.
-/

namespace StackSampler

/-- A named pipe, seen from its reading end. -/
structure Pipe where
  /-- Bytes written and not yet read. -/
  content : List UInt8 := []
  /-- Whether somebody has opened the pipe for reading. -/
  hasReader : Bool := false

/-- Where a dump goes. -/
inductive Channel where
  | file (content : List UInt8)
  /-- There is nothing at the channel's path. -/
  | missing
  | pipe (pipe : Pipe)

namespace Pipe

/-- The most bytes that a pipe holds. -/
def capacity : Nat := 1 <<< 16

/-- Answers an attempt to write, and takes what there is room for. -/
def write (pipe : Pipe) (bytes : List UInt8) : WriteAnswer × Pipe :=
  if !pipe.hasReader then (.failed "Broken pipe (os error 32)", pipe)
  else
    let room := capacity - pipe.content.length
    if room = 0 then (.wouldBlock, pipe)
    else (.took (min room bytes.length), { pipe with content := pipe.content ++ bytes.take room })

end Pipe

namespace Channel

/-- Answers an attempt to open the channel for writing. -/
def openForWriting : Channel → OpenAnswer
  | .file _ => .opened
  | .missing => .failed "No such file or directory (os error 2)"
  | .pipe inner => if inner.hasReader then .opened else .noReader

/-- Answers an attempt to write, and takes what there is room for. -/
def write (channel : Channel) (bytes : List UInt8) : WriteAnswer × Channel :=
  match channel with
  | .file content => (.took bytes.length, .file (content ++ bytes))
  | .missing => (.failed "Bad file descriptor (os error 9)", .missing)
  | .pipe inner =>
      let (answer, inner) := inner.write bytes
      (answer, .pipe inner)

/-- Opens the channel for reading, if it is a pipe. -/
def openForReading : Channel → Channel
  | .pipe inner => .pipe { inner with hasReader := true }
  | channel => channel

/-- Reads all that has been written so far; a file keeps it. -/
def takeAll : Channel → List UInt8 × Channel
  | .file content => (content, .file content)
  | .missing => ([], .missing)
  | .pipe inner => (inner.content, .pipe { inner with content := [] })

end Channel

namespace Delivery

/-- One step of a delivery to a channel; a delivery that has to wait sees `wait`. -/
def stepTo (wait : WaitAnswer) (delivery : Delivery) (channel : Channel) : Delivery × Channel :=
  match delivery.phase with
  | .opening => (delivery.step (.open channel.openForWriting), channel)
  | .writing =>
      let (answer, channel) := channel.write delivery.remaining
      (delivery.step (.write answer), channel)
  | .waitingToOpen => (delivery.step (.wait wait), channel)
  | .waitingToWrite => (delivery.step (.wait wait), channel)
  | .ended _ => (delivery, channel)

/-- So many steps of a delivery. -/
def stepsTo (wait : WaitAnswer) : Nat → Delivery → Channel → Delivery × Channel
  | 0, delivery, channel => (delivery, channel)
  | count + 1, delivery, channel =>
      let (delivery, channel) := stepTo wait delivery channel
      stepsTo wait count delivery channel

/-- Goes on until nothing moves any more without a reader. -/
def progress (delivery : Delivery) (channel : Channel) : Delivery × Channel :=
  stepsTo .waited 6 delivery channel

/-- Asks the delivery to stop, and waits for its end. -/
def stop (delivery : Delivery) (channel : Channel) : Delivery × Channel :=
  stepsTo .stopped 6 delivery channel

/-- Reads a channel to its end while the dump is delivered to it. -/
def readRounds : Nat → Delivery → Channel → List UInt8 × Delivery × Channel
  | 0, delivery, channel => ([], delivery, channel)
  | rounds + 1, delivery, channel =>
      let (delivery, channel) := delivery.progress channel
      let (bytes, channel) := channel.takeAll
      if bytes.isEmpty then ([], delivery, channel)
      else
        let (more, delivery, channel) := readRounds rounds delivery channel
        (bytes ++ more, delivery, channel)

/--
Reads a pipe to its end.  The first round takes what is in it, and each further one at least one
byte that was left to write.
-/
def readToEnd (delivery : Delivery) (channel : Channel) : List UInt8 × Delivery × Channel :=
  readRounds (delivery.remaining.length + 2) delivery channel

end Delivery

end StackSampler
