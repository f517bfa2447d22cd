import StackSampler.Stream.Encoder
import StackSampler.Stream.Output

/-!
# Writing a stream

Records arrive in a queue and are written by a thread of their own, so a capture never waits for
the output.  The writer is given here as its steps: between any two of them senders may add
records, and the owner may ask it to stop.  Once it sees that it shall stop it writes what is
queued at that moment and ends.
-/

namespace StackSampler.Stream

/-- What the writing thread does next. -/
inductive WriterPhase where
  /-- Writes the preamble and the header. -/
  | opening
  /-- Looks whether it shall stop. -/
  | checking
  /-- Waits a moment for a record. -/
  | receiving
  /-- Takes what else is queued, at most so many records. -/
  | batch (room : Nat)
  /-- Has seen that it shall stop, and looks how many records are queued. -/
  | closing
  /-- Takes the records that were queued then. -/
  | draining (left : Nat)
  /-- Has ended with the number of records written after the header, or with a failure. -/
  | ended (result : Except WriteError Nat)

/--
The state that a writing thread shares with the senders and its owner.  Records are counted without
a bound, where the profiler counts in a word of 64 bits: no run fills one.
-/
structure Writer where
  header : Header
  /-- Records sent and not yet received, the oldest first. -/
  queue : List Record := []
  /-- Whether the owner has asked the thread to stop. -/
  stopping : Bool := false
  phase : WriterPhase := .opening
  encoder : Encoder := {}
  buffer : Buffered := {}
  /-- Number of records written after the header. -/
  written : Nat := 0

namespace Writer

/-- The most records taken between two looks at the request to stop. -/
def batchSize : Nat := 4096

/-- A writer whose thread has not begun yet. -/
def start (header : Header) (output : Output) : Writer :=
  { header := header, buffer := { output := output } }

/-- Whether the thread has ended. -/
def hasEnded (writer : Writer) : Bool :=
  match writer.phase with
  | .ended _ => true
  | _ => false

/-- Sends records.  Nobody receives them once the thread has ended. -/
def sendAll (writer : Writer) (records : List Record) : Writer :=
  if writer.hasEnded then writer else { writer with queue := writer.queue ++ records }

/-- Sends a record. -/
def send (writer : Writer) (record : Record) : Writer :=
  writer.sendAll [record]

/-- Asks the thread to stop. -/
def stop (writer : Writer) : Writer :=
  { writer with stopping := true }

/-- Goes on with `phase` after a successful write, and ends after a failed one. -/
def proceed (writer : Writer) (phase : WriterPhase) :
    Except WriteError Unit × Buffered → Writer
  | (.ok (), buffer) => { writer with buffer := buffer, phase := phase }
  | (.error error, buffer) => { writer with buffer := buffer, phase := .ended (.error error) }

/-- Encodes a record and writes its items, piece by piece. -/
def writeRecord (writer : Writer) (record : Record) (phase : WriterPhase) : Writer :=
  let (items, encoder) := writer.encoder.items record
  { writer with encoder := encoder, written := writer.written + 1 }.proceed phase
    (writer.buffer.writeAll (items.flatMap Item.pieces))

/-- Hands all that is written to the output. -/
def flush (writer : Writer) (phase : WriterPhase) : Writer :=
  writer.proceed phase writer.buffer.flush

/-- Writes what stands in front of the records. -/
def writeOpening (writer : Writer) : Writer :=
  let (items, encoder) := writer.encoder.items (.header writer.header)
  let opened := { writer with encoder := encoder }.proceed .opening
    (writer.buffer.writeAll (preamblePieces ++ items.flatMap Item.pieces))
  if opened.hasEnded then opened else opened.flush .checking

/-- One step of the writing thread. -/
def work (writer : Writer) : Writer :=
  match writer.phase with
  | .opening => writer.writeOpening
  | .checking => { writer with phase := if writer.stopping then .closing else .receiving }
  | .receiving =>
      match writer.queue with
      | [] => { writer with phase := .checking }
      | record :: rest => { writer with queue := rest }.writeRecord record (.batch batchSize)
  | .batch 0 => writer.flush .checking
  | .batch (room + 1) =>
      match writer.queue with
      | [] => writer.flush .checking
      | record :: rest => { writer with queue := rest }.writeRecord record (.batch room)
  | .closing => { writer with phase := .draining writer.queue.length }
  | .draining 0 => writer.flush (.ended (.ok writer.written))
  | .draining (left + 1) =>
      match writer.queue with
      | [] => writer.flush (.ended (.ok writer.written))
      | record :: rest => { writer with queue := rest }.writeRecord record (.draining left)
  | .ended _ => writer

/-- What may happen to a writer. -/
inductive Event where
  | send (record : Record)
  | stop
  | work
deriving DecidableEq, Repr

/-- The writer after one event. -/
def after (writer : Writer) : Event → Writer
  | .send record => writer.send record
  | .stop => writer.stop
  | .work => writer.work

/-- The writer after several events. -/
def run (writer : Writer) (events : List Event) : Writer :=
  events.foldl after writer

/-- So many steps of the thread. -/
def workFor : Nat → Writer → Writer
  | 0, writer => writer
  | count + 1, writer => workFor count writer.work

/--
Asks the thread to stop and waits until it has ended.  Each queued record takes one step; opening,
looking at the request, flushing a batch and closing take fewer than eight more.
-/
def close (writer : Writer) : Writer :=
  workFor (writer.queue.length + 8) writer.stop

/-- The bytes in the output. -/
def bytes (writer : Writer) : List UInt8 :=
  writer.buffer.output.taken.toList

/-- What closing the stream gives: the number of records written, or the failure. -/
def result (writer : Writer) : Except WriteError Nat :=
  match writer.phase with
  | .ended result => result
  | _ => .ok writer.written

end Writer

end StackSampler.Stream
