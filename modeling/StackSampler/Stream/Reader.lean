import Std.Data.ExtTreeMap
import StackSampler.Stream.Source

/-!
# Reading a stream

The reader turns items back into records.  It keeps the definitions read so far, the latest one for
each number; a frame keeps the texts that its numbers stood for when it was defined.  A definition
that is cut off or malformed adds nothing.
-/

namespace StackSampler.Stream

/-- What a reader keeps between items: its source and the definitions read so far. -/
structure Reader (σ : Type) where
  source : σ
  texts : Std.ExtTreeMap UInt32 String := ∅
  frames : Std.ExtTreeMap UInt32 Frame := ∅

/-- A part of an item being read. -/
abbrev Reading (σ : Type) := ExceptT StreamError (StateM (Reader σ))

namespace Reading

variable {σ : Type}

/-- Reads exactly `count` bytes. -/
def bytes (supply : Source σ) (count : Nat) : Reading σ (List UInt8) :=
  fun reader =>
    let (result, source) := supply.exactly count reader.source
    (result, { reader with source := source })

/-- Reads one byte, or learns that the stream has ended. -/
def nextByte (supply : Source σ) : Reading σ (Option UInt8) :=
  fun reader =>
    let (result, source) := supply.next reader.source
    (result, { reader with source := source })

/-- Reads one byte inside an item. -/
def byte (supply : Source σ) : Reading σ UInt8 := do
  let read ← bytes supply 1
  pure (read.headD 0)

/-- Reads a 32-bit word. -/
def half (supply : Source σ) : Reading σ UInt32 :=
  word32 <$> bytes supply 4

/-- Reads a 64-bit word. -/
def word (supply : Source σ) : Reading σ UInt64 :=
  word64 <$> bytes supply 8

/-- Refuses the item. -/
def refuse {α : Type} (cause : Malformed) : Reading σ α :=
  throw (.malformed cause)

/-- The value, or a refusal if there is none. -/
def orRefuse {α : Type} (cause : Malformed) : Option α → Reading σ α
  | some value => pure value
  | none => refuse cause

/-- The text defined under a number. -/
def text (number : UInt32) : Reading σ String := do
  orRefuse (.undefinedText number) (← get).texts[number]?

/-- The frame defined under a number. -/
def frame (number : UInt32) : Reading σ Frame := do
  orRefuse (.undefinedFrame number) (← get).frames[number]?

/-- Reads a header after its code. -/
def header (supply : Source σ) : Reading σ Record := do
  let mode ← orRefuse .unknownMode (Mode.ofCode? (← byte supply))
  let interval ← word supply
  let pid ← half supply
  let startTime ← word supply
  pure (.header ⟨mode, interval, pid, startTime⟩)

/-- Reads a text definition after its code. -/
def textDefinition (supply : Source σ) : Reading σ Unit := do
  let number ← half supply
  let length ← half supply
  let content ← bytes supply length.toNat
  let value ← orRefuse .notUtf8 (Text.ofUtf8? content)
  modify fun reader => { reader with texts := reader.texts.insert number value }

/-- Reads a frame definition after its code. -/
def frameDefinition (supply : Source σ) : Reading σ Unit := do
  let number ← half supply
  let nameNumber ← half supply
  let fileNumber ← half supply
  let name ← text nameNumber
  let file ← text fileNumber
  let line ← half supply
  let kind ← orRefuse .unknownFrameKind (FrameKind.ofCode? (← byte supply))
  modify fun reader =>
    { reader with frames := reader.frames.insert number ⟨name, file, line, kind⟩ }

/-- Reads a thread name after its code. -/
def threadName (supply : Source σ) : Reading σ Record := do
  let thread ← word supply
  let number ← half supply
  let name ← text number
  pure (.threadName thread name)

/-- Reads a metric. -/
def metric (supply : Source σ) : Reading σ Metric := do
  let tag ← byte supply
  if tag == wallTag then
    pure (.wallTime (← word supply))
  else if tag == cpuTag then
    pure (.cpuTime (← word supply))
  else if tag == allocationTag then
    let address ← word supply
    pure (.allocation address (← word supply))
  else if tag == freeTag then
    let address ← word supply
    pure (.free address (← word supply))
  else
    refuse (.unknownMetric tag)

/-- Reads `count` frame numbers and looks each one up as it is read. -/
def frames (supply : Source σ) : Nat → Reading σ (List Frame)
  | 0 => pure []
  | count + 1 => do
      let first ← frame (← half supply)
      let rest ← frames supply count
      pure (first :: rest)

/-- Reads a sample after its code. -/
def sample (supply : Source σ) : Reading σ Record := do
  let thread ← word supply
  let mark ← byte supply
  let task ← if mark == 0 then pure none else some <$> word supply
  let metric ← metric supply
  let count ← half supply
  let frames ← frames supply count.toNat
  pure (.sample ⟨thread, task, metric, frames⟩)

/-- Reads a marker after its code. -/
def marker (supply : Source σ) : Reading σ Record := do
  let thread ← word supply
  let reason ← byte supply
  pure (.marker ⟨thread, FailureReason.ofCode reason⟩)

/-- Reads the rest of an item; `none` if the item is a definition. -/
def item (supply : Source σ) (code : UInt8) : Reading σ (Option Record) := do
  if code == headerCode then
    some <$> header supply
  else if code == textCode then
    textDefinition supply
    pure none
  else if code == frameCode then
    frameDefinition supply
    pure none
  else if code == threadNameCode then
    some <$> threadName supply
  else if code == sampleCode then
    some <$> sample supply
  else if code == markerCode then
    some <$> marker supply
  else
    refuse (.unknownCode code)

/-- Reads items up to and including the next record; `none` at the end of the stream. -/
def recordWithin (supply : Source σ) : Nat → Reading σ (Option Record)
  | 0 => pure none
  | fuel + 1 => do
      match ← nextByte supply with
      | none => pure none
      | some code =>
          match ← item supply code with
          | some record => pure (some record)
          | none => recordWithin supply fuel

end Reading

namespace Reader

variable {σ : Type}

/-- Opens a stream: its preamble must be there and of the known version. -/
def start (supply : Source σ) (source : σ) : Except StreamError Unit × Reader σ :=
  let check : Reading σ Unit := do
    let start ← Reading.bytes supply 8
    if start != magic then Reading.refuse .notAStream
    let found ← Reading.half supply
    if found != version then Reading.refuse (.unsupportedVersion found)
  check.run.run { source := source }

/-- Reads the next record from at most `fuel` items; `none` at the end of the stream. -/
def nextWithin (supply : Source σ) (fuel : Nat) (reader : Reader σ) :
    Except StreamError (Option Record) × Reader σ :=
  (Reading.recordWithin supply fuel).run.run reader

/--
Reads the next record; `none` at the end of the stream.  Every item takes at least its code, so
there are no more items than bytes left.
-/
def next (supply : Source σ) (reader : Reader σ) :
    Except StreamError (Option Record) × Reader σ :=
  reader.nextWithin supply (supply.left reader.source + 1)

/-- Records up to the end of the stream or the first error. -/
def recordsWithin (supply : Source σ) : Nat → Reader σ → List Record × Option StreamError
  | 0, _ => ([], none)
  | fuel + 1, reader =>
      match reader.nextWithin supply (fuel + 1) with
      | (.ok none, _) => ([], none)
      | (.ok (some record), after) =>
          let (records, ending) := recordsWithin supply fuel after
          (record :: records, ending)
      | (.error error, _) => ([], some error)

/-- The records of a whole stream, or the first error. -/
def readAll (supply : Source σ) (source : σ) : Except StreamError (List Record) :=
  match Reader.start supply source with
  | (.error error, _) => .error error
  | (.ok (), reader) =>
      match recordsWithin supply (supply.left reader.source + 1) reader with
      | (records, none) => .ok records
      | (_, some error) => .error error

/-- What one call of the reader gave. -/
abbrev Outcome := Except StreamError Record

/--
Calls the reader until the stream ends.  An error ends the list too, unless `resume` is set and
the bytes were malformed: then reading goes on behind the bytes already taken.
-/
def outcomesWithin (supply : Source σ) (resume : Bool) : Nat → Reader σ → List Outcome
  | 0, _ => []
  | fuel + 1, reader =>
      match reader.nextWithin supply (fuel + 1) with
      | (.ok none, _) => []
      | (.ok (some record), after) => .ok record :: outcomesWithin supply resume fuel after
      | (.error (.malformed cause), after) =>
          .error (.malformed cause) ::
            (if resume then outcomesWithin supply resume fuel after else [])
      | (.error error, _) => [.error error]

/-- What the calls of a reader give on a whole stream, or the error of its preamble. -/
def outcomes (supply : Source σ) (resume : Bool) (source : σ) :
    Except StreamError (List Outcome) :=
  match Reader.start supply source with
  | (.error error, _) => .error error
  | (.ok (), reader) =>
      .ok (outcomesWithin supply resume (supply.left reader.source + 1) reader)

end Reader

end StackSampler.Stream
