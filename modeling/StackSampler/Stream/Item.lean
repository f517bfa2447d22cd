import StackSampler.Record
import StackSampler.Stream.Word
import StackSampler.Text.Utf8

/-!
# Items of a sample stream

A stream is a preamble followed by items.  Texts and frames are written once, under a number, and
referred to by that number afterwards:

* code 0, header: mode (1 byte), interval (8), process (4), start time (8);
* code 1, text definition: number (4), length (4), the UTF-8 bytes;
* code 2, frame definition: number (4), number of its name (4), of its file (4), line (4), kind (1);
* code 3, thread name: thread (8), number of the name (4);
* code 4, sample: thread (8), task mark (1), the task (8) if the mark is not zero, the metric,
  count of frames (4), their numbers (4 each), innermost first;
* code 5, marker: thread (8), reason (1).

A metric is a tag and one word (wall and processor time) or two (an address and a size).
-/

namespace StackSampler.Stream

/-- The eight bytes that every stream starts with. -/
def magic : List UInt8 :=
  [0x53, 0x54, 0x52, 0x41, 0x54, 0x41, 0x00, 0x00]

/-- The version of the stream format. -/
def version : UInt32 := 1

/-- What stands in front of the items. -/
def preamble : List UInt8 :=
  magic ++ bytes32 version

/-- The pieces in which it is written. -/
def preamblePieces : List (List UInt8) :=
  [magic, bytes32 version]

/-- Wire code of a header. -/
def headerCode : UInt8 := 0

/-- Wire code of a text definition. -/
def textCode : UInt8 := 1

/-- Wire code of a frame definition. -/
def frameCode : UInt8 := 2

/-- Wire code of a thread name. -/
def threadNameCode : UInt8 := 3

/-- Wire code of a sample. -/
def sampleCode : UInt8 := 4

/-- Wire code of a marker. -/
def markerCode : UInt8 := 5

/-- Tag of a wall-time metric. -/
def wallTag : UInt8 := 0

/-- Tag of a processor-time metric. -/
def cpuTag : UInt8 := 1

/-- Tag of an allocation. -/
def allocationTag : UInt8 := 2

/-- Tag of a release. -/
def freeTag : UInt8 := 3

/-- One item of a stream.  Texts and frames are given by their numbers. -/
inductive Item where
  | header (header : Header)
  | text (number : UInt32) (text : String)
  | frame (number name file line : UInt32) (kind : FrameKind)
  | threadName (thread : ThreadId) (name : UInt32)
  | sample (thread : ThreadId) (task : Option TaskId) (metric : Metric) (frames : List UInt32)
  | marker (thread : ThreadId) (reason : UInt8)
deriving DecidableEq, Repr

/-- The bytes of a metric. -/
def metricBytes : Metric → List UInt8
  | .wallTime micros => wallTag :: bytes64 micros
  | .cpuTime micros => cpuTag :: bytes64 micros
  | .allocation address size => allocationTag :: (bytes64 address ++ bytes64 size)
  | .free address size => freeTag :: (bytes64 address ++ bytes64 size)

/-- The bytes of an optional task. -/
def taskBytes : Option TaskId → List UInt8
  | none => [0]
  | some task => 1 :: bytes64 task

/-- The bytes of an item. -/
def Item.bytes : Item → List UInt8
  | .header start =>
      headerCode :: start.mode.code ::
        (bytes64 start.interval ++ bytes32 start.pid ++ bytes64 start.startTime)
  | .text number value =>
      let content := Text.utf8 value
      textCode :: (bytes32 number ++ bytesOf 4 content.length ++ content)
  | .frame number name file line kind =>
      frameCode :: (bytes32 number ++ bytes32 name ++ bytes32 file ++ bytes32 line ++ [kind.code])
  | .threadName thread name =>
      threadNameCode :: (bytes64 thread ++ bytes32 name)
  | .sample thread task metric frames =>
      sampleCode :: (bytes64 thread ++ taskBytes task ++ metricBytes metric ++
        bytesOf 4 frames.length ++ frames.flatMap bytes32)
  | .marker thread reason =>
      markerCode :: (bytes64 thread ++ [reason])

/-! ## Pieces

An item is written field by field.  How its bytes are cut into pieces shows in what an output was
given before it failed.
-/

/-- The pieces of a metric. -/
def metricPieces : Metric → List (List UInt8)
  | .wallTime micros => [[wallTag], bytes64 micros]
  | .cpuTime micros => [[cpuTag], bytes64 micros]
  | .allocation address size => [[allocationTag], bytes64 address, bytes64 size]
  | .free address size => [[freeTag], bytes64 address, bytes64 size]

/-- The pieces of an optional task. -/
def taskPieces : Option TaskId → List (List UInt8)
  | none => [[0]]
  | some task => [[1], bytes64 task]

/-- The pieces in which an item is written. -/
def Item.pieces : Item → List (List UInt8)
  | .header start =>
      [[headerCode, start.mode.code], bytes64 start.interval, bytes32 start.pid,
        bytes64 start.startTime]
  | .text number value =>
      let content := Text.utf8 value
      [[textCode], bytes32 number, bytesOf 4 content.length, content]
  | .frame number name file line kind =>
      [[frameCode], bytes32 number, bytes32 name, bytes32 file, bytes32 line, [kind.code]]
  | .threadName thread name =>
      [[threadNameCode], bytes64 thread, bytes32 name]
  | .sample thread task metric frames =>
      [[sampleCode], bytes64 thread] ++ taskPieces task ++ metricPieces metric ++
        bytesOf 4 frames.length :: frames.map bytes32
  | .marker thread reason =>
      [[markerCode], bytes64 thread, [reason]]

theorem flatten_preamblePieces : preamblePieces.flatten = preamble :=
  rfl

theorem flatten_metricPieces (metric : Metric) :
    (metricPieces metric).flatten = metricBytes metric := by
  cases metric <;> simp [metricPieces, metricBytes]

theorem flatten_taskPieces (task : Option TaskId) : (taskPieces task).flatten = taskBytes task := by
  cases task <;> simp [taskPieces, taskBytes]

/-- The pieces of an item are its bytes. -/
theorem Item.flatten_pieces (item : Item) : item.pieces.flatten = item.bytes := by
  cases item with
  | sample thread task metric frames =>
      simp [pieces, bytes, flatten_taskPieces, flatten_metricPieces, List.flatMap_def]
  | _ => simp [pieces, bytes]

theorem flatten_flatMap_pieces (items : List Item) :
    (items.flatMap Item.pieces).flatten = items.flatMap Item.bytes := by
  induction items with
  | nil => rfl
  | cons item items induction =>
      rw [List.flatMap_cons, List.flatten_append, item.flatten_pieces, induction,
        List.flatMap_cons]

end StackSampler.Stream
