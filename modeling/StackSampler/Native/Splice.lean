import StackSampler.Stack
import StackSampler.Text.Numeral
import StackSampler.Text.Replace

/-!
# Splicing native and interpreted frames

A native stack of an interpreter shows its evaluation loop once per nested entry, and the
interpreted frames run inside these.  Splicing puts the interpreted frames where the loop frames
stand: each loop frame is replaced by the next interpreted frames up to and including an entry
frame.  Both stacks are innermost first.
-/

namespace StackSampler.Native

/-- The symbols of the evaluation loop of the usual interpreter. -/
def defaultEvalSymbols : List String :=
  ["_PyEval_EvalFrameDefault"]

/-- Whether a name is a symbol, or a clone of it: the symbol followed by a dot and more. -/
def isVariantOf (symbol name : String) : Bool :=
  match Text.behind? symbol.toList name.toList with
  | some [] => true
  | some (c :: _) => c == '.'
  | none => false

/-- Whether a frame belongs to the evaluation loop. -/
def isEvalLoop (symbols : List String) (frame : Frame) : Bool :=
  frame.kind == .native && symbols.any fun symbol => isVariantOf symbol frame.name

/-- The frames up to and including the first entry frame, and those after it. -/
def segment : List WalkedFrame → List Frame × List WalkedFrame
  | [] => ([], [])
  | walked :: rest =>
      if walked.isEntry then ([walked.frame], rest)
      else
        let (frames, after) := segment rest
        (walked.frame :: frames, after)

/--
The native frames with each frame of the evaluation loop replaced by the next segment of the
interpreted ones.  Segments whose loop frame is missing stand at the end.
-/
def splice (symbols : List String) : List Frame → List WalkedFrame → List Frame
  | [], interpreted => interpreted.map (·.frame)
  | frame :: rest, interpreted =>
      if isEvalLoop symbols frame then
        let (frames, after) := segment interpreted
        frames ++ splice symbols rest after
      else
        frame :: splice symbols rest interpreted

/-- Whether `part` stands somewhere in `text`. -/
def occursIn (part : List Char) : List Char → Bool
  | [] => part.isEmpty
  | c :: text => (Text.behind? part (c :: text)).isSome || occursIn part text

/-- What the names of the profiler's own frames contain. -/
def ownMarkers : List String :=
  ["backtrace::", "strata::", "__restore_rt", "sigprof_handler"]

/-- Whether a frame belongs to the profiler itself. -/
def isOwn (frame : Frame) : Bool :=
  ownMarkers.any fun marker => occursIn marker.toList frame.name.toList

/-- The stack without the profiler's own frames at its inner end. -/
def withoutOwn (frames : List Frame) : List Frame :=
  frames.dropWhile isOwn

/-- The frame of an instruction pointer that belongs to no known symbol. -/
def unknownFrame (pointer : Address) : Frame :=
  .native (Text.hexadecimal pointer.toNat) "" 0

/-- The frames of instruction pointers, resolved by `symbol?` where it knows them. -/
def symbolize (symbol? : Address → Option Frame) (pointers : List Address) : List Frame :=
  withoutOwn (pointers.map fun pointer => (symbol? pointer).getD (unknownFrame pointer))

end StackSampler.Native
