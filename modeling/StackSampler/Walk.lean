import StackSampler.Stack
import StackSampler.Subject.Interpreter
import StackSampler.Walk.RecentCache

/-!
# Walking frame chains

A walk follows the chain of frames of a thread from the innermost one and says for each what runs
there.  The head of the chain is read before and after, and a walk whose chain moved in between is
given up.  What a code unit says about an offset is remembered, so a stack that is walked again
and again needs no code unit to be read again.

A line that exceeds its word ends the thread that walks.  The walker is marked then, for good, and
whatever it gives afterwards stands for nothing.
-/

namespace StackSampler

/-- What a walk keeps from one time to the next. -/
structure Walker where
  format : LineFormat
  /-- The most frames that a chain may have. -/
  maxDepth : Nat
  /-- The frame of each code unit and offset that was resolved lately. -/
  cache : RecentCache (Address × UInt32) Frame := {}
  /-- Whether a line exceeded its word, which ended the thread. -/
  exceeded : Bool := false
deriving Inhabited

/-- A new walker for an interpreter of a given version; it takes at least one frame. -/
def Walker.new (version : InterpreterVersion) (maxDepth : Nat) : Walker :=
  { format := LineFormat.forVersion version, maxDepth := max maxDepth 1 }

/-- Marks the walker if the line of an offset of a code unit exceeds its word. -/
def Walker.checkLine (walker : Walker) (code : CodeUnit) (offset : UInt32) : Walker :=
  { walker with
    exceeded := walker.exceeded ||
      (LineTable.lineAt walker.format code.firstLine code.lineTable offset).isNone }

/-- A walker together with the state of the interpreter that it looks at. -/
structure Observation (σ : Type) where
  walker : Walker
  subject : σ

/-- What is done with a walker and the interpreter that it looks at. -/
abbrev Observing (σ : Type) (α : Type) := StateM (Observation σ) α

/-- Asks the interpreter, without the walker. -/
def Observing.query {σ α : Type} (query : StateM σ α) : Observing σ α :=
  fun observation =>
    let (answer, subject) := query.run observation.subject
    (answer, { observation with subject := subject })

/-- Part of a walk, which may fail with `ε`. -/
abbrev Walking (σ ε : Type) (α : Type) := ExceptT ε (StateM (Observation σ)) α

namespace Walking

variable {σ : Type}

/-- The most frames that are remembered. -/
def cacheCapacity : Nat := 2048

/-- Asks the interpreter. -/
def ask {ε α : Type} (query : ExceptT ε (StateM σ) α) : Walking σ ε α :=
  ExceptT.mk (Observing.query query.run)

/-- Uses the frame remembered for an offset of a code unit. -/
def remembered? {ε : Type} (code : Address) (offset : UInt32) : Walking σ ε (Option Frame) :=
  fun observation =>
    match observation.walker.cache.use (code, offset) with
    | some (frame, cache) =>
        (.ok (some frame), { observation with walker := { observation.walker with cache := cache } })
    | none => (.ok none, observation)

/-- Remembers the frame of an offset of a code unit. -/
def remember {ε : Type} (code : Address) (offset : UInt32) (frame : Frame) :
    Walking σ ε Unit :=
  modify fun observation =>
    { observation with
      walker := { observation.walker with
        cache := observation.walker.cache.put cacheCapacity (code, offset) frame } }

/-- Marks the walker if the line of an offset of a code unit exceeds its word. -/
def checkLine {ε : Type} (code : CodeUnit) (offset : UInt32) : Walking σ ε Unit :=
  modify fun observation =>
    { observation with walker := observation.walker.checkLine code offset }

/-- What is shown for an offset of a code unit.  Line 0 stands for a line that exceeds its word. -/
def frameOf (format : LineFormat) (code : CodeUnit) (offset : UInt32) : Frame :=
  .interpreted code.display code.file
    ((LineTable.lineAt format code.firstLine code.lineTable offset).getD 0)

/-- The frame of an offset of a code unit. -/
def resolve (interpreter : Interpreter σ) (code : Address) (offset : UInt32) :
    Walking σ ReadFault Frame := do
  match ← remembered? code offset with
  | some frame => pure frame
  | none =>
      let unit ← ask (interpreter.code code)
      checkLine unit offset
      let frame := frameOf (← get).walker.format unit offset
      remember code offset frame
      pure frame

/--
The frames of a chain, innermost first, without the interpreter's own.  `room` more frames may
follow in a chain of at most `limit`.
-/
def chain (interpreter : Interpreter σ) (limit : Nat) :
    Nat → Option Address → Walking σ CaptureError (List WalkedFrame)
  | _, none => pure []
  | 0, some _ => throw (.tooDeep limit)
  | room + 1, some place => do
      let raw ← ExceptT.adapt CaptureError.memory (ask (interpreter.frame place))
      if raw.isShim then chain interpreter limit room raw.previous
      else
        let frame ← ExceptT.adapt CaptureError.memory (resolve interpreter raw.code raw.offset)
        let callers ← chain interpreter limit room raw.previous
        pure (⟨place, frame, raw.isEntry⟩ :: callers)

/-- The frames from one on, which belong to no running thread. -/
def walkFrom (interpreter : Interpreter σ) (top : Option Address) :
    Walking σ CaptureError (List WalkedFrame) := do
  let limit := (← get).walker.maxDepth
  chain interpreter limit limit top

/-- The stack of a thread, innermost frame first. -/
def walk (interpreter : Interpreter σ) (thread : ThreadId) :
    Walking σ CaptureError (List WalkedFrame) := do
  let before ← ask (interpreter.threadState thread)
  let frames ← walkFrom interpreter before.top
  let after ← ask (interpreter.threadState thread)
  if before = after then pure frames else throw (.stale thread)

/-- A single frame that is on no thread's chain. -/
def resolveFrame (interpreter : Interpreter σ) (place : Address) :
    Walking σ ReadFault WalkedFrame := do
  let raw ← ask (interpreter.frame place)
  let frame ← resolve interpreter raw.code raw.offset
  pure ⟨place, frame, raw.isEntry⟩

end Walking

end StackSampler
