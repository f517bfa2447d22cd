import StackSampler.Json.Parsing
import StackSampler.Json.Printing
import StackSampler.Json.Shape
import StackSampler.Subject.Layout
import StackSampler.Text.Utf8

/-!
# Layouts as JSON

A layout is an object of objects.  Its optional fields may be left out or null; every other field
has to be there.  An instruction is tagged with its kind.
-/

namespace StackSampler.Layout

/-- An offset or a size. -/
def place : Json.Form Offset :=
  Json.natural

/-- An offset that a build may not have. -/
def place? : Json.Form (Option Offset) :=
  Json.optional place

/-- The version of an interpreter. -/
def versionForm : Json.Form InterpreterVersion := fun value => do
  let given ← Json.fieldsOf [Json.needed "major" Json.byte, Json.needed "minor" Json.byte] value
  pure ⟨← given.get "major" Json.byte, ← given.get "minor" Json.byte⟩

/-- The version of an interpreter as JSON. -/
def versionJson (version : InterpreterVersion) : Json.Value :=
  Json.ofMembers
    [("major", Json.ofInt version.major.toNat), ("minor", Json.ofInt version.minor.toNat)]

namespace Interpreter

/-- Fields of the interpreter state, from JSON. -/
def form : Json.Form Interpreter := fun value => do
  let given ← Json.fieldsOf [Json.needed "threads_head" place, Json.spare "finalizing" place?] value
  pure ⟨← given.get "threads_head" place, ← given.get? "finalizing" place⟩

/-- Fields of the interpreter state as JSON. -/
def toJson (layout : Interpreter) : Json.Value :=
  Json.ofMembers
    [("threads_head", Json.ofNat layout.threadsHead),
      ("finalizing", Json.ofOption Json.ofNat layout.finalizing)]

end Interpreter

namespace Thread

/-- Fields of a thread state, from JSON. -/
def form : Json.Form Thread := fun value => do
  let given ← Json.fieldsOf
    [ Json.needed "next" place, Json.needed "thread_id" place, Json.needed "frame" place,
      Json.spare "generation" place? ] value
  pure
    { next := ← given.get "next" place
      threadId := ← given.get "thread_id" place
      frame := ← given.get "frame" place
      generation := ← given.get? "generation" place }

/-- Fields of a thread state as JSON. -/
def toJson (layout : Thread) : Json.Value :=
  Json.ofMembers
    [ ("next", Json.ofNat layout.next), ("thread_id", Json.ofNat layout.threadId),
      ("frame", Json.ofNat layout.frame),
      ("generation", Json.ofOption Json.ofNat layout.generation) ]

end Thread

namespace Instruction

/-- The kinds of instruction fields. -/
inductive Kind where
  | index
  | pointer
deriving DecidableEq, Repr

/-- The words for the kinds of instruction fields. -/
def kinds : List (String × Kind) :=
  [("index", .index), ("pointer", .pointer)]

/-- The word for a kind, which has to stand as a plain text. -/
def kindForm : Json.Form Kind
  | .text word => Json.choice kinds (.text word)
  | value => Json.mismatch value

/-- The fields of an instruction of a given kind. -/
def contentForm (kind : Kind) : Json.Form Instruction := fun value =>
  match kind with
  | .index => do
      let given ← Json.fieldsOf [Json.needed "offset" place, Json.needed "unit" Json.word32] value
      pure (.index (← given.get "offset" place) (← given.get "unit" Json.word32))
  | .pointer => do
      let given ← Json.fieldsOf
        [Json.needed "offset" place, Json.needed "code_start" place] value
      pure (.pointer (← given.get "offset" place) (← given.get "code_start" place))

/-- Levels of arrays and objects that an instruction may hold besides its fields. -/
def depthLimit : Nat := 124

/--
Separates the kind among the members from the others.  All of them are read before any is given
its meaning, so a fault anywhere among them comes first.
-/
def splitMembers (ending : Option Json.Flaw) :
    Option Kind → List (Except Json.Flaw String × Json.Value) →
      List (Except Json.Flaw String × Json.Value) →
      Except Json.Fault (Kind × List (Except Json.Flaw String × Json.Value))
  | found, others, [] =>
      match ending, found with
      | some flaw, _ => .error flaw.wanted
      | none, none => .error .malformed
      | none, some kind => .ok (kind, others.reverse)
  | _, _, (.error flaw, _) :: _ => .error flaw.wanted
  | found, others, (.ok name, value) :: rest =>
      if name == "kind" then
        match found with
        | some _ => .error .malformed
        | none => do
            let kind ← kindForm value
            splitMembers ending (some kind) others rest
      else
        match Json.wantFault depthLimit value with
        | some fault => .error fault
        | none => splitMembers ending found ((.ok name, value) :: others) rest

/-- An instruction field: its kind and, beside it, the fields of that kind. -/
def form : Json.Form Instruction
  | .object members ending => do
      let (kind, others) ← splitMembers ending none [] members
      contentForm kind (.object others none)
  | .array (tag :: rest) ending => do
      let kind ← kindForm tag
      match Json.wantItems depthLimit rest, ending with
      | some fault, _ => .error fault
      | none, some flaw => .error flaw.wanted
      | none, none => contentForm kind (.array rest none)
  | .array [] (some flaw) => .error flaw.wanted
  | value => Json.mismatch value

/-- An instruction field as JSON. -/
def toJson : Instruction → Json.Value
  | .index offset unit =>
      Json.ofMembers
        [ ("kind", .text "index"), ("offset", Json.ofNat offset),
          ("unit", Json.ofInt unit.toNat) ]
  | .pointer offset codeStart =>
      Json.ofMembers
        [ ("kind", .text "pointer"), ("offset", Json.ofNat offset),
          ("code_start", Json.ofNat codeStart) ]

end Instruction

namespace Owner

/-- The owner field, from JSON. -/
def form : Json.Form Owner := fun value => do
  let given ← Json.fieldsOf [Json.needed "offset" place, Json.needed "shim_value" Json.byte] value
  pure ⟨← given.get "offset" place, ← given.get "shim_value" Json.byte⟩

/-- The owner field as JSON. -/
def toJson (layout : Owner) : Json.Value :=
  Json.ofMembers
    [("offset", Json.ofNat layout.offset), ("shim_value", Json.ofInt layout.shimValue.toNat)]

end Owner

namespace Frame

/-- Fields of a frame, from JSON. -/
def form : Json.Form Frame := fun value => do
  let given ← Json.fieldsOf
    [ Json.needed "previous" place, Json.needed "code" place,
      Json.needed "instruction" Instruction.form, Json.spare "is_entry" place?,
      Json.spare "owner" (Json.optional Owner.form) ] value
  pure
    { previous := ← given.get "previous" place
      code := ← given.get "code" place
      instruction := ← given.get "instruction" Instruction.form
      isEntry := ← given.get? "is_entry" place
      owner := ← given.get? "owner" Owner.form }

/-- Fields of a frame as JSON. -/
def toJson (layout : Frame) : Json.Value :=
  Json.ofMembers
    [ ("previous", Json.ofNat layout.previous), ("code", Json.ofNat layout.code),
      ("instruction", layout.instruction.toJson),
      ("is_entry", Json.ofOption Json.ofNat layout.isEntry),
      ("owner", Json.ofOption Owner.toJson layout.owner) ]

end Frame

namespace Code

/-- Fields of a code unit, from JSON. -/
def form : Json.Form Code := fun value => do
  let given ← Json.fieldsOf
    [ Json.needed "name" place, Json.spare "qualname" place?, Json.needed "filename" place,
      Json.needed "first_line" place, Json.needed "line_table" place ] value
  pure
    { name := ← given.get "name" place
      qualname := ← given.get? "qualname" place
      filename := ← given.get "filename" place
      firstLine := ← given.get "first_line" place
      lineTable := ← given.get "line_table" place }

/-- Fields of a code unit as JSON. -/
def toJson (layout : Code) : Json.Value :=
  Json.ofMembers
    [ ("name", Json.ofNat layout.name),
      ("qualname", Json.ofOption Json.ofNat layout.qualname),
      ("filename", Json.ofNat layout.filename), ("first_line", Json.ofNat layout.firstLine),
      ("line_table", Json.ofNat layout.lineTable) ]

end Code

namespace VarObject

/-- Fields of an object with inline data, from JSON. -/
def form : Json.Form VarObject := fun value => do
  let given ← Json.fieldsOf [Json.needed "length" place, Json.needed "data" place] value
  pure ⟨← given.get "length" place, ← given.get "data" place⟩

/-- Fields of an object with inline data as JSON. -/
def toJson (layout : VarObject) : Json.Value :=
  Json.ofMembers [("length", Json.ofNat layout.length), ("data", Json.ofNat layout.data)]

end VarObject

namespace Task

/-- Fields of a task, from JSON. -/
def form : Json.Form Task := fun value => do
  let given ← Json.fieldsOf
    [ Json.needed "coroutine" place, Json.needed "awaiting" place, Json.needed "state" place,
      Json.needed "pending_state" Json.int32, Json.spare "name" place?,
      Json.spare "loop" place? ] value
  pure
    { coroutine := ← given.get "coroutine" place
      awaiting := ← given.get "awaiting" place
      state := ← given.get "state" place
      pendingState := Int32.ofInt (← given.get "pending_state" Json.int32)
      name := ← given.get? "name" place
      loop := ← given.get? "loop" place }

/-- Fields of a task as JSON. -/
def toJson (layout : Task) : Json.Value :=
  Json.ofMembers
    [ ("coroutine", Json.ofNat layout.coroutine), ("awaiting", Json.ofNat layout.awaiting),
      ("state", Json.ofNat layout.state),
      ("pending_state", Json.ofInt layout.pendingState.toInt),
      ("name", Json.ofOption Json.ofNat layout.name),
      ("loop", Json.ofOption Json.ofNat layout.loop) ]

end Task

namespace Coroutine

/-- Fields of a coroutine, from JSON. -/
def form : Json.Form Coroutine := fun value => do
  let given ← Json.fieldsOf
    [ Json.needed "frame" place, Json.needed "frame_inline" Json.flag,
      Json.spare "awaited" place? ] value
  pure
    { frame := ← given.get "frame" place
      frameInline := ← given.get "frame_inline" Json.flag
      awaited := ← given.get? "awaited" place }

/-- Fields of a coroutine as JSON. -/
def toJson (layout : Coroutine) : Json.Value :=
  Json.ofMembers
    [ ("frame", Json.ofNat layout.frame), ("frame_inline", .bool layout.frameInline),
      ("awaited", Json.ofOption Json.ofNat layout.awaited) ]

end Coroutine

namespace Container

/-- Fields of the sets of tasks, from JSON. -/
def form : Json.Form Container := fun value => do
  let given ← Json.fieldsOf
    [ Json.needed "set_table" place, Json.needed "set_mask" place,
      Json.needed "entry_size" place, Json.needed "entry_key" place,
      Json.needed "weakref_object" place ] value
  pure
    { setTable := ← given.get "set_table" place
      setMask := ← given.get "set_mask" place
      entrySize := ← given.get "entry_size" place
      entryKey := ← given.get "entry_key" place
      weakrefObject := ← given.get "weakref_object" place }

/-- Fields of the sets of tasks as JSON. -/
def toJson (layout : Container) : Json.Value :=
  Json.ofMembers
    [ ("set_table", Json.ofNat layout.setTable), ("set_mask", Json.ofNat layout.setMask),
      ("entry_size", Json.ofNat layout.entrySize), ("entry_key", Json.ofNat layout.entryKey),
      ("weakref_object", Json.ofNat layout.weakrefObject) ]

end Container

/-- A layout, from JSON. -/
def form : Json.Form Layout := fun value => do
  let given ← Json.fieldsOf
    [ Json.needed "version" versionForm, Json.needed "interpreter" Interpreter.form,
      Json.needed "thread" Thread.form, Json.needed "frame" Frame.form,
      Json.needed "code" Code.form, Json.needed "string" VarObject.form,
      Json.needed "bytes" VarObject.form, Json.needed "task" Task.form,
      Json.needed "coroutine" Coroutine.form,
      Json.spare "containers" (Json.optional Container.form) ] value
  pure
    { version := ← given.get "version" versionForm
      interpreter := ← given.get "interpreter" Interpreter.form
      thread := ← given.get "thread" Thread.form
      frame := ← given.get "frame" Frame.form
      code := ← given.get "code" Code.form
      string := ← given.get "string" VarObject.form
      bytes := ← given.get "bytes" VarObject.form
      task := ← given.get "task" Task.form
      coroutine := ← given.get "coroutine" Coroutine.form
      containers := ← given.get? "containers" Container.form }

/-- A layout as JSON, with every field present. -/
def toJson (layout : Layout) : Json.Value :=
  Json.ofMembers
    [ ("version", versionJson layout.version), ("interpreter", layout.interpreter.toJson),
      ("thread", layout.thread.toJson), ("frame", layout.frame.toJson),
      ("code", layout.code.toJson), ("string", layout.string.toJson),
      ("bytes", layout.bytes.toJson), ("task", layout.task.toJson),
      ("coroutine", layout.coroutine.toJson),
      ("containers", Json.ofOption Container.toJson layout.containers) ]

/-- Reads a layout from JSON text. -/
def ofText (text : String) : Except Json.Fault Layout :=
  Json.decode form (Json.parse text)

/-- Writes a layout as compact JSON text. -/
def toText (layout : Layout) : String :=
  Json.print layout.toJson

/-- Why a layout could not be loaded from a file. -/
inductive LoadError where
  | notFound
  /-- The text ends too early. -/
  | unexpectedEnd
  /-- The content is not text, no JSON, or not a layout. -/
  | invalid
deriving DecidableEq, Repr

/-- Loads a layout from the content of a file, if the file exists. -/
def load (content : Option (List UInt8)) : Except LoadError Layout :=
  match content with
  | none => .error .notFound
  | some bytes =>
      match Text.ofUtf8? bytes with
      | none => .error .invalid
      | some text =>
          match ofText text with
          | .ok layout => .ok layout
          | .error .ended => .error .unexpectedEnd
          | .error .malformed => .error .invalid

end StackSampler.Layout
