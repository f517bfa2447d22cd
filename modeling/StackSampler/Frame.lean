/-!
# Frames

One line of a stack: an interpreted function, a native function, or the boundary that names the
task whose frames lie inside it.
-/

namespace StackSampler

/-- What a frame stands for. -/
inductive FrameKind where
  /-- A function of the interpreted program. -/
  | interpreted
  /-- A function of the machine's own stack. -/
  | native
  /-- A synthetic frame naming the task whose frames sit below it. -/
  | taskBoundary
deriving DecidableEq, Repr, Inhabited

/-- The code of a kind in a sample stream. -/
def FrameKind.code : FrameKind → UInt8
  | .interpreted => 0
  | .native => 1
  | .taskBoundary => 2

/-- The kind with a given code. -/
def FrameKind.ofCode? : UInt8 → Option FrameKind
  | 0 => some .interpreted
  | 1 => some .native
  | 2 => some .taskBoundary
  | _ => none

@[simp]
theorem FrameKind.ofCode?_code (kind : FrameKind) : FrameKind.ofCode? kind.code = some kind := by
  cases kind <;> rfl

/-- A function, where it stands in its source, and what kind of frame it was found in. -/
structure Frame where
  name : String
  file : String
  line : UInt32
  kind : FrameKind
deriving DecidableEq, Repr, Inhabited

namespace Frame

/-- A frame of the interpreted program. -/
def interpreted (name file : String) (line : UInt32) : Frame :=
  ⟨name, file, line, .interpreted⟩

/-- A frame of the machine's own stack. -/
def native (name file : String) (line : UInt32) : Frame :=
  ⟨name, file, line, .native⟩

/-- The boundary frame of a task or greenlet. -/
def taskBoundary (task : String) : Frame :=
  ⟨task, "", 0, .taskBoundary⟩

/--
The line a dump shows for a frame.  A native frame without a known file is shown by its name alone.
-/
def display (frame : Frame) : String :=
  let line := toString frame.line.toNat
  match frame.kind with
  | .taskBoundary => "[task] " ++ frame.name
  | .interpreted => "File \"" ++ frame.file ++ "\", line " ++ line ++ ", in " ++ frame.name
  | .native =>
      if frame.file.isEmpty then "[native] " ++ frame.name
      else "[native] " ++ frame.name ++ " (" ++ frame.file ++ ":" ++ line ++ ")"

end Frame

end StackSampler
