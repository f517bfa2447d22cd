import StackSampler.Greenlet.Table
import StackSampler.Walk

/-!
# Rendering greenlets

The stacks of the greenlets of a thread, in the order of their creation.  A stack follows the
parents of its greenlet; each contributes its frames and a boundary frame that names it.  The frames
of the active greenlet are the thread's own stack.
-/

namespace StackSampler.GreenletTable

variable {σ : Type}

/-- Whether a greenlet of a thread has a stack: it is active there, or keeps a frame. -/
def isShown (table : GreenletTable) (thread : ThreadId) (id : GreenletId) (greenlet : Greenlet) :
    Bool :=
  greenlet.thread == thread && (greenlet.frame.isSome || some id == table.activeOn? thread)

/-- The greenlets of a thread that have a stack, in the order of their creation. -/
def shown (table : GreenletTable) (thread : ThreadId) : List GreenletId :=
  ((table.greenlets.toList.filter fun (id, greenlet) =>
      table.isShown thread id greenlet).mergeSort
    fun (first, one) (second, other) =>
      one.created < other.created || (one.created == other.created && first ≤ second)).map (·.1)

/--
The greenlets from `id` on along their parents, of which at most `room`.  The line ends at one that
is not known and at one that is in it already.
-/
def lineFrom (table : GreenletTable) : Nat → List GreenletId → Option GreenletId →
    List (GreenletId × Greenlet)
  | 0, _, _ => []
  | _ + 1, _, none => []
  | room + 1, visited, some id =>
      match table.greenlets[id]? with
      | none => []
      | some greenlet =>
          if visited.contains id then []
          else (id, greenlet) :: table.lineFrom room (id :: visited) greenlet.parent

/-- A greenlet and those that resume after it. -/
def line (table : GreenletTable) (id : GreenletId) : List (GreenletId × Greenlet) :=
  table.lineFrom (table.size + 1) [] (some id)

/-- The frames of a greenlet within a stack; what cannot be walked is left out. -/
def framesOf (interpreter : Interpreter σ) (active : Option GreenletId)
    (physical : List WalkedFrame) (id : GreenletId) (greenlet : Greenlet) :
    Observing σ (List Frame) :=
  if some id = active then pure (physical.map (·.frame))
  else
    match greenlet.frame with
    | none => pure []
    | some top => do
        match ← (Walking.walkFrom interpreter (some top)).run with
        | .ok walked => pure (walked.map (·.frame))
        | .error _ => pure []

/-- The frames of a line of greenlets, those of each followed by its boundary. -/
def lineFrames (interpreter : Interpreter σ) (active : Option GreenletId)
    (physical : List WalkedFrame) :
    List (GreenletId × Greenlet) → Observing σ (List Frame)
  | [] => pure []
  | (id, greenlet) :: rest => do
      let frames ← framesOf interpreter active physical id greenlet
      let others ← lineFrames interpreter active physical rest
      pure (frames ++ .taskBoundary greenlet.name :: others)

/-- The stacks of several greenlets. -/
def stacksOf (interpreter : Interpreter σ) (table : GreenletTable) (active : Option GreenletId)
    (physical : List WalkedFrame) : List GreenletId → Observing σ (List Stack)
  | [] => pure []
  | id :: rest => do
      let frames ← lineFrames interpreter active physical (table.line id)
      let others ← stacksOf interpreter table active physical rest
      pure (⟨some id, some id == active, frames⟩ :: others)

/-- The stacks of a thread's greenlets, unless it has none with a stack. -/
def render (interpreter : Interpreter σ) (table : GreenletTable) (thread : ThreadId)
    (physical : List WalkedFrame) : Observing σ (Option (List Stack)) := do
  let shown := table.shown thread
  if shown.isEmpty then pure none
  else some <$> stacksOf interpreter table (table.activeOn? thread) physical shown

end StackSampler.GreenletTable
