import StackSampler.Task.Events

/-!
# Discovering tasks

Tasks that nobody announced are found in the interpreter's own collections.  What cannot be read is
passed over.
-/

namespace StackSampler.TaskGraph

variable {σ : Type}

/-- The tasks that the readable ones among several collections list. -/
def listed (interpreter : Interpreter σ) : List TaskContainer → StateM σ (List TaskId)
  | [] => pure []
  | container :: rest => do
      let members ← (interpreter.members container).run
      let others ← listed interpreter rest
      pure (members.toOption.getD [] ++ others)

/-- Whether a task is live and its loop known. -/
def isSettled (graph : TaskGraph) (task : TaskId) : Bool :=
  (graph.liveLoop? task).isSome

/-- The announcement of a task that the interpreter reports as pending on a loop. -/
def description? (task : TaskId) : Except ReadFault TaskState → Option TaskDescription
  | .error _ => none
  | .ok state =>
      if state.done then none
      else state.loop.map fun loop => ⟨task, loop, state.name.getD ""⟩

/-- Takes up the listed tasks that are not settled yet. -/
def takeUp (interpreter : Interpreter σ) (graph : TaskGraph) :
    List TaskId → StateM σ TaskGraph
  | [] => pure graph
  | task :: rest => do
      if graph.isSettled task then takeUp interpreter graph rest
      else
        let state ← (interpreter.task task).run
        match description? task state with
        | some description => takeUp interpreter (graph.create description) rest
        | none => takeUp interpreter graph rest

/-- Takes up the live tasks of the watched collections. -/
def discover (interpreter : Interpreter σ) (graph : TaskGraph) : StateM σ TaskGraph := do
  let tasks ← listed interpreter graph.containers
  takeUp interpreter graph tasks

end StackSampler.TaskGraph
