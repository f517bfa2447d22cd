import Std.Data.ExtTreeMap
import Std.Data.ExtTreeSet
import StackSampler.Frame
import StackSampler.Subject.Interpreter
import StackSampler.Text.Numeral

/-!
# Task graphs

A thread that runs an event loop has one stack of its own but many suspended tasks.  The graph
keeps which task waits on which, as far as the host reports it; an edge is kept at both of its
ends.  It lasts until its child completes, and a completed task is dropped once it has no edges
and was not shown in the current cycle.
-/

namespace StackSampler

/-- What the graph knows of a task. -/
structure TaskNode where
  /-- Not known for a task that was only named as the end of an edge. -/
  loop : Option LoopId
  name : Option String
  completed : Bool := false
  /-- The place of the task in the order of creation. -/
  created : Nat
  /-- The tasks this one waits on. -/
  children : Std.ExtTreeSet TaskId := ∅
  /-- The tasks that wait on this one, each with the place of its edge in the order of events. -/
  parents : Std.ExtTreeMap TaskId Nat := ∅
  /-- The cycle in which the task was last shown. -/
  lastRendered : Option Nat := none
  /-- The number of failed reads since the last successful one. -/
  failures : Nat := 0

/-- A name, unless it is empty. -/
def nonempty? (name : String) : Option String :=
  if name.isEmpty then none else some name

namespace TaskNode

/-- A new task without edges. -/
def new (loop : Option LoopId) (name : Option String) (created : Nat) : TaskNode :=
  { loop := loop, name := name.bind nonempty?, created := created }

/-- Whether the task still has edges. -/
def hasEdges (node : TaskNode) : Bool :=
  !(node.children.isEmpty && node.parents.isEmpty)

/-- Takes a child away. -/
def withoutChild (child : TaskId) (node : TaskNode) : TaskNode :=
  { node with children := node.children.erase child }

/-- Takes a parent away. -/
def withoutParent (parent : TaskId) (node : TaskNode) : TaskNode :=
  { node with parents := node.parents.erase parent }

/-- The frame that names a task; one without a name is called by its identity. -/
def boundary (task : TaskId) (node : TaskNode) : Frame :=
  .taskBoundary (node.name.getD ("Task-" ++ Text.hexadecimal task.toNat))

end TaskNode

/-- A task as the host announces it. -/
structure TaskDescription where
  id : TaskId
  loop : LoopId
  name : String
deriving DecidableEq, Repr

/--
The tasks that are followed, the loops they run on and how they wait on each other.  Events and
cycles are counted without a bound, where the profiler counts in words of 64 bits: no run fills one.
-/
structure TaskGraph where
  /-- The loop that each thread runs. -/
  loops : Std.ExtTreeMap ThreadId LoopId := ∅
  /-- The task that each loop was last said to run. -/
  running : Std.ExtTreeMap LoopId TaskId := ∅
  nodes : Std.ExtTreeMap TaskId TaskNode := ∅
  /-- Collections of the interpreter in which tasks are looked for. -/
  containers : List TaskContainer := []
  /-- The number of creations and edges so far. -/
  sequence : Nat := 0
  /-- The number of cycles so far. -/
  cycle : Nat := 0

instance : Inhabited TaskGraph := ⟨{}⟩

namespace TaskGraph

/-- The number of tasks. -/
def size (graph : TaskGraph) : Nat :=
  graph.nodes.size

/-- Whether there are no tasks. -/
def isEmpty (graph : TaskGraph) : Bool :=
  graph.nodes.isEmpty

/-- The number of edges. -/
def edgeCount (graph : TaskGraph) : Nat :=
  graph.nodes.foldl (fun count _ node => count + node.children.size) 0

/-- The loop of a thread. -/
def loopOf? (graph : TaskGraph) (thread : ThreadId) : Option LoopId :=
  graph.loops[thread]?

/-- The task that a loop was last said to run. -/
def runningTask? (graph : TaskGraph) (loop : LoopId) : Option TaskId :=
  graph.running[loop]?

/-- A task that is known and has not completed. -/
def live? (graph : TaskGraph) (task : TaskId) : Option TaskNode :=
  graph.nodes[task]?.filter (!·.completed)

end TaskGraph

end StackSampler
