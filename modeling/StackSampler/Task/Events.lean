import StackSampler.Task.Graph

/-!
# Events of a task graph

What the host reports about its tasks.  An identity that is named again after its task completed
belongs to a new task.
-/

namespace StackSampler.TaskGraph

/-- A thread runs a loop. -/
def registerLoop (graph : TaskGraph) (thread : ThreadId) (loop : LoopId) : TaskGraph :=
  { graph with loops := graph.loops.insert thread loop }

/-- Takes a task out, with its edges at both of their ends. -/
def detach (graph : TaskGraph) (task : TaskId) : TaskGraph :=
  match graph.nodes[task]? with
  | none => graph
  | some node =>
      let nodes := graph.nodes.erase task
      let nodes := node.parents.keys.foldl
        (fun nodes parent => nodes.modify parent (·.withoutChild task)) nodes
      let nodes := node.children.toList.foldl
        (fun nodes child => nodes.modify child (·.withoutParent task)) nodes
      { graph with nodes := nodes }

/-- Puts a new task under an identity that has none. -/
def addNew (graph : TaskGraph) (task : TaskId) (loop : Option LoopId) (name : Option String) :
    TaskGraph :=
  let created := graph.sequence + 1
  { graph with
    sequence := created
    nodes := graph.nodes.insert task (.new loop name created) }

/-- A task was created, or is announced again with what is known of it now. -/
def create (graph : TaskGraph) (task : TaskDescription) : TaskGraph :=
  match graph.nodes[task.id]? with
  | none => graph.addNew task.id (some task.loop) (some task.name)
  | some node =>
      if node.completed then (graph.detach task.id).addNew task.id (some task.loop) (some task.name)
      else
        { graph with
          nodes := graph.nodes.insert task.id
            { node with loop := some task.loop, name := (nonempty? task.name).or node.name } }

/-- A task is named as the end of an edge; it runs on `loop` if nothing else is known. -/
def adopt (graph : TaskGraph) (task : TaskId) (loop : Option LoopId) : TaskGraph :=
  match graph.nodes[task]? with
  | none => graph.addNew task loop none
  | some node =>
      if node.completed then (graph.detach task).addNew task loop none
      else { graph with nodes := graph.nodes.insert task { node with loop := node.loop.or loop } }

/-- The loop of a live task, if it is known. -/
def liveLoop? (graph : TaskGraph) (task : TaskId) : Option LoopId :=
  (graph.live? task).bind (·.loop)

/-- Puts the edge from a parent to a child; an edge that is there keeps its place in the order. -/
def addEdge (graph : TaskGraph) (parent child : TaskId) : TaskGraph :=
  let place := graph.sequence + 1
  let nodes := graph.nodes.modify child fun node =>
    { node with parents := node.parents.insertIfNew parent place }
  let nodes := nodes.modify parent fun node =>
    { node with children := node.children.insert child }
  { graph with sequence := place, nodes := nodes }

/--
A task waits on another one.  Both run on the same loop, so an end whose loop is known lends it to
the other.
-/
def link (graph : TaskGraph) (parent child : TaskId) : TaskGraph :=
  if parent = child then graph
  else
    let loop := (graph.liveLoop? parent).or (graph.liveLoop? child)
    ((graph.adopt parent loop).adopt child loop).addEdge parent child

/-- A loop runs a task. -/
def enter (graph : TaskGraph) (loop : LoopId) (task : TaskId) : TaskGraph :=
  { graph with running := graph.running.insert loop task }

/-- A loop no longer runs a task. -/
def leave (graph : TaskGraph) (loop : LoopId) (task : TaskId) : TaskGraph :=
  if graph.running[loop]? = some task then
    { graph with running := graph.running.erase loop }
  else graph

/-- A task has completed: nobody waits on it any more, and its loop does not run it. -/
def complete (graph : TaskGraph) (task : TaskId) : TaskGraph :=
  match graph.nodes[task]? with
  | none => graph
  | some node =>
      let nodes := graph.nodes.insert task { node with completed := true, parents := ∅ }
      let nodes := node.parents.keys.foldl
        (fun nodes parent => nodes.modify parent (·.withoutChild task)) nodes
      let graph := { graph with nodes := nodes }
      match node.loop with
      | some loop => graph.leave loop task
      | none => graph

/-- Tasks that existed before anything was reported, and which of them run. -/
def importAll (graph : TaskGraph) (running : List (LoopId × TaskId))
    (scheduled eager : List TaskDescription) : TaskGraph :=
  let graph := (scheduled ++ eager).foldl create graph
  running.foldl
    (fun graph (loop, task) => if graph.nodes.contains task then graph.enter loop task else graph)
    graph

/-- Looks for tasks in a collection from now on. -/
def watch (graph : TaskGraph) (container : TaskContainer) : TaskGraph :=
  if graph.containers.contains container then graph
  else { graph with containers := graph.containers ++ [container] }

/-- Ends a cycle: drops completed tasks that have no edges and were not shown in it. -/
def prune (graph : TaskGraph) : TaskGraph :=
  { graph with
    nodes := graph.nodes.filter fun _ node =>
      !(node.completed && !node.hasEdges && node.lastRendered != some graph.cycle)
    cycle := graph.cycle + 1 }

end StackSampler.TaskGraph
