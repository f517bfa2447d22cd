import StackSampler.Task.Events
import StackSampler.Walk

/-!
# Rendering tasks

The logical stacks of a loop: one for each task that awaits no other.  A stack follows who waits on
whom, each task with its suspended frames and a boundary frame that names it, and ends with the
frames of the loop itself.  The frames of the running task are the innermost part of the thread's
own stack.
-/

namespace StackSampler.TaskGraph

variable {σ : Type}

/-- The order in which tasks are gone through where no order is laid down. -/
structure VisitingOrder where
  /-- Order of the tasks of the graph. -/
  nodes : List TaskId → List TaskId
  /-- Order of the tasks that were read. -/
  states : List TaskId → List TaskId

/-- Goes through tasks in the order of their identities. -/
def VisitingOrder.ascending : VisitingOrder := ⟨id, id⟩

/-- The states of the live tasks of a loop. -/
abbrev TaskStates := Std.ExtTreeMap TaskId TaskState

/-! ### Reading the tasks -/

/-- Failed reads in a row after which a task is given up. -/
def failureLimit : Nat := 3

/-- Whether a task may belong to a loop: it is live, and on no other loop. -/
def mayRunOn (graph : TaskGraph) (loop : LoopId) (task : TaskId) : Bool :=
  match graph.live? task with
  | some node => node.loop.all (· == loop)
  | none => false

/-- The answers of the interpreter about several tasks. -/
def readTasks (interpreter : Interpreter σ) :
    List TaskId → StateM σ (List (TaskId × Except ReadFault TaskState))
  | [] => pure []
  | task :: rest => do
      let answer ← (interpreter.task task).run
      let others ← readTasks interpreter rest
      pure ((task, answer) :: others)

/-- Counts a failed read, and completes the task when it was one too many. -/
def countFailure (graph : TaskGraph) (task : TaskId) : TaskGraph × Bool :=
  match graph.nodes[task]? with
  | none => (graph, false)
  | some node =>
      let failures := node.failures + 1
      ({ graph with nodes := graph.nodes.insert task { node with failures := failures } },
        failureLimit ≤ failures)

/-- Counts the failed reads of several tasks, and gives those that are given up. -/
def countFailures (graph : TaskGraph) : List TaskId → TaskGraph × List TaskId
  | [] => (graph, [])
  | task :: rest =>
      let (graph, givenUp) := graph.countFailure task
      let (graph, others) := graph.countFailures rest
      (graph, if givenUp then task :: others else others)

/-- What a node learns from a successful read of its task. -/
def learn (state : TaskState) (node : TaskNode) : TaskNode :=
  { node with
    failures := 0
    name := node.name.or (state.name.bind nonempty?)
    loop := node.loop.or state.loop }

/-- The tasks that an answer says are done. -/
def finishedTasks (answers : List (TaskId × Except ReadFault TaskState)) : List TaskId :=
  answers.filterMap fun
    | (task, .ok state) => if state.done then some task else none
    | (_, .error _) => none

/-- The tasks that could not be read. -/
def unreadTasks (answers : List (TaskId × Except ReadFault TaskState)) : List TaskId :=
  answers.filterMap fun
    | (_, .ok _) => none
    | (task, .error _) => some task

/-- The tasks that were read and are not done. -/
def pendingTasks (answers : List (TaskId × Except ReadFault TaskState)) :
    List (TaskId × TaskState) :=
  answers.filterMap fun
    | (task, .ok state) => if state.done then none else some (task, state)
    | (_, .error _) => none

/--
The graph after the answers about its tasks: tasks that are done or given up complete, and the
others learn what was read.
-/
def settle (graph : TaskGraph) (answers : List (TaskId × Except ReadFault TaskState)) :
    TaskGraph :=
  let (graph, givenUp) := graph.countFailures (unreadTasks answers)
  let graph := (finishedTasks answers ++ givenUp).foldl complete graph
  { graph with
    nodes := (pendingTasks answers).foldl
      (fun nodes (task, state) => nodes.modify task (learn state)) graph.nodes }

/-- The states of the pending tasks that turned out to be on the loop. -/
def statesOn (graph : TaskGraph) (loop : LoopId)
    (answers : List (TaskId × Except ReadFault TaskState)) : TaskStates :=
  (pendingTasks answers).foldl
    (fun states (task, state) =>
      if (graph.nodes[task]?.bind (·.loop)) = some loop then states.insert task state else states)
    ∅

/-! ### Who waits on whom -/

/-- Whether the outermost frame of a task is on a stack. -/
def isOnStack (physical : List WalkedFrame) (state : TaskState) : Bool :=
  match state.coroutine.head? with
  | some outer => physical.any (·.place == outer)
  | none => false

/-- Whether a task that was read is on a stack. -/
def isReadOnStack (states : TaskStates) (physical : List WalkedFrame) (task : TaskId) : Bool :=
  states[task]?.any (isOnStack physical)

/--
The running task of a loop: the one it was last said to run, else one whose coroutine is on the
thread's stack.
-/
def currentTask (order : VisitingOrder) (graph : TaskGraph) (loop : LoopId) (states : TaskStates)
    (physical : List WalkedFrame) : Option TaskId :=
  ((graph.runningTask? loop).filter states.contains).or
    ((order.states states.keys).find? (isReadOnStack states physical))

/-- The number of frames of a stack, from its inner end, that belong to the running task. -/
def runningDepth (states : TaskStates) (running : Option TaskId) (physical : List WalkedFrame) :
    Nat :=
  match (running.bind (states[·]?)).bind (·.coroutine.head?) with
  | none => 0
  | some outer =>
      match physical.findIdx? (·.place == outer) with
      | some index => index + 1
      | none => 0

/-- The task among those read that a state awaits. -/
def awaited? (states : TaskStates) (state : TaskState) : Option TaskId :=
  state.awaiting.filter states.contains

/-- For each awaited task one that awaits it. -/
def waitersOf (order : VisitingOrder) (states : TaskStates) : Std.ExtTreeMap TaskId TaskId :=
  (order.states states.keys).foldl
    (fun waiters task =>
      match states[task]?.bind (awaited? states) with
      | some awaited => waiters.insertIfNew awaited task
      | none => waiters)
    ∅

/-- Whether a task that was read awaits no other and has no child among those read. -/
def isLeaf (graph : TaskGraph) (states : TaskStates) (task : TaskId) : Bool :=
  let awaits := (states[task]?.bind (awaited? states)).isSome
  let children := match graph.nodes[task]? with
    | some node => node.children.toList
    | none => []
  !awaits && !children.any states.contains

/-- The place of a task in the order of creation. -/
def createdAt (graph : TaskGraph) (task : TaskId) : Nat :=
  match graph.nodes[task]? with
  | some node => node.created
  | none => 0

/-- The tasks whose stacks are shown, in the order of their creation. -/
def leaves (order : VisitingOrder) (graph : TaskGraph) (states : TaskStates) : List TaskId :=
  ((order.states states.keys).filter (graph.isLeaf states)).mergeSort
    fun first second => graph.createdAt first ≤ graph.createdAt second

/-- The parents of a task, the one linked earliest first. -/
def parentsInOrder (node : TaskNode) : List TaskId :=
  (node.parents.toList.mergeSort fun (first, place) (second, later) =>
    place < later || (place == later && first ≤ second)).map (·.1)

/-- Whether a task that was read awaits one other than `task`. -/
def awaitsOther (states : TaskStates) (state : TaskState) (task : TaskId) : Bool :=
  (awaited? states state).any (· != task)

/-- Whether a parent can stand behind `task` in a stack that already shows `visited`. -/
def canFollow (states : TaskStates) (running : Option TaskId) (visited : List TaskId)
    (task parent : TaskId) : Bool :=
  match states[parent]? with
  | none => false
  | some state =>
      !visited.contains parent && some parent != running && !awaitsOther states state task

/--
The task that stands behind `task` in a stack: the one that awaits it, else the parent linked
earliest.  Neither may be running or be in the stack already, and the parent may not await another.
-/
def awaiterOf (graph : TaskGraph) (states : TaskStates) (waiters : Std.ExtTreeMap TaskId TaskId)
    (running : Option TaskId) (visited : List TaskId) (task : TaskId) : Option TaskId :=
  let direct := waiters[task]?.filter fun waiter =>
    !visited.contains waiter && some waiter != running
  direct.or <|
    match graph.nodes[task]? with
    | none => none
    | some node => (parentsInOrder node).find? (canFollow states running visited task)

/--
The tasks from `task` on that stand in one stack, of which at most `room` more; `visited` are those
before it.
-/
def chainFrom (graph : TaskGraph) (states : TaskStates) (waiters : Std.ExtTreeMap TaskId TaskId)
    (running : Option TaskId) : Nat → List TaskId → TaskId → List TaskId
  | 0, _, task => [task]
  | room + 1, visited, task =>
      match graph.awaiterOf states waiters running (task :: visited) task with
      | some next => task :: graph.chainFrom states waiters running room (task :: visited) next
      | none => [task]

/-- The tasks in the stack of a leaf.  None is shown twice, so there are no more than were read. -/
def chainOf (graph : TaskGraph) (states : TaskStates) (waiters : Std.ExtTreeMap TaskId TaskId)
    (running : Option TaskId) (leaf : TaskId) : List TaskId :=
  graph.chainFrom states waiters running states.size [] leaf

/-! ### The stacks -/

/-- The suspended frames of a task, innermost first; what cannot be read is passed over. -/
def suspendedFrames (interpreter : Interpreter σ) : List Address → Observing σ (List Frame)
  | [] => pure []
  | place :: rest => do
      let resolved ← (Walking.resolveFrame interpreter place).run
      let others ← suspendedFrames interpreter rest
      match resolved with
      | .ok walked => pure (walked.frame :: others)
      | .error _ => pure others

/-- The frames of a task within a stack, without its boundary. -/
def taskFrames (interpreter : Interpreter σ) (states : TaskStates) (running : Option TaskId)
    (runningFrames : List WalkedFrame) (task : TaskId) : Observing σ (List Frame) :=
  if some task = running then pure (runningFrames.map (·.frame))
  else
    match states[task]? with
    | some state => suspendedFrames interpreter state.coroutine.reverse
    | none => pure []

/-- The boundary of a task, if the graph knows it. -/
def boundaryOf (graph : TaskGraph) (task : TaskId) : List Frame :=
  match graph.nodes[task]? with
  | some node => [node.boundary task]
  | none => []

/-- The frames of the tasks of a stack, each followed by its boundary. -/
def chainFrames (interpreter : Interpreter σ) (graph : TaskGraph) (states : TaskStates)
    (running : Option TaskId) (runningFrames : List WalkedFrame) :
    List TaskId → Observing σ (List Frame)
  | [] => pure []
  | task :: rest => do
      let frames ← taskFrames interpreter states running runningFrames task
      let others ← chainFrames interpreter graph states running runningFrames rest
      pure (frames ++ graph.boundaryOf task ++ others)

/-- The stacks of several chains of tasks. -/
def chainStacks (interpreter : Interpreter σ) (graph : TaskGraph) (states : TaskStates)
    (running : Option TaskId) (runningFrames loopFrames : List WalkedFrame) :
    List (TaskId × List TaskId) → Observing σ (List Stack)
  | [] => pure []
  | (leaf, chain) :: rest => do
      let frames ← chainFrames interpreter graph states running runningFrames chain
      let others ← chainStacks interpreter graph states running runningFrames loopFrames rest
      let onCpu := match running with
        | some task => chain.contains task
        | none => false
      pure (⟨some leaf, onCpu, frames ++ loopFrames.map (·.frame)⟩ :: others)

/-- Notes that tasks were shown in the current cycle. -/
def markShown (graph : TaskGraph) (tasks : List TaskId) : TaskGraph :=
  { graph with
    nodes := tasks.foldl
      (fun nodes task => nodes.modify task fun node =>
        { node with lastRendered := some graph.cycle })
      graph.nodes }

/--
The stacks of the loop that a thread runs, and the graph with what was learned on the way.
`physical` is the thread's own stack; it is given back as it is if the thread has no loop or the
loop has no live task.
-/
def renderIn (order : VisitingOrder) (interpreter : Interpreter σ) (graph : TaskGraph)
    (thread : ThreadId) (physical : List WalkedFrame) : Observing σ (List Stack × TaskGraph) :=
  match graph.loopOf? thread with
  | none => pure ([.physical physical], graph)
  | some loop => do
      let tasks := (order.nodes graph.nodes.keys).filter (graph.mayRunOn loop)
      let answers ← Observing.query (readTasks interpreter tasks)
      let graph := graph.settle answers
      let states := graph.statesOn loop answers
      let running := graph.currentTask order loop states physical
      let (runningFrames, loopFrames) := physical.splitAt (runningDepth states running physical)
      let waiters := waitersOf order states
      let chains := (graph.leaves order states).map fun leaf =>
        (leaf, graph.chainOf states waiters running leaf)
      let stackList ← chainStacks interpreter graph states running runningFrames loopFrames chains
      let graph := graph.markShown (chains.flatMap (·.2))
      pure (if stackList.isEmpty then [.physical physical] else stackList, graph)

/-- The stacks of the loop that a thread runs, going through tasks by their identities. -/
def render (interpreter : Interpreter σ) (graph : TaskGraph) (thread : ThreadId)
    (physical : List WalkedFrame) : Observing σ (List Stack × TaskGraph) :=
  graph.renderIn .ascending interpreter thread physical

end StackSampler.TaskGraph
