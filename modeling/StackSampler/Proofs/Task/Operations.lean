import Mathlib.Data.List.Induction
import StackSampler.Proofs.Task.Growth
import StackSampler.Proofs.Task.Stacks

/-!
# Operations on a task graph

The steps that lead from one graph to the next, as data: a run is a list of them, so that a
statement can look back at what was done, and can say of one operation what it completes and what
it shows.  Of all operations only three do more than name tasks: one completes a task, one shows
the tasks of a loop and completes those that have ended, and one ends a cycle.
-/

namespace StackSampler.TaskGraph

/-- Something that is done with a graph. -/
inductive Operation where
  | registerLoop (thread : ThreadId) (loop : LoopId)
  | create (task : TaskDescription)
  | link (parent child : TaskId)
  | enter (loop : LoopId) (task : TaskId)
  | leave (loop : LoopId) (task : TaskId)
  | complete (task : TaskId)
  | importAll (running : List (LoopId × TaskId)) (scheduled eager : List TaskDescription)
  | watch (container : TaskContainer)
  /-- The collections are looked through, with the interpreter as it then is. -/
  | discover {σ : Type} (interpreter : Interpreter σ) (subject : σ)
  /-- A thread with a stack is shown, with the interpreter as it then is. -/
  | render {σ : Type} (order : VisitingOrder) (lawful : order.Lawful)
      (interpreter : Interpreter σ) (thread : ThreadId) (physical : List WalkedFrame)
      (observation : Observation σ)
  /-- A cycle ends. -/
  | prune

variable {graph : TaskGraph}

/-- The graph after an operation. -/
def after (graph : TaskGraph) : Operation → TaskGraph
  | .registerLoop thread loop => graph.registerLoop thread loop
  | .create task => graph.create task
  | .link parent child => graph.link parent child
  | .enter loop task => graph.enter loop task
  | .leave loop task => graph.leave loop task
  | .complete task => graph.complete task
  | .importAll running scheduled eager => graph.importAll running scheduled eager
  | .watch container => graph.watch container
  | .discover interpreter subject => ((graph.discover interpreter).run subject).1
  | .render order _ interpreter thread physical observation =>
      ((graph.renderIn order interpreter thread physical).run observation).1.2
  | .prune => graph.prune

/-- The graph that several operations make of the empty one. -/
def run (operations : List Operation) : TaskGraph :=
  operations.foldl after {}

theorem run_append (earlier recent : List Operation) :
    run (earlier ++ recent) = recent.foldl after (run earlier) :=
  List.foldl_append

theorem run_concat (operations : List Operation) (operation : Operation) :
    run (operations ++ [operation]) = (run operations).after operation := by
  rw [run, List.foldl_concat, ← run]

theorem step_after (graph : TaskGraph) (operation : Operation) :
    Step graph (graph.after operation) := by
  cases operation with
  | render order lawful interpreter thread physical observation =>
      exact .render lawful interpreter thread physical observation
  | _ => constructor

theorem Step.exists_operation {changed : TaskGraph} (step : Step graph changed) :
    ∃ operation, graph.after operation = changed := by
  cases step with
  | registerLoop thread loop => exact ⟨.registerLoop thread loop, rfl⟩
  | create task => exact ⟨.create task, rfl⟩
  | link parent child => exact ⟨.link parent child, rfl⟩
  | enter loop task => exact ⟨.enter loop task, rfl⟩
  | leave loop task => exact ⟨.leave loop task, rfl⟩
  | complete task => exact ⟨.complete task, rfl⟩
  | importAll running scheduled eager => exact ⟨.importAll running scheduled eager, rfl⟩
  | watch container => exact ⟨.watch container, rfl⟩
  | discover interpreter subject => exact ⟨.discover interpreter subject, rfl⟩
  | render lawful interpreter thread physical observation =>
      exact ⟨.render _ lawful interpreter thread physical observation, rfl⟩
  | prune => exact ⟨.prune, rfl⟩

/-- The graphs that can be reached are those of the runs. -/
theorem reachable_iff : graph.Reachable ↔ ∃ operations, run operations = graph := by
  constructor
  · intro reachable
    induction reachable with
    | refl => exact ⟨[], rfl⟩
    | tail _ step induction =>
        rcases induction with ⟨operations, rfl⟩
        rcases step.exists_operation with ⟨operation, rfl⟩
        exact ⟨operations ++ [operation], run_concat operations operation⟩
  · rintro ⟨operations, rfl⟩
    induction operations using List.reverseRecOn with
    | nil => exact .refl
    | append_singleton operations operation induction =>
        rw [run_concat]
        exact .tail induction (step_after _ operation)

theorem Consistent.after (consistent : graph.Consistent) (operation : Operation) :
    (graph.after operation).Consistent :=
  consistent.step (step_after graph operation)

theorem consistent_run (operations : List Operation) : (run operations).Consistent :=
  (reachable_iff.mpr ⟨operations, rfl⟩).consistent

/-! ## Operations that only name tasks -/

/-- An operation that completes no task, shows none, and ends no cycle. -/
def Operation.IsNaming : Operation → Prop
  | .complete _ => False
  | .render .. => False
  | .prune => False
  | _ => True

/-- All that such an operation does with tasks is to name them. -/
theorem Consistent.carries_after (consistent : graph.Consistent) {operation : Operation}
    (naming : operation.IsNaming) : graph.Carries (graph.after operation) := by
  cases operation with
  | registerLoop thread loop => exact Carries.of_nodes rfl rfl rfl
  | create task => exact consistent.carries_create task
  | link parent child => exact consistent.carries_link parent child
  | enter loop task => exact Carries.of_nodes rfl rfl rfl
  | leave loop task =>
      exact Carries.of_nodes (nodes_leave graph loop task) (sequence_leave graph loop task)
        (cycle_leave graph loop task)
  | complete task => exact naming.elim
  | importAll running scheduled eager =>
      exact consistent.carries_importAll running scheduled eager
  | watch container =>
      rw [TaskGraph.after, watch]
      split <;> exact Carries.of_nodes rfl rfl rfl
  | discover interpreter subject => exact consistent.carries_discover interpreter subject
  | render => exact naming.elim
  | prune => exact naming.elim

theorem Consistent.grows_after (consistent : graph.Consistent) {operation : Operation}
    (naming : operation.IsNaming) : graph.Grows (graph.after operation) :=
  (consistent.carries_after naming).grows

/-! ## Showing a loop -/

/-- The tasks that are shown with a thread: those of the chains of its loop. -/
def shownWith {σ : Type} (graph : TaskGraph) (order : VisitingOrder) (interpreter : Interpreter σ)
    (thread : ThreadId) (physical : List WalkedFrame) (subject : σ) : List TaskId :=
  match graph.loopOf? thread with
  | none => []
  | some loop =>
      let answers := (graph.answersOn order interpreter loop subject).1
      let settled := graph.settle answers
      let view := graph.viewOf order loop answers physical
      (settled.leaves order view.states).flatMap
        (settled.chainOf view.states (waitersOf order view.states) view.running)

theorem renderIn_of_unhosted {σ : Type} {thread : ThreadId} (unhosted : graph.loopOf? thread = none)
    (order : VisitingOrder) (interpreter : Interpreter σ) (physical : List WalkedFrame)
    (observation : Observation σ) :
    ((graph.renderIn order interpreter thread physical).run observation).1.2 = graph := by
  rw [renderIn, unhosted]
  rfl

/-- Showing the tasks of a loop settles the answers about them, and notes which tasks it shows. -/
theorem renderIn_of_hosted {σ : Type} {thread : ThreadId} {loop : LoopId}
    (hosted : graph.loopOf? thread = some loop) (order : VisitingOrder)
    (interpreter : Interpreter σ) (physical : List WalkedFrame) (observation : Observation σ) :
    ((graph.renderIn order interpreter thread physical).run observation).1.2 =
      (graph.settle (graph.answersOn order interpreter loop observation.subject).1).markShown
        (graph.shownWith order interpreter thread physical observation.subject) := by
  have chained : ∀ (leaves : List TaskId) (chain : TaskId → List TaskId),
      (leaves.map fun leaf => (leaf, chain leaf)).flatMap (·.2) = leaves.flatMap chain := by
    intro leaves chain
    rw [List.flatMap_map]
  rw [shownWith, renderIn, hosted]
  dsimp only
  rw [← chained]
  rfl

end StackSampler.TaskGraph
