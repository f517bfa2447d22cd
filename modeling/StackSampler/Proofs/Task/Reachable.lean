import Mathlib.Logic.Relation
import StackSampler.Proofs.Task.Consistency
import StackSampler.Task.Discovery
import StackSampler.Task.Rendering

/-!
# Reachable task graphs

A graph starts empty and is changed by what the host reports, by looking for tasks and by showing
them, in any order and whatever the interpreter answers.  This module names these changes as steps
and shows that every graph they lead to is consistent.
-/

namespace StackSampler

/-- A node after one more failed read. -/
def TaskNode.missed (node : TaskNode) : TaskNode :=
  { node with failures := node.failures + 1 }

namespace TaskGraph

variable {σ : Type} {graph : TaskGraph}

/-! ## Settling answers -/

theorem countFailure_eq (graph : TaskGraph) (task : TaskId) :
    (graph.countFailure task).1 =
      { graph with nodes := graph.nodes.modify task TaskNode.missed } := by
  have same : (graph.countFailure task).1.nodes = graph.nodes.modify task TaskNode.missed := by
    apply Std.ExtTreeMap.ext_getElem?
    intro asked
    rw [countFailure, Std.ExtTreeMap.getElem?_modify]
    cases found : graph.nodes[task]? with
    | none =>
        by_cases equal : task = asked
        · simp [← equal, found]
        · simp [equal]
    | some node =>
        by_cases equal : task = asked
        · simp [← equal, TaskNode.missed]
        · simp [Std.ExtTreeMap.getElem?_insert, equal]
  rw [← same, countFailure]
  split <;> rfl

/-- Counting failed reads changes the nodes of the tasks that could not be read, and no other. -/
theorem countFailures_eq (graph : TaskGraph) (tasks : List TaskId) :
    (graph.countFailures tasks).1 =
      { graph with
        nodes := tasks.foldl (fun nodes task => nodes.modify task TaskNode.missed)
          graph.nodes } := by
  induction tasks generalizing graph with
  | nil => rfl
  | cons task rest induction =>
      rw [countFailures]
      dsimp only
      rw [induction, countFailure_eq]
      rfl

theorem countFailures_sameTies (graph : TaskGraph) (tasks : List TaskId) :
    graph.SameTies (graph.countFailures tasks).1 := by
  rw [countFailures_eq]
  apply SameTies.foldl_modify tasks id fun _ => TaskNode.missed
  intro task node
  rfl

theorem learnAll_sameTies (graph : TaskGraph) (pending : List (TaskId × TaskState)) :
    graph.SameTies
      { graph with
        nodes := pending.foldl
          (fun nodes (task, state) => nodes.modify task (learn state)) graph.nodes } := by
  apply SameTies.foldl_modify pending Prod.fst fun answer => learn answer.2
  intro answer node
  rfl

theorem markShown_sameTies (graph : TaskGraph) (tasks : List TaskId) :
    graph.SameTies (graph.markShown tasks) := by
  apply SameTies.foldl_modify tasks id
  intro task node
  rfl

namespace Consistent

theorem completeAll (consistent : graph.Consistent) (tasks : List TaskId) :
    (tasks.foldl TaskGraph.complete graph).Consistent := by
  induction tasks generalizing graph with
  | nil => exact consistent
  | cons task rest induction => exact induction (consistent.complete task)

/-- Whatever the interpreter answers about tasks, the graph stays consistent. -/
theorem settle
    (consistent : graph.Consistent) (answers : List (TaskId × Except ReadFault TaskState)) :
    (graph.settle answers).Consistent := by
  have counted : (graph.countFailures (unreadTasks answers)).1.Consistent :=
    (countFailures_sameTies graph (unreadTasks answers)).consistent consistent
  have completed := counted.completeAll
    (finishedTasks answers ++ (graph.countFailures (unreadTasks answers)).2)
  exact (learnAll_sameTies _ (pendingTasks answers)).consistent completed

theorem markShown (consistent : graph.Consistent) (tasks : List TaskId) :
    (graph.markShown tasks).Consistent :=
  (markShown_sameTies graph tasks).consistent consistent

end Consistent

/-! ## Looking for tasks -/

/-- What is found in the collections is announced, one task after the other. -/
theorem takeUp_creates (graph : TaskGraph) (interpreter : Interpreter σ) (tasks : List TaskId)
    (subject : σ) :
    ∃ found : List TaskDescription,
      ((graph.takeUp interpreter tasks).run subject).1 = found.foldl create graph := by
  induction tasks generalizing graph subject with
  | nil => exact ⟨[], rfl⟩
  | cons task rest induction =>
      rw [takeUp]
      split
      · exact induction graph subject
      · rw [StateT.run_bind]
        cases read : (interpreter.task task).run.run subject with
        | mk answer later =>
            cases announced : description? task answer with
            | none =>
                simp only [bind, announced]
                exact induction graph later
            | some description =>
                simp only [bind, announced]
                rcases induction (graph.create description) later with ⟨found, same⟩
                exact ⟨description :: found, same⟩

theorem discover_creates (graph : TaskGraph) (interpreter : Interpreter σ) (subject : σ) :
    ∃ found : List TaskDescription,
      ((graph.discover interpreter).run subject).1 = found.foldl create graph :=
  takeUp_creates graph interpreter _ _

/-- Of tasks that existed before, some may be said to run after all have been announced. -/
theorem importAll_creates
    (graph : TaskGraph) (running : List (LoopId × TaskId))
    (scheduled eager : List TaskDescription) :
    ∃ entered, graph.importAll running scheduled eager =
      { (scheduled ++ eager).foldl create graph with running := entered } := by
  rw [importAll]
  generalize (scheduled ++ eager).foldl create graph = imported
  dsimp only
  induction running generalizing imported with
  | nil => exact ⟨imported.running, rfl⟩
  | cons entry rest induction =>
      rw [List.foldl_cons]
      split
      · exact induction (imported.enter entry.1 entry.2)
      · exact induction imported

/-! ## Reachable graphs -/

/-- An order goes through all that there is, and through each once. -/
structure VisitingOrder.Lawful (order : VisitingOrder) : Prop where
  nodes : ∀ tasks, (order.nodes tasks).Perm tasks
  states : ∀ tasks, (order.states tasks).Perm tasks

/-- What one event, or one look at the interpreter, makes of a graph. -/
inductive Step (graph : TaskGraph) : TaskGraph → Prop where
  | registerLoop (thread : ThreadId) (loop : LoopId) :
      Step graph (graph.registerLoop thread loop)
  | create (task : TaskDescription) :
      Step graph (graph.create task)
  | link (parent child : TaskId) :
      Step graph (graph.link parent child)
  | enter (loop : LoopId) (task : TaskId) :
      Step graph (graph.enter loop task)
  | leave (loop : LoopId) (task : TaskId) :
      Step graph (graph.leave loop task)
  | complete (task : TaskId) :
      Step graph (graph.complete task)
  | importAll (running : List (LoopId × TaskId))
      (scheduled eager : List TaskDescription) :
      Step graph (graph.importAll running scheduled eager)
  | watch (container : TaskContainer) :
      Step graph (graph.watch container)
  | discover {σ : Type} (interpreter : Interpreter σ) (subject : σ) :
      Step graph ((graph.discover interpreter).run subject).1
  | render {σ : Type} {order : VisitingOrder} (lawful : order.Lawful)
      (interpreter : Interpreter σ) (thread : ThreadId) (physical : List WalkedFrame)
      (observation : Observation σ) :
      Step graph ((graph.renderIn order interpreter thread physical).run observation).1.2
  | prune :
      Step graph graph.prune

/-- A graph that steps lead to from the empty one. -/
def Reachable (graph : TaskGraph) : Prop :=
  Relation.ReflTransGen Step {} graph

theorem consistent_empty : ({} : TaskGraph).Consistent := by
  have nowhere : ∀ (task : TaskId) (property : TaskNode → Prop),
      ¬ ∃ node, ({} : TaskGraph).nodes[task]? = some node ∧ property node := by
    rintro task property ⟨node, found, _⟩
    simp at found
  constructor
  case ends =>
    intro parent child
    constructor
    · exact fun listed => absurd listed (nowhere parent _)
    · rintro ⟨place, linked⟩
      exact absurd linked (nowhere child _)
  case irreflexive => exact fun task => nowhere task _
  case finished => exact fun parent task place _ => nowhere task _
  case created =>
    constructor
    · exact fun first _ _ created _ => absurd created (nowhere first _)
    · exact fun task _ created => absurd created (nowhere task _)
  case linked =>
    constructor
    · exact fun first _ _ linked _ => absurd linked (nowhere first.2 _)
    · exact fun edge _ linked => absurd linked (nowhere edge.2 _)

/-- Showing tasks settles answers about them and notes which were shown, or changes nothing. -/
theorem renderIn_graph
    (graph : TaskGraph) (order : VisitingOrder) (interpreter : Interpreter σ) (thread : ThreadId)
    (physical : List WalkedFrame) (observation : Observation σ) :
    ((graph.renderIn order interpreter thread physical).run observation).1.2 = graph ∨
      ∃ answers shown,
        ((graph.renderIn order interpreter thread physical).run observation).1.2 =
          (graph.settle answers).markShown shown := by
  rw [renderIn]
  cases graph.loopOf? thread with
  | none => exact .inl rfl
  | some loop => exact .inr ⟨_, _, rfl⟩

namespace Consistent

theorem createAll (consistent : graph.Consistent) (tasks : List TaskDescription) :
    (tasks.foldl TaskGraph.create graph).Consistent := by
  induction tasks generalizing graph with
  | nil => exact consistent
  | cons task rest induction => exact induction (consistent.create task)

theorem importAll
    (consistent : graph.Consistent) (running : List (LoopId × TaskId))
    (scheduled eager : List TaskDescription) :
    (graph.importAll running scheduled eager).Consistent := by
  rcases importAll_creates graph running scheduled eager with ⟨entered, same⟩
  rw [same]
  exact (consistent.createAll (scheduled ++ eager)).of_nodes rfl rfl

theorem discover (consistent : graph.Consistent) (interpreter : Interpreter σ) (subject : σ) :
    ((graph.discover interpreter).run subject).1.Consistent := by
  rcases discover_creates graph interpreter subject with ⟨found, same⟩
  rw [same]
  exact consistent.createAll found

/-- One step keeps a graph consistent. -/
theorem step {changed : TaskGraph} (consistent : graph.Consistent) (step : Step graph changed) :
    changed.Consistent := by
  cases step with
  | registerLoop thread loop => exact consistent.of_nodes rfl rfl
  | create task => exact consistent.create task
  | link parent child => exact consistent.link parent child
  | enter loop task => exact consistent.of_nodes rfl rfl
  | leave loop task =>
      exact consistent.of_nodes (nodes_leave graph loop task) (sequence_leave graph loop task)
  | complete task => exact consistent.complete task
  | importAll running scheduled eager => exact consistent.importAll running scheduled eager
  | watch container =>
      rw [watch]
      split
      · exact consistent
      · exact consistent.of_nodes rfl rfl
  | discover interpreter subject => exact consistent.discover interpreter subject
  | render lawful interpreter thread physical observation =>
      rcases renderIn_graph graph _ interpreter thread physical observation with
        same | ⟨answers, shown, same⟩
      · rw [same]
        exact consistent
      · rw [same]
        exact (consistent.settle answers).markShown shown
  | prune => exact consistent.prune

end Consistent

theorem Reachable.consistent (reachable : graph.Reachable) : graph.Consistent := by
  induction reachable with
  | refl => exact consistent_empty
  | tail _ step induction => exact induction.step step

theorem Lists.parent_mem {parent child : TaskId} (listed : graph.Lists parent child) :
    parent ∈ graph.nodes := by
  rcases listed with ⟨node, found, _⟩
  rw [Std.ExtTreeMap.mem_iff_isSome_getElem?, found]
  rfl

theorem Linked.child_mem
    {parent child : TaskId} {place : Nat} (linked : graph.Linked parent child place) :
    child ∈ graph.nodes := by
  rcases linked with ⟨node, found, _⟩
  rw [Std.ExtTreeMap.mem_iff_isSome_getElem?, found]
  rfl

/--
In a reachable graph the two ends of every edge are tasks of the graph and tell of each other, no
task waits on itself or on one that has completed, and the places of tasks and of edges in the
order of events are distinct and have all been given out.
-/
theorem reachable_records_agree (reachable : graph.Reachable) :
    (∀ parent child, graph.Lists parent child ↔ ∃ place, graph.Linked parent child place) ∧
      (∀ parent child, graph.Lists parent child → parent ∈ graph.nodes ∧ child ∈ graph.nodes) ∧
      (∀ task, ¬ graph.Lists task task) ∧
      (∀ task, graph.Completed task → ∀ parent,
        ¬ graph.Lists parent task ∧ ∀ place, ¬ graph.Linked parent task place) ∧
      (∀ first second place,
        graph.CreatedAs first place → graph.CreatedAs second place → first = second) ∧
      (∀ parent child otherParent otherChild place,
        graph.Linked parent child place → graph.Linked otherParent otherChild place →
          parent = otherParent ∧ child = otherChild) ∧
      (∀ task place, graph.CreatedAs task place → place ≤ graph.sequence) ∧
      ∀ parent child place, graph.Linked parent child place → place ≤ graph.sequence := by
  have consistent := reachable.consistent
  refine ⟨consistent.ends, ?_, consistent.irreflexive, ?_, consistent.created.distinct, ?_,
    consistent.created.bounded, ?_⟩
  · intro parent child listed
    rcases (consistent.ends parent child).mp listed with ⟨place, linked⟩
    exact ⟨listed.parent_mem, linked.child_mem⟩
  · intro task completed parent
    constructor
    · intro listed
      rcases (consistent.ends parent task).mp listed with ⟨place, linked⟩
      exact consistent.finished parent task place completed linked
    · exact fun place => consistent.finished parent task place completed
  · intro parent child otherParent otherChild place left right
    exact consistent.linked_distinct left right
  · intro parent child place linked
    exact consistent.linked.bounded (parent, child) place linked

/-- Two tasks wait on a third one, which then completes; one of them waits on the other. -/
def waitingGraph : TaskGraph :=
  (((({} : TaskGraph).create ⟨1, 7, "first"⟩).link 1 3).link 2 3 |>.link 1 2).complete 3

theorem waitingGraph_reachable : waitingGraph.Reachable :=
  Relation.ReflTransGen.refl
    |>.tail (.create ⟨1, 7, "first"⟩)
    |>.tail (.link 1 3)
    |>.tail (.link 2 3)
    |>.tail (.link 1 2)
    |>.tail (.complete 3)

theorem reachable_records_agree_waitingGraph :
    waitingGraph.Reachable ∧ waitingGraph.Lists 1 2 ∧ (∃ place, waitingGraph.Linked 1 2 place) ∧
      waitingGraph.Completed 3 ∧ ¬ waitingGraph.Lists 1 3 ∧ ¬ waitingGraph.Lists 2 3 := by
  have listed : waitingGraph.Lists 1 2 := ⟨_, rfl, by decide⟩
  have completed : waitingGraph.Completed 3 := ⟨_, rfl, rfl⟩
  rcases reachable_records_agree waitingGraph_reachable with ⟨ends, _, _, finished, _⟩
  exact ⟨waitingGraph_reachable, listed, (ends 1 2).mp listed, completed,
    (finished 3 completed 1).1, (finished 3 completed 2).1⟩

end TaskGraph

end StackSampler
