import StackSampler.Proofs.Task.Operations

/-!
# What the end of a cycle leaves

A completed task is kept while it has children, for it stands in their stacks, and until the end of
the cycle in which it was shown.  What a node notes of that cycle is compared here with the run that
led to the graph: `ShownInCycle` looks back to where the cycle began.  An identity may belong to one
task after the other, so a task is told by its place in the order of creation as well.
-/

namespace StackSampler.TaskGraph

variable {graph changed last : TaskGraph} {task : TaskId} {place : Nat}
  {operations : List Operation} {operation : Operation}

/-! ## Changes that are no sighting -/

/-- Two graphs tell the same of when tasks were created and shown. -/
structure SameSightings (graph changed : TaskGraph) : Prop where
  sequence : changed.sequence = graph.sequence
  cycle : changed.cycle = graph.cycle
  sighting : ∀ task, changed.sighting? task = graph.sighting? task

theorem SameSightings.trans (first : graph.SameSightings changed)
    (second : changed.SameSightings last) : graph.SameSightings last where
  sequence := second.sequence.trans first.sequence
  cycle := second.cycle.trans first.cycle
  sighting task := (second.sighting task).trans (first.sighting task)

theorem SameSightings.recalls (same : graph.SameSightings changed) : graph.Recalls changed :=
  Recalls.of_sighting same.sequence same.cycle same.sighting

theorem countFailures_sameSightings (graph : TaskGraph) (tasks : List TaskId) :
    graph.SameSightings (graph.countFailures tasks).1 := by
  rw [countFailures_eq]
  refine ⟨rfl, rfl, ?_⟩
  apply map_getElem?_foldl_modify TaskNode.sighting tasks id fun _ => TaskNode.missed
  intro task node
  rfl

theorem learnAll_sameSightings (graph : TaskGraph) (pending : List (TaskId × TaskState)) :
    graph.SameSightings
      { graph with
        nodes := pending.foldl
          (fun nodes (task, state) => nodes.modify task (learn state)) graph.nodes } := by
  refine ⟨rfl, rfl, ?_⟩
  apply map_getElem?_foldl_modify TaskNode.sighting pending Prod.fst fun answer => learn answer.2
  intro answer node
  rfl

theorem cycle_complete (graph : TaskGraph) (task : TaskId) :
    (graph.complete task).cycle = graph.cycle := by
  rw [complete]
  split
  · rfl
  · split
    · rw [cycle_leave]
    · rfl

namespace Consistent

theorem complete_sameSightings (consistent : graph.Consistent) (task : TaskId) :
    graph.SameSightings (graph.complete task) := by
  refine ⟨sequence_complete graph task, cycle_complete graph task, ?_⟩
  intro asked
  rw [sighting?, consistent.getElem?_complete, sighting?]
  split
  · rw [Option.map_map]
    rfl
  · rw [Option.map_map]
    rfl

theorem completeAll_sameSightings (consistent : graph.Consistent) (tasks : List TaskId) :
    graph.SameSightings (tasks.foldl TaskGraph.complete graph) := by
  induction tasks generalizing graph with
  | nil => exact ⟨rfl, rfl, fun _ => rfl⟩
  | cons task rest induction =>
      exact (consistent.complete_sameSightings task).trans (induction (consistent.complete task))

theorem settle_sameSightings (consistent : graph.Consistent)
    (answers : List (TaskId × Except ReadFault TaskState)) :
    graph.SameSightings (graph.settle answers) := by
  have counting := countFailures_sameSightings graph (unreadTasks answers)
  have counted : (graph.countFailures (unreadTasks answers)).1.Consistent :=
    consistent.countFailures
  have completing := counted.completeAll_sameSightings (graph.endedBy answers)
  exact (counting.trans completing).trans (learnAll_sameSightings _ (pendingTasks answers))

end Consistent

/-! ## Sightings -/

/-- A change that makes no difference the second time may be made twice at a task. -/
theorem getElem?_foldl_modify_of_idempotent
    {change : TaskNode → TaskNode} (idempotent : ∀ node, change (change node) = change node)
    (tasks : List TaskId) (nodes : Std.ExtTreeMap TaskId TaskNode) (asked : TaskId) :
    (tasks.foldl (fun nodes task => nodes.modify task change) nodes)[asked]? =
      if asked ∈ tasks then nodes[asked]?.map change else nodes[asked]? := by
  induction tasks generalizing nodes with
  | nil => simp
  | cons first rest induction =>
      rw [List.foldl_cons, induction, Std.ExtTreeMap.getElem?_modify]
      by_cases equal : first = asked
      · have twice : change ∘ change = change := funext idempotent
        simp [equal, twice]
      · simp [equal, Ne.symm equal]

theorem sighting?_markShown (graph : TaskGraph) (shown : List TaskId) (task : TaskId) :
    (graph.markShown shown).sighting? task =
      if task ∈ shown then
        (graph.sighting? task).map fun sighting => ⟨sighting.created, some graph.cycle⟩
      else graph.sighting? task := by
  have idempotent : ∀ node : TaskNode,
      { { node with lastRendered := some graph.cycle } with lastRendered := some graph.cycle } =
        { node with lastRendered := some graph.cycle } :=
    fun _ => rfl
  rw [sighting?, markShown, getElem?_foldl_modify_of_idempotent idempotent, sighting?]
  split
  · rw [Option.map_map, Option.map_map]
    rfl
  · rfl

theorem sighting?_of_getElem? {node : TaskNode} (found : graph.nodes[task]? = some node) :
    graph.sighting? task = some node.sighting := by
  rw [sighting?, found, Option.map_some]

theorem createdAs_iff :
    graph.CreatedAs task place ↔
      ∃ sighting, graph.sighting? task = some sighting ∧ sighting.created = place := by
  rw [CreatedAs, sighting?]
  cases graph.nodes[task]? with
  | none => simp
  | some node => simp [TaskNode.sighting]

/-! ## What a cycle has shown -/

/-- The tasks that an operation shows. -/
def Operation.shows (graph : TaskGraph) : Operation → List TaskId
  | .render order _ interpreter thread physical observation =>
      graph.shownWith order interpreter thread physical observation.subject
  | _ => []

/-- Since the last cycle ended, a run has shown the task that was created at a given place. -/
def ShownInCycle (operations : List Operation) (task : TaskId) (place : Nat) : Prop :=
  ∃ before operation after, operations = before ++ operation :: after ∧ .prune ∉ after ∧
    task ∈ operation.shows (run before) ∧ (run before).CreatedAs task place

theorem shownInCycle_concat :
    ShownInCycle (operations ++ [operation]) task place ↔
      (operation ≠ .prune ∧ ShownInCycle operations task place) ∨
        (task ∈ operation.shows (run operations) ∧ (run operations).CreatedAs task place) := by
  constructor
  · rintro ⟨before, showing, after, same, goesOn, shown, created⟩
    rcases List.eq_nil_or_concat after with rfl | ⟨rest, last, rfl⟩
    · rcases List.append_singleton_inj.mp same with ⟨rfl, rfl⟩
      exact .inr ⟨shown, created⟩
    · rw [List.concat_eq_append, ← List.cons_append, ← List.append_assoc] at same
      rcases List.append_singleton_inj.mp same with ⟨rfl, rfl⟩
      rw [List.concat_eq_append, List.mem_append, not_or, List.mem_singleton] at goesOn
      exact .inl ⟨Ne.symm goesOn.2, before, showing, rest, rfl, goesOn.1, shown, created⟩
  · rintro (⟨goesOn, before, showing, after, rfl, goesOnToo, shown, created⟩ | ⟨shown, created⟩)
    · refine ⟨before, showing, after ++ [operation], by simp, ?_, shown, created⟩
      rw [List.mem_append, not_or, List.mem_singleton]
      exact ⟨goesOnToo, Ne.symm goesOn⟩
    · exact ⟨operations, operation, [], rfl, List.not_mem_nil, shown, created⟩

/-- Unless it ends a cycle, an operation first changes nothing about sightings, and then shows. -/
theorem Consistent.after_shows (consistent : graph.Consistent) (goesOn : operation ≠ .prune) :
    ∃ middle, graph.Recalls middle ∧
      (∀ task, task ∈ operation.shows graph → middle.sighting? task = graph.sighting? task) ∧
      graph.after operation = middle.markShown (operation.shows graph) := by
  have of_nothing : graph.Recalls (graph.after operation) → operation.shows graph = [] →
      ∃ middle, graph.Recalls middle ∧
        (∀ task, task ∈ operation.shows graph → middle.sighting? task = graph.sighting? task) ∧
        graph.after operation = middle.markShown (operation.shows graph) := by
    intro recalls nothing
    rw [nothing]
    exact ⟨_, recalls, fun _ shown => absurd shown List.not_mem_nil, rfl⟩
  cases operation with
  | complete task => exact of_nothing (consistent.complete_sameSightings task).recalls rfl
  | render order lawful interpreter thread physical observation =>
      cases hosted : graph.loopOf? thread with
      | none =>
          apply of_nothing
          · rw [TaskGraph.after, renderIn_of_unhosted hosted]
            exact Recalls.of_sighting rfl rfl fun _ => rfl
          · rw [Operation.shows, shownWith, hosted]
      | some loop =>
          have same := consistent.settle_sameSightings
            (graph.answersOn order interpreter loop observation.subject).1
          refine ⟨_, same.recalls, fun task _ => same.sighting task, ?_⟩
          rw [TaskGraph.after, renderIn_of_hosted hosted]
          rfl
  | prune => exact absurd rfl goesOn
  | _ =>
      refine of_nothing (consistent.grows_after ?_).toRecalls rfl
      exact trivial

/-- What a graph notes of when tasks were shown is what the run to it has shown. -/
structure Remembers (operations : List Operation) (graph : TaskGraph) : Prop where
  shown : ∀ task sighting, graph.sighting? task = some sighting →
    (sighting.lastRendered = some graph.cycle ↔ ShownInCycle operations task sighting.created)
  past : ∀ task sighting cycle, graph.sighting? task = some sighting →
    sighting.lastRendered = some cycle → cycle ≤ graph.cycle
  placed : ∀ task place, ShownInCycle operations task place → place ≤ graph.sequence

namespace Remembers

theorem not_shown_later (remembers : Remembers operations graph)
    (later : graph.sequence < place) : ¬ ShownInCycle operations task place :=
  fun shown => absurd (remembers.placed task place shown) (Nat.not_le.mpr later)

theorem shown_iff (remembers : Remembers operations graph) {node : TaskNode}
    (found : graph.nodes[task]? = some node) :
    node.lastRendered = some graph.cycle ↔ ShownInCycle operations task node.created :=
  remembers.shown task node.sighting (sighting?_of_getElem? found)

theorem not_shown_next (remembers : Remembers operations graph) {node : TaskNode}
    (found : graph.nodes[task]? = some node) : node.lastRendered ≠ some (graph.cycle + 1) := by
  intro rendered
  have past := remembers.past task node.sighting _ (sighting?_of_getElem? found) rendered
  exact absurd past (Nat.not_succ_le_self graph.cycle)

/-- A new cycle begins with nothing shown. -/
theorem prune (remembers : Remembers operations graph) :
    Remembers (operations ++ [.prune]) graph.prune := by
  have kept : ∀ task sighting, graph.prune.sighting? task = some sighting →
      ∃ node, graph.nodes[task]? = some node ∧ sighting = node.sighting := by
    intro task sighting now
    rw [sighting?, Option.map_eq_some_iff] at now
    rcases now with ⟨node, found, rfl⟩
    exact ⟨node, getElem?_of_prune found, rfl⟩
  have unseen : ∀ task place, ¬ ShownInCycle (operations ++ [.prune]) task place := by
    intro task place
    rw [shownInCycle_concat]
    rintro (⟨goesOn, _⟩ | ⟨shown, _⟩)
    · exact goesOn rfl
    · exact absurd shown List.not_mem_nil
  constructor
  case shown =>
    intro task sighting now
    rcases kept task sighting now with ⟨node, found, rfl⟩
    exact iff_of_false (remembers.not_shown_next found) (unseen task node.created)
  case past =>
    intro task sighting cycle now rendered
    rcases kept task sighting now with ⟨node, found, rfl⟩
    have past := remembers.past task node.sighting cycle (sighting?_of_getElem? found) rendered
    exact Nat.le_succ_of_le past
  case placed =>
    exact fun task place shown => absurd shown (unseen task place)

/-- The next operation shows tasks as they were before it. -/
theorem concat {middle : TaskGraph} (remembers : Remembers operations (run operations))
    (recalls : (run operations).Recalls middle) (goesOn : operation ≠ .prune)
    (known : ∀ task, task ∈ operation.shows (run operations) →
      middle.sighting? task = (run operations).sighting? task) :
    Remembers (operations ++ [operation])
      (middle.markShown (operation.shows (run operations))) := by
  constructor
  case shown =>
    intro task sighting now
    rw [sighting?_markShown] at now
    rw [shownInCycle_concat]
    split at now
    · rename_i member
      rw [Option.map_eq_some_iff, known task member] at now
      rcases now with ⟨before, found, rfl⟩
      exact iff_of_true rfl (.inr ⟨member, createdAs_iff.mpr ⟨before, found, rfl⟩⟩)
    · rename_i absent
      rw [or_iff_left fun shownNow => absent shownNow.1, and_iff_right goesOn]
      change sighting.lastRendered = some middle.cycle ↔ _
      rw [recalls.cycle]
      rcases recalls.sighting task sighting now with before | ⟨later, unseen⟩
      · exact remembers.shown task sighting before
      · exact iff_of_false (by simp [unseen]) (remembers.not_shown_later later)
  case past =>
    intro task sighting cycle now rendered
    change cycle ≤ middle.cycle
    rw [sighting?_markShown] at now
    split at now
    · rw [Option.map_eq_some_iff] at now
      rcases now with ⟨before, _, rfl⟩
      exact Nat.le_of_eq (Option.some.inj rendered).symm
    · rw [recalls.cycle]
      rcases recalls.sighting task sighting now with before | ⟨_, unseen⟩
      · exact remembers.past task sighting cycle before rendered
      · rw [unseen] at rendered
        contradiction
  case placed =>
    intro task place shown
    refine Nat.le_trans ?_ recalls.sequence
    rcases shownInCycle_concat.mp shown with ⟨_, before⟩ | ⟨_, created⟩
    · exact remembers.placed task place before
    · exact (consistent_run operations).created.bounded task place created

end Remembers

theorem remembers_run (operations : List Operation) :
    Remembers operations (run operations) := by
  induction operations using List.reverseRecOn with
  | nil =>
      have nothing : ∀ task place, ¬ ShownInCycle [] task place := by
        rintro task place ⟨before, operation, after, same, _⟩
        simp at same
      have unknown : ∀ task sighting, ({} : TaskGraph).sighting? task ≠ some sighting := by
        intro task sighting now
        simp [sighting?] at now
      exact ⟨fun task sighting now => absurd now (unknown task sighting),
        fun task sighting _ now => absurd now (unknown task sighting),
        fun task place shown => absurd shown (nothing task place)⟩
  | append_singleton operations operation remembers =>
      rw [run_concat]
      by_cases ends : operation = .prune
      · rw [ends]
        exact remembers.prune
      · rcases (consistent_run operations).after_shows ends with ⟨middle, recalls, known, same⟩
        rw [same]
        exact remembers.concat recalls ends known

/-! ## What is dropped -/

theorem not_mem_prune_iff {node : TaskNode} (found : graph.nodes[task]? = some node) :
    task ∉ graph.prune.nodes ↔
      node.completed = true ∧ node.hasEdges = false ∧ node.lastRendered ≠ some graph.cycle := by
  rw [Std.ExtTreeMap.mem_iff_isSome_getElem?, prune, Std.ExtTreeMap.getElem?_filter', found]
  simp [Option.filter, and_assoc]

/-- A task that has completed waits for others only, so all of its edges are to children. -/
theorem Consistent.hasEdges_eq_false_iff (consistent : graph.Consistent) {node : TaskNode}
    (found : graph.nodes[task]? = some node) (completed : node.completed = true) :
    node.hasEdges = false ↔ ∀ child, ¬ graph.Lists task child := by
  have childless : (∀ child, ¬ graph.Lists task child) ↔ node.children = ∅ := by
    rw [Std.ExtTreeSet.eq_empty_iff_forall_not_mem]
    simp [Lists, found]
  have parentless : node.parents = ∅ := by
    apply Std.ExtTreeMap.ext_getElem?
    intro parent
    rw [Std.ExtTreeMap.getElem?_empty, Option.eq_none_iff_forall_ne_some]
    exact fun place linked =>
      consistent.finished parent task place ⟨node, found, completed⟩ ⟨node, found, linked⟩
  rw [childless]
  simp [TaskNode.hasEdges, parentless]

/-- A task that has completed and is left was shown in the cycle, or waits for a live one. -/
theorem Consistent.shown_or_waits (consistent : graph.Consistent)
    (remembers : Remembers operations graph) (completed : graph.prune.Completed task)
    (created : graph.prune.CreatedAs task place) :
    ShownInCycle operations task place ∨
      ∃ child, graph.prune.Lists task child ∧ graph.prune.Live child := by
  rcases created with ⟨node, left, rfl⟩
  have found := getElem?_of_prune left
  have done := (exists_node_iff_of_found left (·.completed = true)).mp completed
  have kept : task ∈ graph.prune.nodes := (Std.ExtTreeMap.getElem?_eq_some_iff.mp left).fst
  by_cases waits : ∃ child, graph.Lists task child
  · rcases waits with ⟨child, listed⟩
    have still := (lists_prune graph task child).mpr listed
    rcases (consistent.prune.ends task child).mp still with ⟨edge, linked⟩
    refine .inr ⟨child, still, live_iff.mpr ⟨linked.child_mem, fun childDone => ?_⟩⟩
    exact consistent.prune.finished task child edge childDone linked
  · rw [not_exists] at waits
    refine .inl ?_
    by_contra unseen
    rw [← remembers.shown_iff found] at unseen
    exact (not_mem_prune_iff found).mpr
      ⟨done, (consistent.hasEdges_eq_false_iff found done).mpr waits, unseen⟩ kept

/-- When all tasks have completed, none is left after two cycles without anything in between. -/
theorem Consistent.prune_prune_isEmpty (consistent : graph.Consistent)
    (remembers : Remembers operations graph)
    (done : ∀ task, task ∈ graph.nodes → graph.Completed task) :
    graph.prune.prune.isEmpty = true := by
  have childless : ∀ task child, ¬ graph.Lists task child := by
    intro task child listed
    rcases (consistent.ends task child).mp listed with ⟨edge, linked⟩
    exact consistent.finished task child edge (done child linked.child_mem) linked
  rw [TaskGraph.isEmpty, Std.ExtTreeMap.isEmpty_iff, Std.ExtTreeMap.eq_empty_iff_forall_not_mem]
  intro task member
  have middle := getElem?_of_prune (Std.ExtTreeMap.getElem?_eq_some_getElem member)
  have found := getElem?_of_prune middle
  have known : task ∈ graph.nodes := (Std.ExtTreeMap.getElem?_eq_some_iff.mp found).fst
  have completed := (exists_node_iff_of_found found (·.completed = true)).mp (done task known)
  have edgeless := (consistent.hasEdges_eq_false_iff found completed).mpr (childless task)
  exact (not_mem_prune_iff middle).mpr
    ⟨completed, edgeless, remembers.not_shown_next found⟩ member

/--
At the end of a cycle, a task is dropped if it has completed, waits for no other and was not shown
since the cycle began, and in no other case.  What is left is as it was: all live tasks and all
edges, and of the completed tasks those that were shown or wait for a live one.  When all tasks have
completed, nothing is left after two cycles.
-/
theorem run_prune (operations : List Operation) :
    (∀ task place, (run operations).CreatedAs task place →
        (task ∉ (run operations).prune.nodes ↔
          (run operations).Completed task ∧ (∀ child, ¬ (run operations).Lists task child) ∧
            ¬ ShownInCycle operations task place)) ∧
      (∀ (task : TaskId) (node : TaskNode), (run operations).prune.nodes[task]? = some node →
        (run operations).nodes[task]? = some node) ∧
      (∀ task place, (run operations).prune.Completed task →
        (run operations).prune.CreatedAs task place →
          ShownInCycle operations task place ∨
            ∃ child, (run operations).prune.Lists task child ∧
              (run operations).prune.Live child) ∧
      (∀ task, (run operations).Live task → (run operations).prune.Live task) ∧
      (∀ parent child,
        (run operations).prune.Lists parent child ↔ (run operations).Lists parent child) ∧
      (∀ parent child place,
        (run operations).prune.Linked parent child place ↔
          (run operations).Linked parent child place) ∧
      ((∀ task, task ∈ (run operations).nodes → (run operations).Completed task) →
        (run operations).prune.prune.isEmpty = true) := by
  have consistent := consistent_run operations
  have remembers := remembers_run operations
  generalize run operations = graph at consistent remembers ⊢
  refine ⟨?_, fun task node => getElem?_of_prune,
    fun task place => consistent.shown_or_waits remembers, fun task => Live.prune,
    lists_prune graph, linked_prune graph, consistent.prune_prune_isEmpty remembers⟩
  rintro task place ⟨node, found, rfl⟩
  have isCompleted : graph.Completed task ↔ node.completed = true :=
    exists_node_iff_of_found found (·.completed = true)
  rw [not_mem_prune_iff found, isCompleted]
  refine and_congr_right fun completed => ?_
  exact and_congr (consistent.hasEdges_eq_false_iff found completed)
    (not_congr (remembers.shown_iff found))

/-- Two tasks wait for each other, and a third one is shown; then all of them complete. -/
def waitingRun : List Operation :=
  [.registerLoop 1 7, .create ⟨1, 7, "left"⟩, .create ⟨2, 7, "right"⟩, .create ⟨3, 7, "alone"⟩,
    .link 1 2, .link 2 1,
    .render .ascending ascending_lawful Tables.interpreter 1 []
      ⟨Walker.new ⟨3, 11⟩ 64, gatheringTables⟩,
    .complete 1, .complete 2, .complete 3]

theorem run_prune_waitingRun :
    (run waitingRun).prune.CreatedAs 3 3 ∧ (run waitingRun).prune.Completed 3 ∧
      ShownInCycle waitingRun 3 3 ∧ 1 ∉ (run waitingRun).prune.nodes ∧
      (run waitingRun).prune.prune.isEmpty = true := by
  rcases run_prune waitingRun with ⟨_, left, shownOrWaits, _, _, _, bothCycles⟩
  have done : ∀ (task : TaskId) (node : TaskNode), (run waitingRun).nodes[task]? = some node →
      node.completed = true := by
    have all : ∀ entry ∈ (run waitingRun).nodes.toList, entry.2.completed = true := by
      decide +kernel
    intro task node found
    exact all (task, node) (Std.ExtTreeMap.mem_toList_iff_getElem?_eq_some.mpr found)
  have third : (run waitingRun).prune.nodes[(3 : TaskId)]?.map
      (fun node => (node.created, node.completed)) =
      some (3, true) := by
    decide +kernel
  rw [Option.map_eq_some_iff] at third
  rcases third with ⟨node, found, same⟩
  rcases Prod.mk.inj same with ⟨createdThird, completedThird⟩
  have created : (run waitingRun).prune.CreatedAs 3 3 := ⟨node, found, createdThird⟩
  have completed : (run waitingRun).prune.Completed 3 := ⟨node, found, completedThird⟩
  refine ⟨created, completed, ?_, by decide +kernel, bothCycles ?_⟩
  · rcases shownOrWaits 3 3 completed created with shown | ⟨child, _, other, pending, live⟩
    · exact shown
    · exact absurd (done child other (left child other pending)) (Bool.eq_false_iff.mp live)
  · intro task known
    have otherFound := Std.ExtTreeMap.getElem?_eq_some_getElem known
    exact ⟨_, otherFound, done task _ otherFound⟩

end StackSampler.TaskGraph
