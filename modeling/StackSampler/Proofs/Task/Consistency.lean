import StackSampler.Proofs.Task.Edges

/-!
# Events keep a task graph consistent

Each event of the host is described by what it makes of the nodes of a consistent graph.  Events
that take edges away do so at both ends because either end tells where the other one is; only
naming a task and linking two of them adds anything.
-/

namespace StackSampler.TaskGraph

/-! ## One change at several tasks -/

section

variable {α : Type} {items : List α} (place : α → TaskId) (change : α → TaskNode → TaskNode)

theorem getElem?_foldl_modify_of_not_mem
    {asked : TaskId} (absent : asked ∉ items.map place)
    (nodes : Std.ExtTreeMap TaskId TaskNode) :
    (items.foldl (fun nodes item => nodes.modify (place item) (change item)) nodes)[asked]? =
      nodes[asked]? := by
  induction items generalizing nodes with
  | nil => rfl
  | cons item rest induction =>
      rw [List.map_cons, List.mem_cons, not_or] at absent
      rw [List.foldl_cons, induction absent.2]
      simp [Std.ExtTreeMap.getElem?_modify, Ne.symm absent.1]

/-- Changes at distinct tasks are made once at each of them. -/
theorem getElem?_foldl_modify_of_mem
    (distinct : (items.map place).Nodup) {item : α} (member : item ∈ items)
    (nodes : Std.ExtTreeMap TaskId TaskNode) :
    (items.foldl (fun nodes item => nodes.modify (place item) (change item)) nodes)[place item]? =
      nodes[place item]?.map (change item) := by
  induction items generalizing nodes with
  | nil => exact absurd member List.not_mem_nil
  | cons first rest induction =>
      rw [List.map_cons, List.nodup_cons] at distinct
      rw [List.foldl_cons]
      rcases List.mem_cons.mp member with rfl | later
      · rw [getElem?_foldl_modify_of_not_mem place change distinct.1]
        simp
      · have different : place first ≠ place item := by
          intro equal
          exact distinct.1 (equal ▸ List.mem_map_of_mem later)
        rw [induction distinct.2 later]
        simp [Std.ExtTreeMap.getElem?_modify, different]

end

theorem getElem?_foldl_modify
    (change : TaskNode → TaskNode) {tasks : List TaskId} (distinct : tasks.Nodup)
    (nodes : Std.ExtTreeMap TaskId TaskNode) (asked : TaskId) :
    (tasks.foldl (fun nodes task => nodes.modify task change) nodes)[asked]? =
      if asked ∈ tasks then nodes[asked]?.map change else nodes[asked]? := by
  have mapped : tasks.map id = tasks := List.map_id tasks
  split
  · rename_i member
    exact getElem?_foldl_modify_of_mem id (fun _ => change) (mapped.symm ▸ distinct) member nodes
  · rename_i absent
    exact getElem?_foldl_modify_of_not_mem id (fun _ => change) (mapped.symm ▸ absent) nodes

theorem nodup_children (node : TaskNode) : node.children.toList.Nodup := by
  have distinct := Std.ExtTreeSet.distinct_toList (t := node.children)
  simpa [List.Nodup] using distinct

variable {graph : TaskGraph}

theorem exists_changed_iff
    {change : TaskNode → TaskNode} (found : Option TaskNode) (property : TaskNode → Prop) :
    (∃ node, found.map change = some node ∧ property node) ↔
      ∃ node, found = some node ∧ property (change node) := by
  cases found <;> simp

theorem map_withoutChild_of_unlisted
    {asked task : TaskId} (unlisted : ¬ graph.Lists asked task) :
    graph.nodes[asked]?.map (TaskNode.withoutChild task) = graph.nodes[asked]? := by
  cases found : graph.nodes[asked]? with
  | none => rfl
  | some node =>
      have absent : task ∉ node.children := fun member => unlisted ⟨node, found, member⟩
      rw [Option.map_some, TaskNode.withoutChild_of_not_mem absent]

theorem map_withoutParent_of_unlinked
    {asked task : TaskId} (unlinked : ∀ place, ¬ graph.Linked task asked place) :
    graph.nodes[asked]?.map (TaskNode.withoutParent task) = graph.nodes[asked]? := by
  cases found : graph.nodes[asked]? with
  | none => rfl
  | some node =>
      have absent : node.parents[task]? = none := by
        rw [Option.eq_none_iff_forall_ne_some]
        exact fun place linked => unlinked place ⟨node, found, linked⟩
      rw [Option.map_some, TaskNode.withoutParent_of_none absent]

theorem sequence_detach (graph : TaskGraph) (task : TaskId) :
    (graph.detach task).sequence = graph.sequence := by
  rw [detach]
  split <;> rfl

@[simp]
theorem nodes_leave (graph : TaskGraph) (loop : LoopId) (task : TaskId) :
    (graph.leave loop task).nodes = graph.nodes := by
  rw [leave]
  split <;> rfl

@[simp]
theorem sequence_leave (graph : TaskGraph) (loop : LoopId) (task : TaskId) :
    (graph.leave loop task).sequence = graph.sequence := by
  rw [leave]
  split <;> rfl

theorem cycle_leave (graph : TaskGraph) (loop : LoopId) (task : TaskId) :
    (graph.leave loop task).cycle = graph.cycle := by
  rw [leave]
  split <;> rfl

theorem nodes_complete (graph : TaskGraph) (task : TaskId) :
    (graph.complete task).nodes =
      match graph.nodes[task]? with
      | none => graph.nodes
      | some node => node.parents.keys.foldl
          (fun nodes parent => nodes.modify parent (TaskNode.withoutChild task))
          (graph.nodes.insert task node.finished) := by
  rw [complete]
  cases graph.nodes[task]? with
  | none => rfl
  | some node =>
      dsimp only
      split
      · rw [nodes_leave]
        rfl
      · rfl

@[simp]
theorem sequence_complete (graph : TaskGraph) (task : TaskId) :
    (graph.complete task).sequence = graph.sequence := by
  rw [complete]
  split
  · rfl
  · split
    · rw [sequence_leave]
    · rfl

namespace Consistent

/-- The parents that a node tells of are all those that list its task. -/
theorem unlisted_of_not_mem
    (consistent : graph.Consistent) {task asked : TaskId} {node : TaskNode}
    (found : graph.nodes[task]? = some node) (absent : asked ∉ node.parents.keys) :
    ¬ graph.Lists asked task := by
  intro listed
  rcases (consistent.ends asked task).mp listed with ⟨place, same, sameFound, linked⟩
  rw [found, Option.some.injEq] at sameFound
  subst sameFound
  rw [Std.ExtTreeMap.mem_keys, Std.ExtTreeMap.mem_iff_isSome_getElem?, linked] at absent
  exact absent rfl

/-- The children that a node tells of are all those that name its task as a parent. -/
theorem unlinked_of_not_mem
    (consistent : graph.Consistent) {task asked : TaskId} {node : TaskNode}
    (found : graph.nodes[task]? = some node) (absent : asked ∉ node.children.toList)
    (place : Nat) : ¬ graph.Linked task asked place := by
  intro linked
  rcases consistent.lists_of_linked linked with ⟨same, sameFound, member⟩
  rw [found, Option.some.injEq] at sameFound
  subst sameFound
  exact absent (Std.ExtTreeSet.mem_toList.mpr member)

theorem unlisted_of_none
    (consistent : graph.Consistent) {task asked : TaskId} (absent : graph.nodes[task]? = none) :
    ¬ graph.Lists asked task := by
  intro listed
  rcases (consistent.ends asked task).mp listed with ⟨place, node, found, _⟩
  rw [absent] at found
  contradiction

theorem unlinked_of_none
    (consistent : graph.Consistent) {task asked : TaskId} (absent : graph.nodes[task]? = none)
    (place : Nat) : ¬ graph.Linked task asked place := by
  intro linked
  rcases consistent.lists_of_linked linked with ⟨node, found, _⟩
  rw [absent] at found
  contradiction

/-- Forgetting a child at the parents that its node tells of forgets it everywhere. -/
theorem forget_at_parents
    (consistent : graph.Consistent) {task : TaskId} {node : TaskNode}
    (found : graph.nodes[task]? = some node) (asked : TaskId) :
    (if asked ∈ node.parents.keys
      then graph.nodes[asked]?.map (TaskNode.withoutChild task) else graph.nodes[asked]?) =
      graph.nodes[asked]?.map (TaskNode.withoutChild task) := by
  split
  · rfl
  · rename_i absent
    rw [map_withoutChild_of_unlisted (consistent.unlisted_of_not_mem found absent)]

/-- A task that is taken out is forgotten by all others. -/
theorem getElem?_detach (consistent : graph.Consistent) (task asked : TaskId) :
    (graph.detach task).nodes[asked]? =
      if task = asked then none else graph.nodes[asked]?.map (TaskNode.without task) := by
  have split : graph.nodes[asked]?.map (TaskNode.without task) =
      (graph.nodes[asked]?.map (TaskNode.withoutChild task)).map
        (TaskNode.withoutParent task) := by
    rw [Option.map_map]
    rfl
  rw [detach, split]
  cases found : graph.nodes[task]? with
  | none =>
      rw [map_withoutChild_of_unlisted (consistent.unlisted_of_none found),
        map_withoutParent_of_unlinked (consistent.unlinked_of_none found)]
      by_cases equal : task = asked
      · simp [← equal, found]
      · simp [equal]
  | some node =>
      simp only [getElem?_foldl_modify _ (Std.ExtTreeMap.nodup_keys (t := node.parents)),
        getElem?_foldl_modify _ (nodup_children node), Std.ExtTreeMap.getElem?_erase]
      by_cases equal : task = asked
      · simp [equal]
      · -- Tasks that the node does not tell of have no edge with it, so they need no change.
        simp only [Std.compare_eq_iff_eq, equal, if_false,
          consistent.forget_at_parents found asked]
        split
        · rfl
        · rename_i absent
          rw [Option.map_map, TaskNode.withoutParent_comp_withoutChild, ← Option.map_map,
            map_withoutParent_of_unlinked (consistent.unlinked_of_not_mem found absent)]

/-- A task that completes is forgotten by its parents, and forgets them. -/
theorem getElem?_complete (consistent : graph.Consistent) (task asked : TaskId) :
    (graph.complete task).nodes[asked]? =
      if task = asked then graph.nodes[asked]?.map TaskNode.finished
      else graph.nodes[asked]?.map (TaskNode.withoutChild task) := by
  rw [nodes_complete]
  cases found : graph.nodes[task]? with
  | none =>
      rw [map_withoutChild_of_unlisted (consistent.unlisted_of_none found)]
      by_cases equal : task = asked
      · simp [← equal, found]
      · simp [equal]
  | some node =>
      simp only [getElem?_foldl_modify _ (Std.ExtTreeMap.nodup_keys (t := node.parents)),
        Std.ExtTreeMap.getElem?_insert]
      by_cases equal : task = asked
      · -- No task is its own parent, so the node that was just put in stays as it is.
        subst equal
        have absent : task ∉ node.parents.keys := by
          intro member
          rw [Std.ExtTreeMap.mem_keys, Std.ExtTreeMap.mem_iff_isSome_getElem?,
            Option.isSome_iff_exists] at member
          rcases member with ⟨place, linked⟩
          exact consistent.ne_of_linked ⟨node, found, linked⟩ rfl
        simp [absent, found]
      · simp only [Std.compare_eq_iff_eq, equal, if_false]
        exact consistent.forget_at_parents found asked

/-! ## Events that take edges away -/

theorem lists_detach (consistent : graph.Consistent) (task parent child : TaskId) :
    (graph.detach task).Lists parent child ↔
      graph.Lists parent child ∧ task ≠ parent ∧ task ≠ child := by
  simp only [Lists, consistent.getElem?_detach]
  split
  · simp [*]
  · rw [exists_changed_iff]
    simp [TaskNode.without, *, and_comm, and_left_comm]

theorem linked_detach (consistent : graph.Consistent) (task parent child : TaskId) (place : Nat) :
    (graph.detach task).Linked parent child place ↔
      graph.Linked parent child place ∧ task ≠ parent ∧ task ≠ child := by
  simp only [Linked, consistent.getElem?_detach]
  split
  · simp [*]
  · rw [exists_changed_iff]
    by_cases equal : task = parent
    · simp [TaskNode.without, *]
    · simp [TaskNode.without, *]

/-- Taking a task out takes its edges away at both of their ends. -/
theorem detach (consistent : graph.Consistent) (task : TaskId) :
    (graph.detach task).Consistent := by
  refine consistent.of_kept (fun parent child => task ≠ parent ∧ task ≠ child)
    (consistent.lists_detach task) (consistent.linked_detach task) ?_ ?_
    (sequence_detach graph task)
  · intro asked place
    simp only [CreatedAs, consistent.getElem?_detach]
    split
    · rintro ⟨node, found, _⟩
      contradiction
    · exact (exists_changed_iff _ _).mp
  · intro asked
    simp only [Completed, consistent.getElem?_detach]
    split
    · rintro ⟨node, found, _⟩
      contradiction
    · exact fun completed => .inl ((exists_changed_iff _ _).mp completed)

/-- A task that completes is taken from its parents, and all other edges stay. -/
theorem linked_complete
    (consistent : graph.Consistent) (task parent child : TaskId) (place : Nat) :
    (graph.complete task).Linked parent child place ↔
      graph.Linked parent child place ∧ task ≠ child := by
  simp only [Linked, consistent.getElem?_complete]
  split
  · rw [exists_changed_iff]
    simp [TaskNode.finished, *]
  · rw [exists_changed_iff]
    simp [*]

/-- A task that is known has completed after it was said to, and all other tasks are as before. -/
theorem completed_complete (consistent : graph.Consistent) (task asked : TaskId) :
    (graph.complete task).Completed asked ↔
      graph.Completed asked ∨ (task = asked ∧ asked ∈ graph.nodes) := by
  simp only [Completed, consistent.getElem?_complete]
  split
  · rename_i equal
    subst equal
    rw [exists_changed_iff]
    cases found : graph.nodes[task]? with
    | none => simp [Std.ExtTreeMap.mem_iff_isSome_getElem?, found]
    | some node => simp [Std.ExtTreeMap.mem_iff_isSome_getElem?, found, TaskNode.finished]
  · rw [exists_changed_iff]
    simp [TaskNode.withoutChild, *]

/-- A task that completes is no longer a child of anybody. -/
theorem complete (consistent : graph.Consistent) (task : TaskId) :
    (graph.complete task).Consistent := by
  refine consistent.of_kept (fun _ child => task ≠ child)
    ?_ (consistent.linked_complete task) ?_ ?_ (sequence_complete graph task)
  · intro parent child
    simp only [Lists, consistent.getElem?_complete]
    split
    · rename_i equal
      rw [exists_changed_iff, ← equal]
      constructor
      · intro listed
        refine ⟨listed, ?_⟩
        rintro rfl
        exact consistent.irreflexive task listed
      · exact fun listed => listed.1
    · rw [exists_changed_iff]
      simp [and_comm, and_left_comm]
  · intro asked place
    simp only [CreatedAs, consistent.getElem?_complete]
    split
    · exact (exists_changed_iff _ _).mp
    · exact (exists_changed_iff _ _).mp
  · intro asked completed
    rcases (consistent.completed_complete task asked).mp completed with before | ⟨equal, _⟩
    · exact .inl before
    · exact .inr fun _ other => other equal

end Consistent

/-- What is left of a graph at the end of a cycle was there before. -/
theorem getElem?_of_prune {asked : TaskId} {node : TaskNode}
    (found : graph.prune.nodes[asked]? = some node) : graph.nodes[asked]? = some node := by
  rw [prune, Std.ExtTreeMap.getElem?_filter', Option.filter_eq_some_iff] at found
  exact found.1

theorem getElem?_prune_of_hasEdges {asked : TaskId} {node : TaskNode}
    (found : graph.nodes[asked]? = some node) (edges : node.hasEdges = true) :
    graph.prune.nodes[asked]? = some node := by
  rw [prune, Std.ExtTreeMap.getElem?_filter', Option.filter_eq_some_iff]
  exact ⟨found, by simp [edges]⟩

/-- No live task is dropped. -/
theorem Live.prune {task : TaskId} (live : graph.Live task) : graph.prune.Live task := by
  rcases live with ⟨node, found, pending⟩
  refine ⟨node, ?_, pending⟩
  rw [TaskGraph.prune, Std.ExtTreeMap.getElem?_filter', Option.filter_eq_some_iff]
  exact ⟨found, by simp [pending]⟩

/-- Only tasks without edges are dropped, so no edge is. -/
theorem lists_prune (graph : TaskGraph) (parent child : TaskId) :
    graph.prune.Lists parent child ↔ graph.Lists parent child := by
  constructor
  · rintro ⟨node, found, member⟩
    exact ⟨node, getElem?_of_prune found, member⟩
  · rintro ⟨node, found, member⟩
    exact ⟨node, getElem?_prune_of_hasEdges found (TaskNode.hasEdges_of_child member), member⟩

theorem linked_prune (graph : TaskGraph) (parent child : TaskId) (place : Nat) :
    graph.prune.Linked parent child place ↔ graph.Linked parent child place := by
  constructor
  · rintro ⟨node, found, linked⟩
    exact ⟨node, getElem?_of_prune found, linked⟩
  · rintro ⟨node, found, linked⟩
    exact ⟨node, getElem?_prune_of_hasEdges found (TaskNode.hasEdges_of_parent linked), linked⟩

theorem Consistent.prune (consistent : graph.Consistent) : graph.prune.Consistent := by
  refine consistent.of_kept (fun _ _ => True) ?_ ?_ ?_ ?_ rfl
  · intro parent child
    rw [lists_prune, and_true]
  · intro parent child place
    rw [linked_prune, and_true]
  · rintro task place ⟨node, found, created⟩
    exact ⟨node, getElem?_of_prune found, created⟩
  · rintro task ⟨node, found, completed⟩
    exact .inl ⟨node, getElem?_of_prune found, completed⟩

/-! ## A new task -/

section

variable {task : TaskId} (loop : Option LoopId) (name : Option String)

theorem getElem?_addNew (graph : TaskGraph) (asked : TaskId) :
    (graph.addNew task loop name).nodes[asked]? =
      if task = asked then some (.new loop name (graph.sequence + 1)) else graph.nodes[asked]? := by
  rw [addNew, Std.ExtTreeMap.getElem?_insert]
  simp only [Std.compare_eq_iff_eq]

theorem lists_addNew (absent : graph.nodes[task]? = none) (parent child : TaskId) :
    (graph.addNew task loop name).Lists parent child ↔ graph.Lists parent child := by
  rw [Lists, Lists, getElem?_addNew]
  split
  · rename_i equal
    simp [TaskNode.new, ← equal, absent]
  · rfl

theorem linked_addNew (absent : graph.nodes[task]? = none) (parent child : TaskId) (place : Nat) :
    (graph.addNew task loop name).Linked parent child place ↔
      graph.Linked parent child place := by
  rw [Linked, Linked, getElem?_addNew]
  split
  · rename_i equal
    simp [TaskNode.new, ← equal, absent]
  · rfl

theorem createdAs_addNew {asked : TaskId} {place : Nat}
    (created : (graph.addNew task loop name).CreatedAs asked place) :
    graph.CreatedAs asked place ∨ (asked = task ∧ place = graph.sequence + 1) := by
  rcases created with ⟨node, found, isPlace⟩
  rw [getElem?_addNew] at found
  split at found
  · rename_i equal
    rw [Option.some.injEq] at found
    subst found
    exact .inr ⟨equal.symm, isPlace.symm⟩
  · exact .inl ⟨node, found, isPlace⟩

theorem completed_addNew {asked : TaskId}
    (completed : (graph.addNew task loop name).Completed asked) : graph.Completed asked := by
  rcases completed with ⟨node, found, ended⟩
  rw [getElem?_addNew] at found
  split at found
  · rw [Option.some.injEq] at found
    subst found
    contradiction
  · exact ⟨node, found, ended⟩

/-- A new task has no edges and comes last in the order of creation. -/
theorem Consistent.addNew
    (consistent : graph.Consistent) (absent : graph.nodes[task]? = none) :
    (graph.addNew task loop name).Consistent := by
  constructor
  case ends =>
    intro parent child
    simp only [lists_addNew loop name absent, linked_addNew loop name absent, consistent.ends]
  case irreflexive =>
    intro asked listed
    exact consistent.irreflexive asked ((lists_addNew loop name absent asked asked).mp listed)
  case finished =>
    intro parent asked place completed edge
    exact consistent.finished parent asked place (completed_addNew loop name completed)
      ((linked_addNew loop name absent parent asked place).mp edge)
  case created =>
    apply consistent.created.next task
    intro asked place now
    exact createdAs_addNew loop name now
  case linked =>
    apply consistent.linked.mono (Nat.le_succ graph.sequence)
    intro edge place now
    exact (linked_addNew loop name absent edge.1 edge.2 place).mp now

end

/-! ## A new edge -/

section

variable {parent child : TaskId} (different : parent ≠ child)

include different

theorem getElem?_addEdge (graph : TaskGraph) (asked : TaskId) :
    (graph.addEdge parent child).nodes[asked]? =
      if parent = asked then
        graph.nodes[asked]?.map (TaskNode.withChild child)
      else if child = asked then
        graph.nodes[asked]?.map (TaskNode.withParent parent (graph.sequence + 1))
      else graph.nodes[asked]? := by
  rw [addEdge]
  simp only [Std.ExtTreeMap.getElem?_modify, Std.compare_eq_iff_eq]
  by_cases isParent : parent = asked
  · have notChild : child ≠ asked := fun isChild => different (isParent.trans isChild.symm)
    simp only [isParent, notChild, if_true, if_false]
    rfl
  · by_cases isChild : child = asked
    · simp only [isParent, isChild, if_true, if_false]
      rfl
    · simp only [isParent, isChild, if_false]

theorem lists_addEdge (known : parent ∈ graph.nodes) (first second : TaskId) :
    (graph.addEdge parent child).Lists first second ↔
      graph.Lists first second ∨ (parent = first ∧ child = second) := by
  rw [Std.ExtTreeMap.mem_iff_isSome_getElem?, Option.isSome_iff_exists] at known
  rcases known with ⟨node, found⟩
  rw [Lists, Lists, getElem?_addEdge different]
  split
  · rename_i equal
    subst equal
    simp only [exists_changed_iff, found, Option.some.injEq, exists_eq_left',
      TaskNode.mem_children_withChild, true_and]
    exact or_comm
  · split
    · rw [exists_changed_iff]
      simp [*]
    · simp [*]

/-- An edge that was there keeps its place, and a new one gets the next. -/
theorem linked_addEdge
    {node : TaskNode} (found : graph.nodes[child]? = some node) (first second : TaskId)
    (place : Nat) :
    (graph.addEdge parent child).Linked first second place ↔
      graph.Linked first second place ∨ (parent = first ∧ child = second ∧
        place = graph.sequence + 1 ∧ node.parents[parent]? = none) := by
  rw [Linked, Linked, getElem?_addEdge different]
  split
  · rename_i equal
    subst equal
    rw [exists_changed_iff]
    simp [Ne.symm different]
  · split
    · rename_i equal
      subst equal
      simp only [exists_changed_iff, found, Option.some.injEq, exists_eq_left', true_and,
        TaskNode.getElem?_parents_withParent]
      split
      · rename_i equal
        subst equal
        cases node.parents[parent]? with
        | none => simp [eq_comm]
        | some before => simp
      · simp [*]
    · simp [*]

/-- Putting an edge changes nothing in a node but its edges. -/
theorem exists_node_addEdge
    {property : TaskNode → Prop}
    (parentSame : ∀ node, property (TaskNode.withChild child node) → property node)
    (childSame : ∀ node place, property (TaskNode.withParent parent place node) → property node)
    {task : TaskId}
    (now : ∃ node, (graph.addEdge parent child).nodes[task]? = some node ∧ property node) :
    ∃ node, graph.nodes[task]? = some node ∧ property node := by
  rw [getElem?_addEdge different] at now
  split at now
  · rcases (exists_changed_iff _ _).mp now with ⟨node, found, holds⟩
    exact ⟨node, found, parentSame node holds⟩
  · split at now
    · rcases (exists_changed_iff _ _).mp now with ⟨node, found, holds⟩
      exact ⟨node, found, childSame node _ holds⟩
    · exact now

/-- An edge between two tasks gets a new place in the order of events. -/
theorem Consistent.addEdge
    (consistent : graph.Consistent) (known : parent ∈ graph.nodes)
    (live : (graph.live? child).isSome) : (graph.addEdge parent child).Consistent := by
  rcases Option.isSome_iff_exists.mp live with ⟨node, isLive⟩
  rw [live?, Option.filter_eq_some_iff] at isLive
  rcases isLive with ⟨found, pending⟩
  have lists := lists_addEdge different known
  have linked := linked_addEdge different found
  constructor
  case ends =>
    intro first second
    simp only [lists, linked, consistent.ends]
    constructor
    · rintro (⟨place, before⟩ | ⟨rfl, rfl⟩)
      · exact ⟨place, .inl before⟩
      -- An edge that was there before keeps its place.
      · cases before : node.parents[parent]? with
        | none => exact ⟨graph.sequence + 1, .inr ⟨rfl, rfl, rfl, rfl⟩⟩
        | some place => exact ⟨place, .inl ⟨node, found, before⟩⟩
    · rintro ⟨place, before | ⟨isParent, isChild, _⟩⟩
      · exact .inl ⟨place, before⟩
      · exact .inr ⟨isParent, isChild⟩
  case irreflexive =>
    intro task listed
    rcases (lists task task).mp listed with before | ⟨isParent, isChild⟩
    · exact consistent.irreflexive task before
    · exact different (isParent.trans isChild.symm)
  case finished =>
    intro first task place completed edge
    have ended : graph.Completed task :=
      exists_node_addEdge different (fun _ holds => holds) (fun _ _ holds => holds) completed
    rcases (linked first task place).mp edge with before | ⟨_, rfl, _⟩
    · exact consistent.finished first task place ended before
    · rcases ended with ⟨same, sameFound, isEnded⟩
      rw [found, Option.some.injEq] at sameFound
      subst sameFound
      rw [isEnded] at pending
      contradiction
  case created =>
    apply consistent.created.mono (Nat.le_succ graph.sequence)
    intro task place now
    exact exists_node_addEdge different (fun _ holds => holds) (fun _ _ holds => holds) now
  case linked =>
    apply consistent.linked.next (parent, child)
    intro edge place now
    rcases (linked edge.1 edge.2 place).mp now with before | ⟨isParent, isChild, isNext, _⟩
    · exact .inl before
    · exact .inr ⟨Prod.ext isParent.symm isChild.symm, isNext⟩

end

namespace Consistent

/-! ## Announcing and linking tasks -/

/-- A new task may take over the identity of one that was there. -/
theorem renew
    (consistent : graph.Consistent) (task : TaskId) (loop : Option LoopId)
    (name : Option String) :
    ((graph.detach task).addNew task loop name).Consistent := by
  apply (consistent.detach task).addNew loop name
  rw [consistent.getElem?_detach, if_pos rfl]

/-- An announced task is new, takes over an identity, or changes nothing about edges. -/
theorem create (consistent : graph.Consistent) (task : TaskDescription) :
    (graph.create task).Consistent := by
  rw [TaskGraph.create]
  cases found : graph.nodes[task.id]? with
  | none => exact consistent.addNew _ _ found
  | some node =>
      dsimp only
      split
      · exact consistent.renew task.id _ _
      · refine SameTies.consistent (SameTies.insert found ?_) consistent
        rfl

theorem adopt (consistent : graph.Consistent) (task : TaskId) (loop : Option LoopId) :
    (graph.adopt task loop).Consistent := by
  rw [TaskGraph.adopt]
  cases found : graph.nodes[task]? with
  | none => exact consistent.addNew _ _ found
  | some node =>
      dsimp only
      split
      · exact consistent.renew task _ _
      · refine SameTies.consistent (SameTies.insert found ?_) consistent
        rfl

end Consistent

/-- A task that is named as the end of an edge is live from then on. -/
theorem live?_adopt (graph : TaskGraph) (task : TaskId) (loop : Option LoopId) :
    ((graph.adopt task loop).live? task).isSome := by
  rw [adopt]
  cases found : graph.nodes[task]? with
  | none => simp [live?, addNew, TaskNode.new]
  | some node =>
      dsimp only
      split
      · simp [live?, addNew, TaskNode.new]
      · rename_i pending
        simp [live?, pending]

namespace Consistent

/-- Naming a task as the end of an edge takes no other task away. -/
theorem mem_nodes_adopt
    (consistent : graph.Consistent) {task other : TaskId} (known : other ∈ graph.nodes)
    (loop : Option LoopId) : other ∈ (graph.adopt task loop).nodes := by
  rw [TaskGraph.adopt]
  cases found : graph.nodes[task]? with
  | none => simp [TaskGraph.addNew, known]
  | some node =>
      dsimp only
      split
      · rw [TaskGraph.addNew, Std.ExtTreeMap.mem_insert, Std.compare_eq_iff_eq]
        by_cases equal : task = other
        · exact .inl equal
        · right
          rw [Std.ExtTreeMap.mem_iff_isSome_getElem?] at known ⊢
          rw [consistent.getElem?_detach, if_neg equal, Option.isSome_map]
          exact known
      · simp [known]

/-- A link is an edge between two live tasks, and none at all if they are one. -/
theorem link (consistent : graph.Consistent) (parent child : TaskId) :
    (graph.link parent child).Consistent := by
  rw [TaskGraph.link]
  split
  · exact consistent
  · rename_i different
    have adopted := consistent.adopt parent ((graph.liveLoop? parent).or (graph.liveLoop? child))
    refine (adopted.adopt child _).addEdge different ?_ (live?_adopt _ child _)
    apply adopted.mem_nodes_adopt
    have live := live?_adopt graph parent ((graph.liveLoop? parent).or (graph.liveLoop? child))
    rw [live?] at live
    rw [Std.ExtTreeMap.mem_iff_isSome_getElem?]
    exact Option.isSome_of_isSome_filter _ _ live

end Consistent

end StackSampler.TaskGraph
