import StackSampler.Task.Events

/-!
# The two ends of an edge

A task graph keeps each edge twice, among the children of the one end and among the parents of the
other.  This module says what a graph has recorded as relations between tasks, gathers in
`Consistent` how those records fit together, and shows when a change keeps it: when edges are only
taken away, at both of their ends, and when they are left alone.
-/

namespace StackSampler

/-- What a node says about edges, about the creation of its task and about its end. -/
structure Ties where
  children : Std.ExtTreeSet TaskId
  parents : Std.ExtTreeMap TaskId Nat
  created : Nat
  completed : Bool

namespace TaskNode

/-- The part of a node that consistency depends on. -/
def ties (node : TaskNode) : Ties :=
  ⟨node.children, node.parents, node.created, node.completed⟩

/-- A node after a task was taken out of the graph. -/
def without (task : TaskId) (node : TaskNode) : TaskNode :=
  (node.withoutChild task).withoutParent task

/-- A node after its task completed. -/
def finished (node : TaskNode) : TaskNode :=
  { node with completed := true, parents := ∅ }

/-- A node after a child was added. -/
def withChild (child : TaskId) (node : TaskNode) : TaskNode :=
  { node with children := node.children.insert child }

/-- A node after a parent was added, unless it was there. -/
def withParent (parent : TaskId) (place : Nat) (node : TaskNode) : TaskNode :=
  { node with parents := node.parents.insertIfNew parent place }

@[simp]
theorem mem_children_withChild (node : TaskNode) (task child : TaskId) :
    child ∈ (node.withChild task).children ↔ task = child ∨ child ∈ node.children := by
  simp [withChild]

@[simp]
theorem parents_withChild (node : TaskNode) (task : TaskId) :
    (node.withChild task).parents = node.parents :=
  rfl

@[simp]
theorem children_withParent (node : TaskNode) (task : TaskId) (place : Nat) :
    (node.withParent task place).children = node.children :=
  rfl

@[simp]
theorem getElem?_parents_withParent
    (node : TaskNode) (task parent : TaskId) (place : Nat) :
    (node.withParent task place).parents[parent]? =
      if task = parent then some (node.parents[task]?.getD place) else node.parents[parent]? := by
  rw [withParent, Std.ExtTreeMap.getElem?_insertIfNew]
  by_cases equal : task = parent
  · subst equal
    cases linked : node.parents[task]? with
    | none => simp [Std.ExtTreeMap.mem_iff_isSome_getElem?, linked]
    | some before => simp [Std.ExtTreeMap.mem_iff_isSome_getElem?, linked]
  · simp [equal]

@[simp]
theorem mem_children_withoutChild (node : TaskNode) (task child : TaskId) :
    child ∈ (node.withoutChild task).children ↔ task ≠ child ∧ child ∈ node.children := by
  simp [withoutChild]

@[simp]
theorem parents_withoutChild (node : TaskNode) (task : TaskId) :
    (node.withoutChild task).parents = node.parents :=
  rfl

@[simp]
theorem children_withoutParent (node : TaskNode) (task : TaskId) :
    (node.withoutParent task).children = node.children :=
  rfl

@[simp]
theorem getElem?_parents_withoutParent (node : TaskNode) (task parent : TaskId) :
    (node.withoutParent task).parents[parent]? =
      if task = parent then none else node.parents[parent]? := by
  rw [withoutParent, Std.ExtTreeMap.getElem?_erase]
  simp

theorem hasEdges_of_child {node : TaskNode} {child : TaskId} (member : child ∈ node.children) :
    node.hasEdges = true := by
  have filled : node.children ≠ ∅ := Std.ExtTreeSet.ne_empty_of_mem member
  simp [hasEdges, filled]

theorem hasEdges_of_parent
    {node : TaskNode} {parent : TaskId} {place : Nat}
    (linked : node.parents[parent]? = some place) : node.hasEdges = true := by
  have filled : node.parents ≠ ∅ := by
    intro empty
    simp [empty] at linked
  simp [hasEdges, filled]

theorem withoutParent_comp_withoutChild (task : TaskId) :
    withoutParent task ∘ withoutChild task = withoutChild task ∘ withoutParent task :=
  rfl

theorem withoutChild_of_not_mem
    {node : TaskNode} {task : TaskId} (absent : task ∉ node.children) :
    node.withoutChild task = node := by
  have same : node.children.erase task = node.children := by
    apply Std.ExtTreeSet.ext_mem
    intro child
    have other : child ∈ node.children → task ≠ child := by
      rintro member rfl
      exact absent member
    simpa using other
  rw [withoutChild, same]

theorem withoutParent_of_none
    {node : TaskNode} {task : TaskId} (absent : node.parents[task]? = none) :
    node.withoutParent task = node := by
  have same : node.parents.erase task = node.parents := by
    apply Std.ExtTreeMap.ext_getElem?
    intro parent
    rw [Std.ExtTreeMap.getElem?_erase]
    by_cases equal : task = parent
    · simp [← equal, absent]
    · simp [equal]
  rw [withoutParent, same]

end TaskNode

namespace TaskGraph

/-! ## What a graph has recorded -/

/-- One task has another among its children. -/
def Lists (graph : TaskGraph) (parent child : TaskId) : Prop :=
  ∃ node, graph.nodes[parent]? = some node ∧ child ∈ node.children

/-- One task has another among its parents, since the event with a given number. -/
def Linked (graph : TaskGraph) (parent child : TaskId) (place : Nat) : Prop :=
  ∃ node, graph.nodes[child]? = some node ∧ node.parents[parent]? = some place

/-- A task was created by the event with a given number. -/
def CreatedAs (graph : TaskGraph) (task : TaskId) (place : Nat) : Prop :=
  ∃ node, graph.nodes[task]? = some node ∧ node.created = place

/-- A task has completed. -/
def Completed (graph : TaskGraph) (task : TaskId) : Prop :=
  ∃ node, graph.nodes[task]? = some node ∧ node.completed = true

/-- A task is known and has not completed. -/
def Live (graph : TaskGraph) (task : TaskId) : Prop :=
  ∃ node, graph.nodes[task]? = some node ∧ node.completed = false

instance (graph : TaskGraph) (task : TaskId) : Decidable (graph.Completed task) :=
  decidable_of_iff (graph.nodes[task]?.any (·.completed) = true) (Option.any_eq_true _ _)

instance (graph : TaskGraph) (task : TaskId) : Decidable (graph.Live task) :=
  decidable_of_iff (graph.nodes[task]?.any (!·.completed) = true) <| by
    simp only [Option.any_eq_true, Bool.not_eq_true']
    rfl

/-- What is said of the node of a known task is said of the node that it has. -/
theorem exists_node_iff_of_found {graph : TaskGraph} {task : TaskId} {node : TaskNode}
    (found : graph.nodes[task]? = some node) (property : TaskNode → Prop) :
    (∃ other, graph.nodes[task]? = some other ∧ property other) ↔ property node := by
  simp [found]

theorem live_iff {graph : TaskGraph} {task : TaskId} :
    graph.Live task ↔ task ∈ graph.nodes ∧ ¬ graph.Completed task := by
  rw [Live, Completed, Std.ExtTreeMap.mem_iff_isSome_getElem?]
  cases graph.nodes[task]? with
  | none => simp
  | some node => simp

/-- Things have distinct places in an order of which so many places have been given out. -/
structure Placed {α : Type} (hasPlace : α → Nat → Prop) (given : Nat) : Prop where
  distinct : ∀ first second place, hasPlace first place → hasPlace second place → first = second
  bounded : ∀ thing place, hasPlace thing place → place ≤ given

namespace Placed

variable {α : Type} {before after : α → Nat → Prop} {given : Nat}

theorem mono
    (placed : Placed before given) {more : Nat} (further : given ≤ more)
    (kept : ∀ thing place, after thing place → before thing place) :
    Placed after more := by
  constructor
  · intro first second place left right
    exact placed.distinct first second place (kept first place left) (kept second place right)
  · intro thing place now
    exact Nat.le_trans (placed.bounded thing place (kept thing place now)) further

/-- One thing may be given the next place. -/
theorem next
    (placed : Placed before given) (fresh : α)
    (kept : ∀ thing place, after thing place →
      before thing place ∨ (thing = fresh ∧ place = given + 1)) :
    Placed after (given + 1) := by
  constructor
  · intro first second place left right
    rcases kept first place left with old | ⟨isFresh, isNext⟩
    · rcases kept second place right with oldToo | ⟨_, isNext⟩
      · exact placed.distinct first second place old oldToo
      · have bounded := placed.bounded first place old
        omega
    · rcases kept second place right with old | ⟨isFreshToo, _⟩
      · have bounded := placed.bounded second place old
        omega
      · exact isFresh.trans isFreshToo.symm
  · intro thing place now
    rcases kept thing place now with old | ⟨_, isNext⟩
    · exact Nat.le_succ_of_le (placed.bounded thing place old)
    · exact Nat.le_of_eq isNext

end Placed

/-- The records of a graph fit together. -/
structure Consistent (graph : TaskGraph) : Prop where
  /-- Both ends of an edge tell of it. -/
  ends : ∀ parent child, graph.Lists parent child ↔ ∃ place, graph.Linked parent child place
  irreflexive : ∀ task, ¬ graph.Lists task task
  /-- Nobody waits on a task that has completed. -/
  finished : ∀ parent task place, graph.Completed task → ¬ graph.Linked parent task place
  created : Placed graph.CreatedAs graph.sequence
  linked : Placed (fun edge : TaskId × TaskId => graph.Linked edge.1 edge.2) graph.sequence

namespace Consistent

variable {graph changed : TaskGraph}

theorem lists_of_linked
    (consistent : graph.Consistent) {parent child : TaskId} {place : Nat}
    (linked : graph.Linked parent child place) : graph.Lists parent child :=
  (consistent.ends parent child).mpr ⟨place, linked⟩

theorem ne_of_linked
    (consistent : graph.Consistent) {parent child : TaskId} {place : Nat}
    (linked : graph.Linked parent child place) : parent ≠ child := by
  rintro rfl
  exact consistent.irreflexive parent (consistent.lists_of_linked linked)

theorem linked_distinct
    (consistent : graph.Consistent) {parent child otherParent otherChild : TaskId} {place : Nat}
    (left : graph.Linked parent child place) (right : graph.Linked otherParent otherChild place) :
    parent = otherParent ∧ child = otherChild := by
  have same := consistent.linked.distinct (parent, child) (otherParent, otherChild) place left right
  exact Prod.mk.inj same

/-- A graph stays consistent while edges are only taken away, at both of their ends. -/
theorem of_kept
    (consistent : graph.Consistent) (Kept : TaskId → TaskId → Prop)
    (lists : ∀ parent child,
      changed.Lists parent child ↔ graph.Lists parent child ∧ Kept parent child)
    (linked : ∀ parent child place,
      changed.Linked parent child place ↔ graph.Linked parent child place ∧ Kept parent child)
    (created : ∀ task place, changed.CreatedAs task place → graph.CreatedAs task place)
    (completed : ∀ task, changed.Completed task →
      graph.Completed task ∨ ∀ parent, ¬ Kept parent task)
    (sequence : changed.sequence = graph.sequence) :
    changed.Consistent where
  ends parent child := by
    simp only [lists, linked, consistent.ends, exists_and_right]
  irreflexive task listed :=
    consistent.irreflexive task ((lists task task).mp listed).1
  finished parent task place done edge := by
    rcases (linked parent task place).mp edge with ⟨before, kept⟩
    rcases completed task done with doneBefore | untied
    · exact consistent.finished parent task place doneBefore before
    · exact untied parent kept
  created := consistent.created.mono (Nat.le_of_eq sequence.symm) created
  linked := consistent.linked.mono (Nat.le_of_eq sequence.symm) fun edge place now =>
    ((linked edge.1 edge.2 place).mp now).1

end Consistent

/-! ## Events that leave edges alone -/

section

variable {β : Type} (view : TaskNode → β)

/-- What is said of what a view shows holds of both nodes or of none. -/
theorem exists_iff_of_map_eq {found other : Option TaskNode}
    (same : found.map view = other.map view) (property : β → Prop) :
    (∃ node, found = some node ∧ property (view node)) ↔
      ∃ node, other = some node ∧ property (view node) := by
  have through : ∀ found : Option TaskNode,
      (∃ node, found = some node ∧ property (view node)) ↔
        ∃ shown, found.map view = some shown ∧ property shown := by
    intro found
    cases found <;> simp
  rw [through, through, same]

/-- Another node of which a view shows the same may stand for a task. -/
theorem map_getElem?_insert
    {nodes : Std.ExtTreeMap TaskId TaskNode} {task : TaskId} {node other : TaskNode}
    (found : nodes[task]? = some node) (same : view other = view node) (asked : TaskId) :
    (nodes.insert task other)[asked]?.map view = nodes[asked]?.map view := by
  rw [Std.ExtTreeMap.getElem?_insert]
  by_cases equal : task = asked
  · rw [← equal, found]
    simp [same]
  · simp [equal]

/-- A change that a view does not show may be made at several tasks. -/
theorem map_getElem?_foldl_modify
    {α : Type} (items : List α) (place : α → TaskId) (change : α → TaskNode → TaskNode)
    (same : ∀ item node, view (change item node) = view node)
    (nodes : Std.ExtTreeMap TaskId TaskNode) (asked : TaskId) :
    (items.foldl (fun nodes item => nodes.modify (place item) (change item)) nodes)[asked]?.map
      view = nodes[asked]?.map view := by
  induction items generalizing nodes with
  | nil => rfl
  | cons item rest induction =>
      rw [List.foldl_cons, induction, Std.ExtTreeMap.getElem?_modify]
      by_cases equal : place item = asked
      · have unseen : view ∘ change item = view := by
          funext node
          exact same item node
        simp [equal, unseen]
      · simp [equal]

end

/-- Two graphs have recorded the same of edges, of creations and of ends. -/
structure SameTies (graph changed : TaskGraph) : Prop where
  nodes : ∀ task : TaskId,
    changed.nodes[task]?.map TaskNode.ties = graph.nodes[task]?.map TaskNode.ties
  sequence : changed.sequence = graph.sequence

namespace SameTies

variable {graph changed : TaskGraph}

/-- What is said of the ties of a node holds in both graphs or in none. -/
theorem exists_node_iff
    (same : graph.SameTies changed) (task : TaskId) (property : Ties → Prop) :
    (∃ node, changed.nodes[task]? = some node ∧ property node.ties) ↔
      ∃ node, graph.nodes[task]? = some node ∧ property node.ties :=
  exists_iff_of_map_eq TaskNode.ties (same.nodes task) property

theorem lists_iff (same : graph.SameTies changed) (parent child : TaskId) :
    changed.Lists parent child ↔ graph.Lists parent child :=
  same.exists_node_iff parent (child ∈ ·.children)

theorem linked_iff (same : graph.SameTies changed) (parent child : TaskId) (place : Nat) :
    changed.Linked parent child place ↔ graph.Linked parent child place :=
  same.exists_node_iff child (·.parents[parent]? = some place)

theorem createdAs_iff (same : graph.SameTies changed) (task : TaskId) (place : Nat) :
    changed.CreatedAs task place ↔ graph.CreatedAs task place :=
  same.exists_node_iff task (·.created = place)

theorem completed_iff (same : graph.SameTies changed) (task : TaskId) :
    changed.Completed task ↔ graph.Completed task :=
  same.exists_node_iff task (·.completed = true)

theorem mem_nodes_iff (same : graph.SameTies changed) (task : TaskId) :
    task ∈ changed.nodes ↔ task ∈ graph.nodes := by
  have found := congrArg Option.isSome (same.nodes task)
  rw [Option.isSome_map, Option.isSome_map] at found
  rw [Std.ExtTreeMap.mem_iff_isSome_getElem?, Std.ExtTreeMap.mem_iff_isSome_getElem?, found]

theorem consistent (same : graph.SameTies changed) (consistent : graph.Consistent) :
    changed.Consistent := by
  refine consistent.of_kept (fun _ _ => True) ?_ ?_ ?_ ?_ same.sequence
  · intro parent child
    rw [and_true]
    exact same.lists_iff parent child
  · intro parent child place
    rw [and_true]
    exact same.linked_iff parent child place
  · intro task place
    exact (same.createdAs_iff task place).mp
  · intro task completed
    exact .inl ((same.completed_iff task).mp completed)

/-- Another node with the same ties may stand for a task. -/
theorem insert
    {task : TaskId} {node other : TaskNode} (found : graph.nodes[task]? = some node)
    (ties : other.ties = node.ties) :
    graph.SameTies { graph with nodes := graph.nodes.insert task other } :=
  ⟨map_getElem?_insert TaskNode.ties found ties, rfl⟩

/-- A change that leaves the ties of every node alone may be made at several tasks. -/
theorem foldl_modify
    {α : Type} (items : List α) (place : α → TaskId) (change : α → TaskNode → TaskNode)
    (ties : ∀ item node, (change item node).ties = node.ties) (graph : TaskGraph) :
    graph.SameTies
      { graph with
        nodes := items.foldl
          (fun nodes item => nodes.modify (place item) (change item)) graph.nodes } :=
  ⟨map_getElem?_foldl_modify TaskNode.ties items place change ties graph.nodes, rfl⟩

end SameTies

/-- Consistency does not depend on what runs where. -/
theorem Consistent.of_nodes
    {graph changed : TaskGraph} (consistent : graph.Consistent)
    (nodes : changed.nodes = graph.nodes) (sequence : changed.sequence = graph.sequence) :
    changed.Consistent := by
  have same : graph.SameTies changed := ⟨fun _ => by rw [nodes], sequence⟩
  exact same.consistent consistent

end TaskGraph

end StackSampler
