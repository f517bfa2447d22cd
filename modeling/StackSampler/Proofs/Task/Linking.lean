import StackSampler.Proofs.Task.Growth

/-!
# Linking two tasks

Each end of a link may be unknown, live with or without a loop, or completed; a completed one gives
its identity up to a new task, and its edges with it.  What a link does to the graph is told here in
terms of the graph before: which edges there are, and what is known of a task apart from its edges.

The main statement is `link_joins`.  A link joins its ends, keeps all edges of tasks that are not
taken over, and leaves other tasks as they are; linked once more, the ends are as they were.
-/

namespace StackSampler

/-- What a graph knows of a task apart from its edges. -/
structure Particulars where
  loop : Option LoopId
  name : Option String
  standing : Standing

/-- The part of a node that no edge changes. -/
def TaskNode.particulars (node : TaskNode) : Particulars :=
  ⟨node.loop, node.name, node.standing⟩

theorem TaskNode.withChild_of_mem {node : TaskNode} {child : TaskId}
    (member : child ∈ node.children) : node.withChild child = node := by
  have same : node.children.insert child = node.children := by
    apply Std.ExtTreeSet.ext_mem
    intro other
    rw [Std.ExtTreeSet.mem_insert, Std.compare_eq_iff_eq]
    constructor
    · rintro (rfl | before)
      · exact member
      · exact before
    · exact .inr
  rw [withChild, same]

theorem TaskNode.withParent_of_linked {node : TaskNode} {parent : TaskId} {before : Nat}
    (linked : node.parents[parent]? = some before) (place : Nat) :
    node.withParent parent place = node := by
  have same : (node.withParent parent place).parents = node.parents := by
    apply Std.ExtTreeMap.ext_getElem?
    intro other
    rw [getElem?_parents_withParent]
    split
    · rename_i equal
      rw [← equal, linked, Option.getD_some]
    · rfl
  change { node with parents := (node.withParent parent place).parents } = node
  rw [same]

namespace TaskGraph

variable {graph : TaskGraph} {task other parent child : TaskId} {loop : Option LoopId}

/-- What is known of a task apart from its edges, if the task is known. -/
def particulars? (graph : TaskGraph) (task : TaskId) : Option Particulars :=
  graph.nodes[task]?.map TaskNode.particulars

section

variable {changed : TaskGraph} (same : changed.particulars? task = graph.particulars? task)

include same

theorem live_congr : changed.Live task ↔ graph.Live task :=
  exists_iff_of_map_eq TaskNode.particulars same (·.standing.completed = false)

theorem completed_congr : changed.Completed task ↔ graph.Completed task :=
  exists_iff_of_map_eq TaskNode.particulars same (·.standing.completed = true)

end

theorem liveLoop?_of_found {node : TaskNode} (found : graph.nodes[task]? = some node)
    (pending : node.completed = false) : graph.liveLoop? task = node.loop := by
  have isLive : graph.live? task = some node := by
    rw [live?, found, Option.filter_eq_some_iff, pending]
    exact ⟨rfl, rfl⟩
  rw [liveLoop?, isLive, Option.bind_some]

theorem liveLoop?_eq_none (dead : ¬ graph.Live task) : graph.liveLoop? task = none := by
  have isNone : graph.live? task = none := by
    rw [Option.eq_none_iff_forall_ne_some]
    intro node isLive
    rw [live?, Option.filter_eq_some_iff, Bool.not_eq_true'] at isLive
    exact dead ⟨node, isLive⟩
  rw [liveLoop?, isNone, Option.bind_none]

theorem liveLoop?_eq (graph : TaskGraph) (task : TaskId) :
    graph.liveLoop? task = (graph.particulars? task).bind fun known =>
      if known.standing.completed then none else known.loop := by
  cases found : graph.nodes[task]? with
  | none =>
      rw [liveLoop?, live?, particulars?, found]
      rfl
  | some node =>
      rw [particulars?, found, Option.map_some, Option.bind_some]
      cases ended : node.completed with
      | true =>
          rw [liveLoop?_eq_none fun live => (live_iff.mp live).2 ⟨node, found, ended⟩]
          exact (if_pos ended).symm
      | false =>
          rw [liveLoop?_of_found found ended]
          exact (if_neg (ne_true_of_eq_false ended)).symm

/-! ## Naming a task -/

/-- A task is not known, has completed, or is live. -/
theorem absent_or_completed_or_live (graph : TaskGraph) (task : TaskId) :
    graph.nodes[task]? = none ∨ graph.Completed task ∨
      ∃ node, graph.nodes[task]? = some node ∧ node.completed = false := by
  cases found : graph.nodes[task]? with
  | none => exact .inl rfl
  | some node =>
      cases ended : node.completed with
      | true => exact .inr (.inl ⟨node, found, ended⟩)
      | false => exact .inr (.inr ⟨node, rfl, ended⟩)

theorem not_live_or_completed_of_absent (absent : graph.nodes[task]? = none) :
    ¬ graph.Live task ∧ ¬ graph.Completed task := by
  simp [Live, Completed, absent]

/--
A task has been named: it is new, it is new in place of one that had completed, or it is live and
has learned something that does not concern its ties.
-/
inductive Names (graph : TaskGraph) (task : TaskId) : TaskGraph → Prop
  | new (absent : graph.nodes[task]? = none) (loop : Option LoopId) (name : Option String) :
      graph.Names task (graph.addNew task loop name)
  | renewed (completed : graph.Completed task) (loop : Option LoopId) (name : Option String) :
      graph.Names task ((graph.detach task).addNew task loop name)
  | updated {node changed : TaskNode} (found : graph.nodes[task]? = some node)
      (pending : node.completed = false) (ties : changed.ties = node.ties) :
      graph.Names task { graph with nodes := graph.nodes.insert task changed }

section

variable {changed : TaskGraph} (consistent : graph.Consistent) (names : graph.Names task changed)

include consistent names

/-- What becomes of one task is nothing to what is known of another, edges apart. -/
theorem Consistent.particulars?_of_names (different : task ≠ other) :
    changed.particulars? other = graph.particulars? other := by
  cases names with
  | new absent loop name =>
      rw [particulars?, getElem?_addNew, if_neg different]
      rfl
  | renewed completed loop name =>
      rw [particulars?, getElem?_addNew, if_neg different, consistent.getElem?_detach,
        if_neg different, Option.map_map]
      rfl
  | updated found pending ties =>
      rw [particulars?, Std.ExtTreeMap.getElem?_insert,
        if_neg (mt Std.compare_eq_iff_eq.mp different)]
      rfl

/-- Only a completed task loses its edges, since it gives up its identity. -/
theorem Consistent.linked_of_names (parent child : TaskId) (place : Nat) :
    changed.Linked parent child place ↔
      graph.Linked parent child place ∧
        (graph.Completed task → task ≠ parent ∧ task ≠ child) := by
  cases names with
  | new absent loop name =>
      rw [linked_addNew loop name absent]
      simp [(not_live_or_completed_of_absent absent).2]
  | renewed completed loop name =>
      have absent : (graph.detach task).nodes[task]? = none := by
        rw [consistent.getElem?_detach, if_pos rfl]
      rw [linked_addNew loop name absent, consistent.linked_detach]
      simp [completed]
  | updated found pending ties =>
      have dead : ¬ graph.Completed task := (live_iff.mp ⟨_, found, pending⟩).2
      refine ((SameTies.insert found ties).linked_iff parent child place).trans ?_
      simp only [dead, false_implies, and_true]

end

/-! ## An end of a link -/

theorem adopt_of_absent (absent : graph.nodes[task]? = none) (loop : Option LoopId) :
    graph.adopt task loop = graph.addNew task loop none := by
  rw [adopt, absent]

theorem adopt_of_completed (completed : graph.Completed task) (loop : Option LoopId) :
    graph.adopt task loop = (graph.detach task).addNew task loop none := by
  rcases completed with ⟨node, found, ended⟩
  rw [adopt, found]
  exact if_pos ended

theorem adopt_of_live {node : TaskNode} (found : graph.nodes[task]? = some node)
    (pending : node.completed = false) (loop : Option LoopId) :
    graph.adopt task loop =
      { graph with nodes := graph.nodes.insert task { node with loop := node.loop.or loop } } := by
  rw [adopt, found]
  exact if_neg (ne_true_of_eq_false pending)

theorem names_adopt (graph : TaskGraph) (task : TaskId) (loop : Option LoopId) :
    graph.Names task (graph.adopt task loop) := by
  rcases graph.absent_or_completed_or_live task with absent | completed | ⟨node, found, pending⟩
  · rw [adopt_of_absent absent]
    exact .new absent loop none
  · rw [adopt_of_completed completed]
    exact .renewed completed loop none
  · rw [adopt_of_live found pending]
    exact .updated found pending rfl

theorem live_adopt (graph : TaskGraph) (task : TaskId) (loop : Option LoopId) :
    (graph.adopt task loop).Live task := by
  rcases Option.isSome_iff_exists.mp (live?_adopt graph task loop) with ⟨node, isLive⟩
  rw [live?, Option.filter_eq_some_iff, Bool.not_eq_true'] at isLive
  exact ⟨node, isLive⟩

theorem liveLoop?_addNew (graph : TaskGraph) (task : TaskId) (loop : Option LoopId)
    (name : Option String) : (graph.addNew task loop name).liveLoop? task = loop := by
  rw [liveLoop?_eq, particulars?, getElem?_addNew, if_pos rfl]
  rfl

/-- Only a loop that nobody knew is taken over. -/
theorem liveLoop?_adopt (graph : TaskGraph) (task : TaskId) (loop : Option LoopId) :
    (graph.adopt task loop).liveLoop? task = (graph.liveLoop? task).or loop := by
  rcases graph.absent_or_completed_or_live task with absent | completed | ⟨node, found, pending⟩
  · rw [adopt_of_absent absent, liveLoop?_addNew, liveLoop?_eq_none, Option.none_or]
    exact (not_live_or_completed_of_absent absent).1
  · rw [adopt_of_completed completed, liveLoop?_addNew, liveLoop?_eq_none, Option.none_or]
    exact fun live => (live_iff.mp live).2 completed
  · rw [liveLoop?_of_found found pending]
    have now : (graph.adopt task loop).nodes[task]? =
        some { node with loop := node.loop.or loop } := by
      rw [adopt_of_live found pending]
      exact Std.ExtTreeMap.getElem?_insert_self
    rw [liveLoop?_of_found now]
    exact pending

/-- A live task that has nothing to learn stays as it is. -/
theorem adopt_of_known (live : graph.Live task)
    (known : (graph.liveLoop? task).or loop = graph.liveLoop? task) :
    graph.adopt task loop = graph := by
  rcases live with ⟨node, found, pending⟩
  rw [liveLoop?_of_found found pending] at known
  have same : graph.nodes.insert task node = graph.nodes := by
    apply Std.ExtTreeMap.ext_getElem?
    intro asked
    rw [Std.ExtTreeMap.getElem?_insert]
    split
    · rename_i equal
      rw [← Std.compare_eq_iff_eq.mp equal, found]
    · rfl
  rw [adopt_of_live found pending, known, same]

namespace Consistent

variable (consistent : graph.Consistent)

include consistent

theorem particulars?_adopt (different : task ≠ other) (loop : Option LoopId) :
    (graph.adopt task loop).particulars? other = graph.particulars? other :=
  consistent.particulars?_of_names (graph.names_adopt task loop) different

theorem liveLoop?_adopt_of_ne (different : task ≠ other) (loop : Option LoopId) :
    (graph.adopt task loop).liveLoop? other = graph.liveLoop? other := by
  rw [liveLoop?_eq, liveLoop?_eq, consistent.particulars?_adopt different]

theorem completed_adopt_of_ne (different : task ≠ other) (loop : Option LoopId) :
    (graph.adopt task loop).Completed other ↔ graph.Completed other :=
  completed_congr (consistent.particulars?_adopt different loop)

theorem linked_adopt (task : TaskId) (loop : Option LoopId) (parent child : TaskId) (place : Nat) :
    (graph.adopt task loop).Linked parent child place ↔
      graph.Linked parent child place ∧
        (graph.Completed task → task ≠ parent ∧ task ≠ child) :=
  consistent.linked_of_names (graph.names_adopt task loop) parent child place

end Consistent

/-! ## The edge -/

/-- An edge is all that is put between two tasks. -/
theorem particulars?_addEdge (different : parent ≠ child) (graph : TaskGraph) (task : TaskId) :
    (graph.addEdge parent child).particulars? task = graph.particulars? task := by
  rw [particulars?, getElem?_addEdge different]
  split
  · rw [Option.map_map]
    rfl
  · split
    · rw [Option.map_map]
      rfl
    · rfl

/-- An edge that is there already takes up another place in the order of events, and no more. -/
theorem addEdge_of_linked (different : parent ≠ child) {place : Nat}
    (lists : graph.Lists parent child) (linked : graph.Linked parent child place) :
    graph.addEdge parent child = { graph with sequence := graph.sequence + 1 } := by
  rcases lists with ⟨above, foundAbove, member⟩
  rcases linked with ⟨below, foundBelow, waits⟩
  have same : (graph.addEdge parent child).nodes = graph.nodes := by
    apply Std.ExtTreeMap.ext_getElem?
    intro asked
    rw [getElem?_addEdge different]
    split
    · rename_i equal
      rw [← equal, foundAbove, Option.map_some, TaskNode.withChild_of_mem member]
    · split
      · rename_i equal
        rw [← equal, foundBelow, Option.map_some, TaskNode.withParent_of_linked waits]
      · rfl
  change { graph with
    sequence := graph.sequence + 1, nodes := (graph.addEdge parent child).nodes } = _
  rw [same]

/-! ## A link -/

/-- A task is one end of a link and has completed, so that the link puts a new task in its place. -/
def TakenOver (graph : TaskGraph) (parent child task : TaskId) : Prop :=
  (task = parent ∨ task = child) ∧ graph.Completed task

instance (graph : TaskGraph) (parent child task : TaskId) :
    Decidable (graph.TakenOver parent child task) :=
  inferInstanceAs (Decidable (_ ∧ _))

theorem not_takenOver_iff :
    ¬ graph.TakenOver parent child task ↔
      (graph.Completed parent → parent ≠ task) ∧ (graph.Completed child → child ≠ task) := by
  constructor
  · intro kept
    constructor
    · rintro completed rfl
      exact kept ⟨.inl rfl, completed⟩
    · rintro completed rfl
      exact kept ⟨.inr rfl, completed⟩
  · rintro ⟨parentSpared, childSpared⟩ ⟨rfl | rfl, completed⟩
    · exact parentSpared completed rfl
    · exact childSpared completed rfl

/-- A graph in which both ends of a link were named, but not yet joined. -/
def adoptBoth (graph : TaskGraph) (parent child : TaskId) : TaskGraph :=
  let loop := (graph.liveLoop? parent).or (graph.liveLoop? child)
  (graph.adopt parent loop).adopt child loop

theorem link_eq_addEdge (different : parent ≠ child) (graph : TaskGraph) :
    graph.link parent child = (graph.adoptBoth parent child).addEdge parent child := by
  rw [link, if_neg different]
  rfl

theorem link_self (graph : TaskGraph) (task : TaskId) : graph.link task task = graph := by
  rw [link, if_pos rfl]

/-- A link tells of a task what is known once both ends are named, for the edge tells nothing. -/
theorem particulars?_link (different : parent ≠ child) (graph : TaskGraph) (task : TaskId) :
    (graph.link parent child).particulars? task =
      (graph.adoptBoth parent child).particulars? task := by
  rw [link_eq_addEdge different, particulars?_addEdge different]

/-- Once both ends are named, edges keep their places, and a new one gets the latest place. -/
theorem linked_link (different : parent ≠ child) (first second : TaskId) (place : Nat) :
    (graph.link parent child).Linked first second place ↔
      (graph.adoptBoth parent child).Linked first second place ∨
        (parent = first ∧ child = second ∧ place = (graph.link parent child).sequence ∧
          ∀ earlier, ¬ (graph.adoptBoth parent child).Linked parent child earlier) := by
  have live : (graph.adoptBoth parent child).Live child := live_adopt _ child _
  rcases live with ⟨node, found, _⟩
  have isNew : node.parents[parent]? = none ↔
      ∀ earlier, ¬ (graph.adoptBoth parent child).Linked parent child earlier := by
    rw [Option.eq_none_iff_forall_ne_some]
    apply forall_congr'
    intro earlier
    exact not_congr (exists_node_iff_of_found found (·.parents[parent]? = some earlier)).symm
  rw [link_eq_addEdge different, linked_addEdge different found, isNew]
  rfl

theorem joined_link (different : parent ≠ child) :
    ∃ place, (graph.link parent child).Linked parent child place := by
  by_cases before : ∃ earlier, (graph.adoptBoth parent child).Linked parent child earlier
  · rcases before with ⟨earlier, linked⟩
    exact ⟨earlier, (linked_link different parent child earlier).mpr (.inl linked)⟩
  · refine ⟨_, (linked_link different parent child _).mpr (.inr ⟨rfl, rfl, rfl, ?_⟩)⟩
    exact not_exists.mp before

namespace Consistent

variable (consistent : graph.Consistent) (different : parent ≠ child)

include consistent different

theorem particulars?_link_of_ne (otherParent : task ≠ parent) (otherChild : task ≠ child) :
    (graph.link parent child).particulars? task = graph.particulars? task := by
  rw [particulars?_link different, adoptBoth,
    (consistent.adopt parent _).particulars?_adopt otherChild.symm,
    consistent.particulars?_adopt otherParent.symm]

/-- Both ends of a link are live, whatever they were before. -/
theorem live_link :
    (graph.link parent child).Live parent ∧ (graph.link parent child).Live child := by
  rw [live_congr (particulars?_link different graph parent),
    live_congr (particulars?_link different graph child), adoptBoth]
  constructor
  · rw [live_congr ((consistent.adopt parent _).particulars?_adopt different.symm _)]
    exact live_adopt graph parent _
  · exact live_adopt _ child _

/-- An end of a link that has no loop has the loop of the other end afterwards. -/
theorem liveLoop?_link :
    (graph.link parent child).liveLoop? parent =
        (graph.liveLoop? parent).or (graph.liveLoop? child) ∧
      (graph.link parent child).liveLoop? child =
        (graph.liveLoop? child).or (graph.liveLoop? parent) := by
  have unchanged : ∀ task, (graph.link parent child).liveLoop? task =
      (graph.adoptBoth parent child).liveLoop? task := by
    intro task
    rw [liveLoop?_eq, liveLoop?_eq, particulars?_link different]
  have adopted := consistent.adopt parent ((graph.liveLoop? parent).or (graph.liveLoop? child))
  rw [unchanged, unchanged, adoptBoth, liveLoop?_adopt,
    adopted.liveLoop?_adopt_of_ne different.symm, liveLoop?_adopt,
    consistent.liveLoop?_adopt_of_ne different]
  constructor
  · rw [← Option.or_assoc, Option.or_self]
  · cases graph.liveLoop? parent with
    | none => rw [Option.none_or, Option.or_none, Option.or_self]
    | some loop => rw [Option.some_or]

/-- What is taken over loses its edges, as an end of a link or as the other end of its edges. -/
theorem linked_adoptBoth (first second : TaskId) (place : Nat) :
    (graph.adoptBoth parent child).Linked first second place ↔
      graph.Linked first second place ∧
        ¬ graph.TakenOver parent child first ∧ ¬ graph.TakenOver parent child second := by
  rw [adoptBoth, (consistent.adopt parent _).linked_adopt, consistent.linked_adopt,
    consistent.completed_adopt_of_ne different, not_takenOver_iff, not_takenOver_iff]
  simp only [imp_and, and_assoc, and_left_comm]

/-- Linked once more, two tasks are as they were; only a place in the order of events is used up. -/
theorem link_link :
    (graph.link parent child).link parent child =
      { graph.link parent child with sequence := (graph.link parent child).sequence + 1 } := by
  rcases consistent.live_link different with ⟨parentLive, childLive⟩
  rcases consistent.liveLoop?_link different with ⟨parentLoop, childLoop⟩
  rcases joined_link different with ⟨place, linked⟩
  have lists := (consistent.link parent child).lists_of_linked linked
  rw [TaskGraph.link.eq_1 (graph.link parent child), if_neg different]
  -- Each end has lent its loop to the other already, so neither has anything to learn.
  have parentKnows : (graph.link parent child).adopt parent
      (((graph.link parent child).liveLoop? parent).or
        ((graph.link parent child).liveLoop? child)) = graph.link parent child := by
    apply adopt_of_known parentLive
    rw [parentLoop, childLoop]
    cases graph.liveLoop? parent <;> cases graph.liveLoop? child <;> rfl
  have childKnows : (graph.link parent child).adopt child
      (((graph.link parent child).liveLoop? parent).or
        ((graph.link parent child).liveLoop? child)) = graph.link parent child := by
    apply adopt_of_known childLive
    rw [parentLoop, childLoop]
    cases graph.liveLoop? parent <;> cases graph.liveLoop? child <;> rfl
  simp only [parentKnows, childKnows]
  exact addEdge_of_linked different lists linked

end Consistent

/--
A link is made for good.  It joins its ends, which are live from then on; it takes edges away only
from a completed end, whose identity goes to a new task; and nothing else that is known of other
tasks changes.  Linked again, the ends are as they were, and no task is linked to itself.
-/
theorem link_joins (reachable : graph.Reachable) (parent child : TaskId) :
    graph.link parent parent = graph ∧
    (∃ sequence, (graph.link parent child).link parent child =
      { graph.link parent child with sequence := sequence }) ∧
    (parent ≠ child →
      (graph.link parent child).Live parent ∧
      (graph.link parent child).Live child ∧
      (∃ place, (graph.link parent child).Linked parent child place) ∧
      (∀ first second, (graph.link parent child).Lists first second ↔
        ∃ place, (graph.link parent child).Linked first second place) ∧
      (∀ first second place, graph.Linked first second place →
        ¬ graph.TakenOver parent child first → ¬ graph.TakenOver parent child second →
          (graph.link parent child).Linked first second place) ∧
      (∀ first second place, (graph.link parent child).Linked first second place →
        (graph.Linked first second place ∧ ¬ graph.TakenOver parent child first ∧
          ¬ graph.TakenOver parent child second) ∨ (first = parent ∧ second = child)) ∧
      ∀ task, task ≠ parent → task ≠ child →
        (graph.link parent child).particulars? task = graph.particulars? task) := by
  have consistent := reachable.consistent
  refine ⟨graph.link_self parent, ?_, fun different => ?_⟩
  · by_cases equal : parent = child
    · subst equal
      exact ⟨_, by rw [link_self, link_self]⟩
    · exact ⟨_, consistent.link_link equal⟩
  · rcases consistent.live_link different with ⟨parentLive, childLive⟩
    refine ⟨parentLive, childLive, joined_link different,
      (consistent.link parent child).ends, ?kept, ?only, ?others⟩
    case kept =>
      intro first second place linked firstKept secondKept
      rw [linked_link different, consistent.linked_adoptBoth different]
      exact .inl ⟨linked, firstKept, secondKept⟩
    case only =>
      intro first second place linked
      rw [linked_link different, consistent.linked_adoptBoth different] at linked
      rcases linked with kept | ⟨rfl, rfl, _⟩
      · exact .inl kept
      · exact .inr ⟨rfl, rfl⟩
    case others =>
      intro task otherParent otherChild
      exact consistent.particulars?_link_of_ne different otherParent otherChild

/-- A task is waited on, waits on two others and completes, so that its own edges are left. -/
def outlivedGraph : TaskGraph :=
  (((({} : TaskGraph).create ⟨1, 7, "first"⟩).link 1 2).link 2 3 |>.link 4 3).complete 2

theorem outlivedGraph_reachable : outlivedGraph.Reachable :=
  Relation.ReflTransGen.refl
    |>.tail (.create ⟨1, 7, "first"⟩)
    |>.tail (.link 1 2)
    |>.tail (.link 2 3)
    |>.tail (.link 4 3)
    |>.tail (.complete 2)

theorem link_joins_outlived :
    outlivedGraph.Reachable ∧ (5 : TaskId) ≠ 2 ∧ outlivedGraph.TakenOver 5 2 2 ∧
      outlivedGraph.Lists 2 3 ∧ ¬ (outlivedGraph.link 5 2).Lists 2 3 ∧
      outlivedGraph.Linked 4 3 7 ∧ (outlivedGraph.link 5 2).Linked 4 3 7 ∧
      (outlivedGraph.link 5 2).Live 2 ∧ (outlivedGraph.link 5 2).Lists 5 2 := by
  have taken : outlivedGraph.TakenOver 5 2 2 := by decide
  have linked : outlivedGraph.Linked 4 3 7 := ⟨_, rfl, by decide⟩
  rcases link_joins outlivedGraph_reachable 5 2 with ⟨_, _, joins⟩
  rcases joins (by decide) with ⟨_, live, joined, ends, kept, only, _⟩
  refine ⟨outlivedGraph_reachable, by decide, taken, ⟨_, rfl, by decide⟩, ?_, linked,
    kept 4 3 7 linked (by decide) (by decide), live, (ends 5 2).mpr joined⟩
  intro listed
  rcases (ends 2 3).mp listed with ⟨place, now⟩
  rcases only 2 3 place now with ⟨_, notTaken, _⟩ | ⟨isParent, _⟩
  · exact notTaken taken
  · exact absurd isParent (by decide)

end TaskGraph

end StackSampler
