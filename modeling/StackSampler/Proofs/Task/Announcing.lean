import StackSampler.Proofs.Task.Linking

/-!
# Announcing tasks

A task that is announced is new, takes over the identity of one that has completed, or is live
already and learns its loop and its name.  What is known of other tasks does not change, and only an
identity that is taken over loses its edges.  When distinct tasks are announced one after the other,
each of them finds what was known of it in the beginning.
-/

namespace StackSampler

/-- What is known of a live task after it has been announced again. -/
def Particulars.announced (task : TaskDescription) (known : Particulars) : Particulars :=
  { known with loop := some task.loop, name := (nonempty? task.name).or known.name }

/-- What is known of a task that is announced and new. -/
def Particulars.ofNew (task : TaskDescription) (place : Nat) : Particulars :=
  ⟨some task.loop, nonempty? task.name, .new place⟩

namespace TaskGraph

variable {graph changed : TaskGraph} {task : TaskDescription} {other : TaskId}

/-! ## One announcement -/

theorem create_of_absent (absent : graph.nodes[task.id]? = none) :
    graph.create task = graph.addNew task.id (some task.loop) (some task.name) := by
  rw [create, absent]

theorem create_of_completed (completed : graph.Completed task.id) :
    graph.create task =
      (graph.detach task.id).addNew task.id (some task.loop) (some task.name) := by
  rcases completed with ⟨node, found, ended⟩
  rw [create, found]
  exact if_pos ended

theorem create_of_live {node : TaskNode} (found : graph.nodes[task.id]? = some node)
    (pending : node.completed = false) :
    graph.create task =
      { graph with
        nodes := graph.nodes.insert task.id
          { node with loop := some task.loop, name := (nonempty? task.name).or node.name } } := by
  rw [create, found]
  exact if_neg (ne_true_of_eq_false pending)

theorem names_create (graph : TaskGraph) (task : TaskDescription) :
    graph.Names task.id (graph.create task) := by
  rcases graph.absent_or_completed_or_live task.id with absent | completed | ⟨node, found, pending⟩
  · rw [create_of_absent absent]
    exact .new absent _ _
  · rw [create_of_completed completed]
    exact .renewed completed _ _
  · rw [create_of_live found pending]
    exact .updated found pending rfl

theorem particulars?_addNew (graph : TaskGraph) (task : TaskDescription) :
    (graph.addNew task.id (some task.loop) (some task.name)).particulars? task.id =
      some (.ofNew task (graph.sequence + 1)) := by
  rw [particulars?, getElem?_addNew, if_pos rfl]
  rfl

/-- An announcement changes the nodes, may give out a place in the order, and does no more. -/
theorem create_eq (graph : TaskGraph) (task : TaskDescription) :
    graph.create task =
      { graph with
        nodes := (graph.create task).nodes
        sequence := (graph.create task).sequence } := by
  have detached : graph.detach task.id =
      { graph with nodes := (graph.detach task.id).nodes } := by
    rw [detach]
    split <;> rfl
  rcases graph.absent_or_completed_or_live task.id with absent | completed | ⟨node, found, pending⟩
  · rw [create_of_absent absent]
    rfl
  · rw [create_of_completed completed, detached]
    rfl
  · rw [create_of_live found pending]

/--
A task has been announced: a live one has learned its loop and its name, and in place of any other
there is a new one.
-/
structure Announces (graph changed : TaskGraph) (task : TaskDescription) : Prop where
  live : graph.Live task.id →
    changed.particulars? task.id = (graph.particulars? task.id).map (·.announced task)
  dead : ¬ graph.Live task.id → ∃ place, graph.sequence < place ∧
    changed.particulars? task.id = some (.ofNew task place)

theorem create_announces (graph : TaskGraph) (task : TaskDescription) :
    graph.Announces (graph.create task) task := by
  rcases graph.absent_or_completed_or_live task.id with absent | completed | ⟨node, found, pending⟩
  · refine ⟨fun live => absurd live (not_live_or_completed_of_absent absent).1,
      fun _ => ⟨_, Nat.lt_succ_self _, ?_⟩⟩
    rw [create_of_absent absent, particulars?_addNew]
  · refine ⟨fun live => absurd completed (live_iff.mp live).2, fun _ => ⟨_, Nat.lt_succ_self _, ?_⟩⟩
    rw [create_of_completed completed, particulars?_addNew, sequence_detach]
  · refine ⟨fun _ => ?_, fun dead => absurd ⟨node, found, pending⟩ dead⟩
    rw [create_of_live found pending, particulars?, particulars?, found,
      Std.ExtTreeMap.getElem?_insert_self]
    rfl

/-- A task that has been announced is live, on the loop that was given. -/
theorem Announces.liveLoop? (announces : graph.Announces changed task) :
    changed.liveLoop? task.id = some task.loop := by
  by_cases live : graph.Live task.id
  · rcases live with ⟨node, found, pending⟩
    rw [liveLoop?_eq, announces.live ⟨node, found, pending⟩, particulars?, found]
    exact if_neg (ne_true_of_eq_false pending)
  · rcases announces.dead live with ⟨place, _, isNew⟩
    rw [liveLoop?_eq, isNew]
    rfl

namespace Consistent

variable (consistent : graph.Consistent)

include consistent

theorem particulars?_create_of_ne (different : task.id ≠ other) :
    (graph.create task).particulars? other = graph.particulars? other :=
  consistent.particulars?_of_names (graph.names_create task) different

theorem liveLoop?_create_of_ne (different : task.id ≠ other) :
    (graph.create task).liveLoop? other = graph.liveLoop? other := by
  rw [liveLoop?_eq, liveLoop?_eq, consistent.particulars?_create_of_ne different]

theorem linked_create (task : TaskDescription) (parent child : TaskId) (place : Nat) :
    (graph.create task).Linked parent child place ↔
      graph.Linked parent child place ∧
        (graph.Completed task.id → task.id ≠ parent ∧ task.id ≠ child) :=
  consistent.linked_of_names (graph.names_create task) parent child place

end Consistent

/-! ## Announcements of distinct tasks -/

theorem createAll_eq (graph : TaskGraph) (tasks : List TaskDescription) :
    tasks.foldl create graph =
      { graph with
        nodes := (tasks.foldl create graph).nodes
        sequence := (tasks.foldl create graph).sequence } := by
  induction tasks generalizing graph with
  | nil => rfl
  | cons task rest induction =>
      have same := create_eq graph task
      refine (induction (graph.create task)).trans ?_
      rw [congrArg loops same, congrArg running same, congrArg containers same,
        congrArg cycle same]
      rfl

namespace Consistent

variable {tasks : List TaskDescription}

theorem particulars?_createAll_of_not_mem (consistent : graph.Consistent)
    (unnamed : other ∉ tasks.map (·.id)) :
    (tasks.foldl TaskGraph.create graph).particulars? other = graph.particulars? other := by
  induction tasks generalizing graph with
  | nil => rfl
  | cons task rest induction =>
      rw [List.map_cons, List.mem_cons, not_or] at unnamed
      rw [List.foldl_cons, induction (consistent.create task) unnamed.2,
        consistent.particulars?_create_of_ne (Ne.symm unnamed.1)]

/-- Each of several distinct tasks is announced as if it were the only one. -/
theorem createAll_announces (consistent : graph.Consistent) (distinct : (tasks.map (·.id)).Nodup)
    (member : task ∈ tasks) : graph.Announces (tasks.foldl TaskGraph.create graph) task := by
  induction tasks generalizing graph with
  | nil => cases member
  | cons first rest induction =>
      rw [List.map_cons, List.nodup_cons] at distinct
      have created := consistent.create first
      rw [List.foldl_cons]
      rcases List.mem_cons.mp member with rfl | later
      · -- Nothing more is said of the first task.
        have now := graph.create_announces task
        have same := created.particulars?_createAll_of_not_mem distinct.1
        refine ⟨fun live => same.trans (now.live live), fun dead => ?_⟩
        rcases now.dead dead with ⟨place, behind, isNew⟩
        exact ⟨place, behind, same.trans isNew⟩
      · -- Nothing has been said of a later one yet.
        have different : first.id ≠ task.id := by
          intro equal
          exact distinct.1 (equal ▸ List.mem_map_of_mem later)
        have same := consistent.particulars?_create_of_ne different
        have now := induction created distinct.2 later
        have grown := (consistent.carries_create first).sequence
        refine ⟨fun live => ?_, fun dead => ?_⟩
        · rw [← same]
          exact now.live ((live_congr same).mpr live)
        · rcases now.dead (mt (live_congr same).mp dead) with ⟨place, behind, isNew⟩
          exact ⟨place, Nat.lt_of_le_of_lt grown behind, isNew⟩

theorem linked_createAll (consistent : graph.Consistent) (distinct : (tasks.map (·.id)).Nodup)
    (parent child : TaskId) (place : Nat) :
    (tasks.foldl TaskGraph.create graph).Linked parent child place ↔
      graph.Linked parent child place ∧
        ∀ task ∈ tasks, graph.Completed task.id → task.id ≠ parent ∧ task.id ≠ child := by
  induction tasks generalizing graph with
  | nil => simp
  | cons first rest induction =>
      rw [List.map_cons, List.nodup_cons] at distinct
      have same : ∀ task ∈ rest,
          ((graph.create first).Completed task.id ↔ graph.Completed task.id) := by
        intro task later
        apply completed_congr
        apply consistent.particulars?_create_of_ne
        intro equal
        exact distinct.1 (equal ▸ List.mem_map_of_mem later)
      rw [List.foldl_cons, induction (consistent.create first) distinct.2,
        consistent.linked_create, List.forall_mem_cons, and_assoc]
      refine and_congr_right fun _ => and_congr_right fun _ => forall₂_congr fun task later => ?_
      rw [same task later]

end Consistent

end TaskGraph

end StackSampler
