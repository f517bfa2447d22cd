import StackSampler.Proofs.Task.Reachable

/-!
# Naming tasks

Tasks are named when they are announced, linked, imported or found.  Whatever is named, live tasks
stay live and keep their edges to each other, for only a completed task gives its identity up; and
what is known of when a task was created and shown stays as well.  `Carries` says of two graphs
what naming does to the nodes, and is shown of each way to name tasks; `Grows` is what follows for
the tasks.
-/

namespace StackSampler

/-- When a task was created and when it was last shown. -/
structure Sighting where
  created : Nat
  lastRendered : Option Nat

/-- The part of a node that tells when its task was seen. -/
def TaskNode.sighting (node : TaskNode) : Sighting :=
  ⟨node.created, node.lastRendered⟩

/-- What a graph knows of a task apart from its name, its loop and its edges. -/
structure Standing where
  created : Nat
  completed : Bool
  lastRendered : Option Nat
  failures : Nat

/-- The part of a node that naming its task again does not change. -/
def TaskNode.standing (node : TaskNode) : Standing :=
  ⟨node.created, node.completed, node.lastRendered, node.failures⟩

/-- How a task stands that is the latest to be created. -/
def Standing.new (created : Nat) : Standing :=
  ⟨created, false, none, 0⟩

namespace TaskGraph

variable {graph changed last : TaskGraph} {task : TaskId}

/-- When a task that is known was created and last shown. -/
def sighting? (graph : TaskGraph) (task : TaskId) : Option Sighting :=
  graph.nodes[task]?.map TaskNode.sighting

/--
Two graphs tell the same of when tasks were created and shown, but for tasks that are new in the
second one: these come behind all others in the order of events, and have not been shown.
-/
structure Recalls (graph changed : TaskGraph) : Prop where
  sequence : graph.sequence ≤ changed.sequence
  cycle : changed.cycle = graph.cycle
  sighting : ∀ task sighting, changed.sighting? task = some sighting →
    graph.sighting? task = some sighting ∨
      (graph.sequence < sighting.created ∧ sighting.lastRendered = none)

theorem Recalls.of_sighting (sequence : changed.sequence = graph.sequence)
    (cycle : changed.cycle = graph.cycle)
    (sighting : ∀ task, changed.sighting? task = graph.sighting? task) :
    graph.Recalls changed where
  sequence := Nat.le_of_eq sequence.symm
  cycle := cycle
  sighting task _ now := .inl ((sighting task).symm.trans now)

/-- From one graph to the other, tasks were only named. -/
structure Grows (graph changed : TaskGraph) : Prop extends graph.Recalls changed where
  live : ∀ task, graph.Live task → changed.Live task
  linked : ∀ parent child place, graph.Live parent → graph.Live child →
    graph.Linked parent child place → changed.Linked parent child place

/-! ## What naming does to nodes -/

/-- How a task that is known stands. -/
def standing? (graph : TaskGraph) (task : TaskId) : Option Standing :=
  graph.nodes[task]?.map TaskNode.standing

theorem live_iff_standing :
    graph.Live task ↔
      ∃ standing, graph.standing? task = some standing ∧ standing.completed = false := by
  rw [Live, standing?]
  cases graph.nodes[task]? with
  | none => simp
  | some node => simp [TaskNode.standing]

theorem sighting?_eq_map_standing? (graph : TaskGraph) (task : TaskId) :
    graph.sighting? task =
      (graph.standing? task).map fun standing => ⟨standing.created, standing.lastRendered⟩ := by
  rw [standing?, Option.map_map]
  rfl

/--
From one graph to the other, tasks were only named.  Whatever is known stays as it stood, but a
completed task may be taken out, and a new one put in where there is no live one.
-/
structure Carries (graph changed : TaskGraph) : Prop where
  sequence : graph.sequence ≤ changed.sequence
  cycle : changed.cycle = graph.cycle
  standing : ∀ task, changed.standing? task = graph.standing? task ∨
    (¬ graph.Live task ∧ ∀ standing, changed.standing? task = some standing →
      ∃ place, graph.sequence < place ∧ standing = .new place)
  linked : ∀ parent child place, graph.Live parent → graph.Live child →
    graph.Linked parent child place → changed.Linked parent child place

namespace Carries

theorem live (carries : graph.Carries changed) (live : graph.Live task) : changed.Live task := by
  rcases carries.standing task with same | ⟨ended, _⟩
  · rw [live_iff_standing, same, ← live_iff_standing]
    exact live
  · exact absurd live ended

theorem trans (first : graph.Carries changed) (second : changed.Carries last) :
    graph.Carries last where
  sequence := Nat.le_trans first.sequence second.sequence
  cycle := second.cycle.trans first.cycle
  standing task := by
    rcases second.standing task with same | ⟨ended, isNew⟩
    · rw [same]
      exact first.standing task
    · refine .inr ⟨fun live => ended (first.live live), fun standing now => ?_⟩
      rcases isNew standing now with ⟨place, later, same⟩
      exact ⟨place, Nat.lt_of_le_of_lt first.sequence later, same⟩
  linked parent child place parentLive childLive linked :=
    second.linked parent child place (first.live parentLive) (first.live childLive)
      (first.linked parent child place parentLive childLive linked)

theorem of_nodes (nodes : changed.nodes = graph.nodes)
    (sequence : changed.sequence = graph.sequence) (cycle : changed.cycle = graph.cycle) :
    graph.Carries changed where
  sequence := Nat.le_of_eq sequence.symm
  cycle := cycle
  standing task := .inl (by rw [standing?, nodes, standing?])
  linked parent child place _ _ linked := by
    rw [Linked, nodes]
    exact linked

/-- Naming tasks leaves it known when they were created and shown, and live tasks live. -/
theorem grows (carries : graph.Carries changed) : graph.Grows changed where
  sequence := carries.sequence
  cycle := carries.cycle
  sighting task sighting now := by
    rw [sighting?_eq_map_standing?] at now ⊢
    rcases carries.standing task with same | ⟨_, isNew⟩
    · rw [same] at now
      exact .inl now
    · rcases Option.map_eq_some_iff.mp now with ⟨standing, found, rfl⟩
      rcases isNew standing found with ⟨place, later, rfl⟩
      exact .inr ⟨later, rfl⟩
  live _ := carries.live
  linked := carries.linked

end Carries

/-! ## One task -/

theorem carries_insert {node other : TaskNode} (found : graph.nodes[task]? = some node)
    (ties : other.ties = node.ties) (standing : other.standing = node.standing) :
    graph.Carries { graph with nodes := graph.nodes.insert task other } where
  sequence := Nat.le_refl _
  cycle := rfl
  standing asked := .inl (map_getElem?_insert TaskNode.standing found standing asked)
  linked parent child place _ _ :=
    ((SameTies.insert found ties).linked_iff parent child place).mpr

/-- A new task changes nothing about the others. -/
theorem carries_addNew (absent : graph.nodes[task]? = none) (loop : Option LoopId)
    (name : Option String) : graph.Carries (graph.addNew task loop name) where
  sequence := Nat.le_succ graph.sequence
  cycle := rfl
  standing asked := by
    rw [standing?, getElem?_addNew]
    split
    · rename_i equal
      subst equal
      refine .inr ⟨?_, fun standing now => ⟨_, Nat.lt_succ_self _, (Option.some.inj now).symm⟩⟩
      rintro ⟨node, found, _⟩
      rw [absent] at found
      contradiction
    · exact .inl rfl
  linked parent child place _ _ := (linked_addNew loop name absent parent child place).mpr

namespace Consistent

/-- Taking out a completed task takes no edge between live ones away. -/
theorem carries_detach (consistent : graph.Consistent) (completed : graph.Completed task) :
    graph.Carries (graph.detach task) where
  sequence := Nat.le_of_eq (sequence_detach graph task).symm
  cycle := by
    rw [TaskGraph.detach]
    split <;> rfl
  standing asked := by
    rw [standing?, consistent.getElem?_detach]
    split
    · rename_i equal
      subst equal
      refine .inr ⟨fun live => (live_iff.mp live).2 completed, fun _ now => ?_⟩
      cases now
    · rw [Option.map_map]
      exact .inl rfl
  linked parent child place parentLive childLive linked := by
    have otherParent : task ≠ parent := by
      rintro rfl
      exact (live_iff.mp parentLive).2 completed
    have otherChild : task ≠ child := by
      rintro rfl
      exact (live_iff.mp childLive).2 completed
    exact (consistent.linked_detach task parent child place).mpr ⟨linked, otherParent, otherChild⟩

theorem carries_renew (consistent : graph.Consistent) (completed : graph.Completed task)
    (loop : Option LoopId) (name : Option String) :
    graph.Carries ((graph.detach task).addNew task loop name) := by
  refine (consistent.carries_detach completed).trans (carries_addNew ?_ loop name)
  rw [consistent.getElem?_detach, if_pos rfl]

theorem carries_create (consistent : graph.Consistent) (task : TaskDescription) :
    graph.Carries (graph.create task) := by
  rw [TaskGraph.create]
  cases found : graph.nodes[task.id]? with
  | none => exact carries_addNew found _ _
  | some node =>
      dsimp only
      split
      · rename_i completed
        exact consistent.carries_renew ⟨node, found, completed⟩ _ _
      · refine carries_insert found ?_ ?_ <;> rfl

theorem carries_adopt (consistent : graph.Consistent) (task : TaskId) (loop : Option LoopId) :
    graph.Carries (graph.adopt task loop) := by
  rw [TaskGraph.adopt]
  cases found : graph.nodes[task]? with
  | none => exact carries_addNew found _ _
  | some node =>
      dsimp only
      split
      · rename_i completed
        exact consistent.carries_renew ⟨node, found, completed⟩ _ _
      · refine carries_insert found ?_ ?_ <;> rfl

end Consistent

/-! ## Two tasks -/

/-- A new edge leaves all others in their places. -/
theorem carries_addEdge {parent child : TaskId} (different : parent ≠ child) (graph : TaskGraph) :
    graph.Carries (graph.addEdge parent child) where
  sequence := Nat.le_succ graph.sequence
  cycle := rfl
  standing asked := by
    rw [standing?, getElem?_addEdge different]
    split
    · rw [Option.map_map]
      exact .inl rfl
    · split
      · rw [Option.map_map]
        exact .inl rfl
      · exact .inl rfl
  linked first second place _ _ linked := by
    rw [Linked, getElem?_addEdge different]
    split
    · exact (exists_changed_iff _ _).mpr linked
    · split
      · rw [exists_changed_iff]
        rcases linked with ⟨node, found, before⟩
        refine ⟨node, found, ?_⟩
        rw [TaskNode.getElem?_parents_withParent]
        split
        · rename_i equal
          rw [equal, before, Option.getD_some]
        · exact before
      · exact linked

namespace Consistent

theorem carries_link (consistent : graph.Consistent) (parent child : TaskId) :
    graph.Carries (graph.link parent child) := by
  rw [TaskGraph.link]
  split
  · exact Carries.of_nodes rfl rfl rfl
  · rename_i different
    have adopted := consistent.adopt parent ((graph.liveLoop? parent).or (graph.liveLoop? child))
    exact ((consistent.carries_adopt parent _).trans (adopted.carries_adopt child _)).trans
      (carries_addEdge different _)

/-! ## Many tasks -/

theorem carries_createAll (consistent : graph.Consistent) (tasks : List TaskDescription) :
    graph.Carries (tasks.foldl TaskGraph.create graph) := by
  induction tasks generalizing graph with
  | nil => exact Carries.of_nodes rfl rfl rfl
  | cons task rest induction =>
      exact (consistent.carries_create task).trans (induction (consistent.create task))

theorem carries_importAll (consistent : graph.Consistent) (running : List (LoopId × TaskId))
    (scheduled eager : List TaskDescription) :
    graph.Carries (graph.importAll running scheduled eager) := by
  rcases importAll_creates graph running scheduled eager with ⟨entered, same⟩
  rw [same]
  exact (consistent.carries_createAll (scheduled ++ eager)).trans (Carries.of_nodes rfl rfl rfl)

theorem carries_discover {σ : Type} (consistent : graph.Consistent) (interpreter : Interpreter σ)
    (subject : σ) : graph.Carries ((graph.discover interpreter).run subject).1 := by
  rcases discover_creates graph interpreter subject with ⟨found, same⟩
  rw [same]
  exact consistent.carries_createAll found

end Consistent

end TaskGraph

end StackSampler
