import Mathlib.Data.List.Nodup
import StackSampler.Proofs.Task.Reachable

/-!
# What a graph learns from answers

The tasks that may run on a loop are asked about, each once, and the answers are settled before
anything is shown.  This module says what settling leaves of every task, which of those that were
read and are pending turn out to be on the loop, and what it means for the running task.
-/

namespace StackSampler

/-- A node after several tasks were taken from its children. -/
def TaskNode.withoutChildren (tasks : List TaskId) (node : TaskNode) : TaskNode :=
  { node with
    children := tasks.foldl (fun children task => children.erase task) node.children }

theorem TaskNode.mem_children_withoutChildren
    (tasks : List TaskId) (node : TaskNode) (child : TaskId) :
    child ∈ (node.withoutChildren tasks).children ↔ child ∈ node.children ∧ child ∉ tasks := by
  rw [withoutChildren]
  generalize node.children = children
  induction tasks generalizing children with
  | nil => simp
  | cons task rest induction =>
      rw [List.foldl_cons, induction, Std.ExtTreeSet.mem_erase, List.mem_cons, not_or]
      simp only [ne_eq, Std.compare_eq_iff_eq]
      constructor
      · rintro ⟨⟨different, member⟩, absent⟩
        exact ⟨member, Ne.symm different, absent⟩
      · rintro ⟨member, different, absent⟩
        exact ⟨⟨Ne.symm different, member⟩, absent⟩

/-- A node after an answer about its task, if there was one. -/
def TaskNode.told : Option (Except ReadFault TaskState) → TaskNode → TaskNode
  | none, node => node
  | some (.error _), node => node.missed
  | some (.ok state), node => if state.done then node else TaskGraph.learn state node

/-- A node after several tasks ended, of which its own may be one. -/
def TaskNode.outliving (ended : List TaskId) (task : TaskId) (node : TaskNode) : TaskNode :=
  if task ∈ ended then (node.withoutChildren ended).finished else node.withoutChildren ended

namespace TaskGraph

variable {σ : Type} {graph : TaskGraph} {task : TaskId}
  {answers : List (TaskId × Except ReadFault TaskState)}

/-! ## The answers -/

/-- Every task is asked about once, in order. -/
theorem readTasks_tasks (interpreter : Interpreter σ) (tasks : List TaskId) (subject : σ) :
    ((readTasks interpreter tasks).run subject).1.map Prod.fst = tasks := by
  induction tasks generalizing subject with
  | nil => rfl
  | cons task rest induction =>
      rw [readTasks]
      change task :: _ = task :: rest
      rw [List.cons_inj_right]
      exact induction _

theorem mem_pendingTasks {state : TaskState} :
    (task, state) ∈ pendingTasks answers ↔ (task, .ok state) ∈ answers ∧ state.done = false := by
  rw [pendingTasks, List.mem_filterMap]
  constructor
  · rintro ⟨⟨asked, answer⟩, member, taken⟩
    cases answer with
    | error fault => simp at taken
    | ok read =>
        cases ended : read.done with
        | true => simp [ended] at taken
        | false =>
            simp only [ended, Bool.false_eq_true, if_false, Option.some.injEq,
              Prod.mk.injEq] at taken
            rcases taken with ⟨rfl, rfl⟩
            exact ⟨member, ended⟩
  · rintro ⟨member, pending⟩
    exact ⟨_, member, by simp [pending]⟩

theorem mem_finishedTasks :
    task ∈ finishedTasks answers ↔ ∃ state, (task, .ok state) ∈ answers ∧ state.done = true := by
  rw [finishedTasks, List.mem_filterMap]
  constructor
  · rintro ⟨⟨asked, answer⟩, member, taken⟩
    cases answer with
    | error fault => simp at taken
    | ok read =>
        cases ended : read.done with
        | false => simp [ended] at taken
        | true =>
            simp only [ended, if_true, Option.some.injEq] at taken
            subst taken
            exact ⟨read, member, ended⟩
  · rintro ⟨state, member, ended⟩
    exact ⟨_, member, by simp [ended]⟩

theorem mem_unreadTasks :
    task ∈ unreadTasks answers ↔ ∃ fault, (task, .error fault) ∈ answers := by
  rw [unreadTasks, List.mem_filterMap]
  constructor
  · rintro ⟨⟨asked, answer⟩, member, taken⟩
    cases answer with
    | ok read => simp at taken
    | error fault =>
        simp only [Option.some.injEq] at taken
        subst taken
        exact ⟨fault, member⟩
  · rintro ⟨fault, member⟩
    exact ⟨_, member, rfl⟩

theorem answer_unique
    (distinct : (answers.map Prod.fst).Nodup) {first second : Except ReadFault TaskState}
    (left : (task, first) ∈ answers) (right : (task, second) ∈ answers) : first = second := by
  have same := List.inj_on_of_nodup_map distinct left right rfl
  exact (Prod.mk.inj same).2

theorem lookup_eq_some_iff
    (distinct : (answers.map Prod.fst).Nodup) {answer : Except ReadFault TaskState} :
    answers.lookup task = some answer ↔ (task, answer) ∈ answers := by
  have found : ∀ {other}, answers.lookup task = some other → (task, other) ∈ answers := by
    intro other looked
    rcases List.lookup_eq_some_iff.mp looked with ⟨before, after, same, _⟩
    rw [same]
    exact List.mem_append_right _ List.mem_cons_self
  refine ⟨found, fun member => ?_⟩
  cases looked : answers.lookup task with
  | none => simpa using List.lookup_eq_none_iff.mp looked _ member
  | some other => rw [answer_unique distinct (found looked) member]

theorem not_mem_of_lookup_eq_none (unasked : answers.lookup task = none) :
    task ∉ answers.map Prod.fst := by
  intro asked
  rcases List.mem_map.mp asked with ⟨entry, member, rfl⟩
  simpa using List.lookup_eq_none_iff.mp unasked entry member

theorem pendingTasks_sublist (answers : List (TaskId × Except ReadFault TaskState)) :
    ((pendingTasks answers).map Prod.fst).Sublist (answers.map Prod.fst) := by
  induction answers with
  | nil => exact List.Sublist.refl _
  | cons answer rest induction =>
      rcases answer with ⟨asked, fault | state⟩
      · exact induction.cons asked
      · rw [pendingTasks, List.filterMap_cons]
        cases ended : state.done with
        | true =>
            simp only [ended, if_true]
            exact induction.cons asked
        | false =>
            simp only [ended, Bool.false_eq_true, if_false]
            exact induction.cons_cons asked

theorem nodup_pendingTasks (distinct : (answers.map Prod.fst).Nodup) :
    ((pendingTasks answers).map Prod.fst).Nodup :=
  distinct.sublist (pendingTasks_sublist answers)

/-! ## The tasks that end -/

/-- The tasks that complete when answers are settled. -/
def endedBy (graph : TaskGraph) (answers : List (TaskId × Except ReadFault TaskState)) :
    List TaskId :=
  finishedTasks answers ++ (graph.countFailures (unreadTasks answers)).2

theorem mem_of_mem_countFailures {tasks : List TaskId}
    (member : task ∈ (graph.countFailures tasks).2) : task ∈ tasks := by
  induction tasks generalizing graph with
  | nil => exact member
  | cons first rest induction =>
      rw [countFailures] at member
      dsimp only at member
      split at member
      · rcases List.mem_cons.mp member with rfl | later
        · exact List.mem_cons_self
        · exact List.mem_cons_of_mem _ (induction later)
      · exact List.mem_cons_of_mem _ (induction member)

theorem getElem?_countFailures
    {tasks : List TaskId} (other : task ∉ tasks) :
    (graph.countFailures tasks).1.nodes[task]? = graph.nodes[task]? := by
  rw [countFailures_eq]
  exact getElem?_foldl_modify_of_not_mem id (fun _ => TaskNode.missed)
    ((List.map_id tasks).symm ▸ other) graph.nodes

/-- A failed read was one too many. -/
def IsWornOut (graph : TaskGraph) (task : TaskId) : Prop :=
  ∃ node, graph.nodes[task]? = some node ∧ failureLimit ≤ node.failures + 1

theorem countFailure_eq_true_iff :
    (graph.countFailure task).2 = true ↔ graph.IsWornOut task := by
  rw [countFailure, IsWornOut]
  cases graph.nodes[task]? with
  | none => simp
  | some node => simp

/-- Of the tasks that could not be read, those are given up for which it was once too often. -/
theorem mem_countFailures_iff {tasks : List TaskId} (distinct : tasks.Nodup) :
    task ∈ (graph.countFailures tasks).2 ↔ task ∈ tasks ∧ graph.IsWornOut task := by
  induction tasks generalizing graph with
  | nil => simp [countFailures]
  | cons first rest induction =>
      rw [List.nodup_cons] at distinct
      have later : task ∈ ((graph.countFailure first).1.countFailures rest).2 ↔
          task ∈ rest ∧ (graph.countFailure first).1.IsWornOut task :=
        induction distinct.2
      rw [countFailures]
      dsimp only
      by_cases equal : first = task
      · subst equal
        have absent : first ∉ ((graph.countFailure first).1.countFailures rest).2 :=
          fun member => distinct.1 (mem_of_mem_countFailures member)
        rw [← countFailure_eq_true_iff]
        split
        · simp [*]
        · simp [*]
      · have same : (graph.countFailure first).1.IsWornOut task ↔ graph.IsWornOut task := by
          rw [IsWornOut, IsWornOut, countFailure_eq]
          simp [Std.ExtTreeMap.getElem?_modify, equal]
        rw [same] at later
        split
        · simp [later, Ne.symm equal]
        · simp [later, Ne.symm equal]

theorem unreadTasks_sublist (answers : List (TaskId × Except ReadFault TaskState)) :
    (unreadTasks answers).Sublist (answers.map Prod.fst) := by
  induction answers with
  | nil => exact List.Sublist.refl _
  | cons answer rest induction =>
      rcases answer with ⟨asked, fault | state⟩
      · exact induction.cons_cons asked
      · exact induction.cons asked

/--
Answers end a task: it was read and is done, or it could not be read, and that was once too often.
-/
def EndedBy (graph : TaskGraph) (answers : List (TaskId × Except ReadFault TaskState))
    (task : TaskId) : Prop :=
  (∃ state, (task, .ok state) ∈ answers ∧ state.done = true) ∨
    ((∃ fault, (task, .error fault) ∈ answers) ∧ graph.IsWornOut task)

theorem mem_endedBy_iff (distinct : (answers.map Prod.fst).Nodup) :
    task ∈ graph.endedBy answers ↔ graph.EndedBy answers task := by
  rw [endedBy, List.mem_append, mem_finishedTasks,
    mem_countFailures_iff (distinct.sublist (unreadTasks_sublist answers)), mem_unreadTasks]
  rfl

/-- A task that was read and is pending does not end. -/
theorem not_mem_endedBy
    (distinct : (answers.map Prod.fst).Nodup) {state : TaskState}
    (read : (task, .ok state) ∈ answers) (pending : state.done = false) :
    task ∉ graph.endedBy answers := by
  rw [mem_endedBy_iff distinct]
  rintro (⟨other, otherRead, ended⟩ | ⟨⟨fault, unread⟩, _⟩)
  · have same := Except.ok.inj (answer_unique distinct read otherRead)
    subst same
    rw [pending] at ended
    contradiction
  · have same := answer_unique distinct read unread
    contradiction

/-! ## What ending tasks leaves -/

theorem Consistent.mem_nodes_complete (consistent : graph.Consistent) (other : TaskId) :
    task ∈ (graph.complete other).nodes ↔ task ∈ graph.nodes := by
  rw [Std.ExtTreeMap.mem_iff_isSome_getElem?, Std.ExtTreeMap.mem_iff_isSome_getElem?,
    consistent.getElem?_complete]
  split <;> rw [Option.isSome_map]

/-- After several tasks were said to complete, those of them that are known have. -/
theorem Consistent.completed_completeAll (consistent : graph.Consistent) (tasks : List TaskId) :
    (tasks.foldl TaskGraph.complete graph).Completed task ↔
      graph.Completed task ∨ (task ∈ tasks ∧ task ∈ graph.nodes) := by
  induction tasks generalizing graph with
  | nil => simp
  | cons first rest induction =>
      rw [List.foldl_cons, induction (consistent.complete first), consistent.completed_complete,
        consistent.mem_nodes_complete, List.mem_cons]
      constructor
      · rintro ((before | ⟨equal, known⟩) | ⟨later, known⟩)
        · exact .inl before
        · exact .inr ⟨.inl equal.symm, known⟩
        · exact .inr ⟨.inr later, known⟩
      · rintro (before | ⟨equal | later, known⟩)
        · exact .inl (.inl before)
        · exact .inl (.inr ⟨equal.symm, known⟩)
        · exact .inr ⟨later, known⟩

/-! ## What is left of a task -/

/-- Tasks that complete are taken from the children of all others, and end with no parents. -/
theorem Consistent.getElem?_completeAll
    (consistent : graph.Consistent) (tasks : List TaskId) :
    (tasks.foldl TaskGraph.complete graph).nodes[task]? =
      graph.nodes[task]?.map (TaskNode.outliving tasks task) := by
  induction tasks generalizing graph with
  | nil =>
      change graph.nodes[task]? = graph.nodes[task]?.map id
      rw [Option.map_id]
      rfl
  | cons first rest induction =>
      rw [List.foldl_cons, induction (consistent.complete first), consistent.getElem?_complete]
      by_cases equal : first = task
      · subst equal
        rw [if_pos rfl]
        cases found : graph.nodes[first]? with
        | none => rfl
        | some node =>
            -- No task is its own child, so taking it from its own children changes nothing.
            have alone : node.withoutChild first = node :=
              TaskNode.withoutChild_of_not_mem fun member =>
                consistent.irreflexive first ⟨node, found, member⟩
            have same : node.withoutChildren (first :: rest) = node.withoutChildren rest :=
              congrArg (TaskNode.withoutChildren rest) alone
            rw [Option.map_some, Option.map_some, Option.map_some, TaskNode.outliving,
              TaskNode.outliving, if_pos List.mem_cons_self, same]
            split <;> rfl
      · rw [if_neg equal, Option.map_map]
        apply congrArg fun change => graph.nodes[task]?.map change
        funext node
        have same : task ∈ first :: rest ↔ task ∈ rest := by
          rw [List.mem_cons, or_iff_right (Ne.symm equal)]
        simp only [Function.comp_apply, TaskNode.outliving, same]
        rfl

theorem TaskNode.outliving_of_not_mem {ended : List TaskId} (other : task ∉ ended) :
    TaskNode.outliving ended task = TaskNode.withoutChildren ended := by
  funext node
  rw [TaskNode.outliving, if_neg other]

theorem Consistent.mem_nodes_completeAll
    (consistent : graph.Consistent) (tasks : List TaskId) :
    task ∈ (tasks.foldl TaskGraph.complete graph).nodes ↔ task ∈ graph.nodes := by
  induction tasks generalizing graph with
  | nil => rfl
  | cons first rest induction =>
      rw [List.foldl_cons, induction (consistent.complete first), consistent.mem_nodes_complete]

theorem Consistent.linked_completeAll
    (consistent : graph.Consistent) {tasks : List TaskId} (other : task ∉ tasks)
    (parent : TaskId) (place : Nat) :
    (tasks.foldl TaskGraph.complete graph).Linked parent task place ↔
      graph.Linked parent task place := by
  rw [Linked, consistent.getElem?_completeAll, TaskNode.outliving_of_not_mem other,
    exists_changed_iff]
  rfl

section

variable (consistent : graph.Consistent)

include consistent

theorem Consistent.countFailures :
    (graph.countFailures (unreadTasks answers)).1.Consistent :=
  (countFailures_sameTies graph (unreadTasks answers)).consistent consistent

theorem Consistent.mem_nodes_settle :
    task ∈ (graph.settle answers).nodes ↔ task ∈ graph.nodes :=
  calc task ∈ (graph.settle answers).nodes
      ↔ task ∈ ((graph.endedBy answers).foldl TaskGraph.complete
          (graph.countFailures (unreadTasks answers)).1).nodes :=
        (learnAll_sameTies _ (pendingTasks answers)).mem_nodes_iff task
    _ ↔ task ∈ (graph.countFailures (unreadTasks answers)).1.nodes :=
        consistent.countFailures.mem_nodes_completeAll (graph.endedBy answers)
    _ ↔ task ∈ graph.nodes :=
        (countFailures_sameTies graph (unreadTasks answers)).mem_nodes_iff task

/-- Settling answers leaves the edges of a task that does not end. -/
theorem Consistent.linked_settle
    (goesOn : task ∉ graph.endedBy answers) (parent : TaskId) (place : Nat) :
    (graph.settle answers).Linked parent task place ↔ graph.Linked parent task place :=
  calc (graph.settle answers).Linked parent task place
      ↔ ((graph.endedBy answers).foldl TaskGraph.complete
          (graph.countFailures (unreadTasks answers)).1).Linked parent task place :=
        (learnAll_sameTies _ (pendingTasks answers)).linked_iff parent task place
    _ ↔ (graph.countFailures (unreadTasks answers)).1.Linked parent task place :=
        consistent.countFailures.linked_completeAll goesOn parent place
    _ ↔ graph.Linked parent task place :=
        (countFailures_sameTies graph (unreadTasks answers)).linked_iff parent task place

/-- Settling answers completes the tasks that end. -/
theorem Consistent.completed_settle :
    (graph.settle answers).Completed task ↔
      graph.Completed task ∨ (task ∈ graph.endedBy answers ∧ task ∈ graph.nodes) :=
  calc (graph.settle answers).Completed task
      ↔ ((graph.endedBy answers).foldl TaskGraph.complete
          (graph.countFailures (unreadTasks answers)).1).Completed task :=
        (learnAll_sameTies _ (pendingTasks answers)).completed_iff task
    _ ↔ (graph.countFailures (unreadTasks answers)).1.Completed task ∨
          (task ∈ graph.endedBy answers ∧
            task ∈ (graph.countFailures (unreadTasks answers)).1.nodes) :=
        consistent.countFailures.completed_completeAll (graph.endedBy answers)
    _ ↔ graph.Completed task ∨ (task ∈ graph.endedBy answers ∧ task ∈ graph.nodes) := by
        have counting := countFailures_sameTies graph (unreadTasks answers)
        rw [counting.mem_nodes_iff]
        exact or_congr_left (counting.completed_iff task)

end

/-- What settling leaves of a task, whatever the answer about it. -/
theorem Consistent.getElem?_settle_of_lookup
    (consistent : graph.Consistent) (distinct : (answers.map Prod.fst).Nodup) :
    (graph.settle answers).nodes[task]? =
      graph.nodes[task]?.map fun node =>
        (node.told (answers.lookup task)).outliving (graph.endedBy answers) task := by
  have counted : (graph.countFailures (unreadTasks answers)).1.Consistent :=
    consistent.countFailures
  have unlearned : ∀ {nodes : Std.ExtTreeMap TaskId TaskNode},
      task ∉ (pendingTasks answers).map Prod.fst →
        ((pendingTasks answers).foldl
          (fun nodes answer => nodes.modify answer.1 (learn answer.2)) nodes)[task]? =
            nodes[task]? :=
    fun {nodes} absent =>
      getElem?_foldl_modify_of_not_mem Prod.fst (fun answer => learn answer.2) absent nodes
  rw [TaskGraph.settle]
  cases looked : answers.lookup task with
  | none =>
      have unasked := not_mem_of_lookup_eq_none looked
      refine (unlearned fun asked => unasked ((pendingTasks_sublist answers).mem asked)).trans ?_
      refine (counted.getElem?_completeAll (graph.endedBy answers)).trans ?_
      rw [getElem?_countFailures fun asked => unasked ((unreadTasks_sublist answers).mem asked)]
      rfl
  | some answer =>
      have member := (lookup_eq_some_iff distinct).mp looked
      cases answer with
      | error fault =>
          have unread : task ∈ unreadTasks answers := mem_unreadTasks.mpr ⟨fault, member⟩
          refine (unlearned ?_).trans ?_
          · intro pending
            rcases List.mem_map.mp pending with ⟨⟨same, state⟩, pendingMember, rfl⟩
            have read := (mem_pendingTasks.mp pendingMember).1
            exact nomatch answer_unique distinct member read
          refine (counted.getElem?_completeAll (graph.endedBy answers)).trans ?_
          rw [countFailures_eq, getElem?_foldl_modify TaskNode.missed
            (distinct.sublist (unreadTasks_sublist answers)), if_pos unread, Option.map_map]
          rfl
      | ok state =>
          have readable : task ∉ unreadTasks answers := by
            intro unread
            rcases mem_unreadTasks.mp unread with ⟨fault, failed⟩
            exact nomatch answer_unique distinct member failed
          cases ended : state.done with
          | true =>
              refine (unlearned ?_).trans ?_
              · intro pending
                rcases List.mem_map.mp pending with ⟨⟨same, other⟩, pendingMember, rfl⟩
                rcases mem_pendingTasks.mp pendingMember with ⟨read, goesOn⟩
                rw [← Except.ok.inj (answer_unique distinct member read), ended] at goesOn
                contradiction
              refine (counted.getElem?_completeAll (graph.endedBy answers)).trans ?_
              rw [getElem?_countFailures readable]
              simp [TaskNode.told, ended]
          | false =>
              have goesOn : task ∉ graph.endedBy answers := not_mem_endedBy distinct member ended
              refine (getElem?_foldl_modify_of_mem Prod.fst (fun answer => learn answer.2)
                (nodup_pendingTasks distinct) (mem_pendingTasks.mpr ⟨member, ended⟩) _).trans ?_
              refine (congrArg (Option.map (learn state))
                (counted.getElem?_completeAll (graph.endedBy answers))).trans ?_
              rw [getElem?_countFailures readable, Option.map_map,
                TaskNode.outliving_of_not_mem goesOn]
              simp only [TaskNode.told, ended, Bool.false_eq_true, if_false]
              rfl

/-- What settling leaves of a task that was read and is pending. -/
theorem Consistent.getElem?_settle
    (consistent : graph.Consistent) (distinct : (answers.map Prod.fst).Nodup)
    {state : TaskState} (read : (task, .ok state) ∈ answers) (pending : state.done = false) :
    (graph.settle answers).nodes[task]? =
      graph.nodes[task]?.map fun node =>
        learn state (node.withoutChildren (graph.endedBy answers)) := by
  have goesOn : task ∉ graph.endedBy answers := not_mem_endedBy distinct read pending
  rw [consistent.getElem?_settle_of_lookup distinct, (lookup_eq_some_iff distinct).mpr read,
    TaskNode.outliving_of_not_mem goesOn]
  simp only [TaskNode.told, pending, Bool.false_eq_true, if_false]
  rfl

/-! ## The tasks on the loop -/

theorem getElem?_foldl_insert
    {pending : List (TaskId × TaskState)} (distinct : (pending.map Prod.fst).Nodup)
    (isOn : TaskId → Prop) [DecidablePred isOn] (states : TaskStates) (state : TaskState) :
    (pending.foldl (fun states (task, state) =>
      if isOn task then states.insert task state else states) states)[task]? = some state ↔
        ((task, state) ∈ pending ∧ isOn task) ∨
          ((isOn task → task ∉ pending.map Prod.fst) ∧ states[task]? = some state) := by
  induction pending generalizing states with
  | nil => simp
  | cons first rest induction =>
      rcases first with ⟨asked, read⟩
      rw [List.map_cons, List.nodup_cons] at distinct
      rw [List.foldl_cons, induction distinct.2]
      by_cases equal : asked = task
      · subst equal
        have absent : (asked, state) ∉ rest := by
          intro member
          exact distinct.1 (List.mem_map.mpr ⟨_, member, rfl⟩)
        by_cases on : isOn asked
        · simp [on, absent, distinct.1, eq_comm]
        · simp [on]
      · by_cases on : isOn asked
        · simp [on, equal, Ne.symm equal, Std.ExtTreeMap.getElem?_insert]
        · simp [on, Ne.symm equal]

/--
The states that are shown are those of the tasks that were read, are pending and run on the loop,
which a task may not have been known to do before it was read.
-/
theorem Consistent.getElem?_statesOn
    (consistent : graph.Consistent) (distinct : (answers.map Prod.fst).Nodup)
    (loop : LoopId) (state : TaskState) :
    ((graph.settle answers).statesOn loop answers)[task]? = some state ↔
      ∃ node, graph.nodes[task]? = some node ∧ (task, .ok state) ∈ answers ∧
        state.done = false ∧ node.loop.or state.loop = some loop := by
  refine (getElem?_foldl_insert (nodup_pendingTasks distinct)
    (fun task => ((graph.settle answers).nodes[task]?.bind (·.loop)) = some loop) ∅ state).trans ?_
  rw [mem_pendingTasks]
  simp only [Std.ExtTreeMap.getElem?_empty, reduceCtorEq, and_false, or_false]
  constructor
  · rintro ⟨⟨read, pending⟩, on⟩
    rw [consistent.getElem?_settle distinct read pending, Option.bind_map,
      Option.bind_eq_some_iff] at on
    rcases on with ⟨node, found, on⟩
    exact ⟨node, found, read, pending, on⟩
  · rintro ⟨node, found, read, pending, on⟩
    refine ⟨⟨read, pending⟩, ?_⟩
    rw [consistent.getElem?_settle distinct read pending, found]
    exact on

/-! ## The running task -/

/-- The graph knows a task to be on a loop. -/
def IsKnownOn (graph : TaskGraph) (loop : LoopId) (task : TaskId) : Prop :=
  graph.nodes[task]?.bind (·.loop) = some loop

/-- Changes that no node's loop shows leave it known which tasks are on a loop. -/
theorem isKnownOn_congr {changed : TaskGraph}
    (same : changed.nodes[task]?.map (·.loop) = graph.nodes[task]?.map (·.loop)) (loop : LoopId) :
    changed.IsKnownOn loop task ↔ graph.IsKnownOn loop task := by
  have joined : ∀ found : Option TaskNode,
      found.bind (·.loop) = (found.map (·.loop)).bind id := by
    intro found
    cases found <;> rfl
  rw [IsKnownOn, joined, same, ← joined]
  rfl

theorem isKnownOn_countFailures (graph : TaskGraph) (tasks : List TaskId) (loop : LoopId) :
    (graph.countFailures tasks).1.IsKnownOn loop task ↔ graph.IsKnownOn loop task := by
  apply isKnownOn_congr
  rw [countFailures_eq]
  apply map_getElem?_foldl_modify (·.loop) tasks id fun _ => TaskNode.missed
  intro missed node
  rfl

theorem Consistent.isKnownOn_complete (consistent : graph.Consistent) (other : TaskId)
    (loop : LoopId) :
    (graph.complete other).IsKnownOn loop task ↔ graph.IsKnownOn loop task := by
  apply isKnownOn_congr
  rw [consistent.getElem?_complete]
  split <;> rw [Option.map_map] <;> rfl

theorem running_leave (graph : TaskGraph) (left : LoopId) (task : TaskId) (loop : LoopId)
    (ran : TaskId) :
    (graph.leave left task).running[loop]? = some ran ↔
      graph.running[loop]? = some ran ∧ ¬ (ran = task ∧ left = loop) := by
  rw [leave]
  split
  · rename_i running
    rw [Std.ExtTreeMap.getElem?_erase]
    by_cases equal : left = loop
    · subst equal
      simp [running, eq_comm]
    · simp [equal]
  · rename_i idle
    have apart : graph.running[loop]? = some ran → ¬ (ran = task ∧ left = loop) := by
      rintro running ⟨rfl, rfl⟩
      exact idle running
    exact (and_iff_left_of_imp apart).symm

/-- A task that completes is no longer run by the loop that it is known to be on. -/
theorem running_complete (graph : TaskGraph) (task : TaskId) (loop : LoopId) (ran : TaskId) :
    (graph.complete task).running[loop]? = some ran ↔
      graph.running[loop]? = some ran ∧ ¬ (ran = task ∧ graph.IsKnownOn loop task) := by
  rw [complete, IsKnownOn]
  cases found : graph.nodes[task]? with
  | none => simp
  | some node =>
      cases own : node.loop with
      | none => simp [own]
      | some home => simp [own, running_leave]

/-- Of several tasks that complete, none is run any more by the loop that it is known to be on. -/
theorem Consistent.running_completeAll (consistent : graph.Consistent) (tasks : List TaskId)
    (loop : LoopId) (ran : TaskId) :
    (tasks.foldl TaskGraph.complete graph).running[loop]? = some ran ↔
      graph.running[loop]? = some ran ∧ ¬ (ran ∈ tasks ∧ graph.IsKnownOn loop ran) := by
  induction tasks generalizing graph with
  | nil => simp
  | cons first rest induction =>
      have both : ran ∈ first :: rest ∧ graph.IsKnownOn loop ran ↔
          (ran = first ∧ graph.IsKnownOn loop first) ∨ (ran ∈ rest ∧ graph.IsKnownOn loop ran) := by
        rw [List.mem_cons, or_and_right]
        refine or_congr_left (and_congr_right ?_)
        rintro rfl
        rfl
      rw [List.foldl_cons, induction (consistent.complete first), running_complete,
        consistent.isKnownOn_complete, and_assoc, ← not_or, both]

/-- What settling answers makes of what a loop is said to run. -/
theorem Consistent.runningTask?_settle (consistent : graph.Consistent) (loop : LoopId)
    (ran : TaskId) :
    (graph.settle answers).runningTask? loop = some ran ↔
      graph.runningTask? loop = some ran ∧
        ¬ (ran ∈ graph.endedBy answers ∧ graph.IsKnownOn loop ran) := by
  have counted : (graph.countFailures (unreadTasks answers)).1.Consistent :=
    consistent.countFailures
  refine (counted.running_completeAll (graph.endedBy answers) loop ran).trans ?_
  rw [isKnownOn_countFailures, countFailures_eq]
  rfl

end TaskGraph

end StackSampler
