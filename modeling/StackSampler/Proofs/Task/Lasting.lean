import StackSampler.Proofs.Task.Operations

/-!
# How long edges last

An edge between two live tasks lasts until the task that is waited on completes.  Of one operation
this is said exactly: the edge is there afterwards, and in its old place, unless the operation
completed that task, and in that case it is gone.  Which operations complete a task is said by
`Operation.Completes`, from what the interpreter answers and from the failed reads so far.
-/

namespace StackSampler.TaskGraph

variable {graph : TaskGraph} {task parent child : TaskId} {place : Nat}

/--
An operation completes a task: it is said to be done, or its loop is shown while the interpreter
reports it as done, or cannot read it once too often.
-/
def Operation.Completes (graph : TaskGraph) (task : TaskId) : Operation → Prop
  | .complete done => done = task
  | .render order _ interpreter thread _ observation =>
      ∃ loop, graph.loopOf? thread = some loop ∧
        graph.EndedBy (graph.answersOn order interpreter loop observation.subject).1 task
  | _ => False

theorem Operation.IsNaming.not_completes {operation : Operation} (naming : operation.IsNaming) :
    ¬ operation.Completes graph task := by
  cases operation with
  | complete done => exact naming.elim
  | render => exact naming.elim
  | _ => exact id

/-- The answers about the tasks of a loop end a task exactly if it is among those that end. -/
theorem mem_endedBy_answersOn {σ : Type} {order : VisitingOrder} (lawful : order.Lawful)
    (interpreter : Interpreter σ) (loop : LoopId) (subject : σ) :
    task ∈ graph.endedBy (graph.answersOn order interpreter loop subject).1 ↔
      graph.EndedBy (graph.answersOn order interpreter loop subject).1 task :=
  mem_endedBy_iff (nodup_answersOn graph lawful interpreter loop subject)

namespace Consistent

variable (consistent : graph.Consistent)

include consistent

/-! ## What becomes of a live task -/

/-- A task that is live after an operation which does not complete it is what it should be. -/
theorem fate_of_naming (live : graph.Live task) {operation : Operation}
    (naming : operation.IsNaming) :
    task ∈ (graph.after operation).nodes ∧
      ((graph.after operation).Completed task ↔ operation.Completes graph task) := by
  rcases live_iff.mp ((consistent.grows_after naming).live task live) with ⟨kept, pending⟩
  exact ⟨kept, iff_of_false pending naming.not_completes⟩

/-- What is shown of a loop completes the live tasks that the answers end. -/
theorem fate_of_settled (live : graph.Live task)
    (answers : List (TaskId × Except ReadFault TaskState)) (shown : List TaskId) :
    task ∈ ((graph.settle answers).markShown shown).nodes ∧
      (((graph.settle answers).markShown shown).Completed task ↔
        task ∈ graph.endedBy answers) := by
  rcases live_iff.mp live with ⟨known, pending⟩
  have marking := markShown_sameTies (graph.settle answers) shown
  constructor
  · rw [marking.mem_nodes_iff, consistent.mem_nodes_settle]
    exact known
  · refine (marking.completed_iff task).trans ?_
    refine consistent.completed_settle.trans ?_
    simp [pending, known]

/-- A live task is still known after an operation, and has completed if that completed it. -/
theorem fate (live : graph.Live task) (operation : Operation) :
    task ∈ (graph.after operation).nodes ∧
      ((graph.after operation).Completed task ↔ operation.Completes graph task) := by
  rcases live_iff.mp live with ⟨known, pending⟩
  cases operation with
  | complete done =>
      refine ⟨(consistent.mem_nodes_complete done).mpr known, ?_⟩
      refine (consistent.completed_complete done task).trans ?_
      simp [pending, known, Operation.Completes]
  | render order lawful interpreter thread physical observation =>
      rw [TaskGraph.after]
      cases hosted : graph.loopOf? thread with
      | none =>
          rw [renderIn_of_unhosted hosted]
          simp [pending, known, Operation.Completes, hosted]
      | some loop =>
          rw [renderIn_of_hosted hosted]
          rcases consistent.fate_of_settled live _ _ with ⟨kept, completed⟩
          refine ⟨kept, completed.trans ?_⟩
          rw [mem_endedBy_answersOn lawful]
          simp [Operation.Completes, hosted]
  | prune =>
      rcases live_iff.mp live.prune with ⟨kept, stillPending⟩
      exact ⟨kept, iff_of_false stillPending id⟩
  | _ =>
      refine consistent.fate_of_naming live ?_
      exact trivial

theorem live_after_iff (live : graph.Live task) (operation : Operation) :
    (graph.after operation).Live task ↔ ¬ operation.Completes graph task := by
  rcases consistent.fate live operation with ⟨known, completed⟩
  rw [live_iff, completed]
  simp [known]

/-! ## What becomes of an edge -/

/-- An edge between live tasks stays in its place until an operation completes its child. -/
theorem linked_after (parentLive : graph.Live parent) (childLive : graph.Live child)
    (linked : graph.Linked parent child place) {operation : Operation}
    (goesOn : ¬ operation.Completes graph child) :
    (graph.after operation).Linked parent child place := by
  cases operation with
  | complete done => exact (consistent.linked_complete done parent child place).mpr ⟨linked, goesOn⟩
  | render order lawful interpreter thread physical observation =>
      rw [TaskGraph.after]
      cases hosted : graph.loopOf? thread with
      | none =>
          rw [renderIn_of_unhosted hosted]
          exact linked
      | some loop =>
          rw [renderIn_of_hosted hosted]
          generalize graph.shownWith order interpreter thread physical observation.subject = shown
          refine ((markShown_sameTies _ shown).linked_iff parent child place).mpr ?_
          refine (consistent.linked_settle ?_ parent place).mpr linked
          rw [mem_endedBy_answersOn lawful]
          exact fun ended => goesOn ⟨loop, hosted, ended⟩
  | prune => exact (linked_prune graph parent child place).mpr linked
  | _ =>
      refine (consistent.grows_after ?_).linked parent child place parentLive childLive linked
      exact trivial

end Consistent

/--
An edge between two live tasks is still there after any operation, in its old place, unless the
operation completed the task that is waited on, and then it is gone.  So naming tasks leaves it, and
so do completing the task that waits and ending a cycle.
-/
theorem reachable_edge_lasts
    (reachable : graph.Reachable) (listed : graph.Lists parent child)
    (parentLive : graph.Live parent) (childLive : graph.Live child) (operation : Operation) :
    (¬ operation.Completes graph child →
        (graph.after operation).Lists parent child ∧
          ∀ place, graph.Linked parent child place →
            (graph.after operation).Linked parent child place) ∧
      (operation.Completes graph child →
        (graph.after operation).Completed child ∧
          ¬ (graph.after operation).Lists parent child) ∧
      (operation.IsNaming ∨ operation = .complete parent ∨ operation = .prune →
        (graph.after operation).Lists parent child) := by
  have consistent := reachable.consistent
  have consistentAfter := consistent.after operation
  rcases (consistent.ends parent child).mp listed with ⟨place, linked⟩
  have lasts : ¬ operation.Completes graph child →
      (graph.after operation).Lists parent child := by
    intro goesOn
    exact consistentAfter.lists_of_linked
      (consistent.linked_after parentLive childLive linked goesOn)
  refine ⟨fun goesOn => ⟨lasts goesOn, ?_⟩, ?_, ?_⟩
  · exact fun other otherLinked =>
      consistent.linked_after parentLive childLive otherLinked goesOn
  · intro completes
    have completed := (consistent.fate childLive operation).2.mpr completes
    refine ⟨completed, fun still => ?_⟩
    rcases (consistentAfter.ends parent child).mp still with ⟨later, stillLinked⟩
    exact consistentAfter.finished parent child later completed stillLinked
  · intro harmless
    apply lasts
    rcases harmless with naming | rfl | rfl
    · exact naming.not_completes
    · exact consistent.ne_of_linked linked
    · exact id

theorem reachable_edge_lasts_waitingGraph :
    waitingGraph.Reachable ∧ waitingGraph.Lists 1 2 ∧ waitingGraph.Live 1 ∧ waitingGraph.Live 2 ∧
      (waitingGraph.after (.complete 1)).Lists 1 2 ∧
      ¬ (waitingGraph.after (.complete 2)).Lists 1 2 := by
  have listed : waitingGraph.Lists 1 2 := ⟨_, rfl, by decide⟩
  have parentLive : waitingGraph.Live 1 := ⟨_, rfl, rfl⟩
  have childLive : waitingGraph.Live 2 := ⟨_, rfl, rfl⟩
  have lasts := reachable_edge_lasts waitingGraph_reachable listed parentLive childLive
  exact ⟨waitingGraph_reachable, listed, parentLive, childLive,
    (lasts (.complete 1)).2.2 (.inr (.inl rfl)), ((lasts (.complete 2)).2.1 rfl).2⟩

end StackSampler.TaskGraph
