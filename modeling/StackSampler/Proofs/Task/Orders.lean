import StackSampler.Proofs.Task.Operations

/-!
# The order in which tasks are gone through

The tasks of a graph and the states of a loop are gone through in no order that anybody lays down.
What is read is settled in the same way whatever the order, and the stacks are shown for the same
leaves, the one created first before the others.  But two choices are left to the order: which of
several tasks that await one and the same stands behind it, and which of several coroutines on the
thread's stack is the running task's.  Where there is nothing to choose, the order cannot be told
from what is shown.
-/

namespace StackSampler

/-- Looking at a task leaves an interpreter as it is. -/
def Interpreter.IsSteady {σ : Type} (interpreter : Interpreter σ) (subject : σ) : Prop :=
  ∀ task, ((interpreter.task task).run.run subject).2 = subject

theorem TaskNode.withoutChildren_congr {left right : List TaskId}
    (same : ∀ task, task ∈ left ↔ task ∈ right) :
    TaskNode.withoutChildren left = TaskNode.withoutChildren right := by
  funext node
  have children : (node.withoutChildren left).children = (node.withoutChildren right).children := by
    apply Std.ExtTreeSet.ext_mem
    intro child
    rw [mem_children_withoutChildren, mem_children_withoutChildren, same]
  change { node with children := (node.withoutChildren left).children } =
    { node with children := (node.withoutChildren right).children }
  rw [children]

theorem TaskNode.outliving_congr {left right : List TaskId}
    (same : ∀ task, task ∈ left ↔ task ∈ right) (task : TaskId) :
    TaskNode.outliving left task = TaskNode.outliving right task := by
  funext node
  rw [outliving, outliving, withoutChildren_congr same]
  exact if_congr (same task) rfl rfl

namespace TaskGraph

variable {σ : Type} {graph : TaskGraph} {task : TaskId} {loop : LoopId} {thread : ThreadId}
  {answers others : List (TaskId × Except ReadFault TaskState)} {physical : List WalkedFrame}
  {interpreter : Interpreter σ} {subject : σ} {first second : VisitingOrder} {view : LoopView}

/-! ## Settling answers in any order -/

theorem complete_eq (graph : TaskGraph) (task : TaskId) :
    graph.complete task =
      { graph with
        nodes := (graph.complete task).nodes
        running := (graph.complete task).running } := by
  rw [complete]
  split
  · rfl
  · split
    · rw [leave]
      split <;> rfl
    · rfl

theorem completeAll_eq (graph : TaskGraph) (tasks : List TaskId) :
    tasks.foldl complete graph =
      { graph with
        nodes := (tasks.foldl complete graph).nodes
        running := (tasks.foldl complete graph).running } := by
  induction tasks generalizing graph with
  | nil => rfl
  | cons task rest induction =>
      have same := complete_eq graph task
      refine (induction (graph.complete task)).trans ?_
      rw [congrArg loops same, congrArg containers same, congrArg sequence same,
        congrArg cycle same]
      rfl

/-- Settling answers changes the nodes and what runs, and nothing else. -/
theorem settle_eq (graph : TaskGraph) (answers : List (TaskId × Except ReadFault TaskState)) :
    graph.settle answers =
      { graph with
        nodes := (graph.settle answers).nodes
        running := (graph.settle answers).running } := by
  rw [settle]
  dsimp only
  rw [completeAll_eq, countFailures_eq]

theorem EndedBy.perm (perm : answers.Perm others) :
    graph.EndedBy answers task ↔ graph.EndedBy others task := by
  simp only [EndedBy, perm.mem_iff]

section

variable (consistent : graph.Consistent) (distinct : (answers.map Prod.fst).Nodup)
  (perm : answers.Perm others)

include consistent distinct perm

/-- What is learned does not depend on the order of the answers. -/
theorem Consistent.settle_perm : graph.settle answers = graph.settle others := by
  have distinctToo : (others.map Prod.fst).Nodup := (perm.map Prod.fst).nodup_iff.mp distinct
  have ended : ∀ task, task ∈ graph.endedBy answers ↔ task ∈ graph.endedBy others := by
    intro task
    rw [mem_endedBy_iff distinct, mem_endedBy_iff distinctToo, EndedBy.perm perm]
  have nodes : (graph.settle answers).nodes = (graph.settle others).nodes := by
    apply Std.ExtTreeMap.ext_getElem?
    intro task
    have looked : answers.lookup task = others.lookup task := by
      apply Option.ext
      intro answer
      rw [lookup_eq_some_iff distinct, lookup_eq_some_iff distinctToo, perm.mem_iff]
    rw [consistent.getElem?_settle_of_lookup distinct,
      consistent.getElem?_settle_of_lookup distinctToo, looked, TaskNode.outliving_congr ended]
  have running : (graph.settle answers).running = (graph.settle others).running := by
    apply Std.ExtTreeMap.ext_getElem?
    intro loop
    apply Option.ext
    intro ran
    refine (consistent.runningTask?_settle loop ran).trans ?_
    rw [ended]
    exact (consistent.runningTask?_settle loop ran).symm
  rw [settle_eq graph answers, settle_eq graph others, nodes, running]

/-- The states of a loop are the same whatever the order of the answers. -/
theorem Consistent.statesOn_perm :
    (graph.settle answers).statesOn loop answers = (graph.settle others).statesOn loop others := by
  have distinctToo : (others.map Prod.fst).Nodup := (perm.map Prod.fst).nodup_iff.mp distinct
  apply Std.ExtTreeMap.ext_getElem?
  intro task
  apply Option.ext
  intro state
  rw [consistent.getElem?_statesOn distinct, consistent.getElem?_statesOn distinctToo,
    perm.mem_iff]

end

/-! ## Reading tasks in any order -/

theorem readTasks_of_steady (steady : interpreter.IsSteady subject) (tasks : List TaskId) :
    (readTasks interpreter tasks).run subject =
      (tasks.map fun task => (task, ((interpreter.task task).run.run subject).1), subject) := by
  induction tasks with
  | nil => rfl
  | cons task rest induction =>
      have unmoved := steady task
      rw [readTasks]
      change (((task, ((interpreter.task task).run.run subject).1) ::
        ((readTasks interpreter rest).run ((interpreter.task task).run.run subject).2).1),
          ((readTasks interpreter rest).run ((interpreter.task task).run.run subject).2).2) = _
      rw [unmoved, induction]
      rfl

theorem candidates_perm (graph : TaskGraph) (firstLawful : first.Lawful)
    (secondLawful : second.Lawful) (loop : LoopId) :
    (graph.candidates first loop).Perm (graph.candidates second loop) :=
  ((firstLawful.nodes _).trans (secondLawful.nodes _).symm).filter _

theorem answersOn_perm (graph : TaskGraph) (firstLawful : first.Lawful)
    (secondLawful : second.Lawful) (steady : interpreter.IsSteady subject) (loop : LoopId) :
    (graph.answersOn first interpreter loop subject).1.Perm
        (graph.answersOn second interpreter loop subject).1 ∧
      ∀ order, (graph.answersOn order interpreter loop subject).2 = subject := by
  constructor
  · rw [answersOn, answersOn, readTasks_of_steady steady, readTasks_of_steady steady]
    exact (candidates_perm graph firstLawful secondLawful loop).map _
  · intro order
    rw [answersOn, readTasks_of_steady steady]

/-! ## Leaves and chains in any order -/

section

variable {settled other : TaskGraph} (agrees : view.Agrees settled) (otherAgrees : view.Agrees other)
  (firstLawful : first.Lawful) (secondLawful : second.Lawful)

include agrees otherAgrees firstLawful secondLawful

/-- The leaves are shown in the order in which they were created. -/
theorem LoopView.Agrees.leaves_eq :
    settled.leaves first view.states = other.leaves second view.states := by
  have perm : (settled.leaves first view.states).Perm (other.leaves second view.states) := by
    rw [List.perm_ext_iff_of_nodup (nodup_leaves settled firstLawful view.states)
      (nodup_leaves other secondLawful view.states)]
    intro task
    rw [agrees.mem_leaves firstLawful, otherAgrees.mem_leaves secondLawful]
  refine perm.eq_of_pairwise ?_ (agrees.leaves_pairwise firstLawful)
    (otherAgrees.leaves_pairwise secondLawful)
  rintro task another _ _ ⟨earlier, later, created, otherCreated, before⟩
    ⟨otherPlace, place, otherCreatedToo, createdToo, after⟩
  rw [← createdAt_eq created, ← createdAt_eq otherCreated] at before
  rw [← createdAt_eq otherCreatedToo, ← createdAt_eq createdToo] at after
  exact absurd before (Nat.lt_asymm after)

/-- Where no task has two direct awaiters, a chain goes on in one way. -/
theorem LoopView.Agrees.chainFrom_eq (single : view.SinglyAwaited) (room : Nat)
    (before : List TaskId) (member : task ∈ view.states) :
    settled.chainFrom view.states (waitersOf first view.states) view.running room before task =
      other.chainFrom view.states (waitersOf second view.states) view.running room before task := by
  induction room generalizing before task with
  | zero => rfl
  | succ room induction =>
      have goesOn : ∀ next, settled.awaiterOf view.states (waitersOf first view.states) view.running
          (task :: before) task = some next ↔ view.Next (task :: before) task next :=
        agrees.awaiterOf_eq_some_iff firstLawful single member
      have same : settled.awaiterOf view.states (waitersOf first view.states) view.running
            (task :: before) task =
          other.awaiterOf view.states (waitersOf second view.states) view.running
            (task :: before) task := by
        apply Option.ext
        intro next
        rw [goesOn, otherAgrees.awaiterOf_eq_some_iff secondLawful single member]
      rw [chainFrom, chainFrom, ← same]
      cases found : settled.awaiterOf view.states (waitersOf first view.states) view.running
          (task :: before) task with
      | none => rfl
      | some next =>
          exact congrArg (task :: ·) (induction _ ((goesOn next).mp found).mem_states)

theorem LoopView.Agrees.chainsOf_eq (single : view.SinglyAwaited) :
    settled.chainsOf first view = other.chainsOf second view := by
  rw [chainsOf, chainsOf, ← agrees.leaves_eq otherAgrees firstLawful secondLawful]
  apply List.map_congr_left
  intro leaf among
  have member := ((agrees.mem_leaves firstLawful).mp among).1
  rw [chainOf, chainOf,
    agrees.chainFrom_eq otherAgrees firstLawful secondLawful single _ _ member]

end

/--
Which task of a loop runs is certain: the one that was entered is among those that were read, or no
more than one of those has its coroutine on the stack.
-/
def LoopView.RunsCertainly (view : LoopView) (loop : LoopId) (physical : List WalkedFrame) : Prop :=
  (∃ entered ∈ view.states, view.graph.runningTask? loop = some entered) ∨
    ∀ left right, view.OnStack physical left → view.OnStack physical right → left = right

theorem currentTask_eq {settled : TaskGraph} (firstLawful : first.Lawful)
    (secondLawful : second.Lawful)
    (certain : (∃ entered ∈ view.states, settled.runningTask? loop = some entered) ∨
      ∀ left right, view.OnStack physical left → view.OnStack physical right → left = right) :
    settled.currentTask first loop view.states physical =
      settled.currentTask second loop view.states physical := by
  rw [currentTask, currentTask]
  rcases certain with ⟨entered, member, runs⟩ | alone
  · have known : view.states.contains entered = true := Std.ExtTreeMap.contains_iff_mem.mpr member
    rw [runs, Option.filter_some_pos known, Option.some_or, Option.some_or]
  · apply congrArg
    apply Option.ext
    intro task
    rw [LoopView.find?_isReadOnStack_iff firstLawful alone,
      LoopView.find?_isReadOnStack_iff secondLawful alone]

/-! ## Showing a loop in any order -/

/-- The leaves that are shown, or the thread's own stack alone. -/
theorem renderIn_tasks {order : VisitingOrder} (hosted : graph.loopOf? thread = some loop)
    {before : Observation σ} {after : σ}
    (asked : graph.answersOn order interpreter loop before.subject = (answers, after))
    (isView : graph.viewOf order loop answers physical = view) :
    ((graph.renderIn order interpreter thread physical).run before).1.1.map (·.task) =
      if (graph.settle answers).leaves order view.states = [] then [none]
      else ((graph.settle answers).leaves order view.states).map some := by
  rcases shown : ((graph.settle answers).stacksIn order interpreter view physical).run
    { before with subject := after } with ⟨stackList, last⟩
  have tasks : stackList.map (·.task) =
      ((graph.settle answers).leaves order view.states).map some := by
    rw [← stacksIn_tasks _ order interpreter view physical { before with subject := after }, shown]
  have empty : stackList.isEmpty = true ↔
      (graph.settle answers).leaves order view.states = [] := by
    rw [List.isEmpty_iff, ← List.map_eq_nil_iff, tasks, List.map_eq_nil_iff]
  rw [renderIn_run_of_hosted hosted asked isView shown]
  dsimp only
  by_cases nothing : (graph.settle answers).leaves order view.states = []
  · rw [if_pos nothing, if_pos (empty.mpr nothing)]
    rfl
  · rw [if_neg nothing, if_neg (mt empty.mp nothing), tasks]

section

variable (consistent : graph.Consistent) (firstLawful : first.Lawful)
  (secondLawful : second.Lawful) (distinct : (answers.map Prod.fst).Nodup)
  (perm : answers.Perm others)

include consistent firstLawful secondLawful distinct perm

/-- What is known of a loop is the same whatever the order, where it is certain which task runs. -/
theorem Consistent.viewOf_eq
    (certain : (graph.viewOf first loop answers physical).RunsCertainly loop physical) :
    graph.viewOf first loop answers physical = graph.viewOf second loop others physical := by
  have certainToo : (∃ entered ∈ (graph.viewOf first loop answers physical).states,
        (graph.settle answers).runningTask? loop = some entered) ∨
      ∀ left right, (graph.viewOf first loop answers physical).OnStack physical left →
        (graph.viewOf first loop answers physical).OnStack physical right → left = right := by
    refine certain.imp_left ?_
    rintro ⟨entered, member, runs⟩
    exact ⟨entered, member,
      (runningTask?_settle_of_mem_states consistent distinct member).mpr runs⟩
  have running := currentTask_eq firstLawful secondLawful certainToo
  have states : (graph.settle answers).statesOn loop answers =
      (graph.settle others).statesOn loop others :=
    consistent.statesOn_perm distinct perm
  rw [viewOf, viewOf, ← states, ← consistent.settle_perm distinct perm]
  exact congrArg (LoopView.mk graph _) running

end

/--
Nothing is left to the order when a thread is shown: no task of its loop is awaited by two others,
and it is certain which one runs.
-/
def LeavesNoChoice (graph : TaskGraph) (interpreter : Interpreter σ) (thread : ThreadId)
    (physical : List WalkedFrame) (subject : σ) : Prop :=
  ∀ loop, graph.loopOf? thread = some loop →
    ∀ view, graph.viewOf .ascending loop
        (graph.answersOn .ascending interpreter loop subject).1 physical = view →
      view.SinglyAwaited ∧ view.RunsCertainly loop physical

/-- A loop is shown in any order as it is in the order of identities. -/
theorem Consistent.renderIn_eq_ascending (consistent : graph.Consistent) {order : VisitingOrder}
    (lawful : order.Lawful) {observation : Observation σ}
    (steady : interpreter.IsSteady observation.subject) (thread : ThreadId)
    (physical : List WalkedFrame) :
    (((graph.renderIn order interpreter thread physical).run observation).1.1.map (·.task) =
        ((graph.renderIn .ascending interpreter thread physical).run observation).1.1.map
          (·.task)) ∧
      (graph.LeavesNoChoice interpreter thread physical observation.subject →
        (graph.renderIn order interpreter thread physical).run observation =
          (graph.renderIn .ascending interpreter thread physical).run observation) := by
  cases hosted : graph.loopOf? thread with
  | none =>
      have same : graph.renderIn order interpreter thread physical =
          graph.renderIn .ascending interpreter thread physical := by
        rw [renderIn, renderIn, hosted]
      rw [same]
      exact ⟨rfl, fun _ => rfl⟩
  | some loop =>
      rcases answersOn_perm graph ascending_lawful lawful steady loop with ⟨perm, unmoved⟩
      have distinct :=
        nodup_answersOn graph ascending_lawful interpreter loop observation.subject
      have asked := Prod.eta (graph.answersOn .ascending interpreter loop observation.subject)
      have askedToo := Prod.eta (graph.answersOn order interpreter loop observation.subject)
      rw [unmoved] at asked askedToo
      generalize (graph.answersOn .ascending interpreter loop observation.subject).1 = answers
        at perm distinct asked
      generalize (graph.answersOn order interpreter loop observation.subject).1 = others
        at perm askedToo
      have settled := consistent.settle_perm distinct perm
      have agrees : (graph.viewOf .ascending loop answers physical).Agrees (graph.settle answers) :=
        viewOf_agrees consistent distinct
      constructor
      · have states : (graph.viewOf order loop others physical).states =
            (graph.viewOf .ascending loop answers physical).states :=
          (consistent.statesOn_perm distinct perm).symm
        rw [renderIn_tasks hosted askedToo.symm rfl, renderIn_tasks hosted asked.symm rfl, states,
          ← settled, agrees.leaves_eq agrees lawful ascending_lawful]
      · intro noChoice
        rcases noChoice loop hosted _ (congrArg (graph.viewOf .ascending loop · physical)
          (congrArg Prod.fst asked).symm) with ⟨single, certain⟩
        have same := consistent.viewOf_eq ascending_lawful lawful distinct perm certain
        rcases shown : ((graph.settle answers).stacksIn .ascending interpreter
          (graph.viewOf .ascending loop answers physical) physical).run observation with
          ⟨stackList, after⟩
        have chains := agrees.chainsOf_eq agrees ascending_lawful lawful single
        have shownToo : ((graph.settle others).stacksIn order interpreter
            (graph.viewOf .ascending loop answers physical) physical).run observation =
              (stackList, after) := by
          rw [← settled, stacksIn, ← chains]
          exact shown
        rw [renderIn_run_of_hosted hosted asked.symm rfl shown,
          renderIn_run_of_hosted hosted askedToo.symm same.symm shownToo, ← settled, chains]

/--
Whatever the order in which tasks are gone through, a thread is shown with stacks of the same tasks
in the same order.  Where nothing is left to the order the stacks are the same altogether, and so is
what showing them makes of the graph and of the interpreter.
-/
theorem renderIn_order_independent (reachable : graph.Reachable) (firstLawful : first.Lawful)
    (secondLawful : second.Lawful) {observation : Observation σ}
    (steady : interpreter.IsSteady observation.subject) (thread : ThreadId)
    (physical : List WalkedFrame) :
    (((graph.renderIn first interpreter thread physical).run observation).1.1.map (·.task) =
        ((graph.renderIn second interpreter thread physical).run observation).1.1.map (·.task)) ∧
      (graph.LeavesNoChoice interpreter thread physical observation.subject →
        (graph.renderIn first interpreter thread physical).run observation =
          (graph.renderIn second interpreter thread physical).run observation) := by
  have consistent := reachable.consistent
  rcases consistent.renderIn_eq_ascending firstLawful steady thread physical with
    ⟨firstTasks, firstSame⟩
  rcases consistent.renderIn_eq_ascending secondLawful steady thread physical with
    ⟨secondTasks, secondSame⟩
  exact ⟨firstTasks.trans secondTasks.symm,
    fun noChoice => (firstSame noChoice).trans (secondSame noChoice).symm⟩

/-- Goes through tasks in the opposite order of their identities. -/
def VisitingOrder.descending : VisitingOrder :=
  ⟨List.reverse, List.reverse⟩

theorem descending_lawful : VisitingOrder.descending.Lawful :=
  ⟨List.reverse_perm, List.reverse_perm⟩

theorem tables_isSteady (tables : Tables) : Tables.interpreter.IsSteady tables :=
  fun _ => rfl

theorem gatheringGraph_leavesNoChoice :
    gatheringGraph.LeavesNoChoice Tables.interpreter 1 gatheringStack gatheringTables := by
  intro loop hosted view isView
  have seventh : gatheringGraph.loopOf? 1 = some 7 := by decide
  obtain rfl : 7 = loop := Option.some.inj (seventh.symm.trans hosted)
  obtain rfl : gatheringView = view := isView
  refine ⟨gatheringView_singlyAwaited, .inr ?_⟩
  intro left right leftOn rightOn
  rw [gatheringView_onStack leftOn, gatheringView_onStack rightOn]

theorem renderIn_order_independent_gathering :
    gatheringGraph.Reachable ∧ Tables.interpreter.IsSteady gatheringTables ∧
      gatheringGraph.LeavesNoChoice Tables.interpreter 1 gatheringStack gatheringTables ∧
      (gatheringGraph.renderIn .descending Tables.interpreter 1 gatheringStack).run
          ⟨Walker.new ⟨3, 11⟩ 64, gatheringTables⟩ =
        (gatheringGraph.renderIn .ascending Tables.interpreter 1 gatheringStack).run
          ⟨Walker.new ⟨3, 11⟩ 64, gatheringTables⟩ := by
  have steady := tables_isSteady gatheringTables
  exact ⟨gatheringGraph_reachable, steady, gatheringGraph_leavesNoChoice,
    (renderIn_order_independent gatheringGraph_reachable descending_lawful ascending_lawful steady 1
      gatheringStack).2 gatheringGraph_leavesNoChoice⟩

/-- Two tasks await a third one. -/
def sharedGraph : TaskGraph :=
  ((({} : TaskGraph).registerLoop 1 7).create ⟨1, 7, "shared"⟩).create ⟨2, 7, "left"⟩
    |>.create ⟨3, 7, "right"⟩

theorem sharedGraph_reachable : sharedGraph.Reachable :=
  Relation.ReflTransGen.refl
    |>.tail (.registerLoop 1 7)
    |>.tail (.create ⟨1, 7, "shared"⟩)
    |>.tail (.create ⟨2, 7, "left"⟩)
    |>.tail (.create ⟨3, 7, "right"⟩)

/-- An interpreter in which two tasks await a third one. -/
def sharedTables : Tables :=
  ((({} : Tables).putTask 1 {}).putTask 2 { awaiting := some 1 }).putTask 3 { awaiting := some 1 }

/-- One task waits for another, and the coroutines of both are on one stack. -/
def nestedGraph : TaskGraph :=
  ((({} : TaskGraph).registerLoop 1 7).create ⟨2, 7, "inner"⟩).create ⟨3, 7, "outer"⟩ |>.link 3 2

theorem nestedGraph_reachable : nestedGraph.Reachable :=
  Relation.ReflTransGen.refl
    |>.tail (.registerLoop 1 7)
    |>.tail (.create ⟨2, 7, "inner"⟩)
    |>.tail (.create ⟨3, 7, "outer"⟩)
    |>.tail (.link 3 2)

/-- An interpreter with the tasks of the nested graph. -/
def nestedTables : Tables :=
  (({} : Tables).putTask 2 { coroutine := [0x120] }).putTask 3 { coroutine := [0x130] }

/--
Which of two tasks stands behind one that both await depends on the order, and so does which of two
tasks is shown as running when the coroutines of both are on the stack.
-/
theorem not_renderIn_order_independent :
    ¬ (∀ (graph : TaskGraph) (first second : VisitingOrder) (tables : Tables) (thread : ThreadId)
        (physical : List WalkedFrame),
      graph.Reachable → first.Lawful → second.Lawful →
        ((graph.renderIn first Tables.interpreter thread physical).run
            ⟨Walker.new ⟨3, 11⟩ 64, tables⟩).1.1 =
          ((graph.renderIn second Tables.interpreter thread physical).run
            ⟨Walker.new ⟨3, 11⟩ 64, tables⟩).1.1) ∧
    ((sharedGraph.renderIn .ascending Tables.interpreter 1 []).run
        ⟨Walker.new ⟨3, 11⟩ 64, sharedTables⟩).1.1 ≠
      ((sharedGraph.renderIn .descending Tables.interpreter 1 []).run
        ⟨Walker.new ⟨3, 11⟩ 64, sharedTables⟩).1.1 ∧
    nestedGraph.Reachable ∧
    ((nestedGraph.renderIn .ascending Tables.interpreter 1 gatheringStack).run
        ⟨Walker.new ⟨3, 11⟩ 64, nestedTables⟩).1.1 ≠
      ((nestedGraph.renderIn .descending Tables.interpreter 1 gatheringStack).run
        ⟨Walker.new ⟨3, 11⟩ 64, nestedTables⟩).1.1 := by
  have shared : ((sharedGraph.renderIn .ascending Tables.interpreter 1 []).run
        ⟨Walker.new ⟨3, 11⟩ 64, sharedTables⟩).1.1 ≠
      ((sharedGraph.renderIn .descending Tables.interpreter 1 []).run
        ⟨Walker.new ⟨3, 11⟩ 64, sharedTables⟩).1.1 := by
    decide +kernel
  refine ⟨?_, shared, nestedGraph_reachable, by decide +kernel⟩
  intro always
  exact shared (always sharedGraph _ _ sharedTables 1 [] sharedGraph_reachable ascending_lawful
    descending_lawful)

end TaskGraph

end StackSampler
