import StackSampler.Proofs.Task.Orders
import StackSampler.Proofs.Walk.Recall

/-!
# Showing a loop again

To show a loop is to ask about its tasks, and the graph keeps what is learned: tasks complete, names
and loops become known, failed reads are counted.  None of this may be seen when the loop is shown
once more.  `TaskNode.once` is what is known of a task that was read, and is the same before and
after; so both times the loop has the same tasks, the same one runs, and they wait on each other in
the same way.  Their frames are the same because an interpreter that stands still gives a frame in
one way, whatever the walker has in mind; `Observing.Repeats` says so of all that is done in between.

The main statement is `renderIn_repeats`.
-/

namespace StackSampler

/-- No question that showing a loop may ask moves an interpreter. -/
structure Interpreter.IsStill {σ : Type} (interpreter : Interpreter σ) (subject : σ) : Prop where
  steady : interpreter.IsSteady subject
  frame : ∀ place, ((interpreter.frame place).run.run subject).2 = subject
  code : ∀ place, ((interpreter.code place).run.run subject).2 = subject

/-- The code units that can be read from an interpreter. -/
def Interpreter.codesOf {σ : Type} (interpreter : Interpreter σ) (subject : σ) (place : Address) :
    Except ReadFault CodeUnit :=
  ((interpreter.code place).run.run subject).1

/-! ## Steps that can be taken again -/

/-- An interpreter is where it was, and its walker remembers only what could be read there. -/
structure Observation.Rests {σ : Type} (interpreter : Interpreter σ) (subject : σ)
    (format : LineFormat) (limit : Nat) (now : Observation σ) : Prop where
  subject_eq : now.subject = subject
  recalls : now.walker.Recalls format limit (interpreter.codesOf subject)

namespace Observing

variable {σ α β : Type} {inside : Observation σ → Prop} {step : Observing σ α}
  {next : α → Observing σ β}

/-- A step gives one result wherever it is taken inside, and does not lead outside. -/
def Repeats (inside : Observation σ → Prop) (step : Observing σ α) : Prop :=
  ∃ result, ∀ now, inside now → (step.run now).1 = result ∧ inside (step.run now).2

theorem repeats_pure (value : α) : Repeats inside (pure value) :=
  ⟨value, fun _ isInside => ⟨rfl, isInside⟩⟩

theorem Repeats.bind (repeats : Repeats inside step)
    (goesOn : ∀ value, Repeats inside (next value)) : Repeats inside (step >>= next) := by
  rcases repeats with ⟨value, once⟩
  rcases goesOn value with ⟨result, again⟩
  refine ⟨result, fun now isInside => ?_⟩
  rcases once now isInside with ⟨same, remains⟩
  change ((next (step.run now).1).run (step.run now).2).1 = result ∧
    inside ((next (step.run now).1).run (step.run now).2).2
  rw [same]
  exact again _ remains

end Observing

section

open Observing TaskGraph

variable {σ : Type} {interpreter : Interpreter σ} {subject : σ} {format : LineFormat} {limit : Nat}
  (still : interpreter.IsStill subject)

include still

/-- A frame is found as the interpreter has it, whether its code unit was remembered or not. -/
theorem repeats_resolveFrame (place : Address) :
    Repeats (Observation.Rests interpreter subject format limit)
      (Walking.resolveFrame interpreter place).run := by
  refine ⟨((interpreter.frame place).run.run subject).1.bind fun raw =>
    (Walking.frameAt (interpreter.codesOf subject) format raw.code raw.offset).map fun frame =>
      ⟨place, frame, raw.isEntry⟩, fun now rests => ?_⟩
  rcases rests with ⟨rfl, recalls⟩
  have unmoved := still.frame place
  change (Walking.resolveFrame interpreter place now).1 = _ ∧
    Observation.Rests interpreter now.subject format limit
      (Walking.resolveFrame interpreter place now).2
  rw [Walking.resolveFrame, Walking.bind_apply, Walking.ask_apply, unmoved]
  cases held : ((interpreter.frame place).run.run now.subject).1 with
  | error fault => exact ⟨rfl, rfl, recalls⟩
  | ok raw =>
      have settled : IsSettled (· = now.subject) (interpreter.code raw.code)
          (interpreter.codesOf now.subject raw.code) := by
        rintro same rfl
        exact ⟨rfl, still.code raw.code⟩
      have isInside : now.subject = now.subject := rfl
      rcases Walking.resolve_apply settled isInside recalls raw.offset with
        ⟨after, resolved, same, remembers⟩
      dsimp only
      rw [Walking.bind_apply, resolved]
      change _ = (Walking.frameAt _ format raw.code raw.offset).map _ ∧ _
      cases Walking.frameAt (interpreter.codesOf now.subject) format raw.code raw.offset with
      | error fault => exact ⟨rfl, same, remembers⟩
      | ok frame => exact ⟨rfl, same, remembers⟩

theorem repeats_suspendedFrames (places : List Address) :
    Repeats (Observation.Rests interpreter subject format limit)
      (suspendedFrames interpreter places) := by
  induction places with
  | nil => exact repeats_pure []
  | cons place rest induction =>
      refine (repeats_resolveFrame still place).bind fun resolved => induction.bind fun others => ?_
      cases resolved with
      | ok walked => exact repeats_pure _
      | error fault => exact repeats_pure _

variable (graph : TaskGraph) (states : TaskStates) (running : Option TaskId)
  (runningFrames loopFrames : List WalkedFrame)

omit graph in
theorem repeats_taskFrames (task : TaskId) :
    Repeats (Observation.Rests interpreter subject format limit)
      (taskFrames interpreter states running runningFrames task) := by
  rw [taskFrames]
  split
  · exact repeats_pure _
  · split
    · exact repeats_suspendedFrames still _
    · exact repeats_pure _

theorem repeats_chainFrames (tasks : List TaskId) :
    Repeats (Observation.Rests interpreter subject format limit)
      (graph.chainFrames interpreter states running runningFrames tasks) := by
  induction tasks with
  | nil => exact repeats_pure []
  | cons task rest induction =>
      exact (repeats_taskFrames still states running runningFrames task).bind fun frames =>
        induction.bind fun others => repeats_pure _

theorem repeats_chainStacks (chains : List (TaskId × List TaskId)) :
    Repeats (Observation.Rests interpreter subject format limit)
      (graph.chainStacks interpreter states running runningFrames loopFrames chains) := by
  induction chains with
  | nil => exact repeats_pure []
  | cons chain rest induction =>
      exact (repeats_chainFrames still graph states running runningFrames chain.2).bind
        fun frames => induction.bind fun others => repeats_pure _

omit states running runningFrames loopFrames in
/-- The stacks of a loop are found as the interpreter has them. -/
theorem repeats_stacksIn (order : VisitingOrder) (view : LoopView) (physical : List WalkedFrame) :
    Repeats (Observation.Rests interpreter subject format limit)
      (graph.stacksIn order interpreter view physical) :=
  repeats_chainStacks still graph _ _ _ _ _

end

/-! ## What was learned -/

/-- What is known of a task once it was read. -/
structure Learned where
  loop : Option LoopId
  name : Option String
  completed : Bool

/-- What a node and the state of its task tell together. -/
def TaskNode.learned (state : TaskState) (node : TaskNode) : Learned :=
  ⟨node.loop.or state.loop, node.name.or (state.name.bind nonempty?), node.completed⟩

namespace TaskGraph

variable {σ : Type} {graph left : TaskGraph} {task : TaskId} {loop : LoopId} {thread : ThreadId}
  {answers others : List (TaskId × Except ReadFault TaskState)} {physical : List WalkedFrame}
  {interpreter : Interpreter σ} {subject : σ} {order first second : VisitingOrder}
  {state : TaskState} {shown : List TaskId}

/-- What was learned from a state is not learned from it once more. -/
theorem learned_learn (state : TaskState) (node : TaskNode) :
    (learn state node).learned state = node.learned state := by
  simp only [TaskNode.learned, learn, Option.or_assoc, Option.or_self]

/-- Settling answers adds nothing to what a node and the state of its task tell together. -/
theorem Consistent.learned_settle (consistent : graph.Consistent)
    (distinct : (answers.map Prod.fst).Nodup)
    (asked : ∀ answer, (task, answer) ∈ answers → answer = .ok state)
    (pending : state.done = false) :
    (graph.settle answers).nodes[task]?.map (TaskNode.learned state) =
      graph.nodes[task]?.map (TaskNode.learned state) := by
  have goesOn : task ∉ graph.endedBy answers := by
    rw [mem_endedBy_iff distinct]
    rintro (⟨other, read, ended⟩ | ⟨⟨fault, unread⟩, _⟩)
    · rw [Except.ok.inj (asked _ read), pending] at ended
      contradiction
    · exact nomatch asked _ unread
  rw [consistent.getElem?_settle_of_lookup distinct, TaskNode.outliving_of_not_mem goesOn,
    Option.map_map]
  cases looked : answers.lookup task with
  | none => rfl
  | some answer =>
      rw [asked answer ((lookup_eq_some_iff distinct).mp looked)]
      apply congrArg fun change => graph.nodes[task]?.map change
      funext node
      rw [Function.comp_apply, TaskNode.told, pending]
      exact learned_learn state node

theorem learned_markShown (graph : TaskGraph) (shown : List TaskId) (state : TaskState)
    (task : TaskId) :
    (graph.markShown shown).nodes[task]?.map (TaskNode.learned state) =
      graph.nodes[task]?.map (TaskNode.learned state) := by
  apply map_getElem?_foldl_modify (TaskNode.learned state) shown id
  intro other node
  rfl

/-! ## The view of a loop -/

/-- The answers about the tasks of a loop, by an interpreter that they leave where it is. -/
structure Asked (graph : TaskGraph) (order : VisitingOrder) (interpreter : Interpreter σ)
    (subject : σ) (loop : LoopId) (answers : List (TaskId × Except ReadFault TaskState)) :
    Prop where
  consistent : graph.Consistent
  lawful : order.Lawful
  steady : interpreter.IsSteady subject
  answers_eq : (graph.answersOn order interpreter loop subject).1 = answers

namespace Asked

variable (asked : graph.Asked order interpreter subject loop answers)

include asked

theorem distinct : (answers.map Prod.fst).Nodup :=
  asked.answers_eq ▸ nodup_answersOn graph asked.lawful interpreter loop subject

theorem mem_iff {answer : Except ReadFault TaskState} :
    (task, answer) ∈ answers ↔
      task ∈ graph.candidates order loop ∧
        ((interpreter.task task).run.run subject).1 = answer := by
  rw [← asked.answers_eq, answersOn, readTasks_of_steady asked.steady, List.mem_map]
  constructor
  · rintro ⟨other, member, same⟩
    rcases Prod.mk.inj same with ⟨rfl, rfl⟩
    exact ⟨member, rfl⟩
  · rintro ⟨member, rfl⟩
    exact ⟨task, member, rfl⟩

theorem agrees (physical : List WalkedFrame) :
    (graph.viewOf order loop answers physical).Agrees (graph.settle answers) :=
  viewOf_agrees asked.consistent asked.distinct

/-- The states of a loop's tasks, by what is known of these once they were read. -/
theorem getElem?_statesOn (task : TaskId) (state : TaskState) :
    ((graph.settle answers).statesOn loop answers)[task]? = some state ↔
      ((interpreter.task task).run.run subject).1 = .ok state ∧ state.done = false ∧
        ∃ learned, graph.nodes[task]?.map (TaskNode.learned state) = some learned ∧
          learned.completed = false ∧ learned.loop = some loop := by
  rw [asked.consistent.getElem?_statesOn asked.distinct, asked.mem_iff,
    mem_candidates asked.lawful]
  simp only [live?, Option.filter_eq_some_iff, Bool.not_eq_true', Option.map_eq_some_iff]
  constructor
  · rintro ⟨node, found, ⟨⟨same, ⟨sameFound, goesOn⟩, _⟩, read⟩, pending, on⟩
    obtain rfl : node = same := Option.some.inj (found.symm.trans sameFound)
    exact ⟨read, pending, node.learned state, ⟨node, found, rfl⟩, goesOn, on⟩
  · rintro ⟨read, pending, _, ⟨node, found, rfl⟩, goesOn, on⟩
    refine ⟨node, found, ⟨⟨node, ⟨found, goesOn⟩, fun own isOwn => ?_⟩, read⟩, pending, on⟩
    rw [TaskNode.learned, isOwn, Option.some_or, Option.some.injEq] at on
    exact on

/-- What is left of a task that can be read tells no more of it than it did. -/
theorem learned_left (read : ((interpreter.task task).run.run subject).1 = .ok state)
    (pending : state.done = false) (shown : List TaskId) :
    ((graph.settle answers).markShown shown).nodes[task]?.map (TaskNode.learned state) =
      graph.nodes[task]?.map (TaskNode.learned state) := by
  rw [learned_markShown]
  apply asked.consistent.learned_settle asked.distinct _ pending
  intro answer member
  rw [← (asked.mem_iff.mp member).2, read]

end Asked

/-- The boundary of a task, by what is known of the task once it was read. -/
theorem LoopView.isBoundary_iff_learned {view : LoopView} {boundary : Frame} :
    view.IsBoundary task boundary ↔
      ∃ state learned, view.states[task]? = some state ∧
        view.graph.nodes[task]?.map (TaskNode.learned state) = some learned ∧
        boundary = .taskBoundary (learned.name.getD ("Task-" ++ Text.hexadecimal task.toNat)) := by
  constructor
  · rintro ⟨node, state, found, read, rfl⟩
    exact ⟨state, node.learned state, read, by rw [found, Option.map_some], rfl⟩
  · rintro ⟨state, learned, read, known, rfl⟩
    rcases Option.map_eq_some_iff.mp known with ⟨node, found, rfl⟩
    exact ⟨node, state, found, read, rfl⟩

/-- Which task runs depends only on whether a task of the loop was last said to. -/
theorem currentTask_eq_of_running {settled other : TaskGraph} {states : TaskStates}
    (same : ∀ task, task ∈ states →
      (settled.runningTask? loop = some task ↔ other.runningTask? loop = some task)) :
    settled.currentTask order loop states physical =
      other.currentTask order loop states physical := by
  have reported : (settled.runningTask? loop).filter states.contains =
      (other.runningTask? loop).filter states.contains := by
    apply Option.ext
    intro task
    rw [Option.filter_eq_some_iff, Option.filter_eq_some_iff, Std.ExtTreeMap.contains_iff_mem]
    exact and_congr_left (same task)
  rw [currentTask, currentTask, reported]

theorem LoopView.Agrees.of_sameTies {view : LoopView} {settled changed : TaskGraph}
    (agrees : view.Agrees settled) (same : settled.SameTies changed) : view.Agrees changed where
  consistent := same.consistent agrees.consistent
  known task member := (same.mem_nodes_iff task).mpr (agrees.known task member)
  linked parent child place member :=
    (same.linked_iff parent child place).trans (agrees.linked parent child place member)
  lists parent child member childMember :=
    (same.lists_iff parent child).trans (agrees.lists parent child member childMember)
  created task place member :=
    (same.createdAs_iff task place).trans (agrees.created task place member)

/-- A graph may take the place of one that tells the same as the graph of a view. -/
theorem LoopView.Agrees.trans {view : LoopView} {middle last : TaskGraph}
    (agrees : view.Agrees middle) (goesOn : Agrees { view with graph := middle } last) :
    view.Agrees last where
  consistent := goesOn.consistent
  known := goesOn.known
  linked parent child place member :=
    (goesOn.linked parent child place member).trans (agrees.linked parent child place member)
  lists parent child member childMember :=
    (goesOn.lists parent child member childMember).trans
      (agrees.lists parent child member childMember)
  created task place member :=
    (goesOn.created task place member).trans (agrees.created task place member)

/-! ## The graph that was left -/

namespace Asked

variable (asked : graph.Asked order interpreter subject loop answers)
  (isLeft : (graph.settle answers).markShown shown = left)

include asked isLeft

theorem again : left.Asked order interpreter subject loop
    (left.answersOn order interpreter loop subject).1 where
  consistent := isLeft ▸ (asked.consistent.settle answers).markShown shown
  lawful := asked.lawful
  steady := asked.steady
  answers_eq := rfl

variable (askedAgain : left.Asked order interpreter subject loop others)

include askedAgain

/-- The loop has the same tasks in the same states. -/
theorem statesOn_left :
    (left.settle others).statesOn loop others = (graph.settle answers).statesOn loop answers := by
  apply Std.ExtTreeMap.ext_getElem?
  intro task
  apply Option.ext
  intro state
  rw [askedAgain.getElem?_statesOn, asked.getElem?_statesOn]
  refine and_congr_right fun read => and_congr_right fun pending => ?_
  rw [← isLeft, asked.learned_left read pending shown]

/-- The same task runs, so that the view of the loop is the same but for the graph. -/
theorem viewOf_left :
    left.viewOf order loop others physical =
      { graph.viewOf order loop answers physical with graph := left } := by
  have running : (left.settle others).currentTask order loop
        ((left.settle others).statesOn loop others) physical =
      (graph.settle answers).currentTask order loop
        ((left.settle others).statesOn loop others) physical := by
    apply currentTask_eq_of_running
    intro task member
    have onLoop : task ∈ (left.viewOf order loop others physical).states := member
    rw [runningTask?_settle_of_mem_states askedAgain.consistent askedAgain.distinct onLoop,
      ← isLeft]
    rfl
  rw [viewOf, viewOf, running, asked.statesOn_left isLeft askedAgain]

/-- A task of the loop is called the same. -/
theorem boundaryOf_left (member : task ∈ (graph.viewOf order loop answers physical).states) :
    (left.settle others).boundaryOf task = (graph.settle answers).boundaryOf task := by
  have same : left.viewOf order loop others physical = _ := asked.viewOf_left isLeft askedAgain
  have memberAgain : task ∈ (left.viewOf order loop others physical).states := same ▸ member
  rcases viewOf_names asked.consistent asked.distinct task member with
    ⟨boundary, named, isBoundary⟩
  rcases viewOf_names askedAgain.consistent askedAgain.distinct task memberAgain with
    ⟨other, namedAgain, isBoundaryAgain⟩
  rw [LoopView.isBoundary_iff_learned] at isBoundary isBoundaryAgain
  rcases isBoundary with ⟨state, learned, read, known, rfl⟩
  rcases isBoundaryAgain with ⟨stateAgain, learnedAgain, readAgain, knownAgain, rfl⟩
  rw [same] at readAgain knownAgain
  obtain rfl : state = stateAgain := Option.some.inj (read.symm.trans readAgain)
  rcases (asked.getElem?_statesOn task state).mp read with ⟨answered, pending, _⟩
  have kept := asked.learned_left answered pending shown
  rw [isLeft] at kept
  obtain rfl : learned = learnedAgain :=
    Option.some.inj (known.symm.trans (kept.symm.trans knownAgain))
  rw [named, namedAgain]

/-- The tasks of the loop wait on each other in the same way. -/
theorem agrees_left (physical : List WalkedFrame) :
    (graph.viewOf order loop answers physical).Agrees (left.settle others) := by
  have agreesAgain := askedAgain.agrees physical
  rw [asked.viewOf_left isLeft askedAgain] at agreesAgain
  have ties := markShown_sameTies (graph.settle answers) shown
  rw [isLeft] at ties
  exact ((asked.agrees physical).of_sameTies ties).trans agreesAgain

end Asked

/-! ## The stacks -/

section

variable {settled changed : TaskGraph} {states : TaskStates} {running : Option TaskId}
  {runningFrames loopFrames : List WalkedFrame}

theorem chainFrames_eq_of_boundaries {tasks : List TaskId}
    (same : ∀ task ∈ tasks, changed.boundaryOf task = settled.boundaryOf task) :
    changed.chainFrames interpreter states running runningFrames tasks =
      settled.chainFrames interpreter states running runningFrames tasks := by
  induction tasks with
  | nil => rfl
  | cons task rest induction =>
      rw [List.forall_mem_cons] at same
      rw [chainFrames, chainFrames, induction same.2, same.1]

/-- Stacks depend on a graph by the chains and by what the tasks in these are called. -/
theorem chainStacks_eq_of_boundaries {chains : List (TaskId × List TaskId)}
    (same : ∀ chain ∈ chains, ∀ task ∈ chain.2,
      changed.boundaryOf task = settled.boundaryOf task) :
    changed.chainStacks interpreter states running runningFrames loopFrames chains =
      settled.chainStacks interpreter states running runningFrames loopFrames chains := by
  induction chains with
  | nil => rfl
  | cons chain rest induction =>
      rcases chain with ⟨leaf, tasks⟩
      rw [List.forall_mem_cons] at same
      simp only [chainStacks]
      rw [induction same.2, chainFrames_eq_of_boundaries same.1]

end

/-- The stacks of a loop are made in the same way again. -/
theorem Asked.stacksIn_left (asked : graph.Asked order interpreter subject loop answers)
    (isLeft : (graph.settle answers).markShown shown = left)
    (askedAgain : left.Asked order interpreter subject loop others)
    (single : (graph.viewOf order loop answers physical).SinglyAwaited) :
    (left.settle others).stacksIn order interpreter (left.viewOf order loop others physical)
        physical =
      (graph.settle answers).stacksIn order interpreter (graph.viewOf order loop answers physical)
        physical := by
  have agrees := asked.agrees physical
  have agreesAgain := asked.agrees_left isLeft askedAgain physical
  have chains := agreesAgain.chainsOf_eq agrees asked.lawful asked.lawful single
  rw [asked.viewOf_left isLeft askedAgain, stacksIn, stacksIn]
  change (left.settle others).chainStacks interpreter _ _ _ _
    ((left.settle others).chainsOf order (graph.viewOf order loop answers physical)) = _
  rw [chains]
  apply chainStacks_eq_of_boundaries
  intro chain among task member
  rcases List.mem_map.mp among with ⟨leaf, leafAmong, rfl⟩
  have leafMember := ((agrees.mem_leaves asked.lawful).mp leafAmong).1
  have inStates := (agrees.chain_chainOf asked.lawful single leafMember).mem_states leafMember
  exact asked.boundaryOf_left isLeft askedAgain (inStates task member)

/-! ## Edges -/

/-- Both ends of an edge tell the same of it as before, unless its child has completed since. -/
def KeepsEdges (graph changed : TaskGraph) : Prop :=
  ∀ parent child, (changed.Completed child → graph.Completed child) →
    (changed.Lists parent child ↔ graph.Lists parent child) ∧
      ∀ place, changed.Linked parent child place ↔ graph.Linked parent child place

theorem keepsEdges_refl (graph : TaskGraph) : graph.KeepsEdges graph :=
  fun _ _ _ => ⟨Iff.rfl, fun _ => Iff.rfl⟩

theorem KeepsEdges.of_sameTies {settled changed : TaskGraph} (keeps : graph.KeepsEdges settled)
    (same : settled.SameTies changed) : graph.KeepsEdges changed := by
  intro parent child spared
  rw [same.completed_iff] at spared
  rcases keeps parent child spared with ⟨lists, linked⟩
  exact ⟨(same.lists_iff parent child).trans lists,
    fun place => (same.linked_iff parent child place).trans (linked place)⟩

/-- Settling answers changes no edge whose child it does not complete. -/
theorem Consistent.keepsEdges_settle (consistent : graph.Consistent)
    (answers : List (TaskId × Except ReadFault TaskState)) :
    graph.KeepsEdges (graph.settle answers) := by
  intro parent child spared
  have settled := consistent.settle answers
  have linked : ∀ place,
      (graph.settle answers).Linked parent child place ↔ graph.Linked parent child place := by
    intro place
    by_cases ended : child ∈ graph.endedBy answers
    · -- Its answers complete the child, so that it has completed before, and has no parents.
      by_cases known : child ∈ graph.nodes
      · have now : (graph.settle answers).Completed child :=
          consistent.completed_settle.mpr (.inr ⟨ended, known⟩)
        exact iff_of_false (settled.finished parent child place now)
          (consistent.finished parent child place (spared now))
      · refine iff_of_false (fun later => known ?_) fun before => known before.child_mem
        exact consistent.mem_nodes_settle.mp later.child_mem
    · exact consistent.linked_settle ended parent place
  refine ⟨?_, linked⟩
  rw [settled.ends, consistent.ends]
  exact exists_congr linked

/-- Showing a thread changes no edge whose child it does not complete. -/
theorem Consistent.keepsEdges_renderIn (consistent : graph.Consistent) (order : VisitingOrder)
    (interpreter : Interpreter σ) (thread : ThreadId) (physical : List WalkedFrame)
    (observation : Observation σ) :
    graph.KeepsEdges
      ((graph.renderIn order interpreter thread physical).run observation).1.2 := by
  rcases renderIn_graph graph order interpreter thread physical observation with
    same | ⟨answers, shown, same⟩
  · rw [same]
    exact keepsEdges_refl graph
  · rw [same]
    exact (consistent.keepsEdges_settle answers).of_sameTies
      (markShown_sameTies (graph.settle answers) shown)

/-! ## Showing a loop again -/

theorem loopOf?_left (graph : TaskGraph)
    (answers : List (TaskId × Except ReadFault TaskState)) (shown : List TaskId)
    (thread : ThreadId) :
    ((graph.settle answers).markShown shown).loopOf? thread = graph.loopOf? thread := by
  have settled := settle_eq graph answers
  have same := congrArg loops settled
  exact congrArg (·[thread]?) same

/-- Where nothing was left to the order, nothing is when the loop is shown again. -/
theorem Asked.leavesNoChoice_left
    (asked : graph.Asked .ascending interpreter subject loop answers)
    (isLeft : (graph.settle answers).markShown shown = left)
    (hosted : graph.loopOf? thread = some loop)
    (noChoice : graph.LeavesNoChoice interpreter thread physical subject) :
    left.LeavesNoChoice interpreter thread physical subject := by
  intro same hostedAgain view isView
  obtain rfl : loop = same := by
    rw [← isLeft, loopOf?_left, hosted, Option.some.injEq] at hostedAgain
    exact hostedAgain
  rcases noChoice loop hosted _
    (congrArg (graph.viewOf .ascending loop · physical) asked.answers_eq) with ⟨single, certain⟩
  rw [asked.viewOf_left isLeft (asked.again isLeft)] at isView
  subst isView
  refine ⟨single, certain.imp_left ?_⟩
  rintro ⟨entered, member, runs⟩
  refine ⟨entered, member, ?_⟩
  rw [← isLeft]
  exact (runningTask?_settle_of_mem_states asked.consistent asked.distinct member).mpr runs

theorem renderIn_run_of_unhosted (unhosted : graph.loopOf? thread = none) (order : VisitingOrder)
    (interpreter : Interpreter σ) (physical : List WalkedFrame) (observation : Observation σ) :
    (graph.renderIn order interpreter thread physical).run observation =
      (([.physical physical], graph), observation) := by
  rw [renderIn, unhosted]
  rfl

/-- What is shown of a loop, and what is left of the graph, once its tasks were asked. -/
theorem Asked.renderIn_run (asked : graph.Asked order interpreter subject loop answers)
    (hosted : graph.loopOf? thread = some loop) {before after : Observation σ}
    (stands : before.subject = subject) {stackList : List Stack}
    (made : ((graph.settle answers).stacksIn order interpreter
      (graph.viewOf order loop answers physical) physical).run before = (stackList, after)) :
    (graph.renderIn order interpreter thread physical).run before =
      ((if stackList.isEmpty then [.physical physical] else stackList,
        (graph.settle answers).markShown
          (((graph.settle answers).chainsOf order
            (graph.viewOf order loop answers physical)).flatMap (·.2))), after) := by
  subst stands
  apply renderIn_run_of_hosted hosted _ rfl made
  rw [← asked.answers_eq, answersOn, readTasks_of_steady asked.steady]

/-- Two times in a row, a thread whose loop leaves no choice is shown with the same stacks. -/
theorem Consistent.renderIn_again (consistent : graph.Consistent) {observation after : Observation σ}
    {format : LineFormat} {limit : Nat} (still : interpreter.IsStill observation.subject)
    (recalls : observation.walker.Recalls format limit
      (interpreter.codesOf observation.subject))
    (noChoice : graph.LeavesNoChoice interpreter thread physical observation.subject)
    {rendered : List Stack}
    (isFirst : (graph.renderIn .ascending interpreter thread physical).run observation =
      ((rendered, left), after)) :
    after.subject = observation.subject ∧
      left.LeavesNoChoice interpreter thread physical observation.subject ∧
      ((left.renderIn .ascending interpreter thread physical).run after).1.1 = rendered := by
  cases hosted : graph.loopOf? thread with
  | none =>
      have alone := renderIn_run_of_unhosted hosted .ascending interpreter physical
      rw [alone, Prod.mk.injEq, Prod.mk.injEq] at isFirst
      rcases isFirst with ⟨⟨rfl, rfl⟩, rfl⟩
      exact ⟨rfl, noChoice, by rw [alone]⟩
  | some loop =>
      generalize isAnswers :
        (graph.answersOn .ascending interpreter loop observation.subject).1 = answers
      have asked : graph.Asked .ascending interpreter observation.subject loop answers :=
        ⟨consistent, ascending_lawful, still.steady, isAnswers⟩
      rcases noChoice loop hosted _
        (congrArg (graph.viewOf .ascending loop · physical) isAnswers) with ⟨single, _⟩
      rcases made : ((graph.settle answers).stacksIn .ascending interpreter
        (graph.viewOf .ascending loop answers physical) physical).run observation with
        ⟨stackList, last⟩
      rw [asked.renderIn_run hosted rfl made, Prod.mk.injEq, Prod.mk.injEq] at isFirst
      rcases isFirst with ⟨⟨isRendered, isLeft⟩, rfl⟩
      -- The stacks are made in the same way again, and that has one result.
      rcases repeats_stacksIn still (graph.settle answers) .ascending
        (graph.viewOf .ascending loop answers physical) physical with ⟨result, repeats⟩
      have once := repeats observation ⟨rfl, recalls⟩
      rw [made] at once
      rcases once with ⟨isResult, rests⟩
      rcases madeAgain : ((graph.settle answers).stacksIn .ascending interpreter
        (graph.viewOf .ascending loop answers physical) physical).run last with ⟨again, final⟩
      have twice := repeats last rests
      rw [madeAgain] at twice
      have same : again = stackList := twice.1.trans isResult.symm
      have hostedAgain : left.loopOf? thread = some loop := by
        rw [← isLeft, loopOf?_left, hosted]
      have askedAgain := asked.again isLeft
      rw [← asked.stacksIn_left isLeft askedAgain single] at madeAgain
      refine ⟨rests.subject_eq, asked.leavesNoChoice_left isLeft hosted noChoice, ?_⟩
      rw [askedAgain.renderIn_run hostedAgain rests.subject_eq madeAgain, ← isRendered, same]

/--
A thread is shown with the same stacks two times in a row, in whatever order tasks are gone through,
if the interpreter stands still, the walker remembers nothing else of it, and nothing is left to the
order.  Showing it may complete tasks and tell more of others; but an edge is as it was unless its
child was completed on the way.
-/
theorem renderIn_repeats (reachable : graph.Reachable) (firstLawful : first.Lawful)
    (secondLawful : second.Lawful) {observation after final : Observation σ} {format : LineFormat}
    {limit : Nat} (still : interpreter.IsStill observation.subject)
    (recalls : observation.walker.Recalls format limit
      (interpreter.codesOf observation.subject))
    (noChoice : graph.LeavesNoChoice interpreter thread physical observation.subject)
    {rendered again : List Stack} {last : TaskGraph}
    (isFirst : (graph.renderIn first interpreter thread physical).run observation =
      ((rendered, left), after))
    (isSecond : (left.renderIn second interpreter thread physical).run after =
      ((again, last), final)) :
    again = rendered ∧ graph.KeepsEdges left ∧ left.KeepsEdges last := by
  have consistent := reachable.consistent
  have keeps := consistent.keepsEdges_renderIn first interpreter thread physical observation
  have step : Step graph ((graph.renderIn first interpreter thread physical).run observation).1.2 :=
    .render firstLawful interpreter thread physical observation
  rw [isFirst] at step
  have leftReachable : left.Reachable := reachable.tail step
  have keepsAgain := leftReachable.consistent.keepsEdges_renderIn second interpreter thread physical
    after
  rw [isFirst] at keeps
  rw [isSecond] at keepsAgain
  refine ⟨?_, keeps, keepsAgain⟩
  rw [(consistent.renderIn_eq_ascending firstLawful still.steady thread physical).2 noChoice]
    at isFirst
  rcases consistent.renderIn_again still recalls noChoice isFirst with
    ⟨unmoved, noChoiceAgain, same⟩
  rw [← unmoved] at noChoiceAgain still
  rw [← (leftReachable.consistent.renderIn_eq_ascending secondLawful still.steady thread
    physical).2 noChoiceAgain, isSecond] at same
  exact same

theorem tables_isStill (tables : Tables) : Tables.interpreter.IsStill tables where
  steady := tables_isSteady tables
  frame _ := rfl
  code _ := rfl

/-- A task has gathered three others, which nobody announced. -/
def unsettledGraph : TaskGraph :=
  (({} : TaskGraph).registerLoop 1 7).create ⟨1, 7, "gather"⟩ |>.link 1 2 |>.link 1 3 |>.link 1 4

/-- One of them runs and has a name, the next one is done, and the last one cannot be read. -/
def unsettledObservation : Observation Tables where
  walker := .new ⟨3, 11⟩ 64
  subject :=
    ((({} : Tables).putTask 1 { coroutine := [0x100], awaiting := some 2 }).putTask 2
      { coroutine := [0x120], name := some "fetch", loop := some 7 }).putTask 3 { done := true }

/-- The view of its loop. -/
def unsettledView : LoopView :=
  unsettledGraph.viewOf .ascending 7
    (unsettledGraph.answersOn .ascending Tables.interpreter 7 unsettledObservation.subject).1
    gatheringStack

theorem unsettledGraph_reachable : unsettledGraph.Reachable :=
  Relation.ReflTransGen.refl
    |>.tail (.registerLoop 1 7)
    |>.tail (.create ⟨1, 7, "gather"⟩)
    |>.tail (.link 1 2)
    |>.tail (.link 1 3)
    |>.tail (.link 1 4)

theorem unsettledGraph_leavesNoChoice :
    unsettledGraph.LeavesNoChoice Tables.interpreter 1 gatheringStack
      unsettledObservation.subject := by
  intro loop hosted view isView
  have seventh : unsettledGraph.loopOf? 1 = some 7 := by decide
  obtain rfl : 7 = loop := Option.some.inj (seventh.symm.trans hosted)
  obtain rfl : unsettledView = view := isView
  have waits : ∀ entry ∈ unsettledView.states.toList, entry.2.awaiting ≠ none → entry.1 = 1 := by
    decide
  have runs : ∀ entry ∈ unsettledView.states.toList,
      isOnStack gatheringStack entry.2 = true → entry.1 = 2 := by
    decide
  refine ⟨LoopView.singlyAwaited_of_entries waits, .inr ?_⟩
  intro left right leftOn rightOn
  rw [LoopView.onStack_of_entries runs leftOn, LoopView.onStack_of_entries runs rightOn]

/-- The graph after a first rendering. -/
def settledGraph : TaskGraph :=
  ((unsettledGraph.renderIn .descending Tables.interpreter 1 gatheringStack).run
    unsettledObservation).1.2

/-- A name is learned, a task is completed and a failed reading is counted. -/
theorem settledGraph_learned :
    (unsettledGraph.nodes[(2 : TaskId)]?.map (·.name) = some none ∧
        settledGraph.nodes[(2 : TaskId)]?.map (·.name) = some (some "fetch")) ∧
      (unsettledGraph.nodes[(3 : TaskId)]?.map (·.completed) = some false ∧
        settledGraph.nodes[(3 : TaskId)]?.map (·.completed) = some true) ∧
      (unsettledGraph.nodes[(4 : TaskId)]?.map (·.failures) = some 0 ∧
        settledGraph.nodes[(4 : TaskId)]?.map (·.failures) = some 1) := by
  decide +kernel

theorem renderIn_repeats_unsettled :
    unsettledGraph.Reachable ∧ Tables.interpreter.IsStill unsettledObservation.subject ∧
      unsettledGraph.LeavesNoChoice Tables.interpreter 1 gatheringStack
        unsettledObservation.subject ∧
      settledGraph.nodes[(2 : TaskId)]?.map (·.name) = some (some "fetch") ∧
      settledGraph.nodes[(3 : TaskId)]?.map (·.completed) = some true ∧
      settledGraph.nodes[(4 : TaskId)]?.map (·.failures) = some 1 ∧
      ∃ rendered after,
        (unsettledGraph.renderIn .descending Tables.interpreter 1 gatheringStack).run
            unsettledObservation = ((rendered, settledGraph), after) ∧
          ((settledGraph.renderIn .ascending Tables.interpreter 1 gatheringStack).run after).1.1 =
            rendered := by
  have still := tables_isStill unsettledObservation.subject
  have recalls : unsettledObservation.walker.Recalls _ _
      (Tables.interpreter.codesOf unsettledObservation.subject) :=
    Walker.new_recalls ⟨3, 11⟩ 64 _
  have noChoice := unsettledGraph_leavesNoChoice
  rcases settledGraph_learned with ⟨⟨-, named⟩, ⟨-, completed⟩, -, failed⟩
  rcases isFirst : (unsettledGraph.renderIn .descending Tables.interpreter 1 gatheringStack).run
    unsettledObservation with ⟨⟨rendered, left⟩, after⟩
  have isLeft : settledGraph = left := congrArg (fun outcome => outcome.1.2) isFirst
  rcases isSecond : (left.renderIn .ascending Tables.interpreter 1 gatheringStack).run after with
    ⟨⟨again, last⟩, final⟩
  have same := renderIn_repeats unsettledGraph_reachable descending_lawful ascending_lawful still
    recalls noChoice isFirst isSecond
  refine ⟨unsettledGraph_reachable, still, noChoice, named, completed, failed, rendered, after, ?_⟩
  rw [isLeft, isSecond]
  exact ⟨rfl, same.1⟩

end TaskGraph

end StackSampler
