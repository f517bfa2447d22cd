import StackSampler.Proofs.Task.Chains
import StackSampler.Subject.Tables

/-!
# The stacks of a loop

What showing the tasks of a loop gives, in terms of the graph before it was read, of the answers of
the interpreter, and of the stack of the thread.  There is one stack for each leaf, in the order of
creation; it shows the tasks of a chain that starts at the leaf, each with its frames and its
boundary, and ends with the frames of the loop.
-/

namespace StackSampler.TaskGraph

variable {σ : Type}

/-! ## What is read -/

/-- The tasks that are asked about when a loop is shown. -/
def candidates (graph : TaskGraph) (order : VisitingOrder) (loop : LoopId) : List TaskId :=
  (order.nodes graph.nodes.keys).filter (graph.mayRunOn loop)

/-- The answers about the tasks of a loop, and what the interpreter is then like. -/
def answersOn (graph : TaskGraph) (order : VisitingOrder) (interpreter : Interpreter σ)
    (loop : LoopId) (subject : σ) : List (TaskId × Except ReadFault TaskState) × σ :=
  (readTasks interpreter (graph.candidates order loop)).run subject

/-- What is known of a loop after answers about its tasks. -/
def viewOf (graph : TaskGraph) (order : VisitingOrder) (loop : LoopId)
    (answers : List (TaskId × Except ReadFault TaskState)) (physical : List WalkedFrame) :
    LoopView :=
  let settled := graph.settle answers
  let states := settled.statesOn loop answers
  ⟨graph, states, settled.currentTask order loop states physical⟩

theorem mem_candidates
    {graph : TaskGraph} {order : VisitingOrder} (lawful : order.Lawful) {loop : LoopId}
    {task : TaskId} :
    task ∈ graph.candidates order loop ↔
      ∃ node, graph.live? task = some node ∧ ∀ own, node.loop = some own → own = loop := by
  have known : (∃ node, graph.live? task = some node) → task ∈ graph.nodes := by
    rintro ⟨node, live⟩
    rw [live?, Option.filter_eq_some_iff] at live
    rw [Std.ExtTreeMap.mem_iff_isSome_getElem?, live.1]
    rfl
  rw [candidates, List.mem_filter, (lawful.nodes _).mem_iff, Std.ExtTreeMap.mem_keys, mayRunOn]
  cases live : graph.live? task with
  | none => simp
  | some node =>
      have member := known ⟨node, live⟩
      cases own : node.loop with
      | none => simp [member, own]
      | some other => simp [member, own]

/-- Each candidate is asked about once. -/
theorem answersOn_tasks
    (graph : TaskGraph) (order : VisitingOrder) (interpreter : Interpreter σ) (loop : LoopId)
    (subject : σ) :
    (graph.answersOn order interpreter loop subject).1.map Prod.fst =
      graph.candidates order loop :=
  readTasks_tasks interpreter (graph.candidates order loop) subject

theorem nodup_candidates
    (graph : TaskGraph) {order : VisitingOrder} (lawful : order.Lawful) (loop : LoopId) :
    (graph.candidates order loop).Nodup := by
  apply List.Nodup.filter
  rw [(lawful.nodes _).nodup_iff]
  exact Std.ExtTreeMap.nodup_keys

theorem nodup_answersOn
    (graph : TaskGraph) {order : VisitingOrder} (lawful : order.Lawful)
    (interpreter : Interpreter σ) (loop : LoopId) (subject : σ) :
    ((graph.answersOn order interpreter loop subject).1.map Prod.fst).Nodup := by
  rw [answersOn_tasks]
  exact nodup_candidates graph lawful loop

namespace LoopView

/-- The outermost frame of the coroutine of a task of the loop is on a stack. -/
def OnStack (view : LoopView) (physical : List WalkedFrame) (task : TaskId) : Prop :=
  ∃ state place, view.states[task]? = some state ∧ state.coroutine.head? = some place ∧
    ∃ walked ∈ physical, walked.place = place

theorem isReadOnStack_iff {view : LoopView} {physical : List WalkedFrame} {task : TaskId} :
    isReadOnStack view.states physical task = true ↔ view.OnStack physical task := by
  rw [isReadOnStack, Option.any_eq_true, OnStack]
  constructor
  · rintro ⟨state, found, holds⟩
    rw [isOnStack] at holds
    cases head : state.coroutine.head? with
    | none =>
        rw [head] at holds
        contradiction
    | some place =>
        rw [head] at holds
        rcases List.any_eq_true.mp holds with ⟨walked, member, same⟩
        exact ⟨state, place, found, head, walked, member, beq_iff_eq.mp same⟩
  · rintro ⟨state, place, found, head, walked, member, same⟩
    refine ⟨state, found, ?_⟩
    rw [isOnStack, head]
    exact List.any_eq_true.mpr ⟨walked, member, beq_iff_eq.mpr same⟩

/-- No task is awaited twice if only one task awaits another. -/
theorem singlyAwaited_of_entries {view : LoopView} {waiter : TaskId}
    (only : ∀ entry ∈ view.states.toList, entry.2.awaiting ≠ none → entry.1 = waiter) :
    view.SinglyAwaited := by
  have asks : ∀ asking task, view.Awaits asking task → asking = waiter := by
    rintro asking task ⟨_, state, found, awaits⟩
    apply only (asking, state) (Std.ExtTreeMap.mem_toList_iff_getElem?_eq_some.mpr found)
    rw [awaits]
    exact Option.some_ne_none task
  intro left right task leftAwaits rightAwaits
  rw [asks left task leftAwaits, asks right task rightAwaits]

theorem onStack_of_entries {view : LoopView} {physical : List WalkedFrame} {runner task : TaskId}
    (only : ∀ entry ∈ view.states.toList, isOnStack physical entry.2 = true → entry.1 = runner)
    (onStack : view.OnStack physical task) : task = runner := by
  have holds := isReadOnStack_iff.mpr onStack
  rw [isReadOnStack, Option.any_eq_true] at holds
  rcases holds with ⟨state, found, held⟩
  exact only (task, state) (Std.ExtTreeMap.mem_toList_iff_getElem?_eq_some.mpr found) held

theorem mem_of_onStack {view : LoopView} {physical : List WalkedFrame} {task : TaskId}
    (onStack : view.OnStack physical task) : task ∈ view.states := by
  rcases onStack with ⟨state, _, found, _⟩
  rw [Std.ExtTreeMap.mem_iff_isSome_getElem?, found]
  rfl

/-- In whatever order tasks are gone through, the only one on a stack is the one that is found. -/
theorem find?_isReadOnStack_iff
    {view : LoopView} {physical : List WalkedFrame} {order : VisitingOrder}
    (lawful : order.Lawful)
    (alone : ∀ first second,
      view.OnStack physical first → view.OnStack physical second → first = second)
    {task : TaskId} :
    (order.states view.states.keys).find? (isReadOnStack view.states physical) = some task ↔
      view.OnStack physical task := by
  constructor
  · intro found
    exact isReadOnStack_iff.mp (List.find?_some found)
  · intro onStack
    cases found : (order.states view.states.keys).find? (isReadOnStack view.states physical) with
    | none =>
        rw [List.find?_eq_none] at found
        refine absurd (isReadOnStack_iff.mpr onStack) (found task ?_)
        rw [(lawful.states _).mem_iff, Std.ExtTreeMap.mem_keys]
        exact mem_of_onStack onStack
    | some other =>
        have otherOn := isReadOnStack_iff.mp (List.find?_some found)
        rw [alone other task otherOn onStack]

end LoopView

section

variable {graph : TaskGraph} {answers : List (TaskId × Except ReadFault TaskState)}
  {loop : LoopId} {order : VisitingOrder} {physical : List WalkedFrame}
  (consistent : graph.Consistent) (distinct : (answers.map Prod.fst).Nodup)

include consistent distinct

theorem mem_states_viewOf {task : TaskId} :
    task ∈ (graph.viewOf order loop answers physical).states ↔
      ∃ state node, graph.nodes[task]? = some node ∧ (task, .ok state) ∈ answers ∧
        state.done = false ∧ node.loop.or state.loop = some loop := by
  rw [Std.ExtTreeMap.mem_iff_isSome_getElem?, Option.isSome_iff_exists]
  simp only [← consistent.getElem?_statesOn distinct]
  rfl

theorem not_mem_endedBy_of_mem_states {task : TaskId}
    (member : task ∈ (graph.viewOf order loop answers physical).states) :
    task ∉ graph.endedBy answers := by
  rcases (mem_states_viewOf consistent distinct).mp member with ⟨state, _, _, read, pending, _⟩
  exact not_mem_endedBy distinct read pending

/-- What is read of a loop leaves its tasks and what they wait on as they were. -/
theorem viewOf_agrees :
    (graph.viewOf order loop answers physical).Agrees (graph.settle answers) := by
  have kept : ∀ task, task ∈ (graph.viewOf order loop answers physical).states →
      ∃ node changed, graph.nodes[task]? = some node ∧
        (graph.settle answers).nodes[task]? = some changed ∧
        changed.parents = node.parents ∧ changed.created = node.created ∧
        ∀ child, child ∈ changed.children ↔
          child ∈ node.children ∧ child ∉ graph.endedBy answers := by
    intro task member
    rcases (mem_states_viewOf consistent distinct).mp member with
      ⟨state, node, found, read, pending, _⟩
    refine ⟨node, learn state (node.withoutChildren (graph.endedBy answers)), found, ?_,
      rfl, rfl, TaskNode.mem_children_withoutChildren _ _⟩
    rw [consistent.getElem?_settle distinct read pending, found]
    rfl
  constructor
  case consistent => exact consistent.settle answers
  case known =>
    intro task member
    rcases kept task member with ⟨_, changed, _, found, _⟩
    rw [Std.ExtTreeMap.mem_iff_isSome_getElem?, found]
    rfl
  case linked =>
    intro parent child place member
    rcases kept child member with ⟨node, changed, before, after, parents, _⟩
    rw [Linked, after]
    change _ ↔ graph.Linked parent child place
    rw [Linked, before]
    simp [parents]
  case lists =>
    intro parent child member childMember
    have goesOn := not_mem_endedBy_of_mem_states consistent distinct childMember
    rcases kept parent member with ⟨node, changed, before, after, _, _, children⟩
    rw [Lists, after]
    change _ ↔ graph.Lists parent child
    rw [Lists, before]
    simp [children, goesOn]
  case created =>
    intro task place member
    rcases kept task member with ⟨node, changed, before, after, _, created, _⟩
    rw [CreatedAs, after]
    change _ ↔ graph.CreatedAs task place
    rw [CreatedAs, before]
    simp [created]

/-- The tasks that settling ends are none of the loop, so what its tasks run stays as it was. -/
theorem runningTask?_settle_of_mem_states {task : TaskId}
    (member : task ∈ (graph.viewOf order loop answers physical).states) :
    (graph.settle answers).runningTask? loop = some task ↔ graph.runningTask? loop = some task := by
  have goesOn := not_mem_endedBy_of_mem_states consistent distinct member
  rw [consistent.runningTask?_settle, and_iff_left fun ended => goesOn ended.1]

/--
The running task is the one that the loop was last said to run, if that is among its tasks, and
else the one whose coroutine is on the stack.
-/
theorem running_viewOf_iff
    (lawful : order.Lawful)
    (alone : ∀ first second,
      (graph.viewOf order loop answers physical).OnStack physical first →
        (graph.viewOf order loop answers physical).OnStack physical second → first = second)
    (task : TaskId) :
    (graph.viewOf order loop answers physical).running = some task ↔
      task ∈ (graph.viewOf order loop answers physical).states ∧
        (graph.runningTask? loop = some task ∨
          ((∀ entered, graph.runningTask? loop = some entered →
              entered ∉ (graph.viewOf order loop answers physical).states) ∧
            (graph.viewOf order loop answers physical).OnStack physical task)) := by
  generalize isView : graph.viewOf order loop answers physical = view at alone ⊢
  have running : view.running =
      (((graph.settle answers).runningTask? loop).filter view.states.contains).or
        ((order.states view.states.keys).find? (isReadOnStack view.states physical)) := by
    rw [← isView]
    rfl
  have same : ∀ entered, entered ∈ view.states →
      ((graph.settle answers).runningTask? loop = some entered ↔
        graph.runningTask? loop = some entered) := by
    intro entered member
    rw [← isView] at member
    exact runningTask?_settle_of_mem_states consistent distinct member
  have reported : ∀ entered,
      ((graph.settle answers).runningTask? loop).filter view.states.contains = some entered ↔
        graph.runningTask? loop = some entered ∧ entered ∈ view.states := by
    intro entered
    rw [Option.filter_eq_some_iff, Std.ExtTreeMap.contains_iff_mem]
    exact and_congr_left (same entered)
  have unreported : ((graph.settle answers).runningTask? loop).filter view.states.contains = none ↔
      ∀ entered, graph.runningTask? loop = some entered → entered ∉ view.states := by
    rw [Option.eq_none_iff_forall_ne_some]
    constructor
    · exact fun never entered ran member => never entered ((reported entered).mpr ⟨ran, member⟩)
    · intro never entered ran
      rcases (reported entered).mp ran with ⟨before, member⟩
      exact never entered before member
  rw [running, Option.or_eq_some_iff, reported, unreported,
    LoopView.find?_isReadOnStack_iff lawful alone]
  constructor
  · rintro (⟨ran, member⟩ | ⟨never, onStack⟩)
    · exact ⟨member, .inl ran⟩
    · exact ⟨LoopView.mem_of_onStack onStack, .inr ⟨never, onStack⟩⟩
  · rintro ⟨member, ran | ⟨never, onStack⟩⟩
    · exact .inl ⟨ran, member⟩
    · exact .inr ⟨never, onStack⟩

end

/-! ## What a stack shows -/

/--
The frames found at several places, one after the other, and what looking for them makes of the
interpreter.  A place where no frame can be read is passed over.
-/
inductive Resolved (interpreter : Interpreter σ) :
    List Address → Observation σ → List Frame → Observation σ → Prop where
  | nil (before : Observation σ) : Resolved interpreter [] before [] before
  | found {place : Address} {places : List Address} {before middle after : Observation σ}
      {walked : WalkedFrame} {frames : List Frame}
      (read : (Walking.resolveFrame interpreter place).run.run before = (.ok walked, middle))
      (rest : Resolved interpreter places middle frames after) :
      Resolved interpreter (place :: places) before (walked.frame :: frames) after
  | missed {place : Address} {places : List Address} {before middle after : Observation σ}
      {fault : ReadFault} {frames : List Frame}
      (failed : (Walking.resolveFrame interpreter place).run.run before = (.error fault, middle))
      (rest : Resolved interpreter places middle frames after) :
      Resolved interpreter (place :: places) before frames after

namespace LoopView

/-- Where the outermost frame of the running task's coroutine is. -/
def IsOutermost (view : LoopView) (place : Address) : Prop :=
  ∃ running state, view.running = some running ∧ view.states[running]? = some state ∧
    state.coroutine.head? = some place

/--
A stack divided into the frames of the running task, which end with the first one that is the
outermost of its coroutine, and those of the loop.  Without such a frame all belong to the loop.
-/
def Divides (view : LoopView) (physical inner outer : List WalkedFrame) : Prop :=
  physical = inner ++ outer ∧
    ((∃ shorter last, inner = shorter ++ [last] ∧ view.IsOutermost last.place ∧
        ∀ walked ∈ shorter, ¬ view.IsOutermost walked.place) ∨
      (inner = [] ∧ ∀ walked ∈ physical, ¬ view.IsOutermost walked.place))

/-- The boundary of a task: the name it is known by, or was found to have, or its identity. -/
def IsBoundary (view : LoopView) (task : TaskId) (boundary : Frame) : Prop :=
  ∃ node state, view.graph.nodes[task]? = some node ∧ view.states[task]? = some state ∧
    boundary = .taskBoundary ((node.name.or (state.name.bind nonempty?)).getD
      ("Task-" ++ Text.hexadecimal task.toNat))

/-- The frames of a task: its part of the thread's stack if it runs, else its coroutine's. -/
inductive TaskFrames (view : LoopView) (interpreter : Interpreter σ) (inner : List WalkedFrame) :
    TaskId → Observation σ → List Frame → Observation σ → Prop where
  | running {task : TaskId} {before : Observation σ} (runs : view.running = some task) :
      TaskFrames view interpreter inner task before (inner.map (·.frame)) before
  | suspended {task : TaskId} {state : TaskState} {before after : Observation σ}
      {frames : List Frame} (waits : view.running ≠ some task)
      (found : view.states[task]? = some state)
      (resolved : Resolved interpreter state.coroutine.reverse before frames after) :
      TaskFrames view interpreter inner task before frames after

/-- The frames of a chain: those of each task, followed by its boundary. -/
inductive ChainFrames (view : LoopView) (interpreter : Interpreter σ) (inner : List WalkedFrame) :
    List TaskId → Observation σ → List Frame → Observation σ → Prop where
  | nil (before : Observation σ) : ChainFrames view interpreter inner [] before [] before
  | cons {task : TaskId} {tasks : List TaskId} {before middle after : Observation σ}
      {frames others : List Frame} {boundary : Frame}
      (own : view.TaskFrames interpreter inner task before frames middle)
      (isBoundary : view.IsBoundary task boundary)
      (rest : ChainFrames view interpreter inner tasks middle others after) :
      ChainFrames view interpreter inner (task :: tasks) before
        (frames ++ boundary :: others) after

/-- The stacks of several leaves: each shows a chain from the leaf on, and then the loop. -/
inductive LeafStacks (view : LoopView) (interpreter : Interpreter σ)
    (inner outer : List WalkedFrame) :
    List TaskId → Observation σ → List Stack → Observation σ → Prop where
  | nil (before : Observation σ) : LeafStacks view interpreter inner outer [] before [] before
  | cons {leaf : TaskId} {leaves chain : List TaskId} {before middle after : Observation σ}
      {frames : List Frame} {onCpu : Bool} {rendered : List Stack}
      (isChain : view.Chain [] leaf chain) (distinct : chain.Nodup)
      (members : ∀ task, task ∈ chain → task ∈ view.states)
      (shown : view.ChainFrames interpreter inner chain before frames middle)
      (runs : onCpu = true ↔ ∃ task, view.running = some task ∧ task ∈ chain)
      (rest : LeafStacks view interpreter inner outer leaves middle rendered after) :
      LeafStacks view interpreter inner outer (leaf :: leaves) before
        (⟨some leaf, onCpu, frames ++ outer.map (·.frame)⟩ :: rendered) after

variable {view : LoopView}

theorem isOutermost_iff {place : Address} :
    view.IsOutermost place ↔
      (view.running.bind (view.states[·]?)).bind (·.coroutine.head?) = some place := by
  simp only [Option.bind_eq_some_iff]
  constructor
  · rintro ⟨running, state, runs, found, head⟩
    exact ⟨state, ⟨running, runs, found⟩, head⟩
  · rintro ⟨state, ⟨running, runs, found⟩, head⟩
    exact ⟨running, state, runs, found, head⟩

theorem divides_splitAt (view : LoopView) (physical : List WalkedFrame) :
    view.Divides physical
      (physical.splitAt (runningDepth view.states view.running physical)).1
      (physical.splitAt (runningDepth view.states view.running physical)).2 := by
  rw [List.splitAt_eq, runningDepth]
  refine ⟨(List.take_append_drop _ physical).symm, ?_⟩
  cases outermost : (view.running.bind (view.states[·]?)).bind (·.coroutine.head?) with
  | none =>
      right
      refine ⟨rfl, ?_⟩
      intro walked _ isOutermost
      rw [isOutermost_iff, outermost] at isOutermost
      contradiction
  | some place =>
      have isPlace : ∀ other, view.IsOutermost other ↔ other = place := by
        intro other
        rw [isOutermost_iff, outermost, Option.some.injEq]
        exact eq_comm
      cases found : physical.findIdx? (·.place == place) with
      | none =>
          right
          simp only [found]
          refine ⟨rfl, ?_⟩
          intro walked member isOutermost
          have absent := List.findIdx?_eq_none_iff.mp found walked member
          rw [(isPlace _).mp isOutermost, beq_self_eq_true] at absent
          contradiction
      | some index =>
          left
          simp only [found]
          rcases List.findIdx?_eq_some_iff_getElem.mp found with ⟨inside, same, earlier⟩
          refine ⟨physical.take index, physical[index], List.take_succ_eq_append_getElem inside,
            (isPlace _).mpr (beq_iff_eq.mp same), ?_⟩
          intro walked member isOutermost
          rcases List.mem_take_iff_getElem.mp member with ⟨other, before, rfl⟩
          apply earlier other (Nat.lt_of_lt_of_le before (Nat.min_le_left _ _))
          rw [(isPlace _).mp isOutermost, beq_self_eq_true]

end LoopView

theorem suspendedFrames_resolved
    (interpreter : Interpreter σ) (places : List Address) (before : Observation σ) :
    Resolved interpreter places before
      ((suspendedFrames interpreter places).run before).1
      ((suspendedFrames interpreter places).run before).2 := by
  induction places generalizing before with
  | nil => exact Resolved.nil before
  | cons place rest induction =>
      cases read : (Walking.resolveFrame interpreter place).run.run before with
      | mk resolved middle =>
          rw [suspendedFrames, StateT.run_bind, read]
          cases resolved with
          | ok walked => exact Resolved.found read (induction middle)
          | error fault => exact Resolved.missed read (induction middle)

namespace LoopView

variable {view : LoopView}

theorem taskFrames_shown
    (interpreter : Interpreter σ) (inner : List WalkedFrame) {task : TaskId}
    (member : task ∈ view.states) (before : Observation σ) :
    view.TaskFrames interpreter inner task before
      ((taskFrames interpreter view.states view.running inner task).run before).1
      ((taskFrames interpreter view.states view.running inner task).run before).2 := by
  rw [taskFrames]
  split
  · rename_i runs
    exact TaskFrames.running runs.symm
  · rename_i waits
    rw [Std.ExtTreeMap.mem_iff_isSome_getElem?, Option.isSome_iff_exists] at member
    rcases member with ⟨state, found⟩
    rw [found]
    exact TaskFrames.suspended (Ne.symm waits) found (suspendedFrames_resolved _ _ before)

/-- A graph that names the tasks of the loop as the view does. -/
def Names (view : LoopView) (settled : TaskGraph) : Prop :=
  ∀ task, task ∈ view.states →
    ∃ boundary, settled.boundaryOf task = [boundary] ∧ view.IsBoundary task boundary

theorem chainFrames_shown
    (interpreter : Interpreter σ) (inner : List WalkedFrame) {settled : TaskGraph}
    (names : view.Names settled) {chain : List TaskId}
    (members : ∀ task, task ∈ chain → task ∈ view.states) (before : Observation σ) :
    view.ChainFrames interpreter inner chain before
      ((settled.chainFrames interpreter view.states view.running inner chain).run before).1
      ((settled.chainFrames interpreter view.states view.running inner chain).run before).2 := by
  induction chain generalizing before with
  | nil => exact ChainFrames.nil before
  | cons task rest induction =>
      have own := taskFrames_shown interpreter inner (members task List.mem_cons_self) before
      rcases names task (members task List.mem_cons_self) with ⟨boundary, named, isBoundary⟩
      have others := induction (fun other later => members other (List.mem_cons_of_mem _ later))
        ((taskFrames interpreter view.states view.running inner task).run before).2
      rw [TaskGraph.chainFrames, StateT.run_bind, named]
      change view.ChainFrames interpreter inner (task :: rest) before (_ ++ [boundary] ++ _) _
      rw [List.append_assoc]
      exact ChainFrames.cons own isBoundary others

theorem chainStacks_shown
    (interpreter : Interpreter σ) (inner outer : List WalkedFrame) {settled : TaskGraph}
    (agrees : view.Agrees settled) (names : view.Names settled) {order : VisitingOrder}
    (lawful : order.Lawful) (single : view.SinglyAwaited) {leaves : List TaskId}
    (members : ∀ leaf, leaf ∈ leaves → leaf ∈ view.states) (before : Observation σ) :
    view.LeafStacks interpreter inner outer leaves before
      ((settled.chainStacks interpreter view.states view.running inner outer
        (leaves.map fun leaf => (leaf, settled.chainOf view.states
          (waitersOf order view.states) view.running leaf))).run before).1
      ((settled.chainStacks interpreter view.states view.running inner outer
        (leaves.map fun leaf => (leaf, settled.chainOf view.states
          (waitersOf order view.states) view.running leaf))).run before).2 := by
  induction leaves generalizing before with
  | nil => exact LeafStacks.nil before
  | cons leaf rest induction =>
      have member := members leaf List.mem_cons_self
      have isChain := agrees.chain_chainOf lawful single member
      have inStates := isChain.mem_states member
      have shown := chainFrames_shown interpreter inner names inStates before
      have others := induction (fun other later => members other (List.mem_cons_of_mem _ later))
        ((settled.chainFrames interpreter view.states view.running inner
          (settled.chainOf view.states (waitersOf order view.states) view.running leaf)).run
            before).2
      refine LeafStacks.cons isChain (isChain.nodup List.not_mem_nil).1 inStates shown ?_ others
      cases view.running with
      | none => simp
      | some task => simp

end LoopView

/-- Settling answers leaves the tasks of the loop with the names they are shown by. -/
theorem viewOf_names
    {graph : TaskGraph} {answers : List (TaskId × Except ReadFault TaskState)} {loop : LoopId}
    {order : VisitingOrder} {physical : List WalkedFrame} (consistent : graph.Consistent)
    (distinct : (answers.map Prod.fst).Nodup) :
    (graph.viewOf order loop answers physical).Names (graph.settle answers) := by
  intro task member
  rcases (mem_states_viewOf consistent distinct).mp member with
    ⟨state, node, found, read, pending, on⟩
  have inStates : (graph.viewOf order loop answers physical).states[task]? = some state :=
    (consistent.getElem?_statesOn distinct loop state).mpr ⟨node, found, read, pending, on⟩
  refine ⟨_, ?_, node, state, found, inStates, rfl⟩
  rw [boundaryOf, consistent.getElem?_settle distinct read pending, found]
  rfl

theorem LoopView.LeafStacks.eq_nil_iff
    {view : LoopView} {interpreter : Interpreter σ} {inner outer : List WalkedFrame}
    {leaves : List TaskId} {before after : Observation σ} {rendered : List Stack}
    (shown : view.LeafStacks interpreter inner outer leaves before rendered after) :
    rendered = [] ↔ leaves = [] := by
  cases shown with
  | nil => exact iff_of_true rfl rfl
  | cons => exact iff_of_false (List.cons_ne_nil _ _) (List.cons_ne_nil _ _)

/-! ## Showing a loop -/

/-- The chains that are shown for a loop, with the leaf that each starts from. -/
def chainsOf (settled : TaskGraph) (order : VisitingOrder) (view : LoopView) :
    List (TaskId × List TaskId) :=
  (settled.leaves order view.states).map fun leaf =>
    (leaf, settled.chainOf view.states (waitersOf order view.states) view.running leaf)

/-- The stacks of a loop whose running task is known, before the thread's own may stand in. -/
def stacksIn (settled : TaskGraph) (order : VisitingOrder) (interpreter : Interpreter σ)
    (view : LoopView) (physical : List WalkedFrame) : Observing σ (List Stack) :=
  let depth := runningDepth view.states view.running physical
  settled.chainStacks interpreter view.states view.running (physical.take depth)
    (physical.drop depth) (settled.chainsOf order view)

/-- The stacks of several chains are those of their leaves. -/
theorem chainStacks_tasks (graph : TaskGraph) (interpreter : Interpreter σ) (states : TaskStates)
    (running : Option TaskId) (inner outer : List WalkedFrame)
    (chains : List (TaskId × List TaskId)) (before : Observation σ) :
    ((graph.chainStacks interpreter states running inner outer chains).run before).1.map
      (·.task) = chains.map fun chain => some chain.1 := by
  induction chains generalizing before with
  | nil => rfl
  | cons chain rest induction =>
      rcases chain with ⟨leaf, tasks⟩
      exact congrArg (some leaf :: ·) (induction _)

theorem stacksIn_tasks (settled : TaskGraph) (order : VisitingOrder)
    (interpreter : Interpreter σ) (view : LoopView) (physical : List WalkedFrame)
    (before : Observation σ) :
    ((settled.stacksIn order interpreter view physical).run before).1.map (·.task) =
      (settled.leaves order view.states).map some := by
  refine (chainStacks_tasks settled interpreter _ _ _ _ _ before).trans ?_
  rw [chainsOf, List.map_map]
  rfl

/-- What showing a loop gives, and what it leaves of the interpreter. -/
theorem renderIn_run_of_hosted {graph : TaskGraph} {order : VisitingOrder}
    {interpreter : Interpreter σ} {thread : ThreadId} {loop : LoopId}
    {physical : List WalkedFrame} {before after : Observation σ}
    {answers : List (TaskId × Except ReadFault TaskState)} {subject : σ} {view : LoopView}
    {stackList : List Stack} (hosted : graph.loopOf? thread = some loop)
    (asked : graph.answersOn order interpreter loop before.subject = (answers, subject))
    (isView : graph.viewOf order loop answers physical = view)
    (shown : ((graph.settle answers).stacksIn order interpreter view physical).run
      { before with subject := subject } = (stackList, after)) :
    (graph.renderIn order interpreter thread physical).run before =
      ((if stackList.isEmpty then [.physical physical] else stackList,
        (graph.settle answers).markShown
          (((graph.settle answers).chainsOf order view).flatMap (·.2))), after) := by
  have isAnswers : (graph.answersOn order interpreter loop before.subject).1 = answers := by
    rw [asked]
  have isSubject : (graph.answersOn order interpreter loop before.subject).2 = subject := by
    rw [asked]
  subst isView isAnswers isSubject
  have isStacks := congrArg Prod.fst shown
  have isAfter := congrArg Prod.snd shown
  subst isStacks isAfter
  rw [renderIn, hosted]
  simp only [List.splitAt_eq]
  rfl

/-- The states of the tasks of a loop, where only live tasks were asked about. -/
theorem states_viewOf_iff
    {graph : TaskGraph} {answers : List (TaskId × Except ReadFault TaskState)} {loop : LoopId}
    {order : VisitingOrder} {physical : List WalkedFrame} (consistent : graph.Consistent)
    (distinct : (answers.map Prod.fst).Nodup)
    (live : ∀ task, task ∈ answers.map Prod.fst → ∃ node, graph.live? task = some node)
    (task : TaskId) (state : TaskState) :
    (graph.viewOf order loop answers physical).states[task]? = some state ↔
      ∃ node, graph.live? task = some node ∧ (task, .ok state) ∈ answers ∧
        state.done = false ∧ node.loop.or state.loop = some loop := by
  refine (consistent.getElem?_statesOn distinct loop state).trans ?_
  constructor
  · rintro ⟨node, found, read, rest⟩
    rcases live task (List.mem_map.mpr ⟨_, read, rfl⟩) with ⟨same, isLive⟩
    have known := isLive
    rw [live?, Option.filter_eq_some_iff, found, Option.some.injEq] at known
    exact ⟨node, known.1 ▸ isLive, read, rest⟩
  · rintro ⟨node, isLive, rest⟩
    rw [live?, Option.filter_eq_some_iff] at isLive
    exact ⟨node, isLive.1, rest⟩

/--
Showing the tasks of a loop asks once about each live task that may run on it.  Its tasks are those
that could be read, are pending and turn out to run on the loop; the graph knows each of them.  The
running one is that which the loop was last said to run and has not left since, else the one that
is on the stack.  There is one stack for each leaf, in the order of creation, or the thread's own
stack alone if there is no leaf.
-/
theorem renderIn_shows_leaves
    {graph : TaskGraph} (reachable : graph.Reachable) {order : VisitingOrder}
    (lawful : order.Lawful) (interpreter : Interpreter σ) {thread : ThreadId} {loop : LoopId}
    (hosted : graph.loopOf? thread = some loop) (physical : List WalkedFrame)
    (observation : Observation σ) {answers : List (TaskId × Except ReadFault TaskState)}
    {subject : σ}
    (asked : graph.answersOn order interpreter loop observation.subject = (answers, subject))
    {view : LoopView} (isView : graph.viewOf order loop answers physical = view)
    (single : view.SinglyAwaited)
    (alone : ∀ first second,
      view.OnStack physical first → view.OnStack physical second → first = second) :
    (answers.map Prod.fst).Nodup ∧
      (∀ task, task ∈ answers.map Prod.fst ↔
        ∃ node, graph.live? task = some node ∧ ∀ own, node.loop = some own → own = loop) ∧
      (∀ (task : TaskId) (state : TaskState), view.states[task]? = some state ↔
        ∃ node, graph.live? task = some node ∧ (task, .ok state) ∈ answers ∧
          state.done = false ∧ node.loop.or state.loop = some loop) ∧
      (∀ task, task ∈ view.states → task ∈ (graph.settle answers).nodes) ∧
      (∀ task, view.running = some task ↔ task ∈ view.states ∧
        (graph.runningTask? loop = some task ∨
          ((∀ entered, graph.runningTask? loop = some entered → entered ∉ view.states) ∧
            view.OnStack physical task))) ∧
      ∃ leaves inner outer rendered after,
        (∀ task, task ∈ leaves ↔ view.IsLeaf task) ∧
          (leaves.Pairwise fun first second => ∃ earlier later,
            graph.CreatedAs first earlier ∧ graph.CreatedAs second later ∧ earlier < later) ∧
          view.Divides physical inner outer ∧
          view.LeafStacks interpreter inner outer leaves { observation with subject := subject }
            rendered after ∧
          ((graph.renderIn order interpreter thread physical).run observation).1.1 =
            (if leaves = [] then [.physical physical] else rendered) ∧
          ((graph.renderIn order interpreter thread physical).run observation).2 = after := by
  have consistent := reachable.consistent
  have isAnswers : answers = (graph.answersOn order interpreter loop observation.subject).1 := by
    rw [asked]
  have isSubject : subject = (graph.answersOn order interpreter loop observation.subject).2 := by
    rw [asked]
  have tasks : answers.map Prod.fst = graph.candidates order loop := by
    rw [isAnswers, answersOn_tasks]
  have distinct : (answers.map Prod.fst).Nodup := by
    rw [tasks]
    exact nodup_candidates graph lawful loop
  have members : ∀ task, task ∈ answers.map Prod.fst ↔
      ∃ node, graph.live? task = some node ∧ ∀ own, node.loop = some own → own = loop := by
    intro task
    rw [tasks]
    exact mem_candidates lawful
  have agrees : view.Agrees (graph.settle answers) := isView ▸ viewOf_agrees consistent distinct
  refine ⟨distinct, members, ?_, agrees.known, ?_, ?_⟩
  · rw [← isView]
    apply states_viewOf_iff consistent distinct
    intro task member
    rcases (members task).mp member with ⟨node, live, _⟩
    exact ⟨node, live⟩
  · subst isView
    exact running_viewOf_iff consistent distinct lawful alone
  · have names : view.Names (graph.settle answers) := isView ▸ viewOf_names consistent distinct
    -- Settling creates no task, so the order of creation is that of the graph before.
    have sameGraph : view.graph = graph := isView ▸ rfl
    have ordered := agrees.leaves_pairwise lawful
    rw [sameGraph] at ordered
    have shown := LoopView.chainStacks_shown interpreter
      (physical.splitAt (runningDepth view.states view.running physical)).1
      (physical.splitAt (runningDepth view.states view.running physical)).2
      agrees names lawful single
      (fun leaf member => ((agrees.mem_leaves lawful).mp member).1)
      { observation with subject := subject }
    have empty := shown.eq_nil_iff
    refine ⟨_, _, _, _, _, fun task => agrees.mem_leaves lawful, ordered,
      view.divides_splitAt physical, shown, ?_, ?_⟩
    · rw [renderIn, hosted]
      subst isView isAnswers isSubject
      exact if_congr (List.isEmpty_iff.trans empty) rfl rfl
    · rw [renderIn, hosted]
      subst isView isAnswers isSubject
      rfl

/-- A task gathers two others and awaits the first of them; the second one runs. -/
def gatheringGraph : TaskGraph :=
  (((({} : TaskGraph).registerLoop 1 7).create ⟨1, 7, "gather"⟩).link 1 2 |>.link 1 3).enter 7 3

/-- An interpreter with the tasks of the gathering graph. -/
def gatheringTables : Tables :=
  ((({} : Tables).putTask 1 { coroutine := [0x100], awaiting := some 2 }).putTask 2
    { coroutine := [0x110] }).putTask 3 { coroutine := [0x120] }

/-- The stack of the thread while the second gathered task runs. -/
def gatheringStack : List WalkedFrame :=
  [⟨0x120, .interpreted "work" "worker.py" 3, true⟩, ⟨0x130, .interpreted "run" "loop.py" 8, true⟩]

/-- The view of the loop that gathers. -/
def gatheringView : LoopView :=
  gatheringGraph.viewOf .ascending 7
    (gatheringGraph.answersOn .ascending Tables.interpreter 7 gatheringTables).1 gatheringStack

theorem gatheringGraph_reachable : gatheringGraph.Reachable :=
  Relation.ReflTransGen.refl
    |>.tail (.registerLoop 1 7)
    |>.tail (.create ⟨1, 7, "gather"⟩)
    |>.tail (.link 1 2)
    |>.tail (.link 1 3)
    |>.tail (.enter 7 3)

theorem ascending_lawful : VisitingOrder.ascending.Lawful :=
  ⟨fun _ => List.Perm.refl _, fun _ => List.Perm.refl _⟩

theorem gatheringView_singlyAwaited : gatheringView.SinglyAwaited :=
  LoopView.singlyAwaited_of_entries
    (by decide : ∀ entry ∈ gatheringView.states.toList, entry.2.awaiting ≠ none → entry.1 = 1)

theorem gatheringView_onStack {task : TaskId}
    (onStack : gatheringView.OnStack gatheringStack task) : task = 3 := by
  refine LoopView.onStack_of_entries ?_ onStack
  decide

theorem renderIn_shows_leaves_gathering :
    gatheringGraph.Reachable ∧ VisitingOrder.ascending.Lawful ∧
      gatheringGraph.loopOf? 1 = some 7 ∧ gatheringView.SinglyAwaited ∧
      (∀ first second, gatheringView.OnStack gatheringStack first →
        gatheringView.OnStack gatheringStack second → first = second) ∧
      ∃ leaves inner outer rendered after,
        (∀ task, task ∈ leaves ↔ gatheringView.IsLeaf task) ∧
          gatheringView.Divides gatheringStack inner outer ∧
          gatheringView.LeafStacks Tables.interpreter inner outer leaves
            ⟨Walker.new ⟨3, 11⟩ 64, gatheringTables⟩ rendered after ∧
          ((gatheringGraph.renderIn .ascending Tables.interpreter 1 gatheringStack).run
            ⟨Walker.new ⟨3, 11⟩ 64, gatheringTables⟩).1.1 =
              if leaves = [] then [.physical gatheringStack] else rendered := by
  have hosted : gatheringGraph.loopOf? 1 = some 7 := by decide
  have alone : ∀ first second, gatheringView.OnStack gatheringStack first →
      gatheringView.OnStack gatheringStack second → first = second := by
    intro first second left right
    rw [gatheringView_onStack left, gatheringView_onStack right]
  rcases renderIn_shows_leaves gatheringGraph_reachable ascending_lawful Tables.interpreter hosted
    gatheringStack ⟨Walker.new ⟨3, 11⟩ 64, gatheringTables⟩ rfl rfl gatheringView_singlyAwaited
    alone with
    ⟨_, _, _, _, _, leaves, inner, outer, rendered, after, isLeaf, _, divides, shown, result, _⟩
  exact ⟨gatheringGraph_reachable, ascending_lawful, hosted, gatheringView_singlyAwaited, alone,
    leaves, inner, outer, rendered, after, isLeaf, divides, shown, result⟩

end StackSampler.TaskGraph
