import StackSampler.Proofs.Greenlet.Reachable
import StackSampler.Proofs.Sampling.Groups
import StackSampler.Proofs.Task.Operations

/-!
# The stack that a thread runs on

A capture walks the stack of a thread and then shows stacks of greenlets or of tasks.  The frames of
the walk are those of the active greenlet, or of the running task and of the loop behind it, so what
becomes of them depends on whether that greenlet or that task is shown.

The main statement is `Population.captureThreadIn_keeps_walk`: the frames of the walk stand in one
of the stacks, in their order, if the active greenlet is on the line of one that is shown, or if no
greenlet is shown and the running task is no task that waits for another one.
-/

namespace StackSampler

/-- One of the stacks has the frames of a walk, in their order. -/
def Holds (stackList : List Stack) (walked : List WalkedFrame) : Prop :=
  ∃ stack ∈ stackList, List.Sublist (walked.map (·.frame)) stack.frames

theorem holds_physical (walked : List WalkedFrame) : Holds [.physical walked] walked :=
  ⟨.physical walked, List.mem_singleton_self _, List.Sublist.refl _⟩

theorem Holds.cons {stackList : List Stack} {walked : List WalkedFrame}
    (holds : Holds stackList walked) (stack : Stack) : Holds (stack :: stackList) walked := by
  rcases holds with ⟨other, mem, within⟩
  exact ⟨other, List.mem_cons_of_mem stack mem, within⟩

/-! ## Greenlets -/

namespace GreenletTable

variable {σ : Type} {interpreter : Interpreter σ} {table : GreenletTable} {thread : ThreadId}
  {active : GreenletId} {physical : List WalkedFrame}

/-- The greenlet that a thread runs is one that is shown, or resumes after one that is shown. -/
def RunsOnLine (table : GreenletTable) (thread : ThreadId) : Prop :=
  ∃ active, table.activeOn? thread = some active ∧
    ∃ id ∈ table.shown thread, active ∈ (table.line id).map (·.1)

/-- A line with the active greenlet has the frames of the thread. -/
theorem lineFrames_hold {line : List (GreenletId × Greenlet)} (among : active ∈ line.map (·.1)) :
    Always (lineFrames interpreter (some active) physical line) fun frames =>
      List.Sublist (physical.map (·.frame)) frames := by
  induction line with
  | nil => cases among
  | cons first rest induction =>
      rcases first with ⟨id, greenlet⟩
      by_cases here : id = active
      · have own : Always (framesOf interpreter (some active) physical id greenlet) fun frames =>
            frames = physical.map (·.frame) := by
          rw [framesOf, if_pos (congrArg some here)]
          exact always_pure rfl
        refine own.bind fun frames same => (always_any _).bind fun others _ => always_pure ?_
        rw [same]
        exact List.sublist_append_left _ _
      · have later : active ∈ rest.map (·.1) := by
          rcases List.mem_cons.mp among with same | later
          · exact absurd same.symm here
          · exact later
        refine (always_any _).bind fun frames _ => ?_
        refine (induction later).bind fun others within => always_pure ?_
        exact (within.cons _).trans (List.sublist_append_right _ _)

theorem stacksOf_hold {ids : List GreenletId} {id : GreenletId} (shown : id ∈ ids)
    (among : active ∈ (table.line id).map (·.1)) :
    Always (stacksOf interpreter table (some active) physical ids) fun stackList =>
      Holds stackList physical := by
  induction ids with
  | nil => cases shown
  | cons first rest induction =>
      rcases List.mem_cons.mp shown with rfl | later
      · refine (lineFrames_hold among).bind fun frames within => ?_
        exact (always_any _).bind fun others _ => always_pure ⟨_, List.mem_cons_self .., within⟩
      · refine (always_any _).bind fun frames _ => ?_
        exact (induction later).bind fun others holds => always_pure (holds.cons _)

/-- The frames of a thread stand in a stack if the active greenlet is on a line that is shown. -/
theorem render_holds (interpreter : Interpreter σ) (physical : List WalkedFrame)
    (runs : table.RunsOnLine thread) :
    Always (table.render interpreter thread physical) fun stackList =>
      ∃ shown, stackList = some shown ∧ Holds shown physical := by
  rcases runs with ⟨active, isActive, id, shown, among⟩
  rw [render, isActive]
  have some_ : (table.shown thread).isEmpty = false :=
    List.isEmpty_eq_false_iff.mpr (List.ne_nil_of_mem shown)
  rw [some_]
  exact (stacksOf_hold shown among).map fun stackList holds => ⟨stackList, rfl, holds⟩

theorem render_of_shown_eq_nil (none_ : table.shown thread = []) :
    table.render interpreter thread physical = pure none := by
  rw [render, none_]
  rfl

end GreenletTable

/-! ## Tasks -/

namespace TaskGraph

variable {σ : Type} {interpreter : Interpreter σ} {graph : TaskGraph} {states : TaskStates}
  {waiters : Std.ExtTreeMap TaskId TaskId} {running : Option TaskId}

/-- A chain is never led on to the running task. -/
theorem awaiterOf_ne_running {visited : List TaskId} {task next : TaskId}
    (follows : graph.awaiterOf states waiters running visited task = some next) :
    some next ≠ running := by
  rw [awaiterOf, Option.or_eq_some_iff] at follows
  rcases follows with direct | ⟨-, linked⟩
  · rcases Option.filter_eq_some_iff.mp direct with ⟨-, free⟩
    simp only [Bool.and_eq_true, bne_iff_ne] at free
    exact free.2
  · split at linked
    · cases linked
    · have follows := List.find?_some linked
      rw [canFollow] at follows
      split at follows
      · cases follows
      · simp only [Bool.and_eq_true, bne_iff_ne] at follows
        exact follows.1.2

theorem exists_chainFrom_eq_cons (room : Nat) (visited : List TaskId) (task : TaskId) :
    ∃ rest, graph.chainFrom states waiters running room visited task = task :: rest := by
  cases room with
  | zero => exact ⟨[], rfl⟩
  | succ room =>
      rw [chainFrom]
      split
      · exact ⟨_, rfl⟩
      · exact ⟨[], rfl⟩

/-- The running task stands in a chain only as its first task. -/
theorem running_not_mem_chainFrom (room : Nat) {visited : List TaskId} {task : TaskId}
    (notHead : some task ≠ running) :
    ∀ other ∈ graph.chainFrom states waiters running room visited task, some other ≠ running := by
  induction room generalizing visited task with
  | zero =>
      intro other mem
      cases List.mem_singleton.mp mem
      exact notHead
  | succ room induction =>
      rw [chainFrom]
      split
      · rename_i next follows
        intro other mem
        rcases List.mem_cons.mp mem with rfl | later
        · exact notHead
        · exact induction (awaiterOf_ne_running follows) other later
      · intro other mem
        cases List.mem_singleton.mp mem
        exact notHead

/-- The frames of a chain without the running task are the same whatever that task's frames are. -/
theorem chainFrames_congr (inner other : List WalkedFrame) {chain : List TaskId}
    (absent : ∀ task ∈ chain, some task ≠ running) :
    graph.chainFrames interpreter states running inner chain =
      graph.chainFrames interpreter states running other chain := by
  induction chain with
  | nil => rfl
  | cons task rest induction =>
      rw [chainFrames, chainFrames, taskFrames, taskFrames,
        if_neg (absent task (List.mem_cons_self ..)), if_neg (absent task (List.mem_cons_self ..)),
        induction fun later mem => absent later (List.mem_cons_of_mem task mem)]

theorem chainStacks_congr (inner other outer : List WalkedFrame)
    {chains : List (TaskId × List TaskId)}
    (absent : ∀ chain ∈ chains, ∀ task ∈ chain.2, some task ≠ running) :
    graph.chainStacks interpreter states running inner outer chains =
      graph.chainStacks interpreter states running other outer chains := by
  induction chains with
  | nil => rfl
  | cons chain rest induction =>
      rcases chain with ⟨leaf, chain⟩
      simp only [chainStacks]
      rw [chainFrames_congr inner other (absent (leaf, chain) (List.mem_cons_self ..)),
        induction fun later mem => absent later (List.mem_cons_of_mem _ mem)]

/-- Each stack ends with the frames of the loop. -/
theorem chainStacks_end (inner outer : List WalkedFrame) (chains : List (TaskId × List TaskId)) :
    Always (graph.chainStacks interpreter states running inner outer chains) fun stackList =>
      ∀ stack ∈ stackList, outer.map (·.frame) <:+ stack.frames := by
  induction chains with
  | nil => exact always_pure (List.forall_mem_nil _)
  | cons chain rest induction =>
      rcases chain with ⟨leaf, chain⟩
      refine (always_any _).bind fun frames _ => ?_
      refine induction.bind fun others ends => always_pure ?_
      intro stack mem
      rcases List.mem_cons.mp mem with rfl | later
      · exact List.suffix_append _ _
      · exact ends stack later

/-- The frames of a chain that starts with the running task start with that task's frames. -/
theorem chainFrames_start (inner : List WalkedFrame) {task : TaskId} (runs : running = some task)
    (rest : List TaskId) :
    Always (graph.chainFrames interpreter states running inner (task :: rest)) fun frames =>
      inner.map (·.frame) <+: frames := by
  have own : Always (taskFrames interpreter states running inner task) fun frames =>
      frames = inner.map (·.frame) := by
    rw [taskFrames, if_pos runs.symm]
    exact always_pure rfl
  refine own.bind fun frames same => (always_any _).bind fun others _ => always_pure ?_
  rw [same, List.append_assoc]
  exact List.prefix_append _ _

/-- A chain that starts with the running task shows both parts of the stack. -/
theorem chainStacks_hold (inner outer : List WalkedFrame) {task : TaskId}
    (runs : running = some task) {rest : List TaskId} {chains : List (TaskId × List TaskId)}
    (among : (task, task :: rest) ∈ chains) :
    Always (graph.chainStacks interpreter states running inner outer chains) fun stackList =>
      Holds stackList (inner ++ outer) := by
  induction chains with
  | nil => cases among
  | cons chain others induction =>
      rcases List.mem_cons.mp among with rfl | later
      · refine (chainFrames_start inner runs rest).bind fun frames starts => ?_
        refine (always_any _).bind fun stackList _ => always_pure ⟨_, List.mem_cons_self .., ?_⟩
        rw [List.map_append]
        exact starts.sublist.append (List.Sublist.refl _)
      · rcases chain with ⟨leaf, chain⟩
        refine (always_any _).bind fun frames _ => ?_
        exact (induction later).bind fun stackList holds => always_pure (holds.cons _)

/-! ### Where the frames of a walk lie -/

theorem isOnStack_congr {first second : List WalkedFrame}
    (same : first.map (·.place) = second.map (·.place)) :
    isOnStack first = isOnStack second := by
  have anywhere : ∀ (physical : List WalkedFrame) (place : Address),
      physical.any (·.place == place) = (physical.map (·.place)).any (· == place) := by
    intro physical place
    rw [List.any_map]
    rfl
  funext state
  rw [isOnStack, isOnStack]
  cases state.coroutine.head? with
  | none => rfl
  | some outer => simp only [anywhere, same]

/-- Which task runs depends only on where the frames of the stack lie. -/
theorem currentTask_congr (order : VisitingOrder) (loop : LoopId)
    {first second : List WalkedFrame} (same : first.map (·.place) = second.map (·.place)) :
    graph.currentTask order loop states first = graph.currentTask order loop states second := by
  have onStack : isReadOnStack states first = isReadOnStack states second := by
    funext task
    rw [isReadOnStack, isReadOnStack, isOnStack_congr same]
  rw [currentTask, currentTask, onStack]

/-- How many frames are the running task's depends only on where they lie. -/
theorem runningDepth_congr {first second : List WalkedFrame}
    (same : first.map (·.place) = second.map (·.place)) :
    runningDepth states running first = runningDepth states running second := by
  have placed : ∀ (physical : List WalkedFrame) (place : Address),
      physical.findIdx? (·.place == place) = (physical.map (·.place)).findIdx? (· == place) := by
    intro physical place
    rw [List.findIdx?_map]
    rfl
  rw [runningDepth, runningDepth]
  cases (running.bind (states[·]?)).bind (·.coroutine.head?) with
  | none => rfl
  | some outer => simp only [placed, same]

theorem map_append_drop {depth : Nat} {walked other : List WalkedFrame}
    (same : other.map (·.place) = (walked.take depth).map (·.place)) :
    (other ++ walked.drop depth).map (·.place) = walked.map (·.place) := by
  rw [List.map_append, same, ← List.map_append, List.take_append_drop]

/-- What is put in the place of the first part of a stack is its first part. -/
theorem divide_append_drop {depth : Nat} {walked other : List WalkedFrame}
    (same : other.length = (walked.take depth).length) :
    (other ++ walked.drop depth).take depth = other ∧
      (other ++ walked.drop depth).drop depth = walked.drop depth := by
  rw [List.length_take] at same
  rcases Nat.le_total depth walked.length with inside | beyond
  · rw [Nat.min_eq_left inside] at same
    exact ⟨List.take_left' same, List.drop_left' same⟩
  · rw [Nat.min_eq_right beyond] at same
    rw [List.drop_eq_nil_of_le beyond, List.append_nil]
    exact ⟨List.take_of_length_le (same ▸ beyond), List.drop_eq_nil_of_le (same ▸ beyond)⟩

/-! ### The stacks of a loop -/

section

variable {settled : TaskGraph} {order : VisitingOrder} {view : LoopView}

theorem chainsOf_eq_nil_iff (agrees : view.Agrees settled) (lawful : order.Lawful) :
    settled.chainsOf order view = [] ↔ ∀ leaf, ¬ view.IsLeaf leaf := by
  rw [chainsOf, List.map_eq_nil_iff, List.eq_nil_iff_forall_not_mem]
  exact forall_congr' fun leaf => not_congr (agrees.mem_leaves lawful)

/-- From each leaf a chain starts. -/
theorem exists_chain_of_isLeaf (agrees : view.Agrees settled) (lawful : order.Lawful)
    {task : TaskId} (isLeaf : view.IsLeaf task) :
    ∃ rest, (task, task :: rest) ∈ settled.chainsOf order view := by
  have starts : ∃ rest,
      settled.chainOf view.states (waitersOf order view.states) view.running task =
        task :: rest :=
    exists_chainFrom_eq_cons view.states.size [] task
  rcases starts with ⟨rest, starts⟩
  refine ⟨rest, List.mem_map.mpr ⟨task, (agrees.mem_leaves lawful).mpr isLeaf, ?_⟩⟩
  rw [starts]

/-- The running task stands in no chain unless it is a leaf. -/
theorem running_not_mem_chainsOf (agrees : view.Agrees settled) (lawful : order.Lawful)
    (noLeaf : ∀ task, view.running = some task → ¬ view.IsLeaf task) :
    ∀ chain ∈ settled.chainsOf order view, ∀ task ∈ chain.2, some task ≠ view.running := by
  intro chain mem
  rcases List.mem_map.mp mem with ⟨leaf, among, rfl⟩
  apply running_not_mem_chainFrom
  intro runs
  exact noLeaf leaf runs.symm ((agrees.mem_leaves lawful).mp among)

/-- There are stacks if there is a leaf. -/
theorem stacksIn_isEmpty_iff (agrees : view.Agrees settled) (lawful : order.Lawful)
    (interpreter : Interpreter σ) (physical : List WalkedFrame) :
    Always (settled.stacksIn order interpreter view physical) fun stackList =>
      stackList.isEmpty = true ↔ ∀ leaf, ¬ view.IsLeaf leaf := by
  intro before
  rw [List.isEmpty_iff, ← List.map_eq_nil_iff, stacksIn_tasks, List.map_eq_nil_iff,
    ← chainsOf_eq_nil_iff agrees lawful, chainsOf, List.map_eq_nil_iff]

/-- The walk is held by the stack of the running task if that is a leaf. -/
theorem stacksIn_hold (agrees : view.Agrees settled) (lawful : order.Lawful)
    (interpreter : Interpreter σ) (physical : List WalkedFrame) {task : TaskId}
    (runs : view.running = some task) (isLeaf : view.IsLeaf task) :
    Always (settled.stacksIn order interpreter view physical) fun stackList =>
      Holds stackList physical := by
  rcases exists_chain_of_isLeaf agrees lawful isLeaf with ⟨rest, among⟩
  refine (chainStacks_hold _ _ runs among).imp fun stackList holds => ?_
  rw [List.take_append_drop] at holds
  exact holds

/-- Each stack ends with the part of the walk that is of the loop. -/
theorem stacksIn_end (settled : TaskGraph) (order : VisitingOrder) (interpreter : Interpreter σ)
    (view : LoopView) (physical : List WalkedFrame) :
    Always (settled.stacksIn order interpreter view physical) fun stackList =>
      ∀ stack ∈ stackList,
        (physical.drop (runningDepth view.states view.running physical)).map (·.frame) <:+
          stack.frames :=
  chainStacks_end _ _ _

/-- Without a running task all of the walk is of the loop, so that every stack holds it. -/
theorem stacksIn_hold_of_idle (settled : TaskGraph) (order : VisitingOrder)
    (interpreter : Interpreter σ) {view : LoopView} (idle : view.running = none)
    (physical : List WalkedFrame) :
    Always (settled.stacksIn order interpreter view physical) fun stackList =>
      stackList ≠ [] → Holds stackList physical := by
  refine (stacksIn_end settled order interpreter view physical).imp fun stackList ends filled => ?_
  have whole : runningDepth view.states view.running physical = 0 := by
    rw [idle]
    rfl
  rw [whole, List.drop_zero] at ends
  rcases List.exists_mem_of_ne_nil stackList filled with ⟨stack, mem⟩
  exact ⟨stack, mem, (ends stack mem).sublist⟩

/-- Where the running task is passed over, its frames make no difference to the stacks. -/
theorem stacksIn_congr (agrees : view.Agrees settled) (lawful : order.Lawful)
    (interpreter : Interpreter σ)
    (noLeaf : ∀ task, view.running = some task → ¬ view.IsLeaf task)
    {walked other : List WalkedFrame}
    (same : other.map (·.place) =
      (walked.take (runningDepth view.states view.running walked)).map (·.place)) :
    settled.stacksIn order interpreter view
        (other ++ walked.drop (runningDepth view.states view.running walked)) =
      settled.stacksIn order interpreter view walked := by
  have sameLength := congrArg List.length same
  rw [List.length_map, List.length_map] at sameLength
  rcases divide_append_drop sameLength with ⟨inner, outer⟩
  rw [stacksIn, stacksIn, runningDepth_congr (map_append_drop same), inner, outer]
  exact chainStacks_congr _ _ _ (running_not_mem_chainsOf agrees lawful noLeaf)

end

/--
The running task of a loop waits for another one, by a link or directly, so no chain starts from it.
And no chain is led on to it, since it does not stand suspended behind another task.
-/
def LoopView.IsPassedOver (view : LoopView) : Prop :=
  (∃ leaf, view.IsLeaf leaf) ∧ ∃ task, view.running = some task ∧ ¬ view.IsLeaf task

/-- Other frames at the places of the running task's are just as much its own. -/
theorem viewOf_congr (order : VisitingOrder) (loop : LoopId)
    (answers : List (TaskId × Except ReadFault TaskState)) {first second : List WalkedFrame}
    (same : first.map (·.place) = second.map (·.place)) :
    graph.viewOf order loop answers first = graph.viewOf order loop answers second := by
  rw [viewOf, viewOf, currentTask_congr order loop same]

/-- The frames of the running task stand in no stack, and those of the loop in each of them. -/
structure LeavesOut (graph : TaskGraph) (order : VisitingOrder) (interpreter : Interpreter σ)
    (thread : ThreadId) (walked : List WalkedFrame) (before : Observation σ)
    (rendered : (List Stack × TaskGraph) × Observation σ) where
  loop : LoopId
  inner : List WalkedFrame
  outer : List WalkedFrame
  view : LoopView
  hosted : graph.loopOf? thread = some loop
  isView : graph.viewOf order loop
    (graph.answersOn order interpreter loop before.subject).1 walked = view
  passedOver : view.IsPassedOver
  divides : view.Divides walked inner outer
  /-- Each stack ends with the frames of the loop. -/
  loopShown : ∀ stack ∈ rendered.1.1, outer.map (·.frame) <:+ stack.frames
  /-- Whatever frames the running task has at these places, the stacks are the same. -/
  innerUnseen : ∀ other : List WalkedFrame, other.map (·.place) = inner.map (·.place) →
    (graph.renderIn order interpreter thread (other ++ outer)).run before = rendered

/-- Where the running task is passed over, its frames are left out. -/
theorem LoopView.IsPassedOver.leavesOut {order : VisitingOrder} (lawful : order.Lawful)
    {thread : ThreadId} {loop : LoopId} (hosted : graph.loopOf? thread = some loop)
    {before after : Observation σ} {answers : List (TaskId × Except ReadFault TaskState)}
    {subject : σ}
    (asked : graph.answersOn order interpreter loop before.subject = (answers, subject))
    {view : LoopView} {walked : List WalkedFrame}
    (isView : graph.viewOf order loop answers walked = view)
    (agrees : view.Agrees (graph.settle answers)) {stackList : List Stack}
    (shown : ((graph.settle answers).stacksIn order interpreter view walked).run
      { before with subject := subject } = (stackList, after))
    (filled : ¬ stackList.isEmpty = true) (passedOver : view.IsPassedOver) :
    Nonempty (graph.LeavesOut order interpreter thread walked before
      ((graph.renderIn order interpreter thread walked).run before)) := by
  rcases passedOver with ⟨some_, task, runs, waits⟩
  have noLeaf : ∀ other, view.running = some other → ¬ view.IsLeaf other := by
    intro other isOther
    rw [runs] at isOther
    cases isOther
    exact waits
  have divides := view.divides_splitAt walked
  rw [List.splitAt_eq] at divides
  have ends := stacksIn_end (graph.settle answers) order interpreter view walked
    { before with subject := subject }
  rw [shown] at ends
  rw [renderIn_run_of_hosted hosted asked isView shown, if_neg filled]
  refine ⟨loop, _, _, view, hosted, ?_, ⟨some_, task, runs, waits⟩, divides, ends, ?_⟩
  · rw [asked]
    exact isView
  · intro other same
    have samePlaces : (other ++ walked.drop _).map (·.place) = walked.map (·.place) :=
      map_append_drop same
    have sameView := (viewOf_congr order loop answers samePlaces).trans isView
    have sameStacks := congrArg (StateT.run · { before with subject := subject })
      (stacksIn_congr agrees lawful interpreter noLeaf same)
    rw [renderIn_run_of_hosted hosted asked sameView (sameStacks.trans shown), if_neg filled]

/--
The frames of a thread's own stack stand in one of the stacks for its tasks, in their order, unless
the running task is passed over.
-/
theorem renderIn_keeps_walk (reachable : graph.Reachable) {order : VisitingOrder}
    (lawful : order.Lawful) (interpreter : Interpreter σ) (thread : ThreadId)
    (walked : List WalkedFrame) (before : Observation σ) :
    Holds ((graph.renderIn order interpreter thread walked).run before).1.1 walked ∨
      Nonempty (graph.LeavesOut order interpreter thread walked before
        ((graph.renderIn order interpreter thread walked).run before)) := by
  cases hosted : graph.loopOf? thread with
  | none =>
      left
      rw [renderIn, hosted]
      exact holds_physical walked
  | some loop =>
      rcases asked : graph.answersOn order interpreter loop before.subject with ⟨answers, subject⟩
      have distinct : (answers.map Prod.fst).Nodup := by
        have tasks := answersOn_tasks graph order interpreter loop before.subject
        rw [asked] at tasks
        rw [tasks]
        exact nodup_candidates graph lawful loop
      generalize isView : graph.viewOf order loop answers walked = view
      have agrees : view.Agrees (graph.settle answers) :=
        isView ▸ viewOf_agrees reachable.consistent distinct
      let middle : Observation σ := { before with subject := subject }
      rcases shown : ((graph.settle answers).stacksIn order interpreter view walked).run middle with
        ⟨stackList, after⟩
      have empty := stacksIn_isEmpty_iff agrees lawful interpreter walked middle
      rw [shown] at empty
      by_cases some_ : ∃ leaf, view.IsLeaf leaf
      case neg =>
        left
        rw [renderIn_run_of_hosted hosted asked isView shown,
          if_pos (empty.mpr (not_exists.mp some_))]
        exact holds_physical walked
      have filled : ¬ stackList.isEmpty = true := fun nothing => some_.elim (empty.mp nothing)
      by_cases passedOver : view.IsPassedOver
      case pos =>
        exact .inr (passedOver.leavesOut lawful hosted asked isView agrees shown filled)
      left
      rw [renderIn_run_of_hosted hosted asked isView shown, if_neg filled]
      cases runs : view.running with
      | none =>
          have holds := stacksIn_hold_of_idle (graph.settle answers) order interpreter runs walked
            middle
          rw [shown] at holds
          exact holds (mt List.isEmpty_iff.mpr filled)
      | some task =>
          have isLeaf : view.IsLeaf task :=
            Classical.byContradiction fun waits => passedOver ⟨some_, task, runs, waits⟩
          have holds := stacksIn_hold agrees lawful interpreter walked runs isLeaf middle
          rw [shown] at holds
          exact holds

end TaskGraph

/-! ## Captures -/

namespace Population

variable {σ : Type} {population : Population} {thread : ThreadId}

/-- The stacks of a thread that was walked, with the tasks gone through in some order. -/
def renderWalkedIn (order : TaskGraph.VisitingOrder) (host : Host σ) (population : Population)
    (thread : ThreadId) (walked : List WalkedFrame) : Observing σ (List Stack × TaskGraph) := do
  match ← population.greenlets.render host.interpreter thread walked with
  | some stackList => pure (stackList, population.tasks)
  | none => population.tasks.renderIn order host.interpreter thread walked

/-- A capture without native frames, with the tasks gone through in some order. -/
def captureThreadIn (order : TaskGraph.VisitingOrder) (host : Host σ) (population : Population)
    (thread : ThreadId) : Observing σ (Except CaptureError (List Stack) × TaskGraph) := do
  match ← (Walking.walk host.interpreter thread).run with
  | .error error => pure (.error error, population.tasks)
  | .ok walked =>
      let (stackList, tasks) ← renderWalkedIn order host population thread walked
      pure (.ok stackList, tasks)

theorem captureThread_eq_captureThreadIn (host : Host σ) (population : Population)
    (thread : ThreadId) :
    population.captureThread host none thread =
      population.captureThreadIn .ascending host thread :=
  rfl

/-- A capture that gives stacks has walked the thread, and gives the stacks of that walk. -/
theorem exists_walk_of_captured {order : TaskGraph.VisitingOrder} {host : Host σ}
    {before after : Observation σ} {stackList : List Stack} {learned : TaskGraph}
    (captured : (population.captureThreadIn order host thread).run before =
      ((.ok stackList, learned), after)) :
    ∃ walked middle,
      (Walking.walk host.interpreter thread).run.run before = (.ok walked, middle) ∧
        (population.renderWalkedIn order host thread walked).run middle =
          ((stackList, learned), after) := by
  rw [captureThreadIn, StateT.run_bind] at captured
  rcases walk : (Walking.walk host.interpreter thread).run.run before with ⟨walked, middle⟩
  rw [walk] at captured
  cases walked with
  | error error => cases captured
  | ok walked =>
      refine ⟨walked, middle, rfl, ?_⟩
      change ((Except.ok ((renderWalkedIn order host population thread walked).run middle).1.1, _),
        _) = _ at captured
      rw [Prod.mk.injEq, Prod.mk.injEq, Except.ok.injEq] at captured
      rcases captured with ⟨⟨rfl, rfl⟩, rfl⟩
      rfl

/--
When a capture gives stacks, the thread was walked.  All frames of the walk stand in one of the
stacks, in their order, if the thread runs a greenlet on a line that is shown, and also if no
greenlet is shown, unless the running task is passed over: then the frames of that task are left
out, and those of the loop end each stack.
-/
theorem captureThreadIn_keeps_walk (reachable : population.tasks.Reachable)
    {order : TaskGraph.VisitingOrder} (lawful : order.Lawful) (host : Host σ)
    {before after : Observation σ} {stackList : List Stack} {learned : TaskGraph}
    (captured : (population.captureThreadIn order host thread).run before =
      ((.ok stackList, learned), after)) :
    ∃ walked middle,
      (Walking.walk host.interpreter thread).run.run before = (.ok walked, middle) ∧
        (population.greenlets.RunsOnLine thread → Holds stackList walked) ∧
        (population.greenlets.shown thread = [] →
          Holds stackList walked ∨
            Nonempty (population.tasks.LeavesOut order host.interpreter thread walked middle
              ((stackList, learned), after))) := by
  rcases exists_walk_of_captured captured with ⟨walked, middle, walk, rendered⟩
  refine ⟨walked, middle, walk, ?_, ?_⟩
  · intro runs
    have holds := GreenletTable.render_holds host.interpreter walked runs middle
    rw [renderWalkedIn, StateT.run_bind] at rendered
    rcases shows : (population.greenlets.render host.interpreter thread walked).run middle with
      ⟨found, later⟩
    rw [shows] at holds rendered
    rcases holds with ⟨shown, isShown, holds⟩
    cases isShown
    cases rendered
    exact holds
  · intro none_
    rw [renderWalkedIn, GreenletTable.render_of_shown_eq_nil none_, pure_bind] at rendered
    rw [← rendered]
    have keeps := TaskGraph.renderIn_keeps_walk reachable lawful host.interpreter thread walked
      middle
    rw [rendered] at keeps ⊢
    exact keeps

/-- A frame of the walk of a thread stands in none of the stacks of its capture. -/
def DropsFrame (host : Host σ) (population : Population) (thread : ThreadId)
    (before : Observation σ) : Prop :=
  ∃ walked stackList frame,
    ((Walking.walk host.interpreter thread).run.run before).1 = .ok walked ∧
      ((population.captureThread host none thread).run before).1.1 = .ok stackList ∧
      frame ∈ walked ∧ ∀ stack ∈ stackList, frame.frame ∉ stack.frames

/-- An interpreter in tables, and no native frames. -/
def tablesHost : Host Tables where
  interpreter := Tables.interpreter
  cpuClock _ := pure none
  nativeStack _ := pure .silent
  symbol? _ := none

/-- A thread in a loop, where a task has started another one and works on. -/
def atWork : Observation Tables where
  walker := .new ⟨3, 11⟩ 64
  subject :=
    (({} : Tables).putStack 0x1000 [⟨"run", "loop.py", 8⟩, ⟨"work", "main.py", 3⟩] (some 1)
      |>.putTask 1 { coroutine := [0x1020] }).putTask 2 {}

/-- The task that works is linked to the one that it has started. -/
def workingTask : Population where
  tasks := ((({} : TaskGraph).registerLoop 1 7).create ⟨1, 7, "main"⟩).link 1 2 |>.enter 7 1

/-- The task that works has started no other one. -/
def loneTask : Population where
  tasks := (({} : TaskGraph).registerLoop 1 7).create ⟨1, 7, "main"⟩ |>.enter 7 1

/-- A greenlet works. -/
def busyGreenlet : Population where
  greenlets := (({} : GreenletTable).track 16 1 "hub" none).switch 1 16

/-- The greenlet that works was taken back, and another one keeps a frame. -/
def strayGreenlet : Population where
  greenlets := ((({} : GreenletTable).track 16 1 "hub" none).track 32 1 "idle" (some 0x2000)
    |>.switch 1 16).untrack 16

/-- The stack of the task that was started. -/
def startedStack : Stack :=
  ⟨some 2, false, [.taskBoundary "Task-0x2", .interpreted "run" "loop.py" 8]⟩

/-- The frame in which the thread works. -/
def workFrame : WalkedFrame :=
  ⟨0x1020, .interpreted "work" "main.py" 3, false⟩

/-- The frame of the loop. -/
def loopFrame : WalkedFrame :=
  ⟨0x1000, .interpreted "run" "loop.py" 8, true⟩

/-- The stack of the task that works. -/
def loneStack : Stack :=
  ⟨some 1, true, [workFrame.frame, .taskBoundary "main", loopFrame.frame]⟩

/-- The stack of the greenlet. -/
def greenletStack : Stack :=
  ⟨some 16, true, [workFrame.frame, loopFrame.frame, .taskBoundary "hub"]⟩

theorem workingTask_reachable : workingTask.tasks.Reachable :=
  Relation.ReflTransGen.refl
    |>.tail (.registerLoop 1 7)
    |>.tail (.create ⟨1, 7, "main"⟩)
    |>.tail (.link 1 2)
    |>.tail (.enter 7 1)

theorem loneTask_reachable : loneTask.tasks.Reachable :=
  Relation.ReflTransGen.refl
    |>.tail (.registerLoop 1 7)
    |>.tail (.create ⟨1, 7, "main"⟩)
    |>.tail (.enter 7 1)

theorem strayGreenlet_reachable : strayGreenlet.greenlets.Reachable :=
  .untrack (.switch (.track (.track .empty 16 1 "hub" none) 32 1 "idle" (some 0x2000)) 1 16) 16

theorem noGreenlet_shown : ({} : GreenletTable).shown 1 = [] := by
  decide +kernel

theorem busyGreenlet_reachable : busyGreenlet.tasks.Reachable :=
  Relation.ReflTransGen.refl

theorem busyGreenlet_runsOnLine : busyGreenlet.greenlets.RunsOnLine 1 :=
  ⟨16, by decide +kernel, 16, by decide +kernel, by decide +kernel⟩

theorem walk_atWork :
    ((Walking.walk tablesHost.interpreter 1).run.run atWork).1 = .ok [workFrame, loopFrame] := by
  decide +kernel

theorem captureThread_workingTask :
    ((workingTask.captureThread tablesHost none 1).run atWork).1.1 = .ok [startedStack] := by
  decide +kernel

theorem captureThread_loneTask :
    ((loneTask.captureThread tablesHost none 1).run atWork).1.1 = .ok [loneStack] := by
  decide +kernel

theorem captureThread_busyGreenlet :
    ((busyGreenlet.captureThread tablesHost none 1).run atWork).1.1 = .ok [greenletStack] := by
  decide +kernel

/-- What a capture in ascending order gives is what a capture gives. -/
theorem captured_atWork {population : Population} {stackList : List Stack}
    (gives : ((population.captureThread tablesHost none 1).run atWork).1.1 = .ok stackList) :
    ∃ learned after, (population.captureThreadIn .ascending tablesHost 1).run atWork =
      ((.ok stackList, learned), after) := by
  rw [captureThread_eq_captureThreadIn] at gives
  exact ⟨_, _, Prod.ext (Prod.ext gives rfl) rfl⟩

/-- The frames of this thread's walk, whatever the walker keeps of it. -/
theorem walked_atWork {walked : List WalkedFrame} {middle : Observation Tables}
    (walk : (Walking.walk tablesHost.interpreter 1).run.run atWork = (.ok walked, middle)) :
    walked = [workFrame, loopFrame] :=
  Except.ok.inj ((congrArg Prod.fst walk).symm.trans walk_atWork)

/--
The frames of the walk are left out behind a task that works and waits for another one, and kept
where it waits for none.  They are kept too where a greenlet works.
-/
theorem captureThreadIn_keeps_walk_atWork :
    (workingTask.tasks.Reachable ∧ workingTask.greenlets.shown 1 = [] ∧
      ∃ learned after walked middle,
        (workingTask.captureThreadIn .ascending tablesHost 1).run atWork =
            ((.ok [startedStack], learned), after) ∧
          (Walking.walk tablesHost.interpreter 1).run.run atWork = (.ok walked, middle) ∧
          ¬ Holds [startedStack] walked ∧
          Nonempty (workingTask.tasks.LeavesOut .ascending tablesHost.interpreter 1 walked middle
            (([startedStack], learned), after))) ∧
    (loneTask.tasks.Reachable ∧ loneTask.greenlets.shown 1 = [] ∧
      ∃ learned after walked middle,
        (loneTask.captureThreadIn .ascending tablesHost 1).run atWork =
            ((.ok [loneStack], learned), after) ∧
          (Walking.walk tablesHost.interpreter 1).run.run atWork = (.ok walked, middle) ∧
          Holds [loneStack] walked) ∧
    (busyGreenlet.tasks.Reachable ∧ busyGreenlet.greenlets.RunsOnLine 1 ∧
      ∃ learned after walked middle,
        (busyGreenlet.captureThreadIn .ascending tablesHost 1).run atWork =
            ((.ok [greenletStack], learned), after) ∧
          (Walking.walk tablesHost.interpreter 1).run.run atWork = (.ok walked, middle) ∧
          Holds [greenletStack] walked) := by
  refine ⟨?leftOut, ?keptBehindTask, ?keptBehindGreenlet⟩
  case leftOut =>
    rcases captured_atWork captureThread_workingTask with ⟨learned, after, captured⟩
    rcases captureThreadIn_keeps_walk workingTask_reachable TaskGraph.ascending_lawful tablesHost
      captured with ⟨walked, middle, walk, -, keeps⟩
    have dropped : ¬ Holds [startedStack] walked := by
      rw [walked_atWork walk]
      rintro ⟨stack, among, within⟩
      cases List.mem_singleton.mp among
      exact absurd within (by decide)
    exact ⟨workingTask_reachable, noGreenlet_shown, learned, after, walked, middle, captured, walk,
      dropped, (keeps noGreenlet_shown).resolve_left dropped⟩
  case keptBehindTask =>
    rcases captured_atWork captureThread_loneTask with ⟨learned, after, captured⟩
    rcases captureThreadIn_keeps_walk loneTask_reachable TaskGraph.ascending_lawful tablesHost
      captured with ⟨walked, middle, walk, -, -⟩
    have kept : Holds [loneStack] walked := by
      rw [walked_atWork walk]
      exact ⟨loneStack, List.mem_singleton_self _, by decide⟩
    exact ⟨loneTask_reachable, noGreenlet_shown, learned, after, walked, middle, captured, walk,
      kept⟩
  case keptBehindGreenlet =>
    rcases captured_atWork captureThread_busyGreenlet with ⟨learned, after, captured⟩
    rcases captureThreadIn_keeps_walk busyGreenlet_reachable TaskGraph.ascending_lawful tablesHost
      captured with ⟨walked, middle, walk, keeps, -⟩
    exact ⟨busyGreenlet_reachable, busyGreenlet_runsOnLine, learned, after, walked, middle,
      captured, walk, keeps busyGreenlet_runsOnLine⟩

/-- The thread's own stack can be lost in part behind a task, and as a whole behind a greenlet. -/
theorem not_captureThread_keeps_walk :
    (workingTask.tasks.Reachable ∧ workingTask.greenlets.Reachable ∧
      workingTask.DropsFrame tablesHost 1 atWork) ∧
    (strayGreenlet.tasks.Reachable ∧ strayGreenlet.greenlets.Reachable ∧
      strayGreenlet.DropsFrame tablesHost 1 atWork) := by
  have idle : ((strayGreenlet.captureThread tablesHost none 1).run atWork).1.1 =
      .ok [⟨some 32, false, [.taskBoundary "idle"]⟩] := by
    decide +kernel
  constructor
  · refine ⟨workingTask_reachable, .empty, _, _, workFrame, walk_atWork,
      captureThread_workingTask, List.mem_cons_self .., ?_⟩
    decide
  · refine ⟨.refl, strayGreenlet_reachable, _, _, workFrame, walk_atWork, idle,
      List.mem_cons_self .., ?_⟩
    decide

end Population

end StackSampler
