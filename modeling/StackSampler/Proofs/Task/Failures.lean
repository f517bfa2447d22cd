import Mathlib.Data.List.Chain
import StackSampler.Proofs.Task.Lasting

/-!
# When a task is given up

A task that cannot be read is given up after a few failures in a row.  They are counted by readings,
and a reading is made whenever a loop is shown that the task may run on.  `readingsOf` lists the
readings that a run has made of a task, each with the cycle it fell into; while a task is live, the
number that its node notes is that of the failed readings at the end of the list.
-/

namespace StackSampler.TaskGraph

variable {graph : TaskGraph} {task : TaskId} {operation : Operation}
  {operations before earlier recent : List Operation}

/-! ## Readings -/

/-- What the interpreter was heard to answer about a task, in which cycle. -/
structure Reading where
  cycle : Nat
  answer : Except ReadFault TaskState

/-- The task could not be read. -/
def Reading.Failed (reading : Reading) : Prop :=
  ∃ fault, reading.answer = .error fault

/-- The answer about a task that an operation asks for. -/
def Operation.answer? (graph : TaskGraph) (task : TaskId) :
    Operation → Option (Except ReadFault TaskState)
  | .render order _ interpreter thread _ observation =>
      (graph.loopOf? thread).bind fun loop =>
        (graph.answersOn order interpreter loop observation.subject).1.lookup task
  | _ => none

/-- The reading of a task that an operation makes, if it makes one. -/
def Operation.reading? (graph : TaskGraph) (task : TaskId) (operation : Operation) :
    Option Reading :=
  (operation.answer? graph task).map (⟨graph.cycle, ·⟩)

/-- The readings of a task that are made from a graph on. -/
def readingsOf (task : TaskId) : TaskGraph → List Operation → List Reading
  | _, [] => []
  | graph, operation :: rest =>
      (operation.reading? graph task).toList ++ readingsOf task (graph.after operation) rest

theorem readingsOf_append (graph : TaskGraph) (earlier recent : List Operation) :
    readingsOf task graph (earlier ++ recent) =
      readingsOf task graph earlier ++ readingsOf task (earlier.foldl after graph) recent := by
  induction earlier generalizing graph with
  | nil => rfl
  | cons first rest induction =>
      rw [List.cons_append, readingsOf, induction, readingsOf, List.append_assoc]
      rfl

theorem readingsOf_concat (graph : TaskGraph) (operations : List Operation)
    (operation : Operation) :
    readingsOf task graph (operations ++ [operation]) =
      readingsOf task graph operations ++
        (operation.reading? (operations.foldl after graph) task).toList := by
  rw [readingsOf_append, readingsOf, readingsOf, List.append_nil]

/-! ## One operation -/

/-- The failed readings in a row, after one more answer if there is one. -/
def failuresWith (failures : Nat) : Option (Except ReadFault TaskState) → Nat
  | none => failures
  | some (.ok _) => 0
  | some (.error _) => failures + 1

/-- No operation of a run completes a task. -/
def Spares (task : TaskId) : TaskGraph → List Operation → Prop
  | _, [] => True
  | graph, operation :: rest =>
      ¬ operation.Completes graph task ∧ Spares task (graph.after operation) rest

namespace Consistent

variable (consistent : graph.Consistent)

include consistent

theorem failures_complete (other : TaskId) :
    (graph.complete other).nodes[task]?.map (·.failures) =
      graph.nodes[task]?.map (·.failures) := by
  rw [consistent.getElem?_complete]
  split <;> rw [Option.map_map] <;> rfl

theorem failures_settle {answers : List (TaskId × Except ReadFault TaskState)}
    (distinct : (answers.map Prod.fst).Nodup) (goesOn : task ∉ graph.endedBy answers) :
    (graph.settle answers).nodes[task]?.map (·.failures) =
      graph.nodes[task]?.map fun node => failuresWith node.failures (answers.lookup task) := by
  rw [consistent.getElem?_settle_of_lookup distinct, Option.map_map,
    TaskNode.outliving_of_not_mem goesOn]
  apply congrArg fun change => graph.nodes[task]?.map change
  funext node
  cases looked : answers.lookup task with
  | none => rfl
  | some answer =>
      cases answer with
      | error fault => rfl
      | ok state =>
          have pending : state.done ≠ true := by
            intro ended
            apply goesOn
            rw [mem_endedBy_iff distinct]
            exact .inl ⟨state, (lookup_eq_some_iff distinct).mp looked, ended⟩
          simp only [Function.comp_apply, TaskNode.told, if_neg pending]
          rfl

theorem failures_of_naming (live : graph.Live task) (naming : operation.IsNaming) :
    (graph.after operation).nodes[task]?.map (·.failures) =
      graph.nodes[task]?.map (·.failures) := by
  have same := ((consistent.carries_after naming).standing task).resolve_right
    fun ended => ended.1 live
  have failures := congrArg (Option.map Standing.failures) same
  rw [standing?, standing?, Option.map_map, Option.map_map] at failures
  exact failures

/-- An operation counts its reading of a task that it leaves live. -/
theorem failures_after {node : TaskNode} (found : graph.nodes[task]? = some node)
    (pending : node.completed = false) (goesOn : ¬ operation.Completes graph task) :
    (graph.after operation).nodes[task]?.map (·.failures) =
      some (failuresWith node.failures (operation.answer? graph task)) := by
  have kept : graph.nodes[task]?.map (·.failures) = some node.failures := by
    rw [found, Option.map_some]
  cases operation with
  | complete done => exact (consistent.failures_complete done).trans kept
  | render order lawful interpreter thread physical observation =>
      rw [TaskGraph.after, Operation.answer?]
      cases hosted : graph.loopOf? thread with
      | none =>
          rw [renderIn_of_unhosted hosted]
          exact kept
      | some loop =>
          have distinct := nodup_answersOn graph lawful interpreter loop observation.subject
          have survives : task ∉ graph.endedBy
              (graph.answersOn order interpreter loop observation.subject).1 := by
            rw [mem_endedBy_answersOn lawful]
            exact fun ended => goesOn ⟨loop, hosted, ended⟩
          have settled := consistent.failures_settle distinct survives
          rw [found] at settled
          rw [renderIn_of_hosted hosted]
          refine Eq.trans ?_ settled
          apply map_getElem?_foldl_modify (·.failures) _ id
          intro shown other
          rfl
  | prune =>
      rw [TaskGraph.after, TaskGraph.prune, Std.ExtTreeMap.getElem?_filter', found]
      simp [pending, failuresWith, Operation.answer?]
  | _ =>
      refine (consistent.failures_of_naming ⟨node, found, pending⟩ ?_).trans kept
      exact trivial

/-- A task becomes live in no other way than by being named. -/
theorem isNaming_of_live (dead : ¬ graph.Live task) (live : (graph.after operation).Live task) :
    operation.IsNaming := by
  have settled : ∀ answers, ¬ (graph.settle answers).Live task := by
    intro answers now
    rw [live_iff, consistent.mem_nodes_settle, consistent.completed_settle, not_or] at now
    exact dead (live_iff.mpr ⟨now.1, now.2.1⟩)
  cases operation with
  | complete done =>
      rw [TaskGraph.after, live_iff, consistent.mem_nodes_complete,
        consistent.completed_complete, not_or] at live
      exact dead (live_iff.mpr ⟨live.1, live.2.1⟩)
  | render order lawful interpreter thread physical observation =>
      rw [TaskGraph.after] at live
      cases hosted : graph.loopOf? thread with
      | none =>
          rw [renderIn_of_unhosted hosted] at live
          exact dead live
      | some loop =>
          rw [renderIn_of_hosted hosted] at live
          exact settled _ (((markShown_sameTies _ _).exists_node_iff task
            (·.completed = false)).mp live)
  | prune =>
      rcases live with ⟨node, found, pending⟩
      exact dead ⟨node, getElem?_of_prune found, pending⟩
  | _ => exact trivial

/-- A task that has just become live has not failed to be read. -/
theorem failures_of_new (dead : ¬ graph.Live task) {node : TaskNode}
    (found : (graph.after operation).nodes[task]? = some node) (pending : node.completed = false) :
    node.failures = 0 := by
  have live : (graph.after operation).Live task := ⟨node, found, pending⟩
  have carries := consistent.carries_after (consistent.isNaming_of_live dead live)
  rcases carries.standing task with same | ⟨_, isNew⟩
  · rw [live_iff_standing, same, ← live_iff_standing] at live
    exact absurd live dead
  · have now : (graph.after operation).standing? task = some node.standing := by
      rw [standing?, found, Option.map_some]
    rcases isNew node.standing now with ⟨place, _, same⟩
    exact congrArg Standing.failures same

theorem live_foldl_after (live : graph.Live task) (spared : Spares task graph operations) :
    (operations.foldl TaskGraph.after graph).Live task := by
  induction operations generalizing graph with
  | nil => exact live
  | cons operation rest induction =>
      exact induction (consistent.after operation)
        ((consistent.live_after_iff live operation).mpr spared.1) spared.2

end Consistent

/-! ## The last readings of a run -/

theorem spares_concat (graph : TaskGraph) (operations : List Operation) (operation : Operation) :
    Spares task graph (operations ++ [operation]) ↔
      Spares task graph operations ∧
        ¬ operation.Completes (operations.foldl after graph) task := by
  induction operations generalizing graph with
  | nil => simp [Spares]
  | cons first rest induction =>
      rw [List.cons_append, Spares, induction, Spares, and_assoc]
      rfl

/-- A task was live at one point of a run, and no operation since has completed it. -/
def LiveSince (task : TaskId) (earlier recent : List Operation) : Prop :=
  (run earlier).Live task ∧ Spares task (run earlier) recent

theorem liveSince_concat :
    LiveSince task earlier (recent ++ [operation]) ↔
      LiveSince task earlier recent ∧ ¬ operation.Completes (run (earlier ++ recent)) task := by
  rw [LiveSince, spares_concat, ← and_assoc, run_append]
  rfl

theorem LiveSince.live (since : LiveSince task earlier recent) :
    (run (earlier ++ recent)).Live task := by
  rw [run_append]
  exact (consistent_run earlier).live_foldl_after since.1 since.2

/-- So many readings of a task at the end of a run, all made while it was live, have failed. -/
def LastFailed (count : Nat) (task : TaskId) (before : List Operation) : Prop :=
  ∃ earlier recent, before = earlier ++ recent ∧ LiveSince task earlier recent ∧
    (readingsOf task (run earlier) recent).length = count ∧
    ∀ reading ∈ readingsOf task (run earlier) recent, reading.Failed

theorem lastFailed_zero (live : (run before).Live task) : LastFailed 0 task before :=
  ⟨before, [], (List.append_nil before).symm, ⟨live, trivial⟩, rfl, fun _ => nofun⟩

/-- The end of a run is empty, or it ends with the last operation of the run. -/
theorem recent_eq_nil_or_concat (same : before ++ [operation] = earlier ++ recent) :
    recent = [] ∨ ∃ rest, before = earlier ++ rest ∧ recent = rest ++ [operation] := by
  rcases List.eq_nil_or_concat recent with rfl | ⟨rest, last, rfl⟩
  · exact .inl rfl
  · rw [List.concat_eq_append, ← List.append_assoc] at same
    rcases List.append_singleton_inj.mp same with ⟨split, rfl⟩
    exact .inr ⟨rest, split, List.concat_eq_append⟩

/-- Readings that end a run are those that ended it before, and the one that was made last. -/
theorem lastFailed_concat {count : Nat} (live : (run before).Live task)
    (goesOn : ¬ operation.Completes (run before) task) :
    LastFailed count task (before ++ [operation]) ↔
      count = 0 ∨ ∃ fewer, LastFailed fewer task before ∧
        (∀ reading, operation.reading? (run before) task = some reading → reading.Failed) ∧
        count = fewer + (operation.reading? (run before) task).toList.length := by
  have readings : ∀ {earlier recent}, before = earlier ++ recent →
      readingsOf task (run earlier) (recent ++ [operation]) =
        readingsOf task (run earlier) recent ++
          (operation.reading? (run before) task).toList := by
    rintro earlier recent rfl
    rw [readingsOf_concat, run_append]
  constructor
  · rintro ⟨earlier, recent, same, since, length, failed⟩
    rcases recent_eq_nil_or_concat same with rfl | ⟨rest, split, rfl⟩
    · exact .inl length.symm
    · rw [readings split] at length failed
      refine .inr ⟨_, ⟨earlier, rest, split, (liveSince_concat.mp since).1, rfl, ?_⟩, ?_, ?_⟩
      · exact fun reading member => failed reading (List.mem_append_left _ member)
      · intro reading made
        refine failed reading (List.mem_append_right _ ?_)
        rw [made]
        exact List.mem_singleton_self reading
      · rw [← length, List.length_append]
  · rintro (rfl | ⟨fewer, ⟨earlier, recent, split, since, rfl, failed⟩, failedToo, rfl⟩)
    · refine lastFailed_zero ?_
      rw [run_concat]
      exact ((consistent_run before).live_after_iff live operation).mpr goesOn
    · refine ⟨earlier, recent ++ [operation], ?_, liveSince_concat.mpr ⟨since, ?_⟩, ?_, ?_⟩
      · rw [split, List.append_assoc]
      · rw [← split]
        exact goesOn
      · rw [readings split, List.length_append]
      · rw [readings split]
        intro reading member
        rcases List.mem_append.mp member with before | now
        · exact failed reading before
        · rw [Option.mem_toList] at now
          exact failedToo reading now

/-- The failures that the node of a live task notes are the failed readings at the end of the run. -/
theorem le_failures_iff_lastFailed {count : Nat} {node : TaskNode}
    (found : (run before).nodes[task]? = some node) (pending : node.completed = false) :
    count ≤ node.failures ↔ LastFailed count task before := by
  induction before using List.reverseRecOn generalizing count node with
  | nil => simp [run] at found
  | append_singleton before operation induction =>
      have consistent := consistent_run before
      have now : (run (before ++ [operation])).Live task := ⟨node, found, pending⟩
      rw [run_concat] at found
      by_cases live : (run before).Live task
      · rcases live with ⟨earlierNode, earlierFound, earlierPending⟩
        have live : (run before).Live task := ⟨earlierNode, earlierFound, earlierPending⟩
        have goesOn : ¬ operation.Completes (run before) task := by
          rw [run_concat] at now
          exact (consistent.live_after_iff live operation).mp now
        have counted := consistent.failures_after earlierFound earlierPending goesOn
        rw [found, Option.map_some, Option.some.injEq] at counted
        have earlierIff : ∀ {fewer}, fewer ≤ earlierNode.failures ↔ LastFailed fewer task before :=
          induction earlierFound earlierPending
        rw [lastFailed_concat live goesOn, Operation.reading?]
        simp only [← earlierIff]
        cases answered : operation.answer? (run before) task with
        | none =>
            rw [answered, failuresWith] at counted
            simp [counted]
            omega
        | some answer =>
            cases answer with
            | ok state =>
                rw [answered, failuresWith] at counted
                simp [counted, Reading.Failed]
            | error fault =>
                rw [answered, failuresWith] at counted
                have next : count ≤ earlierNode.failures + 1 ↔
                    count = 0 ∨ ∃ fewer ≤ earlierNode.failures, count = fewer + 1 := by
                  cases count <;> simp
                simp [counted, Reading.Failed, next]
      · -- The task is new, and no reading of it was made while it was live.
        rw [consistent.failures_of_new live found pending, Nat.le_zero]
        constructor
        · rintro rfl
          exact lastFailed_zero now
        · rintro ⟨earlier, recent, same, since, length, _⟩
          rcases recent_eq_nil_or_concat same with rfl | ⟨rest, rfl, rfl⟩
          · exact length.symm
          · exact absurd (liveSince_concat.mp since).1.live live

/-! ## Giving up -/

/-- What ends a task: it is said to be done, or read as done, or was worn out before a failure. -/
theorem Operation.completes_iff_answer :
    operation.Completes graph task ↔
      operation = .complete task ∨
        (∃ state, operation.answer? graph task = some (.ok state) ∧ state.done = true) ∨
          ((∃ fault, operation.answer? graph task = some (.error fault)) ∧
            graph.IsWornOut task) := by
  cases operation with
  | complete done => simp [Operation.Completes, Operation.answer?]
  | render order lawful interpreter thread physical observation =>
      have distinct := fun loop => nodup_answersOn graph lawful interpreter loop observation.subject
      rw [Operation.Completes, Operation.answer?]
      cases graph.loopOf? thread with
      | none => simp
      | some loop => simp [EndedBy, lookup_eq_some_iff (distinct loop)]
  | _ => simp [Operation.Completes, Operation.answer?]

/-- One reading falls into the cycle after that of another. -/
def Reading.Follows (first second : Reading) : Prop :=
  second.cycle = first.cycle + 1

/--
A live task completes when it is said to be done or read as done, and else only when it could not
be read and neither could it the last two times, all this while it was live.  These failures are in
three consecutive cycles if every reading of the task is in the cycle after that of the reading
before; a cycle with several readings counts all of them, and one without is passed over.
-/
theorem run_completed_iff_lastFailed (live : (run before).Live task) :
    ((run (before ++ [operation])).Completed task ↔
        operation = .complete task ∨
          (∃ state, operation.answer? (run before) task = some (.ok state) ∧ state.done = true) ∨
            ((∃ fault, operation.answer? (run before) task = some (.error fault)) ∧
              LastFailed 2 task before)) ∧
      ((∀ earlier recent, before = earlier ++ recent → LiveSince task earlier recent →
          (readingsOf task (run earlier) (recent ++ [operation])).IsChain Reading.Follows) →
        (∃ fault, operation.answer? (run before) task = some (.error fault)) →
          (run (before ++ [operation])).Completed task →
            ∃ earlier recent first second, before = earlier ++ recent ∧
              LiveSince task earlier recent ∧
              readingsOf task (run earlier) recent = [first, second] ∧
              first.Failed ∧ second.Failed ∧ second.cycle = first.cycle + 1 ∧
              (run before).cycle = second.cycle + 1) := by
  have wornOut : (run before).IsWornOut task ↔ LastFailed 2 task before := by
    rcases live with ⟨node, found, pending⟩
    rw [← le_failures_iff_lastFailed found pending, IsWornOut, found, failureLimit]
    simp
  have completed : (run (before ++ [operation])).Completed task ↔
      operation = .complete task ∨
        (∃ state, operation.answer? (run before) task = some (.ok state) ∧ state.done = true) ∨
          ((∃ fault, operation.answer? (run before) task = some (.error fault)) ∧
            LastFailed 2 task before) := by
    rw [run_concat, ((consistent_run before).fate live operation).2,
      Operation.completes_iff_answer, wornOut]
  refine ⟨completed, ?_⟩
  rintro everyCycle ⟨fault, answered⟩ now
  have last : LastFailed 2 task before := by
    rcases completed.mp now with rfl | ⟨state, read, _⟩ | ⟨_, last⟩
    · cases answered
    · cases answered.symm.trans read
    · exact last
  rcases last with ⟨earlier, recent, split, since, length, failed⟩
  rcases List.length_eq_two.mp length with ⟨first, second, readings⟩
  have chained := everyCycle earlier recent split since
  have reached : recent.foldl after (run earlier) = run before := by
    rw [split, run_append]
  rw [readings] at failed
  rw [readingsOf_concat, readings, reached, Operation.reading?, answered] at chained
  simp only [Option.map_some, Option.toList_some, List.cons_append, List.nil_append,
    List.isChain_cons_cons, Reading.Follows] at chained
  exact ⟨earlier, recent, first, second, split, since, readings,
    failed first List.mem_cons_self, failed second (List.mem_cons_of_mem _ List.mem_cons_self),
    chained.1, chained.2.1⟩

/-- A loop is shown while the interpreter can read none of its tasks. -/
def blindLook : Operation :=
  .render .ascending ascending_lawful Tables.interpreter 1 [] ⟨Walker.new ⟨3, 11⟩ 64, {}⟩

/-- A task is announced, and cannot be read in two cycles. -/
def unreadableRun : List Operation :=
  [.registerLoop 1 7, .create ⟨5, 7, "busy"⟩, blindLook, .prune, blindLook, .prune]

theorem run_completed_iff_lastFailed_unreadable :
    (run unreadableRun).Live 5 ∧
      (∃ fault, blindLook.answer? (run unreadableRun) 5 = some (.error fault)) ∧
      (run (unreadableRun ++ [blindLook])).Completed 5 ∧
      ∃ earlier recent first second, unreadableRun = earlier ++ recent ∧
        readingsOf 5 (run earlier) recent = [first, second] ∧ first.Failed ∧ second.Failed ∧
        second.cycle = first.cycle + 1 ∧ (run unreadableRun).cycle = second.cycle + 1 := by
  have live : (run unreadableRun).Live 5 := by decide +kernel
  have failed : ∃ fault, blindLook.answer? (run unreadableRun) 5 = some (.error fault) := by
    have unread : (blindLook.answer? (run unreadableRun) 5).map Except.isOk = some false := by
      decide +kernel
    rcases Option.map_eq_some_iff.mp unread with ⟨fault | state, answered, isOk⟩
    · exact ⟨fault, answered⟩
    · contradiction
  have completed : (run (unreadableRun ++ [blindLook])).Completed 5 := by decide +kernel
  have whole : (readingsOf 5 {} (unreadableRun ++ [blindLook])).IsChain Reading.Follows := by
    have cycles :
        (readingsOf 5 {} (unreadableRun ++ [blindLook])).map (·.cycle) = [0, 1, 2] := by
      decide +kernel
    have counted : ([0, 1, 2] : List Nat).IsChain fun first second => second = first + 1 := by
      decide
    rw [← cycles, List.isChain_map] at counted
    exact counted
  have everyCycle : ∀ earlier recent, unreadableRun = earlier ++ recent →
      LiveSince 5 earlier recent →
        (readingsOf 5 (run earlier) (recent ++ [blindLook])).IsChain Reading.Follows := by
    intro earlier recent split _
    rw [split, List.append_assoc, readingsOf_append] at whole
    exact whole.right_of_append
  rcases (run_completed_iff_lastFailed live).2 everyCycle failed completed with
    ⟨earlier, recent, first, second, split, _, found⟩
  exact ⟨live, failed, completed, earlier, recent, first, second, split, found⟩

/-- A task is announced, and its loop is shown twice in one cycle. -/
def crowdedRun : List Operation :=
  [.registerLoop 1 7, .create ⟨5, 7, "busy"⟩, blindLook, blindLook]

/-- Failures in one cycle are enough for a task to be given up. -/
theorem not_run_completed_after_three_cycles :
    ¬ ∀ (before : List Operation) (operation : Operation) (task : TaskId),
      (run before).Live task → (run (before ++ [operation])).Completed task →
        operation ≠ .complete task →
          (∀ state, operation.answer? (run before) task = some (.ok state) → state.done = false) →
            ∃ cycle, ∀ offset < 3, ∃ reading ∈ readingsOf task {} (before ++ [operation]),
              reading.Failed ∧ reading.cycle = cycle + offset := by
  intro always
  have pending : ∀ state, blindLook.answer? (run crowdedRun) 5 = some (.ok state) →
      state.done = false := by
    intro state read
    have unread : (blindLook.answer? (run crowdedRun) 5).map Except.isOk = some false := by
      decide +kernel
    rw [read] at unread
    cases unread
  have cycles : (readingsOf 5 {} (crowdedRun ++ [blindLook])).map (·.cycle) = [0, 0, 0] := by
    decide +kernel
  rcases always crowdedRun blindLook 5 (by decide +kernel) (by decide +kernel) nofun pending with
    ⟨cycle, failed⟩
  rcases failed 1 (by decide) with ⟨reading, member, _, later⟩
  have inFirst : reading.cycle ∈ [0, 0, 0] := cycles ▸ List.mem_map_of_mem member
  have first : reading.cycle = 0 := by simpa using inFirst
  omega

end StackSampler.TaskGraph
