import StackSampler.Proofs.Task.Lasting

/-!
# What a loop is said to run

A loop runs the task that was entered on it last, until it leaves that task, enters another, or the
task completes.  A task that completes is taken from the one loop that the graph knows it to be on.
So it goes on being run by any other loop that it was entered on: by its own, if that was never
found out, and by one that it was never known to be on.
-/

namespace StackSampler.TaskGraph

variable {graph : TaskGraph} {task ran : TaskId} {loop : LoopId}
  {operation : Operation} {before later : List Operation}

/-! ## Naming tasks -/

theorem running_detach (graph : TaskGraph) (task : TaskId) :
    (graph.detach task).running = graph.running := by
  rw [detach]
  split <;> rfl

theorem running_create (graph : TaskGraph) (task : TaskDescription) :
    (graph.create task).running = graph.running := by
  rw [create]
  split
  · rfl
  · split
    · exact running_detach graph task.id
    · rfl

theorem running_createAll (graph : TaskGraph) (tasks : List TaskDescription) :
    (tasks.foldl create graph).running = graph.running := by
  induction tasks generalizing graph with
  | nil => rfl
  | cons task rest induction =>
      rw [List.foldl_cons, induction, running_create]

theorem running_adopt (graph : TaskGraph) (task : TaskId) (home : Option LoopId) :
    (graph.adopt task home).running = graph.running := by
  rw [adopt]
  split
  · rfl
  · split
    · exact running_detach graph task
    · rfl

theorem running_link (graph : TaskGraph) (parent child : TaskId) :
    (graph.link parent child).running = graph.running := by
  rw [link]
  split
  · rfl
  · exact (running_adopt _ child _).trans (running_adopt graph parent _)

/-- Of the tasks that are said to run, those that are known are entered. -/
theorem running_enterAll
    {entries : List (LoopId × TaskId)}
    (runs : (entries.foldl (fun graph (loop, task) =>
      if graph.nodes.contains task then graph.enter loop task else graph) graph).running[loop]? =
        some task) :
    ((loop, task) ∈ entries ∧ task ∈ graph.nodes) ∨ graph.running[loop]? = some task := by
  induction entries generalizing graph with
  | nil => exact .inr runs
  | cons entry rest induction =>
      rcases entry with ⟨entered, other⟩
      rw [List.foldl_cons] at runs
      dsimp only at runs
      split at runs
      · rename_i known
        rcases induction runs with ⟨member, knownToo⟩ | ranAlready
        · exact .inl ⟨List.mem_cons_of_mem _ member, knownToo⟩
        · rw [enter, Std.ExtTreeMap.getElem?_insert] at ranAlready
          split at ranAlready
          · rename_i equal
            rw [Std.compare_eq_iff_eq] at equal
            rw [Option.some.injEq] at ranAlready
            subst equal ranAlready
            exact .inl ⟨List.mem_cons_self, Std.ExtTreeMap.contains_iff_mem.mp known⟩
          · exact .inr ranAlready
      · rcases induction runs with ⟨member, known⟩ | ranAlready
        · exact .inl ⟨List.mem_cons_of_mem _ member, known⟩
        · exact .inr ranAlready

/-! ## Entering a task -/

/-- An operation says that a loop runs a task from now on. -/
def Operation.Enters (graph : TaskGraph) (loop : LoopId) (task : TaskId) : Operation → Prop
  | .enter entered other => entered = loop ∧ other = task
  | .importAll running scheduled eager =>
      (loop, task) ∈ running ∧ task ∈ ((scheduled ++ eager).foldl TaskGraph.create graph).nodes
  | _ => False

/-- No operation of a run enters a task on a loop. -/
def NeverEnters (loop : LoopId) (task : TaskId) : TaskGraph → List Operation → Prop
  | _, [] => True
  | graph, operation :: rest =>
      ¬ operation.Enters graph loop task ∧ NeverEnters loop task (graph.after operation) rest

/-- A loop comes to run a task in no other way than by entering it. -/
theorem Consistent.entered_or_ran (consistent : graph.Consistent) (operation : Operation)
    (runs : (graph.after operation).runningTask? loop = some task) :
    operation.Enters graph loop task ∨ graph.runningTask? loop = some task := by
  cases operation with
  | registerLoop thread other => exact .inr runs
  | create description =>
      rw [TaskGraph.after, runningTask?, running_create] at runs
      exact .inr runs
  | link parent child =>
      rw [TaskGraph.after, runningTask?, running_link] at runs
      exact .inr runs
  | enter entered other =>
      rw [TaskGraph.after, runningTask?, enter, Std.ExtTreeMap.getElem?_insert] at runs
      split at runs
      · rename_i equal
        exact .inl ⟨Std.compare_eq_iff_eq.mp equal, Option.some.inj runs⟩
      · exact .inr runs
  | leave left other => exact .inr ((running_leave graph left other loop task).mp runs).1
  | complete done => exact .inr ((running_complete graph done loop task).mp runs).1
  | importAll entries scheduled eager =>
      rcases running_enterAll runs with entered | ran
      · exact .inl entered
      · rw [running_createAll] at ran
        exact .inr ran
  | watch container =>
      rw [TaskGraph.after, watch] at runs
      split at runs <;> exact .inr runs
  | discover interpreter subject =>
      rcases discover_creates graph interpreter subject with ⟨found, same⟩
      rw [TaskGraph.after, same, runningTask?, running_createAll] at runs
      exact .inr runs
  | render order lawful interpreter thread physical observation =>
      rw [TaskGraph.after] at runs
      cases hosted : graph.loopOf? thread with
      | none =>
          rw [renderIn_of_unhosted hosted] at runs
          exact .inr runs
      | some home =>
          rw [renderIn_of_hosted hosted] at runs
          exact .inr ((consistent.runningTask?_settle loop task).mp runs).1
  | prune => exact .inr runs

/-- A task that a loop runs after a run which never entered it there was run all the while. -/
theorem Consistent.ran_before (consistent : graph.Consistent)
    (never : NeverEnters loop task graph later)
    (runs : (later.foldl TaskGraph.after graph).runningTask? loop = some task) :
    graph.runningTask? loop = some task := by
  induction later generalizing graph with
  | nil => exact runs
  | cons operation rest induction =>
      rcases never with ⟨notNow, notLater⟩
      have ranNext := induction (consistent.after operation) notLater runs
      exact (consistent.entered_or_ran operation ranNext).resolve_left notNow

/-! ## Completing a task -/

/-- Whatever completes a task takes it from the loop that it is known to be on, and no other. -/
theorem Consistent.running_of_completes (consistent : graph.Consistent)
    (completes : operation.Completes graph task) (loop : LoopId) :
    (graph.after operation).runningTask? loop = some task ↔
      graph.runningTask? loop = some task ∧ ¬ graph.IsKnownOn loop task := by
  cases operation with
  | complete done =>
      obtain rfl : done = task := completes
      refine (running_complete graph done loop done).trans ?_
      rw [and_iff_right rfl]
      rfl
  | render order lawful interpreter thread physical observation =>
      rcases completes with ⟨home, hosted, ended⟩
      rw [← mem_endedBy_answersOn lawful] at ended
      rw [TaskGraph.after, renderIn_of_hosted hosted]
      refine (consistent.runningTask?_settle loop task).trans ?_
      rw [and_iff_right ended]
  | _ => exact absurd completes id

/--
When a task completes, the loops that go on running it are those that ran it and that it was not
known to be on.  No other loop runs it until it is entered there again, whatever task takes over its
identity in the meantime.
-/
theorem run_running_of_completes
    (completes : operation.Completes (run before) task) (loop : LoopId) :
    ((run (before ++ [operation])).runningTask? loop = some task ↔
        (run before).runningTask? loop = some task ∧ ¬ (run before).IsKnownOn loop task) ∧
      (NeverEnters loop task (run (before ++ [operation])) later →
        (run (before ++ operation :: later)).runningTask? loop = some task →
          (run before).runningTask? loop = some task ∧ ¬ (run before).IsKnownOn loop task) := by
  have now := (consistent_run before).running_of_completes completes loop
  rw [← run_concat] at now
  refine ⟨now, ?_⟩
  intro never runs
  rw [List.append_cons, run_append] at runs
  exact now.mp ((consistent_run _).ran_before never runs)

theorem run_running_of_completes_announced :
    let before : List Operation := [.create ⟨97, 7, "first"⟩, .enter 7 97]
    (Operation.complete 97).Completes (run before) 97 ∧
      (run before).runningTask? 7 = some 97 ∧ (run before).IsKnownOn 7 97 ∧
      (run (before ++ [.complete 97, .create ⟨97, 7, "second"⟩])).Live 97 ∧
      (run (before ++ [.complete 97, .create ⟨97, 7, "second"⟩])).runningTask? 7 ≠ some 97 := by
  intro before
  have completes : (Operation.complete 97).Completes (run before) 97 := rfl
  have known : (run before).IsKnownOn 7 97 := rfl
  have never : NeverEnters 7 97 (run (before ++ [.complete 97])) [.create ⟨97, 7, "second"⟩] :=
    ⟨id, trivial⟩
  have stops := (run_running_of_completes completes 7).2 never
  exact ⟨completes, by decide, known, ⟨_, rfl, rfl⟩, fun runs => (stops runs).2 known⟩

/-- A task of which only an edge was reported is entered and completes; another is given its
identity. -/
def adoptedRun : List Operation :=
  [.link 98 97, .enter 7 97, .complete 97, .create ⟨97, 7, "second"⟩]

/-- A loop may go on running a task that has completed, and then one that was never entered. -/
theorem not_run_running_of_completes :
    ¬ ∀ (before later : List Operation) (operation : Operation) (task : TaskId) (loop : LoopId),
      (run before).Live task → operation.Completes (run before) task →
        NeverEnters loop task (run (before ++ [operation])) later →
          (run (before ++ operation :: later)).runningTask? loop ≠ some task := by
  intro always
  have stops := always (adoptedRun.take 2) (adoptedRun.drop 3) (.complete 97) 97 7
    ⟨_, rfl, rfl⟩ rfl ⟨id, trivial⟩
  exact stops (by decide)

end StackSampler.TaskGraph
