import StackSampler.Proofs.Task.Announcing
import StackSampler.Proofs.Task.Orders

/-!
# Looking for tasks

Looking for tasks reads the watched collections, and then asks about the tasks that they list, but
never about one that is live on a known loop.  The graph changes as it is consulted: a task that
is taken up is not asked about again, however often it is listed.  What comes of it is told in terms
of the answers, which are the findings of the look.

The main statement is `discover_takes_up`.  Each task that is reported as pending on a loop is
announced, as if it were the only one; nothing else becomes known or is forgotten, and of the edges
only those of completed tasks go whose identities are taken over.  A second look at an interpreter
that has not moved finds nothing more.
-/

namespace StackSampler

/-- Asking about tasks and about collections leaves an interpreter as it is. -/
structure Interpreter.IsUnmoved {σ : Type} (interpreter : Interpreter σ) (subject : σ) : Prop where
  tasks : interpreter.IsSteady subject
  members : ∀ container, ((interpreter.members container).run.run subject).2 = subject

/-- A task is a member of one of several collections, which the interpreter can read. -/
def Interpreter.Lists {σ : Type} (interpreter : Interpreter σ) (subject : σ)
    (containers : List TaskContainer) (task : TaskId) : Prop :=
  ∃ container ∈ containers, ∃ members,
    ((interpreter.members container).run.run subject).1 = .ok members ∧ task ∈ members

/-- The interpreter can read a task, which is pending on a loop. -/
def Interpreter.HasPending {σ : Type} (interpreter : Interpreter σ) (subject : σ) (task : TaskId)
    (loop : LoopId) : Prop :=
  ∃ state, ((interpreter.task task).run.run subject).1 = .ok state ∧ state.done = false ∧
    state.loop = some loop

namespace TaskGraph

variable {σ : Type} {graph left : TaskGraph} {interpreter : Interpreter σ}
  {subject middle after : σ} {first task : TaskId} {tasks : List TaskId}
  {answer : Except ReadFault TaskState} {answers : List (TaskId × Except ReadFault TaskState)}
  {description : TaskDescription}

/-! ## Reading the collections -/

/-- The answers of the interpreter about several collections. -/
def readContainers (interpreter : Interpreter σ) :
    List TaskContainer → StateM σ (List (TaskContainer × Except ReadFault (List TaskId)))
  | [] => pure []
  | container :: rest => do
      let answer ← (interpreter.members container).run
      let others ← readContainers interpreter rest
      pure ((container, answer) :: others)

/-- The members of those collections that could be read. -/
def membersOf (collections : List (TaskContainer × Except ReadFault (List TaskId))) : List TaskId :=
  collections.flatMap fun (_, answer) => answer.toOption.getD []

theorem mem_membersOf_iff {collections : List (TaskContainer × Except ReadFault (List TaskId))} :
    task ∈ membersOf collections ↔
      ∃ container members, (container, Except.ok members) ∈ collections ∧ task ∈ members := by
  rw [membersOf, List.mem_flatMap]
  constructor
  · rintro ⟨⟨container, _ | members⟩, among, member⟩
    · cases member
    · exact ⟨container, members, among, member⟩
  · rintro ⟨container, members, among, member⟩
    exact ⟨_, among, member⟩

theorem listed_run (interpreter : Interpreter σ) (containers : List TaskContainer) (subject : σ) :
    (listed interpreter containers).run subject =
      (membersOf ((readContainers interpreter containers).run subject).1,
        ((readContainers interpreter containers).run subject).2) := by
  induction containers generalizing subject with
  | nil => rfl
  | cons container rest induction =>
      have others := induction ((interpreter.members container).run.run subject).2
      rw [listed, readContainers]
      exact congrArg (fun run : List TaskId × σ =>
        (((interpreter.members container).run.run subject).1.toOption.getD [] ++ run.1, run.2))
        others

theorem readContainers_of_unmoved (unmoved : interpreter.IsUnmoved subject)
    (containers : List TaskContainer) :
    (readContainers interpreter containers).run subject =
      (containers.map fun container =>
        (container, ((interpreter.members container).run.run subject).1), subject) := by
  induction containers with
  | nil => rfl
  | cons container rest induction =>
      have stays := unmoved.members container
      rw [readContainers]
      change (((container, ((interpreter.members container).run.run subject).1) ::
        ((readContainers interpreter rest).run
          ((interpreter.members container).run.run subject).2).1),
          ((readContainers interpreter rest).run
            ((interpreter.members container).run.run subject).2).2) = _
      rw [stays, induction]
      rfl

/-! ## Findings -/

/-- The answers to a look for tasks, about the collections and then about tasks. -/
structure Findings where
  collections : List (TaskContainer × Except ReadFault (List TaskId))
  answers : List (TaskId × Except ReadFault TaskState)

namespace Findings

/-- The answers are those that the interpreter gives, asked one thing after the other. -/
def Answered (findings : Findings) (interpreter : Interpreter σ) (containers : List TaskContainer)
    (subject after : σ) : Prop :=
  ∃ middle,
    (readContainers interpreter containers).run subject = (findings.collections, middle) ∧
    (readTasks interpreter (findings.answers.map Prod.fst)).run middle = (findings.answers, after)

/-- A task is a member of a collection that could be read. -/
def Lists (findings : Findings) (task : TaskId) : Prop :=
  ∃ container members, (container, Except.ok members) ∈ findings.collections ∧ task ∈ members

/-- The interpreter was asked about a task. -/
def Asks (findings : Findings) (task : TaskId) : Prop :=
  ∃ answer, (task, answer) ∈ findings.answers

/-- A task was found to be pending on a loop. -/
def Reports (findings : Findings) (task : TaskDescription) : Prop :=
  ∃ state, (task.id, Except.ok state) ∈ findings.answers ∧ state.done = false ∧
    state.loop = some task.loop ∧ state.name.getD "" = task.name

/-- A task had completed, and another one was found under its identity. -/
def Replaces (findings : Findings) (graph : TaskGraph) (task : TaskId) : Prop :=
  graph.Completed task ∧ ∃ loop name, findings.Reports ⟨task, loop, name⟩

end Findings

theorem description?_eq_some_iff :
    description? task answer = some description ↔
      task = description.id ∧ ∃ state, answer = .ok state ∧ state.done = false ∧
        state.loop = some description.loop ∧ state.name.getD "" = description.name := by
  rcases description with ⟨id, loop, name⟩
  cases answer with
  | error fault => simp [description?]
  | ok state =>
      cases done : state.done with
      | true => simp [description?, done]
      | false =>
          cases knows : state.loop with
          | none => simp [description?, done, knows]
          | some known => simp [description?, done, knows]

theorem exists_description_of_hasPending {loop : LoopId}
    (pending : interpreter.HasPending subject task loop) :
    ∃ name, description? task ((interpreter.task task).run.run subject).1 =
      some ⟨task, loop, name⟩ := by
  rcases pending with ⟨state, answer, isPending, knows⟩
  exact ⟨_, description?_eq_some_iff.mpr ⟨rfl, state, answer, isPending, knows, rfl⟩⟩

/-- The announcements of the tasks that were found to be pending on a loop. -/
def announcements (answers : List (TaskId × Except ReadFault TaskState)) : List TaskDescription :=
  answers.filterMap fun (task, answer) => description? task answer

theorem announcements_cons_of_none (ignored : description? task answer = none) :
    announcements ((task, answer) :: answers) = announcements answers :=
  List.filterMap_cons_none ignored

theorem announcements_cons_of_some (announced : description? task answer = some description) :
    announcements ((task, answer) :: answers) = description :: announcements answers :=
  List.filterMap_cons_some announced

theorem mem_announcements_iff {findings : Findings} :
    description ∈ announcements findings.answers ↔ findings.Reports description := by
  rw [announcements, List.mem_filterMap]
  constructor
  · rintro ⟨⟨task, answer⟩, among, announced⟩
    rcases description?_eq_some_iff.mp announced with ⟨rfl, state, rfl, pending⟩
    exact ⟨state, among, pending⟩
  · rintro ⟨state, among, pending⟩
    exact ⟨_, among, description?_eq_some_iff.mpr ⟨rfl, state, rfl, pending⟩⟩

theorem mem_of_mem_announcements (member : description ∈ announcements answers) :
    description.id ∈ answers.map Prod.fst := by
  rcases List.mem_filterMap.mp member with ⟨⟨task, answer⟩, among, announced⟩
  rcases description?_eq_some_iff.mp announced with ⟨rfl, _⟩
  exact List.mem_map_of_mem among

/-! ## Asking about tasks -/

/-- What comes of going through listed tasks, and which answers it was made of. -/
structure TakesUp (graph : TaskGraph) (interpreter : Interpreter σ) (tasks : List TaskId)
    (subject : σ) (answers : List (TaskId × Except ReadFault TaskState)) (after : σ) : Prop where
  answered : (readTasks interpreter (answers.map Prod.fst)).run subject = (answers, after)
  /-- Only tasks without a known loop are asked about, and each of these is. -/
  asked : ∀ task, task ∈ answers.map Prod.fst ↔ task ∈ tasks ∧ graph.liveLoop? task = none
  /-- No task is announced twice. -/
  distinct : ((announcements answers).map (·.id)).Nodup
  run : (graph.takeUp interpreter tasks).run subject =
    ((announcements answers).foldl create graph, after)

namespace TakesUp

theorem nil (graph : TaskGraph) (interpreter : Interpreter σ) (subject : σ) :
    graph.TakesUp interpreter [] subject [] subject :=
  ⟨rfl, fun _ => by simp, List.nodup_nil, rfl⟩

theorem skip {loop : LoopId} (settled : graph.liveLoop? first = some loop)
    (takesUp : graph.TakesUp interpreter tasks subject answers after) :
    graph.TakesUp interpreter (first :: tasks) subject answers after where
  answered := takesUp.answered
  asked := by
    intro task
    rw [takesUp.asked, List.mem_cons, or_and_right]
    refine (or_iff_right ?_).symm
    rintro ⟨rfl, unsettled⟩
    rw [settled] at unsettled
    cases unsettled
  distinct := takesUp.distinct
  run := by
    have known : graph.isSettled first = true := by
      rw [isSettled, settled]
      rfl
    rw [takeUp, if_pos known]
    exact takesUp.run

section

variable (unsettled : graph.liveLoop? first = none)
  (read : (interpreter.task first).run.run subject = (answer, middle))

include read in
theorem answered_cons
    (answered : (readTasks interpreter (answers.map Prod.fst)).run middle = (answers, after)) :
    (readTasks interpreter (((first, answer) :: answers).map Prod.fst)).run subject =
      ((first, answer) :: answers, after) := by
  rw [List.map_cons, readTasks, StateT.run_bind, read]
  exact congrArg (fun run : List (TaskId × Except ReadFault TaskState) × σ =>
    ((first, answer) :: run.1, run.2)) answered

include unsettled read

/-- A task that is not pending on a loop is passed over. -/
theorem pass (ignored : description? first answer = none)
    (takesUp : graph.TakesUp interpreter tasks middle answers after) :
    graph.TakesUp interpreter (first :: tasks) subject ((first, answer) :: answers) after where
  answered := answered_cons read takesUp.answered
  asked := by
    intro task
    rw [List.map_cons, List.mem_cons, List.mem_cons, takesUp.asked, or_and_right]
    refine or_congr_left (and_iff_left_of_imp ?_).symm
    rintro rfl
    exact unsettled
  distinct := by
    rw [announcements_cons_of_none ignored]
    exact takesUp.distinct
  run := by
    have unknown : ¬ graph.isSettled first = true := by simp [isSettled, unsettled]
    rw [takeUp, if_neg unknown, StateT.run_bind, read, announcements_cons_of_none ignored]
    simp only [bind, ignored]
    exact takesUp.run

/-- A task that is pending on a loop is announced, and is not asked about again. -/
theorem announce (consistent : graph.Consistent)
    (announced : description? first answer = some description)
    (takesUp : (graph.create description).TakesUp interpreter tasks middle answers after) :
    graph.TakesUp interpreter (first :: tasks) subject ((first, answer) :: answers) after := by
  obtain rfl : first = description.id := (description?_eq_some_iff.mp announced).1
  have settled : (graph.create description).liveLoop? description.id = some description.loop :=
    (graph.create_announces description).liveLoop?
  constructor
  case answered => exact answered_cons read takesUp.answered
  case asked =>
    intro task
    rw [List.map_cons, List.mem_cons, List.mem_cons, takesUp.asked]
    by_cases same : task = description.id
    · subst same
      simp [unsettled]
    · simp [same, consistent.liveLoop?_create_of_ne (Ne.symm same)]
  case distinct =>
    rw [announcements_cons_of_some announced, List.map_cons, List.nodup_cons]
    refine ⟨?_, takesUp.distinct⟩
    intro again
    rcases List.mem_map.mp again with ⟨other, member, same⟩
    have asked := (takesUp.asked _).mp (mem_of_mem_announcements member)
    rw [same, settled] at asked
    cases asked.2
  case run =>
    have unknown : ¬ graph.isSettled description.id = true := by simp [isSettled, unsettled]
    rw [takeUp, if_neg unknown, StateT.run_bind, read,
      announcements_cons_of_some announced]
    simp only [bind, announced]
    exact takesUp.run

end

end TakesUp

/-- Going through listed tasks announces what the answers report, whatever the answers are. -/
theorem Consistent.exists_takesUp (consistent : graph.Consistent) (interpreter : Interpreter σ)
    (tasks : List TaskId) (subject : σ) :
    ∃ answers after, graph.TakesUp interpreter tasks subject answers after := by
  induction tasks generalizing graph subject with
  | nil => exact ⟨[], subject, .nil graph interpreter subject⟩
  | cons first rest induction =>
      cases settled : graph.liveLoop? first with
      | some loop =>
          rcases induction consistent subject with ⟨answers, after, takesUp⟩
          exact ⟨answers, after, takesUp.skip settled⟩
      | none =>
          rcases read : (interpreter.task first).run.run subject with ⟨answer, middle⟩
          cases announced : description? first answer with
          | none =>
              rcases induction consistent middle with ⟨answers, after, takesUp⟩
              exact ⟨_, after, takesUp.pass settled read announced⟩
          | some description =>
              rcases induction (consistent.create description) middle with
                ⟨answers, after, takesUp⟩
              exact ⟨_, after, takesUp.announce settled read consistent announced⟩

/-- Nothing is taken up when all tasks are settled or are not pending on a loop. -/
theorem takeUp_of_nothing (steady : interpreter.IsSteady subject)
    (nothing : ∀ task ∈ tasks, graph.liveLoop? task = none →
      description? task ((interpreter.task task).run.run subject).1 = none) :
    (graph.takeUp interpreter tasks).run subject = (graph, subject) := by
  induction tasks with
  | nil => rfl
  | cons first rest induction =>
      rw [List.forall_mem_cons] at nothing
      have others := induction nothing.2
      rw [takeUp]
      split
      · exact others
      · rename_i unknown
        have ignored := nothing.1 (by simpa [isSettled] using unknown)
        have stays := steady first
        rw [StateT.run_bind]
        rcases read : (interpreter.task first).run.run subject with ⟨answer, middle⟩
        rw [read] at ignored stays
        obtain rfl : middle = subject := stays
        simp only [bind, ignored]
        exact others

/-! ## A whole look -/

theorem discover_run {collections : List (TaskContainer × Except ReadFault (List TaskId))}
    (read : (readContainers interpreter graph.containers).run subject = (collections, middle)) :
    (graph.discover interpreter).run subject =
      (graph.takeUp interpreter (membersOf collections)).run middle := by
  have members := listed_run interpreter graph.containers subject
  rw [read] at members
  rw [discover, StateT.run_bind, members]
  rfl

/-- A look for tasks has these findings, and announces them. -/
structure Finds (graph : TaskGraph) (interpreter : Interpreter σ) (subject : σ)
    (findings : Findings) (left : TaskGraph) (after : σ) : Prop where
  answered : findings.Answered interpreter graph.containers subject after
  asked : ∀ task, findings.Asks task ↔ findings.Lists task ∧ graph.liveLoop? task = none
  distinct : ((announcements findings.answers).map (·.id)).Nodup
  announced : (announcements findings.answers).foldl create graph = left

theorem Consistent.exists_finds (consistent : graph.Consistent)
    (isLeft : (graph.discover interpreter).run subject = (left, after)) :
    ∃ findings, graph.Finds interpreter subject findings left after := by
  rcases read : (readContainers interpreter graph.containers).run subject with
    ⟨collections, middle⟩
  rcases consistent.exists_takesUp interpreter (membersOf collections) middle with
    ⟨answers, last, takesUp⟩
  rw [discover_run read, takesUp.run, Prod.mk.injEq] at isLeft
  rcases isLeft with ⟨announced, rfl⟩
  refine ⟨⟨collections, answers⟩, ⟨middle, read, takesUp.answered⟩, ?_, takesUp.distinct, announced⟩
  intro task
  rw [Findings.Lists, ← mem_membersOf_iff, ← takesUp.asked, List.mem_map]
  constructor
  · rintro ⟨answer, among⟩
    exact ⟨_, among, rfl⟩
  · rintro ⟨⟨_, answer⟩, among, rfl⟩
    exact ⟨answer, among⟩

namespace Finds

variable {findings : Findings} (finds : graph.Finds interpreter subject findings left after)

include finds

theorem left_eq : left = { graph with nodes := left.nodes, sequence := left.sequence } := by
  rw [← finds.announced]
  exact createAll_eq graph _

section

variable (unmoved : interpreter.IsUnmoved subject)

include unmoved

/-- All that is asked of an interpreter that stays as it is, it is asked as it was at first. -/
theorem answered_of_unmoved :
    (readContainers interpreter graph.containers).run subject =
        (findings.collections, subject) ∧
      (readTasks interpreter (findings.answers.map Prod.fst)).run subject =
        (findings.answers, after) := by
  rcases finds.answered with ⟨middle, read, answered⟩
  have stays := congrArg Prod.snd (readContainers_of_unmoved unmoved graph.containers)
  rw [read] at stays
  obtain rfl : middle = subject := stays
  exact ⟨read, answered⟩

theorem after_eq : after = subject := by
  have answered := (finds.answered_of_unmoved unmoved).2
  rw [readTasks_of_steady unmoved.tasks] at answered
  exact (congrArg Prod.snd answered).symm

theorem lists_of_containers (lists : interpreter.Lists subject graph.containers task) :
    findings.Lists task := by
  rcases lists with ⟨container, watched, members, answer, member⟩
  have read := (finds.answered_of_unmoved unmoved).1
  rw [readContainers_of_unmoved unmoved, Prod.mk.injEq] at read
  refine ⟨container, members, ?_, member⟩
  rw [← read.1, ← answer]
  exact List.mem_map_of_mem watched

theorem mem_answers_of_asks (asks : findings.Asks task) :
    (task, ((interpreter.task task).run.run subject).1) ∈ findings.answers := by
  rcases asks with ⟨answer, among⟩
  have answered := (finds.answered_of_unmoved unmoved).2
  rw [readTasks_of_steady unmoved.tasks, Prod.mk.injEq] at answered
  rw [← answered.1]
  exact List.mem_map_of_mem (List.mem_map_of_mem among)

/-- A task that is listed and pending on a loop is found, unless it is live on a known loop. -/
theorem reports_of_lists (lists : findings.Lists task) (unsettled : graph.liveLoop? task = none)
    (announced : description? task ((interpreter.task task).run.run subject).1 =
      some description) : findings.Reports description := by
  have among := finds.mem_answers_of_asks unmoved ((finds.asked task).mpr ⟨lists, unsettled⟩)
  rcases description?_eq_some_iff.mp announced with ⟨rfl, state, answer, pending⟩
  rw [answer] at among
  exact ⟨state, among, pending⟩

end

section

variable (consistent : graph.Consistent)

include consistent

/-- What is found is announced as if it were the only finding. -/
theorem announces (reported : findings.Reports description) : graph.Announces left description := by
  have announces := consistent.createAll_announces finds.distinct
    (mem_announcements_iff.mpr reported)
  rwa [finds.announced] at announces

theorem particulars?_of_unreported
    (unreported : ∀ loop name, ¬ findings.Reports ⟨task, loop, name⟩) :
    left.particulars? task = graph.particulars? task := by
  rw [← finds.announced]
  apply consistent.particulars?_createAll_of_not_mem
  intro announced
  rcases List.mem_map.mp announced with ⟨⟨_, loop, name⟩, member, rfl⟩
  exact unreported loop name (mem_announcements_iff.mp member)

/-- Nothing is asked, and so nothing is found, about a task that is live on a known loop. -/
theorem particulars?_of_settled {loop : LoopId} (settled : graph.liveLoop? task = some loop) :
    left.particulars? task = graph.particulars? task := by
  apply finds.particulars?_of_unreported consistent
  rintro _ _ ⟨state, among, _⟩
  have unsettled := ((finds.asked task).mp ⟨_, among⟩).2
  rw [settled] at unsettled
  cases unsettled

theorem linked_iff (parent child : TaskId) (place : Nat) :
    left.Linked parent child place ↔
      graph.Linked parent child place ∧
        ¬ findings.Replaces graph parent ∧ ¬ findings.Replaces graph child := by
  rw [← finds.announced, consistent.linked_createAll finds.distinct]
  refine and_congr_right fun _ => ?_
  constructor
  · intro spared
    constructor
    · rintro ⟨completed, loop, name, reported⟩
      exact (spared _ (mem_announcements_iff.mpr reported) completed).1 rfl
    · rintro ⟨completed, loop, name, reported⟩
      exact (spared _ (mem_announcements_iff.mpr reported) completed).2 rfl
  · rintro ⟨parentKept, childKept⟩ ⟨task, loop, name⟩ member completed
    have reported := mem_announcements_iff.mp member
    constructor
    · rintro rfl
      exact parentKept ⟨completed, loop, name, reported⟩
    · rintro rfl
      exact childKept ⟨completed, loop, name, reported⟩

variable (unmoved : interpreter.IsUnmoved subject)

include unmoved

/-- A task that is listed and pending on a loop ends up live, on its own loop if it had one. -/
theorem liveLoop?_of_lists (lists : findings.Lists task)
    (announced : description? task ((interpreter.task task).run.run subject).1 =
      some description) :
    left.liveLoop? task = (graph.liveLoop? task).or (some description.loop) := by
  cases settled : graph.liveLoop? task with
  | some loop =>
      rw [liveLoop?_eq, finds.particulars?_of_settled consistent settled, ← liveLoop?_eq, settled,
        Option.some_or]
  | none =>
      have reported := finds.reports_of_lists unmoved lists settled announced
      rw [(description?_eq_some_iff.mp announced).1, Option.none_or]
      exact (finds.announces consistent reported).liveLoop?

/-- A second look at the same interpreter finds nothing more. -/
theorem discover_again : (left.discover interpreter).run subject = (left, subject) := by
  have read := (finds.answered_of_unmoved unmoved).1
  have watched : left.containers = graph.containers := by rw [finds.left_eq]
  rw [← watched] at read
  rw [discover_run read]
  apply takeUp_of_nothing unmoved.tasks
  intro task member unsettled
  rw [Option.eq_none_iff_forall_ne_some]
  intro description announced
  have settled :=
    finds.liveLoop?_of_lists consistent unmoved (mem_membersOf_iff.mp member) announced
  rw [unsettled, eq_comm, Option.or_eq_none_iff] at settled
  cases settled.2

end

end Finds

/--
A look for tasks takes up what it finds.  It asks about each task that a readable collection lists,
unless the task is live on a known loop.  What is reported as pending on a loop is announced: a live
task learns its loop and its name, and in place of any other there is a new task without edges.
Nothing else becomes known, changes or is forgotten, but for edges to tasks that were replaced.  An
interpreter that is not moved by questions has all its listed and pending tasks live afterwards, and
a second look at it changes nothing.
-/
theorem discover_takes_up (reachable : graph.Reachable)
    (isLeft : (graph.discover interpreter).run subject = (left, after)) :
    (∃ findings : Findings,
      findings.Answered interpreter graph.containers subject after ∧
      (∀ task, findings.Asks task ↔ findings.Lists task ∧ graph.liveLoop? task = none) ∧
      (∀ task, findings.Reports task →
        graph.Announces left task ∧ left.liveLoop? task.id = some task.loop) ∧
      (∀ task, (∀ loop name, ¬ findings.Reports ⟨task, loop, name⟩) →
        left.particulars? task = graph.particulars? task) ∧
      (∀ parent child place, left.Linked parent child place ↔
        graph.Linked parent child place ∧
          ¬ findings.Replaces graph parent ∧ ¬ findings.Replaces graph child) ∧
      (interpreter.IsUnmoved subject →
        ∀ task loop, interpreter.Lists subject graph.containers task →
          interpreter.HasPending subject task loop → graph.liveLoop? task = none →
            ∃ name, findings.Reports ⟨task, loop, name⟩)) ∧
    (∀ parent child, left.Lists parent child ↔ ∃ place, left.Linked parent child place) ∧
    (∀ task loop, graph.liveLoop? task = some loop →
      left.particulars? task = graph.particulars? task) ∧
    left = { graph with nodes := left.nodes, sequence := left.sequence } ∧
    (interpreter.IsUnmoved subject →
      (∀ task loop, interpreter.Lists subject graph.containers task →
        interpreter.HasPending subject task loop →
          left.liveLoop? task = (graph.liveLoop? task).or (some loop)) ∧
      (left.discover interpreter).run after = (left, after)) := by
  have consistent := reachable.consistent
  rcases consistent.exists_finds isLeft with ⟨findings, finds⟩
  have ends := (consistent.discover interpreter subject).ends
  rw [isLeft] at ends
  refine ⟨⟨findings, finds.answered, finds.asked, ?reported, ?unreported, ?edges, ?found⟩, ends,
    ?settled, finds.left_eq, fun unmoved => ⟨?pending, ?again⟩⟩
  case reported =>
    intro task reported
    have announces := finds.announces consistent reported
    exact ⟨announces, announces.liveLoop?⟩
  case unreported =>
    intro task unreported
    exact finds.particulars?_of_unreported consistent unreported
  case edges => exact finds.linked_iff consistent
  case found =>
    intro unmoved task loop lists pending unsettled
    rcases exists_description_of_hasPending pending with ⟨name, announced⟩
    have listed := finds.lists_of_containers unmoved lists
    exact ⟨name, finds.reports_of_lists unmoved listed unsettled announced⟩
  case settled =>
    intro task loop settled
    exact finds.particulars?_of_settled consistent settled
  case pending =>
    intro task loop lists pending
    rcases exists_description_of_hasPending pending with ⟨name, announced⟩
    have listed := finds.lists_of_containers unmoved lists
    exact finds.liveLoop?_of_lists consistent unmoved listed announced
  case again =>
    rw [finds.after_eq unmoved]
    exact finds.discover_again consistent unmoved

theorem tables_isUnmoved (tables : Tables) : Tables.interpreter.IsUnmoved tables :=
  ⟨tables_isSteady tables, fun _ => rfl⟩

/-- One task has completed but not its child, two have no known loop, and three sets are watched. -/
def watchingGraph : TaskGraph :=
  (((({} : TaskGraph).create ⟨1, 7, "first"⟩).link 1 2).link 2 3).complete 2
    |>.link 8 9
    |>.watch (.tasks 0x10)
    |>.watch (.references 0x20)
    |>.watch (.tasks 0x30)

theorem watchingGraph_reachable : watchingGraph.Reachable :=
  Relation.ReflTransGen.refl
    |>.tail (.create ⟨1, 7, "first"⟩)
    |>.tail (.link 1 2)
    |>.tail (.link 2 3)
    |>.tail (.complete 2)
    |>.tail (.link 8 9)
    |>.tail (.watch (.tasks 0x10))
    |>.tail (.watch (.references 0x20))
    |>.tail (.watch (.tasks 0x30))

/-- An interpreter whose sets overlap and repeat themselves; one set and one task are missing. -/
def overlappingTables : Tables :=
  ({} : Tables).putContainer 0x10 [99, 2, 8, 2]
    |>.putContainer 0x20 [8, 5, 3]
    |>.putTask 2 { loop := some 7, name := some "again" }
    |>.putTask 8 { loop := some 9 }
    |>.putTask 5 { loop := some 7, done := true }
    |>.putTask 3 { loop := some 11 }

theorem discover_takes_up_overlapping :
    ∃ left after,
      watchingGraph.Reachable ∧ Tables.interpreter.IsUnmoved overlappingTables ∧
      (watchingGraph.discover Tables.interpreter).run overlappingTables = (left, after) ∧
      watchingGraph.Completed 2 ∧ watchingGraph.Lists 2 3 ∧ ¬ left.Lists 2 3 ∧
      left.liveLoop? 2 = some 7 ∧ left.liveLoop? 8 = some 9 ∧ left.liveLoop? 3 = some 7 ∧
      (left.discover Tables.interpreter).run after = (left, after) := by
  rcases isLeft : (watchingGraph.discover Tables.interpreter).run overlappingTables with
    ⟨left, after⟩
  have unmoved := tables_isUnmoved overlappingTables
  rcases discover_takes_up watchingGraph_reachable isLeft with
    ⟨⟨findings, _, _, _, _, edges, found⟩, ends, _, _, whenUnmoved⟩
  rcases whenUnmoved unmoved with ⟨pending, again⟩
  have isListed : Tables.interpreter.Lists overlappingTables watchingGraph.containers 2 :=
    ⟨.tasks 0x10, by decide, _, rfl, by decide⟩
  have isPending : Tables.interpreter.HasPending overlappingTables 2 7 := ⟨_, rfl, rfl, rfl⟩
  have eighth : left.liveLoop? 8 = some 9 :=
    pending 8 9 ⟨.tasks 0x10, by decide, _, rfl, by decide⟩ ⟨_, rfl, rfl, rfl⟩
  have third : left.liveLoop? 3 = some 7 :=
    pending 3 11 ⟨.references 0x20, by decide, _, rfl, by decide⟩ ⟨_, rfl, rfl, rfl⟩
  refine ⟨left, after, watchingGraph_reachable, unmoved, rfl, by decide, ⟨_, rfl, by decide⟩, ?_,
    pending 2 7 isListed isPending, eighth, third, again⟩
  intro listed
  rcases (ends 2 3).mp listed with ⟨place, linked⟩
  rcases found unmoved 2 7 isListed isPending (by decide) with ⟨name, reported⟩
  exact ((edges 2 3 place).mp linked).2.1 ⟨by decide, 7, name, reported⟩

end TaskGraph

end StackSampler
