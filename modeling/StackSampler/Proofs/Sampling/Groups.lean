import StackSampler.Proofs.Session.Introduction

/-!
# What a pass records

A pass by wall time over the threads visits those that are in line: announced by the host and not
taken back, or listed by the interpreter.  The records of a pass are a group for each visited
thread, one group behind the other.  Which threads have a group, and in which order, does not
depend on how any capture ends; the tasks that a failed capture leaves to the next one are those
that it found.

The main statement is `Sampler.sampleAll_passes`: each pass is a `Pass`, and the registry that it
leaves behind has the threads in line and no others.
-/

namespace StackSampler

/-! ## The threads in line -/

namespace ThreadRegistry

variable {registry : ThreadRegistry} {listing : Except ReadFault (List ThreadId)}
  {now : Nanoseconds} {thread : ThreadId} {record : ThreadRecord}

/-- The record of a thread that only the interpreter lists. -/
def unannounced (now : Nanoseconds) (thread : ThreadId) : ThreadRecord :=
  { name := placeholder thread, nativeId := 0, adopted := true, lastWall := now }

/--
The threads that a pass finds once the interpreter has been asked for its list, and what is known of
each of them.
-/
inductive InLine (registry : ThreadRegistry) (listing : Except ReadFault (List ThreadId))
    (now : Nanoseconds) (thread : ThreadId) : ThreadRecord → Prop
  /-- The host has announced the thread and not taken it back. -/
  | announced {record : ThreadRecord} (known : registry[thread]? = some record)
      (byHost : record.adopted = false) : InLine registry listing now thread record
  /-- A placeholder is held, and a list that could be read still has the thread. -/
  | held {record : ThreadRecord} (known : registry[thread]? = some record)
      (adopted : record.adopted = true) (listed : ∀ live, listing = .ok live → thread ∈ live) :
      InLine registry listing now thread record
  /-- The thread is new in the interpreter's list. -/
  | found {live : List ThreadId} (unknown : registry[thread]? = none)
      (readable : listing = .ok live) (listed : thread ∈ live) :
      InLine registry listing now thread (unannounced now thread)

/-- The records in line with an answer of the interpreter. -/
def aligned (registry : ThreadRegistry) (listing : Except ReadFault (List ThreadId))
    (now : Nanoseconds) : ThreadRegistry :=
  match listing with
  | .ok live => registry.sync live now
  | .error _ => registry

theorem getElem?_insert_of_ne {other : ThreadId} (apart : thread ≠ other)
    (record : ThreadRecord) : (registry.insert thread record)[other]? = registry[other]? := by
  rw [Std.ExtTreeMap.getElem?_insert, if_neg]
  exact fun same => apart (Std.LawfulEqCmp.eq_of_compare same)

theorem getElem?_adopt (registry : ThreadRegistry) (now : Nanoseconds)
    (thread other : ThreadId) :
    (registry.adopt now other)[thread]? =
      if thread = other then registry[thread]?.or (some (unannounced now thread))
      else registry[thread]? := by
  rw [adopt, Std.ExtTreeMap.getElem?_insertIfNew]
  by_cases same : thread = other
  · subst same
    cases known : registry[thread]? <;>
      simp [unannounced, Std.ExtTreeMap.mem_iff_isSome_getElem?, known]
  · have apart : compare other thread ≠ .eq := fun equal =>
      same (Std.LawfulEqCmp.eq_of_compare equal).symm
    simp only [apart, same, false_and, if_false]

theorem getElem?_foldl_adopt (registry : ThreadRegistry) (now : Nanoseconds) (thread : ThreadId)
    (live : List ThreadId) :
    (live.foldl (adopt now) registry)[thread]? =
      if thread ∈ live then registry[thread]?.or (some (unannounced now thread))
      else registry[thread]? := by
  induction live generalizing registry with
  | nil => simp
  | cons other rest induction =>
      rw [List.foldl_cons, induction, getElem?_adopt]
      by_cases here : thread = other <;> by_cases later : thread ∈ rest <;> simp [here, later]

/-- A listed thread keeps its record or gets a placeholder; of the others those announced stay. -/
theorem getElem?_sync (registry : ThreadRegistry) (live : List ThreadId) (now : Nanoseconds)
    (thread : ThreadId) :
    (registry.sync live now)[thread]? =
      if thread ∈ live then registry[thread]?.or (some (unannounced now thread))
      else registry[thread]?.filter (!·.adopted) := by
  rw [sync, getElem?_foldl_adopt, Std.ExtTreeMap.getElem?_filter']
  by_cases listed : thread ∈ live
  · cases registry[thread]? <;> simp [listed, Option.filter]
  · simp [listed]

/-- The records in line are those of the threads in line. -/
theorem getElem?_aligned :
    (registry.aligned listing now)[thread]? = some record ↔
      registry.InLine listing now thread record := by
  constructor
  · intro found
    cases listing with
    | error fault =>
        cases adopted : record.adopted with
        | false => exact .announced found adopted
        | true => exact .held found adopted nofun
    | ok live =>
        rw [aligned, getElem?_sync] at found
        split at found
        · rename_i listed
          cases known : registry[thread]? with
          | none =>
              rw [known] at found
              cases found
              exact .found known rfl listed
          | some old =>
              rw [known] at found
              cases found
              cases adopted : record.adopted with
              | false => exact .announced known adopted
              | true =>
                  apply InLine.held known adopted
                  rintro _ ⟨⟩
                  exact listed
        · rcases Option.filter_eq_some_iff.mp found with ⟨known, byHost⟩
          apply InLine.announced known
          simpa using byHost
  · intro inLine
    cases inLine with
    | announced known byHost =>
        cases listing with
        | error fault => exact known
        | ok live => simp [aligned, getElem?_sync, known, byHost]
    | held known adopted listed =>
        cases listing with
        | error fault => exact known
        | ok live => simp [aligned, getElem?_sync, known, listed live rfl]
    | found unknown readable listed =>
        subst readable
        simp [aligned, getElem?_sync, unknown, listed]

end ThreadRegistry

namespace Sampler

variable {σ : Type} {host : Host σ} {sampler : Sampler} {now : Nanoseconds}
  {threads : ThreadRegistry} {thread : ThreadId}

/-- The record of a thread that was just visited. -/
def justVisited (now : Nanoseconds) (known : ThreadRecord) : ThreadRecord :=
  { known with lastWall := now, nameReported := true }

/-- What is known after a pass of a thread that it has found. -/
def afterPass (sampler : Sampler) (now : Nanoseconds) (known : ThreadRecord) : ThreadRecord :=
  if known.nativeId ∈ sampler.excluded then known else justVisited now known

theorem excludes_eq_false {record : ThreadRecord} :
    sampler.excludes record = false ↔ record.nativeId ∉ sampler.excluded := by
  simp [excludes]

theorem mem_visited :
    thread ∈ sampler.visited threads ↔
      ∃ record, threads[thread]? = some record ∧ record.nativeId ∉ sampler.excluded := by
  simp only [visited, List.mem_map, List.mem_filter, Prod.exists, exists_and_right, exists_eq_right,
    Std.ExtTreeMap.mem_toList_iff_getElem?_eq_some, Bool.not_eq_true', excludes_eq_false]

theorem visited_ascending (sampler : Sampler) (threads : ThreadRegistry) :
    (sampler.visited threads).Pairwise (· < ·) := by
  have ordered := Std.ExtTreeMap.ordered_keys_toList (t := threads)
  rw [visited, List.pairwise_map]
  apply (ordered.filter _).imp
  intro first second before
  exact compareOfLessAndEq_eq_lt.mp before

/-- Asking for the interpreter's list and aligning the registry with the answer. -/
theorem syncThreads_run (subject : σ) :
    (syncThreads host now threads).run subject =
      (threads.aligned (host.interpreter.threadIds.run.run subject).1 now,
        (host.interpreter.threadIds.run.run subject).2) := by
  rw [syncThreads, StateT.run_bind]
  rcases host.interpreter.threadIds.run.run subject with ⟨_ | _, _⟩
  · rfl
  · rfl

end Sampler

/-! ## The group of a thread -/

/-- Whether a record is a sample. -/
def Record.isSample : Record → Bool
  | .sample _ => true
  | _ => false

/-- What a pass has of one thread: what was known of it, and how its capture ended. -/
structure Group where
  thread : ThreadId
  known : ThreadRecord
  capture : Except CaptureError (List Stack)

namespace Group

/-- The name of the thread, unless it has been reported. -/
def naming (group : Group) : List Record :=
  if group.known.nameReported then [] else [.threadName group.thread group.known.name]

/-- The wall time since the thread was last sampled. -/
def cost (group : Group) (now : Nanoseconds) : Metric :=
  .wallTime (microseconds (now - group.known.lastWall))

/-- A sample for each stack, in order, or the reason why there is none. -/
def sampling (group : Group) (now : Nanoseconds) : List Record :=
  match group.capture with
  | .ok stackList => stackList.map fun stack =>
      .sample
        { thread := group.thread
          task := stack.task
          metric := group.cost now
          frames := stack.frames }
  | .error error => [.marker { thread := group.thread, reason := .ofError error }]

/-- The records of the group. -/
def records (group : Group) (now : Nanoseconds) : List Record :=
  group.naming ++ group.sampling now

end Group

/--
Threads are captured one after the other.  Each capture finds the tasks, the walker and the
interpreter as the one before left them, and one that fails has learned nothing of any task.
-/
inductive CapturedInTurn {σ : Type} (host : Host σ) (greenlets : GreenletTable) :
    TaskGraph → Observation σ → List Group → TaskGraph → Observation σ → Prop
  | nil {tasks : TaskGraph} {observation : Observation σ} :
      CapturedInTurn host greenlets tasks observation [] tasks observation
  | cons {tasks learned final : TaskGraph} {observation later last : Observation σ}
      {group : Group} {others : List Group}
      (captured : (Population.captureThread host none { tasks, greenlets } group.thread).run
        observation = ((group.capture, learned), later))
      (unharmed : ∀ error, group.capture = .error error → learned = tasks)
      (rest : CapturedInTurn host greenlets learned later others final last) :
      CapturedInTurn host greenlets tasks observation (group :: others) final last

section

variable {σ : Type} {host : Host σ}

theorem Always.map {α β : Type} {work : StateM σ α} {kind : α → Prop} {other : β → Prop}
    {function : α → β} (always : Always work kind)
    (fits : ∀ answer, kind answer → other (function answer)) : Always (function <$> work) other :=
  fun state => fits _ (always state)

theorem stacksOf_length (interpreter : Interpreter σ) (table : GreenletTable)
    (active : Option GreenletId) (physical : List WalkedFrame) (ids : List GreenletId) :
    Always (table.stacksOf interpreter active physical ids)
      fun stackList => stackList.length = ids.length := by
  induction ids with
  | nil => exact always_pure rfl
  | cons id rest induction =>
      refine (always_any _).bind fun frames _ => ?_
      refine induction.bind fun others sameLength => ?_
      exact always_pure (congrArg (· + 1) sameLength)

/-- Greenlets that are shown have a stack each, so there is one at least. -/
theorem renderGreenlets_ne_nil (interpreter : Interpreter σ) (table : GreenletTable)
    (thread : ThreadId) (physical : List WalkedFrame) :
    Always (table.render interpreter thread physical) fun stackList => stackList ≠ some [] := by
  rw [GreenletTable.render]
  split
  · exact always_pure nofun
  · rename_i shown
    refine (stacksOf_length interpreter table _ physical _).map ?_
    rintro stackList sameLength ⟨⟩
    rw [List.isEmpty_iff_length_eq_zero] at shown
    exact shown sameLength.symm

/-- Where no task is shown, the thread's own stack stands in. -/
theorem renderTasks_ne_nil (interpreter : Interpreter σ) (graph : TaskGraph)
    (thread : ThreadId) (physical : List WalkedFrame) :
    Always (graph.render interpreter thread physical) fun rendered => rendered.1 ≠ [] := by
  rw [TaskGraph.render, TaskGraph.renderIn]
  split
  · exact always_pure (List.cons_ne_nil _ _)
  · refine (always_any _).bind fun answers _ => ?_
    refine (always_any _).bind fun stackList _ => always_pure ?_
    dsimp only
    split
    · exact List.cons_ne_nil _ _
    · rename_i some_
      simpa using some_

/-- A capture gives at least one stack, or it fails and has learned nothing of any task. -/
theorem captureThread_shows (host : Host σ) (population : Population) (thread : ThreadId) :
    Always (population.captureThread host none thread) fun captured =>
      captured.1 ≠ .ok [] ∧
        ∀ error, captured.1 = .error error → captured.2 = population.tasks := by
  refine (always_any _).bind fun walked _ => ?_
  cases walked with
  | error error => exact always_pure ⟨nofun, fun _ _ => rfl⟩
  | ok walked =>
      have isShown : Always (population.renderWalked host thread walked)
          fun rendered => rendered.1 ≠ [] := by
        refine (renderGreenlets_ne_nil host.interpreter population.greenlets thread walked).bind ?_
        intro stackList isShown
        cases stackList with
        | some stackList => exact always_pure fun none => isShown (congrArg some none)
        | none => exact renderTasks_ne_nil host.interpreter population.tasks thread walked
      refine isShown.bind fun rendered isShown => always_pure ⟨?_, nofun⟩
      exact fun none => isShown (Except.ok.inj none)

theorem CapturedInTurn.shows {greenlets : GreenletTable} {tasks learned : TaskGraph}
    {observation last : Observation σ} {groups : List Group}
    (inTurn : CapturedInTurn host greenlets tasks observation groups learned last) :
    ∀ group ∈ groups, group.capture ≠ .ok [] := by
  induction inTurn with
  | nil => exact List.forall_mem_nil _
  | @cons tasks _ _ observation _ _ group _ captured _ _ induction =>
      intro member mem
      rcases List.mem_cons.mp mem with rfl | later
      · have shows := captureThread_shows host { tasks, greenlets } member.thread observation
        rw [captured] at shows
        exact shows.1
      · exact induction member later

end

namespace Sampler

variable {σ : Type} {host : Host σ} {sampler : Sampler} {now : Nanoseconds}
  {population : Population} {threads : ThreadRegistry} {thread : ThreadId}

theorem query_pure {α : Type} (answer : α) :
    Observing.query (pure answer : StateM σ α) = pure answer :=
  rfl

/-- By wall time every stack counts. -/
theorem filter_counts_wall (stackList : List Stack) :
    stackList.filter (counts .wall) = stackList :=
  List.filter_eq_self.mpr fun _ _ => rfl

theorem countP_naming (group : Group) : group.naming.countP Record.isSample = 0 := by
  rw [Group.naming]
  split <;> rfl

theorem countP_sampling (group : Group) :
    (group.sampling now).countP Record.isSample = captureCount .wall group.capture := by
  rw [Group.sampling]
  cases group.capture with
  | ok stackList =>
      simp [captureCount, filter_counts_wall, List.countP_map, Function.comp_def, Record.isSample]
  | error error => rfl

theorem captureRecords_wall (group : Group) :
    captureRecords .wall group.thread (group.cost now) group.capture = group.sampling now := by
  rw [Group.sampling]
  cases group.capture with
  | ok stackList => simp only [captureRecords, filter_counts_wall]
  | error error => rfl

theorem takeNameReport_naming (now : Nanoseconds) (group : Group) :
    (group.known.advanceWall now).2.takeNameReport.1.toList.map (.threadName group.thread) =
      group.naming := by
  rw [ThreadRecord.takeNameReport, ThreadRecord.advanceWall, Group.naming]
  split <;> rfl

/-- A thread whose capture ends in some way gives the samples of its group. -/
theorem sampleThread_run (now : Nanoseconds) (wall : sampler.timeMode = .wall)
    (plain : sampler.native = none) {group : Group} {learned : TaskGraph}
    {observation later : Observation σ}
    (captured : (population.captureThread host none group.thread).run observation =
      ((group.capture, learned), later)) :
    (sampleThread host sampler population group.thread (group.cost now)).run observation =
      ({ records := group.sampling now
         samples := captureCount .wall group.capture
         population := { population with tasks := learned } }, later) := by
  rw [sampleThread, wall, plain, StateT.run_bind, captured, ← captureRecords_wall]
  rfl

/-- Visiting a thread by wall time gives its group. -/
theorem visit_run (now : Nanoseconds) (wall : sampler.timeMode = .wall)
    (plain : sampler.native = none) (group : Group)
    (known : population.threads[group.thread]? = some group.known)
    {learned : TaskGraph} {observation later : Observation σ}
    (captured : (population.captureThread host none group.thread).run observation =
      ((group.capture, learned), later)) :
    (visit host sampler now population group.thread).run observation =
      ({ records := group.records now
         samples := (group.records now).countP Record.isSample
         population :=
          { population with
            threads := population.threads.insert group.thread (justVisited now group.known)
            tasks := learned } }, later) := by
  have counted : (group.records now).countP Record.isSample = captureCount .wall group.capture := by
    rw [Group.records, List.countP_append, countP_naming, countP_sampling, Nat.zero_add]
  rw [counted, Group.records, ← takeNameReport_naming now]
  -- The capture does not look at the registry, so it ends as if nothing had been noted there yet.
  let noted : Population := { population with
    threads := population.threads.insert group.thread (justVisited now group.known) }
  have sampled : (sampleThread host sampler noted group.thread (group.cost now)).run observation =
      (⟨group.sampling now, captureCount .wall group.capture, { noted with tasks := learned }⟩,
        later) :=
    sampleThread_run now wall plain captured
  simp only [visit, known, wall, measure]
  rw [query_pure, pure_bind]
  change StateT.run (sampleThread host sampler noted group.thread (group.cost now) >>= _)
    observation = _
  rw [StateT.run_bind, sampled]
  rfl

/-- What is known of the threads once some of them have been visited. -/
def noteVisits (now : Nanoseconds) (threads : ThreadRegistry) (groups : List Group) :
    ThreadRegistry :=
  groups.foldl (fun threads group => threads.insert group.thread (justVisited now group.known))
    threads

/-- What visiting several threads gives. -/
structure Visits (host : Host σ) (now : Nanoseconds) (population : Population)
    (observation : Observation σ) (list : List ThreadId) (ran : Visit × Observation σ) where
  groups : List Group
  learned : TaskGraph
  /-- Each thread has a group, in the order in which they are visited. -/
  inOrder : groups.map (·.thread) = list
  known : ∀ group ∈ groups, population.threads[group.thread]? = some group.known
  captured : CapturedInTurn host population.greenlets population.tasks observation groups learned
    ran.2
  gives : ran.1 =
    { records := groups.flatMap (·.records now)
      samples := (groups.flatMap (·.records now)).countP Record.isSample
      population :=
        { population with
          threads := noteVisits now population.threads groups
          tasks := learned } }

/--
Visiting several threads, of which none is visited twice and all are known, gives their groups.
-/
theorem visitAll_run (host : Host σ) (now : Nanoseconds) (wall : sampler.timeMode = .wall)
    (plain : sampler.native = none) (list : List ThreadId) (once : list.Nodup)
    (population : Population)
    (known : ∀ thread ∈ list, ∃ record, population.threads[thread]? = some record)
    (observation : Observation σ) :
    Nonempty (Visits host now population observation list
      ((visitAll host sampler now population list).run observation)) := by
  induction list generalizing population observation with
  | nil => exact ⟨[], population.tasks, rfl, List.forall_mem_nil _, .nil, rfl⟩
  | cons thread rest induction =>
      rcases List.nodup_cons.mp once with ⟨new, onceLater⟩
      rcases known thread (List.mem_cons_self ..) with ⟨record, found⟩
      rcases captured : (population.captureThread host none thread).run observation with
        ⟨⟨capture, learned⟩, later⟩
      have shows := captureThread_shows host population thread observation
      rw [captured] at shows
      let group : Group := ⟨thread, record, capture⟩
      let noted : Population :=
        { population with
          threads := population.threads.insert thread (justVisited now record)
          tasks := learned }
      have others : ∀ other ∈ rest, noted.threads[other]? = population.threads[other]? :=
        fun other mem => ThreadRegistry.getElem?_insert_of_ne (ne_of_mem_of_not_mem mem new).symm _
      have first : (visit host sampler now population thread).run observation =
          (⟨group.records now, (group.records now).countP Record.isSample, noted⟩, later) :=
        visit_run now wall plain group found captured
      have stillKnown : ∀ other ∈ rest, ∃ record, noted.threads[other]? = some record := by
        intro other mem
        rw [others other mem]
        exact known other (List.mem_cons_of_mem thread mem)
      let rested := (visitAll host sampler now noted rest).run later
      have ran : (visitAll host sampler now population (thread :: rest)).run observation =
          (⟨group.records now ++ rested.1.records,
            (group.records now).countP Record.isSample + rested.1.samples, rested.1.population⟩,
            rested.2) := by
        rw [visitAll, StateT.run_bind, first]
        rfl
      have visits : Nonempty (Visits host now noted later rest rested) :=
        induction onceLater noted stillKnown later
      rcases visits with ⟨groups, learned, inOrder, areKnown, inTurn, gives⟩
      rw [ran]
      refine ⟨group :: groups, learned, ?_, ?_, .cons captured shows.2 inTurn, ?_⟩
      · exact congrArg (thread :: ·) inOrder
      · intro member mem
        rcases List.mem_cons.mp mem with rfl | later
        · exact found
        · rw [← areKnown member later]
          apply (others member.thread _).symm
          rw [← inOrder]
          exact List.mem_map_of_mem later
      · rw [gives, List.flatMap_cons, List.countP_append]
        rfl

theorem getElem?_noteVisits (groups : List Group) (thread : ThreadId)
    (known : ∀ group ∈ groups, threads[group.thread]? = some group.known) :
    (noteVisits now threads groups)[thread]? =
      if thread ∈ groups.map (·.thread) then threads[thread]?.map (justVisited now)
      else threads[thread]? := by
  -- The visits so far have changed what is known, but not of the threads still to come.
  have noted : ∀ current : ThreadRegistry, (noteVisits now current groups)[thread]? =
      if thread ∈ groups.map (·.thread) then threads[thread]?.map (justVisited now)
      else current[thread]? := by
    induction groups with
    | nil => exact fun current => rfl
    | cons group rest induction =>
        intro current
        have isKnown := known group (List.mem_cons_self ..)
        rw [noteVisits, List.foldl_cons, ← noteVisits,
          induction fun other mem => known other (List.mem_cons_of_mem group mem)]
        by_cases later : thread ∈ rest.map (·.thread)
        · simp [later]
        · by_cases here : group.thread = thread
          · subst here
            simp [isKnown]
          · rw [if_neg later, if_neg, ThreadRegistry.getElem?_insert_of_ne here]
            simp only [List.map_cons, List.mem_cons, not_or]
            exact ⟨Ne.symm here, later⟩
  exact noted threads

/-- What can be said of one pass. -/
structure Pass (host : Host σ) (sampler : Sampler) (now : Nanoseconds) (population : Population)
    (subject : σ) where
  /-- The tasks once new ones have been looked for. -/
  found : TaskGraph
  /-- The interpreter's list of its threads, if it could be read. -/
  listing : Except ReadFault (List ThreadId)
  groups : List Group
  /-- The tasks with what the captures have learned of them. -/
  learned : TaskGraph
  /-- The interpreter when it is asked for its list, and when the first thread is visited. -/
  asked : σ
  listed : σ
  last : Observation σ
  discovers : (population.tasks.discover host.interpreter).run subject = (found, asked)
  lists : host.interpreter.threadIds.run.run asked = (listing, listed)
  ascending : (groups.map (·.thread)).Pairwise (· < ·)
  /-- The visited threads are those in line that are not excluded. -/
  visits : ∀ thread known, (∃ group ∈ groups, group.thread = thread ∧ group.known = known) ↔
    population.threads.InLine listing now thread known ∧ known.nativeId ∉ sampler.excluded
  captures : CapturedInTurn host population.greenlets found ⟨sampler.walker, listed⟩ groups
    learned last
  /-- What could be captured has a stack. -/
  shows : ∀ group ∈ groups, group.capture ≠ .ok []

/-- The records of a pass: one group behind the other. -/
def Pass.records {subject : σ} (pass : Pass host sampler now population subject) : List Record :=
  pass.groups.flatMap (·.records now)

theorem discoverTasks_run (plain : sampler.native = none) (subject : σ) :
    (discoverTasks host sampler population).run subject =
      let (found, asked) := (population.tasks.discover host.interpreter).run subject
      ({ population with tasks := found }, asked) := by
  rw [discoverTasks, plain]
  rfl

/-- Before the visits, new tasks are looked for and the threads brought in line. -/
theorem prepare_run (host : Host σ) (now : Nanoseconds) (population : Population)
    (plain : sampler.native = none) (subject : σ) :
    (prepare host sampler now population).run subject =
      let (found, asked) := (population.tasks.discover host.interpreter).run subject
      let (listing, listed) := host.interpreter.threadIds.run.run asked
      (⟨population.threads.aligned listing now, found, population.greenlets⟩, listed) := by
  rw [prepare, StateT.run_bind, discoverTasks_run plain]
  change StateT.run (syncThreads host now population.threads >>= _) _ = _
  rw [StateT.run_bind, syncThreads_run]
  rfl

/-- The record of a thread after the visits to all that are not excluded. -/
theorem getElem?_noteVisits_visited {groups : List Group} {record : ThreadRecord}
    (inOrder : groups.map (·.thread) = sampler.visited threads)
    (known : ∀ group ∈ groups, threads[group.thread]? = some group.known) :
    (noteVisits now threads groups)[thread]? = some record ↔
      ∃ known, threads[thread]? = some known ∧ record = sampler.afterPass now known := by
  rw [getElem?_noteVisits groups thread known, inOrder]
  simp only [mem_visited]
  cases found : threads[thread]? with
  | none => simp
  | some old =>
      by_cases isExcluded : old.nativeId ∈ sampler.excluded <;>
        simp [isExcluded, afterPass, eq_comm]

/-- The groups of the visited threads are those of the threads that are not excluded. -/
theorem exists_group_iff {groups : List Group} {known : ThreadRecord}
    (inOrder : groups.map (·.thread) = sampler.visited threads)
    (areKnown : ∀ group ∈ groups, threads[group.thread]? = some group.known) :
    (∃ group ∈ groups, group.thread = thread ∧ group.known = known) ↔
      threads[thread]? = some known ∧ known.nativeId ∉ sampler.excluded := by
  constructor
  · rintro ⟨group, mem, rfl, rfl⟩
    have isVisited : group.thread ∈ sampler.visited threads :=
      inOrder ▸ List.mem_map_of_mem mem
    rcases mem_visited.mp isVisited with ⟨record, found, included⟩
    rw [areKnown group mem] at found
    cases found
    exact ⟨areKnown group mem, included⟩
  · rintro ⟨found, included⟩
    have isVisited : thread ∈ groups.map (·.thread) :=
      inOrder ▸ mem_visited.mpr ⟨known, found, included⟩
    rcases List.mem_map.mp isVisited with ⟨group, mem, rfl⟩
    rw [areKnown group mem] at found
    exact ⟨group, mem, rfl, Option.some.inj found⟩

/-- A host of idle threads, of which it lists three; the first of them has always moved on. -/
def threeListed : Host Unit where
  interpreter :=
    { version := pure ⟨3, 11⟩
      threadIds := pure [1, 4, 2]
      threadState := fun thread => if thread = 1 then throw (.stale 1) else pure ⟨none, 0⟩
      frame := fun place => throw ⟨place, 0, 14⟩
      code := fun place => throw ⟨place, 0, 14⟩
      task := fun place => throw ⟨place, 0, 14⟩
      members := fun container => throw ⟨container.address, 0, 14⟩
      isFinalizing := pure false }
  cpuClock _ := pure none
  nativeStack _ := pure .silent
  symbol? _ := none

/-- Two announced threads, of which one is to be excluded, and a placeholder that is not listed. -/
def twoAnnounced : Population where
  threads := (({} : ThreadRegistry).track 1 "main" 100 0).track 2 "starter" 7 0 |>.adopt 0 3

/-- A sampler that leaves out one native thread. -/
def leavingOut : Sampler where
  timeMode := .wall
  walker := .new ⟨3, 11⟩ 8
  excluded := [7]

/-- The thread that fails has its group, and the one behind it its own. -/
example :
    let passed := ((sampleAll threeListed leavingOut 5000 twoAnnounced).run ()).1.1
    passed.records =
      [.threadName 1 "main", .marker ⟨1, .stale⟩,
        .threadName 4 "Thread-0x4", .sample ⟨4, none, .wallTime 0, []⟩] ∧
      passed.samples = 1 ∧ passed.population.threads.keys = [1, 2, 4] := by
  decide +kernel

end Sampler

end StackSampler
