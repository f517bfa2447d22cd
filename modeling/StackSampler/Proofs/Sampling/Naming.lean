import StackSampler.Proofs.Sampling.Exclusion

/-!
# When a thread is named

The name of a thread is reported once for each name that it has had.  A chronicle tells what has
happened to a registry of threads: what the host has reported, what the interpreter has listed for
a pass, and which threads were visited, in any order.  `Entry.Creates` and `Entry.Renames` read off
it when the record of a thread came to be and when its name changed, and `FirstVisit` says that the
thread has not been visited since.

The main statement is `Chronicle.named`: a pass names exactly the threads that it visits for the
first time in this sense, with the name that was announced last.
-/

namespace StackSampler

/-- The thread that a record names, and the name. -/
def Record.naming? : Record → Option (ThreadId × String)
  | .threadName thread name => some (thread, name)
  | _ => none

namespace Chronicle

open ThreadRegistry (placeholder)

/-! ## Chronicles -/

/-- What happens to a registry of threads. -/
inductive Occurrence where
  /-- The host reports something. -/
  | reported (notification : Notification)
  /-- The registry is reconciled with the interpreter's list, if that can be read. -/
  | listed (answer : Except ReadFault (List ThreadId))
  /-- A thread is visited, which gives these records. -/
  | visited (thread : ThreadId) (records : List Record)

/-- What happened, and what was known of the threads before and after. -/
structure Entry where
  occurrence : Occurrence
  before : ThreadRegistry
  after : ThreadRegistry

namespace Entry

/-- The visit of a thread. -/
def ofVisit (thread : ThreadId) (before : ThreadRegistry) (visit : Sampler.Visit) : Entry :=
  ⟨.visited thread visit.records, before, visit.population.threads⟩

variable (entry : Entry) (thread : ThreadId)

/-- The name under which the host announces a thread. -/
def announces? : Option String :=
  match entry.occurrence with
  | .reported (.threadTracked other name _) => if other = thread then some name else none
  | _ => none

/-- The thread that is visited. -/
def visited? : Option ThreadId :=
  match entry.occurrence with
  | .visited thread _ => some thread
  | _ => none

/-- The records that a visit gives. -/
def records : List Record :=
  match entry.occurrence with
  | .visited _ records => records
  | _ => []

/-- The record of the thread comes to be. -/
def Creates : Prop :=
  thread ∉ entry.before ∧ thread ∈ entry.after

instance : Decidable (entry.Creates thread) :=
  inferInstanceAs (Decidable (_ ∧ _))

/-- The record of the thread is removed. -/
def Removes : Prop :=
  thread ∈ entry.before ∧ thread ∉ entry.after

/-- A thread that is known is announced under another name. -/
def Renames : Prop :=
  ∃ record name, entry.before[thread]? = some record ∧ entry.announces? thread = some name ∧
    record.name ≠ name

end Entry

/-- The name last announced for a thread since its record came to be; the latest entry is first. -/
def announced? (thread : ThreadId) : List Entry → Option String
  | [] => none
  | entry :: earlier =>
      (entry.announces? thread).or
        (if entry.Creates thread then none else announced? thread earlier)

/-- The name of a thread: the one last announced, or else a placeholder. -/
def currentName (thread : ThreadId) (entries : List Entry) : String :=
  (announced? thread entries).getD (placeholder thread)

/-- The thread has not been visited since its record came to be, or since it was last renamed. -/
def FirstVisit (thread : ThreadId) (entries : List Entry) : Prop :=
  ∃ since entry before, entries = since ++ entry :: before ∧
    (entry.Creates thread ∨ entry.Renames thread) ∧
    ∀ later ∈ since, later.visited? ≠ some thread

/-- What can happen to a population that begins without threads, whoever samples it. -/
inductive Records {σ : Type} (host : Host σ) : List Entry → Population → Prop where
  | fresh {population : Population} (empty : population.threads = ∅) : Records host [] population
  | reported {entries : List Entry} {population : Population}
      (records : Records host entries population) (now : Nanoseconds)
      (notification : Notification) :
      Records host
        (⟨.reported notification, population.threads,
          (population.receive now notification).threads⟩ :: entries)
        (population.receive now notification)
  | listed {entries : List Entry} {population : Population}
      (records : Records host entries population) (now : Nanoseconds) (subject : σ) :
      Records host
        (⟨.listed (host.interpreter.threadIds.run.run subject).1, population.threads,
          ((Sampler.syncThreads host now population.threads).run subject).1⟩ :: entries)
        { population with
          threads := ((Sampler.syncThreads host now population.threads).run subject).1 }
  | visited {entries : List Entry} {population : Population}
      (records : Records host entries population) (sampler : Sampler) (now : Nanoseconds)
      {thread : ThreadId} (known : thread ∈ population.threads) (observation : Observation σ) :
      Records host
        (.ofVisit thread population.threads
          ((Sampler.visit host sampler now population thread).run observation).1 :: entries)
        ((Sampler.visit host sampler now population thread).run observation).1.population
  /-- What happens to tasks and greenlets is not told. -/
  | elsewhere {entries : List Entry} {population other : Population}
      (records : Records host entries population) (same : other.threads = population.threads) :
      Records host entries other

/-! ## Reading a chronicle -/

section

variable {thread : ThreadId} {entry : Entry} {earlier : List Entry}

theorem firstVisit_cons :
    FirstVisit thread (entry :: earlier) ↔
      (entry.Creates thread ∨ entry.Renames thread) ∨
        entry.visited? ≠ some thread ∧ FirstVisit thread earlier := by
  constructor
  · rintro ⟨_ | ⟨latest, since⟩, other, before, split, begins, unvisited⟩
    · cases split
      exact .inl begins
    · cases split
      rcases List.forall_mem_cons.mp unvisited with ⟨here, before_⟩
      exact .inr ⟨here, since, other, before, rfl, begins, before_⟩
  · rintro (begins | ⟨here, since, other, before, rfl, begins, unvisited⟩)
    · exact ⟨[], entry, earlier, rfl, begins, List.forall_mem_nil _⟩
    · exact ⟨entry :: since, other, before, rfl, begins,
        List.forall_mem_cons.mpr ⟨here, unvisited⟩⟩

/-- An entry in which a known thread is neither announced nor visited. -/
structure Entry.Spares (entry : Entry) (thread : ThreadId) : Prop where
  known : thread ∈ entry.before
  silent : entry.announces? thread = none
  unvisited : entry.visited? ≠ some thread

theorem Entry.Spares.announced? (spares : entry.Spares thread) :
    announced? thread (entry :: earlier) = announced? thread earlier := by
  have notCreated : ¬ entry.Creates thread := fun creates => creates.1 spares.known
  rw [Chronicle.announced?, spares.silent, Option.none_or, if_neg notCreated]

theorem Entry.Spares.firstVisit (spares : entry.Spares thread) :
    FirstVisit thread (entry :: earlier) ↔ FirstVisit thread earlier := by
  rw [firstVisit_cons, or_iff_right, and_iff_right spares.unvisited]
  rintro (creates | ⟨_, _, _, announced, _⟩)
  · exact creates.1 spares.known
  · cases spares.silent.symm.trans announced

end

/-- What a chronicle tells of the record of a thread. -/
structure Tells (thread : ThreadId) (entries : List Entry) (record : ThreadRecord) : Prop where
  name : record.name = currentName thread entries
  adopted : record.adopted = (announced? thread entries).isNone
  unreported : record.nameReported = false ↔ FirstVisit thread entries

section

variable {thread : ThreadId} {entry : Entry} {earlier : List Entry} {record old : ThreadRecord}

/-- A record that nothing concerns stays as it is told. -/
theorem Tells.spared (tells : Tells thread earlier record) (spares : entry.Spares thread) :
    Tells thread (entry :: earlier) record where
  name := by rw [currentName, spares.announced?]; exact tells.name
  adopted := by rw [spares.announced?]; exact tells.adopted
  unreported := tells.unreported.trans spares.firstVisit.symm

/-- A new record has the name that is announced with it, or a placeholder. -/
theorem tells_created (creates : entry.Creates thread)
    (name : record.name = (entry.announces? thread).getD (placeholder thread))
    (adopted : record.adopted = (entry.announces? thread).isNone)
    (unreported : record.nameReported = false) : Tells thread (entry :: earlier) record := by
  have announced : announced? thread (entry :: earlier) = entry.announces? thread := by
    rw [announced?, if_pos creates, Option.or_none]
  refine ⟨?_, ?_, iff_of_true unreported (firstVisit_cons.mpr (.inl (.inl creates)))⟩
  · rw [currentName, announced]
    exact name
  · rw [announced]
    exact adopted

/-- A known thread is announced: the name is to be reported again only if it is another one. -/
theorem Tells.announced {name : String} (tells : Tells thread earlier old)
    (known : entry.before[thread]? = some old) (announces : entry.announces? thread = some name)
    (unvisited : entry.visited? ≠ some thread) (sameName : record.name = name)
    (byHost : record.adopted = false)
    (reported : record.nameReported = (old.nameReported && old.name == name)) :
    Tells thread (entry :: earlier) record := by
  have isNamed : announced? thread (entry :: earlier) = some name := by
    rw [announced?, announces, Option.some_or]
  have notCreated : ¬ entry.Creates thread := fun creates => creates.1 <| by
    rw [Std.ExtTreeMap.mem_iff_isSome_getElem?, known]
    rfl
  have renamed : entry.Renames thread ↔ old.name ≠ name := by
    constructor
    · rintro ⟨_, _, isOld, isName, differ⟩
      cases known.symm.trans isOld
      cases announces.symm.trans isName
      exact differ
    · exact fun differ => ⟨old, name, known, announces, differ⟩
  refine ⟨?_, ?_, ?_⟩
  · rw [currentName, isNamed]
    exact sameName
  · rw [isNamed]
    exact byHost
  · rw [firstVisit_cons, or_iff_right notCreated, renamed, and_iff_right unvisited,
      ← tells.unreported, reported]
    by_cases same : old.name = name <;> simp [same]

/-- A visit reports the name. -/
theorem Tells.visited (tells : Tells thread earlier old) (known : thread ∈ entry.before)
    (silent : entry.announces? thread = none) (visited : entry.visited? = some thread)
    (sameName : record.name = old.name) (sameAdopted : record.adopted = old.adopted)
    (reported : record.nameReported = true) : Tells thread (entry :: earlier) record := by
  have notCreated : ¬ entry.Creates thread := fun creates => creates.1 known
  have notRenamed : ¬ entry.Renames thread := by
    rintro ⟨_, _, _, announced, _⟩
    cases silent.symm.trans announced
  have announced : announced? thread (entry :: earlier) = announced? thread earlier := by
    rw [announced?, silent, Option.none_or, if_neg notCreated]
  refine ⟨?_, ?_, ?_⟩
  · rw [currentName, announced, sameName]
    exact tells.name
  · rw [announced, sameAdopted]
    exact tells.adopted
  · rw [firstVisit_cons, visited, reported]
    simp [notCreated, notRenamed]

end

/-! ## What happens to a record -/

section

variable {σ : Type} {host : Host σ} {sampler : Sampler} {now : Nanoseconds}
  {population : Population} {thread : ThreadId} {record : ThreadRecord}

/-- What visiting a known thread does to its record, and which name it gives. -/
structure Visited (threads : ThreadRegistry) (thread : ThreadId) (record : ThreadRecord)
    (visit : Sampler.Visit) : Prop where
  changes : ∃ changed, visit.population.threads = threads.insert thread changed ∧
    changed.name = record.name ∧ changed.adopted = record.adopted ∧ changed.nameReported = true
  names : visit.records.filterMap Record.naming? =
    if record.nameReported then [] else [(thread, record.name)]

theorem Visited.mem_iff {threads : ThreadRegistry} {visit : Sampler.Visit}
    (visited : Visited threads thread record visit) (known : thread ∈ threads) {other : ThreadId} :
    other ∈ visit.population.threads ↔ other ∈ threads := by
  rcases visited.changes with ⟨changed, changes, -⟩
  rw [changes, Std.ExtTreeMap.mem_insert]
  refine or_iff_right_of_imp fun same => ?_
  rwa [← Std.LawfulEqCmp.eq_of_compare same]

theorem measure_name (timeMode : TimeMode) (record : ThreadRecord) :
    Always (Sampler.measure host timeMode now thread record)
      fun measured => measured.2.name = record.name := by
  cases timeMode with
  | wall => exact always_pure rfl
  | cpu =>
      refine (always_any _).bind fun clock _ => always_pure ?_
      cases clock <;> rfl

/-- A capture names no thread. -/
theorem sampleThread_unnamed (metric : Metric) :
    Always (Sampler.sampleThread host sampler population thread metric) fun visit =>
      visit.population.threads = population.threads ∧
        visit.records.filterMap Record.naming? = [] := by
  refine (always_any _).bind fun captured _ => always_pure ⟨rfl, ?_⟩
  refine List.filterMap_eq_nil_iff.mpr fun record mem => ?_
  rcases captured with ⟨_ | stackList, learned⟩
  · cases List.mem_singleton.mp mem
    rfl
  · rcases List.mem_map.mp mem with ⟨stack, -, rfl⟩
    rfl

theorem visit_visited (known : population.threads[thread]? = some record) :
    Always (Sampler.visit host sampler now population thread)
      (Visited population.threads thread record) := by
  have measures : Always (Sampler.measure host sampler.timeMode now thread record) fun measured =>
      measured.2.name = record.name ∧ measured.2.adopted = record.adopted ∧
        measured.2.nameReported = record.nameReported :=
    fun subject => ⟨measure_name _ record subject, (Sampler.measure_origin _ record subject).2,
      Sampler.measure_keeps _ record subject⟩
  rw [Sampler.visit, known]
  refine measures.query.bind ?_
  rintro ⟨metric, measured⟩ ⟨sameName, sameAdopted, sameReported⟩
  have names : (measured.takeNameReport.1.toList.map (Record.threadName thread)).filterMap
      Record.naming? = if record.nameReported then [] else [(thread, record.name)] := by
    rw [ThreadRecord.takeNameReport, ← sameReported, ← sameName]
    cases measured.nameReported <;> rfl
  dsimp only
  cases metric with
  | none => exact always_pure ⟨⟨_, rfl, sameName, sameAdopted, rfl⟩, names⟩
  | some metric =>
      refine (sampleThread_unnamed metric).bind ?_
      rintro sampled ⟨sameThreads, unnamed⟩
      refine always_pure ⟨⟨_, sameThreads, sameName, sameAdopted, rfl⟩, ?_⟩
      rw [List.filterMap_append, names, unnamed, List.append_nil]

end

theorem getElem?_receive (registry : ThreadRegistry) (now : Nanoseconds)
    (notification : Notification) (thread : ThreadId) :
    (registry.receive now notification)[thread]? = match notification with
      | .threadTracked other name nativeId =>
          if other = thread then
            some (match registry[thread]? with
              | some record =>
                  { record with
                    name := name
                    nameReported := record.nameReported && record.name == name
                    nativeId := nativeId
                    adopted := false }
              | none => { name := name, nativeId := nativeId, lastWall := now })
          else registry[thread]?
      | .threadUntracked other => if other = thread then none else registry[thread]?
      | _ => registry[thread]? := by
  cases notification with
  | threadTracked other name nativeId =>
      rw [ThreadRegistry.receive, ThreadRegistry.track]
      by_cases same : other = thread
      · subst same
        cases registry[other]? <;> simp
      · cases registry[other]? <;>
          simp only [same, if_false, ThreadRegistry.getElem?_insert_of_ne same]
  | threadUntracked other =>
      simp [ThreadRegistry.receive, ThreadRegistry.untrack, Std.ExtTreeMap.getElem?_erase]
  | _ => rfl

section

variable {thread : ThreadId} {earlier : List Entry} {registry : ThreadRegistry}
  {record : ThreadRecord}

theorem mem_of_getElem? (known : registry[thread]? = some record) : thread ∈ registry := by
  rw [Std.ExtTreeMap.mem_iff_isSome_getElem?, known]
  rfl

theorem getElem?_of_mem (present : thread ∈ registry) : ∃ record, registry[thread]? = some record :=
  Option.isSome_iff_exists.mp (Std.ExtTreeMap.mem_iff_isSome_getElem?.mp present)

theorem not_mem_of_getElem? (unknown : registry[thread]? = none) : thread ∉ registry := by
  rw [Std.ExtTreeMap.mem_iff_isSome_getElem?, unknown]
  exact Bool.false_ne_true

variable (before : ∀ old, registry[thread]? = some old → Tells thread earlier old)

include before

theorem tells_reported (now : Nanoseconds) (notification : Notification)
    (known : (registry.receive now notification)[thread]? = some record) :
    Tells thread
      (⟨.reported notification, registry, registry.receive now notification⟩ :: earlier)
      record := by
  have found := known
  rw [getElem?_receive] at found
  cases notification with
  | threadTracked other name nativeId =>
      dsimp only at found
      by_cases same : other = thread
      · subst same
        rw [if_pos rfl] at found
        cases old : registry[other]? with
        | none =>
            rw [old] at found
            cases found
            refine tells_created ⟨not_mem_of_getElem? old, mem_of_getElem? known⟩ ?_ ?_ rfl
            · simp [Entry.announces?]
            · simp [Entry.announces?]
        | some record =>
            rw [old] at found
            cases found
            exact (before record old).announced old (if_pos rfl) nofun rfl rfl rfl
      · rw [if_neg same] at found
        exact (before record found).spared ⟨mem_of_getElem? found, if_neg same, nofun⟩
  | threadUntracked other =>
      dsimp only at found
      split at found
      · cases found
      · exact (before record found).spared ⟨mem_of_getElem? found, rfl, nofun⟩
  | _ => exact (before record found).spared ⟨mem_of_getElem? found, rfl, nofun⟩

theorem tells_listed (answer : Except ReadFault (List ThreadId)) (now : Nanoseconds)
    (known : (registry.aligned answer now)[thread]? = some record) :
    Tells thread (⟨.listed answer, registry, registry.aligned answer now⟩ :: earlier) record := by
  cases ThreadRegistry.getElem?_aligned.mp known with
  | announced found => exact (before record found).spared ⟨mem_of_getElem? found, rfl, nofun⟩
  | held found => exact (before record found).spared ⟨mem_of_getElem? found, rfl, nofun⟩
  | found unknown =>
      exact tells_created ⟨not_mem_of_getElem? unknown, mem_of_getElem? known⟩ rfl rfl rfl

theorem tells_visited {visited : ThreadId} {old : ThreadRecord}
    (present : registry[visited]? = some old) {visit : Sampler.Visit}
    (visits : Visited registry visited old visit)
    (known : visit.population.threads[thread]? = some record) :
    Tells thread (.ofVisit visited registry visit :: earlier) record := by
  rcases visits.changes with ⟨changed, changes, sameName, sameAdopted, reported⟩
  rw [changes] at known
  by_cases same : visited = thread
  · subst same
    rw [Std.ExtTreeMap.getElem?_insert_self] at known
    cases known
    exact (before old present).visited (mem_of_getElem? present) rfl rfl sameName sameAdopted
      reported
  · rw [ThreadRegistry.getElem?_insert_of_ne same] at known
    exact (before record known).spared ⟨mem_of_getElem? known, rfl, same ∘ Option.some.inj⟩

end

/-- What is known of a thread is what the chronicle tells. -/
theorem Records.tells {σ : Type} {host : Host σ} {entries : List Entry} {population : Population}
    (records : Records host entries population) {thread : ThreadId} {record : ThreadRecord}
    (known : population.threads[thread]? = some record) : Tells thread entries record := by
  induction records generalizing record with
  | fresh empty => simp [empty] at known
  | reported records now notification induction =>
      exact tells_reported (fun old => induction) now notification known
  | listed records now subject induction =>
      dsimp only at known ⊢
      rw [Sampler.syncThreads_run] at known ⊢
      exact tells_listed (fun old => induction) _ now known
  | @visited _ population _ sampler now visited present observation induction =>
      rcases getElem?_of_mem present with ⟨old, isOld⟩
      exact tells_visited (fun old => induction) isOld (visit_visited isOld observation) known
  | elsewhere records same induction => exact induction (same ▸ known)

/-! ## What each entry tells -/

theorem mem_threadName_iff {given : List Record} {thread : ThreadId} {name : String} :
    .threadName thread name ∈ given ↔ (thread, name) ∈ given.filterMap Record.naming? := by
  rw [List.mem_filterMap]
  constructor
  · exact fun mem => ⟨_, mem, rfl⟩
  · rintro ⟨record, mem, names⟩
    cases record with
    | threadName other given =>
        cases names
        exact mem
    | _ => cases names

/-- What is true of each entry of a chronicle, given the entries before it. -/
structure Entry.Faithful (entry : Entry) (earlier : List Entry) : Prop where
  known : ∀ thread, entry.visited? = some thread →
    ∃ record, entry.before[thread]? = some record ∧ record.name = currentName thread earlier
  first : ∀ thread, entry.visited? = some thread → FirstVisit thread earlier →
    entry.records.filterMap Record.naming? = [(thread, currentName thread earlier)]
  again : ∀ thread, entry.visited? = some thread → ¬ FirstVisit thread earlier →
    entry.records.filterMap Record.naming? = []
  creates : ∀ thread, entry.Creates thread →
    (∃ name, entry.announces? thread = some name) ∨
      ∃ live, entry.occurrence = .listed (.ok live) ∧ thread ∈ live
  removes : ∀ thread, entry.Removes thread →
    entry.occurrence = .reported (.threadUntracked thread) ∨
      announced? thread earlier = none ∧
        ∃ live, entry.occurrence = .listed (.ok live) ∧ thread ∉ live

section

variable {earlier : List Entry} {registry : ThreadRegistry}

theorem faithful_reported (now : Nanoseconds) (notification : Notification) :
    Entry.Faithful ⟨.reported notification, registry, registry.receive now notification⟩
      earlier where
  known := nofun
  first := nofun
  again := nofun
  creates thread := by
    rintro ⟨unknown, present⟩
    rcases getElem?_of_mem present with ⟨record, found⟩
    rw [getElem?_receive] at found
    have unchanged : registry[thread]? ≠ some record := fun old => unknown (mem_of_getElem? old)
    cases notification with
    | threadTracked other name nativeId =>
        dsimp only at found
        by_cases same : other = thread
        · exact .inl ⟨name, if_pos same⟩
        · rw [if_neg same] at found
          exact absurd found unchanged
    | threadUntracked other =>
        dsimp only at found
        split at found
        · cases found
        · exact absurd found unchanged
    | _ => exact absurd found unchanged
  removes thread := by
    rintro ⟨present, unknown⟩
    rcases getElem?_of_mem present with ⟨old, isOld⟩
    have gone := Std.ExtTreeMap.getElem?_eq_none unknown
    rw [getElem?_receive] at gone
    have stays : registry[thread]? ≠ none := fun none => nomatch isOld.symm.trans none
    cases notification with
    | threadTracked other name nativeId =>
        dsimp only at gone
        split at gone
        · cases gone
        · exact absurd gone stays
    | threadUntracked other =>
        dsimp only at gone
        split at gone
        case isTrue same => exact .inl (same ▸ rfl)
        case isFalse => exact absurd gone stays
    | _ => exact absurd gone stays

theorem faithful_listed (answer : Except ReadFault (List ThreadId)) (now : Nanoseconds)
    (tells : ∀ thread old, registry[thread]? = some old → Tells thread earlier old) :
    Entry.Faithful ⟨.listed answer, registry, registry.aligned answer now⟩ earlier where
  known := nofun
  first := nofun
  again := nofun
  creates thread := by
    rintro ⟨unknown, present⟩
    rcases getElem?_of_mem present with ⟨record, found⟩
    cases ThreadRegistry.getElem?_aligned.mp found with
    | announced known => exact absurd (mem_of_getElem? known) unknown
    | held known => exact absurd (mem_of_getElem? known) unknown
    | found _ readable listed => exact .inr ⟨_, congrArg _ readable, listed⟩
  removes thread := by
    rintro ⟨present, unknown⟩
    rcases getElem?_of_mem present with ⟨old, isOld⟩
    cases answer with
    | error fault => exact absurd present unknown
    | ok live =>
        have gone := Std.ExtTreeMap.getElem?_eq_none unknown
        rw [ThreadRegistry.aligned, ThreadRegistry.getElem?_sync, isOld] at gone
        by_cases listed : thread ∈ live
        · rw [if_pos listed] at gone
          cases gone
        · rw [if_neg listed] at gone
          have adopted : old.adopted = true := by simpa [Option.filter] using gone
          have placeholder : (announced? thread earlier).isNone :=
            (tells thread old isOld).adopted.symm.trans adopted
          exact .inr ⟨Option.isNone_iff_eq_none.mp placeholder, live, rfl, listed⟩

/-- A visit names the thread if it is the first. -/
theorem Visited.names_iff {visited thread : ThreadId} {old : ThreadRecord} {visit : Sampler.Visit}
    (visits : Visited registry visited old visit) (tells : Tells visited earlier old)
    {name : String} :
    .threadName thread name ∈ visit.records ↔
      thread = visited ∧ FirstVisit thread earlier ∧ name = currentName thread earlier := by
  rw [mem_threadName_iff, visits.names]
  have unreported := tells.unreported
  have isName := tells.name
  by_cases same : thread = visited
  · subst same
    cases reported : old.nameReported <;> simp [← unreported, reported, isName]
  · cases old.nameReported <;> simp [same]

theorem faithful_visited {visited : ThreadId} {old : ThreadRecord}
    (present : registry[visited]? = some old) (tells : Tells visited earlier old)
    {visit : Sampler.Visit} (visits : Visited registry visited old visit) :
    (Entry.ofVisit visited registry visit).Faithful earlier where
  known thread := by
    rintro ⟨⟩
    exact ⟨old, present, tells.name⟩
  first thread := by
    rintro ⟨⟩ first
    rw [← tells.name]
    exact visits.names.trans (by rw [tells.unreported.mpr first]; rfl)
  again thread := by
    rintro ⟨⟩ again
    have reported : old.nameReported = true :=
      Bool.not_eq_false _ ▸ fun unreported => again (tells.unreported.mp unreported)
    exact visits.names.trans (by rw [reported]; rfl)
  creates thread := fun creates =>
    absurd ((visits.mem_iff (mem_of_getElem? present)).mp creates.2) creates.1
  removes thread := fun removes =>
    absurd ((visits.mem_iff (mem_of_getElem? present)).mpr removes.1) removes.2

end

/-- Every entry of a chronicle tells what is true, given the entries before it. -/
theorem Records.faithful {σ : Type} {host : Host σ} {entries : List Entry} {population : Population}
    (records : Records host entries population) {entry : Entry} {earlier : List Entry}
    (among : entry :: earlier <:+ entries) : entry.Faithful earlier := by
  induction records with
  | fresh => cases List.suffix_nil.mp among
  | reported records now notification induction =>
      rcases List.suffix_cons_iff.mp among with same | before
      · cases same
        exact faithful_reported now notification
      · exact induction before
  | listed records now subject induction =>
      rcases List.suffix_cons_iff.mp among with same | before
      · cases same
        rw [Sampler.syncThreads_run]
        exact faithful_listed _ now fun _ _ => records.tells
      · exact induction before
  | visited records sampler now present observation induction =>
      rcases List.suffix_cons_iff.mp among with same | before
      · cases same
        rcases getElem?_of_mem present with ⟨old, isOld⟩
        exact faithful_visited isOld (records.tells isOld) (visit_visited isOld observation)
      · exact induction before
  | elsewhere records same induction => exact induction among

/-! ## Passes -/

/-- Threads that are visited in turn, as the latest entries of a chronicle. -/
structure Tour {σ : Type} (host : Host σ) (earlier : List Entry) (list : List ThreadId)
    (visit : Sampler.Visit) (visits : List Entry) : Prop where
  records : Records host (visits ++ earlier) visit.population
  inOrder : visits.reverse.map Entry.visited? = list.map some
  gives : visit.records = visits.reverse.flatMap Entry.records
  names : ∀ thread name, .threadName thread name ∈ visit.records ↔
    thread ∈ list ∧ FirstVisit thread earlier ∧ name = currentName thread earlier

section

variable {σ : Type} {host : Host σ} {sampler : Sampler} {now : Nanoseconds}
  {earlier : List Entry} {population : Population}

theorem visitAll_tour (list : List ThreadId) (once : list.Nodup)
    (known : ∀ thread ∈ list, thread ∈ population.threads)
    (records : Records host earlier population) :
    Always (Sampler.visitAll host sampler now population list) fun visit =>
      ∃ visits, Tour host earlier list visit visits := by
  induction list generalizing population earlier with
  | nil => exact always_pure ⟨[], records, rfl, rfl, by simp⟩
  | cons thread rest induction =>
      rcases List.nodup_cons.mp once with ⟨new, onceLater⟩
      have present := known thread List.mem_cons_self
      rcases getElem?_of_mem present with ⟨old, isOld⟩
      have visits : Always (Sampler.visit host sampler now population thread) fun visit =>
          Records host (.ofVisit thread population.threads visit :: earlier) visit.population ∧
            Visited population.threads thread old visit :=
        fun observation => ⟨records.visited sampler now present observation,
          visit_visited isOld observation⟩
      refine visits.bind fun first isFirst => ?_
      have stillKnown : ∀ other ∈ rest, other ∈ first.population.threads := fun other mem =>
        (isFirst.2.mem_iff present).mpr (known other (List.mem_cons_of_mem _ mem))
      refine (induction onceLater stillKnown isFirst.1).bind ?_
      rintro others ⟨later, tour⟩
      refine always_pure ⟨later ++ [.ofVisit thread population.threads first], ?_, ?_, ?_,
        fun other name => ?_⟩
      · rw [List.append_assoc]
        exact tour.records
      · simpa [Entry.visited?, Entry.ofVisit] using tour.inOrder
      · simpa [Entry.records, Entry.ofVisit] using tour.gives
      · rw [List.mem_append, tour.names, isFirst.2.names_iff (records.tells isOld), List.mem_cons,
          or_and_right]
        -- No thread is visited twice, so the first visit leaves the others as they are told.
        refine or_congr Iff.rfl (and_congr_right fun mem => ?_)
        have spares : (Entry.ofVisit thread population.threads first).Spares other :=
          ⟨known other (List.mem_cons_of_mem _ mem), rfl,
            fun same => new (Option.some.inj same ▸ mem)⟩
        rw [spares.firstVisit, currentName, spares.announced?, ← currentName]

/-- Before its visits a pass reconciles the registry with the interpreter's list. -/
theorem prepare_listed (records : Records host earlier population) :
    Always (Sampler.prepare host sampler now population) fun prepared =>
      ∃ answer, Records host (⟨.listed answer, population.threads, prepared.threads⟩ :: earlier)
        prepared := by
  have discovered : Always (Sampler.discoverTasks host sampler population) fun found =>
      found.threads = population.threads := by
    rw [Sampler.discoverTasks]
    split
    · exact always_pure rfl
    · exact (always_any _).bind fun _ _ => always_pure rfl
  refine discovered.bind fun found same subject => ?_
  rw [← same, StateT.run_bind]
  exact ⟨_, (records.elsewhere same).listed now subject⟩

theorem visited_eq_keys (included : sampler.excluded = []) (threads : ThreadRegistry) :
    sampler.visited threads = threads.keys := by
  have all : ∀ entry ∈ threads.toList, (!sampler.excludes entry.2) = true := fun entry _ => by
    simp [Sampler.excludes, included]
  rw [Sampler.visited, List.filter_eq_self.mpr all, Std.ExtTreeMap.map_fst_toList_eq_keys]

/-- A pass without exclusions visits all threads that are known once the list has been asked for. -/
theorem sampleAll_tour (included : sampler.excluded = [])
    (records : Records host earlier population) :
    Always (Sampler.sampleAll host sampler now population) fun passed =>
      ∃ answer after visits, Tour host (⟨.listed answer, population.threads, after⟩ :: earlier)
        after.keys passed.1 visits := by
  refine (prepare_listed records).bind ?_
  rintro prepared ⟨answer, listed⟩
  rw [visited_eq_keys included]
  have once : prepared.threads.keys.Nodup := Std.ExtTreeMap.nodup_keys
  have tours : Always (Sampler.visitAll host sampler now prepared prepared.threads.keys) _ :=
    visitAll_tour prepared.threads.keys once (fun _ => Std.ExtTreeMap.mem_keys.mp) listed
  refine (Sampler.withWalker_always tours).bind ?_
  rintro visit ⟨visits, tour⟩
  exact always_pure ⟨answer, prepared.threads, visits,
    ⟨tour.records.elsewhere rfl, tour.inOrder, tour.gives, tour.names⟩⟩

end

/--
Whatever has happened, each entry of the chronicle tells what is true.  A pass without exclusions
then visits all threads that are known once the list has been asked for, and it names those that it
visits for the first time since their records came to be or were renamed.
-/
theorem named {σ : Type} {host : Host σ} {entries : List Entry} {population : Population}
    (records : Records host entries population) (sampler : Sampler)
    (included : sampler.excluded = []) (now : Nanoseconds) (subject : σ) :
    (∀ entry earlier, entry :: earlier <:+ entries → entry.Faithful earlier) ∧
    ∃ answer after visits, Tour host (⟨.listed answer, population.threads, after⟩ :: entries)
      after.keys ((sampler.sampleAll host now population).run subject).1.1 visits :=
  ⟨fun _ _ => records.faithful, sampleAll_tour included records subject⟩

/-- A sampler by wall time that leaves out nothing. -/
def leavingNothing : Sampler where
  timeMode := .wall
  walker := .new ⟨3, 11⟩ 8

/-- A thread that the host has just announced. -/
def announced : Population :=
  Population.receive 0 {} (.threadTracked 1 "main" 100)

/-- The first visit of that thread. -/
def mainVisit : Sampler.Visit :=
  ((Sampler.visit Sampler.threeListed leavingNothing 5000 announced 1).run
    ⟨leavingNothing.walker, ()⟩).1

/-- Then the host announces the thread under another name. -/
def renamed : Population :=
  mainVisit.population.receive 6000 (.threadTracked 1 "poller" 100)

/-- All this as a chronicle. -/
def story : List Entry :=
  [⟨.reported (.threadTracked 1 "poller" 100), mainVisit.population.threads, renamed.threads⟩,
    .ofVisit 1 announced.threads mainVisit,
    ⟨.reported (.threadTracked 1 "main" 100), ∅, announced.threads⟩]

theorem story_records : Records Sampler.threeListed story renamed :=
  (((Records.fresh rfl).reported 0 (.threadTracked 1 "main" 100)).visited leavingNothing 5000
    (by decide) ⟨leavingNothing.walker, ()⟩).reported 6000 (.threadTracked 1 "poller" 100)

/-- A pass after the thread was renamed. -/
theorem named_story :
    (Records Sampler.threeListed story renamed ∧ leavingNothing.excluded = []) ∧
      (∀ entry earlier, entry :: earlier <:+ story → entry.Faithful earlier) ∧
      ∃ answer after visits,
        Tour Sampler.threeListed (⟨.listed answer, renamed.threads, after⟩ :: story) after.keys
          ((leavingNothing.sampleAll Sampler.threeListed 9000 renamed).run ()).1.1 visits :=
  ⟨⟨story_records, rfl⟩, named story_records leavingNothing rfl 9000 ()⟩

end Chronicle

end StackSampler
