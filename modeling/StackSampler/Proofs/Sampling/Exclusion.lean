import StackSampler.Proofs.Sampling.Groups

/-!
# Threads that are left out

A pass and a dump each begin with a look at the interpreter's list, which may drop placeholders and
take up threads that nobody has announced; the native identity of any other thread stays what it
was.  What is shown afterwards is of threads whose native identity is not excluded, however the
capture of each of them ends.
-/

namespace StackSampler

/-- The thread that a record is about. -/
def Record.thread? : Record → Option ThreadId
  | .header _ => none
  | .threadName thread _ => some thread
  | .sample captured => some captured.thread
  | .marker missed => some missed.thread

/-! ## Native identities -/

namespace ThreadRegistry

variable {registry before after : ThreadRegistry} {thread : ThreadId} {native : NativeId}

/-- The native identity recorded for a thread, and whether the record is a placeholder. -/
def origin? (registry : ThreadRegistry) (thread : ThreadId) : Option (NativeId × Bool) :=
  registry[thread]?.map fun record => (record.nativeId, record.adopted)

/-- The registry records a native identity for a thread. -/
def RunsOn (registry : ThreadRegistry) (native : NativeId) (thread : ThreadId) : Prop :=
  ∃ adopted, registry.origin? thread = some (native, adopted)

/-- No placeholder has a native identity of its own. -/
def Tidy (registry : ThreadRegistry) : Prop :=
  ∀ thread native, registry.origin? thread = some (native, true) → native = 0

/-- What a look at the interpreter's list may do to the record of a thread. -/
inductive Aligns : Option (NativeId × Bool) → Option (NativeId × Bool) → Prop
  | kept (origin : Option (NativeId × Bool)) : Aligns origin origin
  | found : Aligns none (some (0, true))
  | dropped (native : NativeId) : Aligns (some (native, true)) none

theorem origin?_of_getElem? {record : ThreadRecord} (known : registry[thread]? = some record) :
    registry.origin? thread = some (record.nativeId, record.adopted) := by
  rw [origin?, known]
  rfl

theorem RunsOn.unique {other : NativeId} (runsOn : registry.RunsOn native thread)
    (runsOther : registry.RunsOn other thread) : native = other := by
  rcases runsOn with ⟨adopted, origin⟩
  rcases runsOther with ⟨otherAdopted, otherOrigin⟩
  rw [origin] at otherOrigin
  cases otherOrigin
  rfl

theorem origin?_insert (registry : ThreadRegistry) (thread : ThreadId) (record : ThreadRecord)
    (other : ThreadId) :
    origin? (registry.insert thread record) other =
      if thread = other then some (record.nativeId, record.adopted)
      else registry.origin? other := by
  rw [origin?]
  by_cases same : thread = other
  · subst same
    simp
  · rw [getElem?_insert_of_ne same, if_neg same]
    rfl

/-- Changing what else is known of a thread leaves the native identities as they are. -/
theorem origin?_insert_of_same {record changed : ThreadRecord}
    (known : registry[thread]? = some record) (sameNative : changed.nativeId = record.nativeId)
    (sameAdopted : changed.adopted = record.adopted) :
    origin? (registry.insert thread changed) = registry.origin? := by
  funext other
  rw [origin?_insert]
  split
  · rename_i same
    rw [← same, origin?_of_getElem? known, sameNative, sameAdopted]
  · rfl

theorem aligns_aligned (registry : ThreadRegistry)
    (listing : Except ReadFault (List ThreadId)) (now : Nanoseconds) (thread : ThreadId) :
    Aligns (registry.origin? thread) ((registry.aligned listing now).origin? thread) := by
  cases listing with
  | error fault => exact .kept _
  | ok live =>
      rw [aligned, origin?, origin?, getElem?_sync]
      by_cases listed : thread ∈ live
      · rw [if_pos listed]
        cases registry[thread]? with
        | none => exact .found
        | some record => exact .kept _
      · rw [if_neg listed]
        cases registry[thread]? with
        | none => exact .kept _
        | some record =>
            cases adopted : record.adopted with
            | false =>
                simp only [Option.filter, Option.map_some, adopted, Bool.not_false, if_true]
                exact .kept _
            | true =>
                simp only [Option.filter, Option.map_some, adopted, Bool.not_true]
                exact .dropped record.nativeId

theorem Tidy.of_aligns (tidy : before.Tidy)
    (aligns : ∀ thread, Aligns (before.origin? thread) (after.origin? thread)) : after.Tidy := by
  intro thread native placeholder
  have aligned := aligns thread
  rw [placeholder] at aligned
  generalize origin : before.origin? thread = old at aligned
  cases aligned with
  | kept => exact tidy thread native origin
  | found => rfl

/-- A look at the list does not change the native identity of a thread that stays. -/
theorem runsOn_unique_of_aligns {other : NativeId}
    (aligns : ∀ thread, Aligns (before.origin? thread) (after.origin? thread))
    (runsOn : before.RunsOn native thread) (runsOther : after.RunsOn other thread) :
    native = other := by
  rcases runsOn with ⟨adopted, origin⟩
  rcases runsOther with ⟨otherAdopted, otherOrigin⟩
  have aligned := aligns thread
  rw [origin, otherOrigin] at aligned
  cases aligned
  rfl

/--
Two looks do not change it either: a placeholder that is dropped and taken up again has no native
identity of its own.
-/
theorem runsOn_unique_of_aligns_twice {middle : ThreadRegistry} {other : NativeId}
    (tidy : before.Tidy)
    (first : ∀ thread, Aligns (before.origin? thread) (middle.origin? thread))
    (second : ∀ thread, Aligns (middle.origin? thread) (after.origin? thread))
    (runsOn : before.RunsOn native thread) (runsOther : after.RunsOn other thread) :
    native = other := by
  rcases runsOn with ⟨adopted, origin⟩
  rcases runsOther with ⟨otherAdopted, otherOrigin⟩
  have toMiddle := first thread
  have toEnd := second thread
  rw [origin] at toMiddle
  rw [otherOrigin] at toEnd
  generalize middle.origin? thread = between at toMiddle toEnd
  cases toMiddle with
  | kept =>
      cases toEnd
      rfl
  | dropped =>
      cases toEnd
      exact tidy thread native origin

end ThreadRegistry

/-! ## What is shown -/

/--
What a look at the threads comes to: the registry follows the interpreter's list, and what is shown
is of threads that are not excluded.
-/
structure Look (excluded : List NativeId) (before after : ThreadRegistry)
    (shown : List ThreadId) : Prop where
  aligns : ∀ thread, ThreadRegistry.Aligns (before.origin? thread) (after.origin? thread)
  included : ∀ thread ∈ shown, ∃ native, after.RunsOn native thread ∧ native ∉ excluded

namespace Sampler

open ThreadRegistry

variable {σ : Type} {host : Host σ} {sampler : Sampler} {now : Nanoseconds}
  {population : Population} {thread : ThreadId}

theorem measure_origin (timeMode : TimeMode) (record : ThreadRecord) :
    Always (measure host timeMode now thread record) fun measured =>
      measured.2.nativeId = record.nativeId ∧ measured.2.adopted = record.adopted := by
  cases timeMode with
  | wall => exact always_pure ⟨rfl, rfl⟩
  | cpu =>
      refine (always_any _).bind fun clock _ => always_pure ?_
      cases clock <;> exact ⟨rfl, rfl⟩

theorem captureRecords_thread? (timeMode : TimeMode) (metric : Metric)
    (captured : Except CaptureError (List Stack)) :
    ∀ record ∈ captureRecords timeMode thread metric captured, record.thread? = some thread := by
  intro record mem
  cases captured with
  | ok stackList =>
      rcases List.mem_map.mp mem with ⟨stack, -, rfl⟩
      rfl
  | error error =>
      cases List.mem_singleton.mp mem
      rfl

/-- Records that are about some threads only, by visits that change no native identity. -/
structure Concerns (threads : ThreadRegistry) (list : List ThreadId) (visit : Visit) : Prop where
  about : ∀ record ∈ visit.records, ∃ thread ∈ list, record.thread? = some thread
  origins : origin? visit.population.threads = threads.origin?

theorem sampleThread_concerns (metric : Metric) :
    Always (sampleThread host sampler population thread metric)
      (Concerns population.threads [thread]) := by
  refine (always_any _).bind fun captured _ => always_pure ⟨?_, rfl⟩
  intro record mem
  exact ⟨thread, List.mem_singleton_self thread,
    captureRecords_thread? sampler.timeMode metric captured.1 record mem⟩

theorem visit_concerns :
    Always (visit host sampler now population thread)
      (Concerns population.threads [thread]) := by
  rw [visit]
  split
  · exact always_pure ⟨List.forall_mem_nil _, rfl⟩
  · rename_i record found
    refine (measure_origin sampler.timeMode record).query.bind ?_
    rintro ⟨metric, measured⟩ ⟨sameNative, sameAdopted⟩
    have origins : origin? (population.threads.insert thread measured.takeNameReport.2) =
        origin? population.threads :=
      origin?_insert_of_same found sameNative sameAdopted
    have naming : ∀ named ∈ measured.takeNameReport.1.toList.map (Record.threadName thread),
        ∃ other ∈ [thread], named.thread? = some other := by
      intro named mem
      rcases List.mem_map.mp mem with ⟨name, -, rfl⟩
      exact ⟨thread, List.mem_singleton_self thread, rfl⟩
    dsimp only
    cases metric with
    | none => exact always_pure ⟨naming, origins⟩
    | some metric =>
        refine (sampleThread_concerns metric).bind fun sampled concerns => always_pure ⟨?_, ?_⟩
        · intro record mem
          rcases List.mem_append.mp mem with named | captured
          · exact naming record named
          · exact concerns.about record captured
        · exact concerns.origins.trans origins

theorem visitAll_concerns (list : List ThreadId) :
    Always (visitAll host sampler now population list) (Concerns population.threads list) := by
  induction list generalizing population with
  | nil => exact always_pure ⟨List.forall_mem_nil _, rfl⟩
  | cons thread rest induction =>
      refine visit_concerns.bind fun first isFirst => ?_
      refine induction.bind fun others areOthers => always_pure ⟨?_, ?_⟩
      · intro record mem
        rcases List.mem_append.mp mem with here | later
        · rcases isFirst.about record here with ⟨other, among, about⟩
          cases List.mem_singleton.mp among
          exact ⟨thread, List.mem_cons_self .., about⟩
        · rcases areOthers.about record later with ⟨other, among, about⟩
          exact ⟨other, List.mem_cons_of_mem thread among, about⟩
      · exact areOthers.origins.trans isFirst.origins

/-- Before the visits the threads are brought in line with some list, and nothing else is done. -/
theorem prepare_aligns :
    Always (prepare host sampler now population) fun prepared =>
      ∀ thread, Aligns (population.threads.origin? thread) (prepared.threads.origin? thread) := by
  have discovered : Always (discoverTasks host sampler population) fun found =>
      found.threads = population.threads := by
    rw [discoverTasks]
    split
    · exact always_pure rfl
    · exact (always_any _).bind fun _ _ => always_pure rfl
  refine discovered.bind fun found same => ?_
  intro subject thread
  rw [← same, StateT.run_bind, syncThreads_run]
  exact aligns_aligned _ _ _ _

theorem included_of_visited {threads : ThreadRegistry}
    (visited : thread ∈ sampler.visited threads) :
    ∃ native, threads.RunsOn native thread ∧ native ∉ sampler.excluded := by
  rcases mem_visited.mp visited with ⟨record, known, included⟩
  exact ⟨record.nativeId, ⟨record.adopted, origin?_of_getElem? known⟩, included⟩

/-- Using the walker leaves the sampler with what it excludes. -/
theorem withWalker_excluded {α : Type} {work : Observing σ α} {kind : α → Prop}
    (always : Always work kind) :
    Always (sampler.withWalker work) fun answer =>
      answer.2.excluded = sampler.excluded ∧ kind answer.1 :=
  fun subject => ⟨rfl, always ⟨sampler.walker, subject⟩⟩

/-- A pass records only threads that are not excluded. -/
theorem sampleAll_looks :
    Always (sampleAll host sampler now population) fun passed =>
      passed.2.excluded = sampler.excluded ∧
        Look sampler.excluded population.threads passed.1.population.threads
          (passed.1.records.filterMap Record.thread?) := by
  refine prepare_aligns.bind fun prepared aligns => ?_
  refine (withWalker_excluded (visitAll_concerns (sampler.visited prepared.threads))).bind ?_
  rintro ⟨visit, after⟩ ⟨sameExcluded, concerns⟩
  refine always_pure ⟨sameExcluded, ?_, ?_⟩
  · intro thread
    dsimp only
    rw [concerns.origins]
    exact aligns thread
  · intro thread shown
    rcases List.mem_filterMap.mp shown with ⟨record, mem, about⟩
    rcases concerns.about record mem with ⟨other, among, aboutOther⟩
    rw [about] at aboutOther
    cases aboutOther
    rcases included_of_visited among with ⟨native, ⟨adopted, origin⟩, included⟩
    exact ⟨native, ⟨adopted, concerns.origins ▸ origin⟩, included⟩

theorem dumpAll_shows (list : List ThreadId) :
    Always (dumpAll host sampler population list) fun dumped =>
      ∀ dump ∈ dumped.1, dump.thread ∈ list := by
  induction list generalizing population with
  | nil => exact always_pure (List.forall_mem_nil _)
  | cons thread rest induction =>
      rw [dumpAll]
      split
      · exact induction.imp fun _ shows dump mem => List.mem_cons_of_mem thread (shows dump mem)
      · refine (always_any _).bind fun captured _ => ?_
        refine induction.bind fun others shows => always_pure fun dump mem => ?_
        rcases List.mem_cons.mp mem with rfl | later
        · exact List.mem_cons_self ..
        · exact List.mem_cons_of_mem thread (shows dump later)

/-- A dump shows only threads that are not excluded. -/
theorem captureAll_looks :
    Always (captureAll host sampler now population) fun captured =>
      captured.2.excluded = sampler.excluded ∧
        Look sampler.excluded population.threads captured.1.2.threads
          (captured.1.1.map (·.thread)) := by
  refine prepare_aligns.bind fun prepared aligns => ?_
  have shows : Always (dumpAll host sampler prepared (sampler.visited prepared.threads))
      fun dumped => dumped.2.threads = prepared.threads ∧
        ∀ dump ∈ dumped.1, dump.thread ∈ sampler.visited prepared.threads :=
    fun observation => ⟨dumpAll_keeps _ observation, dumpAll_shows _ observation⟩
  refine (withWalker_excluded shows).imp ?_
  rintro ⟨⟨dumps, after⟩, changed⟩ ⟨sameExcluded, sameThreads, visited⟩
  dsimp only at sameThreads visited
  refine ⟨sameExcluded, ?_, ?_⟩
  · rw [sameThreads]
    exact aligns
  · intro thread shown
    rcases List.mem_map.mp shown with ⟨dump, mem, rfl⟩
    rw [sameThreads]
    exact included_of_visited (visited dump mem)

end Sampler

end StackSampler
