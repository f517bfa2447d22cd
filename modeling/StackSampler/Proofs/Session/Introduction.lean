import Mathlib.Data.List.Basic
import StackSampler.Session.Basic

/-!
# Naming threads before they are sampled

A pass over the threads and the recording of an allocation name a thread in the stream when its name
has not been reported yet, and only then.  Whoever reads the records therefore knows each sampled
thread by name, if he knew beforehand the threads whose name the registry takes for reported.

The main statements are `Sampler.sampleAll_introduces`, `AllocationTracker.allocate_introduces` and
`AllocationTracker.free_introduces`: what a reader has to know beforehand, and what he knows
afterwards.
-/

namespace StackSampler

/-! ## What a reader knows -/

/-- Records hold a name of a thread. -/
def IsNamed (records : List Record) (thread : ThreadId) : Prop :=
  ∃ name, .threadName thread name ∈ records

/-- The threads that are known once some records have been read. -/
def KnownAfter (known : ThreadId → Prop) (records : List Record) (thread : ThreadId) : Prop :=
  known thread ∨ IsNamed records thread

/-- Each sample is of a thread that is known by then. -/
def Introduces (known : ThreadId → Prop) (records : List Record) : Prop :=
  ∀ front sample back, records = front ++ .sample sample :: back →
    KnownAfter known front sample.thread

variable {known : ThreadId → Prop} {records first second : List Record} {thread : ThreadId}

theorem knownAfter_append :
    KnownAfter known (first ++ second) thread ↔
      KnownAfter (KnownAfter known first) second thread := by
  simp only [KnownAfter, IsNamed, List.mem_append, exists_or, or_assoc]

@[simp]
theorem knownAfter_nil : KnownAfter known [] thread ↔ known thread := by
  simp [KnownAfter, IsNamed]

theorem KnownAfter.mono {more : ThreadId → Prop} (grows : ∀ thread, known thread → more thread)
    (after : KnownAfter known records thread) : KnownAfter more records thread :=
  after.imp_left (grows thread)

theorem Introduces.mono {more : ThreadId → Prop} (grows : ∀ thread, known thread → more thread)
    (introduces : Introduces known records) : Introduces more records :=
  fun front sample back split => (introduces front sample back split).mono grows

/-- Nobody has to be named in records that sample only known threads. -/
theorem introduces_of_forall
    (samples : ∀ sample, .sample sample ∈ records → known sample.thread) :
    Introduces known records := by
  rintro front sample back rfl
  exact .inl (samples sample (by simp))

theorem introduces_nil : Introduces known [] :=
  introduces_of_forall nofun

theorem Introduces.append
    (introduces : Introduces known first) (later : Introduces (KnownAfter known first) second) :
    Introduces known (first ++ second) := by
  intro front sample back whole
  rcases List.append_eq_append_iff.mp whole with
    ⟨more, rfl, split⟩ | ⟨rest, rfl, split⟩
  · exact knownAfter_append.mpr (later more sample back split)
  · cases rest with
    | nil =>
        have here := later [] sample back split.symm
        simpa using here
    | cons record rest =>
        rcases List.cons_eq_cons.mp split with ⟨rfl, -⟩
        exact introduces front sample rest rfl

/-! ## The registry -/

namespace ThreadRegistry

/-- The threads whose name counts as reported are known. -/
def Reported (known : ThreadId → Prop) (registry : ThreadRegistry) : Prop :=
  ∀ thread record, registry[thread]? = some record → record.nameReported = true → known thread

variable {registry : ThreadRegistry}

theorem reported_empty : Reported known ∅ := by
  intro thread record found
  simp at found

theorem Reported.mono {more : ThreadId → Prop} (grows : ∀ thread, known thread → more thread)
    (reported : Reported known registry) : Reported more registry :=
  fun thread record found named => grows thread (reported thread record found named)

theorem Reported.insert (reported : Reported known registry) {record : ThreadRecord}
    (named : record.nameReported = true → known thread) :
    Reported known (registry.insert thread record) := by
  intro other found isFound
  rw [Std.ExtTreeMap.getElem?_insert] at isFound
  split at isFound
  · rename_i same
    cases isFound
    rw [← Std.LawfulEqCmp.eq_of_compare same]
    exact named
  · exact reported other found isFound

theorem Reported.track (reported : Reported known registry) (name : String) (nativeId : NativeId)
    (now : Nanoseconds) : Reported known (registry.track thread name nativeId now) := by
  rw [ThreadRegistry.track]
  split
  · rename_i record found
    refine reported.insert fun named => reported thread record found ?_
    simp only [Bool.and_eq_true] at named
    exact named.1
  · exact reported.insert (fun named => by cases named)

theorem Reported.untrack (reported : Reported known registry) :
    Reported known (registry.untrack thread) := by
  intro other record found
  rw [ThreadRegistry.untrack, Std.ExtTreeMap.getElem?_erase] at found
  split at found
  · cases found
  · exact reported other record found

theorem Reported.adopt (reported : Reported known registry) (now : Nanoseconds) :
    Reported known (registry.adopt now thread) := by
  intro other record found
  rw [ThreadRegistry.adopt, Std.ExtTreeMap.getElem?_insertIfNew] at found
  split at found
  · cases found
    nofun
  · exact reported other record found

theorem Reported.sync (reported : Reported known registry) (live : List ThreadId)
    (now : Nanoseconds) : Reported known (registry.sync live now) := by
  have kept : Reported known
      (registry.filter fun thread record => !record.adopted || live.contains thread) := by
    intro thread record found
    rw [Std.ExtTreeMap.getElem?_filter', Option.filter_eq_some_iff] at found
    exact reported thread record found.1
  rw [ThreadRegistry.sync]
  generalize registry.filter _ = remaining at kept
  induction live generalizing remaining with
  | nil => exact kept
  | cons thread rest induction => exact induction _ (kept.adopt now)

theorem Reported.receive (reported : Reported known registry) (now : Nanoseconds)
    (notification : Notification) : Reported known (registry.receive now notification) := by
  cases notification with
  | threadTracked thread name nativeId => exact reported.track name nativeId now
  | threadUntracked => exact reported.untrack
  | _ => exact reported

end ThreadRegistry

/--
Records that are new in the stream sample only threads that are known by then, and with them the
registry is right about the names that are reported.
-/
structure Introducing (known : ThreadId → Prop) (records : List Record)
    (threads : ThreadRegistry) : Prop where
  introduces : Introduces known records
  reported : threads.Reported (KnownAfter known records)

/-- Reporting the name of a thread makes it known, unless it was known before. -/
theorem introducing_name {threads : ThreadRegistry} (reported : threads.Reported known)
    (thread : ThreadId) (record : ThreadRecord)
    (kept : record.nameReported = true → known thread) :
    let taken := record.takeNameReport
    let names := taken.1.toList.map (.threadName thread)
    Introducing known names (threads.insert thread taken.2) ∧ KnownAfter known names thread := by
  intro taken names
  have here : KnownAfter known names thread := by
    cases named : record.nameReported with
    | true => exact .inl (kept named)
    | false => exact .inr ⟨record.name, by simp [names, taken, ThreadRecord.takeNameReport, named]⟩
  refine ⟨⟨introduces_of_forall fun sample mem => ?_, ?_⟩, here⟩
  · rcases List.mem_map.mp mem with ⟨name, -, same⟩
    cases same
  · exact (reported.mono fun _ => .inl).insert fun _ => here

/-- Samples of a thread that is known by then may follow. -/
theorem Introducing.append_samples {threads : ThreadRegistry}
    (introducing : Introducing known first threads) (here : KnownAfter known first thread)
    (samples : ∀ sample, .sample sample ∈ second → sample.thread = thread) :
    Introducing known (first ++ second) threads where
  introduces := introducing.introduces.append
    (introduces_of_forall fun sample mem => samples sample mem ▸ here)
  reported := introducing.reported.mono fun _ => knownAfter_append.mpr ∘ .inl

/-! ## Whatever the program does meanwhile -/

/-- Work that ends with an answer of a kind, whatever it finds. -/
def Always {σ α : Type} (work : StateM σ α) (kind : α → Prop) : Prop :=
  ∀ state, kind (work.run state).1

section

variable {σ α β : Type} {work : StateM σ α} {kind : α → Prop} {other : β → Prop}

theorem always_pure {answer : α} (fits : kind answer) : Always (pure answer : StateM σ α) kind :=
  fun _ => fits

theorem always_any (work : StateM σ α) : Always work fun _ => True :=
  fun _ => trivial

theorem Always.bind {next : α → StateM σ β} (first : Always work kind)
    (later : ∀ answer, kind answer → Always (next answer) other) :
    Always (work >>= next) other :=
  fun state => later _ (first state) (work.run state).2

theorem Always.imp {weaker : α → Prop} (always : Always work kind)
    (weakens : ∀ answer, kind answer → weaker answer) : Always work weaker :=
  fun state => weakens _ (always state)

theorem Always.query (always : Always work kind) : Always (Observing.query work) kind :=
  fun observation => always observation.subject

end

/-! ## A pass over the threads -/

namespace Sampler

variable {σ : Type} {host : Host σ} {sampler : Sampler} {now : Nanoseconds}
  {population : Population}

theorem measure_keeps (timeMode : TimeMode) (record : ThreadRecord) :
    Always (measure host timeMode now thread record)
      fun measured => measured.2.nameReported = record.nameReported := by
  cases timeMode with
  | wall => exact always_pure rfl
  | cpu =>
      refine (always_any _).bind fun clock _ => always_pure ?_
      cases clock <;> rfl

theorem captureRecords_concern (timeMode : TimeMode) (metric : Metric)
    (captured : Except CaptureError (List Stack)) {sample : Sample}
    (mem : .sample sample ∈ captureRecords timeMode thread metric captured) :
    sample.thread = thread := by
  cases captured with
  | ok stackList =>
      rcases List.mem_map.mp mem with ⟨stack, -, same⟩
      cases same
      rfl
  | error error => simp [captureRecords] at mem

theorem sampleThread_keeps (metric : Metric) :
    Always (sampleThread host sampler population thread metric) fun visit =>
      visit.population.threads = population.threads ∧
        ∀ sample, .sample sample ∈ visit.records → sample.thread = thread :=
  (always_any _).bind fun captured _ => always_pure
    ⟨rfl, fun _ => captureRecords_concern sampler.timeMode metric captured.1⟩

theorem visit_introduces (reported : population.threads.Reported known) :
    Always (visit host sampler now population thread) fun visit =>
      Introducing known visit.records visit.population.threads := by
  rw [visit]
  split
  · exact always_pure ⟨introduces_nil, reported.mono fun _ => knownAfter_nil.mpr⟩
  · rename_i record found
    refine (measure_keeps sampler.timeMode record).query.bind ?_
    rintro ⟨metric, measured⟩ kept
    rcases introducing_name reported thread measured
      (fun named => reported thread record found (kept ▸ named)) with ⟨introducing, here⟩
    dsimp only
    cases metric with
    | none => exact always_pure introducing
    | some metric =>
        refine (sampleThread_keeps metric).bind fun sampled keeps => always_pure ?_
        rw [keeps.1]
        exact introducing.append_samples here keeps.2

theorem visitAll_introduces (reported : population.threads.Reported known)
    (threads : List ThreadId) :
    Always (visitAll host sampler now population threads) fun visit =>
      Introducing known visit.records visit.population.threads := by
  induction threads generalizing population known with
  | nil =>
      exact always_pure ⟨introduces_nil, reported.mono fun _ => knownAfter_nil.mpr⟩
  | cons thread rest induction =>
      refine (visit_introduces reported).bind fun first isFirst => ?_
      refine (induction isFirst.reported).bind fun others areOthers => always_pure ?_
      exact ⟨isFirst.introduces.append areOthers.introduces,
        areOthers.reported.mono fun _ => knownAfter_append.mpr⟩

theorem syncThreads_keeps (reported : population.threads.Reported known) :
    Always (syncThreads host now population.threads) fun threads => threads.Reported known := by
  refine (always_any _).bind fun listed _ => ?_
  cases listed with
  | ok live => exact always_pure (reported.sync live now)
  | error fault => exact always_pure reported

theorem prepare_keeps (reported : population.threads.Reported known) :
    Always (prepare host sampler now population) fun prepared =>
      prepared.threads.Reported known := by
  have discovered : Always (discoverTasks host sampler population) fun found =>
      found.threads = population.threads := by
    rw [discoverTasks]
    split
    · exact always_pure rfl
    · exact (always_any _).bind fun _ _ => always_pure rfl
  refine discovered.bind fun found same => ?_
  rw [← same] at reported
  exact (syncThreads_keeps reported).bind fun _ synced => always_pure synced

theorem withWalker_always {α : Type} {work : Observing σ α} {kind : α → Prop}
    (always : Always work kind) :
    Always (sampler.withWalker work) fun answer => kind answer.1 :=
  fun subject => always ⟨sampler.walker, subject⟩

/-- A pass names each thread that it samples and that is not known. -/
theorem sampleAll_introduces (reported : population.threads.Reported known) :
    Always (sampleAll host sampler now population) fun passed =>
      Introducing known passed.1.records passed.1.population.threads := by
  refine (prepare_keeps reported).bind fun prepared kept => ?_
  exact (withWalker_always (visitAll_introduces kept _)).bind fun visited introducing =>
    always_pure introducing

theorem dumpAll_keeps (threads : List ThreadId) :
    Always (dumpAll host sampler population threads) fun dumped =>
      dumped.2.threads = population.threads := by
  induction threads generalizing population with
  | nil => exact always_pure rfl
  | cons thread rest induction =>
      rw [dumpAll]
      split
      · exact induction
      · refine (always_any _).bind fun captured _ => ?_
        exact induction.bind fun _ same => always_pure same

theorem captureAll_keeps (reported : population.threads.Reported known) :
    Always (captureAll host sampler now population) fun captured =>
      captured.1.2.threads.Reported known := by
  refine (prepare_keeps reported).bind fun prepared kept => ?_
  exact withWalker_always ((dumpAll_keeps _).imp fun _ same => same ▸ kept)

end Sampler

/-! ## Recording allocations -/

namespace AllocationTracker

variable {σ : Type} {interpreter : Interpreter σ} {tracker : AllocationTracker}
  {registry : ThreadRegistry}

/-- The threads whose allocations are kept are known. -/
def Tells (known : ThreadId → Prop) (tracker : AllocationTracker) : Prop :=
  ∀ (address : UInt64) (allocation : LiveAllocation),
    tracker.live[address]? = some allocation → known allocation.thread

theorem tells_empty {walker : Walker} :
    ({ walker := walker } : AllocationTracker).Tells known := by
  intro address allocation found
  simp at found

theorem Tells.mono {more : ThreadId → Prop} (grows : ∀ thread, known thread → more thread)
    (tells : tracker.Tells known) : tracker.Tells more :=
  fun address allocation found => grows allocation.thread (tells address allocation found)

theorem nameRecords_introducing (reported : registry.Reported known)
    (here : registry.contains thread = true ∨ known thread) :
    Introducing known (nameRecords registry thread).1 (nameRecords registry thread).2 ∧
      KnownAfter known (nameRecords registry thread).1 thread := by
  rw [nameRecords]
  cases found : registry[thread]? with
  | none =>
      refine ⟨⟨introduces_nil, reported.mono fun _ => knownAfter_nil.mpr⟩, .inl ?_⟩
      refine here.resolve_left fun contained => ?_
      rw [Std.ExtTreeMap.contains_eq_isSome_getElem?, found] at contained
      cases contained
  | some record => exact introducing_name reported thread record (reported thread record found)

theorem keep_tells (tells : tracker.Tells known) (address : UInt64) {allocation : LiveAllocation}
    (here : known allocation.thread) :
    (∀ sample, .sample sample ∈ (tracker.keep address allocation).1 →
      sample.thread = allocation.thread) ∧ (tracker.keep address allocation).2.Tells known := by
  rw [keep]
  split
  · exact ⟨nofun, tells⟩
  · refine ⟨fun sample mem => ?_, fun other found isFound => ?_⟩
    · cases List.mem_singleton.mp mem
      rfl
    · simp only [Std.ExtTreeMap.getElem?_insert] at isFound
      split at isFound
      · cases isFound
        exact here
      · exact tells other found isFound

theorem conclude_tells (tells : tracker.Tells known) (here : known thread) (address size : UInt64)
    (walked : Except CaptureError (List WalkedFrame)) :
    (∀ sample, .sample sample ∈ (tracker.conclude thread address size walked).1 →
      sample.thread = thread) ∧
      (tracker.conclude thread address size walked).2.Tells known := by
  cases walked with
  | ok frames => exact keep_tells tells address here
  | error error =>
      refine ⟨fun sample mem => ?_, tells⟩
      cases List.mem_singleton.mp mem

/-- What recording adds to the stream, to what is kept and to the registry. -/
structure Records (known : ThreadId → Prop)
    (answer : List Record × AllocationTracker × ThreadRegistry) : Prop where
  introducing : Introducing known answer.1 answer.2.2
  tells : answer.2.1.Tells (KnownAfter known answer.1)

theorem records_nothing (reported : registry.Reported known) (tells : tracker.Tells known) :
    Records known ([], tracker, registry) where
  introducing := ⟨introduces_nil, reported.mono fun _ => knownAfter_nil.mpr⟩
  tells := tells.mono fun _ => knownAfter_nil.mpr

/-- An allocation names its thread, if that is not known and the registry has it. -/
theorem allocate_introduces (reported : registry.Reported known) (tells : tracker.Tells known)
    (here : registry.contains thread = true ∨ known thread) (address size : UInt64) :
    Always (allocate interpreter tracker registry thread address size) (Records known) := by
  rw [allocate]
  split
  · exact always_pure (records_nothing reported tells)
  · have named := nameRecords_introducing reported here
    generalize nameRecords registry thread = report at named ⊢
    rcases report with ⟨names, registry⟩
    refine (always_any _).bind fun state _ => ?_
    generalize (Walking.walk interpreter thread).run.run ⟨tracker.walker, state⟩ = ran
    rcases ran with ⟨walked, observation⟩
    refine (always_any _).bind fun _ _ => always_pure ?_
    have moved : { tracker with walker := observation.walker }.Tells (KnownAfter known names) :=
      tells.mono fun _ => .inl
    rcases conclude_tells moved named.2 address size walked with ⟨samples, told⟩
    exact ⟨named.1.append_samples named.2 samples,
      told.mono fun _ => knownAfter_append.mpr ∘ .inl⟩

/-- A release is of a thread that was known when it allocated. -/
theorem free_introduces (reported : registry.Reported known) (tells : tracker.Tells known)
    (address : UInt64) :
    Records known ((tracker.free address).1, (tracker.free address).2, registry) := by
  rw [free]
  split
  · exact records_nothing reported tells
  · split
    · exact records_nothing reported tells
    · rename_i allocation found
      have here := tells address allocation found
      have samples : Introduces known [freeSample address allocation] :=
        introduces_of_forall fun sample mem => by
          cases List.mem_singleton.mp mem
          exact here
      refine ⟨⟨samples, reported.mono fun _ => .inl⟩, fun other kept isKept => .inl ?_⟩
      simp only [Std.ExtTreeMap.getElem?_erase] at isKept
      split at isKept
      · cases isKept
      · exact tells other kept isKept

/-- Recording what is reported names each thread that allocates and that the registry has. -/
theorem receive_introduces (reported : registry.Reported known) (tells : tracker.Tells known)
    {notification : Notification}
    (here : ∀ thread address size, notification = .allocated thread address size →
      registry.contains thread = true ∨ known thread) :
    Always (tracker.receive interpreter registry notification) (Records known) := by
  cases notification with
  | allocated thread address size =>
      exact allocate_introduces reported tells (here thread address size rfl) address size
  | released address => exact always_pure (free_introduces reported tells address)
  | _ => exact always_pure (records_nothing reported tells)

end AllocationTracker

end StackSampler
