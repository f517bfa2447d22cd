import StackSampler.Proofs.Sampling.Exclusion
import StackSampler.Proofs.Session.Streams

/-!
# Stealth

In stealth mode a session is to leave out the thread that has started it.  Passes and dumps do: they
show no thread for which the registry has the native identity of the starter, whatever the host
reports of its threads in between.  The recording of allocations does not ask whose they are.

The main statement is `HostedSession.allocatedBy_of_shown`: where the thread that hosts a session is
shown, the session records an allocation of that thread, or its release.
-/

namespace StackSampler

variable {σ : Type} {native : NativeId} {thread : ThreadId}

/-! ## Native identities that the host reports -/

namespace ThreadRegistry

variable {registry : ThreadRegistry}

theorem tidy_empty : Tidy ∅ := by
  intro thread native placeholder
  simp [origin?] at placeholder

/-- A thread that is announced is no placeholder. -/
theorem Tidy.insert (tidy : registry.Tidy) (thread : ThreadId) {record : ThreadRecord}
    (announced : record.adopted = false) : Tidy (registry.insert thread record) := by
  intro other native placeholder
  rw [origin?_insert, announced] at placeholder
  split at placeholder
  · cases placeholder
  · exact tidy other native placeholder

theorem Tidy.erase (tidy : registry.Tidy) (thread : ThreadId) : Tidy (registry.erase thread) := by
  intro other native placeholder
  rw [origin?, Std.ExtTreeMap.getElem?_erase] at placeholder
  split at placeholder
  · cases placeholder
  · exact tidy other native placeholder

theorem Tidy.receive (tidy : registry.Tidy) (now : Nanoseconds) (notification : Notification) :
    (registry.receive now notification).Tidy := by
  cases notification with
  | threadTracked thread name native =>
      rw [ThreadRegistry.receive, track]
      split
      · exact tidy.insert thread rfl
      · exact tidy.insert thread rfl
  | threadUntracked thread => exact tidy.erase thread
  | _ => exact tidy

end ThreadRegistry

/-! ## The recording of allocations -/

namespace AllocationTracker

open ThreadRegistry

variable {interpreter : Interpreter σ} {tracker : AllocationTracker} {registry : ThreadRegistry}

/-- What is reported is an allocation of a thread, or the release of one that is kept. -/
def AllocatedBy (tracker : AllocationTracker) (thread : ThreadId) : Notification → Prop
  | .allocated allocating _ _ => allocating = thread
  | .released address =>
      ∃ allocation, tracker.live[address]? = some allocation ∧ allocation.thread = thread
  | _ => False

/-- The records are of threads of which the report is, and no native identity changes. -/
structure Attributes (tracker : AllocationTracker) (registry : ThreadRegistry)
    (notification : Notification)
    (answer : List Record × AllocationTracker × ThreadRegistry) : Prop where
  about : ∀ record ∈ answer.1, ∀ thread, record.thread? = some thread →
    tracker.AllocatedBy thread notification
  origins : origin? answer.2.2 = registry.origin?

theorem attributes_nothing (notification : Notification) :
    tracker.Attributes registry notification ([], tracker, registry) :=
  ⟨List.forall_mem_nil _, rfl⟩

theorem origin?_nameRecords (registry : ThreadRegistry) (thread : ThreadId) :
    origin? (nameRecords registry thread).2 = registry.origin? := by
  rw [nameRecords]
  split
  · rfl
  · rename_i record found
    exact origin?_insert_of_same found rfl rfl

theorem nameRecords_thread? {record : Record} (mem : record ∈ (nameRecords registry thread).1) :
    record.thread? = some thread := by
  rw [nameRecords] at mem
  split at mem
  · cases mem
  · rcases List.mem_map.mp mem with ⟨name, -, rfl⟩
    rfl

theorem conclude_thread? {address size : UInt64}
    {walked : Except CaptureError (List WalkedFrame)} {record : Record}
    (mem : record ∈ (tracker.conclude thread address size walked).1) :
    record.thread? = some thread := by
  cases walked with
  | ok frames =>
      rw [conclude, keep] at mem
      split at mem
      · cases mem
      · cases List.mem_singleton.mp mem
        rfl
  | error error =>
      cases List.mem_singleton.mp mem
      rfl

theorem allocate_attributes (thread : ThreadId) (address size : UInt64) :
    Always (tracker.allocate interpreter registry thread address size)
      (tracker.Attributes registry (.allocated thread address size)) := by
  rw [allocate]
  split
  · exact always_pure (attributes_nothing _)
  · refine (always_any _).bind fun state _ => (always_any _).bind fun _ _ => always_pure ?_
    constructor
    · intro record mem other about
      have here : record.thread? = some thread := by
        rcases List.mem_append.mp mem with naming | concluding
        · exact nameRecords_thread? naming
        · exact conclude_thread? concluding
      rw [here] at about
      cases about
      rfl
    · exact origin?_nameRecords registry thread

theorem free_attributes (address : UInt64) :
    tracker.Attributes registry (.released address)
      ((tracker.free address).1, (tracker.free address).2, registry) := by
  rw [free]
  split
  · exact attributes_nothing _
  · split
    · exact attributes_nothing _
    · rename_i allocation found
      refine ⟨?_, rfl⟩
      intro record mem other about
      cases List.mem_singleton.mp mem
      cases about
      exact ⟨allocation, found, rfl⟩

theorem receive_attributes (notification : Notification) :
    Always (tracker.receive interpreter registry notification)
      (tracker.Attributes registry notification) := by
  cases notification with
  | allocated thread address size => exact allocate_attributes thread address size
  | released address => exact always_pure (free_attributes address)
  | _ => exact always_pure (attributes_nothing _)

end AllocationTracker

/-! ## Looks -/

namespace Look

variable {excluded : List NativeId} {earlier later : ThreadRegistry} {shown : List ThreadId}

/-- To look at nothing changes nothing. -/
theorem nothing : Look excluded earlier earlier [] where
  aligns _ := .kept _
  included := List.forall_mem_nil _

theorem other_of_shown (look : Look excluded earlier later shown) (mem : thread ∈ shown)
    (isExcluded : native ∈ excluded) : ∃ other, later.RunsOn other thread ∧ native ≠ other := by
  rcases look.included thread mem with ⟨other, runsOther, included⟩
  refine ⟨other, runsOther, ?_⟩
  rintro rfl
  exact included isExcluded

end Look

/-! ## What one event shows -/

namespace Session

open ThreadRegistry

variable {host : Host σ} {session before after : Session} {configuration : Configuration}
  {hosting : Option NativeId}

/-- The session after one more event, which finds the sampled program in some state. -/
def next (host : Host σ) (session : Session) (moment : σ × SessionEvent) : Session :=
  (({ session := session } : History).step host moment).session

/-- The records that were sent to the open stream between two states of a session. -/
def sentBetween (before after : Session) : List Record :=
  after.openStreams.flatten.drop before.openStreams.flatten.length

/-- The captures for the dump that is made at the start of a session. -/
def firstCapture (host : Host σ) (session : Session) (context : StartContext) :
    StateM σ ((List ThreadDump × Population) × Sampler) := do
  let sampler ← sampler host session context
  sampler.captureAll host context.now session.population

/-- A session that delivers a dump that was captured. -/
def delivering (session : Session) (context : StartContext)
    (captured : List ThreadDump × Population) : Session :=
  { session with
    population := captured.2
    activity := some (.dumping (.start (Text.utf8 (Dump.text context.pid captured.1)))) }

/-- The text of the dump that a start delivers is that of its captures. -/
theorem startDump_eq (host : Host σ) (session : Session) (context : StartContext) :
    startDump host session context =
      (fun captured => session.delivering context captured.1) <$>
        session.firstCapture host context :=
  rfl

/-- What the dump of an event shows: that of a start, or one that was asked for by a signal. -/
def dumpedIn (host : Host σ) (session : Session) : σ × SessionEvent → List ThreadDump
  | (subject, .started context) =>
      match session.activity, (session.next host (subject, .started context)).activity with
      | none, some (.dumping _) => ((session.firstCapture host context).run subject).1.1.1
      | _, _ => []
  | (subject, .cycled now dumpRequested) =>
      ((session.cycle host now dumpRequested).run subject).1.dump.getD []
  | _ => []

/-- The threads of the records and of the dump entries that an event gives. -/
def shownIn (host : Host σ) (session : Session) (moment : σ × SessionEvent) : List ThreadId :=
  (session.sentBetween (session.next host moment)).filterMap Record.thread? ++
    (session.dumpedIn host moment).map (·.thread)

theorem sentBetween_self (session : Session) : session.sentBetween session = [] :=
  List.drop_length

theorem sentBetween_of_flatten_eq_nil (silent : after.openStreams.flatten = []) :
    before.sentBetween after = [] := by
  rw [sentBetween, silent, List.drop_nil]

theorem sentBetween_subset {writer : Stream.Writer} {records : List Record}
    (opened : before.writer? = some writer)
    (still : after.writer? = some (writer.sendAll records)) :
    before.sentBetween after ⊆ records := by
  have queues : before.sentBetween after =
      (writer.sendAll records).queue.drop writer.queue.length := by
    simp [sentBetween, openStreams, opened, still]
  rw [queues, Stream.Writer.sendAll]
  split
  · rw [List.drop_length]
    exact List.nil_subset records
  · rw [List.drop_left]
    exact List.Subset.refl records

theorem sentBetween_of_writer?_eq (same : after.writer? = before.writer?) :
    before.sentBetween after = [] := by
  rw [sentBetween, openStreams, openStreams, same, List.drop_length]

theorem shown_subset {writer : Stream.Writer} {records : List Record}
    (opened : before.writer? = some writer) (still : after.writer? = some (writer.sendAll records))
    (dumped : List ThreadId) :
    (before.sentBetween after).filterMap Record.thread? ++ dumped ⊆
      records.filterMap Record.thread? ++ dumped := by
  intro thread mem
  rcases List.mem_append.mp mem with sent | inDump
  · apply List.mem_append_left
    exact List.filterMap_subset _ (sentBetween_subset opened still) sent
  · exact List.mem_append_right _ inDump

/-- Neither before nor after an event the registry has a native identity for the thread. -/
def Unrelated (native : NativeId) (before after : Session) (thread : ThreadId) : Prop :=
  ¬ before.population.threads.RunsOn native thread ∧
    ¬ after.population.threads.RunsOn native thread

/-- A session that leaves out the thread that hosts it, wherever it looks at all threads. -/
structure Discreet (configuration : Configuration) (hosting : Option NativeId)
    (session : Session) : Prop where
  configured : session.configuration = configuration
  tidy : session.population.threads.Tidy
  excludes : ∀ sampler writer deadline alive,
    session.activity = some (.sampling sampler writer deadline alive) →
      sampler.excluded = hosting.toList
  tracks : ∀ tracker writer, session.activity = some (.tracking tracker writer) →
    configuration.memory = true

/-- A session goes on being discreet, and the thread that hosts it is not among those shown. -/
structure Withholds (configuration : Configuration) (hosting : Option NativeId)
    (before after : Session) (shown : List ThreadId) : Prop where
  discreet : after.Discreet configuration hosting
  hidden : ∀ thread ∈ shown, ∀ native, hosting = some native → Unrelated native before after thread

theorem Withholds.mono {shown fewer : List ThreadId}
    (withholds : Withholds configuration hosting before after shown) (subset : fewer ⊆ shown) :
    Withholds configuration hosting before after fewer :=
  ⟨withholds.discreet, fun thread mem => withholds.hidden thread (subset mem)⟩

theorem Discreet.withholds (discreet : after.Discreet configuration hosting) :
    Withholds configuration hosting before after [] :=
  ⟨discreet, List.forall_mem_nil _⟩

/-- A session that neither samples nor tracks shows no thread later on. -/
theorem Discreet.of_quiet (discreet : before.Discreet configuration hosting)
    {other : Option NativeId} (same : after.configuration = before.configuration)
    (tidy : after.population.threads.Tidy) (closed : after.writer? = none) :
    after.Discreet configuration other where
  configured := same.trans discreet.configured
  tidy := tidy
  excludes sampler writer deadline alive sampling := by
    rw [writer?, sampling] at closed
    cases closed
  tracks tracker writer tracking := by
    rw [writer?, tracking] at closed
    cases closed

theorem Discreet.of_sampling (discreet : before.Discreet configuration hosting)
    {other : Option NativeId} {sampler : Sampler} {writer : Stream.Writer}
    {deadline : Option Nanoseconds} {alive : Bool}
    (same : after.configuration = before.configuration) (tidy : after.population.threads.Tidy)
    (sampling : after.activity = some (.sampling sampler writer deadline alive))
    (excluded : sampler.excluded = other.toList) : after.Discreet configuration other where
  configured := same.trans discreet.configured
  tidy := tidy
  excludes sampler writer deadline alive here := by
    rw [sampling] at here
    cases here
    exact excluded
  tracks tracker writer here := by
    rw [sampling] at here
    cases here

theorem Discreet.of_tracking (discreet : before.Discreet configuration hosting)
    {other : Option NativeId} {tracker : AllocationTracker} {writer : Stream.Writer}
    (same : after.configuration = before.configuration) (tidy : after.population.threads.Tidy)
    (tracking : after.activity = some (.tracking tracker writer))
    (memory : configuration.memory = true) : after.Discreet configuration other where
  configured := same.trans discreet.configured
  tidy := tidy
  excludes sampler writer deadline alive here := by
    rw [tracking] at here
    cases here
  tracks _ _ _ := memory

theorem sampler_excluded (stealth : session.configuration.stealth = true)
    (context : StartContext) :
    Always (sampler host session context) fun sampler =>
      sampler.excluded = [context.nativeId] := by
  refine (always_any _).bind fun version _ => always_pure ?_
  rw [Sampler.new, excluded, stealth]
  rfl

/-- A thread that either of two looks shows is not excluded, before the first or after both. -/
theorem unrelated_of_looks {excluded : List NativeId} {middle : ThreadRegistry}
    {shown later : List ThreadId} (tidy : before.population.threads.Tidy)
    (first : Look excluded before.population.threads middle shown)
    (second : Look excluded middle after.population.threads later)
    (mem : thread ∈ shown ++ later) (isExcluded : native ∈ excluded) :
    Unrelated native before after thread := by
  rcases List.mem_append.mp mem with early | late
  · rcases first.other_of_shown early isExcluded with ⟨other, runsOther, different⟩
    constructor
    · intro runsOn
      exact different (runsOn_unique_of_aligns first.aligns runsOn runsOther)
    · intro runsOn
      exact different (runsOn_unique_of_aligns second.aligns runsOther runsOn).symm
  · rcases second.other_of_shown late isExcluded with ⟨other, runsOther, different⟩
    constructor
    · intro runsOn
      exact different
        (runsOn_unique_of_aligns_twice tidy first.aligns second.aligns runsOn runsOther)
    · intro runsOn
      exact different (runsOn.unique runsOther)

/-- Two looks withhold the thread that hosts the session, and leave the registry tidy. -/
theorem withholds_of_looks {middle : ThreadRegistry} {shown later : List ThreadId}
    (tidy : before.population.threads.Tidy)
    (first : Look hosting.toList before.population.threads middle shown)
    (second : Look hosting.toList middle after.population.threads later)
    (discreet : after.population.threads.Tidy → after.Discreet configuration hosting) :
    Withholds configuration hosting before after (shown ++ later) := by
  constructor
  · exact discreet ((tidy.of_aligns first.aligns).of_aligns second.aligns)
  · intro thread mem native isHosting
    exact unrelated_of_looks tidy first second mem (Option.mem_toList.mpr isHosting)

theorem firstCapture_withholds (discreet : session.Discreet configuration hosting)
    (stealth : configuration.stealth = true) (context : StartContext) :
    Always (session.firstCapture host context) fun captured =>
      Withholds configuration (some context.nativeId) session
        (session.delivering context captured.1) (captured.1.1.map (·.thread)) := by
  have quiet : session.configuration.stealth = true := discreet.configured ▸ stealth
  refine (sampler_excluded quiet context).bind fun sampler excluded => ?_
  refine Sampler.captureAll_looks.imp fun captured looked => ?_
  rw [excluded] at looked
  exact withholds_of_looks discreet.tidy .nothing looked.2 fun tidy =>
    discreet.of_quiet rfl tidy rfl

theorem startStream_discreet (host : Host σ) (discreet : session.Discreet configuration hosting)
    (stealth : configuration.stealth = true) (context : StartContext) (output : Stream.Output) :
    Always (startStream host session context output) fun started =>
      started.Discreet configuration (some context.nativeId) ∧ started.openStreams = [[]] := by
  rw [startStream]
  split
  · rename_i memory
    rw [discreet.configured] at memory
    refine (always_any _).bind fun version _ => always_pure ⟨?_, rfl⟩
    exact discreet.of_tracking rfl discreet.tidy rfl memory
  · have quiet : session.configuration.stealth = true := discreet.configured ▸ stealth
    refine (sampler_excluded quiet context).bind fun sampler excluded => always_pure ⟨?_, rfl⟩
    exact discreet.of_sampling rfl discreet.tidy rfl excluded

/-- A start fails and leaves the session as it was, or it captures a dump or opens a stream. -/
theorem start_cases (host : Host σ) (session : Session) (context : StartContext) (subject : σ) :
    (∃ error, ((session.start host context).run subject).1 = (.error error, session)) ∨
      session.activity = none ∧
        (((session.start host context).run subject).1 =
            (.ok (), ((startDump host session context).run subject).1) ∨
          ∃ output, ((session.start host context).run subject).1 =
            (.ok (), ((startStream host session context output).run subject).1)) := by
  rw [start]
  split
  · exact .inl ⟨.alreadyRunning, rfl⟩
  · rename_i idle
    have inactive : session.activity = none := by
      rw [isRunning, Option.isSome_iff_ne_none, not_not] at idle
      exact idle
    split
    · split
      · rename_i error _
        exact .inl ⟨error, rfl⟩
      · exact .inr ⟨inactive, .inl rfl⟩
    · split
      · rename_i error _
        exact .inl ⟨error, rfl⟩
      · rename_i output _
        exact .inr ⟨inactive, .inr ⟨output, rfl⟩⟩

/-- The native identity of the thread that has started a session last. -/
def hostingAfter (host : Host σ) (session : Session) (hosting : Option NativeId) :
    σ × SessionEvent → Option NativeId
  | (subject, .started context) =>
      match ((session.start host context).run subject).1.1 with
      | .ok () => some context.nativeId
      | .error _ => hosting
  | _ => hosting

theorem start_withholds (host : Host σ) (discreet : session.Discreet configuration hosting)
    (stealth : configuration.stealth = true) (context : StartContext) (subject : σ) :
    Withholds configuration (session.hostingAfter host hosting (subject, .started context)) session
      (session.next host (subject, .started context))
      (session.shownIn host (subject, .started context)) := by
  rcases start_cases host session context subject with
    ⟨error, failed⟩ | ⟨idle, dumped | ⟨output, streams⟩⟩
  · have same : session.next host (subject, .started context) = session :=
      congrArg Prod.snd failed
    have nothing : session.shownIn host (subject, .started context) = [] := by
      rw [shownIn, dumpedIn, same, sentBetween_self]
      cases session.activity <;> rfl
    rw [nothing, same, hostingAfter, failed]
    exact discreet.withholds
  · rw [startDump_eq] at dumped
    have delivers : session.next host (subject, .started context) =
        session.delivering context ((session.firstCapture host context).run subject).1.1 :=
      congrArg Prod.snd dumped
    have shown : session.shownIn host (subject, .started context) =
        ((session.firstCapture host context).run subject).1.1.1.map (·.thread) := by
      rw [shownIn, dumpedIn, delivers, idle, sentBetween_of_flatten_eq_nil rfl]
      rfl
    rw [shown, delivers, hostingAfter, dumped]
    exact firstCapture_withholds discreet stealth context subject
  · have opens : session.next host (subject, .started context) =
        ((startStream host session context output).run subject).1 :=
      congrArg Prod.snd streams
    rcases startStream_discreet host discreet stealth context output subject with
      ⟨stillDiscreet, isOpen⟩
    rw [← opens] at stillDiscreet isOpen
    have shown : session.shownIn host (subject, .started context) = [] := by
      rw [shownIn, dumpedIn, idle, sentBetween_of_flatten_eq_nil (by rw [isOpen]; rfl)]
      cases doing : (session.next host (subject, .started context)).activity with
      | none => rfl
      | some activity =>
          cases activity with
          | dumping delivery => simp [openStreams, writer?, doing] at isOpen
          | _ => rfl
    rw [shown, hostingAfter, streams]
    exact stillDiscreet.withholds

/-- A cycle shows, by its pass and by its dump, only threads that do not host the session. -/
theorem cycle_withholds (host : Host σ) (discreet : session.Discreet configuration hosting)
    (now : Nanoseconds) (dumpRequested : Bool) :
    Always (session.cycle host now dumpRequested) fun cycle =>
      Withholds configuration hosting session cycle.session
        ((session.sentBetween cycle.session).filterMap Record.thread? ++
          (cycle.dump.getD []).map (·.thread)) := by
  rw [cycle]
  split
  · rename_i sampler writer deadline sampling
    have excluded := discreet.excludes _ _ _ _ sampling
    have opened : session.writer? = some writer := by rw [writer?, sampling]
    refine (always_any _).bind fun finalizing _ => ?_
    split
    · refine always_pure ?_
      rw [sentBetween_of_writer?_eq (by rw [opened]; rfl)]
      apply Discreet.withholds
      exact discreet.of_sampling rfl discreet.tidy rfl excluded
    · refine Sampler.sampleAll_looks.bind ?_
      rintro ⟨visit, later⟩ ⟨sameExcluded, passed⟩
      rw [excluded] at passed sameExcluded
      cases dumpRequested with
      | true =>
          refine Sampler.captureAll_looks.bind ?_
          rintro ⟨⟨dumps, population⟩, last⟩ ⟨keptExcluded, dumped⟩
          rw [sameExcluded] at dumped keptExcluded
          refine always_pure (Withholds.mono ?_ (shown_subset opened rfl _))
          exact withholds_of_looks discreet.tidy passed dumped fun tidy =>
            discreet.of_sampling rfl tidy rfl keptExcluded
      | false =>
          refine always_pure (Withholds.mono ?_ (shown_subset opened rfl []))
          exact withholds_of_looks discreet.tidy passed .nothing fun tidy =>
            discreet.of_sampling rfl tidy rfl sameExcluded
  · refine always_pure ?_
    rw [sentBetween_self]
    exact discreet.withholds

/-- The event reports an allocation of a thread or the release of one, and this is recorded. -/
def AllocatedBy (session : Session) (thread : ThreadId) : SessionEvent → Prop
  | .notified _ notification =>
      ∃ tracker writer, session.activity = some (.tracking tracker writer) ∧
        tracker.AllocatedBy thread notification
  | _ => False

theorem Discreet.memory_of_allocatedBy (discreet : session.Discreet configuration hosting)
    {event : SessionEvent} (allocated : session.AllocatedBy thread event) :
    configuration.memory = true := by
  cases event with
  | notified now notification =>
      rcases allocated with ⟨tracker, writer, tracking, -⟩
      exact discreet.tracks tracker writer tracking
  | _ => cases allocated

/-- What a report shows is the thread whose allocation is recorded. -/
theorem receive_shows (host : Host σ) (discreet : session.Discreet configuration hosting)
    (now : Nanoseconds) (notification : Notification) :
    Always (session.receive host now notification) fun received =>
      received.Discreet configuration hosting ∧
        ∀ thread ∈ (session.sentBetween received).filterMap Record.thread?,
          session.AllocatedBy thread (.notified now notification) := by
  have tidy := discreet.tidy.receive now notification
  rw [receive]
  split
  · rename_i tracker writer tracking
    replace tracking : session.activity = some (.tracking tracker writer) := tracking
    have opened : session.writer? = some writer := by rw [writer?, tracking]
    refine (AllocationTracker.receive_attributes notification).bind ?_
    rintro ⟨records, later, threads⟩ attributes
    refine always_pure ⟨?_, ?_⟩
    · refine discreet.of_tracking rfl ?_ rfl (discreet.tracks tracker writer tracking)
      intro thread native placeholder
      exact tidy thread native (attributes.origins ▸ placeholder)
    · intro thread mem
      rcases List.mem_filterMap.mp mem with ⟨record, sent, about⟩
      have recorded := sentBetween_subset opened rfl sent
      exact ⟨tracker, writer, tracking, attributes.about record recorded thread about⟩
  · refine always_pure ⟨⟨discreet.configured, tidy, discreet.excludes, discreet.tracks⟩, ?_⟩
    have silent : session.sentBetween
        { session with population := session.population.receive now notification } = [] :=
      sentBetween_of_writer?_eq rfl
    rw [silent]
    exact List.forall_mem_nil _

/-- A session that is left as it is, or that closes its stream, shows no thread. -/
theorem Discreet.withholds_quietly (discreet : before.Discreet configuration hosting)
    (quiet : after = before ∨ after.configuration = before.configuration ∧
      after.population = before.population ∧ after.writer? = none) :
    Withholds configuration hosting before after
      ((before.sentBetween after).filterMap Record.thread?) := by
  rcases quiet with rfl | ⟨configured, populated, closed⟩
  · rw [sentBetween_self]
    exact discreet.withholds
  · have silent : after.openStreams.flatten = [] := by
      rw [openStreams, closed]
      rfl
    rw [sentBetween_of_flatten_eq_nil silent]
    exact Discreet.withholds (discreet.of_quiet configured (populated ▸ discreet.tidy) closed)

theorem progress_withholds (discreet : session.Discreet configuration hosting)
    (channel : Channel) :
    Withholds configuration hosting session (session.progress channel).1
      ((session.sentBetween (session.progress channel).1).filterMap Record.thread?) := by
  apply discreet.withholds_quietly
  rw [progress]
  split
  · exact .inr ⟨rfl, rfl, rfl⟩
  · exact .inl rfl

theorem readChannel_withholds (discreet : session.Discreet configuration hosting)
    (channel : Channel) :
    Withholds configuration hosting session (session.readChannel channel).2.1
      ((session.sentBetween (session.readChannel channel).2.1).filterMap Record.thread?) := by
  apply discreet.withholds_quietly
  rw [readChannel]
  split
  · exact .inr ⟨rfl, rfl, rfl⟩
  · exact .inl rfl

theorem stop_withholds (discreet : session.Discreet configuration hosting) (channel : Channel) :
    Withholds configuration hosting session (session.stop channel).session
      ((session.sentBetween (session.stop channel).session).filterMap Record.thread?) := by
  apply discreet.withholds_quietly
  rw [stop_session]
  exact .inr ⟨rfl, rfl, rfl⟩

theorem shownIn_of_dumpedIn_eq_nil {moment : σ × SessionEvent}
    (noDump : session.dumpedIn host moment = []) :
    session.shownIn host moment =
      (session.sentBetween (session.next host moment)).filterMap Record.thread? := by
  rw [shownIn, noDump, List.map_nil, List.append_nil]

theorem Withholds.or_allocated {shown : List ThreadId}
    (withheld : Withholds configuration hosting before after shown) (event : SessionEvent) :
    after.Discreet configuration hosting ∧
      ∀ thread ∈ shown, before.AllocatedBy thread event ∨
        ∀ native, hosting = some native → Unrelated native before after thread :=
  ⟨withheld.discreet, fun thread mem => .inr (withheld.hidden thread mem)⟩

/--
An event leaves a session discreet, and what it shows is a thread that allocates, or one that does
not host the session.
-/
theorem Discreet.next (discreet : session.Discreet configuration hosting)
    (stealth : configuration.stealth = true) (moment : σ × SessionEvent) :
    (session.next host moment).Discreet configuration (session.hostingAfter host hosting moment) ∧
      ∀ thread ∈ session.shownIn host moment, session.AllocatedBy thread moment.2 ∨
        ∀ native, session.hostingAfter host hosting moment = some native →
          Unrelated native session (session.next host moment) thread := by
  rcases moment with ⟨subject, event⟩
  cases event with
  | started context =>
      exact (start_withholds host discreet stealth context subject).or_allocated _
  | cycled now dumpRequested =>
      exact Withholds.or_allocated (cycle_withholds host discreet now dumpRequested subject) _
  | notified now notification =>
      have received := receive_shows host discreet now notification subject
      rw [shownIn_of_dumpedIn_eq_nil rfl]
      exact ⟨received.1, fun thread mem => .inl (received.2 thread mem)⟩
  | progressed channel =>
      rw [shownIn_of_dumpedIn_eq_nil rfl]
      exact (progress_withholds discreet channel).or_allocated _
  | channelRead channel =>
      rw [shownIn_of_dumpedIn_eq_nil rfl]
      exact (readChannel_withholds discreet channel).or_allocated _
  | stopped channel =>
      rw [shownIn_of_dumpedIn_eq_nil rfl]
      exact (stop_withholds discreet channel).or_allocated _

end Session

/-! ## A whole history -/

/-- A session, and the native identity of the thread that has started it last. -/
structure HostedSession where
  session : Session
  hosting : Option NativeId := none

namespace HostedSession

variable {host : Host σ} {hosted : HostedSession} {configuration : Configuration}

/-- A session that was never started. -/
def fresh (configuration : Configuration) : HostedSession where
  session := { configuration := configuration }

/-- The session after one more event. -/
def step (host : Host σ) (hosted : HostedSession) (moment : σ × SessionEvent) : HostedSession where
  session := hosted.session.next host moment
  hosting := hosted.session.hostingAfter host hosted.hosting moment

/-- The session after several events. -/
def run (host : Host σ) (hosted : HostedSession) (events : List (σ × SessionEvent)) :
    HostedSession :=
  events.foldl (step host) hosted

theorem fresh_discreet (configuration : Configuration) :
    (fresh configuration).session.Discreet configuration (fresh configuration).hosting where
  configured := rfl
  tidy := ThreadRegistry.tidy_empty
  excludes sampler writer deadline alive sampling := by cases sampling
  tracks tracker writer tracking := by cases tracking

theorem run_discreet (host : Host σ)
    (discreet : hosted.session.Discreet configuration hosted.hosting)
    (stealth : configuration.stealth = true) (events : List (σ × SessionEvent)) :
    (hosted.run host events).session.Discreet configuration (hosted.run host events).hosting := by
  induction events generalizing hosted with
  | nil => exact discreet
  | cons moment rest induction => exact induction (discreet.next stealth moment).1

/--
The thread that hosts a session in stealth mode is shown by no pass and by no dump.  Whatever has
happened to the session, an event shows a thread for which the registry has the native identity of
the starter, before or after the event, only by recording an allocation of that thread or its
release.
-/
theorem allocatedBy_of_shown (host : Host σ) (stealth : configuration.stealth = true)
    (events : List (σ × SessionEvent)) (moment : σ × SessionEvent) {before after : HostedSession}
    (reached : (fresh configuration).run host events = before)
    (goesOn : before.step host moment = after) (isHosting : after.hosting = some native)
    (runsOn : before.session.population.threads.RunsOn native thread ∨
      after.session.population.threads.RunsOn native thread)
    (shown : thread ∈ before.session.shownIn host moment) :
    configuration.memory = true ∧ before.session.AllocatedBy thread moment.2 := by
  have discreet := run_discreet host (fresh_discreet configuration) stealth events
  rw [reached] at discreet
  subst goesOn
  rcases (discreet.next stealth moment).2 thread shown with allocated | unrelated
  · exact ⟨discreet.memory_of_allocatedBy allocated, allocated⟩
  · rcases unrelated native isHosting with ⟨notBefore, notAfter⟩
    rcases runsOn with runsBefore | runsAfter
    · exact absurd runsBefore notBefore
    · exact absurd runsAfter notAfter

/-- The host starts a session and announces the thread that has done so. -/
def announced : List (Unit × SessionEvent) :=
  [((), .started Session.History.anyStart), ((), .notified 0 (.threadTracked 7 "strata" 1))]

/-- The thread that hosts the session allocates. -/
def allocating : Unit × SessionEvent :=
  ((), .notified 5 (.allocated 7 16 32))

/-- A session in stealth mode that records allocations, and that its host has started. -/
def allocationSession : HostedSession :=
  (fresh { stealth := true, memory := true }).run Session.History.idleHost announced

theorem hosting_allocating :
    (allocationSession.step Session.History.idleHost allocating).hosting = some 1 := by
  decide +kernel

theorem runsOn_allocationSession :
    allocationSession.session.population.threads.RunsOn 1 7 :=
  ⟨false, by decide +kernel⟩

theorem shown_allocating :
    7 ∈ allocationSession.session.shownIn Session.History.idleHost allocating := by
  decide +kernel

/-- A thread that hosts a session and allocates is shown, as the theorem allows. -/
theorem allocatedBy_of_shown_allocating :
    (allocationSession.session.population.threads.RunsOn 1 7 ∧
      7 ∈ allocationSession.session.shownIn Session.History.idleHost allocating) ∧
      allocationSession.session.AllocatedBy 7 allocating.2 :=
  ⟨⟨runsOn_allocationSession, shown_allocating⟩,
    (allocatedBy_of_shown Session.History.idleHost rfl announced allocating rfl rfl
      hosting_allocating (.inl runsOn_allocationSession) shown_allocating).2⟩

/-- Stealth does not keep the thread that hosts a session out of what it shows. -/
theorem not_hosting_withheld :
    ¬ ∀ (configuration : Configuration) (host : Host Unit) (events : List (Unit × SessionEvent))
      (moment : Unit × SessionEvent) (before : HostedSession) (native : NativeId)
      (thread : ThreadId), configuration.stealth = true →
      (fresh configuration).run host events = before →
      (before.step host moment).hosting = some native →
      before.session.population.threads.RunsOn native thread →
      thread ∉ before.session.shownIn host moment := by
  intro withheld
  exact withheld { stealth := true, memory := true } Session.History.idleHost announced allocating
    allocationSession 1 7 rfl rfl hosting_allocating runsOn_allocationSession shown_allocating

/-- A pass and a dump leave the thread out, which otherwise they name, sample and list. -/
example :
    let shown := fun configuration =>
      ((fresh configuration).run Session.History.idleHost announced).session.shownIn
        Session.History.idleHost ((), .cycled 1000 true)
    shown { stealth := true } = [] ∧ shown {} = [7, 7, 7] := by
  decide +kernel

end HostedSession

end StackSampler
