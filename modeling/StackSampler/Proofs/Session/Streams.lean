import StackSampler.Proofs.Session.Introduction

/-!
# The streams of a session

The history of one session: starts and stops in turn, passes, and whatever the host reports in
between.  The registry remembers which names were reported beyond the stream that holds them, so a
later stream need not name its threads again.  And while allocations are recorded, a thread that the
registry does not have is not named at all.

The main statement is `History.sample_introduced`: a sample is of a thread that is named before, in
the same stream or in an earlier one, or that allocated while the registry did not have it.
-/

namespace StackSampler

/-- Something that happens to a session. -/
inductive SessionEvent where
  | started (context : StartContext)
  | cycled (now : Nanoseconds) (dumpRequested : Bool)
  | notified (now : Nanoseconds) (notification : Notification)
  /-- The delivery of a dump goes on. -/
  | progressed (channel : Channel)
  /-- The channel of a dump is read to its end. -/
  | channelRead (channel : Channel)
  | stopped (channel : Channel)

namespace Session

variable {σ : Type} {host : Host σ} {session : Session} {known : ThreadId → Prop}

/-! ## One event -/

/-- The records that were sent to the stream that is open, if one is. -/
def openStreams (session : Session) : List (List Record) :=
  (session.writer?.map (·.queue)).toList

/-- Whether the session records allocations. -/
def isTracking (session : Session) : Bool :=
  session.activity matches some (.tracking ..)

/--
The registry is right about the names that are reported, the threads whose allocations are kept are
known, and an open stream still takes records.
-/
structure Ready (known : ThreadId → Prop) (session : Session) : Prop where
  reported : session.population.threads.Reported known
  tells : ∀ tracker writer, session.activity = some (.tracking tracker writer) →
    tracker.Tells known
  takes : ∀ writer, session.writer? = some writer → writer.hasEnded = false

/-- A session has sent some records, in which it samples only threads that are known by then. -/
def GoesOn (known : ThreadId → Prop) (before after : Session) : Prop :=
  ∃ more, after.openStreams.flatten = before.openStreams.flatten ++ more ∧
    Introduces known more ∧ after.Ready (KnownAfter known more)

theorem Ready.mono {more : ThreadId → Prop} (grows : ∀ thread, known thread → more thread)
    (ready : session.Ready known) : session.Ready more where
  reported := ready.reported.mono grows
  tells := fun tracker writer tracking => (ready.tells tracker writer tracking).mono grows
  takes := ready.takes

/-- A session that has sent nothing. -/
theorem Ready.goesOn_silently {after : Session} (ready : after.Ready known)
    (same : after.openStreams.flatten = session.openStreams.flatten) :
    GoesOn known session after :=
  ⟨[], by rw [same, List.append_nil], introduces_nil, ready.mono fun _ => knownAfter_nil.mpr⟩

/-- A session that has no stream open. -/
theorem ready_of_closed (reported : session.population.threads.Reported known)
    (closed : session.writer? = none) : session.Ready known where
  reported := reported
  tells tracker writer tracking := by
    rw [writer?, tracking] at closed
    cases closed
  takes writer open_ := by
    rw [closed] at open_
    cases open_

theorem ready_of_sampling {sampler : Sampler} {writer : Stream.Writer}
    {deadline : Option Nanoseconds} {alive : Bool}
    (reported : session.population.threads.Reported known)
    (sampling : session.activity = some (.sampling sampler writer deadline alive))
    (takes : writer.hasEnded = false) : session.Ready known where
  reported := reported
  tells tracker writer tracking := by
    rw [sampling] at tracking
    cases tracking
  takes writer open_ := by
    rw [writer?, sampling] at open_
    cases open_
    exact takes

theorem ready_of_tracking {tracker : AllocationTracker} {writer : Stream.Writer}
    (reported : session.population.threads.Reported known)
    (tracking : session.activity = some (.tracking tracker writer))
    (tells : tracker.Tells known) (takes : writer.hasEnded = false) : session.Ready known where
  reported := reported
  tells tracker writer same := by
    rw [tracking] at same
    cases same
    exact tells
  takes writer open_ := by
    rw [writer?, tracking] at open_
    cases open_
    exact takes

theorem startDump_ready (ready : session.Ready known) (context : StartContext) :
    Always (startDump host session context) fun started =>
      started.Ready known ∧ started.openStreams = [] := by
  refine (always_any _).bind fun sampler _ => ?_
  refine (Sampler.captureAll_keeps ready.reported).bind fun captured kept => always_pure ?_
  exact ⟨ready_of_closed kept rfl, rfl⟩

theorem startStream_ready (ready : session.Ready known) (context : StartContext)
    (output : Stream.Output) :
    Always (startStream host session context output) fun started =>
      started.Ready known ∧ started.openStreams = [[]] := by
  rw [startStream]
  split
  · refine (always_any _).bind fun version _ => always_pure ?_
    exact ⟨ready_of_tracking ready.reported rfl AllocationTracker.tells_empty rfl, rfl⟩
  · refine (always_any _).bind fun sampler _ => always_pure ?_
    exact ⟨ready_of_sampling ready.reported rfl rfl, rfl⟩

theorem start_goesOn (ready : session.Ready known) (context : StartContext) :
    Always (session.start host context) fun started => GoesOn known session started.2 := by
  rw [start]
  split
  · exact always_pure (ready.goesOn_silently rfl)
  · rename_i idle
    have closed : session.openStreams = [] := by
      cases activity : session.activity with
      | none => simp [openStreams, writer?, activity]
      | some activity => simp [isRunning, activity] at idle
    split
    · split
      · exact always_pure (ready.goesOn_silently rfl)
      · refine (startDump_ready ready context).bind fun started isReady => always_pure ?_
        exact isReady.1.goesOn_silently (by rw [isReady.2, closed])
    · split
      · exact always_pure (ready.goesOn_silently rfl)
      · refine (startStream_ready ready context _).bind fun started isReady => always_pure ?_
        exact isReady.1.goesOn_silently (by rw [isReady.2, closed]; rfl)

theorem queue_sendAll {writer : Stream.Writer} (takes : writer.hasEnded = false)
    (records : List Record) : (writer.sendAll records).queue = writer.queue ++ records := by
  rw [Stream.Writer.sendAll, takes]
  rfl

theorem hasEnded_sendAll (writer : Stream.Writer) (records : List Record) :
    (writer.sendAll records).hasEnded = writer.hasEnded := by
  rw [Stream.Writer.sendAll]
  split <;> rfl

/-- A session that samples and has sent some more records. -/
theorem goesOn_of_sampling
    {sampler after : Sampler} {writer : Stream.Writer} {deadline : Option Nanoseconds}
    {alive still : Bool} {population : Population} {more : List Record}
    (sampling : session.activity = some (.sampling sampler writer deadline alive))
    (takes : writer.hasEnded = false) (introduces : Introduces known more)
    (reported : population.threads.Reported (KnownAfter known more)) :
    GoesOn known session
      { session with
        population := population
        activity := some (.sampling after (writer.sendAll more) deadline still) } := by
  refine ⟨more, ?_, introduces, ready_of_sampling reported rfl ?_⟩
  · simp [openStreams, writer?, sampling, queue_sendAll takes]
  · rw [hasEnded_sendAll, takes]

theorem cycle_goesOn (ready : session.Ready known) (now : Nanoseconds) (dumpRequested : Bool) :
    Always (session.cycle host now dumpRequested) fun cycle =>
      GoesOn known session cycle.session := by
  rw [cycle]
  split
  · rename_i sampler writer deadline sampling
    have takes : writer.hasEnded = false := ready.takes writer (by simp [writer?, sampling])
    refine (always_any _).bind fun finalizing _ => ?_
    split
    · refine always_pure (Ready.goesOn_silently (ready_of_sampling ready.reported rfl takes) ?_)
      simp [openStreams, writer?, sampling]
    · refine (Sampler.sampleAll_introduces ready.reported).bind ?_
      rintro ⟨visit, sampler⟩ ⟨introduces, reported⟩
      cases dumpRequested with
      | true =>
          refine (Sampler.captureAll_keeps reported).bind fun captured kept => ?_
          exact always_pure (goesOn_of_sampling sampling takes introduces kept)
      | false => exact always_pure (goesOn_of_sampling sampling takes introduces reported)
  · exact always_pure (ready.goesOn_silently rfl)

theorem receive_goesOn (ready : session.Ready known) (now : Nanoseconds)
    {notification : Notification}
    (here : ∀ thread address size, notification = .allocated thread address size →
      session.isTracking = true →
      session.population.threads.contains thread = true ∨ known thread) :
    Always (session.receive host now notification) (GoesOn known session) := by
  have reported := ready.reported.receive now notification
  rw [receive]
  split
  · rename_i tracker writer tracking
    replace tracking : session.activity = some (.tracking tracker writer) := tracking
    have takes : writer.hasEnded = false := ready.takes writer (by simp [writer?, tracking])
    have known_here : ∀ thread address size, notification = .allocated thread address size →
        (session.population.receive now notification).threads.contains thread = true ∨
          known thread := by
      rintro thread address size rfl
      exact here thread address size rfl (by simp [isTracking, tracking])
    refine (AllocationTracker.receive_introduces reported (ready.tells tracker writer tracking)
      known_here).bind fun answer records => always_pure ?_
    refine ⟨answer.1, ?_, records.introducing.introduces,
      ready_of_tracking records.introducing.reported rfl records.tells ?_⟩
    · simp [openStreams, writer?, tracking, queue_sendAll takes]
    · rw [hasEnded_sendAll, takes]
  · exact always_pure (Ready.goesOn_silently ⟨reported, ready.tells, ready.takes⟩ rfl)

theorem progress_goesOn (ready : session.Ready known) (channel : Channel) :
    GoesOn known session (session.progress channel).1 := by
  rw [progress]
  split
  · rename_i delivery dumping
    refine Ready.goesOn_silently (ready_of_closed ready.reported rfl) ?_
    simp [openStreams, writer?, dumping]
  · exact ready.goesOn_silently rfl

theorem readChannel_goesOn (ready : session.Ready known) (channel : Channel) :
    GoesOn known session (session.readChannel channel).2.1 := by
  rw [readChannel]
  split
  · rename_i delivery dumping
    refine Ready.goesOn_silently (ready_of_closed ready.reported rfl) ?_
    simp [openStreams, writer?, dumping]
  · exact ready.goesOn_silently rfl

theorem stop_session (session : Session) (channel : Channel) :
    (session.stop channel).session = { session with activity := none } := by
  have halted : (session.halt channel).session = { session with activity := none } := by
    rw [halt]
    split <;> rfl
  rw [stop, Halted.close]
  split <;> exact halted

/-! ## A history -/

/-- A session, the records of the streams that it has closed, and the threads that it does not name. -/
structure History where
  session : Session
  /-- The records sent to each stream that is closed, the first stream first. -/
  closed : List (List Record) := []
  /-- The threads that allocated, while that was recorded, when the registry did not have them. -/
  strays : List ThreadId := []

namespace History

/-- The records of all streams, the first stream first. -/
def streams (history : History) : List (List Record) :=
  history.closed ++ history.session.openStreams

/-- The thread that makes a recorded allocation and that the registry does not have. -/
def strayIn (session : Session) : Notification → List ThreadId
  | .allocated thread _ _ =>
      if session.isTracking && !session.population.threads.contains thread then [thread] else []
  | _ => []

/-- The history after one more event, which finds the sampled program in some state. -/
def step (host : Host σ) (history : History) : σ × SessionEvent → History
  | (subject, .started context) =>
      { history with session := ((history.session.start host context).run subject).1.2 }
  | (subject, .cycled now dumpRequested) =>
      { history with
        session := ((history.session.cycle host now dumpRequested).run subject).1.session }
  | (subject, .notified now notification) =>
      { history with
        session := ((history.session.receive host now notification).run subject).1
        strays := history.strays ++ strayIn history.session notification }
  | (_, .progressed channel) =>
      { history with session := (history.session.progress channel).1 }
  | (_, .channelRead channel) =>
      { history with session := (history.session.readChannel channel).2.1 }
  | (_, .stopped channel) =>
      { history with
        session := (history.session.stop channel).session
        closed := history.streams }

/-- The history after several events. -/
def run (host : Host σ) (history : History) (events : List (σ × SessionEvent)) : History :=
  events.foldl (step host) history

/-- All samples are of threads that are named before or are strays, and so it will go on. -/
structure Sound (history : History) : Prop where
  introduces : Introduces (· ∈ history.strays) history.streams.flatten
  ready : history.session.Ready
    (KnownAfter (· ∈ history.strays) history.streams.flatten)

variable {history : History}

theorem Sound.goesOn (sound : history.Sound) {after : Session}
    (goesOn : GoesOn (KnownAfter (· ∈ history.strays) history.streams.flatten)
      history.session after) :
    { history with session := after }.Sound := by
  rcases goesOn with ⟨more, sent, introduces, ready⟩
  have longer : { history with session := after }.streams.flatten =
      history.streams.flatten ++ more := by
    simp only [streams, List.flatten_append, sent, List.append_assoc]
  refine ⟨?_, ?_⟩
  · rw [longer]
    exact sound.introduces.append introduces
  · rw [longer]
    exact ready.mono fun _ => knownAfter_append.mpr

theorem Sound.stray (sound : history.Sound) (more : List ThreadId) :
    { history with strays := history.strays ++ more }.Sound where
  introduces := sound.introduces.mono fun _ => List.mem_append_left more
  ready := sound.ready.mono fun _ => KnownAfter.mono fun _ => List.mem_append_left more

theorem Sound.stop (sound : history.Sound) (channel : Channel) :
    { history with
      session := (history.session.stop channel).session
      closed := history.streams }.Sound := by
  have ready : { history.session with activity := none }.Ready
      (KnownAfter (· ∈ history.strays) history.streams.flatten) :=
    ready_of_closed sound.ready.reported rfl
  rw [stop_session]
  have same : ({ history with
      session := { history.session with activity := none }
      closed := history.streams } : History).streams = history.streams :=
    List.append_nil _
  refine ⟨?_, ?_⟩
  · rw [same]
    exact sound.introduces
  · rw [same]
    exact ready

theorem Sound.step (sound : history.Sound) (moment : σ × SessionEvent) :
    (history.step host moment).Sound := by
  rcases moment with ⟨subject, event⟩
  cases event with
  | started context => exact sound.goesOn (start_goesOn sound.ready context subject)
  | cycled now dumpRequested =>
      exact sound.goesOn (cycle_goesOn sound.ready now dumpRequested subject)
  | notified now notification =>
      have strayed := sound.stray (strayIn history.session notification)
      refine strayed.goesOn (receive_goesOn strayed.ready now ?_ subject)
      rintro thread address size rfl tracking
      cases contained : history.session.population.threads.contains thread with
      | true => exact .inl rfl
      | false => exact .inr (.inl (List.mem_append_right _ (by simp [strayIn, tracking, contained])))
  | progressed channel => exact sound.goesOn (progress_goesOn sound.ready channel)
  | channelRead channel => exact sound.goesOn (readChannel_goesOn sound.ready channel)
  | stopped channel => exact sound.stop channel

theorem Sound.run (sound : history.Sound) (host : Host σ) (events : List (σ × SessionEvent)) :
    (history.run host events).Sound := by
  induction events generalizing history with
  | nil => exact sound
  | cons moment rest induction => exact induction (sound.step moment)

theorem sound_new (configuration : Configuration) :
    ({ session := { configuration := configuration } } : History).Sound where
  introduces := introduces_nil
  ready := ready_of_closed ThreadRegistry.reported_empty rfl

/--
In any history of a session, a sample is of a thread that is named before it in the same stream, or
in an earlier stream, or that allocated, while that was recorded, when the registry did not have
it.
-/
theorem sample_introduced (host : Host σ) (configuration : Configuration)
    (events : List (σ × SessionEvent)) {earlier later : List (List Record)}
    {stream front back : List Record} {sample : Sample}
    (written : (({ session := { configuration := configuration } } : History).run host
      events).streams = earlier ++ stream :: later)
    (sampled : stream = front ++ .sample sample :: back) :
    IsNamed front sample.thread ∨ (∃ old ∈ earlier, IsNamed old sample.thread) ∨
      sample.thread ∈
        (({ session := { configuration := configuration } } : History).run host events).strays := by
  have sound := (sound_new configuration).run host events
  have split : (earlier ++ stream :: later).flatten =
      (earlier.flatten ++ front) ++ .sample sample :: (back ++ later.flatten) := by
    simp [sampled]
  rcases sound.introduces (earlier.flatten ++ front) sample (back ++ later.flatten)
    (by rw [written, split]) with stray | ⟨name, named⟩
  · exact .inr (.inr stray)
  · rcases List.mem_append.mp named with before | here
    · rcases List.mem_flatten.mp before with ⟨old, mem, there⟩
      exact .inr (.inl ⟨old, mem, name, there⟩)
    · exact .inl ⟨name, here⟩

/-- A program with one idle thread, which its host has not announced. -/
def idleHost : Host Unit where
  interpreter :=
    { version := pure ⟨3, 11⟩
      threadIds := pure [7]
      threadState := fun _ => pure ⟨none, 0⟩
      frame := fun place => throw ⟨place, 0, 14⟩
      code := fun place => throw ⟨place, 0, 14⟩
      task := fun place => throw ⟨place, 0, 14⟩
      members := fun container => throw ⟨container.address, 0, 14⟩
      isFinalizing := pure false }
  cpuClock _ := pure none
  nativeStack _ := pure .silent
  symbol? _ := none

/-- A start whose output can be created. -/
def anyStart : StartContext where
  pid := 1
  startTime := 0
  nativeId := 1
  now := 0
  createOutput _ := .ok {}

/-- Two runs of a session, each with one pass. -/
def twoRuns : List (Unit × SessionEvent) :=
  [((), .started anyStart), ((), .cycled 1000 false), ((), .stopped .missing),
    ((), .started anyStart), ((), .cycled 3000 false), ((), .stopped .missing)]

/-- The stream of the first run. -/
def firstRun : List Record :=
  [.threadName 7 "Thread-0x7", .sample ⟨7, none, .wallTime 0, []⟩]

/-- The sample of the second run. -/
def laterSample : Sample :=
  ⟨7, none, .wallTime 2, []⟩

theorem streams_twoRuns :
    (({ session := { configuration := {} } } : History).run idleHost twoRuns).streams =
      [firstRun] ++ ([] ++ .sample laterSample :: []) :: [] := by
  decide +kernel

/-- In the second stream of two runs, the thread is the one that the first stream names. -/
theorem sample_introduced_twoRuns :
    (({ session := { configuration := {} } } : History).run idleHost twoRuns).streams =
        [firstRun] ++ ([] ++ .sample laterSample :: []) :: [] ∧
      (IsNamed [] laterSample.thread ∨ (∃ old ∈ [firstRun], IsNamed old laterSample.thread) ∨
        laterSample.thread ∈
          (({ session := { configuration := {} } } : History).run idleHost twoRuns).strays) :=
  ⟨streams_twoRuns, sample_introduced idleHost {} twoRuns streams_twoRuns rfl⟩

/-- Not every stream names the threads that it samples. -/
theorem not_sample_named_in_stream :
    ¬ ∀ (configuration : Configuration) (host : Host Unit) (events : List (Unit × SessionEvent))
      (earlier later : List (List Record)) (stream front back : List Record) (sample : Sample),
      (({ session := { configuration := configuration } } : History).run host events).streams =
        earlier ++ stream :: later →
      stream = front ++ .sample sample :: back → IsNamed front sample.thread := by
  intro named
  rcases named {} idleHost twoRuns [firstRun] [] _ [] [] laterSample streams_twoRuns rfl with
    ⟨name, mem⟩
  cases mem

/-- A thread that the registry does not have is a stray as soon as it allocates. -/
example :
    let history := ({ session := { configuration := { memory := true } } } : History).run idleHost
      [((), .started anyStart), ((), .notified 5 (.allocated 7 16 32)), ((), .stopped .missing)]
    history.streams = [[.sample ⟨7, none, .allocation 16 32, []⟩]] ∧ history.strays = [7] := by
  decide +kernel

end History

end Session

end StackSampler
