import StackSampler.Sampling.Pass
import StackSampler.Session.Channel
import StackSampler.Session.Failure
import StackSampler.Session.Notification
import StackSampler.Stream.Writer

/-!
# Sessions

One profiling run.  A session samples all threads again and again, or records allocations, or
makes one dump; the configuration says which.  What the host reports may come before the start,
and is kept from one start to the next.
-/

namespace StackSampler

/-- What a running session does. -/
inductive Activity where
  /-- Samples all threads once a cycle; `alive` until its thread has ended by itself. -/
  | sampling (sampler : Sampler) (writer : Stream.Writer) (deadline : Option Nanoseconds)
      (alive : Bool)
  /-- Records allocations. -/
  | tracking (tracker : AllocationTracker) (writer : Stream.Writer)
  /-- Delivers a dump. -/
  | dumping (delivery : Delivery)

/-- One profiling run. -/
structure Session where
  configuration : Configuration
  population : Population := {}
  /-- What the session does while it runs. -/
  activity : Option Activity := none

/-- The circumstances of a start. -/
structure StartContext where
  pid : UInt32
  /-- The time of the start, in nanoseconds since the epoch. -/
  startTime : UInt64
  /-- The native identity of the thread that starts the session. -/
  nativeId : NativeId
  now : Nanoseconds
  /-- Creates the output at a path, or says why it cannot. -/
  createOutput : String → Except String Stream.Output
  /-- Starts the thread that is named, or says why it cannot. -/
  startThread : String → Except String Unit := fun _ => .ok ()
  /-- Has the session answer its signals, or says why it cannot. -/
  takeSignals : Except String Unit := .ok ()

namespace Session

variable {σ : Type}

/-- A session that can carry out its configuration. -/
def new (configuration : Configuration) : Except SessionError Session :=
  match configuration.defect? with
  | some defect => .error (.configuration defect)
  | none => .ok { configuration := configuration }

/-- Whether the session has been started and not been stopped. -/
def isRunning (session : Session) : Bool :=
  session.activity.isSome

/-- The threads that are left out: in stealth mode the one that starts the session. -/
def excluded (session : Session) (context : StartContext) : List NativeId :=
  if session.configuration.stealth then [context.nativeId] else []

/-- The sampler of the session. -/
def sampler (host : Host σ) (session : Session) (context : StartContext) : StateM σ Sampler := do
  let version ← host.interpreter.version
  pure (.new session.configuration version (session.excluded context))

/-- The first record of the session's stream. -/
def header (session : Session) (context : StartContext) : Header :=
  ⟨session.configuration.mode, session.configuration.interval, context.pid, context.startTime⟩

/--
Starts the one dump of a session that was asked for one.  The walker is not kept, and so neither is
its mark.
-/
def startDump (host : Host σ) (session : Session) (context : StartContext) : StateM σ Session := do
  let sampler ← sampler host session context
  let ((dumps, population), _) ← sampler.captureAll host context.now session.population
  pure
    { session with
      population := population
      activity := some (.dumping (.start (Text.utf8 (Dump.text context.pid dumps)))) }

/-- When a session that samples ends by itself. -/
def deadline (session : Session) (context : StartContext) : Option Nanoseconds :=
  session.configuration.exposure.map fun seconds => context.now + seconds.toNat * 1000000000

/-- Starts a session that writes a stream. -/
def startStream (host : Host σ) (session : Session) (context : StartContext)
    (output : Stream.Output) : StateM σ Session := do
  let writer := Stream.Writer.start (session.header context) output
  if session.configuration.memory then
    let version ← host.interpreter.version
    let walker := Walker.new version session.configuration.maxDepth.toNat
    pure { session with activity := some (.tracking { walker := walker } writer) }
  else
    let sampler ← sampler host session context
    pure
      { session with
        activity := some (.sampling sampler writer (session.deadline context) true) }

/-- Something that a session needs, or the failure to have it. -/
def need {α : Type} (what : String) (result : Except String α) : Except SessionError α :=
  result.mapError (.resource what)

/-- Sets up all that it takes to write a stream, and gives the output. -/
def setUpStream (session : Session) (context : StartContext) :
    Except SessionError Stream.Output := do
  let output ← need "output file" <|
    context.createOutput (session.configuration.outputPath context.pid)
  need "writer thread" (context.startThread "writer thread")
  need "signal handlers" context.takeSignals
  unless session.configuration.memory do
    need "sampler thread" (context.startThread "sampler thread")
  pure output

/-- Starts the session. -/
def start (host : Host σ) (session : Session) (context : StartContext) :
    StateM σ (Except SessionError Unit × Session) := do
  if session.isRunning then pure (.error .alreadyRunning, session)
  else
    match session.configuration.target with
    | .where _ =>
        match need "where thread" (context.startThread "where thread") with
        | .error error => pure (.error error, session)
        | .ok () => do
            let session ← startDump host session context
            pure (.ok (), session)
    | _ =>
        match session.setUpStream context with
        | .error error => pure (.error error, session)
        | .ok output => do
            let session ← startStream host session context output
            pure (.ok (), session)

/-- What one cycle of sampling gave. -/
structure Cycle where
  /-- Whether the sampling thread did the cycle. -/
  done : Bool
  /-- The dump that was asked for by a signal. -/
  dump : Option (List ThreadDump)
  session : Session

/-- Whether a moment is past a deadline. -/
def isOver (deadline : Option Nanoseconds) (now : Nanoseconds) : Bool :=
  deadline.any (· ≤ now)

/--
One cycle of a session that samples: a pass over all threads, then a dump if a signal has asked
for one.  The sampling thread ends by itself once the interpreter shuts down or the time is up.
-/
def cycle (host : Host σ) (session : Session) (now : Nanoseconds) (dumpRequested : Bool) :
    StateM σ Cycle := do
  match session.activity with
  | some (.sampling sampler writer deadline true) =>
      if (← host.interpreter.isFinalizing) || isOver deadline now then
        let ended := { session with activity := some (.sampling sampler writer deadline false) }
        pure ⟨false, none, ended⟩
      else do
        let (visit, sampler) ← sampler.sampleAll host now session.population
        let writer := writer.sendAll visit.records
        if dumpRequested then
          let ((dumps, population), sampler) ← sampler.captureAll host now visit.population
          let activity := Activity.sampling sampler writer deadline true
          pure ⟨true, some dumps, { session with population, activity }⟩
        else
          let activity := Activity.sampling sampler writer deadline true
          pure ⟨true, none, { session with population := visit.population, activity }⟩
  | _ => pure ⟨false, none, session⟩

/-- What stopping a session gave. -/
structure Stopped where
  result : Except SessionError Unit
  /-- The stream that was closed. -/
  stream : Option (List UInt8)
  channel : Channel
  session : Session

/-- A session that no longer captures and may still have its stream open. -/
structure Halted where
  /-- How the end of capturing went. -/
  result : Except SessionError Unit
  writer : Option Stream.Writer
  channel : Channel
  session : Session

/-- How the delivery of a dump ended. -/
def deliveryResult (delivery : Delivery) : Except SessionError Unit :=
  match delivery.phase with
  | .ended (.error error) => .error (.resource "where channel" error.message)
  | _ => .ok ()

/-- How the writing of a stream ended. -/
def writerResult (writer : Stream.Writer) : Except SessionError Unit :=
  match writer.result with
  | .ok _ => .ok ()
  | .error error => .error (.output error)

/-- The stream that the session writes. -/
def writer? (session : Session) : Option Stream.Writer :=
  match session.activity with
  | some (.sampling _ writer _ _) => some writer
  | some (.tracking _ writer) => some writer
  | _ => none

/-- Ends capturing, and leaves the stream open. -/
def halt (session : Session) (channel : Channel) : Halted :=
  let idle := { session with activity := none }
  match session.activity with
  | some (.dumping delivery) =>
      let (delivery, channel) := delivery.stop channel
      ⟨deliveryResult delivery, none, channel, idle⟩
  | _ => ⟨.ok (), session.writer?, channel, idle⟩

/-- Closes the stream; a failure to write it is reported before any other. -/
def Halted.close (halted : Halted) : Stopped :=
  match halted.writer with
  | none => ⟨halted.result, none, halted.channel, halted.session⟩
  | some writer =>
      let writer := writer.close
      let result := do
        writerResult writer
        halted.result
      ⟨result, some writer.bytes, halted.channel, halted.session⟩

/-- Stops the session and closes its stream.  A session that does not run is left as it is. -/
def stop (session : Session) (channel : Channel) : Stopped :=
  (session.halt channel).close

/-- Lets the delivery of a dump go on as far as its channel allows. -/
def progress (session : Session) (channel : Channel) : Session × Channel :=
  match session.activity with
  | some (.dumping delivery) =>
      let (delivery, channel) := delivery.progress channel
      ({ session with activity := some (.dumping delivery) }, channel)
  | _ => (session, channel)

/-- Reads the channel of a dump to its end. -/
def readChannel (session : Session) (channel : Channel) : List UInt8 × Session × Channel :=
  match session.activity with
  | some (.dumping delivery) =>
      let (bytes, delivery, channel) := delivery.readToEnd channel
      (bytes, { session with activity := some (.dumping delivery) }, channel)
  | _ =>
      let (bytes, channel) := channel.takeAll
      (bytes, session, channel)

/-! ### What the host reports -/

/-- Takes note of what the host reports at the moment `now`. -/
def receive (host : Host σ) (now : Nanoseconds) (session : Session)
    (notification : Notification) : StateM σ Session := do
  let session := { session with population := session.population.receive now notification }
  match session.activity with
  | some (.tracking tracker writer) => do
      let (records, tracker, threads) ←
        tracker.receive host.interpreter session.population.threads notification
      pure
        { session with
          population := { session.population with threads := threads }
          activity := some (.tracking tracker (writer.sendAll records)) }
  | _ => pure session

end Session

end StackSampler
