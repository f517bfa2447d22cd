import StackSampler.Configuration
import StackSampler.Dump
import StackSampler.Sampling.Capture
import StackSampler.Task.Discovery

/-!
# Sampling passes

One pass visits every thread that is known, in the order of their identities, and gives the
records of each: its name if that is to be reported, then a sample for each of its stacks or one
marker that says why there is none.  A thread that cannot be captured affects no other.
-/

namespace StackSampler

/-- What a pass over all threads needs from one time to the next. -/
structure Sampler where
  timeMode : TimeMode
  walker : Walker
  /-- The symbols of the evaluation loop, when native frames are wanted. -/
  native : Option (List String) := none
  /-- Native identities of threads that are left out. -/
  excluded : List NativeId := []

namespace Sampler

variable {σ : Type}

/-- The sampler of a configuration. -/
def new (configuration : Configuration) (version : InterpreterVersion)
    (excluded : List NativeId) : Sampler where
  timeMode := configuration.timeMode
  walker := .new version configuration.maxDepth.toNat
  native := if configuration.native then some configuration.evalSymbols else none
  excluded := excluded

/-- Whether a thread is left out. -/
def excludes (sampler : Sampler) (record : ThreadRecord) : Bool :=
  sampler.excluded.contains record.nativeId

/-- Brings the known threads in line with the interpreter's list, as far as it can be read. -/
def syncThreads (host : Host σ) (now : Nanoseconds) (threads : ThreadRegistry) :
    StateM σ ThreadRegistry := do
  match ← host.interpreter.threadIds.run with
  | .ok live => pure (threads.sync live now)
  | .error _ => pure threads

/-- The threads that are visited, in ascending order. -/
def visited (sampler : Sampler) (threads : ThreadRegistry) : List ThreadId :=
  (threads.toList.filter fun (_, record) => !sampler.excludes record).map (·.1)

/-- Looks for new tasks, unless native frames stand in for them. -/
def discoverTasks (host : Host σ) (sampler : Sampler) (population : Population) :
    StateM σ Population := do
  if sampler.native.isSome then pure population
  else
    let tasks ← population.tasks.discover host.interpreter
    pure { population with tasks := tasks }

/-- Prepares a pass: looks for new tasks and threads. -/
def prepare (host : Host σ) (sampler : Sampler) (now : Nanoseconds) (population : Population) :
    StateM σ Population := do
  let population ← discoverTasks host sampler population
  let threads ← syncThreads host now population.threads
  pure { population with threads := threads }

/-- The cost of a sample taken now, unless the thread has not run since the last one. -/
def measure (host : Host σ) (timeMode : TimeMode) (now : Nanoseconds) (thread : ThreadId)
    (record : ThreadRecord) : StateM σ (Option Metric × ThreadRecord) := do
  match timeMode with
  | .wall =>
      let (span, record) := record.advanceWall now
      pure (some (.wallTime (microseconds span)), record)
  | .cpu =>
      let clock ← host.cpuClock thread
      let (span, record) := record.advanceCpu clock
      pure (span.map fun span => .cpuTime (microseconds span), record)

/-- Whether a stack is recorded: by processor time only what runs is. -/
def counts (timeMode : TimeMode) (stack : Stack) : Bool :=
  match timeMode with
  | .wall => true
  | .cpu => stack.onCpu

/-- The records of a captured thread. -/
def captureRecords (timeMode : TimeMode) (thread : ThreadId) (metric : Metric) :
    Except CaptureError (List Stack) → List Record
  | .ok stackList => (stackList.filter (counts timeMode)).map fun stack =>
      .sample ⟨thread, stack.task, metric, stack.frames⟩
  | .error error => [.marker (.ofError thread error)]

/-- The number of samples of a captured thread. -/
def captureCount (timeMode : TimeMode) : Except CaptureError (List Stack) → Nat
  | .ok stackList => (stackList.filter (counts timeMode)).length
  | .error _ => 0

/-- What visiting threads gives: records, the number of samples among them, what is known now. -/
structure Visit where
  records : List Record
  samples : Nat
  population : Population

/-- Captures a thread whose cost is known. -/
def sampleThread (host : Host σ) (sampler : Sampler) (population : Population)
    (thread : ThreadId) (metric : Metric) : Observing σ Visit := do
  let (stackList, tasks) ← population.captureThread host sampler.native thread
  pure
    { records := captureRecords sampler.timeMode thread metric stackList
      samples := captureCount sampler.timeMode stackList
      population := { population with tasks := tasks } }

/-- Visits a thread: reports its name, then captures it if it counts. -/
def visit (host : Host σ) (sampler : Sampler) (now : Nanoseconds) (population : Population)
    (thread : ThreadId) : Observing σ Visit := do
  match population.threads[thread]? with
  | none => pure ⟨[], 0, population⟩
  | some record =>
      let (metric, record) ← Observing.query (measure host sampler.timeMode now thread record)
      let (name, record) := record.takeNameReport
      let names := name.toList.map (.threadName thread)
      let population :=
        { population with threads := population.threads.insert thread record }
      match metric with
      | none => pure ⟨names, 0, population⟩
      | some metric => do
          let visit ← sampleThread host sampler population thread metric
          pure { visit with records := names ++ visit.records }

/-- Visits several threads in turn. -/
def visitAll (host : Host σ) (sampler : Sampler) (now : Nanoseconds) (population : Population) :
    List ThreadId → Observing σ Visit
  | [] => pure ⟨[], 0, population⟩
  | thread :: rest => do
      let first ← visit host sampler now population thread
      let others ← visitAll host sampler now first.population rest
      pure ⟨first.records ++ others.records, first.samples + others.samples, others.population⟩

/-- Does something with the sampler's walker. -/
def withWalker {α : Type} (sampler : Sampler) (work : Observing σ α) : StateM σ (α × Sampler) :=
  fun subject =>
    let (result, observation) := work.run ⟨sampler.walker, subject⟩
    ((result, { sampler with walker := observation.walker }), observation.subject)

/-- One pass over all threads.  Tasks that no longer matter are dropped at its end. -/
def sampleAll (host : Host σ) (sampler : Sampler) (now : Nanoseconds)
    (population : Population) : StateM σ (Visit × Sampler) := do
  let population ← prepare host sampler now population
  let (visit, sampler) ← sampler.withWalker
    (visitAll host sampler now population (sampler.visited population.threads))
  let population := { visit.population with tasks := visit.population.tasks.prune }
  pure ({ visit with population := population }, sampler)

/-- What a dump shows of several threads. -/
def dumpAll (host : Host σ) (sampler : Sampler) (population : Population) :
    List ThreadId → Observing σ (List ThreadDump × Population)
  | [] => pure ([], population)
  | thread :: rest => do
      match population.threads[thread]? with
      | none => dumpAll host sampler population rest
      | some record =>
          let (stackList, tasks) ← population.captureThread host sampler.native thread
          let (others, population) ←
            dumpAll host sampler { population with tasks := tasks } rest
          pure (⟨thread, record.name, stackList⟩ :: others, population)

/-- Captures every thread for a dump. -/
def captureAll (host : Host σ) (sampler : Sampler) (now : Nanoseconds)
    (population : Population) : StateM σ ((List ThreadDump × Population) × Sampler) := do
  let population ← prepare host sampler now population
  sampler.withWalker (dumpAll host sampler population (sampler.visited population.threads))

end Sampler

end StackSampler
