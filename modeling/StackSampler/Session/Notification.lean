import StackSampler.Allocation.Tracker
import StackSampler.Greenlet.Table
import StackSampler.Sampling.Host
import StackSampler.Task.Events
import StackSampler.Thread.Registry

/-!
# Notifications

What a host reports about its threads, loops, tasks, greenlets and memory.  All but the memory
concerns the population, which takes note whether or not a session runs; memory concerns only the
recording of allocations.
-/

namespace StackSampler

/-- Something that the host reports. -/
inductive Notification where
  | threadTracked (thread : ThreadId) (name : String) (nativeId : NativeId)
  | threadUntracked (thread : ThreadId)
  | loopRegistered (thread : ThreadId) (loop : LoopId)
  | taskCreated (task : TaskDescription)
  | tasksLinked (parent child : TaskId)
  | taskEntered (loop : LoopId) (task : TaskId)
  | taskLeft (loop : LoopId) (task : TaskId)
  | taskDone (task : TaskId)
  /-- Tasks from before the first report, and the collections in which later ones are found. -/
  | tasksImported (running : List (LoopId × TaskId)) (scheduled eager : List TaskDescription)
      (containers : List TaskContainer)
  | greenletTracked (greenlet : GreenletId) (thread : ThreadId) (name : String)
      (frame : Option Address)
  | greenletUpdated (greenlet : GreenletId) (frame : Option Address)
  | greenletsLinked (greenlet parent : GreenletId)
  | greenletSwitched (thread : ThreadId) (greenlet : GreenletId)
  | greenletUntracked (greenlet : GreenletId)
  | allocated (thread : ThreadId) (address size : UInt64)
  | released (address : UInt64)
deriving DecidableEq, Repr

namespace TaskGraph

/-- Takes note of what is reported about tasks. -/
def receive (graph : TaskGraph) : Notification → TaskGraph
  | .loopRegistered thread loop => graph.registerLoop thread loop
  | .taskCreated task => graph.create task
  | .tasksLinked parent child => graph.link parent child
  | .taskEntered loop task => graph.enter loop task
  | .taskLeft loop task => graph.leave loop task
  | .taskDone task => graph.complete task
  | .tasksImported running scheduled eager containers =>
      containers.foldl watch (graph.importAll running scheduled eager)
  | _ => graph

end TaskGraph

namespace GreenletTable

/-- Takes note of what is reported about greenlets. -/
def receive (table : GreenletTable) : Notification → GreenletTable
  | .greenletTracked greenlet thread name frame => table.track greenlet thread name frame
  | .greenletUpdated greenlet frame => table.updateFrame greenlet frame
  | .greenletsLinked greenlet parent => table.link greenlet parent
  | .greenletSwitched thread greenlet => table.switch thread greenlet
  | .greenletUntracked greenlet => table.untrack greenlet
  | _ => table

end GreenletTable

namespace ThreadRegistry

/-- Takes note of what is reported about threads at the moment `now`. -/
def receive (now : Nanoseconds) (registry : ThreadRegistry) : Notification → ThreadRegistry
  | .threadTracked thread name nativeId => registry.track thread name nativeId now
  | .threadUntracked thread => registry.untrack thread
  | _ => registry

end ThreadRegistry

/-- Takes note of what is reported about memory; the records belong to the stream. -/
def AllocationTracker.receive {σ : Type} (interpreter : Interpreter σ)
    (tracker : AllocationTracker) (registry : ThreadRegistry) :
    Notification → StateM σ (List Record × AllocationTracker × ThreadRegistry)
  | .allocated thread address size => tracker.allocate interpreter registry thread address size
  | .released address =>
      let (records, tracker) := tracker.free address
      pure (records, tracker, registry)
  | _ => pure ([], tracker, registry)

/-- Takes note of what is reported about threads, tasks and greenlets at the moment `now`. -/
def Population.receive (now : Nanoseconds) (population : Population)
    (notification : Notification) : Population where
  threads := population.threads.receive now notification
  tasks := population.tasks.receive notification
  greenlets := population.greenlets.receive notification

end StackSampler
