import StackSampler.Greenlet.Rendering
import StackSampler.Native.Splice
import StackSampler.Sampling.Host
import StackSampler.Task.Rendering

/-!
# Capturing a thread

The stacks of one thread.  With native unwinding the thread is held while it is walked, and its one
stack joins native and interpreted frames.  Otherwise the stacks are those of its greenlets, if it
has any, or else those of its loop.
-/

namespace StackSampler.Population

variable {σ : Type}

/-- The stack of a thread with its native frames, given the symbols of the evaluation loop. -/
def captureNative (host : Host σ) (symbols : List String) (thread : ThreadId) :
    Walking σ CaptureError (List Stack) := do
  match ← Walking.ask (ExceptT.lift (host.nativeStack thread)) with
  | .refused errno => throw (.signal thread errno)
  | .silent => throw (.nativeTimeout thread)
  | .lost =>
      let _ ← ExceptT.lift (Walking.walk host.interpreter thread).run
      throw (.nativeTimeout thread)
  | .held pointers =>
      let walked ← Walking.walk host.interpreter thread
      let native := Native.symbolize host.symbol? pointers
      pure [⟨none, true, Native.splice symbols native walked⟩]

/-- The stacks of a thread that was walked: of its greenlets, or else of its loop. -/
def renderWalked (host : Host σ) (population : Population) (thread : ThreadId)
    (walked : List WalkedFrame) : Observing σ (List Stack × TaskGraph) := do
  match ← population.greenlets.render host.interpreter thread walked with
  | some stackList => pure (stackList, population.tasks)
  | none => population.tasks.render host.interpreter thread walked

/-- The stacks of a thread, and the tasks with what was learned of them on the way. -/
def captureThread (host : Host σ) (native : Option (List String)) (population : Population)
    (thread : ThreadId) : Observing σ (Except CaptureError (List Stack) × TaskGraph) := do
  match native with
  | some symbols =>
      let stackList ← (captureNative host symbols thread).run
      pure (stackList, population.tasks)
  | none =>
      match ← (Walking.walk host.interpreter thread).run with
      | .error error => pure (.error error, population.tasks)
      | .ok walked =>
          let (stackList, tasks) ← renderWalked host population thread walked
          pure (.ok stackList, tasks)

end StackSampler.Population
