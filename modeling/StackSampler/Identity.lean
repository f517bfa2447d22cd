/-!
# Identities

What the observed process calls its threads, tasks, loops and greenlets.  Every identity is a
64-bit word: a thread is named by its handle, everything else by the address of its object.
-/

namespace StackSampler

/-- A place in the memory of the observed process. -/
abbrev Address := UInt64

/-- Identity of an interpreter thread. -/
abbrev ThreadId := UInt64

/-- Address of a task object: stable while the task lives, reused afterwards. -/
abbrev TaskId := UInt64

/-- Address of an event loop object. -/
abbrev LoopId := UInt64

/-- Address of a greenlet object. -/
abbrev GreenletId := UInt64

/-- Kernel identity of a thread; zero when only the interpreter reported the thread. -/
abbrev NativeId := Int

end StackSampler
