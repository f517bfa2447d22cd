import StackSampler.Frame
import StackSampler.Identity

/-!
# Stacks

A walked frame is an interpreted frame together with the place it was read from.  A rendered stack
is ready to be recorded: the frames of one thread, or of one task or greenlet of a thread.
-/

namespace StackSampler

/-- An interpreted frame as seen during a walk. -/
structure WalkedFrame where
  /-- Where the frame was read. -/
  place : Address
  frame : Frame
  /-- Whether a fresh entry into the evaluation loop pushed this frame. -/
  isEntry : Bool
deriving DecidableEq, Repr, Inhabited

/-- A stack ready to be recorded, innermost frame first. -/
structure Stack where
  /-- The task or greenlet the stack belongs to, if it is not a thread's own stack. -/
  task : Option UInt64
  onCpu : Bool
  frames : List Frame
deriving DecidableEq, Repr, Inhabited

/-- The stack of a thread as it was walked. -/
def Stack.physical (walked : List WalkedFrame) : Stack :=
  ⟨none, true, walked.map (·.frame)⟩

end StackSampler
