import StackSampler.Attach.ExitStatus
import StackSampler.Configuration.Document
import StackSampler.Session.Failure
import StackSampler.Thread.Registry

/-!
# Surroundings of a controller

All that a controller asks of the system and of the target while it profiles another program, and
how these may answer.
-/

namespace StackSampler.Attach

/-- What injected code does in the target. -/
inductive Bootstrap where
  /-- Starts a session. -/
  | attach
  /-- Writes a dump to the channel. -/
  | «where»
  /-- Stops the session. -/
  | detach
deriving DecidableEq, Repr

/-- The word for a bootstrap. -/
def Bootstrap.verb : Bootstrap → String
  | .attach => "attach"
  | .where => "where"
  | .detach => "detach"

/-- What comes of removing what lies at the channel's path. -/
inductive RemoveAnswer where
  | removed
  | absent
  | failed (cause : String)
deriving DecidableEq, Repr

/-- What comes of reading the channel. -/
inductive ReadAnswer where
  | data (bytes : List UInt8)
  /-- No bytes, and nobody has the channel open for writing. -/
  | ended
  /-- No bytes at the moment. -/
  | wouldBlock
  | interrupted
  | failed (cause : String)
deriving DecidableEq, Repr

/-- How a run of a controller came to its end. -/
inductive Outcome where
  | targetExited
  | exposureElapsed
  | stopped
  | delivered (dump : String)
  | launched (status : ExitStatus)
deriving DecidableEq, Repr

/-- The system and the target; `σ` is all that their answers may depend on. -/
structure Surroundings (σ : Type) where
  isAlive : (pid : Int) → StateM σ Bool
  inject : (pid : Int) → Bootstrap → Configuration → StateM σ (Except String Unit)
  removeChannel : (pid : Int) → StateM σ RemoveAnswer
  makeChannel : (pid : Int) → StateM σ (Except String Unit)
  /-- Lets every user write to the channel. -/
  permitChannel : (pid : Int) → StateM σ (Except String Unit)
  /-- Opens the channel for reading, without waiting for a writer. -/
  openChannel : (pid : Int) → StateM σ (Except String Unit)
  readChannel : (pid : Int) → StateM σ ReadAnswer
  now : StateM σ Nanoseconds
  stopRequested : StateM σ Bool
  pause : StateM σ Unit
  launch : (command : List String) → (extra : List (String × String)) →
    StateM σ (Except String ExitStatus)

/-- The name of the channel for the dump of a program. -/
def channelName (pid : Int) : String :=
  "strata-" ++ toString pid

/-! ## Injection by a program

A separate program may inject.  It is told the target, what to do there, the configuration, and for
a dump the channel; it has injected if it reports success.
-/

/-- The command that injects. -/
def injectionCommand (program : String) (pid : Int) (bootstrap : Bootstrap)
    (configuration : Configuration) (channel : String) : List String :=
  [program, toString pid, bootstrap.verb, configuration.toText] ++
    (if bootstrap = .where then [channel] else [])

/-- What the end of the injecting program tells of the injection. -/
def injectionResult (program : String) :
    Except String ExitStatus → Except String Unit
  | .error cause => .error cause
  | .ok status =>
      if status.isSuccess then .ok ()
      else .error (program ++ " exited with " ++ status.display)

end StackSampler.Attach
