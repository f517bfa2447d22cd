import StackSampler.Configuration
import StackSampler.Stream.Output

/-!
# Failures of a session

What can go wrong while a session is set up, run or ended, and the sentence that reports it.
-/

namespace StackSampler

/-- Why a session could not do what it was asked to. -/
inductive SessionError where
  | configuration (defect : ConfigError)
  | targetExited (pid : Int)
  /-- Something a session needs could not be had. -/
  | resource (what cause : String)
  | injection (pid : Int) (reason : String)
  | alreadyRunning
  | output (error : Stream.WriteError)
deriving DecidableEq, Repr

namespace SessionError

/-- The sentence that reports a failure, with processes named by `name`. -/
def messageFor (name : Int → String) : SessionError → String
  | .configuration defect => "invalid configuration: " ++ defect.message
  | .targetExited pid => "target process " ++ name pid ++ " is not running"
  | .resource what cause => "failed to set up " ++ what ++ ": " ++ cause
  | .injection pid reason => "failed to inject into process " ++ name pid ++ ": " ++ reason
  | .alreadyRunning => "a profiling session is already running"
  | .output error => error.message

/-- The sentence that reports a failure. -/
def message (error : SessionError) : String :=
  error.messageFor toString

end SessionError

/-- What the system says of a path at which there is nothing. -/
def noSuchFile : String := "No such file or directory (os error 2)"

/-- What the system says of a directory where a file is wanted. -/
def isADirectory : String := "Is a directory (os error 21)"

end StackSampler
