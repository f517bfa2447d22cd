/-!
# Exit statuses

How a launched program ended.
-/

namespace StackSampler

/-- How a program ended. -/
inductive ExitStatus where
  | exited (code : Nat)
  /-- A signal ended it. -/
  | killed (signal : Nat)
deriving DecidableEq, Repr

namespace ExitStatus

/-- Whether the program reported success. -/
def isSuccess (status : ExitStatus) : Bool :=
  status == .exited 0

/-- The exit code, if the program ended by itself. -/
def code? : ExitStatus → Option Nat
  | .exited code => some code
  | .killed _ => none

/-- The names of signals that end programs. -/
def signalNames : List (Nat × String) :=
  [(1, "SIGHUP"), (2, "SIGINT"), (3, "SIGQUIT"), (6, "SIGABRT"), (9, "SIGKILL"), (11, "SIGSEGV"),
    (13, "SIGPIPE"), (14, "SIGALRM"), (15, "SIGTERM")]

/-- The text of an exit status. -/
def display : ExitStatus → String
  | .exited code => "exit status: " ++ toString code
  | .killed signal =>
      let name := match signalNames.lookup signal with
        | some name => " (" ++ name ++ ")"
        | none => ""
      "signal: " ++ toString signal ++ name

end ExitStatus

end StackSampler
