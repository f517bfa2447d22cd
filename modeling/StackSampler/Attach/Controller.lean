import StackSampler.Attach.Surroundings
import StackSampler.Configuration.Environment
import StackSampler.Text.Utf8

/-!
# Controllers

A controller profiles another program: it launches a command, attaches to a running program until
that ends, the time is up or it is asked to stop, or fetches one dump through a channel.  Every run
injects once before it waits and, if the target still lives, once more afterwards; a channel is
made anew for each run and removed at its end.
-/

namespace StackSampler.Attach

variable {σ : Type}

namespace Controller

/-- A run that has ended, well or not. -/
abbrev Ending := Except SessionError Outcome

/-- When the run ends by itself. -/
def deadline (surroundings : Surroundings σ) (configuration : Configuration) :
    StateM σ (Option Nanoseconds) := do
  let now ← surroundings.now
  pure (configuration.exposure.map fun seconds => now + seconds.toNat * 1000000000)

/-- Whether a deadline has passed. -/
def isOver (surroundings : Surroundings σ) : Option Nanoseconds → StateM σ Bool
  | none => pure false
  | some deadline => do pure (deadline ≤ (← surroundings.now))

/-- Looks whether the wait is over, and pauses if it is not. -/
def poll (surroundings : Surroundings σ) (pid : Int) (deadline : Option Nanoseconds) :
    StateM σ (Option Outcome) := do
  if !(← surroundings.isAlive pid) then pure (some .targetExited)
  else if ← isOver surroundings deadline then pure (some .exposureElapsed)
  else if ← surroundings.stopRequested then pure (some .stopped)
  else do
    surroundings.pause
    pure none

/-- Polls until the wait is over, but at most so many times. -/
def await (surroundings : Surroundings σ) (pid : Int) (deadline : Option Nanoseconds) :
    Nat → StateM σ (Option Outcome)
  | 0 => pure none
  | rounds + 1 => do
      match ← poll surroundings pid deadline with
      | some outcome => pure (some outcome)
      | none => await surroundings pid deadline rounds

/-- Whether a read shows that the writer has come, written and gone. -/
def isComplete (received : List UInt8) (answer : ReadAnswer) : Bool :=
  answer == .ended && !received.isEmpty

/--
Reads the channel until the wait is over, but at most so many times.  The end of the channel counts
only once something has been read, because before that there may not have been a writer yet.
-/
def receive (surroundings : Surroundings σ) (pid : Int) (deadline : Option Nanoseconds)
    (received : List UInt8) : Nat → StateM σ (Option Ending)
  | 0 => pure none
  | rounds + 1 => do
      match ← surroundings.readChannel pid with
      | .data bytes => receive surroundings pid deadline (received ++ bytes) rounds
      | .failed cause => pure (some (.error (.resource "where channel" cause)))
      | answer =>
          if isComplete received answer then
            pure (some (.ok (.delivered (Text.ofUtf8Lenient received))))
          else
            match ← poll surroundings pid deadline with
            | some outcome => pure (some (.ok outcome))
            | none => receive surroundings pid deadline received rounds

/-- Injects, and reports a failure. -/
def inject (surroundings : Surroundings σ) (configuration : Configuration) (pid : Int)
    (bootstrap : Bootstrap) : StateM σ (Except SessionError Unit) := do
  match ← surroundings.inject pid bootstrap configuration with
  | .ok () => pure (.ok ())
  | .error reason => pure (.error (.injection pid reason))

/-- Detaches from a target that lives; a failure changes nothing. -/
def detach (surroundings : Surroundings σ) (configuration : Configuration) (pid : Int) :
    StateM σ Unit := do
  if ← surroundings.isAlive pid then
    let _ ← surroundings.inject pid .detach configuration

/-- Makes the channel anew and opens it; a channel that cannot be opened is removed again. -/
def createChannel (surroundings : Surroundings σ) (pid : Int) :
    StateM σ (Except String Unit) := do
  match ← surroundings.removeChannel pid with
  | .failed cause => pure (.error cause)
  | _ =>
      match ← surroundings.makeChannel pid with
      | .error cause => pure (.error cause)
      | .ok () =>
          let opened ← do
            match ← surroundings.permitChannel pid with
            | .error cause => pure (.error cause)
            | .ok () => surroundings.openChannel pid
          if opened matches .error _ then
            let _ ← surroundings.removeChannel pid
          pure opened

/-- Attaches to a program. -/
def attach (surroundings : Surroundings σ) (configuration : Configuration) (rounds : Nat)
    (pid : Int) : StateM σ (Option Ending) := do
  if !(← surroundings.isAlive pid) then pure (some (.error (.targetExited pid)))
  else
    match ← inject surroundings configuration pid .attach with
    | .error error => pure (some (.error error))
    | .ok () =>
        let deadline ← deadline surroundings configuration
        match ← await surroundings pid deadline rounds with
        | none => pure none
        | some outcome =>
            detach surroundings configuration pid
            pure (some (.ok outcome))

/-- Asks for a dump and waits for it, when the channel stands. -/
def fetch (surroundings : Surroundings σ) (configuration : Configuration) (rounds : Nat)
    (pid : Int) : StateM σ (Option Ending) := do
  match ← inject surroundings configuration pid .where with
  | .error error => pure (some (.error error))
  | .ok () =>
      let deadline ← deadline surroundings configuration
      match ← receive surroundings pid deadline [] rounds with
      | some (.ok outcome) =>
          detach surroundings configuration pid
          pure (some (.ok outcome))
      | other => pure other

/-- Fetches a dump of a program. -/
def dump (surroundings : Surroundings σ) (configuration : Configuration) (rounds : Nat)
    (pid : Int) : StateM σ (Option Ending) := do
  if !(← surroundings.isAlive pid) then pure (some (.error (.targetExited pid)))
  else
    match ← createChannel surroundings pid with
    | .error cause => pure (some (.error (.resource "where channel" cause)))
    | .ok () =>
        let ending ← fetch surroundings configuration rounds pid
        let _ ← surroundings.removeChannel pid
        pure ending

/-- Launches a command that profiles itself. -/
def launch (surroundings : Surroundings σ) (configuration : Configuration)
    (command : List String) : StateM σ Ending := do
  match ← surroundings.launch command configuration.toVariables with
  | .ok status => pure (.ok (.launched status))
  | .error cause => pure (.error (.resource "launched command" cause))

/--
Carries out a configuration.  A run that has to wait looks at most `rounds` times whether the wait
is over; without an ending it has not come to its end by then.
-/
def run (surroundings : Surroundings σ) (configuration : Configuration) (rounds : Nat) :
    StateM σ (Option Ending) := do
  match configuration.defect? with
  | some defect => pure (some (.error (.configuration defect)))
  | none =>
      match configuration.target with
      | .current => pure (some (.error (.configuration (.invalidValue "target" "current"))))
      | .launch command => do pure (some (← launch surroundings configuration command))
      | .attach pid => attach surroundings configuration rounds pid.toInt
      | .where pid => dump surroundings configuration rounds pid.toInt

end Controller

end StackSampler.Attach
