/-!
# Signal dispositions

While a session runs it answers two signals: one asks a thread for its native stack, the other asks
for a dump.  Several sessions may overlap, so the users of each signal are counted, and whatever
answered a signal before comes back when its last user has gone.
-/

namespace StackSampler

/-- The signals that a session answers. -/
inductive Signal where
  /-- Asks a thread for its native stack. -/
  | profile
  /-- Asks for a dump of all threads. -/
  | quit
deriving DecidableEq, Repr

/-- What answers a signal. -/
inductive SignalHandler where
  /-- Records the native stack of the thread it runs on. -/
  | stackRecorder
  /-- Asks the session for a dump. -/
  | dumpRequest
  /-- Whatever the host had there. -/
  | host (number : Nat)
deriving DecidableEq, Repr

/-- What answers a signal while a session holds it. -/
def Signal.handler : Signal → SignalHandler
  | .profile => .stackRecorder
  | .quit => .dumpRequest

/-- A signal that sessions answer. -/
structure TakenSignal where
  signal : Signal
  /-- The number of guards that hold the signal. -/
  users : Nat
  /-- What answered the signal before. -/
  previous : SignalHandler
deriving DecidableEq, Repr

/-- What answers each signal, and which signals are taken. -/
structure Dispositions where
  handler : Signal → SignalHandler
  taken : List TakenSignal := []

/-- Holds signals for the time of a session. -/
structure SignalGuard where
  /-- The signals held, the one taken first at the front. -/
  signals : List Signal := []
deriving DecidableEq, Repr

namespace Dispositions

/-- Lets something else answer a signal. -/
def setHandler (dispositions : Dispositions) (signal : Signal) (handler : SignalHandler) :
    Dispositions :=
  { dispositions with
    handler := fun other => if other = signal then handler else dispositions.handler other }

/-- The entry of a taken signal. -/
def record? (dispositions : Dispositions) (signal : Signal) : Option TakenSignal :=
  dispositions.taken.find? (·.signal == signal)

/-- The number of guards that hold a signal. -/
def users (dispositions : Dispositions) (signal : Signal) : Nat :=
  match dispositions.record? signal with
  | some entry => entry.users
  | none => 0

/-- The place of a taken signal in the list. -/
def place? (dispositions : Dispositions) (signal : Signal) : Option Nat :=
  dispositions.taken.findIdx? (·.signal == signal)

/-- Removes the entry at a place; the last entry moves there. -/
def swapRemove (entries : List TakenSignal) (place : Nat) : List TakenSignal :=
  match entries.getLast? with
  | some last => (entries.set place last).dropLast
  | none => []

/--
One more guard holds a signal.  The first one takes it from the host, for which the system is
asked; `none` when it refuses.
-/
def acquire (dispositions : Dispositions) (accepted : Bool) (signal : Signal) :
    Option Dispositions :=
  match dispositions.place? signal with
  | some place =>
      some { dispositions with
        taken := dispositions.taken.modify place fun entry =>
          { entry with users := entry.users + 1 } }
  | none =>
      if accepted then
        some { dispositions.setHandler signal signal.handler with
          taken := dispositions.taken ++ [⟨signal, 1, dispositions.handler signal⟩] }
      else none

/-- One guard fewer holds a signal; after the last one the host has it back. -/
def release (dispositions : Dispositions) (signal : Signal) : Dispositions :=
  match dispositions.place? signal with
  | none => dispositions
  | some place =>
      match dispositions.taken[place]? with
      | none => dispositions
      | some entry =>
          if 0 < entry.users - 1 then
            { dispositions with
              taken := dispositions.taken.set place { entry with users := entry.users - 1 } }
          else
            { dispositions.setHandler signal entry.previous with
              taken := swapRemove dispositions.taken place }

/-- The signals that a session holds. -/
def wanted (nativeUnwinding dumpOnQuit : Bool) : List Signal :=
  (if nativeUnwinding then [.profile] else []) ++ (if dumpOnQuit then [.quit] else [])

/-- Gives back the signals of a guard, the one taken last first. -/
def drop (dispositions : Dispositions) (guard : SignalGuard) : Dispositions :=
  guard.signals.reverse.foldl release dispositions

/-- Takes signals for a guard; at the first refusal the guard is dropped with what it holds. -/
def takeAll (accepts : Signal → Bool) :
    Dispositions → SignalGuard → List Signal → Option SignalGuard × Dispositions
  | dispositions, guard, [] => (some guard, dispositions)
  | dispositions, guard, signal :: rest =>
      match dispositions.acquire (accepts signal) signal with
      | some taken => takeAll accepts taken ⟨guard.signals ++ [signal]⟩ rest
      | none => (none, dispositions.drop guard)

/-- Takes the signals for a session, if the system accepts the handlers. -/
def install (dispositions : Dispositions) (accepts : Signal → Bool)
    (nativeUnwinding dumpOnQuit : Bool) : Option SignalGuard × Dispositions :=
  takeAll accepts dispositions {} (wanted nativeUnwinding dumpOnQuit)

end Dispositions

end StackSampler
