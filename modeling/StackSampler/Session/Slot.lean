import StackSampler.Configuration.Document
import StackSampler.Configuration.Environment
import StackSampler.Session.Basic
import StackSampler.Subject.LayoutDocument
import StackSampler.Subject.Structures

/-!
# The session of a program

A program has one place for a session.  Its host starts a session there, reports to it and stops
it.  Stopping takes the session out first and ends it afterwards, in two more steps: it stops
capturing, then its stream is closed.
-/

namespace StackSampler

/-- A session in its place, with the host it observes and the channel for its dump. -/
structure Occupant (σ : Type) where
  session : Session
  host : Host σ
  channel : Channel

/-- A session that was taken out of its place and has not ended yet. -/
inductive Departure (σ : Type) where
  /-- It goes on capturing. -/
  | taken (occupant : Occupant σ)
  /-- It no longer captures, but its stream is open. -/
  | halted (session : Session.Halted)

namespace Departure

variable {σ : Type}

/-- One more step of ending a session, which at last gives what stopping it gave. -/
def next : Departure σ → Departure σ ⊕ Session.Stopped
  | .taken occupant => .inl (.halted (occupant.session.halt occupant.channel))
  | .halted session => .inr session.close

/-- Whether the session still captures or has its stream open. -/
def isActive : Departure σ → Bool
  | .taken occupant => occupant.session.isRunning
  | .halted session => session.writer.isSome

end Departure

/-- The place for a session, and the sessions that were taken out of it and are being ended. -/
structure SessionSlot (σ : Type) where
  occupant : Option (Occupant σ) := none
  departures : List (Departure σ) := []

/-- What the host is told. -/
inductive SlotAnswer where
  | done
  | failed
  | noSession
deriving DecidableEq, Repr

/-- The number that stands for an answer. -/
def SlotAnswer.code : SlotAnswer → Int
  | .done => 0
  | .failed => -1
  | .noSession => 1

/-- What a host gives to start a session. -/
structure StartRequest where
  /-- Where the interpreter's state lies. -/
  interpreter : Address
  layout : String
  /-- The configuration; without one the environment tells it. -/
  settings : Option String
  environment : String → Option String
  /-- What is said of the text of an option that is not the JSON that it should be. -/
  complaint : (option text : String) → String
  /-- Where a dump goes. -/
  channel : Channel

/-- The program that has the slot. -/
structure Machine (σ : Type) where
  reader : MemoryReader σ
  /-- The host of an interpreter in the program. -/
  host : Interpreter σ → Host σ

/-- Text that a host hands over: up to its first zero byte, and nothing at all is empty text. -/
def hostText : Option (List UInt8) → String
  | none => ""
  | some bytes => Text.ofUtf8Lenient (bytes.takeWhile (· != 0))

namespace StartRequest

/-- The configuration that a host asks for. -/
def configuration (request : StartRequest) : Except ConfigError Configuration :=
  match request.settings with
  | none => Configuration.ofLookup request.environment
  | some text =>
      match Configuration.ofText text with
      | .ok configuration => .ok configuration
      | .error _ => .error (.invalidValue "settings" (request.complaint "settings" text))

/-- The layout of the interpreter's structures. -/
def layoutOf (request : StartRequest) : Except ConfigError Layout :=
  match Layout.ofText request.layout with
  | .ok layout => .ok layout
  | .error _ => .error (.invalidValue "layout" (request.complaint "layout" request.layout))

/-- What a host asks for, or what is wrong with it. -/
def read (request : StartRequest) : Except ConfigError (Configuration × Layout) := do
  let configuration ← request.configuration
  let layout ← request.layoutOf
  pure (configuration, layout)

end StartRequest

namespace SessionSlot

variable {σ : Type}

/-- An empty slot. -/
def empty : SessionSlot σ := {}

/-- Starts a session and puts it into the slot, if that is empty and the start succeeds. -/
def start (machine : Machine σ) (context : StartContext) (slot : SessionSlot σ)
    (request : StartRequest) : StateM σ (Except SessionError Unit × SessionSlot σ) := do
  match request.read with
  | .error defect => pure (.error (.configuration defect), slot)
  | .ok (configuration, layout) =>
      match slot.occupant, Session.new configuration with
      | some _, _ => pure (.error .alreadyRunning, slot)
      | none, .error error => pure (.error error, slot)
      | none, .ok session => do
          let structures : Structures σ := ⟨machine.reader, layout, request.interpreter⟩
          let host := machine.host structures.interpreter
          match ← session.start host context with
          | (.error error, _) => pure (.error error, slot)
          | (.ok (), session) =>
              let (session, channel) := session.progress request.channel
              pure (.ok (), { slot with occupant := some ⟨session, host, channel⟩ })

/-- Takes the session out of the slot. -/
def take (slot : SessionSlot σ) : SessionSlot σ :=
  match slot.occupant with
  | none => slot
  | some occupant => ⟨none, .taken occupant :: slot.departures⟩

/-- Ends the session that was taken out `index` places ago by one more step. -/
def advance (slot : SessionSlot σ) (index : Nat) : SessionSlot σ :=
  match slot.departures[index]? with
  | none => slot
  | some departure =>
      match departure.next with
      | .inl departure => { slot with departures := slot.departures.set index departure }
      | .inr _ => { slot with departures := slot.departures.eraseIdx index }

/-- The number of sessions that still capture or have their stream open. -/
def activeCount (slot : SessionSlot σ) : Nat :=
  slot.occupant.toList.length + slot.departures.countP Departure.isActive

/-- Stops the session: takes it out of the slot and ends it. -/
def stop (slot : SessionSlot σ) : SlotAnswer × Option Session.Stopped × SessionSlot σ :=
  match slot.occupant with
  | none => (.noSession, none, slot)
  | some occupant =>
      let stopped := occupant.session.stop occupant.channel
      let answer := match stopped.result with
        | .ok () => SlotAnswer.done
        | .error _ => .failed
      (answer, some stopped, { slot with occupant := none })

/-- Lets the session take note of what the host reports at the moment `now`. -/
def notify (slot : SessionSlot σ) (now : Nanoseconds) (notification : Notification) :
    StateM σ (SlotAnswer × SessionSlot σ) := do
  match slot.occupant with
  | none => pure (.noSession, slot)
  | some occupant => do
      let session ← occupant.session.receive occupant.host now notification
      pure (.done, { slot with occupant := some { occupant with session := session } })

end SessionSlot

end StackSampler
