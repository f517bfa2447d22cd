import StackSampler.Sampling.Host

/-!
# The slot for native stacks

A sampler and the thread it interrupts meet in one slot.  The sampler claims the slot and sends a
signal; the thread's handler records the instruction pointers and holds the thread until the
sampler lets it go, or until it has been held for too long.  All of it is given as single steps on
the slot, which samplers, handlers and signals on their way may take in any order.
-/

namespace StackSampler.Native

/-- Where a capture stands, as the slot shows it. -/
inductive SlotState where
  | idle
  | requested
  | capturing
  | captured
  | released
deriving DecidableEq, Repr

/-- What samplers and handlers share. -/
structure CaptureSlot where
  state : SlotState := .idle
  /-- The number of pointers recorded last. -/
  depth : Nat := 0
  /-- The pointers at their places; what was recorded before stays until it is overwritten. -/
  pointers : Nat → Address := fun _ => 0

/-- The most instruction pointers that are recorded. -/
def depthLimit : Nat := 256

namespace CaptureSlot

/-- The slot in another state. -/
def setState (slot : CaptureSlot) (state : SlotState) : CaptureSlot :=
  { slot with state := state }

/-- Records a pointer at its place. -/
def setPointer (slot : CaptureSlot) (place : Nat) (pointer : Address) : CaptureSlot :=
  { slot with
    pointers := fun other => if other = place then pointer else slot.pointers other }

end CaptureSlot

/-! ### Samplers -/

/-- What a sampler does next in a capture. -/
inductive CapturePhase where
  /-- Tries to claim the idle slot. -/
  | claiming
  | signalling
  /-- Gives the slot back after the signal could not be sent. -/
  | givingBack (errno : Int)
  /-- Looks whether the stack has been captured. -/
  | awaiting
  /-- Tries to withdraw the request, because it has taken too long. -/
  | withdrawing
  | readingDepth
  /-- Reads so many pointers more. -/
  | reading (remaining : Nat)
  /-- Begins the work for which the thread is held. -/
  | beginning
  | working
  /-- Tries to let the thread go. -/
  | releasing
  | ended (answer : NativeAnswer)
deriving DecidableEq, Repr

/-- A capture of the native stack of a thread. -/
structure Capture where
  thread : ThreadId
  phase : CapturePhase := .claiming
  /-- The pointers read so far. -/
  pointers : List Address := []
deriving DecidableEq, Repr

/-- What a sampler sees of the world outside the slot in one step. -/
structure SamplerView where
  /-- Whether the capture has taken too long. -/
  isLate : Bool := false
  /-- Why a signal cannot be sent. -/
  refusal : Option Int := none
deriving DecidableEq, Repr

namespace Capture

/-- Goes on to another phase. -/
def goTo (capture : Capture) (phase : CapturePhase) : Capture :=
  { capture with phase := phase }

/-- After a look at the slot while the capture is awaited. -/
def afterLook (capture : Capture) (isLate : Bool) : SlotState → Capture
  | .captured => capture.goTo .readingDepth
  | .idle => capture.goTo (.ended .silent)
  | .requested => if isLate then capture.goTo .withdrawing else capture
  | _ => capture

/-- Reads the next pointer. -/
def readPointer (capture : Capture) (slot : CaptureSlot) (remaining : Nat) : Capture :=
  match remaining with
  | 0 => capture.goTo .beginning
  | remaining + 1 =>
      { capture with
        phase := .reading remaining
        pointers := capture.pointers ++ [slot.pointers capture.pointers.length] }

/-- One step of a sampler, with the signals that it sends. -/
def step (capture : Capture) (view : SamplerView) (slot : CaptureSlot) :
    Capture × CaptureSlot × List ThreadId :=
  match capture.phase with
  | .claiming =>
      if slot.state = .idle then (capture.goTo .signalling, slot.setState .requested, [])
      else if view.isLate then (capture.goTo (.ended .silent), slot, [])
      else (capture, slot, [])
  | .signalling =>
      match view.refusal with
      | some errno => (capture.goTo (.givingBack errno), slot, [])
      | none => (capture.goTo .awaiting, slot, [capture.thread])
  | .givingBack errno => (capture.goTo (.ended (.refused errno)), slot.setState .idle, [])
  | .awaiting => (capture.afterLook view.isLate slot.state, slot, [])
  | .withdrawing =>
      if slot.state = .requested then (capture.goTo (.ended .silent), slot.setState .idle, [])
      else (capture.goTo .awaiting, slot, [])
  | .readingDepth => (capture.goTo (.reading (min slot.depth depthLimit)), slot, [])
  | .reading remaining => (capture.readPointer slot remaining, slot, [])
  | .beginning => (capture.goTo .working, slot, [])
  | .working => (capture.goTo .releasing, slot, [])
  | .releasing =>
      if slot.state = .captured then
        (capture.goTo (.ended (.held capture.pointers)), slot.setState .released, [])
      else (capture.goTo (.ended .lost), slot, [])
  | .ended _ => (capture, slot, [])

/-- Whether the capture has ended. -/
def hasEnded (capture : Capture) : Bool :=
  capture.phase matches .ended _

end Capture

/-! ### Handlers -/

/-- What a handler does next. -/
inductive HandlerPhase where
  /-- Tries to take up a request. -/
  | entering
  /-- Records pointers, from a place on. -/
  | recording (place : Nat) (remaining : List Address)
  | recordingDepth (depth : Nat)
  /-- Shows that the stack has been captured. -/
  | publishing
  /-- Holds the thread: looks whether it is let go. -/
  | holding
  /-- Holds the thread: it was not let go, so looks at the clock. -/
  | waiting
  /-- Holds the thread: it was let go, so makes the slot idle. -/
  | leaving
  | ended
deriving DecidableEq, Repr

/-- A handler that a signal has started on a thread. -/
structure Handler where
  thread : ThreadId
  /-- The instruction pointers of the thread, innermost first. -/
  stack : List Address
  phase : HandlerPhase := .entering
deriving DecidableEq, Repr

namespace Handler

/-- Goes on to another phase. -/
def goTo (handler : Handler) (phase : HandlerPhase) : Handler :=
  { handler with phase := phase }

/-- Records the next pointer, or that there are no more. -/
def record (handler : Handler) (slot : CaptureSlot) (place : Nat) :
    List Address → Handler × CaptureSlot
  | [] => (handler.goTo (.recordingDepth place), slot)
  | pointer :: rest =>
      (handler.goTo (.recording (place + 1) rest), slot.setPointer place pointer)

/-- After a look at the slot while the thread is held. -/
def afterLook (handler : Handler) : SlotState → Handler
  | .released => handler.goTo .leaving
  | .captured => handler.goTo .waiting
  | _ => handler.goTo .ended

/-- One step of a handler, which may have held its thread for too long. -/
def step (handler : Handler) (isLate : Bool) (slot : CaptureSlot) : Handler × CaptureSlot :=
  match handler.phase with
  | .entering =>
      if slot.state = .requested then
        (handler.goTo (.recording 0 (handler.stack.take depthLimit)), slot.setState .capturing)
      else (handler.goTo .ended, slot)
  | .recording place remaining => handler.record slot place remaining
  | .recordingDepth depth => (handler.goTo .publishing, { slot with depth := depth })
  | .publishing => (handler.goTo .holding, slot.setState .captured)
  | .holding => (handler.afterLook slot.state, slot)
  | .waiting =>
      if isLate && slot.state == .captured then (handler.goTo .ended, slot.setState .idle)
      else (handler.goTo .holding, slot)
  | .leaving => (handler.goTo .ended, slot.setState .idle)
  | .ended => (handler, slot)

/-- Whether the handler holds its thread. -/
def isHolding (handler : Handler) : Bool :=
  handler.phase == .holding || handler.phase == .waiting || handler.phase == .leaving

/-- Whether the handler has ended. -/
def hasEnded (handler : Handler) : Bool :=
  handler.phase == .ended

end Handler

/-! ### All together -/

/-- Samplers, handlers, and signals on their way. -/
structure CaptureSystem where
  slot : CaptureSlot := {}
  captures : List Capture := []
  handlers : List Handler := []
  /-- The threads to which signals are on their way. -/
  signals : List ThreadId := []

/-- What may happen next. -/
inductive CaptureMove where
  /-- A sampler begins to capture a thread. -/
  | begin (thread : ThreadId)
  /-- The sampler of a capture does a step. -/
  | sample (capture : Nat) (view : SamplerView)
  /-- A signal reaches its thread, whose stack is given. -/
  | deliver (signal : Nat) (stack : List Address)
  /-- A handler does a step. -/
  | handle (handler : Nat) (isLate : Bool)
deriving DecidableEq, Repr

namespace CaptureSystem

/-- The system after something has happened; what is not there does nothing. -/
def step (system : CaptureSystem) : CaptureMove → CaptureSystem
  | .begin thread => { system with captures := system.captures ++ [{ thread := thread }] }
  | .sample index view =>
      match system.captures[index]? with
      | none => system
      | some capture =>
          let (capture, slot, sent) := capture.step view system.slot
          { system with
            slot := slot
            captures := system.captures.set index capture
            signals := system.signals ++ sent }
  | .deliver index stack =>
      match system.signals[index]? with
      | none => system
      | some thread =>
          { system with
            handlers := system.handlers ++ [{ thread := thread, stack := stack }]
            signals := system.signals.eraseIdx index }
  | .handle index isLate =>
      match system.handlers[index]? with
      | none => system
      | some handler =>
          let (handler, slot) := handler.step isLate system.slot
          { system with slot := slot, handlers := system.handlers.set index handler }

/-- The system after several things have happened. -/
def run (system : CaptureSystem) (moves : List CaptureMove) : CaptureSystem :=
  moves.foldl step system

/-- Whether no capture and no handler is at work. -/
def isQuiet (system : CaptureSystem) : Bool :=
  system.captures.all Capture.hasEnded && system.handlers.all Handler.hasEnded

end CaptureSystem

end StackSampler.Native
