/-!
# Delivering a dump

A dump is written to a channel without waiting inside a write.  The channel may have no reader yet,
take only a part, or take nothing for the moment; then delivery waits a little and goes on, unless
it is asked to stop or the time is up.  Delivery is given here as its steps, each of which takes the
channel's answer to what was tried last.
-/

namespace StackSampler

/-- What a channel answers to an attempt to open it for writing. -/
inductive OpenAnswer where
  | opened
  /-- Nobody has opened the channel for reading. -/
  | noReader
  | interrupted
  | failed (cause : String)
deriving DecidableEq, Repr

/-- What a channel answers to an attempt to write. -/
inductive WriteAnswer where
  /-- So many bytes were taken. -/
  | took (count : Nat)
  | interrupted
  /-- Nothing can be taken at the moment. -/
  | wouldBlock
  | failed (cause : String)
deriving DecidableEq, Repr

/-- What is seen when delivery has to wait. -/
inductive WaitAnswer where
  | waited
  /-- Delivery was asked to stop. -/
  | stopped
  /-- The time is up. -/
  | timedOut
deriving DecidableEq, Repr

/-- An answer to whatever delivery tried last. -/
inductive DeliveryAnswer where
  | open (answer : OpenAnswer)
  | write (answer : WriteAnswer)
  | wait (answer : WaitAnswer)
deriving DecidableEq, Repr

/-- Why a dump was not delivered. -/
inductive DeliveryError where
  | stopped
  | timedOut
  /-- The channel took nothing and gave no reason. -/
  | nothingTaken
  | channel (cause : String)
deriving DecidableEq, Repr

/-- The sentence that says why a dump was not delivered. -/
def DeliveryError.message : DeliveryError → String
  | .stopped => "stopped before the dump was read"
  | .timedOut => "no reader on the where channel"
  | .nothingTaken => "write zero"
  | .channel cause => cause

/-- What delivery does next. -/
inductive DeliveryPhase where
  | opening
  | writing
  /-- Waits, and then opens the channel again. -/
  | waitingToOpen
  /-- Waits, and then writes again. -/
  | waitingToWrite
  | ended (result : Except DeliveryError Unit)

/-- A dump on its way. -/
structure Delivery where
  /-- What has not been written yet. -/
  remaining : List UInt8
  /-- What has been written, in order. -/
  written : List UInt8 := []
  phase : DeliveryPhase := .opening
  /-- Whether the whole dump has been written. -/
  delivered : Bool := false

namespace Delivery

/-- The delivery of a text. -/
def start (bytes : List UInt8) : Delivery :=
  { remaining := bytes }

/-- Ends with a failure. -/
def fail (delivery : Delivery) (error : DeliveryError) : Delivery :=
  { delivery with phase := .ended (.error error) }

/-- Goes on writing, or ends if nothing is left to write. -/
def goOn (delivery : Delivery) : Delivery :=
  if delivery.remaining.isEmpty then
    { delivery with phase := .ended (.ok ()), delivered := true }
  else { delivery with phase := .writing }

/-- Moves on by so many bytes. -/
def advance (delivery : Delivery) (count : Nat) : Delivery :=
  { delivery with
    remaining := delivery.remaining.drop count
    written := delivery.written ++ delivery.remaining.take count }

/-- After an attempt to open the channel. -/
def afterOpen (delivery : Delivery) : OpenAnswer → Delivery
  | .opened => delivery.goOn
  | .noReader => { delivery with phase := .waitingToOpen }
  | .interrupted => delivery
  | .failed cause => delivery.fail (.channel cause)

/-- After an attempt to write all that is left. -/
def afterWrite (delivery : Delivery) : WriteAnswer → Delivery
  | .took 0 => delivery.fail .nothingTaken
  | .took count => (delivery.advance count).goOn
  | .interrupted => delivery
  | .wouldBlock => { delivery with phase := .waitingToWrite }
  | .failed cause => delivery.fail (.channel cause)

/-- After a look at the request to stop and at the clock. -/
def afterWait (delivery : Delivery) (next : DeliveryPhase) : WaitAnswer → Delivery
  | .waited => { delivery with phase := next }
  | .stopped => delivery.fail .stopped
  | .timedOut => delivery.fail .timedOut

/-- One step; an answer to something that was not tried changes nothing. -/
def step (delivery : Delivery) (answer : DeliveryAnswer) : Delivery :=
  match delivery.phase, answer with
  | .opening, .open answer => delivery.afterOpen answer
  | .writing, .write answer => delivery.afterWrite answer
  | .waitingToOpen, .wait answer => delivery.afterWait .opening answer
  | .waitingToWrite, .wait answer => delivery.afterWait .writing answer
  | _, _ => delivery

/-- The delivery after several answers. -/
def run (delivery : Delivery) (answers : List DeliveryAnswer) : Delivery :=
  answers.foldl step delivery

end Delivery

end StackSampler
