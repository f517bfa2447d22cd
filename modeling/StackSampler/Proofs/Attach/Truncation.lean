import StackSampler.Proofs.Attach.Exchange
import StackSampler.Session.Delivery

/-!
# Dumps that are cut off

A delivery can be stopped, run out of time or die with its program when it has written a part of the
dump.  The channel is then closed as after the last byte, and the controller cannot tell one from
the other.

The main statement is `Exchange.delivered_eq_written`: the controller delivers what was written, and
that is the whole dump exactly if the delivery has come to its end.
-/

namespace StackSampler

open Attach

/-- What a delivery lives to see. -/
inductive DeliveryEvent where
  | answered (answer : DeliveryAnswer)
  /-- The program that delivers dies. -/
  | dies
deriving DecidableEq, Repr

namespace Delivery

/-! ## What a delivery does to the channel -/

/-- Whether the channel is open for writing. -/
def hasChannel (delivery : Delivery) : Bool :=
  delivery.phase matches .writing | .waitingToWrite

/-- Whether an answer says that the channel has been opened. -/
def isOpened (delivery : Delivery) (answer : DeliveryAnswer) : Bool :=
  delivery.phase matches .opening && answer == .open .opened

/-- What one step does: the channel is closed as soon as it is not needed any more. -/
def movesOf (delivery : Delivery) (answer : DeliveryAnswer) : List TargetMove :=
  let next := delivery.step answer
  let opened := delivery.isOpened answer
  let written := next.written.drop delivery.written.length
  (if opened then [.opens] else []) ++
    (if written.isEmpty then [] else [.writes written]) ++
    (if (opened || delivery.hasChannel) && !next.hasChannel then [.closes] else [])

/-- What a delivery does in the course of some events. -/
def moves (delivery : Delivery) : List DeliveryEvent → List TargetMove
  | [] => []
  | .dies :: _ => [.exits]
  | .answered answer :: rest => delivery.movesOf answer ++ (delivery.step answer).moves rest

/-- The delivery after some events; a dead one stays as it is. -/
def after (delivery : Delivery) : List DeliveryEvent → Delivery
  | [] => delivery
  | .dies :: _ => delivery
  | .answered answer :: rest => (delivery.step answer).after rest

variable {delivery : Delivery} {answer : DeliveryAnswer} {events : List DeliveryEvent}
  {whole : List UInt8} {stage : Stage}

/-- Whether the channel has yet to be opened. -/
def isBefore (delivery : Delivery) : Bool :=
  delivery.phase matches .opening | .waitingToOpen

/-- What a step can be. -/
inductive Steps (delivery : Delivery) (answer : DeliveryAnswer) : Delivery → Prop where
  | opens (phase : delivery.phase = .opening) (opened : answer = .open .opened) :
      Steps delivery answer delivery.goOn
  | writes (count : Nat) (phase : delivery.phase = .writing)
      (took : answer = .write (.took (count + 1))) :
      Steps delivery answer (delivery.advance (count + 1)).goOn
  /-- Nothing goes through the channel, which may be closed. -/
  | turns (phase : DeliveryPhase) (unopened : delivery.isOpened answer = false)
      (channel : { delivery with phase := phase }.hasChannel = true → delivery.hasChannel = true)
      (before : { delivery with phase := phase }.isBefore = true → delivery.isBefore = true) :
      Steps delivery answer { delivery with phase := phase }

theorem steps_step (delivery : Delivery) (answer : DeliveryAnswer) :
    Steps delivery answer (delivery.step answer) := by
  rcases delivery with ⟨remaining, written, phase, delivered⟩
  cases phase with
  | opening =>
      rcases answer with answer | answer | answer
      · cases answer with
        | opened => exact .opens rfl rfl
        | interrupted => exact .turns .opening rfl id id
        | noReader => exact .turns .waitingToOpen rfl id id
        | failed cause => exact .turns (.ended _) rfl id nofun
      · exact .turns .opening rfl id id
      · exact .turns .opening rfl id id
  | writing =>
      rcases answer with answer | answer | answer
      · exact .turns .writing rfl id id
      · cases answer with
        | took count =>
            cases count with
            | zero => exact .turns (.ended _) rfl nofun id
            | succ count => exact .writes count rfl rfl
        | interrupted => exact .turns .writing rfl id id
        | wouldBlock => exact .turns .waitingToWrite rfl id id
        | failed cause => exact .turns (.ended _) rfl nofun id
      · exact .turns .writing rfl id id
  | waitingToOpen =>
      rcases answer with answer | answer | answer
      · exact .turns .waitingToOpen rfl id id
      · exact .turns .waitingToOpen rfl id id
      · cases answer with
        | waited => exact .turns .opening rfl id id
        | stopped | timedOut => exact .turns (.ended _) rfl id nofun
  | waitingToWrite =>
      rcases answer with answer | answer | answer
      · exact .turns .waitingToWrite rfl id id
      · exact .turns .waitingToWrite rfl id id
      · cases answer with
        | waited => exact .turns .writing rfl id id
        | stopped | timedOut => exact .turns (.ended _) rfl nofun id
  | ended result => exact .turns (.ended result) rfl id id

@[simp]
theorem goOn_written : delivery.goOn.written = delivery.written := by
  rw [goOn]
  split <;> rfl

@[simp]
theorem goOn_hasChannel : delivery.goOn.hasChannel = !delivery.remaining.isEmpty := by
  rw [goOn]
  split <;> rename_i nothing <;> simp [hasChannel, nothing]

@[simp]
theorem goOn_isBefore : delivery.goOn.isBefore = false := by
  rw [goOn]
  split <;> rfl

/-! ## What is written -/

/--
The part that is written and the part that is left make up the dump; nothing is left of a dump that
is delivered, and a dump of which something was written and nothing is left is delivered.
-/
structure Divides (whole : List UInt8) (delivery : Delivery) : Prop where
  whole : delivery.written ++ delivery.remaining = whole
  nothing_left : delivery.delivered = true → delivery.remaining = []
  delivered : delivery.written ≠ [] → delivery.remaining = [] → delivery.delivered = true

theorem start_divides (bytes : List UInt8) : (start bytes).Divides bytes :=
  ⟨rfl, fun delivered => absurd delivered Bool.false_ne_true, fun started => absurd rfl started⟩

theorem Divides.moved (divides : delivery.Divides whole) (phase : DeliveryPhase) :
    { delivery with phase := phase }.Divides whole :=
  ⟨divides.whole, divides.nothing_left, divides.delivered⟩

theorem goOn_divides (divided : delivery.written ++ delivery.remaining = whole)
    (nothing_left : delivery.delivered = true → delivery.remaining = []) :
    delivery.goOn.Divides whole := by
  rw [goOn]
  split
  · rename_i nothing
    exact ⟨divided, fun _ => List.isEmpty_iff.mp nothing, fun _ _ => rfl⟩
  · rename_i more
    exact ⟨divided, nothing_left, fun _ nothing => absurd (List.isEmpty_iff.mpr nothing) more⟩

theorem Divides.advance_goOn (divides : delivery.Divides whole) (count : Nat) :
    (delivery.advance count).goOn.Divides whole := by
  refine goOn_divides ?_ fun delivered => ?_
  · simp only [advance, List.append_assoc, List.take_append_drop, divides.whole]
  · simp only [advance, divides.nothing_left delivered, List.drop_nil]

theorem Divides.step (divides : delivery.Divides whole) :
    (delivery.step answer).Divides whole := by
  have steps := steps_step delivery answer
  generalize delivery.step answer = next at steps ⊢
  cases steps with
  | opens => exact goOn_divides divides.whole divides.nothing_left
  | writes count => exact divides.advance_goOn (count + 1)
  | turns phase => exact divides.moved phase

theorem Divides.after (divides : delivery.Divides whole) (events : List DeliveryEvent) :
    (delivery.after events).Divides whole := by
  induction events generalizing delivery with
  | nil => exact divides
  | cons event rest induction =>
      cases event with
      | dies => exact divides
      | answered answer => exact induction divides.step

/-- A dump of which something was written is delivered exactly if all of it was written. -/
theorem Divides.delivered_iff (divides : delivery.Divides whole) (started : delivery.written ≠ []) :
    delivery.delivered = true ↔ delivery.written = whole := by
  have nothing : delivery.remaining = [] ↔ delivery.written = whole := by
    simp [← divides.whole]
  exact ⟨fun delivered => nothing.mp (divides.nothing_left delivered),
    fun all => divides.delivered started (nothing.mpr all)⟩

/-! ## The moves of a delivery -/

theorem written_step (delivery : Delivery) (answer : DeliveryAnswer) :
    delivery.written <+: (delivery.step answer).written := by
  have steps := steps_step delivery answer
  generalize delivery.step answer = next at steps ⊢
  cases steps with
  | opens => exact goOn_written ▸ List.prefix_rfl
  | writes count =>
      rw [goOn_written]
      exact List.prefix_append _ _
  | turns => exact List.prefix_rfl

theorem writtenBy_movesOf (delivery : Delivery) (answer : DeliveryAnswer) :
    delivery.written ++ writtenBy (delivery.movesOf answer) =
      (delivery.step answer).written := by
  rcases written_step delivery answer with ⟨more, same⟩
  rw [movesOf, ← same, List.drop_left, writtenBy_append, writtenBy_append]
  have opens (opened : Bool) : writtenBy (if opened then [.opens] else []) = [] := by
    cases opened <;> rfl
  have closes (closed : Bool) : writtenBy (if closed then [.closes] else []) = [] := by
    cases closed <;> rfl
  have writes : writtenBy (if more.isEmpty then [] else [.writes more]) = more := by
    cases more <;> simp [TargetMove.bytes]
  rw [opens, writes, closes, List.nil_append, List.append_nil]

theorem writtenBy_moves (delivery : Delivery) (events : List DeliveryEvent) :
    delivery.written ++ writtenBy (delivery.moves events) = (delivery.after events).written := by
  induction events generalizing delivery with
  | nil => exact List.append_nil _
  | cons event rest induction =>
      cases event with
      | dies => exact List.append_nil _
      | answered answer =>
          rw [moves, writtenBy_append, ← List.append_assoc, writtenBy_movesOf, induction, after]

/-- The stage of a program whose delivery has come so far with the channel. -/
structure IsAt (stage : Stage) (delivery : Delivery) : Prop where
  alive : stage ≠ .gone
  writing : delivery.hasChannel = true ↔ stage = .writing
  before : delivery.isBefore = true → stage = .before

theorem goOn_isAt :
    delivery.goOn.IsAt (if delivery.remaining.isEmpty then .after else .writing) := by
  cases nothing : delivery.remaining.isEmpty <;> constructor <;> simp [nothing]

theorem follow?_closes (closed : Bool) :
    Stage.writing.follow? (if closed then [.closes] else []) =
      some (if closed then .after else .writing) := by
  cases closed <;> rfl

theorem follow?_writes (more : List UInt8) :
    Stage.writing.follow? (if more.isEmpty then [] else [.writes more]) = some .writing := by
  cases more <;> rfl

theorem follow?_movesOf (here : delivery.IsAt stage) (answer : DeliveryAnswer) :
    ∃ next, stage.follow? (delivery.movesOf answer) = some next ∧
      (delivery.step answer).IsAt next := by
  have steps := steps_step delivery answer
  rw [movesOf]
  generalize delivery.step answer = next at steps ⊢
  cases steps with
  | opens phase opened =>
      have before : stage = .before := here.before (by simp [isBefore, phase])
      refine ⟨_, ?_, goOn_isAt⟩
      have opened : delivery.isOpened answer = true := by simp [isOpened, phase, opened]
      simp only [opened, goOn_written, List.drop_length, goOn_hasChannel, before, if_true,
        List.isEmpty_nil, Bool.true_or, Bool.true_and, Bool.not_not, List.append_nil]
      exact Stage.follow?_cons.mpr ⟨.writing, rfl, follow?_closes _⟩
  | writes count phase =>
      have channel : delivery.hasChannel = true := by simp [hasChannel, phase]
      have unopened : delivery.isOpened answer = false := by simp [isOpened, phase]
      refine ⟨_, ?_, goOn_isAt⟩
      simp only [unopened, channel, goOn_hasChannel, here.writing.mp channel, Bool.or_true,
        Bool.true_and, Bool.not_not]
      exact Stage.follow?_append.mpr ⟨.writing, follow?_writes _, follow?_closes _⟩
  | turns phase unopened channel before =>
      simp only [unopened, List.drop_length]
      cases held : delivery.hasChannel with
      | false =>
          have holds := Bool.eq_false_iff.mpr (mt channel (Bool.eq_false_iff.mp held))
          refine ⟨stage, rfl, here.alive, ?_, here.before ∘ before⟩
          rw [holds, ← held]
          exact here.writing
      | true =>
          have writing := here.writing.mp held
          have unready (ready : { delivery with phase := phase }.isBefore = true) : False := by
            rw [here.before (before ready)] at writing
            cases writing
          rw [writing]
          refine ⟨_, follow?_closes _, ?_⟩
          cases holds : { delivery with phase := phase }.hasChannel <;>
            exact ⟨nofun, by simp [holds], fun ready => (unready ready).elim⟩

theorem follow?_moves (here : delivery.IsAt stage) (events : List DeliveryEvent) :
    ∃ last, stage.follow? (delivery.moves events) = some last := by
  induction events generalizing delivery stage with
  | nil => exact ⟨stage, rfl⟩
  | cons event rest induction =>
      cases event with
      | dies =>
          refine ⟨.gone, ?_⟩
          cases stage with
          | gone => exact absurd rfl here.alive
          | before | writing | after => rfl
      | answered answer =>
          rcases follow?_movesOf here answer with ⟨middle, first, there⟩
          rcases induction there with ⟨last, second⟩
          exact ⟨last, Stage.follow?_append.mpr ⟨middle, first, second⟩⟩

theorem start_isAt (bytes : List UInt8) : (start bytes).IsAt .before :=
  ⟨nofun, by simp [start, hasChannel], fun _ => rfl⟩

end Delivery

/-! ## What the controller delivers -/

namespace Attach.Exchange

open Controller

variable {configuration : Configuration} {pid : Int32} {exchange : Exchange}

/--
A run that delivers a text has read all that was written before the delivery ended or its program
died: some first part of the dump, and the whole dump exactly if the delivery came to its end.
-/
theorem delivered_eq_written
    (target : configuration.target = .where pid) (valid : configuration.defect? = none)
    (fresh : exchange.IsFresh) {dump : String} {events : List DeliveryEvent}
    (delivers : exchange.begun.ahead = (Delivery.start (Text.utf8 dump)).moves events)
    {rounds : Nat} {text : String}
    (delivered : ((run surroundings configuration rounds).run exchange).1 =
      some (.ok (.delivered text))) :
    let delivery := (Delivery.start (Text.utf8 dump)).after events
    text = Text.ofUtf8Lenient delivery.written ∧ delivery.written ≠ [] ∧
      delivery.written <+: Text.utf8 dump ∧
      (delivery.delivered = true ↔ delivery.written = Text.utf8 dump) ∧
      (delivery.delivered = true → text = dump) := by
  intro delivery
  rcases Delivery.follow?_moves (Delivery.start_isAt (Text.utf8 dump)) events with ⟨last, course⟩
  rw [← delivers] at course
  have underway := fresh.underway course
  have written : writtenBy exchange.begun.ahead = delivery.written := by
    rw [delivers]
    exact Delivery.writtenBy_moves (Delivery.start (Text.utf8 dump)) events
  rw [written] at underway
  rw [run_fst target valid fresh] at delivered
  rcases (receive_ends [] exchange.begun rounds).delivered_sent underway delivered with
    ⟨text_eq, started⟩
  have divides := (Delivery.start_divides (Text.utf8 dump)).after events
  have whole := divides.delivered_iff started
  refine ⟨text_eq, started, ⟨_, divides.whole⟩, whole, fun finished => ?_⟩
  rw [text_eq, whole.mp finished, Text.ofUtf8Lenient_utf8]

/-- So many bytes are taken; when no more are, delivery is asked to stop. -/
def cutShort (count : Nat) : List DeliveryEvent :=
  [.answered (.open .opened), .answered (.write (.took count)), .answered (.write .wouldBlock),
    .answered (.wait .stopped)]

theorem moves_cutShort {front back : List UInt8} (started : front ≠ []) (more : back ≠ []) :
    (Delivery.start (front ++ back)).moves (cutShort front.length) =
      [.opens, .writes front, .closes] := by
  rcases long : front.length with _ | count
  · exact absurd (List.length_eq_zero_iff.mp long) started
  have opened : (Delivery.start (front ++ back)).step (.open .opened) =
      { remaining := front ++ back, phase := .writing } := by
    simp [Delivery.start, Delivery.step, Delivery.afterOpen, Delivery.goOn, started]
  have taken : ({ remaining := front ++ back, phase := .writing } : Delivery).advance (count + 1) =
      { remaining := back, written := front, phase := .writing } := by
    simp [Delivery.advance, ← long]
  have wrote : ({ remaining := front ++ back, phase := .writing } : Delivery).step
      (.write (.took (count + 1))) =
        { remaining := back, written := front, phase := .writing } := by
    simp [Delivery.step, Delivery.afterWrite, taken, Delivery.goOn, more]
  simp only [cutShort, Delivery.moves, Delivery.movesOf, opened, wrote]
  simp [Delivery.start, Delivery.isOpened, Delivery.hasChannel, Delivery.step, started,
    Delivery.afterWrite, Delivery.afterWait, Delivery.fail]

/-- A target that closes the channel after a first part, all before the first read. -/
def stoppedAfter (front : String) : Exchange where
  plan := [{ moves := [.opens, .writes (Text.utf8 front), .closes]
             further := (Text.utf8 front).length }]

section StoppedAfter

variable {front back : String} (started : Text.utf8 front ≠ [])

include started

theorem ahead_stoppedAfter (more : Text.utf8 back ≠ []) :
    (stoppedAfter front).begun.ahead =
      (Delivery.start (Text.utf8 (front ++ back))).moves (cutShort (Text.utf8 front).length) := by
  rw [Text.utf8_append, moves_cutShort started more]
  rfl

theorem run_stoppedAfter
    (target : configuration.target = .where pid) (valid : configuration.defect? = none) :
    ((run surroundings configuration 2).run (stoppedAfter front)).1 =
      some (.ok (.delivered front)) := by
  have text : front ≠ "" := mt Text.utf8_eq_nil_iff.mpr started
  have first : (stoppedAfter front).begun.read =
      (.data (Text.utf8 front), { plan := (stoppedAfter front).plan, stands := true }) := by
    simp [Exchange.read, stoppedAfter, begun, advance, turn, proceed, move, text,
      List.take_of_length_le (Nat.le_succ (Text.utf8 front).length)]
  rw [run_fst target valid ⟨rfl, rfl, rfl, rfl⟩, receive_run_succ, first]
  dsimp only
  rw [receive_run_succ]
  simp [Exchange.read, advance, turn, proceed, isComplete, text]

end StoppedAfter

/-- The first part of a dump is delivered when its delivery was stopped. -/
theorem delivered_eq_written_stopped :
    let exchange := stoppedAfter "Process 1: 0 thr"
    let dump := "Process 1: 0 thr" ++ "eads\n"
    let delivery := (Delivery.start (Text.utf8 dump)).after (cutShort 16)
    exchange.begun.ahead = (Delivery.start (Text.utf8 dump)).moves (cutShort 16) ∧
      ((run surroundings { target := .where 7 } 2).run exchange).1 =
        some (.ok (.delivered "Process 1: 0 thr")) ∧
      "Process 1: 0 thr" = Text.ofUtf8Lenient delivery.written ∧
      delivery.written <+: Text.utf8 dump ∧ delivery.delivered = false := by
  intro exchange dump delivery
  have delivers : exchange.begun.ahead = (Delivery.start (Text.utf8 dump)).moves (cutShort 16) :=
    ahead_stoppedAfter (by decide) (by decide)
  have delivered : ((run surroundings { target := .where 7 } 2).run exchange).1 =
      some (.ok (.delivered "Process 1: 0 thr")) :=
    run_stoppedAfter (by decide) rfl (by decide)
  rcases delivered_eq_written rfl (by decide) ⟨rfl, rfl, rfl, rfl⟩ delivers delivered with
    ⟨text, -, first, -, -⟩
  exact ⟨delivers, delivered, text, first, rfl⟩

/-- Not every text that is delivered is the dump. -/
theorem not_delivered_eq_dump :
    ¬ ∀ (configuration : Configuration) (pid : Int32) (exchange : Exchange) (dump : String)
      (events : List DeliveryEvent) (rounds : Nat) (text : String),
      configuration.target = .where pid → configuration.defect? = none → exchange.IsFresh →
      exchange.begun.ahead = (Delivery.start (Text.utf8 dump)).moves events →
      ((run surroundings configuration rounds).run exchange).1 = some (.ok (.delivered text)) →
      text = dump := by
  intro complete
  have filled (count : Nat) : String.ofList (List.replicate (count + 1) 'z') ≠ "" := by
    simp [List.replicate_succ]
  -- The channel takes 64 KiB, and the dump is one byte longer.
  have nonempty := filled (64 * 1024 - 1)
  generalize String.ofList (List.replicate (64 * 1024 - 1 + 1) 'z') = front at nonempty
  have bytes : Text.utf8 front ≠ [] := mt Text.utf8_eq_nil_iff.mp nonempty
  have same := complete { target := .where 7 } 7 (stoppedAfter front) (front ++ "z")
    (cutShort (Text.utf8 front).length) 2 front rfl (by decide) ⟨rfl, rfl, rfl, rfl⟩
    (ahead_stoppedAfter bytes (by decide)) (run_stoppedAfter bytes rfl (by decide))
  have longer := congrArg String.length same
  simp at longer

end Attach.Exchange

end StackSampler
