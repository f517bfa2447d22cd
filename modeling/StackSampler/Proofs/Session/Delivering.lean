import StackSampler.Proofs.Attach.Truncation

/-!
# What arrives of a dump

A channel may take any part of what it is offered, take nothing for the moment, or have no reader
yet; and at every wait delivery may be asked to stop or run out of time.  This module looks at the
pieces that the channel takes, one for each of its answers.

The main statement is `Delivery.run_delivers`: joined in order, the pieces and what is left to write
are the dump, so no byte is sent twice or passed over.  Nothing is left exactly if delivery has come
to its end without a failure, and nothing more is sent once it has given up at a wait.
-/

namespace StackSampler

namespace Delivery

variable {delivery next : Delivery} {answer : DeliveryAnswer} {piece whole : List UInt8}

/-! ## The pieces -/

/-- What the channel takes with an answer: the first bytes of what is left, which is offered. -/
def takenWith (delivery : Delivery) (answer : DeliveryAnswer) : List UInt8 :=
  match delivery.phase, answer with
  | .writing, .write (.took count) => delivery.remaining.take count
  | _, _ => []

/-- What the channel takes with each of several answers. -/
def pieces (delivery : Delivery) : List DeliveryAnswer → List (List UInt8)
  | [] => []
  | answer :: rest => delivery.takenWith answer :: (delivery.step answer).pieces rest

/-- Whether delivery has come to an end. -/
def HasEnded (delivery : Delivery) : Prop :=
  ∃ result, delivery.phase = .ended result

/-- What comes of an answer, and what the channel takes with it. -/
inductive Reacts (delivery : Delivery) : DeliveryAnswer → Delivery → List UInt8 → Prop where
  | opens (phase : delivery.phase = .opening) :
      Reacts delivery (.open .opened) delivery.goOn []
  | takes (count : Nat) (phase : delivery.phase = .writing) :
      Reacts delivery (.write (.took (count + 1))) (delivery.advance (count + 1)).goOn
        (delivery.remaining.take (count + 1))
  | turns {answer : DeliveryAnswer} (phase : DeliveryPhase) (running : ¬ delivery.HasEnded)
      (goesOn : ¬ { delivery with phase := phase }.HasEnded) :
      Reacts delivery answer { delivery with phase := phase } []
  | fails {answer : DeliveryAnswer} (error : DeliveryError) (running : ¬ delivery.HasEnded) :
      Reacts delivery answer (delivery.fail error) []
  /-- The answer is to something that was not tried, or the attempt is made again. -/
  | rests {answer : DeliveryAnswer} : Reacts delivery answer delivery []

theorem reacts_step (delivery : Delivery) (answer : DeliveryAnswer) :
    delivery.Reacts answer (delivery.step answer) (delivery.takenWith answer) := by
  rcases delivery with ⟨remaining, written, phase, delivered⟩
  cases phase with
  | opening =>
      rcases answer with answer | answer | answer
      · cases answer with
        | opened => exact .opens rfl
        | noReader => exact .turns .waitingToOpen nofun nofun
        | interrupted => exact .rests
        | failed cause => exact .fails _ nofun
      · exact .rests
      · exact .rests
  | writing =>
      rcases answer with answer | answer | answer
      · exact .rests
      · cases answer with
        | took count =>
            cases count with
            | zero => exact .fails _ nofun
            | succ count => exact .takes count rfl
        | interrupted => exact .rests
        | wouldBlock => exact .turns .waitingToWrite nofun nofun
        | failed cause => exact .fails _ nofun
      · exact .rests
  | waitingToOpen =>
      rcases answer with answer | answer | answer
      · exact .rests
      · exact .rests
      · cases answer with
        | waited => exact .turns .opening nofun nofun
        | stopped | timedOut => exact .fails _ nofun
  | waitingToWrite =>
      rcases answer with answer | answer | answer
      · exact .rests
      · exact .rests
      · cases answer with
        | waited => exact .turns .writing nofun nofun
        | stopped | timedOut => exact .fails _ nofun
  | ended result => exact .rests

/-- What the channel takes is added to what has been written. -/
theorem Reacts.written_eq (reacts : delivery.Reacts answer next piece) :
    next.written = delivery.written ++ piece := by
  cases reacts with
  | takes count => exact goOn_written
  | opens => exact goOn_written.trans (List.append_nil _).symm
  | _ => exact (List.append_nil _).symm

/-! ## The end of a delivery -/

/-- Delivery reports the dump as delivered exactly if it has come to its end without a failure. -/
def Tells (delivery : Delivery) : Prop :=
  delivery.delivered = true ↔ delivery.phase = .ended (.ok ())

theorem start_tells (bytes : List UInt8) : (start bytes).Tells :=
  iff_of_false Bool.false_ne_true DeliveryPhase.noConfusion

theorem Tells.not_delivered (tells : delivery.Tells) (running : ¬ delivery.HasEnded) :
    delivery.delivered ≠ true :=
  fun delivered => running ⟨_, tells.mp delivered⟩

theorem goOn_tells (open_ : delivery.delivered ≠ true) : delivery.goOn.Tells := by
  rw [goOn]
  split
  · exact iff_of_true rfl rfl
  · apply iff_of_false open_
    intro ended
    cases ended

theorem Tells.react (tells : delivery.Tells) (reacts : delivery.Reacts answer next piece) :
    next.Tells := by
  cases reacts with
  | opens phase => exact goOn_tells (tells.not_delivered (by rw [HasEnded, phase]; exact nofun))
  | takes count phase =>
      apply goOn_tells
      exact tells.not_delivered (by rw [HasEnded, phase]; exact nofun)
  | turns phase running goesOn =>
      exact iff_of_false (tells.not_delivered running) fun ended => goesOn ⟨_, ended⟩
  | fails error running => exact iff_of_false (tells.not_delivered running) nofun
  | rests => exact tells

/-- A delivery that has ended takes no notice of answers. -/
theorem step_of_hasEnded (ended : delivery.HasEnded) (answer : DeliveryAnswer) :
    delivery.step answer = delivery ∧ delivery.takenWith answer = [] := by
  rcases ended with ⟨result, phase⟩
  simp only [step, takenWith, phase, and_self]

theorem pieces_of_hasEnded (ended : delivery.HasEnded) (answers : List DeliveryAnswer) :
    ∀ piece ∈ delivery.pieces answers, piece = [] := by
  induction answers with
  | nil => exact List.forall_mem_nil _
  | cons answer rest induction =>
      rcases step_of_hasEnded ended answer with ⟨same, nothing⟩
      rw [pieces, same, nothing]
      exact List.forall_mem_cons.mpr ⟨rfl, induction⟩

/-- Whether delivery waits for the channel. -/
def IsWaiting (delivery : Delivery) : Prop :=
  delivery.phase = .waitingToOpen ∨ delivery.phase = .waitingToWrite

/-- A delivery that is asked to stop while it waits, or has no time left, ends with a failure. -/
theorem IsWaiting.gives_up (waits : delivery.IsWaiting) {seen : WaitAnswer}
    (givesUp : seen ≠ .waited) :
    (delivery.step (.wait seen)).HasEnded ∧ delivery.takenWith (.wait seen) = [] := by
  have failed : ∀ phase, (delivery.afterWait phase seen).HasEnded := by
    intro phase
    cases seen with
    | waited => exact absurd rfl givesUp
    | stopped | timedOut => exact ⟨_, rfl⟩
  rcases waits with phase | phase
  · simp only [step, takenWith, phase]
    exact ⟨failed _, trivial⟩
  · simp only [step, takenWith, phase]
    exact ⟨failed _, trivial⟩

/-! ## Whole deliveries -/

theorem pieces_flatten (delivery : Delivery) (answers : List DeliveryAnswer) :
    delivery.written ++ (delivery.pieces answers).flatten = (delivery.run answers).written := by
  induction answers generalizing delivery with
  | nil => exact List.append_nil _
  | cons answer rest induction =>
      rw [pieces, List.flatten_cons, ← List.append_assoc,
        ← (reacts_step delivery answer).written_eq, induction]
      rfl

theorem Divides.run (divides : delivery.Divides whole) (answers : List DeliveryAnswer) :
    (delivery.run answers).Divides whole := by
  induction answers generalizing delivery with
  | nil => exact divides
  | cons answer rest induction => exact induction divides.step

theorem Tells.run (tells : delivery.Tells) (answers : List DeliveryAnswer) :
    (delivery.run answers).Tells := by
  induction answers generalizing delivery with
  | nil => exact tells
  | cons answer rest induction => exact induction (tells.react (reacts_step delivery answer))

/--
Whatever the channel answers, and whenever delivery is asked to stop or runs out of time: the pieces
that the channel takes, joined in order, are a prefix of the dump, and what is left to write is the
rest of it.  They are the whole dump exactly if delivery has come to its end without a failure, and
exactly if it reports the dump as delivered.  Once it has seen at a wait that it shall stop, or that
the time is up, the channel takes no piece any more.
-/
theorem run_delivers {bytes : List UInt8} (nonempty : bytes ≠ []) (answers : List DeliveryAnswer) :
    ((start bytes).pieces answers).flatten <+: bytes ∧
      ((start bytes).pieces answers).flatten ++ ((start bytes).run answers).remaining = bytes ∧
      (((start bytes).pieces answers).flatten = bytes ↔
        ((start bytes).run answers).phase = .ended (.ok ())) ∧
      (((start bytes).pieces answers).flatten = bytes ↔
        ((start bytes).run answers).delivered = true) ∧
      ∀ earlier seen later, ((start bytes).run earlier).IsWaiting → seen ≠ .waited →
        ∀ piece ∈ ((start bytes).run earlier).pieces (.wait seen :: later), piece = [] := by
  have written : ((start bytes).pieces answers).flatten = ((start bytes).run answers).written :=
    pieces_flatten (start bytes) answers
  have divides := (start_divides bytes).run answers
  have tells := (start_tells bytes).run answers
  have delivered : ((start bytes).run answers).written = bytes ↔
      ((start bytes).run answers).delivered = true := by
    constructor
    · intro all
      have started : ((start bytes).run answers).written ≠ [] := ne_of_eq_of_ne all nonempty
      exact (divides.delivered_iff started).mpr all
    · intro delivered
      have whole := divides.whole
      rwa [divides.nothing_left delivered, List.append_nil] at whole
  rw [written]
  refine ⟨⟨_, divides.whole⟩, divides.whole, delivered.trans tells, delivered, ?_⟩
  intro earlier seen later waits givesUp
  rcases waits.gives_up givesUp with ⟨ended, nothing⟩
  rw [pieces, nothing]
  exact List.forall_mem_cons.mpr ⟨rfl, pieces_of_hasEnded ended later⟩

/-- A dump of three bytes: there is no reader at first, and then the channel takes it by halves. -/
def haltingAnswers : List DeliveryAnswer :=
  [.open .noReader, .wait .waited, .open .interrupted, .open .opened, .write (.took 2),
    .write .wouldBlock, .wait .waited, .write .interrupted, .write (.took 1)]

theorem run_delivers_halting :
    ([1, 2, 3] : List UInt8) ≠ [] ∧
      (start [1, 2, 3]).pieces haltingAnswers =
        [[], [], [], [], [1, 2], [], [], [], [3]] ∧
      ((start [1, 2, 3]).run haltingAnswers).phase = .ended (.ok ()) ∧
      ((start [1, 2, 3]).run haltingAnswers).delivered = true ∧
      ((start [1, 2, 3]).run (haltingAnswers.take 6)).IsWaiting ∧
      ∀ piece ∈ ((start [1, 2, 3]).run (haltingAnswers.take 6)).pieces
        (.wait .timedOut :: haltingAnswers), piece = [] := by
  have nonempty : ([1, 2, 3] : List UInt8) ≠ [] := nofun
  have waits : ((start [1, 2, 3]).run (haltingAnswers.take 6)).IsWaiting := .inr rfl
  rcases run_delivers nonempty haltingAnswers with ⟨_, _, ended, delivered, gaveUp⟩
  have all : ((start [1, 2, 3]).pieces haltingAnswers).flatten = [1, 2, 3] := rfl
  exact ⟨nonempty, rfl, ended.mp all, delivered.mp all, waits,
    gaveUp _ .timedOut haltingAnswers waits nofun⟩

end Delivery

end StackSampler
