import StackSampler.Proofs.Attach.Exchange

/-!
# Whether a dump arrives

A target that hands over a dump writes all of it and closes the channel before it exits.  A
controller with no limit of time, and not asked to stop, then receives the dump, or it finds that
the target has exited: between a read that came to nothing and the look at the target that follows
there is room for the whole dump, and the dump is not looked for again.

The main statement is `Exchange.run_arrives_or_gone`.  The dump does arrive if the target is not in
that haste.
-/

namespace StackSampler.Attach

/-! ## Closing and exiting -/

namespace Stage

variable {stage last : Stage} {moves : List TargetMove}

theorem isOver_of_follow? (isOver : stage.IsOver) (followed : stage.follow? moves = some last) :
    last.IsOver := by
  induction moves generalizing stage with
  | nil => exact (Option.some.inj followed) ▸ isOver
  | cons move rest induction =>
      rcases follow?_cons.mp followed with ⟨middle, next, followed⟩
      refine induction ?_ followed
      rcases isOver with rfl | rfl
      · cases move <;> cases next
        exact .inr rfl
      · cases next

theorem isOver_of_closes (closes : .closes ∈ moves) (followed : stage.follow? moves = some last) :
    last.IsOver := by
  rcases List.append_of_mem closes with ⟨first, second, rfl⟩
  rcases follow?_append.mp followed with ⟨middle, -, followed⟩
  rcases follow?_cons.mp followed with ⟨closed, next, followed⟩
  refine isOver_of_follow? ?_ followed
  cases middle <;> cases next
  exact .inl rfl

theorem exits_mem (alive : stage ≠ .gone) (followed : stage.follow? moves = some .gone) :
    .exits ∈ moves := by
  induction moves generalizing stage with
  | nil => exact absurd (Option.some.inj followed) alive
  | cons move rest induction =>
      rcases follow?_cons.mp followed with ⟨middle, next, followed⟩
      by_cases exits : move = .exits
      · exact exits ▸ List.mem_cons_self
      · refine List.mem_cons_of_mem move (induction ?_ followed)
        rintro rfl
        cases stage <;> cases move <;> simp_all [next?]

end Stage

/-! ## What is asked of the target and of the controller -/

/-- The moves of a target that writes a whole dump, and closes the channel before it exits. -/
structure HandsOver (dump : String) (moves : List TargetMove) : Prop where
  whole : writtenBy moves = Text.utf8 dump
  closes : .closes ∈ moves
  course : ∃ last, Stage.before.follow? moves = some last

/--
The target never exits; or no read is interrupted, and the controller takes a step between the
moment when the channel is closed and the exit.
-/
def IsUnhurried (turns : List Turn) : Prop :=
  (∀ turn ∈ turns, .exits ∉ turn.moves) ∨
    ∀ turn ∈ turns, turn.interrupted = false ∧ (.exits ∈ turn.moves → .closes ∉ turn.moves)

namespace Exchange

variable {exchange : Exchange}

/-- The controller is not asked to stop. -/
def IsQuiet (exchange : Exchange) : Prop :=
  exchange.stopRequested = false ∧ ∀ turn ∈ exchange.turns, turn.stops = false

theorem turn_of_forall (Property : Turn → Prop) (rest : Property {})
    (all : ∀ turn ∈ exchange.turns, Property turn) : Property exchange.turn := by
  rw [turn]
  cases turns : exchange.turns with
  | nil => exact rest
  | cons turn later => exact all turn (turns ▸ List.mem_cons_self)

theorem IsQuiet.advance (quiet : exchange.IsQuiet) : exchange.advance.IsQuiet := by
  refine ⟨?_, ?_⟩
  · rw [advance_stopRequested, quiet.1, turn_of_forall (·.stops = false) rfl quiet.2]
    rfl
  · rw [advance_turns]
    exact fun turn later => quiet.2 turn (List.mem_of_mem_tail later)

theorem IsQuiet.verdict_eq (quiet : exchange.IsQuiet) :
    exchange.verdict none = if exchange.isAlive then none else some .targetExited := by
  rw [verdict, quiet.1]
  cases exchange.isAlive <;> rfl

end Exchange

/-! ## The end of the wait -/

section Waiting

variable {sent received : List UInt8} {last stage : Stage} {exchange : Exchange} {rounds : Nat}
  {ending : Option Controller.Ending} {deadline : Option Nanoseconds}

/-- Once the target has nothing more to do, a read comes to nothing only if it is interrupted. -/
theorem Underway.interrupted_of_isOver
    (advanced : Underway sent last received stage exchange.advance.ahead exchange.advance)
    (isOver : stage.IsOver) (vain : exchange.ReadsInVain received) (nonempty : sent ≠ []) :
    exchange.turn.interrupted = true := by
  refine vain.resolve_right ?_
  rintro ⟨nothing, writing | untouched⟩
  · rcases isOver with rfl | rfl <;> simp [advanced.isWriting] at writing
  · have rest := Stage.writtenBy_of_isOver isOver advanced.course
    exact nonempty (by simpa [nothing, untouched, rest] using advanced.whole.symm)

theorem Underway.turns_ne_nil
    (underway : Underway sent last received stage exchange.ahead exchange) (isOver : last.IsOver)
    (vain : exchange.ReadsInVain received) (nonempty : sent ≠ []) : exchange.turns ≠ [] := by
  intro rest
  rcases underway.advance with ⟨next, -, advanced⟩
  have course := advanced.course
  rw [Exchange.ahead, Exchange.advance_turns, rest] at course
  cases course
  have interrupted := advanced.interrupted_of_isOver isOver vain nonempty
  simp [Exchange.turn, rest] at interrupted

/--
With no limit of time and no request to stop, a wait for a target that closes the channel ends with
all that the target has sent, or because the target has exited.  Each look at the channel takes a
turn, or bytes that were left when the turns had run out.
-/
theorem Ends.sent_or_gone
    (ends : Ends none received exchange rounds ending)
    (underway : Underway sent last received stage exchange.ahead exchange)
    (isOver : last.IsOver) (nonempty : sent ≠ []) (quiet : exchange.IsQuiet)
    (enough : exchange.turns.length + (sent.length - received.length) < rounds) :
    ending = some (.ok (.delivered (Text.ofUtf8Lenient sent))) ∨
      ending = some (.ok .targetExited) := by
  induction ends generalizing stage with
  | out => exact absurd enough (Nat.not_lt_zero _)
  | @data received bytes rest exchange rounds ending taken filled later induction =>
      rcases underway.advance with ⟨next, -, advanced⟩
      have reading := advanced.read taken
      refine induction reading quiet.advance ?_
      have within := reading.received_length_le
      have positive : 0 < bytes.length := List.length_pos_iff.mpr filled
      have fewer : exchange.advance.turns.length ≤ exchange.turns.length := by simp
      simp only [List.length_append] at within ⊢
      omega
  | delivered nothing closed begun =>
      rcases underway.advance with ⟨next, -, advanced⟩
      left
      rw [advanced.received_of_closed nothing closed begun]
  | stopped _ verdict =>
      right
      rw [quiet.advance.advance.verdict_eq] at verdict
      split at verdict <;> cases verdict
      rfl
  | @again received exchange rounds ending vain verdict later induction =>
      rcases underway.advance with ⟨middle, -, once⟩
      rcases once.advance with ⟨next, -, twice⟩
      refine induction twice quiet.advance.advance ?_
      have turns : 0 < exchange.turns.length :=
        List.length_pos_iff.mpr (underway.turns_ne_nil isOver vain nonempty)
      simp only [Exchange.advance_turns, List.length_tail]
      omega

/-- A target that is not in haste has come to a stage. -/
inductive Lingers (stage : Stage) (exchange : Exchange) : Prop where
  | stays (here : stage ≠ .gone) (never : ∀ turn ∈ exchange.turns, .exits ∉ turn.moves)
  | closes
      (calm : ∀ turn ∈ exchange.turns,
        turn.interrupted = false ∧ (.exits ∈ turn.moves → .closes ∉ turn.moves))
      (closes : stage.IsOver ∨ .closes ∈ exchange.ahead)

theorem Exchange.ne_gone_of_never
    (never : ∀ turn ∈ exchange.turns, .exits ∉ turn.moves) (here : stage ≠ .gone)
    (followed : stage.follow? exchange.turn.moves = some last) : last ≠ .gone := by
  rintro rfl
  exact exchange.turn_of_forall (.exits ∉ ·.moves) (List.not_mem_nil) never
    (Stage.exits_mem here followed)

theorem Lingers.advance
    (lingers : Lingers stage exchange)
    (followed : stage.follow? exchange.turn.moves = some last) :
    Lingers last exchange.advance := by
  have later {turn : Turn} (mem : turn ∈ exchange.advance.turns) : turn ∈ exchange.turns :=
    List.mem_of_mem_tail (Exchange.advance_turns ▸ mem)
  cases lingers with
  | stays here never =>
      exact .stays (exchange.ne_gone_of_never never here followed)
        fun turn mem => never turn (later mem)
  | closes calm closes =>
      refine .closes (fun turn mem => calm turn (later mem)) ?_
      rcases closes with isOver | closes
      · exact .inl (Stage.isOver_of_follow? isOver followed)
      · rw [Exchange.ahead_eq] at closes
        exact (List.mem_append.mp closes).imp_left (Stage.isOver_of_closes · followed)

/-- A target that is not in haste lives when the controller looks at it after a read in vain. -/
theorem Lingers.isAlive
    (lingers : Lingers stage exchange)
    (underway : Underway sent last received stage exchange.ahead exchange)
    (vain : exchange.ReadsInVain received) (nonempty : sent ≠ []) :
    exchange.advance.advance.isAlive = true := by
  rcases underway.advance with ⟨middle, followed, once⟩
  rcases once.advance with ⟨next, again, twice⟩
  suffices here : next ≠ .gone by simpa [twice.isAlive] using here
  have advanced := lingers.advance followed
  cases lingers with
  | stays here never =>
      have here := exchange.ne_gone_of_never never here followed
      refine exchange.advance.ne_gone_of_never (fun turn mem => never turn ?_) here again
      exact List.mem_of_mem_tail (Exchange.advance_turns ▸ mem)
  | closes calm =>
      have interrupted : exchange.turn.interrupted = false :=
        exchange.turn_of_forall (·.interrupted = false) rfl fun turn mem => (calm turn mem).1
      have writing : ¬ middle.IsOver := fun isOver => by
        simp [once.interrupted_of_isOver isOver vain nonempty] at interrupted
      cases advanced with
      | stays here never => exact exchange.advance.ne_gone_of_never never here again
      | closes calm closes =>
          rintro rfl
          -- Nothing comes after the exit, so the close falls into the same turn.
          have exits := Stage.exits_mem (fun gone => writing (.inr gone)) again
          have closes := closes.resolve_left writing
          rw [Exchange.ahead_eq, Stage.eq_nil_of_gone twice.course, List.append_nil] at closes
          exact exchange.advance.turn_of_forall
            (fun turn => .exits ∈ turn.moves → .closes ∉ turn.moves) (fun _ => List.not_mem_nil)
            (fun turn mem => (calm turn mem).2) exits closes

/-- A wait for a target that is not in haste does not end because the target has exited. -/
theorem Ends.ne_gone
    (ends : Ends deadline received exchange rounds ending)
    (underway : Underway sent last received stage exchange.ahead exchange)
    (lingers : Lingers stage exchange) (nonempty : sent ≠ []) :
    ending ≠ some (.ok .targetExited) := by
  induction ends generalizing stage with
  | out => simp
  | data taken _ _ induction =>
      rcases underway.advance with ⟨next, followed, advanced⟩
      rcases lingers.advance followed with ⟨here, never⟩ | ⟨calm, closes⟩
      · exact induction (advanced.read taken) (.stays here never)
      · exact induction (advanced.read taken) (.closes calm closes)
  | delivered => simp
  | stopped vain verdict =>
      rintro ⟨rfl⟩
      have gone := Exchange.isAlive_of_verdict verdict
      rw [lingers.isAlive underway vain nonempty] at gone
      cases gone
  | again _ _ _ induction =>
      rcases underway.advance with ⟨middle, followed, once⟩
      rcases once.advance with ⟨next, again, twice⟩
      exact induction twice ((lingers.advance followed).advance again)

end Waiting

/-! ## A run that fetches a dump -/

namespace Exchange

open Controller

variable {configuration : Configuration} {pid : Int32} {exchange : Exchange} {dump : String}

/--
A target hands over a dump that is not empty to a controller that has no limit of time and is not
asked to stop.  After at most as many looks as there are turns and bytes, the run has delivered
this dump or found that the target has exited; it has delivered the dump if the target was in no
haste.
-/
theorem run_arrives_or_gone
    (target : configuration.target = .where pid) (valid : configuration.defect? = none)
    (unlimited : configuration.exposure = none)
    (fresh : exchange.IsFresh) (quiet : exchange.begun.IsQuiet)
    (handsOver : HandsOver dump exchange.begun.ahead) (nonempty : dump ≠ "")
    {rounds : Nat} (enough : exchange.plan.length + (Text.utf8 dump).length < rounds) :
    (((run surroundings configuration rounds).run exchange).1 = some (.ok (.delivered dump)) ∨
        ((run surroundings configuration rounds).run exchange).1 = some (.ok .targetExited)) ∧
      (IsUnhurried exchange.plan →
        ((run surroundings configuration rounds).run exchange).1 =
          some (.ok (.delivered dump))) := by
  rcases handsOver.course with ⟨last, course⟩
  have underway := fresh.underway course
  rw [handsOver.whole] at underway
  have sent : Text.utf8 dump ≠ [] := mt Text.utf8_eq_nil_iff.mp nonempty
  rw [run_fst target valid fresh, unlimited, Option.map_none]
  have ends : Ends none [] exchange.begun rounds
      ((receive surroundings pid.toInt none [] rounds).run exchange.begun).1 :=
    receive_ends [] exchange.begun rounds
  have either := ends.sent_or_gone underway (Stage.isOver_of_closes handsOver.closes course)
    sent quiet enough
  rw [Text.ofUtf8Lenient_utf8] at either
  refine ⟨either, fun unhurried => either.resolve_right (ends.ne_gone underway ?_ sent)⟩
  rcases unhurried with never | calm
  · exact .stays Stage.noConfusion never
  · exact .closes calm (.inr handsOver.closes)

/-- A target that takes its time, for a controller that is interrupted once. -/
def patient : Exchange where
  plan := [{}, { moves := [.opens] }, { moves := [.writes (Text.utf8 "Process 1: ")], further := 3 },
    {}, { moves := [.writes (Text.utf8 "0 threads\n"), .closes] }, {}, { moves := [.exits] }]
  clock := 17
  stands := true
  detaching := .error "gone"

/-- The dump of a patient target arrives. -/
theorem run_arrives_or_gone_patient :
    patient.IsFresh ∧ patient.begun.IsQuiet ∧
      HandsOver "Process 1: 0 threads\n" patient.begun.ahead ∧ IsUnhurried patient.plan ∧
      ((run surroundings { target := .where 7 } 100).run patient).1 =
        some (.ok (.delivered "Process 1: 0 threads\n")) := by
  have fresh : patient.IsFresh := ⟨rfl, rfl, rfl, rfl⟩
  have quiet : patient.begun.IsQuiet := ⟨rfl, by decide⟩
  have handsOver : HandsOver "Process 1: 0 threads\n" patient.begun.ahead :=
    ⟨by decide, by decide, .gone, by decide⟩
  have unhurried : IsUnhurried patient.plan := .inr (by decide)
  exact ⟨fresh, quiet, handsOver, unhurried,
    (run_arrives_or_gone rfl (by decide) rfl fresh quiet handsOver (by decide) (by decide)).2
      unhurried⟩

/-- A target that does everything between a read in vain and the look at it that follows. -/
def rushed (dump : String) : Exchange where
  plan := [{}, { moves := [.opens, .writes (Text.utf8 dump), .closes, .exits] }]

theorem run_rushed
    (target : configuration.target = .where pid) (valid : configuration.defect? = none)
    (rounds : Nat) :
    ((run surroundings configuration (rounds + 1)).run (rushed dump)).1 =
      some (.ok .targetExited) := by
  have vain : (rushed dump).begun.ReadsInVain [] := .inr ⟨rfl, .inr rfl⟩
  have gone (deadline : Option Nanoseconds) :
      (rushed dump).begun.advance.advance.verdict deadline = some .targetExited := rfl
  rw [run_fst target valid ⟨rfl, rfl, rfl, rfl⟩, receive_run_of_readsInVain vain, gone]

/-- Not every dump that is handed over is delivered. -/
theorem not_run_delivers_handed_over :
    ¬ ∀ (configuration : Configuration) (pid : Int32) (exchange : Exchange) (dump : String),
      configuration.target = .where pid → configuration.defect? = none →
      configuration.exposure = none → exchange.IsFresh → exchange.begun.IsQuiet →
      HandsOver dump exchange.begun.ahead → dump ≠ "" →
      ∃ rounds, ((run surroundings configuration rounds).run exchange).1 =
        some (.ok (.delivered dump)) := by
  intro delivers
  let dump := "Process 1: 0 threads\n"
  have handsOver : HandsOver dump (rushed dump).begun.ahead :=
    ⟨by decide, by decide, .gone, by decide⟩
  rcases delivers { target := .where 7 } 7 (rushed dump) dump rfl (by decide) rfl
    ⟨rfl, rfl, rfl, rfl⟩ ⟨rfl, by decide⟩ handsOver (by decide) with ⟨rounds, delivered⟩
  cases rounds with
  | zero =>
      rw [run_fst rfl (by decide) ⟨rfl, rfl, rfl, rfl⟩] at delivered
      cases delivered
  | succ rounds =>
      rw [run_rushed rfl (by decide)] at delivered
      cases delivered

end Exchange

end StackSampler.Attach
