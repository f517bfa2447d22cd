import Mathlib.Data.List.Basic
import StackSampler.Attach.Controller

/-!
# A dump on its way

A target and a controller share a channel.  The target opens it, writes, closes it and exits; the
controller reads it and looks whether the target lives.  Each step of the controller takes a turn:
what the target does right before that step, and how the system answers.  A plan of turns is thus
any interleaving of the two.

The main statements are `receive_ends`, which gives the rules of the controller's wait in terms of
such a plan, and `Ends.delivered_sent`: a dump that is delivered holds all bytes that the target has
sent.
-/

namespace StackSampler.Attach

/-! ## The target -/

/-- A thing that the target does on its side of the channel. -/
inductive TargetMove where
  | opens
  | writes (bytes : List UInt8)
  | closes
  /-- The target exits; the system then closes the channel. -/
  | exits
deriving DecidableEq, Repr

/-- The bytes that a move puts into the channel. -/
def TargetMove.bytes : TargetMove → List UInt8
  | .writes bytes => bytes
  | _ => []

/-- All bytes that moves put into the channel, in order. -/
def writtenBy (moves : List TargetMove) : List UInt8 :=
  moves.flatMap TargetMove.bytes

@[simp]
theorem writtenBy_nil : writtenBy [] = [] := rfl

@[simp]
theorem writtenBy_cons (move : TargetMove) (moves : List TargetMove) :
    writtenBy (move :: moves) = move.bytes ++ writtenBy moves := rfl

@[simp]
theorem writtenBy_append (first second : List TargetMove) :
    writtenBy (first ++ second) = writtenBy first ++ writtenBy second :=
  List.flatMap_append

/-- How far a target has come. -/
inductive Stage where
  | before
  /-- The channel is open for writing. -/
  | writing
  | after
  | gone
deriving DecidableEq, Repr

namespace Stage

/--
The stage after a move, if the move can be made there.  The channel is opened once and written to
only while it is open; nothing comes after the exit.
-/
def next? : Stage → TargetMove → Option Stage
  | .before, .opens => some .writing
  | .writing, .writes _ => some .writing
  | .writing, .closes => some .after
  | .before, .exits | .writing, .exits | .after, .exits => some .gone
  | _, _ => none

/-- The stage after several moves, if they can be made one after another. -/
def follow? (stage : Stage) (moves : List TargetMove) : Option Stage :=
  moves.foldlM next? stage

variable {stage last : Stage} {move : TargetMove} {moves first second : List TargetMove}

@[simp]
theorem follow?_nil : stage.follow? [] = some stage := rfl

theorem follow?_cons :
    stage.follow? (move :: moves) = some last ↔
      ∃ middle, stage.next? move = some middle ∧ middle.follow? moves = some last := by
  simp [follow?, Option.bind_eq_some_iff]

theorem follow?_append :
    stage.follow? (first ++ second) = some last ↔
      ∃ middle, stage.follow? first = some middle ∧ middle.follow? second = some last := by
  simp [follow?, Option.bind_eq_some_iff]

/-- Whether the target has nothing more to do with the channel. -/
def IsOver (stage : Stage) : Prop :=
  stage = .after ∨ stage = .gone

theorem eq_nil_of_gone (followed : gone.follow? moves = some last) : moves = [] := by
  cases moves with
  | nil => rfl
  | cons move rest =>
      rcases follow?_cons.mp followed with ⟨middle, next, -⟩
      simp [next?] at next

theorem writtenBy_of_isOver (isOver : stage.IsOver) (followed : stage.follow? moves = some last) :
    writtenBy moves = [] := by
  cases moves with
  | nil => rfl
  | cons move rest =>
      rcases follow?_cons.mp followed with ⟨middle, next, restFollowed⟩
      rcases isOver with rfl | rfl
      · cases move with
        | exits =>
            cases next
            simp [eq_nil_of_gone restFollowed, TargetMove.bytes]
        | opens | writes | closes => cases next
      · cases next

end Stage

/-! ## The channel -/

/-- What comes before one step of the controller, and how the system answers that step. -/
structure Turn where
  /-- What the target does meanwhile. -/
  moves : List TargetMove := []
  /-- How many bytes a read may take after the first. -/
  further : Nat := 64 * 1024 - 1
  /-- Whether a signal interrupts a read. -/
  interrupted : Bool := false
  /-- How much time goes by. -/
  passes : Nanoseconds := 0
  /-- Whether the controller is asked to stop. -/
  stops : Bool := false

/-- A target, the channel that it writes to, and what a controller sees of both. -/
structure Exchange where
  /-- The turns from when the target is asked for a dump. -/
  plan : List Turn
  /-- The turns that are still to come. -/
  turns : List Turn := []
  /-- Whether something lies at the channel's path. -/
  stands : Bool := false
  /-- What has been written and not yet read. -/
  unread : List UInt8 := []
  /-- Whether the target has the channel open. -/
  isWriting : Bool := false
  isAlive : Bool := true
  clock : Nanoseconds := 0
  stopRequested : Bool := false
  /-- What comes of asking the target to detach. -/
  detaching : Except String Unit := .ok ()

namespace Exchange

/-- The target makes a move. -/
def move (exchange : Exchange) : TargetMove → Exchange
  | .opens => { exchange with isWriting := true }
  | .writes bytes => { exchange with unread := exchange.unread ++ bytes }
  | .closes => { exchange with isWriting := false }
  | .exits => { exchange with isWriting := false, isAlive := false }

/-- The target makes several moves. -/
def proceed (exchange : Exchange) (moves : List TargetMove) : Exchange :=
  moves.foldl move exchange

/-- The turn that comes next; after the last one the target rests. -/
def turn (exchange : Exchange) : Turn :=
  exchange.turns.headD {}

/-- All that comes before the next step of the controller. -/
def advance (exchange : Exchange) : Exchange :=
  { exchange with
    turns := exchange.turns.tail
    clock := exchange.clock + exchange.turn.passes
    stopRequested := exchange.stopRequested || exchange.turn.stops }.proceed exchange.turn.moves

/-- A read of the channel. -/
def read (exchange : Exchange) : ReadAnswer × Exchange :=
  let next := exchange.advance
  if exchange.turn.interrupted then (.interrupted, next)
  else if next.unread.isEmpty then (if next.isWriting then .wouldBlock else .ended, next)
  else
    (.data (next.unread.take (exchange.turn.further + 1)),
      { next with unread := next.unread.drop (exchange.turn.further + 1) })

/-- Something is injected.  When a dump is asked for, the plan begins. -/
def inject (exchange : Exchange) : Bootstrap → Except String Unit × Exchange
  | .where => (.ok (), { exchange with turns := exchange.plan })
  | _ => (exchange.detaching, exchange)

/-- The exchange as the surroundings of a controller. -/
def surroundings : Surroundings Exchange where
  isAlive _ := modifyGet fun exchange => (exchange.advance.isAlive, exchange.advance)
  inject _ bootstrap _ := modifyGet fun exchange => exchange.inject bootstrap
  removeChannel _ := modifyGet fun exchange =>
    (if exchange.stands then .removed else .absent, { exchange with stands := false })
  makeChannel _ := modifyGet fun exchange => (.ok (), { exchange with stands := true })
  permitChannel _ := pure (.ok ())
  openChannel _ := pure (.ok ())
  readChannel _ := modifyGet read
  now := do pure (← get).clock
  stopRequested := do pure (← get).stopRequested
  pause := pure ()
  launch _ _ := pure (.error "")

/-- What a look at the target, at the clock and at the request to stop tells. -/
def verdict (exchange : Exchange) (deadline : Option Nanoseconds) : Option Outcome :=
  if !exchange.isAlive then some .targetExited
  else if deadline.any (· ≤ exchange.clock) then some .exposureElapsed
  else if exchange.stopRequested then some .stopped
  else none

variable {exchange : Exchange} {deadline : Option Nanoseconds} {moves : List TargetMove}

/-! ### Turns -/

/-- The moves that are still to come. -/
def ahead (exchange : Exchange) : List TargetMove :=
  exchange.turns.flatMap Turn.moves

theorem proceed_turns (exchange : Exchange) :
    (exchange.proceed moves).turns = exchange.turns := by
  induction moves generalizing exchange with
  | nil => rfl
  | cons move rest induction =>
      refine (induction (exchange.move move)).trans ?_
      cases move <;> rfl

theorem proceed_stopRequested (exchange : Exchange) :
    (exchange.proceed moves).stopRequested = exchange.stopRequested := by
  induction moves generalizing exchange with
  | nil => rfl
  | cons move rest induction =>
      refine (induction (exchange.move move)).trans ?_
      cases move <;> rfl

@[simp]
theorem advance_turns : exchange.advance.turns = exchange.turns.tail :=
  proceed_turns _

theorem advance_stopRequested :
    exchange.advance.stopRequested = (exchange.stopRequested || exchange.turn.stops) :=
  proceed_stopRequested _

theorem ahead_eq : exchange.ahead = exchange.turn.moves ++ exchange.advance.ahead := by
  rw [ahead, ahead, advance_turns, turn]
  cases exchange.turns <;> rfl

theorem verdict_ne_delivered (text : String) :
    exchange.verdict deadline ≠ some (.delivered text) := by
  rw [verdict]
  split
  · simp
  · split
    · simp
    · split <;> simp

theorem isAlive_of_verdict (gone : exchange.verdict deadline = some .targetExited) :
    exchange.isAlive = false := by
  by_contra alive
  rw [verdict, if_neg (by simpa using alive)] at gone
  split at gone
  · cases gone
  · split at gone <;> cases gone

end Exchange

/-! ## The wait of the controller -/

/-- A read has come to nothing, and does not end the wait. -/
def Exchange.ReadsInVain (exchange : Exchange) (received : List UInt8) : Prop :=
  exchange.turn.interrupted = true ∨
    exchange.advance.unread = [] ∧ (exchange.advance.isWriting = true ∨ received = [])

/--
How a wait for a dump ends, if it has received some bytes and looks so many times.
-/
inductive Ends (deadline : Option Nanoseconds) :
    List UInt8 → Exchange → Nat → Option Controller.Ending → Prop where
  | out (received : List UInt8) (exchange : Exchange) : Ends deadline received exchange 0 none
  | data {received bytes rest : List UInt8} {exchange : Exchange} {rounds : Nat}
      {ending : Option Controller.Ending}
      (taken : bytes ++ rest = exchange.advance.unread) (nonempty : bytes ≠ [])
      (later : Ends deadline (received ++ bytes) { exchange.advance with unread := rest } rounds
        ending) :
      Ends deadline received exchange (rounds + 1) ending
  | delivered {received : List UInt8} {exchange : Exchange} {rounds : Nat}
      (nothing : exchange.advance.unread = []) (closed : exchange.advance.isWriting = false)
      (begun : received ≠ []) :
      Ends deadline received exchange (rounds + 1)
        (some (.ok (.delivered (Text.ofUtf8Lenient received))))
  | stopped {received : List UInt8} {exchange : Exchange} {rounds : Nat} {outcome : Outcome}
      (vain : exchange.ReadsInVain received)
      (verdict : exchange.advance.advance.verdict deadline = some outcome) :
      Ends deadline received exchange (rounds + 1) (some (.ok outcome))
  | again {received : List UInt8} {exchange : Exchange} {rounds : Nat}
      {ending : Option Controller.Ending}
      (vain : exchange.ReadsInVain received)
      (verdict : exchange.advance.advance.verdict deadline = none)
      (later : Ends deadline received exchange.advance.advance rounds ending) :
      Ends deadline received exchange (rounds + 1) ending

section Waiting

open Exchange Controller

variable {deadline : Option Nanoseconds} {pid : Int}

/-- What follows a part of a computation goes on from its answer and the state that it leaves. -/
theorem run_bind_of_run {σ α β : Type} {part : StateM σ α} {next : α → StateM σ β}
    {before after : σ} {answer : α} (ran : part.run before = (answer, after)) :
    (part >>= next).run before = (next answer).run after := by
  rw [StateT.run_bind, ran]
  rfl

theorem poll_run (exchange : Exchange) :
    (poll surroundings pid deadline).run exchange =
      (exchange.advance.verdict deadline, exchange.advance) := by
  have look : (surroundings.isAlive pid).run exchange =
      (exchange.advance.isAlive, exchange.advance) := rfl
  rw [poll, run_bind_of_run look, verdict]
  split
  · rfl
  · have clock : (isOver surroundings deadline).run exchange.advance =
        (deadline.any (· ≤ exchange.advance.clock), exchange.advance) := by
      cases deadline <;> rfl
    rw [run_bind_of_run clock]
    split
    · rfl
    · have stop : surroundings.stopRequested.run exchange.advance =
          (exchange.advance.stopRequested, exchange.advance) := rfl
      rw [run_bind_of_run stop]
      split <;> rfl

/-- What one look at the channel, and one at the target if that came to nothing, lead to. -/
theorem receive_run_succ (received : List UInt8) (exchange : Exchange) (rounds : Nat) :
    (receive surroundings pid deadline received (rounds + 1)).run exchange =
      match exchange.read with
      | (.data bytes, next) =>
          (receive surroundings pid deadline (received ++ bytes) rounds).run next
      | (.failed cause, next) => (some (.error (.resource "where channel" cause)), next)
      | (answer, next) =>
          if isComplete received answer then
            (some (.ok (.delivered (Text.ofUtf8Lenient received))), next)
          else
            match next.advance.verdict deadline with
            | some outcome => (some (.ok outcome), next.advance)
            | none => (receive surroundings pid deadline received rounds).run next.advance := by
  rcases same : exchange.read with ⟨answer, next⟩
  have read : (surroundings.readChannel pid).run exchange = (answer, next) := same
  rw [receive, run_bind_of_run read]
  cases answer with
  | data bytes => rfl
  | failed cause => rfl
  | ended | wouldBlock | interrupted =>
      dsimp only
      split
      · rfl
      · rw [run_bind_of_run (poll_run next)]
        cases next.advance.verdict deadline <;> rfl

theorem receive_run_of_readsInVain
    {received : List UInt8} {exchange : Exchange} (vain : exchange.ReadsInVain received)
    (rounds : Nat) :
    (receive surroundings pid deadline received (rounds + 1)).run exchange =
      match exchange.advance.advance.verdict deadline with
      | some outcome => (some (.ok outcome), exchange.advance.advance)
      | none =>
          (receive surroundings pid deadline received rounds).run exchange.advance.advance := by
  rw [receive_run_succ, Exchange.read]
  by_cases interrupted : exchange.turn.interrupted
  · simp [interrupted, isComplete]
  · rcases vain.resolve_left interrupted with ⟨nothing, open_ | untouched⟩
    · simp [interrupted, nothing, open_, isComplete]
    · cases exchange.advance.isWriting <;> simp [interrupted, nothing, untouched, isComplete]

theorem receive_ends (received : List UInt8) (exchange : Exchange) (rounds : Nat) :
    Ends deadline received exchange rounds
      ((receive surroundings pid deadline received rounds).run exchange).1 := by
  induction rounds generalizing received exchange with
  | zero => exact .out received exchange
  | succ rounds induction =>
      by_cases vain : exchange.ReadsInVain received
      · rw [receive_run_of_readsInVain vain]
        cases verdict : exchange.advance.advance.verdict deadline with
        | some outcome => exact .stopped vain verdict
        | none => exact .again vain verdict (induction received exchange.advance.advance)
      · rcases not_or.mp vain with ⟨interrupted, useful⟩
        rw [receive_run_succ, Exchange.read, if_neg interrupted]
        by_cases nothing : exchange.advance.unread = []
        · rcases not_or.mp (not_and.mp useful nothing) with ⟨closed, begun⟩
          simpa [nothing, closed, begun, isComplete] using
            Ends.delivered nothing (Bool.eq_false_iff.mpr closed) begun
        · have taken := List.take_append_drop (exchange.turn.further + 1) exchange.advance.unread
          have nonempty : exchange.advance.unread.take (exchange.turn.further + 1) ≠ [] := by
            rw [Ne, List.take_eq_nil_iff]
            exact not_or.mpr ⟨Nat.succ_ne_zero _, nothing⟩
          simpa [nothing] using Ends.data taken nonempty (induction _ _)

end Waiting

/-! ## A run that fetches a dump -/

namespace Exchange

open Controller

theorem advance_of_rest {exchange : Exchange} (rest : exchange.turns = []) :
    exchange.advance = exchange := by
  cases exchange
  cases rest
  simp [advance, turn, proceed]

/-- The target lives and has done nothing with the channel, and nobody has asked it yet. -/
structure IsFresh (exchange : Exchange) : Prop where
  rest : exchange.turns = []
  unread : exchange.unread = []
  isWriting : exchange.isWriting = false
  isAlive : exchange.isAlive = true

/-- The exchange right after the target was asked for a dump. -/
def begun (exchange : Exchange) : Exchange :=
  { exchange with stands := true, turns := exchange.plan }

variable {configuration : Configuration} {pid : Int32} {exchange : Exchange}

theorem createChannel_run :
    (createChannel surroundings pid.toInt).run exchange =
      (.ok (), { exchange with stands := true }) := by
  rcases exchange with ⟨plan, turns, stands, unread, isWriting, isAlive, clock, stop, detaching⟩
  cases stands <;> rfl

theorem fetch_run_fst (exchange : Exchange) (rounds : Nat) :
    ((fetch surroundings configuration rounds pid.toInt).run exchange).1 =
      ((receive surroundings pid.toInt
        (configuration.exposure.map fun seconds => exchange.clock + seconds.toNat * 1000000000)
        [] rounds).run { exchange with turns := exchange.plan }).1 := by
  have asked : (Controller.inject surroundings configuration pid.toInt .where).run exchange =
      (.ok (), { exchange with turns := exchange.plan }) := rfl
  have timed (e : Exchange) : (deadline surroundings configuration).run e =
      (configuration.exposure.map fun seconds => e.clock + seconds.toNat * 1000000000, e) := rfl
  rw [fetch, run_bind_of_run asked]
  dsimp only
  rw [run_bind_of_run (timed _)]
  generalize configuration.exposure.map _ = deadline
  rcases received : (receive surroundings pid.toInt deadline [] rounds).run
    { exchange with turns := exchange.plan } with ⟨ending, after⟩
  rw [run_bind_of_run received]
  rcases ending with _ | _ | outcome <;> rfl

/-- A run that fetches a dump from a target that lives ends as its wait does. -/
theorem run_fst (target : configuration.target = .where pid) (valid : configuration.defect? = none)
    (fresh : exchange.IsFresh) (rounds : Nat) :
    ((run surroundings configuration rounds).run exchange).1 =
      ((receive surroundings pid.toInt
        (configuration.exposure.map fun seconds => exchange.clock + seconds.toNat * 1000000000)
        [] rounds).run exchange.begun).1 := by
  have looked : (surroundings.isAlive pid.toInt).run exchange = (true, exchange) := by
    refine Prod.ext ?_ ?_
    · exact (congrArg Exchange.isAlive (advance_of_rest fresh.rest)).trans fresh.isAlive
    · exact advance_of_rest fresh.rest
  rw [run, valid, target]
  dsimp only
  rw [dump, run_bind_of_run looked, if_neg (by decide), run_bind_of_run createChannel_run]
  dsimp only
  exact fetch_run_fst { exchange with stands := true } rounds

end Exchange

/-! ## What has been received, what can be read, what is to come -/

/--
A target that sends some bytes as a whole, and is at the last stage after all its moves, has come to
a stage; the bytes are those received, those that can be read, and those that its moves ahead write.
-/
structure Underway (sent : List UInt8) (last : Stage) (received : List UInt8) (stage : Stage)
    (ahead : List TargetMove) (exchange : Exchange) : Prop where
  isWriting : exchange.isWriting = decide (stage = .writing)
  isAlive : exchange.isAlive = decide (stage ≠ .gone)
  whole : received ++ exchange.unread ++ writtenBy ahead = sent
  untouched : stage = .before → received ++ exchange.unread = []
  course : stage.follow? ahead = some last

namespace Underway

variable {sent received : List UInt8} {last stage : Stage} {ahead : List TargetMove}
  {exchange : Exchange} {deadline : Option Nanoseconds}

theorem move {move : TargetMove} (underway : Underway sent last received stage (move :: ahead) exchange) :
    ∃ next, stage.next? move = some next ∧
      Underway sent last received next ahead (exchange.move move) := by
  rcases underway with ⟨isWriting, isAlive, whole, untouched, course⟩
  rcases Stage.follow?_cons.mp course with ⟨next, made, course⟩
  refine ⟨next, made, ?_⟩
  cases stage <;> cases move <;> cases made
  all_goals
    refine ⟨?_, ?_, ?_, ?_, course⟩ <;>
      simp_all [Exchange.move, TargetMove.bytes]

theorem proceed {moves : List TargetMove}
    (underway : Underway sent last received stage (moves ++ ahead) exchange) :
    ∃ next, stage.follow? moves = some next ∧
      Underway sent last received next ahead (exchange.proceed moves) := by
  induction moves generalizing stage exchange with
  | nil => exact ⟨stage, rfl, underway⟩
  | cons move rest induction =>
      rcases underway.move with ⟨middle, made, moved⟩
      rcases induction moved with ⟨next, followed, proceeded⟩
      exact ⟨next, Stage.follow?_cons.mpr ⟨middle, made, followed⟩, proceeded⟩

theorem advance (underway : Underway sent last received stage exchange.ahead exchange) :
    ∃ next, stage.follow? exchange.turn.moves = some next ∧
      Underway sent last received next exchange.advance.ahead exchange.advance := by
  rw [Exchange.ahead_eq] at underway
  have started : Underway sent last received stage
      (exchange.turn.moves ++ exchange.advance.ahead)
      { exchange with
        turns := exchange.turns.tail
        clock := exchange.clock + exchange.turn.passes
        stopRequested := exchange.stopRequested || exchange.turn.stops } :=
    ⟨underway.isWriting, underway.isAlive, underway.whole, underway.untouched, underway.course⟩
  exact started.proceed

/-- Bytes that are read go from what can be read to what has been received. -/
theorem read {bytes rest : List UInt8}
    (underway : Underway sent last received stage ahead exchange)
    (taken : bytes ++ rest = exchange.unread) :
    Underway sent last (received ++ bytes) stage ahead { exchange with unread := rest } where
  isWriting := underway.isWriting
  isAlive := underway.isAlive
  whole := by rw [← underway.whole, ← taken, List.append_assoc received]
  untouched := by simpa only [List.append_assoc, taken] using underway.untouched
  course := underway.course

theorem received_length_le (underway : Underway sent last received stage ahead exchange) :
    received.length ≤ sent.length := by
  rw [← underway.whole, List.append_assoc, List.length_append]
  exact Nat.le_add_right _ _

/-- A target that has written, and does not have the channel open, has written everything. -/
theorem received_of_closed
    (underway : Underway sent last received stage ahead exchange)
    (nothing : exchange.unread = []) (closed : exchange.isWriting = false)
    (begun : received ≠ []) : received = sent := by
  have isOver : stage.IsOver := by
    cases stage with
    | before => exact absurd (by simpa [nothing] using underway.untouched rfl) begun
    | writing => simp [underway.isWriting] at closed
    | after => exact .inl rfl
    | gone => exact .inr rfl
  have rest := Stage.writtenBy_of_isOver isOver underway.course
  simpa [nothing, rest] using underway.whole

end Underway

theorem Exchange.IsFresh.underway
    {exchange : Exchange} (fresh : exchange.IsFresh) {last : Stage}
    (course : Stage.before.follow? exchange.begun.ahead = some last) :
    Underway (writtenBy exchange.begun.ahead) last [] .before exchange.begun.ahead
      exchange.begun where
  isWriting := fresh.isWriting
  isAlive := fresh.isAlive
  whole := by rw [begun, fresh.unread]; rfl
  untouched := fun _ => fresh.unread
  course := course

/-- A dump that is delivered holds all that the target has sent, which is not nothing. -/
theorem Ends.delivered_sent
    {deadline : Option Nanoseconds} {sent received : List UInt8} {last stage : Stage}
    {exchange : Exchange} {rounds : Nat} {ending : Option Controller.Ending} {text : String}
    (ends : Ends deadline received exchange rounds ending)
    (underway : Underway sent last received stage exchange.ahead exchange)
    (delivered : ending = some (.ok (.delivered text))) :
    text = Text.ofUtf8Lenient sent ∧ sent ≠ [] := by
  induction ends generalizing stage with
  | out => cases delivered
  | data taken _ _ induction =>
      rcases underway.advance with ⟨next, -, advanced⟩
      exact induction (advanced.read taken) delivered
  | delivered nothing closed begun =>
      rcases underway.advance with ⟨next, -, advanced⟩
      have everything := advanced.received_of_closed nothing closed begun
      cases delivered
      exact ⟨by rw [everything], everything ▸ begun⟩
  | stopped _ verdict =>
      cases delivered
      exact absurd verdict (Exchange.verdict_ne_delivered text)
  | again _ _ _ induction =>
      rcases underway.advance with ⟨middle, -, once⟩
      rcases once.advance with ⟨next, -, twice⟩
      exact induction twice delivered

end StackSampler.Attach
