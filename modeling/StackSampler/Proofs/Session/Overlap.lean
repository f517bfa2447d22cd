import Mathlib.Data.List.Induction
import StackSampler.Proofs.Session.Calls
import StackSampler.Proofs.Session.Streams

/-!
# Sessions that overlap

Several threads of a host start, stop and report at the same time.  A start and a report are one
step each.  Who stops the session takes it out of the slot in one step and ends it in two more, and
all others may go on in between; the session goes on too until it is halted.

The slot holds one session at most, but a session that was taken out of it may still capture, or
have its stream open, when the next one starts.  The main statement is `at_most_one_active_iff`: in
just those interleavings in which no start comes so early there is at most one active session at
every instant.
-/

namespace StackSampler

variable {σ : Type}

/-! ## Sessions in the slot run -/

namespace Session

variable {host : Host σ} {session : Session}

theorem startDump_isRunning (context : StartContext) :
    Always (startDump host session context) fun started => started.isRunning = true :=
  (always_any _).bind fun _ _ => (always_any _).bind fun _ _ => always_pure rfl

theorem startStream_isRunning (context : StartContext) (output : Stream.Output) :
    Always (startStream host session context output) fun started => started.isRunning = true := by
  rw [startStream]
  split
  · exact (always_any _).bind fun _ _ => always_pure rfl
  · exact (always_any _).bind fun _ _ => always_pure rfl

/-- A session runs once it has been started. -/
theorem start_isRunning (context : StartContext) :
    Always (session.start host context) fun started =>
      started.1 = .ok () → started.2.isRunning = true := by
  rw [start]
  split
  · exact always_pure (by simp)
  · split
    · split
      · exact always_pure (by simp)
      · exact (startDump_isRunning context).bind fun _ running => always_pure fun _ => running
    · split
      · exact always_pure (by simp)
      · exact (startStream_isRunning context _).bind fun _ running => always_pure fun _ => running

theorem isRunning_of_writer? {writer : Stream.Writer} (open_ : session.writer? = some writer) :
    session.isRunning = true := by
  rw [isRunning]
  cases activity : session.activity with
  | none => simp [writer?, activity] at open_
  | some activity => rfl

theorem isRunning_progress (session : Session) (channel : Channel) :
    (session.progress channel).1.isRunning = session.isRunning := by
  rw [progress]
  split
  · simp [isRunning, *]
  · rfl

theorem isRunning_readChannel (session : Session) (channel : Channel) :
    (session.readChannel channel).2.1.isRunning = session.isRunning := by
  rw [readChannel]
  split
  · simp [isRunning, *]
  · rfl

theorem cycle_isRunning (now : Nanoseconds) (dumpRequested : Bool) :
    Always (session.cycle host now dumpRequested) fun cycle =>
      cycle.session.isRunning = session.isRunning := by
  rw [cycle]
  split
  · rename_i sampling
    have running : session.isRunning = true := congrArg Option.isSome sampling
    refine (always_any _).bind fun _ _ => ?_
    split
    · exact always_pure running.symm
    · refine (always_any _).bind fun _ _ => ?_
      cases dumpRequested with
      | true => exact (always_any _).bind fun _ _ => always_pure running.symm
      | false => exact always_pure running.symm
  · exact always_pure rfl

theorem receive_isRunning (now : Nanoseconds) (notification : Notification) :
    Always (session.receive host now notification) fun after =>
      after.isRunning = session.isRunning := by
  rw [receive]
  split
  · rename_i tracking
    have running : session.isRunning = true := congrArg Option.isSome tracking
    exact (always_any _).bind fun _ _ => always_pure running.symm
  · exact always_pure rfl

end Session

theorem Occupant.isRunning_goOn (occupant : Occupant σ) (subject : σ) (change : Meanwhile) :
    (occupant.goOn subject change).session.isRunning = occupant.session.isRunning := by
  cases change with
  | cycled now dumpRequested => exact Session.cycle_isRunning now dumpRequested subject
  | progressed => exact Session.isRunning_progress ..
  | channelRead => exact Session.isRunning_readChannel ..

/-! ## Interleavings -/

/-- One step of a thread of the host, or of a session. -/
inductive SlotMove where
  | started (context : StartContext) (request : StartRequest)
  | notified (now : Nanoseconds) (notification : Notification)
  /-- A thread that stops the session takes it out of the slot. -/
  | taken
  /-- The thread that took out the session at `index` ends it by one more step. -/
  | advanced (index : Nat)
  | meanwhile (change : Meanwhile)
  /-- The session goes on that was taken out and stands at `index`. -/
  | lingered (index : Nat) (change : Meanwhile)

/-- What becomes of a session that was taken out, which captures until it is halted. -/
def Departure.goOn (departure : Departure σ) (subject : σ) (change : Meanwhile) : Departure σ :=
  match departure with
  | .taken occupant => .taken (occupant.goOn subject change)
  | .halted session => .halted session

namespace Departure

variable {departure later : Departure σ}

theorem isActive_goOn (departure : Departure σ) (subject : σ) (change : Meanwhile) :
    (departure.goOn subject change).isActive = departure.isActive := by
  cases departure with
  | taken occupant => exact occupant.isRunning_goOn subject change
  | halted => rfl

/-- Ending a session makes it no more active than it was. -/
theorem isActive_of_next (next : departure.next = .inl later) (active : later.isActive = true) :
    departure.isActive = true := by
  cases departure with
  | halted => cases next
  | taken occupant =>
      cases next
      rw [isActive, Session.halt] at active
      split at active
      · cases active
      · rcases Option.isSome_iff_exists.mp active with ⟨writer, open_⟩
        exact Session.isRunning_of_writer? open_

end Departure

namespace SessionSlot

/-- The slot after one more step, which finds the sampled program in some state. -/
def move (machine : Machine σ) (slot : SessionSlot σ) : σ × SlotMove → SessionSlot σ
  | (subject, .started context request) => ((slot.start machine context request).run subject).1.2
  | (subject, .notified now notification) => ((slot.notify now notification).run subject).1.2
  | (_, .taken) => slot.take
  | (_, .advanced index) => slot.advance index
  | (subject, .meanwhile change) =>
      { slot with occupant := slot.occupant.map (·.goOn subject change) }
  | (subject, .lingered index change) =>
      match slot.departures[index]? with
      | none => slot
      | some departure =>
          { slot with departures := slot.departures.set index (departure.goOn subject change) }

/-- The slot after several steps. -/
def after (machine : Machine σ) (moves : List (σ × SlotMove)) : SessionSlot σ :=
  moves.foldl (move machine) empty

variable {machine : Machine σ} {slot : SessionSlot σ}

/-! ## Counting active sessions -/

/-- A start that succeeds finds an empty slot, and puts a session there that runs. -/
theorem start_cases (machine : Machine σ) (slot : SessionSlot σ) (context : StartContext)
    (request : StartRequest) (subject : σ) :
    (∃ error, ((slot.start machine context request).run subject).1 = (.error error, slot)) ∨
      slot.occupant = none ∧ ∃ occupant, occupant.session.isRunning = true ∧
        ((slot.start machine context request).run subject).1 =
          (.ok (), { slot with occupant := some occupant }) := by
  cases here : slot.occupant with
  | some occupant =>
      rcases start_of_full machine context request here subject with ⟨error, started⟩
      exact .inl ⟨error, by rw [started]⟩
  | none =>
      rcases start_of_empty machine context request here subject with
        ⟨result, world, commences, started⟩
      rw [started]
      cases commences with
      | unreadable | invalid | prevented => exact .inl ⟨_, rfl⟩
      | begins _ _ begun =>
          refine .inr ⟨rfl, _, ?_, rfl⟩
          have running := Session.start_isRunning _ subject (congrArg (·.1.1) begun)
          rw [begun] at running
          exact (Session.isRunning_progress ..).trans running

theorem countP_set_le {α : Type} {keep : α → Bool} {items : List α} {index : Nat} {old new : α}
    (here : items[index]? = some old) (keeps : keep new = true → keep old = true) :
    (items.set index new).countP keep ≤ items.countP keep := by
  rcases List.getElem?_eq_some_iff.mp here with ⟨inside, rfl⟩
  have counted := List.boole_getElem_le_countP (p := keep) inside
  rw [List.countP_set inside]
  cases kept : keep new with
  | false => simp
  | true =>
      rw [keeps kept] at counted ⊢
      simp only [if_true] at counted ⊢
      omega

theorem activeCount_take_le (slot : SessionSlot σ) : slot.take.activeCount ≤ slot.activeCount := by
  rw [take]
  cases here : slot.occupant with
  | none => exact Nat.le_refl _
  | some occupant =>
      simp only [activeCount, here, List.countP_cons, Option.toList_some, Option.toList_none,
        List.length_cons, List.length_nil]
      split <;> omega

theorem activeCount_advance_le (slot : SessionSlot σ) (index : Nat) :
    (slot.advance index).activeCount ≤ slot.activeCount := by
  rw [advance]
  split
  · exact Nat.le_refl _
  · rename_i departure here
    cases next : departure.next with
    | inl later =>
        exact Nat.add_le_add_left (countP_set_le here (Departure.isActive_of_next next)) _
    | inr stopped =>
        exact Nat.add_le_add_left (List.eraseIdx_sublist slot.departures index).countP_le _

/-- Only a start makes more sessions active. -/
theorem activeCount_move_le (machine : Machine σ) (slot : SessionSlot σ) (subject : σ)
    {next : SlotMove} (noStart : ∀ context request, next ≠ .started context request) :
    (slot.move machine (subject, next)).activeCount ≤ slot.activeCount := by
  cases next with
  | started context request => exact absurd rfl (noStart context request)
  | taken => exact activeCount_take_le slot
  | advanced index => exact activeCount_advance_le slot index
  | notified now notification =>
      rw [move, notify]
      cases here : slot.occupant with
      | none => exact Nat.le_refl _
      | some occupant => exact Nat.add_le_add_right (by rw [here]; exact Nat.le_refl _) _
  | meanwhile change =>
      refine Nat.le_of_eq ?_
      rw [move, activeCount, activeCount, Option.toList_map, List.length_map]
  | lingered index change =>
      rw [move]
      split
      · exact Nat.le_refl _
      · rename_i departure here
        refine Nat.add_le_add_left (countP_set_le here ?_) _
        exact (departure.isActive_goOn subject change).symm.trans

/-- A start that succeeds while a session that was taken out is still active. -/
def StartsEarly (machine : Machine σ) (slot : SessionSlot σ) : σ × SlotMove → Prop
  | (subject, .started context request) =>
      (∃ departure ∈ slot.departures, departure.isActive = true) ∧
        ((slot.start machine context request).run subject).1.1 = .ok ()
  | _ => False

/-- In an interleaving some start succeeds while a session that was taken out is still active. -/
def Overlaps (machine : Machine σ) (moves : List (σ × SlotMove)) : Prop :=
  ∃ earlier moment later, moves = earlier ++ moment :: later ∧
    StartsEarly machine (after machine earlier) moment

theorem after_append (machine : Machine σ) (moves : List (σ × SlotMove)) (moment : σ × SlotMove) :
    after machine (moves ++ [moment]) = (after machine moves).move machine moment :=
  List.foldl_append

theorem activeCount_move_le_one {moment : σ × SlotMove} (one : slot.activeCount ≤ 1)
    (calm : ¬ StartsEarly machine slot moment) : (slot.move machine moment).activeCount ≤ 1 := by
  rcases moment with ⟨subject, next⟩
  cases next with
  | started context request =>
      rw [move]
      rcases start_cases machine slot context request subject with
        ⟨error, failed⟩ | ⟨-, occupant, -, started⟩
      · rw [failed]
        exact one
      · rw [started]
        -- The session that has started is the only active one.
        have ended : slot.departures.countP Departure.isActive = 0 := by
          rw [List.countP_eq_zero]
          exact fun departure mem active => calm ⟨⟨departure, mem, active⟩, by rw [started]⟩
        exact Nat.le_of_eq (congrArg (1 + ·) ended)
  | notified | taken | advanced | meanwhile | lingered =>
      exact Nat.le_trans (activeCount_move_le machine slot subject (by simp)) one

theorem one_lt_activeCount_of_startsEarly {moment : σ × SlotMove}
    (early : StartsEarly machine slot moment) : 1 < (slot.move machine moment).activeCount := by
  rcases moment with ⟨subject, next⟩
  cases next with
  | notified | taken | advanced | meanwhile | lingered => exact early.elim
  | started context request =>
      rcases early with ⟨⟨departure, mem, active⟩, succeeded⟩
      rw [move]
      rcases start_cases machine slot context request subject with
        ⟨error, failed⟩ | ⟨-, occupant, -, started⟩
      · rw [failed] at succeeded
        cases succeeded
      · rw [started]
        exact Nat.add_lt_add_left (List.countP_pos_iff.mpr ⟨departure, mem, active⟩) 1

theorem activeCount_after_le_one {moves : List (σ × SlotMove)} (calm : ¬ Overlaps machine moves) :
    (after machine moves).activeCount ≤ 1 := by
  induction moves using List.reverseRecOn with
  | nil => exact Nat.zero_le 1
  | append_singleton moves moment induction =>
      rw [after_append]
      refine activeCount_move_le_one (induction ?_) ?_
      · rintro ⟨earlier, early, later, rfl, starts⟩
        exact calm ⟨earlier, early, later ++ [moment], by simp, starts⟩
      · exact fun starts => calm ⟨moves, moment, [], rfl, starts⟩

/-- A session in the slot runs. -/
def HoldsRunning (slot : SessionSlot σ) : Prop :=
  ∀ occupant ∈ slot.occupant, occupant.session.isRunning = true

theorem holdsRunning_of_some {occupant : Occupant σ} {departures : List (Departure σ)}
    (running : occupant.session.isRunning = true) :
    HoldsRunning ⟨some occupant, departures⟩ := by
  rintro _ ⟨rfl⟩
  exact running

theorem holdsRunning_of_none {departures : List (Departure σ)} :
    HoldsRunning (⟨none, departures⟩ : SessionSlot σ) :=
  fun occupant here => absurd here (Option.not_mem_none occupant)

theorem advance_occupant (slot : SessionSlot σ) (index : Nat) :
    (slot.advance index).occupant = slot.occupant := by
  rw [advance]
  split
  · rfl
  · split <;> rfl

theorem HoldsRunning.move (running : slot.HoldsRunning) (machine : Machine σ)
    (moment : σ × SlotMove) : (slot.move machine moment).HoldsRunning := by
  rcases moment with ⟨subject, next⟩
  cases next with
  | started context request =>
      rw [SessionSlot.move]
      rcases start_cases machine slot context request subject with
        ⟨error, failed⟩ | ⟨-, occupant, runs, started⟩
      · rw [failed]
        exact running
      · rw [started]
        exact holdsRunning_of_some runs
  | notified now notification =>
      rw [SessionSlot.move, notify]
      cases here : slot.occupant with
      | none => exact running
      | some occupant =>
          have kept :
              ((occupant.session.receive occupant.host now notification).run subject).1.isRunning =
                occupant.session.isRunning :=
            Session.receive_isRunning now notification subject
          exact holdsRunning_of_some (kept.trans (running occupant here))
  | taken =>
      rw [SessionSlot.move, take]
      split
      · exact running
      · exact holdsRunning_of_none
  | advanced index =>
      intro occupant here
      exact running occupant (advance_occupant slot index ▸ here)
  | meanwhile change =>
      intro occupant here
      rcases Option.map_eq_some_iff.mp here with ⟨before, there, rfl⟩
      exact (before.isRunning_goOn subject change).trans (running before there)
  | lingered index change =>
      rw [SessionSlot.move]
      split <;> exact running

theorem holdsRunning_after (machine : Machine σ) (moves : List (σ × SlotMove)) :
    (after machine moves).HoldsRunning := by
  induction moves using List.reverseRecOn with
  | nil => exact holdsRunning_of_none
  | append_singleton moves moment induction =>
      rw [after_append]
      exact induction.move machine moment

/--
A session in the slot runs.  There is at most one active session at every instant of an interleaving
exactly if none of its starts succeeds while a session that was taken out is still active.
-/
theorem at_most_one_active_iff (machine : Machine σ) (moves : List (σ × SlotMove)) :
    (after machine moves).HoldsRunning ∧
      ((∀ earlier later, moves = earlier ++ later → (after machine earlier).activeCount ≤ 1) ↔
        ¬ Overlaps machine moves) := by
  refine ⟨holdsRunning_after machine moves, ?_, ?_⟩
  · rintro one ⟨earlier, moment, later, rfl, early⟩
    have two := one_lt_activeCount_of_startsEarly early
    rw [← after_append] at two
    exact absurd (one (earlier ++ [moment]) later (by simp)) (Nat.not_le.mpr two)
  · rintro calm earlier later rfl
    refine activeCount_after_le_one fun ⟨first, moment, rest, same, early⟩ => calm ?_
    exact ⟨first, moment, rest ++ later, by simp [same], early⟩

/-- A session that starts when another has just been taken out of the slot is the second one. -/
theorem one_lt_activeCount_of_restart (machine : Machine σ) (context : StartContext)
    (request : StartRequest) (subject : σ)
    (succeeds : ∀ slot : SessionSlot σ, slot.occupant = none →
      ((slot.start machine context request).run subject).1.1 = .ok ()) :
    1 < (after machine
      [(subject, .started context request), (subject, .taken),
        (subject, .started context request)]).activeCount := by
  rcases start_cases machine empty context request subject with
    ⟨error, failed⟩ | ⟨-, occupant, runs, started⟩
  · have first := succeeds empty rfl
    rw [failed] at first
    cases first
  · have left : after machine [(subject, .started context request), (subject, .taken)] =
        ⟨none, [.taken occupant]⟩ := by
      rw [after, List.foldl_cons, List.foldl_cons, List.foldl_nil, move, move, started]
      rfl
    have early :
        StartsEarly machine ⟨none, [.taken occupant]⟩ (subject, .started context request) :=
      ⟨⟨.taken occupant, List.mem_singleton_self _, runs⟩, succeeds _ rfl⟩
    have two := one_lt_activeCount_of_startsEarly early
    rw [← left, ← after_append] at two
    exact two

/-- A program whose memory cannot be read. -/
def sealedMachine : Machine Unit where
  reader := ⟨fun address count => throw ⟨address, count, ReadFault.badAddress⟩, fun _ => pure ()⟩
  host interpreter :=
    { interpreter
      cpuClock := fun _ => pure none
      nativeStack := fun _ => pure .silent
      symbol? := fun _ => none }

/-- A start without settings. -/
def plainRequest : StartRequest where
  interpreter := 0
  layout :=
    "[[3,11],[8],[0,8,16],[0,8,[\"index\",16,2]],[0,8,16,24,32],[0,8],[0,8],[0,8,16,0],[16,true]]"
  settings := none
  environment _ := none
  complaint _ text := text
  channel := .missing

theorem read_plainRequest : ∃ layout, plainRequest.read = .ok ({}, layout) := by
  have configured : plainRequest.configuration = .ok {} := by decide +kernel
  have given : plainRequest.layoutOf.isOk = true := by decide +kernel
  rw [StartRequest.read, configured]
  cases known : plainRequest.layoutOf with
  | error => rw [known] at given; cases given
  | ok layout => exact ⟨layout, rfl⟩

/-- On an empty slot a start without settings succeeds, if all can be set up that it takes. -/
theorem start_plainRequest {machine : Machine σ} {slot : SessionSlot σ}
    (empty : slot.occupant = none) (subject : σ) :
    ((slot.start machine Session.History.anyStart plainRequest).run subject).1.1 = .ok () := by
  rcases read_plainRequest with ⟨layout, asked⟩
  rcases start_of_empty machine Session.History.anyStart plainRequest empty subject with
    ⟨result, world, commences, started⟩
  rw [started]
  cases commences with
  | unreadable unread => rw [asked] at unread; cases unread
  | invalid read invalid =>
      rw [asked] at read
      cases read
      cases invalid
  | prevented read _ failed =>
      rw [asked] at read
      cases read
      cases congrArg (·.1.1) failed
  | begins => rfl

/-- Two sessions of one program can be active at once. -/
theorem not_at_most_one_active :
    ¬ ∀ (machine : Machine Unit) (moves : List (Unit × SlotMove)),
      (after machine moves).activeCount ≤ 1 := by
  intro one
  have two := one_lt_activeCount_of_restart sealedMachine Session.History.anyStart plainRequest ()
    fun slot vacant => start_plainRequest vacant ()
  exact absurd (one _ _) (Nat.not_le.mpr two)

end SessionSlot

end StackSampler
