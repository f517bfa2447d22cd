import StackSampler.Proofs.Subject.Glimpses

/-!
# Heads of chains in memory that changes

The head of a thread's chain takes several reads: the list of threads is followed to the structure
of the thread, its seat, and there the innermost frame is read and, in a build without a counter,
the instruction of that frame.

Threads come and go while the list is followed.  `Timeline.Keeps` says that a thread keeps its seat
meanwhile and that nothing on the way passes for it, and then the seat is the one that is found.
-/

namespace StackSampler

/-! ## Questions of a walk take no read back -/

section

variable (timeline : Timeline) (layout : Layout) (origin : Address)

theorem counts_field {α : Type} {read : Address → ReadQuery Nat α}
    (counts : ∀ address, Counts (read address)) (base : Address) (field : Offset) :
    Counts (Structures.field read base field) := by
  by_cases fits : (WordOperation.place base field).Fits
  · rw [Structures.field_of_fits fits]
    exact (counts (base + field)).adapt Halt.failed
  · rw [Structures.field_of_not_fits fits]
    exact counts_throw _

theorem counts_bytes (count : Nat) (address : Address) :
    Counts (timeline.reader.bytes count address) := by
  unfold MemoryReader.bytes
  split
  · exact counts_throw _
  · split
    · exact counts_pure _
    · exact (glimpse_read timeline address count).counts

theorem counts_objectData (object : Address) (data : Layout.VarObject) :
    Counts ((timeline.structures layout origin).objectData object data) := by
  refine (glimpse_word timeline object data.length).counts.bind fun length => ?_
  split
  · exact counts_throw _
  · exact counts_field (counts_bytes timeline _) object data.data

theorem counts_text (object : Address) :
    Counts ((timeline.structures layout origin).text object) :=
  (counts_objectData timeline layout origin object layout.string).bind fun _ => counts_pure _

theorem counts_textField (object : Address) (field : Offset) :
    Counts ((timeline.structures layout origin).textField object field) :=
  (glimpse_word timeline object field).counts.bind fun _ => counts_text timeline layout origin _

theorem counts_pointer? (object : Address) (field : Option Offset) :
    Counts ((timeline.structures layout origin).pointer? object field) := by
  cases field with
  | some field => exact (glimpse_word timeline object field).counts.bind fun _ => counts_pure _
  | none => exact counts_pure none

theorem counts_text? (object : Address) (field : Option Offset) :
    Counts ((timeline.structures layout origin).text? object field) := by
  refine (counts_pointer? timeline layout origin object field).bind fun target => ?_
  cases target with
  | some target => exact (counts_text timeline layout origin target).map some
  | none => exact counts_pure none

theorem counts_code (place : Address) :
    Counts ((timeline.structures layout origin).code place) :=
  (counts_text? timeline layout origin place layout.code.qualname).bind fun _ =>
    (glimpse_word timeline place layout.code.lineTable).counts.bind fun table =>
      (counts_textField timeline layout origin place layout.code.name).bind fun _ =>
        (counts_textField timeline layout origin place layout.code.filename).bind fun _ =>
          (glimpse_int32 timeline place layout.code.firstLine).counts.bind fun _ =>
            (counts_objectData timeline layout origin table layout.bytes).bind fun _ =>
              counts_pure _

theorem counts_frame (place : Address) :
    Counts ((timeline.structures layout origin).frame place) := by
  rw [Structures.frame_eq]
  refine (glimpse_word timeline place layout.frame.previous).counts.bind fun previous => ?_
  refine (glimpse_word timeline place layout.frame.code).counts.bind fun code => ?_
  refine (glimpse_instructionOffset timeline layout origin place code).counts.bind fun offset => ?_
  refine (glimpse_entryMark timeline layout origin place).counts.bind fun isEntry => ?_
  exact (glimpse_shimMark timeline layout origin place).counts.bind fun isShim => counts_pure _

theorem counts_generation (seat frame : Address) :
    Counts ((timeline.structures layout origin).generation seat frame) := by
  unfold Structures.generation Timeline.structures
  dsimp only
  cases layout.thread.generation with
  | some field => exact (glimpse_word timeline seat field).counts
  | none =>
      dsimp only
      split
      · exact counts_pure 0
      · exact (glimpse_rawInstruction timeline layout origin frame).counts.bind fun _ =>
          counts_pure _

end

/-! ## Seats -/

namespace Structures

variable {σ : Type} (structures : Structures σ) (id : ThreadId)

/-- The first structure of a thread of an identity, of which at most so many are looked at. -/
def findSeat : Nat → Address → Query σ ReadFault (Option Address)
  | 0, _ => pure none
  | room + 1, current =>
      if current = 0 then pure none
      else do
        let found ← field structures.memory.word current structures.layout.thread.threadId
        if found = id then pure (some current)
        else
          let next ← field structures.memory.word current structures.layout.thread.next
          findSeat room next

/-- The structure of a thread, if the thread is listed. -/
def seat? : Query σ ReadFault (Option Address) := do
  let first ← structures.firstThread
  structures.findSeat id threadLimit first

/-- The head of the chain of the thread whose structure lies at a place. -/
def head (seat : Address) : Query σ ReadFault ThreadState := do
  let frame ← field structures.memory.word seat structures.layout.thread.frame
  let generation ← structures.generation seat frame
  pure ⟨present frame, generation⟩

theorem present_inj {first second : Address} (same : present first = present second) :
    first = second := by
  unfold present at same
  split at same <;> split at same <;> simp_all

theorem findThread_eq (room : Nat) (current : Address) :
    structures.findThread id room current = (do
      match ← structures.findSeat id room current with
      | some seat => some <$> structures.head seat
      | none => pure none) := by
  induction room generalizing current with
  | zero => simp [findThread, findSeat]
  | succ room induction =>
      rw [findThread, findSeat]
      split
      · simp
      · simp only [bind_assoc]
        congr 1
        funext found
        split
        · simp [head]
        · simp [induction]

/-- The seat of a thread is found first, and then its head is read. -/
theorem found_eq :
    (do
      let first ← structures.firstThread
      structures.findThread id threadLimit first) = (do
      match ← structures.seat? id with
      | some seat => some <$> structures.head seat
      | none => pure none) := by
  simp only [findThread_eq, seat?, bind_assoc]

end Structures

section

variable {layout : Layout} {origin : Address} {thread : ThreadId}

theorem seat_of_answers {structures : Structures Nat} {first last : Nat} {state : ThreadState}
    (answers : Answers (structures.threadState thread) first last state) :
    ∃ middle seat, Answers (structures.seat? thread) first middle (some seat) ∧
      Answers (structures.head seat) middle last state := by
  rw [Structures.threadState, Structures.found_eq] at answers
  rcases answers.of_bind with ⟨ended, found, isFound, rest⟩
  rcases isFound.of_adapt.of_bind with ⟨middle, seat, seated, headed⟩
  cases seat with
  | none =>
      rcases answers_pure_iff.mp headed with ⟨_, rfl⟩
      cases rest
  | some seat =>
      dsimp only at headed
      rw [map_eq_pure_bind] at headed
      rcases headed.of_bind with ⟨_, found, isHead, given⟩
      rcases answers_pure_iff.mp given with ⟨rfl, rfl⟩
      rcases answers_pure_iff.mp rest with ⟨rfl, rfl⟩
      exact ⟨middle, seat, seated, isHead⟩

theorem gives_threadState {σ : Type} {structures : Structures σ} {subject : σ} {seat : Address}
    {state : ThreadState} (seated : Storing.Gives (structures.seat? thread) subject (some seat))
    (headed : Storing.Gives (structures.head seat) subject state) :
    Storing.Gives (structures.threadState thread) subject state := by
  rw [Structures.threadState, Structures.found_eq]
  have found : Storing.Gives
      (do
        match ← structures.seat? thread with
        | some seat => some <$> structures.head seat
        | none => pure none)
      subject (some state) := seated.bind (headed.map some)
  exact (found.adapt (Halt.map CaptureError.memory)).bind (Storing.gives_pure state)

end

section

variable (timeline : Timeline) (layout : Layout) (origin : Address)

theorem counts_findSeat (thread : ThreadId) (room : Nat) (current : Address) :
    Counts ((timeline.structures layout origin).findSeat thread room current) := by
  induction room generalizing current with
  | zero => exact counts_pure none
  | succ room induction =>
      rw [Structures.findSeat]
      split
      · exact counts_pure none
      · refine (glimpse_word timeline current layout.thread.threadId).counts.bind fun found => ?_
        split
        · exact counts_pure _
        · exact (glimpse_word timeline current layout.thread.next).counts.bind fun next =>
            induction next

theorem counts_seat? (thread : ThreadId) :
    Counts ((timeline.structures layout origin).seat? thread) :=
  (glimpse_word timeline origin layout.interpreter.threadsHead).counts.bind fun first =>
    counts_findSeat timeline layout origin thread Structures.threadLimit first

theorem counts_head (seat : Address) : Counts ((timeline.structures layout origin).head seat) :=
  (glimpse_word timeline seat layout.thread.frame).counts.bind fun frame =>
    (counts_generation timeline layout origin seat frame).bind fun _ => counts_pure _

theorem counts_threadState (thread : ThreadId) :
    Counts ((timeline.structures layout origin).threadState thread) := by
  rw [Structures.threadState, Structures.found_eq]
  refine Counts.bind (Counts.adapt ?_ _) fun found => ?_
  · refine (counts_seat? timeline layout origin thread).bind fun seat => ?_
    cases seat with
    | none => exact counts_pure none
    | some seat => exact (counts_head timeline layout origin seat).map some
  · cases found with
    | none => exact counts_throw _
    | some state => exact counts_pure state

theorem structures_counted : (timeline.structures layout origin).interpreter.Counted where
  threadState thread := (counts_threadState timeline layout origin thread).settled _
  frame place := (counts_frame timeline layout origin place).settled _
  code place := (counts_code timeline layout origin place).settled _

end

/-! ## Threads that keep their seats -/

/-- What the list of threads may lead to if the steps of the way are taken at instants of a span. -/
inductive Timeline.Reached (timeline : Timeline) (layout : Layout) (origin : Address)
    (first last : Nat) : Address → Prop where
  | head {time : Nat} {seat : Address} (since : first ≤ time) (upTo : time ≤ last)
      (points : (timeline.contents time).wordIn origin layout.interpreter.threadsHead = .ok seat) :
      Reached timeline layout origin first last seat
  | next {time : Nat} {current seat : Address}
      (reached : Reached timeline layout origin first last current) (since : first ≤ time)
      (upTo : time ≤ last)
      (points : (timeline.contents time).wordIn current layout.thread.next = .ok seat) :
      Reached timeline layout origin first last seat

/--
From one instant to another, a thread is listed with one seat, and nothing else that the list of
threads may lead to bears its identity.  Other threads may come and go.
-/
structure Timeline.Keeps (timeline : Timeline) (layout : Layout) (origin : Address)
    (thread : ThreadId) (seat : Address) (first last : Nat) : Prop where
  listed : ∀ time, first ≤ time → time ≤ last →
    Storing.Gives ((Structures.still layout origin).seat? thread) (timeline.contents time)
      (some seat)
  alone : ∀ other, timeline.Reached layout origin first last other → ∀ time, first ≤ time →
    time ≤ last → (timeline.contents time).wordIn other layout.thread.threadId = .ok thread →
    other = seat

namespace Timeline.Keeps

variable {timeline : Timeline} {layout : Layout} {origin : Address} {thread : ThreadId}
  {seat found : Address} {first last began ended : Nat}

/-- A word that is read within a span was there at an instant of it. -/
theorem told_word {base : Address} {field : Offset} {word : UInt64}
    (answers : Answers (Structures.field timeline.reader.word base field) began ended word)
    (since : first ≤ began) (upTo : ended ≤ last) :
    ∃ time, timeline.instant first ≤ time ∧ time ≤ timeline.instant (last - 1) ∧
      (timeline.contents time).wordIn base field = .ok word := by
  have isRead := answers_word answers
  rcases (glimpse_word timeline base field).told answers since upTo (by omega)
    with ⟨count, after, before, told⟩
  exact ⟨_, timeline.inOrder after, timeline.inOrder (Nat.le_sub_one_of_lt before), told⟩

/-- Whatever instants the list is read at, the seat that it leads to is the thread's. -/
theorem eq_of_findSeat
    (keeps : timeline.Keeps layout origin thread seat (timeline.instant first)
      (timeline.instant (last - 1)))
    {room : Nat} {current : Address}
    (reached : timeline.Reached layout origin (timeline.instant first)
      (timeline.instant (last - 1)) current)
    (answers : Answers ((timeline.structures layout origin).findSeat thread room current) began
      ended (some found)) (since : first ≤ began) (upTo : ended ≤ last) :
    found = seat := by
  induction room generalizing current began with
  | zero => cases (answers_pure_iff.mp answers).2
  | succ room induction =>
      rw [Structures.findSeat] at answers
      split at answers
      case isTrue => cases (answers_pure_iff.mp answers).2
      case isFalse =>
        rcases answers.of_bind with ⟨middle, id, named, answers⟩
        have order := (glimpse_word timeline current _).le named
        split at answers
        case isTrue isThread =>
          rcases answers_pure_iff.mp answers with ⟨rfl, isSeat⟩
          rcases told_word named since upTo with ⟨time, after, before, told⟩
          rw [Option.some.inj isSeat]
          exact keeps.alone current reached time after before (isThread ▸ told)
        case isFalse =>
          rcases answers.of_bind with ⟨later, next, linked, answers⟩
          have further := (glimpse_word timeline current _).le linked
          have rest := answers.le (counts_findSeat timeline layout origin thread room next)
          rcases told_word linked (since.trans order) (rest.trans upTo)
            with ⟨time, after, before, told⟩
          exact induction (.next reached after before told) answers
            (since.trans (order.trans further))

theorem eq_of_seat?
    (keeps : timeline.Keeps layout origin thread seat (timeline.instant first)
      (timeline.instant (last - 1)))
    (answers : Answers ((timeline.structures layout origin).seat? thread) began ended (some found))
    (since : first ≤ began) (upTo : ended ≤ last) : found = seat := by
  rcases answers.of_bind with ⟨middle, first, listed, answers⟩
  have order := (glimpse_word timeline origin _).le listed
  have rest := answers.le (counts_findSeat timeline layout origin thread _ first)
  rcases told_word listed since (rest.trans upTo) with ⟨time, after, before, told⟩
  exact keeps.eq_of_findSeat (.head after before told) answers (since.trans order) upTo

end Timeline.Keeps

/-! ## Heads without a counter -/

/-- Which frame was the innermost at one read, and which instruction it had at the next. -/
theorem head_of_answers {timeline : Timeline} {layout : Layout} {origin seat : Address}
    (uncounted : layout.thread.generation = none) {first last : Nat} {state : ThreadState}
    (answers : Answers ((timeline.structures layout origin).head seat) first last state) :
    ∃ frame, state.top = Structures.present frame ∧
      (timeline.seen first).wordIn seat layout.thread.frame = .ok frame ∧
      (frame = 0 ∧ state.generation = 0 ∧ last = first + 1 ∨
        frame ≠ 0 ∧ last = first + 2 ∧ ∃ instruction,
          state.generation = Structures.rotated frame ^^^ instruction ∧
          (timeline.seen (first + 1)).told ((Structures.still layout origin).rawInstruction frame) =
            .ok instruction) := by
  rcases answers.of_bind with ⟨middle, frame, isTop, answers⟩
  rcases answers.of_bind with ⟨_, generation, generated, answers⟩
  rcases answers_pure_iff.mp answers with ⟨rfl, rfl⟩
  obtain rfl := answers_word isTop
  rcases (glimpse_word timeline seat layout.thread.frame).told isTop (Nat.le_refl _) (Nat.le_refl _)
    (Nat.lt_succ_self _) with ⟨count, after, before, told⟩
  obtain rfl : count = first := by omega
  refine ⟨frame, rfl, told, ?_⟩
  unfold Structures.generation Timeline.structures at generated
  dsimp only at generated
  rw [uncounted] at generated
  by_cases null : frame = 0
  · rw [if_pos null] at generated
    rcases answers_pure_iff.mp generated with ⟨rfl, rfl⟩
    exact .inl ⟨null, rfl, rfl⟩
  · rw [if_neg null] at generated
    rcases generated.of_bind with ⟨middle, instruction, executed, given⟩
    rcases answers_pure_iff.mp given with ⟨rfl, rfl⟩
    have isRead := answers_rawInstruction _ _ _ _ executed
    rcases (glimpse_rawInstruction timeline layout origin frame).told executed (Nat.le_refl _)
      (Nat.le_refl _) (by omega) with ⟨time, later, earlier, held⟩
    obtain rfl : time = count + 1 := by omega
    exact .inr ⟨null, isRead, instruction, rfl, held⟩

end StackSampler
