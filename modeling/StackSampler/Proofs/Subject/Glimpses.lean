import StackSampler.Proofs.Subject.Checked
import StackSampler.Proofs.Subject.Reading
import StackSampler.Proofs.Walk.Tracking

/-!
# Memory that changes while it is read

An interpreter in memory runs on while its structures are read, so the fields of one frame, and the
words of one head of a chain, may be read at different instants.  A `Timeline` is what memory holds
at each instant together with the instants that the reads fall on, and `Memory.moment` is what the
interpreter is at one of them.

A question of one read is answered as at the instant of the read, which is `Glimpse`.  Questions of
several reads need not be: what holds of a frame is `frame_of_answers`, that it is read as it was if
it was the same at all instants of its reads.
-/

namespace StackSampler

/-! ## Questions with several reads -/

section

variable {ε δ α β : Type}

/-- A question that goes on with an answer has got that answer. -/
theorem Answers.of_bind {query : ExceptT ε (StateM Nat) α} {next : α → ExceptT ε (StateM Nat) β}
    {first last : Nat} {value : β} (answers : Answers (query >>= next) first last value) :
    ∃ middle found, Answers query first middle found ∧ Answers (next found) middle last value := by
  rw [Answers, Query.bind_apply] at answers
  rcases begun : query.run.run first with ⟨_ | found, middle⟩
  · rw [begun] at answers
    cases answers
  · rw [begun] at answers
    exact ⟨middle, found, begun, answers⟩

theorem Answers.of_adapt {query : ExceptT ε (StateM Nat) α} {change : ε → δ} {first last : Nat}
    {value : α} (answers : Answers (ExceptT.adapt change query) first last value) :
    Answers query first last value := by
  have ran : ((query first).1.mapError change, (query first).2) = (.ok value, last) := answers
  rcases begun : query first with ⟨_ | found, middle⟩
  · rw [begun] at ran
    cases ran
  · rw [begun] at ran
    cases ran
    exact begun

theorem answers_settled_iff {query : Query Nat ε α} {exceed : WordOperation → StateM Nat Unit}
    {error : WordOperation → ε} {first last : Nat} {value : α} :
    Answers (query.settled exceed error) first last value ↔ Answers query first last value :=
  Query.settled_eq_ok_iff

theorem answers_pure_iff {first last : Nat} {value given : α} :
    Answers (pure value : ExceptT ε (StateM Nat) α) first last given ↔
      last = first ∧ given = value := by
  show ((Except.ok value : Except ε α), first) = (.ok given, last) ↔ _
  rw [Prod.mk.injEq, Except.ok.injEq]
  exact ⟨fun same => ⟨same.2.symm, same.1.symm⟩, fun same => ⟨same.2.symm, same.1.symm⟩⟩

theorem counts_pure (value : α) : Counts (pure value : ExceptT ε (StateM Nat) α) :=
  Nat.le_refl

theorem counts_throw (error : ε) : Counts (throw error : ExceptT ε (StateM Nat) α) :=
  Nat.le_refl

theorem Counts.bind {query : ExceptT ε (StateM Nat) α} {next : α → ExceptT ε (StateM Nat) β}
    (counts : Counts query) (later : ∀ value, Counts (next value)) : Counts (query >>= next) := by
  intro first
  have begun := counts first
  rw [Query.bind_apply]
  rcases ran : query.run.run first with ⟨_ | value, middle⟩ <;> rw [ran] at begun
  · exact begun
  · exact begun.trans (later value middle)

theorem Counts.map {query : ExceptT ε (StateM Nat) α} (counts : Counts query) (change : α → β) :
    Counts (change <$> query) := by
  rw [map_eq_pure_bind]
  exact counts.bind fun _ => counts_pure _

theorem Counts.adapt {query : ExceptT ε (StateM Nat) α} (counts : Counts query)
    (change : ε → δ) : Counts (ExceptT.adapt change query) :=
  counts

theorem Counts.settled {query : Query Nat ε α} (counts : Counts query)
    (error : WordOperation → ε) : Counts (query.settled (fun _ => pure ()) error) := by
  intro first
  have spent := counts first
  rw [Query.settled_apply]
  rcases ran : query.run.run first with ⟨(_ | _) | _, _⟩ <;> rw [ran] at spent <;> exact spent

end

/-! ## Timelines -/

/-- What memory holds at each instant, and an observer that reads it.  Anyone may write to it. -/
structure Timeline where
  contents : Nat → Memory
  /-- The instant of each read. -/
  instant : Nat → Nat
  inOrder : Monotone instant

namespace Timeline

variable (timeline : Timeline)

/-- What memory holds when a read falls on it. -/
def seen (count : Nat) : Memory :=
  timeline.contents (timeline.instant count)

/-- Each read finds what memory holds at its instant; reads are counted. -/
def reader : MemoryReader Nat where
  read address size := fun count => ((timeline.seen count).read address size, count + 1)
  exceed _ := pure ()

/-- Memory in which nothing happens. -/
def frozen (memory : Memory) : Timeline :=
  ⟨fun _ => memory, id, monotone_id⟩

/-- The structures of an interpreter as the observer reads them. -/
def structures (layout : Layout) (origin : Address) : Structures Nat :=
  ⟨timeline.reader, layout, origin⟩

end Timeline

/-- Reads a memory that stands still. -/
def Memory.still : MemoryReader Memory :=
  Memory.reader id fun _ => pure ()

/-- The structures of an interpreter in a memory that stands still. -/
def Structures.still (layout : Layout) (origin : Address) : Structures Memory :=
  ⟨Memory.still, layout, origin⟩

/-- What becomes of a question that has no value, for somebody who expects a fault. -/
def Halt.fault : Halt ReadFault → ReadFault
  | .failed fault => fault
  | .exceeded operation => Structures.exceeding operation

namespace Memory

variable (memory : Memory)

/-- What a question is answered with while memory stands still. -/
def told {ε α : Type} (query : ExceptT ε (StateM Memory) α) : Except ε α :=
  (query.run.run memory).1

/-- The word in a field of a structure while memory stands still. -/
def wordIn (base : Address) (field : Offset) : Except (Halt ReadFault) UInt64 :=
  memory.told (Structures.field still.word base field)

/-- What an interpreter in memory is while memory stands still. -/
def moment (layout : Layout) (origin : Address) : Moment where
  threads thread := (memory.told ((Structures.still layout origin).threadState thread)).toOption
  frames place := memory.told ((Structures.still layout origin).interpreter.frame place)

theorem frames_moment (layout : Layout) (origin place : Address) :
    (memory.moment layout origin).frames place =
      (memory.told ((Structures.still layout origin).frame place)).mapError Halt.fault := by
  show memory.told ((Structures.still layout origin).asked _) = _
  rw [told, told, Structures.asked, Query.settled_apply]
  rcases ((Structures.still layout origin).frame place).run.run memory with ⟨(_ | _) | _, _⟩ <;> rfl

/-- A frame at a moment is what the question about it gives. -/
theorem frames_eq_ok_iff {layout : Layout} {origin place : Address} {raw : RawFrame} :
    (memory.moment layout origin).frames place = .ok raw ↔
      memory.told ((Structures.still layout origin).frame place) = .ok raw := by
  rw [frames_moment]
  cases memory.told ((Structures.still layout origin).frame place) <;> simp [Except.mapError]

theorem frames_eq_error_iff {layout : Layout} {origin place : Address} {fault : ReadFault} :
    (memory.moment layout origin).frames place = .error fault ↔
      ∃ halt, memory.told ((Structures.still layout origin).frame place) = .error halt ∧
        halt.fault = fault := by
  rw [frames_moment]
  cases memory.told ((Structures.still layout origin).frame place) <;> simp [Except.mapError]

end Memory

/-- A read that fails says which bytes it asked for. -/
theorem Memory.read_eq_error {memory : Memory} {address : Address} {size : Nat} {fault : ReadFault}
    (failed : memory.read address size = .error fault) :
    fault = ⟨address, size, ReadFault.badAddress⟩ := by
  rw [Memory.read] at failed
  split at failed <;> cases failed
  rfl

/-! ## Glimpses -/

/--
What a question makes of a read: an error, a value, or nothing because of an operation that exceeds
a word, which does not depend on what is read.
-/
def glimpsed {α : Type} (outcome : Except WordOperation (List UInt8 → α)) :
    Except ReadFault (List UInt8) → Except (Halt ReadFault) α
  | .error fault => .error (.failed fault)
  | .ok bytes =>
      match outcome with
      | .ok decode => .ok (decode bytes)
      | .error operation => .error (.exceeded operation)

/-- A question to an observed memory with at most one read, and the same question to any memory. -/
inductive Glimpse (timeline : Timeline) {α : Type} (torn : Query Nat ReadFault α)
    (still : Query Memory ReadFault α) : Prop where
  | unread (outcome : Except WordOperation α)
      (torn_run : ∀ count, torn.run.run count = (outcome.mapError .exceeded, count))
      (still_run : ∀ memory, still.run.run memory = (outcome.mapError .exceeded, memory))
  | read (address : Address) (size : Nat) (outcome : Except WordOperation (List UInt8 → α))
      (torn_run : ∀ count, torn.run.run count =
        (glimpsed outcome ((timeline.seen count).read address size), count + 1))
      (still_run : ∀ memory, still.run.run memory =
        (glimpsed outcome (memory.read address size), memory))

theorem glimpse_pure (timeline : Timeline) {α : Type} (value : α) :
    Glimpse timeline (pure value) (pure value) :=
  .unread (.ok value) (fun _ => rfl) fun _ => rfl

namespace Glimpse

variable {timeline : Timeline} {α β : Type} {torn : Query Nat ReadFault α}
  {still : Query Memory ReadFault α}

theorem map (glimpse : Glimpse timeline torn still) (change : α → β) :
    Glimpse timeline (do let value ← torn; pure (change value))
      (do let value ← still; pure (change value)) := by
  cases glimpse with
  | unread outcome torn_run still_run =>
      refine .unread (outcome.map change) (fun count => ?_) fun memory => ?_
      · rw [Query.bind_apply, torn_run]
        cases outcome <;> rfl
      · rw [Query.bind_apply, still_run]
        cases outcome <;> rfl
  | read address size outcome torn_run still_run =>
      refine .read address size (outcome.map (change ∘ ·)) (fun count => ?_) fun memory => ?_
      · rw [Query.bind_apply, torn_run]
        cases (timeline.seen count).read address size <;> cases outcome <;> rfl
      · rw [Query.bind_apply, still_run]
        cases memory.read address size <;> cases outcome <;> rfl

/-- An operation that exceeds a word may come after the read. -/
theorem exceed (glimpse : Glimpse timeline torn still) (operation : WordOperation) :
    Glimpse timeline (torn >>= fun _ => (throw (.exceeded operation) : Query Nat ReadFault β))
      (still >>= fun _ => throw (.exceeded operation)) := by
  cases glimpse with
  | unread outcome torn_run still_run =>
      refine .unread (outcome.bind fun _ => .error operation) (fun count => ?_) fun memory => ?_
      · rw [Query.bind_apply, torn_run]
        cases outcome <;> rfl
      · rw [Query.bind_apply, still_run]
        cases outcome <;> rfl
  | read address size outcome torn_run still_run =>
      refine .read address size (outcome.bind fun _ => .error operation) (fun count => ?_)
        fun memory => ?_
      · rw [Query.bind_apply, torn_run]
        cases (timeline.seen count).read address size <;> cases outcome <;> rfl
      · rw [Query.bind_apply, still_run]
        cases memory.read address size <;> cases outcome <;> rfl

/-- What a glimpse gives was so at an instant, among any that include the reads of the question. -/
theorem told (glimpse : Glimpse timeline torn still) {first last earlier later : Nat} {value : α}
    (answers : Answers torn first last value) (since : earlier ≤ first) (upTo : last ≤ later)
    (some_read : earlier < later) :
    ∃ count, earlier ≤ count ∧ count < later ∧ (timeline.seen count).told still = .ok value := by
  cases glimpse with
  | unread outcome torn_run still_run =>
      rw [Answers, torn_run] at answers
      rcases Prod.mk.inj answers with ⟨isValue, rfl⟩
      exact ⟨earlier, Nat.le_refl _, some_read, (congrArg Prod.fst (still_run _)).trans isValue⟩
  | read address size outcome torn_run still_run =>
      rw [Answers, torn_run] at answers
      rcases Prod.mk.inj answers with ⟨isValue, rfl⟩
      exact ⟨first, since, upTo, (congrArg Prod.fst (still_run _)).trans isValue⟩

/-- A question of one read leaves the memory that it is put to as it is. -/
theorem run_still (glimpse : Glimpse timeline torn still) (memory : Memory) :
    still.run.run memory = (memory.told still, memory) := by
  cases glimpse with
  | unread outcome torn_run still_run => rw [Memory.told, still_run]
  | read address size outcome torn_run still_run => rw [Memory.told, still_run]

theorem gives (glimpse : Glimpse timeline torn still) {memory : Memory} {value : α}
    (told : memory.told still = .ok value) : Storing.Gives still memory value := by
  rw [Storing.Gives, glimpse.run_still, told]

theorem counts (glimpse : Glimpse timeline torn still) : Counts torn := by
  intro first
  cases glimpse with
  | unread outcome torn_run still_run => rw [torn_run]
  | read address size outcome torn_run still_run =>
      rw [torn_run]
      exact Nat.le_succ first

theorem le (glimpse : Glimpse timeline torn still) {first last : Nat} {value : α}
    (answers : Answers torn first last value) : first ≤ last :=
  answers.le glimpse.counts

/-- A fault of a glimpse says which bytes cannot be read. -/
theorem unreadable (glimpse : Glimpse timeline torn still) {memory : Memory} {fault : ReadFault}
    (failed : memory.told still = .error (.failed fault)) :
    memory.read fault.address fault.length = .error fault := by
  cases glimpse with
  | unread outcome torn_run still_run =>
      rw [Memory.told, still_run] at failed
      cases outcome <;> cases failed
  | read address size outcome torn_run still_run =>
      rw [Memory.told, still_run] at failed
      cases found : memory.read address size with
      | error why =>
          rw [found] at failed
          cases failed
          cases Memory.read_eq_error found
          exact found
      | ok bytes =>
          rw [found] at failed
          cases outcome <;> cases failed

/-- If a glimpse fails once, these bytes can be read wherever it does not. -/
theorem readable (glimpse : Glimpse timeline torn still) {memory other : Memory}
    {fault : ReadFault} (failed : memory.told still = .error (.failed fault)) {value : α}
    (told : other.told still = .ok value) :
    ∃ bytes, other.read fault.address fault.length = .ok bytes := by
  cases glimpse with
  | unread outcome torn_run still_run =>
      rw [Memory.told, still_run] at failed
      cases outcome <;> cases failed
  | read address size outcome torn_run still_run =>
      rw [Memory.told, still_run] at failed told
      cases read : other.read address size with
      | error why =>
          rw [read] at told
          cases told
      | ok bytes =>
          cases found : memory.read address size with
          | error why =>
              rw [found] at failed
              cases failed
              cases Memory.read_eq_error found
              exact ⟨bytes, read⟩
          | ok others =>
              rw [found] at failed
              cases outcome <;> cases failed

/-- If an operation of a glimpse exceeds a word once, the glimpse never has a value. -/
theorem told_ne_ok (glimpse : Glimpse timeline torn still) {memory other : Memory}
    {operation : WordOperation} (exceeds : memory.told still = .error (.exceeded operation))
    {value : α} : other.told still ≠ .ok value := by
  intro told
  cases glimpse with
  | unread outcome torn_run still_run =>
      rw [Memory.told, still_run] at exceeds told
      cases exceeds.symm.trans told
  | read address size outcome torn_run still_run =>
      rw [Memory.told, still_run] at exceeds told
      cases outcome with
      | error operation =>
          cases found : other.read address size <;> rw [found] at told <;> cases told
      | ok decode =>
          cases found : memory.read address size <;> rw [found] at exceeds <;> cases exceeds

theorem told_bind (glimpse : Glimpse timeline torn still) (next : α → Query Memory ReadFault β)
    (memory : Memory) :
    memory.told (still >>= next) =
      match memory.told still with
      | .ok value => memory.told (next value)
      | .error halt => .error halt := by
  rw [Memory.told, Query.bind_apply, glimpse.run_still]
  cases memory.told still <;> rfl

theorem of_told_bind (glimpse : Glimpse timeline torn still) {next : α → Query Memory ReadFault β}
    {memory : Memory} {value : β} (told : memory.told (still >>= next) = .ok value) :
    ∃ found, memory.told still = .ok found ∧ memory.told (next found) = .ok value := by
  rw [glimpse.told_bind] at told
  cases answer : memory.told still with
  | ok found => exact ⟨found, rfl, by simpa [answer] using told⟩
  | error halt => simp [answer] at told

theorem of_told_bind_error (glimpse : Glimpse timeline torn still)
    {next : α → Query Memory ReadFault β} {memory : Memory} {halt : Halt ReadFault}
    (failed : memory.told (still >>= next) = .error halt) :
    memory.told still = .error halt ∨
      ∃ found, memory.told still = .ok found ∧ memory.told (next found) = .error halt := by
  rw [glimpse.told_bind] at failed
  cases answer : memory.told still with
  | ok found => exact .inr ⟨found, rfl, by simpa [answer] using failed⟩
  | error error => exact .inl (by simpa [answer] using failed)

end Glimpse

section

theorem glimpse_read (timeline : Timeline) (address : Address) (size : Nat) :
    Glimpse timeline (Query.answered (timeline.reader.read address size))
      (Query.answered (Memory.still.read address size)) := by
  refine .read address size (.ok id) (fun count => ?_) fun memory => ?_
  · show (((timeline.seen count).read address size).mapError Halt.failed, count + 1) = _
    cases (timeline.seen count).read address size <;> rfl
  · show ((memory.read address size).mapError Halt.failed, memory) = _
    cases memory.read address size <;> rfl

variable (timeline : Timeline) (base : Address) (field : Offset)

/-- A field that is decoded from so many bytes. -/
theorem glimpse_field {α : Type} (size : Nat) (decode : List UInt8 → α) :
    Glimpse timeline
      (Structures.field (fun address => do
        let bytes ← timeline.reader.read address size
        pure (decode bytes)) base field)
      (Structures.field (fun address => do
        let bytes ← Memory.still.read address size
        pure (decode bytes)) base field) := by
  by_cases fits : (WordOperation.place base field).Fits
  · rw [Structures.field_of_fits fits, Structures.field_of_fits fits]
    rw [Query.answered_decoded, Query.answered_decoded]
    exact (glimpse_read timeline (base + field) size).map decode
  · rw [Structures.field_of_not_fits fits, Structures.field_of_not_fits fits]
    exact .unread (.error (.place base field)) (fun _ => rfl) fun _ => rfl

theorem glimpse_byte :
    Glimpse timeline (Structures.field timeline.reader.byte base field)
      (Structures.field Memory.still.byte base field) :=
  glimpse_field timeline base field 1 (·.headD 0)

theorem glimpse_int32 :
    Glimpse timeline (Structures.field timeline.reader.int32 base field)
      (Structures.field Memory.still.int32 base field) :=
  glimpse_field timeline base field 4 fun bytes => (Stream.word32 bytes).toInt32

theorem glimpse_word :
    Glimpse timeline (Structures.field timeline.reader.word base field)
      (Structures.field Memory.still.word base field) :=
  glimpse_field timeline base field 8 Stream.word64

variable {timeline base field}

/-- A field that is decoded from what is read takes one read. -/
theorem answers_decoded {α : Type} {size : Nat} {decode : List UInt8 → α} {first last : Nat}
    {value : α}
    (answers : Answers
      (Structures.field (fun address => do
        let bytes ← timeline.reader.read address size
        pure (decode bytes)) base field) first last value) :
    last = first + 1 := by
  by_cases fits : (WordOperation.place base field).Fits
  · rw [Structures.field_of_fits fits] at answers
    rcases answers.of_adapt.of_bind with ⟨middle, bytes, read, rest⟩
    have ran : ((timeline.seen first).read (base + field) size, first + 1) = (.ok bytes, middle) :=
      read
    rw [(answers_pure_iff.mp rest).1, ← (Prod.mk.inj ran).2]
  · rw [Structures.field_of_not_fits fits] at answers
    cases answers

theorem answers_word {first last : Nat} {word : UInt64}
    (answers : Answers (Structures.field timeline.reader.word base field) first last word) :
    last = first + 1 :=
  answers_decoded answers

end

/-! ## The parts of a frame -/

section

variable (timeline : Timeline) (layout : Layout) (origin place : Address)

theorem glimpse_rawInstruction :
    Glimpse timeline ((timeline.structures layout origin).rawInstruction place)
      ((Structures.still layout origin).rawInstruction place) := by
  unfold Structures.rawInstruction Structures.still Timeline.structures
  dsimp only
  cases layout.frame.instruction with
  | index offset unit => exact (glimpse_int32 timeline place offset).map _
  | pointer offset codeStart => exact glimpse_word timeline place offset

theorem answers_rawInstruction {first last : Nat} {instruction : UInt64}
    (answers : Answers ((timeline.structures layout origin).rawInstruction place) first last
      instruction) :
    last = first + 1 := by
  unfold Structures.rawInstruction Timeline.structures at answers
  dsimp only at answers
  cases kind : layout.frame.instruction with
  | index offset unit =>
      rw [kind] at answers
      rcases answers.of_bind with ⟨middle, index, read, rest⟩
      rw [(answers_pure_iff.mp rest).1, answers_decoded read]
  | pointer offset codeStart =>
      rw [kind] at answers
      exact answers_word answers

theorem glimpse_instructionOffset (code : Address) :
    Glimpse timeline ((timeline.structures layout origin).instructionOffset place code)
      ((Structures.still layout origin).instructionOffset place code) := by
  unfold Structures.instructionOffset Structures.still Timeline.structures
  dsimp only
  cases layout.frame.instruction with
  | index offset unit => exact (glimpse_int32 timeline place offset).map _
  | pointer offset codeStart =>
      have pointer := glimpse_word timeline place offset
      by_cases fits : (WordOperation.place code codeStart).Fits
      · simp only [Query.computed_of_fits fits, pure_bind]
        exact pointer.map _
      · simp only [Query.computed_of_not_fits fits]
        exact pointer.exceed _

theorem glimpse_entryMark :
    Glimpse timeline ((timeline.structures layout origin).entryMark place)
      ((Structures.still layout origin).entryMark place) := by
  unfold Structures.entryMark Structures.still Timeline.structures
  dsimp only
  cases layout.frame.isEntry with
  | some field => exact (glimpse_byte timeline place field).map _
  | none => exact glimpse_pure timeline true

theorem glimpse_shimMark :
    Glimpse timeline ((timeline.structures layout origin).shimMark place)
      ((Structures.still layout origin).shimMark place) := by
  unfold Structures.shimMark Structures.still Timeline.structures
  dsimp only
  cases layout.frame.owner with
  | some owner => exact (glimpse_byte timeline place owner.offset).map _
  | none => exact glimpse_pure timeline false

end

/-- The parts of a frame in a memory that stands still. -/
structure Memory.HasParts (memory : Memory) (layout : Layout) (origin place : Address)
    (raw : RawFrame) : Prop where
  previous : ∃ previous, raw.previous = Structures.present previous ∧
    memory.wordIn place layout.frame.previous = .ok previous
  code : memory.wordIn place layout.frame.code = .ok raw.code
  offset : memory.told ((Structures.still layout origin).instructionOffset place raw.code) =
    .ok raw.offset
  isEntry : memory.told ((Structures.still layout origin).entryMark place) = .ok raw.isEntry
  isShim : memory.told ((Structures.still layout origin).shimMark place) = .ok raw.isShim

section

variable {layout : Layout} {origin place : Address} {memory : Memory}

theorem hasParts_of_frames {raw : RawFrame}
    (held : (memory.moment layout origin).frames place = .ok raw) :
    memory.HasParts layout origin place raw := by
  rw [Memory.frames_eq_ok_iff, Structures.frame_eq] at held
  rcases (glimpse_word (.frozen memory) place _).of_told_bind held with ⟨previous, isPrevious, held⟩
  rcases (glimpse_word (.frozen memory) place _).of_told_bind held with ⟨code, isCode, held⟩
  rcases (glimpse_instructionOffset (.frozen memory) layout origin place code).of_told_bind held
    with ⟨offset, isOffset, held⟩
  rcases (glimpse_entryMark (.frozen memory) layout origin place).of_told_bind held
    with ⟨isEntry, entry, held⟩
  rcases (glimpse_shimMark (.frozen memory) layout origin place).of_told_bind held
    with ⟨isShim, shim, held⟩
  cases held
  exact ⟨⟨previous, rfl, isPrevious⟩, isCode, isOffset, entry, shim⟩

/-- The instruction of a frame can be read if its offset can be. -/
theorem told_rawInstruction {code : Address} {offset : UInt32}
    (told : memory.told ((Structures.still layout origin).instructionOffset place code) =
      .ok offset) :
    ∃ instruction,
      memory.told ((Structures.still layout origin).rawInstruction place) = .ok instruction := by
  unfold Structures.instructionOffset Structures.still at told
  unfold Structures.rawInstruction Structures.still
  dsimp only at told ⊢
  cases kind : layout.frame.instruction with
  | index field unit =>
      have glimpse := glimpse_int32 (.frozen memory) place field
      rw [kind] at told
      rcases glimpse.of_told_bind told with ⟨index, isIndex, _⟩
      refine ⟨index.toInt64.toUInt64, ?_⟩
      rw [glimpse.told_bind, isIndex]
      rfl
  | pointer field codeStart =>
      rw [kind] at told
      rcases (glimpse_word (.frozen memory) place field).of_told_bind told
        with ⟨instruction, isInstruction, _⟩
      exact ⟨instruction, isInstruction⟩

/-- A frame without a value has a part without a value. -/
theorem part_of_frame_error {halt : Halt ReadFault}
    (failed : memory.told ((Structures.still layout origin).frame place) = .error halt) :
    memory.wordIn place layout.frame.previous = .error halt ∨
    memory.wordIn place layout.frame.code = .error halt ∨
    (∃ code, memory.wordIn place layout.frame.code = .ok code ∧
      memory.told ((Structures.still layout origin).instructionOffset place code) = .error halt) ∨
    memory.told ((Structures.still layout origin).entryMark place) = .error halt ∨
    memory.told ((Structures.still layout origin).shimMark place) = .error halt := by
  rw [Structures.frame_eq] at failed
  rcases (glimpse_word (.frozen memory) place _).of_told_bind_error failed
    with previous | ⟨_, _, failed⟩
  · exact .inl previous
  rcases (glimpse_word (.frozen memory) place _).of_told_bind_error failed
    with code | ⟨code, isCode, failed⟩
  · exact .inr (.inl code)
  rcases (glimpse_instructionOffset (.frozen memory) layout origin place code).of_told_bind_error
    failed with offset | ⟨_, _, failed⟩
  · exact .inr (.inr (.inl ⟨code, isCode, offset⟩))
  rcases (glimpse_entryMark (.frozen memory) layout origin place).of_told_bind_error failed
    with entry | ⟨_, _, failed⟩
  · exact .inr (.inr (.inr (.inl entry)))
  rcases (glimpse_shimMark (.frozen memory) layout origin place).of_told_bind_error failed
    with shim | ⟨_, _, failed⟩
  · exact .inr (.inr (.inr (.inr shim)))
  cases failed

/-- A frame that fails at a read fails at bytes that cannot be read. -/
theorem unreadable_of_frame_failed {fault : ReadFault}
    (failed : memory.told ((Structures.still layout origin).frame place) =
      .error (.failed fault)) :
    memory.read fault.address fault.length = .error fault := by
  rcases part_of_frame_error failed with part | part | ⟨code, _, part⟩ | part | part
  · exact (glimpse_word (.frozen memory) place _).unreadable part
  · exact (glimpse_word (.frozen memory) place _).unreadable part
  · exact (glimpse_instructionOffset (.frozen memory) layout origin place code).unreadable part
  · exact (glimpse_entryMark (.frozen memory) layout origin place).unreadable part
  · exact (glimpse_shimMark (.frozen memory) layout origin place).unreadable part

/-- The fault of a frame that fails at a read is not that of one that exceeds a word. -/
theorem unreadable_of_frames_error {fault : ReadFault}
    (bad : fault.errno = ReadFault.badAddress)
    (failed : (memory.moment layout origin).frames place = .error fault) :
    memory.read fault.address fault.length = .error fault := by
  rcases memory.frames_eq_error_iff.mp failed with ⟨halt, told, isFault⟩
  cases halt with
  | failed found =>
      cases isFault
      exact unreadable_of_frame_failed told
  | exceeded operation =>
      rw [← isFault] at bad
      cases bad

end

/-! ## Frames that change while they are read -/

/-- The parts of a frame as they stand in some of several memories, not all in one and the same. -/
structure PartsAmong (among : Memory → Prop) (layout : Layout) (origin place : Address)
    (raw : RawFrame) : Prop where
  previous : ∃ memory previous, among memory ∧ raw.previous = Structures.present previous ∧
    memory.wordIn place layout.frame.previous = .ok previous
  code : ∃ memory, among memory ∧ memory.wordIn place layout.frame.code = .ok raw.code
  offset : ∃ memory, among memory ∧
    memory.told ((Structures.still layout origin).instructionOffset place raw.code) = .ok raw.offset
  isEntry : ∃ memory, among memory ∧
    memory.told ((Structures.still layout origin).entryMark place) = .ok raw.isEntry
  isShim : ∃ memory, among memory ∧
    memory.told ((Structures.still layout origin).shimMark place) = .ok raw.isShim

section

variable {layout : Layout} {origin place : Address} {raw : RawFrame}

theorem partsAmong_of_answers {timeline : Timeline} {first last : Nat}
    (answers : Answers ((timeline.structures layout origin).frame place) first last raw)
    {among : Memory → Prop}
    (held : ∀ count, first ≤ count → count < last → among (timeline.seen count)) :
    PartsAmong among layout origin place raw := by
  rw [Structures.frame_eq] at answers
  rcases answers.of_bind with ⟨second, previous, isPrevious, answers⟩
  rcases answers.of_bind with ⟨third, code, isCode, answers⟩
  rcases answers.of_bind with ⟨fourth, offset, isOffset, answers⟩
  rcases answers.of_bind with ⟨fifth, isEntry, entry, answers⟩
  rcases answers.of_bind with ⟨sixth, isShim, shim, answers⟩
  rcases answers_pure_iff.mp answers with ⟨rfl, rfl⟩
  have someRead := answers_word isPrevious
  have afterCode := (glimpse_word timeline place _).le isCode
  have afterOffset := (glimpse_instructionOffset timeline layout origin place code).le isOffset
  have afterEntry := (glimpse_entryMark timeline layout origin place).le entry
  have afterShim := (glimpse_shimMark timeline layout origin place).le shim
  have shown {α : Type} {torn : Query Nat ReadFault α} {still : Query Memory ReadFault α}
      (glimpse : Glimpse timeline torn still) {began ended : Nat} {value : α}
      (answered : Answers torn began ended value) (since : first ≤ began) (upTo : ended ≤ last) :
      ∃ memory, among memory ∧ memory.told still = .ok value := by
    rcases glimpse.told answered since upTo (by omega) with ⟨count, after, before, told⟩
    exact ⟨_, held count after before, told⟩
  rcases shown (glimpse_word timeline place _) isPrevious (by omega) (by omega)
    with ⟨memory, isAmong, told⟩
  exact
    { previous := ⟨memory, previous, isAmong, rfl, told⟩
      code := shown (glimpse_word timeline place _) isCode (by omega) (by omega)
      offset := shown (glimpse_instructionOffset timeline layout origin place code) isOffset
        (by omega) (by omega)
      isEntry := shown (glimpse_entryMark timeline layout origin place) entry (by omega) (by omega)
      isShim := shown (glimpse_shimMark timeline layout origin place) shim (by omega) (by omega) }

theorem PartsAmong.eq_of_same {found : RawFrame}
    (parts : PartsAmong (fun memory => (memory.moment layout origin).frames place = .ok found)
      layout origin place raw) :
    found = raw := by
  rcases raw with ⟨code, offset, previous, isEntry, isShim⟩
  rcases parts with ⟨⟨_, word, same1, isWord, told1⟩, ⟨_, same2, told2⟩, ⟨_, same3, told3⟩,
    ⟨_, same4, told4⟩, ⟨_, same5, told5⟩⟩
  dsimp only at isWord told2 told3 told4 told5
  rcases (hasParts_of_frames same1).previous with ⟨other, isOther, told⟩
  obtain rfl : word = other := Except.ok.inj (told1.symm.trans told)
  obtain rfl : code = found.code :=
    Except.ok.inj (told2.symm.trans (hasParts_of_frames same2).code)
  obtain rfl : offset = found.offset :=
    Except.ok.inj (told3.symm.trans (hasParts_of_frames same3).offset)
  obtain rfl : isEntry = found.isEntry :=
    Except.ok.inj (told4.symm.trans (hasParts_of_frames same4).isEntry)
  obtain rfl : isShim = found.isShim :=
    Except.ok.inj (told5.symm.trans (hasParts_of_frames same5).isShim)
  rw [isWord, ← isOther]

/-- A part without a value in one memory has a value in another, where the frame fails as well. -/
theorem PartsAmong.not_error {fault : ReadFault} :
    ¬ PartsAmong (fun memory => (memory.moment layout origin).frames place = .error fault)
      layout origin place raw := by
  rintro ⟨⟨_, _, same1, _, told1⟩, ⟨second, same2, told2⟩, ⟨_, same3, told3⟩, ⟨_, same4, told4⟩,
    ⟨_, same5, told5⟩⟩
  rcases second.frames_eq_error_iff.mp same2 with ⟨halt, failed, isFault⟩
  have clash {α : Type} {torn : Query Nat ReadFault α} {still : Query Memory ReadFault α}
      (glimpse : Glimpse (.frozen second) torn still) {memory : Memory} {value : α}
      (same : (memory.moment layout origin).frames place = .error fault)
      (told : memory.told still = .ok value) (part : second.told still = .error halt) :
      False := by
    cases halt with
    | exceeded operation => exact glimpse.told_ne_ok part told
    | failed found =>
        obtain rfl : found = fault := isFault
        have bad : found.errno = ReadFault.badAddress :=
          congrArg ReadFault.errno (Memory.read_eq_error (unreadable_of_frame_failed failed))
        rcases glimpse.readable part told with ⟨bytes, read⟩
        cases read.symm.trans (unreadable_of_frames_error bad same)
  rcases part_of_frame_error failed with part | part | ⟨code, isCode, part⟩ | part | part
  · exact clash (glimpse_word _ place _) same1 told1 part
  · exact clash (glimpse_word _ place _) same2 told2 part
  · -- The code unit is the one in whose bytecode the offset was read.
    obtain rfl : code = raw.code := Except.ok.inj (isCode.symm.trans told2)
    exact clash (glimpse_instructionOffset _ layout origin place _) same3 told3 part
  · exact clash (glimpse_entryMark _ layout origin place) same4 told4 part
  · exact clash (glimpse_shimMark _ layout origin place) same5 told5 part

/-- A frame that is the same at all instants of its reads is read as it is. -/
theorem frame_of_answers {timeline : Timeline} {first last : Nat}
    {answer : Except ReadFault RawFrame}
    (answers : Answers ((timeline.structures layout origin).frame place) first last raw)
    (same : ∀ count, first ≤ count → count < last →
      ((timeline.seen count).moment layout origin).frames place = answer) :
    answer = .ok raw := by
  have parts : PartsAmong (fun memory => (memory.moment layout origin).frames place = answer)
      layout origin place raw := partsAmong_of_answers answers same
  cases answer with
  | ok found => rw [parts.eq_of_same]
  | error fault => exact absurd parts PartsAmong.not_error

end

end StackSampler
