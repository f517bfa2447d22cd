import StackSampler.Proofs.Stream.Writing

/-!
# Outputs with a limit

An output may refuse a write that would take it past a limit.  A thread that writes to it goes along
with one whose output takes every write, until a write is refused; then it ends, and what its output
has taken is the beginning of what the other one goes on to write.

Each step of a thread does one thing to its buffer, whatever the buffer holds; `Does` says what that
can be.  So all that has to be known of the limit is what it makes of a single write.  The main
statement is `Writer.run_within_limit`: the limit suffices for a stream exactly if the stream is no
longer, however the records of the stream are taken from the queue.
-/

namespace StackSampler.Stream

/-! ## Buffers in front of a limit -/

namespace Output

variable {output : Output} {limit : Nat}

/-- The output with so many bytes more. -/
def taking (output : Output) (piece : List UInt8) : Output :=
  { output with taken := output.taken ++ piece }

/-- The same output, as long as it takes no more than so many bytes. -/
def within (limit : Nat) (output : Output) : Output :=
  { output with limit := some limit }

@[simp]
theorem taken_within : (output.within limit).taken = output.taken :=
  rfl

@[simp]
theorem toList_taken_taking (piece : List UInt8) :
    (output.taking piece).taken.toList = output.taken.toList ++ piece := by
  simp [taking]

@[simp]
theorem size_taken_taking (piece : List UInt8) :
    (output.taking piece).taken.size = output.taken.size + piece.length := by
  rw [← Array.length_toList, toList_taken_taking, List.length_append, Array.length_toList]

theorem write_of_unlimited (unlimited : output.limit = none) (piece : List UInt8) :
    output.write piece = .ok (output.taking piece) := by
  have room : output.hasRoomFor piece.length = true := by
    rw [hasRoomFor, unlimited]
  rw [write, if_pos room]
  rfl

/-- With a limit a piece is taken as it is without, or it would have gone past the limit. -/
theorem write_within (output : Output) (limit : Nat) (piece : List UInt8) :
    ((output.within limit).write piece = .ok ((output.taking piece).within limit) ∧
        (output.taking piece).taken.size ≤ limit) ∨
      ((output.within limit).write piece = .error .full ∧
        limit < (output.taking piece).taken.size) := by
  rw [size_taken_taking]
  by_cases room : output.taken.size + piece.length ≤ limit
  · exact .inl ⟨if_pos (decide_eq_true room), room⟩
  · exact .inr ⟨if_neg (ne_true_of_eq_false (decide_eq_false room)), Nat.lt_of_not_le room⟩

end Output

namespace Buffered

variable {limit : Nat} {buffered after stuck : Buffered}

/-- The same bytes before an output that takes no more than so many. -/
def within (limit : Nat) (buffered : Buffered) : Buffered :=
  { buffered with output := buffered.output.within limit }

/--
An output with a limit has refused a write.  It has taken the first of some bytes, which are too
many for it, and what is pending would be refused once more.
-/
structure Refused (limit : Nat) (bytes : List UInt8) (stuck : Buffered) : Prop where
  taken : stuck.output.taken.toList <+: bytes
  few : stuck.output.taken.size ≤ limit
  many : limit < bytes.length
  idle : stuck.flush.2 = stuck

theorem Refused.mono {bytes more : List UInt8} (refused : Refused limit bytes stuck)
    (longer : bytes <+: more) : Refused limit more stuck where
  taken := refused.taken.trans longer
  few := refused.few
  many := refused.many.trans_le longer.length_le
  idle := refused.idle

/-- What comes of a write without a limit, and what of the same write with one. -/
inductive Limits (limit : Nat) :
    Except WriteError Unit × Buffered → Except WriteError Unit × Buffered → Prop where
  | along {after : Buffered} (few : after.output.taken.size ≤ limit) :
      Limits limit (.ok (), after) (.ok (), after.within limit)
  | refused {after stuck : Buffered} (refused : Refused limit after.contents stuck) :
      Limits limit (.ok (), after) (.error .full, stuck)

theorem flush_of_pending_eq_empty (empty : buffered.pending = #[]) :
    buffered.flush = (.ok (), buffered) := by
  rw [flush, if_pos (Array.isEmpty_iff.mpr empty)]

theorem flush_of_pending_ne_empty (filled : buffered.pending ≠ #[]) :
    buffered.flush =
      match buffered.output.write buffered.pending.toList with
      | .ok output => (.ok (), ⟨output, #[]⟩)
      | .error error => (.error error, buffered) := by
  rw [flush]
  exact if_neg (mt Array.isEmpty_iff.mp filled)

theorem flush_limits (accepts : buffered.Accepts) (few : buffered.output.taken.size ≤ limit) :
    Limits limit buffered.flush (buffered.within limit).flush := by
  by_cases empty : buffered.pending = #[]
  · have emptyToo : (buffered.within limit).pending = #[] := empty
    rw [flush_of_pending_eq_empty empty, flush_of_pending_eq_empty emptyToo]
    exact .along few
  · have filled : (buffered.within limit).pending ≠ #[] := empty
    have bounded := flush_of_pending_ne_empty filled
    rw [flush_of_pending_ne_empty empty, Output.write_of_unlimited accepts]
    rcases Output.write_within buffered.output limit buffered.pending.toList with
      ⟨taken, room⟩ | ⟨refused, scarce⟩
    · have flushed : (buffered.within limit).flush =
          (.ok (), ⟨(buffered.output.taking buffered.pending.toList).within limit, #[]⟩) :=
        bounded.trans (by rw [within, taken])
      rw [flushed]
      exact @Limits.along limit ⟨_, #[]⟩ room
    · have stuck : (buffered.within limit).flush = (.error .full, buffered.within limit) :=
        bounded.trans (by rw [within, refused])
      rw [stuck]
      refine .refused ⟨?_, few, ?_, congrArg Prod.snd stuck⟩
      · simp [contents, within]
      · rw [contents]
        simpa using scarce

theorem put_limits (accepts : buffered.Accepts) (few : buffered.output.taken.size ≤ limit)
    {piece : List UInt8} (inOrder : piece.length < capacity ∨ buffered.pending = #[]) :
    Limits limit (buffered.put piece) ((buffered.within limit).put piece) := by
  rw [put, put]
  by_cases small : piece.length < capacity
  · rw [if_pos small, if_pos small]
    exact .along few
  · have empty : (buffered.within limit).pending = #[] := inOrder.resolve_left small
    rw [if_neg small, if_neg small, Output.write_of_unlimited accepts]
    rcases Output.write_within buffered.output limit piece with
      ⟨taken, room⟩ | ⟨refused, scarce⟩
    · have put : (buffered.within limit).output.write piece =
          .ok ((buffered.output.taking piece).within limit) := taken
      rw [put]
      exact @Limits.along limit ⟨_, buffered.pending⟩ room
    · have put : (buffered.within limit).output.write piece = .error .full := refused
      rw [put]
      refine .refused ⟨?_, few, ?_, congrArg Prod.snd (flush_of_pending_eq_empty empty)⟩
      · simp [contents, within]
      · have inOrder : buffered.pending = #[] := empty
        simpa [contents, inOrder] using scarce

/-! ## What can be done with a buffer -/

/-- Something that is done with a buffer, up to a first failure. -/
abbrev Use := Buffered → Except WriteError Unit × Buffered

/-- Two uses, one after the other. -/
def Use.andThen (first second : Use) : Use := fun buffered =>
  match first buffered with
  | (.ok (), middle) => second middle
  | (.error error, stuck) => (.error error, stuck)

/--
What a use makes of a buffer whose output takes every write: there is more in it, behind what there
was.  With a limit on the output the same comes of it, or a write is refused.
-/
structure Gives (use : Use) (buffered after : Buffered) : Prop where
  free : use buffered = (.ok (), after)
  accepts : after.Accepts
  grows : buffered.contents <+: after.contents
  limits : ∀ limit, buffered.output.taken.size ≤ limit →
    Limits limit (.ok (), after) (use (buffered.within limit))

theorem gives_nothing (accepts : buffered.Accepts) :
    Gives (fun buffered => (.ok (), buffered)) buffered buffered :=
  ⟨rfl, accepts, List.prefix_rfl, fun _ few => .along few⟩

theorem Gives.congr {use other : Use} (gives : Gives use buffered after)
    (same : other buffered = use buffered)
    (sameWithin : ∀ limit, other (buffered.within limit) = use (buffered.within limit)) :
    Gives other buffered after where
  free := same.trans gives.free
  accepts := gives.accepts
  grows := gives.grows
  limits limit few := sameWithin limit ▸ gives.limits limit few

/-- After a write that was refused nothing more is done, so it matters little what it would be. -/
theorem Gives.andThen {first second : Use} {middle : Buffered} (one : Gives first buffered middle)
    (other : Gives second middle after) : Gives (first.andThen second) buffered after where
  free := by
    rw [Use.andThen, one.free]
    exact other.free
  accepts := other.accepts
  grows := one.grows.trans other.grows
  limits limit few := by
    have limits := one.limits limit few
    rw [Use.andThen]
    generalize first (buffered.within limit) = outcome at limits
    cases limits with
    | along few => exact other.limits limit few
    | refused refused => exact .refused (refused.mono other.grows)

theorem flush_gives (accepts : buffered.Accepts) :
    ∃ after, Gives flush buffered after ∧ after.pending = #[] := by
  rcases flush_accepts accepts with ⟨after, ran, afterAccepts, nothing, same⟩
  exact ⟨after, ⟨ran, afterAccepts, same ▸ List.prefix_rfl,
    fun limit few => ran ▸ flush_limits accepts few⟩, nothing⟩

theorem put_gives (accepts : buffered.Accepts) {piece : List UInt8}
    (inOrder : piece.length < capacity ∨ buffered.pending = #[]) :
    ∃ after, Gives (put · piece) buffered after := by
  rcases put_accepts accepts piece inOrder with ⟨after, ran, afterAccepts, more⟩
  exact ⟨after, ran, afterAccepts, more ▸ List.prefix_append _ _,
    fun limit few => ran ▸ put_limits accepts few inOrder⟩

theorem write_gives (accepts : buffered.Accepts) (piece : List UInt8) :
    ∃ after, Gives (write · piece) buffered after := by
  by_cases fits : piece.length ≤ capacity - buffered.pending.size
  · rcases put_gives accepts (lt_capacity_or_pending_eq_empty fits) with ⟨after, gives⟩
    exact ⟨after, gives.congr (if_pos fits) fun limit => if_pos fits⟩
  · rcases flush_gives accepts with ⟨middle, flushed, nothing⟩
    have inOrder : piece.length < capacity ∨ middle.pending = #[] := .inr nothing
    rcases put_gives flushed.accepts inOrder with ⟨after, put⟩
    exact ⟨after, (flushed.andThen put).congr (if_neg fits) fun limit => if_neg fits⟩

theorem writeAll_gives (accepts : buffered.Accepts) (pieces : List (List UInt8)) :
    ∃ after, Gives (writeAll · pieces) buffered after := by
  induction pieces generalizing buffered with
  | nil => exact ⟨buffered, gives_nothing accepts⟩
  | cons piece rest induction =>
      rcases write_gives accepts piece with ⟨middle, one⟩
      rcases induction one.accepts with ⟨after, others⟩
      exact ⟨after, (one.andThen others).congr rfl fun limit => rfl⟩

end Buffered

/-! ## Threads in front of a limit -/

namespace Writer

variable {header : Header} {sent owed : List Record} {limit : Nat} {writer free bounded stuck : Writer}

/-- The same thread, before an output that takes no more than so many bytes. -/
def within (limit : Nat) (writer : Writer) : Writer :=
  { writer with buffer := writer.buffer.within limit }

/-- What a step of a thread does to its buffer, and how the thread goes on from there. -/
structure Does (writer moved : Writer) (next : WriterPhase) (use : Buffered.Use) : Prop where
  gives : ∀ buffered, buffered.Accepts → ∃ after, Buffered.Gives use buffered after
  work : ∀ buffer, { writer with buffer := buffer }.work = moved.proceed next (use buffer)

theorem does_nothing {moved : Writer} {next : WriterPhase}
    (work : ∀ buffer, { writer with buffer := buffer }.work =
      { moved with buffer := buffer, phase := next }) :
    Does writer moved next fun buffered => (.ok (), buffered) :=
  ⟨fun buffered accepts => ⟨buffered, Buffered.gives_nothing accepts⟩, work⟩

theorem does_flush {next : WriterPhase}
    (work : ∀ buffer, { writer with buffer := buffer }.work =
      { writer with buffer := buffer }.flush next) :
    Does writer writer next Buffered.flush where
  gives buffered accepts := by
    rcases Buffered.flush_gives accepts with ⟨after, gives, _⟩
    exact ⟨after, gives⟩
  work := work

/-- Where a record may be taken and one waits, its items are written. -/
theorem does_writeAll {record : Record} {rest : List Record} {next : WriterPhase}
    (queued : writer.queue = record :: rest) (takes : writer.phase.afterRecord = some next) :
    Does writer
      { writer with
        queue := rest
        encoder := (writer.encoder.items record).2
        written := writer.written + 1 }
      next (Buffered.writeAll · ((writer.encoder.items record).1.flatMap Item.pieces)) where
  gives _ accepts := Buffered.writeAll_gives accepts _
  work buffer := by
    have queuedToo : { writer with buffer := buffer }.queue = record :: rest := queued
    exact work_takes queuedToo takes

/-- What stands in front of the records is written and handed on at once. -/
theorem does_opening (phase : writer.phase = .opening) :
    Does writer { writer with encoder := (writer.encoder.items (.header writer.header)).2 } .checking
      (Buffered.Use.andThen
        (Buffered.writeAll ·
          (preamblePieces ++
            (writer.encoder.items (.header writer.header)).1.flatMap Item.pieces))
        Buffered.flush) where
  gives buffered accepts := by
    rcases Buffered.writeAll_gives accepts
        (preamblePieces ++ (writer.encoder.items (.header writer.header)).1.flatMap Item.pieces) with
      ⟨middle, written⟩
    rcases Buffered.flush_gives written.accepts with ⟨after, flushed, _⟩
    exact ⟨after, written.andThen flushed⟩
  work buffer := by
    simp only [work, phase, writeOpening, Buffered.Use.andThen]
    generalize buffer.writeAll _ = outcome
    rcases outcome with ⟨error | done, middle⟩
    · rfl
    · simp only [proceed, hasEnded, Bool.false_eq_true, if_false, flush]

/-- A step of a thread does one thing to its buffer, whatever there is in the buffer. -/
theorem exists_does (writer : Writer) : ∃ moved next use, Does writer moved next use := by
  have takes : ∀ next, writer.queue ≠ [] → writer.phase.afterRecord = some next →
      ∃ moved next use, Does writer moved next use := by
    intro next waits allowed
    rcases List.exists_cons_of_ne_nil waits with ⟨record, rest, queued⟩
    exact ⟨_, _, _, does_writeAll queued allowed⟩
  cases phase : writer.phase with
  | opening => exact ⟨_, _, _, does_opening phase⟩
  | checking =>
      refine ⟨writer, if writer.stopping then .closing else .receiving, _, does_nothing ?_⟩
      intro buffer
      have inPhase : { writer with buffer := buffer }.phase = .checking := phase
      exact work_checking inPhase
  | receiving =>
      by_cases idle : writer.queue = []
      · refine ⟨writer, .checking, _, does_nothing fun buffer => ?_⟩
        simp only [work, phase, idle]
      · exact takes _ idle (by rw [phase]; rfl)
  | batch room =>
      by_cases exhausted : room = 0 ∨ writer.queue = []
      · refine ⟨writer, .checking, _, does_flush fun buffer => ?_⟩
        have inPhase : { writer with buffer := buffer }.phase = .batch room := phase
        exact work_batch_end inPhase exhausted
      · rcases Nat.exists_eq_succ_of_ne_zero (not_or.mp exhausted).1 with ⟨room, rfl⟩
        exact takes _ (not_or.mp exhausted).2 (by rw [phase]; rfl)
  | closing =>
      refine ⟨writer, .draining writer.queue.length, _, does_nothing fun buffer => ?_⟩
      simp only [work, phase]
  | draining left =>
      by_cases exhausted : left = 0 ∨ writer.queue = []
      · refine ⟨writer, .ended (.ok writer.written), _, does_flush fun buffer => ?_⟩
        have inPhase : { writer with buffer := buffer }.phase = .draining left := phase
        exact work_draining_end inPhase exhausted
      · rcases Nat.exists_eq_succ_of_ne_zero (not_or.mp exhausted).1 with ⟨left, rfl⟩
        exact takes _ (not_or.mp exhausted).2 (by rw [phase]; rfl)
  | ended result =>
      refine ⟨writer, .ended result, _, does_nothing fun buffer => ?_⟩
      simp only [work, phase]

/-! ## Beside a thread without a limit -/

/--
Where a thread stands whose output has a limit, beside one that sees the same and whose output has
none.
-/
inductive Beside (limit : Nat) (free : Writer) : Writer → Prop where
  | along (few : free.buffer.output.taken.size ≤ limit) : Beside limit free (free.within limit)
  | refused {stuck : Writer} (phase : stuck.phase = .ended (.error .full))
      (refused : Buffered.Refused limit free.buffer.contents stuck.buffer) :
      Beside limit free stuck

theorem Beside.work (accepts : free.buffer.Accepts) (beside : Beside limit free bounded) :
    free.work.buffer.Accepts ∧ Beside limit free.work bounded.work := by
  rcases exists_does free with ⟨moved, next, use, does⟩
  rcases does.gives free.buffer accepts with ⟨after, gives⟩
  have worked : free.work = moved.proceed next (.ok (), after) :=
    (does.work free.buffer).trans (congrArg _ gives.free)
  rw [worked]
  refine ⟨gives.accepts, ?_⟩
  cases beside with
  | along few =>
      have limits := gives.limits limit few
      have alike : (free.within limit).work = moved.proceed next (use (free.buffer.within limit)) :=
        does.work (free.buffer.within limit)
      rw [alike]
      generalize use (free.buffer.within limit) = outcome at limits
      cases limits with
      | along few => exact .along few
      | refused refused => exact .refused rfl refused
  | refused phase refused =>
      have rests : bounded.work = bounded := by
        simp only [Writer.work, phase]
      rw [rests]
      exact .refused phase (refused.mono gives.grows)

theorem buffer_send (writer : Writer) (record : Record) :
    (writer.send record).buffer = writer.buffer := by
  rw [send, sendAll]
  split <;> rfl

theorem Beside.send (beside : Beside limit free bounded) (record : Record) :
    Beside limit (free.send record) (bounded.send record) := by
  cases beside with
  | along few =>
      have alike : (free.within limit).send record = (free.send record).within limit := by
        have ended : (free.within limit).hasEnded = free.hasEnded := rfl
        rw [Writer.send, Writer.send, sendAll, sendAll, ended]
        split <;> rfl
      rw [alike]
      exact .along (buffer_send free record ▸ few)
  | refused phase refused =>
      have rests : bounded.send record = bounded := if_pos (by rw [hasEnded, phase])
      rw [rests]
      exact .refused phase (buffer_send free record ▸ refused)

theorem Beside.stop (beside : Beside limit free bounded) :
    Beside limit free.stop bounded.stop := by
  cases beside with
  | along few => exact .along few
  | refused phase refused => exact .refused phase refused

theorem Beside.run (accepts : free.buffer.Accepts) (beside : Beside limit free bounded)
    (events : List Event) : Beside limit (free.run events) (bounded.run events) := by
  induction events generalizing free bounded with
  | nil => exact beside
  | cons event rest induction =>
      cases event with
      | send record => exact induction (buffer_send free record ▸ accepts) (beside.send record)
      | stop => exact induction accepts beside.stop
      | work =>
          rcases beside.work accepts with ⟨stillAccepts, still⟩
          exact induction stillAccepts still

/-! ## Whether a limit suffices -/

/-- What a thread has written is a part of the stream of what was sent, from its start. -/
theorem Stands.contents_prefix (stands : free.Stands header sent owed) :
    free.buffer.contents <+: streamOf (.header header :: sent) := by
  have wrote : ∀ received, free.Wrote header received → received <+: sent →
      free.buffer.contents <+: streamOf (.header header :: sent) := by
    rintro received wrote ⟨rest, rfl⟩
    rw [wrote.contents, ← List.cons_append, streamOf_append]
    exact List.prefix_append _ _
  cases stands with
  | opening phase fresh =>
      rw [fresh]
      exact List.nil_prefix
  | busy received phase hasWritten waiting => exact wrote received hasWritten ⟨_, waiting⟩
  | closing received phase hasWritten waiting => exact wrote received hasWritten ⟨_, waiting⟩
  | draining received left phase hasWritten waiting => exact wrote received hasWritten ⟨_, waiting⟩
  | ended received phase hasWritten taken => exact wrote received hasWritten taken

/-- How a thread has ended whose output takes no more than so many bytes. -/
inductive EndsWithin (limit : Nat) (header : Header) (sent owed : List Record) (writer : Writer) :
    Prop where
  | all (received : List Record) (result : writer.result = .ok received.length)
      (taken : received <+: sent) (covered : owed <+: received)
      (bytes : writer.bytes = streamOf (.header header :: received))
      (few : writer.bytes.length ≤ limit) (idle : writer.buffer.flush.2 = writer.buffer)
  | refused (result : writer.result = .error .full)
      (refused : Buffered.Refused limit (streamOf (.header header :: sent)) writer.buffer)

/--
A thread that has ended has written all that it received, in which case this is no more than the
limit allows, or was refused a write, in which case all that was sent is more than that.
-/
theorem run_endsWithin (header : Header) (limit : Nat) (events : List Event)
    (finished : ((start header { limit := some limit }).run events).hasEnded = true) :
    ((start header { limit := some limit }).run events).EndsWithin limit header (sentIn events)
      (sentBeforeStop events) := by
  have accepts : (start header {}).buffer.Accepts := rfl
  have begun : Beside limit (start header {}) (start header { limit := some limit }) :=
    .along (Nat.zero_le limit)
  have stands := (run_follows (start_follows header) events).stands
  have beside := begun.run accepts events
  generalize (start header { limit := some limit }).run events = writer at beside finished ⊢
  cases beside with
  | along few =>
      rcases stands_of_hasEnded stands finished with
        ⟨received, phase, wrote, taken, covered, flushed⟩
      have written : ((start header {}).run events).bytes =
          streamOf (.header header :: received) := by
        rw [← wrote.contents, Buffered.contents, flushed]
        exact (List.append_nil _).symm
      refine .all received ?_ taken covered written few ?_
      · rw [result, within, phase]
      · have nothing : (within limit ((start header {}).run events)).buffer.pending = #[] := flushed
        rw [Buffered.flush_of_pending_eq_empty nothing]
  | refused phase refused =>
      refine .refused ?_ (refused.mono stands.contents_prefix)
      rw [result, phase]

/--
However the records that were sent before the request to stop were taken from the queue, a thread
that has ended gives their number exactly if its output allows for all bytes of their stream, and
these are then what the output has taken.  If it does not, the thread gives the failure, and the
output has taken a proper prefix of the stream; nothing is left that it would still take.  After a
request to stop the thread ends in every schedule that goes on giving it turns.
-/
theorem run_within_limit (header : Header) (limit : Nat) :
    (∀ events, sentIn events = sentBeforeStop events →
      ((start header { limit := some limit }).run events).hasEnded = true →
        let writer := (start header { limit := some limit }).run events
        let stream := streamOf (.header header :: sentIn events)
        (writer.result = .ok (sentIn events).length ↔ stream.length ≤ limit) ∧
          (stream.length ≤ limit → writer.bytes = stream) ∧
          (limit < stream.length →
            writer.result = .error .full ∧ writer.bytes <+: stream ∧ writer.bytes ≠ stream) ∧
          writer.buffer.flush.2 = writer.buffer) ∧
    (∀ schedule : Nat → Event, (∀ moment, ∃ later ≥ moment, schedule later = .work) →
      (∃ moment, schedule moment = .stop) →
        ∃ count, ((start header { limit := some limit }).run
          ((List.range count).map schedule)).hasEnded = true) := by
  constructor
  · intro events inTime finished writer stream
    cases run_endsWithin header limit events finished with
    | all received result taken covered bytes few idle =>
        have all : received = sentIn events :=
          taken.eq_of_length (taken.length_le.antisymm (inTime ▸ covered.length_le))
        subst all
        have fits : stream.length ≤ limit := (congrArg List.length bytes).ge.trans few
        exact ⟨iff_of_true result fits, fun _ => bytes,
          fun many => absurd fits (Nat.not_le_of_lt many), idle⟩
    | refused result refused =>
        have many : ¬ stream.length ≤ limit := Nat.not_le_of_lt refused.many
        have fails : writer.result ≠ .ok (sentIn events).length := by
          rw [result]
          exact nofun
        refine ⟨iff_of_false fails many, fun fits => absurd fits many,
          fun _ => ⟨result, refused.taken, ?_⟩, refused.idle⟩
        intro same
        have few : stream.length ≤ limit := same ▸ refused.few
        exact many few
  · rintro schedule turns ⟨moment, stops⟩
    have asked : ((start header { limit := some limit }).stateAt schedule (moment + 1)).stopping =
        true := by
      rw [stateAt, stops]
      rfl
    rcases eventually_hasEnded schedule turns asked with ⟨later, finished⟩
    exact ⟨later, by rwa [stateAt_eq_run] at finished⟩

/-- A run in which two records are sent, and taken one by one, before the request to stop. -/
def pairedRun : List Event :=
  [.work, .send (.marker ⟨8, .stale⟩), .work, .work, .work, .send (.marker ⟨9, .stale⟩), .stop,
    .work, .work, .work, .work, .work]

/-- The stream of that run has 54 bytes. -/
theorem run_within_limit_pairedRun :
    sentIn pairedRun = sentBeforeStop pairedRun ∧
      ((start default { limit := some 54 }).run pairedRun).hasEnded = true ∧
      ((start default { limit := some 54 }).run pairedRun).result = .ok 2 ∧
      ((start default { limit := some 54 }).run pairedRun).bytes =
        streamOf (.header default :: sentIn pairedRun) ∧
      ((start default { limit := some 53 }).run pairedRun).hasEnded = true ∧
      ((start default { limit := some 53 }).run pairedRun).result = .error .full ∧
      ((start default { limit := some 53 }).run pairedRun).bytes <+:
        streamOf (.header default :: sentIn pairedRun) ∧
      ∃ count, ((start default { limit := some 53 }).run ((List.range count).map fun moment =>
        if moment = 0 then .stop else .work)).hasEnded = true := by
  have inTime : sentIn pairedRun = sentBeforeStop pairedRun := rfl
  have length : (streamOf (.header default :: sentIn pairedRun)).length = 54 := by decide +kernel
  have enough : ((start default { limit := some 54 }).run pairedRun).hasEnded = true := by
    decide +kernel
  have scarce : ((start default { limit := some 53 }).run pairedRun).hasEnded = true := by
    decide +kernel
  rcases (run_within_limit default 54).1 pairedRun inTime enough with ⟨suffices_, all, _⟩
  rcases (run_within_limit default 53).1 pairedRun inTime scarce with ⟨_, _, refused, _⟩
  rcases refused (by rw [length]; decide) with ⟨failed, taken, _⟩
  refine ⟨inTime, enough, suffices_.mpr length.le, all length.le, scarce, failed, taken, ?_⟩
  apply (run_within_limit default 53).2 fun moment => if moment = 0 then .stop else .work
  · intro moment
    exact ⟨moment + 1, Nat.le_succ moment, if_neg (Nat.succ_ne_zero moment)⟩
  · exact ⟨0, rfl⟩

end Writer

end StackSampler.Stream
