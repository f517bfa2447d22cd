import Mathlib.Data.List.Infix
import Mathlib.Data.Prod.Lex
import StackSampler.Proofs.Stream.Encoding
import StackSampler.Stream.Writer

/-!
# What the writing thread writes

Senders, the owner and the writing thread take their steps in any order.  This module relates a run
to its history: the records in the order in which they were sent, and those among them that were
sent before the owner asked the thread to stop.

The main statement is `run_writes_sent`.  Where the output takes every write, a thread that has
ended has written the stream of the header and of a prefix of what was sent, which holds all that
was sent before the request to stop; and it does end in every schedule in which it gets its turns.
-/

namespace StackSampler.Stream

/-! ## Outputs that take every write -/

namespace Buffered

/-- The bytes given to the output, and those that it will be given, in order. -/
def contents (buffered : Buffered) : List UInt8 :=
  buffered.output.taken.toList ++ buffered.pending.toList

/-- The output of a buffer never refuses. -/
def Accepts (buffered : Buffered) : Prop :=
  buffered.output.limit = none

theorem flush_accepts {buffered : Buffered} (accepts : buffered.Accepts) :
    ∃ flushed, buffered.flush = (.ok (), flushed) ∧ flushed.Accepts ∧
      flushed.pending = #[] ∧ flushed.contents = buffered.contents := by
  rw [flush]
  split
  · rename_i empty
    have nothing : buffered.pending = #[] := Array.isEmpty_iff.mp empty
    exact ⟨buffered, rfl, accepts, nothing, rfl⟩
  · have room : buffered.output.hasRoomFor buffered.pending.toList.length = true := by
      rw [Output.hasRoomFor, accepts]
    rw [Output.write, if_pos room]
    exact ⟨_, rfl, accepts, rfl, by simp [contents]⟩

theorem put_accepts
    {buffered : Buffered} (accepts : buffered.Accepts) (piece : List UInt8)
    (inOrder : piece.length < capacity ∨ buffered.pending = #[]) :
    ∃ after, buffered.put piece = (.ok (), after) ∧ after.Accepts ∧
      after.contents = buffered.contents ++ piece := by
  rw [put]
  split
  · exact ⟨_, rfl, accepts, by simp [contents]⟩
  · rename_i large
    have nothing : buffered.pending = #[] := inOrder.resolve_left large
    have room : buffered.output.hasRoomFor piece.length = true := by
      rw [Output.hasRoomFor, accepts]
    rw [Output.write, if_pos room]
    exact ⟨_, rfl, accepts, by simp [contents, nothing]⟩

/-- A piece that fits behind what is pending is put there, or nothing is pending. -/
theorem lt_capacity_or_pending_eq_empty {buffered : Buffered} {piece : List UInt8}
    (fits : piece.length ≤ capacity - buffered.pending.size) :
    piece.length < capacity ∨ buffered.pending = #[] := by
  by_cases small : piece.length < capacity
  · exact .inl small
  · right
    apply Array.eq_empty_of_size_eq_zero
    have positive : 0 < capacity := by decide
    omega

theorem write_accepts
    {buffered : Buffered} (accepts : buffered.Accepts) (piece : List UInt8) :
    ∃ after, buffered.write piece = (.ok (), after) ∧ after.Accepts ∧
      after.contents = buffered.contents ++ piece := by
  rw [write]
  split
  · rename_i fits
    exact put_accepts accepts piece (lt_capacity_or_pending_eq_empty fits)
  · rcases flush_accepts accepts with ⟨flushed, ran, flushedAccepts, nothing, same⟩
    rw [ran, ← same]
    exact put_accepts flushedAccepts piece (.inr nothing)

theorem writeAll_accepts
    {buffered : Buffered} (accepts : buffered.Accepts) (pieces : List (List UInt8)) :
    ∃ after, buffered.writeAll pieces = (.ok (), after) ∧ after.Accepts ∧
      after.contents = buffered.contents ++ pieces.flatten := by
  induction pieces generalizing buffered with
  | nil => exact ⟨buffered, rfl, accepts, by simp⟩
  | cons piece rest induction =>
      rcases write_accepts accepts piece with ⟨middle, ran, middleAccepts, middleContents⟩
      rcases induction middleAccepts with ⟨after, restRan, afterAccepts, afterContents⟩
      refine ⟨after, ?_, afterAccepts, ?_⟩
      · rw [writeAll, ran]
        exact restRan
      · rw [afterContents, middleContents, List.flatten_cons, List.append_assoc]

end Buffered

/-! ## The history of a run -/

/-- The phases in which a thread waits for records, or takes a batch of them. -/
def WriterPhase.IsBusy : WriterPhase → Prop
  | .checking => True
  | .receiving => True
  | .batch _ => True
  | _ => False

/-- The phase after one more record was taken, if the thread may take one. -/
def WriterPhase.afterRecord : WriterPhase → Option WriterPhase
  | .receiving => some (.batch Writer.batchSize)
  | .batch (room + 1) => some (.batch room)
  | .draining (left + 1) => some (.draining left)
  | _ => none

/--
How far a thread that shall stop is from its end: a phase that it cannot come back to counts more
than all steps within one.
-/
def WriterPhase.rank : WriterPhase → Nat ×ₗ Nat
  | .opening => toLex (6, 0)
  | .receiving => toLex (5, 0)
  | .batch room => toLex (4, room)
  | .checking => toLex (3, 0)
  | .closing => toLex (2, 0)
  | .draining left => toLex (1, left)
  | .ended _ => toLex (0, 0)

namespace Writer

/-- The records sent in the course of some events, the first one first. -/
def sentIn : List Event → List Record
  | [] => []
  | .send record :: rest => record :: sentIn rest
  | .stop :: rest => sentIn rest
  | .work :: rest => sentIn rest

/-- The records sent before the owner first asked the thread to stop. -/
def sentBeforeStop : List Event → List Record
  | [] => []
  | .send record :: rest => record :: sentBeforeStop rest
  | .stop :: _ => []
  | .work :: rest => sentBeforeStop rest

/-- The thread has written the header and then some records, and counted the records. -/
structure Wrote (header : Header) (received : List Record) (writer : Writer) : Prop where
  sameHeader : writer.header = header
  accepts : writer.buffer.Accepts
  counted : writer.written = received.length
  encoder : writer.encoder = encoderAfter (.header header :: received)
  contents : writer.buffer.contents = streamOf (.header header :: received)

/--
Where a thread stands, given all that was sent to it and what of that is owed: sent before the
request to stop.
-/
inductive Stands (header : Header) (sent owed : List Record) (writer : Writer) : Prop where
  | opening
      (phase : writer.phase = .opening)
      (fresh : writer.buffer = {}) (first : writer.encoder = {}) (none : writer.written = 0)
      (same : writer.header = header) (waiting : writer.queue = sent)
  | busy (received : List Record)
      (phase : writer.phase.IsBusy) (wrote : Wrote header received writer)
      (waiting : received ++ writer.queue = sent)
  | closing (received : List Record)
      (phase : writer.phase = .closing) (wrote : Wrote header received writer)
      (waiting : received ++ writer.queue = sent) (asked : writer.stopping = true)
  | draining (received : List Record) (left : Nat)
      (phase : writer.phase = .draining left) (wrote : Wrote header received writer)
      (waiting : received ++ writer.queue = sent) (asked : writer.stopping = true)
      (covered : owed.length ≤ received.length + left)
  | ended (received : List Record)
      (phase : writer.phase = .ended (.ok received.length)) (wrote : Wrote header received writer)
      (taken : received <+: sent) (asked : writer.stopping = true)
      (covered : owed <+: received) (flushed : writer.buffer.pending = #[])

/-- The invariant of a run: where the thread stands, and what of the records sent is owed. -/
structure Follows (header : Header) (sent owed : List Record) (writer : Writer) : Prop where
  owedSent : owed <+: sent
  allOwed : writer.stopping = false → owed = sent
  stands : Stands header sent owed writer

variable {header : Header} {sent owed received : List Record} {writer : Writer}

theorem start_follows (header : Header) : (start header {}).Follows header [] [] where
  owedSent := List.prefix_rfl
  allOwed := fun _ => rfl
  stands := .opening rfl rfl rfl rfl rfl rfl

/-! ## Writing -/

/-- What was written does not depend on what waits or on what comes next. -/
theorem Wrote.moved
    (wrote : writer.Wrote header received) (queue : List Record) (stopping : Bool)
    (phase : WriterPhase) :
    { writer with queue := queue, stopping := stopping, phase := phase }.Wrote header received :=
  ⟨wrote.sameHeader, wrote.accepts, wrote.counted, wrote.encoder, wrote.contents⟩

/--
A step has left the queue alone and goes on with a phase, and by now the thread has written some
records.
-/
structure GoesOn (header : Header) (received : List Record) (phase : WriterPhase)
    (before after : Writer) : Prop where
  phase : after.phase = phase
  queue : after.queue = before.queue
  stopping : after.stopping = before.stopping
  wrote : after.Wrote header received

theorem writeRecord_goesOn
    (wrote : writer.Wrote header received) (record : Record) (phase : WriterPhase) :
    GoesOn header (received ++ [record]) phase writer (writer.writeRecord record phase) := by
  rcases Buffered.writeAll_accepts wrote.accepts
      ((writer.encoder.items record).1.flatMap Item.pieces) with
    ⟨buffer, ran, accepts, contents⟩
  rw [writeRecord]
  simp only [ran, proceed]
  refine ⟨rfl, rfl, rfl, wrote.sameHeader, accepts, ?_, ?_, ?_⟩
  · simp [wrote.counted]
  · rw [← List.cons_append, encoderAfter_concat, ← wrote.encoder]
  · rw [← List.cons_append, streamOf_concat, ← wrote.encoder, ← wrote.contents,
      ← flatten_flatMap_pieces]
    exact contents

theorem flush_goesOn
    (wrote : writer.Wrote header received) (phase : WriterPhase) :
    GoesOn header received phase writer (writer.flush phase) ∧
      (writer.flush phase).buffer.pending = #[] := by
  rcases Buffered.flush_accepts wrote.accepts with ⟨buffer, ran, accepts, nothing, contents⟩
  rw [flush, ran]
  exact ⟨⟨rfl, rfl, rfl, wrote.sameHeader, accepts, wrote.counted, wrote.encoder,
    contents.trans wrote.contents⟩, nothing⟩

theorem writeOpening_goesOn
    (fresh : writer.buffer = {}) (first : writer.encoder = {}) (none : writer.written = 0)
    (same : writer.header = header) :
    GoesOn header [] .checking writer writer.writeOpening := by
  have accepts : writer.buffer.Accepts := by rw [fresh]; rfl
  rcases Buffered.writeAll_accepts accepts
      (preamblePieces ++ (writer.encoder.items (.header writer.header)).1.flatMap Item.pieces) with
    ⟨buffer, ran, bufferAccepts, contents⟩
  rw [writeOpening]
  simp only [ran, proceed]
  rw [if_neg (by simp [hasEnded])]
  have opened : Wrote header []
      { writer with
        encoder := (writer.encoder.items (.header writer.header)).2
        buffer := buffer, phase := .opening } := by
    refine ⟨same, bufferAccepts, none, ?_, ?_⟩
    · rw [first, same]
      rfl
    · rw [contents, fresh, first, same, List.flatten_append, flatten_preamblePieces,
        flatten_flatMap_pieces]
      simp [Buffered.contents, streamOf, Encoder.encodeEach, Encoder.encode, Encoder.items]
  have flushed := (flush_goesOn opened .checking).1
  exact ⟨flushed.phase, flushed.queue, flushed.stopping, flushed.wrote⟩

/-- Taking a record from the queue and writing it. -/
theorem receive_goesOn
    (wrote : writer.Wrote header received) {record : Record} {rest : List Record}
    (queued : writer.queue = record :: rest) (waiting : received ++ writer.queue = sent)
    (phase : WriterPhase) :
    GoesOn header (received ++ [record]) phase { writer with queue := rest }
        ({ writer with queue := rest }.writeRecord record phase) ∧
      received ++ [record] ++ rest = sent := by
  constructor
  · exact writeRecord_goesOn (wrote.moved rest _ _) record phase
  · rw [List.append_assoc, List.singleton_append, ← queued, waiting]

/-! ## One event -/

theorem hasEnded_of_isBusy (busy : writer.phase.IsBusy) : writer.hasEnded = false := by
  rw [hasEnded]
  cases phase : writer.phase with
  | ended result =>
      rw [phase] at busy
      exact busy.elim
  | _ => rfl

theorem stands_of_hasEnded
    (stands : writer.Stands header sent owed) (finished : writer.hasEnded = true) :
    ∃ received, writer.phase = .ended (.ok received.length) ∧ writer.Wrote header received ∧
      received <+: sent ∧ owed <+: received ∧ writer.buffer.pending = #[] := by
  cases stands with
  | opening phase fresh first none same waiting => simp [hasEnded, phase] at finished
  | busy received phase wrote waiting => simp [hasEnded_of_isBusy phase] at finished
  | closing received phase wrote waiting asked => simp [hasEnded, phase] at finished
  | draining received left phase wrote waiting asked covered => simp [hasEnded, phase] at finished
  | ended received phase wrote taken asked covered flushed =>
      exact ⟨received, phase, wrote, taken, covered, flushed⟩

theorem stop_follows (follows : writer.Follows header sent owed) :
    writer.stop.Follows header sent owed where
  owedSent := follows.owedSent
  allOwed := fun running => by simp [stop] at running
  stands := by
    cases follows.stands with
    | opening phase fresh first none same waiting =>
        exact .opening phase fresh first none same waiting
    | busy received phase wrote waiting =>
        exact .busy received phase (wrote.moved _ _ _) waiting
    | closing received phase wrote waiting asked =>
        exact .closing received phase (wrote.moved _ _ _) waiting rfl
    | draining received left phase wrote waiting asked covered =>
        exact .draining received left phase (wrote.moved _ _ _) waiting rfl covered
    | ended received phase wrote taken asked covered flushed =>
        exact .ended received phase (wrote.moved _ _ _) taken rfl covered flushed

/-- A record sent later stands behind what was sent, wherever the thread stands. -/
theorem send_stands
    (stands : writer.Stands header sent owed) (record : Record) (more : List Record)
    (nothingMore : writer.stopping = true → more = []) :
    (writer.send record).Stands header (sent ++ [record]) (owed ++ more) := by
  rw [send, sendAll]
  cases stands with
  | opening phase fresh first none same waiting =>
      rw [if_neg (by simp [hasEnded, phase])]
      exact .opening phase fresh first none same (by rw [← waiting])
  | busy received phase wrote waiting =>
      rw [if_neg (by simp [hasEnded_of_isBusy phase])]
      exact .busy received phase (wrote.moved _ _ _) (by rw [← waiting, List.append_assoc])
  | closing received phase wrote waiting asked =>
      rw [if_neg (by simp [hasEnded, phase])]
      exact .closing received phase (wrote.moved _ _ _)
        (by rw [← waiting, List.append_assoc]) asked
  | draining received left phase wrote waiting asked covered =>
      rw [if_neg (by simp [hasEnded, phase]), nothingMore asked, List.append_nil]
      exact .draining received left phase (wrote.moved _ _ _)
        (by rw [← waiting, List.append_assoc]) asked covered
  | ended received phase wrote taken asked covered flushed =>
      rw [if_pos (by simp [hasEnded, phase]), nothingMore asked, List.append_nil]
      exact .ended received phase wrote (taken.trans (List.prefix_append _ _)) asked covered
        flushed

theorem send_stopping (writer : Writer) (record : Record) :
    (writer.send record).stopping = writer.stopping := by
  rw [send, sendAll]
  split <;> rfl

theorem send_follows (follows : writer.Follows header sent owed) (record : Record) :
    (writer.send record).Follows header (sent ++ [record])
      (owed ++ if writer.stopping then [] else [record]) where
  owedSent := by
    cases asked : writer.stopping with
    | false =>
        rw [follows.allOwed asked]
        exact List.prefix_rfl
    | true =>
        simpa using follows.owedSent.trans (List.prefix_append _ _)
  allOwed := by
    intro running
    rw [send_stopping] at running
    rw [follows.allOwed running, running]
    rfl
  stands := by
    apply send_stands follows.stands
    intro asked
    rw [asked]
    rfl

/-! ## What one step of the thread does -/

theorem work_checking (phase : writer.phase = .checking) :
    writer.work =
      { writer with phase := if writer.stopping then .closing else .receiving } := by
  simp only [work, phase]

/-- Where a record may be taken and one waits, the thread takes and writes it. -/
theorem work_takes
    {record : Record} {rest : List Record} {next : WriterPhase}
    (queued : writer.queue = record :: rest) (takes : writer.phase.afterRecord = some next) :
    writer.work = { writer with queue := rest }.writeRecord record next := by
  unfold WriterPhase.afterRecord at takes
  split at takes
  all_goals simp_all [work]

/-- A batch ends when its room is used up or nothing waits. -/
theorem work_batch_end
    {room : Nat} (phase : writer.phase = .batch room) (exhausted : room = 0 ∨ writer.queue = []) :
    writer.work = writer.flush .checking := by
  cases room with
  | zero => simp only [work, phase]
  | succ room => simp only [work, phase, exhausted.resolve_left (Nat.succ_ne_zero room)]

/-- The thread ends when it has taken what was to be taken or nothing waits. -/
theorem work_draining_end
    {left : Nat} (phase : writer.phase = .draining left)
    (exhausted : left = 0 ∨ writer.queue = []) :
    writer.work = writer.flush (.ended (.ok writer.written)) := by
  cases left with
  | zero => simp only [work, phase]
  | succ left => simp only [work, phase, exhausted.resolve_left (Nat.succ_ne_zero left)]

/-- A busy thread takes what waits first, or looks whether it shall stop. -/
theorem work_stands_of_isBusy
    (busy : writer.phase.IsBusy) (wrote : writer.Wrote header received)
    (waiting : received ++ writer.queue = sent) :
    writer.work.Stands header sent owed := by
  -- Both phases that take a record go on with a batch; they differ in the room left in it.
  have takes : ∀ record rest room, writer.queue = record :: rest →
      writer.phase.afterRecord = some (.batch room) → writer.work.Stands header sent owed := by
    intro record rest room queued next
    rcases receive_goesOn wrote queued waiting (.batch room) with ⟨written, shifted⟩
    rw [work_takes queued next]
    refine .busy _ ?_ written.wrote (by rw [written.queue, shifted])
    rw [written.phase]
    trivial
  cases phase : writer.phase with
  | checking =>
      rw [work_checking phase]
      cases asked : writer.stopping with
      | false => exact .busy received trivial (wrote.moved _ _ _) waiting
      | true => exact .closing received rfl (wrote.moved _ _ _) waiting rfl
  | receiving =>
      rcases queued : writer.queue with _ | ⟨record, rest⟩
      · have idle : writer.work = { writer with phase := .checking } := by
          simp only [work, phase, queued]
        rw [idle]
        exact .busy received trivial (wrote.moved _ _ _) waiting
      · exact takes record rest batchSize queued (by rw [phase]; rfl)
  | batch room =>
      by_cases exhausted : room = 0 ∨ writer.queue = []
      · rw [work_batch_end phase exhausted]
        have flushed := (flush_goesOn wrote .checking).1
        refine .busy received ?_ flushed.wrote (by rw [flushed.queue, waiting])
        rw [flushed.phase]
        trivial
      · rcases Nat.exists_eq_succ_of_ne_zero (not_or.mp exhausted).1 with ⟨room, rfl⟩
        rcases List.exists_cons_of_ne_nil (not_or.mp exhausted).2 with ⟨record, rest, queued⟩
        exact takes record rest room queued (by rw [phase]; rfl)
  | _ =>
      rw [phase] at busy
      exact busy.elim

/-- A thread that takes its last records ends when it has taken as many as were waiting. -/
theorem work_stands_of_draining
    {left : Nat} (owedSent : owed <+: sent)
    (phase : writer.phase = .draining left) (wrote : writer.Wrote header received)
    (waiting : received ++ writer.queue = sent) (asked : writer.stopping = true)
    (covered : owed.length ≤ received.length + left) :
    writer.work.Stands header sent owed := by
  by_cases exhausted : left = 0 ∨ writer.queue = []
  · have taken : received <+: sent := ⟨writer.queue, waiting⟩
    have enough : owed.length ≤ received.length := by
      rcases exhausted with rfl | empty
      · exact covered
      · rw [empty, List.append_nil] at waiting
        rw [waiting]
        exact owedSent.length_le
    rcases flush_goesOn wrote (.ended (.ok writer.written)) with ⟨next, flushed⟩
    rw [work_draining_end phase exhausted]
    rw [wrote.counted] at next flushed ⊢
    exact .ended received next.phase next.wrote taken (next.stopping.trans asked)
      (List.prefix_of_prefix_length_le owedSent taken enough) flushed
  · rcases Nat.exists_eq_succ_of_ne_zero (not_or.mp exhausted).1 with ⟨left, rfl⟩
    rcases List.exists_cons_of_ne_nil (not_or.mp exhausted).2 with ⟨record, rest, queued⟩
    rcases receive_goesOn wrote queued waiting (.draining left) with ⟨next, shifted⟩
    rw [work_takes queued (by rw [phase]; rfl)]
    refine .draining _ left next.phase next.wrote (by rw [next.queue, shifted])
      (next.stopping.trans asked) ?_
    rw [List.length_append, List.length_singleton]
    omega

/-- Whatever the thread does next keeps what was written and what is waiting in step. -/
theorem work_stands (follows : writer.Follows header sent owed) :
    writer.work.Stands header sent owed := by
  cases follows.stands with
  | opening phase fresh first none same waiting =>
      have next := writeOpening_goesOn fresh first none same
      rw [work, phase]
      refine .busy [] ?_ next.wrote (next.queue.trans waiting)
      rw [next.phase]
      trivial
  | busy received busy wrote waiting =>
      exact work_stands_of_isBusy busy wrote waiting
  | closing received phase wrote waiting asked =>
      rw [work, phase]
      refine .draining received writer.queue.length rfl (wrote.moved _ _ _) waiting asked ?_
      have bounded := follows.owedSent.length_le
      rwa [← waiting, List.length_append] at bounded
  | draining received left phase wrote waiting asked covered =>
      exact work_stands_of_draining follows.owedSent phase wrote waiting asked covered
  | ended received phase wrote taken asked covered flushed =>
      rw [work, phase]
      exact .ended received phase wrote taken asked covered flushed

theorem proceed_stopping
    (writer : Writer) (phase : WriterPhase) (outcome : Except WriteError Unit × Buffered) :
    (writer.proceed phase outcome).stopping = writer.stopping := by
  rcases outcome with ⟨_ | _, _⟩ <;> rfl

theorem work_stopping (writer : Writer) : writer.work.stopping = writer.stopping := by
  have opened : writer.writeOpening.stopping = writer.stopping := by
    rw [writeOpening]
    dsimp only
    split
    · exact proceed_stopping _ _ _
    · exact (proceed_stopping _ _ _).trans (proceed_stopping _ _ _)
  unfold work
  split
  · exact opened
  · rfl
  · split
    · rfl
    · exact proceed_stopping _ _ _
  · exact proceed_stopping _ _ _
  · split
    · exact proceed_stopping _ _ _
    · exact proceed_stopping _ _ _
  · rfl
  · exact proceed_stopping _ _ _
  · split
    · exact proceed_stopping _ _ _
    · exact proceed_stopping _ _ _
  · rfl

theorem work_follows (follows : writer.Follows header sent owed) :
    writer.work.Follows header sent owed where
  owedSent := follows.owedSent
  allOwed := fun running => follows.allOwed (by rwa [work_stopping] at running)
  stands := work_stands follows

/-! ## Runs -/

/-- A run keeps the invariant; what is sent after the request to stop is not owed. -/
theorem run_follows (follows : writer.Follows header sent owed) (events : List Event) :
    (writer.run events).Follows header (sent ++ sentIn events)
      (owed ++ if writer.stopping then [] else sentBeforeStop events) := by
  induction events generalizing writer sent owed with
  | nil => simpa [run, sentIn, sentBeforeStop] using follows
  | cons event rest induction =>
      cases event with
      | send record =>
          have next := induction (send_follows follows record)
          rw [send_stopping] at next
          cases asked : writer.stopping with
          | false => simpa [run, after, sentIn, sentBeforeStop, asked] using next
          | true => simpa [run, after, sentIn, sentBeforeStop, asked] using next
      | stop =>
          have next := induction (stop_follows follows)
          simpa [run, after, sentIn, sentBeforeStop, stop] using next
      | work =>
          have next := induction (work_follows follows)
          rw [work_stopping] at next
          exact next

/-! ## Reaching the end -/

theorem rank_ended_lt
    {phase : WriterPhase} (running : ∀ result, phase ≠ .ended result)
    (result : Except WriteError Nat) :
    (WriterPhase.ended result).rank < phase.rank := by
  cases phase with
  | ended result => exact absurd rfl (running result)
  | _ => simp [WriterPhase.rank, Prod.Lex.toLex_lt_toLex]

theorem rank_proceed_lt
    {phase next : WriterPhase} (running : ∀ result, phase ≠ .ended result)
    (below : next.rank < phase.rank) (writer : Writer)
    (outcome : Except WriteError Unit × Buffered) :
    (writer.proceed next outcome).phase.rank < phase.rank := by
  rcases outcome with ⟨error | done, buffer⟩
  · exact rank_ended_lt running (.error error)
  · exact below

theorem rank_writeOpening_lt (writer : Writer) :
    writer.writeOpening.phase.rank < WriterPhase.opening.rank := by
  rw [writeOpening]
  dsimp only
  generalize writer.buffer.writeAll _ = outcome
  rcases outcome with ⟨error | done, buffer⟩
  · exact rank_ended_lt (by simp) (.error error)
  · exact rank_proceed_lt (by simp) (by simp [WriterPhase.rank, Prod.Lex.toLex_lt_toLex]) _ _

/-- Every step brings a thread that shall stop nearer to its end. -/
theorem rank_work_lt (asked : writer.stopping = true) (running : writer.hasEnded = false) :
    writer.work.phase.rank < writer.phase.rank := by
  have takes : ∀ record rest next, writer.queue = record :: rest →
      writer.phase.afterRecord = some next → next.rank < writer.phase.rank →
      writer.work.phase.rank < writer.phase.rank := by
    intro record rest next queued allowed below
    have goesOn : ∀ result, writer.phase ≠ .ended result := by
      intro result isEnded
      simp [isEnded, WriterPhase.afterRecord] at allowed
    rw [work_takes queued allowed]
    exact rank_proceed_lt goesOn below _ _
  cases phase : writer.phase with
  | opening =>
      simp only [work, phase]
      exact rank_writeOpening_lt writer
  | checking =>
      rw [work_checking phase, if_pos asked]
      simp [WriterPhase.rank, Prod.Lex.toLex_lt_toLex]
  | receiving =>
      rcases queued : writer.queue with _ | ⟨record, rest⟩
      · simp [work, phase, queued, WriterPhase.rank, Prod.Lex.toLex_lt_toLex]
      · rw [← phase]
        exact takes record rest (.batch batchSize) queued (by rw [phase]; rfl)
          (by simp [phase, WriterPhase.rank, Prod.Lex.toLex_lt_toLex])
  | batch room =>
      by_cases exhausted : room = 0 ∨ writer.queue = []
      · rw [work_batch_end phase exhausted]
        exact rank_proceed_lt (by simp)
          (by simp [WriterPhase.rank, Prod.Lex.toLex_lt_toLex]) _ _
      · rcases Nat.exists_eq_succ_of_ne_zero (not_or.mp exhausted).1 with ⟨room, rfl⟩
        rcases List.exists_cons_of_ne_nil (not_or.mp exhausted).2 with ⟨record, rest, queued⟩
        rw [← phase]
        exact takes record rest (.batch room) queued (by rw [phase]; rfl)
          (by simp [phase, WriterPhase.rank, Prod.Lex.toLex_lt_toLex])
  | closing => simp [work, phase, WriterPhase.rank, Prod.Lex.toLex_lt_toLex]
  | draining left =>
      by_cases exhausted : left = 0 ∨ writer.queue = []
      · rw [work_draining_end phase exhausted]
        exact rank_proceed_lt (by simp)
          (by simp [WriterPhase.rank, Prod.Lex.toLex_lt_toLex]) _ _
      · rcases Nat.exists_eq_succ_of_ne_zero (not_or.mp exhausted).1 with ⟨left, rfl⟩
        rcases List.exists_cons_of_ne_nil (not_or.mp exhausted).2 with ⟨record, rest, queued⟩
        rw [← phase]
        exact takes record rest (.draining left) queued (by rw [phase]; rfl)
          (by simp [phase, WriterPhase.rank, Prod.Lex.toLex_lt_toLex])
  | ended result => simp [hasEnded, phase] at running

theorem send_phase (writer : Writer) (record : Record) :
    (writer.send record).phase = writer.phase := by
  rw [send, sendAll]
  split <;> rfl

/-- The state of a writer after so many events of an endless schedule. -/
def stateAt (writer : Writer) (schedule : Nat → Event) : Nat → Writer
  | 0 => writer
  | moment + 1 => (stateAt writer schedule moment).after (schedule moment)

theorem stateAt_eq_run (writer : Writer) (schedule : Nat → Event) (moment : Nat) :
    writer.stateAt schedule moment = writer.run ((List.range moment).map schedule) := by
  induction moment with
  | zero => rfl
  | succ moment induction =>
      rw [stateAt, induction, List.range_succ, List.map_append, run, run, List.foldl_append]
      rfl

/-- A request to stop is never taken back, and nothing moves the thread away from its end. -/
theorem after_nearer (asked : writer.stopping = true) (event : Event) :
    (writer.after event).stopping = true ∧
      (writer.after event).phase.rank ≤ writer.phase.rank := by
  cases event with
  | send record =>
      exact ⟨(send_stopping writer record).trans asked, by rw [after, send_phase]⟩
  | stop => exact ⟨rfl, le_refl _⟩
  | work =>
      refine ⟨(work_stopping writer).trans asked, ?_⟩
      cases finished : writer.hasEnded with
      | false => exact le_of_lt (rank_work_lt asked finished)
      | true =>
          have rests : writer.work = writer := by
            rw [hasEnded] at finished
            split at finished
            · rename_i phase
              simp only [work, phase]
            · simp at finished
          rw [after, rests]

theorem stateAt_nearer
    (schedule : Nat → Event) {moment : Nat}
    (asked : (writer.stateAt schedule moment).stopping = true) {later : Nat}
    (order : moment ≤ later) :
    (writer.stateAt schedule later).stopping = true ∧
      (writer.stateAt schedule later).phase.rank ≤
        (writer.stateAt schedule moment).phase.rank := by
  induction later, order using Nat.le_induction with
  | base => exact ⟨asked, le_refl _⟩
  | succ later order induction =>
      rcases after_nearer induction.1 (schedule later) with ⟨stillAsked, nearer⟩
      exact ⟨stillAsked, nearer.trans induction.2⟩

/-- Once it shall stop, a thread that gets its turns again and again ends. -/
theorem eventually_hasEnded
    (schedule : Nat → Event) (turns : ∀ moment, ∃ later ≥ moment, schedule later = .work)
    {moment : Nat} (asked : (writer.stateAt schedule moment).stopping = true) :
    ∃ later, (writer.stateAt schedule later).hasEnded = true := by
  induction distance : (writer.stateAt schedule moment).phase.rank
    using WellFoundedLT.induction generalizing moment with
  | ind bound induction =>
      rcases turns moment with ⟨turn, order, works⟩
      rcases stateAt_nearer schedule asked order with ⟨stillAsked, nearer⟩
      cases finished : (writer.stateAt schedule turn).hasEnded with
      | true => exact ⟨turn, finished⟩
      | false =>
          have stepped : (writer.stateAt schedule (turn + 1)) =
              (writer.stateAt schedule turn).work := by
            rw [stateAt, works, after]
          have closer : (writer.stateAt schedule (turn + 1)).phase.rank < bound := by
            rw [stepped, ← distance]
            exact (rank_work_lt stillAsked finished).trans_le nearer
          apply induction _ closer ?_ rfl
          rw [stepped, work_stopping, stillAsked]

/--
Whatever senders and owner do, a thread whose output takes every write and that has ended has
written the stream of the header and of a prefix of the records sent, which holds every record
sent before the first request to stop, and gives the number of records in it.  After a request to
stop it ends in every schedule that goes on giving it turns.
-/
theorem run_writes_sent (header : Header) :
    (∀ events, ((start header {}).run events).hasEnded = true →
      ∃ received, received <+: sentIn events ∧ sentBeforeStop events <+: received ∧
        ((start header {}).run events).bytes = streamOf (.header header :: received) ∧
        ((start header {}).run events).result = .ok received.length) ∧
    (∀ schedule : Nat → Event, (∀ moment, ∃ later ≥ moment, schedule later = .work) →
      (∃ moment, schedule moment = .stop) →
        ∃ count, ((start header {}).run ((List.range count).map schedule)).hasEnded = true) := by
  constructor
  · intro events finished
    have follows := run_follows (start_follows header) events
    rcases stands_of_hasEnded follows.stands finished with
      ⟨received, phase, wrote, taken, covered, flushed⟩
    refine ⟨received, taken, covered, ?_, ?_⟩
    · rw [← wrote.contents, Buffered.contents, flushed]
      simp [bytes]
    · rw [result, phase]
  · rintro schedule turns ⟨moment, stops⟩
    have asked : ((start header {}).stateAt schedule (moment + 1)).stopping = true := by
      rw [stateAt, stops]
      rfl
    rcases eventually_hasEnded schedule turns asked with ⟨later, finished⟩
    exact ⟨later, by rwa [stateAt_eq_run] at finished⟩

/-- A run in which one record is sent before the request to stop, and one after the last look. -/
def shortRun : List Event :=
  [.work, .send (.marker ⟨8, .stale⟩), .stop, .work, .work, .work, .send (.marker ⟨9, .stale⟩),
    .work]

theorem run_writes_sent_shortRun :
    ((start default {}).run shortRun).hasEnded = true ∧
      (∃ received, received <+: sentIn shortRun ∧ sentBeforeStop shortRun <+: received ∧
        ((start default {}).run shortRun).bytes = streamOf (.header default :: received) ∧
        ((start default {}).run shortRun).result = .ok received.length) ∧
      ∃ count, ((start default {}).run ((List.range count).map fun moment =>
        if moment = 0 then .stop else .work)).hasEnded = true := by
  have finished : ((start default {}).run shortRun).hasEnded = true := by decide +kernel
  refine ⟨finished, (run_writes_sent default).1 shortRun finished, ?_⟩
  apply (run_writes_sent default).2 fun moment => if moment = 0 then .stop else .work
  · intro moment
    exact ⟨moment + 1, Nat.le_succ moment, if_neg (Nat.succ_ne_zero moment)⟩
  · exact ⟨0, rfl⟩

end Writer

end StackSampler.Stream
