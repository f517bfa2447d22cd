import Mathlib.Data.List.Infix
import Mathlib.Data.Nat.Find
import Mathlib.Tactic.IntervalCases
import StackSampler.Proofs.Stream.RoundTrip

/-!
# Streams that were cut off

A stream may end anywhere, because the process that wrote it has died.  Reading is steady: what a
step takes and finds does not depend on the bytes behind it, and a step that needs more bytes than
there are comes to the end of the stream.  So a reader finds all that stands whole in front of the
cut, and stops inside the item that was cut, if there is one.

The main statement is `start_cut_and_decodesCut`, for every stream of storable records and every
place of the cut.
-/

namespace StackSampler.Stream

namespace Reading

/-! ## Steady steps -/

/--
What a step does with some bytes it also does with these and more behind them, unless it comes to
their end.
-/
def Steady {α : Type} (step : Reading (List UInt8) α) : Prop :=
  ∀ (known : Definitions) (input : List UInt8),
    (∃ after, step (known.reader input) = (.error .unexpectedEnd, after)) ∨
    ∃ result after rest, ∀ more,
      step (known.reader (input ++ more)) = (result, Definitions.reader after (rest ++ more))

section

variable {α β : Type} {step : Reading (List UInt8) α} {next : α → Reading (List UInt8) β}

theorem steady_pure (value : α) : Steady (pure value) :=
  fun known input => .inr ⟨.ok value, known, input, fun _ => rfl⟩

theorem steady_refuse (cause : Malformed) : Steady (refuse cause : Reading (List UInt8) α) :=
  fun known input => .inr ⟨.error (.malformed cause), known, input, fun _ => rfl⟩

theorem steady_orRefuse (cause : Malformed) (value? : Option α) :
    Steady (orRefuse cause value? : Reading (List UInt8) α) := by
  cases value? with
  | none => exact steady_refuse cause
  | some value => exact steady_pure value

/-- A change of the definitions takes no bytes. -/
theorem steady_define (change : Definitions → Definitions) :
    Steady (modify fun reader =>
      (change ⟨reader.texts, reader.frames⟩).reader reader.source) :=
  fun known input => .inr ⟨.ok (), change known, input, fun _ => rfl⟩

theorem Steady.bind (steady : Steady step) (following : ∀ value, Steady (next value)) :
    Steady (step >>= next) := by
  intro known input
  rcases steady known input with ⟨after, ended⟩ | ⟨result, middle, rest, ran⟩
  · exact .inl ⟨after, bind_of_error ended⟩
  cases result with
  | error error =>
      exact .inr ⟨.error error, middle, rest, fun more => bind_of_error (ran more)⟩
  | ok value =>
      rcases following value middle rest with ⟨after, ended⟩ | ⟨result, after, left, goesOn⟩
      · left
        have here := ran []
        simp only [List.append_nil] at here
        exact ⟨after, (bind_of_ok here).trans ended⟩
      · exact .inr ⟨result, after, left, fun more => (bind_of_ok (ran more)).trans (goesOn more)⟩

theorem Steady.map (steady : Steady step) (change : α → β) : Steady (change <$> step) := by
  rw [← bind_pure_comp]
  exact steady.bind fun value => steady_pure (change value)

/-- A step that takes all of some bytes comes to the end of them if the last ones are missing. -/
theorem Steady.cut
    (steady : Steady step) {known after : Definitions} {part more : List UInt8}
    {result : Except StreamError α} (missing : more ≠ [])
    (whole : step (known.reader (part ++ more)) = (result, after.reader [])) :
    ∃ after, step (known.reader part) = (.error .unexpectedEnd, after) := by
  rcases steady known part with ended | ⟨_, other, rest, ran⟩
  · exact ended
  · have sources : rest ++ more = [] :=
      congrArg (fun found => found.2.source) ((ran more).symm.trans whole)
    exact absurd (List.append_eq_nil_iff.mp sources).2 missing

end

/-! ## Reading is steady -/

theorem steady_bytes (count : Nat) : Steady (bytes .memory count) := by
  intro known input
  by_cases enough : count ≤ input.length
  · right
    refine ⟨.ok (input.take count), known, input.drop count, fun more => ?_⟩
    have length := List.length_take_of_le enough
    have taken := bytes_append known (input.drop count ++ more) (input.take count) length
    rwa [← List.append_assoc, List.take_append_drop] at taken
  · left
    refine ⟨known.reader [], ?_⟩
    have short : (input.take count).length ≠ count := by
      rw [List.length_take]
      omega
    simp only [bytes, Source.memory, Definitions.reader, if_neg short]

theorem steady_byte : Steady (byte .memory) :=
  (steady_bytes 1).bind fun _ => steady_pure _

theorem steady_half : Steady (half .memory) :=
  (steady_bytes 4).map _

theorem steady_word : Steady (word .memory) :=
  (steady_bytes 8).map _

theorem steady_text (number : UInt32) : Steady (text number) := by
  intro known input
  exact steady_orRefuse (.undefinedText number) known.texts[number]? known input

theorem steady_frame (number : UInt32) : Steady (frame number) := by
  intro known input
  exact steady_orRefuse (.undefinedFrame number) known.frames[number]? known input

theorem steady_header : Steady (header .memory) :=
  steady_byte.bind fun _ => (steady_orRefuse _ _).bind fun _ => steady_word.bind fun _ =>
    steady_half.bind fun _ => steady_word.bind fun _ => steady_pure _

theorem steady_textDefinition : Steady (textDefinition .memory) :=
  steady_half.bind fun number => steady_half.bind fun length =>
    (steady_bytes length.toNat).bind fun _ => (steady_orRefuse _ _).bind fun value =>
      steady_define fun known => { known with texts := known.texts.insert number value }

theorem steady_frameDefinition : Steady (frameDefinition .memory) :=
  steady_half.bind fun number => steady_half.bind fun _ => steady_half.bind fun _ =>
    (steady_text _).bind fun name => (steady_text _).bind fun file => steady_half.bind fun line =>
      steady_byte.bind fun _ => (steady_orRefuse _ _).bind fun kind =>
        steady_define fun known =>
          { known with frames := known.frames.insert number ⟨name, file, line, kind⟩ }

theorem steady_threadName : Steady (threadName .memory) :=
  steady_word.bind fun _ => steady_half.bind fun _ => (steady_text _).bind fun _ => steady_pure _

theorem steady_metric : Steady (metric .memory) := by
  refine steady_byte.bind fun tag => ?_
  have one (build : UInt64 → Metric) : Steady (do pure (build (← word .memory))) :=
    steady_word.bind fun _ => steady_pure _
  have two (build : UInt64 → UInt64 → Metric) :
      Steady (do
        let address ← word .memory
        pure (build address (← word .memory))) :=
    steady_word.bind fun _ => steady_word.bind fun _ => steady_pure _
  split
  · exact one .wallTime
  split
  · exact one .cpuTime
  split
  · exact two .allocation
  split
  · exact two .free
  · exact steady_refuse _

theorem steady_frames (count : Nat) : Steady (frames .memory count) := by
  induction count with
  | zero => exact steady_pure []
  | succ count induction =>
      exact steady_half.bind fun number => (steady_frame number).bind fun _ =>
        induction.bind fun _ => steady_pure _

theorem steady_sample : Steady (sample .memory) := by
  refine steady_word.bind fun thread => steady_byte.bind fun mark => ?_
  have behindTask (task : Option TaskId) :
      Steady (do
        let metric ← metric .memory
        let count ← half .memory
        let frames ← frames .memory count.toNat
        pure (Record.sample ⟨thread, task, metric, frames⟩)) :=
    steady_metric.bind fun _ => steady_half.bind fun count =>
      (steady_frames count.toNat).bind fun _ => steady_pure _
  split
  · exact (steady_pure none).bind behindTask
  · exact (steady_word.map some).bind behindTask

theorem steady_marker : Steady (marker .memory) :=
  steady_word.bind fun _ => steady_byte.bind fun _ => steady_pure _

theorem steady_item (code : UInt8) : Steady (item .memory code) := by
  unfold item
  split
  · exact steady_header.map some
  split
  · exact steady_textDefinition.bind fun _ => steady_pure none
  split
  · exact steady_frameDefinition.bind fun _ => steady_pure none
  split
  · exact steady_threadName.map some
  split
  · exact steady_sample.map some
  split
  · exact steady_marker.map some
  · exact steady_refuse _

/-- A search for a record comes to the end of the bytes inside an item that was cut. -/
theorem recordWithin_cut
    {known after : Definitions} {entry : Item} {record? : Option Record} {part more : List UInt8}
    (laidOut : entry.LaidOut (part ++ more)) (started : part ≠ []) (missing : more ≠ [])
    (denotes : entry.denote known = some (record?, after)) (room : Nat) :
    ∃ last, recordWithin .memory (room + 1) (known.reader part) =
      (.error .unexpectedEnd, last) := by
  rcases item_of_denote laidOut denotes [] with ⟨code, body, split, ran⟩
  rcases List.exists_cons_of_ne_nil started with ⟨first, others, rfl⟩
  rw [List.cons_append, List.cons.injEq] at split
  rcases split with ⟨rfl, rfl⟩
  rw [List.append_nil] at ran
  rcases (steady_item first).cut missing ran with ⟨last, ended⟩
  have begun : nextByte .memory (known.reader (first :: others)) =
      (.ok (some first), known.reader others) := rfl
  refine ⟨last, ?_⟩
  rw [recordWithin, bind_of_ok begun]
  exact bind_of_error ended

end Reading

/-! ## What calls of a reader give -/

/-- Unless bytes are malformed, the calls of a reader give the records and then the error, if any. -/
theorem outcomesWithin_of_recordsWithin
    (resume : Bool) {fuel : Nat} {reader : Reader (List UInt8)} {records : List Record}
    {ending : Option StreamError}
    (ran : Reader.recordsWithin .memory fuel reader = (records, ending))
    (wellFormed : ∀ cause, ending ≠ some (.malformed cause)) :
    Reader.outcomesWithin .memory resume fuel reader =
      records.map .ok ++ ending.toList.map .error := by
  induction fuel generalizing reader records with
  | zero =>
      cases ran
      rfl
  | succ fuel induction =>
      rw [Reader.recordsWithin] at ran
      rw [Reader.outcomesWithin]
      rcases found : reader.nextWithin .memory (fuel + 1) with ⟨error | _ | record, after⟩
      · rw [found] at ran
        cases ran
        cases error with
        | malformed cause => exact absurd rfl (wellFormed cause)
        | unexpectedEnd => rfl
        | device => rfl
      · rw [found] at ran
        cases ran
        rfl
      · rcases others : Reader.recordsWithin .memory fuel after with ⟨late, last⟩
        simp only [found, others, Prod.mk.injEq] at ran
        rcases ran with ⟨rfl, rfl⟩
        simp only [induction others, List.map_cons, List.cons_append]

/--
Some items laid out behind the preamble, and then part of one item more, or nothing: the calls of a
reader give the records that the items denote, and the end of the stream as it is.
-/
theorem outcomes_of_laidOut
    (resume : Bool) {after : Definitions} {items : List Item} {chunks : List (List UInt8)}
    {records : List Record} (rest : List UInt8) (ending : Option StreamError)
    (laidOut : List.Forall₂ Item.LaidOut items chunks)
    (denotes : denoteAll {} items = some (records, after))
    (wellFormed : ∀ cause, ending ≠ some (.malformed cause))
    (behind : ∀ room fuel, rest.length < room → rest.length ≤ fuel →
      recordsAfter fuel (Reading.recordWithin .memory room (after.reader rest)) = ([], ending)) :
    Reader.outcomes .memory resume (preamble ++ (chunks.flatten ++ rest)) =
      .ok (records.map .ok ++ ending.toList.map .error) := by
  have found := recordsAfter_of_denoteAll laidOut denotes behind
    ((chunks.flatten ++ rest).length + 1) (chunks.flatten ++ rest).length
    (Nat.lt_succ_self _) (Nat.le_refl _)
  rw [← recordsWithin_succ, List.append_nil] at found
  rw [Reader.outcomes, start_preamble]
  exact congrArg Except.ok (outcomesWithin_of_recordsWithin resume found wellFormed)

/-! ## Where a stream is cut -/

/-- Whether a place in the stream of some records is between two items, or at an end of them. -/
def IsBoundary (records : List Record) (place : Nat) : Prop :=
  ∃ front, front <+: ({} : Encoder).itemsEach records ∧
    (preamble ++ front.flatMap Item.bytes).length = place

/-- A place inside an item is no boundary. -/
theorem not_isBoundary_inside
    {records : List Record} {front : List Item} {entry : Item} {place : Nat}
    (items : front ++ [entry] <+: ({} : Encoder).itemsEach records)
    (behind : (preamble ++ front.flatMap Item.bytes).length < place)
    (before : place < (preamble ++ front.flatMap Item.bytes).length + entry.bytes.length) :
    ¬ IsBoundary records place := by
  rintro ⟨other, ⟨others, split⟩, rfl⟩
  rcases items with ⟨back, items⟩
  rw [← items, List.append_assoc, List.singleton_append] at split
  simp only [List.length_append] at behind before
  rcases List.append_eq_append_iff.mp split with
    ⟨between, rfl, _⟩ | ⟨between, rfl, following⟩
  · rw [List.flatMap_append, List.length_append] at behind
    omega
  · cases between with
    | nil => simp at behind
    | cons next between =>
        rw [List.cons_append, List.cons.injEq] at following
        rcases following with ⟨rfl, _⟩
        simp only [List.flatMap_append, List.flatMap_cons, List.length_append] at before
        omega

/-- A cut through the bytes of items goes through one of them, or leaves all of them whole. -/
theorem exists_split_at (items : List Item) {place : Nat}
    (inside : place < (items.flatMap Item.bytes).length) :
    ∃ front entry back part more, items = front ++ entry :: back ∧
      entry.bytes = part ++ more ∧ more ≠ [] ∧
      (items.flatMap Item.bytes).take place = front.flatMap Item.bytes ++ part := by
  induction items generalizing place with
  | nil => simp at inside
  | cons first items induction =>
      rw [List.flatMap_cons, List.length_append] at inside
      rw [List.flatMap_cons]
      by_cases here : place < first.bytes.length
      · refine ⟨[], first, items, first.bytes.take place, first.bytes.drop place, rfl,
          (List.take_append_drop _ _).symm, ?_, ?_⟩
        · rw [Ne, List.drop_eq_nil_iff]
          omega
        · rw [List.take_append_of_le_length (Nat.le_of_lt here)]
          rfl
      · obtain ⟨further, rfl⟩ : ∃ further, place = first.bytes.length + further :=
          ⟨place - first.bytes.length, by omega⟩
        rcases induction (Nat.lt_of_add_lt_add_left inside) with
          ⟨front, entry, back, part, more, rfl, split, missing, taken⟩
        refine ⟨first :: front, entry, back, part, more, rfl, split, missing, ?_⟩
        rw [List.take_length_add_append, taken, List.flatMap_cons, List.append_assoc]

theorem length_streamOf_take_le (records : List Record) {first last : Nat} (order : first ≤ last) :
    (streamOf (records.take first)).length ≤ (streamOf (records.take last)).length := by
  rcases List.take_prefix_take_left order with ⟨between, appended⟩
  rw [← appended, streamOf_append, List.length_append]
  omega

/-- The records that stand whole in front of a cut are the first ones, up to some number. -/
theorem exists_count (records : List Record) {place : Nat} (opened : preamble.length ≤ place) :
    ∃ count ≤ records.length, (streamOf (records.take count)).length ≤ place ∧
      (count < records.length → place < (streamOf (records.take (count + 1))).length) := by
  let Fits (count : Nat) : Prop := (streamOf (records.take count)).length ≤ place
  have first : Fits 0 := opened
  refine ⟨Nat.findGreatest Fits records.length, Nat.findGreatest_le _,
    Nat.findGreatest_spec (Nat.zero_le _) first, fun more => Nat.lt_of_not_le ?_⟩
  exact Nat.findGreatest_is_greatest (P := Fits) (Nat.lt_succ_self _) more

/-! ## Items of one record -/

/-- An item that is no definition stands for a record. -/
theorem Item.denote_isSome
    {known after : Definitions} {entry : Item} {record? : Option Record}
    (own : entry.isDefinition = false) (denotes : entry.denote known = some (record?, after)) :
    record?.isSome := by
  cases entry with
  | text number value => cases own
  | frame number name file line kind => cases own
  | header start =>
      cases denotes
      rfl
  | marker thread reason =>
      cases denotes
      rfl
  | threadName thread number =>
      simp only [Item.denote, Option.bind_eq_bind, Option.bind_eq_some_iff, Option.some.injEq,
        Prod.mk.injEq] at denotes
      rcases denotes with ⟨_, _, rfl, _⟩
      rfl
  | sample thread task metric numbers =>
      simp only [Item.denote, Option.bind_eq_bind, Option.bind_eq_some_iff, Option.some.injEq,
        Prod.mk.injEq] at denotes
      rcases denotes with ⟨_, _, rfl, _⟩
      rfl

/-- All items of a record but the last one stand for nothing themselves. -/
theorem denoteAll_definitions
    {encoder later : Encoder} {record shown : Record} {front back : List Item}
    {known after : Definitions} (ran : encoder.items record = (front ++ back, later))
    (unread : back ≠ []) (denotes : denoteAll known (front ++ back) = some ([shown], after)) :
    ∃ middle late, denoteAll known front = some ([], middle) ∧
      denoteAll middle back = some (late, after) := by
  rcases exists_of_denoteAll_append denotes with
    ⟨early, middle, late, frontDenotes, backDenotes, split⟩
  rcases List.eq_nil_or_concat back with rfl | ⟨others, last, rfl⟩
  · exact absurd rfl unread
  rcases encoder.items_eq_concat record with ⟨definitions, own, ends, isOwn⟩
  rw [ran, List.concat_eq_append, ← List.append_assoc] at ends
  have same : last = own := List.singleton_inj.mp (List.append_inj_right' ends rfl)
  subst own
  rcases exists_of_denoteAll_append (List.concat_eq_append ▸ backDenotes) with
    ⟨_, between, ownLate, _, ownDenotes, rfl⟩
  simp only [denoteAll, Option.bind_eq_bind, Option.bind_eq_some_iff, Prod.exists,
    Option.some.injEq, Prod.mk.injEq] at ownDenotes
  rcases ownDenotes with ⟨record?, _, lastDenotes, others, _, ⟨rfl, rfl⟩, rfl, rfl⟩
  rcases Option.isSome_iff_exists.mp (Item.denote_isSome isOwn lastDenotes) with ⟨found, rfl⟩
  refine ⟨middle, _, ?_, backDenotes⟩
  cases early with
  | nil => exact frontDenotes
  | cons first early => simp at split

/-! ## The law of cut streams -/

/--
What a reader gives on the stream of some records, cut after `place` bytes: the records whose chunks
lie wholly in front of the cut, as they are `shown`, and then the end of the stream if the cut is
between two items, and an unexpected end if it is not.
-/
def DecodesCut (shown : Record → Record) (resume : Bool) (records : List Record) (place : Nat) :
    Prop :=
  ∃ count ≤ records.length,
    (∀ index < records.length,
      index < count ↔ (streamOf (records.take (index + 1))).length ≤ place) ∧
    (IsBoundary records place →
      Reader.outcomes .memory resume ((streamOf records).take place) =
        .ok (((records.take count).map shown).map .ok)) ∧
    (¬ IsBoundary records place →
      Reader.outcomes .memory resume ((streamOf records).take place) =
        .ok (((records.take count).map shown).map .ok ++ [.error .unexpectedEnd]))

/-- Inside the preamble nothing can be opened. -/
theorem start_cut (records : List Record) {place : Nat} (early : place < preamble.length) :
    (Reader.start .memory ((streamOf records).take place)).1 = .error .unexpectedEnd := by
  have inside : ∀ place < 12,
      (Reader.start .memory (preamble.take place)).1 = .error .unexpectedEnd := by
    intro place early
    interval_cases place <;> rfl
  rw [streamOf_eq, List.take_append_of_le_length (Nat.le_of_lt early)]
  exact inside place early

/--
A cut of the stream of some records that goes through the bytes of one item.  The items in front of
it denote the `early` records, and `part` of the item is in front of the cut.
-/
structure CutAt (records early : List Record) (place : Nat) (front : List Item) (entry : Item)
    (part left : List UInt8) (known : Definitions) : Prop where
  items : front ++ [entry] <+: ({} : Encoder).itemsEach records
  halves : entry.bytes = part ++ left
  missing : left ≠ []
  shorter : place ≤ (streamOf records).length
  taken : (streamOf records).take place = preamble ++ (front.flatMap Item.bytes ++ part)
  fits : ∀ other ∈ front, other.Fits
  entryFits : entry.Fits
  denotes : denoteAll {} front = some (early.map Record.named, known)
  entryDenotes : ∃ record? after, entry.denote known = some (record?, after)

namespace CutAt

variable {records early : List Record} {place : Nat} {front : List Item} {entry : Item}
  {part left : List UInt8} {known : Definitions}

theorem place_eq (cut : CutAt records early place front entry part left known) :
    place = (preamble ++ front.flatMap Item.bytes).length + part.length := by
  have same := congrArg List.length cut.taken
  rw [List.length_take_of_le cut.shorter] at same
  rw [same]
  simp only [List.length_append, Nat.add_assoc]

/-- A cut is between two items if nothing of the later one is in front of it. -/
theorem isBoundary_iff (cut : CutAt records early place front entry part left known) :
    IsBoundary records place ↔ part = [] := by
  have length := cut.place_eq
  constructor
  · intro boundary
    by_contra started
    have first := List.length_pos_iff.mpr started
    have second := List.length_pos_iff.mpr cut.missing
    have parts : entry.bytes.length = part.length + left.length := by
      rw [cut.halves, List.length_append]
    exact not_isBoundary_inside cut.items (by omega) (by omega) boundary
  · rintro rfl
    exact ⟨front, (List.prefix_append front [entry]).trans cut.items, length.symm⟩

/-- What a reader gives on a stream that was cut. -/
theorem outcomes_eq (cut : CutAt records early place front entry part left known)
    (resume : Bool) :
    Reader.outcomes .memory resume ((streamOf records).take place) =
      .ok ((early.map Record.named).map .ok ++
        if part = [] then [] else [.error .unexpectedEnd]) := by
  have laidOut := forall₂_bytes_laidOut cut.fits
  rw [cut.taken, List.flatMap_def]
  split
  case isTrue whole =>
    subst part
    exact outcomes_of_laidOut resume [] none laidOut cut.denotes (by simp)
      (fun room fuel _ _ => recordsAfter_nil known room fuel)
  case isFalse started =>
    have entryLaidOut := Item.bytes_laidOut cut.entryFits
    rw [cut.halves] at entryLaidOut
    rcases cut.entryDenotes with ⟨record?, after, entryDenotes⟩
    refine outcomes_of_laidOut resume part (some .unexpectedEnd) laidOut cut.denotes
      (by simp) fun room fuel enough _ => ?_
    obtain ⟨room, rfl⟩ := Nat.exists_eq_add_one_of_ne_zero (Nat.ne_zero_of_lt enough)
    rcases Reading.recordWithin_cut entryLaidOut started cut.missing entryDenotes room with
      ⟨last, ended⟩
    rw [ended]
    rfl

end CutAt

/-- A cut inside the chunk of a record goes through one of its items. -/
theorem exists_cutAt
    {early late : List Record} {record : Record} (storable : Storable (early ++ record :: late))
    {place : Nat} (behind : (streamOf early).length ≤ place)
    (before : place < (streamOf (early ++ [record])).length) :
    ∃ front entry part left known,
      CutAt (early ++ record :: late) early place front entry part left known := by
  rcases Encoder.itemsEach_advance (Encoder.agrees_empty storable.vocabulary)
    (fun other isEarly => storable.shows (List.mem_append_left _ isEarly)) with ⟨between, whole⟩
  rcases ran : (encoderAfter early).items record with ⟨own, encoder⟩
  rcases Encoder.items_advance whole.agrees
    (storable.shows (List.mem_append_right _ List.mem_cons_self)) ran with ⟨last, cut⟩
  obtain ⟨within, rfl⟩ := Nat.exists_eq_add_of_le behind
  -- The cut goes through the items of the record.
  have inside : within < (own.flatMap Item.bytes).length := by
    rw [streamOf_concat, ran, List.length_append] at before
    exact Nat.lt_of_add_lt_add_left before
  rcases exists_split_at own inside with
    ⟨front, entry, back, part, left, rfl, halves, missing, taken⟩
  rcases denoteAll_definitions ran (List.cons_ne_nil entry back) cut.denotes with
    ⟨known, _, frontDenotes, entryDenotes⟩
  simp only [denoteAll, Option.bind_eq_bind, Option.bind_eq_some_iff, Prod.exists] at entryDenotes
  rcases entryDenotes with ⟨record?, after, entryDenotes, _⟩
  have stream : streamOf (early ++ record :: late) = streamOf early ++
      ((front ++ entry :: back).flatMap Item.bytes ++
        (encoder.itemsEach late).flatMap Item.bytes) := by
    rw [streamOf_append, Encoder.itemsEach, ran, List.flatMap_append]
  refine ⟨({} : Encoder).itemsEach early ++ front, entry, part, left, known, ?_⟩
  constructor
  case items =>
    rw [Encoder.itemsEach_append, Encoder.itemsEach, ← encoderAfter, ran]
    exact ⟨back ++ encoder.itemsEach late, by simp⟩
  case halves => exact halves
  case missing => exact missing
  case shorter =>
    rw [stream, List.length_append, List.length_append]
    omega
  case taken =>
    rw [stream, List.take_length_add_append, List.take_append_of_le_length (Nat.le_of_lt inside),
      taken, streamOf_eq, List.flatMap_append, List.append_assoc, List.append_assoc]
  case fits =>
    intro other inItems
    rcases List.mem_append.mp inItems with isEarly | isOwn
    · exact whole.fits other isEarly
    · exact cut.fits other (List.mem_append_left _ isOwn)
  case entryFits => exact cut.fits entry (by simp)
  case denotes =>
    have appended := denoteAll_append whole.denotes frontDenotes
    rwa [List.append_nil] at appended
  case entryDenotes => exact ⟨record?, after, entryDenotes⟩

/-- A stream that was not cut gives all records, and its end is a boundary. -/
theorem outcomes_streamOf (resume : Bool) {records : List Record} (storable : Storable records) :
    IsBoundary records (streamOf records).length ∧
      Reader.outcomes .memory resume (streamOf records) =
        .ok ((records.map Record.named).map .ok) := by
  rcases Encoder.itemsEach_advance (Encoder.agrees_empty storable.vocabulary)
    (fun record member => storable.shows member) with ⟨after, whole⟩
  have ends := outcomes_of_laidOut resume [] none
    (forall₂_bytes_laidOut whole.fits) whole.denotes (by simp)
    (fun room fuel _ _ => recordsAfter_nil after room fuel)
  rw [streamOf_eq]
  refine ⟨⟨_, List.prefix_rfl, rfl⟩, ?_⟩
  simpa only [List.flatMap_def, List.append_nil, Option.toList_none, List.map_nil] using ends

/--
A stream that ends inside its preamble cannot be opened.  Behind the preamble, a reader gives the
records that stand whole in front of the cut, each reason under its name, and then the end that fits
the cut.
-/
theorem start_cut_and_decodesCut (records : List Record) (resume : Bool) :
    (∀ place < 12,
      (Reader.start .memory ((streamOf records).take place)).1 = .error .unexpectedEnd) ∧
    (Storable records → ∀ place, 12 ≤ place → place ≤ (streamOf records).length →
      DecodesCut Record.named resume records place) := by
  refine ⟨fun place early => start_cut records early, fun storable place opened shorter => ?_⟩
  rcases exists_count records opened with ⟨count, bounded, fits, next⟩
  refine ⟨count, bounded, fun index inside => ⟨fun before => ?_, fun within => ?_⟩, ?_⟩
  · exact (length_streamOf_take_le records before).trans fits
  · by_contra later
    have cut := next (by omega)
    have grown := length_streamOf_take_le records
      (Nat.add_le_add_right (Nat.le_of_not_lt later) 1)
    omega
  rcases Nat.eq_or_lt_of_le bounded with rfl | more
  · rw [List.take_length] at fits ⊢
    obtain rfl : place = (streamOf records).length := Nat.le_antisymm shorter fits
    rcases outcomes_streamOf resume storable with ⟨boundary, whole⟩
    rw [List.take_length]
    exact ⟨fun _ => whole, fun inside => absurd boundary inside⟩
  · have split : records = records.take count ++ records[count] :: records.drop (count + 1) := by
      rw [← List.drop_eq_getElem_cons more, List.take_append_drop]
    have through := next more
    rw [← List.take_append_getElem more] at through
    rcases exists_cutAt (split ▸ storable) fits through with
      ⟨front, entry, part, left, known, cut⟩
    rw [← split] at cut
    rw [cut.isBoundary_iff, cut.outcomes_eq resume]
    refine ⟨fun whole => ?_, fun started => ?_⟩
    · rw [if_pos whole, List.append_nil]
    · rw [if_neg started]

theorem start_cut_and_decodesCut_shortProfile :
    Storable shortProfile ∧ 12 ≤ 60 ∧ 60 ≤ (streamOf shortProfile).length ∧
      DecodesCut Record.named true shortProfile 60 := by
  have shorter : 60 ≤ (streamOf shortProfile).length := by decide +kernel
  exact ⟨shortProfile_storable, by decide, shorter,
    (start_cut_and_decodesCut shortProfile true).2 shortProfile_storable 60 (by decide) shorter⟩

/-! ## What the law leaves out -/

theorem DecodesCut.exists_outcomes
    {shown : Record → Record} {resume : Bool} {records : List Record} {place : Nat}
    (decodes : DecodesCut shown resume records place) :
    ∃ count ending, (ending = [] ∨ ending = [.error .unexpectedEnd]) ∧
      Reader.outcomes .memory resume ((streamOf records).take place) =
        .ok (((records.take count).map shown).map .ok ++ ending) := by
  rcases decodes with ⟨count, _, _, whole, through⟩
  by_cases boundary : IsBoundary records place
  · exact ⟨count, [], .inl rfl, by rw [whole boundary, List.append_nil]⟩
  · exact ⟨count, _, .inr rfl, through boundary⟩

theorem utf8_replicate (count : Nat) :
    Text.utf8 (String.ofList (List.replicate count 'z')) = List.replicate count 0x7A := by
  have bytes (characters : List Char) :
      Text.utf8 (String.ofList characters) = characters.flatMap String.utf8EncodeChar := by
    simp [Text.utf8, List.utf8Encode]
  rw [bytes]
  induction count with
  | zero => rfl
  | succ count induction =>
      rw [List.replicate_succ, List.flatMap_cons, induction]
      rfl

/-- The length of a text of 4294967296 bytes is written as zero, and the text itself read as items. -/
theorem outcomes_long_name {name : String} {more : List UInt8}
    (content : Text.utf8 name = 0x7A :: more) (long : (Text.utf8 name).length = 2 ^ 32) :
    Reader.outcomes .memory false ((streamOf [.threadName 7 name]).take 22) =
      .ok [.error (.malformed (.unknownCode 0x7A))] := by
  have items : ({} : Encoder).itemsEach [.threadName 7 name] =
      [.text 0 name, .threadName 7 0] := rfl
  have text : Item.bytes (.text 0 name) =
      textCode :: (bytes32 0 ++ bytesOf 4 (2 ^ 32) ++ 0x7A :: more) := by
    rw [Item.bytes, long, content]
  have cut : (streamOf [.threadName 7 name]).take 22 =
      preamble ++ [textCode, 0, 0, 0, 0, 0, 0, 0, 0, 0x7A] := by
    rw [streamOf_eq, items, List.flatMap_cons, text]
    rfl
  rw [cut]
  decide +kernel

/--
A reason given by the code of a named one does not come back as it was, and behind the start of an
overlong text even malformed bytes are found.
-/
theorem not_decodesCut_marker_code_nor_long_name :
    ¬ DecodesCut id false [.marker ⟨8, .other 3⟩] 22 ∧
      ¬ DecodesCut Record.named false
        [.threadName 7 (String.ofList (List.replicate (2 ^ 32) 'z'))] 22 := by
  constructor
  · intro decodes
    rcases decodes.exists_outcomes with ⟨count, ending, ends, found⟩
    have read : Reader.outcomes .memory false ((streamOf [.marker ⟨8, .other 3⟩]).take 22) =
        .ok [.ok (.marker ⟨8, .tooDeep⟩)] := by decide +kernel
    rw [read] at found
    rcases ends with rfl | rfl <;> rcases count with _ | _ <;> simp at found
  · have content := utf8_replicate (2 ^ 32)
    generalize String.ofList (List.replicate (2 ^ 32) 'z') = name at content
    intro decodes
    rcases decodes.exists_outcomes with ⟨count, ending, ends, found⟩
    rw [outcomes_long_name (content.trans List.replicate_succ)
      (by rw [content, List.length_replicate])] at found
    rcases ends with rfl | rfl <;> rcases count with _ | _ <;> simp at found

end StackSampler.Stream
