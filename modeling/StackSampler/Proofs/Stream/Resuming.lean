import StackSampler.Proofs.Stream.Devices
import StackSampler.Proofs.Stream.Grammar

/-!
# Reading on behind malformed bytes

A reader that is called again after it has refused some bytes goes on behind what it has taken, be
that in the middle of an item.  `Call` says what one call may do with the bytes that are left: it
accepts items until it comes to a record, or it stops at bytes that no acceptable item begins.  A
step that fails has taken bytes but has defined nothing.

The main statement is `calls_resume`, for any bytes behind a preamble and any number of calls.
-/

namespace StackSampler.Stream

/-! ## Steps that fail -/

namespace Reading

/-- What a step that fails leaves: it has defined nothing, and an end of the bytes is their end. -/
structure Fails (known : Definitions) (input : List UInt8) (error : StreamError)
    (after : Reader (List UInt8)) : Prop where
  leaves : ∃ rest, after = known.reader rest ∧ rest <:+ input ∧ (error = .unexpectedEnd → rest = [])
  lasts : error ≠ .device

/-- A step that defines nothing if it fails. -/
def Tentative {α : Type} (step : Reading (List UInt8) α) : Prop :=
  ∀ (known : Definitions) (input : List UInt8) (error : StreamError) (after : Reader (List UInt8)),
    step (known.reader input) = (.error error, after) → Fails known input error after

/-- A step that defines nothing at all. -/
structure Plain {α : Type} (step : Reading (List UInt8) α) : Prop where
  tentative : Tentative step
  leaves : ∀ (known : Definitions) (input : List UInt8) (value : α) (after : Reader (List UInt8)),
    step (known.reader input) = (.ok value, after) →
      ∃ rest, after = known.reader rest ∧ rest <:+ input

section

variable {α β : Type} {step : Reading (List UInt8) α} {next : α → Reading (List UInt8) β}

theorem plain_pure (value : α) : Plain (pure value) where
  tentative := nofun
  leaves := by
    rintro known input _ _ ⟨⟩
    exact ⟨input, rfl, List.suffix_rfl⟩

theorem plain_refuse (cause : Malformed) : Plain (refuse cause : Reading (List UInt8) α) where
  tentative := by
    rintro known input _ _ ⟨⟩
    exact ⟨⟨input, rfl, List.suffix_rfl, nofun⟩, nofun⟩
  leaves := nofun

theorem plain_orRefuse (cause : Malformed) (value? : Option α) :
    Plain (orRefuse cause value? : Reading (List UInt8) α) := by
  cases value? with
  | none => exact plain_refuse cause
  | some value => exact plain_pure value

theorem Fails.earlier {known : Definitions} {input rest : List UInt8} {error : StreamError}
    {after : Reader (List UInt8)} (fails : Fails known rest error after) (within : rest <:+ input) :
    Fails known input error after := by
  rcases fails.leaves with ⟨left, isLeft, further, ends⟩
  exact ⟨⟨left, isLeft, further.trans within, ends⟩, fails.lasts⟩

theorem Plain.bindTentative (plain : Plain step) (following : ∀ value, Tentative (next value)) :
    Tentative (step >>= next) := by
  intro known input error after ran
  rcases began : step (known.reader input) with ⟨first | value, between⟩
  · rw [bind_of_error began] at ran
    cases ran
    exact plain.tentative known input error _ began
  · rw [bind_of_ok began] at ran
    rcases plain.leaves known input value between began with ⟨rest, rfl, within⟩
    exact (following value known rest error after ran).earlier within

theorem Plain.bind (plain : Plain step) (following : ∀ value, Plain (next value)) :
    Plain (step >>= next) where
  tentative := plain.bindTentative fun value => (following value).tentative
  leaves := by
    intro known input value after ran
    rcases ok_of_bind ran with ⟨first, between, began, goesOn⟩
    rcases plain.leaves known input first between began with ⟨rest, rfl, within⟩
    rcases (following first).leaves known rest value after goesOn with ⟨left, isLeft, further⟩
    exact ⟨left, isLeft, further.trans within⟩

theorem Plain.map (plain : Plain step) (change : α → β) : Plain (change <$> step) := by
  rw [← bind_pure_comp]
  exact plain.bind fun value => plain_pure (change value)

/-- What cannot fail may follow whatever it is that was defined. -/
theorem Tentative.andThen (tentative : Tentative step) (value : β) :
    Tentative (step >>= fun _ => pure value) := by
  intro known input error after ran
  rcases began : step (known.reader input) with ⟨first | first, between⟩
  · rw [bind_of_error began] at ran
    cases ran
    exact tentative known input error _ began
  · rw [bind_of_ok began] at ran
    cases ran

end

theorem plain_bytes (count : Nat) : Plain (bytes .memory count) where
  tentative := by
    intro known input error after ran
    by_cases enough : count ≤ input.length
    · simp only [bytes, Definitions.reader, exactly_memory_of_le enough] at ran
      cases ran
    · simp only [bytes, Definitions.reader, exactly_memory_of_lt (Nat.lt_of_not_le enough)] at ran
      cases ran
      exact ⟨⟨[], rfl, List.nil_suffix, fun _ => rfl⟩, fun same => by cases same⟩
  leaves := by
    intro known input chunk after ran
    rcases split_of_bytes ran with ⟨rest, rfl, _, isLeft⟩
    exact ⟨rest, isLeft, List.suffix_append chunk rest⟩

theorem plain_byte : Plain (byte .memory) :=
  (plain_bytes 1).bind fun _ => plain_pure _

theorem plain_half : Plain (half .memory) :=
  (plain_bytes 4).map _

theorem plain_word : Plain (word .memory) :=
  (plain_bytes 8).map _

theorem plain_text (number : UInt32) : Plain (text number) where
  tentative known := (plain_orRefuse (.undefinedText number) known.texts[number]?).tentative known
  leaves known := (plain_orRefuse (.undefinedText number) known.texts[number]?).leaves known

theorem plain_frame (number : UInt32) : Plain (frame number) where
  tentative known := (plain_orRefuse (.undefinedFrame number) known.frames[number]?).tentative known
  leaves known := (plain_orRefuse (.undefinedFrame number) known.frames[number]?).leaves known

/-! ## Items that fail -/

theorem plain_header : Plain (header .memory) :=
  plain_byte.bind fun _ => (plain_orRefuse _ _).bind fun _ => plain_word.bind fun _ =>
    plain_half.bind fun _ => plain_word.bind fun _ => plain_pure _

/-- A text is defined once its bytes have been read and are a text. -/
theorem tentative_textDefinition : Tentative (textDefinition .memory) :=
  plain_half.bindTentative fun _ => plain_half.bindTentative fun length =>
    (plain_bytes length.toNat).bindTentative fun _ => (plain_orRefuse _ _).bindTentative
      fun _ => nofun

/-- A frame is defined once all of it has been read and its texts are known. -/
theorem tentative_frameDefinition : Tentative (frameDefinition .memory) :=
  plain_half.bindTentative fun _ => plain_half.bindTentative fun _ =>
    plain_half.bindTentative fun _ => (plain_text _).bindTentative fun _ =>
      (plain_text _).bindTentative fun _ => plain_half.bindTentative fun _ =>
        plain_byte.bindTentative fun _ => (plain_orRefuse _ _).bindTentative fun _ => nofun

theorem plain_threadName : Plain (threadName .memory) :=
  plain_word.bind fun _ => plain_half.bind fun _ => (plain_text _).bind fun _ => plain_pure _

theorem plain_metric : Plain (metric .memory) := by
  refine plain_byte.bind fun tag => ?_
  split
  · exact plain_word.bind fun _ => plain_pure _
  split
  · exact plain_word.bind fun _ => plain_pure _
  split
  · exact plain_word.bind fun _ => plain_word.bind fun _ => plain_pure _
  split
  · exact plain_word.bind fun _ => plain_word.bind fun _ => plain_pure _
  · exact plain_refuse _

theorem plain_frames (count : Nat) : Plain (frames .memory count) := by
  induction count with
  | zero => exact plain_pure []
  | succ count induction =>
      exact plain_half.bind fun number => (plain_frame number).bind fun _ =>
        induction.bind fun _ => plain_pure _

theorem plain_sample : Plain (sample .memory) := by
  refine plain_word.bind fun thread => plain_byte.bind fun mark => ?_
  have behindTask (task : Option TaskId) :
      Plain (do
        let metric ← metric .memory
        let count ← half .memory
        let frames ← frames .memory count.toNat
        pure (Record.sample ⟨thread, task, metric, frames⟩)) :=
    plain_metric.bind fun _ => plain_half.bind fun count =>
      (plain_frames count.toNat).bind fun _ => plain_pure _
  split
  · exact (plain_pure none).bind behindTask
  · exact (plain_word.map some).bind behindTask

theorem plain_marker : Plain (marker .memory) :=
  plain_word.bind fun _ => plain_byte.bind fun _ => plain_pure _

/-- An item that fails has defined nothing, wherever it fails. -/
theorem tentative_item (code : UInt8) : Tentative (item .memory code) := by
  unfold item
  split
  · exact (plain_header.map some).tentative
  split
  · exact tentative_textDefinition.andThen none
  split
  · exact tentative_frameDefinition.andThen none
  split
  · exact (plain_threadName.map some).tentative
  split
  · exact (plain_sample.map some).tentative
  split
  · exact (plain_marker.map some).tentative
  · exact (plain_refuse _).tentative

end Reading

/-! ## One call -/

/-- No item that the bytes begin with is laid out whole and has a meaning. -/
def Refused (earlier : List Item) (input : List UInt8) : Prop :=
  ∀ (entry : Item) (chunk more : List UInt8) (record? : Option Record),
    input = chunk ++ more → entry.LaidOut chunk → ¬ entry.Means earlier record?

/--
What a call of a reader does that has accepted some items, of which the last one comes first, and
has some bytes left: its answer, and the items accepted and the bytes left afterwards.
-/
inductive Call : List Item → List UInt8 → Reader.Answer → List Item → List UInt8 → Prop where
  | ended {earlier : List Item} : Call earlier [] (.ok none) earlier []
  /-- A definition is accepted, and the call goes on. -/
  | defines {earlier later : List Item} {entry : Item} {chunk more rest : List UInt8}
      {answer : Reader.Answer} (laidOut : entry.LaidOut chunk) (means : entry.Means earlier none)
      (call : Call (entry :: earlier) more answer later rest) :
      Call earlier (chunk ++ more) answer later rest
  | record {earlier : List Item} {entry : Item} {chunk more : List UInt8} {record : Record}
      (laidOut : entry.LaidOut chunk) (means : entry.Means earlier (some record)) :
      Call earlier (chunk ++ more) (.ok (some record)) (entry :: earlier) more
  /-- Some bytes are taken and refused. -/
  | malformed {earlier : List Item} {broken more : List UInt8} (cause : Malformed)
      (taken : broken ≠ []) (refused : Refused earlier (broken ++ more)) :
      Call earlier (broken ++ more) (.error (.malformed cause)) earlier more
  /-- The bytes end inside of an item. -/
  | cutOff {earlier : List Item} {input : List UInt8} (some_ : input ≠ [])
      (refused : Refused earlier input) : Call earlier input (.error .unexpectedEnd) earlier []

theorem refused_of_error {known : Definitions} {earlier : List Item}
    (reflects : known.Reflects earlier) {code : UInt8} {body : List UInt8} {error : StreamError}
    {after : Reader (List UInt8)}
    (ran : Reading.item .memory code (known.reader body) = (.error error, after)) :
    Refused earlier (code :: body) := by
  intro entry chunk more record? split laidOut means
  rcases Item.denote_of_means reflects means with ⟨between, denotes⟩
  rcases Reading.item_of_denote laidOut denotes more with ⟨first, others, rfl, accepted⟩
  cases split
  cases ran.symm.trans accepted

/-- A search for a record is a call, and the tables hold what was accepted. -/
theorem call_of_recordWithin {known : Definitions} {earlier : List Item}
    (reflects : known.Reflects earlier) {room : Nat} {input : List UInt8}
    (enough : input.length < room) :
    ∃ answer after later rest,
      Reading.recordWithin .memory room (known.reader input) =
        (answer, Definitions.reader after rest) ∧
      Call earlier input answer later rest ∧ after.Reflects later := by
  induction room generalizing known earlier input with
  | zero => exact absurd enough (Nat.not_lt_zero _)
  | succ room induction =>
      cases input with
      | nil =>
          exact ⟨_, known, earlier, [], Reading.recordWithin_nil known _, .ended, reflects⟩
      | cons code body =>
          have begun : Reading.nextByte .memory (known.reader (code :: body)) =
              (.ok (some code), known.reader body) := rfl
          rw [Reading.recordWithin, Reading.bind_of_ok begun]
          dsimp only
          rcases ran : Reading.item .memory code (known.reader body) with ⟨error | record?, after⟩
          · have refused := refused_of_error reflects ran
            rcases (Reading.tentative_item code known body error after ran) with
              ⟨⟨rest, rfl, ⟨broken, rfl⟩, ends⟩, lasts⟩
            refine ⟨_, known, earlier, rest, Reading.bind_of_error ran, ?_, reflects⟩
            cases error with
            | unexpectedEnd =>
                cases ends rfl
                exact .cutOff (List.cons_ne_nil _ _) refused
            | device => exact absurd rfl lasts
            | malformed cause => exact .malformed cause (List.cons_ne_nil code broken) refused
          · rcases Reading.split_of_item ran with
              ⟨entry, chunk, rest, defined, laidOut, rfl, denotes, rfl⟩
            rcases Item.means_of_denote reflects denotes with ⟨means, still⟩
            cases record? with
            | some record =>
                exact ⟨_, defined, entry :: earlier, rest, Reading.bind_of_ok ran,
                  .record laidOut means, still⟩
            | none =>
                -- Behind a definition the same call goes on, with less input and less room.
                rw [List.length_cons, List.length_append] at enough
                rcases induction still (show rest.length < room by omega) with
                  ⟨answer, after, later, left, goesOn, call, holds⟩
                exact ⟨answer, after, later, left, (Reading.bind_of_ok ran).trans goesOn,
                  .defines laidOut means call, holds⟩

/-! ## Any number of calls -/

/-- Calls that follow one another. -/
inductive Calls : List Item → List UInt8 → List Reader.Answer → List Item → List UInt8 → Prop where
  | nil {earlier : List Item} {input : List UInt8} : Calls earlier input [] earlier input
  | cons {earlier between later : List Item} {input more rest : List UInt8}
      {answer : Reader.Answer} {answers : List Reader.Answer}
      (call : Call earlier input answer between more)
      (calls : Calls between more answers later rest) :
      Calls earlier input (answer :: answers) later rest

namespace Reader

/-- A record or a refusal: an answer behind which reading goes on. -/
def Answer.goesOn : Answer → Bool
  | .ok (some _) => true
  | .error (.malformed _) => true
  | _ => false

/-- The reader after some calls. -/
def afterCalls {σ : Type} (supply : Source σ) : Nat → Reader σ → Reader σ
  | 0, reader => reader
  | count + 1, reader => afterCalls supply count (reader.next supply).2

/-- What the call behind so many others gives. -/
def answerAfter {σ : Type} (supply : Source σ) (count : Nat) (reader : Reader σ) : Answer :=
  ((reader.afterCalls supply count).next supply).1

theorem afterCalls_succ {σ : Type} (supply : Source σ) (count : Nat) (reader : Reader σ) :
    reader.afterCalls supply (count + 1) = ((reader.afterCalls supply count).next supply).2 := by
  induction count generalizing reader with
  | zero => rfl
  | succ count induction => exact induction (reader.next supply).2

end Reader

section

variable {earlier later : List Item} {input rest : List UInt8} {answer : Reader.Answer}

theorem Call.length_le (call : Call earlier input answer later rest) :
    rest.length ≤ input.length := by
  induction call with
  | ended => exact Nat.le_refl _
  | @defines _ _ _ chunk more rest _ _ _ _ induction =>
      rw [List.length_append]
      omega
  | record => simp
  | malformed => simp
  | cutOff => exact Nat.zero_le _

/-- A call behind which reading goes on has taken a byte. -/
theorem Call.length_lt (call : Call earlier input answer later rest) (goesOn : answer.goesOn) :
    rest.length < input.length := by
  induction call with
  | ended => cases goesOn
  | @defines _ _ _ chunk more rest _ _ _ _ induction =>
      rw [List.length_append]
      have shorter := induction goesOn
      omega
  | record laidOut =>
      rw [List.length_append]
      have nonempty := laidOut.nonempty
      omega
  | malformed cause taken =>
      rw [List.length_append]
      have nonempty := List.length_pos_iff.mpr taken
      omega
  | cutOff => cases goesOn

/-- Any other call has come to the end of the bytes. -/
theorem Call.ends (call : Call earlier input answer later rest) (ends : answer.goesOn = false) :
    rest = [] ∧ (answer = .ok none ∨ answer = .error .unexpectedEnd) := by
  induction call with
  | ended => exact ⟨rfl, .inl rfl⟩
  | defines _ _ _ induction => exact induction ends
  | record => cases ends
  | malformed => cases ends
  | cutOff => exact ⟨rfl, .inr rfl⟩

theorem Calls.countP_le {answers : List Reader.Answer}
    (calls : Calls earlier input answers later rest) :
    answers.countP Reader.Answer.goesOn + rest.length ≤ input.length := by
  induction calls with
  | nil => simp
  | @cons _ _ _ input more rest answer answers call _ induction =>
      rw [List.countP_cons]
      cases goesOn : answer.goesOn with
      | true =>
          have shorter := call.length_lt goesOn
          simp only [if_true]
          omega
      | false =>
          have shorter := call.length_le
          simp only [Bool.false_eq_true, if_false]
          omega

end

section

variable {known : Definitions} {earlier : List Item}

theorem call_of_next (reflects : known.Reflects earlier) (input : List UInt8) :
    ∃ after later rest,
      ((known.reader input).next .memory).2 = Definitions.reader after rest ∧
      Call earlier input ((known.reader input).next .memory).1 later rest ∧
      after.Reflects later := by
  have enough : input.length < Source.memory.left input + 1 := Nat.lt_succ_self _
  rcases call_of_recordWithin reflects enough with ⟨answer, after, later, rest, ran, call, holds⟩
  have next : (known.reader input).next .memory = (answer, Definitions.reader after rest) := ran
  rw [next]
  exact ⟨after, later, rest, rfl, call, holds⟩

/-- What several calls of a reader do, and that its tables hold what was accepted. -/
theorem calls_of_reader (reflects : known.Reflects earlier) (input : List UInt8) (count : Nat) :
    ∃ after later rest,
      (known.reader input).afterCalls .memory count = Definitions.reader after rest ∧
      Calls earlier input ((known.reader input).calls .memory count) later rest ∧
      after.Reflects later := by
  induction count generalizing known earlier input with
  | zero => exact ⟨known, earlier, input, rfl, .nil, reflects⟩
  | succ count induction =>
      rcases call_of_next reflects input with ⟨after, between, more, left, call, still⟩
      rcases induction still more with ⟨last, later, rest, ran, calls, holds⟩
      refine ⟨last, later, rest, ?_, ?_, holds⟩
      · rw [Reader.afterCalls, left]
        exact ran
      · rw [Reader.calls, left]
        exact .cons call calls

/-- Calls come to the end of the bytes, and there are no more calls before it than bytes. -/
theorem exists_ending (reflects : known.Reflects earlier) (input : List UInt8) :
    ∃ count ≤ input.length,
      (∀ answer ∈ (known.reader input).calls .memory count, answer.goesOn) ∧
      ((known.reader input).answerAfter .memory count = .ok none ∨
        (known.reader input).answerAfter .memory count = .error .unexpectedEnd) ∧
      ((known.reader input).afterCalls .memory (count + 1)).source = [] := by
  induction size : input.length using Nat.strong_induction_on generalizing known earlier input with
  | _ size induction =>
      subst size
      rcases call_of_next reflects input with ⟨after, between, more, left, call, still⟩
      cases goesOn : Reader.Answer.goesOn ((known.reader input).next .memory).1 with
      | false =>
          rcases call.ends goesOn with ⟨rfl, ends⟩
          exact ⟨0, Nat.zero_le _, List.forall_mem_nil _, ends, congrArg Reader.source left⟩
      | true =>
          have shorter := call.length_lt goesOn
          rcases induction _ shorter still more rfl with ⟨count, few, all, ends, none⟩
          refine ⟨count + 1, Nat.lt_of_le_of_lt few shorter, ?_, ?_, ?_⟩
          · rw [Reader.calls, left]
            exact List.forall_mem_cons.mpr ⟨goesOn, all⟩
          · rw [Reader.answerAfter, Reader.afterCalls, left]
            exact ends
          · rw [Reader.afterCalls, left]
            exact none

end

/--
Behind any valid preamble, calls that go on behind each refusal come to the end of the bytes.  Each
call that gives a record or refuses bytes has taken a byte, so there are at most as many of them as
bytes.  After any number of calls the tables hold the latest definition for each number among the
items that were accepted, and those alone.
-/
theorem calls_resume (bytes : List UInt8) :
    ∃ reader, Reader.start .memory (preamble ++ bytes) = (.ok (), reader) ∧
      (∀ count,
        (∃ later, Calls [] bytes (reader.calls .memory count) later
            (reader.afterCalls .memory count).source ∧
          (∀ number,
            (reader.afterCalls .memory count).texts[number]? = latestText? number later) ∧
          ∀ number,
            (reader.afterCalls .memory count).frames[number]? = latestFrame? number later) ∧
        (reader.calls .memory count).countP Reader.Answer.goesOn ≤ bytes.length ∧
        ((reader.answerAfter .memory count).goesOn →
          (reader.afterCalls .memory (count + 1)).source.length <
            (reader.afterCalls .memory count).source.length)) ∧
      ∃ count ≤ bytes.length,
        (∀ answer ∈ reader.calls .memory count, answer.goesOn) ∧
        (reader.answerAfter .memory count = .ok none ∨
          reader.answerAfter .memory count = .error .unexpectedEnd) ∧
        (reader.afterCalls .memory (count + 1)).source = [] := by
  refine ⟨_, start_preamble bytes, fun count => ?_, exists_ending Definitions.reflects_nil bytes⟩
  rcases calls_of_reader Definitions.reflects_nil bytes count with
    ⟨after, later, rest, ran, calls, holds⟩
  rw [Reader.afterCalls_succ, Reader.answerAfter, ran]
  refine ⟨⟨later, calls, holds.texts, holds.frames⟩, ?_, fun goesOn => ?_⟩
  · exact Nat.le_trans (Nat.le_add_right _ _) calls.countP_le
  · rcases call_of_next holds rest with ⟨_, _, more, left, call, _⟩
    rw [left]
    exact call.length_lt goesOn

end StackSampler.Stream
