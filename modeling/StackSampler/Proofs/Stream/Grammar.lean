import StackSampler.Proofs.Stream.Items

/-!
# The streams that a reader accepts

`Item.LaidOut` says which bytes an item may have.  `Denotes` says which records a list of items
stands for: a number stands for its latest definition before the item that uses it, and a frame has
the texts that its numbers stood for when it was defined.  Both are stated without a reader.

The main statement is `readAll_eq_ok_iff`: a reader of bytes in memory succeeds on the streams of
this grammar alone, and with the records that their items denote.
-/

namespace StackSampler

theorem Text.eq_utf8_of_ofUtf8?
    {bytes : List UInt8} {text : String} (found : ofUtf8? bytes = some text) :
    bytes = utf8 text := by
  rw [ofUtf8?, String.fromUTF8?] at found
  split at found
  · injection found with equal
    subst equal
    simp [utf8, String.fromUTF8]
  · contradiction

theorem Mode.eq_code_of_ofCode?
    {value : UInt8} {mode : Mode} (found : ofCode? value = some mode) : value = mode.code := by
  unfold ofCode? at found
  split at found <;> cases found <;> rfl

theorem FrameKind.eq_code_of_ofCode?
    {value : UInt8} {kind : FrameKind} (found : ofCode? value = some kind) :
    value = kind.code := by
  unfold ofCode? at found
  split at found <;> cases found <;> rfl

end StackSampler

namespace StackSampler.Stream

/-! ## What numbers stand for -/

/-- The text that a number stands for after some items, of which the last one comes first. -/
def latestText? (number : UInt32) : List Item → Option String
  | [] => none
  | .text defined value :: earlier =>
      if defined = number then some value else latestText? number earlier
  | _ :: earlier => latestText? number earlier

/--
The frame that a number stands for after some items, of which the last one comes first.  Its texts
are looked up among the items before its definition.
-/
def latestFrame? (number : UInt32) : List Item → Option Frame
  | [] => none
  | .frame defined nameNumber fileNumber line kind :: earlier =>
      if defined = number then do
        let name ← latestText? nameNumber earlier
        let file ← latestText? fileNumber earlier
        some ⟨name, file, line, kind⟩
      else latestFrame? number earlier
  | _ :: earlier => latestFrame? number earlier

/-- A frame keeps its texts when their number is defined anew. -/
example :
    latestFrame? 0 [.text 1 "new", .frame 0 1 1 7 .native, .text 1 "old"] =
      some (.native "old" "old" 7) := by
  decide

/--
What an item stands for behind `earlier` ones, of which the last one comes first: a record, or none
if it is a definition.  All that the item refers to has to be defined.
-/
inductive Item.Means (earlier : List Item) : Item → Option Record → Prop where
  | header (start : Header) : Means earlier (.header start) (some (.header start))
  | text (number : UInt32) (value : String) : Means earlier (.text number value) none
  | frame (number nameNumber fileNumber line : UInt32) (kind : FrameKind) {name file : String}
      (nameDefined : latestText? nameNumber earlier = some name)
      (fileDefined : latestText? fileNumber earlier = some file) :
      Means earlier (.frame number nameNumber fileNumber line kind) none
  | threadName (thread : ThreadId) (number : UInt32) {name : String}
      (defined : latestText? number earlier = some name) :
      Means earlier (.threadName thread number) (some (.threadName thread name))
  | sample (thread : ThreadId) (task : Option TaskId) (metric : Metric) (numbers : List UInt32)
      {stack : List Frame}
      (defined : List.Forall₂ (fun number frame => latestFrame? number earlier = some frame)
        numbers stack) :
      Means earlier (.sample thread task metric numbers)
        (some (.sample ⟨thread, task, metric, stack⟩))
  | marker (thread : ThreadId) (reason : UInt8) :
      Means earlier (.marker thread reason) (some (.marker ⟨thread, .ofCode reason⟩))

/-- The records that items stand for behind `earlier` ones, of which the last one comes first. -/
inductive Denotes : List Item → List Item → List Record → Prop where
  | nil {earlier : List Item} : Denotes earlier [] []
  | cons {earlier items : List Item} {entry : Item} {record? : Option Record}
      {records : List Record} (means : entry.Means earlier record?)
      (later : Denotes (entry :: earlier) items records) :
      Denotes earlier (entry :: items) (record?.toList ++ records)

/-- Tables that hold the latest definitions of some items, of which the last one comes first. -/
structure Definitions.Reflects (known : Definitions) (earlier : List Item) : Prop where
  texts : ∀ number, known.texts[number]? = latestText? number earlier
  frames : ∀ number, known.frames[number]? = latestFrame? number earlier

namespace Definitions

variable {known : Definitions} {earlier : List Item}

theorem reflects_nil : ({} : Definitions).Reflects [] where
  texts := fun _ => Std.ExtTreeMap.getElem?_empty
  frames := fun _ => Std.ExtTreeMap.getElem?_empty

theorem Reflects.text (reflects : known.Reflects earlier) (number : UInt32) (value : String) :
    ({ known with texts := known.texts.insert number value } : Definitions).Reflects
      (.text number value :: earlier) where
  texts := by
    intro other
    rw [Std.ExtTreeMap.getElem?_insert, latestText?, reflects.texts]
    simp only [Std.LawfulEqCmp.compare_eq_iff_eq]
  frames := reflects.frames

theorem Reflects.frame
    (reflects : known.Reflects earlier) (number : UInt32) {nameNumber fileNumber : UInt32}
    {name file : String} (nameDefined : latestText? nameNumber earlier = some name)
    (fileDefined : latestText? fileNumber earlier = some file) (line : UInt32)
    (kind : FrameKind) :
    ({ known with frames := known.frames.insert number ⟨name, file, line, kind⟩ } :
      Definitions).Reflects (.frame number nameNumber fileNumber line kind :: earlier) where
  texts := reflects.texts
  frames := by
    intro other
    rw [Std.ExtTreeMap.getElem?_insert, latestFrame?, nameDefined, fileDefined, reflects.frames]
    simp only [Std.LawfulEqCmp.compare_eq_iff_eq]
    rfl

/-- An item that makes no definition leaves the tables right. -/
theorem Reflects.skip
    (reflects : known.Reflects earlier) {entry : Item}
    (noText : ∀ number, latestText? number (entry :: earlier) = latestText? number earlier)
    (noFrame : ∀ number, latestFrame? number (entry :: earlier) = latestFrame? number earlier) :
    known.Reflects (entry :: earlier) where
  texts := fun number => (reflects.texts number).trans (noText number).symm
  frames := fun number => (reflects.frames number).trans (noFrame number).symm

theorem framesOf?_eq_some_iff (reflects : known.Reflects earlier)
    {numbers : List UInt32} {stack : List Frame} :
    known.framesOf? numbers = some stack ↔
      List.Forall₂ (fun number frame => latestFrame? number earlier = some frame)
        numbers stack := by
  induction numbers generalizing stack with
  | nil =>
      rw [List.forall₂_nil_left_iff]
      exact ⟨fun equal => (Option.some.inj equal).symm, fun empty => by rw [empty]; rfl⟩
  | cons number numbers induction =>
      rw [List.forall₂_cons_left_iff]
      simp only [framesOf?, Option.bind_eq_bind, Option.bind_eq_some_iff, Option.some.injEq,
        reflects.frames, induction]
      constructor
      · rintro ⟨first, firstDefined, others, othersDefined, rfl⟩
        exact ⟨first, others, firstDefined, othersDefined, rfl⟩
      · rintro ⟨first, others, firstDefined, othersDefined, rfl⟩
        exact ⟨first, firstDefined, others, othersDefined, rfl⟩

end Definitions

namespace Item

variable {known after : Definitions} {earlier : List Item} {entry : Item}
  {record? : Option Record}

/-- An item that can be followed with the tables has its meaning, and is in the tables then. -/
theorem means_of_denote
    (reflects : known.Reflects earlier) (denotes : entry.denote known = some (record?, after)) :
    entry.Means earlier record? ∧ after.Reflects (entry :: earlier) := by
  cases entry with
  | header start =>
      rcases denotes with ⟨rfl, rfl⟩
      exact ⟨.header start, reflects.skip (fun _ => rfl) fun _ => rfl⟩
  | text number value =>
      rcases denotes with ⟨rfl, rfl⟩
      exact ⟨.text number value, reflects.text number value⟩
  | frame number nameNumber fileNumber line kind =>
      simp only [denote, Option.bind_eq_bind, Option.bind_eq_some_iff, Option.some.injEq,
        Prod.mk.injEq, reflects.texts] at denotes
      rcases denotes with ⟨name, nameDefined, file, fileDefined, rfl, rfl⟩
      exact ⟨.frame number nameNumber fileNumber line kind nameDefined fileDefined,
        reflects.frame number nameDefined fileDefined line kind⟩
  | threadName thread number =>
      simp only [denote, Option.bind_eq_bind, Option.bind_eq_some_iff, Option.some.injEq,
        Prod.mk.injEq, reflects.texts] at denotes
      rcases denotes with ⟨name, defined, rfl, rfl⟩
      exact ⟨.threadName thread number defined, reflects.skip (fun _ => rfl) fun _ => rfl⟩
  | sample thread task metric numbers =>
      simp only [denote, Option.bind_eq_bind, Option.bind_eq_some_iff, Option.some.injEq,
        Prod.mk.injEq, Definitions.framesOf?_eq_some_iff reflects] at denotes
      rcases denotes with ⟨stack, defined, rfl, rfl⟩
      exact ⟨.sample thread task metric numbers defined,
        reflects.skip (fun _ => rfl) fun _ => rfl⟩
  | marker thread reason =>
      rcases denotes with ⟨rfl, rfl⟩
      exact ⟨.marker thread reason, reflects.skip (fun _ => rfl) fun _ => rfl⟩

/-- An item with a meaning can be followed with the tables. -/
theorem denote_of_means
    (reflects : known.Reflects earlier) (means : entry.Means earlier record?) :
    ∃ after, entry.denote known = some (record?, after) := by
  cases means with
  | header start => exact ⟨_, rfl⟩
  | text number value => exact ⟨_, rfl⟩
  | frame number nameNumber fileNumber line kind nameDefined fileDefined =>
      exact ⟨_, by simp only [denote, reflects.texts, nameDefined, fileDefined]; rfl⟩
  | threadName thread number defined =>
      exact ⟨_, by simp only [denote, reflects.texts, defined]; rfl⟩
  | sample thread task metric numbers defined =>
      rw [← Definitions.framesOf?_eq_some_iff reflects] at defined
      exact ⟨_, by simp only [denote, defined]; rfl⟩
  | marker thread reason => exact ⟨_, rfl⟩

end Item

/-- Items denote records exactly if they can be followed with tables, and then the same ones. -/
theorem denotes_iff {known : Definitions} {earlier items : List Item} {records : List Record}
    (reflects : known.Reflects earlier) :
    Denotes earlier items records ↔ ∃ after, denoteAll known items = some (records, after) := by
  constructor
  · intro denotes
    induction denotes generalizing known with
    | nil => exact ⟨known, rfl⟩
    | cons means _ induction =>
        rcases Item.denote_of_means reflects means with ⟨between, first⟩
        rcases induction (Item.means_of_denote reflects first).2 with ⟨after, rest⟩
        exact ⟨after, by simp only [denoteAll, first, rest, Option.bind_eq_bind, Option.bind_some]⟩
  · rintro ⟨after, denotes⟩
    induction items generalizing known earlier records with
    | nil =>
        simp only [denoteAll, Option.some.injEq, Prod.mk.injEq] at denotes
        rw [← denotes.1]
        exact .nil
    | cons entry items induction =>
        simp only [denoteAll, Option.bind_eq_bind, Option.bind_eq_some_iff, Prod.exists,
          Option.some.injEq, Prod.mk.injEq] at denotes
        rcases denotes with ⟨record?, between, first, others, _, rest, rfl, rfl⟩
        rcases Item.means_of_denote reflects first with ⟨means, still⟩
        exact .cons means (induction still rest)

/-! ## Words that were read -/

theorem bytesOf_valueOf {count : Nat} {bytes : List UInt8} (length : bytes.length = count) :
    bytesOf count (valueOf bytes) = bytes := by
  induction bytes generalizing count with
  | nil =>
      subst length
      rfl
  | cons byte rest induction =>
      subst length
      have low : UInt8.ofNat ((byte.toNat + 256 * valueOf rest) % 256) = byte := by
        rw [Nat.add_mul_mod_self_left, Nat.mod_eq_of_lt byte.toNat_lt, UInt8.ofNat_toNat]
      have high : (byte.toNat + 256 * valueOf rest) / 256 = valueOf rest := by
        have small := byte.toNat_lt
        omega
      rw [List.length_cons, bytesOf, valueOf, low, high, induction rfl]

theorem valueOf_lt (bytes : List UInt8) : valueOf bytes < 256 ^ bytes.length := by
  induction bytes with
  | nil => simp [valueOf]
  | cons byte rest induction =>
      have small := byte.toNat_lt
      rw [valueOf, List.length_cons, Nat.pow_succ]
      omega

theorem bytes32_word32 {bytes : List UInt8} (length : bytes.length = 4) :
    bytes32 (word32 bytes) = bytes := by
  have small : valueOf bytes < 2 ^ 32 := by
    simpa [length] using valueOf_lt bytes
  rw [bytes32, word32, UInt32.toNat_ofNat', Nat.mod_eq_of_lt small, bytesOf_valueOf length]

theorem bytes64_word64 {bytes : List UInt8} (length : bytes.length = 8) :
    bytes64 (word64 bytes) = bytes := by
  have small : valueOf bytes < 2 ^ 64 := by
    simpa [length] using valueOf_lt bytes
  rw [bytes64, word64, UInt64.toNat_ofNat', Nat.mod_eq_of_lt small, bytesOf_valueOf length]

/-! ## Reading that succeeded -/

namespace Reading

section

variable {σ α β : Type} {step : Reading σ α} {next : α → Reading σ β}
  {reader after : Reader σ}

/-- Both halves of a reading that succeeded have succeeded. -/
theorem ok_of_bind {value : β} (ran : (step >>= next) reader = (.ok value, after)) :
    ∃ first between, step reader = (.ok first, between) ∧
      next first between = (.ok value, after) := by
  rcases stepRan : step reader with ⟨first | first, between⟩
  · rw [bind_of_error stepRan] at ran
    cases ran
  · rw [bind_of_ok stepRan] at ran
    exact ⟨first, between, rfl, ran⟩

theorem ok_of_map {change : α → β} {value : β}
    (ran : (change <$> step) reader = (.ok value, after)) :
    ∃ first, step reader = (.ok first, after) ∧ change first = value := by
  rw [← bind_pure_comp] at ran
  rcases ok_of_bind ran with ⟨first, between, stepRan, rest⟩
  cases rest
  exact ⟨first, stepRan, rfl⟩

theorem ok_of_orRefuse {cause : Malformed} {value? : Option α} {value : α}
    (ran : (orRefuse cause value? : Reading σ α) reader = (.ok value, after)) :
    value? = some value ∧ after = reader := by
  cases value? with
  | none => cases ran
  | some given =>
      cases ran
      exact ⟨rfl, rfl⟩

end

variable {known : Definitions} {input : List UInt8} {after : Reader (List UInt8)}

theorem split_of_bytes {count : Nat} {chunk : List UInt8}
    (ran : bytes .memory count (known.reader input) = (.ok chunk, after)) :
    ∃ rest, input = chunk ++ rest ∧ chunk.length = count ∧ after = known.reader rest := by
  simp only [bytes, Source.memory, Definitions.reader] at ran
  split at ran
  · rename_i full
    cases ran
    exact ⟨input.drop count, (List.take_append_drop count input).symm, full, rfl⟩
  · cases ran

theorem split_of_byte {value : UInt8}
    (ran : byte .memory (known.reader input) = (.ok value, after)) :
    ∃ rest, input = value :: rest ∧ after = known.reader rest := by
  rcases ok_of_bind ran with ⟨chunk, between, read, taken⟩
  rcases split_of_bytes read with ⟨rest, rfl, length, rfl⟩
  rcases List.length_eq_one_iff.mp length with ⟨only, rfl⟩
  cases taken
  exact ⟨rest, rfl, rfl⟩

theorem split_of_half {value : UInt32}
    (ran : half .memory (known.reader input) = (.ok value, after)) :
    ∃ rest, input = bytes32 value ++ rest ∧ after = known.reader rest := by
  rcases ok_of_map ran with ⟨chunk, read, rfl⟩
  rcases split_of_bytes read with ⟨rest, rfl, length, rfl⟩
  exact ⟨rest, by rw [bytes32_word32 length], rfl⟩

theorem split_of_word {value : UInt64}
    (ran : word .memory (known.reader input) = (.ok value, after)) :
    ∃ rest, input = bytes64 value ++ rest ∧ after = known.reader rest := by
  rcases ok_of_map ran with ⟨chunk, read, rfl⟩
  rcases split_of_bytes read with ⟨rest, rfl, length, rfl⟩
  exact ⟨rest, by rw [bytes64_word64 length], rfl⟩

theorem defined_of_text {number : UInt32} {value : String}
    (ran : text number (known.reader input) = (.ok value, after)) :
    known.texts[number]? = some value ∧ after = known.reader input := by
  rcases ok_of_bind ran with ⟨_, _, read, found⟩
  cases read
  exact ok_of_orRefuse found

theorem defined_of_frame {number : UInt32} {value : Frame}
    (ran : frame number (known.reader input) = (.ok value, after)) :
    known.frames[number]? = some value ∧ after = known.reader input := by
  rcases ok_of_bind ran with ⟨_, _, read, found⟩
  cases read
  exact ok_of_orRefuse found

theorem split_of_metric {value : Metric}
    (ran : metric .memory (known.reader input) = (.ok value, after)) :
    ∃ rest, input = metricBytes value ++ rest ∧ after = known.reader rest := by
  rcases ok_of_bind ran with ⟨tag, _, tagRead, ran⟩
  rcases split_of_byte tagRead with ⟨behind, rfl, rfl⟩
  have one (build : UInt64 → Metric)
      (ran : (do pure (build (← word .memory))) (known.reader behind) = (.ok value, after)) :
      ∃ micros rest, value = build micros ∧ behind = bytes64 micros ++ rest ∧
        after = known.reader rest := by
    rcases ok_of_bind ran with ⟨micros, _, read, done⟩
    rcases split_of_word read with ⟨rest, rfl, rfl⟩
    cases done
    exact ⟨micros, rest, rfl, rfl, rfl⟩
  have two (build : UInt64 → UInt64 → Metric)
      (ran : (do
        let address ← word .memory
        pure (build address (← word .memory))) (known.reader behind) = (.ok value, after)) :
      ∃ address size rest, value = build address size ∧
        behind = bytes64 address ++ bytes64 size ++ rest ∧ after = known.reader rest := by
    rcases ok_of_bind ran with ⟨address, _, read, ran⟩
    rcases split_of_word read with ⟨others, rfl, rfl⟩
    rcases ok_of_bind ran with ⟨size, _, read, done⟩
    rcases split_of_word read with ⟨rest, rfl, rfl⟩
    cases done
    exact ⟨address, size, rest, rfl, by rw [List.append_assoc], rfl⟩
  split at ran
  · rename_i isTag
    rcases one .wallTime ran with ⟨micros, rest, rfl, rfl, rfl⟩
    exact ⟨rest, by rw [eq_of_beq isTag]; rfl, rfl⟩
  split at ran
  · rename_i isTag
    rcases one .cpuTime ran with ⟨micros, rest, rfl, rfl, rfl⟩
    exact ⟨rest, by rw [eq_of_beq isTag]; rfl, rfl⟩
  split at ran
  · rename_i isTag
    rcases two .allocation ran with ⟨address, size, rest, rfl, rfl, rfl⟩
    exact ⟨rest, by rw [eq_of_beq isTag]; rfl, rfl⟩
  split at ran
  · rename_i isTag
    rcases two .free ran with ⟨address, size, rest, rfl, rfl, rfl⟩
    exact ⟨rest, by rw [eq_of_beq isTag]; rfl, rfl⟩
  · cases ran

theorem split_of_frames {count : Nat} {values : List Frame}
    (ran : frames .memory count (known.reader input) = (.ok values, after)) :
    ∃ numbers rest, input = numbers.flatMap bytes32 ++ rest ∧ numbers.length = count ∧
      known.framesOf? numbers = some values ∧ after = known.reader rest := by
  induction count generalizing input values after with
  | zero =>
      cases ran
      exact ⟨[], input, rfl, rfl, rfl, rfl⟩
  | succ count induction =>
      rcases ok_of_bind ran with ⟨number, _, read, ran⟩
      rcases split_of_half read with ⟨behind, rfl, rfl⟩
      rcases ok_of_bind ran with ⟨first, _, found, ran⟩
      rcases defined_of_frame found with ⟨firstDefined, rfl⟩
      rcases ok_of_bind ran with ⟨others, _, othersRead, done⟩
      rcases induction othersRead with ⟨numbers, rest, rfl, length, othersDefined, rfl⟩
      cases done
      refine ⟨number :: numbers, rest, ?_, by rw [List.length_cons, length], ?_, rfl⟩
      · rw [List.flatMap_cons, List.append_assoc]
      · simp only [Definitions.framesOf?, firstDefined, othersDefined, Option.bind_eq_bind,
          Option.bind_some]

/-! ## Items that were read -/

theorem split_of_header {record : Record}
    (ran : header .memory (known.reader input) = (.ok record, after)) :
    ∃ start rest, record = .header start ∧ input = start.mode.code ::
        (bytes64 start.interval ++ bytes32 start.pid ++ bytes64 start.startTime) ++ rest ∧
      after = known.reader rest := by
  rcases ok_of_bind ran with ⟨code, _, read, ran⟩
  rcases split_of_byte read with ⟨_, rfl, rfl⟩
  rcases ok_of_bind ran with ⟨mode, _, known, ran⟩
  rcases ok_of_orRefuse known with ⟨isMode, rfl⟩
  rcases ok_of_bind ran with ⟨interval, _, read, ran⟩
  rcases split_of_word read with ⟨_, rfl, rfl⟩
  rcases ok_of_bind ran with ⟨pid, _, read, ran⟩
  rcases split_of_half read with ⟨_, rfl, rfl⟩
  rcases ok_of_bind ran with ⟨startTime, _, read, done⟩
  rcases split_of_word read with ⟨rest, rfl, rfl⟩
  cases done
  refine ⟨⟨mode, interval, pid, startTime⟩, rest, rfl, ?_, rfl⟩
  simp only [Mode.eq_code_of_ofCode? isMode, List.cons_append, List.append_assoc]

theorem split_of_textDefinition
    (ran : textDefinition .memory (known.reader input) = (.ok (), after)) :
    ∃ (number length : UInt32) (value : String) (rest : List UInt8),
      length.toNat = (Text.utf8 value).length ∧
      input = bytes32 number ++ bytes32 length ++ Text.utf8 value ++ rest ∧
      after = ({ known with texts := known.texts.insert number value } : Definitions).reader
        rest := by
  rcases ok_of_bind ran with ⟨number, _, read, ran⟩
  rcases split_of_half read with ⟨_, rfl, rfl⟩
  rcases ok_of_bind ran with ⟨length, _, read, ran⟩
  rcases split_of_half read with ⟨_, rfl, rfl⟩
  rcases ok_of_bind ran with ⟨content, _, read, ran⟩
  rcases split_of_bytes read with ⟨rest, rfl, counted, rfl⟩
  rcases ok_of_bind ran with ⟨value, _, decoded, done⟩
  rcases ok_of_orRefuse decoded with ⟨isText, rfl⟩
  cases done
  rw [Text.eq_utf8_of_ofUtf8? isText] at counted ⊢
  exact ⟨number, length, value, rest, counted.symm, by simp only [List.append_assoc], rfl⟩

theorem split_of_frameDefinition
    (ran : frameDefinition .memory (known.reader input) = (.ok (), after)) :
    ∃ (number nameNumber fileNumber line : UInt32) (kind : FrameKind) (name file : String)
      (rest : List UInt8),
      known.texts[nameNumber]? = some name ∧ known.texts[fileNumber]? = some file ∧
      input = bytes32 number ++ bytes32 nameNumber ++ bytes32 fileNumber ++ bytes32 line ++
        [kind.code] ++ rest ∧
      after = ({ known with
        frames := known.frames.insert number ⟨name, file, line, kind⟩ } : Definitions).reader
        rest := by
  rcases ok_of_bind ran with ⟨number, _, read, ran⟩
  rcases split_of_half read with ⟨_, rfl, rfl⟩
  rcases ok_of_bind ran with ⟨nameNumber, _, read, ran⟩
  rcases split_of_half read with ⟨_, rfl, rfl⟩
  rcases ok_of_bind ran with ⟨fileNumber, _, read, ran⟩
  rcases split_of_half read with ⟨_, rfl, rfl⟩
  rcases ok_of_bind ran with ⟨name, _, found, ran⟩
  rcases defined_of_text found with ⟨nameDefined, rfl⟩
  rcases ok_of_bind ran with ⟨file, _, found, ran⟩
  rcases defined_of_text found with ⟨fileDefined, rfl⟩
  rcases ok_of_bind ran with ⟨line, _, read, ran⟩
  rcases split_of_half read with ⟨_, rfl, rfl⟩
  rcases ok_of_bind ran with ⟨code, _, read, ran⟩
  rcases split_of_byte read with ⟨rest, rfl, rfl⟩
  rcases ok_of_bind ran with ⟨kind, _, decoded, done⟩
  rcases ok_of_orRefuse decoded with ⟨isKind, rfl⟩
  cases done
  refine ⟨number, nameNumber, fileNumber, line, kind, name, file, rest, nameDefined,
    fileDefined, ?_, rfl⟩
  simp only [FrameKind.eq_code_of_ofCode? isKind, List.append_assoc, List.singleton_append]

theorem split_of_threadName {record : Record}
    (ran : threadName .memory (known.reader input) = (.ok record, after)) :
    ∃ thread number name rest, record = .threadName thread name ∧
      known.texts[number]? = some name ∧ input = bytes64 thread ++ bytes32 number ++ rest ∧
      after = known.reader rest := by
  rcases ok_of_bind ran with ⟨thread, _, read, ran⟩
  rcases split_of_word read with ⟨_, rfl, rfl⟩
  rcases ok_of_bind ran with ⟨number, _, read, ran⟩
  rcases split_of_half read with ⟨rest, rfl, rfl⟩
  rcases ok_of_bind ran with ⟨name, _, found, done⟩
  rcases defined_of_text found with ⟨defined, rfl⟩
  cases done
  exact ⟨thread, number, name, rest, rfl, defined, by rw [List.append_assoc], rfl⟩

/-- The optional task of a sample was read, and what follows went on with it. -/
theorem split_of_task
    {α : Type} {next : Option TaskId → Reading (List UInt8) α} {value : α}
    (ran : (do
      let mark ← byte .memory
      let task ← if mark == 0 then pure none else some <$> word .memory
      next task) (known.reader input) = (.ok value, after)) :
    ∃ task part rest, TaskLaidOut task part ∧ input = part ++ rest ∧
      next task (known.reader rest) = (.ok value, after) := by
  rcases ok_of_bind ran with ⟨mark, _, read, ran⟩
  rcases split_of_byte read with ⟨behind, rfl, rfl⟩
  split at ran
  · rename_i isZero
    rcases ok_of_bind ran with ⟨_, _, nothing, ran⟩
    cases nothing
    exact ⟨none, [mark], behind, by rw [eq_of_beq isZero]; exact .absent, rfl, ran⟩
  · rename_i notZero
    rcases ok_of_bind ran with ⟨_, _, taskRead, goesOn⟩
    rcases ok_of_map taskRead with ⟨task, wordRead, rfl⟩
    rcases split_of_word wordRead with ⟨rest, rfl, rfl⟩
    exact ⟨some task, mark :: bytes64 task, rest, .present mark task (by simpa using notZero),
      rfl, goesOn⟩

theorem split_of_sample {record : Record}
    (ran : sample .memory (known.reader input) = (.ok record, after)) :
    ∃ (thread : ThreadId) (task : Option TaskId) (taskPart : List UInt8) (cost : Metric)
      (count : UInt32) (numbers : List UInt32) (stack : List Frame) (rest : List UInt8),
      record = .sample ⟨thread, task, cost, stack⟩ ∧ TaskLaidOut task taskPart ∧
      count.toNat = numbers.length ∧ known.framesOf? numbers = some stack ∧
      input = bytes64 thread ++ taskPart ++ metricBytes cost ++ bytes32 count ++
        numbers.flatMap bytes32 ++ rest ∧
      after = known.reader rest := by
  rcases ok_of_bind ran with ⟨thread, _, read, ran⟩
  rcases split_of_word read with ⟨_, rfl, rfl⟩
  rcases split_of_task ran with ⟨task, taskPart, _, taskLaidOut, rfl, goesOn⟩
  rcases ok_of_bind goesOn with ⟨cost, _, read, ran⟩
  rcases split_of_metric read with ⟨_, rfl, rfl⟩
  rcases ok_of_bind ran with ⟨count, _, read, ran⟩
  rcases split_of_half read with ⟨_, rfl, rfl⟩
  rcases ok_of_bind ran with ⟨stack, _, read, done⟩
  rcases split_of_frames read with ⟨numbers, rest, rfl, counted, defined, rfl⟩
  cases done
  refine ⟨thread, task, taskPart, cost, count, numbers, stack, rest, rfl, taskLaidOut,
    counted.symm, defined, ?_, rfl⟩
  simp only [List.append_assoc]

theorem split_of_marker {record : Record}
    (ran : marker .memory (known.reader input) = (.ok record, after)) :
    ∃ thread reason rest, record = .marker ⟨thread, .ofCode reason⟩ ∧
      input = bytes64 thread ++ [reason] ++ rest ∧ after = known.reader rest := by
  rcases ok_of_bind ran with ⟨thread, _, read, ran⟩
  rcases split_of_word read with ⟨_, rfl, rfl⟩
  rcases ok_of_bind ran with ⟨reason, _, read, done⟩
  rcases split_of_byte read with ⟨rest, rfl, rfl⟩
  cases done
  exact ⟨thread, reason, rest, rfl, by simp only [List.append_assoc, List.singleton_append], rfl⟩

/-- The bytes of an item that was read are laid out as an item, and denote what was found. -/
theorem split_of_item {code : UInt8} {record? : Option Record}
    (ran : item .memory code (known.reader input) = (.ok record?, after)) :
    ∃ (entry : Item) (body rest : List UInt8) (defined : Definitions),
      entry.LaidOut (code :: body) ∧ input = body ++ rest ∧
      entry.denote known = some (record?, defined) ∧
      after = defined.reader rest := by
  unfold item at ran
  split at ran
  · rename_i isCode
    rw [eq_of_beq isCode]
    rcases ok_of_map ran with ⟨record, read, rfl⟩
    rcases split_of_header read with ⟨start, rest, rfl, rfl, rfl⟩
    exact ⟨_, _, rest, known, .header start, rfl, rfl, rfl⟩
  split at ran
  · rename_i isCode
    rw [eq_of_beq isCode]
    rcases ok_of_bind ran with ⟨_, _, read, done⟩
    rcases split_of_textDefinition read with ⟨number, length, value, rest, counted, rfl, rfl⟩
    cases done
    exact ⟨_, _, rest, _, .text number length value counted, rfl, rfl, rfl⟩
  split at ran
  · rename_i isCode
    rw [eq_of_beq isCode]
    rcases ok_of_bind ran with ⟨_, _, read, done⟩
    rcases split_of_frameDefinition read with
      ⟨number, nameNumber, fileNumber, line, kind, name, file, rest, nameDefined, fileDefined,
        rfl, rfl⟩
    cases done
    refine ⟨_, _, rest, _, .frame number nameNumber fileNumber line kind, rfl, ?_, rfl⟩
    simp only [Item.denote, nameDefined, fileDefined, Option.bind_eq_bind, Option.bind_some]
  split at ran
  · rename_i isCode
    rw [eq_of_beq isCode]
    rcases ok_of_map ran with ⟨record, read, rfl⟩
    rcases split_of_threadName read with ⟨thread, number, name, rest, rfl, defined, rfl, rfl⟩
    refine ⟨_, _, rest, known, .threadName thread number, rfl, ?_, rfl⟩
    simp only [Item.denote, defined, Option.bind_eq_bind, Option.bind_some]
  split at ran
  · rename_i isCode
    rw [eq_of_beq isCode]
    rcases ok_of_map ran with ⟨record, read, rfl⟩
    rcases split_of_sample read with
      ⟨thread, task, taskPart, cost, count, numbers, stack, rest, rfl, taskLaidOut, counted,
        defined, rfl, rfl⟩
    refine ⟨_, _, rest, known,
      .sample thread task taskPart cost count numbers taskLaidOut counted, rfl, ?_, rfl⟩
    simp only [Item.denote, defined, Option.bind_eq_bind, Option.bind_some]
  split at ran
  · rename_i isCode
    rw [eq_of_beq isCode]
    rcases ok_of_map ran with ⟨record, read, rfl⟩
    rcases split_of_marker read with ⟨thread, reason, rest, rfl, rfl, rfl⟩
    exact ⟨_, _, rest, known, .marker thread reason, rfl, rfl, rfl⟩
  · cases ran

/--
A search for a record has passed over definitions and found a record, or has come to the end of the
input.
-/
theorem split_of_recordWithin {room : Nat} {record? : Option Record}
    (ran : recordWithin .memory room (known.reader input) = (.ok record?, after))
    (enough : input.length < room) :
    ∃ items chunks rest defined, List.Forall₂ Item.LaidOut items chunks ∧
      input = chunks.flatten ++ rest ∧
      denoteAll known items = some (record?.toList, defined) ∧ after = defined.reader rest ∧
      (record? = none → rest = []) ∧ (record?.isSome → rest.length < input.length) := by
  induction room generalizing known input with
  | zero => omega
  | succ room induction =>
      rcases ok_of_bind ran with ⟨code?, _, read, goesOn⟩
      cases input with
      | nil =>
          cases read
          cases goesOn
          exact ⟨[], [], [], known, .nil, rfl, rfl, rfl, fun _ => rfl, by simp⟩
      | cons code body =>
          cases read
          rcases ok_of_bind goesOn with ⟨found?, _, itemRead, goesOn⟩
          rcases split_of_item itemRead with
            ⟨entry, chunk, rest, between, laidOut, rfl, denotes, rfl⟩
          rw [List.length_cons, List.length_append] at enough
          cases found? with
          | some record =>
              cases goesOn
              refine ⟨[entry], [code :: chunk], rest, between, .cons laidOut .nil, ?_, ?_, rfl,
                ?_, ?_⟩
              · simp
              · simp [denoteAll, denotes]
              · simp
              · simp only [List.length_cons, List.length_append]
                omega
          | none =>
              -- Behind a definition the search goes on with less input and less room.
              rcases induction goesOn (by omega) with
                ⟨items, chunks, last, defined, othersLaidOut, rfl, othersDenote, rfl, ends, takes⟩
              refine ⟨entry :: items, (code :: chunk) :: chunks, last, defined,
                .cons laidOut othersLaidOut, ?_, ?_, rfl, ends, ?_⟩
              · simp
              · simp [denoteAll, denotes, othersDenote]
              · intro isRecord
                have shorter := takes isRecord
                simp only [List.length_cons, List.length_append] at shorter ⊢
                omega

end Reading

/-! ## The accepted streams -/

/-- Records were read to the end of the input, so the input consists of items that denote them. -/
theorem split_of_recordsWithin
    {known : Definitions} {input : List UInt8} {fuel : Nat} {records : List Record}
    (ran : Reader.recordsWithin .memory fuel (known.reader input) = (records, none))
    (enough : input.length < fuel) :
    ∃ items chunks defined, List.Forall₂ Item.LaidOut items chunks ∧ input = chunks.flatten ∧
      denoteAll known items = some (records, defined) := by
  induction fuel generalizing known input records with
  | zero => omega
  | succ fuel induction =>
      rw [recordsWithin_succ] at ran
      rcases found : Reading.recordWithin .memory (fuel + 1) (known.reader input) with
        ⟨_ | record?, after⟩
      · rw [found] at ran
        cases ran
      · rcases Reading.split_of_recordWithin found enough with
          ⟨items, chunks, rest, defined, laidOut, rfl, denotes, rfl, ends, takes⟩
        rw [found] at ran
        cases record? with
        | none =>
            cases ran
            exact ⟨items, chunks, defined, laidOut, by rw [ends rfl, List.append_nil], denotes⟩
        | some record =>
            rcases others : Reader.recordsWithin .memory fuel (defined.reader rest) with
              ⟨late, ending⟩
            rw [recordsAfter, others] at ran
            cases ran
            have shorter := takes rfl
            rcases induction others (by omega) with
              ⟨lateItems, lateChunks, last, lateLaidOut, rfl, lateDenotes⟩
            refine ⟨items ++ lateItems, chunks ++ lateChunks, last,
              List.rel_append laidOut lateLaidOut, by rw [List.flatten_append], ?_⟩
            exact denoteAll_append denotes lateDenotes

/-- A stream that was opened begins with the preamble. -/
theorem split_of_start {input : List UInt8} {reader : Reader (List UInt8)}
    (ran : Reader.start .memory input = (.ok (), reader)) :
    ∃ rest, input = preamble ++ rest ∧ reader = ({} : Definitions).reader rest := by
  rcases Reading.ok_of_bind ran with ⟨found, between, read, goesOn⟩
  have fresh : Reading.bytes .memory 8 (({} : Definitions).reader input) =
      (.ok found, between) := read
  rcases Reading.split_of_bytes fresh with ⟨_, rfl, _, rfl⟩
  split at goesOn
  · rcases Reading.ok_of_bind goesOn with ⟨_, _, refused, _⟩
    cases refused
  rename_i isMagic
  rcases Reading.ok_of_bind goesOn with ⟨_, _, read, goesOn⟩
  rcases Reading.split_of_half read with ⟨rest, rfl, rfl⟩
  split at goesOn
  · cases goesOn
  rename_i isVersion
  cases goesOn
  rw [bne_iff_ne, not_not] at isMagic isVersion
  exact ⟨rest, by rw [isMagic, isVersion, preamble, List.append_assoc], rfl⟩

/-- What was read as records is the preamble, and items behind it that denote the records. -/
theorem split_of_readAll {input : List UInt8} {records : List Record}
    (ran : Reader.readAll .memory input = .ok records) :
    ∃ items chunks defined, input = preamble ++ chunks.flatten ∧
      List.Forall₂ Item.LaidOut items chunks ∧ denoteAll {} items = some (records, defined) := by
  rcases opened : Reader.start .memory input with ⟨_ | _, reader⟩
  · rw [Reader.readAll, opened] at ran
    cases ran
  rcases split_of_start opened with ⟨rest, rfl, rfl⟩
  rcases found : Reader.recordsWithin .memory (rest.length + 1)
    (({} : Definitions).reader rest) with ⟨given, _ | error⟩
  · rcases split_of_recordsWithin found (Nat.lt_succ_self _) with
      ⟨items, chunks, defined, laidOut, rfl, denotes⟩
    rw [readAll_preamble, ← recordsWithin_succ, found] at ran
    cases ran
    exact ⟨items, chunks, defined, rfl, laidOut, denotes⟩
  · rw [readAll_preamble, ← recordsWithin_succ, found] at ran
    cases ran

/--
A stream in memory is read as some records exactly if it is the preamble followed by items that
denote these records.
-/
theorem readAll_eq_ok_iff (input : List UInt8) (records : List Record) :
    Reader.readAll .memory input = .ok records ↔
      ∃ items chunks, input = magic ++ bytes32 version ++ chunks.flatten ∧
        List.Forall₂ Item.LaidOut items chunks ∧ Denotes [] items records := by
  constructor
  · intro ran
    rcases split_of_readAll ran with ⟨items, chunks, defined, rfl, laidOut, denotes⟩
    have records := (denotes_iff Definitions.reflects_nil).mpr ⟨defined, denotes⟩
    exact ⟨items, chunks, rfl, laidOut, records⟩
  · rintro ⟨items, chunks, rfl, laidOut, denotes⟩
    rcases (denotes_iff Definitions.reflects_nil).mp denotes with ⟨defined, followed⟩
    exact readAll_of_laidOut laidOut followed

end StackSampler.Stream
