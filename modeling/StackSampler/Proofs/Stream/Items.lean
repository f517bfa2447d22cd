import Mathlib.Algebra.Ring.Nat
import Mathlib.Data.List.Forall2
import Std.Data.ExtTreeMap
import StackSampler.Stream.Reader

/-!
# Items and what they denote

An item of a stream denotes a record, or a definition that later items refer to.  `Item.denote`
says this without any bytes, against the definitions made so far.  The main results of this module
say that the reader, given the bytes of items held in memory, finds exactly what the items denote
and leaves what stands behind them.
-/

namespace StackSampler.Stream

/-! ## What items denote -/

/-- The texts and frames that a stream has defined so far. -/
structure Definitions where
  texts : Std.ExtTreeMap UInt32 String := ∅
  frames : Std.ExtTreeMap UInt32 Frame := ∅

/-- A reader of bytes in memory that knows some definitions. -/
def Definitions.reader (known : Definitions) (bytes : List UInt8) : Reader (List UInt8) :=
  ⟨bytes, known.texts, known.frames⟩

/-- The frames that several numbers stand for, if all of them are defined. -/
def Definitions.framesOf? (known : Definitions) : List UInt32 → Option (List Frame)
  | [] => some []
  | number :: rest => do
      let first ← known.frames[number]?
      let others ← known.framesOf? rest
      some (first :: others)

/--
The record that an item stands for, if it is not a definition, and the definitions after it; `none`
if the item refers to a number that has not been defined.
-/
def Item.denote (known : Definitions) : Item → Option (Option Record × Definitions)
  | .header start => some (some (.header start), known)
  | .text number value => some (none, { known with texts := known.texts.insert number value })
  | .frame number nameNumber fileNumber line kind => do
      let name ← known.texts[nameNumber]?
      let file ← known.texts[fileNumber]?
      some (none, { known with frames := known.frames.insert number ⟨name, file, line, kind⟩ })
  | .threadName thread number => do
      let name ← known.texts[number]?
      some (some (.threadName thread name), known)
  | .sample thread task metric numbers => do
      let stack ← known.framesOf? numbers
      some (some (.sample ⟨thread, task, metric, stack⟩), known)
  | .marker thread reason => some (some (.marker ⟨thread, .ofCode reason⟩), known)

/-- The records that several items stand for, and the definitions after them. -/
def denoteAll (known : Definitions) : List Item → Option (List Record × Definitions)
  | [] => some ([], known)
  | item :: rest => do
      let (record?, known) ← item.denote known
      let (records, known) ← denoteAll known rest
      some (record?.toList ++ records, known)

theorem denoteAll_append
    {known middle after : Definitions} {front back : List Item} {early late : List Record}
    (frontDenotes : denoteAll known front = some (early, middle))
    (backDenotes : denoteAll middle back = some (late, after)) :
    denoteAll known (front ++ back) = some (early ++ late, after) := by
  induction front generalizing known early with
  | nil =>
      simp only [denoteAll, Option.some.injEq, Prod.mk.injEq] at frontDenotes
      rcases frontDenotes with ⟨rfl, rfl⟩
      exact backDenotes
  | cons item rest induction =>
      simp only [denoteAll, Option.bind_eq_bind, Option.bind_eq_some_iff, Prod.exists,
        Option.some.injEq, Prod.mk.injEq] at frontDenotes
      rcases frontDenotes with ⟨record?, between, itemDenotes, records, _, restDenotes, rfl, rfl⟩
      have following := induction restDenotes
      simp only [List.cons_append, denoteAll, itemDenotes, Option.bind_eq_bind,
        Option.bind_some, following, List.append_assoc]

theorem exists_of_denoteAll_append
    {known after : Definitions} {front back : List Item} {records : List Record}
    (denotes : denoteAll known (front ++ back) = some (records, after)) :
    ∃ early middle late, denoteAll known front = some (early, middle) ∧
      denoteAll middle back = some (late, after) ∧ records = early ++ late := by
  induction front generalizing known records with
  | nil => exact ⟨[], known, records, rfl, denotes, rfl⟩
  | cons entry rest induction =>
      simp only [List.cons_append, denoteAll, Option.bind_eq_bind, Option.bind_eq_some_iff,
        Prod.exists, Option.some.injEq, Prod.mk.injEq] at denotes
      rcases denotes with ⟨record?, between, entryDenotes, others, _, restDenotes, rfl, rfl⟩
      rcases induction restDenotes with ⟨early, middle, late, frontDenotes, backDenotes, rfl⟩
      refine ⟨record?.toList ++ early, middle, late, ?_, backDenotes, by rw [List.append_assoc]⟩
      simp only [denoteAll, entryDenotes, frontDenotes, Option.bind_eq_bind, Option.bind_some]

/-- Whether the counts in an item fit into their four bytes. -/
def Item.Fits : Item → Prop
  | .text _ value => (Text.utf8 value).length < 2 ^ 32
  | .sample _ _ _ numbers => numbers.length < 2 ^ 32
  | _ => True

/-! ## How items are laid out -/

/-- The bytes of an optional task: a mark, and the task if the mark is not zero. -/
inductive TaskLaidOut : Option TaskId → List UInt8 → Prop where
  | absent : TaskLaidOut none [0]
  | present (mark : UInt8) (task : TaskId) (marked : mark ≠ 0) :
      TaskLaidOut (some task) (mark :: bytes64 task)

/--
The bytes that an item may have.  They are those that the item is written with, except that any
mark but zero may stand before the task of a sample.
-/
inductive Item.LaidOut : Item → List UInt8 → Prop where
  | header (start : Header) :
      LaidOut (.header start) (headerCode :: start.mode.code ::
        (bytes64 start.interval ++ bytes32 start.pid ++ bytes64 start.startTime))
  | text (number length : UInt32) (value : String)
      (counted : length.toNat = (Text.utf8 value).length) :
      LaidOut (.text number value) (textCode ::
        (bytes32 number ++ bytes32 length ++ Text.utf8 value))
  | frame (number name file line : UInt32) (kind : FrameKind) :
      LaidOut (.frame number name file line kind) (frameCode ::
        (bytes32 number ++ bytes32 name ++ bytes32 file ++ bytes32 line ++ [kind.code]))
  | threadName (thread : ThreadId) (name : UInt32) :
      LaidOut (.threadName thread name) (threadNameCode :: (bytes64 thread ++ bytes32 name))
  | sample (thread : ThreadId) (task : Option TaskId) (taskPart : List UInt8) (metric : Metric)
      (count : UInt32) (frames : List UInt32) (taskLaidOut : TaskLaidOut task taskPart)
      (counted : count.toNat = frames.length) :
      LaidOut (.sample thread task metric frames) (sampleCode ::
        (bytes64 thread ++ taskPart ++ metricBytes metric ++ bytes32 count ++
          frames.flatMap bytes32))
  | marker (thread : ThreadId) (reason : UInt8) :
      LaidOut (.marker thread reason) (markerCode :: (bytes64 thread ++ [reason]))

theorem bytes32_ofNat {count : Nat} (small : count < 2 ^ 32) :
    bytes32 (UInt32.ofNat count) = bytesOf 4 count := by
  rw [bytes32, UInt32.toNat_ofNat', Nat.mod_eq_of_lt small]

theorem taskBytes_laidOut (task : Option TaskId) : TaskLaidOut task (taskBytes task) := by
  cases task with
  | none => exact .absent
  | some task => exact .present 1 task (by decide)

/-- An item is laid out as it is written, if its counts fit. -/
theorem Item.bytes_laidOut {entry : Item} (fits : entry.Fits) : entry.LaidOut entry.bytes := by
  cases entry with
  | header start => exact .header start
  | text number value =>
      rw [Item.bytes, ← bytes32_ofNat fits]
      exact .text number _ value (by rw [UInt32.toNat_ofNat', Nat.mod_eq_of_lt fits])
  | frame number name file line kind => exact .frame number name file line kind
  | threadName thread name => exact .threadName thread name
  | sample thread task metric frames =>
      rw [Item.bytes, ← bytes32_ofNat fits]
      exact .sample thread task _ metric _ frames (taskBytes_laidOut task)
        (by rw [UInt32.toNat_ofNat', Nat.mod_eq_of_lt fits])
  | marker thread reason => exact .marker thread reason

theorem Item.LaidOut.nonempty {entry : Item} {chunk : List UInt8} (laidOut : entry.LaidOut chunk) :
    0 < chunk.length := by
  cases laidOut <;> simp

/-! ## Words -/

@[simp]
theorem valueOf_bytesOf (count value : Nat) :
    valueOf (bytesOf count value) = value % 256 ^ count := by
  induction count generalizing value with
  | zero => simp [bytesOf, valueOf, Nat.mod_one]
  | succ count ih =>
      have byte : (UInt8.ofNat (value % 256)).toNat = value % 256 := by
        simp
      rw [bytesOf, valueOf, ih, byte, Nat.pow_succ, Nat.mul_comm (256 ^ count) 256,
        Nat.mod_mul]

@[simp]
theorem word32_bytes32 (word : UInt32) : word32 (bytes32 word) = word := by
  have below : word.toNat < 256 ^ 4 := word.toNat_lt
  rw [word32, bytes32, valueOf_bytesOf, Nat.mod_eq_of_lt below]
  exact UInt32.ofNat_toNat

@[simp]
theorem word64_bytes64 (word : UInt64) : word64 (bytes64 word) = word := by
  have below : word.toNat < 256 ^ 8 := word.toNat_lt
  rw [word64, bytes64, valueOf_bytesOf, Nat.mod_eq_of_lt below]
  exact UInt64.ofNat_toNat

/-! ## Steps of a reader -/

namespace Reading

variable {σ α β : Type}

theorem bind_of_ok
    {step : Reading σ α} {next : α → Reading σ β} {reader after : Reader σ} {value : α}
    (ran : step reader = (.ok value, after)) :
    (step >>= next) reader = next value after := by
  show ExceptT.bind step next reader = _
  simp only [ExceptT.bind, ExceptT.mk, bind, StateT.bind, ran, ExceptT.bindCont]

theorem bind_of_error
    {step : Reading σ α} {next : α → Reading σ β} {reader after : Reader σ} {error : StreamError}
    (ran : step reader = (.error error, after)) :
    (step >>= next) reader = (.error error, after) := by
  show ExceptT.bind step next reader = _
  simp only [ExceptT.bind, ExceptT.mk, bind, StateT.bind, ran, ExceptT.bindCont]
  rfl

theorem map_of_ok
    {step : Reading σ α} {change : α → β} {reader after : Reader σ} {value : α}
    (ran : step reader = (.ok value, after)) :
    (change <$> step) reader = (.ok (change value), after) := by
  rw [← bind_pure_comp, bind_of_ok ran]
  rfl

theorem orRefuse_some
    (cause : Malformed) (value : α) (reader : Reader σ) :
    (orRefuse cause (some value) : Reading σ α) reader = (.ok value, reader) := rfl

/-- A number that is defined is looked up without touching the source. -/
theorem text_of_defined
    {reader : Reader σ} {number : UInt32} {value : String}
    (defined : reader.texts[number]? = some value) :
    text number reader = (.ok value, reader) := by
  show orRefuse _ reader.texts[number]? reader = _
  rw [defined]
  rfl

theorem frame_of_defined
    {reader : Reader σ} {number : UInt32} {value : Frame}
    (defined : reader.frames[number]? = some value) :
    frame number reader = (.ok value, reader) := by
  show orRefuse _ reader.frames[number]? reader = _
  rw [defined]
  rfl

/-! ## Words in memory -/

variable (known : Definitions) (rest : List UInt8)

theorem bytes_append
    (chunk : List UInt8) {count : Nat} (length : chunk.length = count) :
    bytes .memory count (known.reader (chunk ++ rest)) = (.ok chunk, known.reader rest) := by
  subst length
  simp [bytes, Source.memory, Definitions.reader]

theorem byte_cons (value : UInt8) :
    byte .memory (known.reader (value :: rest)) = (.ok value, known.reader rest) := by
  have taken : bytes .memory 1 (known.reader (value :: rest)) = (.ok [value], known.reader rest) :=
    bytes_append known rest [value] rfl
  rw [byte, bind_of_ok taken]
  rfl

theorem half_append (value : UInt32) :
    half .memory (known.reader (bytes32 value ++ rest)) = (.ok value, known.reader rest) := by
  have taken := bytes_append known rest (bytes32 value) (length_bytesOf 4 value.toNat)
  rw [half, map_of_ok taken, word32_bytes32]

theorem word_append (value : UInt64) :
    word .memory (known.reader (bytes64 value ++ rest)) = (.ok value, known.reader rest) := by
  have taken := bytes_append known rest (bytes64 value) (length_bytesOf 8 value.toNat)
  rw [word, map_of_ok taken, word64_bytes64]

/-! ## Parts of items -/

theorem metric_append (value : Metric) :
    metric .memory (known.reader (metricBytes value ++ rest)) =
      (.ok value, known.reader rest) := by
  cases value with
  | wallTime micros =>
      rw [metricBytes, List.cons_append, metric, bind_of_ok (byte_cons known _ _)]
      exact bind_of_ok (word_append known rest micros)
  | cpuTime micros =>
      rw [metricBytes, List.cons_append, metric, bind_of_ok (byte_cons known _ _)]
      exact bind_of_ok (word_append known rest micros)
  | allocation address size =>
      rw [metricBytes, List.cons_append, List.append_assoc, metric,
        bind_of_ok (byte_cons known _ _)]
      refine (bind_of_ok (word_append known _ address)).trans ?_
      exact bind_of_ok (word_append known rest size)
  | free address size =>
      rw [metricBytes, List.cons_append, List.append_assoc, metric,
        bind_of_ok (byte_cons known _ _)]
      refine (bind_of_ok (word_append known _ address)).trans ?_
      exact bind_of_ok (word_append known rest size)

theorem frames_append
    {numbers : List UInt32} {values : List Frame}
    (defined : known.framesOf? numbers = some values) :
    frames .memory numbers.length (known.reader (numbers.flatMap bytes32 ++ rest)) =
      (.ok values, known.reader rest) := by
  induction numbers generalizing values with
  | nil =>
      simp only [Definitions.framesOf?, Option.some.injEq] at defined
      subst defined
      rfl
  | cons number numbers induction =>
      simp only [Definitions.framesOf?, Option.bind_eq_bind, Option.bind_eq_some_iff,
        Option.some.injEq] at defined
      rcases defined with ⟨first, firstDefined, others, othersDefined, rfl⟩
      rw [List.flatMap_cons, List.append_assoc, List.length_cons, frames,
        bind_of_ok (half_append known _ number),
        bind_of_ok (frame_of_defined firstDefined),
        bind_of_ok (induction othersDefined)]
      rfl

/-- The optional task of a sample, after the mark that says whether there is one. -/
theorem task_append
    {task : Option TaskId} {part : List UInt8} (laidOut : TaskLaidOut task part)
    (next : Option TaskId → Reading (List UInt8) α) :
    (do
      let mark ← byte .memory
      let task ← if mark == 0 then pure none else some <$> word .memory
      next task)
      (known.reader (part ++ rest)) = next task (known.reader rest) := by
  cases laidOut with
  | absent =>
      rw [List.singleton_append, bind_of_ok (byte_cons known _ _)]
      exact bind_of_ok rfl
  | present mark task marked =>
      rw [List.cons_append, bind_of_ok (byte_cons known _ _), if_neg (by simpa using marked)]
      exact bind_of_ok (map_of_ok (word_append known rest task))

/-! ## Whole items -/

theorem header_append (value : Header) :
    header .memory (known.reader (value.mode.code ::
        (bytes64 value.interval ++ bytes32 value.pid ++ bytes64 value.startTime) ++ rest)) =
      (.ok (.header value), known.reader rest) := by
  rw [List.cons_append, List.append_assoc, List.append_assoc, header,
    bind_of_ok (byte_cons known _ _), Mode.ofCode?_code,
    bind_of_ok (orRefuse_some _ value.mode _),
    bind_of_ok (word_append known _ value.interval),
    bind_of_ok (half_append known _ value.pid),
    bind_of_ok (word_append known _ value.startTime)]
  rfl

theorem textDefinition_append
    (number length : UInt32) (value : String)
    (counted : length.toNat = (Text.utf8 value).length) :
    textDefinition .memory (known.reader (bytes32 number ++
        bytes32 length ++ Text.utf8 value ++ rest)) =
      (.ok (), ({ known with texts := known.texts.insert number value } : Definitions).reader
        rest) := by
  rw [List.append_assoc, List.append_assoc, textDefinition,
    bind_of_ok (half_append known _ number), bind_of_ok (half_append known _ length),
    bind_of_ok (bytes_append known rest (Text.utf8 value) counted.symm),
    Text.ofUtf8?_utf8, bind_of_ok (orRefuse_some _ value _)]
  rfl

theorem frameDefinition_append
    (number nameNumber fileNumber line : UInt32) (kind : FrameKind) {name file : String}
    (nameDefined : known.texts[nameNumber]? = some name)
    (fileDefined : known.texts[fileNumber]? = some file) :
    frameDefinition .memory (known.reader (bytes32 number ++ bytes32 nameNumber ++
        bytes32 fileNumber ++ bytes32 line ++ [kind.code] ++ rest)) =
      (.ok (), ({ known with
        frames := known.frames.insert number ⟨name, file, line, kind⟩ } : Definitions).reader
        rest) := by
  simp only [List.append_assoc, List.singleton_append]
  rw [frameDefinition, bind_of_ok (half_append known _ number),
    bind_of_ok (half_append known _ nameNumber), bind_of_ok (half_append known _ fileNumber),
    bind_of_ok (text_of_defined nameDefined), bind_of_ok (text_of_defined fileDefined),
    bind_of_ok (half_append known _ line), bind_of_ok (byte_cons known _ _),
    FrameKind.ofCode?_code, bind_of_ok (orRefuse_some _ kind _)]
  rfl

theorem threadName_append
    (thread : ThreadId) (number : UInt32) {name : String}
    (defined : known.texts[number]? = some name) :
    threadName .memory (known.reader (bytes64 thread ++ bytes32 number ++ rest)) =
      (.ok (.threadName thread name), known.reader rest) := by
  rw [List.append_assoc, threadName, bind_of_ok (word_append known _ thread),
    bind_of_ok (half_append known _ number), bind_of_ok (text_of_defined defined)]
  rfl

theorem sample_append
    (thread : ThreadId) {task : Option TaskId} {part : List UInt8} (cost : Metric)
    (count : UInt32) (numbers : List UInt32) {stack : List Frame}
    (laidOut : TaskLaidOut task part) (counted : count.toNat = numbers.length)
    (defined : known.framesOf? numbers = some stack) :
    sample .memory (known.reader (bytes64 thread ++ part ++ metricBytes cost ++
        bytes32 count ++ numbers.flatMap bytes32 ++ rest)) =
      (.ok (.sample ⟨thread, task, cost, stack⟩), known.reader rest) := by
  have framesRead := frames_append known rest defined
  rw [← counted] at framesRead
  simp only [List.append_assoc]
  rw [sample, bind_of_ok (word_append known _ thread)]
  refine (task_append known _ laidOut _).trans ?_
  rw [bind_of_ok (metric_append known _ cost), bind_of_ok (half_append known _ count),
    bind_of_ok framesRead]
  rfl

theorem marker_append (thread : ThreadId) (reason : UInt8) :
    marker .memory (known.reader (bytes64 thread ++ [reason] ++ rest)) =
      (.ok (.marker ⟨thread, .ofCode reason⟩), known.reader rest) := by
  rw [List.append_assoc, List.singleton_append, marker,
    bind_of_ok (word_append known _ thread), bind_of_ok (byte_cons known _ _)]
  rfl

/-- The reader finds in the bytes of an item what the item denotes. -/
theorem item_of_denote
    {known after : Definitions} {entry : Item} {chunk : List UInt8} {record? : Option Record}
    (laidOut : entry.LaidOut chunk) (denotes : entry.denote known = some (record?, after))
    (rest : List UInt8) :
    ∃ code body, chunk = code :: body ∧
      item .memory code (known.reader (body ++ rest)) = (.ok record?, after.reader rest) := by
  cases laidOut with
  | header value =>
      simp only [Item.denote, Option.some.injEq, Prod.mk.injEq] at denotes
      rcases denotes with ⟨rfl, rfl⟩
      exact ⟨_, _, rfl, map_of_ok (header_append known rest value)⟩
  | text number length value counted =>
      simp only [Item.denote, Option.some.injEq, Prod.mk.injEq] at denotes
      rcases denotes with ⟨rfl, rfl⟩
      exact ⟨_, _, rfl,
        bind_of_ok (textDefinition_append known rest number length value counted)⟩
  | frame number nameNumber fileNumber line kind =>
      simp only [Item.denote, Option.bind_eq_bind, Option.bind_eq_some_iff,
        Option.some.injEq, Prod.mk.injEq] at denotes
      rcases denotes with ⟨name, nameDefined, file, fileDefined, rfl, rfl⟩
      exact ⟨_, _, rfl, bind_of_ok (frameDefinition_append known rest number nameNumber
        fileNumber line kind nameDefined fileDefined)⟩
  | threadName thread number =>
      simp only [Item.denote, Option.bind_eq_bind, Option.bind_eq_some_iff,
        Option.some.injEq, Prod.mk.injEq] at denotes
      rcases denotes with ⟨name, defined, rfl, rfl⟩
      exact ⟨_, _, rfl, map_of_ok (threadName_append known rest thread number defined)⟩
  | sample thread task taskPart cost count numbers taskLaidOut counted =>
      simp only [Item.denote, Option.bind_eq_bind, Option.bind_eq_some_iff,
        Option.some.injEq, Prod.mk.injEq] at denotes
      rcases denotes with ⟨stack, defined, rfl, rfl⟩
      exact ⟨_, _, rfl, map_of_ok
        (sample_append known rest thread cost count numbers taskLaidOut counted defined)⟩
  | marker thread reason =>
      simp only [Item.denote, Option.some.injEq, Prod.mk.injEq] at denotes
      rcases denotes with ⟨rfl, rfl⟩
      exact ⟨_, _, rfl, map_of_ok (marker_append known rest thread reason)⟩

/-! ## Searching for a record -/

theorem nextByte_nil (known : Definitions) :
    nextByte .memory (known.reader []) = (.ok none, known.reader []) := rfl

theorem recordWithin_nil (known : Definitions) (room : Nat) :
    recordWithin .memory room (known.reader []) = (.ok none, known.reader []) := by
  cases room with
  | zero => rfl
  | succ room =>
      rw [recordWithin, bind_of_ok (nextByte_nil known)]
      rfl

/-- A definition is passed over, and known from then on. -/
theorem recordWithin_definition
    {known after : Definitions} {entry : Item} {chunk : List UInt8}
    (laidOut : entry.LaidOut chunk) (denotes : entry.denote known = some (none, after))
    (room : Nat) (rest : List UInt8) :
    recordWithin .memory (room + 1) (known.reader (chunk ++ rest)) =
      recordWithin .memory room (after.reader rest) := by
  rcases item_of_denote laidOut denotes rest with ⟨code, body, rfl, ran⟩
  have started : nextByte .memory (known.reader (code :: body ++ rest)) =
      (.ok (some code), known.reader (body ++ rest)) := rfl
  rw [recordWithin, bind_of_ok started]
  exact bind_of_ok ran

/-- An item that is no definition ends the search for the next record. -/
theorem recordWithin_record
    {known after : Definitions} {entry : Item} {chunk : List UInt8} {record : Record}
    (laidOut : entry.LaidOut chunk) (denotes : entry.denote known = some (some record, after))
    (room : Nat) (rest : List UInt8) :
    recordWithin .memory (room + 1) (known.reader (chunk ++ rest)) =
      (.ok (some record), after.reader rest) := by
  rcases item_of_denote laidOut denotes rest with ⟨code, body, rfl, ran⟩
  have started : nextByte .memory (known.reader (code :: body ++ rest)) =
      (.ok (some code), known.reader (body ++ rest)) := rfl
  rw [recordWithin, bind_of_ok started]
  exact bind_of_ok ran

end Reading

/-! ## Streams of items -/

/-- The records of a stream once the search for its next record has ended. -/
def recordsAfter (fuel : Nat) :
    Except StreamError (Option Record) × Reader (List UInt8) → List Record × Option StreamError
  | (.ok none, _) => ([], none)
  | (.ok (some record), after) =>
      let (records, ending) := Reader.recordsWithin .memory fuel after
      (record :: records, ending)
  | (.error error, _) => ([], some error)

theorem recordsWithin_succ (fuel : Nat) (reader : Reader (List UInt8)) :
    Reader.recordsWithin .memory (fuel + 1) reader =
      recordsAfter fuel (Reading.recordWithin .memory (fuel + 1) reader) := by
  rw [Reader.recordsWithin, Reader.nextWithin]
  show _ = recordsAfter fuel (((Reading.recordWithin .memory (fuel + 1)).run.run reader))
  generalize (Reading.recordWithin .memory (fuel + 1)).run.run reader = found
  rcases found with ⟨_ | _ | _, _⟩ <;> rfl

/-- Behind the last item there is nothing more to find. -/
theorem recordsAfter_nil (known : Definitions) (room fuel : Nat) :
    recordsAfter fuel (Reading.recordWithin .memory room (known.reader [])) = ([], none) := by
  rw [Reading.recordWithin_nil]
  rfl

/--
A search that may pass over all items of a stream, and go on after each record, gives the records
that the items denote, and then what a search behind the items gives.
-/
theorem recordsAfter_of_denoteAll
    {known after : Definitions} {items : List Item} {chunks : List (List UInt8)}
    {records late : List Record} {rest : List UInt8} {ending : Option StreamError}
    (laidOut : List.Forall₂ Item.LaidOut items chunks)
    (denotes : denoteAll known items = some (records, after))
    (behind : ∀ room fuel, rest.length < room → rest.length ≤ fuel →
      recordsAfter fuel (Reading.recordWithin .memory room (after.reader rest)) = (late, ending))
    (room fuel : Nat) (passes : (chunks.flatten ++ rest).length < room)
    (goesOn : (chunks.flatten ++ rest).length ≤ fuel) :
    recordsAfter fuel
        (Reading.recordWithin .memory room (known.reader (chunks.flatten ++ rest))) =
      (records ++ late, ending) := by
  induction laidOut generalizing known records room fuel with
  | nil =>
      simp only [denoteAll, Option.some.injEq, Prod.mk.injEq] at denotes
      rcases denotes with ⟨rfl, rfl⟩
      exact behind room fuel passes goesOn
  | @cons entry chunk items chunks entryLaidOut _ induction =>
      simp only [denoteAll, Option.bind_eq_bind, Option.bind_eq_some_iff, Prod.exists,
        Option.some.injEq, Prod.mk.injEq] at denotes
      rcases denotes with ⟨record?, between, entryDenotes, others, _, restDenotes, rfl, rfl⟩
      have nonempty := entryLaidOut.nonempty
      rw [List.flatten_cons, List.append_assoc] at passes goesOn ⊢
      rw [List.length_append] at passes goesOn
      obtain ⟨room, rfl⟩ : ∃ less, room = less + 1 := ⟨room - 1, by omega⟩
      obtain ⟨fuel, rfl⟩ : ∃ less, fuel = less + 1 := ⟨fuel - 1, by omega⟩
      cases record? with
      | none =>
          -- The same search goes on behind a definition, with less room.
          rw [Reading.recordWithin_definition entryLaidOut entryDenotes]
          exact induction restDenotes room (fuel + 1) (by omega) (by omega)
      | some record =>
          -- A record ends the search; the next one has room for all that is left.
          have following := induction restDenotes (fuel + 1) fuel (by omega) (by omega)
          rw [Reading.recordWithin_record entryLaidOut entryDenotes, recordsAfter,
            recordsWithin_succ, following]
          rfl

theorem forall₂_bytes_laidOut {items : List Item} (fits : ∀ entry ∈ items, entry.Fits) :
    List.Forall₂ Item.LaidOut items (items.map Item.bytes) := by
  rw [List.forall₂_map_right_iff, List.forall₂_same]
  exact fun entry member => Item.bytes_laidOut (fits entry member)

/-- The preamble of a stream is accepted, and the items behind it are left. -/
theorem start_preamble (bytes : List UInt8) :
    Reader.start .memory (preamble ++ bytes) = (.ok (), ({} : Definitions).reader bytes) := by
  have magicRead := Reading.bytes_append {} (bytes32 version ++ bytes) magic rfl
  have versionRead := Reading.half_append {} bytes version
  rw [← List.append_assoc] at magicRead
  rw [Reader.start]
  refine (Reading.bind_of_ok magicRead).trans ?_
  exact Reading.bind_of_ok versionRead

/-- Behind the preamble, a stream is read as far as records can be found. -/
theorem readAll_preamble (bytes : List UInt8) :
    Reader.readAll .memory (preamble ++ bytes) =
      match recordsAfter bytes.length
        (Reading.recordWithin .memory (bytes.length + 1) (({} : Definitions).reader bytes)) with
      | (records, none) => .ok records
      | (_, some error) => .error error := by
  rw [Reader.readAll, start_preamble]
  show (match Reader.recordsWithin .memory (bytes.length + 1) _ with
    | (records, none) => Except.ok records
    | (_, some error) => Except.error error) = _
  rw [recordsWithin_succ]

/-- A stream in memory whose items denote records is read as these records. -/
theorem readAll_of_laidOut
    {after : Definitions} {items : List Item} {chunks : List (List UInt8)}
    {records : List Record} (laidOut : List.Forall₂ Item.LaidOut items chunks)
    (denotes : denoteAll {} items = some (records, after)) :
    Reader.readAll .memory (preamble ++ chunks.flatten) = .ok records := by
  have found := recordsAfter_of_denoteAll laidOut denotes
    (fun room fuel (_ : ([] : List UInt8).length < room) _ => recordsAfter_nil after room fuel)
    (chunks.flatten.length + 1) chunks.flatten.length (by simp) (by simp)
  rw [List.append_nil, List.append_nil] at found
  rw [readAll_preamble, found]

/-- A stream is read as the records that its items denote, if the items are written as they are. -/
theorem readAll_of_denoteAll
    {after : Definitions} {items : List Item} {records : List Record}
    (fits : ∀ entry ∈ items, entry.Fits)
    (denotes : denoteAll {} items = some (records, after)) :
    Reader.readAll .memory (preamble ++ items.flatMap Item.bytes) = .ok records := by
  rw [List.flatMap_def]
  exact readAll_of_laidOut (forall₂_bytes_laidOut fits) denotes

end StackSampler.Stream
