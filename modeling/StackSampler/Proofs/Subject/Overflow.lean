import StackSampler.Proofs.Subject.Fidelity

/-!
# Where addresses exceed a word

Pointers are read from memory that nobody vouches for and become the bases of further reads.  With
a layout whose offsets and sizes are small, no size exceeds a word whatever the memory holds,
because every number that goes into one is bounded before.  An address does exceed it when its base
is a pointer to the last bytes of the address space, and in no other case.

The main statement is `question_ends`.  Each question is followed along its own recursion, and what
is carried along is that the next base is a pointer that is known.
-/

namespace StackSampler

namespace Layout

/-- Where the instruction field lies, and where the bytecode that it points into begins. -/
def Instruction.offsets : Instruction → List Offset
  | .index offset _ => [offset]
  | .pointer offset codeStart => [offset, codeStart]

/-- The offsets and sizes of a set. -/
def Container.offsets (container : Container) : List UInt64 :=
  [container.setTable, container.setMask, container.entrySize, container.entryKey,
    container.weakrefObject]

/-- The offsets of fields that a layout may lack. -/
def optionalOffsets (layout : Layout) : List (Option Offset) :=
  [layout.interpreter.finalizing, layout.thread.generation, layout.frame.isEntry,
    layout.frame.owner.map (·.offset), layout.code.qualname, layout.task.name, layout.task.loop,
    layout.coroutine.awaited]

/-- All offsets and sizes of a layout. -/
def offsets (layout : Layout) : List UInt64 :=
  [layout.interpreter.threadsHead, layout.thread.next, layout.thread.threadId,
    layout.thread.frame, layout.frame.previous, layout.frame.code, layout.code.name,
    layout.code.filename, layout.code.firstLine, layout.code.lineTable, layout.string.length,
    layout.string.data, layout.bytes.length, layout.bytes.data, layout.task.coroutine,
    layout.task.awaiting, layout.task.state, layout.coroutine.frame] ++
  layout.frame.instruction.offsets ++ layout.optionalOffsets.reduceOption ++
  (layout.containers.map (·.offsets)).getD []

/-- All offsets and sizes are below this number. -/
def Below (bound : Nat) (layout : Layout) : Prop :=
  ∀ offset ∈ layout.offsets, offset.toNat < bound

instance (bound : Nat) (layout : Layout) : Decidable (layout.Below bound) :=
  List.decidableBAll (fun offset : UInt64 => offset.toNat < bound) layout.offsets

theorem Below.optional {bound : Nat} {layout : Layout} (below : layout.Below bound)
    {field : Option Offset} (listed : field ∈ layout.optionalOffsets) {offset : Offset}
    (isField : field = some offset) : offset.toNat < bound := by
  have inList := List.reduceOption_mem_iff.mpr (isField ▸ listed)
  exact below offset (by simp [offsets, inList])

theorem Below.container {bound : Nat} {layout : Layout} (below : layout.Below bound)
    {container : Container} (isLayout : layout.containers = some container) :
    ∀ offset ∈ container.offsets, offset.toNat < bound :=
  fun offset member => below offset (by simp [offsets, isLayout, member])

end Layout

namespace Overflow

open StackSampler.Storing
open Structures (field)
open Query (answered computed)
open StackSampler.Stream (bytes64)

/-! ## How questions end -/

/-- How far from its base a field may lie. -/
def reach : Nat := 2 ^ 16

/--
A question ends with a value of which something is known, with an error, or at the address of a
field that exceeds a word, whose base is known.  It does not end at a size.
-/
inductive Ending {ε α : Type} (known : Address → Prop) (holds : α → Prop) :
    Except (Halt ε) α → Prop where
  | value {value : α} (held : holds value) : Ending known holds (.ok value)
  | failed {error : ε} : Ending known holds (.error (.failed error))
  | exceeded {base : Address} {offset : Offset} (isKnown : known base)
      (short : offset.toNat < reach) (exceeds : UInt64.size ≤ base.toNat + offset.toNat) :
      Ending known holds (.error (.exceeded (.place base offset)))

/-- A question ends so wherever it begins. -/
def Ends {σ ε α : Type} (known : Address → Prop) (query : Query σ ε α) (holds : α → Prop) : Prop :=
  ∀ before, Ending known holds (query.run.run before).1

section

variable {σ ε δ α β : Type} {known : Address → Prop} {holds : α → Prop} {found : β → Prop}

theorem Ending.mono {result : Except (Halt ε) α} {weaker : α → Prop}
    (ending : Ending known holds result) (weaken : ∀ value, holds value → weaker value) :
    Ending known weaker result := by
  cases ending with
  | value held => exact .value (weaken _ held)
  | failed => exact .failed
  | exceeded isKnown short exceeds => exact .exceeded isKnown short exceeds

/-- Where all known pointers are low enough, there is a value or an error. -/
theorem Ending.eq_mapError {result : Except (Halt ε) α} (ending : Ending known holds result)
    (low : ∀ base, known base → base.toNat + reach ≤ UInt64.size) :
    ∃ answer : Except ε α, result = answer.mapError .failed := by
  cases ending with
  | value held => exact ⟨.ok _, rfl⟩
  | failed => exact ⟨.error _, rfl⟩
  | exceeded isKnown short exceeds =>
      have below := low _ isKnown
      omega

theorem ends_pure {value : α} (held : holds value) :
    Ends known (pure value : Query σ ε α) holds :=
  fun _ => .value held

theorem ends_failed (error : ε) : Ends known (Query.failed error : Query σ ε α) holds :=
  fun _ => .failed

theorem Ends.bind {query : Query σ ε α} {next : α → Query σ ε β} (first : Ends known query holds)
    (second : ∀ value, holds value → Ends known (next value) found) :
    Ends known (query >>= next) found := by
  intro before
  have ending := first before
  rw [Query.bind_apply]
  generalize query.run.run before = ran at ending ⊢
  rcases ran with ⟨result, middle⟩
  cases ending with
  | value held => exact second _ held middle
  | failed => exact .failed
  | exceeded isKnown short exceeds => exact .exceeded isKnown short exceeds

theorem Ends.mono {query : Query σ ε α} {weaker : α → Prop} (ends : Ends known query holds)
    (weaken : ∀ value, holds value → weaker value) : Ends known query weaker :=
  fun before => (ends before).mono weaken

theorem Ends.map {query : Query σ ε α} (ends : Ends known query holds) (change : α → β) :
    Ends known (change <$> query) fun _ => True := by
  rw [map_eq_pure_bind]
  exact ends.bind fun _ _ => ends_pure trivial

theorem Ends.adapt {query : Query σ ε α} (ends : Ends known query holds) (change : ε → δ) :
    Ends known (ExceptT.adapt (Halt.map change) query) holds := by
  intro before
  have ending := ends before
  rw [Query.adapt_apply]
  generalize (query.run.run before).1 = result at ending ⊢
  cases ending with
  | value held => exact .value held
  | failed => exact .failed
  | exceeded isKnown short exceeds => exact .exceeded isKnown short exceeds

theorem ends_answered {query : ExceptT ε (StateM σ) α}
    (gives : ∀ before value after, query.run.run before = (.ok value, after) → holds value) :
    Ends known (answered query) holds := by
  intro before
  rw [answered, Query.adapt_apply]
  rcases ran : query.run.run before with ⟨error | value, after⟩
  · exact .failed
  · exact .value (gives before value after ran)

theorem ends_lift (query : StateM σ α) :
    Ends known (ExceptT.lift query : Query σ ε α) fun _ => True :=
  fun _ => .value trivial

/-! ## Operations -/

theorem ends_computed {operation : WordOperation} (fits : operation.Fits) :
    Ends known (computed operation : Query σ ε UInt64) (· = operation.result) := by
  rw [Query.computed_of_fits fits]
  exact ends_pure rfl

/-- The sum of two short sizes is a word. -/
theorem sum_fits {left right : UInt64} (first : left.toNat ≤ reach)
    (second : right.toNat ≤ reach) : (WordOperation.sum left right).Fits := by
  have both : left.toNat + right.toNat ≤ reach + reach := Nat.add_le_add first second
  exact Nat.lt_of_le_of_lt both (by decide)

/-- So is their product. -/
theorem product_fits {left right : UInt64} (first : left.toNat ≤ reach)
    (second : right.toNat ≤ reach) : (WordOperation.product left right).Fits := by
  have both : left.toNat * right.toNat ≤ reach * reach := Nat.mul_le_mul first second
  exact Nat.lt_of_le_of_lt both (by decide)

/-- An address is computed from a known base: it is a word, or the question ends there. -/
theorem ends_place {base : Address} {offset : Offset} (isKnown : known base)
    (short : offset.toNat < reach) :
    Ends known (computed (.place base offset) : Query σ ε Address) fun _ => True := by
  by_cases fits : (WordOperation.place base offset).Fits
  · exact (ends_computed fits).mono fun _ _ => trivial
  · intro before
    rw [Query.computed_of_not_fits fits]
    exact .exceeded isKnown short (Nat.not_lt.mp fits)

theorem ends_field {read : Address → ReadQuery σ α} {base : Address} {offset : Offset}
    (isKnown : known base) (short : offset.toNat < reach)
    (gives : ∀ address before value after,
      (read address).run.run before = (.ok value, after) → holds value) :
    Ends known (field read base offset) holds :=
  (ends_place isKnown short).bind fun address _ => ends_answered (gives address)

/-- As `ends_field`, where nothing is known of what the field holds. -/
theorem ends_plainField {read : Address → ReadQuery σ α} {base : Address} {offset : Offset}
    (isKnown : known base) (short : offset.toNat < reach) :
    Ends known (field read base offset) fun _ => True :=
  ends_field isKnown short fun _ _ _ _ _ => trivial

end

/-! ## Pointers that come from memory -/

/-- A word that memory gives to somebody who reads it, alone or in a longer stretch. -/
inductive Yields {σ : Type} (reader : MemoryReader σ) : UInt64 → Prop where
  | word {address : Address} {before after : σ} {word : UInt64}
      (read : (reader.word address).run.run before = (.ok word, after)) : Yields reader word
  | part {address : Address} {count : Nat} {before after : σ} {bytes part : List UInt8}
      (read : (reader.bytes count address).run.run before = (.ok bytes, after))
      (inside : part <:+: bytes) (short : part.length ≤ 8) : Yields reader (Stream.word64 part)

section

variable {σ : Type} {structures : Structures σ} {known : Address → Prop}
  (bounded : structures.layout.Below reach)
  (yielded : ∀ word, Yields structures.memory word → known word)

include yielded in
theorem ends_word {base : Address} {offset : Offset} (isKnown : known base)
    (short : offset.toNat < reach) : Ends known (field structures.memory.word base offset) known :=
  ends_field isKnown short fun _ _ _ _ read => yielded _ (.word read)

include yielded in
theorem ends_stretch {address : Address} {count : Nat} :
    Ends known (answered (structures.memory.bytes count address))
      fun bytes => ∀ part, part <:+: bytes → part.length ≤ 8 → known (Stream.word64 part) :=
  ends_answered fun _ _ _ read _ inside short => yielded _ (.part read inside short)

/-! ## Objects -/

include yielded in
theorem ends_objectData {object : Address} {layout : Layout.VarObject} (isKnown : known object)
    (length : layout.length.toNat < reach) (data : layout.data.toNat < reach) :
    Ends known (structures.objectData object layout) fun _ => True := by
  refine (ends_word yielded isKnown length).bind fun count _ => ?_
  split
  · exact ends_failed _
  · exact ends_plainField isKnown data

include bounded yielded in
theorem ends_text {object : Address} (isKnown : known object) :
    Ends known (structures.text object) fun _ => True := by
  have length := bounded structures.layout.string.length (by simp [Layout.offsets])
  have data := bounded structures.layout.string.data (by simp [Layout.offsets])
  exact (ends_objectData yielded isKnown length data).bind fun _ _ => ends_pure trivial

include bounded yielded in
theorem ends_textField {object : Address} {offset : Offset} (isKnown : known object)
    (short : offset.toNat < reach) :
    Ends known (structures.textField object offset) fun _ => True :=
  (ends_word yielded isKnown short).bind fun _ target => ends_text bounded yielded target

include yielded in
theorem ends_pointer? {object : Address} {offset : Option Offset} (isKnown : known object)
    (short : ∀ field, offset = some field → field.toNat < reach) :
    Ends known (structures.pointer? object offset)
      fun target => ∀ place, target = some place → known place := by
  cases offset with
  | none => exact ends_pure nofun
  | some offset =>
      refine (ends_word yielded isKnown (short offset rfl)).bind fun target isTarget => ?_
      refine ends_pure fun place points => ?_
      unfold Structures.present at points
      split at points
      · cases points
      · exact Option.some.inj points ▸ isTarget

include bounded yielded in
theorem ends_text? {object : Address} {offset : Option Offset} (isKnown : known object)
    (short : ∀ field, offset = some field → field.toNat < reach) :
    Ends known (structures.text? object offset) fun _ => True := by
  refine (ends_pointer? yielded isKnown short).bind fun target points => ?_
  cases target with
  | none => exact ends_pure trivial
  | some place => exact (ends_text bounded yielded (points place rfl)).map some

/-! ## Frames and code units -/

include bounded yielded in
theorem ends_instructionOffset {place code : Address} (isPlace : known place)
    (isCode : known code) :
    Ends known (structures.instructionOffset place code) fun _ => True := by
  unfold Structures.instructionOffset
  cases kind : structures.layout.frame.instruction with
  | index offset unit =>
      have short := bounded offset (by simp [Layout.offsets, Layout.Instruction.offsets, kind])
      exact (ends_plainField isPlace short).bind fun _ _ => ends_pure trivial
  | pointer offset codeStart =>
      have short := bounded offset (by simp [Layout.offsets, Layout.Instruction.offsets, kind])
      have start := bounded codeStart (by simp [Layout.offsets, Layout.Instruction.offsets, kind])
      refine (ends_word yielded isPlace short).bind fun _ _ => ?_
      exact (ends_place isCode start).bind fun _ _ => ends_pure trivial

include bounded in
theorem ends_entryMark {place : Address} (isKnown : known place) :
    Ends known (structures.entryMark place) fun _ => True := by
  unfold Structures.entryMark
  cases isField : structures.layout.frame.isEntry with
  | none => exact ends_pure trivial
  | some offset =>
      have short := bounded.optional (by simp [Layout.optionalOffsets]) isField
      exact (ends_plainField isKnown short).bind fun _ _ => ends_pure trivial

include bounded in
theorem ends_shimMark {place : Address} (isKnown : known place) :
    Ends known (structures.shimMark place) fun _ => True := by
  unfold Structures.shimMark
  cases isOwner : structures.layout.frame.owner with
  | none => exact ends_pure trivial
  | some owner =>
      have short := bounded.optional (by simp [Layout.optionalOffsets])
        (congrArg (Option.map (·.offset)) isOwner)
      exact (ends_plainField isKnown short).bind fun _ _ => ends_pure trivial

include bounded yielded in
theorem ends_frame {place : Address} (isKnown : known place) :
    Ends known (structures.frame place) fun _ => True := by
  have previous := bounded structures.layout.frame.previous (by simp [Layout.offsets])
  have code := bounded structures.layout.frame.code (by simp [Layout.offsets])
  rw [Structures.frame_eq]
  refine (ends_word yielded isKnown previous).bind fun _ _ => ?_
  refine (ends_word yielded isKnown code).bind fun _ isCode => ?_
  refine (ends_instructionOffset bounded yielded isKnown isCode).bind fun _ _ => ?_
  refine (ends_entryMark bounded isKnown).bind fun _ _ => ?_
  exact (ends_shimMark bounded isKnown).bind fun _ _ => ends_pure trivial

include bounded yielded in
theorem ends_code {place : Address} (isKnown : known place) :
    Ends known (structures.code place) fun _ => True := by
  have qualname : ∀ field, structures.layout.code.qualname = some field → field.toNat < reach :=
    fun _ => bounded.optional (by simp [Layout.optionalOffsets])
  have table := bounded structures.layout.code.lineTable (by simp [Layout.offsets])
  have name := bounded structures.layout.code.name (by simp [Layout.offsets])
  have file := bounded structures.layout.code.filename (by simp [Layout.offsets])
  have line := bounded structures.layout.code.firstLine (by simp [Layout.offsets])
  have length := bounded structures.layout.bytes.length (by simp [Layout.offsets])
  have data := bounded structures.layout.bytes.data (by simp [Layout.offsets])
  refine (ends_text? bounded yielded isKnown qualname).bind fun _ _ => ?_
  refine (ends_word yielded isKnown table).bind fun _ isTable => ?_
  refine (ends_textField bounded yielded isKnown name).bind fun _ _ => ?_
  refine (ends_textField bounded yielded isKnown file).bind fun _ _ => ?_
  refine (ends_plainField isKnown line).bind fun _ _ => ?_
  exact (ends_objectData yielded isTable length data).bind fun _ _ => ends_pure trivial

/-! ## Threads -/

include bounded in
theorem ends_rawInstruction {frame : Address} (isFrame : known frame) :
    Ends known (structures.rawInstruction frame) fun _ => True := by
  unfold Structures.rawInstruction
  cases kind : structures.layout.frame.instruction with
  | index offset unit =>
      have short := bounded offset (by simp [Layout.offsets, Layout.Instruction.offsets, kind])
      exact (ends_plainField isFrame short).bind fun _ _ => ends_pure trivial
  | pointer offset codeStart =>
      have short := bounded offset (by simp [Layout.offsets, Layout.Instruction.offsets, kind])
      exact ends_plainField isFrame short

include bounded in
theorem ends_generation {thread frame : Address} (isThread : known thread)
    (isFrame : known frame) :
    Ends known (structures.generation thread frame) fun _ => True := by
  unfold Structures.generation
  cases counter : structures.layout.thread.generation with
  | some offset =>
      have short := bounded.optional (by simp [Layout.optionalOffsets]) counter
      exact ends_plainField isThread short
  | none =>
      dsimp only
      split
      · exact ends_pure trivial
      · exact (ends_rawInstruction bounded isFrame).bind fun _ _ => ends_pure trivial

include bounded yielded in
/-- Along the list of threads, each is known because the one before it points to it. -/
theorem ends_threadsFrom (room : Nat) {current : Address} (isKnown : known current) :
    Ends known (structures.threadsFrom room current) fun _ => True := by
  have threadId := bounded structures.layout.thread.threadId (by simp [Layout.offsets])
  have next := bounded structures.layout.thread.next (by simp [Layout.offsets])
  induction room generalizing current with
  | zero => exact ends_pure trivial
  | succ room induction =>
      unfold Structures.threadsFrom
      split
      · exact ends_pure trivial
      · refine (ends_plainField isKnown threadId).bind fun _ _ => ?_
        refine (ends_word yielded isKnown next).bind fun _ isNext => ?_
        exact (induction isNext).bind fun _ _ => ends_pure trivial

include bounded yielded in
theorem ends_findThread (id : ThreadId) (room : Nat) {current : Address}
    (isKnown : known current) :
    Ends known (structures.findThread id room current) fun _ => True := by
  have threadId := bounded structures.layout.thread.threadId (by simp [Layout.offsets])
  have frame := bounded structures.layout.thread.frame (by simp [Layout.offsets])
  have next := bounded structures.layout.thread.next (by simp [Layout.offsets])
  induction room generalizing current with
  | zero => exact ends_pure trivial
  | succ room induction =>
      unfold Structures.findThread
      split
      · exact ends_pure trivial
      · refine (ends_plainField isKnown threadId).bind fun found _ => ?_
        split
        · refine (ends_word yielded isKnown frame).bind fun _ isFrame => ?_
          exact (ends_generation bounded isKnown isFrame).bind fun _ _ => ends_pure trivial
        · exact (ends_word yielded isKnown next).bind fun _ isNext => induction isNext

include bounded yielded in
theorem ends_threadIds (isOrigin : known structures.origin) :
    Ends known structures.threadIds fun _ => True := by
  have head := bounded structures.layout.interpreter.threadsHead (by simp [Layout.offsets])
  exact (ends_word yielded isOrigin head).bind fun _ isFirst =>
    ends_threadsFrom bounded yielded _ isFirst

include bounded yielded in
theorem ends_threadState (isOrigin : known structures.origin) (id : ThreadId) :
    Ends known (structures.threadState id) fun _ => True := by
  have head := bounded structures.layout.interpreter.threadsHead (by simp [Layout.offsets])
  have search : Ends known
      (do
        let first ← structures.firstThread
        structures.findThread id Structures.threadLimit first) fun _ => True :=
    (ends_word yielded isOrigin head).bind fun _ isFirst =>
      ends_findThread bounded yielded id _ isFirst
  refine (search.adapt CaptureError.memory).bind fun found _ => ?_
  cases found with
  | some state => exact ends_pure trivial
  | none => exact ends_failed _

/-! ## Tasks -/

include bounded in
theorem ends_coroutineFrame {coroutine : Address} (isKnown : known coroutine) :
    Ends known (structures.coroutineFrame coroutine) fun _ => True := by
  have short := bounded structures.layout.coroutine.frame (by simp [Layout.offsets])
  unfold Structures.coroutineFrame
  dsimp only
  split
  · exact ends_place isKnown short
  · exact ends_plainField isKnown short

include bounded yielded in
theorem ends_awaitedCoroutine {coroutine : Address} (isKnown : known coroutine) :
    Ends known (structures.awaitedCoroutine coroutine) fun next => next = 0 ∨ known next := by
  unfold Structures.awaitedCoroutine
  cases isField : structures.layout.coroutine.awaited with
  | none => exact ends_pure (.inl rfl)
  | some offset =>
      have short := bounded.optional (by simp [Layout.optionalOffsets]) isField
      exact (ends_word yielded isKnown short).mono fun _ isNext => .inr isNext

include bounded yielded in
/-- Along a chain of coroutines, each that is not null is known because the one before it awaits
it. -/
theorem ends_coroutineFrames (room : Nat) {current : Address}
    (isKnown : current = 0 ∨ known current) :
    Ends known (structures.coroutineFrames room current) fun _ => True := by
  induction room generalizing current with
  | zero => exact ends_pure trivial
  | succ room induction =>
      unfold Structures.coroutineFrames
      by_cases null : current = 0
      · rw [if_pos null]
        exact ends_pure trivial
      · have isKnown := isKnown.resolve_left null
        rw [if_neg null]
        refine (ends_coroutineFrame bounded isKnown).bind fun frame _ => ?_
        split
        · exact ends_pure trivial
        · refine (ends_awaitedCoroutine bounded yielded isKnown).bind fun next isNext => ?_
          split
          · exact ends_pure trivial
          · exact (induction isNext).bind fun _ _ => ends_pure trivial

include bounded yielded in
theorem ends_task {place : TaskId} (isKnown : known place) :
    Ends known (structures.task place) fun _ => True := by
  have awaiting := bounded structures.layout.task.awaiting (by simp [Layout.offsets])
  have state := bounded structures.layout.task.state (by simp [Layout.offsets])
  have coroutine := bounded structures.layout.task.coroutine (by simp [Layout.offsets])
  have name : ∀ field, structures.layout.task.name = some field → field.toNat < reach :=
    fun _ => bounded.optional (by simp [Layout.optionalOffsets])
  have loop : ∀ field, structures.layout.task.loop = some field → field.toNat < reach :=
    fun _ => bounded.optional (by simp [Layout.optionalOffsets])
  refine (ends_word yielded isKnown awaiting).bind fun _ _ => ?_
  refine (ends_plainField isKnown state).bind fun _ _ => ?_
  refine (ends_word yielded isKnown coroutine).bind fun _ isFirst => ?_
  refine (ends_coroutineFrames bounded yielded _ (.inr isFirst)).bind fun _ _ => ?_
  refine (ends_text? bounded yielded isKnown name).bind fun _ _ => ?_
  exact (ends_pointer? yielded isKnown loop).bind fun _ _ => ends_pure trivial

/-! ## Collections -/

theorem infix_of_mem_parts {size count : Nat} {bytes part : List UInt8}
    (isPart : part ∈ Structures.parts size count bytes) : part <:+: bytes := by
  induction count generalizing bytes with
  | zero => cases isPart
  | succ count induction =>
      rcases List.mem_cons.mp isPart with rfl | later
      · exact (List.take_prefix size bytes).isInfix
      · exact (induction later).trans (List.drop_suffix size bytes).isInfix

section

variable {layout : Layout.Container} {container : TaskContainer}

include yielded in
/-- The key of an entry is a word that the memory gave with the table. -/
theorem ends_entryTask (isLayout : structures.layout.containers = some layout)
    (bounded : structures.layout.Below reach) {entry : List UInt8}
    (keys : ∀ part, part <:+: entry → part.length ≤ 8 → known (Stream.word64 part)) :
    Ends known (structures.entryTask layout container entry) fun _ => True := by
  have short := bounded.container isLayout
  have key := short layout.entryKey (by simp [Layout.Container.offsets])
  have object := short layout.weakrefObject (by simp [Layout.Container.offsets])
  have fits : (WordOperation.sum layout.entryKey 8).Fits :=
    sum_fits (Nat.le_of_lt key) (by decide)
  unfold Structures.entryTask
  refine (ends_computed fits).bind ?_
  rintro _ rfl
  rw [WordOperation.toNat_result fits]
  have inside : (entry.take (layout.entryKey.toNat + 8)).drop layout.entryKey.toNat <:+: entry :=
    (List.drop_suffix _ _).isInfix.trans (List.take_prefix _ _).isInfix
  have short : ((entry.take (layout.entryKey.toNat + 8)).drop layout.entryKey.toNat).length ≤ 8 := by
    rw [List.length_drop, List.length_take]
    omega
  have isKey := keys _ inside short
  show Ends known (if Stream.word64 ((entry.take (layout.entryKey.toNat + 8)).drop
    layout.entryKey.toNat) = 0 then _ else _) _
  split
  · exact ends_pure trivial
  · cases container with
    | tasks place => exact ends_pure trivial
    | references place =>
        exact (ends_word yielded isKey object).bind fun _ _ => ends_pure trivial

include yielded in
theorem ends_entryTasks (isLayout : structures.layout.containers = some layout)
    (bounded : structures.layout.Below reach) {entries : List (List UInt8)}
    (keys : ∀ entry ∈ entries, ∀ part, part <:+: entry → part.length ≤ 8 →
      known (Stream.word64 part)) :
    Ends known (structures.entryTasks layout container entries) fun _ => True := by
  induction entries with
  | nil => exact ends_pure trivial
  | cons entry rest induction =>
      have first : Ends known (structures.entryTask layout container entry) fun _ => True :=
        ends_entryTask yielded isLayout bounded (keys entry List.mem_cons_self)
      have others := induction fun other member => keys other (List.mem_cons_of_mem _ member)
      exact first.bind fun _ _ => others.bind fun _ _ => ends_pure trivial

end

include bounded yielded in
/--
The size of the table is a product of two numbers that have been bounded: one by the check of the
mask, one by the layout.
-/
theorem ends_members {container : TaskContainer} (isKnown : known container.address) :
    Ends known (structures.members container) fun _ => True := by
  unfold Structures.members
  cases isLayout : structures.layout.containers with
  | none => exact ends_failed _
  | some layout =>
      have short := bounded.container isLayout
      have setMask := short layout.setMask (by simp [Layout.Container.offsets])
      have setTable := short layout.setTable (by simp [Layout.Container.offsets])
      have entrySize := short layout.entrySize (by simp [Layout.Container.offsets])
      have entryKey := short layout.entryKey (by simp [Layout.Container.offsets])
      have keyEnd : (WordOperation.sum layout.entryKey 8).Fits :=
        sum_fits (Nat.le_of_lt entryKey) (by decide)
      refine (ends_word yielded isKnown setMask).bind fun mask _ => ?_
      refine (ends_computed keyEnd).bind fun least _ => ?_
      by_cases refused : (layout.entrySize < least || Structures.slotLimit ≤ mask.toNat) = true
      · rw [if_pos refused]
        exact ends_failed _
      · rw [if_neg refused]
        have few : mask.toNat < reach := by
          simp only [Bool.or_eq_true, decide_eq_true_eq, not_or, Nat.not_le] at refused
          exact refused.2
        have slots : (WordOperation.sum mask 1).Fits := sum_fits (Nat.le_of_lt few) (by decide)
        have count : (WordOperation.sum mask 1).result.toNat ≤ reach := by
          rw [WordOperation.toNat_result slots]
          exact few
        refine (ends_computed slots).bind ?_
        rintro _ rfl
        refine (ends_word yielded isKnown setTable).bind fun table _ => ?_
        refine (ends_computed (product_fits count (Nat.le_of_lt entrySize))).bind fun size _ => ?_
        refine (ends_stretch yielded).bind fun entries read => ?_
        exact ends_entryTasks yielded isLayout bounded fun entry isEntry part inside =>
          read part (inside.trans (infix_of_mem_parts isEntry))

theorem ends_isFinalizing (bounded : structures.layout.Below reach)
    (isOrigin : known structures.origin) :
    Ends known structures.isFinalizing fun _ => True := by
  unfold Structures.isFinalizing
  cases isField : structures.layout.interpreter.finalizing with
  | none => exact ends_pure trivial
  | some offset =>
      have short := bounded.optional (by simp [Layout.optionalOffsets]) isField
      exact (ends_place isOrigin short).bind fun _ _ => ends_lift _

end

/-! ## All questions -/

/-- The pointers that a question begins with, and those that it may find in memory. -/
inductive Pointer {σ : Type} (structures : Structures σ) (asked : List Address) :
    Address → Prop where
  | origin : Pointer structures asked structures.origin
  | asked {place : Address} (isAsked : place ∈ asked) : Pointer structures asked place
  | read {place : Address} (yields : Yields structures.memory place) :
      Pointer structures asked place

/-- The questions about an interpreter, by their errors and answers. -/
inductive Question : Type → Type → Type where
  | threadIds : Question ReadFault (List ThreadId)
  | threadState (id : ThreadId) : Question CaptureError ThreadState
  | frame (place : Address) : Question ReadFault RawFrame
  | code (place : Address) : Question ReadFault CodeUnit
  | task (place : TaskId) : Question ReadFault TaskState
  | members (container : TaskContainer) : Question ReadFault (List TaskId)
  | isFinalizing : Question ReadFault Bool

namespace Question

variable {σ ε α : Type}

/-- What is asked about. -/
def asked : Question ε α → List Address
  | .threadIds | .threadState _ | .isFinalizing => []
  | .frame place | .code place | .task place => [place]
  | .members container => [container.address]

/-- The question as it is put to the structures of an interpreter. -/
def put (structures : Structures σ) : Question ε α → Query σ ε α
  | .threadIds => structures.threadIds
  | .threadState id => structures.threadState id
  | .frame place => structures.frame place
  | .code place => structures.code place
  | .task place => structures.task place
  | .members container => structures.members container
  | .isFinalizing => structures.isFinalizing

theorem put_ends {structures : Structures σ} (bounded : structures.layout.Below reach)
    (question : Question ε α) :
    Ends (Pointer structures question.asked) (question.put structures) fun _ => True := by
  have yielded (word : UInt64) (yields : Yields structures.memory word) :
      Pointer structures question.asked word := .read yields
  have isAsked {place : Address} (isOnly : question.asked = [place]) :
      Pointer structures question.asked place := .asked (isOnly ▸ List.mem_cons_self)
  cases question with
  | threadIds => exact ends_threadIds bounded yielded .origin
  | threadState id => exact ends_threadState bounded yielded .origin id
  | frame place => exact ends_frame bounded yielded (isAsked rfl)
  | code place => exact ends_code bounded yielded (isAsked rfl)
  | task place => exact ends_task bounded yielded (isAsked rfl)
  | members container => exact ends_members bounded yielded (isAsked rfl)
  | isFinalizing => exact ends_isFinalizing bounded .origin

end Question

/--
With a layout of small offsets and sizes, a question comes to a value or an error, unless it comes
to the address of a field that exceeds a word, which ends the thread.  Such a field lies behind a
pointer to the last bytes of the address space, which was given or read.  Without such pointers no
operation on the way exceeds a word, and every question comes to its value or its error.
-/
theorem question_ends {σ ε α : Type} (structures : Structures σ) (question : Question ε α)
    (bounded : structures.layout.Below reach) (before : σ) :
    Ending (Pointer structures question.asked) (fun _ => True)
      ((question.put structures).run.run before).1 ∧
    ((∀ place, Pointer structures question.asked place → place.toNat + reach ≤ UInt64.size) →
      ∃ answer : Except ε α,
        ((question.put structures).run.run before).1 = answer.mapError .failed) := by
  have ending := question.put_ends bounded before
  exact ⟨ending, ending.eq_mapError⟩

/-! ## Memory without pointers to the end of the address space -/

/-- No byte is 255. -/
def Modest (bytes : List UInt8) : Prop :=
  ∀ byte ∈ bytes, byte.toNat < 255

instance (bytes : List UInt8) : Decidable (Modest bytes) :=
  List.decidableBAll (fun byte : UInt8 => byte.toNat < 255) bytes

theorem Modest.valueOf_le {bytes : List UInt8} (modest : Modest bytes) :
    255 * Stream.valueOf bytes + 254 ≤ 254 * 256 ^ bytes.length := by
  induction bytes with
  | nil => decide
  | cons byte rest induction =>
      have first := modest byte List.mem_cons_self
      have others := induction fun other member => modest other (List.mem_cons_of_mem _ member)
      rw [Stream.valueOf, List.length_cons, Nat.pow_succ]
      omega

/-- A word without such a byte is not among the last of the address space. -/
theorem Modest.word64_low {bytes : List UInt8} (modest : Modest bytes) (short : bytes.length ≤ 8) :
    (Stream.word64 bytes).toNat + reach ≤ UInt64.size := by
  have few : 256 ^ bytes.length ≤ 256 ^ 8 := Nat.pow_le_pow_right (by decide) short
  have below := modest.valueOf_le
  have inWord : Stream.valueOf bytes < UInt64.size := by
    simp only [UInt64.size]
    omega
  rw [Stream.word64, UInt64.toNat_ofNat_of_lt' inWord]
  simp only [reach, UInt64.size]
  omega

theorem read_modest {memory : Memory} {address : Address} {count : Nat} {bytes : List UInt8}
    (modest : ∀ segment ∈ memory, Modest segment.content.toList)
    (read : memory.read address count = .ok bytes) : Modest bytes ∧ bytes.length ≤ count := by
  unfold Memory.read at read
  split at read
  next segment isFound =>
    cases read
    have inMemory := modest segment (List.mem_of_find?_eq_some isFound)
    constructor
    · intro byte member
      rw [Segment.slice, Array.toList_extract] at member
      exact inMemory byte (List.mem_of_mem_drop (List.mem_of_mem_take member))
    · rw [Segment.slice, Array.length_toList, Array.size_extract]
      omega
  next => cases read

/-- The reader of an image that does not change. -/
def imageReader (image : Memory) : MemoryReader Unit :=
  Memory.reader (fun _ => image) fun _ => pure ()

theorem imageReader_read {image : Memory} {address : Address} {count : Nat} (before : Unit) :
    ((imageReader image).read address count).run.run before =
      (image.read address count, before) := by
  show (liftM (image.read address count) : ReadQuery Unit _).run.run before = _
  cases image.read address count <;> rfl

theorem low_of_yields {image : Memory}
    (modest : ∀ segment ∈ image, Modest segment.content.toList) {word : UInt64}
    (yields : Yields (imageReader image) word) : word.toNat + reach ≤ UInt64.size := by
  cases yields with
  | @word address before after _ read =>
      rw [MemoryReader.word, Query.bind_apply, imageReader_read] at read
      cases content : image.read address 8 with
      | error fault =>
          rw [content] at read
          cases read
      | ok bytes =>
          rw [content] at read
          cases read
          exact (read_modest modest content).1.word64_low (read_modest modest content).2
  | @part address count before after bytes part read inside short =>
      have stored : Modest bytes := by
        unfold MemoryReader.bytes at read
        split at read
        · cases read
        · split at read
          · cases read
            exact nofun
          · rw [imageReader_read] at read
            exact (read_modest modest (congrArg Prod.fst read)).1
      exact Modest.word64_low (fun byte member => stored byte (inside.subset member)) short

/-! ## A pointer to the end of the address space -/

/-- The interpreter in an image. -/
def smallStructures (image : Memory) : Structures Unit where
  memory := imageReader image
  layout := smallLayout
  origin := 0x1000

theorem smallImage_modest : ∀ segment ∈ smallImage, Modest segment.content.toList := by
  decide

theorem smallImage_low {place : Address}
    (isPointer : Pointer (smallStructures smallImage) [0x1800] place) :
    place.toNat + reach ≤ UInt64.size := by
  cases isPointer with
  | origin => decide
  | asked isAsked =>
      cases List.mem_singleton.mp isAsked
      decide
  | read yields => exact low_of_yields smallImage_modest yields

theorem question_ends_smallImage :
    smallLayout.Below reach ∧
    (∀ place, Pointer (smallStructures smallImage) [0x1800] place →
      place.toNat + reach ≤ UInt64.size) ∧
    ∃ answer : Except ReadFault TaskState,
      (((smallStructures smallImage).task 0x1800).run.run ()).1 = answer.mapError .failed ∧
      answer = .ok smallTask := by
  have low : ∀ place, Pointer (smallStructures smallImage) [0x1800] place →
      place.toNat + reach ≤ UInt64.size := fun _ => smallImage_low
  have ends := question_ends (smallStructures smallImage) (.task 0x1800) (by decide) ()
  rcases ends.2 low with ⟨answer, isAnswer⟩
  refine ⟨by decide, low, answer, isAnswer, ?_⟩
  have given : (((smallStructures smallImage).task 0x1800).run.run ()).1 = .ok smallTask := rfl
  have same := isAnswer.symm.trans given
  cases answer with
  | ok value => exact congrArg _ (Except.ok.inj same)
  | error fault => cases same

/-- A frame whose code unit would begin at the last eight bytes of the address space. -/
def lastCodeImage : Memory :=
  objectAt 0x1200 [(0, bytes64 0), (8, bytes64 0xfffffffffffffff8), (16, bytes64 100), (24, [1, 0])]

/--
The start of the bytecode of that frame exceeds a word, although all offsets and sizes are small.
Reading the frame comes neither to a value nor to an error.
-/
theorem frame_exceeds_lastCode :
    ¬ ∀ (structures : Structures Unit) (place : Address), structures.layout.Below reach →
      ∃ answer : Except ReadFault RawFrame,
        ((structures.frame place).run.run ()).1 = answer.mapError .failed := by
  intro always
  rcases always (smallStructures lastCodeImage) 0x1200 (by decide) with ⟨answer, isAnswer⟩
  have exceeds : (((smallStructures lastCodeImage).frame 0x1200).run.run ()).1 =
      .error (.exceeded (.place 0xfffffffffffffff8 64)) := rfl
  rw [exceeds] at isAnswer
  cases answer <;> cases isAnswer

end Overflow

end StackSampler
