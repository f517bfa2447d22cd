import StackSampler.Proofs.Stream.Items
import StackSampler.Proofs.Subject.Checked
import StackSampler.Proofs.Subject.Storing

/-!
# Reading what is stored

Each question to an interpreter in memory is answered with what the memory stores.  `Gives` says
that a question is answered with a value and moves nothing; the lemmas below follow the relations of
`Storing`, from single fields to whole objects.
-/

namespace StackSampler.Storing

open StackSampler.Stream (bytes32 bytes64 length_bytesOf word32_bytes32 word64_bytes64)

/-! ## Answers -/

/-- A question is answered with a value, and leaves all that answers depend on as it is. -/
def Gives {σ ε α : Type} (query : ExceptT ε (StateM σ) α) (subject : σ) (value : α) : Prop :=
  query.run.run subject = (.ok value, subject)

section

variable {σ ε α β : Type} {subject : σ}

theorem gives_pure (value : α) : Gives (pure value : ExceptT ε (StateM σ) α) subject value :=
  rfl

theorem Gives.bind_run {query : ExceptT ε (StateM σ) α} {value : α}
    (first : Gives query subject value) (next : α → ExceptT ε (StateM σ) β) :
    (query >>= next).run.run subject = (next value).run.run subject := by
  have first : query subject = (.ok value, subject) := first
  show (query >>= next) subject = next value subject
  simp only [Bind.bind, ExceptT.bind, ExceptT.mk, StateT.bind, ExceptT.bindCont, first]

theorem Gives.bind {query : ExceptT ε (StateM σ) α} {next : α → ExceptT ε (StateM σ) β}
    {value : α} {result : β} (first : Gives query subject value)
    (second : Gives (next value) subject result) : Gives (query >>= next) subject result :=
  (first.bind_run next).trans second

theorem Gives.map {query : ExceptT ε (StateM σ) α} {value : α} (change : α → β)
    (given : Gives query subject value) : Gives (change <$> query) subject (change value) := by
  rw [map_eq_pure_bind]
  exact given.bind (gives_pure _)

theorem Gives.adapt {δ : Type} {query : ExceptT ε (StateM σ) α} {value : α} (change : ε → δ)
    (given : Gives query subject value) : Gives (ExceptT.adapt change query) subject value := by
  have given : query subject = (.ok value, subject) := given
  show ((query subject).1.mapError change, (query subject).2) = _
  rw [given]
  rfl

end

section

variable {σ ε α : Type} {subject : σ} {query : ExceptT ε (StateM σ) α} {value : α}

theorem Gives.answered (given : Gives query subject value) :
    Gives (Query.answered query) subject value :=
  given.adapt Halt.failed

theorem Gives.settled {query : Query σ ε α} (given : Gives query subject value)
    (exceed : WordOperation → StateM σ Unit) (error : WordOperation → ε) :
    Gives (query.settled exceed error) subject value :=
  Query.settled_eq_ok_iff.mpr given

theorem computed_gives {operation : WordOperation} (fits : operation.Fits) :
    Gives (Query.computed operation : Query σ ε UInt64) subject operation.result := by
  rw [Query.computed_of_fits fits]
  exact gives_pure _

theorem field_gives {read : Address → ReadQuery σ α} {base : Address} {offset : Offset}
    (fits : (WordOperation.place base offset).Fits)
    (given : Gives (read (base + offset)) subject value) :
    Gives (Structures.field read base offset) subject value := by
  rw [Structures.field_of_fits fits]
  exact given.answered

end

/-- A reader finds what a memory holds. -/
def Finds {σ : Type} (reader : MemoryReader σ) (subject : σ) (memory : Memory) : Prop :=
  ∀ address size bytes, memory.read address size = .ok bytes →
    Gives (reader.read address size) subject bytes

/-- The reader of an image finds what the image holds. -/
theorem finds_reader {σ : Type} (image : σ → Memory) (exceed : WordOperation → StateM σ Unit)
    (subject : σ) : Finds (Memory.reader image exceed) subject (image subject) := by
  intro address size bytes holds
  show (Memory.read (image subject) address size, subject) = _
  rw [holds]

/-! ## Fields -/

theorem present_getD {target : Option Address} (isPlace : target ≠ some 0) :
    Structures.present (target.getD 0) = target := by
  cases target with
  | none => rfl
  | some place =>
      have nonzero : place ≠ 0 := fun null => isPlace (congrArg some null)
      simp [Structures.present, nonzero]

section

variable {σ : Type} {reader : MemoryReader σ} {subject : σ} {memory : Memory}
  {base : Address} {field : Offset}

theorem Finds.byte (finds : Finds reader subject memory) {byte : UInt8}
    (holds : Holds memory base field [byte]) :
    Gives (Structures.field reader.byte base field) subject byte :=
  field_gives holds.fits ((finds _ _ [byte] holds.read).bind (gives_pure _))

theorem Finds.word (finds : Finds reader subject memory) {word : UInt64}
    (holds : HoldsWord memory base field word) :
    Gives (Structures.field reader.word base field) subject word := by
  have read := finds _ _ (bytes64 word) holds.read
  rw [bytes64, length_bytesOf, ← bytes64] at read
  refine field_gives holds.fits (read.bind ?_)
  rw [word64_bytes64]
  exact gives_pure word

theorem Finds.int32 (finds : Finds reader subject memory) {number : Int32}
    (holds : HoldsInt32 memory base field number) :
    Gives (Structures.field reader.int32 base field) subject number := by
  have read := finds _ _ (bytes32 number.toUInt32) holds.read
  rw [bytes32, length_bytesOf, ← bytes32] at read
  refine field_gives holds.fits (read.bind ?_)
  rw [word32_bytes32, Int32.toInt32_toUInt32]
  exact gives_pure number

theorem Finds.bytes (finds : Finds reader subject memory) {address : Address} {bytes : List UInt8}
    (holds : bytes = [] ∨ memory.read address bytes.length = .ok bytes)
    (small : bytes.length ≤ MemoryReader.copyLimit) :
    Gives (reader.bytes bytes.length address) subject bytes := by
  rw [MemoryReader.bytes, if_neg (Nat.not_lt.mpr small)]
  rcases holds with rfl | held
  · exact gives_pure []
  · by_cases empty : bytes.length = 0
    · rw [if_pos empty, List.length_eq_zero_iff.mp empty]
      exact gives_pure []
    · rw [if_neg empty]
      exact finds _ _ bytes held

end

/-! ## Objects -/

section

variable {σ : Type} {structures : Structures σ} {subject : σ} {memory : Memory}
  {base : Address}

/-- The length of an object that is copied is not negative as a signed word. -/
theorem length_word {count : Nat} (small : count ≤ MemoryReader.copyLimit) :
    (UInt64.ofNat count).toNat = count ∧ ¬ (UInt64.ofNat count).toInt64 < 0 := by
  have below : count < 2 ^ 63 := Nat.lt_of_le_of_lt small (by decide)
  constructor
  · rw [UInt64.toNat_ofNat', Nat.mod_eq_of_lt (Nat.lt_trans below (by decide))]
  · rw [Int64.lt_iff_toInt_lt, UInt64.toInt64_ofNat', Int64.toInt_ofNat_of_lt below]
    exact Int.not_lt.mpr (Int.natCast_nonneg count)

theorem objectData_gives (finds : Finds structures.memory subject memory)
    {layout : Layout.VarObject} {bytes : List UInt8} {object : Address}
    (holds : HoldsObject layout memory object bytes) :
    Gives (structures.objectData object layout) subject bytes := by
  rcases length_word holds.small with ⟨toNat, notNegative⟩
  refine (finds.word holds.length).bind ?_
  rw [if_neg notNegative, toNat]
  exact field_gives holds.fits (finds.bytes (holds.data.imp_right Holds.read) holds.small)

theorem text_gives (finds : Finds structures.memory subject memory) {text : String}
    {object : Address}
    (holds : HoldsObject structures.layout.string memory object (Text.utf8 text)) :
    Gives (structures.text object) subject text := by
  refine (objectData_gives finds holds).bind ?_
  rw [Text.ofUtf8Lenient_utf8]
  exact gives_pure text

theorem textField_gives (finds : Finds structures.memory subject memory) {field : Offset}
    {text : String} (holds : HoldsText structures.layout memory base field text) :
    Gives (structures.textField base field) subject text := by
  rcases holds with ⟨object, pointer, held⟩
  exact (finds.word pointer).bind (text_gives finds held)

theorem pointer?_gives (finds : Finds structures.memory subject memory) {field : Option Offset}
    {target : Option Address} (holds : HoldsPointer? memory base field target) :
    Gives (structures.pointer? base field) subject target := by
  cases holds with
  | lacking => exact gives_pure none
  | stored pointer =>
      refine (finds.word pointer.1).bind ?_
      rw [present_getD pointer.2]
      exact gives_pure target

/-! ## Frames and code units -/

theorem offset_eq {offset : UInt32} {exact : Nat} (same : exact = offset.toNat) :
    UInt32.ofNat (min exact (UInt32.size - 1)) = offset := by
  have below : offset.toNat ≤ UInt32.size - 1 := Nat.le_sub_one_of_lt offset.toNat_lt
  rw [same, Nat.min_eq_left below, UInt32.ofNat_toNat]

theorem instructionOffset_gives (finds : Finds structures.memory subject memory)
    {frame : RawFrame}
    (holds : HoldsInstruction structures.layout.frame.instruction memory base frame) :
    Gives (structures.instructionOffset base frame.code) subject frame.offset := by
  unfold HoldsInstruction at holds
  unfold Structures.instructionOffset
  cases kind : structures.layout.frame.instruction with
  | index field unit =>
      simp only [kind] at holds ⊢
      rcases holds with ⟨count, held, counts⟩
      refine (finds.int32 held).bind ?_
      rw [offset_eq counts]
      exact gives_pure frame.offset
  | pointer field codeStart =>
      simp only [kind] at holds ⊢
      rcases holds with ⟨fits, pointer, held, points⟩
      have distance : pointer.toNat - (frame.code + codeStart).toNat = frame.offset.toNat := by
        omega
      refine (finds.word held).bind ?_
      rw [Query.computed_place fits, pure_bind, offset_eq distance]
      exact gives_pure frame.offset

theorem entryMark_gives (finds : Finds structures.memory subject memory) {frame : RawFrame}
    (holds : HoldsFrame structures.layout.frame memory base frame) :
    Gives (structures.entryMark base) subject frame.isEntry := by
  have isEntry := holds.isEntry
  unfold HoldsMark at isEntry
  unfold Structures.entryMark
  cases isField : structures.layout.frame.isEntry with
  | none =>
      simp only [isField] at isEntry ⊢
      rw [isEntry]
      exact gives_pure true
  | some field =>
      simp only [isField] at isEntry ⊢
      rcases isEntry with ⟨mark, held, isSet⟩
      rw [← isSet]
      exact (finds.byte held).bind (gives_pure _)

theorem shimMark_gives (finds : Finds structures.memory subject memory) {frame : RawFrame}
    (holds : HoldsFrame structures.layout.frame memory base frame) :
    Gives (structures.shimMark base) subject frame.isShim := by
  have isShim := holds.isShim
  unfold HoldsMark at isShim
  unfold Structures.shimMark
  cases isOwner : structures.layout.frame.owner with
  | none =>
      simp only [isOwner] at isShim ⊢
      rw [isShim]
      exact gives_pure false
  | some owner =>
      simp only [isOwner] at isShim ⊢
      rcases isShim with ⟨mark, held, isSet⟩
      rw [← isSet]
      exact (finds.byte held).bind (gives_pure _)

theorem frame_gives (finds : Finds structures.memory subject memory) {frame : RawFrame}
    (holds : HoldsFrame structures.layout.frame memory base frame) :
    Gives (structures.frame base) subject frame := by
  rw [Structures.frame_eq]
  refine (finds.word holds.previous.1).bind ((finds.word holds.code).bind ?_)
  refine (instructionOffset_gives finds holds.instruction).bind ?_
  refine (entryMark_gives finds holds).bind ((shimMark_gives finds holds).bind ?_)
  rw [present_getD holds.previous.2]
  exact gives_pure frame

theorem text?_gives (finds : Finds structures.memory subject memory) {field : Option Offset}
    {text : Option String} (holds : HoldsText? structures.layout memory base field text) :
    Gives (structures.text? base field) subject text := by
  cases holds with
  | lacking => exact (gives_pure none).bind (gives_pure none)
  | null pointer =>
      have isNull : Gives (structures.pointer? base (some _)) subject none :=
        pointer?_gives finds (.stored ⟨pointer, nofun⟩)
      exact isNull.bind (gives_pure none)
  | @stored field object text present pointer held =>
      have isPlace : some object ≠ some 0 := fun null => present (Option.some.inj null)
      have points : Gives (structures.pointer? base (some field)) subject (some object) :=
        pointer?_gives finds (.stored ⟨pointer, isPlace⟩)
      exact points.bind ((text_gives finds held).map some)

theorem code_gives (finds : Finds structures.memory subject memory) {code : CodeUnit}
    (holds : HoldsCode structures.layout memory base code) :
    Gives (structures.code base) subject code := by
  rcases holds.firstLine with ⟨line, lineHeld, lineIs⟩
  rcases holds.lineTable with ⟨table, pointer, tableHeld⟩
  refine (text?_gives finds holds.qualname).bind ((finds.word pointer).bind ?_)
  refine (textField_gives finds holds.name).bind ((textField_gives finds holds.file).bind ?_)
  refine (finds.int32 lineHeld).bind ((objectData_gives finds tableHeld).bind ?_)
  rw [lineIs, UInt32.ofNat_toNat]
  exact gives_pure code

/-! ## Threads -/

theorem generation_gives (finds : Finds structures.memory subject memory) {state : ThreadState}
    {frame : Address} (holds : HoldsThread structures.layout.thread memory base state) :
    Gives (structures.generation base frame) subject state.generation := by
  rcases holds.generation with ⟨field, isField, held⟩
  rw [Structures.generation]
  simp only [isField]
  exact finds.word held

theorem threadsFrom_gives (finds : Finds structures.memory subject memory) {first : Address}
    {listed : List (ThreadId × ThreadState)}
    (list : ThreadList structures.layout.thread memory first listed) {room : Nat}
    (fits : listed.length ≤ room) :
    Gives (structures.threadsFrom room first) subject (listed.map Prod.fst) := by
  induction list generalizing room with
  | nil =>
      cases room with
      | zero => exact gives_pure []
      | succ room =>
          rw [Structures.threadsFrom, if_pos rfl]
          exact gives_pure []
  | cons present named _ linked _ induction =>
      cases room with
      | zero => cases fits
      | succ room =>
          have others := induction (Nat.le_of_succ_le_succ fits)
          rw [Structures.threadsFrom, if_neg present]
          refine (finds.word named).bind ((finds.word linked).bind (others.bind ?_))
          exact gives_pure _

theorem findThread_gives (finds : Finds structures.memory subject memory) (id : ThreadId)
    {first : Address} {listed : List (ThreadId × ThreadState)}
    (list : ThreadList structures.layout.thread memory first listed) {room : Nat}
    (fits : listed.length ≤ room) :
    Gives (structures.findThread id room first) subject (listed.lookup id) := by
  induction list generalizing room with
  | nil =>
      cases room with
      | zero => exact gives_pure none
      | succ room =>
          rw [Structures.findThread, if_pos rfl]
          exact gives_pure none
  | @cons node next found state others present named holds linked _ induction =>
      cases room with
      | zero => cases fits
      | succ room =>
          rw [Structures.findThread, if_neg present]
          refine (finds.word named).bind ?_
          by_cases same : found = id
          · subst same
            rw [if_pos rfl, List.lookup_cons_self]
            refine (finds.word holds.top.1).bind ((generation_gives finds holds).bind ?_)
            rw [present_getD holds.top.2]
            exact gives_pure _
          · have other : (id == found) = false := beq_false_of_ne (Ne.symm same)
            rw [if_neg same, List.lookup_cons, other]
            exact (finds.word linked).bind (induction (Nat.le_of_succ_le_succ fits))

/-! ## Tasks -/

theorem HoldsWord.unique {field : Offset} {one other : UInt64}
    (first : HoldsWord memory base field one) (second : HoldsWord memory base field other) :
    one = other := by
  have lengths : (bytes64 one).length = (bytes64 other).length := by simp [bytes64]
  have read : memory.read (base + field) (bytes64 one).length = .ok (bytes64 other) :=
    lengths ▸ second.read
  have same : bytes64 one = bytes64 other := Except.ok.inj (first.read.symm.trans read)
  rw [← word64_bytes64 one, same, word64_bytes64]

section

variable {layout : Layout.Coroutine} {coroutine : Address}

theorem HasFrame.unique {frame other : Address} (has : HasFrame layout memory coroutine frame)
    (hasOther : HasFrame layout memory coroutine other) : frame = other := by
  unfold HasFrame at has hasOther
  split at has
  next isInline =>
    rw [if_pos isInline] at hasOther
    exact has.2.symm.trans hasOther.2
  next notInline =>
    rw [if_neg notInline] at hasOther
    exact has.unique hasOther

theorem Awaits.unique {next other : Address} (awaits : Awaits layout memory coroutine next)
    (awaitsOther : Awaits layout memory coroutine other) : next = other := by
  unfold Awaits at awaits awaitsOther
  cases isField : layout.awaited with
  | none =>
      simp only [isField] at awaits awaitsOther
      exact awaits.trans awaitsOther.symm
  | some field =>
      simp only [isField] at awaits awaitsOther
      exact awaits.unique awaitsOther

theorem CoroutineChain.unique {frames others : List Address}
    (chain : CoroutineChain layout memory coroutine frames)
    (other : CoroutineChain layout memory coroutine others) : frames = others := by
  induction chain generalizing others with
  | nil =>
      cases other with
      | nil => rfl
      | frameless => rfl
      | cons present => exact absurd rfl present
  | frameless present without =>
      cases other with
      | nil => rfl
      | frameless => rfl
      | cons _ has isFrame => exact absurd (has.unique without) isFrame
  | cons present has isFrame awaits _ induction =>
      cases other with
      | nil => exact absurd rfl present
      | frameless _ without => exact absurd (has.unique without) isFrame
      | cons _ hasOther _ awaitsOther behind =>
          cases has.unique hasOther
          cases awaits.unique awaitsOther
          rw [induction behind]

/-- A chain that comes to an end has no coroutine that awaits itself. -/
theorem CoroutineChain.not_self_awaiting {frame : Address} {frames : List Address}
    (present : coroutine ≠ 0) (has : HasFrame layout memory coroutine frame) (isFrame : frame ≠ 0)
    (awaits : Awaits layout memory coroutine coroutine) :
    ¬ CoroutineChain layout memory coroutine frames := by
  intro chain
  have longer : CoroutineChain layout memory coroutine (frame :: frames) :=
    .cons present has isFrame awaits chain
  exact List.cons_ne_self frame frames (longer.unique chain)

end

theorem coroutineFrame_gives (finds : Finds structures.memory subject memory)
    {coroutine frame : Address} (has : HasFrame structures.layout.coroutine memory coroutine frame) :
    Gives (structures.coroutineFrame coroutine) subject frame := by
  unfold HasFrame at has
  unfold Structures.coroutineFrame
  split at has
  next isInline =>
    simp only [isInline, if_true]
    rw [Query.computed_place has.1, has.2]
    exact gives_pure frame
  next notInline =>
    simp only [notInline]
    exact finds.word has

theorem awaitedCoroutine_gives (finds : Finds structures.memory subject memory)
    {coroutine next : Address} (awaits : Awaits structures.layout.coroutine memory coroutine next) :
    Gives (structures.awaitedCoroutine coroutine) subject next := by
  unfold Awaits at awaits
  unfold Structures.awaitedCoroutine
  cases isField : structures.layout.coroutine.awaited with
  | none =>
      simp only [isField] at awaits ⊢
      rw [awaits]
      exact gives_pure 0
  | some field =>
      simp only [isField] at awaits ⊢
      exact finds.word awaits

theorem coroutineFrames_gives (finds : Finds structures.memory subject memory)
    {first : Address} {frames : List Address}
    (chain : CoroutineChain structures.layout.coroutine memory first frames) {room : Nat}
    (fits : frames.length ≤ room) :
    Gives (structures.coroutineFrames room first) subject frames := by
  induction chain generalizing room with
  | nil =>
      cases room with
      | zero => exact gives_pure []
      | succ room =>
          rw [Structures.coroutineFrames, if_pos rfl]
          exact gives_pure []
  | frameless present without =>
      cases room with
      | zero => exact gives_pure []
      | succ room =>
          rw [Structures.coroutineFrames, if_neg present]
          refine (coroutineFrame_gives finds without).bind ?_
          rw [if_pos rfl]
          exact gives_pure []
  | @cons coroutine frame next frames present has isFrame awaits behind induction =>
      cases room with
      | zero => cases fits
      | succ room =>
          have moves : next ≠ coroutine := by
            rintro rfl
            exact CoroutineChain.not_self_awaiting present has isFrame awaits behind
          have others := induction (Nat.le_of_succ_le_succ fits)
          rw [Structures.coroutineFrames, if_neg present]
          refine (coroutineFrame_gives finds has).bind ?_
          rw [if_neg isFrame]
          refine (awaitedCoroutine_gives finds awaits).bind ?_
          rw [if_neg moves]
          exact others.bind (gives_pure _)

theorem task_gives (finds : Finds structures.memory subject memory) {task : TaskState}
    (holds : HoldsTask structures.layout memory base task) :
    Gives (structures.task base) subject task := by
  rcases holds.state with ⟨state, stateHeld, isDone⟩
  rcases holds.coroutine with ⟨first, pointer, chain⟩
  refine (finds.word holds.awaiting.1).bind ((finds.int32 stateHeld).bind ?_)
  refine (finds.word pointer).bind ((coroutineFrames_gives finds chain holds.depth).bind ?_)
  refine (text?_gives finds holds.name).bind ((pointer?_gives finds holds.loop).bind ?_)
  rw [present_getD holds.awaiting.2, isDone]
  exact gives_pure task

/-! ## Collections -/

section

variable {layout : Layout.Container} {container : TaskContainer}

/-- The key lies inside an entry. -/
theorem HoldsEntry.key_fits {entry : List UInt8} {slot : Option TaskId}
    (holds : HoldsEntry layout memory container entry slot) :
    layout.entryKey.toNat + 8 ≤ layout.entrySize.toNat := by
  rcases holds.key with ⟨key, bytes, _⟩
  have length : ((entry.drop layout.entryKey.toNat).take 8).length = 8 := by
    rw [bytes, bytes64, length_bytesOf]
  rw [List.length_take, List.length_drop, holds.size] at length
  omega

/-- Where the key lies inside of entries, its end is a word. -/
theorem keyEnd_fits (inside : layout.entryKey.toNat + 8 ≤ layout.entrySize.toNat) :
    (WordOperation.sum layout.entryKey 8).Fits :=
  Nat.lt_of_le_of_lt inside layout.entrySize.toNat_lt

theorem toNat_keyEnd (inside : layout.entryKey.toNat + 8 ≤ layout.entrySize.toNat) :
    (WordOperation.sum layout.entryKey 8).result.toNat = layout.entryKey.toNat + 8 :=
  WordOperation.toNat_result (keyEnd_fits inside)

theorem entryTask_gives (finds : Finds structures.memory subject memory) {entry : List UInt8}
    {slot : Option TaskId} (holds : HoldsEntry layout memory container entry slot) :
    Gives (structures.entryTask layout container entry) subject slot := by
  rcases holds.key with ⟨key, bytes, standsFor⟩
  unfold Structures.entryTask
  refine (computed_gives (keyEnd_fits holds.key_fits)).bind ?_
  rw [toNat_keyEnd holds.key_fits, List.drop_take, Nat.add_sub_cancel_left, bytes, word64_bytes64]
  cases standsFor with
  | free => exact gives_pure none
  | task present =>
      simp only [present, if_false]
      exact gives_pure _
  | reference present refers =>
      simp only [present, if_false]
      refine (finds.word refers.1).bind ?_
      rw [present_getD refers.2]
      exact gives_pure _

theorem entryTasks_gives (finds : Finds structures.memory subject memory)
    {entries : List (List UInt8)} {slots : List (Option TaskId)}
    (holds : List.Forall₂ (HoldsEntry layout memory container) entries slots) :
    Gives (structures.entryTasks layout container entries) subject slots.reduceOption := by
  induction holds with
  | nil => exact gives_pure []
  | @cons entry slot entries slots held _ induction =>
      rw [Structures.entryTasks]
      refine (entryTask_gives finds held).bind (induction.bind ?_)
      cases slot with
      | none => exact gives_pure _
      | some task => exact gives_pure _

theorem parts_flatten {size : Nat} {entries : List (List UInt8)}
    (sizes : ∀ entry ∈ entries, entry.length = size) :
    Structures.parts size entries.length entries.flatten = entries := by
  induction entries with
  | nil => rfl
  | cons entry entries induction =>
      have first : entry.length = size := sizes entry List.mem_cons_self
      have rest := induction fun other member => sizes other (List.mem_cons_of_mem _ member)
      rw [List.length_cons, List.flatten_cons, Structures.parts, List.take_left' first,
        List.drop_left' first, rest]

theorem length_flatten {size : Nat} {entries : List (List UInt8)}
    (sizes : ∀ entry ∈ entries, entry.length = size) :
    entries.flatten.length = entries.length * size := by
  rw [List.length_flatten, List.map_congr_left sizes, List.map_const', List.sum_replicate_nat]

theorem length_of_entries {entries : List (List UInt8)} {slots : List (Option TaskId)}
    (holds : List.Forall₂ (HoldsEntry layout memory container) entries slots) :
    ∀ entry ∈ entries, entry.length = layout.entrySize.toNat := by
  induction holds with
  | nil => exact nofun
  | cons held _ induction =>
      intro entry member
      rcases List.mem_cons.mp member with rfl | behind
      · exact held.size
      · exact induction entry behind

section

variable {table : Address} {entries : List (List UInt8)} {slots : List (Option TaskId)}

theorem HoldsTable.key_fits (holds : HoldsTable layout memory container table entries slots) :
    layout.entryKey.toNat + 8 ≤ layout.entrySize.toNat := by
  have nonempty := holds.nonempty
  cases holds.slots with
  | nil => exact absurd nonempty (Nat.lt_irrefl 0)
  | cons first _ => exact first.key_fits

/-- The mask is one less than the number of entries. -/
theorem HoldsTable.toNat_mask (holds : HoldsTable layout memory container table entries slots) :
    (UInt64.ofNat (entries.length - 1)).toNat = entries.length - 1 := by
  have few : entries.length ≤ 65536 := holds.few
  rw [UInt64.toNat_ofNat']
  omega

/-- The number of slots is counted from the mask. -/
theorem HoldsTable.slots_fit (holds : HoldsTable layout memory container table entries slots) :
    (WordOperation.sum (UInt64.ofNat (entries.length - 1)) 1).Fits ∧
      (WordOperation.sum (UInt64.ofNat (entries.length - 1)) 1).result.toNat = entries.length := by
  have few : entries.length ≤ 65536 := holds.few
  have nonempty := holds.nonempty
  have exact' : (WordOperation.sum (UInt64.ofNat (entries.length - 1)) 1).exact =
      entries.length := by
    rw [WordOperation.exact, holds.toNat_mask]
    exact Nat.sub_add_cancel nonempty
  have fits : (WordOperation.sum (UInt64.ofNat (entries.length - 1)) 1).Fits := by
    rw [WordOperation.Fits, exact', UInt64.size]
    omega
  exact ⟨fits, (WordOperation.toNat_result fits).trans exact'⟩

/-- The size of all entries is that of the table. -/
theorem HoldsTable.size_fits (holds : HoldsTable layout memory container table entries slots)
    {count : UInt64} (isCount : count.toNat = entries.length) :
    (WordOperation.product count layout.entrySize).Fits ∧
      (WordOperation.product count layout.entrySize).result.toNat = entries.flatten.length := by
  have small : entries.length * layout.entrySize.toNat ≤ 1048576 := holds.small
  have exact' : (WordOperation.product count layout.entrySize).exact = entries.flatten.length := by
    rw [WordOperation.exact, isCount, length_flatten (length_of_entries holds.slots)]
  have fits : (WordOperation.product count layout.entrySize).Fits := by
    rw [WordOperation.Fits, exact', length_flatten (length_of_entries holds.slots), UInt64.size]
    omega
  exact ⟨fits, (WordOperation.toNat_result fits).trans exact'⟩

end

theorem members_gives (finds : Finds structures.memory subject memory) {members : List TaskId}
    (holds : HoldsMembers structures.layout memory container members) :
    Gives (structures.members container) subject members := by
  rcases holds with ⟨layout, table, entries, slots, isLayout, held, rfl⟩
  have sizes := length_of_entries held.slots
  have length := length_flatten sizes
  have accepted : (decide (layout.entrySize < (WordOperation.sum layout.entryKey 8).result) ||
      decide (Structures.slotLimit ≤ (UInt64.ofNat (entries.length - 1)).toNat)) = false := by
    have inLimit : entries.length - 1 < Structures.slotLimit :=
      Nat.lt_of_lt_of_le (Nat.sub_one_lt_of_lt held.nonempty) held.few
    have inside : ¬ layout.entrySize < (WordOperation.sum layout.entryKey 8).result := by
      rw [UInt64.lt_iff_toNat_lt, toNat_keyEnd held.key_fits]
      exact Nat.not_lt.mpr held.key_fits
    rw [held.toNat_mask, decide_eq_false inside, decide_eq_false (Nat.not_le.mpr inLimit)]
    rfl
  have count : entries.flatten.length / layout.entrySize.toNat = entries.length := by
    have entrySize : 0 < layout.entrySize.toNat :=
      Nat.lt_of_lt_of_le (Nat.succ_pos _) held.key_fits
    rw [length, Nat.mul_div_cancel _ entrySize]
  unfold Structures.members
  simp only [isLayout]
  refine (finds.word held.mask).bind ?_
  refine (computed_gives (keyEnd_fits held.key_fits)).bind ?_
  rw [accepted, if_neg Bool.false_ne_true]
  refine (computed_gives held.slots_fit.1).bind ((finds.word held.pointer).bind ?_)
  rcases held.size_fits held.slots_fit.2 with ⟨fits, size⟩
  refine (computed_gives fits).bind ?_
  rw [size]
  have content : memory.read table entries.flatten.length = .ok entries.flatten := by
    have atStart := held.content.read
    rwa [UInt64.add_zero] at atStart
  refine (finds.bytes (.inr content) (length ▸ held.small)).answered.bind ?_
  rw [count, parts_flatten sizes]
  exact entryTasks_gives finds held.slots

end

end

end StackSampler.Storing
