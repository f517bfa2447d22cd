import StackSampler.Proofs.Subject.Reading
import StackSampler.Proofs.Walk.Sighting

/-!
# An interpreter in memory is seen as it is

The interpreter whose structures lie in an image of memory answers every question with the entry of
the tables that the image stores, and walks over it find what walks over the tables find.

The second part does not depend on memory: two interpreters that show the same tables cannot be told
apart by a walk, because a walk asks for nothing but threads, frames and code units, and what it
remembers from one frame to the next lies in the walker.

The main statement is `stored_interpreter_answers_and_walks`.
-/

namespace StackSampler

/--
Tables that are complete and stand still: whatever is on the chain of a thread has its entries, and
no look at them changes them.
-/
structure Tables.Whole (tables : Tables) : Prop where
  tops : ∀ (id : ThreadId) (state : ThreadState) (place : Address),
    tables.threads[id]? = some state → state.top = some place →
    ∃ frame, tables.frames[place]? = some frame
  callers : ∀ (place : Address) (frame : RawFrame) (caller : Address),
    tables.frames[place]? = some frame → frame.previous = some caller →
    ∃ frame, tables.frames[caller]? = some frame
  units : ∀ (place : Address) (frame : RawFrame),
    tables.frames[place]? = some frame → frame.isShim = false →
    ∃ code, tables.codes[frame.code]? = some code
  listable : tables.listable = true
  resting : tables.restless = ∅

namespace Storing

/-! ## Interpreters that show tables -/

/-- An interpreter answers with what stands in tables, as far as it stands there. -/
structure Shows {σ : Type} (interpreter : Interpreter σ) (subject : σ) (tables : Tables)
    (collections : List TaskContainer) : Prop where
  version : interpreter.version.run subject = (tables.version, subject)
  threadIds : Gives interpreter.threadIds subject tables.order
  threadState : ∀ id,
    (interpreter.threadState id).run.run subject = (tables.threadState id, subject)
  frame : ∀ (place : Address) (frame : RawFrame), tables.frames[place]? = some frame →
    Gives (interpreter.frame place) subject frame
  code : ∀ (place : Address) (code : CodeUnit), tables.codes[place]? = some code →
    Gives (interpreter.code place) subject code
  task : ∀ (place : TaskId) (task : TaskState), tables.tasks[place]? = some task →
    Gives (interpreter.task place) subject task
  members : ∀ container ∈ collections, ∀ members : List TaskId,
    tables.containers[container.address]? = some members →
    Gives (interpreter.members container) subject members

section

variable {σ : Type} {structures : Structures σ} {subject : σ} {memory : Memory} {tables : Tables}
  {collections : List TaskContainer}

theorem threadIds_gives (finds : Finds structures.memory subject memory)
    (holds : HoldsThreads structures.layout memory structures.origin tables) :
    Gives structures.threadIds subject tables.order := by
  rcases holds with ⟨first, listed, pointer, list, fits, order, _⟩
  rw [← order]
  exact (finds.word pointer).bind (threadsFrom_gives finds list fits)

theorem threadState_gives (finds : Finds structures.memory subject memory)
    (holds : HoldsThreads structures.layout memory structures.origin tables) (id : ThreadId) :
    (structures.interpreter.threadState id).run.run subject = (tables.threadState id, subject) := by
  rcases holds with ⟨first, listed, pointer, list, fits, _, table⟩
  have found : Gives (do
      let first ← structures.firstThread
      structures.findThread id Structures.threadLimit first) subject (listed.lookup id) :=
    (finds.word pointer).bind (findThread_gives finds id list fits)
  rw [Structures.interpreter, Query.settled_apply, Structures.threadState,
    (found.adapt (Halt.map CaptureError.memory)).bind_run, Tables.threadState, table]
  cases listed.lookup id <;> rfl

theorem shows_of_stores (finds : Finds structures.memory subject memory)
    (stores : Stores structures.layout memory structures.origin tables collections) :
    Shows structures.interpreter subject tables collections where
  version := congrArg (·, subject) stores.version
  threadIds := (threadIds_gives finds stores.threads).settled _ _
  threadState := threadState_gives finds stores.threads
  frame place frame stands :=
    (frame_gives finds (stores.frames place frame stands)).settled _ _
  code place code stands := (code_gives finds (stores.codes place code stands)).settled _ _
  task place task stands := (task_gives finds (stores.tasks place task stands)).settled _ _
  members container isStored members stands :=
    (members_gives finds (stores.members container isStored members stands)).settled _ _

end

theorem shows_tables {tables : Tables} (whole : tables.Whole) (collections : List TaskContainer) :
    Shows Tables.interpreter tables tables collections where
  version := rfl
  threadIds := by
    show (tables.threadIds, tables) = _
    rw [Tables.threadIds, whole.listable]
    rfl
  threadState id := by
    have still : tables.stir id = tables := by
      simp [Tables.stir, whole.resting]
    show ((tables.stir id).threadState id, tables.stir id) = _
    rw [still]
  frame place frame stands := by
    show (Tables.entry place tables.frames[place]?, tables) = _
    rw [stands]
    rfl
  code place code stands := by
    show (Tables.entry place tables.codes[place]?, tables) = _
    rw [stands]
    rfl
  task place task stands := by
    show (Tables.entry place tables.tasks[place]?, tables) = _
    rw [stands]
    rfl
  members container _ members stands := by
    show (Tables.entry container.address tables.containers[container.address]?, tables) = _
    rw [stands]
    rfl

/-! ## Walks that cannot be told apart -/

/--
Two walks over interpreters that do not move have the same result and leave the same walker, whatever
walker they begin with.  `holds` is what is known of a value that they give.
-/
def SameWalk {σ τ ε α : Type} (one : Walking σ ε α) (other : Walking τ ε α) (subject : σ)
    (seen : τ) (holds : α → Prop) : Prop :=
  ∀ walker, ∃ result after,
    one ⟨walker, subject⟩ = (result, ⟨after, subject⟩) ∧
    other ⟨walker, seen⟩ = (result, ⟨after, seen⟩) ∧
    ∀ value, result = .ok value → holds value

section

variable {σ τ ε α β : Type} {subject : σ} {seen : τ} {holds : α → Prop}

theorem sameWalk_pure {value : α} (known : holds value) :
    SameWalk (pure value : Walking σ ε α) (pure value) subject seen holds :=
  fun walker => ⟨.ok value, walker, rfl, rfl, fun _ same => Except.ok.inj same ▸ known⟩

theorem sameWalk_throw (error : ε) :
    SameWalk (throw error : Walking σ ε α) (throw error) subject seen holds :=
  fun walker => ⟨.error error, walker, rfl, rfl, nofun⟩

theorem SameWalk.bind {one : Walking σ ε α} {other : Walking τ ε α}
    {next : α → Walking σ ε β} {otherNext : α → Walking τ ε β} {known : β → Prop}
    (first : SameWalk one other subject seen holds)
    (second : ∀ value, holds value →
      SameWalk (next value) (otherNext value) subject seen known) :
    SameWalk (one >>= next) (other >>= otherNext) subject seen known := by
  intro walker
  rcases first walker with ⟨result, middle, ran, otherRan, held⟩
  cases result with
  | error error =>
      refine ⟨.error error, middle, ?_, ?_, nofun⟩
      · rw [Walking.bind_apply, ran]
      · rw [Walking.bind_apply, otherRan]
  | ok value =>
      rcases second value (held value rfl) middle with ⟨result, after, ran', otherRan', isKnown⟩
      refine ⟨result, after, ?_, ?_, isKnown⟩
      · rw [Walking.bind_apply, ran]
        exact ran'
      · rw [Walking.bind_apply, otherRan]
        exact otherRan'

theorem SameWalk.adapt {δ : Type} {one : Walking σ ε α} {other : Walking τ ε α}
    (change : ε → δ) (same : SameWalk one other subject seen holds) :
    SameWalk (ExceptT.adapt change one) (ExceptT.adapt change other) subject seen holds := by
  intro walker
  rcases same walker with ⟨result, after, ran, otherRan, known⟩
  refine ⟨result.mapError change, after, ?_, ?_, ?_⟩
  · rw [Walking.adapt_apply, ran]
    cases result <;> rfl
  · rw [Walking.adapt_apply, otherRan]
    cases result <;> rfl
  · intro value isOk
    cases result with
    | error error => cases isOk
    | ok found => exact known value (Except.ok.inj isOk ▸ rfl)

/-- Questions with the same answer. -/
theorem sameWalk_ask {query : ExceptT ε (StateM σ) α} {otherQuery : ExceptT ε (StateM τ) α}
    {result : Except ε α} (answer : query.run.run subject = (result, subject))
    (otherAnswer : otherQuery.run.run seen = (result, seen))
    (known : ∀ value, result = .ok value → holds value) :
    SameWalk (Walking.ask query) (Walking.ask otherQuery) subject seen holds := by
  intro walker
  refine ⟨result, walker, ?_, ?_, known⟩
  · show ((query subject).1, (⟨walker, (query subject).2⟩ : Observation σ)) = _
    rw [show query subject = (result, subject) from answer]
  · show ((otherQuery seen).1, (⟨walker, (otherQuery seen).2⟩ : Observation τ)) = _
    rw [show otherQuery seen = (result, seen) from otherAnswer]

/-- Questions whose answer is a value that is known. -/
theorem sameWalk_ask_value {query : ExceptT ε (StateM σ) α} {otherQuery : ExceptT ε (StateM τ) α}
    {value : α} (gives : Gives query subject value) (otherGives : Gives otherQuery seen value) :
    SameWalk (Walking.ask query) (Walking.ask otherQuery) subject seen (value = ·) :=
  sameWalk_ask gives otherGives fun _ same => Except.ok.inj same

/-- A walk that goes on with what the walker is. -/
theorem SameWalk.bind_walker (next : Walker → Walking σ ε β) (otherNext : Walker → Walking τ ε β)
    {known : β → Prop}
    (same : ∀ walker, SameWalk (next walker) (otherNext walker) subject seen known) :
    SameWalk (get >>= fun observation => next observation.walker)
      (get >>= fun observation => otherNext observation.walker) subject seen known := by
  intro walker
  rcases same walker walker with ⟨result, after, ran, otherRan, held⟩
  refine ⟨result, after, ?_, ?_, held⟩
  · rw [Walking.bind_apply]
    exact ran
  · rw [Walking.bind_apply]
    exact otherRan

theorem sameWalk_remembered (code : Address) (offset : UInt32) :
    SameWalk (Walking.remembered? code offset : Walking σ ε (Option Frame))
      (Walking.remembered? code offset) subject seen fun _ => True := by
  intro walker
  unfold Walking.remembered?
  cases walker.cache.use (code, offset) with
  | none => exact ⟨.ok none, walker, rfl, rfl, fun _ _ => trivial⟩
  | some used =>
      exact ⟨.ok (some used.1), { walker with cache := used.2 }, rfl, rfl, fun _ _ => trivial⟩

theorem sameWalk_checkLine (code : CodeUnit) (offset : UInt32) :
    SameWalk (Walking.checkLine code offset : Walking σ ε Unit) (Walking.checkLine code offset)
      subject seen fun _ => True :=
  fun _ => ⟨.ok (), _, rfl, rfl, fun _ _ => trivial⟩

theorem sameWalk_remember (code : Address) (offset : UInt32) (frame : Frame) :
    SameWalk (Walking.remember code offset frame : Walking σ ε Unit)
      (Walking.remember code offset frame) subject seen fun _ => True :=
  fun _ => ⟨.ok (), _, rfl, rfl, fun _ _ => trivial⟩

end

section

variable {σ τ : Type} {one : Interpreter σ} {other : Interpreter τ} {subject : σ} {seen : τ}
  {tables : Tables} {collections : List TaskContainer}

theorem sameWalk_resolve (shows : Shows one subject tables collections)
    (showsOther : Shows other seen tables collections) {place : Address} {code : CodeUnit}
    (stands : tables.codes[place]? = some code) (offset : UInt32) :
    SameWalk (Walking.resolve one place offset) (Walking.resolve other place offset)
      subject seen fun _ => True := by
  refine (sameWalk_remembered place offset).bind fun found _ => ?_
  cases found with
  | some frame => exact sameWalk_pure trivial
  | none =>
      refine (sameWalk_ask_value (shows.code place code stands)
        (showsOther.code place code stands)).bind ?_
      rintro _ rfl
      refine (sameWalk_checkLine code offset).bind fun _ _ => ?_
      refine SameWalk.bind_walker
        (fun walker => do
          let frame := Walking.frameOf walker.format code offset
          Walking.remember place offset frame
          pure frame)
        (fun walker => do
          let frame := Walking.frameOf walker.format code offset
          Walking.remember place offset frame
          pure frame)
        fun walker => ?_
      exact (sameWalk_remember place offset _).bind fun _ _ => sameWalk_pure trivial

/-- The frames that tables hold of a chain are walked in the same way. -/
theorem sameWalk_chain (whole : tables.Whole) (shows : Shows one subject tables collections)
    (showsOther : Shows other seen tables collections) (limit room : Nat) {from? : Option Address}
    (stands : ∀ place, from? = some place → ∃ frame, tables.frames[place]? = some frame) :
    SameWalk (Walking.chain one limit room from?) (Walking.chain other limit room from?)
      subject seen fun _ => True := by
  induction room generalizing from? with
  | zero =>
      cases from? with
      | none => exact sameWalk_pure trivial
      | some place => exact sameWalk_throw _
  | succ room induction =>
      cases from? with
      | none => exact sameWalk_pure trivial
      | some place =>
          rcases stands place rfl with ⟨raw, isRaw⟩
          have callers := induction fun caller follows =>
            whole.callers place raw caller isRaw follows
          refine ((sameWalk_ask_value (shows.frame place raw isRaw)
            (showsOther.frame place raw isRaw)).adapt _).bind ?_
          rintro _ rfl
          cases isShim : raw.isShim with
          | true =>
              simp only [if_true]
              exact callers
          | false =>
              rcases whole.units place raw isRaw isShim with ⟨code, isCode⟩
              simp only [Bool.false_eq_true, if_false]
              refine ((sameWalk_resolve shows showsOther isCode raw.offset).adapt _).bind ?_
              exact fun frame _ => callers.bind fun others _ => sameWalk_pure trivial

theorem sameWalk_walk (whole : tables.Whole) (shows : Shows one subject tables collections)
    (showsOther : Shows other seen tables collections) (thread : ThreadId) :
    SameWalk (Walking.walk one thread) (Walking.walk other thread) subject seen
      fun _ => True := by
  have asked : SameWalk (Walking.ask (one.threadState thread))
      (Walking.ask (other.threadState thread)) subject seen
      fun state => tables.threads[thread]? = some state := by
    refine sameWalk_ask (shows.threadState thread) (showsOther.threadState thread) ?_
    intro state isState
    rw [Tables.threadState] at isState
    cases known : tables.threads[thread]? with
    | none => simp [known] at isState
    | some found =>
        simp only [known, Except.ok.injEq] at isState
        rw [isState]
  refine asked.bind fun before isBefore => ?_
  have walked : SameWalk (Walking.walkFrom one before.top) (Walking.walkFrom other before.top)
      subject seen fun _ => True :=
    SameWalk.bind_walker
      (fun walker => Walking.chain one walker.maxDepth walker.maxDepth before.top)
      (fun walker => Walking.chain other walker.maxDepth walker.maxDepth before.top)
      fun walker => sameWalk_chain whole shows showsOther walker.maxDepth walker.maxDepth
        fun place isTop => whole.tops thread before place isBefore isTop
  refine walked.bind fun frames _ => asked.bind fun after _ => ?_
  split
  · exact sameWalk_pure trivial
  · exact sameWalk_throw _

end

/-! ## The interpreter in memory -/

/--
An interpreter in memory answers with what the memory stores, and any walk over it, whatever the
walker has remembered and however deep it goes, gives what the same walk over the tables gives.  No
address that is computed on the way exceeds a word.
-/
theorem stored_interpreter_answers_and_walks {σ : Type} (image : σ → Memory)
    (exceed : WordOperation → StateM σ Unit) (layout : Layout) (origin : Address) (subject : σ)
    {tables : Tables} {collections : List TaskContainer}
    (stores : Stores layout (image subject) origin tables collections) (whole : tables.Whole) :
    let stored := (⟨Memory.reader image exceed, layout, origin⟩ : Structures σ).interpreter
    Shows stored subject tables collections ∧
    Shows Tables.interpreter tables tables collections ∧
    ∀ (walker : Walker) (thread : ThreadId), ∃ result after,
      (Walking.walk stored thread).run.run ⟨walker, subject⟩ = (result, ⟨after, subject⟩) ∧
      (Walking.walk Tables.interpreter thread).run.run ⟨walker, tables⟩ =
        (result, ⟨after, tables⟩) := by
  intro stored
  have shows : Shows stored subject tables collections :=
    shows_of_stores (finds_reader image exceed subject) stores
  have direct := shows_tables whole collections
  refine ⟨shows, direct, fun walker thread => ?_⟩
  rcases sameWalk_walk whole shows direct thread walker with ⟨result, after, ran, otherRan, _⟩
  exact ⟨result, after, ran, otherRan⟩

/-! ## A small image -/

section

open StackSampler.Stream (bytes32 bytes64)

/-- The stretches of memory that hold an object, field by field. -/
def objectAt (place : Address) (fields : List (Offset × List UInt8)) : Memory :=
  fields.map fun (field, bytes) => ⟨(place + field).toNat, bytes.toArray⟩

/-- The stretches of memory that hold the bytes of an object with a length. -/
def bytesAt (place : Address) (bytes : List UInt8) : Memory :=
  objectAt place [(0, bytes64 (.ofNat bytes.length)), (8, bytes)]

/-- A layout in which all fields that may be lacking are there. -/
def smallLayout : Layout where
  version := ⟨3, 11⟩
  interpreter := ⟨8, none⟩
  thread := ⟨0, 8, 16, some 24⟩
  frame := ⟨0, 8, .pointer 16 64, some 24, some ⟨25, 3⟩⟩
  code := ⟨0, some 8, 16, 24, 32⟩
  string := ⟨0, 8⟩
  bytes := ⟨0, 8⟩
  task := ⟨0, 8, 16, 0, some 24, some 32⟩
  coroutine := ⟨16, false, some 24⟩
  containers := some ⟨0, 8, 16, 8, 16⟩

/-- A frame on the stack of a thread, with a shim behind it. -/
def smallFrame : RawFrame := ⟨0x1400, 4, some 0x1280, false, false⟩

/-- The shim. -/
def smallShim : RawFrame := ⟨0, 0, none, true, true⟩

/-- The code unit of the frame. -/
def smallCode : CodeUnit := ⟨"f", some "A.f", "a.py", 10, [0xe9, 0x02]⟩

/-- A task with a chain of two coroutines. -/
def smallTask : TaskState := ⟨[0x1a00, 0x1a40], none, false, some "T", some 0xe0⟩

/-- An interpreter with a thread, a task and a set that refers to the task. -/
def smallTables : Tables where
  order := [77]
  threads := .insert ∅ 77 ⟨some 0x1200, 5⟩
  frames := .insert (.insert ∅ 0x1280 smallShim) 0x1200 smallFrame
  codes := .insert ∅ 0x1400 smallCode
  tasks := .insert ∅ 0x1800 smallTask
  containers := .insert ∅ 0x1c00 [0x1800]

/-- The entries of the set: the reference to the task, a dead reference, and free ones. -/
def smallEntries : List (List UInt8) :=
  [0, 0x1d00, 0, 0x1d40].map fun key => bytes64 0 ++ bytes64 key

/-- The memory of the interpreter. -/
def smallImage : Memory :=
  objectAt 0x1000 [(8, bytes64 0x1100)] ++
  objectAt 0x1100 [(0, bytes64 0), (8, bytes64 77), (16, bytes64 0x1200), (24, bytes64 5)] ++
  objectAt 0x1200 [(0, bytes64 0x1280), (8, bytes64 0x1400), (16, bytes64 0x1444), (24, [0, 0])] ++
  objectAt 0x1280 [(0, bytes64 0), (8, bytes64 0), (16, bytes64 64), (24, [1, 3])] ++
  objectAt 0x1400 [(0, bytes64 0x1500), (8, bytes64 0x1520), (16, bytes64 0x1540),
    (24, bytes32 10), (32, bytes64 0x1580)] ++
  bytesAt 0x1500 (Text.utf8 "f") ++ bytesAt 0x1520 (Text.utf8 "A.f") ++
  bytesAt 0x1540 (Text.utf8 "a.py") ++ bytesAt 0x1580 [0xe9, 0x02] ++
  objectAt 0x1800 [(0, bytes64 0x1900), (8, bytes64 0), (16, bytes32 0), (24, bytes64 0x15a0),
    (32, bytes64 0xe0)] ++
  bytesAt 0x15a0 (Text.utf8 "T") ++
  objectAt 0x1900 [(16, bytes64 0x1a00), (24, bytes64 0x1940)] ++
  objectAt 0x1940 [(16, bytes64 0x1a40), (24, bytes64 0)] ++
  objectAt 0x1c00 [(0, bytes64 0x1c80), (8, bytes64 3)] ++
  objectAt 0x1c80 [(0, smallEntries.flatten)] ++
  objectAt 0x1d00 [(16, bytes64 0x1800)] ++ objectAt 0x1d40 [(16, bytes64 0)]

/-- What stands in a table with a new entry is that entry, or stood there before. -/
theorem eq_or_of_getElem?_insert {α : Type} {entries : Std.ExtTreeMap UInt64 α}
    {key place : UInt64} {value found : α}
    (stands : (entries.insert key value)[place]? = some found) :
    (place = key ∧ found = value) ∨ entries[place]? = some found := by
  rw [Std.ExtTreeMap.getElem?_insert] at stands
  split at stands
  next same => exact .inl ⟨(Std.LawfulEqOrd.eq_of_compare same).symm, (Option.some.inj stands).symm⟩
  next => exact .inr stands

theorem eq_of_getElem?_single {α : Type} {key place : UInt64} {value found : α}
    (stands : ((∅ : Std.ExtTreeMap UInt64 α).insert key value)[place]? = some found) :
    place = key ∧ found = value := by
  rcases eq_or_of_getElem?_insert stands with new | old
  · exact new
  · simp at old

theorem smallImage_threads : HoldsThreads smallLayout smallImage 0x1000 smallTables := by
  have held : HoldsThread smallLayout.thread smallImage 0x1100 ⟨some 0x1200, 5⟩ :=
    ⟨⟨⟨by decide, rfl⟩, by decide⟩, 24, rfl, by decide, rfl⟩
  refine ⟨0x1100, [(77, ⟨some 0x1200, 5⟩)], ⟨by decide, rfl⟩,
    .cons (by decide) ⟨by decide, rfl⟩ held ⟨by decide, rfl⟩ .nil, by decide, rfl, fun id => ?_⟩
  by_cases same : id = 77
  · subst same
    simp [smallTables]
  · have other : (id == 77) = false := beq_false_of_ne same
    simp [smallTables, List.lookup_cons, other, Ne.symm same]

theorem smallImage_frame : HoldsFrame smallLayout.frame smallImage 0x1200 smallFrame where
  previous := ⟨⟨by decide, rfl⟩, by decide⟩
  code := ⟨by decide, rfl⟩
  instruction := ⟨by decide, 0x1444, ⟨by decide, rfl⟩, rfl⟩
  isEntry := ⟨0, ⟨by decide, rfl⟩, rfl⟩
  isShim := ⟨0, ⟨by decide, rfl⟩, rfl⟩

theorem smallImage_shim : HoldsFrame smallLayout.frame smallImage 0x1280 smallShim where
  previous := ⟨⟨by decide, rfl⟩, by decide⟩
  code := ⟨by decide, rfl⟩
  instruction := ⟨by decide, 64, ⟨by decide, rfl⟩, rfl⟩
  isEntry := ⟨1, ⟨by decide, rfl⟩, rfl⟩
  isShim := ⟨3, ⟨by decide, rfl⟩, rfl⟩

/-- An object at an address of the small image that holds these bytes. -/
theorem smallImage_object {object : Address} {bytes : List UInt8}
    (length : smallImage.read object 8 = .ok (bytes64 (.ofNat bytes.length)))
    (data : smallImage.read (object + 8) bytes.length = .ok bytes)
    (fits : object.toNat < UInt64.size - 8) (small : bytes.length ≤ MemoryReader.copyLimit) :
    HoldsObject ⟨0, 8⟩ smallImage object bytes := by
  have fits' : (WordOperation.place object 8).Fits := Nat.add_lt_of_lt_sub fits
  refine ⟨⟨object.toNat_lt, ?_⟩, fits', .inr ⟨fits', data⟩, small⟩
  rw [UInt64.add_zero]
  exact length

theorem smallImage_code : HoldsCode smallLayout smallImage 0x1400 smallCode where
  name := ⟨0x1500, ⟨by decide, rfl⟩, smallImage_object rfl rfl (by decide) (by decide)⟩
  qualname := .stored (by decide : (0x1520 : Address) ≠ 0) ⟨by decide, rfl⟩
    (smallImage_object rfl rfl (by decide) (by decide))
  file := ⟨0x1540, ⟨by decide, rfl⟩, smallImage_object rfl rfl (by decide) (by decide)⟩
  firstLine := ⟨10, ⟨by decide, rfl⟩, rfl⟩
  lineTable := ⟨0x1580, ⟨by decide, rfl⟩, smallImage_object rfl rfl (by decide) (by decide)⟩

theorem smallImage_task : HoldsTask smallLayout smallImage 0x1800 smallTask where
  awaiting := ⟨⟨by decide, rfl⟩, by decide⟩
  state := ⟨0, ⟨by decide, rfl⟩, rfl⟩
  coroutine := by
    have inner : CoroutineChain smallLayout.coroutine smallImage 0x1940 [0x1a40] :=
      .cons (by decide) ⟨by decide, rfl⟩ (by decide) ⟨by decide, rfl⟩ .nil
    exact ⟨0x1900, ⟨by decide, rfl⟩,
      .cons (by decide) ⟨by decide, rfl⟩ (by decide) ⟨by decide, rfl⟩ inner⟩
  depth := by decide
  name := .stored (by decide : (0x15a0 : Address) ≠ 0) ⟨by decide, rfl⟩
    (smallImage_object rfl rfl (by decide) (by decide))
  loop := .stored ⟨⟨by decide, rfl⟩, by decide⟩

theorem smallImage_members :
    HoldsMembers smallLayout smallImage (.references 0x1c00) [0x1800] := by
  refine ⟨⟨0, 8, 16, 8, 16⟩, 0x1c80, smallEntries, [none, some 0x1800, none, none], rfl, ?_, rfl⟩
  refine ⟨⟨by decide, rfl⟩, ⟨by decide, rfl⟩, ⟨by decide, rfl⟩, ?_, by decide, by decide,
    by decide⟩
  have free : HoldsEntry ⟨0, 8, 16, 8, 16⟩ smallImage (.references 0x1c00)
      (bytes64 0 ++ bytes64 0) none := ⟨rfl, 0, rfl, .free⟩
  have task : HoldsEntry ⟨0, 8, 16, 8, 16⟩ smallImage (.references 0x1c00)
      (bytes64 0 ++ bytes64 0x1d00) (some 0x1800) :=
    ⟨rfl, 0x1d00, rfl, .reference (by decide) ⟨⟨by decide, rfl⟩, by decide⟩⟩
  have dead : HoldsEntry ⟨0, 8, 16, 8, 16⟩ smallImage (.references 0x1c00)
      (bytes64 0 ++ bytes64 0x1d40) none :=
    ⟨rfl, 0x1d40, rfl, .reference (by decide) ⟨⟨by decide, rfl⟩, by decide⟩⟩
  exact .cons free (.cons task (.cons free (.cons dead .nil)))

theorem smallTables_frames {place : Address} {frame : RawFrame}
    (stands : smallTables.frames[place]? = some frame) :
    (place = 0x1200 ∧ frame = smallFrame) ∨ (place = 0x1280 ∧ frame = smallShim) :=
  (eq_or_of_getElem?_insert stands).imp id eq_of_getElem?_single

theorem smallImage_stores :
    Stores smallLayout smallImage 0x1000 smallTables [.references 0x1c00] where
  version := rfl
  threads := smallImage_threads
  frames place frame stands := by
    rcases smallTables_frames stands with ⟨rfl, rfl⟩ | ⟨rfl, rfl⟩
    · exact smallImage_frame
    · exact smallImage_shim
  codes place code stands := by
    rcases eq_of_getElem?_single stands with ⟨rfl, rfl⟩
    exact smallImage_code
  tasks place task stands := by
    rcases eq_of_getElem?_single stands with ⟨rfl, rfl⟩
    exact smallImage_task
  members container isStored members stands := by
    rw [List.mem_singleton.mp isStored] at stands ⊢
    rcases eq_of_getElem?_single stands with ⟨_, rfl⟩
    exact smallImage_members

theorem smallTables_whole : smallTables.Whole where
  tops id state place known isTop := by
    rcases eq_of_getElem?_single known with ⟨rfl, rfl⟩
    cases isTop
    exact ⟨smallFrame, by simp [smallTables]⟩
  callers place frame caller stands follows := by
    rcases smallTables_frames stands with ⟨rfl, rfl⟩ | ⟨rfl, rfl⟩
    · cases follows
      refine ⟨smallShim, ?_⟩
      rw [smallTables, Std.ExtTreeMap.getElem?_insert, if_neg (by decide)]
      exact Std.ExtTreeMap.getElem?_insert_self
    · cases follows
  units place frame stands notShim := by
    rcases smallTables_frames stands with ⟨rfl, rfl⟩ | ⟨rfl, rfl⟩
    · exact ⟨smallCode, by simp [smallTables, smallFrame]⟩
    · cases notShim
  listable := rfl
  resting := rfl

theorem stored_interpreter_answers_and_walks_smallImage :
    let stored : Interpreter Memory :=
      (⟨Memory.reader id fun _ => pure (), smallLayout, 0x1000⟩ : Structures Memory).interpreter
    let stack : List WalkedFrame := [⟨0x1200, .interpreted "A.f" "a.py" 11, false⟩]
    Stores smallLayout smallImage 0x1000 smallTables [.references 0x1c00] ∧ smallTables.Whole ∧
    Gives (stored.members (.references 0x1c00)) smallImage [0x1800] ∧
    ((Walking.walk stored 77).run.run ⟨.new ⟨3, 11⟩ 500, smallImage⟩).1 = .ok stack ∧
    ((Walking.walk Tables.interpreter 77).run.run ⟨.new ⟨3, 11⟩ 500, smallTables⟩).1 =
      .ok stack := by
  intro stored stack
  rcases stored_interpreter_answers_and_walks id (fun _ => pure ()) smallLayout 0x1000 smallImage
    smallImage_stores smallTables_whole with ⟨shows, _, walks⟩
  rcases walks (.new ⟨3, 11⟩ 500) 77 with ⟨result, after, ran, direct⟩
  have seen : ((Walking.walk stored 77).run.run ⟨.new ⟨3, 11⟩ 500, smallImage⟩).1 = .ok stack := rfl
  have members := shows.members (.references 0x1c00) List.mem_cons_self [0x1800]
    Std.ExtTreeMap.getElem?_insert_self
  refine ⟨smallImage_stores, smallTables_whole, members, seen, ?_⟩
  rw [direct, ← seen, ran]

end

end Storing

end StackSampler
