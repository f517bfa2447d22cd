import Mathlib.Data.List.Forall2
import Mathlib.Order.Monotone.Basic
import StackSampler.Proofs.Walk.History

/-!
# Following a walk

A walk asks for the head of a chain, then for one frame after the other, then for the head again,
and in between for the code units that it does not remember.  `Followed` keeps the answers that it
got for the frames, each linked to the next as it was read, and `Shown` is what it shows of them.
What the interpreter was like at the instants of the answers is left open.

A walker remembers frames of code units from one walk to the next.  A `Naming` says which frames
may be shown for an offset of a code unit once so many reads were made.  `Walking.Tracks` follows
it, and the number of reads, through the steps of a walk.
-/

namespace StackSampler

/-! ## What a walker remembers -/

namespace RecentCache

variable {κ α : Type} [DecidableEq κ] {cache : RecentCache κ α} {key : κ} {value : α}

theorem mem_of_use {after : RecentCache κ α} (used : cache.use key = some (value, after)) :
    (key, value) ∈ cache.entries ∧ after.entries ⊆ cache.entries := by
  rw [use] at used
  split at used
  case h_1 found lookup =>
    simp only [Option.some.injEq, Prod.mk.injEq] at used
    rcases used with ⟨rfl, rfl⟩
    have held : (key, found) ∈ cache.entries := by
      rcases List.lookup_eq_some_iff.mp lookup with ⟨front, back, split, _⟩
      rw [split]
      exact List.mem_append_right _ List.mem_cons_self
    refine ⟨held, List.cons_subset.mpr ⟨held, ?_⟩⟩
    exact fun _ member => (List.mem_filter.mp member).1
  case h_2 => cases used

theorem mem_of_put {capacity : Nat} {entry : κ × α}
    (member : entry ∈ (cache.put capacity key value).entries) :
    entry = (key, value) ∨ entry ∈ cache.entries := by
  rcases List.mem_cons.mp (List.mem_of_mem_take member) with new | old
  · exact .inl new
  · exact .inr (List.mem_filter.mp old |>.1)

end RecentCache

/-- Which frames may be shown for an offset of a code unit, once so many reads were made. -/
abbrev Naming := Nat → Address → UInt32 → Frame → Prop

/-- All that a walker remembers may be shown. -/
structure Walker.Knows (walker : Walker) (format : LineFormat)
    (right : Address → UInt32 → Frame → Prop) : Prop where
  format_eq : walker.format = format
  remembers : ∀ entry ∈ walker.cache.entries, right entry.1.1 entry.1.2 entry.2

theorem Walker.Knows.mono
    {walker : Walker} {format : LineFormat} {right more : Address → UInt32 → Frame → Prop}
    (knows : walker.Knows format right) (implies : right ≤ more) : walker.Knows format more :=
  ⟨knows.format_eq, fun entry member => implies _ _ _ (knows.remembers entry member)⟩

/-! ## Answers -/

section

variable {ε α β : Type} {query : ExceptT ε (StateM Nat) α} {first last : Nat} {value : α}

/-- A question is answered with a value; `first` and `last` are the numbers of reads around it. -/
def Answers (query : ExceptT ε (StateM Nat) α) (first last : Nat) (value : α) : Prop :=
  query.run.run first = (.ok value, last)

/-- A question takes no read back. -/
def Counts (query : ExceptT ε (StateM Nat) α) : Prop :=
  ∀ first, first ≤ (query.run.run first).2

theorem Answers.le (answers : Answers query first last value) (counts : Counts query) :
    first ≤ last := by
  have spent := counts first
  rwa [show query.run.run first = (.ok value, last) from answers] at spent

end

/-- Questions that a walk asks take no read back. -/
structure Interpreter.Counted (interpreter : Interpreter Nat) : Prop where
  threadState : ∀ thread, Counts (interpreter.threadState thread)
  frame : ∀ place, Counts (interpreter.frame place)
  code : ∀ place, Counts (interpreter.code place)

/--
Frames that were read one after the other, each linked to the next as it was read; all of these
reads have numbers from `first` up to `last`.
-/
inductive Followed (interpreter : Interpreter Nat) :
    Nat → Nat → Option Address → List Link → Prop where
  | nil {first last : Nat} (order : first ≤ last) : Followed interpreter first last none []
  | cons {first before after last : Nat} {place : Address} {raw : RawFrame} {callers : List Link}
      (order : first ≤ before) (read : Answers (interpreter.frame place) before after raw)
      (behind : Followed interpreter after last raw.previous callers) :
      Followed interpreter first last (some place) ((place, raw) :: callers)

namespace Followed

variable {interpreter : Interpreter Nat} {first last : Nat} {from? : Option Address}
  {links : List Link}

theorem le (followed : Followed interpreter first last from? links)
    (counted : interpreter.Counted) : first ≤ last := by
  induction followed with
  | nil order => exact order
  | cons order read _ induction => exact order.trans ((read.le (counted.frame _)).trans induction)

theorem mono {earlier : Nat} (before : earlier ≤ first)
    (followed : Followed interpreter first last from? links) :
    Followed interpreter earlier last from? links := by
  cases followed with
  | nil order => exact .nil (before.trans order)
  | cons order read behind => exact .cons (before.trans order) read behind

end Followed

/-- What a walk shows of the frames of a chain, with any frames that may be shown. -/
def Shown (right : Address → UInt32 → Frame → Prop) (links : List Link)
    (frames : List WalkedFrame) : Prop :=
  List.Forall₂
    (fun link frame => frame.place = link.1 ∧ frame.isEntry = link.2.isEntry ∧
      right link.2.code link.2.offset frame.frame)
    (links.filter fun link => !link.2.isShim) frames

namespace Shown

variable {right more : Address → UInt32 → Frame → Prop} {links : List Link}
  {frames : List WalkedFrame} {place : Address} {raw : RawFrame}

theorem nil : Shown right [] [] :=
  List.Forall₂.nil

theorem shim (isShim : raw.isShim = true) (shown : Shown right links frames) :
    Shown right ((place, raw) :: links) frames := by
  rwa [Shown, List.filter_cons_of_neg (by simp [isShim])]

theorem cons {frame : Frame} (isShown : ¬ raw.isShim) (isRight : right raw.code raw.offset frame)
    (shown : Shown right links frames) :
    Shown right ((place, raw) :: links) (⟨place, frame, raw.isEntry⟩ :: frames) := by
  rw [Shown, List.filter_cons_of_pos (by simpa using isShown)]
  exact List.Forall₂.cons ⟨rfl, rfl, isRight⟩ shown

theorem mono (shown : Shown right links frames) (implies : right ≤ more) :
    Shown more links frames :=
  List.Forall₂.imp (fun _ _ known => ⟨known.1, known.2.1, implies _ _ _ known.2.2⟩) shown

theorem places_eq (shown : Shown right links frames) :
    frames.map (·.place) = (links.filter fun link => !link.2.isShim).map (·.1) := by
  rw [Shown] at shown
  generalize links.filter (fun link => !link.2.isShim) = kept at shown ⊢
  induction shown with
  | nil => rfl
  | cons known _ induction => rw [List.map_cons, List.map_cons, known.1, induction]

end Shown

/-! ## Steps of a walk -/

namespace Walking

theorem bind_apply {σ ε α β : Type} (step : Walking σ ε α) (next : α → Walking σ ε β)
    (before : Observation σ) :
    (step >>= next) before = match step before with
      | (.ok value, middle) => next value middle
      | (.error error, middle) => (.error error, middle) := by
  simp only [Bind.bind, ExceptT.bind, ExceptT.mk, StateT.bind, ExceptT.bindCont]
  rcases step before with ⟨_ | _, _⟩ <;> rfl

theorem adapt_apply {σ ε δ α : Type} (change : ε → δ) (step : Walking σ ε α)
    (before : Observation σ) :
    ExceptT.adapt change step before = match step before with
      | (.ok value, after) => (.ok value, after)
      | (.error error, after) => (.error (change error), after) := by
  show ((step before).1.mapError change, (step before).2) = _
  rcases step before with ⟨_ | _, _⟩ <;> rfl

/--
From `start` on, a step leaves the walker with frames that may be shown and takes no read back;
`found` holds of the numbers of reads before and after it and of the value that it gives, if it
gives one.
-/
def Tracks {ε α : Type} (start : Nat) (right : Naming) (format : LineFormat)
    (step : Walking Nat ε α) (found : Nat → Nat → α → Prop) : Prop :=
  ∀ before result after, start ≤ before.subject →
    before.walker.Knows format (right before.subject) → step before = (result, after) →
    after.walker.Knows format (right after.subject) ∧ before.subject ≤ after.subject ∧
      ∀ value, result = .ok value → found before.subject after.subject value

section

variable {ε δ α β : Type} {start : Nat} {right : Naming} {format : LineFormat}
  {step : Walking Nat ε α} {next : α → Walking Nat ε β} {found : Nat → Nat → α → Prop}

theorem Tracks.imp (tracks : Tracks start right format step found) {other : Nat → Nat → α → Prop}
    (implies : ∀ first last value, first ≤ last → found first last value →
      other first last value) :
    Tracks start right format step other := by
  intro before result after started knows ran
  rcases tracks before result after started knows ran with ⟨still, order, holds⟩
  exact ⟨still, order, fun value isOk => implies _ _ value order (holds value isOk)⟩

theorem tracks_pure (value : α) :
    Tracks start right format (pure value : Walking Nat ε α)
      fun first last given => last = first ∧ given = value := by
  intro before result after started knows ran
  cases ran
  refine ⟨knows, Nat.le_refl _, ?_⟩
  rintro _ ⟨rfl⟩
  exact ⟨rfl, rfl⟩

theorem tracks_throw (error : ε) (found : Nat → Nat → α → Prop) :
    Tracks start right format (throw error : Walking Nat ε α) found := by
  intro before result after started knows ran
  cases ran
  exact ⟨knows, Nat.le_refl _, nofun⟩

theorem Tracks.bind {later : α → Nat → Nat → β → Prop}
    (tracks : Tracks start right format step found)
    (goesOn : ∀ first middle value, start ≤ first → first ≤ middle → found first middle value →
      Tracks middle right format (next value) (later value)) :
    Tracks start right format (step >>= next) fun first last result =>
      ∃ middle value, first ≤ middle ∧ middle ≤ last ∧ found first middle value ∧
        later value middle last result := by
  intro before result after started knows ran
  rw [bind_apply] at ran
  rcases begun : step before with ⟨error | value, middle⟩
  · rw [begun] at ran
    cases ran
    rcases tracks _ _ _ started knows begun with ⟨still, order, _⟩
    exact ⟨still, order, nofun⟩
  · rw [begun] at ran
    rcases tracks _ _ _ started knows begun with ⟨still, order, here⟩
    rcases goesOn _ _ value started order (here value rfl) _ _ _ (Nat.le_refl _) still ran
      with ⟨last, further, there⟩
    exact ⟨last, order.trans further, fun given isOk =>
      ⟨_, value, order, further, here value rfl, there given isOk⟩⟩

/-- Of steps that only matter for their last value, the number of reads need not be known. -/
theorem Tracks.bind_value {kept : Nat → β → Prop}
    (tracks : Tracks start right format step found)
    (goesOn : ∀ first middle value, start ≤ first → first ≤ middle → found first middle value →
      Tracks middle right format (next value) fun _ last result => kept last result) :
    Tracks start right format (step >>= next) fun _ last result => kept last result :=
  (tracks.bind goesOn).imp fun _ _ _ _ ⟨_, _, _, _, _, isKept⟩ => isKept

theorem Tracks.adapt (tracks : Tracks start right format step found) (change : ε → δ) :
    Tracks start right format (ExceptT.adapt change step) found := by
  intro before result after started knows ran
  rw [adapt_apply] at ran
  rcases begun : step before with ⟨error | value, middle⟩
  · rw [begun] at ran
    cases ran
    rcases tracks _ _ _ started knows begun with ⟨still, order, _⟩
    exact ⟨still, order, nofun⟩
  · rw [begun] at ran
    cases ran
    rcases tracks _ _ _ started knows begun with ⟨still, order, here⟩
    exact ⟨still, order, fun given isOk => here given (by cases isOk; rfl)⟩

end

/-! ## What the questions of a walk find -/

section

variable {start : Nat} {right : Naming} {format : LineFormat}

theorem tracks_ask {ε α : Type} (lasting : Monotone right) {query : ExceptT ε (StateM Nat) α}
    (counts : Counts query) :
    Tracks start right format (ask query)
      fun first last value => Answers query first last value := by
  intro before result after started knows ran
  have asked : ask query before = ((query.run.run before.subject).1,
      { before with subject := (query.run.run before.subject).2 }) := rfl
  rw [asked] at ran
  cases ran
  refine ⟨knows.mono (lasting (counts before.subject)), counts before.subject, ?_⟩
  exact fun value isOk => Prod.ext isOk rfl

theorem tracks_remembered (code : Address) (offset : UInt32) :
    Tracks start right format (remembered? code offset : Walking Nat ReadFault (Option Frame))
      fun first last frame? => last = first ∧ ∀ frame, frame? = some frame →
        right first code offset frame := by
  intro before result after started knows ran
  rw [remembered?] at ran
  split at ran
  case h_1 frame cache used =>
    cases ran
    rcases RecentCache.mem_of_use used with ⟨member, kept⟩
    refine ⟨⟨knows.format_eq, fun entry inside => knows.remembers entry (kept inside)⟩,
      Nat.le_refl _, ?_⟩
    rintro _ ⟨rfl⟩
    refine ⟨rfl, ?_⟩
    rintro _ ⟨rfl⟩
    exact knows.remembers _ member
  case h_2 =>
    cases ran
    refine ⟨knows, Nat.le_refl _, ?_⟩
    rintro _ ⟨rfl⟩
    exact ⟨rfl, nofun⟩

theorem tracks_get {ε : Type} :
    Tracks start right format (get : Walking Nat ε (Observation Nat))
      fun first last observation => last = first ∧ observation.walker.format = format := by
  intro before result after started knows ran
  cases ran
  refine ⟨knows, Nat.le_refl _, ?_⟩
  rintro _ ⟨rfl⟩
  exact ⟨rfl, knows.format_eq⟩

theorem tracks_checkLine {ε : Type} (code : CodeUnit) (offset : UInt32) :
    Tracks start right format (checkLine code offset : Walking Nat ε Unit)
      fun first last _ => last = first := by
  intro before result after started knows ran
  cases ran
  exact ⟨⟨knows.format_eq, knows.remembers⟩, Nat.le_refl _, fun _ _ => rfl⟩

theorem tracks_remember (lasting : Monotone right) {code : Address} {offset : UInt32}
    {frame : Frame} (isRight : right start code offset frame) :
    Tracks start right format (remember code offset frame : Walking Nat ReadFault Unit)
      fun _ _ _ => True := by
  intro before result after started knows ran
  cases ran
  refine ⟨⟨knows.format_eq, fun entry inside => ?_⟩, Nat.le_refl _, fun _ _ => trivial⟩
  rcases RecentCache.mem_of_put inside with rfl | old
  · exact lasting started _ _ _ isRight
  · exact knows.remembers entry old

end

/-- What is read of a code unit from `start` on may be shown. -/
def Tells (interpreter : Interpreter Nat) (start : Nat) (right : Naming) (format : LineFormat) :
    Prop :=
  ∀ code first last unit, start ≤ first → Answers (interpreter.code code) first last unit →
    ∀ offset, right last code offset (frameOf format unit offset)

section

variable {interpreter : Interpreter Nat} {start : Nat} {right : Naming} {format : LineFormat}

theorem Tells.mono (tells : Tells interpreter start right format) {later : Nat}
    (order : start ≤ later) : Tells interpreter later right format :=
  fun code first last unit started => tells code first last unit (order.trans started)

theorem tracks_right (lasting : Monotone right) {ε : Type} {code : Address} {offset : UInt32}
    {frame : Frame} (isRight : right start code offset frame) :
    Tracks start right format (pure frame : Walking Nat ε Frame)
      fun _ last given => right last code offset given := by
  intro before result after started knows ran
  cases ran
  refine ⟨knows, Nat.le_refl _, ?_⟩
  rintro _ ⟨rfl⟩
  exact lasting started _ _ _ isRight

/-- Behind the outermost frame there is nothing to follow. -/
theorem tracks_ended :
    Tracks start right format (pure [] : Walking Nat CaptureError (List WalkedFrame))
      fun first last frames => ∃ links, Followed interpreter first last none links ∧
        Shown (right last) links frames :=
  (tracks_pure []).imp fun _ _ _ order given => ⟨[], .nil order, given.2 ▸ .nil⟩

/-- The frame of an offset may be shown, whether it was remembered or not. -/
theorem tracks_resolve (counted : interpreter.Counted) (lasting : Monotone right)
    (tells : Tells interpreter start right format) (code : Address) (offset : UInt32) :
    Tracks start right format (resolve interpreter code offset)
      fun _ last frame => right last code offset frame := by
  refine (tracks_remembered code offset).bind_value fun first middle frame? started _ found => ?_
  rcases found with ⟨rfl, isRight⟩
  cases frame? with
  | some frame => exact tracks_right lasting (isRight frame rfl)
  | none =>
      refine (tracks_ask lasting (counted.code code)).bind_value
        fun began ended unit asked _ read => ?_
      have isRight := tells code began ended unit (started.trans asked) read offset
      refine (tracks_checkLine unit offset).bind_value fun checked _ _ since _ same => ?_
      rw [same]
      refine tracks_get.bind_value fun noted now observation got order known => ?_
      have later := since.trans (got.trans order)
      rw [known.2]
      refine (tracks_remember lasting (lasting later _ _ _ isRight)).bind_value
        fun _ _ _ kept further _ => ?_
      exact tracks_right lasting (lasting (later.trans (kept.trans further)) _ _ _ isRight)

section

variable (counted : interpreter.Counted) (lasting : Monotone right)

include counted lasting

/-- Behind a frame that was read, the walk goes on with its caller. -/
theorem tracks_link {limit room : Nat} {place : Address} {raw : RawFrame}
    (tells : Tells interpreter start right format)
    (callersTracked : ∀ begun, start ≤ begun →
      Tracks begun right format (chain interpreter limit room raw.previous)
      fun first last frames => ∃ callers, Followed interpreter first last raw.previous callers ∧
        Shown (right last) callers frames) :
    Tracks start right format
      (if raw.isShim then chain interpreter limit room raw.previous
      else do
        let frame ← ExceptT.adapt CaptureError.memory (resolve interpreter raw.code raw.offset)
        let callers ← chain interpreter limit room raw.previous
        pure (⟨place, frame, raw.isEntry⟩ :: callers))
      fun first last frames => ∃ callers, Followed interpreter first last raw.previous callers ∧
        Shown (right last) ((place, raw) :: callers) frames := by
  split
  case isTrue isShim =>
    refine (callersTracked start (Nat.le_refl _)).imp fun first last frames _ found => ?_
    rcases found with ⟨callers, followed, shown⟩
    exact ⟨callers, followed, shown.shim isShim⟩
  case isFalse isShown =>
    have resolved := (tracks_resolve counted lasting tells raw.code raw.offset).adapt
      CaptureError.memory
    refine (resolved.bind fun first middle frame started order _ =>
      (callersTracked middle (started.trans order)).bind fun _ _ callers _ _ _ =>
        tracks_pure _).imp ?_
    rintro first last frames - ⟨middle, frame, early, -, isRight, ended, _, order, -,
      ⟨callers, followed, shown⟩, rfl, rfl⟩
    exact ⟨callers, followed.mono early, shown.cons isShown (lasting order _ _ _ isRight)⟩

/-- A walk of a chain follows the frames that it shows. -/
theorem tracks_chain (tells : Tells interpreter start right format) (limit room : Nat)
    (from? : Option Address) :
    Tracks start right format (chain interpreter limit room from?)
      fun first last frames => ∃ links, Followed interpreter first last from? links ∧
        Shown (right last) links frames := by
  induction room generalizing from? start with
  | zero =>
      cases from? with
      | none => exact tracks_ended
      | some place => exact tracks_throw _ _
  | succ room induction =>
      cases from? with
      | none => exact tracks_ended
      | some place =>
          -- Which caller the walk goes on with is only known from the frame that it reads.
          refine (((tracks_ask lasting (counted.frame place)).adapt CaptureError.memory).bind
            fun first middle raw started order _ =>
              tracks_link counted lasting (tells.mono (started.trans order)) fun begun after =>
                induction (tells.mono ((started.trans order).trans after)) raw.previous).imp ?_
          rintro first last frames - ⟨_, raw, -, -, read, callers, followed, shown⟩
          exact ⟨(place, raw) :: callers, .cons (Nat.le_refl first) read followed, shown⟩

theorem tracks_walkFrom (tells : Tells interpreter start right format) (from? : Option Address) :
    Tracks start right format (walkFrom interpreter from?)
      fun first last frames => ∃ links, Followed interpreter first last from? links ∧
        Shown (right last) links frames := by
  refine (tracks_get.bind fun first middle observation started order _ =>
    tracks_chain counted lasting (tells.mono (started.trans order)) observation.walker.maxDepth
      observation.walker.maxDepth from?).imp ?_
  rintro first last frames - ⟨_, _, -, -, ⟨rfl, -⟩, found⟩
  exact found

/-- The head of the chain is read again, and has to be as it was. -/
theorem tracks_unmoved (thread : ThreadId) (state : ThreadState) (frames : List WalkedFrame) :
    Tracks start right format
      (do
        let after ← ask (interpreter.threadState thread)
        if state = after then pure frames else throw (CaptureError.stale thread))
      fun first last shown => Answers (interpreter.threadState thread) first last state ∧
        shown = frames := by
  have compared (after : ThreadState) (start : Nat) :
      Tracks start right format
        (if state = after then pure frames else throw (.stale thread) :
          Walking Nat CaptureError (List WalkedFrame))
        fun first last shown => last = first ∧ state = after ∧ shown = frames := by
    split
    case isTrue same => exact (tracks_pure frames).imp fun _ _ _ _ given => ⟨given.1, same, given.2⟩
    case isFalse => exact tracks_throw _ _
  refine ((tracks_ask lasting (counted.threadState thread)).bind fun _ middle after _ _ _ =>
    compared after middle).imp ?_
  rintro first last shown - ⟨_, after, -, -, known, rfl, rfl, rfl⟩
  exact ⟨known, rfl⟩

/-- A walk that gives frames has got one head of the chain twice, and followed the frames. -/
theorem tracks_walk (tells : Tells interpreter start right format) (thread : ThreadId) :
    Tracks start right format (walk interpreter thread)
      fun first last frames => ∃ state links opened closing,
        Answers (interpreter.threadState thread) first opened state ∧
        Followed interpreter opened closing state.top links ∧
        Answers (interpreter.threadState thread) closing last state ∧
        Shown (right last) links frames := by
  refine ((tracks_ask lasting (counted.threadState thread)).bind
    fun first opened state started order _ =>
      (tracks_walkFrom counted lasting (tells.mono (started.trans order)) state.top).bind
        fun _ closing frames _ _ _ => tracks_unmoved counted lasting thread state frames).imp ?_
  rintro first last frames - ⟨opened, state, -, -, begins, closing, shown, -, order,
    ⟨links, followed, isShown⟩, ends, rfl⟩
  exact ⟨state, links, opened, closing, begins, followed, ends, isShown.mono (lasting order)⟩

theorem tracks_resolveFrame (tells : Tells interpreter start right format) (place : Address) :
    Tracks start right format (resolveFrame interpreter place) fun _ _ _ => True :=
  (tracks_ask lasting (counted.frame place)).bind_value fun _ _ raw started order _ =>
    (tracks_resolve counted lasting (tells.mono (started.trans order)) raw.code
      raw.offset).bind_value fun _ _ _ _ _ _ => (tracks_pure _).imp fun _ _ _ _ _ => trivial

end

end

end Walking

end StackSampler
