import StackSampler.Proofs.Walk.Tracking

/-!
# What a walk sights

A walk reads the head of a chain, then one frame after the other, then the head again.  `Sighted`
says that frames were read, each at an instant of its own, and linked as they were read.  If all of
these instants hold the same chain, what was sighted is that chain.

A walker remembers the frames of code units from one call to the next.  What it remembers is right
as long as code units do not change, which is `Walker.Truthful`.  `Walking.Finds` follows both
through a call.
-/

namespace StackSampler

/-- All that a walker remembers is what its format shows for the code units. -/
def Walker.Truthful (walker : Walker) (format : LineFormat) (units : Address → CodeUnit) : Prop :=
  walker.Knows format fun code offset frame => frame = Walking.frameOf format (units code) offset

theorem Walker.new_truthful
    (version : InterpreterVersion) (maxDepth : Nat) (units : Address → CodeUnit) :
    (Walker.new version maxDepth).Truthful (LineFormat.forVersion version) units :=
  ⟨rfl, fun _ member => absurd member List.not_mem_nil⟩

/-! ## What is sighted -/

/--
Frames that were read one after the other, each linked to the next as it was read; all of these
reads have numbers from `first` up to `last`.
-/
inductive Sighted (exposure : Exposure) : Nat → Nat → Option Address → List Link → Prop where
  | nil {first last : Nat} (order : first ≤ last) : Sighted exposure first last none []
  | cons {first last count : Nat} {place : Address} {raw : RawFrame} {callers : List Link}
      (after : first ≤ count) (read : (exposure.seen count).frames place = .ok raw)
      (behind : Sighted exposure (count + 1) last raw.previous callers) :
      Sighted exposure first last (some place) ((place, raw) :: callers)

namespace Sighted

variable {exposure : Exposure} {first last : Nat} {from? : Option Address} {links : List Link}

theorem le (sighted : Sighted exposure first last from? links) : first ≤ last := by
  induction sighted with
  | nil order => exact order
  | cons after _ _ induction => omega

/-- What is sighted while a chain stands still is that chain. -/
theorem chain {moment : Moment} (sighted : Sighted exposure first last from? links)
    (still : ∀ count, first ≤ count → count < last → moment.Agrees (exposure.seen count) from?) :
    moment.Chain from? links := by
  induction sighted with
  | nil => exact .nil
  | @cons first last count place raw callers after read behind induction =>
      have held : moment.frames place = .ok raw := by
        rw [← read, still count after behind.le place .here]
      refine .cons held (induction fun later started ends => ?_)
      exact (still later (by omega) ends).behind held

end Sighted

/-- What a walk shows of the frames of a chain. -/
def shownLinks (format : LineFormat) (units : Address → CodeUnit) (links : List Link) :
    List WalkedFrame :=
  (links.filter fun link => !link.2.isShim).map fun (place, raw) =>
    ⟨place, Walking.frameOf format (units raw.code) raw.offset, raw.isEntry⟩

theorem Shown.eq_shownLinks {format : LineFormat} {units : Address → CodeUnit} {links : List Link}
    {frames : List WalkedFrame}
    (shown : Shown (fun code offset frame => frame = Walking.frameOf format (units code) offset)
      links frames) :
    frames = shownLinks format units links := by
  rw [Shown] at shown
  rw [shownLinks]
  generalize links.filter (fun link => !link.2.isShim) = kept at shown ⊢
  induction shown with
  | nil => rfl
  | @cons link frame _ _ known _ induction =>
      rcases frame with ⟨place, shown, isEntry⟩
      rcases known with ⟨rfl, rfl, rfl⟩
      rw [List.map_cons, induction]

/-! ## Questions of an exposed interpreter -/

namespace Exposure

variable {exposure : Exposure} {base : Interpreter Nat} {first last : Nat}

theorem counts_read {ε α : Type} (refuse : ReadFault → ε) (answer : Moment → Except ε α) :
    Counts (exposure.read refuse answer) := by
  intro first
  show first ≤ (exposure.read refuse answer first).2
  rw [read]
  split <;> exact Nat.le_succ first

theorem answers_read {ε α : Type} {refuse : ReadFault → ε} {answer : Moment → Except ε α}
    {value : α}
    (answers : Answers (exposure.read refuse answer) first last value) :
    last = first + 1 ∧ answer (exposure.seen first) = .ok value := by
  have ran : exposure.read refuse answer first = (.ok value, last) := answers
  rw [read] at ran
  split at ran
  case h_1 => cases ran
  case h_2 =>
    rcases Prod.mk.inj ran with ⟨isOk, rfl⟩
    exact ⟨rfl, isOk⟩

theorem interpreter_counted : (exposure.interpreter base).Counted where
  threadState _ := counts_read _ _
  frame _ := counts_read _ _
  code _ := counts_read _ _

theorem answers_threadState {thread : ThreadId} {state : ThreadState}
    (answers : Answers ((exposure.interpreter base).threadState thread) first last state) :
    last = first + 1 ∧ (exposure.seen first).threads thread = some state := by
  rw [interpreter_threadState] at answers
  exact (answers_read answers).imp id Moment.threadState_eq_ok_iff.mp

theorem answers_frame {place : Address} {raw : RawFrame}
    (answers : Answers ((exposure.interpreter base).frame place) first last raw) :
    last = first + 1 ∧ (exposure.seen first).frames place = .ok raw := by
  rw [interpreter_frame] at answers
  exact answers_read answers

theorem answers_code {place : Address} {unit : CodeUnit}
    (answers : Answers ((exposure.interpreter base).code place) first last unit) :
    unit = exposure.units place := by
  rw [interpreter_code] at answers
  exact (Except.ok.inj (answers_read answers).2).symm

end Exposure

theorem Followed.sighted {exposure : Exposure} {base : Interpreter Nat} {first last : Nat}
    {from? : Option Address} {links : List Link}
    (followed : Followed (exposure.interpreter base) first last from? links) :
    Sighted exposure first last from? links := by
  induction followed with
  | nil order => exact .nil order
  | cons order read _ induction =>
      rcases Exposure.answers_frame read with ⟨rfl, held⟩
      exact .cons order held induction

/-! ## What walks find -/

namespace Walking

/--
A step of a truthful walker leaves it truthful and never takes a read back; `found` holds of the
numbers of reads before and after it and of the value that it gives, if it gives one.
-/
def Finds {ε α : Type} (exposure : Exposure) (format : LineFormat) (step : Walking Nat ε α)
    (found : Nat → Nat → α → Prop) : Prop :=
  ∀ before result after, before.walker.Truthful format exposure.units →
    step before = (result, after) →
    after.walker.Truthful format exposure.units ∧ before.subject ≤ after.subject ∧
      ∀ value, result = .ok value → found before.subject after.subject value

section

variable (exposure : Exposure) (format : LineFormat) (base : Interpreter Nat)

/-- The frames of code units that never change, however many reads were made. -/
def unchanging : Naming :=
  fun _ code offset frame => frame = frameOf format (exposure.units code) offset

theorem Tracks.finds {exposure : Exposure} {format : LineFormat} {ε α : Type}
    {step : Walking Nat ε α} {found other : Nat → Nat → α → Prop}
    (tracks : Tracks 0 (unchanging exposure format) format step found)
    (implies : ∀ first last value, found first last value → other first last value) :
    Finds exposure format step other := by
  intro before result after truthful ran
  rcases tracks before result after (Nat.zero_le _) truthful ran with ⟨still, order, holds⟩
  exact ⟨still, order, fun value isOk => implies _ _ value (holds value isOk)⟩

theorem unchanging_mono : Monotone (unchanging exposure format) :=
  fun _ _ _ => le_refl _

theorem tells_unchanging :
    Tells (exposure.interpreter base) 0 (unchanging exposure format) format := by
  rintro code first last unit - answers offset
  rw [unchanging, Exposure.answers_code answers]

theorem finds_walkFrom (from? : Option Address) :
    Finds exposure format (walkFrom (exposure.interpreter base) from?)
      fun first last frames => ∃ links, Sighted exposure first last from? links ∧
        frames = shownLinks format exposure.units links :=
  (tracks_walkFrom Exposure.interpreter_counted (unchanging_mono exposure format)
    (tells_unchanging exposure format base) from?).finds
      fun _ _ _ ⟨links, followed, shown⟩ => ⟨links, followed.sighted, shown.eq_shownLinks⟩

/-- A walk that gives frames has read one head of the chain twice, and sighted the frames. -/
theorem finds_walk (thread : ThreadId) :
    Finds exposure format (walk (exposure.interpreter base) thread)
      fun first last frames => ∃ state links,
        (exposure.seen first).threads thread = some state ∧
        (exposure.seen (last - 1)).threads thread = some state ∧
        Sighted exposure (first + 1) (last - 1) state.top links ∧
        frames = shownLinks format exposure.units links := by
  refine (tracks_walk Exposure.interpreter_counted (unchanging_mono exposure format)
    (tells_unchanging exposure format base) thread).finds ?_
  rintro first last frames ⟨state, links, _, closing, begins, followed, ends, shown⟩
  rcases Exposure.answers_threadState begins with ⟨rfl, known⟩
  rcases Exposure.answers_threadState ends with ⟨rfl, still⟩
  exact ⟨state, links, known, still, followed.sighted, shown.eq_shownLinks⟩

theorem finds_resolveFrame (place : Address) :
    Finds exposure format (resolveFrame (exposure.interpreter base) place) fun _ _ _ => True :=
  (tracks_resolveFrame Exposure.interpreter_counted (unchanging_mono exposure format)
    (tells_unchanging exposure format base) place).finds fun _ _ _ _ => trivial

end

end Walking

end StackSampler
