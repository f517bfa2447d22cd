import StackSampler.Proofs.Walk.Recall

/-!
# What the mark of a walker tells

A line that exceeds its word ends the thread that walks, and a walk tells this by the mark of its
walker alone: it goes on, and gives frames like any other.  The mark is never taken back.  As long
as it is not set, every line that was shown is the one that a table gives, also where the frame was
remembered.

The main statement is `Walker.answers_exact`, for any calls of a walker and for any interpreter.
-/

namespace StackSampler

/-- A frame shows a code unit at the line that its table gives for some offset. -/
def Frame.IsExact (format : LineFormat) (frame : Frame) : Prop :=
  ∃ (unit : CodeUnit) (offset line : UInt32),
    LineTable.lineAt format unit.firstLine unit.lineTable offset = some line ∧
      frame = .interpreted unit.display unit.file line

/-- A walker of a format remembers frames at exact lines only, unless it is marked. -/
structure Walker.IsTrusted (walker : Walker) (format : LineFormat) : Prop where
  format_eq : walker.format = format
  remembers : walker.exceeded = false → ∀ entry ∈ walker.cache.entries, entry.2.IsExact format

theorem Walker.new_isTrusted (version : InterpreterVersion) (maxDepth : Nat) :
    (Walker.new version maxDepth).IsTrusted (.forVersion version) :=
  ⟨rfl, fun _ _ member => absurd member List.not_mem_nil⟩

namespace Walking

/--
A step leaves a trusted walker trusted.  If it leaves the walker unmarked, the walker had no mark
before either, and something is known of the value that it gives.
-/
def Marks {σ ε α : Type} (format : LineFormat) (step : Walking σ ε α) (holds : α → Prop) : Prop :=
  ∀ before result after, before.walker.IsTrusted format → step before = (result, after) →
    after.walker.IsTrusted format ∧
      (after.walker.exceeded = false →
        before.walker.exceeded = false ∧ ∀ value, result = .ok value → holds value)

section

variable {σ ε δ α β : Type} {interpreter : Interpreter σ} {format : LineFormat}
  {step : Walking σ ε α} {next : α → Walking σ ε β} {holds : α → Prop} {found : β → Prop}

theorem marks_pure {value : α} (held : holds value) :
    Marks format (pure value : Walking σ ε α) holds := by
  intro before result after trusted ran
  cases ran
  refine ⟨trusted, fun unmarked => ⟨unmarked, ?_⟩⟩
  rintro _ ⟨rfl⟩
  exact held

theorem marks_throw (error : ε) : Marks format (throw error : Walking σ ε α) holds := by
  intro before result after trusted ran
  cases ran
  exact ⟨trusted, fun unmarked => ⟨unmarked, nofun⟩⟩

/-- The second step may set the mark whatever the first one has given, so it has to be followed
without what is known of that. -/
theorem Marks.bind (marks : Marks format step holds)
    (goesOn : ∀ value, Marks format (next value) fun final => holds value → found final) :
    Marks format (step >>= next) found := by
  intro before result after trusted ran
  rw [bind_apply] at ran
  rcases begun : step before with ⟨error | value, middle⟩
  · rw [begun] at ran
    cases ran
    rcases marks _ _ _ trusted begun with ⟨still, back⟩
    exact ⟨still, fun unmarked => ⟨(back unmarked).1, nofun⟩⟩
  · rw [begun] at ran
    rcases marks _ _ _ trusted begun with ⟨still, back⟩
    rcases goesOn value _ _ _ still ran with ⟨last, further⟩
    refine ⟨last, fun unmarked => ?_⟩
    rcases further unmarked with ⟨between, isFound⟩
    rcases back between with ⟨first, held⟩
    exact ⟨first, fun final isFinal => isFound final isFinal (held value rfl)⟩

theorem Marks.imp (marks : Marks format step holds) {weaker : α → Prop}
    (implies : ∀ value, holds value → weaker value) : Marks format step weaker := by
  intro before result after trusted ran
  rcases marks before result after trusted ran with ⟨still, back⟩
  exact ⟨still, fun unmarked => (back unmarked).imp_right fun held value isOk =>
    implies value (held value isOk)⟩

theorem Marks.adapt (marks : Marks format step holds) (change : ε → δ) :
    Marks format (ExceptT.adapt change step) holds := by
  intro before result after trusted ran
  rw [adapt_apply] at ran
  rcases begun : step before with ⟨error | value, middle⟩
  · rw [begun] at ran
    cases ran
    rcases marks _ _ _ trusted begun with ⟨still, back⟩
    exact ⟨still, fun unmarked => ⟨(back unmarked).1, nofun⟩⟩
  · rw [begun] at ran
    cases ran
    rcases marks _ _ _ trusted begun with ⟨still, back⟩
    exact ⟨still, fun unmarked => (back unmarked).imp_right fun held given isOk =>
      held given (by cases isOk; rfl)⟩

theorem marks_ask (query : ExceptT ε (StateM σ) α) :
    Marks format (ask query) fun _ => True := by
  intro before result after trusted ran
  rw [ask_apply] at ran
  cases ran
  exact ⟨trusted, fun unmarked => ⟨unmarked, fun _ _ => trivial⟩⟩

end

section

variable {σ ε : Type} {interpreter : Interpreter σ} {format : LineFormat}

theorem marks_remembered (code : Address) (offset : UInt32) :
    Marks format (remembered? code offset : Walking σ ε (Option Frame))
      fun frame? => ∀ frame, frame? = some frame → frame.IsExact format := by
  intro before result after trusted ran
  unfold remembered? at ran
  cases used : before.walker.cache.use (code, offset) with
  | none =>
      rw [used] at ran
      cases ran
      refine ⟨trusted, fun unmarked => ⟨unmarked, ?_⟩⟩
      intro _ given frame isSome
      cases given
      cases isSome
  | some hit =>
      rw [used] at ran
      cases ran
      rcases RecentCache.mem_of_use used with ⟨held, kept⟩
      refine ⟨⟨trusted.format_eq, fun unmarked entry inside =>
        trusted.remembers unmarked entry (kept inside)⟩, fun unmarked => ⟨unmarked, ?_⟩⟩
      intro _ given frame isSome
      cases given
      cases isSome
      exact trusted.remembers unmarked _ held

/-- Without a mark the line of a frame that was resolved anew is the one of its table. -/
theorem frameOf_isExact {walker : Walker} {unit : CodeUnit} {offset : UInt32}
    (unmarked : (walker.checkLine unit offset).exceeded = false) :
    (frameOf walker.format unit offset).IsExact walker.format := by
  simp only [Walker.checkLine, Bool.or_eq_false_iff, Option.isNone_eq_false_iff] at unmarked
  rcases Option.isSome_iff_exists.mp unmarked.2 with ⟨line, isLine⟩
  exact ⟨unit, offset, line, isLine, by rw [frameOf, isLine, Option.getD_some]⟩

/-- What is done with a code unit that was read. -/
theorem marks_resolved (code : Address) (unit : CodeUnit) (offset : UInt32) :
    Marks format (do
        checkLine unit offset
        let frame := frameOf (← get).walker.format unit offset
        remember code offset frame
        pure frame : Walking σ ε Frame) (·.IsExact format) := by
  intro before result after trusted ran
  cases ran
  have unmarkedBefore (unmarked : (before.walker.checkLine unit offset).exceeded = false) :
      before.walker.exceeded = false := (Bool.or_eq_false_iff.mp unmarked).1
  have isExact (unmarked : (before.walker.checkLine unit offset).exceeded = false) :
      (frameOf before.walker.format unit offset).IsExact format := by
    rw [← trusted.format_eq]
    exact frameOf_isExact unmarked
  refine ⟨⟨trusted.format_eq, fun unmarked entry inside => ?_⟩, fun unmarked =>
    ⟨unmarkedBefore unmarked, ?_⟩⟩
  · rcases RecentCache.mem_of_put inside with rfl | old
    · exact isExact unmarked
    · exact trusted.remembers (unmarkedBefore unmarked) entry old
  · rintro _ ⟨rfl⟩
    exact isExact unmarked

variable (interpreter)

theorem marks_resolve (code : Address) (offset : UInt32) :
    Marks format (resolve interpreter code offset) (·.IsExact format) := by
  refine (marks_remembered code offset).bind fun frame? => ?_
  split
  case h_1 frame => exact marks_pure fun isExact => isExact frame rfl
  case h_2 =>
    refine Marks.imp ?_ fun _ isExact _ => isExact
    exact (marks_ask _).bind fun unit =>
      (marks_resolved code unit offset).imp fun _ isExact _ => isExact

/-- The frames of a list are at exact lines. -/
def AreExact (format : LineFormat) (frames : List WalkedFrame) : Prop :=
  ∀ walked ∈ frames, walked.frame.IsExact format

theorem marks_chain (limit room : Nat) (from? : Option Address) :
    Marks format (chain interpreter limit room from?) (AreExact format) := by
  induction room generalizing from? with
  | zero =>
      cases from? with
      | none => exact marks_pure fun _ member => absurd member List.not_mem_nil
      | some place => exact marks_throw _
  | succ room induction =>
      cases from? with
      | none => exact marks_pure fun _ member => absurd member List.not_mem_nil
      | some place =>
          refine ((marks_ask _).adapt _).bind fun raw => ?_
          split
          case isTrue => exact (induction raw.previous).imp fun _ areExact _ => areExact
          case isFalse =>
            refine ((marks_resolve interpreter raw.code raw.offset).adapt _).bind fun frame => ?_
            refine (induction raw.previous).bind fun callers => marks_pure ?_
            intro callersExact frameExact _
            exact List.forall_mem_cons.mpr ⟨frameExact, callersExact⟩

theorem marks_walkFrom (from? : Option Address) :
    Marks format (walkFrom interpreter from?) (AreExact format) := by
  intro before
  exact marks_chain interpreter before.walker.maxDepth before.walker.maxDepth from? before

theorem marks_walk (thread : ThreadId) :
    Marks format (walk interpreter thread) (AreExact format) := by
  refine (marks_ask _).bind fun state => (marks_walkFrom interpreter state.top).bind fun frames =>
    (marks_ask _).bind fun after => ?_
  split
  case isTrue => exact marks_pure fun _ areExact _ => areExact
  case isFalse => exact marks_throw _

theorem marks_resolveFrame (place : Address) :
    Marks format (resolveFrame interpreter place) (·.frame.IsExact format) :=
  (marks_ask _).bind fun raw => (marks_resolve interpreter raw.code raw.offset).bind fun _ =>
    marks_pure fun isExact _ => isExact

end

end Walking

/-! ## Calls -/

/-- The frames that a use of a walker gives are at exact lines. -/
def WalkerAnswer.IsExact (format : LineFormat) : WalkerAnswer → Prop
  | .frames result => ∀ frames, result = .ok frames → Walking.AreExact format frames
  | .frame result => ∀ walked, result = .ok walked → walked.frame.IsExact format

section

variable {σ : Type} (interpreter : Interpreter σ) {format : LineFormat}

theorem WalkerCall.perform_marks {before : Observation σ} (trusted : before.walker.IsTrusted format)
    (call : WalkerCall) :
    (call.perform interpreter before).2.walker.IsTrusted format ∧
      ((call.perform interpreter before).2.walker.exceeded = false →
        before.walker.exceeded = false ∧ (call.perform interpreter before).1.IsExact format) := by
  cases call with
  | walk thread => exact Walking.marks_walk interpreter thread before _ _ trusted rfl
  | walkFrom from? => exact Walking.marks_walkFrom interpreter from? before _ _ trusted rfl
  | resolveFrame place =>
      exact Walking.marks_resolveFrame interpreter place before _ _ trusted rfl

namespace Walker

theorem IsTrusted.answers {walker : Walker} (trusted : walker.IsTrusted format)
    (calls : List (σ × WalkerCall))
    (unmarked : (walker.called interpreter calls).exceeded = false) :
    walker.exceeded = false ∧
      ∀ answer ∈ walker.answers interpreter calls, answer.1.IsExact format := by
  induction calls generalizing walker with
  | nil => exact ⟨unmarked, fun _ member => absurd member List.not_mem_nil⟩
  | cons first rest induction =>
      rcases first with ⟨subject, call⟩
      have begins : (⟨walker, subject⟩ : Observation σ).walker.IsTrusted format := trusted
      rcases call.perform_marks interpreter begins with ⟨still, back⟩
      rcases induction still unmarked with ⟨between, later⟩
      rcases back between with ⟨first, isExact⟩
      exact ⟨first, List.forall_mem_cons.mpr ⟨isExact, later⟩⟩

/--
If a walker has no mark after any calls, every frame that it gave is at the line that the table of a
code unit gives.
-/
theorem answers_exact (version : InterpreterVersion) (maxDepth : Nat)
    (calls : List (σ × WalkerCall))
    (unmarked : ((Walker.new version maxDepth).called interpreter calls).exceeded = false) :
    ∀ answer ∈ (Walker.new version maxDepth).answers interpreter calls,
      answer.1.IsExact (.forVersion version) :=
  ((Walker.new_isTrusted version maxDepth).answers interpreter calls unmarked).2

end Walker

end

end StackSampler
