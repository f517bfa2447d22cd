import StackSampler.Proofs.Walk.Snapshot
import StackSampler.Subject.Tables

/-!
# What a walker remembers cannot be seen

A walker remembers frames of code units, and gives the one up that it has not used for the longest
time.  As long as code units stay as they are, what it remembers is what it would read:
`Walker.Recalls` says so of all that it has in mind, and every step of a walk keeps it.

Two walkers that remember different things therefore give the same answers.  The main statement is
`Walker.answers_eq_fresh`, for any calls of a walker, between and during which the threads and the
frames of the interpreter may change.
-/

namespace StackSampler

/-! ## The cache -/

namespace RecentCache

variable {κ α : Type} [DecidableEq κ] {cache : RecentCache κ α} {key : κ} {value : α}

/-- Using an entry needs no room. -/
theorem size_of_use {after : RecentCache κ α} (used : cache.use key = some (value, after)) :
    after.size ≤ cache.size := by
  have held := (mem_of_use used).1
  rw [use] at used
  split at used
  case h_2 => cases used
  case h_1 found _ =>
    simp only [Option.some.injEq, Prod.mk.injEq] at used
    rcases used with ⟨rfl, rfl⟩
    have fewer : (cache.without key).length < cache.entries.length :=
      List.length_filter_lt_length_iff_exists.mpr ⟨_, held, by simp⟩
    exact fewer

theorem size_put_le (capacity : Nat) (cache : RecentCache κ α) (key : κ) (value : α) :
    (cache.put capacity key value).size ≤ capacity :=
  List.length_take_le _ _

end RecentCache

/-! ## What is remembered -/

/-- The frame of an offset of a code unit, as far as the code unit can be read. -/
def Walking.frameAt (codes : Address → Except ReadFault CodeUnit) (format : LineFormat)
    (code : Address) (offset : UInt32) : Except ReadFault Frame :=
  (codes code).map fun unit => frameOf format unit offset

/-- A walker of a format and a limit remembers only what it would read, and not too much. -/
structure Walker.Recalls (walker : Walker) (format : LineFormat) (limit : Nat)
    (codes : Address → Except ReadFault CodeUnit) : Prop where
  knows : walker.Knows format fun code offset frame =>
    Walking.frameAt codes format code offset = .ok frame
  maxDepth_eq : walker.maxDepth = limit
  size_le : walker.cache.size ≤ Walking.cacheCapacity

theorem Walker.new_recalls (version : InterpreterVersion) (maxDepth : Nat)
    (codes : Address → Except ReadFault CodeUnit) :
    (Walker.new version maxDepth).Recalls (.forVersion version) (max maxDepth 1) codes where
  knows := ⟨rfl, fun _ member => absurd member List.not_mem_nil⟩
  maxDepth_eq := rfl
  size_le := Nat.zero_le _

/-- A question has one answer while the interpreter is inside, where the question leaves it. -/
def IsSettled {σ ε α : Type} (inside : σ → Prop) (query : ExceptT ε (StateM σ) α)
    (answer : Except ε α) : Prop :=
  ∀ now, inside now → (query.run.run now).1 = answer ∧ inside (query.run.run now).2

namespace Walking

variable {σ ε δ α β : Type} {interpreter : Interpreter σ} {format : LineFormat} {limit : Nat}
  {codes : Address → Except ReadFault CodeUnit}

theorem ask_apply (query : ExceptT ε (StateM σ) α) (before : Observation σ) :
    ask query before =
      ((query.run.run before.subject).1, ⟨before.walker, (query.run.run before.subject).2⟩) :=
  rfl

theorem remembered_apply {before : Observation σ}
    (recalls : before.walker.Recalls format limit codes) (code : Address) (offset : UInt32) :
    remembered? code offset before = ((.ok none, before) : Except ε (Option Frame) × _) ∨
      ∃ frame after,
        remembered? code offset before = ((.ok (some frame), after) : Except ε (Option Frame) × _) ∧
          frameAt codes format code offset = .ok frame ∧ after.subject = before.subject ∧
          after.walker.Recalls format limit codes := by
  rw [remembered?]
  split
  case h_2 => exact .inl rfl
  case h_1 frame cache used =>
    rcases RecentCache.mem_of_use used with ⟨held, kept⟩
    refine .inr ⟨frame, _, rfl, recalls.knows.remembers _ held, rfl, ?_⟩
    exact ⟨⟨recalls.knows.format_eq, fun entry inside =>
      recalls.knows.remembers entry (kept inside)⟩, recalls.maxDepth_eq,
      (RecentCache.size_of_use used).trans recalls.size_le⟩

theorem checkLine_apply (before : Observation σ)
    (recalls : before.walker.Recalls format limit codes) (unit : CodeUnit) (offset : UInt32) :
    ∃ after, checkLine unit offset before = ((.ok (), after) : Except ε Unit × _) ∧
      after.subject = before.subject ∧ after.walker.Recalls format limit codes :=
  ⟨_, rfl, rfl, ⟨recalls.knows.format_eq, recalls.knows.remembers⟩, recalls.maxDepth_eq,
    recalls.size_le⟩

theorem remember_apply (before : Observation σ)
    (recalls : before.walker.Recalls format limit codes) {code : Address} {offset : UInt32}
    {frame : Frame} (shown : frameAt codes format code offset = .ok frame) :
    ∃ after, remember code offset frame before = ((.ok (), after) : Except ε Unit × _) ∧
      after.subject = before.subject ∧ after.walker.Recalls format limit codes := by
  refine ⟨_, rfl, rfl, ⟨recalls.knows.format_eq, fun entry inside => ?_⟩, recalls.maxDepth_eq,
    RecentCache.size_put_le _ _ _ _⟩
  rcases RecentCache.mem_of_put inside with rfl | old
  · exact shown
  · exact recalls.knows.remembers entry old

theorem walkFrom_apply {before : Observation σ} (recalls : before.walker.Recalls format limit codes)
    (from? : Option Address) :
    walkFrom interpreter from? before = chain interpreter limit limit from? before := by
  rw [← recalls.maxDepth_eq]
  rfl

/-- A frame is resolved to what its code unit says, whether it was remembered or not. -/
theorem resolve_apply {inside : σ → Prop} {code : Address}
    (settled : IsSettled inside (interpreter.code code) (codes code)) {before : Observation σ}
    (isInside : inside before.subject) (recalls : before.walker.Recalls format limit codes)
    (offset : UInt32) :
    ∃ after, resolve interpreter code offset before = (frameAt codes format code offset, after) ∧
      inside after.subject ∧ after.walker.Recalls format limit codes := by
  rw [resolve, bind_apply]
  rcases remembered_apply recalls code offset with
    missed | ⟨frame, after, hit, shown, same, still⟩
  · rcases settled before.subject isInside with ⟨answer, remains⟩
    rw [missed]
    dsimp only
    rw [bind_apply, ask_apply, answer, frameAt]
    cases read : codes code with
    | error fault => exact ⟨_, rfl, remains, recalls⟩
    | ok unit =>
        have shown : frameAt codes format code offset = .ok (frameOf format unit offset) := by
          rw [frameAt, read]
          rfl
        rcases checkLine_apply ⟨before.walker, ((interpreter.code code).run.run before.subject).2⟩
          recalls unit offset with ⟨middle, checked, stays, recallsToo⟩
        rcases remember_apply middle recallsToo shown with ⟨after, put, same, still⟩
        refine ⟨after, ?_, (same.trans stays) ▸ remains, still⟩
        rw [← recallsToo.knows.format_eq] at put ⊢
        dsimp only
        rw [bind_apply, checked]
        dsimp only
        rw [bind_apply]
        change (remember code offset _ >>= fun _ => _) _ = _
        rw [bind_apply, put]
        rfl
  · exact ⟨after, by rw [hit, shown]; rfl, same ▸ isInside, still⟩

end Walking

/-! ## Walkers that remember different things -/

/-- Two walkers in front of one interpreter; what each remembers is what it would read. -/
structure Observation.Alike {σ : Type} (format : LineFormat) (limit : Nat)
    (codes : Address → Except ReadFault CodeUnit) (first second : Observation σ) : Prop where
  firstRecalls : first.walker.Recalls format limit codes
  secondRecalls : second.walker.Recalls format limit codes
  subject_eq : first.subject = second.subject

/-- Code units are read without moving the interpreter, and each always with the same answer. -/
def Interpreter.KeepsCodes {σ : Type} (interpreter : Interpreter σ)
    (codes : Address → Except ReadFault CodeUnit) : Prop :=
  ∀ place now, (interpreter.code place).run.run now = (codes place, now)

namespace Walking

/-- A step gives the same answer whatever is remembered, and leaves the walkers alike. -/
def IgnoresCache {σ ε α : Type} (format : LineFormat) (limit : Nat)
    (codes : Address → Except ReadFault CodeUnit) (step : Walking σ ε α) : Prop :=
  ∀ first second, Observation.Alike format limit codes first second →
    (step first).1 = (step second).1 ∧
      Observation.Alike format limit codes (step first).2 (step second).2

variable {σ ε δ α β : Type} {interpreter : Interpreter σ} {format : LineFormat} {limit : Nat}
  {codes : Address → Except ReadFault CodeUnit} {step : Walking σ ε α}
  {next : α → Walking σ ε β}

theorem ignoresCache_pure (value : α) :
    IgnoresCache format limit codes (pure value : Walking σ ε α) :=
  fun _ _ alike => ⟨rfl, alike⟩

theorem ignoresCache_throw (error : ε) :
    IgnoresCache format limit codes (throw error : Walking σ ε α) :=
  fun _ _ alike => ⟨rfl, alike⟩

theorem ignoresCache_ask (query : ExceptT ε (StateM σ) α) :
    IgnoresCache format limit codes (ask query) := by
  intro first second alike
  rw [ask_apply, ask_apply, alike.subject_eq]
  exact ⟨rfl, alike.firstRecalls, alike.secondRecalls, rfl⟩

theorem IgnoresCache.bind (ignores : IgnoresCache format limit codes step)
    (goesOn : ∀ value, IgnoresCache format limit codes (next value)) :
    IgnoresCache format limit codes (step >>= next) := by
  intro first second alike
  rw [bind_apply, bind_apply]
  rcases ignores first second alike with ⟨same, still⟩
  rcases began : step first with ⟨result, early⟩
  rcases beganToo : step second with ⟨other, late⟩
  rw [began, beganToo] at same still
  obtain rfl : result = other := same
  cases result with
  | error error => exact ⟨rfl, still⟩
  | ok value => exact goesOn value early late still

theorem IgnoresCache.adapt (ignores : IgnoresCache format limit codes step) (change : ε → δ) :
    IgnoresCache format limit codes (ExceptT.adapt change step) := by
  intro first second alike
  rw [adapt_apply, adapt_apply]
  rcases ignores first second alike with ⟨same, still⟩
  rcases began : step first with ⟨result, early⟩
  rcases beganToo : step second with ⟨other, late⟩
  rw [began, beganToo] at same still
  obtain rfl : result = other := same
  cases result with
  | error error => exact ⟨rfl, still⟩
  | ok value => exact ⟨rfl, still⟩

section

variable (keeps : interpreter.KeepsCodes codes)

include keeps

theorem ignoresCache_resolve (code : Address) (offset : UInt32) :
    IgnoresCache format limit codes (resolve interpreter code offset) := by
  intro first second alike
  have settled (subject : σ) : IsSettled (· = subject) (interpreter.code code) (codes code) := by
    rintro now rfl
    rw [keeps]
    exact ⟨rfl, rfl⟩
  rcases resolve_apply (settled first.subject) rfl alike.firstRecalls offset with
    ⟨early, one, same, still⟩
  rcases resolve_apply (settled second.subject) rfl alike.secondRecalls offset with
    ⟨late, other, sameToo, stillToo⟩
  rw [one, other]
  exact ⟨rfl, still, stillToo, same.trans (alike.subject_eq.trans sameToo.symm)⟩

theorem ignoresCache_chain (room : Nat) (from? : Option Address) :
    IgnoresCache format limit codes (chain interpreter limit room from?) := by
  induction room generalizing from? with
  | zero =>
      cases from? with
      | none => exact ignoresCache_pure []
      | some place => exact ignoresCache_throw _
  | succ room induction =>
      cases from? with
      | none => exact ignoresCache_pure []
      | some place =>
          refine ((ignoresCache_ask _).adapt _).bind fun raw => ?_
          split
          case isTrue => exact induction raw.previous
          case isFalse =>
            exact ((ignoresCache_resolve keeps raw.code raw.offset).adapt _).bind fun frame =>
              (induction raw.previous).bind fun callers => ignoresCache_pure _

theorem ignoresCache_walkFrom (from? : Option Address) :
    IgnoresCache format limit codes (walkFrom interpreter from?) := by
  intro first second alike
  rw [walkFrom_apply alike.firstRecalls, walkFrom_apply alike.secondRecalls]
  exact ignoresCache_chain keeps limit from? first second alike

theorem ignoresCache_walk (thread : ThreadId) :
    IgnoresCache format limit codes (walk interpreter thread) := by
  refine (ignoresCache_ask _).bind fun state => (ignoresCache_walkFrom keeps state.top).bind
    fun frames => (ignoresCache_ask _).bind fun after => ?_
  split
  case isTrue => exact ignoresCache_pure frames
  case isFalse => exact ignoresCache_throw _

theorem ignoresCache_resolveFrame (place : Address) :
    IgnoresCache format limit codes (resolveFrame interpreter place) :=
  (ignoresCache_ask _).bind fun raw => (ignoresCache_resolve keeps raw.code raw.offset).bind
    fun _ => ignoresCache_pure _

end

end Walking

/-! ## Calls -/

/-- What a use of a walker gives. -/
inductive WalkerAnswer where
  | frames (result : Except CaptureError (List WalkedFrame))
  | frame (result : Except ReadFault WalkedFrame)
deriving DecidableEq

/-- What a use of a walker gives, and what it makes of the walker and of the interpreter. -/
def WalkerCall.perform {σ : Type} (interpreter : Interpreter σ) (before : Observation σ) :
    WalkerCall → WalkerAnswer × Observation σ
  | .walk thread => ((Walking.walk interpreter thread).run.run before).map .frames id
  | .walkFrom from? => ((Walking.walkFrom interpreter from?).run.run before).map .frames id
  | .resolveFrame place => ((Walking.resolveFrame interpreter place).run.run before).map .frame id

namespace Walker

variable {σ : Type} {interpreter : Interpreter σ} {codes : Address → Except ReadFault CodeUnit}

/--
The answers to calls of one walker, each with the state in which the interpreter is left.  The
interpreter may be in any state when a call begins.
-/
def answers (interpreter : Interpreter σ) : Walker → List (σ × WalkerCall) → List (WalkerAnswer × σ)
  | _, [] => []
  | walker, (subject, call) :: rest =>
      let performed := call.perform interpreter ⟨walker, subject⟩
      (performed.1, performed.2.subject) :: answers interpreter performed.2.walker rest

/-- The walker after calls. -/
def called (interpreter : Interpreter σ) (walker : Walker) (calls : List (σ × WalkerCall)) :
    Walker :=
  calls.foldl (fun walker (subject, call) => (call.perform interpreter ⟨walker, subject⟩).2.walker)
    walker

end Walker

theorem WalkerCall.perform_alike {σ : Type} {interpreter : Interpreter σ} {format : LineFormat}
    {limit : Nat} {codes : Address → Except ReadFault CodeUnit}
    (keeps : interpreter.KeepsCodes codes) {first second : Observation σ}
    (alike : Observation.Alike format limit codes first second) (call : WalkerCall) :
    (call.perform interpreter first).1 = (call.perform interpreter second).1 ∧
      Observation.Alike format limit codes (call.perform interpreter first).2
        (call.perform interpreter second).2 := by
  cases call with
  | walk thread =>
      have same := Walking.ignoresCache_walk keeps thread first second alike
      exact same.imp (congrArg WalkerAnswer.frames) id
  | walkFrom from? =>
      have same := Walking.ignoresCache_walkFrom keeps from? first second alike
      exact same.imp (congrArg WalkerAnswer.frames) id
  | resolveFrame place =>
      have same := Walking.ignoresCache_resolveFrame keeps place first second alike
      exact same.imp (congrArg WalkerAnswer.frame) id

namespace Walker

variable {σ : Type} {interpreter : Interpreter σ} {format : LineFormat} {limit : Nat}
  {codes : Address → Except ReadFault CodeUnit} {walker other : Walker}

theorem Recalls.alike (recalls : walker.Recalls format limit codes)
    (otherRecalls : other.Recalls format limit codes) (subject : σ) :
    Observation.Alike format limit codes ⟨walker, subject⟩ ⟨other, subject⟩ :=
  ⟨recalls, otherRecalls, rfl⟩

theorem Recalls.called (recalls : walker.Recalls format limit codes)
    (keeps : interpreter.KeepsCodes codes) (calls : List (σ × WalkerCall)) :
    (walker.called interpreter calls).Recalls format limit codes := by
  induction calls generalizing walker with
  | nil => exact recalls
  | cons first rest induction =>
      exact induction (first.2.perform_alike keeps (recalls.alike recalls first.1)).2.firstRecalls

/-- Whatever a walker was used for, another one in its place would give the same answers. -/
theorem Recalls.answers_eq (recalls : walker.Recalls format limit codes)
    (otherRecalls : other.Recalls format limit codes) (keeps : interpreter.KeepsCodes codes)
    (calls : List (σ × WalkerCall)) :
    walker.answers interpreter calls = calls.map fun (subject, call) =>
      (call.perform interpreter ⟨other, subject⟩).map id (·.subject) := by
  induction calls generalizing walker with
  | nil => rfl
  | cons first rest induction =>
      rcases first with ⟨subject, call⟩
      rcases call.perform_alike keeps (recalls.alike otherRecalls subject) with ⟨same, still⟩
      rw [answers, List.map_cons, induction still.firstRecalls]
      exact congrArg (List.cons · _) (Prod.ext same still.subject_eq)

/--
Every call of a walker gives what a new walker would give and does to the interpreter what that one
would do, whatever was remembered or given up before; and at most 2048 frames are remembered.
-/
theorem answers_eq_fresh (keeps : interpreter.KeepsCodes codes) (version : InterpreterVersion)
    (maxDepth : Nat) (calls : List (σ × WalkerCall)) :
    (Walker.new version maxDepth).answers interpreter calls =
        calls.map (fun (subject, call) =>
          (call.perform interpreter ⟨.new version maxDepth, subject⟩).map id (·.subject)) ∧
      ((Walker.new version maxDepth).called interpreter calls).cache.size ≤ 2048 := by
  have recalls := Walker.new_recalls version maxDepth codes
  exact ⟨recalls.answers_eq recalls keeps calls, (recalls.called keeps calls).size_le⟩

end Walker

/-- An interpreter in tables whose code units are put down once and for all. -/
def Tables.withCodes (codes : Address → Except ReadFault CodeUnit) : Interpreter Tables :=
  { Tables.interpreter with code := fun place => liftM (codes place) }

theorem Tables.withCodes_keepsCodes (codes : Address → Except ReadFault CodeUnit) :
    (Tables.withCodes codes).KeepsCodes codes := by
  intro place now
  cases read : codes place <;> simp [withCodes, read] <;> rfl

/-- Two functions, of which one cannot be read. -/
def twoCodes (place : Address) : Except ReadFault CodeUnit :=
  if place = 160 then .ok ⟨"work", none, "app.py", 3, [6, 2]⟩ else .error ⟨place, 64, 14⟩

/-- A thread in the first function. -/
def workingTables : Tables :=
  (({} : Tables).putFrame 16 ⟨160, 8, none, true, false⟩).putThread 1 (some 16) none

/-- The thread has called the function that cannot be read. -/
def strayingTables : Tables :=
  (workingTables.putFrame 32 ⟨320, 0, some 16, false, false⟩).putThread 1 (some 32) none

/-- The second walk breaks off, and what comes after it is known from the first. -/
def strayingCalls : List (Tables × WalkerCall) :=
  [(workingTables, .walk 1), (strayingTables, .walk 1), (strayingTables, .resolveFrame 16),
    (workingTables, .walkFrom (some 16))]

theorem Walker.answers_eq_fresh_straying :
    (Tables.withCodes twoCodes).KeepsCodes twoCodes ∧
      ((Walker.new ⟨3, 8⟩ 8).answers (Tables.withCodes twoCodes) strayingCalls).map (·.1) =
        [.frames (.ok [⟨16, .interpreted "work" "app.py" 5, true⟩]),
          .frames (.error (.memory ⟨320, 64, 14⟩)),
          .frame (.ok ⟨16, .interpreted "work" "app.py" 5, true⟩),
          .frames (.ok [⟨16, .interpreted "work" "app.py" 5, true⟩])] ∧
      (Walker.new ⟨3, 8⟩ 8).answers (Tables.withCodes twoCodes) strayingCalls =
        strayingCalls.map (fun (subject, call) =>
          (call.perform (Tables.withCodes twoCodes) ⟨.new ⟨3, 8⟩ 8, subject⟩).map id (·.subject)) ∧
      ((Walker.new ⟨3, 8⟩ 8).called (Tables.withCodes twoCodes) strayingCalls).cache.size ≤
        2048 := by
  have keeps := Tables.withCodes_keepsCodes twoCodes
  exact ⟨keeps, by decide +kernel, Walker.answers_eq_fresh keeps ⟨3, 8⟩ 8 strayingCalls⟩

end StackSampler
