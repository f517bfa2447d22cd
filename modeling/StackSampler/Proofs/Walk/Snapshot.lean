import StackSampler.Proofs.Walk.Sighting

/-!
# Walks that succeed are snapshots

If a thread has one generation at both ends of a walk, the chain stood still in between, and what
the walk sighted is the chain that stood there when it began.

The main statement is `walk_ok_snapshot`, for every run of an interpreter whose generations are
never used again, for reads at any instants of it, and for a walker that was used before.
-/

namespace StackSampler

/-! ## Walkers in use -/

/-- One use of a walker. -/
inductive WalkerCall where
  | walk (thread : ThreadId)
  | walkFrom (from? : Option Address)
  | resolveFrame (place : Address)

/-- What a walker and the interpreter are after a use. -/
def WalkerCall.run (interpreter : Interpreter Nat) (before : Observation Nat) :
    WalkerCall → Observation Nat
  | .walk thread => ((Walking.walk interpreter thread).run.run before).2
  | .walkFrom from? => ((Walking.walkFrom interpreter from?).run.run before).2
  | .resolveFrame place => ((Walking.resolveFrame interpreter place).run.run before).2

/-- A walker that was made for a version, and used any number of times since. -/
inductive Walker.InUse (exposure : Exposure) (base : Interpreter Nat)
    (version : InterpreterVersion) : Observation Nat → Prop where
  | new (maxDepth count : Nat) : InUse exposure base version ⟨.new version maxDepth, count⟩
  | called {before : Observation Nat} (inUse : InUse exposure base version before)
      (call : WalkerCall) :
      InUse exposure base version (call.run (exposure.interpreter base) before)
  /-- Others have read the interpreter. -/
  | later {before : Observation Nat} (inUse : InUse exposure base version before) (reads : Nat) :
      InUse exposure base version { before with subject := before.subject + reads }

theorem WalkerCall.run_truthful
    {exposure : Exposure} {base : Interpreter Nat} {format : LineFormat}
    {before : Observation Nat} (truthful : before.walker.Truthful format exposure.units)
    (call : WalkerCall) :
    (call.run (exposure.interpreter base) before).walker.Truthful format exposure.units := by
  cases call with
  | walk thread => exact (Walking.finds_walk exposure format base thread _ _ _ truthful rfl).1
  | walkFrom from? =>
      exact (Walking.finds_walkFrom exposure format base from? _ _ _ truthful rfl).1
  | resolveFrame place =>
      exact (Walking.finds_resolveFrame exposure format base place _ _ _ truthful rfl).1

theorem Walker.InUse.truthful
    {exposure : Exposure} {base : Interpreter Nat} {version : InterpreterVersion}
    {observation : Observation Nat} (inUse : Walker.InUse exposure base version observation) :
    observation.walker.Truthful (.forVersion version) exposure.units := by
  induction inUse with
  | new maxDepth count => exact Walker.new_truthful version maxDepth exposure.units
  | called _ call induction => exact call.run_truthful induction
  | later _ _ induction => exact induction

/-! ## Snapshots -/

/-- Some frames are what a walk shows of the chain that a thread has. -/
def Moment.Shows (moment : Moment) (thread : ThreadId) (format : LineFormat)
    (units : Address → CodeUnit) (frames : List WalkedFrame) : Prop :=
  ∃ state links, moment.threads thread = some state ∧ moment.Chain state.top links ∧
    frames = shownLinks format units links

/--
If a walk gives frames, these are the chain that the thread had at the instant of the first read of
the walk.  A walk gives none if the thread was in another state at some instant up to the last read.
-/
theorem walk_ok_snapshot
    {exposure : Exposure} {thread : ThreadId} (renews : exposure.Renews thread)
    {base : Interpreter Nat} {version : InterpreterVersion} {before after : Observation Nat}
    (inUse : Walker.InUse exposure base version before)
    {result : Except CaptureError (List WalkedFrame)}
    (ran : (Walking.walk (exposure.interpreter base) thread).run.run before = (result, after)) :
    (∀ frames, result = .ok frames →
      (exposure.seen before.subject).Shows thread (.forVersion version) exposure.units frames) ∧
    ∀ time, exposure.instant before.subject ≤ time →
      time ≤ exposure.instant (after.subject - 1) →
      (exposure.moments time).threads thread ≠ (exposure.seen before.subject).threads thread →
      ∀ frames, result ≠ .ok frames := by
  rcases Walking.finds_walk exposure (.forVersion version) base thread _ _ _ inUse.truthful ran
    with ⟨_, _, found⟩
  -- The same state was read before and after all frames.
  have enclosed (frames : List WalkedFrame) (isOk : result = .ok frames) :
      ∃ state links, (exposure.seen before.subject).threads thread = some state ∧
        Sighted exposure (before.subject + 1) (after.subject - 1) state.top links ∧
        frames = shownLinks (.forVersion version) exposure.units links ∧
        ∀ time, exposure.instant before.subject ≤ time →
          time ≤ exposure.instant (after.subject - 1) →
          Moment.Undisturbed thread (exposure.seen before.subject) (exposure.moments time) := by
    rcases found frames isOk with ⟨state, links, begins, ends, sighted, shown⟩
    have order := exposure.inOrder ((Nat.le_succ before.subject).trans sighted.le)
    exact ⟨state, links, begins, sighted, shown, renews.undisturbed order begins ends rfl⟩
  constructor
  · intro frames isOk
    rcases enclosed frames isOk with ⟨state, links, begins, sighted, shown, still⟩
    refine ⟨state, links, begins, sighted.chain fun count after before => ?_, shown⟩
    have top : (exposure.seen _).top thread = state.top := congrArg (·.bind ThreadState.top) begins
    rw [← top]
    exact (still _ (exposure.inOrder (by omega)) (exposure.inOrder (by omega))).frames
  · intro time since upTo moved frames isOk
    rcases enclosed frames isOk with ⟨_, _, _, _, _, still⟩
    exact moved (still time since upTo).state

/-- A thread with a shim on its chain that runs on after nine instants; others never rest. -/
def briefRest : Exposure where
  moments := fun time =>
    { threads := fun thread =>
        if thread = 1 then some (if time < 9 then ⟨some 16, 7⟩ else ⟨none, 8⟩)
        else some ⟨none, .ofNat time⟩
      frames := fun place =>
        if place = 16 then .ok ⟨160, 4, some 32, false, false⟩
        else if place = 32 then .ok ⟨320, 0, some 48, true, true⟩
        else if place = 48 then .ok ⟨160, 4, none, true, false⟩
        else .error ⟨place, 88, 14⟩ }
  units := fun code => ⟨"work", none, if code = 160 then "app.py" else "boot.py", 3, []⟩
  instant := id
  inOrder := monotone_id
  refusal := fun _ => none

theorem briefRest_renews : briefRest.Renews 1 := by
  intro time
  rcases Nat.lt_trichotomy time 8 with early | rfl | late
  · have before : time < 9 := by omega
    have still : time + 1 < 9 := by omega
    exact .inl ⟨by simp [briefRest, before, still], fun _ _ => rfl⟩
  · right
    intro earlier before old new wasOld isNew
    have past : earlier < 9 := by omega
    simp only [briefRest, past, if_true, Option.some.injEq] at wasOld
    simp only [briefRest, if_true, Option.some.injEq] at isNew
    subst wasOld isNew
    decide
  · have past : ¬ time < 9 := by omega
    have still : ¬ time + 1 < 9 := by omega
    exact .inl ⟨by simp [briefRest, past, still], fun _ _ => rfl⟩

/-- An interpreter that tells nothing but its version. -/
def silent : Interpreter Nat where
  version := pure ⟨3, 12⟩
  threadIds := pure []
  threadState thread := throw (.unknownThread thread)
  frame place := throw ⟨place, 88, 14⟩
  code place := throw ⟨place, 64, 14⟩
  task place := throw ⟨place, 64, 14⟩
  members _ := pure []
  isFinalizing := pure false

theorem walk_ok_snapshot_briefRest :
    ∃ after, (Walking.walk (briefRest.interpreter silent) 1).run.run
        ⟨.new ⟨3, 12⟩ 8, 2⟩ =
          (.ok [⟨16, .interpreted "work" "app.py" 3, false⟩,
            ⟨48, .interpreted "work" "app.py" 3, true⟩], after) ∧
      (briefRest.seen 2).Shows 1 (.forVersion ⟨3, 12⟩) briefRest.units
        [⟨16, .interpreted "work" "app.py" 3, false⟩,
          ⟨48, .interpreted "work" "app.py" 3, true⟩] := by
  have inUse : Walker.InUse briefRest silent ⟨3, 12⟩ ⟨.new ⟨3, 12⟩ 8, 2⟩ := .new 8 2
  exact ⟨_, rfl, (walk_ok_snapshot briefRest_renews inUse rfl).1 _ rfl⟩

end StackSampler
