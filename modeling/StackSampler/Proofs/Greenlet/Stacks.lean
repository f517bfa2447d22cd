import Mathlib.Data.List.Nodup
import StackSampler.Proofs.Greenlet.Lines
import StackSampler.Subject.Tables

/-!
# The stacks of greenlets

Rendering the greenlets of a thread gives one stack for each that is active on the thread or keeps a
frame.  What threads run, the frames that are kept and the parents are reported on their own, in any
order, so none of them need fit the others: the greenlet that a thread runs may be one of another
thread or none that is known, and parents may form cycles.

The main statement is `render_iff_renders`, which says of every reachable table what is rendered.
-/

namespace StackSampler

theorem Observing.run_bind_iff {σ α β : Type} {first : Observing σ α} {next : α → Observing σ β}
    {before after : Observation σ} {answer : β} :
    (first >>= next).run before = (answer, after) ↔
      ∃ given middle, first.run before = (given, middle) ∧
        (next given).run middle = (answer, after) := by
  constructor
  · exact fun ran => ⟨_, _, rfl, ran⟩
  · rintro ⟨given, middle, isGiven, ran⟩
    rw [StateT.run_bind, isGiven]
    exact ran

namespace GreenletTable

variable {σ : Type} {interpreter : Interpreter σ} {table : GreenletTable} {thread : ThreadId}
  {active : Option GreenletId} {physical : List WalkedFrame} {id : GreenletId} {greenlet : Greenlet}
  {ids : List GreenletId} {line : List (GreenletId × Greenlet)} {before after : Observation σ}

/-! ## Greenlets with a stack -/

/-- A greenlet of a thread that is active there or keeps a frame. -/
def HasStack (table : GreenletTable) (thread : ThreadId) (id : GreenletId) : Prop :=
  ∃ greenlet, table.greenlets[id]? = some greenlet ∧ greenlet.thread = thread ∧
    (table.activeOn? thread = some id ∨ greenlet.frame ≠ none)

/-- One greenlet was created before another one. -/
def CreatedBefore (table : GreenletTable) (first second : GreenletId) : Prop :=
  ∃ earlier later, table.CreatedAs first earlier ∧ table.CreatedAs second later ∧ earlier < later

/-- The greenlets of a thread that have a stack, in the order of their creation. -/
structure AreLeaves (table : GreenletTable) (thread : ThreadId) (ids : List GreenletId) : Prop where
  members : ∀ id, id ∈ ids ↔ table.HasStack thread id
  ordered : ids.Pairwise table.CreatedBefore

theorem CreatedAs.unique {place other : Nat} (created : table.CreatedAs id place)
    (again : table.CreatedAs id other) : place = other := by
  rcases created with ⟨greenlet, found, rfl⟩
  rcases again with ⟨same, foundToo, rfl⟩
  cases found.symm.trans foundToo
  rfl

theorem CreatedBefore.asymm {first second : GreenletId}
    (earlier : table.CreatedBefore first second) : ¬ table.CreatedBefore second first := by
  rintro ⟨later, sooner, second, first, lower⟩
  rcases earlier with ⟨_, _, firstToo, secondToo, higher⟩
  cases first.unique firstToo
  cases second.unique secondToo
  exact Nat.lt_asymm lower higher

theorem AreLeaves.nodup (leaves : table.AreLeaves thread ids) : ids.Nodup :=
  leaves.ordered.imp fun earlier same => (same ▸ earlier).asymm (same ▸ earlier)

/-- There is one way to put the greenlets with a stack into their order. -/
theorem AreLeaves.unique {others : List GreenletId} (leaves : table.AreLeaves thread ids)
    (otherLeaves : table.AreLeaves thread others) : ids = others := by
  have sameMembers : ids.Perm others :=
    (List.perm_ext_iff_of_nodup leaves.nodup otherLeaves.nodup).mpr fun id =>
      (leaves.members id).trans (otherLeaves.members id).symm
  exact sameMembers.eq_of_pairwise (fun _ _ _ _ earlier later => absurd later earlier.asymm)
    leaves.ordered otherLeaves.ordered

theorem mem_shown_iff : id ∈ table.shown thread ↔ table.HasStack thread id := by
  simp only [shown, List.mem_map, List.mem_mergeSort, List.mem_filter, Prod.exists,
    exists_and_right, exists_eq_right, Std.ExtTreeMap.mem_toList_iff_getElem?_eq_some, isShown,
    Bool.and_eq_true, Bool.or_eq_true, beq_iff_eq, HasStack]
  refine exists_congr fun greenlet => and_congr_right fun _ => and_congr_right fun _ => ?_
  rw [or_comm, eq_comm, Option.isSome_iff_ne_none]

theorem nodup_shown (table : GreenletTable) (thread : ThreadId) : (table.shown thread).Nodup := by
  rw [shown, ((List.mergeSort_perm _ _).map _).nodup_iff]
  refine List.Nodup.sublist (List.filter_sublist.map _) ?_
  rw [Std.ExtTreeMap.map_fst_toList_eq_keys]
  exact Std.ExtTreeMap.nodup_keys

/-- What is shown are entries of the table, in the order of their creation. -/
theorem exists_shown_eq (table : GreenletTable) (thread : ThreadId) :
    ∃ entries : List (GreenletId × Greenlet), table.shown thread = entries.map (·.1) ∧
      entries.Pairwise (fun one other => one.2.created ≤ other.2.created) ∧
      ∀ entry ∈ entries, table.greenlets[entry.1]? = some entry.2 := by
  refine ⟨_, rfl, (List.pairwise_mergeSort ?_ ?_ _).imp ?_, ?_⟩
  · grind
  · grind
  · grind
  · intro entry member
    rw [List.mem_mergeSort, List.mem_filter] at member
    exact Std.ExtTreeMap.mem_toList_iff_getElem?_eq_some.mp member.1

theorem Consistent.areLeaves_shown (consistent : table.Consistent) (thread : ThreadId) :
    table.AreLeaves thread (table.shown thread) := by
  refine ⟨fun id => mem_shown_iff, ?_⟩
  have distinct := nodup_shown table thread
  rcases exists_shown_eq table thread with ⟨entries, same, ordered, known⟩
  rw [same, List.Nodup, List.pairwise_map] at distinct
  rw [same, List.pairwise_map]
  refine (ordered.and distinct).imp_of_mem fun {one other} among amongToo both => ?_
  have first : table.CreatedAs one.1 one.2.created := ⟨one.2, known one among, rfl⟩
  have second : table.CreatedAs other.1 other.2.created := ⟨other.2, known other amongToo, rfl⟩
  refine ⟨_, _, first, second, Nat.lt_of_le_of_ne both.1 fun together => both.2 ?_⟩
  exact consistent.created_inj (together ▸ first) second

/-! ## What is rendered -/

/-- The frames of a greenlet itself, and what walking them does to walker and interpreter. -/
inductive OwnFrames (interpreter : Interpreter σ) (active : Option GreenletId)
    (physical : List WalkedFrame) (id : GreenletId) (greenlet : Greenlet) :
    Observation σ → List Frame → Observation σ → Prop where
  | running {before : Observation σ} (runs : active = some id) :
      OwnFrames interpreter active physical id greenlet before (physical.map (·.frame)) before
  | bare {before : Observation σ} (waits : active ≠ some id) (keepsNone : greenlet.frame = none) :
      OwnFrames interpreter active physical id greenlet before [] before
  | kept {before after : Observation σ} {top : Address} {walked : List WalkedFrame}
      (waits : active ≠ some id) (keeps : greenlet.frame = some top)
      (read : (Walking.walkFrom interpreter (some top)).run.run before = (.ok walked, after)) :
      OwnFrames interpreter active physical id greenlet before (walked.map (·.frame)) after
  | lost {before after : Observation σ} {top : Address} {error : CaptureError}
      (waits : active ≠ some id) (keeps : greenlet.frame = some top)
      (failed : (Walking.walkFrom interpreter (some top)).run.run before = (.error error, after)) :
      OwnFrames interpreter active physical id greenlet before [] after

/-- The frames of a line: those of each greenlet, followed by a boundary with its name. -/
inductive LineFrames (interpreter : Interpreter σ) (active : Option GreenletId)
    (physical : List WalkedFrame) :
    List (GreenletId × Greenlet) → Observation σ → List Frame → Observation σ → Prop where
  | nil (before : Observation σ) : LineFrames interpreter active physical [] before [] before
  | cons {id : GreenletId} {greenlet : Greenlet} {line : List (GreenletId × Greenlet)}
      {before middle after : Observation σ} {frames others : List Frame}
      (own : OwnFrames interpreter active physical id greenlet before frames middle)
      (behind : LineFrames interpreter active physical line middle others after) :
      LineFrames interpreter active physical ((id, greenlet) :: line) before
        (frames ++ .taskBoundary greenlet.name :: others) after

/-- The stacks of several greenlets, each with the frames of a line from its greenlet on. -/
inductive LeafStacks (interpreter : Interpreter σ) (table : GreenletTable)
    (active : Option GreenletId) (physical : List WalkedFrame) :
    List GreenletId → Observation σ → List Stack → Observation σ → Prop where
  | nil (before : Observation σ) : LeafStacks interpreter table active physical [] before [] before
  | cons {leaf : GreenletId} {leaves : List GreenletId} {line : List (GreenletId × Greenlet)}
      {before middle after : Observation σ} {frames : List Frame} {onCpu : Bool}
      {rendered : List Stack} (isLine : table.IsLine leaf line)
      (shown : LineFrames interpreter active physical line before frames middle)
      (runs : onCpu = true ↔ active = some leaf)
      (rest : LeafStacks interpreter table active physical leaves middle rendered after) :
      LeafStacks interpreter table active physical (leaf :: leaves) before
        (⟨some leaf, onCpu, frames⟩ :: rendered) after

/-- What rendering the greenlets of a thread gives. -/
inductive Renders (interpreter : Interpreter σ) (table : GreenletTable) (thread : ThreadId)
    (physical : List WalkedFrame) :
    Observation σ → Option (List Stack) → Observation σ → Prop where
  | nothing {before : Observation σ} (nobody : ∀ id, ¬ table.HasStack thread id) :
      Renders interpreter table thread physical before none before
  | rendered {before after : Observation σ} {leaf : GreenletId} {leaves : List GreenletId}
      {rendered : List Stack} (areLeaves : table.AreLeaves thread (leaf :: leaves))
      (shown : LeafStacks interpreter table (table.activeOn? thread) physical (leaf :: leaves)
        before rendered after) :
      Renders interpreter table thread physical before (some rendered) after

theorem framesOf_iff {frames : List Frame} :
    (framesOf interpreter active physical id greenlet).run before = (frames, after) ↔
      OwnFrames interpreter active physical id greenlet before frames after := by
  constructor
  · intro ran
    rw [framesOf] at ran
    by_cases runs : active = some id
    · rw [if_pos runs.symm] at ran
      cases ran
      exact .running runs
    rw [if_neg (Ne.symm runs)] at ran
    cases keeps : greenlet.frame with
    | none =>
        rw [keeps] at ran
        cases ran
        exact .bare runs keeps
    | some top =>
        rw [keeps] at ran
        rcases Observing.run_bind_iff.mp ran with ⟨outcome, middle, walked, given⟩
        cases outcome with
        | ok walkedFrames =>
            cases given
            exact .kept runs keeps walked
        | error error =>
            cases given
            exact .lost runs keeps walked
  · intro own
    rw [framesOf]
    cases own with
    | running runs =>
        rw [if_pos runs.symm]
        rfl
    | bare waits keepsNone =>
        rw [if_neg waits.symm, keepsNone]
        rfl
    | kept waits keeps walks =>
        rw [if_neg waits.symm, keeps]
        exact Observing.run_bind_iff.mpr ⟨_, _, walks, rfl⟩
    | lost waits keeps fails =>
        rw [if_neg waits.symm, keeps]
        exact Observing.run_bind_iff.mpr ⟨_, _, fails, rfl⟩

theorem lineFrames_iff {frames : List Frame} :
    (lineFrames interpreter active physical line).run before = (frames, after) ↔
      LineFrames interpreter active physical line before frames after := by
  induction line generalizing before frames after with
  | nil =>
      constructor
      · rintro ⟨⟩
        exact .nil before
      · rintro ⟨⟩
        rfl
  | cons first rest induction =>
      rw [lineFrames, Observing.run_bind_iff]
      constructor
      · rintro ⟨frames, middle, own, ran⟩
        rcases Observing.run_bind_iff.mp ran with ⟨others, last, behind, given⟩
        cases given
        exact .cons (framesOf_iff.mp own) (induction.mp behind)
      · intro shown
        cases shown with
        | cons own behind =>
            exact ⟨_, _, framesOf_iff.mpr own,
              Observing.run_bind_iff.mpr ⟨_, _, induction.mpr behind, rfl⟩⟩

theorem stacksOf_iff {rendered : List Stack} (known : ∀ id ∈ ids, id ∈ table.greenlets) :
    (stacksOf interpreter table active physical ids).run before = (rendered, after) ↔
      LeafStacks interpreter table active physical ids before rendered after := by
  induction ids generalizing before rendered after with
  | nil =>
      constructor
      · rintro ⟨⟩
        exact .nil before
      · rintro ⟨⟩
        rfl
  | cons leaf leaves induction =>
      have leafKnown := known leaf List.mem_cons_self
      have knownBehind := fun id member => known id (List.mem_cons_of_mem leaf member)
      rw [stacksOf, Observing.run_bind_iff]
      constructor
      · rintro ⟨frames, middle, shown, ran⟩
        rcases Observing.run_bind_iff.mp ran with ⟨others, last, rest, given⟩
        cases given
        refine .cons (isLine_line leafKnown) (lineFrames_iff.mp shown) ?_
          ((induction knownBehind).mp rest)
        rw [beq_iff_eq, eq_comm]
      · intro rendering
        cases rendering with
        | @cons _ _ line _ _ _ _ onCpu _ isLine shown runs rest =>
            have same : (some leaf == active) = onCpu := by
              rw [Bool.eq_iff_iff, beq_iff_eq, runs, eq_comm]
            cases (isLine_iff leafKnown).mp isLine
            refine ⟨_, _, lineFrames_iff.mpr shown,
              Observing.run_bind_iff.mpr ⟨_, _, (induction knownBehind).mpr rest, ?_⟩⟩
            rw [same]
            rfl

namespace LeafStacks

theorem length_onCpu {rendered : List Stack}
    (rendering : LeafStacks interpreter table active physical ids before rendered after) :
    (rendered.filter (·.onCpu)).length = ids.countP fun id => some id = active := by
  induction rendering with
  | nil => rfl
  | @cons leaf _ _ _ _ _ _ onCpu _ _ _ runs _ induction =>
      rw [List.countP_cons, ← induction]
      cases onCpu with
      | true => simp [runs.mp rfl]
      | false =>
          have waits : some leaf ≠ active := fun isActive => nomatch runs.mpr isActive.symm
          simp [waits]

/-- Where no greenlet has two stacks, at most one stack is on the CPU. -/
theorem length_onCpu_le {rendered : List Stack} (distinct : ids.Nodup)
    (rendering : LeafStacks interpreter table active physical ids before rendered after) :
    (rendered.filter (·.onCpu)).length ≤ 1 := by
  rw [rendering.length_onCpu]
  cases active with
  | none => simp
  | some running =>
      have once := List.nodup_iff_count_le_one.mp distinct running
      rw [List.count_eq_countP] at once
      refine Nat.le_trans (List.countP_mono_left fun id _ isActive => ?_) once
      exact beq_iff_eq.mpr (Option.some.inj (of_decide_eq_true isActive))

end LeafStacks

theorem Consistent.render_iff_renders (consistent : table.Consistent)
    {outcome : Option (List Stack)} :
    (table.render interpreter thread physical).run before = (outcome, after) ↔
      Renders interpreter table thread physical before outcome after := by
  have leaves := consistent.areLeaves_shown thread
  have known : ∀ id ∈ table.shown thread, id ∈ table.greenlets := by
    intro id member
    rcases (leaves.members id).mp member with ⟨greenlet, found, -⟩
    exact mem_iff_exists.mpr ⟨greenlet, found⟩
  rw [render]
  cases shown : table.shown thread with
  | nil =>
      rw [shown] at leaves
      constructor
      · rintro ⟨⟩
        exact .nothing fun id has => List.not_mem_nil ((leaves.members id).mpr has)
      · intro renders
        cases renders with
        | nothing => rfl
        | rendered areLeaves => cases areLeaves.unique leaves
  | cons leaf rest =>
      rw [shown] at leaves known
      rw [List.isEmpty_cons, if_neg Bool.false_ne_true, map_eq_pure_bind, Observing.run_bind_iff]
      constructor
      · rintro ⟨rendered, middle, rendering, given⟩
        cases given
        exact .rendered leaves ((stacksOf_iff known).mp rendering)
      · intro renders
        cases renders with
        | nothing nobody => exact absurd ((leaves.members leaf).mp List.mem_cons_self) (nobody leaf)
        | rendered areLeaves rendering =>
            cases areLeaves.unique leaves
            exact ⟨_, _, (stacksOf_iff known).mpr rendering, rfl⟩

theorem Renders.length_onCpu_le {rendered : List Stack}
    (renders : Renders interpreter table thread physical before (some rendered) after) :
    (rendered.filter (·.onCpu)).length ≤ 1 := by
  cases renders with
  | rendered areLeaves rendering => exact rendering.length_onCpu_le areLeaves.nodup

/--
Whatever the host reported, rendering gives no stacks exactly if no greenlet of the thread is active
on it or keeps a frame, and else the stacks of these greenlets, of which at most one is on the CPU.
-/
theorem render_eq_iff_renders (reachable : table.Reachable) (interpreter : Interpreter σ)
    (thread : ThreadId) (physical : List WalkedFrame) (before : Observation σ) :
    (∀ outcome after, (table.render interpreter thread physical).run before = (outcome, after) ↔
      Renders interpreter table thread physical before outcome after) ∧
    ∀ rendered after,
      (table.render interpreter thread physical).run before = (some rendered, after) →
        (rendered.filter (·.onCpu)).length ≤ 1 := by
  have consistent := reachable.consistent
  exact ⟨fun _ _ => consistent.render_iff_renders,
    fun _ _ ran => (consistent.render_iff_renders.mp ran).length_onCpu_le⟩

/--
Reports of two greenlets that are each other's parent, of which one runs and the other keeps a
frame.  A second thread has a greenlet that neither runs nor keeps a frame; it runs one of the first
thread.
-/
def entangledReports : List Notification :=
  [.greenletTracked 16 1 "first" none, .greenletTracked 32 1 "second" (some 64),
    .greenletTracked 48 2 "other" none, .greenletsLinked 16 32, .greenletsLinked 32 16,
    .greenletSwitched 1 16, .greenletSwitched 2 32]

/-- The frame that one of the greenlets keeps can be walked. -/
def waitingObservation : Observation Tables :=
  ⟨.new ⟨3, 11⟩ 500, ({} : Tables).putStack 64 [⟨"wait", "app.py", 7⟩] none⟩

theorem render_eq_iff_renders_entangled :
    let table := afterAll entangledReports
    let physical : List WalkedFrame := [⟨160, .interpreted "main" "app.py" 3, true⟩]
    let rendered : List Stack :=
      [⟨some 16, true, [.interpreted "main" "app.py" 3, .taskBoundary "first",
          .interpreted "wait" "app.py" 7, .taskBoundary "second"]⟩,
        ⟨some 32, false, [.interpreted "wait" "app.py" 7, .taskBoundary "second",
          .interpreted "main" "app.py" 3, .taskBoundary "first"]⟩]
    table.Reachable ∧
      (∃ after, Renders Tables.interpreter table 1 physical waitingObservation (some rendered)
        after) ∧
      Renders Tables.interpreter table 2 physical waitingObservation none waitingObservation ∧
      (rendered.filter (·.onCpu)).length ≤ 1 := by
  intro table physical rendered
  have reachable := afterAll_reachable entangledReports
  rcases render_eq_iff_renders reachable Tables.interpreter 1 physical waitingObservation with
    ⟨first, atMostOne⟩
  have second := (render_eq_iff_renders reachable Tables.interpreter 2 physical
    waitingObservation).1
  have both : table.shown 1 = [16, 32] := by
    rw [shown, List.mergeSort_of_pairwise (by decide +kernel)]
    decide +kernel
  have ran : ((table.render Tables.interpreter 1 physical).run waitingObservation).1 =
      some rendered := by
    rw [render, both]
    decide +kernel
  have nobody : table.shown 2 = [] := by decide +kernel
  have isNone : (table.render Tables.interpreter 2 physical).run waitingObservation =
      (none, waitingObservation) := by
    rw [render, nobody]
    rfl
  have together : (table.render Tables.interpreter 1 physical).run waitingObservation =
      (some rendered, _) :=
    Prod.ext ran rfl
  exact ⟨reachable, ⟨_, (first _ _).mp together⟩, (second _ _).mp isNone,
    atMostOne rendered _ together⟩

end GreenletTable

end StackSampler
