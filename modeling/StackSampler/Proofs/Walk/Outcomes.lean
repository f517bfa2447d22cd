import StackSampler.Proofs.Walk.Recall

/-!
# How a walk ends

While nothing happens in an interpreter, a `Snapshot` has all its answers.  The frames of a chain
then form a `Snapshot.Trail`, which may end, break off at something unreadable, or go on for ever,
and what a walk gives depends on which of these it meets first within its limit.  The rules are
those of `Snapshot.ChainEnds` and `Snapshot.WalkEnds`.

The main statement is `Walking.walk_eq_iff_walkEnds`, for a new walker in front of any interpreter
that stands still.
-/

namespace StackSampler

/-- What an interpreter tells a walk while nothing happens in it. -/
structure Snapshot where
  threadState : ThreadId → Except CaptureError ThreadState
  frame : Address → Except ReadFault RawFrame
  code : Address → Except ReadFault CodeUnit

/-- While an interpreter is inside, which no question of a walk changes, it tells one snapshot. -/
structure Interpreter.StandsStill {σ : Type} (interpreter : Interpreter σ) (inside : σ → Prop)
    (snapshot : Snapshot) : Prop where
  threadState : ∀ thread,
    IsSettled inside (interpreter.threadState thread) (snapshot.threadState thread)
  frame : ∀ place, IsSettled inside (interpreter.frame place) (snapshot.frame place)
  code : ∀ place, IsSettled inside (interpreter.code place) (snapshot.code place)

/-- A meter goes up by at most one with every frame that is read, and with nothing else. -/
structure Interpreter.MetersFrames {σ : Type} (interpreter : Interpreter σ) (meter : σ → Nat) :
    Prop where
  threadState : ∀ thread now, meter ((interpreter.threadState thread).run.run now).2 ≤ meter now
  frame : ∀ place now, meter ((interpreter.frame place).run.run now).2 ≤ meter now + 1
  code : ∀ place now, meter ((interpreter.code place).run.run now).2 ≤ meter now

namespace Snapshot

variable {snapshot : Snapshot} {format : LineFormat} {limit room : Nat}
  {from? next? : Option Address} {place : Address} {raw : RawFrame} {links : List Link}
  {result : Except CaptureError (List WalkedFrame)}

/-! ## Trails -/

/--
Frames that can be read one after the other from one place on, each with its code unit unless it is
a shim.  The chain goes on with `next?`.
-/
inductive Trail (snapshot : Snapshot) : Option Address → List Link → Option Address → Prop where
  | nil (from? : Option Address) : Trail snapshot from? [] from?
  | cons {place : Address} {raw : RawFrame} {callers : List Link} {next? : Option Address}
      (held : snapshot.frame place = .ok raw)
      (named : raw.isShim = false → ∃ unit, snapshot.code raw.code = .ok unit)
      (behind : Trail snapshot raw.previous callers next?) :
      Trail snapshot (some place) ((place, raw) :: callers) next?

theorem trail_none_iff : snapshot.Trail none links next? ↔ links = [] ∧ next? = none := by
  constructor
  · intro trail
    cases trail
    exact ⟨rfl, rfl⟩
  · rintro ⟨rfl, rfl⟩
    exact .nil none

theorem Trail.append {middle? : Option Address} {callers : List Link}
    (front : snapshot.Trail from? links middle?) (behind : snapshot.Trail middle? callers next?) :
    snapshot.Trail from? (links ++ callers) next? := by
  induction front with
  | nil => exact behind
  | cons held named _ induction => exact .cons held named (induction behind)

/-- A trail that leads on to a frame can be left after any number of frames. -/
theorem Trail.exists_take (trail : snapshot.Trail from? links (some place)) {count : Nat}
    (within : count ≤ links.length) :
    ∃ front next, snapshot.Trail from? front (some next) ∧ front.length = count := by
  generalize leads : some place = next? at trail
  induction trail generalizing count with
  | nil from? =>
      subst leads
      exact ⟨[], place, .nil _, (Nat.le_zero.mp within).symm⟩
  | @cons inner raw callers next? held named behind induction =>
      cases count with
      | zero => exact ⟨[], inner, .nil _, rfl⟩
      | succ count =>
          rcases induction (Nat.le_of_succ_le_succ within) leads with ⟨front, next, trail, same⟩
          exact ⟨_, next, .cons held named trail, congrArg (· + 1) same⟩

/-- The chain from one place on comes back to one of its frames. -/
def Circles (snapshot : Snapshot) (from? : Option Address) : Prop :=
  ∃ lead place round, snapshot.Trail from? lead (some place) ∧
    snapshot.Trail (some place) round (some place) ∧ round ≠ []

/-- A chain that comes back to a frame of its own has as many frames as one likes. -/
theorem Circles.exists_trail (circles : snapshot.Circles from?) (count : Nat) :
    ∃ links next, snapshot.Trail from? links (some next) ∧ links.length = count := by
  rcases circles with ⟨lead, place, round, leads, returns, nonempty⟩
  have rounds : ∃ links, snapshot.Trail (some place) links (some place) ∧ count ≤ links.length := by
    induction count with
    | zero => exact ⟨[], .nil _, Nat.le_refl 0⟩
    | succ count induction =>
        rcases induction with ⟨links, trail, enough⟩
        refine ⟨round ++ links, returns.append trail, ?_⟩
        have some_ := List.length_pos_iff.mpr nonempty
        rw [List.length_append]
        omega
  rcases rounds with ⟨links, trail, enough⟩
  exact (leads.append trail).exists_take (by rw [List.length_append]; omega)

/-! ## Outcomes -/

/-- The frames that are shown where all that they need can be read. -/
abbrev Shows (snapshot : Snapshot) (format : LineFormat) : List Link → List WalkedFrame → Prop :=
  Shown fun code offset frame => Walking.frameAt snapshot.code format code offset = .ok frame

/-- A frame that a trail cannot go past, and the fault of what has to be read first of it. -/
inductive BreaksAt (snapshot : Snapshot) (place : Address) : ReadFault → Prop where
  | frame {fault : ReadFault} (unread : snapshot.frame place = .error fault) :
      BreaksAt snapshot place fault
  | code {raw : RawFrame} {fault : ReadFault} (held : snapshot.frame place = .ok raw)
      (isShown : raw.isShim = false) (unread : snapshot.code raw.code = .error fault) :
      BreaksAt snapshot place fault

/--
What a walk along a chain gives if it may take `room` frames: the frames of a chain that ends by
then; the limit, if so many frames can be read and the chain goes on; or else the first fault.
-/
inductive ChainEnds (snapshot : Snapshot) (format : LineFormat) (limit room : Nat)
    (from? : Option Address) : Except CaptureError (List WalkedFrame) → Prop where
  | whole {links : List Link} {frames : List WalkedFrame} (trail : snapshot.Trail from? links none)
      (fits : links.length ≤ room) (shows : snapshot.Shows format links frames) :
      ChainEnds snapshot format limit room from? (.ok frames)
  | tooDeep {links : List Link} {place : Address} (trail : snapshot.Trail from? links (some place))
      (full : links.length = room) :
      ChainEnds snapshot format limit room from? (.error (.tooDeep limit))
  | unread {links : List Link} {place : Address} {fault : ReadFault}
      (trail : snapshot.Trail from? links (some place)) (fits : links.length < room)
      (breaks : snapshot.BreaksAt place fault) :
      ChainEnds snapshot format limit room from? (.error (.memory fault))

/-- What a walk of a thread gives: the refusal of its head, or what the chain behind it gives. -/
inductive WalkEnds (snapshot : Snapshot) (format : LineFormat) (limit : Nat) (thread : ThreadId) :
    Except CaptureError (List WalkedFrame) → Prop where
  | refused {error : CaptureError} (refused : snapshot.threadState thread = .error error) :
      WalkEnds snapshot format limit thread (.error error)
  | followed {state : ThreadState} {result : Except CaptureError (List WalkedFrame)}
      (known : snapshot.threadState thread = .ok state)
      (ends : snapshot.ChainEnds format limit limit state.top result) :
      WalkEnds snapshot format limit thread result

theorem BreaksAt.unique {fault other : ReadFault} (breaks : snapshot.BreaksAt place fault)
    (too : snapshot.BreaksAt place other) : other = fault := by
  cases breaks with
  | frame unread =>
      cases too with
      | frame unreadToo => exact Except.error.inj (unreadToo.symm.trans unread)
      | code held => cases held.symm.trans unread
  | code held _ unread =>
      cases too with
      | frame unreadToo => cases held.symm.trans unreadToo
      | code heldToo _ unreadToo =>
          obtain rfl := Except.ok.inj (held.symm.trans heldToo)
          exact Except.error.inj (unreadToo.symm.trans unread)

/-- A trail that comes to a frame that it cannot go past ends there. -/
theorem Trail.eq_nil_of_breaksAt {fault : ReadFault}
    (trail : snapshot.Trail (some place) links next?) (breaks : snapshot.BreaksAt place fault) :
    links = [] ∧ next? = some place := by
  cases trail with
  | nil => exact ⟨rfl, rfl⟩
  | cons held named _ =>
      cases breaks with
      | frame unread => cases held.symm.trans unread
      | code heldToo isShown unread =>
          obtain rfl := Except.ok.inj (held.symm.trans heldToo)
          rcases named isShown with ⟨unit, read⟩
          cases read.symm.trans unread

theorem chainEnds_none_iff :
    snapshot.ChainEnds format limit room none result ↔ result = .ok [] := by
  constructor
  · intro ends
    cases ends with
    | whole trail _ shows =>
        rcases trail_none_iff.mp trail with ⟨rfl, -⟩
        cases shows
        rfl
    | tooDeep trail => cases (trail_none_iff.mp trail).2
    | unread trail => cases (trail_none_iff.mp trail).2
  · rintro rfl
    exact .whole (.nil none) (Nat.zero_le _) .nil

theorem chainEnds_zero_iff :
    snapshot.ChainEnds format limit 0 (some place) result ↔ result = .error (.tooDeep limit) := by
  constructor
  · intro ends
    cases ends with
    | whole trail fits =>
        cases List.length_eq_zero_iff.mp (Nat.le_zero.mp fits)
        cases trail
    | tooDeep => rfl
    | unread _ fits => exact absurd fits (Nat.not_lt_zero _)
  · rintro rfl
    exact .tooDeep (.nil _) rfl

theorem BreaksAt.chainEnds_iff {fault : ReadFault} (breaks : snapshot.BreaksAt place fault) :
    snapshot.ChainEnds format limit (room + 1) (some place) result ↔
      result = .error (.memory fault) := by
  constructor
  · intro ends
    cases ends with
    | whole trail => cases (trail.eq_nil_of_breaksAt breaks).2
    | tooDeep trail full =>
        rcases trail.eq_nil_of_breaksAt breaks with ⟨rfl, -⟩
        cases full
    | unread trail _ other =>
        rcases trail.eq_nil_of_breaksAt breaks with ⟨rfl, same⟩
        cases same
        rw [breaks.unique other]
  · rintro rfl
    exact .unread (.nil _) (Nat.zero_lt_succ room) breaks

/--
Where a frame and what it needs can be read, the walk ends as it does behind the frame, which
extends the frames that are shown.
-/
theorem chainEnds_succ_iff (held : snapshot.frame place = .ok raw)
    (named : raw.isShim = false → ∃ unit, snapshot.code raw.code = .ok unit)
    {extend : List WalkedFrame → List WalkedFrame}
    (extends_ : ∀ callers frames, snapshot.Shows format ((place, raw) :: callers) frames ↔
      ∃ others, snapshot.Shows format callers others ∧ extend others = frames) :
    snapshot.ChainEnds format limit (room + 1) (some place) result ↔
      ∃ behind, snapshot.ChainEnds format limit room raw.previous behind ∧
        behind.map extend = result := by
  constructor
  · intro ends
    have unbroken {fault : ReadFault} : ¬ snapshot.BreaksAt place fault := fun breaks =>
      nomatch ((Trail.cons held named (.nil _)).eq_nil_of_breaksAt breaks).1
    cases ends with
    | whole trail fits shows =>
        cases trail with
        | cons heldToo _ behind =>
            obtain rfl := Except.ok.inj (heldToo.symm.trans held)
            rcases (extends_ _ _).mp shows with ⟨others, isShown, rfl⟩
            exact ⟨.ok others, .whole behind (Nat.le_of_succ_le_succ fits) isShown, rfl⟩
    | tooDeep trail full =>
        cases trail with
        | nil => cases full
        | cons heldToo _ behind =>
            obtain rfl := Except.ok.inj (heldToo.symm.trans held)
            exact ⟨_, .tooDeep behind (Nat.succ.inj full), rfl⟩
    | unread trail fits breaks =>
        cases trail with
        | nil => exact absurd breaks unbroken
        | cons heldToo _ behind =>
            obtain rfl := Except.ok.inj (heldToo.symm.trans held)
            exact ⟨_, .unread behind (Nat.lt_of_succ_lt_succ fits) breaks, rfl⟩
  · rintro ⟨behind, ends, rfl⟩
    cases ends with
    | whole trail fits shows =>
        exact .whole (.cons held named trail) (Nat.succ_le_succ fits)
          ((extends_ _ _).mpr ⟨_, shows, rfl⟩)
    | tooDeep trail full => exact .tooDeep (.cons held named trail) (congrArg (· + 1) full)
    | unread trail fits breaks =>
        exact .unread (.cons held named trail) (Nat.succ_lt_succ fits) breaks

theorem shows_shim_iff (isShim : raw.isShim = true) (callers : List Link)
    (frames : List WalkedFrame) :
    snapshot.Shows format ((place, raw) :: callers) frames ↔
      ∃ others, snapshot.Shows format callers others ∧ id others = frames := by
  rw [Shows, Shown, List.filter_cons_of_neg (by simp [isShim])]
  constructor
  · exact fun shows => ⟨frames, shows, rfl⟩
  · rintro ⟨_, shows, rfl⟩
    exact shows

theorem shows_cons_iff {frame : Frame} (isShown : raw.isShim = false)
    (resolved : Walking.frameAt snapshot.code format raw.code raw.offset = .ok frame)
    (callers : List Link) (frames : List WalkedFrame) :
    snapshot.Shows format ((place, raw) :: callers) frames ↔
      ∃ others, snapshot.Shows format callers others ∧
        ⟨place, frame, raw.isEntry⟩ :: others = frames := by
  constructor
  · intro shows
    rw [Shows, Shown, List.filter_cons_of_pos (by simpa using isShown)] at shows
    cases shows with
    | @cons _ walked _ others known behind =>
        rcases walked with ⟨_, _, _⟩
        dsimp only at known
        rcases known with ⟨rfl, rfl, other⟩
        cases Except.ok.inj (resolved.symm.trans other)
        exact ⟨others, behind, rfl⟩
  · rintro ⟨others, shows, rfl⟩
    exact shows.cons (by simp [isShown]) resolved

end Snapshot

/-! ## Walks -/

namespace Walking

variable {σ : Type} {interpreter : Interpreter σ} {inside : σ → Prop} {snapshot : Snapshot}
  {format : LineFormat} {limit : Nat} {meter : σ → Nat}

/-- What a walk along a chain gives in front of an interpreter that stands still, and leaves. -/
structure Runs (snapshot : Snapshot) (format : LineFormat) (limit : Nat) (inside : σ → Prop)
    (meter : σ → Nat) (room : Nat) (from? : Option Address)
    (step : Walking σ CaptureError (List WalkedFrame)) (before : Observation σ) : Prop where
  ends : ∀ result, snapshot.ChainEnds format limit room from? result ↔ (step before).1 = result
  isInside : inside (step before).2.subject
  meter_le : meter (step before).2.subject ≤ meter before.subject + room
  recalls : (step before).2.walker.Recalls format limit snapshot.code

section

variable {room : Nat} {place : Address} {raw : RawFrame}
  {step rest : Walking σ CaptureError (List WalkedFrame)} {before middle after : Observation σ}

theorem Runs.of_breaksAt {fault : ReadFault} (breaks : snapshot.BreaksAt place fault)
    (ran : step before = (.error (.memory fault), after)) (isInside : inside after.subject)
    (metered : meter after.subject ≤ meter before.subject + 1)
    (recalls : after.walker.Recalls format limit snapshot.code) :
    Runs snapshot format limit inside meter (room + 1) (some place) step before := by
  refine ⟨fun result => ?_, ?_, ?_, ?_⟩
  · rw [breaks.chainEnds_iff, ran, eq_comm]
  · rwa [ran]
  · rw [ran]
    exact metered.trans (by omega)
  · rwa [ran]

/-- A walk that goes on behind a frame, whose frame it puts before the others if it is shown. -/
theorem Runs.succ (held : snapshot.frame place = .ok raw)
    (named : raw.isShim = false → ∃ unit, snapshot.code raw.code = .ok unit)
    {extend : List WalkedFrame → List WalkedFrame}
    (extends_ : ∀ callers frames, snapshot.Shows format ((place, raw) :: callers) frames ↔
      ∃ others, snapshot.Shows format callers others ∧ extend others = frames)
    (metered : meter middle.subject ≤ meter before.subject + 1)
    (runs : Runs snapshot format limit inside meter room raw.previous rest middle)
    (ran : step before = ((rest middle).1.map extend, (rest middle).2)) :
    Runs snapshot format limit inside meter (room + 1) (some place) step before := by
  refine ⟨fun result => ?_, ?_, ?_, ?_⟩
  · rw [Snapshot.chainEnds_succ_iff held named extends_, ran]
    constructor
    · rintro ⟨behind, ends, rfl⟩
      rw [(runs.ends behind).mp ends]
    · rintro rfl
      exact ⟨_, (runs.ends _).mpr rfl, rfl⟩
  · rw [ran]
    exact runs.isInside
  · rw [ran]
    exact runs.meter_le.trans (by omega)
  · rw [ran]
    exact runs.recalls

end

section

variable (still : interpreter.StandsStill inside snapshot) (meters : interpreter.MetersFrames meter)

include still meters

/-- A frame that was read is left out if it is a shim, and is resolved if it is none. -/
theorem runs_link {room : Nat} {place : Address} {raw : RawFrame}
    (held : snapshot.frame place = .ok raw)
    (behind : ∀ {before : Observation σ}, inside before.subject →
      before.walker.Recalls format limit snapshot.code →
      Runs snapshot format limit inside meter room raw.previous
        (chain interpreter limit room raw.previous) before)
    {step : Walking σ CaptureError (List WalkedFrame)} {before middle : Observation σ}
    (isInside : inside middle.subject) (metered : meter middle.subject ≤ meter before.subject + 1)
    (recalls : middle.walker.Recalls format limit snapshot.code)
    (ran : step before =
      (if raw.isShim then chain interpreter limit room raw.previous
        else do
          let frame ← ExceptT.adapt CaptureError.memory (resolve interpreter raw.code raw.offset)
          let callers ← chain interpreter limit room raw.previous
          pure (⟨place, frame, raw.isEntry⟩ :: callers)) middle) :
    Runs snapshot format limit inside meter (room + 1) (some place) step before := by
  split at ran
  case isTrue isShim =>
    refine (behind isInside recalls).succ held (fun isShown => ?_)
      (Snapshot.shows_shim_iff isShim) metered ?_
    · rw [isShim] at isShown
      cases isShown
    · rw [ran]
      rcases chain interpreter limit room raw.previous middle with ⟨_ | _, _⟩ <;> rfl
  case isFalse isShown =>
    have isShown : raw.isShim = false := by simpa using isShown
    rw [bind_apply, adapt_apply] at ran
    -- Reading the code unit leaves the meter as it is.
    have settled : IsSettled (fun now => inside now ∧ meter now ≤ meter middle.subject)
        (interpreter.code raw.code) (snapshot.code raw.code) := fun now within =>
      ⟨(still.code raw.code now within.1).1, (still.code raw.code now within.1).2,
        (meters.code raw.code now).trans within.2⟩
    rcases resolve_apply settled ⟨isInside, Nat.le_refl _⟩ recalls raw.offset with
      ⟨after, resolved, ⟨remains, unmetered⟩, stillRecalls⟩
    rw [resolved, frameAt] at ran
    cases read : snapshot.code raw.code with
    | error fault =>
        rw [read] at ran
        exact .of_breaksAt (.code held isShown read) ran remains (unmetered.trans metered)
          stillRecalls
    | ok unit =>
        rw [read] at ran
        have shown : frameAt snapshot.code format raw.code raw.offset =
            .ok (frameOf format unit raw.offset) := by
          rw [frameAt, read]
          rfl
        refine (behind remains stillRecalls).succ held (fun _ => ⟨unit, read⟩)
          (Snapshot.shows_cons_iff isShown shown) (unmetered.trans metered) ?_
        rw [ran]
        change (chain interpreter limit room raw.previous >>= fun callers => _) after = _
        rw [bind_apply]
        rcases chain interpreter limit room raw.previous after with ⟨_ | _, _⟩ <;> rfl

theorem runs_chain (room : Nat) (from? : Option Address) {before : Observation σ}
    (isInside : inside before.subject)
    (recalls : before.walker.Recalls format limit snapshot.code) :
    Runs snapshot format limit inside meter room from? (chain interpreter limit room from?)
      before := by
  induction room generalizing from? before with
  | zero =>
      cases from? with
      | none =>
          exact ⟨fun result => Snapshot.chainEnds_none_iff.trans eq_comm, isInside, Nat.le_refl _,
            recalls⟩
      | some place =>
          exact ⟨fun result => Snapshot.chainEnds_zero_iff.trans eq_comm, isInside, Nat.le_refl _,
            recalls⟩
  | succ room induction =>
      cases from? with
      | none =>
          exact ⟨fun result => Snapshot.chainEnds_none_iff.trans eq_comm, isInside,
            Nat.le_add_right _ _, recalls⟩
      | some place =>
          have metered := meters.frame place before.subject
          rcases still.frame place before.subject isInside with ⟨answer, remains⟩
          have ran : chain interpreter limit (room + 1) (some place) before = _ :=
            bind_apply (ExceptT.adapt CaptureError.memory (ask (interpreter.frame place))) _ before
          rw [adapt_apply, ask_apply, answer] at ran
          cases read : snapshot.frame place with
          | error fault =>
              rw [read] at ran
              exact .of_breaksAt (.frame read) ran remains metered recalls
          | ok raw =>
              rw [read] at ran
              let middle : Observation σ :=
                ⟨before.walker, ((interpreter.frame place).run.run before.subject).2⟩
              have stillRecalls : middle.walker.Recalls format limit snapshot.code := recalls
              exact runs_link still meters read (induction raw.previous) remains metered
                stillRecalls ran

omit meters in
/-- The head of a chain that stands still is read again as it was. -/
theorem unmoved_apply {thread : ThreadId} {state : ThreadState}
    (read : snapshot.threadState thread = .ok state) (frames : List WalkedFrame)
    {before : Observation σ} (isInside : inside before.subject) :
    (do
        let after ← ask (interpreter.threadState thread)
        if state = after then pure frames else throw (.stale thread) :
          Walking σ CaptureError (List WalkedFrame)) before =
      (.ok frames,
        ⟨before.walker, ((interpreter.threadState thread).run.run before.subject).2⟩) := by
  rw [bind_apply, ask_apply, (still.threadState thread before.subject isInside).1, read]
  dsimp only
  rw [if_pos rfl]
  rfl

/-- A walk of a known thread gives what the walk along its chain gives. -/
theorem walk_of_known {thread : ThreadId} {state : ThreadState}
    (read : snapshot.threadState thread = .ok state) {before : Observation σ}
    (isInside : inside before.subject)
    (recalls : before.walker.Recalls format limit snapshot.code) :
    ∃ after,
      walk interpreter thread before =
        ((chain interpreter limit limit state.top ⟨before.walker,
          ((interpreter.threadState thread).run.run before.subject).2⟩).1, after) ∧
      meter after.subject ≤ meter before.subject + limit := by
  rcases still.threadState thread before.subject isInside with ⟨answer, remains⟩
  let middle : Observation σ :=
    ⟨before.walker, ((interpreter.threadState thread).run.run before.subject).2⟩
  have stillRecalls : middle.walker.Recalls format limit snapshot.code := recalls
  have runs := runs_chain still meters limit state.top remains stillRecalls
  have bounded := runs.meter_le.trans
    (Nat.add_le_add_right (meters.threadState thread before.subject) limit)
  have ran : walk interpreter thread before = _ :=
    bind_apply (ask (interpreter.threadState thread)) _ before
  rw [ask_apply, answer, read] at ran
  have goesOn := ran.trans (bind_apply (walkFrom interpreter state.top) _ middle)
  rw [walkFrom_apply stillRecalls] at goesOn
  rcases followed : chain interpreter limit limit state.top middle with ⟨error | frames, after⟩
  · rw [followed] at goesOn bounded
    exact ⟨after, goesOn, bounded⟩
  · have stillInside := runs.isInside
    rw [followed] at goesOn bounded stillInside
    exact ⟨_, goesOn.trans (unmoved_apply still read frames stillInside),
      (meters.threadState thread after.subject).trans bounded⟩

/-- Where an interpreter stands still, a walk ends as the chain does that begins at its head. -/
theorem walk_ends_and_meter_le (thread : ThreadId) {before : Observation σ}
    (isInside : inside before.subject)
    (recalls : before.walker.Recalls format limit snapshot.code) :
    (∀ result, (walk interpreter thread before).1 = result ↔
        snapshot.WalkEnds format limit thread result) ∧
      meter (walk interpreter thread before).2.subject ≤ meter before.subject + limit := by
  rcases still.threadState thread before.subject isInside with ⟨answer, remains⟩
  cases read : snapshot.threadState thread with
  | error error =>
      have ran : walk interpreter thread before = _ :=
        bind_apply (ask (interpreter.threadState thread)) _ before
      rw [ask_apply, answer, read] at ran
      rw [ran]
      refine ⟨fun result => ⟨?_, fun ends => ?_⟩,
        (meters.threadState thread before.subject).trans (Nat.le_add_right _ _)⟩
      · rintro rfl
        exact .refused read
      · cases ends with
        | refused refused => exact congrArg _ (Except.error.inj (read.symm.trans refused))
        | followed known => cases read.symm.trans known
  | ok state =>
      let middle : Observation σ :=
        ⟨before.walker, ((interpreter.threadState thread).run.run before.subject).2⟩
      have stillRecalls : middle.walker.Recalls format limit snapshot.code := recalls
      rcases walk_of_known still meters read isInside recalls with ⟨after, ran, bounded⟩
      rw [ran]
      refine ⟨fun result => ?_, bounded⟩
      have outcome := (runs_chain still meters limit state.top remains stillRecalls).ends result
      refine outcome.symm.trans ⟨.followed read, fun ends => ?_⟩
      cases ends with
      | refused refused => cases read.symm.trans refused
      | followed known chainEnds =>
          obtain rfl := Except.ok.inj (read.symm.trans known)
          exact chainEnds

end

end Walking

/-- An interpreter that stands still and counts the frames that are read. -/
def Snapshot.interpreter (snapshot : Snapshot) : Interpreter Nat :=
  { silent with
    threadState := fun thread count => (snapshot.threadState thread, count)
    frame := fun place count => (snapshot.frame place, count + 1)
    code := fun place count => (snapshot.code place, count) }

theorem Snapshot.interpreter_standsStill (snapshot : Snapshot) :
    snapshot.interpreter.StandsStill (fun _ => True) snapshot :=
  ⟨fun _ _ _ => ⟨rfl, trivial⟩, fun _ _ _ => ⟨rfl, trivial⟩, fun _ _ _ => ⟨rfl, trivial⟩⟩

theorem Snapshot.interpreter_metersFrames (snapshot : Snapshot) :
    snapshot.interpreter.MetersFrames id :=
  ⟨fun _ _ => Nat.le_refl _, fun _ _ => Nat.le_refl _, fun _ _ => Nat.le_refl _⟩

/--
The first thread has three frames, the innermost a shim whose code unit cannot be read; the second
one runs in a circle.
-/
def shimAndCircle : Snapshot where
  threadState := fun thread =>
    if thread = 1 then .ok ⟨some 16, 7⟩
    else if thread = 2 then .ok ⟨some 64, 9⟩
    else .error (.unknownThread thread)
  frame := fun place =>
    if place = 16 then .ok ⟨320, 0, some 32, false, true⟩
    else if place = 32 then .ok ⟨160, 8, some 48, false, false⟩
    else if place = 48 then .ok ⟨160, 2, none, true, false⟩
    else if place = 64 then .ok ⟨160, 2, some 80, false, false⟩
    else if place = 80 then .ok ⟨160, 8, some 64, true, false⟩
    else .error ⟨place, 88, 14⟩
  code := fun place =>
    if place = 160 then .ok ⟨"work", some "App.work", "app.py", 3, [6, 2]⟩
    else .error ⟨place, 64, 14⟩

theorem shimAndCircle_circles : shimAndCircle.Circles (some 64) := by
  have named : ∃ unit, shimAndCircle.code 160 = .ok unit := ⟨_, rfl⟩
  have round : shimAndCircle.Trail (some 64)
      [(64, ⟨160, 2, some 80, false, false⟩), (80, ⟨160, 8, some 64, true, false⟩)] (some 64) :=
    .cons rfl (fun _ => named) (.cons rfl (fun _ => named) (.nil _))
  exact ⟨[], 64, _, .nil _, round, List.cons_ne_nil _ _⟩

end StackSampler
