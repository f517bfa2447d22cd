import StackSampler.Proofs.Attach.Exchange

/-!
# Injections and what is taken back

Whatever a controller does is taken down here, with the answer it gets, and beside it what lies at
the path of the channel.  All answers are those of arbitrary surroundings, except that only the
controller removes and makes what lies at the path.

`Course` says how a whole run may go.  Nothing is injected into a target that does not live, or when
the channel cannot be set up.  A first injection that succeeds is followed by exactly one more,
which detaches, if the target lives when the outcome is known.  The channel for a dump is made anew
before something is injected, and taken away when the run ends.

The main statement is `run_course`: every run that comes to its end, with either kind of target and
after any number of rounds, takes such a course.
-/

namespace StackSampler.Attach

/-! ## What a controller does -/

/-- A thing that a controller does, with the answer it gets. -/
inductive Deed where
  | looked (pid : Int) (alive : Bool)
  | injected (pid : Int) (bootstrap : Bootstrap) (result : Except String Unit)
  | removed (answer : RemoveAnswer)
  | made (result : Except String Unit)
  | permitted (result : Except String Unit)
  | opened (result : Except String Unit)
  | read (answer : ReadAnswer)
  /-- Looked at the clock. -/
  | timed (now : Nanoseconds)
  /-- Looked whether it shall stop. -/
  | asked (stop : Bool)

/-- What lies at the path of a channel. -/
inductive PathEntry where
  | nothing
  /-- Something from before, and why it cannot be removed, if it cannot. -/
  | stale (resistance : Option String)
  | pipe
deriving DecidableEq, Repr

/-- What comes of removing what lies at the path, and what lies there then. -/
def PathEntry.remove : PathEntry → RemoveAnswer × PathEntry
  | .nothing => (.absent, .nothing)
  | .stale (some cause) => (.failed cause, .stale (some cause))
  | .stale none | .pipe => (.removed, .nothing)

/-- What lies at an empty path after an attempt to make a pipe there. -/
def PathEntry.ofMaking : Except String Unit → PathEntry
  | .ok () => .pipe
  | .error _ => .nothing

/-- Whatever lies at the path can be removed. -/
def PathEntry.IsClearable (entry : PathEntry) : Prop :=
  ∀ cause, entry ≠ .stale (some cause)

/-- What lies at the path resists, or nothing lies there any more. -/
theorem PathEntry.remove_cases (entry : PathEntry) :
    (∃ cause, entry = .stale (some cause)) ∨
      entry.IsClearable ∧ (∀ cause, entry.remove.1 ≠ .failed cause) ∧
        entry.remove.2 = .nothing := by
  rcases entry with _ | ⟨_ | cause⟩ | _
  · exact .inr ⟨nofun, nofun, rfl⟩
  · exact .inr ⟨nofun, nofun, rfl⟩
  · exact .inl ⟨cause, rfl⟩
  · exact .inr ⟨nofun, nofun, rfl⟩

/-- Where a controller works: the world around it, the path of the channel, and what was done. -/
structure Site (σ : Type) where
  world : σ
  entry : PathEntry := .nothing
  deeds : List Deed := []

variable {σ α β : Type}

namespace Site

/-- Puts a question to the world, and takes down the answer. -/
def ask (question : StateM σ α) (deed : α → Deed) : StateM (Site σ) α := fun site =>
  let (answer, world) := question.run site.world
  (answer, { site with world := world, deeds := site.deeds ++ [deed answer] })

/-- Removes what lies at the path. -/
def remove : StateM (Site σ) RemoveAnswer := fun site =>
  (site.entry.remove.1,
    { site with
      entry := site.entry.remove.2
      deeds := site.deeds ++ [.removed site.entry.remove.1] })

/-- Makes a pipe at the path, if the world allows it and nothing lies there. -/
def make (question : StateM σ (Except String Unit)) : StateM (Site σ) (Except String Unit) :=
  fun site =>
    match site.entry with
    | .nothing =>
        let (result, site) := (ask question .made).run site
        (result, { site with entry := .ofMaking result })
    | _ => (ask (pure (.error "File exists (os error 17)")) .made).run site

/-- Lets the world go on, and takes nothing down. -/
def lift (work : StateM σ α) : StateM (Site σ) α := fun site =>
  let (answer, world) := work.run site.world
  (answer, { site with world := world })

end Site

/-- Surroundings with a path of which they leave the care to the controller. -/
def Surroundings.onSite (surroundings : Surroundings σ) : Surroundings (Site σ) where
  isAlive pid := Site.ask (surroundings.isAlive pid) (.looked pid)
  inject pid bootstrap configuration :=
    Site.ask (surroundings.inject pid bootstrap configuration) (.injected pid bootstrap)
  removeChannel _ := Site.remove
  makeChannel pid := Site.make (surroundings.makeChannel pid)
  permitChannel pid := Site.ask (surroundings.permitChannel pid) .permitted
  openChannel pid := Site.ask (surroundings.openChannel pid) .opened
  readChannel pid := Site.ask (surroundings.readChannel pid) .read
  now := Site.ask surroundings.now .timed
  stopRequested := Site.ask surroundings.stopRequested .asked
  pause := Site.lift surroundings.pause
  launch command extra := Site.lift (surroundings.launch command extra)

/-- A read of the channel may give nothing, but it does not fail. -/
def Surroundings.NeverFailsToRead (surroundings : Surroundings σ) : Prop :=
  ∀ pid world cause, ((surroundings.readChannel pid).run world).1 ≠ .failed cause

/-! ## How a run may go -/

/-- The clock is read only if there is a deadline, and shows that it has not come. -/
inductive IsEarly : Option Nanoseconds → List Deed → Prop where
  | unlimited : IsEarly none []
  | early {deadline now : Nanoseconds} (early : now < deadline) :
      IsEarly (some deadline) [.timed now]

/-- How one look whether the wait is over may go. -/
inductive Polled (pid : Int) : Option Nanoseconds → List Deed → Option Outcome → Prop where
  | gone (deadline : Option Nanoseconds) :
      Polled pid deadline [.looked pid false] (some .targetExited)
  | elapsed {deadline now : Nanoseconds} (late : deadline ≤ now) :
      Polled pid (some deadline) [.looked pid true, .timed now] (some .exposureElapsed)
  | stopped {deadline : Option Nanoseconds} {clock : List Deed} (early : IsEarly deadline clock) :
      Polled pid deadline (.looked pid true :: (clock ++ [.asked true])) (some .stopped)
  | goesOn {deadline : Option Nanoseconds} {clock : List Deed} (early : IsEarly deadline clock) :
      Polled pid deadline (.looked pid true :: (clock ++ [.asked false])) none

/-- How the wait for the end of an attachment may go. -/
inductive Watched (pid : Int) (deadline : Option Nanoseconds) : List Deed → Outcome → Prop where
  | decided {deeds : List Deed} {outcome : Outcome}
      (polled : Polled pid deadline deeds (some outcome)) : Watched pid deadline deeds outcome
  | again {first rest : List Deed} {outcome : Outcome} (polled : Polled pid deadline first none)
      (later : Watched pid deadline rest outcome) : Watched pid deadline (first ++ rest) outcome

/-- A read that brings nothing and does not end the wait. -/
inductive IsVain : List UInt8 → ReadAnswer → Prop where
  | unopened : IsVain [] .ended
  | wouldBlock (received : List UInt8) : IsVain received .wouldBlock
  | interrupted (received : List UInt8) : IsVain received .interrupted

/-- How the wait for a dump may go, of which some bytes have been received. -/
inductive Received (pid : Int) (deadline : Option Nanoseconds) :
    List UInt8 → List Deed → Outcome → Prop where
  | delivered {received : List UInt8} (begun : received ≠ []) :
      Received pid deadline received [.read .ended] (.delivered (Text.ofUtf8Lenient received))
  | data {received bytes : List UInt8} {rest : List Deed} {outcome : Outcome}
      (later : Received pid deadline (received ++ bytes) rest outcome) :
      Received pid deadline received (.read (.data bytes) :: rest) outcome
  | decided {received : List UInt8} {answer : ReadAnswer} {deeds : List Deed} {outcome : Outcome}
      (vain : IsVain received answer) (polled : Polled pid deadline deeds (some outcome)) :
      Received pid deadline received (.read answer :: deeds) outcome
  | again {received : List UInt8} {answer : ReadAnswer} {first rest : List Deed} {outcome : Outcome}
      (vain : IsVain received answer) (polled : Polled pid deadline first none)
      (later : Received pid deadline received rest outcome) :
      Received pid deadline received (.read answer :: (first ++ rest)) outcome

/-- How the wait may go after something has been injected that starts a session, or a dump. -/
def Waited (pid : Int) (deadline : Option Nanoseconds) : Bootstrap → List Deed → Outcome → Prop
  | .attach, deeds, outcome => Watched pid deadline deeds outcome
  | .where, deeds, outcome => Received pid deadline [] deeds outcome
  | .detach, _, _ => False

/-- What is injected, in order. -/
def injections (deeds : List Deed) : List (Int × Bootstrap) :=
  deeds.filterMap fun
    | .injected pid bootstrap _ => some (pid, bootstrap)
    | _ => none

/--
How a run may go from its first injection on.  Once the outcome is known it looks at the target
again, and detaches if that lives; what comes of that does not matter.
-/
inductive Profiled (pid : Int) (first : Bootstrap) (exposure : Option UInt64) :
    List Deed → Controller.Ending → Prop where
  | refused (reason : String) :
      Profiled pid first exposure [.injected pid first (.error reason)]
        (.error (.injection pid reason))
  | left {now : Nanoseconds} {wait : List Deed} {outcome : Outcome}
      (waited : Waited pid (exposure.map fun seconds => now + seconds.toNat * 1000000000) first wait
        outcome)
      (silent : injections wait = []) :
      Profiled pid first exposure
        (.injected pid first (.ok ()) :: .timed now :: (wait ++ [.looked pid false])) (.ok outcome)
  | detached {now : Nanoseconds} {wait : List Deed} {outcome : Outcome}
      (waited : Waited pid (exposure.map fun seconds => now + seconds.toNat * 1000000000) first wait
        outcome)
      (silent : injections wait = []) (result : Except String Unit) :
      Profiled pid first exposure
        (.injected pid first (.ok ()) :: .timed now ::
          (wait ++ [.looked pid true, .injected pid .detach result]))
        (.ok outcome)

/-- How it may fail to set up a channel at a path where nothing lies any more. -/
inductive FailsToSetUp (cause : String) : List Deed → Prop where
  | making : FailsToSetUp cause [.made (.error cause)]
  | permitting : FailsToSetUp cause [.made (.ok ()), .permitted (.error cause), .removed .removed]
  | opening :
      FailsToSetUp cause
        [.made (.ok ()), .permitted (.ok ()), .opened (.error cause), .removed .removed]

/-- How the channel may be set up, and what lies at its path before and after that. -/
inductive SetUp : PathEntry → Except String Unit → List Deed → PathEntry → Prop where
  /-- What lies at the path cannot be removed. -/
  | blocked (cause : String) :
      SetUp (.stale (some cause)) (.error cause) [.removed (.failed cause)] (.stale (some cause))
  | failed {entry : PathEntry} {cause : String} {deeds : List Deed} (clearable : entry.IsClearable)
      (fails : FailsToSetUp cause deeds) :
      SetUp entry (.error cause) (.removed entry.remove.1 :: deeds) .nothing
  | stands {entry : PathEntry} (clearable : entry.IsClearable) :
      SetUp entry (.ok ())
        [.removed entry.remove.1, .made (.ok ()), .permitted (.ok ()), .opened (.ok ())] .pipe

/--
How a whole run may go that injects `first` at the beginning, with what lies at the path of the
channel before and after the run.
-/
inductive Course (pid : Int) (exposure : Option UInt64) :
    Bootstrap → PathEntry → List Deed → Controller.Ending → PathEntry → Prop where
  /-- The target does not live, and nothing else is done. -/
  | gone (first : Bootstrap) (entry : PathEntry) :
      Course pid exposure first entry [.looked pid false] (.error (.targetExited pid)) entry
  | attached {deeds : List Deed} {ending : Controller.Ending} (entry : PathEntry)
      (profiled : Profiled pid .attach exposure deeds ending) :
      Course pid exposure .attach entry (.looked pid true :: deeds) ending entry
  | unready {entry after : PathEntry} {cause : String} {deeds : List Deed}
      (setUp : SetUp entry (.error cause) deeds after) :
      Course pid exposure .where entry (.looked pid true :: deeds)
        (.error (.resource "where channel" cause)) after
  | fetched {entry : PathEntry} {ready deeds : List Deed} {ending : Controller.Ending}
      (setUp : SetUp entry (.ok ()) ready .pipe)
      (profiled : Profiled pid .where exposure deeds ending) :
      Course pid exposure .where entry
        (.looked pid true :: (ready ++ (deeds ++ [.removed .removed]))) ending .nothing

/-- The program that a run is about, and what it injects there first. -/
def order? : Target → Option (Int × Bootstrap)
  | .attach pid => some (pid.toInt, .attach)
  | .where pid => some (pid.toInt, .where)
  | .current | .launch _ => none

/-- What lies at the path after a dump was asked for. -/
theorem Course.path {pid : Int} {exposure : Option UInt64} {entry after : PathEntry}
    {deeds : List Deed} {ending : Controller.Ending}
    (course : Course pid exposure .where entry deeds ending after) :
    after = .nothing ∨ (∃ cause, entry = .stale (some cause) ∧ after = entry) ∨
      (deeds = [.looked pid false] ∧ after = entry) := by
  cases course with
  | gone => exact .inr (.inr ⟨rfl, rfl⟩)
  | unready setUp =>
      cases setUp with
      | blocked => exact .inr (.inl ⟨_, rfl, rfl⟩)
      | failed => exact .inl rfl
  | fetched => exact .inl rfl

/-! ## Following what is done -/

/--
Work that begins with some entry at the path, and whose answer, deeds and entry at the end are of a
kind.
-/
def Does (work : StateM (Site σ) α) (entry : PathEntry)
    (kind : α → List Deed → PathEntry → Prop) : Prop :=
  ∀ site, site.entry = entry → ∃ deeds, (work.run site).2.deeds = site.deeds ++ deeds ∧
    kind (work.run site).1 deeds (work.run site).2.entry

section Rules

variable {work : StateM (Site σ) α} {next : α → StateM (Site σ) β} {entry : PathEntry}
  {kind middle : α → List Deed → PathEntry → Prop} {other : β → List Deed → PathEntry → Prop}

theorem does_pure {answer : α} (fits : kind answer [] entry) :
    Does (pure answer : StateM (Site σ) α) entry kind := by
  rintro site rfl
  exact ⟨[], (List.append_nil _).symm, fits⟩

theorem Does.imp (does : Does work entry middle)
    (weakens : ∀ answer deeds after, middle answer deeds after → kind answer deeds after) :
    Does work entry kind := by
  intro site here
  rcases does site here with ⟨deeds, noted, fits⟩
  exact ⟨deeds, noted, weakens _ _ _ fits⟩

theorem Does.bind (does : Does work entry middle)
    (later : ∀ answer deeds after, middle answer deeds after →
      Does (next answer) after fun last more => other last (deeds ++ more)) :
    Does (work >>= next) entry other := by
  intro site here
  rcases does site here with ⟨deeds, noted, fits⟩
  rcases later _ deeds _ fits (work.run site).2 rfl with ⟨more, notedMore, fitsMore⟩
  refine ⟨deeds ++ more, ?_, fitsMore⟩
  rw [← List.append_assoc, ← noted]
  exact notedMore

end Rules

section Questions

variable {entry : PathEntry}

/-- What is asked is taken down, and leaves the path alone. -/
theorem does_ask (question : StateM σ α) (deed : α → Deed) :
    Does (Site.ask question deed) entry fun answer deeds after =>
      (∃ world, (question.run world).1 = answer) ∧ deeds = [deed answer] ∧ after = entry := by
  rintro site rfl
  exact ⟨_, rfl, ⟨site.world, rfl⟩, rfl, rfl⟩

theorem does_lift (work : StateM σ α) :
    Does (Site.lift work) entry fun _ deeds after => deeds = [] ∧ after = entry := by
  rintro site rfl
  exact ⟨[], (List.append_nil _).symm, rfl, rfl⟩

theorem does_remove :
    Does (Site.remove : StateM (Site σ) RemoveAnswer) entry fun answer deeds after =>
      answer = entry.remove.1 ∧ deeds = [.removed answer] ∧ after = entry.remove.2 := by
  rintro site rfl
  exact ⟨_, rfl, rfl, rfl, rfl⟩

/-- Where nothing lies, a pipe is made, unless the world does not allow it. -/
theorem does_make (question : StateM σ (Except String Unit)) :
    Does (Site.make question) .nothing fun result deeds after =>
      deeds = [.made result] ∧ after = .ofMaking result := by
  rintro ⟨world, entry, deeds⟩ rfl
  exact ⟨_, rfl, rfl, rfl⟩

end Questions

/-! ## Nothing is injected while the controller waits -/

@[simp]
theorem injections_append (first second : List Deed) :
    injections (first ++ second) = injections first ++ injections second :=
  List.filterMap_append

section Silence

variable {pid : Int} {deadline : Option Nanoseconds} {deeds : List Deed} {outcome : Outcome}

theorem Polled.silent {answer : Option Outcome} (polled : Polled pid deadline deeds answer) :
    injections deeds = [] := by
  cases polled with
  | gone | elapsed => rfl
  | stopped early => cases early <;> rfl
  | goesOn early => cases early <;> rfl

theorem Watched.silent (watched : Watched pid deadline deeds outcome) : injections deeds = [] := by
  induction watched with
  | decided polled => exact polled.silent
  | again polled _ induction => rw [injections_append, polled.silent, induction, List.append_nil]

theorem Received.silent {received : List UInt8}
    (wait : Received pid deadline received deeds outcome) : injections deeds = [] := by
  induction wait with
  | delivered => rfl
  | data _ induction => exact induction
  | decided _ polled => exact polled.silent
  | again _ polled _ induction =>
      exact (injections_append ..).trans (by rw [polled.silent, induction, List.append_nil])

end Silence

/-! ## The course of a run -/

namespace Controller

variable {surroundings : Surroundings σ} {configuration : Configuration} {pid : Int}
  {deadline : Option Nanoseconds} {entry : PathEntry}

theorem isOver_does :
    Does (isOver surroundings.onSite deadline) entry fun elapsed deeds after =>
      after = entry ∧ if elapsed then ∃ moment now, deadline = some moment ∧ moment ≤ now ∧
        deeds = [.timed now] else IsEarly deadline deeds := by
  cases deadline with
  | none => exact does_pure ⟨rfl, .unlimited⟩
  | some moment =>
      refine (does_ask surroundings.now .timed).bind ?_
      rintro now _ _ ⟨-, rfl, rfl⟩
      refine does_pure ⟨rfl, ?_⟩
      by_cases late : moment ≤ now
      · simp [late]
      · simpa [late] using IsEarly.early (Nat.lt_of_not_le late)

theorem poll_does :
    Does (poll surroundings.onSite pid deadline) entry fun outcome deeds after =>
      after = entry ∧ Polled pid deadline deeds outcome := by
  refine (does_ask (surroundings.isAlive pid) (.looked pid)).bind ?_
  rintro alive _ _ ⟨-, rfl, rfl⟩
  cases alive with
  | false => exact does_pure ⟨rfl, .gone deadline⟩
  | true =>
      refine isOver_does.bind ?_
      rintro elapsed clock _ ⟨rfl, timed⟩
      cases elapsed with
      | true =>
          rcases timed with ⟨moment, now, rfl, late, rfl⟩
          exact does_pure ⟨rfl, .elapsed late⟩
      | false =>
          refine (does_ask surroundings.stopRequested .asked).bind ?_
          rintro stop _ _ ⟨-, rfl, rfl⟩
          cases stop with
          | true => exact does_pure ⟨rfl, by simpa using .stopped timed⟩
          | false =>
              refine (does_lift surroundings.pause).bind ?_
              rintro _ _ _ ⟨rfl, rfl⟩
              exact does_pure ⟨rfl, by simpa using .goesOn timed⟩

theorem await_does (rounds : Nat) :
    Does (await surroundings.onSite pid deadline rounds) entry fun answer deeds after =>
      after = entry ∧ ∀ outcome, answer = some outcome → Watched pid deadline deeds outcome := by
  induction rounds with
  | zero => exact does_pure ⟨rfl, nofun⟩
  | succ rounds induction =>
      refine poll_does.bind ?_
      rintro decision first _ ⟨rfl, polled⟩
      cases decision with
      | some decided =>
          refine does_pure ⟨rfl, fun outcome same => ?_⟩
          cases same
          exact (List.append_nil first).symm ▸ .decided polled
      | none =>
          refine induction.imp ?_
          rintro answer rest after ⟨same, watched⟩
          exact ⟨same, fun outcome found => .again polled (watched outcome found)⟩

/-- If a wait for a dump comes to its end, then in one of the ways in which it may go. -/
def Receives (pid : Int) (deadline : Option Nanoseconds) (received : List UInt8)
    (answer : Option Ending) (deeds : List Deed) : Prop :=
  ∀ ending, answer = some ending →
    ∃ outcome, ending = .ok outcome ∧ Received pid deadline received deeds outcome

/-- A read in vain is followed by a poll, whichever kind it is of. -/
theorem poll_after_read {received : List UInt8} {answer : ReadAnswer}
    {next : Option Outcome → StateM (Site σ) (Option Ending)} (vain : IsVain received answer)
    (ends : ∀ outcome, next (some outcome) = pure (some (.ok outcome)))
    (goesOn : Does (next none) entry fun last rest after =>
      after = entry ∧ Receives pid deadline received last rest) :
    Does (poll surroundings.onSite pid deadline >>= next) entry fun last more after =>
      after = entry ∧ Receives pid deadline received last ([.read answer] ++ more) := by
  refine poll_does.bind ?_
  rintro decision first _ ⟨rfl, polled⟩
  cases decision with
  | some decided =>
      rw [ends]
      refine does_pure ⟨rfl, fun last same => ?_⟩
      cases same
      exact ⟨decided, rfl, (List.append_nil first).symm ▸ .decided vain polled⟩
  | none =>
      refine goesOn.imp ?_
      rintro ending rest after ⟨same, later⟩
      refine ⟨same, fun last found => ?_⟩
      rcases later last found with ⟨outcome, rfl, wait⟩
      have again : Received pid deadline received (.read answer :: (first ++ rest)) outcome :=
        .again vain polled wait
      exact ⟨outcome, rfl, again⟩

theorem receive_does (readable : surroundings.NeverFailsToRead) (received : List UInt8)
    (rounds : Nat) :
    Does (receive surroundings.onSite pid deadline received rounds) entry fun answer deeds after =>
      after = entry ∧ Receives pid deadline received answer deeds := by
  induction rounds generalizing received with
  | zero => exact does_pure ⟨rfl, nofun⟩
  | succ rounds induction =>
      refine (does_ask (surroundings.readChannel pid) .read).bind ?_
      rintro answer _ _ ⟨⟨world, read⟩, rfl, rfl⟩
      cases answer with
      | data bytes =>
          refine (induction (received ++ bytes)).imp ?_
          rintro ending rest after ⟨same, later⟩
          refine ⟨same, fun last found => ?_⟩
          rcases later last found with ⟨outcome, rfl, wait⟩
          exact ⟨outcome, rfl, .data wait⟩
      | failed cause => exact absurd read (readable pid world cause)
      | wouldBlock =>
          exact poll_after_read (.wouldBlock received) (fun _ => rfl) (induction received)
      | interrupted =>
          exact poll_after_read (.interrupted received) (fun _ => rfl) (induction received)
      | ended =>
          cases received with
          | nil => exact poll_after_read .unopened (fun _ => rfl) (induction [])
          | cons byte rest =>
              refine does_pure ⟨rfl, fun last same => ?_⟩
              cases same
              exact ⟨_, rfl, .delivered (List.cons_ne_nil byte rest)⟩

theorem inject_does (bootstrap : Bootstrap) :
    Does (inject surroundings.onSite configuration pid bootstrap) entry
      fun answer deeds after => after = entry ∧ ∃ result, deeds = [.injected pid bootstrap result] ∧
        answer = result.mapError (.injection pid) := by
  refine (does_ask (surroundings.inject pid bootstrap configuration)
    (.injected pid bootstrap)).bind ?_
  rintro result _ _ ⟨-, rfl, rfl⟩
  cases result with
  | ok => exact does_pure ⟨rfl, _, rfl, rfl⟩
  | error reason => exact does_pure ⟨rfl, _, rfl, rfl⟩

theorem detach_does :
    Does (detach surroundings.onSite configuration pid) entry fun _ deeds after => after = entry ∧
      (deeds = [.looked pid false] ∨
        ∃ result, deeds = [.looked pid true, .injected pid .detach result]) := by
  refine (does_ask (surroundings.isAlive pid) (.looked pid)).bind ?_
  rintro alive _ _ ⟨-, rfl, rfl⟩
  cases alive with
  | false => exact does_pure ⟨rfl, .inl rfl⟩
  | true =>
      refine (does_ask (surroundings.inject pid .detach configuration)
        (.injected pid .detach)).bind ?_
      rintro result _ _ ⟨-, rfl, rfl⟩
      exact does_pure ⟨rfl, .inr ⟨result, rfl⟩⟩

theorem deadline_does :
    Does (Controller.deadline surroundings.onSite configuration) entry fun answer deeds after =>
      after = entry ∧ ∃ now, deeds = [.timed now] ∧
        answer = configuration.exposure.map fun seconds => now + seconds.toNat * 1000000000 := by
  refine (does_ask surroundings.now .timed).bind ?_
  rintro now _ _ ⟨-, rfl, rfl⟩
  exact does_pure ⟨rfl, now, rfl, rfl⟩

/-- What is done once the outcome is known completes what was done before. -/
theorem profiled_of_detach {first : Bootstrap} {now : Nanoseconds} {wait last : List Deed}
    {outcome : Outcome}
    (waited : Waited pid
      (configuration.exposure.map fun seconds => now + seconds.toNat * 1000000000) first wait outcome)
    (silent : injections wait = [])
    (detached : last = [.looked pid false] ∨
      ∃ result, last = [.looked pid true, .injected pid .detach result]) :
    Profiled pid first configuration.exposure
      (.injected pid first (.ok ()) :: .timed now :: (wait ++ last)) (.ok outcome) := by
  rcases detached with rfl | ⟨result, rfl⟩
  · exact .left waited silent
  · exact .detached waited silent result

theorem attach_does (rounds : Nat) :
    Does (attach surroundings.onSite configuration rounds pid) entry fun answer deeds after =>
      ∀ ending, answer = some ending →
        Course pid configuration.exposure .attach entry deeds ending after := by
  refine (does_ask (surroundings.isAlive pid) (.looked pid)).bind ?_
  rintro alive _ _ ⟨-, rfl, rfl⟩
  cases alive with
  | false => exact does_pure fun ending same => by cases same; exact .gone .attach _
  | true =>
      refine (inject_does .attach).bind ?_
      rintro _ _ _ ⟨rfl, result, rfl, rfl⟩
      cases result with
      | error reason =>
          exact does_pure fun ending same => by cases same; exact .attached _ (.refused reason)
      | ok =>
          refine deadline_does.bind ?_
          rintro _ _ _ ⟨rfl, now, rfl, rfl⟩
          refine (await_does rounds).bind ?_
          rintro answer wait _ ⟨rfl, watched⟩
          cases answer with
          | none => exact does_pure nofun
          | some outcome =>
              refine detach_does.bind ?_
              rintro _ last _ ⟨rfl, detached⟩
              refine does_pure fun ending same => ?_
              cases same
              have watched := watched outcome rfl
              have waited : Waited pid _ .attach wait outcome := watched
              simpa using .attached _ (profiled_of_detach waited watched.silent detached)

theorem createChannel_does :
    Does (createChannel surroundings.onSite pid) entry (SetUp entry) := by
  refine does_remove.bind ?_
  rintro _ _ _ ⟨rfl, rfl, rfl⟩
  rcases entry.remove_cases with ⟨cause, rfl⟩ | ⟨clearable, unfailed, cleared⟩
  · exact does_pure (.blocked cause)
  rw [cleared]
  split
  case h_1 cause failed => exact absurd failed (unfailed cause)
  refine (does_make (surroundings.makeChannel pid)).bind ?_
  rintro result _ _ ⟨rfl, rfl⟩
  cases result with
  | error cause => exact does_pure (.failed clearable .making)
  | ok =>
      -- A pipe that was made is removed again if it turns out not to be usable.
      have give_up {cause : String} (done : List Deed)
          (fails : FailsToSetUp cause (.made (.ok ()) :: (done ++ [.removed .removed]))) :
          Does
            (surroundings.onSite.removeChannel pid >>= fun _ => pure (.error cause))
            PathEntry.pipe fun answer deeds after =>
              SetUp entry answer
                ([.removed entry.remove.1] ++ ([.made (.ok ())] ++ (done ++ deeds))) after := by
        refine does_remove.bind ?_
        rintro _ _ _ ⟨rfl, rfl, rfl⟩
        exact does_pure (.failed clearable fails)
      refine (does_ask (surroundings.permitChannel pid) .permitted).bind ?_
      rintro permission _ _ ⟨-, rfl, rfl⟩
      cases permission with
      | error cause => exact give_up [_] .permitting
      | ok =>
          refine (does_ask (surroundings.openChannel pid) .opened).bind ?_
          rintro opening _ _ ⟨-, rfl, rfl⟩
          cases opening with
          | error cause => exact give_up [_, _] .opening
          | ok => exact does_pure (.stands clearable)

theorem fetch_does (readable : surroundings.NeverFailsToRead) (rounds : Nat) :
    Does (fetch surroundings.onSite configuration rounds pid) entry fun answer deeds after =>
      after = entry ∧ ∀ ending, answer = some ending →
        Profiled pid .where configuration.exposure deeds ending := by
  refine (inject_does .where).bind ?_
  rintro _ _ _ ⟨rfl, result, rfl, rfl⟩
  cases result with
  | error reason =>
      exact does_pure ⟨rfl, fun ending same => by cases same; exact .refused reason⟩
  | ok =>
      refine deadline_does.bind ?_
      rintro _ _ _ ⟨rfl, now, rfl, rfl⟩
      refine (receive_does readable [] rounds).bind ?_
      rintro answer wait _ ⟨rfl, received⟩
      rcases answer with _ | ending
      · exact does_pure ⟨rfl, nofun⟩
      rcases received ending rfl with ⟨outcome, rfl, wait_ends⟩
      refine detach_does.bind ?_
      rintro _ last _ ⟨rfl, detached⟩
      refine does_pure ⟨rfl, fun ending same => ?_⟩
      cases same
      have waited : Waited pid _ .where wait outcome := wait_ends
      simpa using profiled_of_detach waited wait_ends.silent detached

theorem dump_does (readable : surroundings.NeverFailsToRead) (rounds : Nat) :
    Does (dump surroundings.onSite configuration rounds pid) entry fun answer deeds after =>
      ∀ ending, answer = some ending →
        Course pid configuration.exposure .where entry deeds ending after := by
  refine (does_ask (surroundings.isAlive pid) (.looked pid)).bind ?_
  rintro alive _ _ ⟨-, rfl, rfl⟩
  cases alive with
  | false => exact does_pure fun ending same => by cases same; exact .gone .where _
  | true =>
      refine createChannel_does.bind ?_
      rintro result ready after setUp
      cases result with
      | error cause =>
          refine does_pure fun ending same => ?_
          cases same
          simpa using .unready setUp
      | ok =>
          have stands : after = .pipe := by cases setUp; rfl
          subst stands
          refine (fetch_does readable rounds).bind ?_
          rintro answer deeds _ ⟨rfl, profiled⟩
          refine does_remove.bind ?_
          rintro _ _ _ ⟨rfl, rfl, rfl⟩
          refine does_pure fun ending same => ?_
          cases same
          simpa using .fetched setUp (profiled ending rfl)

/--
Every run that comes to its end takes a course.  After a dump was asked for nothing lies at the path
of the channel, unless what lay there cannot be removed, or the target did not live at the beginning
and the path was left as it was.
-/
theorem run_course {site : Site σ} {rounds : Nat} {first : Bootstrap} {ending : Ending}
    (readable : surroundings.NeverFailsToRead) (valid : configuration.defect? = none)
    (ordered : order? configuration.target = some (pid, first))
    (ended : ((run surroundings.onSite configuration rounds).run site).1 = some ending) :
    let last := ((run surroundings.onSite configuration rounds).run site).2
    ∃ deeds, last.deeds = site.deeds ++ deeds ∧
      Course pid configuration.exposure first site.entry deeds ending last.entry ∧
      (first = .where → last.entry = .nothing ∨
        (∃ cause, site.entry = .stale (some cause) ∧ last.entry = site.entry) ∨
        (deeds = [.looked pid false] ∧ last.entry = site.entry)) := by
  have takes : Does (run surroundings.onSite configuration rounds) site.entry
      fun answer deeds after => ∀ ending, answer = some ending →
        Course pid configuration.exposure first site.entry deeds ending after := by
    rw [run, valid]
    generalize configuration.target = target at ordered
    cases target with
    | current | launch => cases ordered
    | attach number =>
        cases ordered
        exact attach_does rounds
    | «where» number =>
        cases ordered
        exact dump_does readable rounds
  rcases takes site rfl with ⟨deeds, noted, course⟩
  have course := course ending ended
  refine ⟨deeds, noted, course, ?_⟩
  rintro rfl
  exact course.path

/-- A target that hands over a short dump, lives on, and does not let itself be detached from. -/
def lingering : Exchange where
  plan := [{}, { moves := [.opens, .writes (Text.utf8 "Process 7")] }, {}, { moves := [.closes] }]
  detaching := .error "busy"

theorem Exchange.surroundings_neverFailsToRead : Exchange.surroundings.NeverFailsToRead := by
  intro _ exchange cause
  change exchange.read.1 ≠ .failed cause
  rw [Exchange.read]
  split
  · simp
  · split
    · split <;> simp
    · simp

/-- A run that fetches a dump where an old file lies takes its course, and clears the path. -/
theorem run_course_lingering :
    ∃ ran, (run Exchange.surroundings.onSite { target := .where 7 } 100).run
        { world := lingering, entry := .stale none } = ran ∧
      ran.1 = some (.ok (.delivered "Process 7")) ∧ ran.2.entry = .nothing ∧
      Course 7 none .where (.stale none) ran.2.deeds (.ok (.delivered "Process 7")) .nothing := by
  have delivered :
      ((run Exchange.surroundings.onSite { target := .where 7 } 100).run
        { world := lingering, entry := .stale none }).1 =
          some (.ok (.delivered "Process 7")) := by decide +kernel
  have cleared :
      ((run Exchange.surroundings.onSite { target := .where 7 } 100).run
        { world := lingering, entry := .stale none }).2.entry = .nothing := by decide +kernel
  have taken := run_course Exchange.surroundings_neverFailsToRead (by decide) rfl delivered
  -- From here on the run must not be computed.
  generalize (run Exchange.surroundings.onSite { target := .where 7 } 100).run
    { world := lingering, entry := .stale none } = ran at delivered cleared taken
  rcases taken with ⟨deeds, noted, course, -⟩
  rw [cleared] at course
  rw [List.nil_append] at noted
  exact ⟨ran, rfl, delivered, cleared, noted ▸ course⟩

/-- Not every run that is asked for a dump clears the path, even where nothing resists. -/
theorem not_run_clears_path :
    ¬ ∀ (surroundings : Surroundings Exchange) (configuration : Configuration) (pid : Int32)
        (site : Site Exchange) (rounds : Nat) (ending : Ending),
      surroundings.NeverFailsToRead → configuration.defect? = none →
      configuration.target = .where pid → (∀ cause, site.entry ≠ .stale (some cause)) →
      ((run surroundings.onSite configuration rounds).run site).1 = some ending →
      ((run surroundings.onSite configuration rounds).run site).2.entry = .nothing := by
  intro clears
  cases clears Exchange.surroundings { target := .where 7 } 7
    { world := { plan := [], isAlive := false }, entry := .stale none } 1 (.error (.targetExited 7))
    Exchange.surroundings_neverFailsToRead (by decide) rfl nofun rfl

end Controller

end StackSampler.Attach
