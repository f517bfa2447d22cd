import Mathlib.Tactic.IntervalCases
import StackSampler.Proofs.Subject.Fidelity
import StackSampler.Proofs.Subject.Heads

/-!
# Walks without a counter

A build of the interpreter that does not count the changes of its frame chains gets a stand-in for
the counter, made of the address and the instruction of the innermost frame.  Unlike a counter, the
stand-in may come back: frames are popped and pushed again at the same addresses.

The main statement is `Timeline.walk_ok_traces`.  A walk that succeeds shows the chain that the
thread had at an instant of the walk, if the chain stood still whenever the stand-in was the same at
two instants, which is `Timeline.Renews`.  Otherwise it may show a chain that never was.
-/

namespace StackSampler

/-- Some frames are what a walk may show of the chain that a thread has. -/
def Moment.Traces (moment : Moment) (thread : ThreadId)
    (right : Address → UInt32 → Frame → Prop) (frames : List WalkedFrame) : Prop :=
  ∃ state links, moment.threads thread = some state ∧ moment.Chain state.top links ∧
    Shown right links frames

namespace Moment

/-- The chain from one frame on, if it ends within so many frames and all of them can be read. -/
def links (moment : Moment) : Nat → Option Address → Option (List Link)
  | _, none => some []
  | 0, some _ => none
  | room + 1, some place =>
      match moment.frames place with
      | .ok raw => (moment.links room raw.previous).map ((place, raw) :: ·)
      | .error _ => none

theorem Chain.eq_links {moment : Moment} {from? : Option Address} {links found : List Link}
    (chain : moment.Chain from? links) {room : Nat}
    (computed : moment.links room from? = some found) : links = found := by
  induction chain generalizing room found with
  | nil => cases room <;> exact Option.some.inj computed
  | @cons place raw callers held _ induction =>
      cases room with
      | zero => cases computed
      | succ room =>
          rw [Moment.links, held] at computed
          rcases Option.map_eq_some_iff.mp computed with ⟨others, rest, rfl⟩
          rw [induction rest]

/-- The chain of a thread, if it ends within so many frames and all of them can be read. -/
def linksOf (moment : Moment) (thread : ThreadId) (room : Nat) : Option (List Link) :=
  (moment.threads thread).bind fun state => moment.links room state.top

theorem Traces.shown {moment : Moment} {thread : ThreadId}
    {right : Address → UInt32 → Frame → Prop} {frames : List WalkedFrame}
    (traces : moment.Traces thread right frames) {room : Nat} {found : List Link}
    (computed : moment.linksOf thread room = some found) : Shown right found frames := by
  rcases traces with ⟨state, links, known, chain, shown⟩
  rw [linksOf, known] at computed
  rwa [← chain.eq_links computed]

end Moment

namespace Timeline

section

variable (timeline : Timeline) (layout : Layout) (origin seat : Address)

/-- What the interpreter is at an instant. -/
def moment (time : Nat) : Moment :=
  (timeline.contents time).moment layout origin

/-- A frame is at an instant the innermost one of the thread in a seat. -/
def Innermost (time : Nat) (place : Address) : Prop :=
  (timeline.contents time).wordIn seat layout.thread.frame = .ok place

/-- A frame has at an instant a given instruction. -/
def Executes (time : Nat) (place : Address) (instruction : UInt64) : Prop :=
  (timeline.contents time).told ((Structures.still layout origin).rawInstruction place) =
    .ok instruction

/--
What two heads with one stand-in say: a frame is the innermost one, has an instruction, is the
innermost one, and has the same instruction, each at an instant of its own.
-/
structure Recurs (place : Address) (top early again late : Nat) : Prop where
  before : top ≤ early
  between : early ≤ again
  after : again ≤ late
  innermost : timeline.Innermost layout seat top place
  innermostAgain : timeline.Innermost layout seat again place
  executes : ∃ instruction, timeline.Executes layout origin early place instruction ∧
    timeline.Executes layout origin late place instruction

/-- Whenever the stand-in of a thread is the same again, the chain stood still in between. -/
def Renews (first last : Nat) : Prop :=
  ∀ place top early again late, first ≤ top → late ≤ last →
    timeline.Recurs layout origin seat place top early again late →
    ∀ time, early ≤ time → time ≤ late →
      (timeline.moment layout origin early).Agrees (timeline.moment layout origin time) (some place)

/--
The frames of code units that a walker may show in a walk: those that it remembers and those of code
units that it reads.
-/
def resolved (walker : Walker) (first : Nat) : Naming :=
  fun last code offset frame => ((code, offset), frame) ∈ walker.cache.entries ∨
    ∃ began ended unit, first ≤ began ∧ ended ≤ last ∧
      Answers ((timeline.structures layout origin).code code) began ended unit ∧
      frame = Walking.frameOf walker.format unit offset

theorem resolved_mono (walker : Walker) (first : Nat) :
    Monotone (timeline.resolved layout origin walker first) := by
  rintro last later order code offset frame (remembered | ⟨began, ended, unit, since, upTo, read⟩)
  · exact .inl remembered
  · exact .inr ⟨began, ended, unit, since, upTo.trans order, read⟩

theorem tells_resolved (walker : Walker) (first : Nat) :
    Walking.Tells (timeline.structures layout origin).interpreter first
      (timeline.resolved layout origin walker first) walker.format :=
  fun _ began ended unit since answers _ =>
    .inr ⟨began, ended, unit, since, Nat.le_refl _, answers_settled_iff.mp answers, rfl⟩

end

variable {timeline : Timeline} {layout : Layout} {origin : Address}

/-- What is followed while a chain stands still is that chain. -/
theorem chain_of_followed {moment : Moment} {first last : Nat} {from? : Option Address}
    {links : List Link}
    (followed : Followed (timeline.structures layout origin).interpreter first last from? links)
    (still : ∀ count, first ≤ count → count < last →
      moment.Agrees (timeline.moment layout origin (timeline.instant count)) from?) :
    moment.Chain from? links := by
  have counted := structures_counted timeline layout origin
  induction followed with
  | nil => exact .nil
  | @cons first began ended last place raw callers order read behind induction =>
      have further := behind.le counted
      have held : moment.frames place = .ok raw := by
        refine frame_of_answers (answers_settled_iff.mp read) fun count after before => ?_
        exact still count (order.trans after) (before.trans_le further) place .here
      refine .cons held (induction fun count after before => ?_)
      have spent : began ≤ ended := read.le (counted.frame place)
      exact (still count (order.trans (spent.trans after)) before).behind held

/-- The head of a thread at an instant at which its innermost frame can be read. -/
theorem threads_of_innermost (uncounted : layout.thread.generation = none) {thread : ThreadId}
    {seat place : Address} {time : Nat}
    (seated : Storing.Gives ((Structures.still layout origin).seat? thread) (timeline.contents time)
      (some seat))
    (innermost : timeline.Innermost layout seat time place)
    (readable : place ≠ 0 → ∃ instruction, timeline.Executes layout origin time place instruction) :
    ∃ state, (timeline.moment layout origin time).threads thread = some state ∧
      state.top = Structures.present place := by
  have isTop := (glimpse_word (.frozen []) seat layout.thread.frame).gives innermost
  have generated : ∃ generation, Storing.Gives
      ((Structures.still layout origin).generation seat place) (timeline.contents time)
      generation := by
    unfold Structures.generation Structures.still
    dsimp only
    rw [uncounted]
    by_cases null : place = 0
    · rw [if_pos null]
      exact ⟨0, rfl⟩
    · rw [if_neg null]
      rcases readable null with ⟨instruction, executes⟩
      have held := (glimpse_rawInstruction (.frozen []) layout origin place).gives executes
      exact ⟨_, held.bind (Storing.gives_pure _)⟩
  rcases generated with ⟨generation, generated⟩
  have headed : Storing.Gives ((Structures.still layout origin).head seat) (timeline.contents time)
      ⟨Structures.present place, generation⟩ := isTop.bind (generated.bind (Storing.gives_pure _))
  refine ⟨⟨Structures.present place, generation⟩, ?_, rfl⟩
  have told : (timeline.contents time).told
      ((Structures.still layout origin).threadState thread) = .ok _ :=
    congrArg Prod.fst (gives_threadState seated headed)
  show Except.toOption _ = _
  rw [told]
  rfl

/-- A chain that stands still is the thread's chain when its innermost frame is seen again. -/
theorem traces_of_chain (uncounted : layout.thread.generation = none) {thread : ThreadId}
    {seat place : Address} {early again : Nat} {links : List Link}
    (seated : Storing.Gives ((Structures.still layout origin).seat? thread)
      (timeline.contents again) (some seat))
    (innermost : timeline.Innermost layout seat again place)
    (chain : (timeline.moment layout origin early).Chain (Structures.present place) links)
    (still : (timeline.moment layout origin early).Agrees (timeline.moment layout origin again)
      (Structures.present place))
    {right : Address → UInt32 → Frame → Prop} {frames : List WalkedFrame}
    (shown : Shown right links frames) :
    (timeline.moment layout origin again).Traces thread right frames := by
  have isThere := chain.of_agrees still
  have readable : place ≠ 0 →
      ∃ instruction, timeline.Executes layout origin again place instruction := by
    intro present
    rw [Structures.present, if_neg present] at isThere
    rcases isThere with _ | @⟨_, raw, _, held, _⟩
    exact told_rawInstruction (hasParts_of_frames held).offset
  rcases threads_of_innermost uncounted seated innermost readable with ⟨state, known, isTop⟩
  exact ⟨state, links, known, isTop ▸ isThere, shown⟩

/--
If a walk gives frames, these are the chain that the thread had at an instant between the first and
the last read of the walk: the same places, code units and offsets in the same order.  What they
show of a code unit is what the walker remembered of it, or read of it in this walk.
-/
theorem walk_ok_traces (uncounted : layout.thread.generation = none) {thread : ThreadId}
    {seat : Address} {before after : Observation Nat} {frames : List WalkedFrame}
    (ran : (Walking.walk (timeline.structures layout origin).interpreter thread).run.run before =
      (.ok frames, after))
    (keeps : timeline.Keeps layout origin thread seat (timeline.instant before.subject)
      (timeline.instant (after.subject - 1)))
    (renews : timeline.Renews layout origin seat (timeline.instant before.subject)
      (timeline.instant (after.subject - 1))) :
    ∃ time, timeline.instant before.subject ≤ time ∧
      time ≤ timeline.instant (after.subject - 1) ∧
      (timeline.moment layout origin time).Traces thread
        (timeline.resolved layout origin before.walker before.subject after.subject) frames := by
  have counted := structures_counted timeline layout origin
  have tracks := Walking.tracks_walk counted
    (timeline.resolved_mono layout origin before.walker before.subject)
    (timeline.tells_resolved layout origin before.walker before.subject) thread
  rcases tracks before _ after (Nat.le_refl _) ⟨rfl, fun _ member => .inl member⟩ ran
    with ⟨_, _, found⟩
  rcases found frames rfl with ⟨state, links, opened, closing, begins, followed, ends, shown⟩
  rcases seat_of_answers (answers_settled_iff.mp begins) with ⟨first, seat₁, seated, headed⟩
  rcases seat_of_answers (answers_settled_iff.mp ends) with ⟨last, seat₂, seatedAgain, headedAgain⟩
  have toFirst := seated.le (counts_seat? timeline layout origin thread)
  have toOpened := headed.le (counts_head timeline layout origin seat₁)
  have toClosing := followed.le counted
  have toLast := seatedAgain.le (counts_seat? timeline layout origin thread)
  have toEnd := headedAgain.le (counts_head timeline layout origin seat₂)
  rw [keeps.eq_of_seat? seated (Nat.le_refl _) (by omega)] at headed
  rw [keeps.eq_of_seat? seatedAgain (by omega) toEnd] at headedAgain
  rcases head_of_answers uncounted headed with ⟨place, isTop, innermost, heads⟩
  rcases head_of_answers uncounted headedAgain with ⟨place', isTop', innermostAgain, headsAgain⟩
  obtain rfl : place = place' := Structures.present_inj (isTop.symm.trans isTop')
  have within : last ≤ after.subject - 1 := by omega
  refine ⟨timeline.instant last, timeline.inOrder (by omega), timeline.inOrder within, ?_⟩
  have listed := keeps.listed _ (timeline.inOrder (by omega)) (timeline.inOrder within)
  rw [isTop] at followed
  rcases heads with ⟨rfl, _, rfl⟩ | ⟨present, isOpened, instruction, standin, executes⟩
  · rcases followed with _ | _
    exact traces_of_chain uncounted listed innermostAgain .nil (fun _ _ => rfl) shown
  · rcases headsAgain with ⟨null, _, _⟩ | ⟨_, isEnd, instruction', standin', executes'⟩
    · exact absurd null present
    -- Both heads have one generation, and with it one instruction.
    obtain rfl : instruction = instruction' := by
      rw [standin] at standin'
      exact (UInt64.xor_right_inj _).mp standin'
    have recurs : timeline.Recurs layout origin seat place (timeline.instant first)
        (timeline.instant (first + 1)) (timeline.instant last) (timeline.instant (last + 1)) :=
      { before := timeline.inOrder (Nat.le_succ first)
        between := timeline.inOrder (by omega)
        after := timeline.inOrder (Nat.le_succ last)
        innermost := innermost
        innermostAgain := innermostAgain
        executes := ⟨instruction, executes, executes'⟩ }
    have still := renews place _ _ _ _ (timeline.inOrder toFirst) (timeline.inOrder (by omega))
      recurs
    have onPlace : Structures.present place = some place := if_neg present
    have chain := chain_of_followed followed fun count after before =>
      onPlace ▸ still _ (timeline.inOrder (by omega)) (timeline.inOrder (by omega))
    have stillAgain := still _ recurs.between recurs.after
    exact traces_of_chain uncounted listed innermostAgain chain (onPlace ▸ stillAgain) shown

/-! ## A call that leaves no trace -/

section

open Storing (objectAt bytesAt smallLayout)
open StackSampler.Stream (bytes32 bytes64)

/-- What a memory is after the first of some writes. -/
def afterWrites (image : Memory) (writes : List (Address × List UInt8)) (time : Nat) : Memory :=
  (writes.take time).foldl (fun memory write => memory.write write.1 write.2) image

/-- A layout without a counter, in which every frame is shown. -/
def plainLayout : Layout :=
  { smallLayout with thread := ⟨0, 8, 16, none⟩, frame := ⟨0, 8, .pointer 16 64, none, none⟩ }

/-- A frame that has begun to run, and its caller. -/
def frameAt (place previous : Address) : Memory :=
  objectAt place [(0, bytes64 previous), (8, bytes64 0x1400), (16, bytes64 0x1444)]

/--
The memory of an interpreter with a thread that runs a frame and its caller.  What other frames left
behind lies beside them.
-/
def plainImage : Memory :=
  objectAt 0x1000 [(8, bytes64 0x1100)] ++
  objectAt 0x1100 [(0, bytes64 0), (8, bytes64 77), (16, bytes64 0x1200)] ++
  frameAt 0x1200 0x1240 ++ frameAt 0x1240 0 ++ frameAt 0x1280 0 ++ frameAt 0x12c0 0x1240 ++
  frameAt 0x1300 0x1200 ++
  objectAt 0x1400 [(0, bytes64 0x1500), (8, bytes64 0), (16, bytes64 0x1540),
    (24, bytes32 10), (32, bytes64 0x1580)] ++
  bytesAt 0x1500 (Text.utf8 "f") ++ bytesAt 0x1540 (Text.utf8 "a.py") ++
  bytesAt 0x1580 [0xe9, 0x02]

/-- The instants of reads: no write before the read `late`, all writes by then. -/
def oneGap (late writes : Nat) : Nat → Nat :=
  fun count => if count < late then 0 else writes

theorem oneGap_mono (late writes : Nat) : Monotone (oneGap late writes) := by
  intro first last order
  unfold oneGap
  split <;> split <;> omega

/-- The thread calls another frame and returns from it while its chain is read. -/
def briefCall : Timeline where
  contents := afterWrites plainImage [(0x1110, bytes64 0x1300), (0x1110, bytes64 0x1200)]
  instant count := oneGap 4 1 count + oneGap 21 1 count
  inOrder _ _ order := Nat.add_le_add (oneGap_mono 4 1 order) (oneGap_mono 21 1 order)

theorem briefCall_keeps : briefCall.Keeps plainLayout 0x1000 77 0x1100 0 2 where
  listed time _ upTo := by interval_cases time <;> rfl
  alone other reached time _ upTo named := by
    have words : ∀ time ≤ 2,
        (briefCall.contents time).wordIn 0x1000 8 = .ok 0x1100 ∧
        (briefCall.contents time).wordIn 0x1100 0 = .ok 0 ∧
        (briefCall.contents time).wordIn 0 0 = .error (.failed ⟨0, 8, 14⟩) ∧
        (briefCall.contents time).wordIn 0 8 = .error (.failed ⟨8, 8, 14⟩) := by
      intro time upTo
      interval_cases time <;> exact ⟨rfl, rfl, rfl, rfl⟩
    have known : other = 0x1100 ∨ other = 0 := by
      clear named
      induction reached with
      | head _ upTo told => exact .inl (Except.ok.inj (told.symm.trans (words _ upTo).1))
      | next _ _ upTo told induction =>
          rcases induction with rfl | rfl
          · exact .inr (Except.ok.inj (told.symm.trans (words _ upTo).2.1))
          · cases told.symm.trans (words _ upTo).2.2.1
    rcases known with rfl | rfl
    · rfl
    · cases named.symm.trans (words time upTo).2.2.2

theorem briefCall_frames : ∀ time ≤ 2,
    (briefCall.moment plainLayout 0x1000 time).frames 0x1300 =
      .ok ⟨0x1400, 4, some 0x1200, true, false⟩ ∧
    (briefCall.moment plainLayout 0x1000 time).frames 0x1200 =
      .ok ⟨0x1400, 4, some 0x1240, true, false⟩ ∧
    (briefCall.moment plainLayout 0x1000 time).frames 0x1240 =
      .ok ⟨0x1400, 4, none, true, false⟩ := by
  intro time upTo
  interval_cases time <;> exact ⟨rfl, rfl, rfl⟩

/-- The frames that the call runs in stand still, whether or not it is the innermost one. -/
theorem briefCall_agrees {early time : Nat} (first : early ≤ 2) (second : time ≤ 2)
    {place : Address} (isPlace : place = 0x1300 ∨ place = 0x1200) :
    (briefCall.moment plainLayout 0x1000 early).Agrees (briefCall.moment plainLayout 0x1000 time)
      (some place) := by
  rcases briefCall_frames early first with ⟨inner, outer, base⟩
  rcases briefCall_frames time second with ⟨inner', outer', base'⟩
  have closed (from? : Option Address) (other : Address)
      (onChain : (briefCall.moment plainLayout 0x1000 early).OnChain other from?)
      (begins : from? ∈ [some 0x1300, some 0x1200, some 0x1240, none]) :
      other = 0x1300 ∨ other = 0x1200 ∨ other = 0x1240 := by
    induction onChain with
    | here => simpa using begins
    | @behind place raw held _ induction =>
        have isPlace : place = 0x1300 ∨ place = 0x1200 ∨ place = 0x1240 := by simpa using begins
        rcases isPlace with rfl | rfl | rfl
        · obtain rfl := Except.ok.inj (held.symm.trans inner)
          exact induction (by simp)
        · obtain rfl := Except.ok.inj (held.symm.trans outer)
          exact induction (by simp)
        · obtain rfl := Except.ok.inj (held.symm.trans base)
          exact induction (by simp)
  intro other onChain
  rcases closed _ other onChain (by simpa using Or.imp_right Or.inl isPlace) with rfl | rfl | rfl
  · rw [inner, inner']
  · rw [outer, outer']
  · rw [base, base']

theorem briefCall_renews : briefCall.Renews plainLayout 0x1000 0x1100 0 2 := by
  intro place top early again late _ upTo recurs time since before
  have bound : top ≤ 2 := recurs.before.trans ((recurs.between.trans recurs.after).trans upTo)
  refine briefCall_agrees (since.trans (before.trans upTo)) (before.trans upTo) ?_
  have innermost := recurs.innermost
  unfold Innermost at innermost
  have tops : ∀ time ≤ 2,
      (briefCall.contents time).wordIn 0x1100 16 = .ok 0x1300 ∨
      (briefCall.contents time).wordIn 0x1100 16 = .ok 0x1200 := by
    intro time upTo
    interval_cases time
    · exact .inr rfl
    · exact .inl rfl
    · exact .inr rfl
  rcases tops top bound with inner | outer
  · exact .inl (Except.ok.inj (innermost.symm.trans inner))
  · exact .inr (Except.ok.inj (innermost.symm.trans outer))

theorem walk_ok_traces_briefCall :
    ∃ after time, time ≤ 2 ∧
      (Walking.walk (briefCall.structures plainLayout 0x1000).interpreter 77).run.run
        ⟨.new ⟨3, 11⟩ 500, 0⟩ = (.ok [⟨0x1200, .interpreted "f" "a.py" 11, true⟩,
          ⟨0x1240, .interpreted "f" "a.py" 11, true⟩], after) ∧
      (briefCall.moment plainLayout 0x1000 time).Traces 77
        (briefCall.resolved plainLayout 0x1000 (.new ⟨3, 11⟩ 500) 0 after.subject)
        [⟨0x1200, .interpreted "f" "a.py" 11, true⟩,
          ⟨0x1240, .interpreted "f" "a.py" 11, true⟩] := by
  have ran : ∃ after,
      (Walking.walk (briefCall.structures plainLayout 0x1000).interpreter 77).run.run
        ⟨.new ⟨3, 11⟩ 500, 0⟩ = (.ok [⟨0x1200, .interpreted "f" "a.py" 11, true⟩,
          ⟨0x1240, .interpreted "f" "a.py" 11, true⟩], after) ∧
      after.subject = 25 := ⟨_, rfl, rfl⟩
  rcases ran with ⟨after, ran, isLast⟩
  have last : briefCall.instant (after.subject - 1) = 2 := by rw [isLast]; rfl
  rcases walk_ok_traces rfl ran (last ▸ briefCall_keeps) (last ▸ briefCall_renews)
    with ⟨time, _, upTo, traces⟩
  exact ⟨after, time, last ▸ upTo, ran, traces⟩

/-! ## Frames and code units at addresses that are used again -/

/--
After its innermost frame was read, a thread returns from all its frames and runs both again at the
same addresses: the outer one is called by another frame, and calls the inner one through a third.
-/
def sameFramesAgain : Timeline where
  contents := afterWrites plainImage [(0x1110, bytes64 0x1240), (0x1110, bytes64 0),
    (0x1110, bytes64 0x1280), (0x1240, bytes64 0x1280), (0x1110, bytes64 0x1240),
    (0x1110, bytes64 0x12c0), (0x1200, bytes64 0x12c0), (0x1110, bytes64 0x1200)]
  instant := oneGap 7 8
  inOrder := oneGap_mono 7 8

/-- A code unit is given up between two walks, and another with another name takes its place. -/
def sameCodeAgain : Timeline where
  contents := afterWrites plainImage [(0x1508, Text.utf8 "g")]
  instant := oneGap 25 1
  inOrder := oneGap_mono 25 1

theorem sameFramesAgain_links : ∀ time ≤ 8,
    ∃ links, (sameFramesAgain.moment plainLayout 0x1000 time).linksOf 77 4 = some links ∧
      (links.filter fun link => !link.2.isShim).map (·.1) ≠ [0x1200, 0x1240, 0x1280] := by
  intro time upTo
  interval_cases time <;> exact ⟨_, rfl, by decide⟩

/-- The frames of the code units that memory holds at an instant. -/
def named (timeline : Timeline) (layout : Layout) (origin : Address) (time : Nat) (code : Address)
    (offset : UInt32) (frame : Frame) : Prop :=
  ∃ unit, (timeline.contents time).told ((Structures.still layout origin).code code) = .ok unit ∧
    frame = Walking.frameOf (.forVersion layout.version) unit offset

theorem not_walk_ok_traces :
    (¬ ∀ (timeline : Timeline) (layout : Layout) (origin : Address) (thread : ThreadId)
        (maxDepth : Nat) (frames : List WalkedFrame) (after : Observation Nat),
      layout.thread.generation = none →
      (Walking.walk (timeline.structures layout origin).interpreter thread).run.run
        ⟨.new layout.version maxDepth, 0⟩ = (.ok frames, after) →
      ∃ time, timeline.instant 0 ≤ time ∧ time ≤ timeline.instant (after.subject - 1) ∧
        (timeline.moment layout origin time).Traces thread (fun _ _ _ => True) frames) ∧
    ¬ ∀ (timeline : Timeline) (layout : Layout) (origin : Address) (thread : ThreadId)
        (maxDepth : Nat) (frames : List WalkedFrame) (before after : Observation Nat),
      layout.thread.generation = none →
      ((Walking.walk (timeline.structures layout origin).interpreter thread).run.run
        ⟨.new layout.version maxDepth, 0⟩).2 = before →
      (Walking.walk (timeline.structures layout origin).interpreter thread).run.run before =
        (.ok frames, after) →
      ∃ time, timeline.instant before.subject ≤ time ∧
        time ≤ timeline.instant (after.subject - 1) ∧
        (timeline.moment layout origin time).Traces thread (timeline.named layout origin time)
          frames := by
  constructor
  · intro holds
    rcases holds sameFramesAgain plainLayout 0x1000 77 500 _ _ rfl rfl with ⟨time, _, upTo, traces⟩
    rcases sameFramesAgain_links time upTo with ⟨links, computed, other⟩
    exact other (traces.shown computed).places_eq.symm
  · intro holds
    rcases holds sameCodeAgain plainLayout 0x1000 77 500 _ _ _ rfl rfl rfl
      with ⟨time, since, upTo, traces⟩
    obtain rfl : time = 1 := Nat.le_antisymm upTo since
    have computed : (sameCodeAgain.moment plainLayout 0x1000 1).linksOf 77 4 = some
        [(0x1200, ⟨0x1400, 4, some 0x1240, true, false⟩),
          (0x1240, ⟨0x1400, 4, none, true, false⟩)] := rfl
    rcases traces.shown computed with _ | ⟨⟨_, _, unit, isUnit, isFrame⟩, _⟩
    have read : (sameCodeAgain.contents 1).told
        ((Structures.still plainLayout 0x1000).code 0x1400) =
          .ok ⟨"g", none, "a.py", 10, [0xe9, 0x02]⟩ := rfl
    obtain rfl := Except.ok.inj (isUnit.symm.trans read)
    exact absurd isFrame (by decide)

end

end Timeline

end StackSampler
