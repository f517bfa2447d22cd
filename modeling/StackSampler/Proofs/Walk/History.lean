import Mathlib.Data.Nat.Init
import Mathlib.Order.Monotone.Basic
import StackSampler.Walk

/-!
# An interpreter that runs on while it is read

An interpreter pushes, pops and advances frames between any two reads of an observer.  `Moment` is
what it holds at one instant, and an `Exposure` is a run of it together with the instants that the
reads fall on.  Nothing is said about how the reads and the steps of the interpreter interleave,
except that both keep their order.

What an observer may rely on is `Exposure.Renews`: whenever the chain of a thread changes, the
thread gets a generation that it never had.  Two reads of one generation then enclose instants in
which the chain stood still, which is `Exposure.Renews.undisturbed`.
-/

namespace StackSampler

/-! ## Chains of frames -/

/-- What an interpreter holds at one instant, as far as a walk looks at it. -/
structure Moment where
  threads : ThreadId → Option ThreadState
  frames : Address → Except ReadFault RawFrame

/-- A frame and where it is. -/
abbrev Link := Address × RawFrame

namespace Moment

/-- The head of the chain of a thread, unless the thread is not known. -/
def threadState (moment : Moment) (thread : ThreadId) : Except CaptureError ThreadState :=
  match moment.threads thread with
  | some state => .ok state
  | none => .error (.unknownThread thread)

theorem threadState_eq_ok_iff {moment : Moment} {thread : ThreadId} {state : ThreadState} :
    moment.threadState thread = .ok state ↔ moment.threads thread = some state := by
  rw [threadState]
  cases moment.threads thread <;> simp

/-- The innermost frame of a thread, if it is known and runs any. -/
def top (moment : Moment) (thread : ThreadId) : Option Address :=
  (moment.threads thread).bind ThreadState.top

/-- The frames of a chain that ends, from one frame on to the outermost. -/
inductive Chain (moment : Moment) : Option Address → List Link → Prop where
  | nil : Chain moment none []
  | cons {place : Address} {raw : RawFrame} {callers : List Link}
      (held : moment.frames place = .ok raw) (behind : Chain moment raw.previous callers) :
      Chain moment (some place) ((place, raw) :: callers)

/-- Whether a frame is on the chain from one frame on.  The chain need not end. -/
inductive OnChain (moment : Moment) (place : Address) : Option Address → Prop where
  | here : OnChain moment place (some place)
  | behind {inner : Address} {raw : RawFrame} (held : moment.frames inner = .ok raw)
      (caller : OnChain moment place raw.previous) : OnChain moment place (some inner)

/-- Two moments hold the same chain from one frame on. -/
def Agrees (first second : Moment) (from? : Option Address) : Prop :=
  ∀ place, first.OnChain place from? → second.frames place = first.frames place

theorem Agrees.behind
    {first second : Moment} {place : Address} {raw : RawFrame}
    (agrees : first.Agrees second (some place)) (held : first.frames place = .ok raw) :
    first.Agrees second raw.previous :=
  fun other onChain => agrees other (.behind held onChain)

theorem OnChain.of_agrees
    {first second : Moment} {place : Address} {from? : Option Address}
    (onChain : first.OnChain place from?) (agrees : first.Agrees second from?) :
    second.OnChain place from? := by
  induction onChain with
  | here => exact .here
  | behind held _ induction =>
      exact .behind ((agrees _ .here).trans held) (induction (agrees.behind held))

theorem Chain.of_agrees
    {first second : Moment} {from? : Option Address} {links : List Link}
    (chain : first.Chain from? links) (agrees : first.Agrees second from?) :
    second.Chain from? links := by
  induction chain with
  | nil => exact .nil
  | cons held _ induction =>
      exact .cons ((agrees _ .here).trans held) (induction (agrees.behind held))

/-- From one moment to another, a thread and its chain stay as they are. -/
structure Undisturbed (thread : ThreadId) (first second : Moment) : Prop where
  state : second.threads thread = first.threads thread
  frames : first.Agrees second (first.top thread)

theorem Undisturbed.refl (thread : ThreadId) (moment : Moment) :
    Undisturbed thread moment moment :=
  ⟨rfl, fun _ _ => rfl⟩

theorem Undisturbed.trans
    {thread : ThreadId} {first second third : Moment}
    (early : Undisturbed thread first second) (late : Undisturbed thread second third) :
    Undisturbed thread first third where
  state := late.state.trans early.state
  frames := by
    intro place onChain
    have same : second.top thread = first.top thread := by
      rw [top, early.state, ← top]
    have still : second.OnChain place (second.top thread) :=
      same ▸ onChain.of_agrees early.frames
    exact (late.frames place still).trans (early.frames place onChain)

end Moment

/-! ## Reads and the instants they fall on -/

/-- A run of an interpreter, and an observer that reads it.  Code units never change. -/
structure Exposure where
  moments : Nat → Moment
  units : Address → CodeUnit
  /-- The instant of each read. -/
  instant : Nat → Nat
  inOrder : Monotone instant
  /-- Why a read fails that might have been answered. -/
  refusal : Nat → Option ReadFault

namespace Exposure

/-- What the interpreter holds when a read falls on it. -/
def seen (exposure : Exposure) (count : Nat) : Moment :=
  exposure.moments (exposure.instant count)

/-- A read, answered from what the interpreter holds at its instant; reads are counted. -/
def read {ε α : Type} (exposure : Exposure) (refuse : ReadFault → ε)
    (answer : Moment → Except ε α) : ExceptT ε (StateM Nat) α :=
  fun count =>
    match exposure.refusal count with
    | some fault => (.error (refuse fault), count + 1)
    | none => (answer (exposure.seen count), count + 1)

/-- The interpreter as the observer meets it.  Questions that no walk asks are left to `base`. -/
def interpreter (exposure : Exposure) (base : Interpreter Nat) : Interpreter Nat :=
  { base with
    threadState := fun thread => exposure.read .memory fun moment => moment.threadState thread
    frame := fun place => exposure.read id fun moment => moment.frames place
    code := fun code => exposure.read id fun _ => .ok (exposure.units code) }

section

variable (exposure : Exposure) (base : Interpreter Nat)

theorem interpreter_threadState (thread : ThreadId) :
    (exposure.interpreter base).threadState thread =
      exposure.read .memory fun moment => moment.threadState thread := rfl

theorem interpreter_frame (place : Address) :
    (exposure.interpreter base).frame place =
      exposure.read id fun moment => moment.frames place := rfl

theorem interpreter_code (code : Address) :
    (exposure.interpreter base).code code =
      exposure.read id fun _ => .ok (exposure.units code) := rfl

end

/-- Whenever the chain of a thread changes, the thread gets a generation that it never had. -/
def Renews (exposure : Exposure) (thread : ThreadId) : Prop :=
  ∀ time,
    Moment.Undisturbed thread (exposure.moments time) (exposure.moments (time + 1)) ∨
    ∀ earlier ≤ time, ∀ old new,
      (exposure.moments earlier).threads thread = some old →
      (exposure.moments (time + 1)).threads thread = some new →
      new.generation ≠ old.generation

/-- Between two instants of one generation, the chain of the thread stands still. -/
theorem Renews.undisturbed
    {exposure : Exposure} {thread : ThreadId} (renews : exposure.Renews thread)
    {first last : Nat} (order : first ≤ last) {old new : ThreadState}
    (begins : (exposure.moments first).threads thread = some old)
    (ends : (exposure.moments last).threads thread = some new)
    (same : new.generation = old.generation) :
    ∀ time, first ≤ time → time ≤ last →
      Moment.Undisturbed thread (exposure.moments first) (exposure.moments time) := by
  induction last, order using Nat.le_induction generalizing new with
  | base =>
      intro time after before
      obtain rfl : time = first := Nat.le_antisymm before after
      exact .refl thread _
  | succ last order induction =>
      intro time after before
      -- The last step was quiet, or it made a generation that no earlier instant had.
      rcases renews last with still | fresh
      · have earlier := induction (still.state ▸ ends) same
        rcases Nat.le_or_eq_of_le_succ before with within | rfl
        · exact earlier time after within
        · exact (earlier last order (Nat.le_refl last)).trans still
      · exact absurd same (fresh first order old new begins ends)

end Exposure

end StackSampler
