import Mathlib.Data.List.Basic
import StackSampler.Native.Slot

/-!
# Who owns the slot

A handler that has taken up a request owns the slot until it makes it idle again: no other handler
gets past its first step, and samplers only take what it has published.  `Handler.Owns` says what
the slot holds at each step of its owner, and `CaptureSystem.Owned` that every handler at work is
the owner, so that there is at most one.

Each move keeps this up, except that a sampler makes the slot idle without looking at it when its
signal was refused.  The runs that are looked at here admit this only while no handler is at work,
and begin a capture only when the captures before it have ended.
-/

namespace StackSampler.Native

/-! ## The owner of the slot -/

/-- The pointers at the first places. -/
def CaptureSlot.recorded (slot : CaptureSlot) (count : Nat) : List Address :=
  (List.range count).map slot.pointers

@[simp]
theorem CaptureSlot.length_recorded (slot : CaptureSlot) (count : Nat) :
    (slot.recorded count).length = count := by
  simp [recorded]

theorem CaptureSlot.recorded_succ (slot : CaptureSlot) (count : Nat) :
    slot.recorded (count + 1) = slot.recorded count ++ [slot.pointers count] := by
  simp [recorded, List.range_succ]

@[simp]
theorem CaptureSlot.recorded_setState (slot : CaptureSlot) (state : SlotState) (count : Nat) :
    (slot.setState state).recorded count = slot.recorded count := rfl

@[simp]
theorem CaptureSlot.state_setState (slot : CaptureSlot) (state : SlotState) :
    (slot.setState state).state = state := rfl

@[simp]
theorem CaptureSlot.depth_setState (slot : CaptureSlot) (state : SlotState) :
    (slot.setState state).depth = slot.depth := rfl

theorem CaptureSlot.recorded_setPointer (slot : CaptureSlot) (place : Nat) (pointer : Address) :
    (slot.setPointer place pointer).recorded (place + 1) = slot.recorded place ++ [pointer] := by
  rw [recorded_succ]
  have before : (slot.setPointer place pointer).recorded place = slot.recorded place := by
    refine List.map_congr_left fun other inside => ?_
    have less := List.mem_range.mp inside
    exact if_neg (Nat.ne_of_lt less)
  rw [before]
  simp [setPointer]

namespace Handler

/-- The pointers that a handler records. -/
def recorded (handler : Handler) : List Address :=
  handler.stack.take depthLimit

/-- Whether a handler has taken up a request and not let go of the slot since. -/
def IsAtWork (handler : Handler) : Prop :=
  handler.phase ≠ .entering ∧ handler.phase ≠ .ended

instance (handler : Handler) : Decidable handler.IsAtWork :=
  inferInstanceAs (Decidable (_ ∧ _))

/-- Whether a handler keeps its thread in the loop in which it waits to be let go. -/
def IsHolding (handler : Handler) : Prop :=
  handler.phase = .holding ∨ handler.phase = .waiting

/-- What the slot holds at each step of the handler that owns it. -/
def Owns (handler : Handler) (slot : CaptureSlot) : Prop :=
  match handler.phase with
  | .entering => False
  | .recording place remaining =>
      slot.state = .capturing ∧ slot.recorded place ++ remaining = handler.recorded
  | .recordingDepth depth => slot.state = .capturing ∧ slot.recorded depth = handler.recorded
  | .publishing => slot.state = .capturing ∧ slot.recorded slot.depth = handler.recorded
  | .holding | .waiting =>
      (slot.state = .captured ∨ slot.state = .released) ∧
        slot.recorded slot.depth = handler.recorded
  | .leaving => slot.state = .released
  | .ended => False

variable {handler : Handler} {slot : CaptureSlot}

theorem Owns.isAtWork (owns : handler.Owns slot) : handler.IsAtWork := by
  constructor <;> intro phase <;> simp [Owns, phase] at owns

theorem Owns.state (owns : handler.Owns slot) :
    slot.state = .capturing ∨ slot.state = .captured ∨ slot.state = .released := by
  unfold Owns at owns
  split at owns <;> simp_all

/-- When a stack has been captured, its owner waits to be let go. -/
theorem Owns.captured (owns : handler.Owns slot) (captured : slot.state = .captured) :
    handler.IsHolding ∧ slot.recorded slot.depth = handler.recorded := by
  unfold Owns at owns
  split at owns <;> simp_all [IsHolding]

theorem Owns.release (owns : handler.Owns slot) (captured : slot.state = .captured) :
    handler.Owns (slot.setState .released) := by
  unfold Owns at owns ⊢
  split at owns <;> simp_all

/-- What a handler does to the slot. -/
inductive Effect : CaptureSlot → CaptureSlot → Prop where
  | none (slot : CaptureSlot) : Effect slot slot
  | take {slot : CaptureSlot} (requested : slot.state = .requested) :
      Effect slot (slot.setState .capturing)
  | write {slot after : CaptureSlot} (capturing : slot.state = .capturing)
      (still : after.state = .capturing) : Effect slot after
  | publish {slot : CaptureSlot} (capturing : slot.state = .capturing) :
      Effect slot (slot.setState .captured)
  | giveUp {slot : CaptureSlot} (captured : slot.state = .captured) :
      Effect slot (slot.setState .idle)
  | leave {slot : CaptureSlot} (released : slot.state = .released) :
      Effect slot (slot.setState .idle)

variable (isLate : Bool)

theorem step_thread_stack :
    (handler.step isLate slot).1.thread = handler.thread ∧
      (handler.step isLate slot).1.stack = handler.stack := by
  rcases handler with ⟨thread, stack, phase⟩
  cases phase with
  | recording place remaining => cases remaining <;> exact ⟨rfl, rfl⟩
  | holding =>
      simp only [step, afterLook]
      split <;> exact ⟨rfl, rfl⟩
  | entering | waiting =>
      simp only [step]
      split <;> exact ⟨rfl, rfl⟩
  | _ => exact ⟨rfl, rfl⟩

@[simp]
theorem thread_step : (handler.step isLate slot).1.thread = handler.thread :=
  (step_thread_stack isLate).1

@[simp]
theorem recorded_step : (handler.step isLate slot).1.recorded = handler.recorded :=
  congrArg (List.take depthLimit) (step_thread_stack isLate).2

theorem step_phase_ne_entering : (handler.step isLate slot).1.phase ≠ .entering := by
  rcases handler with ⟨thread, stack, phase⟩
  cases phase with
  | recording place remaining => cases remaining <;> exact nofun
  | holding =>
      simp only [step, afterLook]
      split <;> exact nofun
  | entering | waiting =>
      simp only [step]
      split <;> exact nofun
  | _ => exact nofun

/-- A handler that is not at work does nothing to the slot, unless it takes up a request. -/
theorem step_of_not_isAtWork (free : ¬ handler.IsAtWork) :
    ¬ (handler.step isLate slot).1.IsAtWork ∧ (handler.step isLate slot).2 = slot ∨
      handler.phase = .entering ∧ slot.state = .requested ∧
        (handler.step isLate slot).1.Owns (handler.step isLate slot).2 ∧
        (handler.step isLate slot).2 = slot.setState .capturing := by
  rcases handler with ⟨thread, stack, phase⟩
  cases phase with
  | entering =>
      by_cases requested : slot.state = .requested
      · exact .inr (by simp [step, requested, goTo, Owns, recorded, CaptureSlot.recorded])
      · exact .inl (by simp [step, requested, goTo, IsAtWork])
  | ended => exact .inl (by simp [step, IsAtWork])
  | _ => exact absurd (by simp [IsAtWork]) free

/-- The owner of the slot goes on owning it, or makes it idle and ends. -/
theorem Owns.step (owns : handler.Owns slot) :
    ((handler.step isLate slot).1.Owns (handler.step isLate slot).2 ∨
      ¬ (handler.step isLate slot).1.IsAtWork ∧ (handler.step isLate slot).2.state = .idle) ∧
    Effect slot (handler.step isLate slot).2 := by
  rcases handler with ⟨thread, stack, phase⟩
  cases phase with
  | entering | ended => exact owns.elim
  | recording place remaining =>
      rcases owns with ⟨capturing, recorded⟩
      cases remaining with
      | nil =>
          rw [List.append_nil] at recorded
          exact ⟨.inl ⟨capturing, recorded⟩, .none slot⟩
      | cons pointer rest =>
          rw [List.append_cons, ← CaptureSlot.recorded_setPointer] at recorded
          exact ⟨.inl ⟨capturing, recorded⟩, .write capturing capturing⟩
  | recordingDepth depth =>
      exact ⟨.inl ⟨owns.1, owns.2⟩, .write owns.1 owns.1⟩
  | publishing => exact ⟨.inl ⟨.inl rfl, owns.2⟩, .publish owns.1⟩
  | holding =>
      rcases owns with ⟨captured | released, recorded⟩
      · simp only [Handler.step, afterLook, captured, goTo]
        exact ⟨.inl ⟨.inl captured, recorded⟩, .none slot⟩
      · simp only [Handler.step, afterLook, released, goTo]
        exact ⟨.inl released, .none slot⟩
  | waiting =>
      simp only [Handler.step]
      split
      case isTrue late =>
        have captured : slot.state = .captured := by simp_all
        exact ⟨.inr ⟨by simp [goTo, IsAtWork], rfl⟩, .giveUp captured⟩
      case isFalse => exact ⟨.inl owns, .none slot⟩
  | leaving => exact ⟨.inr ⟨by simp [Handler.step, goTo, IsAtWork], rfl⟩, .leave owns⟩

theorem Effect.idle {slot after : CaptureSlot} (effect : Effect slot after)
    (idle : slot.state = .idle) : after.state = .idle := by
  cases effect <;> simp_all

theorem step_effect (owned : handler.IsAtWork → handler.Owns slot) :
    Effect slot (handler.step isLate slot).2 := by
  by_cases working : handler.IsAtWork
  · exact ((owned working).step isLate).2
  · rcases step_of_not_isAtWork isLate working with ⟨_, unchanged⟩ | ⟨_, requested, _, taken⟩
    · rw [unchanged]
      exact .none slot
    · rw [taken]
      exact .take requested

end Handler

/-! ## Captures and the slot -/

namespace Capture

/-- What a sampler does to the slot, unless it gives the slot back. -/
inductive Effect : CaptureSlot → CaptureSlot → Prop where
  | none (slot : CaptureSlot) : Effect slot slot
  | claim {slot : CaptureSlot} (idle : slot.state = .idle) :
      Effect slot (slot.setState .requested)
  | withdraw {slot : CaptureSlot} (requested : slot.state = .requested) :
      Effect slot (slot.setState .idle)
  | release {slot : CaptureSlot} (captured : slot.state = .captured) :
      Effect slot (slot.setState .released)

/-- Whether a sampler is about to make the slot idle because its signal was refused. -/
def isGivingBack (capture : Capture) : Bool :=
  capture.phase matches .givingBack _

theorem step_effect (capture : Capture) (slot : CaptureSlot) (view : SamplerView) :
    Effect slot (capture.step view slot).2.1 ∨
      capture.isGivingBack ∧ (capture.step view slot).2.1 = slot.setState .idle := by
  rcases capture with ⟨thread, phase, pointers⟩
  cases phase with
  | claiming =>
      left
      simp only [step]
      split
      case isTrue idle => exact .claim idle
      case isFalse =>
        split <;> exact .none slot
  | signalling =>
      left
      simp only [step]
      split <;> exact .none slot
  | givingBack errno => exact .inr ⟨rfl, rfl⟩
  | withdrawing =>
      left
      simp only [step]
      split
      case isTrue requested => exact .withdraw requested
      case isFalse => exact .none slot
  | releasing =>
      left
      simp only [step]
      split
      case isTrue captured => exact .release captured
      case isFalse => exact .none slot
  | _ => exact .inl (.none slot)

theorem Effect.owns {handler : Handler} {slot after : CaptureSlot} (effect : Effect slot after)
    (owns : handler.Owns slot) : handler.Owns after := by
  have state := owns.state
  cases effect with
  | none => exact owns
  | claim idle => simp [idle] at state
  | withdraw requested => simp [requested] at state
  | release captured => exact owns.release captured

theorem Effect.inUse {slot after : CaptureSlot} (effect : Effect slot after)
    (used : after.state ≠ .idle) (busy : after.state ≠ .requested) :
    slot.state ≠ .idle ∧ slot.state ≠ .requested := by
  cases effect with
  | none => exact ⟨used, busy⟩
  | claim => exact absurd rfl busy
  | withdraw => exact absurd rfl used
  | release captured => simp [captured]

end Capture

/-! ## The system -/

namespace CaptureSystem

section

variable {system : CaptureSystem}

theorem step_sample {index : Nat} {capture : Capture} (view : SamplerView)
    (found : system.captures[index]? = some capture) :
    system.step (.sample index view) =
      { system with
        slot := (capture.step view system.slot).2.1
        captures := system.captures.set index (capture.step view system.slot).1
        signals := system.signals ++ (capture.step view system.slot).2.2 } := by
  simp only [step, found]

theorem step_sample_none {index : Nat} (view : SamplerView)
    (missing : system.captures[index]? = none) : system.step (.sample index view) = system := by
  simp only [step, missing]

theorem step_deliver {index : Nat} {thread : ThreadId} (stack : List Address)
    (found : system.signals[index]? = some thread) :
    system.step (.deliver index stack) =
      { system with
        handlers := system.handlers ++ [{ thread := thread, stack := stack }]
        signals := system.signals.eraseIdx index } := by
  simp only [step, found]

theorem step_deliver_none {index : Nat} (stack : List Address)
    (missing : system.signals[index]? = none) : system.step (.deliver index stack) = system := by
  simp only [step, missing]

theorem step_handle {index : Nat} {handler : Handler} (isLate : Bool)
    (found : system.handlers[index]? = some handler) :
    system.step (.handle index isLate) =
      { system with
        slot := (handler.step isLate system.slot).2
        handlers := system.handlers.set index (handler.step isLate system.slot).1 } := by
  simp only [step, found]

theorem step_handle_none {index : Nat} (isLate : Bool)
    (missing : system.handlers[index]? = none) : system.step (.handle index isLate) = system := by
  simp only [step, missing]

end

/-- A handler of a system is at work. -/
def AtWork (system : CaptureSystem) (index : Nat) (handler : Handler) : Prop :=
  system.handlers[index]? = some handler ∧ handler.IsAtWork

/-- At most one handler is at work, it owns the slot, and a slot in use has an owner. -/
structure Owned (system : CaptureSystem) : Prop where
  single : ∀ {first second : Nat} {one other : Handler}, system.AtWork first one →
    system.AtWork second other → first = second
  owns : ∀ {index : Nat} {handler : Handler}, system.AtWork index handler →
    handler.Owns system.slot
  inUse : system.slot.state ≠ .idle → system.slot.state ≠ .requested →
    ∃ index handler, system.AtWork index handler

/--
What may happen next if captures follow one another, and if a sampler gives the slot back only
while no handler is at work.
-/
def Admits (system : CaptureSystem) : CaptureMove → Prop
  | .begin _ => ∀ capture ∈ system.captures, capture.hasEnded
  | .sample index _ => ∀ capture ∈ system.captures[index]?, capture.isGivingBack →
      ∀ handler ∈ system.handlers, ¬ handler.IsAtWork
  | .deliver _ _ | .handle _ _ => True

instance (system : CaptureSystem) : DecidablePred system.Admits
  | .begin _ => inferInstanceAs (Decidable (∀ _ ∈ _, _))
  | .sample _ _ => inferInstanceAs (Decidable (∀ _ ∈ _, _ → ∀ _ ∈ _, _))
  | .deliver _ _ | .handle _ _ => inferInstanceAs (Decidable True)

/-- Several moves, each of which is admitted when it is made. -/
def AdmitsAll (system : CaptureSystem) : List CaptureMove → Prop
  | [] => True
  | move :: rest => system.Admits move ∧ (system.step move).AdmitsAll rest

instance decidableAdmitsAll (system : CaptureSystem) : DecidablePred system.AdmitsAll
  | [] => inferInstanceAs (Decidable True)
  | move :: rest =>
      have := decidableAdmitsAll (system.step move) rest
      inferInstanceAs (Decidable (_ ∧ _))

variable {system : CaptureSystem}

theorem Owned.congr {after : CaptureSystem} (owned : system.Owned)
    (atWork : ∀ {index : Nat} {handler : Handler},
      after.AtWork index handler ↔ system.AtWork index handler)
    (slot : after.slot = system.slot) : after.Owned where
  single one other := owned.single (atWork.mp one) (atWork.mp other)
  owns one := slot ▸ owned.owns (atWork.mp one)
  inUse used busy := by
    rw [slot] at used busy
    rcases owned.inUse used busy with ⟨index, handler, one⟩
    exact ⟨index, handler, atWork.mpr one⟩

theorem Owned.of_free (free : ∀ {index : Nat} {handler : Handler}, ¬ system.AtWork index handler)
    (idle : system.slot.state = .idle) : system.Owned where
  single one := absurd one free
  owns one := absurd one free
  inUse used := absurd idle used

theorem Owned.of_alone {index : Nat} {handler : Handler}
    (here : system.handlers[index]? = some handler) (owns : handler.Owns system.slot)
    (alone : ∀ {other : Nat} {one : Handler}, system.AtWork other one → other = index) :
    system.Owned where
  single one other := (alone one).trans (alone other).symm
  owns one := by
    have same := one.1
    rw [alone one, here, Option.some.injEq] at same
    exact same ▸ owns
  inUse _ _ := ⟨index, handler, here, owns.isAtWork⟩

theorem Owned.sample (owned : system.Owned) {index : Nat} {view : SamplerView}
    (admitted : system.Admits (.sample index view)) :
    (system.step (.sample index view)).Owned := by
  cases found : system.captures[index]? with
  | none => rwa [step_sample_none view found]
  | some capture =>
      rw [step_sample view found]
      rcases capture.step_effect system.slot view with effect | ⟨isGivingBack, idle⟩
      · refine ⟨fun one other => owned.single one other, fun one => ?_, fun used busy => ?_⟩
        · exact effect.owns (owned.owns one)
        · rcases effect.inUse used busy with ⟨wasUsed, wasBusy⟩
          exact owned.inUse wasUsed wasBusy
      · have free := admitted capture found isGivingBack
        rw [idle]
        exact .of_free (fun one => free _ (List.mem_of_getElem? one.1) one.2) rfl

theorem atWork_handle {index : Nat} {handler : Handler} {isLate : Bool}
    (found : system.handlers[index]? = some handler) {other : Nat} {after : Handler} :
    (system.step (.handle index isLate)).AtWork other after ↔
      other ≠ index ∧ system.AtWork other after ∨
        other = index ∧ after = (handler.step isLate system.slot).1 ∧ after.IsAtWork := by
  have inside := (List.getElem?_eq_some_iff.mp found).1
  rw [step_handle isLate found, AtWork, AtWork, List.getElem?_set]
  by_cases same : other = index
  · subst other
    simp only [inside, if_true, Option.some.injEq, ne_eq, not_true, false_and, false_or, true_and]
    exact and_congr_left fun _ => eq_comm
  · simp [same, Ne.symm same]

theorem Owned.handle (owned : system.Owned) (index : Nat) (isLate : Bool) :
    (system.step (.handle index isLate)).Owned := by
  cases found : system.handlers[index]? with
  | none => rwa [step_handle_none isLate found]
  | some handler =>
      have here : (system.step (.handle index isLate)).handlers[index]? =
          some (handler.step isLate system.slot).1 := by
        rw [step_handle isLate found, List.getElem?_set_self (List.getElem?_eq_some_iff.mp found).1]
      have slot : (system.step (.handle index isLate)).slot =
          (handler.step isLate system.slot).2 := by rw [step_handle isLate found]
      by_cases working : handler.IsAtWork
      -- The only handler at work goes on, or leaves an idle slot behind.
      · have alone {other : Nat} {after : Handler}
            (atWork : (system.step (.handle index isLate)).AtWork other after) :
            other = index := by
          rcases (atWork_handle found).mp atWork with ⟨_, still⟩ | ⟨same, _⟩
          · exact owned.single still ⟨found, working⟩
          · exact same
        rcases ((owned.owns ⟨found, working⟩).step isLate).1 with owns | ⟨ended, idle⟩
        · exact .of_alone here (slot ▸ owns) alone
        · refine .of_free (fun one => ended ?_) (slot ▸ idle)
          have same := one.1
          rw [alone one, here, Option.some.injEq] at same
          exact same ▸ one.2
      -- A handler that takes up a request finds no other at work, as the slot has no owner.
      · rcases Handler.step_of_not_isAtWork isLate working with
          ⟨resting, unchanged⟩ | ⟨_, requested, owns, _⟩
        · refine owned.congr (fun {other after} => ?_) (slot.trans unchanged)
          rw [atWork_handle found]
          constructor
          · rintro (⟨_, still⟩ | ⟨_, rfl, works⟩)
            · exact still
            · exact absurd works resting
          · refine fun still => .inl ⟨?_, still⟩
            rintro rfl
            have same := still.1
            rw [found, Option.some.injEq] at same
            exact working (same ▸ still.2)
        · refine .of_alone here (slot ▸ owns) fun one => ?_
          rcases (atWork_handle found).mp one with ⟨_, still⟩ | ⟨same, _⟩
          · have state := (owned.owns still).state
            simp [requested] at state
          · exact same

/-- A handler that a signal has just started is not at work. -/
theorem atWork_deliver {index : Nat} {stack : List Address} {other : Nat} {handler : Handler} :
    (system.step (.deliver index stack)).AtWork other handler ↔ system.AtWork other handler := by
  cases found : system.signals[index]? with
  | none => rw [step_deliver_none stack found]
  | some thread =>
      rw [step_deliver stack found, AtWork, AtWork, List.getElem?_append]
      split
      case isTrue => rfl
      case isFalse outside =>
        rw [List.getElem?_eq_none (Nat.le_of_not_lt outside)]
        constructor
        · rintro ⟨new, works⟩
          rw [List.getElem?_singleton] at new
          split at new <;> cases new
          exact absurd rfl works.1
        · rintro ⟨missing, _⟩
          cases missing

theorem slot_deliver (system : CaptureSystem) (index : Nat) (stack : List Address) :
    (system.step (.deliver index stack)).slot = system.slot := by
  simp only [step]
  split <;> rfl

theorem captures_deliver (system : CaptureSystem) (index : Nat) (stack : List Address) :
    (system.step (.deliver index stack)).captures = system.captures := by
  simp only [step]
  split <;> rfl

theorem captures_handle (system : CaptureSystem) (index : Nat) (isLate : Bool) :
    (system.step (.handle index isLate)).captures = system.captures := by
  simp only [step]
  split <;> rfl

theorem handlers_sample (system : CaptureSystem) (index : Nat) (view : SamplerView) :
    (system.step (.sample index view)).handlers = system.handlers := by
  simp only [step]
  split <;> rfl

theorem Owned.step (owned : system.Owned) {move : CaptureMove} (admitted : system.Admits move) :
    (system.step move).Owned := by
  cases move with
  | begin thread => exact ⟨owned.single, owned.owns, owned.inUse⟩
  | sample index view => exact owned.sample admitted
  | deliver index stack => exact owned.congr atWork_deliver (system.slot_deliver index stack)
  | handle index isLate => exact owned.handle index isLate

end CaptureSystem

end StackSampler.Native
