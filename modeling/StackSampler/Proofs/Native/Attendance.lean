import StackSampler.Proofs.Native.Ownership

/-!
# A slot in use is attended to

Any number of samplers, handlers and late signals meet in the slot, and signals may be refused.  A
capture may then go wrong, but the slot is not left behind in use: at each moment somebody at work
will bring it on.  A request has a sampler that can still withdraw it, a stack that is being
captured has a handler that records it, and a captured stack has a handler that holds its thread and
makes the slot idle in the end.

The main statement is `CaptureSystem.idle_of_isQuiet_and_holding_of_captured`.  Nothing is assumed
here about the order of the moves; in particular captures may overlap.
-/

namespace StackSampler.Native

/-! ## Who attends to a slot -/

/-- A sampler has claimed the slot and has not taken an answer yet. -/
def Capture.IsPending (capture : Capture) : Prop :=
  match capture.phase with
  | .signalling | .givingBack _ | .awaiting | .withdrawing => True
  | _ => False

/-- A handler has taken up a request and has not published the stack yet. -/
def Handler.IsRecording (handler : Handler) : Prop :=
  match handler.phase with
  | .recording _ _ | .recordingDepth _ | .publishing => True
  | _ => False

/-- A sampler will bring on a slot that is in some state. -/
def Capture.Attends (capture : Capture) (state : SlotState) : Prop :=
  state = .requested ∧ capture.IsPending

/-- A handler will bring on a slot that is in some state. -/
def Handler.Attends (handler : Handler) : SlotState → Prop
  | .capturing => handler.IsRecording
  | .captured | .released => handler.isHolding
  | .idle | .requested => False

/-- A state of the slot, and one that whoever attends to it will bring on as well. -/
inductive LeftAs : SlotState → SlotState → Prop where
  | same (state : SlotState) : LeftAs state state
  | letGo : LeftAs .captured .released

variable {before after : SlotState}

theorem LeftAs.idle (left : LeftAs .idle after) : after = .idle := by
  cases left
  rfl

theorem Capture.Attends.leftAs {capture : Capture} (attends : capture.Attends before)
    (left : LeftAs before after) : capture.Attends after := by
  cases left with
  | same => exact attends
  | letGo => cases attends.1

theorem Handler.Attends.leftAs {handler : Handler} (attends : handler.Attends before)
    (left : LeftAs before after) : handler.Attends after := by
  cases left <;> exact attends

/-! ## One step -/

/--
After its step a sampler leaves the slot idle, or attends to it, or it did not attend to it before
and leaves it to whoever did.
-/
theorem Capture.step_attends (capture : Capture) (view : SamplerView) (slot : CaptureSlot) :
    (capture.step view slot).2.1.state = .idle ∨
      (capture.step view slot).1.Attends (capture.step view slot).2.1.state ∨
        ¬ capture.Attends slot.state ∧
          LeftAs slot.state (capture.step view slot).2.1.state := by
  rcases capture with ⟨thread, phase, pointers⟩
  cases phase with
  | claiming =>
      simp only [step]
      split
      · exact .inr (.inl ⟨rfl, trivial⟩)
      · split <;> exact .inr (.inr ⟨fun attends => attends.2, .same _⟩)
  | signalling =>
      by_cases requested : slot.state = .requested
      · simp only [step]
        split <;> exact .inr (.inl ⟨requested, trivial⟩)
      · simp only [step]
        split <;> exact .inr (.inr ⟨fun attends => requested attends.1, .same _⟩)
  | givingBack errno => exact .inl rfl
  | awaiting =>
      by_cases requested : slot.state = .requested
      · simp only [step, afterLook, requested]
        split <;> exact .inr (.inl ⟨rfl, trivial⟩)
      · exact .inr (.inr ⟨fun attends => requested attends.1, .same _⟩)
  | withdrawing =>
      simp only [step]
      split
      case isTrue => exact .inl rfl
      case isFalse unrequested => exact .inr (.inr ⟨fun attends => unrequested attends.1, .same _⟩)
  | releasing =>
      simp only [step]
      split
      case isTrue captured => exact .inr (.inr ⟨fun attends => attends.2, captured ▸ .letGo⟩)
      case isFalse => exact .inr (.inr ⟨fun attends => attends.2, .same _⟩)
  | readingDepth | reading | beginning | working | ended =>
      exact .inr (.inr ⟨fun attends => attends.2, .same _⟩)

/--
After its step a handler leaves the slot idle, or attends to it, or it did not attend to it before
and leaves it as it is.
-/
theorem Handler.step_attends (handler : Handler) (isLate : Bool) (slot : CaptureSlot) :
    (handler.step isLate slot).2.state = .idle ∨
      (handler.step isLate slot).1.Attends (handler.step isLate slot).2.state ∨
        ¬ handler.Attends slot.state ∧ (handler.step isLate slot).2.state = slot.state := by
  rcases handler with ⟨thread, stack, phase⟩
  rcases slot with ⟨state, depth, pointers⟩
  cases phase with
  | entering =>
      cases state <;> simp [step, goTo, Attends, IsRecording, isHolding, CaptureSlot.setState]
  | recording place remaining =>
      cases remaining <;> cases state <;>
        simp [step, record, goTo, Attends, IsRecording, isHolding, CaptureSlot.setPointer]
  | recordingDepth => cases state <;> simp [step, goTo, Attends, IsRecording, isHolding]
  | publishing => exact .inr (.inl rfl)
  | holding => cases state <;> simp [step, afterLook, goTo, Attends, IsRecording, isHolding]
  | waiting =>
      cases state <;> cases isLate <;>
        simp [step, goTo, Attends, IsRecording, isHolding, CaptureSlot.setState]
  | leaving => exact .inl rfl
  | ended => cases state <;> simp [step, Attends, IsRecording, isHolding]

/-! ## All together -/

/-- What differs from the replaced entry is still there. -/
theorem mem_set_of_ne {α : Type} {entries : List α} {index : Nat} {old kept : α}
    (found : entries[index]? = some old) (mem : kept ∈ entries) (differs : kept ≠ old) (new : α) :
    kept ∈ entries.set index new := by
  rcases List.mem_iff_getElem?.mp mem with ⟨place, here⟩
  have elsewhere : index ≠ place := by
    rintro rfl
    exact differs (Option.some.inj (here.symm.trans found))
  exact List.mem_iff_getElem?.mpr ⟨place, by rw [List.getElem?_set_ne elsewhere, here]⟩

theorem mem_set_self {α : Type} {entries : List α} {index : Nat} {old : α}
    (found : entries[index]? = some old) (new : α) : new ∈ entries.set index new :=
  List.mem_set (List.getElem?_eq_some_iff.mp found).1 new

namespace CaptureSystem

variable {system : CaptureSystem}

/-- The slot is idle, or a sampler or a handler attends to it. -/
def IsAttended (system : CaptureSystem) : Prop :=
  system.slot.state = .idle ∨
    (∃ capture ∈ system.captures, capture.Attends system.slot.state) ∨
      ∃ handler ∈ system.handlers, handler.Attends system.slot.state

theorem IsAttended.sample (attended : system.IsAttended) (index : Nat) (view : SamplerView) :
    (system.step (.sample index view)).IsAttended := by
  cases found : system.captures[index]? with
  | none => rwa [step_sample_none view found]
  | some capture =>
      rw [step_sample view found]
      rcases capture.step_attends view system.slot with idle | attends | ⟨inattentive, left⟩
      · exact .inl idle
      · exact .inr (.inl ⟨_, mem_set_self found _, attends⟩)
      rcases attended with idle | ⟨other, mem, attends⟩ | ⟨handler, mem, attends⟩
      · exact .inl (idle ▸ left).idle
      · have differs : other ≠ capture := fun same => inattentive (same ▸ attends)
        exact .inr (.inl ⟨other, mem_set_of_ne found mem differs _, attends.leftAs left⟩)
      · exact .inr (.inr ⟨handler, mem, attends.leftAs left⟩)

theorem IsAttended.handle (attended : system.IsAttended) (index : Nat) (isLate : Bool) :
    (system.step (.handle index isLate)).IsAttended := by
  cases found : system.handlers[index]? with
  | none => rwa [step_handle_none isLate found]
  | some handler =>
      rw [step_handle isLate found]
      rcases handler.step_attends isLate system.slot with idle | attends | ⟨inattentive, same⟩
      · exact .inl idle
      · exact .inr (.inr ⟨_, mem_set_self found _, attends⟩)
      rw [IsAttended, same]
      rcases attended with idle | requested | ⟨other, mem, attends⟩
      · exact .inl idle
      · exact .inr (.inl requested)
      · have differs : other ≠ handler := fun same => inattentive (same ▸ attends)
        exact .inr (.inr ⟨other, mem_set_of_ne found mem differs _, attends⟩)

/-- A slot that is attended to stays so, whatever happens next. -/
theorem IsAttended.step (attended : system.IsAttended) (move : CaptureMove) :
    (system.step move).IsAttended := by
  cases move with
  | begin thread =>
      refine attended.imp_right (Or.imp_left ?_)
      rintro ⟨capture, mem, attends⟩
      exact ⟨capture, List.mem_append_left _ mem, attends⟩
  | sample index view => exact attended.sample index view
  | handle index isLate => exact attended.handle index isLate
  | deliver index stack =>
      cases found : system.signals[index]? with
      | none => rwa [step_deliver_none stack found]
      | some thread =>
          rw [step_deliver stack found]
          refine attended.imp_right (Or.imp_right ?_)
          rintro ⟨handler, mem, attends⟩
          exact ⟨handler, List.mem_append_left _ mem, attends⟩

theorem IsAttended.run (attended : system.IsAttended) (moves : List CaptureMove) :
    (system.run moves).IsAttended := by
  induction moves generalizing system with
  | nil => exact attended
  | cons move rest induction => exact induction (attended.step move)

/--
In every run the slot is idle whenever no capture and no handler is at work, and a handler is in its
loop of waiting whenever a stack has been captured or its thread is let go.
-/
theorem idle_of_isQuiet_and_holding_of_captured (moves : List CaptureMove) :
    let system := ({} : CaptureSystem).run moves
    (system.isQuiet = true → system.slot.state = .idle) ∧
      (system.slot.state = .captured ∨ system.slot.state = .released →
        ∃ handler ∈ system.handlers, handler.isHolding = true) := by
  intro system
  have attended : system.IsAttended := .run (.inl rfl) moves
  constructor
  case left =>
    intro quiet
    rw [isQuiet, Bool.and_eq_true, List.all_eq_true, List.all_eq_true] at quiet
    rcases attended with idle | ⟨capture, mem, -, pending⟩ | ⟨handler, mem, attends⟩
    · exact idle
    · have ended := quiet.1 capture mem
      rcases capture with ⟨thread, phase, pointers⟩
      cases phase <;> simp_all [Capture.hasEnded, Capture.IsPending]
    · have ended : handler.phase = .ended := by simpa [Handler.hasEnded] using quiet.2 handler mem
      cases state : system.slot.state <;>
        simp [Handler.Attends, Handler.IsRecording, Handler.isHolding, state, ended] at attends
  case right =>
    rintro (state | state) <;> rcases attended with idle | ⟨_, _, requested, _⟩ | found
    all_goals simp_all [Handler.Attends]

/--
A signal is refused while a late handler has taken up the request: the handler publishes a stack for
which no sampler waits.
-/
def unwantedStack : List CaptureMove :=
  let first (isLate : Bool) := CaptureMove.sample 0 ⟨isLate, none⟩
  [.begin 1, first false, first false, first true, first true,
    .begin 2, .sample 1 {}, .deliver 0 [0xA1], .handle 0 false,
    .sample 1 ⟨false, some 3⟩, .sample 1 {}] ++ List.replicate 4 (.handle 0 false)

/-- An unwanted stack has a handler that holds its thread, and is given up by it. -/
theorem idle_of_isQuiet_and_holding_of_captured_unwantedStack :
    (({} : CaptureSystem).run unwantedStack).slot.state = .captured ∧
      (∃ handler ∈ (({} : CaptureSystem).run unwantedStack).handlers,
        handler.isHolding = true) ∧
      (({} : CaptureSystem).run
        (unwantedStack ++ [.handle 0 false, .handle 0 true])).isQuiet = true ∧
      (({} : CaptureSystem).run
        (unwantedStack ++ [.handle 0 false, .handle 0 true])).slot.state = .idle := by
  have captured : (({} : CaptureSystem).run unwantedStack).slot.state = .captured := by decide
  have quiet : (({} : CaptureSystem).run
      (unwantedStack ++ [.handle 0 false, .handle 0 true])).isQuiet = true := by decide
  exact ⟨captured, (idle_of_isQuiet_and_holding_of_captured unwantedStack).2 (.inl captured),
    quiet, (idle_of_isQuiet_and_holding_of_captured _).1 quiet⟩

end CaptureSystem

end StackSampler.Native
