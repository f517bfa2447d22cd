import StackSampler.Proofs.Native.Ownership

/-!
# Stacks that are captured while their thread is held

When captures follow one another, a capture that is answered has its pointers from one handler, and
this handler holds its thread from before the work of the capture begins until after it has ended.
The handler need not run on the thread that was asked: the slot does not say whose stack is
requested, so a signal of an earlier capture that comes late is taken for an answer.

The main statement is `Run.answered_by_one_handler`: the handler runs on the thread that was asked,
or on one that had a signal on its way, or a handler at its first step, as long as the capture was
trying to claim the slot.
-/

namespace StackSampler.Native

/-! ## Phases of a capture -/

namespace Capture

/-- Whether the work for which the thread is held lies ahead. -/
def IsAhead (capture : Capture) : Prop :=
  match capture.phase with
  | .beginning | .working | .releasing | .ended _ => False
  | _ => True

/-- Whether the work is about to begin, or done right now, or has just ended. -/
def IsDuring (capture : Capture) : Prop :=
  capture.phase = .beginning ∨ capture.phase = .working ∨ capture.phase = .releasing

variable {capture : Capture} {view : SamplerView} {slot : CaptureSlot}

theorem isAhead_or_isDuring (live : ¬ capture.hasEnded) : capture.IsAhead ∨ capture.IsDuring := by
  rcases capture with ⟨thread, phase, pointers⟩
  cases phase <;> simp_all [IsAhead, IsDuring, hasEnded]

theorem IsAhead.not_isDuring (ahead : capture.IsAhead) : ¬ capture.IsDuring := by
  rintro (phase | phase | phase) <;> simp [IsAhead, phase] at ahead

theorem IsDuring.not_hasEnded (during : capture.IsDuring) : ¬ capture.hasEnded := by
  rcases during with phase | phase | phase <;> simp [hasEnded, phase]

theorem step_of_hasEnded (ended : capture.hasEnded) : capture.step view slot = (capture, slot, []) := by
  rcases capture with ⟨thread, phase, pointers⟩
  cases phase <;> simp_all [hasEnded, step]

@[simp]
theorem thread_step : (capture.step view slot).1.thread = capture.thread := by
  rcases capture with ⟨thread, phase, pointers⟩
  cases phase with
  | awaiting =>
      simp only [step, afterLook]
      split <;> (try split) <;> rfl
  | reading remaining => cases remaining <;> rfl
  | claiming | signalling | withdrawing | releasing =>
      simp only [step]
      split <;> (try split) <;> rfl
  | _ => rfl

theorem isAhead_of_step (ahead : (capture.step view slot).1.IsAhead) : capture.IsAhead := by
  rcases capture with ⟨thread, phase, pointers⟩
  cases phase with
  | beginning | working | ended => exact ahead
  | releasing =>
      simp only [step] at ahead
      split at ahead <;> exact ahead
  | _ => trivial

/-- A sampler signals the thread that it captures, and no other. -/
theorem eq_of_mem_signals {thread : ThreadId} (sent : thread ∈ (capture.step view slot).2.2) :
    ¬ capture.hasEnded ∧ thread = capture.thread := by
  rcases capture with ⟨asked, phase, pointers⟩
  cases phase with
  | signalling =>
      simp only [step] at sent
      split at sent
      · cases sent
      · exact ⟨by simp [hasEnded], List.mem_singleton.mp sent⟩
  | claiming =>
      simp only [step] at sent
      split at sent <;> (try split at sent) <;> cases sent
  | withdrawing | releasing =>
      simp only [step] at sent
      split at sent <;> cases sent
  | _ => cases sent

/-- A capture is answered by letting a captured thread go. -/
theorem of_step_held {pointers : List Address} (live : ¬ capture.hasEnded)
    (answered : (capture.step view slot).1.phase = .ended (.held pointers)) :
    capture.phase = .releasing ∧ slot.state = .captured ∧ capture.pointers = pointers := by
  rcases capture with ⟨asked, phase, taken⟩
  cases phase with
  | releasing =>
      simp only [step] at answered
      split at answered
      case isTrue captured =>
        simp only [goTo, CapturePhase.ended.injEq, NativeAnswer.held.injEq] at answered
        exact ⟨rfl, captured, answered⟩
      case isFalse => cases answered
  | ended => exact absurd rfl live
  | claiming | withdrawing | signalling | awaiting =>
      simp only [step, afterLook] at answered
      split at answered <;> (try split at answered) <;> cases answered
  | reading remaining => cases remaining <;> cases answered
  | _ => cases answered

/-- What the slot may hold in each phase of the only capture that has not ended. -/
def Fits (capture : Capture) (slot : CaptureSlot) : Prop :=
  match capture.phase with
  | .claiming => (slot.state = .idle ∨ slot.state = .released) ∧ capture.pointers = []
  | .signalling | .givingBack _ | .awaiting | .withdrawing =>
      slot.state ≠ .released ∧ capture.pointers = []
  | .readingDepth => (slot.state = .idle ∨ slot.state = .captured) ∧ capture.pointers = []
  | .reading remaining => slot.state = .idle ∨ slot.state = .captured ∧
      capture.pointers.length + remaining = slot.depth ∧
      slot.recorded capture.pointers.length = capture.pointers
  | .beginning | .working | .releasing => slot.state = .idle ∨
      slot.state = .captured ∧ slot.recorded slot.depth = capture.pointers
  | .ended _ => slot.state = .idle ∨ slot.state = .released

theorem Fits.step (fits : capture.Fits slot) (view : SamplerView)
    (few : slot.state = .captured → slot.depth ≤ depthLimit) :
    (capture.step view slot).1.Fits (capture.step view slot).2.1 := by
  rcases capture with ⟨asked, phase, pointers⟩
  cases phase with
  | claiming =>
      rcases fits with ⟨state, unread⟩
      simp only [Capture.step]
      split
      · exact ⟨by simp, unread⟩
      split
      · exact state
      · exact ⟨state, unread⟩
  | signalling =>
      simp only [Capture.step]
      split <;> exact fits
  | givingBack errno => exact .inl rfl
  | awaiting =>
      rcases fits with ⟨taken, unread⟩
      simp only [Capture.step, afterLook]
      split
      case h_1 captured => exact ⟨.inr captured, unread⟩
      case h_2 idle => exact .inl idle
      case h_3 =>
        split <;> exact ⟨taken, unread⟩
      case h_4 => exact ⟨taken, unread⟩
  | withdrawing =>
      simp only [Capture.step]
      split
      · exact .inl rfl
      · exact fits
  | readingDepth =>
      rcases fits with ⟨idle | captured, unread⟩
      · exact .inl idle
      · obtain rfl : pointers = [] := unread
        have lengths : 0 + min slot.depth depthLimit = slot.depth := by
          rw [Nat.zero_add, Nat.min_eq_left (few captured)]
        exact .inr ⟨captured, lengths, rfl⟩
  | reading remaining =>
      rcases fits with idle | ⟨captured, lengths, read⟩
      · cases remaining <;> exact .inl idle
      cases remaining with
      | zero => exact .inr ⟨captured, lengths ▸ read⟩
      | succ remaining =>
          have grown : slot.recorded (pointers ++ [slot.pointers pointers.length]).length =
              pointers ++ [slot.pointers pointers.length] := by
            rw [List.length_append, List.length_singleton, CaptureSlot.recorded_succ, read]
          have left : (pointers ++ [slot.pointers pointers.length]).length + remaining =
              slot.depth := by
            rw [← lengths, List.length_append, List.length_singleton, Nat.add_right_comm]
            rfl
          exact .inr ⟨captured, left, grown⟩
  | beginning | working => exact fits
  | releasing =>
      simp only [Capture.step]
      split
      case isTrue => exact .inr rfl
      case isFalse unheld => exact .inl (fits.resolve_right fun captured => unheld captured.1)
  | ended => exact fits

theorem Fits.of_isDuring (fits : capture.Fits slot) (during : capture.IsDuring) :
    slot.state = .idle ∨ slot.state = .captured ∧ slot.recorded slot.depth = capture.pointers := by
  rcases during with phase | phase | phase <;> simpa only [Fits, phase] using fits

theorem Fits.of_hasEnded (fits : capture.Fits slot) (ended : capture.hasEnded) :
    slot.state = .idle ∨ slot.state = .released := by
  rcases capture with ⟨asked, phase, pointers⟩
  cases phase with
  | ended => exact fits
  | _ => simp [hasEnded] at ended

theorem Fits.handled {after : CaptureSlot} (fits : capture.Fits slot)
    (effect : Handler.Effect slot after) : capture.Fits after := by
  rcases capture with ⟨asked, phase, pointers⟩
  cases effect with
  | none => exact fits
  | take requested => cases phase <;> simp_all [Fits]
  | write capturing still => cases phase <;> simp_all [Fits]
  | publish capturing => cases phase <;> simp_all [Fits]
  | giveUp captured => cases phase <;> simp_all [Fits]
  | leave released => cases phase <;> simp_all [Fits]

end Capture

/-! ## Captures that follow one another -/

namespace CaptureSystem

variable {system : CaptureSystem}

theorem Owned.depth_le (owned : system.Owned) (captured : system.slot.state = .captured) :
    system.slot.depth ≤ depthLimit := by
  rcases owned.inUse (by simp [captured]) (by simp [captured]) with ⟨index, handler, atWork⟩
  have recorded := congrArg List.length ((owned.owns atWork).captured captured).2
  rw [CaptureSlot.length_recorded, Handler.recorded, List.length_take] at recorded
  omega

theorem Owned.handle_effect (owned : system.Owned) (index : Nat) (isLate : Bool) :
    Handler.Effect system.slot (system.step (.handle index isLate)).slot := by
  cases found : system.handlers[index]? with
  | none =>
      rw [step_handle_none isLate found]
      exact .none system.slot
  | some handler =>
      rw [step_handle isLate found]
      exact handler.step_effect isLate fun working => owned.owns ⟨found, working⟩

theorem step_sample_ended {index : Nat} {capture : Capture} (view : SamplerView)
    (found : system.captures[index]? = some capture) (ended : capture.hasEnded) :
    system.step (.sample index view) = system := by
  rw [step_sample view found, Capture.step_of_hasEnded ended]
  rcases List.getElem?_eq_some_iff.mp found with ⟨inside, rfl⟩
  rw [List.set_getElem_self, List.append_nil]

/-- All captures but the last one have ended, and the last one fits the slot. -/
structure Sequential (system : CaptureSystem) : Prop where
  owned : system.Owned
  past : ∀ {index : Nat} {capture : Capture}, system.captures[index]? = some capture →
    index + 1 < system.captures.length → capture.hasEnded
  fits : ∀ {index : Nat} {capture : Capture}, system.captures[index]? = some capture →
    index + 1 = system.captures.length → capture.Fits system.slot
  unused : system.captures = [] → system.slot.state = .idle

theorem Sequential.start : ({} : CaptureSystem).Sequential where
  owned := .of_free (fun one => by simp [AtWork] at one) rfl
  past found := by simp at found
  fits found := by simp at found
  unused _ := rfl

/-- A capture that has not ended is the last one. -/
theorem Sequential.isLast (sequential : system.Sequential) {index : Nat} {capture : Capture}
    (found : system.captures[index]? = some capture) (live : ¬ capture.hasEnded) :
    index + 1 = system.captures.length := by
  have inside := (List.getElem?_eq_some_iff.mp found).1
  by_contra differs
  exact live (sequential.past found (by omega))

/-- Between two captures the slot is idle, or let go and about to be idle. -/
theorem Sequential.atRest (sequential : system.Sequential)
    (ended : ∀ capture ∈ system.captures, capture.hasEnded) :
    system.slot.state = .idle ∨ system.slot.state = .released := by
  by_cases unused : system.captures = []
  · exact .inl (sequential.unused unused)
  · have length := List.length_pos_iff.mpr unused
    have found := List.getElem?_eq_getElem (l := system.captures)
      (i := system.captures.length - 1) (by omega)
    exact (sequential.fits found (by omega)).of_hasEnded (ended _ (List.getElem_mem _))

theorem Sequential.begin (sequential : system.Sequential) {thread : ThreadId}
    (admitted : system.Admits (.begin thread)) :
    (system.step (.begin thread)).Sequential where
  owned := sequential.owned.step admitted
  past {index capture} found before := by
    simp only [CaptureSystem.step, List.length_append, List.length_singleton] at found before
    rw [List.getElem?_append_left (by omega)] at found
    exact admitted capture (List.mem_of_getElem? found)
  fits {index capture} found last := by
    simp only [CaptureSystem.step, List.length_append, List.length_singleton] at found last
    obtain rfl : index = system.captures.length := by omega
    rw [List.getElem?_concat_length, Option.some.injEq] at found
    subst found
    exact ⟨sequential.atRest admitted, rfl⟩
  unused none := by simp [CaptureSystem.step] at none

theorem Sequential.sample (sequential : system.Sequential) {index : Nat} {view : SamplerView}
    (admitted : system.Admits (.sample index view)) :
    (system.step (.sample index view)).Sequential := by
  have owned := sequential.owned.step admitted
  cases found : system.captures[index]? with
  | none => rwa [step_sample_none view found]
  | some capture =>
      by_cases ended : capture.hasEnded
      · rwa [step_sample_ended view found ended]
      have last := sequential.isLast found ended
      have fits := (sequential.fits found last).step view sequential.owned.depth_le
      rw [step_sample view found] at owned ⊢
      refine ⟨owned, ?_, ?_, ?_⟩
      · intro other one here before
        rw [List.length_set] at before
        rw [List.getElem?_set_ne (by omega)] at here
        exact sequential.past here before
      · intro other one here isLast
        rw [List.length_set] at isLast
        obtain rfl : other = index := by omega
        rw [List.getElem?_set_self (by omega), Option.some.injEq] at here
        exact here ▸ fits
      · intro none
        rw [List.set_eq_nil_iff] at none
        rw [none] at last
        cases last

theorem Sequential.handle (sequential : system.Sequential) (index : Nat) (isLate : Bool) :
    (system.step (.handle index isLate)).Sequential := by
  have effect := sequential.owned.handle_effect index isLate
  have captures := system.captures_handle index isLate
  refine ⟨sequential.owned.handle index isLate, ?_, ?_, ?_⟩
  · intro other one here before
    rw [captures] at here before
    exact sequential.past here before
  · intro other one here last
    rw [captures] at here last
    exact (sequential.fits here last).handled effect
  · intro none
    rw [captures] at none
    exact effect.idle (sequential.unused none)

theorem Sequential.step (sequential : system.Sequential) {move : CaptureMove}
    (admitted : system.Admits move) : (system.step move).Sequential := by
  cases move with
  | begin thread => exact sequential.begin admitted
  | sample index view => exact sequential.sample admitted
  | handle index isLate => exact sequential.handle index isLate
  | deliver index stack =>
      have captures := system.captures_deliver index stack
      have slot := system.slot_deliver index stack
      exact ⟨sequential.owned.step trivial, captures ▸ sequential.past,
        captures ▸ slot ▸ sequential.fits, captures ▸ slot ▸ sequential.unused⟩

/-! ## Whose signals may be answered -/

/-- A thread has a signal on its way, or a handler that has not looked at the slot yet. -/
def Pending (system : CaptureSystem) (thread : ThreadId) : Prop :=
  thread ∈ system.signals ∨
    ∃ handler ∈ system.handlers, handler.phase = .entering ∧ handler.thread = thread

/-- A thread may answer the capture that has claimed the slot, or has just answered it. -/
def MayAnswer (system : CaptureSystem) (thread : ThreadId) : Prop :=
  system.Pending thread ∨ system.slot.state ≠ .released ∧
    ∃ index handler, system.AtWork index handler ∧ handler.thread = thread

theorem atWork_sample {index : Nat} {view : SamplerView} {other : Nat} {handler : Handler} :
    (system.step (.sample index view)).AtWork other handler ↔ system.AtWork other handler := by
  rw [AtWork, handlers_sample, AtWork]

/-- A handler that is at work was so before, or has just taken up a request. -/
theorem atWork_before {move : CaptureMove} {index : Nat} {after : Handler}
    (atWork : (system.step move).AtWork index after) :
    (∃ before, system.AtWork index before ∧ before.thread = after.thread ∧
      before.recorded = after.recorded) ∨
    system.slot.state = .requested ∧ system.Pending after.thread := by
  cases move with
  | begin thread => exact .inl ⟨after, atWork, rfl, rfl⟩
  | sample => exact .inl ⟨after, atWork_sample.mp atWork, rfl, rfl⟩
  | deliver => exact .inl ⟨after, atWork_deliver.mp atWork, rfl, rfl⟩
  | handle moved isLate =>
      cases found : system.handlers[moved]? with
      | none =>
          rw [step_handle_none isLate found] at atWork
          exact .inl ⟨after, atWork, rfl, rfl⟩
      | some handler =>
          rcases (atWork_handle found).mp atWork with ⟨_, still⟩ | ⟨rfl, rfl, works⟩
          · exact .inl ⟨after, still, rfl, rfl⟩
          by_cases working : handler.IsAtWork
          · exact .inl ⟨handler, ⟨found, working⟩, by simp, by simp⟩
          · rcases Handler.step_of_not_isAtWork isLate working with
              ⟨resting, _⟩ | ⟨entering, requested, _, _⟩
            · exact absurd works resting
            · exact .inr ⟨requested, .inr ⟨handler, List.mem_of_getElem? found, entering, by simp⟩⟩

theorem pending_before {move : CaptureMove} {thread : ThreadId}
    (pending : (system.step move).Pending thread) :
    system.Pending thread ∨ ∃ (index : Nat) (capture : Capture),
      system.captures[index]? = some capture ∧ ¬ capture.hasEnded ∧ thread = capture.thread := by
  cases move with
  | begin => exact .inl pending
  | sample index view =>
      cases found : system.captures[index]? with
      | none =>
          rw [step_sample_none view found] at pending
          exact .inl pending
      | some capture =>
          rw [step_sample view found] at pending
          rcases pending with sent | entering
          · rcases List.mem_append.mp sent with old | new
            · exact .inl (.inl old)
            · rcases Capture.eq_of_mem_signals new with ⟨live, same⟩
              exact .inr ⟨index, capture, found, live, same⟩
          · exact .inl (.inr entering)
  | deliver index stack =>
      left
      cases found : system.signals[index]? with
      | none => rwa [step_deliver_none stack found] at pending
      | some signalled =>
          rw [step_deliver stack found] at pending
          rcases pending with sent | ⟨handler, member, entering, same⟩
          · exact .inl (List.mem_of_mem_eraseIdx sent)
          · rcases List.mem_append.mp member with old | new
            · exact .inr ⟨handler, old, entering, same⟩
            · rw [List.mem_singleton] at new
              subst new
              exact .inl (same ▸ List.mem_of_getElem? found)
  | handle index isLate =>
      left
      cases found : system.handlers[index]? with
      | none => rwa [step_handle_none isLate found] at pending
      | some moved =>
          rw [step_handle isLate found] at pending
          rcases pending with sent | ⟨handler, member, entering, same⟩
          · exact .inl sent
          · rcases List.mem_or_eq_of_mem_set member with old | rfl
            · exact .inr ⟨handler, old, entering, same⟩
            · exact absurd entering (moved.step_phase_ne_entering isLate)

/-- What a move does to the slot. -/
theorem Owned.slot_step (owned : system.Owned) {move : CaptureMove}
    (admitted : system.Admits move) :
    Capture.Effect system.slot (system.step move).slot ∨
      Handler.Effect system.slot (system.step move).slot ∨
      (system.step move).slot.state = .idle := by
  cases move with
  | begin => exact .inl (.none _)
  | sample index view =>
      cases found : system.captures[index]? with
      | none =>
          rw [step_sample_none view found]
          exact .inl (.none _)
      | some capture =>
          rw [step_sample view found]
          rcases capture.step_effect system.slot view with effect | ⟨_, idle⟩
          · exact .inl effect
          · exact .inr (.inr (congrArg CaptureSlot.state idle))
  | deliver index stack =>
      rw [slot_deliver]
      exact .inl (.none _)
  | handle index isLate => exact .inr (.inl (owned.handle_effect index isLate))

/-- The stack was captured before a move after which it still is, or was just being captured. -/
theorem Owned.captured_before (owned : system.Owned) {move : CaptureMove}
    (admitted : system.Admits move) (captured : (system.step move).slot.state = .captured) :
    system.slot.state = .captured ∨ system.slot.state = .capturing := by
  have effects := owned.slot_step admitted
  generalize (system.step move).slot = after at effects captured
  rcases effects with effect | effect | idle
  · cases effect <;> simp_all
  · cases effect <;> simp_all
  · simp [captured] at idle

theorem Owned.released_after (owned : system.Owned) {move : CaptureMove}
    (admitted : system.Admits move) (released : system.slot.state = .released) :
    (system.step move).slot.state = .released ∨ (system.step move).slot.state = .idle := by
  have effects := owned.slot_step admitted
  generalize (system.step move).slot = after at effects ⊢
  rcases effects with effect | effect | idle
  · cases effect <;> simp_all
  · cases effect <;> simp_all
  · exact .inr idle

theorem mayAnswer_before (owned : system.Owned) {move : CaptureMove}
    (admitted : system.Admits move) {thread : ThreadId}
    (may : (system.step move).MayAnswer thread) :
    system.MayAnswer thread ∨ ∃ (index : Nat) (capture : Capture),
      system.captures[index]? = some capture ∧ ¬ capture.hasEnded ∧ thread = capture.thread := by
  rcases may with pending | ⟨unreleased, index, after, atWork, rfl⟩
  · exact (pending_before pending).imp_left .inl
  rcases atWork_before atWork with ⟨before, wasAtWork, same, _⟩ | ⟨_, pending⟩
  · refine .inl (.inr ⟨fun released => ?_, index, before, wasAtWork, same⟩)
    have state := ((owned.step admitted).owns atWork).state
    rcases owned.released_after admitted released with still | idle
    · exact unreleased still
    · simp [idle] at state
  · exact .inl (.inl pending)

/-- Where the captures after a move come from. -/
theorem capture_before {move : CaptureMove} {index : Nat} {after : Capture}
    (found : (system.step move).captures[index]? = some after) :
    system.captures[index]? = some after ∨
    (∃ thread, move = .begin thread ∧ index = system.captures.length ∧
      after = { thread := thread }) ∨
    ∃ capture view, move = .sample index view ∧ system.captures[index]? = some capture ∧
      after = (capture.step view system.slot).1 := by
  cases move with
  | begin thread =>
      simp only [step, List.getElem?_append] at found
      split at found
      case isTrue => exact .inl found
      case isFalse outside =>
        rw [List.getElem?_singleton] at found
        split at found <;> cases found
        exact .inr (.inl ⟨thread, rfl, by omega, rfl⟩)
  | sample moved view =>
      cases here : system.captures[moved]? with
      | none =>
          rw [step_sample_none view here] at found
          exact .inl found
      | some capture =>
          simp only [step_sample view here, List.getElem?_set] at found
          split at found
          case isTrue same =>
            subst moved
            split at found <;> cases found
            exact .inr (.inr ⟨capture, view, rfl, here, rfl⟩)
          case isFalse => exact .inl found
  | deliver => exact .inl (captures_deliver system _ _ ▸ found)
  | handle => exact .inl (captures_handle system _ _ ▸ found)

/-! ## Runs -/

/-- The work of a capture is about to begin, or done right now, or has just ended. -/
def During (system : CaptureSystem) (index : Nat) : Prop :=
  ∃ capture, system.captures[index]? = some capture ∧ capture.IsDuring

/-- A capture is trying to claim the slot. -/
def Claiming (system : CaptureSystem) (index : Nat) : Prop :=
  ∃ capture, system.captures[index]? = some capture ∧ capture.phase = .claiming

theorem During.isDuring {index : Nat} {capture : Capture} (during : system.During index)
    (found : system.captures[index]? = some capture) : capture.IsDuring := by
  rcases during with ⟨other, same, isDuring⟩
  rw [found, Option.some.injEq] at same
  exact same ▸ isDuring

theorem Claiming.phase_eq {index : Nat} {capture : Capture} (claiming : system.Claiming index)
    (found : system.captures[index]? = some capture) : capture.phase = .claiming := by
  rcases claiming with ⟨other, same, phase⟩
  rw [found, Option.some.injEq] at same
  exact same ▸ phase

/-- A handler on a thread has recorded some pointers and waits to be let go. -/
def Holds (system : CaptureSystem) (index : Nat) (thread : ThreadId) (pointers : List Address) :
    Prop :=
  ∃ handler, system.handlers[index]? = some handler ∧ handler.thread = thread ∧
    handler.recorded = pointers ∧ handler.IsHolding

/-- A system that is reached by admitted moves, and all that it has been on the way. -/
inductive Run : List CaptureSystem → CaptureSystem → Prop where
  | start : Run [{}] {}
  | step {visited : List CaptureSystem} {system : CaptureSystem} {move : CaptureMove}
      (run : Run visited system) (admitted : system.Admits move) :
      Run (system.step move :: visited) (system.step move)

/--
A handler has recorded the pointers that a capture got, and has held its thread from before the
work of the capture began until after it ended.  Its thread was asked, or could have answered
anyone as long as the capture was trying to claim the slot.
-/
structure AnsweredBy (visited : List CaptureSystem) (index : Nat) (asked : ThreadId)
    (pointers : List Address) (handler : Nat) (thread : ThreadId) : Prop where
  claims : ∃ moment ∈ visited, moment.Claiming index
  works : ∃ moment ∈ visited, moment.During index
  holds : ∀ moment ∈ visited, moment.During index → moment.Holds handler thread pointers
  origin : ∀ moment ∈ visited, moment.Claiming index → thread = asked ∨ moment.Pending thread

/-- What has been the case for a capture that has not ended. -/
structure Live (visited : List CaptureSystem) (system : CaptureSystem) (index : Nat)
    (capture : Capture) : Prop where
  claims : ∃ moment ∈ visited, moment.Claiming index
  ahead : capture.IsAhead → ∀ moment ∈ visited, ¬ moment.During index
  during : capture.IsDuring → system.slot.state = .captured →
    ∀ {owner : Nat} {handler : Handler}, system.AtWork owner handler →
      ∀ moment ∈ visited, moment.During index →
        moment.Holds owner handler.thread handler.recorded
  origin : ∀ {thread : ThreadId}, system.MayAnswer thread →
    ∀ moment ∈ visited, moment.Claiming index → thread = capture.thread ∨ moment.Pending thread

/-- What has been the case for all captures so far. -/
structure Chronicle (visited : List CaptureSystem) (system : CaptureSystem) : Prop where
  sequential : system.Sequential
  now : system ∈ visited
  grown : ∀ moment ∈ visited, moment.captures.length ≤ system.captures.length
  live : ∀ {index : Nat} {capture : Capture}, system.captures[index]? = some capture →
    ¬ capture.hasEnded → Live visited system index capture
  answered : ∀ {index : Nat} {capture : Capture} {pointers : List Address},
    system.captures[index]? = some capture → capture.phase = .ended (.held pointers) →
    ∃ handler thread, AnsweredBy visited index capture.thread pointers handler thread

/-- Once a capture has ended, nothing more happens to it. -/
theorem AnsweredBy.cons {visited : List CaptureSystem} {index : Nat} {asked : ThreadId}
    {pointers : List Address} {handler : Nat} {thread : ThreadId}
    (answered : AnsweredBy visited index asked pointers handler thread) {capture : Capture}
    (found : system.captures[index]? = some capture) (ended : capture.hasEnded) :
    AnsweredBy (system :: visited) index asked pointers handler thread where
  claims := answered.claims.imp fun _ claiming => ⟨List.mem_cons_of_mem _ claiming.1, claiming.2⟩
  works := answered.works.imp fun _ during => ⟨List.mem_cons_of_mem _ during.1, during.2⟩
  holds moment member during := by
    rcases List.mem_cons.mp member with rfl | earlier
    · exact absurd ended (during.isDuring found).not_hasEnded
    · exact answered.holds moment earlier during
  origin moment member claiming := by
    rcases List.mem_cons.mp member with rfl | earlier
    · simp [Capture.hasEnded, claiming.phase_eq found] at ended
    · exact answered.origin moment earlier claiming

/-- While a capture tries to claim the slot, only signals on their way may be answered later. -/
theorem Sequential.pending_of_claiming (sequential : system.Sequential) {index : Nat}
    {thread : ThreadId} (claiming : system.Claiming index) (may : system.MayAnswer thread) :
    system.Pending thread := by
  rcases may with pending | ⟨unreleased, owner, handler, atWork, _⟩
  · exact pending
  rcases claiming with ⟨capture, found, phase⟩
  have fits := sequential.fits found (sequential.isLast found (by simp [Capture.hasEnded, phase]))
  rw [Capture.Fits, phase] at fits
  have idle := fits.1.resolve_right unreleased
  have state := (sequential.owned.owns atWork).state
  simp [idle] at state

namespace Chronicle

variable {visited : List CaptureSystem} {move : CaptureMove}

/-- A capture that has not ended, one move later. -/
theorem live_step (chronicle : Chronicle visited system) (admitted : system.Admits move)
    {index : Nat} {capture after : Capture} (was : system.captures[index]? = some capture)
    (wasLive : ¬ capture.hasEnded) (sameThread : after.thread = capture.thread)
    (isAhead : after.IsAhead → capture.IsAhead)
    (found : (system.step move).captures[index]? = some after) :
    Live (system.step move :: visited) (system.step move) index after := by
  have before := chronicle.live was wasLive
  have last := chronicle.sequential.isLast was wasLive
  have next := chronicle.sequential.step admitted
  constructor
  case claims =>
    exact before.claims.imp fun _ claiming => ⟨List.mem_cons_of_mem _ claiming.1, claiming.2⟩
  case ahead =>
    intro ahead moment member during
    rcases List.mem_cons.mp member with rfl | earlier
    · exact ahead.not_isDuring (during.isDuring found)
    · exact before.ahead (isAhead ahead) moment earlier during
  case during =>
    intro during captured owner handler atWork moment member duringThen
    rcases List.mem_cons.mp member with rfl | earlier
    · exact ⟨handler, atWork.1, rfl, rfl, ((next.owned.owns atWork).captured captured).1⟩
    rcases Capture.isAhead_or_isDuring wasLive with ahead | wasDuring
    · exact absurd duringThen (before.ahead ahead moment earlier)
    -- The capture has read the stack, so the slot is not about to be captured anew.
    have wasCaptured : system.slot.state = .captured := by
      have fits := (chronicle.sequential.fits was last).of_isDuring wasDuring
      rcases chronicle.sequential.owned.captured_before admitted captured with
        isCaptured | capturing
      · exact isCaptured
      · simp [capturing] at fits
    rcases atWork_before atWork with ⟨same, wasAtWork, thread, recorded⟩ | ⟨requested, _⟩
    · rw [← thread, ← recorded]
      exact before.during wasDuring wasCaptured wasAtWork moment earlier duringThen
    · simp [wasCaptured] at requested
  case origin =>
    intro thread may moment member claiming
    rcases List.mem_cons.mp member with rfl | earlier
    · exact .inr (next.pending_of_claiming claiming may)
    rw [sameThread]
    rcases mayAnswer_before chronicle.sequential.owned admitted may with
      earlierMay | ⟨other, one, otherFound, otherLive, rfl⟩
    · exact before.origin earlierMay moment earlier claiming
    -- A signal that is new is one of this capture, as all others have ended.
    · have otherLast := chronicle.sequential.isLast otherFound otherLive
      obtain rfl : other = index := by omega
      rw [was, Option.some.injEq] at otherFound
      exact .inl (otherFound ▸ rfl)

/-- A capture that has just begun. -/
theorem live_begin (chronicle : Chronicle visited system) {thread : ThreadId}
    (admitted : system.Admits (.begin thread)) :
    Live (system.step (.begin thread) :: visited) (system.step (.begin thread))
      system.captures.length { thread := thread } := by
  have next := chronicle.sequential.step admitted
  have missing {moment : CaptureSystem} (earlier : moment ∈ visited) :
      moment.captures[system.captures.length]? = none :=
    List.getElem?_eq_none (chronicle.grown moment earlier)
  have found : (system.step (.begin thread)).captures[system.captures.length]? =
      some { thread := thread } := List.getElem?_concat_length
  constructor
  case claims => exact ⟨_, List.mem_cons_self, _, found, rfl⟩
  case ahead =>
    intro ahead moment member during
    rcases List.mem_cons.mp member with rfl | earlier
    · exact ahead.not_isDuring (during.isDuring found)
    · rcases during with ⟨one, same, _⟩
      rw [missing earlier] at same
      cases same
  case during =>
    intro during
    exact absurd during (Capture.IsAhead.not_isDuring trivial)
  case origin =>
    intro other may moment member claiming
    rcases List.mem_cons.mp member with rfl | earlier
    · exact .inr (next.pending_of_claiming claiming may)
    · rcases claiming with ⟨one, same, _⟩
      rw [missing earlier] at same
      cases same

/-- A capture that is answered has been answered by the owner of the slot. -/
theorem answered_step (chronicle : Chronicle visited system) {view : SamplerView}
    {index : Nat} {capture : Capture} {pointers : List Address}
    (was : system.captures[index]? = some capture) (wasLive : ¬ capture.hasEnded)
    (answered : (capture.step view system.slot).1.phase = .ended (.held pointers)) :
    ∃ handler thread, AnsweredBy visited index capture.thread pointers handler thread := by
  rcases Capture.of_step_held wasLive answered with ⟨releasing, captured, rfl⟩
  have before := chronicle.live was wasLive
  have during : capture.IsDuring := .inr (.inr releasing)
  have fits := (chronicle.sequential.fits was (chronicle.sequential.isLast was wasLive)).of_isDuring
    during
  rcases chronicle.sequential.owned.inUse (by simp [captured]) (by simp [captured]) with
    ⟨owner, handler, atWork⟩
  have recorded : handler.recorded = capture.pointers := by
    have slot := ((chronicle.sequential.owned.owns atWork).captured captured).2
    rcases fits with idle | ⟨_, read⟩
    · simp [captured] at idle
    · exact slot.symm.trans read
  refine ⟨owner, handler.thread, before.claims, ⟨system, chronicle.now, capture, was, during⟩, ?_,
    before.origin (.inr ⟨by simp [captured], owner, handler, atWork, rfl⟩)⟩
  rw [← recorded]
  exact before.during during captured atWork

theorem grown_step (chronicle : Chronicle visited system) :
    ∀ moment ∈ system.step move :: visited,
      moment.captures.length ≤ (system.step move).captures.length := by
  have grows : system.captures.length ≤ (system.step move).captures.length := by
    cases move with
    | begin => simp [CaptureSystem.step]
    | sample =>
        simp only [CaptureSystem.step]
        split <;> simp
    | deliver => exact captures_deliver system _ _ ▸ Nat.le_refl _
    | handle => exact captures_handle system _ _ ▸ Nat.le_refl _
  intro moment member
  rcases List.mem_cons.mp member with rfl | earlier
  · exact Nat.le_refl _
  · exact Nat.le_trans (chronicle.grown moment earlier) grows

theorem step (chronicle : Chronicle visited system) (admitted : system.Admits move) :
    Chronicle (system.step move :: visited) (system.step move) where
  sequential := chronicle.sequential.step admitted
  now := List.mem_cons_self
  grown := chronicle.grown_step
  live {index after} found live := by
    rcases capture_before found with
      same | ⟨thread, rfl, rfl, rfl⟩ | ⟨capture, view, rfl, was, rfl⟩
    · exact chronicle.live_step admitted same live rfl id found
    · exact chronicle.live_begin admitted
    · have wasLive : ¬ capture.hasEnded := by
        intro ended
        rw [Capture.step_of_hasEnded ended] at live
        exact live ended
      exact chronicle.live_step admitted was wasLive Capture.thread_step Capture.isAhead_of_step
        found
  answered {index after pointers} found answered := by
    have ended : after.hasEnded := by simp [Capture.hasEnded, answered]
    rcases capture_before found with
      same | ⟨thread, rfl, rfl, rfl⟩ | ⟨capture, view, rfl, was, rfl⟩
    · rcases chronicle.answered same answered with ⟨handler, thread, answer⟩
      exact ⟨handler, thread, answer.cons found ended⟩
    · cases answered
    · have earlier : ∃ handler thread,
          AnsweredBy visited index capture.thread pointers handler thread := by
        by_cases wasEnded : capture.hasEnded
        · rw [Capture.step_of_hasEnded wasEnded] at answered
          exact chronicle.answered was answered
        · exact chronicle.answered_step was wasEnded answered
      rcases earlier with ⟨handler, thread, answer⟩
      rw [Capture.thread_step]
      exact ⟨handler, thread, answer.cons found ended⟩

end Chronicle

theorem Run.chronicle {visited : List CaptureSystem} (run : Run visited system) :
    Chronicle visited system := by
  induction run with
  | start =>
      refine ⟨.start, List.mem_singleton_self _, ?_, fun found => ?_, fun found => ?_⟩
      · simp
      · simp at found
      · simp at found
  | step _ admitted induction => exact induction.step admitted

theorem Run.append {visited : List CaptureSystem} (run : Run visited system)
    (moves : List CaptureMove) (admitted : system.AdmitsAll moves) :
    ∃ moments, Run moments (system.run moves) := by
  induction moves generalizing visited system with
  | nil => exact ⟨visited, run⟩
  | cons move rest induction => exact induction (run.step admitted.1) admitted.2

theorem thread_step {move : CaptureMove} {index : Nat} {handler : Handler}
    (found : system.handlers[index]? = some handler) :
    ∃ later, (system.step move).handlers[index]? = some later ∧
      later.thread = handler.thread := by
  have inside := (List.getElem?_eq_some_iff.mp found).1
  cases move with
  | begin => exact ⟨handler, found, rfl⟩
  | sample => exact ⟨handler, handlers_sample system _ _ ▸ found, rfl⟩
  | deliver =>
      simp only [step]
      split
      · exact ⟨handler, found, rfl⟩
      · exact ⟨handler, by rw [List.getElem?_append_left inside, found], rfl⟩
  | handle moved isLate =>
      cases here : system.handlers[moved]? with
      | none => exact ⟨handler, by rw [step_handle_none isLate here, found], rfl⟩
      | some mover =>
          rw [step_handle isLate here]
          by_cases same : moved = index
          · subst moved
            rw [found, Option.some.injEq] at here
            subst mover
            exact ⟨_, List.getElem?_set_self inside, Handler.thread_step isLate⟩
          · exact ⟨handler, by rw [List.getElem?_set_ne same, found], rfl⟩

/-- A handler stays on its thread. -/
theorem Run.thread_kept {visited : List CaptureSystem} (run : Run visited system)
    {moment : CaptureSystem} (member : moment ∈ visited) {index : Nat} {handler : Handler}
    (found : moment.handlers[index]? = some handler) :
    ∃ later, system.handlers[index]? = some later ∧ later.thread = handler.thread := by
  induction run with
  | start =>
      rw [List.mem_singleton.mp member] at found
      exact ⟨handler, found, rfl⟩
  | step _ _ induction =>
      rcases List.mem_cons.mp member with rfl | earlier
      · exact ⟨handler, found, rfl⟩
      · rcases induction earlier with ⟨middle, here, same⟩
        rcases thread_step here with ⟨later, there, kept⟩
        exact ⟨later, there, kept.trans same⟩

/--
If captures follow one another, and a sampler whose signal was refused gives the slot back only
while no handler is at work, then each answered capture has been answered by one handler.
-/
theorem Run.answered_by_one_handler {visited : List CaptureSystem} (run : Run visited system)
    {index : Nat} {capture : Capture} {pointers : List Address}
    (found : system.captures[index]? = some capture)
    (answered : capture.phase = .ended (.held pointers)) :
    ∃ handler thread, AnsweredBy visited index capture.thread pointers handler thread :=
  run.chronicle.answered found answered

/-- A capture whose thread answers at once. -/
def promptAnswer : List CaptureMove :=
  let next (isLate : Bool) := CaptureMove.sample 0 ⟨isLate, none⟩
  [.begin 2, next false, next false, .deliver 0 [0xB1, 0xB2]] ++
    List.replicate 6 (.handle 0 false) ++ List.replicate 9 (next true) ++
    List.replicate 3 (.handle 0 false)

theorem Run.answered_by_one_handler_promptAnswer :
    ∃ visited, Run visited (({} : CaptureSystem).run promptAnswer) ∧
      (({} : CaptureSystem).run promptAnswer).captures[0]? =
        some ⟨2, .ended (.held [0xB1, 0xB2]), [0xB1, 0xB2]⟩ ∧
      ∃ handler thread, AnsweredBy visited 0 2 [0xB1, 0xB2] handler thread := by
  rcases Run.start.append promptAnswer (by decide) with ⟨visited, run⟩
  have found : (({} : CaptureSystem).run promptAnswer).captures[0]? =
      some ⟨2, .ended (.held [0xB1, 0xB2]), [0xB1, 0xB2]⟩ := by decide
  exact ⟨visited, run, found, run.answered_by_one_handler found rfl⟩

/--
A thread is asked and does not answer in time; another one is asked, and then the signal reaches
the first.
-/
def lateAnswer : List CaptureMove :=
  let first (isLate : Bool) := CaptureMove.sample 0 ⟨isLate, none⟩
  let second := CaptureMove.sample 1 ⟨false, none⟩
  [.begin 1, first false, first false, first true, first true, .begin 2, second, second,
    .deliver 0 [0xA1]] ++ List.replicate 5 (.handle 0 false) ++ List.replicate 7 second

theorem not_answered_by_asked_thread :
    ∃ visited, Run visited (({} : CaptureSystem).run lateAnswer) ∧
      (({} : CaptureSystem).run lateAnswer).captures[1]? =
        some ⟨2, .ended (.held [0xA1]), [0xA1]⟩ ∧
      ∀ handler, ¬ AnsweredBy visited 1 2 [0xA1] handler 2 := by
  rcases Run.start.append lateAnswer (by decide) with ⟨visited, run⟩
  refine ⟨visited, run, by decide, fun handler answered => ?_⟩
  rcases answered.works with ⟨moment, member, during⟩
  rcases answered.holds moment member during with ⟨holder, found, thread, _⟩
  rcases run.thread_kept member found with ⟨later, still, same⟩
  have threads : (({} : CaptureSystem).run lateAnswer).handlers.map Handler.thread = [1] := by
    decide
  have one : later.thread ∈ [1] :=
    threads ▸ List.mem_map_of_mem (List.mem_of_getElem? still)
  rw [same, thread, List.mem_singleton] at one
  cases one

/--
A signal is refused while a handler of an earlier capture is at work: the slot is made idle, a third
thread is asked, and both handlers record their pointers into the slot.
-/
def spoiledAnswer : List CaptureMove :=
  let next (capture : Nat) (isLate : Bool) := CaptureMove.sample capture ⟨isLate, none⟩
  [.begin 1, next 0 false, next 0 false, next 0 true, next 0 true,
    .begin 2, next 1 false, .deliver 0 [0xA1, 0xA2], .handle 0 false,
    .sample 1 ⟨false, some 3⟩, next 1 false,
    .begin 3, next 2 false, next 2 false, .deliver 0 [0xC1], .handle 1 false,
    .handle 0 false, .handle 0 false, .handle 1 false, .handle 0 false, .handle 0 false,
    .handle 0 false] ++ List.replicate 8 (next 2 false)

/-- Without care for refused signals, a capture may get a stack that no handler has recorded. -/
theorem mixed_pointers_spoiledAnswer :
    (({} : CaptureSystem).run spoiledAnswer).captures[2]? =
        some ⟨3, .ended (.held [0xC1, 0xA2]), [0xC1, 0xA2]⟩ ∧
      (({} : CaptureSystem).run spoiledAnswer).handlers.map Handler.recorded =
        [[0xA1, 0xA2], [0xC1]] := by
  decide

end CaptureSystem

end StackSampler.Native
