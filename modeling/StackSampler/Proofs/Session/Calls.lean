import Mathlib.Data.List.Basic
import StackSampler.Session.Slot

/-!
# The calls of a host

A host calls from one thread.  It starts sessions, stops them and reports to them; between two calls
the session in the slot goes on by itself.  Whatever a call finds of the sampled program, and
whatever else a start depends on, is arbitrary.

`Answered` gives the rules for one call: how it may be answered, and what it leaves in the slot.
`Commences` gives the rules for how a session begins, which know nothing of earlier sessions.

The main statement is `call_answered`: after any history a session is in the slot exactly if the
last start that succeeded has no stop after it, and the next call follows the rules.
-/

namespace StackSampler

variable {σ : Type}

/-- A call that a host makes. -/
inductive HostCall where
  | start (context : StartContext) (request : StartRequest)
  | stop
  | notify (now : Nanoseconds) (notification : Notification)

/-- What a session does between two calls of its host. -/
inductive Meanwhile where
  | cycled (now : Nanoseconds) (dumpRequested : Bool)
  /-- The delivery of a dump goes on. -/
  | progressed
  /-- The channel of a dump is read to its end. -/
  | channelRead

/-- What a host is told of how a start or a stop went. -/
def SlotAnswer.ofResult : Except SessionError Unit → SlotAnswer
  | .ok () => .done
  | .error _ => .failed

/-- What becomes of a session and its channel, which find the sampled program in some state. -/
def Occupant.goOn (occupant : Occupant σ) (subject : σ) : Meanwhile → Occupant σ
  | .cycled now dumpRequested =>
      let (cycle, _) := (occupant.session.cycle occupant.host now dumpRequested).run subject
      { occupant with session := cycle.session }
  | .progressed =>
      let (session, channel) := occupant.session.progress occupant.channel
      { occupant with session, channel }
  | .channelRead =>
      let (_, session, channel) := occupant.session.readChannel occupant.channel
      { occupant with session, channel }

namespace SessionSlot

/-- Does what a host calls for, and answers it. -/
def call (machine : Machine σ) (slot : SessionSlot σ) :
    HostCall → StateM σ (SlotAnswer × SessionSlot σ)
  | .start context request => do
      let (result, slot) ← slot.start machine context request
      pure (.ofResult result, slot)
  | .stop =>
      let (answer, _, slot) := slot.stop
      pure (answer, slot)
  | .notify now notification => slot.notify now notification

/-! ## The rules for one call -/

/-- What a session observes that a host asks for. -/
def hostFor (machine : Machine σ) (request : StartRequest) (layout : Layout) : Host σ :=
  machine.host (⟨machine.reader, layout, request.interpreter⟩ : Structures σ).interpreter

/--
How the session may begin that a host asks for, or why it cannot, and how that leaves the sampled
program.  A session that begins has had no reports before.
-/
inductive Commences (machine : Machine σ) (context : StartContext) (request : StartRequest)
    (subject : σ) : Except SessionError (Occupant σ) → σ → Prop where
  | unreadable {defect : ConfigError} (unread : request.read = .error defect) :
      Commences machine context request subject (.error (.configuration defect)) subject
  | invalid {configuration : Configuration} {layout : Layout} {defect : ConfigError}
      (read : request.read = .ok (configuration, layout))
      (invalid : configuration.defect? = some defect) :
      Commences machine context request subject (.error (.configuration defect)) subject
  /-- Something could not be set up. -/
  | prevented {configuration : Configuration} {layout : Layout} {error : SessionError}
      {session : Session} {world : σ} (read : request.read = .ok (configuration, layout))
      (valid : configuration.defect? = none)
      (started : (Session.start (hostFor machine request layout)
        { configuration := configuration, population := {}, activity := none } context).run
          subject = ((.error error, session), world)) :
      Commences machine context request subject (.error error) world
  | begins {configuration : Configuration} {layout : Layout} {session : Session} {world : σ}
      (read : request.read = .ok (configuration, layout)) (valid : configuration.defect? = none)
      (started : (Session.start (hostFor machine request layout)
        { configuration := configuration, population := {}, activity := none } context).run
          subject = ((.ok (), session), world)) :
      Commences machine context request subject
        (.ok
          { session := (session.progress request.channel).1
            host := hostFor machine request layout
            channel := (session.progress request.channel).2 }) world

/-- How a call may be answered, and what it leaves of the slot and of the sampled program. -/
inductive Answered (machine : Machine σ) (slot : SessionSlot σ) (subject : σ) :
    HostCall → SlotAnswer → SessionSlot σ → σ → Prop where
  /-- Where a session is nothing is started, whatever is asked for, and nothing is touched. -/
  | barred {occupant : Occupant σ} (full : slot.occupant = some occupant) (context : StartContext)
      (request : StartRequest) :
      Answered machine slot subject (.start context request) .failed slot subject
  | refused {context : StartContext} {request : StartRequest} {error : SessionError} {world : σ}
      (empty : slot.occupant = none)
      (fails : Commences machine context request subject (.error error) world) :
      Answered machine slot subject (.start context request) .failed slot world
  | started {context : StartContext} {request : StartRequest} {occupant : Occupant σ} {world : σ}
      (empty : slot.occupant = none)
      (begins : Commences machine context request subject (.ok occupant) world) :
      Answered machine slot subject (.start context request) .done
        { slot with occupant := some occupant } world
  | nothingToStop (empty : slot.occupant = none) :
      Answered machine slot subject .stop .noSession slot subject
  /-- The slot is emptied however the session ends. -/
  | stopped {occupant : Occupant σ} (full : slot.occupant = some occupant) :
      Answered machine slot subject .stop
        (.ofResult (occupant.session.stop occupant.channel).result)
        { slot with occupant := none } subject
  | unheard (empty : slot.occupant = none) (now : Nanoseconds) (notification : Notification) :
      Answered machine slot subject (.notify now notification) .noSession slot subject
  | heard {occupant : Occupant σ} {now : Nanoseconds} {notification : Notification}
      {session : Session} {world : σ} (full : slot.occupant = some occupant)
      (received : (occupant.session.receive occupant.host now notification).run subject =
        (session, world)) :
      Answered machine slot subject (.notify now notification) .done
        { slot with occupant := some { occupant with session := session } } world

variable {slot : SessionSlot σ}

theorem start_of_empty (machine : Machine σ) (context : StartContext) (request : StartRequest)
    (empty : slot.occupant = none) (subject : σ) :
    ∃ result world, Commences machine context request subject result world ∧
      (slot.start machine context request).run subject =
        ((match result with
          | .error error => (.error error, slot)
          | .ok occupant => (.ok (), { slot with occupant := some occupant })), world) := by
  cases read : request.read with
  | error defect =>
      refine ⟨.error (.configuration defect), subject, .unreadable read, ?_⟩
      rw [start, read]
      rfl
  | ok asked =>
      rcases asked with ⟨configuration, layout⟩
      rw [start, read, empty]
      cases checked : configuration.defect? with
      | some defect =>
          refine ⟨.error (.configuration defect), subject, .invalid read checked, ?_⟩
          simp only [Session.new, checked]
          rfl
      | none =>
          simp only [Session.new, checked]
          cases started : (Session.start (hostFor machine request layout)
            { configuration := configuration } context).run subject with
          | mk answer world =>
              rcases answer with ⟨error | ⟨⟩, session⟩
              · refine ⟨.error error, world, .prevented read checked started, ?_⟩
                rw [hostFor] at started
                simp only [StateT.run_bind, started]
                rfl
              · refine ⟨.ok _, world, .begins read checked started, ?_⟩
                rw [hostFor] at started
                simp only [StateT.run_bind, started]
                rfl

theorem start_of_full {occupant : Occupant σ} (machine : Machine σ) (context : StartContext)
    (request : StartRequest) (full : slot.occupant = some occupant) (subject : σ) :
    ∃ error,
      (slot.start machine context request).run subject = ((.error error, slot), subject) := by
  cases read : request.read with
  | error defect =>
      refine ⟨.configuration defect, ?_⟩
      rw [start, read]
      rfl
  | ok asked =>
      refine ⟨.alreadyRunning, ?_⟩
      rw [start, read, full]
      rfl

theorem stop_of_full {occupant : Occupant σ} (full : slot.occupant = some occupant) :
    slot.stop =
      (.ofResult (occupant.session.stop occupant.channel).result,
        some (occupant.session.stop occupant.channel), { slot with occupant := none }) := by
  rw [stop, full]
  cases result : (occupant.session.stop occupant.channel).result <;>
    simp [result, SlotAnswer.ofResult]

theorem call_answers (machine : Machine σ) (slot : SessionSlot σ) (subject : σ)
    (requested : HostCall) :
    ∃ answer after world, (slot.call machine requested).run subject = ((answer, after), world) ∧
      Answered machine slot subject requested answer after world := by
  cases here : slot.occupant with
  | none =>
      cases requested with
      | start context request =>
          rcases start_of_empty machine context request here subject with
            ⟨result, world, commences, started⟩
          cases result with
          | error error =>
              refine ⟨.failed, slot, world, ?_, .refused here commences⟩
              rw [call, StateT.run_bind, started]
              rfl
          | ok occupant =>
              refine ⟨.done, { slot with occupant := some occupant }, world, ?_,
                .started here commences⟩
              rw [call, StateT.run_bind, started]
              rfl
      | stop =>
          refine ⟨.noSession, slot, subject, ?_, .nothingToStop here⟩
          rw [call, stop, here]
          rfl
      | notify now notification =>
          refine ⟨.noSession, slot, subject, ?_, .unheard here now notification⟩
          rw [call, notify, here]
          rfl
  | some occupant =>
      cases requested with
      | start context request =>
          rcases start_of_full machine context request here subject with ⟨error, started⟩
          refine ⟨.failed, slot, subject, ?_, .barred here context request⟩
          rw [call, StateT.run_bind, started]
          rfl
      | stop =>
          refine ⟨_, _, subject, ?_, .stopped here⟩
          rw [call, stop_of_full here]
          rfl
      | notify now notification =>
          refine ⟨.done, _, _, ?_, .heard here rfl⟩
          rw [call, notify, here]
          rfl

end SessionSlot

/-! ## A history of calls -/

/-- Something that happens to the slot of a program with one host thread. -/
inductive SlotEvent where
  | called (requested : HostCall)
  | meanwhile (change : Meanwhile)

/-- The slot of a program, and the calls that its host has made, with their answers. -/
structure CallHistory (σ : Type) where
  slot : SessionSlot σ := .empty
  calls : List (HostCall × SlotAnswer) := []

namespace CallHistory

/-- The history after one more event, which finds the sampled program in some state. -/
def step (machine : Machine σ) (history : CallHistory σ) : σ × SlotEvent → CallHistory σ
  | (subject, .called requested) =>
      let ((answer, slot), _) := (history.slot.call machine requested).run subject
      ⟨slot, history.calls ++ [(requested, answer)]⟩
  | (subject, .meanwhile change) =>
      let occupant := history.slot.occupant.map (·.goOn subject change)
      { history with slot := { history.slot with occupant } }

/-- The history after several events. -/
def run (machine : Machine σ) (events : List (σ × SlotEvent)) : CallHistory σ :=
  events.foldl (step machine) {}

/-- The last start that succeeded has no stop after it. -/
def HasStarted (calls : List (HostCall × SlotAnswer)) : Prop :=
  ∃ earlier context request later, calls = earlier ++ (.start context request, .done) :: later ∧
    (∀ context request, (HostCall.start context request, SlotAnswer.done) ∉ later) ∧
    ∀ answer, (HostCall.stop, answer) ∉ later

variable {machine : Machine σ} {calls : List (HostCall × SlotAnswer)}
  {entry : HostCall × SlotAnswer}

theorem hasStarted_of_start (calls : List (HostCall × SlotAnswer)) (context : StartContext)
    (request : StartRequest) : HasStarted (calls ++ [(.start context request, .done)]) :=
  ⟨calls, context, request, [], rfl, nofun, nofun⟩

/-- After one more call, it is that call that started the session, or an earlier one did. -/
theorem HasStarted.start_or_earlier (hasStarted : HasStarted (calls ++ [entry])) :
    (∃ context request, entry = (.start context request, .done)) ∨
      HasStarted calls ∧ ∀ answer, entry ≠ (.stop, answer) := by
  rcases hasStarted with ⟨earlier, context, request, later, same, alone, unstopped⟩
  -- Either nothing came after the start, or the last call did.
  rcases later.eq_nil_or_concat' with rfl | ⟨front, last, rfl⟩
  · exact .inl ⟨context, request, List.singleton_inj.mp (List.append_inj' same rfl).2⟩
  · rw [← List.cons_append, ← List.append_assoc] at same
    rcases List.append_inj' same rfl with ⟨rfl, sameLast⟩
    cases List.singleton_inj.mp sameLast
    refine .inr ⟨⟨earlier, context, request, front, rfl, ?_, ?_⟩, ?_⟩
    · exact fun context request mem => alone context request (List.mem_append_left _ mem)
    · exact fun answer mem => unstopped answer (List.mem_append_left _ mem)
    · rintro answer rfl
      exact unstopped answer (List.mem_append_right _ (List.mem_singleton_self _))

theorem not_hasStarted_nil : ¬ HasStarted [] := by
  rintro ⟨earlier, context, request, later, same, -⟩
  exact absurd same.symm (List.append_ne_nil_of_right_ne_nil earlier (List.cons_ne_nil _ later))

theorem not_hasStarted_of_stop (calls : List (HostCall × SlotAnswer)) (answer : SlotAnswer) :
    ¬ HasStarted (calls ++ [(.stop, answer)]) := by
  intro hasStarted
  rcases hasStarted.start_or_earlier with ⟨context, request, same⟩ | ⟨-, noStop⟩
  · cases same
  · exact noStop answer rfl

/-- A call that neither starts nor stops a session changes nothing. -/
theorem hasStarted_append_iff
    (noStart : ∀ context request, entry ≠ (.start context request, .done))
    (noStop : ∀ answer, entry ≠ (.stop, answer)) :
    HasStarted (calls ++ [entry]) ↔ HasStarted calls := by
  constructor
  · intro hasStarted
    rcases hasStarted.start_or_earlier with ⟨context, request, same⟩ | ⟨before, -⟩
    · exact absurd same (noStart context request)
    · exact before
  · rintro ⟨earlier, context, request, later, rfl, alone, unstopped⟩
    refine ⟨earlier, context, request, later ++ [entry], by simp, ?_, ?_⟩
    · intro context request mem
      rcases List.mem_append.mp mem with before | last
      · exact alone context request before
      · exact noStart context request (List.mem_singleton.mp last).symm
    · intro answer mem
      rcases List.mem_append.mp mem with before | last
      · exact unstopped answer before
      · exact noStop answer (List.mem_singleton.mp last).symm

/-- A session is in the slot exactly if one was started and not stopped. -/
def IsSound (history : CallHistory σ) : Prop :=
  history.slot.occupant.isSome ↔ HasStarted history.calls

variable {history : CallHistory σ}

/-- Whatever the answer, it fits what is left in the slot. -/
theorem IsSound.call {slot after : SessionSlot σ} {subject world : σ} {requested : HostCall}
    {answer : SlotAnswer} (sound : slot.occupant.isSome ↔ HasStarted calls)
    (answered : slot.Answered machine subject requested answer after world) :
    (⟨after, calls ++ [(requested, answer)]⟩ : CallHistory σ).IsSound := by
  cases answered with
  | started => exact iff_of_true rfl (hasStarted_of_start calls _ _)
  | stopped => exact iff_of_false nofun (not_hasStarted_of_stop calls _)
  | nothingToStop empty =>
      exact iff_of_false (by simp [empty]) (not_hasStarted_of_stop calls _)
  | barred | refused | unheard =>
      exact sound.trans (hasStarted_append_iff (by simp) (by simp)).symm
  | heard full =>
      rw [full] at sound
      exact sound.trans (hasStarted_append_iff (by simp) (by simp)).symm

theorem IsSound.step (sound : history.IsSound) (moment : σ × SlotEvent) :
    (history.step machine moment).IsSound := by
  rcases moment with ⟨subject, event⟩
  cases event with
  | called requested =>
      rcases history.slot.call_answers machine subject requested with
        ⟨answer, after, world, called, answered⟩
      rw [CallHistory.step, called]
      exact IsSound.call sound answered
  | meanwhile change =>
      rw [CallHistory.step, IsSound, Option.isSome_map]
      exact sound

theorem IsSound.run (sound : history.IsSound) (events : List (σ × SlotEvent)) :
    (events.foldl (CallHistory.step machine) history).IsSound := by
  induction events generalizing history with
  | nil => exact sound
  | cons moment rest induction => exact induction (sound.step moment)

theorem isSound_begin : ({} : CallHistory σ).IsSound :=
  iff_of_false nofun not_hasStarted_nil

end CallHistory

end StackSampler
