import StackSampler.Allocation.Tracker
import StackSampler.Subject.Tables

/-!
# Pairs of allocations and releases

The records of a tracker tell a reader which memory is allocated: an allocation is open while the
last record about its address is of that allocation.  This module follows a tracker through any
sequence of allocations and releases and shows that the allocations it keeps are the open ones, so
that each release it records closes the allocation that it repeats.

No bound on the number of allocations is needed: one that is turned away is not recorded either.
-/

namespace StackSampler

namespace AllocationTracker

/-! ## What the records tell -/

/-- A record tells of memory at an address. -/
def IsAbout (address : UInt64) : Record → Prop
  | .sample sample =>
      match sample.metric with
      | .allocation place _ => place = address
      | .free place _ => place = address
      | _ => False
  | _ => False

/-- The last record about an address is of an allocation. -/
def OpenAfter (records : List Record) (address : UInt64) (allocation : LiveAllocation) : Prop :=
  ∃ before after, records = before ++ allocationSample address allocation :: after ∧
    ∀ record, record ∈ after → ¬ IsAbout address record

/-- If a record is of a release, it repeats the allocation that is open before it. -/
def Closes (before : List Record) (record : Record) : Prop :=
  ∀ sample address size, record = .sample sample → sample.metric = .free address size →
    sample.task = none ∧ OpenAfter before address ⟨sample.thread, size, sample.frames⟩

variable {records : List Record} {address : UInt64} {allocation : LiveAllocation}

/-- A list with one more item is split at that item, or at one of those before it. -/
theorem split_concat {α : Type} {items before after : List α} {item last : α}
    (split : items ++ [last] = before ++ item :: after) :
    (after = [] ∧ items = before ∧ last = item) ∨
      ∃ rest, after = rest ++ [last] ∧ items = before ++ item :: rest := by
  rcases List.eq_nil_or_concat after with rfl | ⟨rest, other, rfl⟩
  · exact .inl ⟨rfl, List.append_singleton_inj.mp split⟩
  · rw [List.concat_eq_append, ← List.cons_append, ← List.append_assoc] at split
    rcases List.append_singleton_inj.mp split with ⟨same, rfl⟩
    exact .inr ⟨rest, List.concat_eq_append, same⟩

theorem not_openAfter_nil : ¬ OpenAfter [] address allocation := by
  rintro ⟨before, after, none, _⟩
  exact List.append_ne_nil_of_right_ne_nil _ (List.cons_ne_nil _ _) none.symm

/-- One more record opens what it allocates, and leaves open what it is not about. -/
theorem openAfter_concat {record : Record} :
    OpenAfter (records ++ [record]) address allocation ↔
      record = allocationSample address allocation ∨
        (¬ IsAbout address record ∧ OpenAfter records address allocation) := by
  constructor
  · rintro ⟨before, after, split, later⟩
    rcases split_concat split with ⟨rfl, _, isLast⟩ | ⟨rest, rfl, earlier⟩
    · exact .inl isLast
    · refine .inr ⟨later record (by simp), before, rest, earlier, ?_⟩
      exact fun other member => later other (by simp [member])
  · rintro (rfl | ⟨silent, before, after, rfl, later⟩)
    · exact ⟨records, [], rfl, nofun⟩
    · refine ⟨before, after ++ [record], by simp, ?_⟩
      intro other member
      rcases List.mem_append.mp member with earlier | isLast
      · exact later other earlier
      · exact List.mem_singleton.mp isLast ▸ silent

@[simp]
theorem isAbout_allocationSample {asked : UInt64} :
    IsAbout asked (allocationSample address allocation) ↔ address = asked :=
  Iff.rfl

@[simp]
theorem isAbout_freeSample {asked : UInt64} :
    IsAbout asked (freeSample address allocation) ↔ address = asked :=
  Iff.rfl

theorem allocationSample_inj {other : UInt64} {another : LiveAllocation} :
    allocationSample address allocation = allocationSample other another ↔
      address = other ∧ allocation = another := by
  rcases allocation with ⟨thread, size, frames⟩
  rcases another with ⟨otherThread, otherSize, otherFrames⟩
  simp only [allocationSample, Record.sample.injEq, Sample.mk.injEq, Metric.allocation.injEq,
    LiveAllocation.mk.injEq, true_and]
  grind

theorem freeSample_ne_allocationSample {other : UInt64} {another : LiveAllocation} :
    freeSample address allocation ≠ allocationSample other another := by
  simp [freeSample, allocationSample]

/-! ## What one call records -/

/-- What walking the stack of a thread gives, from a state of the interpreter on. -/
def walked {σ : Type} (tracker : AllocationTracker) (interpreter : Interpreter σ)
    (thread : ThreadId) (subject : σ) :
    Except CaptureError (List WalkedFrame) × Observation σ :=
  (Walking.walk interpreter thread).run.run ⟨tracker.walker, subject⟩

/-- The tracker after it has walked the stack of a thread. -/
def afterWalk {σ : Type} (tracker : AllocationTracker) (interpreter : Interpreter σ)
    (thread : ThreadId) (subject : σ) : AllocationTracker :=
  { tracker with walker := (tracker.walked interpreter thread subject).2.walker }

/-- There is room for an allocation, or it takes the place of one that is kept. -/
def HasRoom (tracker : AllocationTracker) (address : UInt64) : Prop :=
  tracker.live.size < limit ∨ address ∈ tracker.live

/-- At most the name of the thread is reported. -/
theorem nameRecords_names (registry : ThreadRegistry) (thread : ThreadId) :
    ∃ name : Option String,
      (nameRecords registry thread).1 = name.toList.map (.threadName thread) := by
  rw [nameRecords]
  cases registry[thread]? with
  | none => exact ⟨none, rfl⟩
  | some record => exact ⟨record.takeNameReport.1, rfl⟩

section

variable {σ : Type} {interpreter : Interpreter σ} {tracker : AllocationTracker}
  {registry : ThreadRegistry} {subject : σ} {thread : ThreadId} {size : UInt64}

/-- The name of the thread is recorded first, and then what its walk gives. -/
theorem allocate_of_idle (idle : tracker.busy = false) :
    ((tracker.allocate interpreter registry thread address size).run subject).1 =
      let concluded := (tracker.afterWalk interpreter thread subject).conclude thread address size
        (tracker.walked interpreter thread subject).1
      ((nameRecords registry thread).1 ++ concluded.1, concluded.2,
        (nameRecords registry thread).2) := by
  rw [allocate, if_neg (Bool.eq_false_iff.mp idle)]
  rfl

theorem free_of_kept (idle : tracker.busy = false)
    (kept : tracker.live[address]? = some allocation) :
    tracker.free address =
      ([freeSample address allocation],
        { tracker with live := tracker.live.erase address }) := by
  rw [free, if_neg (Bool.eq_false_iff.mp idle), kept]

theorem free_of_not_kept (idle : tracker.busy = false)
    (absent : tracker.live[address]? = none) : tracker.free address = ([], tracker) := by
  rw [free, if_neg (Bool.eq_false_iff.mp idle), absent]

theorem keep_of_hasRoom (room : tracker.HasRoom address) :
    tracker.keep address allocation =
      ([allocationSample address allocation],
        { tracker with live := tracker.live.insert address allocation }) := by
  have notFull : ¬ (limit ≤ tracker.live.size && !tracker.live.contains address) = true := by
    rcases room with few | kept
    · simp [Nat.not_le.mpr few]
    · simp [kept]
  rw [keep, if_neg notFull]

theorem keep_of_not_hasRoom (full : ¬ tracker.HasRoom address) :
    tracker.keep address allocation = ([], tracker) := by
  rw [HasRoom, not_or, Nat.not_lt] at full
  have absent : tracker.live.contains address = false := by
    rw [Bool.eq_false_iff, ne_eq, Std.ExtTreeMap.contains_iff_mem]
    exact full.2
  have isFull : (limit ≤ tracker.live.size && !tracker.live.contains address) = true := by
    simp [full.1, absent]
  rw [keep, if_pos isFull]

end

end AllocationTracker

/-- A call of the allocator's hook, with the registry and the interpreter as it finds them. -/
inductive MemoryEvent (σ : Type) where
  | allocated (registry : ThreadRegistry) (subject : σ) (thread : ThreadId)
      (address size : UInt64)
  | released (address : UInt64)

/-- A tracker, and all that it has recorded. -/
structure AllocationLedger where
  tracker : AllocationTracker
  records : List Record := []

namespace AllocationLedger

open AllocationTracker

variable {σ : Type}

/-- The ledger after one more call. -/
def step (interpreter : Interpreter σ) (ledger : AllocationLedger) :
    MemoryEvent σ → AllocationLedger
  | .allocated registry subject thread address size =>
      let answer :=
        ((ledger.tracker.allocate interpreter registry thread address size).run subject).1
      ⟨answer.2.1, ledger.records ++ answer.1⟩
  | .released address =>
      let answer := ledger.tracker.free address
      ⟨answer.2, ledger.records ++ answer.1⟩

/-- The ledger after several calls, one after the other. -/
def run (interpreter : Interpreter σ) (ledger : AllocationLedger)
    (events : List (MemoryEvent σ)) : AllocationLedger :=
  events.foldl (step interpreter) ledger

/-- The allocations that are kept are the open ones, and each release closes an open one. -/
structure Paired (ledger : AllocationLedger) : Prop where
  idle : ledger.tracker.busy = false
  live : ∀ (address : UInt64) (allocation : LiveAllocation),
    ledger.tracker.live[address]? = some allocation ↔
      OpenAfter ledger.records address allocation
  closes : ∀ before record after, ledger.records = before ++ record :: after →
    Closes before record

variable {ledger : AllocationLedger} {interpreter : Interpreter σ}

theorem paired_fresh (walker : Walker) :
    ({ tracker := { walker := walker } } : AllocationLedger).Paired where
  idle := rfl
  live address allocation := by simp [not_openAfter_nil]
  closes before record after none :=
    absurd none.symm (List.append_ne_nil_of_right_ne_nil _ (List.cons_ne_nil _ _))

/-- One more record keeps a ledger paired if the tracker changes as the record tells. -/
theorem Paired.add (paired : ledger.Paired) {tracker : AllocationTracker} {record : Record}
    (idle : tracker.busy = false)
    (live : ∀ (address : UInt64) (allocation : LiveAllocation),
      tracker.live[address]? = some allocation ↔
        record = allocationSample address allocation ∨
          (¬ IsAbout address record ∧ ledger.tracker.live[address]? = some allocation))
    (closes : Closes ledger.records record) :
    (⟨tracker, ledger.records ++ [record]⟩ : AllocationLedger).Paired where
  idle := idle
  live address allocation := by
    rw [live, paired.live, openAfter_concat]
  closes before other after split := by
    rcases split_concat split with ⟨_, rfl, rfl⟩ | ⟨rest, _, earlier⟩
    · exact closes
    · exact paired.closes before other rest earlier

/-- Records that are not about memory leave a ledger paired. -/
theorem Paired.addSilent (paired : ledger.Paired) (tracker : AllocationTracker)
    (idle : tracker.busy = false)
    (live : tracker.live = ledger.tracker.live) {records : List Record}
    (silent : ∀ record, record ∈ records → ∀ sample, record ≠ .sample sample) :
    (⟨tracker, ledger.records ++ records⟩ : AllocationLedger).Paired := by
  induction records generalizing ledger with
  | nil =>
      rw [List.append_nil]
      exact ⟨idle, live ▸ paired.live, paired.closes⟩
  | cons record rest induction =>
      have noSample := silent record List.mem_cons_self
      have unaware : ∀ address, ¬ IsAbout address record := by
        intro address about
        cases record with
        | sample sample => exact noSample sample rfl
        | _ => exact about
      have added : (⟨tracker, ledger.records ++ [record]⟩ : AllocationLedger).Paired := by
        refine paired.add idle (fun address allocation => ?_) fun sample _ _ same =>
          absurd same (noSample sample)
        rw [live]
        simp [unaware, noSample, allocationSample]
      rw [List.append_cons]
      exact induction added rfl fun other later => silent other (List.mem_cons_of_mem _ later)

/-- A recorded allocation is open from then on. -/
theorem Paired.addAllocation (paired : ledger.Paired) (address : UInt64)
    (allocation : LiveAllocation) :
    (⟨{ ledger.tracker with live := ledger.tracker.live.insert address allocation },
      ledger.records ++ [allocationSample address allocation]⟩ : AllocationLedger).Paired := by
  refine paired.add paired.idle (fun asked other => ?_) ?_
  · simp only [Std.ExtTreeMap.getElem?_insert, Std.compare_eq_iff_eq, allocationSample_inj,
      isAbout_allocationSample]
    by_cases equal : address = asked
    · simp [equal]
    · simp [equal]
  · rintro sample place size same isFree
    cases same
    cases isFree

/-- A recorded release closes the allocation that it repeats. -/
theorem Paired.addFree (paired : ledger.Paired) {address : UInt64} {allocation : LiveAllocation}
    (kept : ledger.tracker.live[address]? = some allocation) :
    (⟨{ ledger.tracker with live := ledger.tracker.live.erase address },
      ledger.records ++ [freeSample address allocation]⟩ : AllocationLedger).Paired := by
  refine paired.add paired.idle (fun asked other => ?_) ?_
  · simp only [Std.ExtTreeMap.getElem?_erase, Std.compare_eq_iff_eq, isAbout_freeSample]
    by_cases equal : address = asked
    · simp [equal, freeSample_ne_allocationSample]
    · simp [equal, freeSample_ne_allocationSample]
  · rintro sample place size same isFree
    cases same
    cases isFree
    exact ⟨rfl, (paired.live address allocation).mp kept⟩

/-! ## Each call -/

section

variable (registry : ThreadRegistry) {subject : σ} {thread : ThreadId} (address size : UInt64)

/-- A failed walk is recorded as such, behind the name of the thread. -/
theorem step_of_failed (idle : ledger.tracker.busy = false) {error : CaptureError}
    (failed : (ledger.tracker.walked interpreter thread subject).1 = .error error) :
    ∃ name : Option String,
      ledger.step interpreter (.allocated registry subject thread address size) =
        ⟨ledger.tracker.afterWalk interpreter thread subject,
          ledger.records ++ (name.toList.map (.threadName thread) ++
            [.marker (.ofError thread error)])⟩ := by
  rcases nameRecords_names registry thread with ⟨name, named⟩
  refine ⟨name, ?_⟩
  rw [step, allocate_of_idle idle, failed, named]
  rfl

/-- After a walk that gave a stack, the allocation is kept if there is room. -/
theorem step_of_walked (idle : ledger.tracker.busy = false) {frames : List WalkedFrame}
    (gave : (ledger.tracker.walked interpreter thread subject).1 = .ok frames) :
    ∃ name : Option String,
      ledger.step interpreter (.allocated registry subject thread address size) =
        let kept := (ledger.tracker.afterWalk interpreter thread subject).keep address
          ⟨thread, size, frames.map fun walked => walked.frame⟩
        ⟨kept.2, ledger.records ++ (name.toList.map (Record.threadName thread) ++ kept.1)⟩ := by
  rcases nameRecords_names registry thread with ⟨name, named⟩
  refine ⟨name, ?_⟩
  rw [step, allocate_of_idle idle, gave, named]
  rfl

variable {address}

theorem step_of_kept (idle : ledger.tracker.busy = false) {allocation : LiveAllocation}
    (kept : ledger.tracker.live[address]? = some allocation) :
    ledger.step interpreter (.released address) =
      ⟨{ ledger.tracker with live := ledger.tracker.live.erase address },
        ledger.records ++ [freeSample address allocation]⟩ := by
  rw [step, free_of_kept idle kept]

theorem step_of_not_kept (idle : ledger.tracker.busy = false)
    (absent : ledger.tracker.live[address]? = none) :
    ledger.step interpreter (.released address) = ledger := by
  rw [step, free_of_not_kept idle absent]
  simp only [List.append_nil]

end

/-- Walking a stack keeps a ledger paired, and so does the name of a thread. -/
theorem Paired.walk (paired : ledger.Paired) (interpreter : Interpreter σ) (thread : ThreadId)
    (subject : σ) (name : Option String) :
    (⟨ledger.tracker.afterWalk interpreter thread subject,
      ledger.records ++ name.toList.map (.threadName thread)⟩ : AllocationLedger).Paired := by
  refine paired.addSilent (ledger.tracker.afterWalk interpreter thread subject) paired.idle rfl
    fun record member sample => ?_
  rcases List.mem_map.mp member with ⟨_, _, rfl⟩
  exact Record.noConfusion

/-- Each call keeps a ledger paired. -/
theorem Paired.step (paired : ledger.Paired) (interpreter : Interpreter σ)
    (event : MemoryEvent σ) : (ledger.step interpreter event).Paired := by
  cases event with
  | released address =>
      cases kept : ledger.tracker.live[address]? with
      | none =>
          rw [step_of_not_kept paired.idle kept]
          exact paired
      | some allocation =>
          rw [step_of_kept paired.idle kept]
          exact paired.addFree kept
  | allocated registry subject thread address size =>
      cases gave : (ledger.tracker.walked interpreter thread subject).1 with
      | error error =>
          rcases step_of_failed registry address size paired.idle gave with ⟨name, after⟩
          rw [after, ← List.append_assoc]
          refine (paired.walk interpreter thread subject name).addSilent
            (ledger.tracker.afterWalk interpreter thread subject) paired.idle rfl ?_
          rintro record isMarker sample rfl
          cases List.mem_singleton.mp isMarker
      | ok frames =>
          rcases step_of_walked registry address size paired.idle gave with ⟨name, after⟩
          have walked := paired.walk interpreter thread subject name
          rw [after]
          by_cases room : (ledger.tracker.afterWalk interpreter thread subject).HasRoom address
          · rw [keep_of_hasRoom room]
            dsimp only
            rw [← List.append_assoc]
            exact walked.addAllocation address _
          · rw [keep_of_not_hasRoom room]
            dsimp only
            rw [List.append_nil]
            exact walked

/-- Any sequence of calls keeps a ledger paired. -/
theorem Paired.run (paired : ledger.Paired) (interpreter : Interpreter σ)
    (events : List (MemoryEvent σ)) : (ledger.run interpreter events).Paired := by
  induction events generalizing ledger with
  | nil => exact paired
  | cons event rest induction => exact induction (paired.step interpreter event)

/--
After any calls on a fresh tracker, whatever registry and interpreter each of them found: a
recorded release repeats the allocation that is open before it; a release of memory of which no
allocation is open records nothing, and any other one closes it; a failed walk records one marker,
apart from the name of the thread, and changes nothing that is kept; a walk that gives a stack
records an allocation if there is room; and what is kept are the open allocations.
-/
theorem run_pairs (interpreter : Interpreter σ) (walker : Walker) (events : List (MemoryEvent σ))
    {ledger : AllocationLedger}
    (isRun : ({ tracker := { walker := walker } } : AllocationLedger).run interpreter events =
      ledger) :
    (∀ before sample after address size, ledger.records = before ++ .sample sample :: after →
      sample.metric = .free address size →
        sample.task = none ∧ OpenAfter before address ⟨sample.thread, size, sample.frames⟩) ∧
      (∀ address, (∀ allocation, ¬ OpenAfter ledger.records address allocation) →
        ledger.step interpreter (.released address) = ledger) ∧
      (∀ address allocation, OpenAfter ledger.records address allocation →
        (ledger.step interpreter (.released address)).records =
          ledger.records ++ [freeSample address allocation]) ∧
      (∀ registry subject thread address size error,
        (ledger.tracker.walked interpreter thread subject).1 = .error error →
          ∃ name : Option String,
            (ledger.step interpreter (.allocated registry subject thread address size)).records =
              ledger.records ++ (name.toList.map (.threadName thread) ++
                [.marker (.ofError thread error)]) ∧
            (ledger.step interpreter
              (.allocated registry subject thread address size)).tracker.live =
                ledger.tracker.live) ∧
      (∀ registry subject thread address size frames,
        (ledger.tracker.walked interpreter thread subject).1 = .ok frames →
          ledger.tracker.HasRoom address →
            ∃ name : Option String,
              (ledger.step interpreter
                (.allocated registry subject thread address size)).records =
                  ledger.records ++ (name.toList.map (.threadName thread) ++
                    [allocationSample address ⟨thread, size, frames.map (·.frame)⟩])) ∧
      ∀ (address : UInt64) (allocation : LiveAllocation),
        ledger.tracker.live[address]? = some allocation ↔
          OpenAfter ledger.records address allocation := by
  have paired : ledger.Paired := isRun ▸ (paired_fresh walker).run interpreter events
  refine ⟨?_, ?_, ?_, ?_, ?_, paired.live⟩
  · intro before sample after address size split
    exact paired.closes before (.sample sample) after split sample address size rfl
  · intro address none
    apply step_of_not_kept paired.idle
    rw [Option.eq_none_iff_forall_ne_some]
    exact fun allocation kept => none allocation ((paired.live address allocation).mp kept)
  · intro address allocation isOpen
    rw [step_of_kept paired.idle ((paired.live address allocation).mpr isOpen)]
  · intro registry subject thread address size error failed
    rcases step_of_failed registry address size paired.idle failed with ⟨name, after⟩
    exact ⟨name, by rw [after], by rw [after]; rfl⟩
  · intro registry subject thread address size frames gave room
    rcases step_of_walked registry address size paired.idle gave with ⟨name, after⟩
    have stillRoom : (ledger.tracker.afterWalk interpreter thread subject).HasRoom address := room
    exact ⟨name, by rw [after, keep_of_hasRoom stillRoom]⟩

/-- An interpreter whose first thread runs one function; it knows no other thread. -/
def oneStack : Tables :=
  ({} : Tables).putStack 0x1000 [⟨"main", "main.py", 1⟩] (some 1)

/-- Memory is allocated twice at one address and then released, with a failed walk in between. -/
def reusedAddress : List (MemoryEvent Tables) :=
  [.allocated ∅ oneStack 1 0x10 8, .allocated ∅ oneStack 1 0x10 24, .allocated ∅ oneStack 7 0x10 2,
    .released 0x10, .released 0x10]

/-- The ledger of the calls at one address. -/
def reusedLedger : AllocationLedger :=
  ({ tracker := { walker := .new ⟨3, 11⟩ 64 } } : AllocationLedger).run Tables.interpreter
    reusedAddress

theorem records_reusedLedger :
    reusedLedger.records =
      [allocationSample 0x10 ⟨1, 8, [.interpreted "main" "main.py" 1]⟩,
        allocationSample 0x10 ⟨1, 24, [.interpreted "main" "main.py" 1]⟩,
        .marker ⟨7, .unknownThread⟩] ++
        .sample ⟨1, none, .free 0x10 24, [.interpreted "main" "main.py" 1]⟩ :: [] := by
  decide +kernel

/-- The release closes the second of the allocations, and the next one records nothing. -/
theorem run_pairs_reusedLedger :
    OpenAfter
        [allocationSample 0x10 ⟨1, 8, [.interpreted "main" "main.py" 1]⟩,
          allocationSample 0x10 ⟨1, 24, [.interpreted "main" "main.py" 1]⟩,
          .marker ⟨7, .unknownThread⟩]
        0x10 ⟨1, 24, [.interpreted "main" "main.py" 1]⟩ ∧
      ¬ OpenAfter reusedLedger.records 0x10 ⟨1, 24, [.interpreted "main" "main.py" 1]⟩ := by
  rcases run_pairs Tables.interpreter (.new ⟨3, 11⟩ 64) reusedAddress rfl with
    ⟨closes, _, _, _, _, live⟩
  have absent : reusedLedger.tracker.live[(0x10 : UInt64)]? = none := by
    decide +kernel
  refine ⟨(closes _ _ _ 0x10 24 records_reusedLedger rfl).2, fun isOpen => ?_⟩
  have kept := (live _ _).mpr isOpen
  exact Option.some_ne_none _ (kept.symm.trans absent)

end AllocationLedger

end StackSampler
