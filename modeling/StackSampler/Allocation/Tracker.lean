import StackSampler.Record
import StackSampler.Thread.Registry
import StackSampler.Walk

/-!
# Allocations

Allocations are recorded with the stack that made them, and releases with the stack of their
allocation.  Whatever the recording of an event allocates itself is not recorded.
-/

namespace StackSampler

/-- What is kept of an allocation until it is released. -/
structure LiveAllocation where
  thread : ThreadId
  size : UInt64
  frames : List Frame
deriving DecidableEq, Repr, Inhabited

/-- The allocations that have been recorded and not yet been released. -/
structure AllocationTracker where
  walker : Walker
  live : Std.ExtTreeMap UInt64 LiveAllocation := ∅
  /-- Whether an event is being recorded. -/
  busy : Bool := false

namespace AllocationTracker

variable {σ : Type}

/-- The most allocations that are kept. -/
def limit : Nat := 1 <<< 20

/-- The record of an allocation. -/
def allocationSample (address : UInt64) (allocation : LiveAllocation) : Record :=
  .sample ⟨allocation.thread, none, .allocation address allocation.size, allocation.frames⟩

/-- The record of a release. -/
def freeSample (address : UInt64) (allocation : LiveAllocation) : Record :=
  .sample ⟨allocation.thread, none, .free address allocation.size, allocation.frames⟩

/-- The record that names a thread, if its name is to be reported. -/
def nameRecords (registry : ThreadRegistry) (thread : ThreadId) : List Record × ThreadRegistry :=
  match registry[thread]? with
  | none => ([], registry)
  | some record =>
      let (name, record) := record.takeNameReport
      (name.toList.map (.threadName thread), registry.insert thread record)

/-- Keeps an allocation, unless too many are kept already. -/
def keep (tracker : AllocationTracker) (address : UInt64) (allocation : LiveAllocation) :
    List Record × AllocationTracker :=
  if limit ≤ tracker.live.size && !tracker.live.contains address then ([], tracker)
  else
    ([allocationSample address allocation],
      { tracker with live := tracker.live.insert address allocation })

/-- The records of an allocation whose walk gave `walked`. -/
def conclude (tracker : AllocationTracker) (thread : ThreadId) (address size : UInt64) :
    Except CaptureError (List WalkedFrame) → List Record × AllocationTracker
  | .ok walked => tracker.keep address ⟨thread, size, walked.map (·.frame)⟩
  | .error error => ([.marker (.ofError thread error)], tracker)

/-- A thread allocates memory.  The records belong to the stream in the given order. -/
def allocate (interpreter : Interpreter σ) (tracker : AllocationTracker)
    (registry : ThreadRegistry) (thread : ThreadId) (address size : UInt64) :
    StateM σ (List Record × AllocationTracker × ThreadRegistry) := do
  if tracker.busy then pure ([], tracker, registry)
  else
    let (names, registry) := nameRecords registry thread
    let (walked, observation) :=
      (Walking.walk interpreter thread).run.run ⟨tracker.walker, ← get⟩
    set observation.subject
    let (records, tracker) :=
      { tracker with walker := observation.walker }.conclude thread address size walked
    pure (names ++ records, tracker, registry)

/-- Memory is released.  What was allocated before recording began is ignored. -/
def free (tracker : AllocationTracker) (address : UInt64) : List Record × AllocationTracker :=
  if tracker.busy then ([], tracker)
  else
    match tracker.live[address]? with
    | none => ([], tracker)
    | some allocation =>
        ([freeSample address allocation], { tracker with live := tracker.live.erase address })

end AllocationTracker

end StackSampler
