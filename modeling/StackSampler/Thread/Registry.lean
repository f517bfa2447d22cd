import Std.Data.ExtTreeMap
import StackSampler.Identity
import StackSampler.Text.Numeral

/-!
# Threads

The threads that are sampled: those the host has announced, and those the interpreter lists without
an announcement, which get a placeholder for a name.  Each record keeps the times of its last
sample and whether the current name has been reported.
-/

namespace StackSampler

/-- A moment, or a span of time, in nanoseconds. -/
abbrev Nanoseconds := Nat

/-- A span in whole microseconds, as a metric counts it. -/
def microseconds (span : Nanoseconds) : UInt64 :=
  UInt64.ofNat (span / 1000)

/-- What is known of a thread. -/
structure ThreadRecord where
  name : String
  nativeId : NativeId
  /-- Found in the interpreter's list rather than announced by the host. -/
  adopted : Bool := false
  /-- When the thread was last sampled by wall time. -/
  lastWall : Nanoseconds
  /-- The processor time that the thread had used when it was last looked at. -/
  lastCpu : Option Nanoseconds := none
  /-- Whether the current name has been reported. -/
  nameReported : Bool := false
deriving DecidableEq, Repr, Inhabited

namespace ThreadRecord

/-- The wall time since the last sample, which becomes `now`; a clock that went back counts as 0. -/
def advanceWall (record : ThreadRecord) (now : Nanoseconds) : Nanoseconds × ThreadRecord :=
  (now - record.lastWall, { record with lastWall := now })

/--
The processor time used since the last look, when the thread's clock can be read and it has run
in between.
-/
def advanceCpu (record : ThreadRecord) (clock : Option Nanoseconds) :
    Option Nanoseconds × ThreadRecord :=
  match clock with
  | none => (none, record)
  | some used =>
      let span := used - record.lastCpu.getD 0
      (if span = 0 then none else some span, { record with lastCpu := some used })

/-- The name, if it has not been reported yet; it counts as reported from now on. -/
def takeNameReport (record : ThreadRecord) : Option String × ThreadRecord :=
  (if record.nameReported then none else some record.name, { record with nameReported := true })

end ThreadRecord

/-- The records of all threads. -/
abbrev ThreadRegistry := Std.ExtTreeMap ThreadId ThreadRecord

namespace ThreadRegistry

/-- The name of a thread that nobody has named. -/
def placeholder (thread : ThreadId) : String :=
  "Thread-" ++ Text.hexadecimal thread.toNat

/-- The host announces a thread at the moment `now`; a new name is to be reported again. -/
def track (registry : ThreadRegistry) (thread : ThreadId) (name : String) (nativeId : NativeId)
    (now : Nanoseconds) : ThreadRegistry :=
  match registry[thread]? with
  | some record =>
      registry.insert thread
        { record with
          name := name
          nameReported := record.nameReported && record.name == name
          nativeId := nativeId
          adopted := false }
  | none => registry.insert thread { name := name, nativeId := nativeId, lastWall := now }

/-- The host takes a thread back. -/
def untrack (registry : ThreadRegistry) (thread : ThreadId) : ThreadRegistry :=
  registry.erase thread

/-- Takes up a thread that only the interpreter lists. -/
def adopt (now : Nanoseconds) (registry : ThreadRegistry) (thread : ThreadId) : ThreadRegistry :=
  registry.insertIfNew thread
    { name := placeholder thread, nativeId := 0, adopted := true, lastWall := now }

/--
Brings the records in line with the interpreter's list: threads without a record are adopted, and
adopted ones that are no longer listed are dropped.
-/
def sync (registry : ThreadRegistry) (live : List ThreadId) (now : Nanoseconds) : ThreadRegistry :=
  live.foldl (adopt now)
    (registry.filter fun thread record => !record.adopted || live.contains thread)

/-- The wall times between successive samples of a thread, taken at the given moments. -/
def sampleAt (registry : ThreadRegistry) (thread : ThreadId) (moments : List Nanoseconds) :
    Option (List Nanoseconds × ThreadRegistry) :=
  registry[thread]?.map fun record =>
    let step (state : List Nanoseconds × ThreadRecord) (now : Nanoseconds) :=
      let (span, record) := state.2.advanceWall now
      (state.1 ++ [span], record)
    let (spans, record) := moments.foldl step ([], record)
    (spans, registry.insert thread record)

end ThreadRegistry

end StackSampler
