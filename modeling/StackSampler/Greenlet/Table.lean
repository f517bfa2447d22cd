import Std.Data.ExtTreeMap
import StackSampler.Identity

/-!
# Greenlets

A greenlet keeps its frames while it is switched out.  The host reports which greenlets there are,
where each was suspended, which one resumes when another finishes, and which one a thread runs.
-/

namespace StackSampler

/-- What is known of a greenlet. -/
structure Greenlet where
  thread : ThreadId
  name : String
  /-- The innermost frame that it keeps while it is switched out. -/
  frame : Option Address
  /-- The greenlet that resumes when this one finishes. -/
  parent : Option GreenletId := none
  /-- The place of the greenlet in the order of creation. -/
  created : Nat
deriving DecidableEq, Repr, Inhabited

/--
The greenlets that are followed.  Creations are counted without a bound, where the profiler counts
in a word of 64 bits: no run fills one.
-/
structure GreenletTable where
  greenlets : Std.ExtTreeMap GreenletId Greenlet := ∅
  /-- The greenlet that each thread runs. -/
  active : Std.ExtTreeMap ThreadId GreenletId := ∅
  /-- The number of creations so far. -/
  sequence : Nat := 0

instance : Inhabited GreenletTable := ⟨{}⟩

namespace GreenletTable

/-- The most greenlets that are followed at a time. -/
def limit : Nat := 1 <<< 16

/-- The number of greenlets. -/
def size (table : GreenletTable) : Nat :=
  table.greenlets.size

/-- Whether there are no greenlets. -/
def isEmpty (table : GreenletTable) : Bool :=
  table.greenlets.isEmpty

/-- The greenlet that a thread runs. -/
def activeOn? (table : GreenletTable) (thread : ThreadId) : Option GreenletId :=
  table.active[thread]?

/-- Follows a greenlet, or takes over what is reported of a known one. -/
def track (table : GreenletTable) (id : GreenletId) (thread : ThreadId) (name : String)
    (frame : Option Address) : GreenletTable :=
  match table.greenlets[id]? with
  | some greenlet =>
      { table with
        greenlets := table.greenlets.insert id
          { greenlet with thread := thread, name := name, frame := frame } }
  | none =>
      if limit ≤ table.greenlets.size then table
      else
        let created := table.sequence + 1
        { table with
          sequence := created
          greenlets := table.greenlets.insert id
            { thread := thread, name := name, frame := frame, created := created } }

/-- Sets the frame at which a greenlet was suspended. -/
def updateFrame (table : GreenletTable) (id : GreenletId) (frame : Option Address) :
    GreenletTable :=
  { table with
    greenlets := table.greenlets.modify id fun greenlet => { greenlet with frame := frame } }

/-- A greenlet resumes when another finishes; it has to be known and not the same. -/
def link (table : GreenletTable) (id parent : GreenletId) : GreenletTable :=
  if id = parent || !table.greenlets.contains parent then table
  else
    { table with
      greenlets := table.greenlets.modify id fun greenlet =>
        { greenlet with parent := some parent } }

/-- A thread runs a greenlet now. -/
def switch (table : GreenletTable) (thread : ThreadId) (id : GreenletId) : GreenletTable :=
  { table with active := table.active.insert thread id }

/-- Forgets a finished greenlet; those that had it as parent get its parent. -/
def untrack (table : GreenletTable) (id : GreenletId) : GreenletTable :=
  match table.greenlets[id]? with
  | none => table
  | some removed =>
      { table with
        greenlets := (table.greenlets.erase id).map fun _ greenlet =>
          if greenlet.parent = some id then { greenlet with parent := removed.parent }
          else greenlet
        active := table.active.filter fun _ active => active != id }

end GreenletTable

end StackSampler
