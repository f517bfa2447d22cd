/-!
# A bounded cache

A cache keeps a bounded number of entries.  To make room it gives up the entry that has not been
used for the longest time.
-/

namespace StackSampler

/-- A cache of values under keys; the entry used last comes first. -/
structure RecentCache (κ α : Type) where
  entries : List (κ × α) := []
deriving Inhabited

namespace RecentCache

variable {κ α : Type} [DecidableEq κ]

/-- The number of entries. -/
def size (cache : RecentCache κ α) : Nat :=
  cache.entries.length

/-- The entries under other keys. -/
def without (cache : RecentCache κ α) (key : κ) : List (κ × α) :=
  cache.entries.filter (·.1 ≠ key)

/-- The value under a key, and the cache in which this entry was used last. -/
def use (cache : RecentCache κ α) (key : κ) : Option (α × RecentCache κ α) :=
  match cache.entries.lookup key with
  | some value => some (value, ⟨(key, value) :: cache.without key⟩)
  | none => none

/-- Puts a value under a key, in a cache of at most `capacity` entries. -/
def put (capacity : Nat) (cache : RecentCache κ α) (key : κ) (value : α) : RecentCache κ α :=
  ⟨((key, value) :: cache.without key).take capacity⟩

end RecentCache

end StackSampler
