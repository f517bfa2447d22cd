import Mathlib.Data.List.Induction
import StackSampler.Greenlet.Table
import StackSampler.Session.Notification

/-!
# Reachable greenlet tables

A table starts empty and is changed by what the host reports, in any order.  This module says what
each report changes in the table, as far as greenlets, their parents and the active ones go, and
shows that in a reachable table there are not too many greenlets and no two were created at the same
place.
-/

namespace StackSampler.GreenletTable

/-- What the host's reports make of a table that is empty at first. -/
inductive Reachable : GreenletTable → Prop
  | empty : Reachable {}
  | track {table : GreenletTable} (reachable : Reachable table) (id : GreenletId)
      (thread : ThreadId) (name : String) (frame : Option Address) :
      Reachable (table.track id thread name frame)
  | updateFrame {table : GreenletTable} (reachable : Reachable table) (id : GreenletId)
      (frame : Option Address) : Reachable (table.updateFrame id frame)
  | link {table : GreenletTable} (reachable : Reachable table) (id parent : GreenletId) :
      Reachable (table.link id parent)
  | switch {table : GreenletTable} (reachable : Reachable table) (thread : ThreadId)
      (id : GreenletId) : Reachable (table.switch thread id)
  | untrack {table : GreenletTable} (reachable : Reachable table) (id : GreenletId) :
      Reachable (table.untrack id)

/-- The table that reports lead to. -/
def afterAll (reports : List Notification) : GreenletTable :=
  reports.foldl receive {}

theorem afterAll_concat (reports : List Notification) (report : Notification) :
    afterAll (reports ++ [report]) = (afterAll reports).receive report :=
  List.foldl_append

variable {table : GreenletTable}

theorem Reachable.receive (reachable : table.Reachable) (report : Notification) :
    (table.receive report).Reachable := by
  cases report with
  | greenletTracked id thread name frame => exact .track reachable id thread name frame
  | greenletUpdated id frame => exact .updateFrame reachable id frame
  | greenletsLinked id parent => exact .link reachable id parent
  | greenletSwitched thread id => exact .switch reachable thread id
  | greenletUntracked id => exact .untrack reachable id
  | _ => exact reachable

theorem afterAll_reachable (reports : List Notification) : (afterAll reports).Reachable := by
  induction reports using List.reverseRecOn with
  | nil => exact .empty
  | append_singleton reports report induction =>
      rw [afterAll_concat]
      exact induction.receive report

/-! ## Greenlets -/

variable {id other : GreenletId} {greenlet removed : Greenlet}

theorem getElem?_track_of_known {thread : ThreadId} {name : String} {frame : Option Address}
    (known : table.greenlets[id]? = some greenlet) (other : GreenletId) :
    (table.track id thread name frame).greenlets[other]? =
      if id = other then some { greenlet with thread := thread, name := name, frame := frame }
      else table.greenlets[other]? := by
  rw [track, known]
  simp [Std.ExtTreeMap.getElem?_insert]

theorem track_of_new {thread : ThreadId} {name : String} {frame : Option Address}
    (unknown : table.greenlets[id]? = none) (room : table.size < limit) :
    table.track id thread name frame =
      { table with
        sequence := table.sequence + 1
        greenlets := table.greenlets.insert id
          { thread := thread, name := name, frame := frame, created := table.sequence + 1 } } := by
  rw [track, unknown]
  exact if_neg (Nat.not_le_of_lt room)

theorem track_of_full {thread : ThreadId} {name : String} {frame : Option Address}
    (unknown : table.greenlets[id]? = none) (full : limit ≤ table.size) :
    table.track id thread name frame = table := by
  rw [track, unknown]
  exact if_pos full

theorem getElem?_modify (change : Greenlet → Greenlet) (other : GreenletId) :
    (table.greenlets.modify id change)[other]? =
      (table.greenlets[other]?).map fun greenlet =>
        if id = other then change greenlet else greenlet := by
  rw [Std.ExtTreeMap.getElem?_modify]
  by_cases same : id = other
  · simp [same]
  · simp [same]

theorem getElem?_untrack (tracked : table.greenlets[id]? = some removed) (other : GreenletId) :
    (table.untrack id).greenlets[other]? =
      if id = other then none
      else (table.greenlets[other]?).map fun greenlet =>
        if greenlet.parent = some id then { greenlet with parent := removed.parent }
        else greenlet := by
  rw [untrack, tracked]
  dsimp only
  rw [Std.ExtTreeMap.getElem?_map, Std.ExtTreeMap.getElem?_erase]
  by_cases same : id = other
  · simp [same]
  · simp [same]

/-! ## Creation -/

/-- A greenlet is the one that was created at a place. -/
def CreatedAs (table : GreenletTable) (id : GreenletId) (place : Nat) : Prop :=
  ∃ greenlet, table.greenlets[id]? = some greenlet ∧ greenlet.created = place

/-- Every greenlet of a later table is one of an earlier, from the same creation. -/
def Inherits (table later : GreenletTable) : Prop :=
  ∀ id place, later.CreatedAs id place → table.CreatedAs id place

theorem inherits_modify (change : Greenlet → Greenlet)
    (keeps : ∀ greenlet, (change greenlet).created = greenlet.created) :
    table.Inherits { table with greenlets := table.greenlets.modify id change } := by
  rintro other place ⟨greenlet, found, rfl⟩
  change (table.greenlets.modify id change)[other]? = some greenlet at found
  rw [getElem?_modify, Option.map_eq_some_iff] at found
  rcases found with ⟨old, known, rfl⟩
  refine ⟨old, known, ?_⟩
  split
  · exact (keeps old).symm
  · rfl

theorem inherits_track_of_known {thread : ThreadId} {name : String} {frame : Option Address}
    (known : table.greenlets[id]? = some greenlet) :
    table.Inherits (table.track id thread name frame) := by
  rintro other place ⟨after, found, rfl⟩
  rw [getElem?_track_of_known known] at found
  split at found
  case isTrue same =>
    cases found
    exact ⟨greenlet, same ▸ known, rfl⟩
  case isFalse => exact ⟨after, found, rfl⟩

theorem inherits_untrack : table.Inherits (table.untrack id) := by
  rintro other place ⟨after, found, rfl⟩
  cases tracked : table.greenlets[id]? with
  | none =>
      rw [untrack, tracked] at found
      exact ⟨after, found, rfl⟩
  | some removed =>
      rw [getElem?_untrack tracked] at found
      split at found
      · cases found
      · rcases Option.map_eq_some_iff.mp found with ⟨old, known, rfl⟩
        refine ⟨old, known, ?_⟩
        split <;> rfl

theorem size_untrack_le : (table.untrack id).size ≤ table.size := by
  rw [untrack]
  split
  · exact Nat.le_refl _
  · exact Nat.le_trans (Nat.le_of_eq Std.ExtTreeMap.size_map) Std.ExtTreeMap.size_erase_le

theorem sequence_untrack : (table.untrack id).sequence = table.sequence := by
  rw [untrack]
  split <;> rfl

/-- There are not too many greenlets, and each was created at a place of its own. -/
structure Consistent (table : GreenletTable) : Prop where
  size_le : table.size ≤ limit
  created_le {id : GreenletId} {place : Nat} (created : table.CreatedAs id place) :
    place ≤ table.sequence
  created_inj {first second : GreenletId} {place : Nat} (one : table.CreatedAs first place)
    (other : table.CreatedAs second place) : first = second

namespace Consistent

theorem empty : Consistent {} where
  size_le := Nat.zero_le _
  created_le := by
    rintro id place ⟨greenlet, found, -⟩
    cases found
  created_inj := by
    rintro first second place ⟨greenlet, found, -⟩
    cases found

theorem of_inherits {later : GreenletTable} (consistent : table.Consistent)
    (inherits : table.Inherits later) (size_le : later.size ≤ table.size)
    (sequence_eq : later.sequence = table.sequence) : later.Consistent where
  size_le := Nat.le_trans size_le consistent.size_le
  created_le created := sequence_eq ▸ consistent.created_le (inherits _ _ created)
  created_inj one other := consistent.created_inj (inherits _ _ one) (inherits _ _ other)

/-- A greenlet that is new takes the next place. -/
theorem track_of_new {thread : ThreadId} {name : String} {frame : Option Address}
    (consistent : table.Consistent) (unknown : table.greenlets[id]? = none)
    (room : table.size < limit) : (table.track id thread name frame).Consistent := by
  rw [GreenletTable.track_of_new unknown room]
  set later : GreenletTable := { table with
    sequence := table.sequence + 1
    greenlets := table.greenlets.insert id ⟨thread, name, frame, none, table.sequence + 1⟩ }
  have isNew {other : GreenletId} {place : Nat} (created : later.CreatedAs other place) :
      (other = id ∧ place = table.sequence + 1) ∨ table.CreatedAs other place := by
    rcases created with ⟨greenlet, found, rfl⟩
    change (table.greenlets.insert id _)[other]? = some greenlet at found
    rw [Std.ExtTreeMap.getElem?_insert] at found
    split at found
    case isTrue same =>
      cases found
      exact .inl ⟨(Std.compare_eq_iff_eq.mp same).symm, rfl⟩
    case isFalse => exact .inr ⟨greenlet, found, rfl⟩
  refine ⟨?_, ?_, ?_⟩
  · have grown : later.size ≤ table.size + 1 := Std.ExtTreeMap.size_insert_le
    exact Nat.le_trans grown room
  · intro other place created
    rcases isNew created with ⟨-, rfl⟩ | old
    · exact Nat.le_refl _
    · exact Nat.le_succ_of_le (consistent.created_le old)
  · intro first second place one other
    rcases isNew one with ⟨rfl, rfl⟩ | old
    · rcases isNew other with ⟨rfl, -⟩ | oldToo
      · rfl
      · exact absurd (consistent.created_le oldToo) (Nat.not_succ_le_self _)
    · rcases isNew other with ⟨rfl, rfl⟩ | oldToo
      · exact absurd (consistent.created_le old) (Nat.not_succ_le_self _)
      · exact consistent.created_inj old oldToo

theorem track (consistent : table.Consistent) (id : GreenletId) (thread : ThreadId) (name : String)
    (frame : Option Address) : (table.track id thread name frame).Consistent := by
  cases known : table.greenlets[id]? with
  | some greenlet =>
      have member : table.greenlets.contains id = true := by
        rw [Std.ExtTreeMap.contains_eq_isSome_getElem?, known]
        rfl
      have same : (table.track id thread name frame).size = table.size := by
        rw [GreenletTable.track, known]
        exact Std.ExtTreeMap.size_insert.trans (if_pos member)
      refine consistent.of_inherits (inherits_track_of_known known) (Nat.le_of_eq same) ?_
      rw [GreenletTable.track, known]
  | none =>
      by_cases full : limit ≤ table.size
      · rwa [track_of_full known full]
      · exact consistent.track_of_new known (Nat.lt_of_not_le full)

end Consistent

theorem Reachable.consistent (reachable : table.Reachable) : table.Consistent := by
  induction reachable with
  | empty => exact .empty
  | track _ id thread name frame consistent => exact consistent.track id thread name frame
  | updateFrame _ id frame consistent =>
      exact consistent.of_inherits (inherits_modify _ fun _ => rfl)
        (Nat.le_of_eq Std.ExtTreeMap.size_modify) rfl
  | @link table _ id parent consistent =>
      rw [GreenletTable.link]
      split
      · exact consistent
      · exact consistent.of_inherits (inherits_modify _ fun _ => rfl)
          (Nat.le_of_eq Std.ExtTreeMap.size_modify) rfl
  | switch _ thread id consistent =>
      exact consistent.of_inherits (fun _ _ created => created) (Nat.le_refl _) rfl
  | untrack _ id consistent =>
      exact consistent.of_inherits inherits_untrack size_untrack_le sequence_untrack

end StackSampler.GreenletTable
