import Mathlib.Logic.Relation
import StackSampler.Proofs.Greenlet.Reachable

/-!
# Parents of greenlets

A greenlet may have a parent, which resumes when it finishes.  A parent is linked only if it is
known and another greenlet, and when it is forgotten its own parent takes its place.

If the links have no cycle, forgetting a greenlet makes none.  If they have one, it can shrink until
a greenlet is its own parent, and those that resume into this one are stranded when it is forgotten:
they keep a parent that is not known.  `afterAll_parentsTracked_iff` says that this is the only way
to a parent that is not known.
-/

namespace StackSampler.GreenletTable

variable {table : GreenletTable} {id other : GreenletId} {greenlet removed : Greenlet}

/-- The parent of a greenlet that is known. -/
def parentOf? (table : GreenletTable) (id : GreenletId) : Option GreenletId :=
  (table.greenlets[id]?).bind (·.parent)

theorem parentOf?_eq (known : table.greenlets[id]? = some greenlet) :
    table.parentOf? id = greenlet.parent := by
  rw [parentOf?, known]
  rfl

theorem mem_iff_exists :
    id ∈ table.greenlets ↔ ∃ greenlet, table.greenlets[id]? = some greenlet := by
  rw [Std.ExtTreeMap.mem_iff_isSome_getElem?, Option.isSome_iff_exists]

theorem mem_of_parentOf? {parent : GreenletId} (has : table.parentOf? id = some parent) :
    id ∈ table.greenlets := by
  rcases Option.bind_eq_some_iff.mp has with ⟨greenlet, known, -⟩
  exact mem_iff_exists.mpr ⟨greenlet, known⟩

/-! ## What reports change -/

theorem mem_modify (change : Greenlet → Greenlet) :
    other ∈ table.greenlets.modify id change ↔ other ∈ table.greenlets := by
  rw [Std.ExtTreeMap.mem_iff_isSome_getElem?, getElem?_modify, Option.isSome_map,
    Std.ExtTreeMap.mem_iff_isSome_getElem?]

theorem parentOf?_modify (change : Greenlet → Greenlet)
    (keeps : ∀ greenlet, (change greenlet).parent = greenlet.parent) (other : GreenletId) :
    parentOf? { table with greenlets := table.greenlets.modify id change } other =
      table.parentOf? other := by
  rw [parentOf?, parentOf?, getElem?_modify]
  cases table.greenlets[other]? with
  | none => rfl
  | some greenlet =>
      dsimp only [Option.map_some, Option.bind_some]
      split
      · exact keeps greenlet
      · rfl

theorem parentOf?_track (thread : ThreadId) (name : String) (frame : Option Address)
    (other : GreenletId) :
    (table.track id thread name frame).parentOf? other = table.parentOf? other := by
  cases known : table.greenlets[id]? with
  | some greenlet =>
      rw [parentOf?, getElem?_track_of_known known]
      split
      case isTrue same => rw [← same, parentOf?_eq known]; rfl
      case isFalse => rfl
  | none =>
      by_cases full : limit ≤ table.size
      · rw [track_of_full known full]
      · rw [track_of_new known (Nat.lt_of_not_le full), parentOf?, parentOf?]
        dsimp only
        rw [Std.ExtTreeMap.getElem?_insert]
        split
        case isTrue same => rw [← Std.compare_eq_iff_eq.mp same, known]; rfl
        case isFalse => rfl

theorem mem_track (thread : ThreadId) (name : String) (frame : Option Address)
    (member : other ∈ table.greenlets) :
    other ∈ (table.track id thread name frame).greenlets := by
  rw [track]
  split
  · exact Std.ExtTreeMap.mem_insert.mpr (.inr member)
  · split
    · exact member
    · exact Std.ExtTreeMap.mem_insert.mpr (.inr member)

theorem mem_link_iff (parent : GreenletId) :
    other ∈ (table.link id parent).greenlets ↔ other ∈ table.greenlets := by
  rw [link]
  split
  · exact Iff.rfl
  · exact mem_modify _

/-- A parent that is linked is known. -/
theorem parentOf?_of_link {parent next : GreenletId}
    (has : (table.link id parent).parentOf? other = some next) :
    table.parentOf? other = some next ∨ next ∈ table.greenlets := by
  rw [link] at has
  split at has
  case isTrue => exact .inl has
  case isFalse refused =>
    rw [parentOf?] at has
    dsimp only at has
    rw [getElem?_modify, Option.bind_eq_some_iff] at has
    rcases has with ⟨after, found, isNext⟩
    rcases Option.map_eq_some_iff.mp found with ⟨greenlet, known, rfl⟩
    split at isNext
    case isTrue =>
      cases isNext
      have accepted : id ≠ parent ∧ parent ∈ table.greenlets := by simpa using refused
      exact .inr accepted.2
    case isFalse => exact .inl ((parentOf?_eq known).trans isNext)

theorem mem_untrack_iff (tracked : table.greenlets[id]? = some removed) :
    other ∈ (table.untrack id).greenlets ↔ other ≠ id ∧ other ∈ table.greenlets := by
  rw [Std.ExtTreeMap.mem_iff_isSome_getElem?, getElem?_untrack tracked,
    Std.ExtTreeMap.mem_iff_isSome_getElem?]
  split
  case isTrue same => simp [same]
  case isFalse different => simp [Ne.symm different]

/-- Those that had a forgotten greenlet as parent get its parent. -/
theorem parentOf?_untrack (tracked : table.greenlets[id]? = some removed) (other : GreenletId) :
    (table.untrack id).parentOf? other =
      if id = other then none
      else if table.parentOf? other = some id then table.parentOf? id
      else table.parentOf? other := by
  rw [parentOf?, getElem?_untrack tracked, parentOf?_eq tracked]
  split
  · rfl
  · rw [parentOf?]
    cases table.greenlets[other]? with
    | none => rfl
    | some greenlet =>
        dsimp only [Option.map_some, Option.bind_some]
        split <;> rfl

/-! ## Parents that are not known -/

/-- Every parent is known. -/
def ParentsTracked (table : GreenletTable) : Prop :=
  ∀ child parent, table.parentOf? child = some parent → parent ∈ table.greenlets

/-- A greenlet is its own parent, and that of another one. -/
def Strands (table : GreenletTable) (id : GreenletId) : Prop :=
  table.parentOf? id = some id ∧ ∃ child, child ≠ id ∧ table.parentOf? child = some id

theorem parentsTracked_empty : ParentsTracked {} := by
  intro child parent has
  cases has

theorem ParentsTracked.of_parentOf?_eq {later : GreenletTable} (tracked : table.ParentsTracked)
    (same : ∀ other, later.parentOf? other = table.parentOf? other)
    (keeps : ∀ other, other ∈ table.greenlets → other ∈ later.greenlets) : later.ParentsTracked :=
  fun child parent has => keeps parent (tracked child parent (same child ▸ has))

/-- Forgetting a greenlet leaves only known parents, unless it strands others. -/
theorem ParentsTracked.untrack_iff (tracked : table.ParentsTracked) :
    (table.untrack id).ParentsTracked ↔ ¬ table.Strands id := by
  cases known : table.greenlets[id]? with
  | none =>
      have same : table.untrack id = table := by rw [untrack, known]
      rw [same]
      refine ⟨fun _ strands => ?_, fun _ => tracked⟩
      rcases mem_iff_exists.mp (mem_of_parentOf? strands.1) with ⟨greenlet, found⟩
      cases known.symm.trans found
  | some removed =>
      constructor
      · rintro still ⟨own, child, different, has⟩
        have stranded : (table.untrack id).parentOf? child = some id := by
          rw [parentOf?_untrack known, if_neg (Ne.symm different), if_pos has, own]
        exact ((mem_untrack_iff known).mp (still child id stranded)).1 rfl
      · intro unstranded child parent has
        rw [parentOf?_untrack known] at has
        split at has
        · cases has
        case isFalse different =>
          split at has
          case isTrue behind =>
            refine (mem_untrack_iff known).mpr ⟨?_, tracked id parent has⟩
            rintro rfl
            exact unstranded ⟨has, child, Ne.symm different, behind⟩
          case isFalse other =>
            refine (mem_untrack_iff known).mpr ⟨?_, tracked child parent has⟩
            rintro rfl
            exact other has

theorem ParentsTracked.receive_iff (tracked : table.ParentsTracked) (report : Notification) :
    (table.receive report).ParentsTracked ↔
      ∀ id, report = .greenletUntracked id → ¬ table.Strands id := by
  cases report with
  | greenletUntracked id =>
      refine tracked.untrack_iff.trans ⟨?_, fun unstranded => unstranded id rfl⟩
      rintro unstranded _ ⟨rfl⟩
      exact unstranded
  | greenletTracked id thread name frame =>
      exact iff_of_true (tracked.of_parentOf?_eq (parentOf?_track thread name frame)
        fun _ => mem_track thread name frame) nofun
  | greenletUpdated id frame =>
      exact iff_of_true (tracked.of_parentOf?_eq (parentOf?_modify _ fun _ => rfl)
        fun _ => (mem_modify _).mpr) nofun
  | greenletsLinked id parent =>
      refine iff_of_true (fun child next has => (mem_link_iff parent).mpr ?_) nofun
      exact (parentOf?_of_link has).elim (tracked child next) fun known => known
  | greenletSwitched thread id => exact iff_of_true tracked nofun
  | _ => exact iff_of_true tracked nofun

/--
All along a run of reports every parent is known, exactly if no greenlet is forgotten that strands
others.
-/
theorem afterAll_parentsTracked_iff (reports : List Notification) :
    (∀ early, early <+: reports → (afterAll early).ParentsTracked) ↔
      ∀ early id, early ++ [.greenletUntracked id] <+: reports → ¬ (afterAll early).Strands id := by
  constructor
  · intro tracked early id within
    have before := tracked early ((List.prefix_append _ _).trans within)
    have after := tracked _ within
    rw [afterAll_concat] at after
    exact (before.receive_iff _).mp after id rfl
  · intro unstranded early
    induction early using List.reverseRecOn with
    | nil => exact fun _ => parentsTracked_empty
    | append_singleton early report induction =>
        intro within
        rw [afterAll_concat]
        refine ((induction ((List.prefix_append _ _).trans within)).receive_iff report).mpr ?_
        rintro id rfl
        exact unstranded early id within

/-! ## Cycles -/

/-- One greenlet is reached from another along parents. -/
def LeadsTo (table : GreenletTable) : GreenletId → GreenletId → Prop :=
  Relation.TransGen fun child parent => table.parentOf? child = some parent

/-- No greenlet is reached from itself along parents. -/
def Acyclic (table : GreenletTable) : Prop :=
  ∀ id, ¬ table.LeadsTo id id

theorem Acyclic.not_strands (acyclic : table.Acyclic) (id : GreenletId) : ¬ table.Strands id :=
  fun strands => acyclic id (.single strands.1)

/-- If every parent has a smaller identity than its child, there is no cycle. -/
theorem acyclic_of_descending
    (descends : ∀ child parent, table.parentOf? child = some parent → parent < child) :
    table.Acyclic := by
  have lower {first last : GreenletId} (leads : table.LeadsTo first last) : last < first := by
    induction leads with
    | single has => exact descends _ _ has
    | tail _ has induction => exact UInt64.lt_trans (descends _ _ has) induction
  exact fun id round => UInt64.lt_irrefl id (lower round)

/-- Where a greenlet is forgotten, a link to a parent was a way of one or two links. -/
theorem leadsTo_of_untrack (first last : GreenletId) :
    (table.untrack id).LeadsTo first last → table.LeadsTo first last := by
  cases known : table.greenlets[id]? with
  | none =>
      rw [untrack, known]
      exact fun leads => leads
  | some removed =>
      refine Relation.TransGen.closed (fun child parent has => ?_) first last
      rw [parentOf?_untrack known] at has
      split at has
      · cases has
      · split at has
        case isTrue behind => exact .tail (.single behind) has
        case isFalse => exact .single has

theorem Acyclic.untrack (acyclic : table.Acyclic) (id : GreenletId) : (table.untrack id).Acyclic :=
  fun other round => acyclic other (leadsTo_of_untrack other other round)

end StackSampler.GreenletTable
