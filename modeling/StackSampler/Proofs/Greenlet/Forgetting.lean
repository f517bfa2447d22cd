import StackSampler.Proofs.Greenlet.Lines

/-!
# Forgetting a greenlet

When a greenlet is forgotten, those that had it as parent get its parent.  As long as parents form
no cycle, the line of any other greenlet is then the one it had, without the greenlet that is gone.

The main statement is `afterAll_untrack`: what holds of every table that reports lead to, when all
parents are known, and what forgetting a greenlet leaves of the others.
-/

namespace StackSampler

/-- What is known of a greenlet apart from its parent. -/
def Greenlet.withoutParent (greenlet : Greenlet) : Greenlet :=
  { greenlet with parent := none }

namespace GreenletTable

variable {table : GreenletTable} {id : GreenletId} {greenlet removed : Greenlet}
  {from? : Option GreenletId} {visited ids others : List GreenletId}
  {line : List (GreenletId × Greenlet)}

/-! ## Lines without cycles -/

/-- The greenlets from one on along parents, all of them: only what is not known ends it. -/
inductive Lineage (table : GreenletTable) : Option GreenletId → List GreenletId → Prop where
  | nil : Lineage table none []
  | unknown {id : GreenletId} (unknown : id ∉ table.greenlets) : Lineage table (some id) []
  | cons {id : GreenletId} {ids : List GreenletId} (known : id ∈ table.greenlets)
      (behind : Lineage table (table.parentOf? id) ids) : Lineage table (some id) (id :: ids)

theorem Lineage.unique (lineage : table.Lineage from? ids) (other : table.Lineage from? others) :
    ids = others := by
  induction lineage generalizing others with
  | nil =>
      cases other
      rfl
  | unknown unknown =>
      cases other with
      | unknown => rfl
      | cons known => exact absurd known unknown
  | cons known _ induction =>
      cases other with
      | unknown unknown => exact absurd known unknown
      | cons _ behind => rw [induction behind]

/-- Without a cycle nothing is met again, so what is followed is the whole lineage. -/
theorem Follows.lineage (follows : table.Follows visited from? line) (acyclic : table.Acyclic)
    (came : ∀ earlier ∈ visited, ∀ id, from? = some id → table.LeadsTo earlier id) :
    table.Lineage from? (line.map Prod.fst) := by
  induction follows with
  | nil => exact .nil
  | unknown unknown => exact .unknown unknown
  | repeated again => exact absurd (came _ again _ rfl) (acyclic _)
  | @cons visited id greenlet line known _ _ induction =>
      have parent := parentOf?_eq known
      rw [← parent] at induction
      refine .cons (mem_iff_exists.mpr ⟨greenlet, known⟩) (induction ?_)
      intro earlier member next has
      rcases List.mem_cons.mp member with rfl | before
      · exact .single has
      · exact (came earlier before id rfl).tail has

theorem Acyclic.lineage_line (acyclic : table.Acyclic) (id : GreenletId) :
    table.Lineage (some id) ((table.line id).map Prod.fst) :=
  (follows_line table id).lineage acyclic fun _ member => absurd member List.not_mem_nil

/-- The lineage of what is left, where a greenlet is passed over whose parent is another one. -/
theorem Lineage.untrack (lineage : table.Lineage from? ids)
    (tracked : table.greenlets[id]? = some removed) (notOwn : table.parentOf? id ≠ some id) :
    (table.untrack id).Lineage (if from? = some id then table.parentOf? id else from?)
      (ids.filter (· ≠ id)) := by
  induction lineage with
  | nil => exact .nil
  | @unknown other unknown =>
      have different : other ≠ id := by
        rintro rfl
        exact unknown (mem_iff_exists.mpr ⟨removed, tracked⟩)
      rw [if_neg (by simpa using different)]
      exact .unknown fun member => unknown ((mem_untrack_iff tracked).mp member).2
  | @cons other ids known behind induction =>
      by_cases same : other = id
      · subst same
        rw [if_neg notOwn] at induction
        rw [if_pos rfl, List.filter_cons_of_neg (by simp)]
        exact induction
      · rw [if_neg (by simpa using same), List.filter_cons_of_pos (by simpa using same)]
        refine .cons ((mem_untrack_iff tracked).mpr ⟨same, known⟩) ?_
        rw [parentOf?_untrack tracked, if_neg (Ne.symm same)]
        exact induction

/-- The line of another greenlet loses the one that is forgotten, and nothing else. -/
theorem Acyclic.line_untrack (acyclic : table.Acyclic)
    (tracked : table.greenlets[id]? = some removed) {other : GreenletId} (different : other ≠ id) :
    ((table.untrack id).line other).map Prod.fst =
      ((table.line other).map Prod.fst).filter (· ≠ id) := by
  have left := (acyclic.lineage_line other).untrack tracked fun own => acyclic id (.single own)
  rw [if_neg (by simpa using different)] at left
  exact ((acyclic.untrack id).lineage_line other).unique left

/-! ## What is left -/

/-- Forgetting a greenlet changes no other one except in its parent. -/
theorem withoutParent_untrack (tracked : table.greenlets[id]? = some removed) {other : GreenletId}
    (different : other ≠ id) :
    ((table.untrack id).greenlets[other]?).map Greenlet.withoutParent =
      (table.greenlets[other]?).map Greenlet.withoutParent := by
  rw [getElem?_untrack tracked, if_neg (Ne.symm different), Option.map_map]
  apply congrFun (congrArg Option.map _)
  funext greenlet
  dsimp only [Function.comp_apply]
  split <;> rfl

theorem activeOn?_untrack (tracked : table.greenlets[id]? = some removed) (thread : ThreadId) :
    (table.untrack id).activeOn? thread = (table.activeOn? thread).filter (· != id) := by
  rw [activeOn?, untrack, tracked]
  exact Std.ExtTreeMap.getElem?_filter'

/--
However the host reports, at most 65536 greenlets are known, no two of them were created at the same
place, and all their parents are known all along unless a greenlet is forgotten that strands others.
Where parents have no cycle, forgetting a greenlet makes none and no parent unknown, takes it out of
the line of every other one and off the threads that run it, and leaves all else as it was.
-/
theorem afterAll_untrack (reports : List Notification) :
    let table := afterAll reports
    table.size ≤ 65536 ∧
      (∀ first second place, table.CreatedAs first place → table.CreatedAs second place →
        first = second) ∧
      ((∀ early, early <+: reports → (afterAll early).ParentsTracked) ↔
        ∀ early id, early ++ [.greenletUntracked id] <+: reports →
          ¬ (afterAll early).Strands id) ∧
      ∀ id, id ∈ table.greenlets → table.Acyclic →
        (table.untrack id).Acyclic ∧
          (table.ParentsTracked → (table.untrack id).ParentsTracked) ∧
          id ∉ (table.untrack id).greenlets ∧
          (∀ other, other ≠ id →
            ((table.untrack id).line other).map Prod.fst =
                ((table.line other).map Prod.fst).filter (· ≠ id) ∧
              ((table.untrack id).greenlets[other]?).map Greenlet.withoutParent =
                (table.greenlets[other]?).map Greenlet.withoutParent) ∧
          ∀ thread, (table.untrack id).activeOn? thread =
            (table.activeOn? thread).filter (· != id) := by
  intro table
  have consistent := (afterAll_reachable reports).consistent
  refine ⟨consistent.size_le, fun _ _ _ => consistent.created_inj,
    afterAll_parentsTracked_iff reports, fun id member acyclic => ?_⟩
  rcases mem_iff_exists.mp member with ⟨removed, tracked⟩
  refine ⟨acyclic.untrack id, fun parents => parents.untrack_iff.mpr (acyclic.not_strands id),
    fun still => ((mem_untrack_iff tracked).mp still).1 rfl,
    fun other different => ?_, activeOn?_untrack tracked⟩
  exact ⟨acyclic.line_untrack tracked different, withoutParent_untrack tracked different⟩

/-- Reports of three greenlets, each the parent of the next, of which the middle one runs. -/
def nestedReports : List Notification :=
  [.greenletTracked 16 1 "root" none, .greenletTracked 32 1 "middle" none,
    .greenletTracked 48 1 "leaf" (some 4096), .greenletsLinked 32 16, .greenletsLinked 48 32,
    .greenletSwitched 1 32]

theorem acyclic_nestedReports : (afterAll nestedReports).Acyclic := by
  have descends : ((afterAll nestedReports).greenlets.toList.all fun entry =>
      entry.2.parent.all (· < entry.1)) = true := by
    decide +kernel
  refine acyclic_of_descending fun child parent has => ?_
  rcases Option.bind_eq_some_iff.mp has with ⟨greenlet, known, isParent⟩
  have member := Std.ExtTreeMap.mem_toList_iff_getElem?_eq_some.mpr known
  have below := List.all_eq_true.mp descends (child, greenlet) member
  dsimp only at below
  rw [isParent] at below
  exact of_decide_eq_true below

theorem afterAll_untrack_nestedReports :
    let table := afterAll nestedReports
    32 ∈ table.greenlets ∧ table.Acyclic ∧ table.activeOn? 1 = some 32 ∧
      (table.line 48).map Prod.fst = [48, 32, 16] ∧
      (table.untrack 32).Acyclic ∧ ((table.untrack 32).line 48).map Prod.fst = [48, 16] ∧
      (table.untrack 32).activeOn? 1 = none := by
  have member : 32 ∈ (afterAll nestedReports).greenlets := by decide +kernel
  have runs : (afterAll nestedReports).activeOn? 1 = some 32 := by decide +kernel
  have before : ((afterAll nestedReports).line 48).map Prod.fst = [48, 32, 16] := by decide +kernel
  rcases (afterAll_untrack nestedReports).2.2.2 32 member acyclic_nestedReports with
    ⟨acyclic, -, -, others, active⟩
  refine ⟨member, acyclic_nestedReports, runs, before, acyclic, ?_, ?_⟩
  · rw [(others 48 (by decide)).1, before]
    decide
  · rw [active 1, runs]
    decide

/--
Reports of two greenlets that are each other's parent, and of a third that one of them is the parent
of.  Once one of the two is forgotten, the other one is its own parent and strands the third.
-/
def strandingReports : List Notification :=
  [.greenletTracked 16 1 "first" none, .greenletTracked 32 1 "second" none,
    .greenletTracked 48 1 "third" none, .greenletSwitched 1 48, .greenletsLinked 16 32,
    .greenletsLinked 32 16, .greenletsLinked 48 16, .greenletUntracked 32]

/--
A parent is not always known, and what is then said of it can be said of another greenlet: one that
is created later in the same place takes its part.
-/
theorem not_parentsTracked :
    ¬ (∀ table : GreenletTable, table.Reachable → table.ParentsTracked) ∧
      ((afterAll (strandingReports ++ [.greenletUntracked 16])).line 48).map Prod.fst = [48] ∧
      ((afterAll (strandingReports ++ [.greenletUntracked 16,
        .greenletTracked 16 1 "fresh" none])).line 48).map Prod.fst = [48, 16] := by
  refine ⟨fun always => ?_, by decide +kernel, by decide +kernel⟩
  have stranded : (afterAll (strandingReports ++ [.greenletUntracked 16])).parentOf? 48 =
      some 16 := by
    decide +kernel
  have known := always _ (afterAll_reachable (strandingReports ++ [.greenletUntracked 16])) 48 16
    stranded
  have unknown : 16 ∉ (afterAll (strandingReports ++ [.greenletUntracked 16])).greenlets := by
    decide +kernel
  exact unknown known

end GreenletTable

end StackSampler
