import Mathlib.Data.List.Perm.Subperm
import StackSampler.Proofs.Task.Settling

/-!
# Chains of tasks

The tasks of one stack are a chain: it starts at a task that waits for no other, and goes on to the
one that waits on the last, until there is none.  `LoopView` names what this depends on, `Next` is
the rule by which a chain goes on, and `Chain` a chain that goes on as long as it can.

The chains that are built are those of the rule.  They end without a limit on their length, since
the tasks of a chain are distinct, and there are no more of them than were read.
-/

namespace StackSampler.TaskGraph

/-- What is known of a loop when its tasks are shown. -/
structure LoopView where
  graph : TaskGraph
  /-- The tasks of the loop, with their states. -/
  states : TaskStates
  running : Option TaskId

namespace LoopView

variable (view : LoopView)

/-- One task of the loop directly awaits another. -/
def Awaits (waiter task : TaskId) : Prop :=
  task ∈ view.states ∧ ∃ state, view.states[waiter]? = some state ∧ state.awaiting = some task

/-- A task of the loop that waits for no other one. -/
def IsLeaf (task : TaskId) : Prop :=
  task ∈ view.states ∧ (∀ other, ¬ view.Awaits task other) ∧
    ∀ child, child ∈ view.states → ¬ view.graph.Lists task child

/-- A task that neither stands in a chain nor runs. -/
def IsFree (chain : List TaskId) (task : TaskId) : Prop :=
  task ∉ chain ∧ view.running ≠ some task

/-- A task of the loop that may stand behind another one as its parent. -/
def MayFollow (chain : List TaskId) (task parent : TaskId) : Prop :=
  parent ∈ view.states ∧ view.IsFree chain parent ∧
    ∀ other, view.Awaits parent other → other = task

/--
The task behind the last one of a chain: the one that directly awaits it, if that is free, and else
the parent linked earliest among those that may follow.
-/
def Next (chain : List TaskId) (task next : TaskId) : Prop :=
  (view.Awaits next task ∧ view.IsFree chain next) ∨
    ((∀ waiter, view.Awaits waiter task → ¬ view.IsFree chain waiter) ∧
      ∃ place, view.graph.Linked next task place ∧ view.MayFollow chain task next ∧
        ∀ other later, view.graph.Linked other task later →
          view.MayFollow chain task other → place ≤ later)

/-- A chain from a task on, behind others, that goes on as long as there is a next task. -/
inductive Chain : List TaskId → TaskId → List TaskId → Prop where
  | last {before : List TaskId} {task : TaskId}
      (ends : ∀ next, ¬ view.Next (task :: before) task next) :
      Chain before task [task]
  | next {before : List TaskId} {task next : TaskId} {rest : List TaskId}
      (follows : view.Next (task :: before) task next)
      (chain : Chain (task :: before) next rest) :
      Chain before task (task :: rest)

/-- No task of the loop is directly awaited by two others. -/
def SinglyAwaited : Prop :=
  ∀ first second task, view.Awaits first task → view.Awaits second task → first = second

/-- A graph that tells the same as that of the view about the tasks of the loop. -/
structure Agrees (settled : TaskGraph) : Prop where
  consistent : settled.Consistent
  known : ∀ task, task ∈ view.states → task ∈ settled.nodes
  linked : ∀ parent child place, child ∈ view.states →
    (settled.Linked parent child place ↔ view.graph.Linked parent child place)
  lists : ∀ parent child, parent ∈ view.states → child ∈ view.states →
    (settled.Lists parent child ↔ view.graph.Lists parent child)
  created : ∀ task place, task ∈ view.states →
    (settled.CreatedAs task place ↔ view.graph.CreatedAs task place)

variable {view}

/-! ## Direct awaiters -/

theorem awaited?_eq_some_iff {state : TaskState} {task : TaskId} :
    awaited? view.states state = some task ↔ task ∈ view.states ∧ state.awaiting = some task := by
  rw [awaited?, Option.filter_eq_some_iff, and_comm, Std.ExtTreeMap.contains_iff_mem]

theorem awaits_iff {waiter task : TaskId} :
    view.Awaits waiter task ↔ view.states[waiter]?.bind (awaited? view.states) = some task := by
  rw [Option.bind_eq_some_iff]
  simp only [awaited?_eq_some_iff]
  constructor
  · rintro ⟨member, state, found, awaits⟩
    exact ⟨state, found, member, awaits⟩
  · rintro ⟨state, found, member, awaits⟩
    exact ⟨member, state, found, awaits⟩

theorem mem_of_awaits {waiter task : TaskId} (awaits : view.Awaits waiter task) :
    waiter ∈ view.states := by
  rcases awaits with ⟨_, state, found, _⟩
  rw [Std.ExtTreeMap.mem_iff_isSome_getElem?, found]
  rfl

theorem getElem?_waiters
    (view : LoopView) (tasks : List TaskId) (waiters : Std.ExtTreeMap TaskId TaskId)
    (task : TaskId) :
    (tasks.foldl (fun waiters waiter =>
      match view.states[waiter]?.bind (awaited? view.states) with
      | some awaited => waiters.insertIfNew awaited waiter
      | none => waiters) waiters)[task]? =
      waiters[task]?.or (tasks.find? fun waiter =>
        view.states[waiter]?.bind (awaited? view.states) = some task) := by
  induction tasks generalizing waiters with
  | nil => simp
  | cons first rest induction =>
      rw [List.foldl_cons, induction, List.find?_cons]
      cases awaited : view.states[first]?.bind (awaited? view.states) with
      | none => simp
      | some other =>
          dsimp only
          rw [Std.ExtTreeMap.getElem?_insertIfNew]
          by_cases equal : other = task
          · subst equal
            simp only [Std.ExtTreeMap.mem_iff_isSome_getElem?]
            cases waiters[other]? with
            | none => simp
            | some waiter => simp
          · simp [equal]

/-- Where no task has two direct awaiters, the one that is noted is the one there is. -/
theorem getElem?_waitersOf
    {order : VisitingOrder} (lawful : order.Lawful) (single : view.SinglyAwaited)
    {waiter task : TaskId} :
    (waitersOf order view.states)[task]? = some waiter ↔ view.Awaits waiter task := by
  have listed : ∀ other, view.Awaits other task → other ∈ order.states view.states.keys := by
    intro other awaits
    rw [(lawful.states _).mem_iff, Std.ExtTreeMap.mem_keys]
    exact mem_of_awaits awaits
  have noted := getElem?_waiters view (order.states view.states.keys) ∅ task
  rw [Std.ExtTreeMap.getElem?_empty, Option.none_or] at noted
  rw [waitersOf]
  refine (Eq.congr_left noted).trans ?_
  constructor
  · intro found
    have holds := List.find?_some found
    rw [decide_eq_true_iff] at holds
    exact awaits_iff.mpr holds
  · intro awaits
    cases found : (order.states view.states.keys).find? fun waiter =>
        view.states[waiter]?.bind (awaited? view.states) = some task with
    | none =>
        rw [List.find?_eq_none] at found
        exact absurd (decide_eq_true (awaits_iff.mp awaits)) (found waiter (listed waiter awaits))
    | some other =>
        have holds := List.find?_some found
        rw [decide_eq_true_iff] at holds
        rw [single other waiter task (awaits_iff.mpr holds) awaits]

/-! ## Leaves -/

theorem Agrees.isLeaf_iff
    {settled : TaskGraph} (agrees : view.Agrees settled) {task : TaskId}
    (member : task ∈ view.states) :
    settled.isLeaf view.states task = true ↔ view.IsLeaf task := by
  have awaits : (view.states[task]?.bind (awaited? view.states)).isSome = false ↔
      ∀ other, ¬ view.Awaits task other := by
    simp only [Option.isSome_eq_false_iff, Option.isNone_iff_eq_none,
      Option.eq_none_iff_forall_ne_some, awaits_iff]
  have known := agrees.known task member
  rw [Std.ExtTreeMap.mem_iff_isSome_getElem?, Option.isSome_iff_exists] at known
  rcases known with ⟨node, found⟩
  have childless : node.children.toList.any view.states.contains = false ↔
      ∀ child, child ∈ view.states → ¬ view.graph.Lists task child := by
    rw [List.any_eq_false]
    constructor
    · intro none child childMember listed
      rcases (agrees.lists task child member childMember).mpr listed with ⟨same, sameFound, among⟩
      rw [found, Option.some.injEq] at sameFound
      subst sameFound
      exact none child (Std.ExtTreeSet.mem_toList.mpr among)
        (Std.ExtTreeMap.contains_iff_mem.mpr childMember)
    · intro none child among contained
      have childMember := Std.ExtTreeMap.contains_iff_mem.mp contained
      exact none child childMember ((agrees.lists task child member childMember).mp
        ⟨node, found, Std.ExtTreeSet.mem_toList.mp among⟩)
  rw [isLeaf]
  simp only [found, Bool.and_eq_true, Bool.not_eq_true', awaits, childless]
  exact ⟨fun both => ⟨member, both⟩, fun leaf => leaf.2⟩

theorem Agrees.mem_leaves
    {settled : TaskGraph} (agrees : view.Agrees settled) {order : VisitingOrder}
    (lawful : order.Lawful) {task : TaskId} :
    task ∈ settled.leaves order view.states ↔ view.IsLeaf task := by
  rw [leaves, List.mem_mergeSort, List.mem_filter, (lawful.states _).mem_iff,
    Std.ExtTreeMap.mem_keys]
  constructor
  · rintro ⟨member, leaf⟩
    exact (agrees.isLeaf_iff member).mp leaf
  · intro leaf
    exact ⟨leaf.1, (agrees.isLeaf_iff leaf.1).mpr leaf⟩

theorem exists_createdAs {graph : TaskGraph} {task : TaskId} (known : task ∈ graph.nodes) :
    ∃ place, graph.CreatedAs task place := by
  rw [Std.ExtTreeMap.mem_iff_isSome_getElem?, Option.isSome_iff_exists] at known
  rcases known with ⟨node, found⟩
  exact ⟨node.created, node, found, rfl⟩

theorem createdAt_eq {graph : TaskGraph} {task : TaskId} {place : Nat}
    (created : graph.CreatedAs task place) : graph.createdAt task = place := by
  rcases created with ⟨node, found, rfl⟩
  rw [createdAt, found]

theorem nodup_leaves (graph : TaskGraph) {order : VisitingOrder} (lawful : order.Lawful)
    (states : TaskStates) : (graph.leaves order states).Nodup := by
  rw [leaves, (List.mergeSort_perm _ _).nodup_iff]
  apply List.Nodup.filter
  rw [(lawful.states _).nodup_iff]
  exact Std.ExtTreeMap.nodup_keys

/-- The leaves come in the order in which they were created, none twice. -/
theorem Agrees.leaves_pairwise
    {settled : TaskGraph} (agrees : view.Agrees settled) {order : VisitingOrder}
    (lawful : order.Lawful) :
    (settled.leaves order view.states).Pairwise fun first second =>
      ∃ earlier later, view.graph.CreatedAs first earlier ∧
        view.graph.CreatedAs second later ∧ earlier < later := by
  have sorted : (settled.leaves order view.states).Pairwise fun first second =>
      settled.createdAt first ≤ settled.createdAt second := by
    refine (List.pairwise_mergeSort ?_ ?_ _).imp of_decide_eq_true
    · intro first second third left right
      rw [decide_eq_true_iff] at left right ⊢
      exact Nat.le_trans left right
    · intro first second
      rw [Bool.or_eq_true, decide_eq_true_iff, decide_eq_true_iff]
      exact Nat.le_total _ _
  have distinct := nodup_leaves settled lawful view.states
  refine (sorted.and distinct).imp_of_mem ?_
  intro first second firstMember secondMember both
  have firstLeaf := (agrees.mem_leaves lawful).mp firstMember
  have secondLeaf := (agrees.mem_leaves lawful).mp secondMember
  rcases exists_createdAs (agrees.known first firstLeaf.1) with ⟨earlier, firstCreated⟩
  rcases exists_createdAs (agrees.known second secondLeaf.1) with ⟨later, secondCreated⟩
  refine ⟨earlier, later, (agrees.created first earlier firstLeaf.1).mp firstCreated,
    (agrees.created second later secondLeaf.1).mp secondCreated, ?_⟩
  rw [createdAt_eq firstCreated, createdAt_eq secondCreated] at both
  refine Nat.lt_of_le_of_ne both.1 ?_
  rintro rfl
  exact both.2 (agrees.consistent.created.distinct first second earlier
    firstCreated secondCreated)

/-! ## The next task of a chain -/

/-- What is found first in a list sorted by distinct places is what has the least place. -/
theorem find?_sorted_eq_some_iff
    {entries : List (TaskId × Nat)}
    (sorted : entries.Pairwise fun first second => first.2 ≤ second.2)
    (distinct : ∀ first ∈ entries, ∀ second ∈ entries, first.2 = second.2 → first = second)
    (holds : TaskId → Bool) (entry : TaskId × Nat) :
    entries.find? (fun other => holds other.1) = some entry ↔
      entry ∈ entries ∧ holds entry.1 = true ∧
        ∀ other ∈ entries, holds other.1 = true → entry.2 ≤ other.2 := by
  induction entries with
  | nil => simp
  | cons first rest induction =>
      rw [List.pairwise_cons] at sorted
      rw [List.find?_cons]
      -- The first task that holds is found, and all behind it have later places.
      cases held : holds first.1 with
      | false =>
          have later := induction sorted.2 fun left leftMember right rightMember =>
            distinct left (List.mem_cons_of_mem _ leftMember)
              right (List.mem_cons_of_mem _ rightMember)
          dsimp only
          rw [later]
          constructor
          · rintro ⟨member, holdsEntry, least⟩
            refine ⟨List.mem_cons_of_mem _ member, holdsEntry, ?_⟩
            intro other otherMember holdsOther
            rcases List.mem_cons.mp otherMember with rfl | otherMember
            · rw [held] at holdsOther
              contradiction
            · exact least other otherMember holdsOther
          · rintro ⟨member, holdsEntry, least⟩
            rcases List.mem_cons.mp member with rfl | member
            · rw [held] at holdsEntry
              contradiction
            · exact ⟨member, holdsEntry, fun other otherMember =>
                least other (List.mem_cons_of_mem _ otherMember)⟩
      | true =>
          dsimp only
          rw [Option.some.injEq]
          constructor
          · rintro rfl
            refine ⟨List.mem_cons_self, held, ?_⟩
            intro other otherMember _
            rcases List.mem_cons.mp otherMember with rfl | otherMember
            · exact Nat.le_refl _
            · exact sorted.1 other otherMember
          · rintro ⟨member, _, least⟩
            rcases List.mem_cons.mp member with equal | later
            · exact equal.symm
            · have before := least first List.mem_cons_self held
              have after := sorted.1 entry later
              exact distinct first List.mem_cons_self entry member (Nat.le_antisymm after before)

/-- The parents of a task with the places of their edges, the earliest one first. -/
def parentsByPlace (node : TaskNode) : List (TaskId × Nat) :=
  node.parents.toList.mergeSort fun (first, place) (second, later) =>
    place < later || (place == later && first ≤ second)

theorem parentsByPlace_sorted (node : TaskNode) :
    (parentsByPlace node).Pairwise fun first second => first.2 ≤ second.2 := by
  refine (List.pairwise_mergeSort ?_ ?_ _).imp ?_
  · intro first second third left right
    simp only [Bool.or_eq_true, Bool.and_eq_true, decide_eq_true_eq, beq_iff_eq] at left right ⊢
    rcases left with earlier | ⟨same, before⟩
    · rcases right with later | ⟨sameToo, _⟩
      · exact .inl (Nat.lt_trans earlier later)
      · exact .inl (sameToo ▸ earlier)
    · rcases right with later | ⟨sameToo, beforeToo⟩
      · exact .inl (same ▸ later)
      · exact .inr ⟨same.trans sameToo, UInt64.le_trans before beforeToo⟩
  · intro first second
    simp only [Bool.or_eq_true, Bool.and_eq_true, decide_eq_true_eq, beq_iff_eq]
    rcases Nat.lt_trichotomy first.2 second.2 with earlier | same | later
    · exact .inl (.inl earlier)
    · rcases UInt64.le_total first.1 second.1 with before | after
      · exact .inl (.inr ⟨same, before⟩)
      · exact .inr (.inr ⟨same.symm, after⟩)
    · exact .inr (.inl later)
  · intro first second ordered
    simp only [Bool.or_eq_true, Bool.and_eq_true, decide_eq_true_eq, beq_iff_eq] at ordered
    rcases ordered with earlier | ⟨same, _⟩
    · exact Nat.le_of_lt earlier
    · exact Nat.le_of_eq same

theorem mem_parentsByPlace {node : TaskNode} {entry : TaskId × Nat} :
    entry ∈ parentsByPlace node ↔ node.parents[entry.1]? = some entry.2 := by
  rw [parentsByPlace, List.mem_mergeSort]
  exact Std.ExtTreeMap.mem_toList_iff_getElem?_eq_some

/-- The parent found first among those in order is the one linked earliest. -/
theorem find?_parentsInOrder
    {node : TaskNode}
    (distinct : ∀ (first second : TaskId) (place : Nat),
      node.parents[first]? = some place → node.parents[second]? = some place → first = second)
    (holds : TaskId → Bool) (parent : TaskId) :
    (parentsInOrder node).find? holds = some parent ↔
      ∃ place, node.parents[parent]? = some place ∧ holds parent = true ∧
        ∀ (other : TaskId) (later : Nat), node.parents[other]? = some later →
          holds other = true → place ≤ later := by
  have apart : ∀ first ∈ parentsByPlace node, ∀ second ∈ parentsByPlace node,
      first.2 = second.2 → first = second := by
    intro first firstMember second secondMember same
    have equal := distinct first.1 second.1 first.2 (mem_parentsByPlace.mp firstMember)
      (same ▸ mem_parentsByPlace.mp secondMember)
    exact Prod.ext equal same
  have least := find?_sorted_eq_some_iff (parentsByPlace_sorted node) apart holds
  change ((parentsByPlace node).map Prod.fst).find? holds = some parent ↔ _
  rw [List.find?_map, Option.map_eq_some_iff]
  constructor
  · rintro ⟨entry, found, rfl⟩
    rcases (least entry).mp found with ⟨member, held, first⟩
    refine ⟨entry.2, mem_parentsByPlace.mp member, held, ?_⟩
    intro other later linked heldOther
    exact first (other, later) (mem_parentsByPlace.mpr linked) heldOther
  · rintro ⟨place, linked, held, first⟩
    refine ⟨(parent, place), (least (parent, place)).mpr ⟨mem_parentsByPlace.mpr linked, held, ?_⟩,
      rfl⟩
    intro other member heldOther
    exact first other.1 other.2 (mem_parentsByPlace.mp member) heldOther

theorem isFree_iff {chain : List TaskId} {task : TaskId} :
    (!chain.contains task && some task != view.running) = true ↔ view.IsFree chain task := by
  rw [Bool.and_eq_true, Bool.not_eq_true', List.contains_eq_mem, decide_eq_false_iff_not,
    bne_iff_ne, ne_comm]
  rfl

theorem canFollow_iff {chain : List TaskId} {task parent : TaskId} :
    canFollow view.states view.running chain task parent = true ↔
      view.MayFollow chain task parent := by
  rw [canFollow, MayFollow, Std.ExtTreeMap.mem_iff_isSome_getElem?]
  cases found : view.states[parent]? with
  | none => simp
  | some state =>
      have awaits : ∀ other,
          view.Awaits parent other ↔ awaited? view.states state = some other := by
        intro other
        rw [awaits_iff, found]
        rfl
      have alone : (!awaitsOther view.states state task) = true ↔
          ∀ other, view.Awaits parent other → other = task := by
        rw [awaitsOther, Bool.not_eq_true', Option.any_eq_false]
        simp only [awaits, bne_eq_false_iff_eq]
      dsimp only
      rw [Bool.and_eq_true, isFree_iff, alone]
      exact ⟨fun both => ⟨rfl, both⟩, fun all => all.2⟩

section

variable {settled : TaskGraph} (agrees : view.Agrees settled) {order : VisitingOrder}
  (lawful : order.Lawful) (single : view.SinglyAwaited)

include agrees

theorem Agrees.parent_eq_some_iff {node : TaskNode} {chain : List TaskId} {task : TaskId}
    (member : task ∈ view.states) (found : settled.nodes[task]? = some node) (next : TaskId) :
    (parentsInOrder node).find? (canFollow view.states view.running chain task) = some next ↔
      ∃ place, view.graph.Linked next task place ∧ view.MayFollow chain task next ∧
        ∀ other later, view.graph.Linked other task later →
          view.MayFollow chain task other → place ≤ later := by
  have linked : ∀ (parent : TaskId) (place : Nat),
      node.parents[parent]? = some place ↔ view.graph.Linked parent task place := by
    intro parent place
    rw [← agrees.linked parent task place member, Linked, found]
    simp
  have distinct : ∀ (first second : TaskId) (place : Nat),
      node.parents[first]? = some place → node.parents[second]? = some place →
        first = second := by
    intro first second place firstLinked secondLinked
    exact (agrees.consistent.linked_distinct ⟨node, found, firstLinked⟩
      ⟨node, found, secondLinked⟩).1
  rw [find?_parentsInOrder distinct]
  simp only [linked, canFollow_iff]

include lawful single

/-- The task that is found to stand behind another one is the next by the rule. -/
theorem Agrees.awaiterOf_eq_some_iff {chain : List TaskId} {task : TaskId}
    (member : task ∈ view.states) (next : TaskId) :
    settled.awaiterOf view.states (waitersOf order view.states) view.running chain task =
        some next ↔ view.Next chain task next := by
  have direct : ∀ waiter,
      ((waitersOf order view.states)[task]?.filter fun waiter =>
        !chain.contains waiter && some waiter != view.running) = some waiter ↔
          view.Awaits waiter task ∧ view.IsFree chain waiter := by
    intro waiter
    rw [Option.filter_eq_some_iff, getElem?_waitersOf lawful single, isFree_iff]
  have none : ((waitersOf order view.states)[task]?.filter fun waiter =>
        !chain.contains waiter && some waiter != view.running) = none ↔
      ∀ waiter, view.Awaits waiter task → ¬ view.IsFree chain waiter := by
    rw [Option.eq_none_iff_forall_ne_some]
    constructor
    · exact fun never waiter awaits free => never waiter ((direct waiter).mpr ⟨awaits, free⟩)
    · intro never waiter found
      rcases (direct waiter).mp found with ⟨awaits, free⟩
      exact never waiter awaits free
  have known := agrees.known task member
  rw [Std.ExtTreeMap.mem_iff_isSome_getElem?, Option.isSome_iff_exists] at known
  rcases known with ⟨node, found⟩
  rw [awaiterOf, Option.or_eq_some_iff, direct, none, found]
  dsimp only
  rw [agrees.parent_eq_some_iff member found, Next]

end

/-! ## Whole chains -/

theorem Next.mem_states {chain : List TaskId} {task next : TaskId}
    (follows : view.Next chain task next) : next ∈ view.states := by
  rcases follows with ⟨awaits, _⟩ | ⟨_, place, _, mayFollow, _⟩
  · exact mem_of_awaits awaits
  · exact mayFollow.1

theorem Next.not_mem {chain : List TaskId} {task next : TaskId}
    (follows : view.Next chain task next) : next ∉ chain := by
  rcases follows with ⟨_, free⟩ | ⟨_, place, _, mayFollow, _⟩
  · exact free.1
  · exact mayFollow.2.1.1

theorem Chain.mem_states {before chain : List TaskId} {task : TaskId}
    (isChain : view.Chain before task chain) (member : task ∈ view.states) :
    ∀ other, other ∈ chain → other ∈ view.states := by
  induction isChain with
  | last ends =>
      intro other isLast
      rw [List.mem_singleton] at isLast
      exact isLast ▸ member
  | next follows chain induction =>
      intro other among
      rcases List.mem_cons.mp among with rfl | later
      · exact member
      · exact induction follows.mem_states other later

/-- The tasks of a chain are distinct, and none of them is among those before it. -/
theorem Chain.nodup {before chain : List TaskId} {task : TaskId}
    (isChain : view.Chain before task chain) (absent : task ∉ before) :
    chain.Nodup ∧ ∀ other, other ∈ chain → other ∉ before := by
  induction isChain with
  | last ends =>
      refine ⟨List.nodup_singleton _, ?_⟩
      intro other isLast
      rw [List.mem_singleton] at isLast
      exact isLast ▸ absent
  | next follows chain induction =>
      rcases induction follows.not_mem with ⟨distinct, apart⟩
      constructor
      · rw [List.nodup_cons]
        refine ⟨?_, distinct⟩
        intro member
        exact apart _ member List.mem_cons_self
      · intro other among
        rcases List.mem_cons.mp among with rfl | later
        · exact absent
        · exact fun member => apart other later (List.mem_cons_of_mem _ member)

/--
The tasks from one on that stand in a stack are a chain.  While the room that is left and the tasks
before make up all that were read, the room does not run out.
-/
theorem Agrees.chain_chainFrom
    {settled : TaskGraph} (agrees : view.Agrees settled) {order : VisitingOrder}
    (lawful : order.Lawful) (single : view.SinglyAwaited) (room : Nat) {before : List TaskId}
    {task : TaskId} (distinct : (task :: before).Nodup)
    (members : ∀ other, other ∈ task :: before → other ∈ view.states)
    (enough : room + before.length = view.states.size) :
    view.Chain before task
      (settled.chainFrom view.states (waitersOf order view.states) view.running room before
        task) := by
  induction room generalizing before task with
  | zero =>
      -- All tasks that were read stand before `task`, which was read as well.
      have bounded : (task :: before).length ≤ view.states.keys.length := by
        apply List.Subperm.length_le
        apply distinct.subperm
        intro other among
        exact Std.ExtTreeMap.mem_keys.mpr (members other among)
      rw [Std.ExtTreeMap.length_keys, List.length_cons] at bounded
      omega
  | succ room induction =>
      have next : ∀ other,
          settled.awaiterOf view.states (waitersOf order view.states) view.running
            (task :: before) task = some other ↔ view.Next (task :: before) task other :=
        agrees.awaiterOf_eq_some_iff lawful single (members task List.mem_cons_self)
      rw [chainFrom]
      cases found : settled.awaiterOf view.states (waitersOf order view.states) view.running
          (task :: before) task with
      | none =>
          apply Chain.last
          intro other follows
          rw [(next other).mpr follows] at found
          contradiction
      | some other =>
          have follows := (next other).mp found
          apply Chain.next follows
          apply induction
          · exact List.nodup_cons.mpr ⟨follows.not_mem, distinct⟩
          · intro another among
            rcases List.mem_cons.mp among with rfl | earlier
            · exact follows.mem_states
            · exact members another earlier
          · rw [List.length_cons]
            omega

/-- The tasks in the stack of a task of the loop are a chain from there on. -/
theorem Agrees.chain_chainOf
    {settled : TaskGraph} (agrees : view.Agrees settled) {order : VisitingOrder}
    (lawful : order.Lawful) (single : view.SinglyAwaited) {leaf : TaskId}
    (member : leaf ∈ view.states) :
    view.Chain [] leaf
      (settled.chainOf view.states (waitersOf order view.states) view.running leaf) := by
  apply agrees.chain_chainFrom lawful single
  · exact List.nodup_singleton leaf
  · intro other among
    rw [List.mem_singleton] at among
    exact among ▸ member
  · rfl

end LoopView

end StackSampler.TaskGraph
