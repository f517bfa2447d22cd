import Mathlib.Data.FinEnum
import Mathlib.Data.Fintype.Card
import Mathlib.Data.List.Forall2
import Mathlib.Logic.Relation
import StackSampler.Proofs.Task.Stacks

/-!
# Which tasks are shown

A stack climbs from its leaf to those who wait.  Where no task has two waiters and nobody waits in a
circle, every task of a loop stands in one of the stacks.  Descending from the task through what it
awaits, or else through any of its children, ends at a leaf; and the stack of that leaf climbs back
through the same tasks, since it has no other waiter to choose on its way.
-/

namespace StackSampler.TaskGraph

variable {σ : Type}

theorem Linked.place_eq {graph : TaskGraph} {parent child : TaskId} {place other : Nat}
    (linked : graph.Linked parent child place) (again : graph.Linked parent child other) :
    place = other := by
  rcases linked with ⟨node, found, atPlace⟩
  have atOther := (exists_node_iff_of_found found (·.parents[parent]? = some other)).mp again
  exact Option.some.inj (atPlace.symm.trans atOther)

namespace LoopView

variable {view : LoopView} {task waiter leaf : TaskId} {before chain : List TaskId}

/-- One task of the loop directly awaits another one, or is linked to it as a parent. -/
def WaitsOn (view : LoopView) (waiter task : TaskId) : Prop :=
  waiter ∈ view.states ∧ task ∈ view.states ∧
    (view.Awaits waiter task ∨ ∃ place, view.graph.Linked waiter task place)

/-- No task has two waiters, nobody waits in a circle, and the running task waits on nobody. -/
structure Orderly (view : LoopView) : Prop where
  single : ∀ first second task, view.WaitsOn first task → view.WaitsOn second task → first = second
  acyclic : ∀ task, ¬ Relation.TransGen view.WaitsOn task task
  idle : ∀ running other, view.running = some running → ¬ view.WaitsOn running other

theorem WaitsOn.of_awaits (awaits : view.Awaits waiter task) : view.WaitsOn waiter task :=
  ⟨mem_of_awaits awaits, awaits.1, .inl awaits⟩

theorem awaits_unique {other : TaskId} (awaits : view.Awaits waiter task)
    (awaitsOther : view.Awaits waiter other) : other = task := by
  rw [awaits_iff] at awaits awaitsOther
  rw [awaits, Option.some.injEq] at awaitsOther
  exact awaitsOther.symm

/-- Whoever stands behind a task in a stack waits on it. -/
theorem Next.waitsOn {next : TaskId} (follows : view.Next chain task next)
    (member : task ∈ view.states) : view.WaitsOn next task := by
  rcases follows with ⟨awaits, _⟩ | ⟨_, place, linked, mayFollow, _⟩
  · exact .of_awaits awaits
  · exact ⟨mayFollow.1, member, .inr ⟨place, linked⟩⟩

theorem isLeaf_iff_waitsOn (consistent : view.graph.Consistent) :
    view.IsLeaf task ↔ task ∈ view.states ∧ ∀ other, ¬ view.WaitsOn task other := by
  constructor
  · rintro ⟨member, awaitsNone, childless⟩
    refine ⟨member, ?_⟩
    rintro other ⟨_, otherMember, awaits | ⟨place, linked⟩⟩
    · exact awaitsNone other awaits
    · exact childless other otherMember (consistent.lists_of_linked linked)
  · rintro ⟨member, waitsNone⟩
    refine ⟨member, fun other awaits => waitsNone other (.of_awaits awaits), ?_⟩
    intro child childMember listed
    have linked := (consistent.ends task child).mp listed
    exact waitsNone child ⟨member, childMember, .inr linked⟩

theorem Chain.head_mem (isChain : view.Chain before task chain) : task ∈ chain := by
  cases isChain with
  | last => exact List.mem_cons_self
  | next => exact List.mem_cons_self

namespace Orderly

variable (orderly : view.Orderly)

include orderly

theorem singlyAwaited : view.SinglyAwaited :=
  fun first second task left right =>
    orderly.single first second task (.of_awaits left) (.of_awaits right)

/--
The waiter of a task stands behind it in a stack whose earlier tasks are all waited on by that task,
be it through others, unless the waiter awaits another one.
-/
theorem next (waits : view.WaitsOn waiter task)
    (only : ∀ other, view.Awaits waiter other → other = task)
    (below : ∀ earlier, earlier ∈ task :: before →
      Relation.ReflTransGen view.WaitsOn task earlier) :
    view.Next (task :: before) task waiter := by
  have free : view.IsFree (task :: before) waiter := by
    constructor
    · intro member
      exact orderly.acyclic waiter (.head' waits (below waiter member))
    · intro runs
      exact orderly.idle waiter task runs waits
  by_cases awaits : view.Awaits waiter task
  · exact .inl ⟨awaits, free⟩
  · rcases waits.2.2 with directly | ⟨place, linked⟩
    · exact absurd directly awaits
    · refine .inr ⟨?_, place, linked, ⟨waits.1, free, only⟩, ?_⟩
      · intro other otherAwaits
        rw [orderly.single other waiter task (.of_awaits otherAwaits) waits] at otherAwaits
        exact absurd otherAwaits awaits
      · -- No other parent is a task of the loop, so the edge is compared with itself only.
        intro other later otherLinked mayFollow
        have same := orderly.single other waiter task
          ⟨mayFollow.1, waits.2.1, .inr ⟨later, otherLinked⟩⟩ waits
        subst same
        exact Nat.le_of_eq (linked.place_eq otherLinked)

/-- With a task, a stack shows the one that waits on it and awaits no other. -/
theorem mem_chain (isChain : view.Chain before task chain) (member : task ∈ view.states)
    (below : ∀ earlier, earlier ∈ task :: before →
      Relation.ReflTransGen view.WaitsOn task earlier)
    {waited : TaskId} (waits : view.WaitsOn waiter waited)
    (only : ∀ other, view.Awaits waiter other → other = waited) (among : waited ∈ chain) :
    waiter ∈ chain := by
  induction isChain with
  | last ends =>
      rw [List.mem_singleton] at among
      subst among
      exact absurd (orderly.next waits only below) (ends waiter)
  | @next before task next rest follows onward induction =>
      have waitsOnTask := follows.waitsOn member
      rcases List.mem_cons.mp among with rfl | later
      · rw [orderly.single waiter next waited waits waitsOnTask]
        exact List.mem_cons_of_mem _ onward.head_mem
      · refine List.mem_cons_of_mem _ (induction follows.mem_states ?_ later)
        intro earlier earlierAmong
        rcases List.mem_cons.mp earlierAmong with rfl | earlierAmong
        · exact .refl
        · exact .head waitsOnTask (below earlier earlierAmong)

/-- There are only so many tasks, so nobody waits on others without end. -/
theorem wellFounded : WellFounded fun task waiter => view.WaitsOn waiter task := by
  have transitive : IsTrans TaskId (Function.swap (Relation.TransGen view.WaitsOn)) :=
    ⟨fun _ _ _ left right => right.trans left⟩
  have irreflexive : Std.Irrefl (Function.swap (Relation.TransGen view.WaitsOn)) :=
    ⟨orderly.acyclic⟩
  have descending := Finite.wellFounded_of_trans_of_irrefl
    (Function.swap (Relation.TransGen view.WaitsOn))
  exact Subrelation.wf (fun waits => .single waits) descending

/-- Every task of the loop stands in the stack of some leaf. -/
theorem exists_leaf (consistent : view.graph.Consistent) (member : task ∈ view.states) :
    ∃ leaf, view.IsLeaf leaf ∧ ∀ chain, view.Chain [] leaf chain → task ∈ chain := by
  induction task using orderly.wellFounded.induction with
  | _ task descend =>
      -- What stands below is shown by the stack of a leaf, and so is the task behind it.
      have climb : ∀ other, view.WaitsOn task other →
          (∀ another, view.Awaits task another → another = other) →
          ∃ leaf, view.IsLeaf leaf ∧ ∀ chain, view.Chain [] leaf chain → task ∈ chain := by
        intro other waits only
        rcases descend other waits waits.2.1 with ⟨leaf, isLeaf, shown⟩
        refine ⟨leaf, isLeaf, fun chain isChain => ?_⟩
        refine orderly.mem_chain isChain isLeaf.1 ?_ waits only (shown chain isChain)
        intro earlier isFirst
        rw [List.mem_singleton] at isFirst
        rw [isFirst]
      by_cases awaits : ∃ other, view.Awaits task other
      · rcases awaits with ⟨other, awaits⟩
        exact climb other (.of_awaits awaits) fun another => awaits_unique awaits
      · by_cases waits : ∃ other, view.WaitsOn task other
        · rcases waits with ⟨other, waits⟩
          exact climb other waits fun another directly => absurd ⟨another, directly⟩ awaits
        · have isLeaf := (isLeaf_iff_waitsOn consistent).mpr ⟨member, not_exists.mp waits⟩
          exact ⟨task, isLeaf, fun chain isChain => isChain.head_mem⟩

end Orderly

/-! ## Stacks and chains -/

/--
A stack shows a chain from a leaf on: the frames of its tasks, those of each followed by its
boundary, and then the frames of the loop.
-/
structure Shows (view : LoopView) (interpreter : Interpreter σ) (inner outer : List WalkedFrame)
    (leaf : TaskId) (chain : List TaskId) (stack : Stack) : Prop where
  task : stack.task = some leaf
  isChain : view.Chain [] leaf chain
  distinct : chain.Nodup
  members : ∀ task, task ∈ chain → task ∈ view.states
  frames : ∃ before frames after, view.ChainFrames interpreter inner chain before frames after ∧
    stack.frames = frames ++ outer.map (·.frame)

variable {interpreter : Interpreter σ} {inner outer : List WalkedFrame}

theorem ChainFrames.exists_boundary {before after : Observation σ} {frames : List Frame}
    (shown : view.ChainFrames interpreter inner chain before frames after) (member : task ∈ chain) :
    ∃ boundary, boundary ∈ frames ∧ view.IsBoundary task boundary := by
  induction shown with
  | nil => exact absurd member List.not_mem_nil
  | @cons first tasks before middle after frames others boundary own isBoundary rest induction =>
      rcases List.mem_cons.mp member with rfl | later
      · exact ⟨boundary, by simp, isBoundary⟩
      · rcases induction later with ⟨found, among, isFound⟩
        exact ⟨found, by simp [among], isFound⟩

theorem Shows.exists_boundary {stack : Stack}
    (shows : view.Shows interpreter inner outer leaf chain stack) (member : task ∈ chain) :
    ∃ boundary, boundary ∈ stack.frames ∧ view.IsBoundary task boundary := by
  rcases shows.frames with ⟨_, frames, _, shown, same⟩
  rcases shown.exists_boundary member with ⟨boundary, among, isBoundary⟩
  refine ⟨boundary, ?_, isBoundary⟩
  rw [same]
  exact List.mem_append_left _ among

theorem LeafStacks.shows {leaves : List TaskId} {before after : Observation σ}
    {rendered : List Stack}
    (shown : view.LeafStacks interpreter inner outer leaves before rendered after) :
    List.Forall₂ (fun leaf stack => ∃ chain, view.Shows interpreter inner outer leaf chain stack)
      leaves rendered := by
  induction shown with
  | nil => exact .nil
  | cons isChain distinct members shown runs rest induction =>
      exact .cons ⟨_, rfl, isChain, distinct, members, _, _, _, shown, rfl⟩ induction

end LoopView

/-! ## Showing a loop -/

theorem exists_mem_of_forall₂ {α β : Type} {related : α → β → Prop} {left : List α}
    {right : List β} (pairwise : List.Forall₂ related left right) {item : α}
    (member : item ∈ left) : ∃ other, other ∈ right ∧ related item other := by
  rcases List.forall₂_iff_get.mp pairwise with ⟨same, each⟩
  rcases List.get_of_mem member with ⟨index, rfl⟩
  exact ⟨right.get ⟨index, same ▸ index.2⟩, List.get_mem _ _, each index index.2 (same ▸ index.2)⟩

/-- The stacks that are shown for a loop are those of its leaves, unless it has none. -/
theorem renderIn_leafStacks {graph : TaskGraph} {order : VisitingOrder} (lawful : order.Lawful)
    (interpreter : Interpreter σ) {thread : ThreadId} {loop : LoopId}
    (hosted : graph.loopOf? thread = some loop) (physical : List WalkedFrame)
    (observation : Observation σ) {answers : List (TaskId × Except ReadFault TaskState)}
    {subject : σ}
    (asked : graph.answersOn order interpreter loop observation.subject = (answers, subject))
    {view : LoopView} (isView : graph.viewOf order loop answers physical = view)
    (agrees : view.Agrees (graph.settle answers)) (names : view.Names (graph.settle answers))
    (single : view.SinglyAwaited) :
    ∃ inner outer rendered after, view.Divides physical inner outer ∧
      view.LeafStacks interpreter inner outer ((graph.settle answers).leaves order view.states)
        { observation with subject := subject } rendered after ∧
      ((graph.renderIn order interpreter thread physical).run observation).1.1 =
        if (graph.settle answers).leaves order view.states = [] then [.physical physical]
        else rendered := by
  have isAnswers : answers = (graph.answersOn order interpreter loop observation.subject).1 := by
    rw [asked]
  have isSubject : subject = (graph.answersOn order interpreter loop observation.subject).2 := by
    rw [asked]
  have shown := LoopView.chainStacks_shown interpreter
    (physical.splitAt (runningDepth view.states view.running physical)).1
    (physical.splitAt (runningDepth view.states view.running physical)).2
    agrees names lawful single
    (fun leaf member => ((agrees.mem_leaves lawful).mp member).1)
    { observation with subject := subject }
  refine ⟨_, _, _, _, view.divides_splitAt physical, shown, ?_⟩
  have empty := shown.eq_nil_iff
  rw [renderIn, hosted]
  subst isView isAnswers isSubject
  exact if_congr (List.isEmpty_iff.trans empty) rfl rfl

/--
Where the tasks of a loop wait in an orderly way, none of them is lost: each stands in the chain of
some stack, with its boundary, and a chain has no task twice.  There is one stack for each task that
waits on nobody.
-/
theorem renderIn_covers
    {graph : TaskGraph} (reachable : graph.Reachable) {order : VisitingOrder}
    (lawful : order.Lawful) (interpreter : Interpreter σ) {thread : ThreadId} {loop : LoopId}
    (hosted : graph.loopOf? thread = some loop) (physical : List WalkedFrame)
    (observation : Observation σ) {answers : List (TaskId × Except ReadFault TaskState)}
    {subject : σ}
    (asked : graph.answersOn order interpreter loop observation.subject = (answers, subject))
    {view : LoopView} (isView : graph.viewOf order loop answers physical = view)
    (filled : ∃ task, task ∈ view.states) (orderly : view.Orderly) :
    (∀ (task : TaskId) (state : TaskState), view.states[task]? = some state ↔
        ∃ node, graph.live? task = some node ∧ (task, .ok state) ∈ answers ∧
          state.done = false ∧ node.loop.or state.loop = some loop) ∧
      ∃ leaves inner outer rendered,
        ((graph.renderIn order interpreter thread physical).run observation).1.1 = rendered ∧
          leaves.Nodup ∧
          (∀ task, task ∈ leaves ↔ task ∈ view.states ∧ ∀ other, ¬ view.WaitsOn task other) ∧
          rendered.length = leaves.length ∧
          view.Divides physical inner outer ∧
          List.Forall₂
            (fun leaf stack => ∃ chain, view.Shows interpreter inner outer leaf chain stack)
            leaves rendered ∧
          ∀ task, task ∈ view.states → ∃ stack leaf chain, stack ∈ rendered ∧
            view.Shows interpreter inner outer leaf chain stack ∧ task ∈ chain ∧
            ∃ boundary, boundary ∈ stack.frames ∧ view.IsBoundary task boundary := by
  have consistent := reachable.consistent
  have sameGraph : view.graph = graph := isView ▸ rfl
  have viewConsistent : view.graph.Consistent := sameGraph ▸ consistent
  have tasks : answers.map Prod.fst = graph.candidates order loop := by
    rw [← answersOn_tasks graph order interpreter loop observation.subject, asked]
  have distinct : (answers.map Prod.fst).Nodup := by
    rw [tasks]
    exact nodup_candidates graph lawful loop
  have agrees : view.Agrees (graph.settle answers) := isView ▸ viewOf_agrees consistent distinct
  have isLeaf : ∀ task, task ∈ (graph.settle answers).leaves order view.states ↔
      view.IsLeaf task :=
    fun task => agrees.mem_leaves lawful
  have names : view.Names (graph.settle answers) := isView ▸ viewOf_names consistent distinct
  rcases renderIn_leafStacks lawful interpreter hosted physical observation asked isView agrees
    names orderly.singlyAwaited with ⟨inner, outer, rendered, after, divides, shown, result⟩
  have perLeaf := shown.shows
  refine ⟨?_, _, inner, outer, rendered, ?_,
    LoopView.nodup_leaves (graph.settle answers) lawful view.states, ?_,
    perLeaf.length_eq.symm, divides, perLeaf, ?_⟩
  · rw [← isView]
    apply states_viewOf_iff consistent distinct
    intro task member
    rw [tasks, mem_candidates lawful] at member
    rcases member with ⟨node, live, _⟩
    exact ⟨node, live⟩
  · -- Descending from any task of the loop leads to a leaf, so there is one.
    rcases filled with ⟨task, member⟩
    rcases orderly.exists_leaf viewConsistent member with ⟨leaf, leafOf, _⟩
    rw [result, if_neg (List.ne_nil_of_mem ((isLeaf leaf).mpr leafOf))]
  · exact fun task => (isLeaf task).trans (LoopView.isLeaf_iff_waitsOn viewConsistent)
  · intro task member
    rcases orderly.exists_leaf viewConsistent member with ⟨leaf, leafOf, covers⟩
    rcases exists_mem_of_forall₂ perLeaf ((isLeaf leaf).mpr leafOf) with
      ⟨stack, among, chain, shows⟩
    have member := covers chain shows.isChain
    exact ⟨stack, leaf, chain, among, shows, member, shows.exists_boundary member⟩

theorem gatheringView_waitsOn {waiter task : TaskId} (waits : gatheringView.WaitsOn waiter task) :
    waiter = 1 ∧ task ≠ 1 := by
  have awaited : ∀ entry ∈ gatheringView.states.toList, entry.2.awaiting ≠ none →
      entry.1 = 1 ∧ entry.2.awaiting ≠ some 1 := by
    decide
  have linkedTo : ∀ entry ∈ gatheringGraph.nodes.toList, ∀ parent ∈ entry.2.parents.toList,
      parent.1 = 1 ∧ entry.1 ≠ 1 := by
    decide
  rcases waits.2.2 with ⟨_, state, found, awaits⟩ | ⟨place, node, found, linked⟩
  · have known := Std.ExtTreeMap.mem_toList_iff_getElem?_eq_some.mpr found
    rcases awaited (waiter, state) known (by simp [awaits]) with ⟨first, other⟩
    refine ⟨first, ?_⟩
    rintro rfl
    exact other awaits
  · exact linkedTo (task, node) (Std.ExtTreeMap.mem_toList_iff_getElem?_eq_some.mpr found)
      (waiter, place) (Std.ExtTreeMap.mem_toList_iff_getElem?_eq_some.mpr linked)

theorem gatheringView_orderly : gatheringView.Orderly := by
  constructor
  case single =>
    intro first second task left right
    rw [(gatheringView_waitsOn left).1, (gatheringView_waitsOn right).1]
  case acyclic =>
    intro task circle
    rcases Relation.TransGen.head'_iff.mp circle with ⟨_, starts, _⟩
    rcases Relation.TransGen.tail'_iff.mp circle with ⟨_, _, ends⟩
    exact (gatheringView_waitsOn ends).2 (gatheringView_waitsOn starts).1
  case idle =>
    intro running other runs waits
    have third : gatheringView.running = some 3 := by decide
    rw [third, Option.some.injEq] at runs
    rw [← runs] at waits
    exact absurd (gatheringView_waitsOn waits).1 (by decide)

theorem renderIn_covers_gathering :
    gatheringGraph.Reachable ∧ VisitingOrder.ascending.Lawful ∧
      gatheringGraph.loopOf? 1 = some 7 ∧ 1 ∈ gatheringView.states ∧ gatheringView.Orderly ∧
      ∃ stack inner outer leaf chain,
        stack ∈ ((gatheringGraph.renderIn .ascending Tables.interpreter 1 gatheringStack).run
          ⟨Walker.new ⟨3, 11⟩ 64, gatheringTables⟩).1.1 ∧
        gatheringView.Shows Tables.interpreter inner outer leaf chain stack ∧ 1 ∈ chain := by
  have hosted : gatheringGraph.loopOf? 1 = some 7 := by decide
  have member : 1 ∈ gatheringView.states := by decide
  rcases renderIn_covers gatheringGraph_reachable ascending_lawful Tables.interpreter hosted
    gatheringStack ⟨Walker.new ⟨3, 11⟩ 64, gatheringTables⟩ rfl rfl ⟨1, member⟩
    gatheringView_orderly with
    ⟨_, leaves, inner, outer, rendered, result, _, _, _, _, _, covered⟩
  rcases covered 1 member with ⟨stack, leaf, chain, among, shows, stands, _⟩
  exact ⟨gatheringGraph_reachable, ascending_lawful, hosted, member, gatheringView_orderly,
    stack, inner, outer, leaf, chain, result ▸ among, shows, stands⟩

end StackSampler.TaskGraph
