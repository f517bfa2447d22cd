import Mathlib.Data.List.Chain
import StackSampler.Greenlet.Rendering
import StackSampler.Proofs.Greenlet.Parents

/-!
# Lines of greenlets

The line of a greenlet goes along parents.  `IsLine` says what it is without counting: it begins
with the greenlet, no greenlet is on it twice, and it ends only where there is no parent or where
the parent is not known or is on the line already.  So a line exists although parents may form
cycles, and `isLine_line` says that looking at as many greenlets as there are is enough to find it.
-/

namespace StackSampler.GreenletTable

variable {table : GreenletTable} {id : GreenletId} {greenlet : Greenlet} {from? : Option GreenletId}
  {visited : List GreenletId} {line : List (GreenletId × Greenlet)}

/-- A greenlet and those that resume after it, one after the other. -/
structure IsLine (table : GreenletTable) (id : GreenletId) (line : List (GreenletId × Greenlet)) :
    Prop where
  known : ∀ entry ∈ line, table.greenlets[entry.1]? = some entry.2
  begins : line.head?.map Prod.fst = some id
  linked : line.IsChain fun inner outer => inner.2.parent = some outer.1
  distinct : (line.map Prod.fst).Nodup
  ends : ∀ last ∈ line.getLast?, ∀ parent, last.2.parent = some parent →
    parent ∉ table.greenlets ∨ parent ∈ line.map Prod.fst

/-- The greenlets from one on along parents, up to one that is not known or was visited. -/
inductive Follows (table : GreenletTable) :
    List GreenletId → Option GreenletId → List (GreenletId × Greenlet) → Prop where
  | nil (visited : List GreenletId) : Follows table visited none []
  | unknown {visited : List GreenletId} {id : GreenletId} (unknown : id ∉ table.greenlets) :
      Follows table visited (some id) []
  | repeated {visited : List GreenletId} {id : GreenletId} (again : id ∈ visited) :
      Follows table visited (some id) []
  | cons {visited : List GreenletId} {id : GreenletId} {greenlet : Greenlet}
      {line : List (GreenletId × Greenlet)} (known : table.greenlets[id]? = some greenlet)
      (fresh : id ∉ visited) (behind : Follows table (id :: visited) greenlet.parent line) :
      Follows table visited (some id) ((id, greenlet) :: line)

/-! ## Looking at enough greenlets -/

/-- Greenlets that are known and distinct are not more than there are. -/
theorem length_le_size (distinct : visited.Nodup) (known : ∀ id ∈ visited, id ∈ table.greenlets) :
    visited.length ≤ table.size := by
  rw [size, ← Std.ExtTreeMap.length_keys]
  exact distinct.length_le_of_subset fun id member => Std.ExtTreeMap.mem_keys.mpr (known id member)

theorem follows_lineFrom (room : Nat) (from? : Option GreenletId) (distinct : visited.Nodup)
    (known : ∀ id ∈ visited, id ∈ table.greenlets) (enough : table.size < room + visited.length) :
    table.Follows visited from? (table.lineFrom room visited from?) := by
  induction room generalizing visited from? with
  | zero => exact absurd (length_le_size distinct known) (by omega)
  | succ room induction =>
      cases from? with
      | none => exact .nil visited
      | some id =>
          rw [lineFrom]
          cases found : table.greenlets[id]? with
          | none =>
              refine .unknown fun member => ?_
              rcases mem_iff_exists.mp member with ⟨greenlet, known⟩
              cases found.symm.trans known
          | some greenlet =>
              dsimp only
              split
              case isTrue again => exact .repeated (List.contains_iff_mem.mp again)
              case isFalse fresh =>
                have fresh : id ∉ visited := fun member =>
                  fresh (List.contains_iff_mem.mpr member)
                refine .cons found fresh (induction _ (List.nodup_cons.mpr ⟨fresh, distinct⟩) ?_ ?_)
                · intro other member
                  rcases List.mem_cons.mp member with rfl | earlier
                  · exact mem_iff_exists.mpr ⟨greenlet, found⟩
                  · exact known other earlier
                · rw [List.length_cons]
                  omega

theorem follows_line (table : GreenletTable) (id : GreenletId) :
    table.Follows [] (some id) (table.line id) :=
  follows_lineFrom _ _ List.nodup_nil (fun _ member => absurd member List.not_mem_nil)
    (Nat.lt_succ_self _)

/-! ## What a line is -/

namespace Follows

theorem known (follows : table.Follows visited from? line) :
    ∀ entry ∈ line, table.greenlets[entry.1]? = some entry.2 := by
  induction follows with
  | nil => exact fun _ member => absurd member List.not_mem_nil
  | unknown => exact fun _ member => absurd member List.not_mem_nil
  | repeated => exact fun _ member => absurd member List.not_mem_nil
  | cons known _ _ induction =>
      intro entry member
      rcases List.mem_cons.mp member with rfl | later
      · exact known
      · exact induction entry later

theorem begins (follows : table.Follows visited from? line) :
    ∀ first ∈ line.head?, from? = some first.1 := by
  cases follows with
  | nil => exact nofun
  | unknown => exact nofun
  | repeated => exact nofun
  | cons =>
      rintro _ ⟨rfl⟩
      rfl

theorem linked (follows : table.Follows visited from? line) :
    line.IsChain fun inner outer => inner.2.parent = some outer.1 := by
  induction follows with
  | nil => exact .nil
  | unknown => exact .nil
  | repeated => exact .nil
  | cons _ _ behind induction => exact List.isChain_cons.mpr ⟨behind.begins, induction⟩

theorem distinct (follows : table.Follows visited from? line) :
    (line.map Prod.fst).Nodup ∧ ∀ id ∈ line.map Prod.fst, id ∉ visited := by
  induction follows with
  | nil => exact ⟨List.nodup_nil, fun _ member => absurd member List.not_mem_nil⟩
  | unknown => exact ⟨List.nodup_nil, fun _ member => absurd member List.not_mem_nil⟩
  | repeated => exact ⟨List.nodup_nil, fun _ member => absurd member List.not_mem_nil⟩
  | @cons visited id greenlet line _ fresh _ induction =>
      rcases induction with ⟨others, unvisited⟩
      rw [List.map_cons]
      refine ⟨List.nodup_cons.mpr ⟨fun again => unvisited id again List.mem_cons_self, others⟩, ?_⟩
      intro other member
      rcases List.mem_cons.mp member with rfl | later
      · exact fresh
      · exact fun earlier => unvisited other later (List.mem_cons_of_mem _ earlier)

theorem eq_nil {next : GreenletId} (follows : table.Follows visited (some next) []) :
    next ∉ table.greenlets ∨ next ∈ visited := by
  cases follows with
  | unknown unknown => exact .inl unknown
  | repeated again => exact .inr again

theorem ends (follows : table.Follows visited from? line) :
    ∀ last ∈ line.getLast?, ∀ parent, last.2.parent = some parent →
      parent ∉ table.greenlets ∨ parent ∈ visited ∨ parent ∈ line.map Prod.fst := by
  induction follows with
  | nil => exact nofun
  | unknown => exact nofun
  | repeated => exact nofun
  | @cons visited id greenlet line _ _ behind induction =>
      intro last isLast parent has
      -- The parent is where the line stopped behind this greenlet, be it at once or later.
      have stopped : parent ∉ table.greenlets ∨ parent ∈ id :: visited ∨
          parent ∈ line.map Prod.fst := by
        cases line with
        | nil =>
            cases isLast
            have has : greenlet.parent = some parent := has
            rw [has] at behind
            exact behind.eq_nil.imp_right .inl
        | cons next rest =>
            rw [List.getLast?_cons_cons] at isLast
            exact induction last isLast parent has
      rw [List.map_cons, List.mem_cons]
      rw [List.mem_cons] at stopped
      tauto

theorem unique {other : List (GreenletId × Greenlet)} (follows : table.Follows visited from? line)
    (others : table.Follows visited from? other) : line = other := by
  induction follows generalizing other with
  | nil =>
      cases others
      rfl
  | unknown unknown =>
      cases others with
      | unknown => rfl
      | repeated => rfl
      | cons known => exact absurd (mem_iff_exists.mpr ⟨_, known⟩) unknown
  | repeated again =>
      cases others with
      | unknown => rfl
      | repeated => rfl
      | cons _ fresh => exact absurd again fresh
  | cons known fresh _ induction =>
      cases others with
      | unknown unknown => exact absurd (mem_iff_exists.mpr ⟨_, known⟩) unknown
      | repeated again => exact absurd again fresh
      | cons knownToo _ behind =>
          cases known.symm.trans knownToo
          rw [induction behind]

/-- What goes along parents, and stops only where it has to, is what is followed. -/
theorem of_linked (visited : List GreenletId) (from? : Option GreenletId)
    (known : ∀ entry ∈ line, table.greenlets[entry.1]? = some entry.2)
    (begins : ∀ first ∈ line.head?, from? = some first.1)
    (linked : line.IsChain fun inner outer => inner.2.parent = some outer.1)
    (distinct : (line.map Prod.fst).Nodup) (fresh : ∀ entry ∈ line, entry.1 ∉ visited)
    (stops : line = [] → ∀ id, from? = some id → id ∉ table.greenlets ∨ id ∈ visited)
    (ends : ∀ last ∈ line.getLast?, ∀ parent, last.2.parent = some parent →
      parent ∉ table.greenlets ∨ parent ∈ visited ∨ parent ∈ line.map Prod.fst) :
    table.Follows visited from? line := by
  induction line generalizing visited from? with
  | nil =>
      cases from? with
      | none => exact .nil visited
      | some id => exact (stops rfl id rfl).elim .unknown .repeated
  | cons first rest induction =>
      rcases first with ⟨id, greenlet⟩
      cases begins (id, greenlet) rfl
      rw [List.map_cons, List.nodup_cons] at distinct
      have linked := List.isChain_cons.mp linked
      refine .cons (known _ List.mem_cons_self) (fresh _ List.mem_cons_self)
        (induction (id :: visited) greenlet.parent
          (fun entry member => known entry (List.mem_cons_of_mem _ member)) linked.1 linked.2
          distinct.2 ?_ ?_ ?_)
      · intro entry member again
        have among : entry.1 ∈ rest.map Prod.fst := List.mem_map_of_mem member
        rcases List.mem_cons.mp again with same | earlier
        · exact distinct.1 (same ▸ among)
        · exact fresh entry (List.mem_cons_of_mem _ member) earlier
      · rintro rfl parent has
        rcases ends (id, greenlet) rfl parent has with unknown | earlier | here
        · exact .inl unknown
        · exact .inr (List.mem_cons_of_mem _ earlier)
        · exact .inr (List.mem_cons.mpr (.inl (List.mem_singleton.mp here)))
      · intro last isLast parent has
        have isLastToo : last ∈ ((id, greenlet) :: rest).getLast? := by
          rw [List.getLast?_cons, Option.mem_def.mp isLast]
          rfl
        have stopped := ends last isLastToo parent has
        rw [List.map_cons, List.mem_cons] at stopped
        rw [List.mem_cons]
        tauto

end Follows

theorem isLine_line (known : id ∈ table.greenlets) : table.IsLine id (table.line id) where
  known := (follows_line table id).known
  begins := by
    have follows := follows_line table id
    revert follows
    generalize table.line id = line
    intro follows
    cases follows with
    | unknown unknown => exact absurd known unknown
    | repeated again => cases again
    | cons => rfl
  linked := (follows_line table id).linked
  distinct := (follows_line table id).distinct.1
  ends last isLast parent has := by
    rcases (follows_line table id).ends last isLast parent has with unknown | again | again
    · exact .inl unknown
    · cases again
    · exact .inr again

/-- A greenlet that is known has one line. -/
theorem isLine_iff (known : id ∈ table.greenlets) :
    table.IsLine id line ↔ line = table.line id := by
  constructor
  · intro isLine
    refine (Follows.of_linked [] (some id) isLine.known ?_ isLine.linked isLine.distinct ?_ ?_
      ?_).unique (follows_line table id)
    · intro first isFirst
      have begins := isLine.begins
      rw [Option.mem_def.mp isFirst] at begins
      exact begins.symm
    · exact fun _ _ => List.not_mem_nil
    · rintro rfl
      cases isLine.begins
    · intro last isLast parent has
      exact (isLine.ends last isLast parent has).imp_right .inr
  · rintro rfl
    exact isLine_line known

end StackSampler.GreenletTable
