import StackSampler.Proofs.LineTable.Varints

/-!
# Where a number ends

The bytes may spell a number with more groups than it needs; they may also end before the number
does, or go on for more groups than a word has room for.  Of all bytes it is said here whether a
number is read from them and how many of them it takes.  What is left of a table stands for a place
in it; a `Cursor` keeps the place itself, and moves it in a reading that fails as well.

The main statement is `varint_reads_groups`.
-/

namespace StackSampler.LineTable

/-! ## Bytes that are read -/

/-- Groups that spell a number: at least one and at most eleven of them, the lowest first. -/
structure Spells (groups : List Nat) (value : Nat) : Prop where
  nonempty : groups ≠ []
  few : groups.length ≤ 11
  small : ∀ group ∈ groups, group < 64
  total : Nat.ofDigits 64 groups = value

/-- Groups that are zero may follow behind those that a number needs. -/
theorem spells_padded {value padding : Nat} (few : (groupsOf value).length + padding ≤ 11) :
    Spells (groupsOf value ++ List.replicate padding 0) value where
  nonempty := List.append_ne_nil_of_left_ne_nil (groupsOf_ne_nil value) _
  few := by rwa [List.length_append, List.length_replicate]
  small group mem := by
    rcases List.mem_append.mp mem with needed | added
    · exact groupsOf_lt needed
    · rw [List.eq_of_mem_replicate added]
      decide
  total := by rw [Nat.ofDigits_append_replicate_zero, ofDigits_groupsOf]

/-- A number that fits a word is read from any groups that spell it. -/
theorem varint_of_spells {groups : List Nat} {value : Nat} (spells : Spells groups value)
    (fits : value < 2 ^ 64) (rest : List UInt8) :
    varint (groupBytes groups ++ rest) = some (value, rest) := by
  have read := varintGroups_groupBytes groups rest 11 0 spells.nonempty spells.small spells.few
    (by rw [spells.total, Nat.pow_zero, Nat.one_mul]; exact fits)
  rwa [spells.total, Nat.pow_zero, Nat.one_mul] at read

/-! ## Bytes that are not read -/

/-- A byte says that another group follows. -/
def IsMarked (byte : UInt8) : Prop :=
  byte.toNat / 64 % 2 = 1

instance : DecidablePred IsMarked :=
  fun byte => inferInstanceAs (Decidable (byte.toNat / 64 % 2 = 1))

/-- The number of groups up to the first that no other follows, this one included. -/
def groupCount (bytes : List UInt8) : Nat :=
  (bytes.takeWhile (IsMarked ·)).length + 1

theorem groupCount_of_marked {byte : UInt8} (marked : IsMarked byte) (bytes : List UInt8) :
    groupCount (byte :: bytes) = groupCount bytes + 1 := by
  simp [groupCount, marked]

theorem groupCount_of_unmarked {byte : UInt8} (unmarked : ¬ IsMarked byte) (bytes : List UInt8) :
    groupCount (byte :: bytes) = 1 := by
  simp [groupCount, unmarked]

theorem varintGroups_of_marked {byte : UInt8} (marked : IsMarked byte) (groups shift : Nat)
    (rest : List UInt8) :
    varintGroups (groups + 1) shift (byte :: rest) =
      (varintGroups groups (shift + 6) rest).map fun (value, after) =>
        (((byte.toNat % 64) <<< shift) % UInt64.size + value, after) :=
  if_pos marked

theorem varintGroups_of_unmarked {byte : UInt8} (unmarked : ¬ IsMarked byte) (groups shift : Nat)
    (rest : List UInt8) :
    varintGroups (groups + 1) shift (byte :: rest) =
      some (((byte.toNat % 64) <<< shift) % UInt64.size, rest) :=
  if_neg unmarked

/-- Groups are refused exactly if none of them is the last, or the last is one too many. -/
theorem varintGroups_eq_none_iff (groups shift : Nat) (bytes : List UInt8) :
    varintGroups groups shift bytes = none ↔
      (∀ byte ∈ bytes, IsMarked byte) ∨ groups < groupCount bytes := by
  induction groups generalizing shift bytes with
  | zero => simp [varintGroups, groupCount]
  | succ groups induction =>
      cases bytes with
      | nil => simp [varintGroups]
      | cons byte rest =>
          by_cases marked : IsMarked byte
          · rw [varintGroups_of_marked marked, Option.map_eq_none_iff, induction,
              groupCount_of_marked marked]
            simp [marked]
          · rw [varintGroups_of_unmarked marked, groupCount_of_unmarked marked]
            simp [marked]

/-- What is left begins just behind the last group. -/
theorem rest_of_varintGroups {groups shift value : Nat} {bytes rest : List UInt8}
    (read : varintGroups groups shift bytes = some (value, rest)) :
    groupCount bytes ≤ bytes.length ∧ bytes.drop (groupCount bytes) = rest := by
  induction groups generalizing shift value bytes with
  | zero => cases read
  | succ groups induction =>
      cases bytes with
      | nil => cases read
      | cons byte others =>
          by_cases marked : IsMarked byte
          · rw [varintGroups_of_marked marked, Option.map_eq_some_iff] at read
            rcases read with ⟨⟨further, after⟩, later, same⟩
            cases same
            rcases induction later with ⟨inside, left⟩
            rw [groupCount_of_marked marked, List.length_cons, List.drop_succ_cons]
            exact ⟨Nat.succ_le_succ inside, left⟩
          · rw [varintGroups_of_unmarked marked] at read
            cases read
            rw [groupCount_of_unmarked marked]
            exact ⟨Nat.succ_le_succ (Nat.zero_le _), rfl⟩

/-- A signed number takes the same bytes as the number that stands for it. -/
theorem rest_signedVarint (bytes : List UInt8) :
    (signedVarint bytes).map Prod.snd = (varint bytes).map Prod.snd := by
  rw [signedVarint, Option.map_map]
  rfl

theorem signedVarint_eq_none_iff (bytes : List UInt8) :
    signedVarint bytes = none ↔ varint bytes = none := by
  rw [← Option.map_eq_none_iff (f := Prod.snd), rest_signedVarint, Option.map_eq_none_iff]

/-! ## Places in a table -/

/-- A place in a table. -/
structure Cursor where
  table : List UInt8
  position : Nat

namespace Cursor

/-- The bytes from the place on. -/
def left (cursor : Cursor) : List UInt8 :=
  cursor.table.drop cursor.position

/-- The place behind the byte that stands here; at the end of the table it is the same place. -/
def advance (cursor : Cursor) : Cursor :=
  match cursor.left with
  | [] => cursor
  | _ :: _ => { cursor with position := cursor.position + 1 }

/--
Reads at most `groups` more groups, one byte after the other.  A group that is one too many is
passed before it is refused.
-/
def varintGroups : Nat → Nat → Cursor → Option Nat × Cursor
  | 0, _, cursor => (none, cursor.advance)
  | groups + 1, shift, cursor =>
      match cursor.left with
      | [] => (none, cursor.advance)
      | byte :: _ =>
          let part := ((byte.toNat % 64) <<< shift) % UInt64.size
          if IsMarked byte then
            let (value, after) := varintGroups groups (shift + 6) cursor.advance
            (value.map (part + ·), after)
          else (some part, cursor.advance)

/-- Reads an unsigned number. -/
def varint : Cursor → Option Nat × Cursor :=
  varintGroups 11 0

/-- A cursor moved on within its table. -/
structure MovesTo (cursor after : Cursor) : Prop where
  table : after.table = cursor.table
  onward : cursor.position ≤ after.position
  inside : cursor.position ≤ cursor.table.length → after.position ≤ after.table.length

theorem MovesTo.trans {cursor between after : Cursor} (first : cursor.MovesTo between)
    (second : between.MovesTo after) : cursor.MovesTo after where
  table := second.table.trans first.table
  onward := Nat.le_trans first.onward second.onward
  inside isInside := second.inside (first.inside isInside)

theorem advance_movesTo (cursor : Cursor) : cursor.MovesTo cursor.advance := by
  rw [advance]
  cases left : cursor.left with
  | nil => exact ⟨rfl, Nat.le_refl _, id⟩
  | cons byte rest =>
      refine ⟨rfl, Nat.le_succ _, fun _ => ?_⟩
      have length := congrArg List.length left
      rw [Cursor.left, List.length_drop, List.length_cons] at length
      show cursor.position + 1 ≤ cursor.table.length
      omega

theorem left_advance {cursor : Cursor} {byte : UInt8} {rest : List UInt8}
    (left : cursor.left = byte :: rest) : cursor.advance.left = rest := by
  have behind : cursor.table.drop (cursor.position + 1) = cursor.left.tail := by
    rw [Cursor.left, List.tail_drop]
  rw [advance, left]
  show cursor.table.drop (cursor.position + 1) = rest
  rw [behind, left, List.tail_cons]

/-- The place moves on within the table, whether or not a number is read. -/
theorem varintGroups_movesTo (groups shift : Nat) (cursor : Cursor) :
    cursor.MovesTo (varintGroups groups shift cursor).2 := by
  induction groups generalizing shift cursor with
  | zero => exact cursor.advance_movesTo
  | succ groups induction =>
      rw [varintGroups]
      split
      · exact cursor.advance_movesTo
      · split
        · exact cursor.advance_movesTo.trans (induction (shift + 6) cursor.advance)
        · exact cursor.advance_movesTo

/-- From a place the number is read that the bytes left there begin with. -/
theorem varintGroups_left (groups shift : Nat) (cursor : Cursor) :
    LineTable.varintGroups groups shift cursor.left =
      (varintGroups groups shift cursor).1.map fun value =>
        (value, (varintGroups groups shift cursor).2.left) := by
  induction groups generalizing shift cursor with
  | zero => rfl
  | succ groups induction =>
      rw [varintGroups]
      cases left : cursor.left with
      | nil => rfl
      | cons byte rest =>
          by_cases marked : IsMarked byte
          · have later := induction (shift + 6) cursor.advance
            rw [left_advance left] at later
            rw [varintGroups_of_marked marked, later]
            simp only [marked, if_true, Option.map_map]
            rfl
          · rw [varintGroups_of_unmarked marked]
            simp only [marked, if_false, Option.map_some, left_advance left]

theorem varint_left (cursor : Cursor) :
    LineTable.varint cursor.left = cursor.varint.1.map fun value => (value, cursor.varint.2.left) :=
  varintGroups_left 11 0 cursor

end Cursor

/-! ## Every reading -/

/--
A number that fits a word is read from any groups that spell it, and a signed one whose magnitude
leaves room for its sign.  Bytes are refused if none of their groups is the last one or it is not
among the first eleven, and in no other case; what is left otherwise begins just behind the last
group.  A place in a table moves on in every reading, and never out of the table.
-/
theorem varint_reads_groups :
    (∀ (value : Nat) (groups : List Nat) (rest : List UInt8), value < 2 ^ 64 →
        Spells groups value → varint (groupBytes groups ++ rest) = some (value, rest)) ∧
      (∀ (value : Int) (groups : List Nat) (rest : List UInt8), value.natAbs < 2 ^ 63 →
        Spells groups (folded value) →
          signedVarint (groupBytes groups ++ rest) = some (value, rest)) ∧
      (∀ bytes : List UInt8,
        (varint bytes = none ↔ (∀ byte ∈ bytes, IsMarked byte) ∨ 11 < groupCount bytes) ∧
          (signedVarint bytes = none ↔ varint bytes = none)) ∧
      (∀ (bytes rest : List UInt8) (value : Nat), varint bytes = some (value, rest) →
        groupCount bytes ≤ bytes.length ∧ bytes.drop (groupCount bytes) = rest) ∧
      (∀ bytes : List UInt8,
        (signedVarint bytes).map Prod.snd = (varint bytes).map Prod.snd) ∧
      ∀ cursor : Cursor,
        varint cursor.left =
            cursor.varint.1.map (fun value => (value, cursor.varint.2.left)) ∧
          cursor.MovesTo cursor.varint.2 := by
  refine ⟨?numbers, ?signed, ?refused, fun bytes rest value => rest_of_varintGroups,
    rest_signedVarint, ?places⟩
  case numbers =>
    intro value groups rest fits spells
    exact varint_of_spells spells fits rest
  case signed =>
    intro value groups rest fits spells
    exact signedVarint_of_varint (varint_of_spells spells (folded_lt fits) rest)
  case refused =>
    intro bytes
    exact ⟨varintGroups_eq_none_iff 11 0 bytes, signedVarint_eq_none_iff bytes⟩
  case places =>
    intro cursor
    exact ⟨cursor.varint_left, Cursor.varintGroups_movesTo 11 0 cursor⟩

/-- The groups of the largest number that fits a word. -/
def widestGroups : List Nat :=
  List.replicate 10 63 ++ [15]

theorem varint_reads_groups_widest :
    Spells widestGroups (2 ^ 64 - 1) ∧ folded (-(2 ^ 63 - 1)) = 2 ^ 64 - 1 ∧
      varint (groupBytes widestGroups ++ [7]) = some (2 ^ 64 - 1, [7]) ∧
      signedVarint (groupBytes widestGroups ++ [7]) = some (-(2 ^ 63 - 1), [7]) ∧
      Spells (groupsOf 300 ++ List.replicate 9 0) 300 ∧
      varint (groupBytes (groupsOf 300 ++ List.replicate 9 0) ++ [7]) = some (300, [7]) ∧
      11 < groupCount (groupBytes (widestGroups ++ [0])) ∧
      varint (groupBytes (widestGroups ++ [0])) = none ∧
      groupCount (groupBytes widestGroups) ≤ (groupBytes widestGroups).length := by
  have widest : Spells widestGroups (2 ^ 64 - 1) := ⟨by decide, by decide, by decide, by decide⟩
  have padded : Spells (groupsOf 300 ++ List.replicate 9 0) 300 :=
    spells_padded (by simp [groupsOf])
  rcases varint_reads_groups with ⟨numbers, signed, refused, taken, _⟩
  have read := numbers (2 ^ 64 - 1) widestGroups [] (by decide) widest
  rw [List.append_nil] at read
  refine ⟨widest, by decide, numbers _ _ [7] (by decide) widest, signed _ _ [7] (by decide) widest,
    padded, numbers 300 _ [7] (by decide) padded, by decide, ?_, (taken _ [] _ read).1⟩
  exact (refused _).1.mpr (.inr (by decide))

end StackSampler.LineTable
