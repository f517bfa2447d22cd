import StackSampler.Proofs.LineTable.Exactness
import StackSampler.Proofs.LineTable.Varints

/-!
# Tables of locations

A location entry covers one to eight code units and moves the line in one of five forms, which take
up different numbers of bytes.  A table is the entries' bytes one after the other, so whoever looks
up an offset has to pass over each entry exactly to find the next.

The main statement is `lineAt_tableOf`: a lookup adds the deltas of all entries up to and including
the first that reaches beyond the offset.
-/

namespace StackSampler.LineTable

/-! ## Entries -/

/-- A line delta of an entry. -/
structure LineDelta where
  value : Int
  moderate : value.natAbs < 2 ^ 31

/-- What an entry says about its code units. -/
inductive Location where
  /-- The same line, and a column in one byte. -/
  | short (code : Fin 10) (column : UInt8)
  /-- A line not far below, and two columns. -/
  | oneLine (delta : Fin 3) (column endColumn : UInt8)
  /-- A line and no columns. -/
  | noColumns (delta : LineDelta)
  /-- A line and, as numbers of any size, the last line and two columns. -/
  | long (delta : LineDelta) (endLine column endColumn : UInt32)
  /-- No location. -/
  | none

namespace Location

/-- The code of a form. -/
def code : Location → Nat
  | .short code _ => code
  | .oneLine delta _ _ => 10 + delta
  | .noColumns _ => 13
  | .long _ _ _ _ => 14
  | .none => 15

/-- How far the line moves. -/
def delta : Location → Int
  | .short _ _ | .none => 0
  | .oneLine delta _ _ => (delta : Nat)
  | .noColumns delta | .long delta _ _ _ => delta.value

/-- The bytes behind the header. -/
def fields : Location → List UInt8
  | .short _ column => [column]
  | .oneLine _ column endColumn => [column, endColumn]
  | .noColumns delta => signedVarintBytes delta.value
  | .long delta endLine column endColumn =>
      signedVarintBytes delta.value ++ varintBytes endLine.toNat ++ varintBytes column.toNat ++
        varintBytes endColumn.toNat
  | .none => []

theorem code_lt (location : Location) : location.code < 16 := by
  cases location <;> simp only [code] <;> omega

theorem natAbs_delta_lt (location : Location) : location.delta.natAbs < 2 ^ 31 := by
  cases location with
  | short | none => simp [delta]
  | oneLine move =>
      simp only [delta]
      omega
  | noColumns move | long move => exact move.moderate

/-- Each form is read back and passed over exactly. -/
theorem locationDelta_fields (location : Location) (rest : List UInt8) :
    locationDelta location.code (location.fields ++ rest) = some (location.delta, rest) := by
  have signed (delta : LineDelta) (after : List UInt8) :=
    signedVarint_signedVarintBytes (delta.moderate.trans (by decide : 2 ^ 31 < 2 ^ 63)) after
  have unsigned (column : UInt32) (after : List UInt8) :=
    varint_varintBytes (column.toNat_lt.trans (by decide : 2 ^ 32 < 2 ^ 64)) after
  cases location with
  | short code column =>
      have small : code.val < 10 := code.isLt
      have others : code.val ≠ 15 ∧ code.val ≠ 14 ∧ code.val ≠ 13 ∧ ¬ 10 ≤ code.val := by omega
      simp [locationDelta, Location.code, fields, skip, Location.delta, others]
  | oneLine delta column endColumn =>
      have small : delta.val < 3 := delta.isLt
      have others : 10 + delta.val ≠ 15 ∧ 10 + delta.val ≠ 14 ∧ 10 + delta.val ≠ 13 := by omega
      simp [locationDelta, Location.code, fields, skip, Location.delta, others]
  | noColumns delta =>
      simp [locationDelta, Location.code, fields, Location.delta, signed]
  | long delta endLine column endColumn =>
      simp [locationDelta, Location.code, fields, Location.delta, signed, unsigned]
  | none => rfl

end Location

/-- An entry of a location table. -/
structure LocationEntry where
  /-- One less than the number of code units. -/
  more : Fin 8
  location : Location

namespace LocationEntry

/-- The number of code units. -/
def length (entry : LocationEntry) : Nat :=
  entry.more + 1

/-- How far the line moves. -/
def delta (entry : LocationEntry) : Int :=
  entry.location.delta

/-- The byte that announces the form and the length. -/
def header (entry : LocationEntry) : UInt8 :=
  UInt8.ofNat (128 + 8 * entry.location.code + entry.more)

/-- The bytes of an entry. -/
def bytes (entry : LocationEntry) : List UInt8 :=
  entry.header :: entry.location.fields

theorem toNat_header (entry : LocationEntry) :
    entry.header.toNat = 128 + 8 * entry.location.code + entry.more := by
  have code := entry.location.code_lt
  have more := entry.more.isLt
  apply UInt8.toNat_ofNat_of_lt'
  simp only [UInt8.size]
  omega

end LocationEntry

/-- The table of some entries. -/
def tableOf (entries : List LocationEntry) : List UInt8 :=
  entries.flatMap (·.bytes)

/-- The number of code units that some entries cover. -/
def lengthOf (entries : List LocationEntry) : Nat :=
  (entries.map (·.length)).sum

/-- How far some entries move the line. -/
def deltaOf (entries : List LocationEntry) : Int :=
  (entries.map LocationEntry.delta).sum

@[simp]
theorem lengthOf_nil : lengthOf [] = 0 :=
  rfl

@[simp]
theorem lengthOf_cons (entry : LocationEntry) (entries : List LocationEntry) :
    lengthOf (entry :: entries) = entry.length + lengthOf entries :=
  rfl

/-- The entries up to and including the first that reaches beyond a code unit, or all of them. -/
def through (unit : Nat) (entries : List LocationEntry) : List LocationEntry :=
  match (List.range entries.length).find? fun count =>
      unit < lengthOf (entries.take (count + 1)) with
  | some count => entries.take (count + 1)
  | none => entries

@[simp]
theorem through_nil (unit : Nat) : through unit [] = [] :=
  rfl

/-- The first entry is taken in any case; what comes behind it is seen from its end. -/
theorem through_cons (unit : Nat) (entry : LocationEntry) (entries : List LocationEntry) :
    through unit (entry :: entries) =
      entry :: if unit < entry.length then [] else through (unit - entry.length) entries := by
  have shifted (count : Nat) (outside : ¬ unit < entry.length) :
      unit < entry.length + lengthOf (entries.take count) ↔
        unit - entry.length < lengthOf (entries.take count) := by
    omega
  simp only [through, List.length_cons, List.range_succ_eq_map, List.find?_cons, List.find?_map,
    Function.comp_def, List.take_succ_cons, List.take_zero, lengthOf_cons, lengthOf_nil,
    Nat.add_zero]
  by_cases inside : unit < entry.length
  · simp [inside]
  · simp only [inside, decide_false, if_false, shifted _ inside]
    cases List.find? _ (List.range entries.length) with
    | none => rfl
    | some count => rfl

theorem through_sublist (unit : Nat) (entries : List LocationEntry) :
    (through unit entries).Sublist entries := by
  rw [through]
  split
  · exact List.take_sublist _ _
  · exact List.Sublist.refl _

/-! ## Looking up -/

/--
A lookup takes the entries up to the one that reaches beyond the unit.  `start` is where the first
of them starts; the places stay below the largest offset, so no sum is cut off.
-/
theorem locationDeltas_tableOf {unit : Nat} (reachable : unit < 2 ^ 31)
    (entries : List LocationEntry) :
    ∀ {fuel start : Nat}, (tableOf entries).length ≤ fuel → start ≤ unit →
      locationDeltas unit fuel start (tableOf entries) =
        (through (unit - start) entries).map LocationEntry.delta := by
  induction entries with
  | nil =>
      intro fuel start _ _
      cases fuel <;> rfl
  | cons entry rest induction =>
      intro fuel start enough before
      have table : tableOf (entry :: rest) =
          entry.header :: (entry.location.fields ++ tableOf rest) := rfl
      rw [table] at enough ⊢
      obtain ⟨fuel, rfl⟩ : ∃ less, fuel = less + 1 := ⟨fuel - 1, by simp at enough; omega⟩
      have code := entry.location.code_lt
      have more := entry.more.isLt
      have form : entry.header.toNat / 8 % 16 = entry.location.code := by
        rw [entry.toNat_header]
        omega
      have next : advance start (entry.header.toNat % 8 + 1) = start + entry.length := by
        rw [entry.toNat_header, advance, LocationEntry.length, limit]
        simp only [UInt32.size]
        omega
      simp only [locationDeltas, form, entry.location.locationDelta_fields, next]
      rw [through_cons, List.map_cons]
      congr 1
      by_cases inside : unit < start + entry.length
      · rw [if_pos inside, if_pos (by omega)]
        rfl
      · rw [if_neg inside, if_neg (by omega), Nat.sub_sub]
        apply induction _ (by omega)
        simp only [List.length_cons, List.length_append] at enough
        omega

theorem natAbs_deltaOf_le (entries : List LocationEntry) :
    (deltaOf entries).natAbs ≤ entries.length * 2 ^ 31 := by
  have small : ∀ delta ∈ entries.map LocationEntry.delta, delta.natAbs ≤ 2 ^ 31 := by
    intro delta mem
    rcases List.mem_map.mp mem with ⟨entry, -, rfl⟩
    exact Nat.le_of_lt entry.location.natAbs_delta_lt
  simpa only [deltaOf, List.length_map] using natAbs_sum_le _ small

/-- Fewer than `2 ^ 31` entries cannot take the line out of a word. -/
theorem isWord_deltaOf (firstLine : UInt32) {entries : List LocationEntry}
    (few : entries.length < 2 ^ 31) : IsWord (firstLine.toNat + deltaOf entries) := by
  have total : (deltaOf entries).natAbs ≤ 2 ^ 62 :=
    calc
      _ ≤ entries.length * 2 ^ 31 := natAbs_deltaOf_le _
      _ ≤ 2 ^ 31 * 2 ^ 31 := Nat.mul_le_mul_right _ (Nat.le_of_lt few)
  have first := firstLine.toNat_lt
  rw [isWord_iff]
  omega

/-- The line of an offset is moved by all entries up to the one that reaches beyond it. -/
theorem lineAt_tableOf (firstLine : UInt32) (entries : List LocationEntry) (offset : UInt32)
    (few : entries.length < 2 ^ 31) :
    lineAt .locationTable firstLine (tableOf entries) offset =
      some (clampLine (firstLine.toNat + deltaOf (through (offset.toNat / 2) entries))) := by
  have reachable : offset.toNat / 2 < 2 ^ 31 := by
    have bound := offset.toNat_lt
    omega
  have taken : deltas .locationTable (tableOf entries) offset =
      (through (offset.toNat / 2) entries).map LocationEntry.delta :=
    locationDeltas_tableOf reachable entries (Nat.le_refl _) (Nat.zero_le _)
  have stays (count : Nat) : IsWord (firstLine.toNat +
      (((through (offset.toNat / 2) entries).map LocationEntry.delta).take count).sum) := by
    rw [← List.map_take]
    apply isWord_deltaOf
    have fewer := (List.take_sublist count _).trans (through_sublist (offset.toNat / 2) entries)
    exact Nat.lt_of_le_of_lt fewer.length_le few
  rw [lineAt_locationTable, taken, foldlM_moveLine stays]
  rfl

/-- An entry of each form: the line goes to 11, 12, 9, 9 and 9. -/
def oneOfEach : List LocationEntry :=
  [ ⟨1, .noColumns ⟨1, by decide⟩⟩, ⟨2, .oneLine 1 4 8⟩, ⟨0, .long ⟨-3, by decide⟩ 0 2 5⟩,
    ⟨0, .none⟩, ⟨1, .short 0 16⟩ ]

theorem lineAt_tableOf_oneOfEach :
    oneOfEach.length < 2 ^ 31 ∧ lineAt .locationTable 10 (tableOf oneOfEach) 10 = some 9 :=
  ⟨by decide, (lineAt_tableOf 10 oneOfEach 10 (by decide)).trans (by decide)⟩

end StackSampler.LineTable
