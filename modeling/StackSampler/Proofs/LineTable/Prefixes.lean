import StackSampler.Proofs.LineTable.Exactness

/-!
# Prefixes of line tables

A table may be cut off anywhere: behind an entry, in half a pair, in a number of several groups, or
in the column fields of an entry whose move of the line has been read already.  The entries of a
prefix are the complete entries of the table that lie inside it, whether the table is well-formed or
not, and a lookup depends on nothing else.

The main statement is `lineAt_take`: a prefix that holds the entry at which a lookup stops gives the
same line, and any other the line after its last complete entry.
-/

namespace StackSampler.LineTable

/-! ## Readers that are cut off -/

section

variable {α β : Type}

/-- What is read from the first `count` of some bytes, given what is read from all of them: the same
if the bytes that were taken are still there, and nothing otherwise. -/
def cutOff (bytes : List UInt8) (count : Nat) :
    Option (α × List UInt8) → Option (α × List UInt8)
  | none => none
  | some (value, rest) =>
      if bytes.length ≤ rest.length + count then
        some (value, rest.take (rest.length + count - bytes.length))
      else none

theorem cutOff_kept {bytes rest : List UInt8} {value : α} {count : Nat}
    (kept : bytes.length ≤ rest.length + count) :
    cutOff bytes count (some (value, rest)) =
      some (value, rest.take (rest.length + count - bytes.length)) := by
  rw [cutOff, if_pos kept]

theorem cutOff_lost {bytes rest : List UInt8} {value : α} {count : Nat}
    (lost : rest.length + count < bytes.length) :
    cutOff bytes count (some (value, rest)) = none := by
  rw [cutOff, if_neg (Nat.not_le.mpr lost)]

/-- A reader goes by the bytes that it takes, and needs them all. -/
structure IsSteady (read : List UInt8 → Option (α × List UInt8)) : Prop where
  shorter : ∀ {bytes value rest}, read bytes = some (value, rest) → rest.length ≤ bytes.length
  take : ∀ bytes count, read (bytes.take count) = cutOff bytes count (read bytes)

theorem isSteady_pure (value : α) : IsSteady fun bytes => some (value, bytes) where
  shorter := by
    intro bytes value rest read
    cases read
    exact Nat.le_refl _
  take := by
    intro bytes count
    simp [cutOff]

theorem IsSteady.bind {read : List UInt8 → Option (α × List UInt8)} (steady : IsSteady read)
    {next : α → List UInt8 → Option (β × List UInt8)}
    (steadyNext : ∀ value, IsSteady (next value)) :
    IsSteady fun bytes => (read bytes).bind fun (value, rest) => next value rest where
  shorter := by
    intro bytes value rest isRead
    rcases Option.bind_eq_some_iff.mp isRead with ⟨⟨first, after⟩, isFirst, isNext⟩
    exact ((steadyNext first).shorter isNext).trans (steady.shorter isFirst)
  take := by
    intro bytes count
    simp only [steady.take]
    cases isFirst : read bytes with
    | none => rfl
    | some answer =>
        rcases answer with ⟨first, after⟩
        have taken := steady.shorter isFirst
        rw [Option.bind_some]
        by_cases kept : bytes.length ≤ after.length + count
        · rw [cutOff_kept kept, Option.bind_some, (steadyNext first).take]
          cases isNext : next first after with
          | none => rfl
          | some answer =>
              rcases answer with ⟨value, rest⟩
              have takenNext := (steadyNext first).shorter isNext
              by_cases keptNext : bytes.length ≤ rest.length + count
              · have left : rest.length + (after.length + count - bytes.length) - after.length =
                    rest.length + count - bytes.length := by
                  omega
                rw [cutOff_kept keptNext, cutOff_kept (by omega), left]
              · rw [cutOff_lost (by omega), cutOff_lost (by omega)]
        · rw [cutOff_lost (by omega)]
          cases isNext : next first after with
          | none => rfl
          | some answer =>
              rcases answer with ⟨value, rest⟩
              have takenNext := (steadyNext first).shorter isNext
              rw [cutOff_lost (by omega)]
              rfl

theorem IsSteady.map {read : List UInt8 → Option (α × List UInt8)} (steady : IsSteady read)
    (change : α → β) :
    IsSteady fun bytes => (read bytes).map fun (value, rest) => (change value, rest) := by
  have bound := steady.bind fun value => isSteady_pure (change value)
  convert bound using 2 with bytes
  rw [Option.map_eq_bind]
  rfl

theorem isSteady_none : IsSteady fun _ => (none : Option (α × List UInt8)) :=
  ⟨nofun, fun _ _ => rfl⟩

end

/-- The first byte, and those behind it. -/
def firstByte : List UInt8 → Option (UInt8 × List UInt8)
  | [] => none
  | byte :: rest => some (byte, rest)

theorem isSteady_firstByte : IsSteady firstByte where
  shorter := by
    intro bytes value rest isRead
    cases bytes with
    | nil => cases isRead
    | cons byte others =>
        cases isRead
        exact Nat.le_succ _
  take := by
    intro bytes count
    cases bytes with
    | nil => rw [List.take_nil]; rfl
    | cons byte rest =>
        cases count with
        | zero => exact (cutOff_lost (Nat.lt_succ_self _)).symm
        | succ count =>
            have left : rest.length + (count + 1) - (byte :: rest).length = count := by
              rw [List.length_cons]
              omega
            rw [firstByte, cutOff_kept (by simp), left]
            rfl

/-! ## Fields of the location table -/

theorem isSteady_skip {α : Type} (count : Nat) (value : α) :
    IsSteady fun bytes => (skip count bytes).map fun rest => (value, rest) := by
  induction count with
  | zero => exact isSteady_pure value
  | succ count induction =>
      have bound := isSteady_firstByte.bind fun _ => induction
      convert bound using 2 with bytes
      cases bytes with
      | nil => rfl
      | cons byte rest => simp [skip, firstByte]

theorem isSteady_varintGroups (groups shift : Nat) : IsSteady (varintGroups groups shift) := by
  induction groups generalizing shift with
  | zero => exact isSteady_none
  | succ groups induction =>
      let part (byte : UInt8) : Nat := ((byte.toNat % 64) <<< shift) % UInt64.size
      have behind (byte : UInt8) : IsSteady fun rest =>
          if byte.toNat / 64 % 2 = 1 then
            (varintGroups groups (shift + 6) rest).map (Prod.map (part byte + ·) id)
          else some (part byte, rest) := by
        by_cases marked : byte.toNat / 64 % 2 = 1
        · simp only [marked, if_true]
          exact (induction (shift + 6)).map (part byte + ·)
        · simp only [marked, if_false]
          exact isSteady_pure (part byte)
      convert isSteady_firstByte.bind behind using 2 with bytes
      cases bytes with
      | nil => rfl
      | cons byte rest => rfl

theorem isSteady_varint : IsSteady varint :=
  isSteady_varintGroups 11 0

theorem isSteady_signedVarint : IsSteady signedVarint :=
  isSteady_varint.map fun value =>
    if value % 2 = 1 then -((value / 2 : Nat) : Int) else ((value / 2 : Nat) : Int)

/-- A move that has been read counts for nothing if the fields behind it are cut off. -/
theorem isSteady_locationDelta (code : Nat) : IsSteady (locationDelta code) := by
  unfold locationDelta
  by_cases none : code = 15
  · simp only [none, if_true]
    exact isSteady_pure 0
  by_cases long : code = 14
  · simp only [long, if_true]
    exact isSteady_signedVarint.bind fun delta => isSteady_varint.bind fun _ =>
      isSteady_varint.bind fun _ => isSteady_varint.bind fun _ => isSteady_pure delta
  by_cases noColumns : code = 13
  · simp only [noColumns, if_true]
    exact isSteady_signedVarint
  by_cases oneLine : 10 ≤ code
  · simp only [none, long, noColumns, oneLine, if_true, if_false]
    exact isSteady_skip 2 _
  · simp only [none, long, noColumns, oneLine, if_false]
    exact isSteady_skip 1 _

/-! ## Entries -/

/-- A complete entry of a table, as far as a lookup looks at it. -/
structure Entry where
  /-- The number of bytes of the table that the entry takes. -/
  size : Nat
  /-- How much of the bytecode it covers. -/
  length : Nat
  /-- How far it moves the line. -/
  delta : Int
deriving DecidableEq

/-- The entries of a table of pairs, whose second byte moves the line. -/
def pairEntries (move : UInt8 → Int) : List UInt8 → List Entry
  | length :: delta :: rest => ⟨2, length.toNat, move delta⟩ :: pairEntries move rest
  | _ => []

/-- The entries of a location table, up to one that is incomplete or malformed. -/
def locationEntries : Nat → List UInt8 → List Entry
  | fuel + 1, header :: rest =>
      match locationDelta (header.toNat / 8 % 16) rest with
      | none => []
      | some (delta, after) =>
          ⟨1 + rest.length - after.length, header.toNat % 8 + 1, delta⟩ ::
            locationEntries fuel after
  | _, _ => []

/-- The complete entries of a table. -/
def entriesOf (format : LineFormat) (table : List UInt8) : List Entry :=
  match format with
  | .lnotab => pairEntries signedByte table
  | .lineTable =>
      pairEntries (fun byte => if signedByte byte = -128 then 0 else signedByte byte) table
  | .locationTable => locationEntries table.length table

/-- The number of bytes that some entries take. -/
def bytesIn (entries : List Entry) : Nat :=
  (entries.map (·.size)).sum

/-- How much of the bytecode some entries cover. -/
def coveredBy (entries : List Entry) : Nat :=
  (entries.map (·.length)).sum

/-- How far some entries move the line. -/
def movedOver (entries : List Entry) : Int :=
  (entries.map Entry.delta).sum

@[simp]
theorem bytesIn_cons (entry : Entry) (entries : List Entry) :
    bytesIn (entry :: entries) = entry.size + bytesIn entries :=
  rfl

@[simp]
theorem coveredBy_cons (entry : Entry) (entries : List Entry) :
    coveredBy (entry :: entries) = entry.length + coveredBy entries :=
  rfl

/-- The entries that lie inside the first `cut` bytes. -/
def inside : Nat → List Entry → List Entry
  | cut, entry :: rest =>
      if entry.size ≤ cut then entry :: inside (cut - entry.size) rest else []
  | _, [] => []

/-! ## Entries of a prefix -/

theorem pairEntries_take (move : UInt8 → Int) (table : List UInt8) (cut : Nat) :
    pairEntries move (table.take cut) = inside cut (pairEntries move table) := by
  fun_induction pairEntries move table generalizing cut with
  | case1 length delta rest induction =>
      match cut with
      | 0 => rfl
      | 1 => rfl
      | cut + 2 =>
          rw [inside, if_pos (Nat.le_add_left 2 cut), ← induction]
          rfl
  | case2 table short =>
      match table, cut with
      | [], _ => rw [List.take_nil]; rfl
      | [_], 0 => rfl
      | [_], _ + 1 => rw [List.take_succ_cons, List.take_nil]; rfl
      | length :: delta :: rest, _ => exact absurd rfl (short length delta rest)

/-- The first entry is read from a prefix if it lies inside, and the others as `behind` says. -/
theorem locationEntries_take_cons {fuel less : Nat} {header : UInt8} {rest : List UInt8} (cut : Nat)
    (behind : ∀ delta after, locationDelta (header.toNat / 8 % 16) rest = some (delta, after) →
      rest.length ≤ after.length + cut →
        locationEntries less (after.take (after.length + cut - rest.length)) =
          inside (after.length + cut - rest.length) (locationEntries fuel after)) :
    locationEntries (less + 1) (header :: rest.take cut) =
      inside (cut + 1) (locationEntries (fuel + 1) (header :: rest)) := by
  have steady := isSteady_locationDelta (header.toNat / 8 % 16)
  simp only [locationEntries, steady.take]
  cases isRead : locationDelta (header.toNat / 8 % 16) rest with
  | none => rfl
  | some answer =>
      rcases answer with ⟨delta, after⟩
      have shorter := steady.shorter isRead
      by_cases kept : rest.length ≤ after.length + cut
      · have size : 1 + (rest.take cut).length -
            (after.take (after.length + cut - rest.length)).length =
              1 + rest.length - after.length := by
          simp only [List.length_take]
          omega
        have left : cut + 1 - (1 + rest.length - after.length) =
            after.length + cut - rest.length := by
          omega
        rw [cutOff_kept kept]
        simp only [inside]
        rw [if_pos (by omega), size, left, behind delta after isRead kept]
      · rw [cutOff_lost (by omega)]
        simp only [inside]
        rw [if_neg (by omega)]

/-- Nothing is read from no bytes, since each entry takes one at least. -/
theorem inside_zero_locationEntries (fuel : Nat) (table : List UInt8) :
    inside 0 (locationEntries fuel table) = [] := by
  rw [locationEntries.eq_def]
  split
  case h_1 header rest =>
    cases isRead : locationDelta (header.toNat / 8 % 16) rest with
    | none => rfl
    | some answer =>
        have shorter := (isSteady_locationDelta _).shorter isRead
        simp only [inside]
        rw [if_neg (by omega)]
  case h_2 => rfl

theorem locationEntries_take {fuel less : Nat} {table : List UInt8} (cut : Nat)
    (enough : table.length ≤ fuel) (enoughLess : (table.take cut).length ≤ less) :
    locationEntries less (table.take cut) = inside cut (locationEntries fuel table) := by
  induction fuel generalizing table cut less with
  | zero =>
      cases List.eq_nil_of_length_eq_zero (Nat.le_zero.mp enough)
      rw [List.take_nil]
      cases less <;> rfl
  | succ fuel induction =>
      cases table with
      | nil =>
          rw [List.take_nil]
          cases less <;> rfl
      | cons header rest =>
          cases cut with
          | zero =>
              rw [List.take_zero, inside_zero_locationEntries]
              cases less <;> rfl
          | succ cut =>
              rw [List.take_succ_cons, List.length_cons] at enoughLess
              obtain ⟨less, rfl⟩ : ∃ fewer, less = fewer + 1 := ⟨less - 1, by omega⟩
              rw [List.length_cons] at enough
              rw [List.take_succ_cons]
              refine locationEntries_take_cons cut fun delta after isRead kept => ?_
              have shorter := (isSteady_locationDelta _).shorter isRead
              apply induction
              · omega
              · rw [List.length_take] at enoughLess ⊢
                omega

/-- The entries of a prefix are the entries that lie inside it. -/
theorem entriesOf_take (format : LineFormat) (table : List UInt8) (cut : Nat) :
    entriesOf format (table.take cut) = inside cut (entriesOf format table) := by
  cases format with
  | lnotab => exact pairEntries_take signedByte table cut
  | lineTable => exact pairEntries_take _ table cut
  | locationTable => exact locationEntries_take cut (Nat.le_refl _) (Nat.le_refl _)

/-- How many entries lie inside is told by the bytes that the first of them take. -/
theorem inside_eq_take (cut : Nat) (entries : List Entry) :
    ∃ count ≤ entries.length, inside cut entries = entries.take count ∧
      ∀ first ≤ entries.length, first ≤ count ↔ bytesIn (entries.take first) ≤ cut := by
  induction entries generalizing cut with
  | nil =>
      refine ⟨0, Nat.le_refl 0, rfl, fun first few => ?_⟩
      rw [List.take_nil]
      exact iff_of_true few (Nat.zero_le cut)
  | cons entry rest induction =>
      by_cases fits : entry.size ≤ cut
      · rcases induction (cut - entry.size) with ⟨count, few, taken, counts⟩
        refine ⟨count + 1, Nat.succ_le_succ few, ?_, ?_⟩
        · rw [inside, if_pos fits, taken, List.take_succ_cons]
        · intro first isFirst
          cases first with
          | zero => exact iff_of_true (Nat.zero_le _) (Nat.zero_le cut)
          | succ first =>
              rw [List.take_succ_cons, bytesIn_cons, Nat.succ_le_succ_iff,
                counts first (Nat.le_of_succ_le_succ isFirst)]
              omega
      · refine ⟨0, Nat.zero_le _, ?_, ?_⟩
        · rw [inside, if_neg fits, List.take_zero]
        · intro first isFirst
          cases first with
          | zero => exact iff_of_true (Nat.le_refl 0) (Nat.zero_le cut)
          | succ first =>
              rw [List.take_succ_cons, bytesIn_cons]
              omega

/-! ## Where a lookup stops -/

/-- The place of an offset in the units of a table. -/
def positionOf (format : LineFormat) (offset : UInt32) : Nat :=
  match format with
  | .lnotab | .lineTable => offset.toNat
  | .locationTable => offset.toNat / 2

/-- A lookup stops at an entry: it is the first that reaches beyond the position. -/
structure StopsAt (start position : Nat) (entries : List Entry) (stop : Nat) : Prop where
  isEntry : stop < entries.length
  notBefore : advance start (coveredBy (entries.take stop)) ≤ position
  beyond : position < advance start (coveredBy (entries.take (stop + 1)))

/-- Whether the entry at which a lookup stops moves the line. -/
def countsStop : LineFormat → Bool
  | .lnotab => false
  | .lineTable | .locationTable => true

/-- The moves that a lookup takes from entries. -/
def movesTo (counts : Bool) (position : Nat) : Nat → List Entry → List Int
  | start, entry :: rest =>
      let next := advance start entry.length
      if position < next then (if counts then [entry.delta] else [])
      else entry.delta :: movesTo counts position next rest
  | _, [] => []

theorem advance_add (start length more : Nat) :
    advance start (length + more) = advance (advance start length) more := by
  simp only [advance]
  omega

theorem advance_le (start length : Nat) : advance start length ≤ limit :=
  Nat.min_le_right _ _

theorem le_advance_advance (start length more : Nat) :
    advance start length ≤ advance (advance start length) more := by
  simp only [advance]
  omega

section

variable {start position stop : Nat} {entries : List Entry}

theorem stopsAt_take_iff {count : Nat} (isEntry : stop < (entries.take count).length) :
    StopsAt start position (entries.take count) stop ↔ StopsAt start position entries stop := by
  have inside : stop < count ∧ stop < entries.length := by
    rwa [List.length_take, Nat.lt_min] at isEntry
  have same (first : Nat) (few : first ≤ count) :
      (entries.take count).take first = entries.take first := by
    rw [List.take_take, Nat.min_eq_left few]
  constructor
  · rintro ⟨-, notBefore, beyond⟩
    rw [same _ (Nat.le_of_lt inside.1)] at notBefore
    rw [same _ inside.1] at beyond
    exact ⟨inside.2, notBefore, beyond⟩
  · rintro ⟨-, notBefore, beyond⟩
    refine ⟨isEntry, ?_, ?_⟩
    · rwa [same _ (Nat.le_of_lt inside.1)]
    · rwa [same _ inside.1]

/-- What comes behind the entry at which a lookup stops makes no difference. -/
theorem movesTo_take (counts : Bool) (stops : StopsAt start position entries stop) :
    movesTo counts position start (entries.take (stop + 1)) =
      movesTo counts position start entries := by
  induction entries generalizing start stop with
  | nil => rw [List.take_nil]
  | cons entry rest induction =>
      rcases stops with ⟨isEntry, notBefore, beyond⟩
      rw [List.take_succ_cons] at beyond ⊢
      cases stop with
      | zero =>
          have reaches : position < advance start entry.length := beyond
          rw [movesTo, movesTo, if_pos reaches, if_pos reaches]
      | succ stop =>
          rw [List.take_succ_cons, coveredBy_cons, advance_add] at notBefore
          rw [coveredBy_cons, advance_add] at beyond
          have passed : ¬ position < advance start entry.length :=
            Nat.not_lt.mpr ((le_advance_advance _ _ _).trans notBefore)
          rw [movesTo, movesTo, if_neg passed, if_neg passed,
            induction ⟨Nat.lt_of_succ_lt_succ isEntry, notBefore, beyond⟩]

/-- A lookup takes the moves of all entries that it passes. -/
theorem movesTo_append (counts : Bool) (inRange : start ≤ limit)
    (passed : advance start (coveredBy entries) ≤ position) (behind : List Entry) :
    movesTo counts position start (entries ++ behind) =
      entries.map Entry.delta ++
        movesTo counts position (advance start (coveredBy entries)) behind := by
  induction entries generalizing start with
  | nil =>
      have stays : advance start 0 = start := Nat.min_eq_left inRange
      rw [show coveredBy [] = 0 from rfl, stays]
      rfl
  | cons entry rest induction =>
      rw [coveredBy_cons, advance_add] at passed ⊢
      have goesOn : ¬ position < advance start entry.length :=
        Nat.not_lt.mpr ((le_advance_advance _ _ _).trans passed)
      rw [List.cons_append, movesTo, if_neg goesOn, induction (advance_le _ _) passed,
        List.map_cons, List.cons_append]

/-- A lookup stops at the first entry that reaches beyond the position. -/
theorem exists_stopsAt (before : start ≤ position)
    (beyond : position < advance start (coveredBy entries)) :
    ∃ stop, StopsAt start position entries stop := by
  induction entries generalizing start with
  | nil =>
      have reached : position < advance start 0 := beyond
      rw [advance] at reached
      omega
  | cons entry rest induction =>
      rw [coveredBy_cons, advance_add] at beyond
      by_cases reaches : position < advance start entry.length
      · refine ⟨0, Nat.zero_lt_succ _, ?_, reaches⟩
        show advance start 0 ≤ position
        rw [advance]
        omega
      · rcases induction (Nat.not_lt.mp reaches) beyond with ⟨stop, isEntry, notBefore, ends⟩
        refine ⟨stop + 1, Nat.succ_lt_succ isEntry, ?_, ?_⟩
        · rwa [List.take_succ_cons, coveredBy_cons, advance_add]
        · rwa [List.take_succ_cons, coveredBy_cons, advance_add]

end

/-! ## Lookups -/

theorem lnotabDeltas_eq (offset start : Nat) (table : List UInt8) :
    lnotabDeltas offset start table =
      movesTo false offset start (pairEntries signedByte table) := by
  fun_induction lnotabDeltas offset start table with
  | case1 start length delta rest next inside => simp [pairEntries, movesTo, next, inside]
  | case2 start length delta rest next outside induction =>
      rw [pairEntries, movesTo, if_neg outside, induction]
  | case3 start table short =>
      rw [pairEntries.eq_def]
      split
      · exact absurd rfl (short _ _ _)
      · rfl

theorem rangeDeltas_eq (offset start : Nat) (table : List UInt8) :
    rangeDeltas offset start table = movesTo true offset start
      (pairEntries (fun byte => if signedByte byte = -128 then 0 else signedByte byte) table) := by
  fun_induction rangeDeltas offset start table with
  | case1 start length delta rest moved next induction =>
      rw [pairEntries, movesTo]
      by_cases inside : offset < next
      · rw [if_pos inside, if_pos inside]
        rfl
      · rw [if_neg inside, if_neg inside, induction]
  | case2 start table short =>
      rw [pairEntries.eq_def]
      split
      · exact absurd rfl (short _ _ _)
      · rfl

theorem locationDeltas_eq (unit fuel start : Nat) (table : List UInt8) :
    locationDeltas unit fuel start table =
      movesTo true unit start (locationEntries fuel table) := by
  fun_induction locationDeltas unit fuel start table with
  | case1 fuel start header rest broken => simp [locationEntries, broken, movesTo]
  | case2 fuel start header rest delta after isRead next induction =>
      simp only [locationEntries, isRead]
      rw [movesTo]
      by_cases inside : unit < next
      · rw [if_pos inside, if_pos inside]
        rfl
      · rw [if_neg inside, if_neg inside, induction]
  | case3 fuel start table short =>
      rw [locationEntries.eq_def]
      split
      · exact absurd rfl (short _ _ _ rfl)
      · rfl

/-- A lookup looks at nothing but the complete entries. -/
theorem deltas_eq (format : LineFormat) (table : List UInt8) (offset : UInt32) :
    deltas format table offset =
      movesTo (countsStop format) (positionOf format offset) 0 (entriesOf format table) := by
  cases format with
  | lnotab => exact lnotabDeltas_eq offset.toNat 0 table
  | lineTable => exact rangeDeltas_eq offset.toNat 0 table
  | locationTable => exact locationDeltas_eq (offset.toNat / 2) table.length 0 table

theorem lineAt_congr {format : LineFormat} {firstLine : UInt32} {table other : List UInt8}
    {offset : UInt32} (same : deltas format table offset = deltas format other offset) :
    lineAt format firstLine table offset = lineAt format firstLine other offset := by
  cases format with
  | lnotab => simp_all only [lineAt, reachedLine, lnotabLine_eq, deltas]
  | lineTable => simp_all only [lineAt, reachedLine, rangeLine_eq, deltas]
  | locationTable => rw [lineAt_locationTable, lineAt_locationTable, same]

/-- A line that stays in a word does so for a lookup that takes fewer deltas. -/
theorem StaysInWord.of_take {format : LineFormat} {firstLine : UInt32} {table other : List UInt8}
    {offset : UInt32} {count : Nat} (stays : StaysInWord format firstLine table offset)
    (fewer : deltas format other offset = (deltas format table offset).take count) :
    StaysInWord format firstLine other offset := by
  intro taken
  rw [lineAfter, fewer, List.take_take]
  exact stays (min taken count)

/--
A lookup in the first `cut` bytes of a table, which need not be well-formed.  If the entry at which
the lookup stops in the whole table lies inside the prefix, or all complete entries do, the line is
the same.  Otherwise, as long as the line stays in a word, it is the line after the last complete
entry that lies inside.
-/
theorem lineAt_take (format : LineFormat) (firstLine : UInt32) (table : List UInt8) (cut : Nat)
    (offset : UInt32) :
    (∀ stop, StopsAt 0 (positionOf format offset) (entriesOf format table) stop →
      bytesIn ((entriesOf format table).take (stop + 1)) ≤ cut →
        lineAt format firstLine (table.take cut) offset =
          lineAt format firstLine table offset) ∧
    (bytesIn (entriesOf format table) ≤ cut →
      lineAt format firstLine (table.take cut) offset =
        lineAt format firstLine table offset) ∧
    (StaysInWord format firstLine table offset →
      (∀ stop, StopsAt 0 (positionOf format offset) (entriesOf format table) stop →
        cut < bytesIn ((entriesOf format table).take (stop + 1))) →
          lineAt format firstLine (table.take cut) offset =
            some (clampLine
              (firstLine.toNat + movedOver (inside cut (entriesOf format table))))) := by
  rcases inside_eq_take cut (entriesOf format table) with ⟨count, few, taken, counts⟩
  have prefixMoves : deltas format (table.take cut) offset = movesTo (countsStop format)
      (positionOf format offset) 0 ((entriesOf format table).take count) := by
    rw [deltas_eq, entriesOf_take, taken]
  have length : ((entriesOf format table).take count).length = count := by
    rw [List.length_take, Nat.min_eq_left few]
  refine ⟨?_, ?_, ?_⟩
  · intro stop stops fits
    have enough : stop + 1 ≤ count := (counts (stop + 1) stops.isEntry).mpr fits
    have stopsInside := (stopsAt_take_iff (length.symm ▸ enough)).mpr stops
    apply lineAt_congr
    rw [prefixMoves, deltas_eq, ← movesTo_take _ stopsInside, List.take_take,
      Nat.min_eq_left enough, movesTo_take _ stops]
  · intro all
    have whole : (entriesOf format table).length ≤ count :=
      (counts _ (Nat.le_refl _)).mpr (by rwa [List.take_length])
    apply lineAt_congr
    rw [prefixMoves, deltas_eq, List.take_of_length_le whole]
  · intro stays passes
    have passed : advance 0 (coveredBy ((entriesOf format table).take count)) ≤
        positionOf format offset := by
      by_contra beyond
      rcases exists_stopsAt (Nat.zero_le _) (Nat.not_le.mp beyond) with ⟨stop, stops⟩
      have isEntry : stop + 1 ≤ count := length ▸ stops.isEntry
      have fits := (counts (stop + 1) (isEntry.trans few)).mp isEntry
      exact absurd (passes stop ((stopsAt_take_iff stops.isEntry).mp stops)) (Nat.not_lt.mpr fits)
    have goesOn (behind : List Entry) :=
      movesTo_append (countsStop format) (Nat.zero_le limit) passed behind
    have prefixDeltas : deltas format (table.take cut) offset =
        ((entriesOf format table).take count).map Entry.delta := by
      have none := goesOn []
      rw [List.append_nil] at none
      rw [prefixMoves, none, movesTo, List.append_nil]
    have fewer : deltas format (table.take cut) offset =
        (deltas format table offset).take count := by
      rw [prefixDeltas, deltas_eq, ← List.take_append_drop count (entriesOf format table), goesOn,
        List.take_append_drop, List.take_left' (by rw [List.length_map, length])]
    rw [lineAt_of_staysInWord (stays.of_take fewer), exactLine, prefixDeltas, taken]
    rfl

/--
The second entry is cut off behind its move of the line, and counts for nothing.  With all its
fields it is the entry that the lookup stops at.
-/
theorem lineAt_take_backAndForth :
    StopsAt 0 2 (entriesOf .locationTable backAndForth) 1 ∧
      StaysInWord .locationTable 10 backAndForth 4 ∧
        lineAt .locationTable 10 (backAndForth.take 7) 4 = some 8 ∧
          lineAt .locationTable 10 (backAndForth.take 5) 4 = some 11 := by
  have entries : entriesOf .locationTable backAndForth = [⟨2, 2, 1⟩, ⟨5, 1, -3⟩, ⟨1, 1, 0⟩] := by
    decide
  have stops : StopsAt 0 2 (entriesOf .locationTable backAndForth) 1 := by
    rw [entries]
    exact ⟨by decide, by decide, by decide⟩
  have stays : StaysInWord .locationTable 10 backAndForth 4 :=
    staysInWord_of_moderate 10 (by decide) (by decide)
  have passes : ∀ stop, StopsAt 0 2 (entriesOf .locationTable backAndForth) stop →
      5 < bytesIn ((entriesOf .locationTable backAndForth).take (stop + 1)) := by
    rw [entries]
    rintro stop ⟨isEntry, notBefore, beyond⟩
    match stop with
    | 0 => exact absurd beyond (by decide)
    | 1 => decide
    | 2 => exact absurd notBefore (by decide)
  have answers := lineAt_take .locationTable 10 backAndForth
  refine ⟨stops, stays, ?_, ?_⟩
  · exact ((answers 7 4).1 1 stops (by decide)).trans (by decide)
  · exact ((answers 5 4).2.2 stays passes).trans (by decide)

end StackSampler.LineTable
