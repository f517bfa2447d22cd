import Mathlib.Data.Nat.Digits.Lemmas
import StackSampler.LineTable

/-!
# Numbers of six-bit groups

The location table writes its numbers in groups of six bits, the lowest first, one group a byte;
all bytes but the last carry a mark that another group follows.  A signed number has its sign in the
lowest bit.  Reading undoes this for every number that fits a word, whatever follows it.
-/

namespace StackSampler.LineTable

/-- One byte for each group; all but the last are marked. -/
def groupBytes : List Nat → List UInt8
  | [] => []
  | [group] => [UInt8.ofNat group]
  | group :: next :: rest => UInt8.ofNat (group + 64) :: groupBytes (next :: rest)

/-- The groups of a number, of which there is at least one. -/
def groupsOf (value : Nat) : List Nat :=
  if value = 0 then [0] else Nat.digits 64 value

/-- An unsigned number. -/
def varintBytes (value : Nat) : List UInt8 :=
  groupBytes (groupsOf value)

/-- A signed number: its magnitude above a bit that says whether it is below zero. -/
def signedVarintBytes (value : Int) : List UInt8 :=
  varintBytes (2 * value.natAbs + if value < 0 then 1 else 0)

theorem groupsOf_ne_nil (value : Nat) : groupsOf value ≠ [] := by
  rw [groupsOf]
  split
  · exact List.cons_ne_nil 0 []
  · rwa [ne_eq, Nat.digits_eq_nil_iff_eq_zero]

theorem groupsOf_lt {value group : Nat} (mem : group ∈ groupsOf value) : group < 64 := by
  rw [groupsOf] at mem
  split at mem
  · have zero : group = 0 := List.mem_singleton.mp mem
    omega
  · exact Nat.digits_lt_base (by decide) mem

theorem ofDigits_groupsOf (value : Nat) : Nat.ofDigits 64 (groupsOf value) = value := by
  rw [groupsOf]
  split
  case isTrue zero => simp [zero]
  case isFalse => exact Nat.ofDigits_digits 64 value

theorem length_groupsOf_le {value count : Nat} (positive : 0 < count) (fits : value < 64 ^ count) :
    (groupsOf value).length ≤ count := by
  rw [groupsOf]
  split
  · exact positive
  · exact (Nat.digits_length_le_iff (by decide) value).mpr fits

/--
Groups are read back as far as the places of a word reach: `shift` is the place of the first, and
the number stays below `2 ^ 64`.
-/
theorem varintGroups_groupBytes (groups : List Nat) (rest : List UInt8) :
    ∀ (fuel shift : Nat), groups ≠ [] → (∀ group ∈ groups, group < 64) → groups.length ≤ fuel →
      2 ^ shift * Nat.ofDigits 64 groups < 2 ^ 64 →
        varintGroups fuel shift (groupBytes groups ++ rest) =
          some (2 ^ shift * Nat.ofDigits 64 groups, rest) := by
  induction groups with
  | nil => exact fun _ _ nonempty => absurd rfl nonempty
  | cons group others induction =>
      intro fuel shift _ small enough fits
      obtain ⟨fuel, rfl⟩ : ∃ less, fuel = less + 1 := ⟨fuel - 1, by simp at enough; omega⟩
      have bound : group < 64 := small group List.mem_cons_self
      have total : Nat.ofDigits 64 (group :: others) = group + 64 * Nat.ofDigits 64 others := by
        simp [Nat.ofDigits_cons]
      rw [total, Nat.mul_add] at fits
      have part : (group <<< shift) % UInt64.size = 2 ^ shift * group := by
        rw [Nat.shiftLeft_eq, Nat.mul_comm]
        apply Nat.mod_eq_of_lt
        exact Nat.lt_of_le_of_lt (Nat.le_add_right _ _) fits
      cases others with
      | nil =>
          have byte : (UInt8.ofNat group).toNat = group :=
            UInt8.toNat_ofNat_of_lt' (by simp [UInt8.size]; omega)
          have last : group / 64 % 2 ≠ 1 := by omega
          simp only [groupBytes, List.singleton_append, varintGroups, byte, last, if_false,
            Nat.mod_eq_of_lt bound, part]
          simp
      | cons next others =>
          have byte : (UInt8.ofNat (group + 64)).toNat = group + 64 :=
            UInt8.toNat_ofNat_of_lt' (by simp [UInt8.size]; omega)
          have marked : (group + 64) / 64 % 2 = 1 := by omega
          have payload : (group + 64) % 64 = group := by omega
          have place : 2 ^ (shift + 6) * Nat.ofDigits 64 (next :: others) =
              2 ^ shift * (64 * Nat.ofDigits 64 (next :: others)) := by
            rw [Nat.pow_add, Nat.mul_assoc]
          have later := induction fuel (shift + 6) (List.cons_ne_nil _ _)
            (fun other mem => small other (List.mem_cons_of_mem _ mem))
            (by simpa using enough)
            (by rw [place]; exact Nat.lt_of_le_of_lt (Nat.le_add_left _ _) fits)
          simp only [groupBytes, List.cons_append, varintGroups, byte, marked, if_true, payload,
            part, later, Option.map_some]
          rw [place, total, Nat.mul_add]

/-- A number that fits a word is read back. -/
theorem varint_varintBytes {value : Nat} (fits : value < 2 ^ 64) (rest : List UInt8) :
    varint (varintBytes value ++ rest) = some (value, rest) := by
  have few : (groupsOf value).length ≤ 11 := length_groupsOf_le (by decide) (by omega)
  have read := varintGroups_groupBytes (groupsOf value) rest 11 0 (groupsOf_ne_nil value)
    (fun _ mem => groupsOf_lt mem) few
    (by rw [ofDigits_groupsOf]; simpa using fits)
  rw [ofDigits_groupsOf, Nat.pow_zero, Nat.one_mul] at read
  exact read

/-- The number that stands for a signed one: its magnitude above a bit for its sign. -/
def folded (value : Int) : Nat :=
  2 * value.natAbs + if value < 0 then 1 else 0

theorem folded_lt {value : Int} (fits : value.natAbs < 2 ^ 63) : folded value < 2 ^ 64 := by
  rw [folded]
  split <;> omega

/-- A signed number is read where the number that stands for it is. -/
theorem signedVarint_of_varint {value : Int} {bytes rest : List UInt8}
    (read : varint bytes = some (folded value, rest)) :
    signedVarint bytes = some (value, rest) := by
  rw [signedVarint, read, folded]
  by_cases negative : value < 0
  · have odd : (2 * value.natAbs + 1) % 2 = 1 := by omega
    have half : (2 * value.natAbs + 1) / 2 = value.natAbs := by omega
    simp only [negative, if_true, odd, half, Option.map_some]
    congr 2
    omega
  · have even : 2 * value.natAbs % 2 ≠ 1 := by omega
    have half : 2 * value.natAbs / 2 = value.natAbs := by omega
    simp only [negative, if_false, Nat.add_zero, even, half, Option.map_some]
    congr 2
    omega

/-- A signed number whose magnitude leaves room for the sign is read back. -/
theorem signedVarint_signedVarintBytes {value : Int} (fits : value.natAbs < 2 ^ 63)
    (rest : List UInt8) :
    signedVarint (signedVarintBytes value ++ rest) = some (value, rest) :=
  signedVarint_of_varint (varint_varintBytes (folded_lt fits) rest)

end StackSampler.LineTable
