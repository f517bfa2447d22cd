import StackSampler.Proofs.Json.Fields
import StackSampler.Proofs.Json.RoundTrip

/-!
# Contents that are read back

A way to write contents is faithful to a form if what it writes is a plain value, of which the form
takes the same content again.  Being faithful passes from the parts of a document to the whole.
-/

namespace StackSampler.Json

variable {α : Type} {form : Form α} {toJson : α → Value}

/-- What is written is plain, and the form takes the same content from it again. -/
structure Faithful (form : Form α) (toJson : α → Value) : Prop where
  plain (content : α) : IsPlain (toJson content)
  read (content : α) : form (toJson content) = .ok content

/-- A faithful form takes the content back from the printed text. -/
theorem Faithful.decode_parse_print (faithful : Faithful form toJson) (content : α) :
    decode form (parse (print (toJson content))) = .ok content := by
  rw [parse_print (faithful.plain content), decode, faithful.read]

/-! ## Numbers, words and texts -/

theorem natural_faithful : Faithful natural ofNat where
  plain value := .natural value
  read _ := rfl

theorem flag_faithful : Faithful flag .bool where
  plain value := .bool value
  read _ := rfl

theorem string_faithful : Faithful string .text where
  plain value := .text value
  read _ := rfl

theorem isPlain_ofInt {value : Int} (low : -2 ^ 63 ≤ value) : IsPlain (ofInt value) := by
  rw [ofInt]
  split
  case isTrue negative => exact .negative low negative
  case isFalse => exact .natural _

theorem integerIn_ofInt {low high value : Int} (bounds : low ≤ value ∧ value ≤ high)
    (fits : value < 2 ^ 64) : integerIn low high (ofInt value) = .ok value := by
  by_cases negative : value < 0
  · simp [ofInt, negative, integerIn, bounds]
  · have same : (value.toNat.toUInt64.toNat : Int) = value := by
      simp
      omega
    simp only [ofInt, negative, if_false, integerIn, same, bounds, and_self, if_true]

theorem int32_ofInt (value : Int32) : int32 (ofInt value.toInt) = .ok value.toInt := by
  have low := value.le_toInt
  have high := value.toInt_lt
  have least : Int32.minValue.toInt = -2 ^ 31 := by decide
  have greatest : Int32.maxValue.toInt = 2 ^ 31 - 1 := by decide
  exact integerIn_ofInt (by omega) (by omega)

theorem word32_faithful : Faithful word32 fun value => ofInt value.toNat where
  plain value := isPlain_ofInt (by omega)
  read value := by
    have high := value.toNat_lt
    rw [word32, integerIn_ofInt (by simp [UInt32.size]; omega) (by omega)]
    simp

theorem byte_faithful : Faithful byte fun value => ofInt value.toNat where
  plain value := isPlain_ofInt (by omega)
  read value := by
    have high := value.toNat_lt
    rw [byte, integerIn_ofInt (by omega) (by omega)]
    simp

/-! ## Options and lists -/

/-- Null stands for what is absent, so what is there may not be written as null. -/
theorem Faithful.option (faithful : Faithful form toJson)
    (present : ∀ content, toJson content ≠ .null) :
    Faithful (optional form) (ofOption toJson) where
  plain
    | none => .null
    | some content => faithful.plain content
  read
    | none => rfl
    | some content => by
      rw [ofOption, optional.eq_def]
      split
      case h_1 absent => exact absurd absent (present content)
      case h_2 => rw [faithful.read, map_ok]

theorem itemsOf_map (faithful : Faithful form toJson) (contents : List α) :
    itemsOf form none (contents.map toJson) = .ok contents := by
  induction contents with
  | nil => rfl
  | cons content others induction =>
      rw [List.map_cons, itemsOf, faithful.read, induction]
      rfl

theorem Faithful.list (faithful : Faithful form toJson) :
    Faithful (listOf form) (ofList toJson) where
  plain contents := by
    apply IsPlain.array
    intro item mem
    rcases List.mem_map.mp mem with ⟨content, -, rfl⟩
    exact faithful.plain content
  read contents := itemsOf_map faithful contents

end StackSampler.Json
