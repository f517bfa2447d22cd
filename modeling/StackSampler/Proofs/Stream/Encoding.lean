import StackSampler.Stream.Encoder

/-!
# Encoding records one after the other

The stream of some records continues the stream of the first ones among them.  Each record adds
the definitions that it needs, and then one item that stands for the record itself.
-/

namespace StackSampler.Stream

/-- The encoder after several records. -/
def encoderAfter (records : List Record) : Encoder :=
  (({} : Encoder).encodeEach records).2

/-- The items of several records in turn. -/
def Encoder.itemsEach (encoder : Encoder) : List Record → List Item
  | [] => []
  | record :: rest => (encoder.items record).1 ++ (encoder.items record).2.itemsEach rest

/-- Whether an item only says what a number stands for. -/
def Item.isDefinition : Item → Bool
  | .text _ _ => true
  | .frame _ _ _ _ _ => true
  | _ => false

namespace Encoder

theorem flatten_encodeEach (encoder : Encoder) (records : List Record) :
    (encoder.encodeEach records).1.flatten =
      (encoder.itemsEach records).flatMap Item.bytes := by
  induction records generalizing encoder with
  | nil => rfl
  | cons record rest induction =>
      simp only [encodeEach, encode, itemsEach, List.flatten_cons, List.flatMap_append, induction]

theorem encodeEach_append (encoder : Encoder) (front back : List Record) :
    encoder.encodeEach (front ++ back) =
      ((encoder.encodeEach front).1 ++ ((encoder.encodeEach front).2.encodeEach back).1,
        ((encoder.encodeEach front).2.encodeEach back).2) := by
  induction front generalizing encoder with
  | nil => rfl
  | cons first rest induction =>
      simp only [List.cons_append, encodeEach, induction]

theorem encodeEach_concat (encoder : Encoder) (records : List Record) (record : Record) :
    encoder.encodeEach (records ++ [record]) =
      ((encoder.encodeEach records).1 ++ [((encoder.encodeEach records).2.encode record).1],
        ((encoder.encodeEach records).2.encode record).2) := by
  rw [encodeEach_append]
  rfl

theorem itemsEach_append (encoder : Encoder) (front back : List Record) :
    encoder.itemsEach (front ++ back) =
      encoder.itemsEach front ++ (encoder.encodeEach front).2.itemsEach back := by
  induction front generalizing encoder with
  | nil => rfl
  | cons first rest induction =>
      simp only [List.cons_append, itemsEach, encodeEach, encode, induction, List.append_assoc]

/-- A record ends with an item that is no definition. -/
theorem items_eq_concat (encoder : Encoder) (record : Record) :
    ∃ definitions own, (encoder.items record).1 = definitions ++ [own] ∧
      own.isDefinition = false := by
  cases record with
  | header start => exact ⟨[], _, rfl, rfl⟩
  | threadName thread name => exact ⟨_, _, rfl, rfl⟩
  | sample taken => exact ⟨_, _, rfl, rfl⟩
  | marker failed => exact ⟨[], _, rfl, rfl⟩

end Encoder

theorem encoderAfter_concat (records : List Record) (record : Record) :
    encoderAfter (records ++ [record]) = ((encoderAfter records).items record).2 := by
  rw [encoderAfter, Encoder.encodeEach_concat]
  rfl

theorem streamOf_eq (records : List Record) :
    streamOf records = preamble ++ (({} : Encoder).itemsEach records).flatMap Item.bytes := by
  rw [streamOf, Encoder.flatten_encodeEach]

theorem streamOf_append (front back : List Record) :
    streamOf (front ++ back) =
      streamOf front ++ ((encoderAfter front).itemsEach back).flatMap Item.bytes := by
  rw [streamOf_eq, streamOf_eq, Encoder.itemsEach_append, List.flatMap_append, List.append_assoc]
  rfl

theorem streamOf_concat (records : List Record) (record : Record) :
    streamOf (records ++ [record]) =
      streamOf records ++ ((encoderAfter records).items record).1.flatMap Item.bytes := by
  rw [streamOf_append]
  simp only [Encoder.itemsEach, List.append_nil]

end StackSampler.Stream
